import SpscQueue.Proofs.ExactlyOnce
import SpscQueue.Proofs.Pausing

namespace SpscQueue

universe u

variable {α : Type u}

/-- Somebody who holds the storage of a queue. -/
inductive Owner
  | handle (role : Role)
  | monitor (id : Nat)
deriving DecidableEq, Repr

/-- Who holds the storage after a step that got through. A new monitor takes the place of one that has
the same number, and it may be a clone of that very one. -/
def Step.pass (owners : List Owner) : Step α → List Owner
  | .close role => owners.filter (· ≠ .handle role)
  | .addMonitor id _ => .monitor id :: owners.filter (· ≠ .monitor id)
  | .closeMonitor id => owners.filter (· ≠ .monitor id)
  | _ => owners

/-- Who holds the storage after a step, which counts only if it got through. -/
def Deed.pass (owners : List Owner) (d : Deed α) : List Owner :=
  match d.result with
  | .done => d.step.pass owners
  | _ => owners

/-- Who holds the storage of a queue after some deeds. At first its two handles do. -/
def owners (deeds : List (Deed α)) : List Owner :=
  deeds.foldl Deed.pass [.handle .producer, .handle .consumer]

theorem owners_append (deeds more : List (Deed α)) :
    owners (deeds ++ more) = more.foldl Deed.pass (owners deeds) := List.foldl_append

theorem mem_insertAscending {n m : Nat} {numbers : List Nat} :
    m ∈ insertAscending n numbers ↔ m = n ∨ m ∈ numbers := by
  induction numbers with
  | nil => simp [insertAscending]
  | cons first rest ih =>
    unfold insertAscending
    split
    · exact List.mem_cons
    · split
      · rename_i same
        rw [same, List.mem_cons, ← or_assoc, or_self]
      · rw [List.mem_cons, ih, List.mem_cons, or_left_comm]

namespace Session

variable {role who : Role} {s middle after : Session α} {deeds more : List (Deed α)} {step : Step α}
  {result : Result α} {held : List Owner}

/-- The owners of the storage are the handles that are not closed and the monitors. -/
structure OwnedBy (s : Session α) (held : List Owner) : Prop where
  handle (role : Role) : .handle role ∈ held ↔ s.queue.closed role = false
  monitor (id : Nat) : .monitor id ∈ held ↔ id ∈ s.monitors
  ascending : s.monitors.Pairwise (· < ·)

namespace OwnedBy

variable (owned : s.OwnedBy held)

include owned

theorem of_same (closed : ∀ role, after.queue.closed role = s.queue.closed role)
    (monitors : after.monitors = s.monitors) : after.OwnedBy held where
  handle role := by rw [closed, owned.handle]
  monitor id := by rw [monitors, owned.monitor]
  ascending := by
    rw [monitors]
    exact owned.ascending

theorem owned_eq_false_iff : s.owned = false ↔ held = [] := by
  rw [Session.owned_eq_false_iff, List.eq_nil_iff_forall_not_mem (l := held)]
  constructor
  · rintro ⟨closed, none⟩ owner
    cases owner with
    | handle role => rw [owned.handle, closed]; exact Bool.noConfusion
    | monitor id => rw [owned.monitor, none]; exact List.not_mem_nil
  · intro nobody
    refine ⟨fun role => ?_, List.eq_nil_iff_forall_not_mem.mpr fun id => ?_⟩
    · rw [← Bool.not_eq_false, ← owned.handle]
      exact nobody _
    · rw [← owned.monitor]
      exact nobody _

/-- A handle is closed. -/
theorem close (closed : after.queue.closed role = true)
    (other : after.queue.closed role.peer = s.queue.closed role.peer)
    (monitors : after.monitors = s.monitors) :
    after.OwnedBy (held.filter (· ≠ .handle role)) where
  handle who := by
    rcases role.eq_or_eq_peer who with rfl | rfl
    · simp [closed]
    · have apart : role.peer ≠ role := by cases role <;> exact Role.noConfusion
      simp [apart, owned.handle, other]
  monitor id := by simp [monitors, owned.monitor]
  ascending := by
    rw [monitors]
    exact owned.ascending

theorem addMonitor (id : Nat) :
    ({ s with monitors := insertAscending id s.monitors } : Session α).OwnedBy
      (.monitor id :: held.filter (· ≠ .monitor id)) where
  handle role := Iff.trans (by simp) (owned.handle role)
  monitor other := by
    have known := owned.monitor other
    by_cases same : other = id
    · subst same
      simp [mem_insertAscending]
    · simp [mem_insertAscending, same, known]
  ascending := (insertAscending_ascending owned.ascending).1

theorem closeMonitor (id : Nat) :
    ({ s with monitors := s.monitors.erase id } : Session α).OwnedBy
      (held.filter (· ≠ .monitor id)) where
  handle role := Iff.trans (by simp) (owned.handle role)
  monitor other := by
    have distinct : s.monitors.Nodup := owned.ascending.imp Nat.ne_of_lt
    have known := owned.monitor other
    rw [distinct.mem_erase_iff]
    simp [known, and_comm]
  ascending := owned.ascending.sublist List.erase_sublist

end OwnedBy

/-- The deeds tell who holds the storage afterwards. -/
def Passes (s after : Session α) (deeds : List (Deed α)) : Prop :=
  ∀ held, s.OwnedBy held → after.OwnedBy (deeds.foldl Deed.pass held)

theorem Passes.refl (s : Session α) : Passes s s [] := fun _ owned => owned

theorem Passes.trans (first : Passes s middle deeds) (second : Passes middle after more) :
    Passes s after (deeds ++ more) := by
  intro held owned
  rw [List.foldl_append]
  exact second _ (first held owned)

theorem passes_same (closed : ∀ role, after.queue.closed role = s.queue.closed role)
    (monitors : after.monitors = s.monitors) : Passes s after [] :=
  fun _ owned => owned.of_same closed monitors

/-- A step that neither makes nor ends an owner. -/
theorem passes_aside (aside : ∀ held, step.pass held = held)
    (closed : ∀ role, after.queue.closed role = s.queue.closed role)
    (monitors : after.monitors = s.monitors) : Passes s after [⟨step, result⟩] := by
  intro held owned
  have kept : Deed.pass held ⟨step, result⟩ = held := by
    unfold Deed.pass
    split
    · exact aside held
    · rfl
  rw [List.foldl_cons, List.foldl_nil, kept]
  exact owned.of_same closed monitors

theorem passes_refused (refused : result = .gone ∨ result = .busy) :
    Passes s s ((plain result).deeds step) := by
  rw [deeds_plain]
  rcases refused with rfl | rfl <;> exact fun _ owned => owned

theorem withHandle_passes {use : Session α → Session α × Report α}
    (uses : Passes s (use s).1 ((use s).2.deeds step)) :
    Passes s (s.withHandle who use).1 ((s.withHandle who use).2.deeds step) := by
  unfold withHandle
  split
  · rename_i refused
    exact passes_refused (obstacle_cases refused)
  · exact uses

theorem withMonitor_passes {use : Session α → Session α × Report α} {id : Nat}
    (uses : Passes s (use s).1 ((use s).2.deeds step)) :
    Passes s (s.withMonitor id use).1 ((s.withMonitor id use).2.deeds step) := by
  unfold withMonitor
  split
  · exact uses
  · exact passes_refused (.inl rfl)

/-- A call that gets on leaves the owners as they are. -/
theorem passes_absorb {advance : Advance α}
    (alike : Queue.Alike role s.queue advance.exchange.queue) :
    Passes s (s.absorb advance).1 [] := by
  refine passes_same (fun who => ?_) (absorb_aside s advance).1
  unfold queue
  rw [absorb_exchange]
  exact alike.closed who

theorem carryThrough_passes {plan : Meanwhile (Step α)} {act : Interlude α}
    (acts : ∀ pause s, Passes s (act pause s).1 (noted plan pause (act pause s).2))
    (pauses : List Pause) (s : Session α) :
    Passes s (carryThrough role act pauses s).session
      (Report.deedsMeanwhile plan (carryThrough role act pauses s).meanwhile) := by
  induction pauses generalizing s with
  | nil => exact .refl s
  | cons pause pauses ih =>
    rw [carryThrough_cons]
    dsimp only
    rw [deedsMeanwhile_noted]
    have passed : Passes s { s with exchange := s.exchange.passTo role pause } [] :=
      passes_same (fun who => congrArg (Queue.closed · who) (Exchange.passTo_queue ..)) rfl
    have acted := passed.trans (acts pause _)
    rw [List.nil_append] at acted
    refine acted.trans ?_
    generalize act pause { s with exchange := s.exchange.passTo role pause } = now
    have moved := passes_absorb (s := now.1) (Exchange.proceed_beside now.1.exchange role).1
    split
    · rename_i ended result finished
      rw [finished] at moved
      exact moved
    · rename_i next unfinished
      rw [unfinished] at moved
      exact moved.trans (ih next)

theorem call_passes {call : Call α role} (aside : ∀ held, step.pass held = held) {act : Interlude α}
    (acts : ∀ pause s, Passes s (act pause s).1 (noted step.meanwhile pause (act pause s).2))
    (pauses : List Pause) (s : Session α) :
    Passes s (s.call call act pauses).1 ((s.call call act pauses).2.deeds step) := by
  refine withHandle_passes ?_
  have started := passes_absorb (s := s) (Exchange.start_beside s.exchange call).1
  have told (result : Result α) (last : Session α) : Passes last last [⟨step, result⟩] :=
    passes_aside aside (fun _ => rfl) rfl
  rw [Report.deeds]
  unfold carry
  split
  · rename_i ended result finished
    rw [finished] at started
    exact started.trans (told result ended)
  · rename_i moved unfinished
    rw [unfinished] at started
    exact (started.trans (carryThrough_passes acts pauses moved)).trans (told _ _)

mutual

theorem perform_passes : ∀ (step : Step α) (s : Session α),
    Passes s (perform step s).1 ((perform step s).2.deeds step)
  | .push item force meanwhile, s => by
    rw [perform]
    exact call_passes (fun _ => rfl) (act_passes meanwhile) _ s
  | .tryPush item, s => by
    rw [perform]
    refine withHandle_passes ?_
    rw [deeds_plain]
    exact passes_aside (fun _ => rfl) (s.queue.alike_tryPush item).closed rfl
  | .flush, s => by
    rw [perform]
    refine withHandle_passes ?_
    rw [deeds_plain]
    exact passes_aside (fun _ => rfl) (s.queue.alike_publish .producer).closed rfl
  | .pop meanwhile, s => by
    rw [perform]
    exact call_passes (fun _ => rfl) (act_passes meanwhile) _ s
  | .popBatch keep meanwhile, s => by
    rw [perform]
    refine withHandle_passes ?_
    have emptied : Passes s (if keep then s else { s with collected := [] }) [] := by
      split <;> exact fun _ owned => owned.of_same (fun _ => rfl) rfl
    exact emptied.trans (call_passes (fun _ => rfl) (act_passes meanwhile) _ _)
  | .tryPop, s => by
    rw [perform]
    refine withHandle_passes ?_
    rw [deeds_plain]
    exact passes_aside (fun _ => rfl) s.queue.alike_tryPop.closed rfl
  | .inspect who, s => by
    rw [perform]
    refine withHandle_passes ?_
    rw [deeds_plain]
    exact passes_aside (fun _ => rfl) (fun _ => rfl) rfl
  | .describe who, s => by
    rw [perform]
    refine withHandle_passes ?_
    rw [deeds_plain]
    exact passes_aside (fun _ => rfl) (fun _ => rfl) rfl
  | .close who, s => by
    rw [perform]
    refine withHandle_passes fun held owned => ?_
    have closed : (s.queue.close who).1.closed who = true := by cases who <;> rfl
    exact owned.close closed (s.queue.close_closed_peer who) rfl
  | .addMonitor id (.handle who), s => by
    rw [perform]
    exact withHandle_passes fun held owned => owned.addMonitor id
  | .addMonitor id (.monitor other), s => by
    rw [perform]
    exact withMonitor_passes fun held owned => owned.addMonitor id
  | .inspectMonitor id, s => by
    rw [perform]
    refine withMonitor_passes ?_
    rw [deeds_plain]
    exact passes_aside (fun _ => rfl) (fun _ => rfl) rfl
  | .describeMonitor id, s => by
    rw [perform]
    refine withMonitor_passes ?_
    rw [deeds_plain]
    exact passes_aside (fun _ => rfl) (fun _ => rfl) rfl
  | .closeMonitor id, s => by
    rw [perform]
    exact withMonitor_passes fun held owned => owned.closeMonitor id
  | .hold, s => passes_aside (fun _ => rfl) (fun _ => rfl) rfl
  | .release, s => passes_aside (fun _ => rfl) (fun _ => rfl) rfl

theorem performAll_passes : ∀ (steps : List (Step α)) (s : Session α),
    Passes s (performAll steps s).1 (Report.deedsOfAll steps (performAll steps s).2)
  | [], s => .refl s
  | step :: steps, s => (perform_passes step s).trans (performAll_passes steps _)

theorem act_passes : ∀ (plan : Meanwhile (Step α)) (pause : Pause) (s : Session α),
    Passes s (act plan pause s).1 (noted plan pause (act plan pause s).2)
  | .nothing, _, s => .refl s
  | .during planned steps rest, pause, s => by
    by_cases here : planned = pause
    · have all := performAll_passes steps s
      rw [act, if_pos here, noted, Meanwhile.at?, if_pos here]
      exact all
    · have later := act_passes rest pause s
      rw [act, if_neg here, noted_eq (Meanwhile.at?_during_other steps rest here)]
      exact later

end

namespace Chronicle

variable {x : Exchange α} {items : List α} {results : List (Result α)} {resumed : List (Resumption α)}
  {dropped : List α}

/-- What follows a step passes nothing on, so the owners are those that its deeds tell. -/
theorem step_ownedBy (sound : x.Sound items) (chronicle : Chronicle x s deeds results resumed dropped)
    (owned : s.OwnedBy held) (next : Step α) :
    (s.step next).1.OwnedBy (((s.step next).2.report.deeds next).foldl Deed.pass held) := by
  obtain ⟨monitors, _, closed⟩ := chronicle.step_aside sound next
  rw [step_report]
  exact (perform_passes next s held owned).of_same closed monitors

theorem steps_ownedBy (sound : x.Sound items) (chronicle : Chronicle x s deeds results resumed dropped)
    (owned : s.OwnedBy held) (list : List (Step α)) :
    (s.steps list).1.OwnedBy ((told list (s.steps list).2).foldl Deed.pass held) := by
  induction list generalizing s deeds results resumed dropped held with
  | nil => exact owned
  | cons next rest ih =>
    have first := chronicle.step_ownedBy sound owned next
    have later := ih (chronicle.step sound next) first
    rw [← List.foldl_append] at later
    exact later

/-- Nothing is dropped as long as somebody holds the storage. -/
theorem dropped_of_owned (chronicle : Chronicle x s deeds results resumed dropped)
    (owned : s.owned = true) : dropped = [] := by
  obtain ⟨_, _, _, _, ⟨_, _, none⟩ | ⟨gone, _⟩⟩ := chronicle.runs
  · exact none
  · rw [owned] at gone
    cases gone

end Chronicle

theorem ownedBy_of_opened {settings : Settings} {fresh : Session α}
    (opened : Session.ofSettings settings = .ok fresh) : fresh.OwnedBy (owners ([] : List (Deed α))) := by
  unfold Session.ofSettings at opened
  cases made : Queue.ofSettings (α := α) settings with
  | error cause => rw [made] at opened; cases opened
  | ok q =>
    rw [made] at opened
    cases opened
    refine ⟨fun role => ?_, fun id => ?_, .nil⟩
    · exact iff_of_true (by cases role <;> simp [owners]) (ofSettings_open made role)
    · exact iff_of_false (by simp [owners]) List.not_mem_nil

theorem steps_append (s : Session α) (list more : List (Step α)) :
    s.steps (list ++ more) =
      (((s.steps list).1.steps more).1, (s.steps list).2 ++ ((s.steps list).1.steps more).2) := by
  induction list generalizing s with
  | nil => rfl
  | cons next rest ih => simp only [List.cons_append, steps, ih]

theorem told_append (s : Session α) (list more : List (Step α)) (answers : List (Answer α)) :
    told (list ++ more) ((s.steps list).2 ++ answers) = told list (s.steps list).2 ++ told more answers := by
  induction list generalizing s with
  | nil => rfl
  | cons next rest ih =>
    have later := ih (s.step next).1
    unfold told at later ⊢
    simp only [List.cons_append, steps, List.map_cons, Report.deedsOfAll, List.append_assoc, later]

/-- A tear-down is made of steps like any others. -/
theorem tearDown_steps (s : Session α) : ∃ closings, s.tearDown = s.steps closings := by
  let freed := (s.steps (if s.held then [.release] else [])).1
  let closed := (freed.steps (freed.closingOrder.map .close)).1
  refine ⟨(if s.held then [.release] else []) ++ freed.closingOrder.map .close ++
    closed.monitors.map .closeMonitor, ?_⟩
  rw [steps_append, steps_append]
  rfl

/-- The storage lives exactly as long as somebody holds it. In the step after which neither a handle nor
a monitor is left, whichever went last, exactly the items that were accepted and not delivered are
dropped, in order, and no slot keeps one. No other step drops anything, nobody gets hold of the storage
again, and a tear-down leaves nobody who holds it. -/
theorem storage_lifetime {settings : Settings} {fresh : Session α}
    (opened : Session.ofSettings settings = .ok fresh) (steps : List (Step α)) :
    let ran := fresh.steps steps
    let held := owners (told steps ran.2)
    (∀ next : Step α,
      let made := ran.1.step next
      let left := owners (told (steps ++ [next]) (ran.2 ++ [made.2]))
      let results := (ran.2 ++ [made.2]).flatMap (·.results)
      (held ≠ [] → left = [] →
        results.filterMap Result.accepted = results.flatMap Result.delivered ++ made.2.dropped ∧
          ∀ i, made.1.queue.ring.occupant i = none) ∧
      (¬ (held ≠ [] ∧ left = []) → made.2.dropped = []) ∧
      (held = [] → left = [])) ∧
    ∃ closings, ran.1.tearDown = ran.1.steps closings ∧
      owners (told (steps ++ closings) (ran.2 ++ ran.1.tearDown.2)) = [] := by
  obtain ⟨_, sound, parted, chronicle⟩ := begins_of_opened opened
  have story := chronicle.steps sound steps
  have holds := chronicle.steps_ownedBy sound (ownedBy_of_opened opened) steps
  intro ran held
  have heldNow : held = [] ↔ ran.1.owned = false := holds.owned_eq_false_iff.symm
  refine ⟨fun next => ?_, ?_⟩
  · have later := story.step sound next
    have passes := story.step_ownedBy sound holds next
    intro made left results
    have same : left = (made.2.report.deeds next).foldl Deed.pass held := by
      show owners (told (steps ++ [next]) ((fresh.steps steps).2 ++ [made.2])) = _
      rw [told_append, owners_append]
      simp only [told, List.map_cons, List.map_nil, Report.deedsOfAll, List.append_nil]
      rfl
    have leftNow : left = [] ↔ made.1.owned = false := by
      rw [same]
      exact passes.owned_eq_false_iff.symm
    refine ⟨fun somebody nobody => ?_, fun other => ?_, fun nobody => ?_⟩
    · have before := story.dropped_of_owned (Bool.not_eq_false _ |>.mp (mt heldNow.mpr somebody))
      obtain ⟨balance, vacant⟩ := later.released sound parted (leftNow.mp nobody)
      rw [before, List.nil_append, List.nil_append] at balance
      refine ⟨?_, vacant⟩
      simpa only [results, List.flatMap_append, List.flatMap_singleton] using balance
    · -- the storage was given up before, or somebody still holds it
      by_cases nobody : held = []
      · show (ran.1.step next).2.dropped = []
        rw [Chronicle.step_of_unowned (heldNow.mp nobody)]
      · have somebody : ¬ left = [] := fun gone => other ⟨nobody, gone⟩
        have none := later.dropped_of_owned (Bool.not_eq_false _ |>.mp (mt leftNow.mpr somebody))
        exact (List.append_eq_nil_iff.mp none).2
    · refine leftNow.mpr ?_
      obtain ⟨monitors, _, closed⟩ := story.step_aside sound next
      obtain ⟨unnoticed, kept⟩ := perform_of_unowned next (heldNow.mp nobody)
      obtain ⟨gone, none⟩ := Session.owned_eq_false_iff.mp (heldNow.mp nobody)
      refine Session.owned_eq_false_iff.mpr ⟨fun role => ?_, monitors.trans (kept.trans none)⟩
      rw [closed, queue, unnoticed.1]
      exact gone role
  · obtain ⟨closings, same⟩ := ran.1.tearDown_steps
    refine ⟨closings, same, ?_⟩
    obtain ⟨_, closed, monitors, _⟩ := story.tearDown sound
    have last := story.steps_ownedBy sound holds closings
    rw [← same] at last
    show owners (told (steps ++ closings) ((fresh.steps steps).2 ++ ran.1.tearDown.2)) = []
    rw [told_append, owners_append]
    exact last.owned_eq_false_iff.mp (Session.owned_eq_false_iff.mpr ⟨closed, monitors⟩)

/-- A monitor is cloned, and replaced by a clone of itself, before both handles go. The consumer leaves
before the last push, and the producer with an item that it has shown nobody. -/
def partings : List (Step Nat) :=
  [.addMonitor 1 (.handle .producer), .addMonitor 2 (.monitor 1), .addMonitor 1 (.monitor 1),
    .tryPush 7, .tryPop, .push 8 false .nothing, .close .consumer, .push 9 false .nothing,
    .closeMonitor 1, .close .producer]

/-- The last monitor gives up the items, next to the top of the index range. -/
theorem storage_lifetime_last_monitor :
    ∃ fresh : Session Nat,
      Session.ofSettings ⟨2, by decide, 0, 0, 18446744073709551615, .whenShort, 8⟩ = .ok fresh ∧
        let ran := fresh.steps partings
        let made := ran.1.step (.closeMonitor 2)
        owners (told partings ran.2) = [.monitor 2] ∧ made.2.dropped = [8, 9] ∧
          ((ran.2 ++ [made.2]).flatMap (·.results)).filterMap Result.accepted =
            ((ran.2 ++ [made.2]).flatMap (·.results)).flatMap Result.delivered ++ made.2.dropped := by
  have opened : Session.ofSettings (α := Nat)
      ⟨2, by decide, 0, 0, 18446744073709551615, .whenShort, 8⟩ = .ok _ := rfl
  refine ⟨_, opened, ?_⟩
  obtain ⟨balance, _⟩ := ((storage_lifetime opened partings).1 (.closeMonitor 2)).1
    (by decide +kernel) (by decide +kernel)
  refine ⟨?_, ?_, ?_⟩
  · decide +kernel
  · decide +kernel
  · exact balance

end Session

end SpscQueue
