import SpscQueue.Proofs.Parting
import SpscQueue.Proofs.Settling
import SpscQueue.Proofs.Telling

namespace SpscQueue.Session

universe u

variable {α : Type u} {role : Role} {x : Exchange α} {s : Session α} {deeds : List (Deed α)}
  {results : List (Result α)} {resumed : List (Resumption α)} {dropped : List α}

/-- How a session stands to the exchange that its parties have run. Once nobody owns the storage it
is given up, and what was left in it is listed. -/
def Stands (s : Session α) (y : Exchange α) (dropped : List α) : Prop :=
  s.owned = true ∧ s.exchange = y ∧ dropped = [] ∨
    s.owned = false ∧ s.exchange = { y with queue := y.queue.release.2 } ∧ dropped = y.queue.release.1

/-- What has happened in a session since its parties were at `x`: the steps made, with their results,
are moves of the exchange, and every call that has parked either ended since or is still parked.
Nobody who could go on is left waiting, unless he is held back. -/
structure Chronicle (x : Exchange α) (s : Session α) (deeds : List (Deed α))
    (results : List (Result α)) (resumed : List (Resumption α)) (dropped : List α) : Prop where
  runs : ∃ moves y, x.Runs moves (results.filterMap Result.ofCall) y ∧
    (∀ role, moves.filter (Move.opens role) = openings role deeds) ∧ s.Stands y dropped
  calm (role : Role) : s.Calm role
  quiet : s.held = false → ∀ role, s.exchange.resumable role = false
  parkings (role : Role) :
    parkings role deeds = endings role resumed + (s.exchange.parked role).toNat

theorem owned_eq_false_iff :
    s.owned = false ↔ (∀ role, s.queue.closed role = true) ∧ s.monitors = [] := by
  unfold owned
  constructor
  · intro left
    simp only [Bool.or_eq_false_iff, Bool.not_eq_false', List.isEmpty_iff] at left
    obtain ⟨⟨producer, consumer⟩, monitors⟩ := left
    exact ⟨fun role => by cases role <;> assumption, monitors⟩
  · rintro ⟨closed, monitors⟩
    rw [closed, closed, monitors]
    rfl

theorem obstacle_of_closed (gone : s.queue.closed role = true) : s.obstacle role = some .gone :=
  if_pos gone

/-- When nobody owns the storage any longer no step gets through to the queue. -/
theorem perform_of_unowned (step : Step α) (left : s.owned = false) :
    Unnoticed s step (perform step s) ∧ (perform step s).1.monitors = s.monitors := by
  obtain ⟨closed, monitors⟩ := owned_eq_false_iff.mp left
  have refuses (who : Role) (use : Session α → Session α × Report α) :
      s.withHandle who use = (s, plain .gone) := by
    unfold withHandle
    rw [obstacle_of_closed (closed who)]
  have lacks (id : Nat) (use : Session α → Session α × Report α) :
      s.withMonitor id use = (s, plain .gone) := by
    unfold withMonitor
    rw [monitors]
    rfl
  have nothing {made : Session α × Report α} (refused : made = (s, plain .gone)) :
      Unnoticed s step made ∧ made.1.monitors = s.monitors := by
    subst refused
    exact ⟨⟨rfl, .gone, rfl, rfl, rfl⟩, rfl⟩
  cases step with
  | addMonitor id source =>
    refine nothing ?_
    rw [perform]
    cases source with
    | handle who => simp only [addMonitor, refuses]
    | monitor other => simp only [addMonitor, lacks]
  | hold | release =>
    refine ⟨perform_unnoticed rfl s, ?_⟩
    rw [perform]
  | _ =>
    refine nothing ?_
    rw [perform]
    simp only [call, tryPush, tryPop, close, refuses, lacks]

theorem settle_of_quiet (quiet : ∀ role, s.exchange.resumable role = false) :
    s.settle = (s, []) := by
  have next : s.nextResumable = none := by
    rcases s.next_cases with ⟨role, _, resumable⟩ | ⟨next, _⟩
    · rw [quiet] at resumable
      cases resumable
    · exact next
  unfold settle
  split
  · rfl
  · cases s.unrest with
    | zero => rfl
    | succ bound => simp only [settleWithin, next]

theorem releaseStorage_stands (s : Session α) :
    (s.releaseStorage).1.Stands s.exchange s.releaseStorage.2 := by
  unfold releaseStorage
  split
  · rename_i owned
    exact Or.inl ⟨owned, rfl, rfl⟩
  · rename_i left
    exact Or.inr ⟨Bool.eq_false_iff.mpr left, rfl, rfl⟩

/-- Giving the storage up is not noticed by the parties, for they are gone. -/
theorem releaseStorage_still (s : Session α) (role : Role) :
    (s.releaseStorage).1.exchange.current role = s.exchange.current role ∧
      (s.releaseStorage).1.exchange.resumable role = s.exchange.resumable role ∧
      (s.releaseStorage).1.queue.closed role = s.queue.closed role := by
  unfold releaseStorage
  split
  · exact ⟨rfl, rfl, rfl⟩
  · exact ⟨Exchange.current_withQueue _, by cases role <;> rfl, by cases role <;> rfl⟩

theorem releaseStorage_aside (s : Session α) :
    (s.releaseStorage).1.monitors = s.monitors ∧ (s.releaseStorage).1.held = s.held := by
  unfold releaseStorage
  split <;> exact ⟨rfl, rfl⟩

variable {items : List α}

namespace Chronicle

theorem sound_of_owned (sound : x.Sound items) (chronicle : Chronicle x s deeds results resumed dropped)
    (owned : s.owned = true) : ∃ left, s.exchange.Sound left := by
  obtain ⟨moves, y, run, _, stands⟩ := chronicle.runs
  obtain ⟨left, soundNow, _⟩ := sound.run run
  rcases stands with ⟨_, same, _⟩ | ⟨gone, _⟩
  · rw [same]
    exact ⟨left, soundNow⟩
  · rw [owned] at gone
    cases gone

/-- A party of a session that nobody owns is at rest. -/
theorem idle_of_unowned (sound : x.Sound items)
    (chronicle : Chronicle x s deeds results resumed dropped) (gone : s.owned = false) (role : Role) :
    s.exchange.current role = none := by
  obtain ⟨closed, _⟩ := owned_eq_false_iff.mp gone
  obtain ⟨moves, y, run, _, stands⟩ := chronicle.runs
  obtain ⟨left, soundNow, _⟩ := sound.run run
  rcases stands with ⟨owned, _⟩ | ⟨_, same, _⟩
  · rw [gone] at owned
    cases owned
  · have leaves : y.queue.closed role = true := by
      have closedHere := closed role
      unfold queue at closedHere
      rw [same] at closedHere
      cases role <;> exact closedHere
    rw [same, Exchange.current_withQueue]
    refine Exchange.busy_eq_false_iff.mp (Bool.eq_false_iff.mpr fun busy => ?_)
    have present := soundNow.present role busy
    rw [leaves] at present
    cases present

theorem unowned_awake (sound : x.Sound items)
    (chronicle : Chronicle x s deeds results resumed dropped) (gone : s.owned = false) (next : Step α)
    (role : Role) :
    (perform next s).1.exchange.current role = none ∧
      (perform next s).1.exchange.resumable role = false := by
  have idle : (perform next s).1.exchange.current role = none := by
    rw [(perform_of_unowned next gone).1.1]
    exact chronicle.idle_of_unowned sound gone role
  refine ⟨idle, ?_⟩
  show ((perform next s).1.exchange.parked role && _) = false
  rw [Exchange.parked_of_idle idle, Bool.false_and]

/-- After a step the parked parties go on until none of them can. -/
theorem settles (sound : x.Sound items) (chronicle : Chronicle x s deeds results resumed dropped)
    (next : Step α) :
    Resumes (perform next s).1 (perform next s).1.settle.1 (perform next s).1.settle.2 ∧
      ((perform next s).1.held = false → ∀ role,
        (perform next s).1.settle.1.exchange.resumable role = false) := by
  cases owned : s.owned with
  | true =>
    obtain ⟨left, soundNow⟩ := chronicle.sound_of_owned sound owned
    have enacts := perform_enacts next s
    obtain ⟨made, performs, _⟩ := enacts.runs
    obtain ⟨rest, soundThen, _⟩ := soundNow.run performs
    exact settle_resumes soundThen fun role => enacts.calm role (chronicle.calm role)
  | false =>
    have awake (role : Role) := chronicle.unowned_awake sound owned next role
    rw [settle_of_quiet fun role => (awake role).2]
    exact ⟨.refl fun role => calm_of_idle (awake role).1, fun _ role => (awake role).2⟩

theorem step_of_owned (owned : s.owned = true) (next : Step α) :
    s.step next =
      let settled := (perform next s).1.settle
      let final := settled.1.releaseStorage
      (final.1, ⟨(perform next s).2, settled.2, final.2, final.1.status⟩) := by
  unfold Session.step
  simp only [owned, if_true]

theorem step_of_unowned (gone : s.owned = false) (next : Step α) :
    s.step next =
      let settled := (perform next s).1.settle
      (settled.1, ⟨(perform next s).2, settled.2, [], settled.1.status⟩) := by
  unfold Session.step
  simp only [gone, Bool.false_eq_true, if_false]

/-- What a step and the resumptions after it tell of calls. -/
theorem answered_calls {report : Report α} {next : Step α} (tells : Tells next report)
    (resumptions : List (Resumption α)) :
    (report.results ++ resumptions.map (·.result)).filterMap Result.ofCall =
      callResults (report.deeds next) ++ resumptions.filterMap fun r => r.result.ofCall := by
  rw [List.filterMap_append, tells, List.filterMap_map, List.filterMap_map]
  rfl

theorem step_owned (sound : x.Sound items) (chronicle : Chronicle x s deeds results resumed dropped)
    (owned : s.owned = true) (next : Step α) :
    Chronicle x (s.step next).1 (deeds ++ (s.step next).2.report.deeds next)
      (results ++ (s.step next).2.results) (resumed ++ (s.step next).2.resumptions)
      (dropped ++ (s.step next).2.dropped) := by
  have enacts := perform_enacts next s
  obtain ⟨made, performs, opens⟩ := enacts.runs
  obtain ⟨resumes, quieted⟩ := chronicle.settles sound next
  rw [step_of_owned owned]
  dsimp only
  generalize (perform next s).1.settle = settled at resumes quieted
  have still := settled.1.releaseStorage_still
  constructor
  · obtain ⟨moves, y, run, opened, stands⟩ := chronicle.runs
    obtain ⟨others, goes, silent⟩ := resumes.runs
    rcases stands with ⟨_, same, none⟩ | ⟨gone, _⟩
    · subst same none
      refine ⟨moves ++ (made ++ others), settled.1.exchange, ?_, fun role => ?_,
        settled.1.releaseStorage_stands⟩
      · unfold Answer.results
        rw [List.filterMap_append, answered_calls (perform_tells next s)]
        exact run.append (performs.append goes)
      · rw [List.filter_append, List.filter_append, opened, opens, silent, openings_append,
          List.append_nil]
    · rw [owned] at gone
      cases gone
  · intro role
    exact calm_of_current (still role).1 (resumes.calm role)
  · intro free role
    rw [settled.1.releaseStorage_aside.2, resumes.held] at free
    rw [(still role).2.1]
    exact quieted free role
  · intro role
    have before := chronicle.parkings role
    have during := enacts.parkings role (chronicle.calm role)
    have afterwards := resumes.endings role
    rw [parked_eq_of_current (still role).1, parkings_append]
    have total : endings role (resumed ++ settled.2) = endings role resumed + endings role settled.2 :=
      List.countP_append
    omega

theorem step_unowned (sound : x.Sound items) (chronicle : Chronicle x s deeds results resumed dropped)
    (gone : s.owned = false) (next : Step α) :
    Chronicle x (s.step next).1 (deeds ++ (s.step next).2.report.deeds next)
      (results ++ (s.step next).2.results) (resumed ++ (s.step next).2.resumptions)
      (dropped ++ (s.step next).2.dropped) := by
  obtain ⟨⟨same, result, plainly, silent, aside⟩, monitors⟩ := perform_of_unowned next gone
  have awake (role : Role) := (chronicle.unowned_awake sound gone next role).2
  have current (role : Role) : (perform next s).1.exchange.current role = s.exchange.current role := by
    rw [same]
  rw [step_of_unowned gone, settle_of_quiet awake]
  dsimp only
  have deed : (perform next s).2.deeds next = [⟨next, result⟩] := by rw [plainly, deeds_plain]
  have calls : callResults [(⟨next, result⟩ : Deed α)] = [] := by
    rw [callResults_single, silent]
    rfl
  rw [List.append_nil, List.append_nil]
  constructor
  · obtain ⟨moves, y, run, opened, stands⟩ := chronicle.runs
    refine ⟨moves, y, ?_, fun role => ?_, ?_⟩
    · unfold Answer.results
      rw [List.filterMap_append, answered_calls (perform_tells next s), deed, calls]
      simpa using run
    · rw [opened, openings_append, deed]
      simp [openings, aside]
    · rcases stands with ⟨owned, _⟩ | ⟨_, stood, listed⟩
      · rw [gone] at owned
        cases owned
      · refine Or.inr ⟨?_, same.trans stood, listed⟩
        obtain ⟨closed, none⟩ := owned_eq_false_iff.mp gone
        refine owned_eq_false_iff.mpr ⟨fun role => ?_, monitors.trans none⟩
        unfold queue
        rw [same]
        exact closed role
  · intro role
    exact calm_of_current (current role) (chronicle.calm role)
  · intro _ role
    exact awake role
  · intro role
    have stays : SpscQueue.parkings role [(⟨next, result⟩ : Deed α)] = 0 := by
      simp [SpscQueue.parkings, not_parks_of_silent silent]
    rw [parked_eq_of_current (current role), deed, parkings_append, stays]
    exact chronicle.parkings role

theorem step (sound : x.Sound items) (chronicle : Chronicle x s deeds results resumed dropped)
    (next : Step α) :
    Chronicle x (s.step next).1 (deeds ++ (s.step next).2.report.deeds next)
      (results ++ (s.step next).2.results) (resumed ++ (s.step next).2.resumptions)
      (dropped ++ (s.step next).2.dropped) := by
  cases owned : s.owned with
  | true => exact chronicle.step_owned sound owned next
  | false => exact chronicle.step_unowned sound owned next

/-- Any number of steps. -/
theorem steps (sound : x.Sound items) (chronicle : Chronicle x s deeds results resumed dropped)
    (list : List (Step α)) :
    Chronicle x (s.steps list).1
      (deeds ++ Report.deedsOfAll list ((s.steps list).2.map (·.report)))
      (results ++ (s.steps list).2.flatMap (·.results))
      (resumed ++ (s.steps list).2.flatMap (·.resumptions))
      (dropped ++ (s.steps list).2.flatMap (·.dropped)) := by
  induction list generalizing s deeds results resumed dropped with
  | nil => simpa [Session.steps, Report.deedsOfAll] using chronicle
  | cons next rest ih =>
    have later := ih (chronicle.step sound next)
    simp only [List.append_assoc] at later
    exact later

end Chronicle

theorem ofSettings_open {settings : Settings} {q : Queue α} (opened : Queue.ofSettings settings = .ok q)
    (role : Role) : q.closed role = false := by
  rw [Queue.closed, Queue.ofSettings_side opened]
  rfl

/-- The story of a session begins with a fresh queue. -/
structure Begins (fresh : Session α) : Prop where
  idle (role : Role) : fresh.exchange.current role = none
  sound : fresh.exchange.Sound []
  parted : fresh.queue.Parted
  chronicle : Chronicle fresh.exchange fresh [] [] [] []

theorem begins_of_opened {settings : Settings} {fresh : Session α}
    (opened : Session.ofSettings settings = .ok fresh) : Begins fresh := by
  unfold Session.ofSettings at opened
  cases made : Queue.ofSettings (α := α) settings with
  | error cause => rw [made] at opened; cases opened
  | ok q =>
    rw [made] at opened
    cases opened
    have present := ofSettings_open made
    refine ⟨fun role => by cases role <;> rfl,
      Exchange.sound_ofQueue (Queue.ofSettings_carries made), fun gone => ?_, ?_, ?_, ?_, ?_⟩
    · exact absurd gone (Bool.eq_false_iff.mp (present .producer))
    · refine ⟨[], _, .rest _, fun _ => rfl, Or.inl ⟨?_, rfl, rfl⟩⟩
      show (!q.closed .producer || !q.closed .consumer || false) = true
      rw [present]
      rfl
    · intro role
      cases role <;> exact calm_of_idle rfl
    · intro _ role
      cases role <;> rfl
    · intro role
      cases role <;> rfl

end SpscQueue.Session
