import SpscQueue.Proofs.Deeds
import SpscQueue.Proofs.Pausing

namespace SpscQueue

universe u

variable {α : Type u} {role who : Role}

namespace Session

variable {s middle after : Session α} {deeds more : List (Deed α)} {step : Step α}
  {result : Result α}

/-- What is done leaves alone a party that is gone or in the middle of a call: it stays where it is,
and none of its steps gets through. -/
structure Spares (role : Role) (s after : Session α) (deeds : List (Deed α)) : Prop where
  current : after.exchange.current role = s.exchange.current role
  closed : after.queue.closed role = s.queue.closed role
  openings : openings role deeds = []
  parkings : parkings role deeds = 0

theorem Spares.refl (role : Role) (s : Session α) : Spares role s s [] := ⟨rfl, rfl, rfl, rfl⟩

theorem Spares.trans (first : Spares role s middle deeds) (second : Spares role middle after more) :
    Spares role s after (deeds ++ more) where
  current := second.current.trans first.current
  closed := second.closed.trans first.closed
  openings := by rw [openings_append, first.openings, second.openings, List.append_nil]
  parkings := by rw [parkings_append, first.parkings, second.parkings]

theorem obstacle_eq (current : after.exchange.current role = s.exchange.current role)
    (closed : after.queue.closed role = s.queue.closed role) :
    after.obstacle role = s.obstacle role := by
  unfold obstacle Exchange.busy
  rw [current, closed]

theorem Spares.obstacle (spares : Spares role s after deeds) :
    after.obstacle role = s.obstacle role := obstacle_eq spares.current spares.closed

theorem obstacle_eq_none_iff :
    s.obstacle role = none ↔ s.queue.closed role = false ∧ s.exchange.current role = none := by
  rw [← Exchange.busy_eq_false_iff]
  unfold obstacle
  cases s.queue.closed role <;> cases s.exchange.busy role <;> simp

theorem atRest_of_obstacle (free : s.obstacle role = none) : s.exchange.atRest role = true :=
  Exchange.atRest_iff.mpr (obstacle_eq_none_iff.mp free)

/-- A handle is refused as gone or as busy. -/
theorem obstacle_cases (refused : s.obstacle role = some result) : result = .gone ∨ result = .busy := by
  unfold obstacle at refused
  split at refused
  · exact Or.inl (Option.some.inj refused).symm
  · split at refused
    · exact Or.inr (Option.some.inj refused).symm
    · cases refused

/-- A step that the parties do not notice, for it does not get through to the exchange. -/
def Unnoticed (s : Session α) (step : Step α) (made : Session α × Report α) : Prop :=
  made.1.exchange = s.exchange ∧
    ∃ result, made.2 = plain result ∧ result.ofCall = none ∧
      (⟨step, result⟩ : Deed α).opening = none

theorem not_parks_of_silent (silent : result.ofCall = none) :
    (⟨step, result⟩ : Deed α).parks role = false := by
  cases result with
  | parked => cases silent
  | _ => rfl

theorem deeds_mk (step : Step α) (result : Result α) (events : List Event) :
    (Report.mk result events .nothing).deeds step = [⟨step, result⟩] := by
  rw [Report.deeds, Report.deedsMeanwhile]
  rfl

theorem deeds_plain (step : Step α) (result : Result α) :
    (plain result).deeds step = [⟨step, result⟩] := deeds_mk step result []

theorem Unnoticed.spares {made : Session α × Report α} (unnoticed : Unnoticed s step made) :
    Spares role s made.1 (made.2.deeds step) := by
  obtain ⟨same, result, plainly, silent, aside⟩ := unnoticed
  rw [plainly, deeds_plain]
  refine ⟨by rw [same], by unfold queue; rw [same], ?_, ?_⟩
  · simp [openings, aside]
  · simp [parkings, not_parks_of_silent silent]

theorem unnoticed_refused (refused : s.obstacle who = some result) :
    Unnoticed s step (s, plain result) := by
  refine ⟨rfl, result, rfl, ?_⟩
  rcases obstacle_cases refused with rfl | rfl <;> exact ⟨rfl, rfl⟩

theorem opening_of_aside (aside : step.opening = none) :
    (⟨step, result⟩ : Deed α).opening = none := by
  cases result <;> first | rfl | exact aside

theorem unnoticed_plain (aside : step.opening = none) (same : after.exchange = s.exchange)
    (silent : result.ofCall = none) : Unnoticed s step (after, plain result) :=
  ⟨same, result, rfl, silent, opening_of_aside aside⟩

theorem withHandle_unnoticed {use : Session α → Session α × Report α}
    (unnoticed : Unnoticed s step (use s)) : Unnoticed s step (s.withHandle who use) := by
  unfold withHandle
  split
  · rename_i refused
    exact unnoticed_refused refused
  · exact unnoticed

theorem withMonitor_unnoticed {use : Session α → Session α × Report α} (id : Nat)
    (aside : step.opening = none) (unnoticed : Unnoticed s step (use s)) :
    Unnoticed s step (s.withMonitor id use) := by
  unfold withMonitor
  split
  · exact unnoticed
  · exact unnoticed_plain aside rfl rfl

/-- A step that neither begins a call nor ends a handle. -/
theorem perform_unnoticed (aside : step.opening = none) (s : Session α) :
    Unnoticed s step (perform step s) := by
  cases step with
  | inspect | describe =>
    rw [perform]
    exact withHandle_unnoticed (unnoticed_plain aside rfl rfl)
  | addMonitor id source =>
    rw [perform]
    cases source with
    | handle => exact withHandle_unnoticed (unnoticed_plain aside rfl rfl)
    | monitor other => exact withMonitor_unnoticed other aside (unnoticed_plain aside rfl rfl)
  | inspectMonitor id | describeMonitor id | closeMonitor id =>
    rw [perform]
    exact withMonitor_unnoticed id aside (unnoticed_plain aside rfl rfl)
  | hold | release =>
    rw [perform]
    exact unnoticed_plain aside rfl rfl
  | _ => cases aside

theorem opens_of_other {move : Move α} (other : move.role ≠ role) : move.opens role = false := by
  cases move with
  | proceed => rfl
  | _ => exact beq_eq_false_iff_ne.mpr other

/-- A step of the other party. -/
theorem spares_other {move : Move α} (opening : step.opening = some move) (other : move.role ≠ role)
    (current : after.exchange.current role = s.exchange.current role)
    (closed : after.queue.closed role = s.queue.closed role) :
    Spares role s after [⟨step, result⟩] where
  current := current
  closed := closed
  openings := by
    cases result <;> simp [SpscQueue.openings, Deed.opening, opening, opens_of_other other]
  parkings := by
    have away : (move.role == role) = false := beq_eq_false_iff_ne.mpr other
    cases result <;> simp [SpscQueue.parkings, Deed.parks, opening, away]

/-- The steps made at a pause, with their results. -/
def noted (plan : Meanwhile (Step α)) (pause : Pause) : Option (List (Report α)) → List (Deed α)
  | none => []
  | some reports => Report.deedsOfAll ((plan.at? pause).getD []) reports

theorem noted_eq {plan other : Meanwhile (Step α)} {pause : Pause}
    (same : plan.at? pause = other.at? pause) : noted plan pause = noted other pause := by
  funext reports
  cases reports with
  | none => rfl
  | some reports => exact congrArg (fun steps => Report.deedsOfAll (steps.getD []) reports) same

theorem deedsMeanwhile_noted (plan : Meanwhile (Step α)) (pause : Pause)
    (reports : Option (List (Report α))) (later : Meanwhile (Report α)) :
    Report.deedsMeanwhile plan
        (match reports with
        | none => later
        | some reports => .during pause reports later) =
      noted plan pause reports ++ Report.deedsMeanwhile plan later := by
  cases reports with
  | none => rfl
  | some reports => rw [Report.deedsMeanwhile]; rfl

theorem conclude_exchange (s : Session α) (outcome : Outcome α) :
    (s.conclude outcome).1.exchange = s.exchange := by
  unfold conclude
  split <;> rfl

theorem conclude_ofCall (s : Session α) (outcome : Outcome α) :
    (s.conclude outcome).2.ofCall = some outcome.result := by
  unfold conclude
  split <;> rfl

theorem absorb_none {advance : Advance α} (unfinished : advance.outcome = none) :
    s.absorb advance = ({ s with exchange := advance.exchange }, none) := by
  unfold absorb
  rw [unfinished]

theorem absorb_some {advance : Advance α} {outcome : Outcome α}
    (ended : advance.outcome = some outcome) :
    s.absorb advance =
      let concluded := { s with exchange := advance.exchange }.conclude outcome
      (concluded.1, some concluded.2) := by
  unfold absorb
  rw [ended]

theorem absorb_exchange (s : Session α) (advance : Advance α) :
    (s.absorb advance).1.exchange = advance.exchange := by
  cases ended : advance.outcome with
  | none => rw [absorb_none ended]
  | some outcome =>
    rw [absorb_some ended]
    exact conclude_exchange _ outcome

theorem carryThrough_cons (role : Role) (act : Interlude α) (pause : Pause) (pauses : List Pause)
    (s : Session α) :
    carryThrough role act (pause :: pauses) s =
      let acted := act pause { s with exchange := s.exchange.passTo role pause }
      let advance := acted.1.exchange.proceed role
      let carried : Carried α :=
        match acted.1.absorb advance with
        | (ended, some result) => ⟨ended, result, [], .nothing⟩
        | (moved, none) => carryThrough role act pauses moved
      { carried with
        events := advance.events ++ carried.events
        meanwhile :=
          match acted.2 with
          | none => carried.meanwhile
          | some reports => .during pause reports carried.meanwhile } := rfl

/-- A stretch of a call of the other party. -/
theorem spares_beside
    (beside : Queue.Alike who s.queue after.queue ∧
      after.exchange.current who.peer = s.exchange.current who.peer) :
    Spares who.peer s after [] :=
  ⟨beside.2, beside.1.closed who.peer, rfl, rfl⟩

theorem spares_passTo (s : Session α) (who : Role) (stop : Pause) :
    Spares who.peer s { s with exchange := s.exchange.passTo who stop } [] :=
  spares_beside ⟨by
    show Queue.Alike who s.exchange.queue (s.exchange.passTo who stop).queue
    rw [Exchange.passTo_queue]
    exact .refl who _, Exchange.current_passTo_peer s.exchange who stop⟩

theorem spares_absorb {advance : Advance α}
    (beside : Queue.Alike who s.queue advance.exchange.queue ∧
      advance.exchange.current who.peer = s.exchange.current who.peer) :
    Spares who.peer s (s.absorb advance).1 [] :=
  spares_beside (by
    unfold queue
    rwa [absorb_exchange])

/-- That what is done at the pauses of a call of one party leaves the other party alone. -/
def InterludeSpares (role : Role) (plan : Meanwhile (Step α)) (act : Interlude α) : Prop :=
  ∀ (pause : Pause) (s : Session α), s.obstacle role ≠ none →
    Spares role s (act pause s).1 (noted plan pause (act pause s).2)

theorem carryThrough_spares {plan : Meanwhile (Step α)} {act : Interlude α}
    (acts : InterludeSpares who.peer plan act) (pauses : List Pause) (s : Session α)
    (away : s.obstacle who.peer ≠ none) :
    Spares who.peer s (carryThrough who act pauses s).session
      (Report.deedsMeanwhile plan (carryThrough who act pauses s).meanwhile) := by
  induction pauses generalizing s with
  | nil => exact .refl who.peer s
  | cons pause pauses ih =>
    rw [carryThrough_cons]
    dsimp only
    rw [deedsMeanwhile_noted]
    have reached := spares_passTo s who pause
    have acted := reached.trans (acts pause _ (by rwa [reached.obstacle]))
    rw [List.nil_append] at acted
    refine acted.trans ?_
    generalize act pause { s with exchange := s.exchange.passTo who pause } = now at acted
    have moved := spares_absorb (Exchange.proceed_beside now.1.exchange who)
    split
    · rename_i ended result finished
      rw [finished] at moved
      exact moved
    · rename_i next unfinished
      rw [unfinished] at moved
      have rest := ih next (by rwa [moved.obstacle, acted.obstacle])
      exact moved.trans rest

/-- A waiting call and all that happens during it leave alone a party that is away. -/
theorem call_spares {call : Call α who} (opening : step.opening = some (.start who call))
    {act : Interlude α} (acts : InterludeSpares role step.meanwhile act) (pauses : List Pause)
    (away : s.obstacle role ≠ none) :
    Spares role s (s.call call act pauses).1 ((s.call call act pauses).2.deeds step) := by
  unfold Session.call withHandle
  split
  · rename_i result refused
    exact (unnoticed_refused refused).spares
  · rename_i free
    have other : role = who.peer := by
      rcases who.eq_or_eq_peer role with rfl | other
      · exact absurd free away
      · exact other
    subst other
    have started := spares_absorb (Exchange.start_beside s.exchange call)
    have own (result : Result α) {last : Session α} : Spares who.peer last last [⟨step, result⟩] :=
      spares_other opening (by cases who <;> exact fun same => nomatch same) rfl rfl
    rw [Report.deeds]
    dsimp only
    unfold carry
    split
    · rename_i ended result finished
      rw [finished] at started
      exact started.trans (own result)
    · rename_i moved unfinished
      rw [unfinished] at started
      have rest := carryThrough_spares acts pauses moved (by rwa [started.obstacle])
      exact (started.trans rest).trans (own _)

theorem withHandle_spares {use : Session α → Session α × Report α}
    (uses : s.obstacle who = none → Spares role s (use s).1 ((use s).2.deeds step)) :
    Spares role s (s.withHandle who use).1 ((s.withHandle who use).2.deeds step) := by
  unfold withHandle
  split
  · rename_i result refused
    exact (unnoticed_refused refused).spares
  · rename_i free
    exact uses free

theorem role_ne_of_free (away : s.obstacle role ≠ none) (free : s.obstacle who = none) :
    who ≠ role := by
  rintro rfl
  exact away free

mutual

theorem perform_spares (role : Role) : ∀ (step : Step α) (s : Session α), s.obstacle role ≠ none →
    Spares role s (perform step s).1 ((perform step s).2.deeds step)
  | .push item force meanwhile, s, away => by
    rw [perform]
    exact call_spares rfl (act_spares role meanwhile) _ away
  | .tryPush item, s, away => by
    rw [perform]
    refine withHandle_spares fun free => ?_
    rw [deeds_plain]
    exact spares_other rfl (role_ne_of_free away free) (Exchange.current_withQueue _)
      ((s.queue.alike_tryPush item).closed role)
  | .flush, s, away => by
    rw [perform]
    refine withHandle_spares fun free => ?_
    rw [deeds_plain]
    exact spares_other rfl (role_ne_of_free away free) (Exchange.current_withQueue _)
      ((s.queue.alike_publish .producer).closed role)
  | .pop meanwhile, s, away => by
    rw [perform]
    exact call_spares rfl (act_spares role meanwhile) _ away
  | .popBatch keep meanwhile, s, away => by
    rw [perform]
    refine withHandle_spares fun _ => ?_
    dsimp only
    have emptied : Spares role s (if keep then s else { s with collected := [] }) [] := by
      split <;> exact ⟨rfl, rfl, rfl, rfl⟩
    exact emptied.trans (call_spares rfl (act_spares role meanwhile) _ (by rwa [emptied.obstacle]))
  | .tryPop, s, away => by
    rw [perform]
    refine withHandle_spares fun free => ?_
    rw [deeds_plain]
    exact spares_other rfl (role_ne_of_free away free) (Exchange.current_withQueue _)
      (s.queue.alike_tryPop.closed role)
  | .inspect who, s, _ => (perform_unnoticed rfl s).spares
  | .describe who, s, _ => (perform_unnoticed rfl s).spares
  | .close who, s, away => by
    rw [perform]
    refine withHandle_spares fun free => ?_
    have other : role = who.peer := (who.eq_or_eq_peer role).resolve_left fun same =>
      role_ne_of_free away free same.symm
    subst other
    rw [deeds_mk]
    exact spares_other rfl (role_ne_of_free away free) (Exchange.current_withQueue _)
      (s.queue.close_closed_peer who)
  | .addMonitor id source, s, _ => (perform_unnoticed rfl s).spares
  | .inspectMonitor id, s, _ => (perform_unnoticed rfl s).spares
  | .describeMonitor id, s, _ => (perform_unnoticed rfl s).spares
  | .closeMonitor id, s, _ => (perform_unnoticed rfl s).spares
  | .hold, s, _ => (perform_unnoticed rfl s).spares
  | .release, s, _ => (perform_unnoticed rfl s).spares

theorem performAll_spares (role : Role) : ∀ (steps : List (Step α)) (s : Session α),
    s.obstacle role ≠ none →
    Spares role s (performAll steps s).1 (Report.deedsOfAll steps (performAll steps s).2)
  | [], s, _ => .refl role s
  | step :: steps, s, away => by
    have first := perform_spares role step s away
    have rest := performAll_spares role steps (perform step s).1 (by rwa [first.obstacle])
    exact first.trans rest

theorem act_spares (role : Role) : ∀ plan : Meanwhile (Step α),
    InterludeSpares role plan (act plan)
  | .nothing => fun _ s _ => .refl role s
  | .during planned steps rest => fun pause s away => by
    by_cases here : planned = pause
    · have all := performAll_spares role steps s away
      rw [act, if_pos here, noted, Meanwhile.at?, if_pos here]
      exact all
    · have later := act_spares role rest pause s away
      rw [act, if_neg here, noted_eq (Meanwhile.at?_during_other steps rest here)]
      exact later

end

end Session

end SpscQueue
