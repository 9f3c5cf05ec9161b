import SpscQueue.Proofs.Passage
import SpscQueue.Proofs.Snapshots
import SpscQueue.Proofs.TearDown

namespace SpscQueue

universe u

variable {α : Type u} {role : Role}

/-- Which steps of a list are left out, and which of those made at the pauses of a step that stays. -/
inductive Sieve
  | all
  | skip (later : Sieve)
  | keep (inside : Pause → Sieve) (later : Sieve)

mutual

/-- What stays of a step if some of those made at its pauses are left out. -/
def Step.sift : Step α → (Pause → Sieve) → Step α
  | .push item force meanwhile, inside => .push item force (siftMeanwhile meanwhile inside)
  | .pop meanwhile, inside => .pop (siftMeanwhile meanwhile inside)
  | .popBatch keep meanwhile, inside => .popBatch keep (siftMeanwhile meanwhile inside)
  | step, _ => step

def Step.siftAll : List (Step α) → Sieve → List (Step α)
  | [], _ => []
  | step :: steps, .all => step :: steps
  | _ :: steps, .skip later => siftAll steps later
  | step :: steps, .keep inside later => step.sift inside :: siftAll steps later

def Step.siftMeanwhile : Meanwhile (Step α) → (Pause → Sieve) → Meanwhile (Step α)
  | .nothing, _ => .nothing
  | .during pause steps rest, inside =>
    .during pause (siftAll steps (inside pause)) (siftMeanwhile rest inside)

end

mutual

/-- What stays of a report if those on some of the steps made at the pauses are left out. -/
def Report.sift : Report α → (Pause → Sieve) → Report α
  | .mk result events meanwhile, inside => .mk result events (siftMeanwhile meanwhile inside)

def Report.siftAll : List (Report α) → Sieve → List (Report α)
  | [], _ => []
  | report :: reports, .all => report :: reports
  | _ :: reports, .skip later => siftAll reports later
  | report :: reports, .keep inside later => report.sift inside :: siftAll reports later

def Report.siftMeanwhile : Meanwhile (Report α) → (Pause → Sieve) → Meanwhile (Report α)
  | .nothing, _ => .nothing
  | .during pause reports rest, inside =>
    .during pause (siftAll reports (inside pause)) (siftMeanwhile rest inside)

end

/-- What stays of the answers to a list of steps. -/
def Answer.siftAll : List (Answer α) → Sieve → List (Answer α)
  | [], _ => []
  | answer :: answers, .all => answer :: answers
  | _ :: answers, .skip later => siftAll answers later
  | answer :: answers, .keep inside later =>
    { answer with report := answer.report.sift inside } :: siftAll answers later

/-- Whether a result tells of a try that found no room or no item, or nobody to deal with. -/
def Result.fails : Result α → Bool
  | tryPush (.refused _ cause) => cause.isFull || cause.isDisconnected
  | tryPop (.error cause) => cause.isEmpty || cause.isDisconnected
  | _ => false

namespace Session

/-- Whether a step is a try that fails here, a flush with nothing deferred, or merely asks something. -/
def moot (s : Session α) : Step α → Bool
  | .tryPush item => (perform (.tryPush item) s).2.result.fails
  | .tryPop => (perform .tryPop s).2.result.fails
  | .flush => s.queue.producer.cursor.deferred == 0
  | .inspect _ | .describe _ | .inspectMonitor _ | .describeMonitor _ => true
  | _ => false

mutual

/-- Whether all the steps that are left out at the pauses of a step are moot where they are made. -/
def fairWithin : Step α → (Pause → Sieve) → Session α → Bool
  | .push item force meanwhile, inside, s =>
    s.throughoutCall (.push item force) (act meanwhile) (fairAt meanwhile inside)
      (meanwhile.stops s.queue.snoozeRounds)
  | .pop meanwhile, inside, s =>
    s.throughoutCall .pop (act meanwhile) (fairAt meanwhile inside)
      (meanwhile.stops s.queue.snoozeRounds)
  | .popBatch keep meanwhile, inside, s =>
    let s := if keep then s else { s with collected := [] }
    s.throughoutCall .popBatch (act meanwhile) (fairAt meanwhile inside)
      (meanwhile.stops s.queue.snoozeRounds)
  | _, _, _ => true

/-- The same for some steps made one after the other, with parked calls staying parked. -/
def fairAll : List (Step α) → Sieve → Session α → Bool
  | [], _, _ => true
  | _ :: _, .all, _ => true
  | step :: steps, .skip later, s => s.moot step && fairAll steps later (perform step s).1
  | step :: steps, .keep inside later, s =>
    fairWithin step inside s && fairAll steps later (perform step s).1

def fairAt : Meanwhile (Step α) → (Pause → Sieve) → Pause → Session α → Bool
  | .nothing, _, _, _ => true
  | .during planned steps rest, inside, pause, s =>
    if planned = pause then fairAll steps (inside pause) s else fairAt rest inside pause s

end

/-- Whether all the steps that a sieve leaves out of a run are moot where the run makes them. -/
def fair : List (Step α) → Sieve → Session α → Bool
  | [], _, _ => true
  | _ :: _, .all, _ => true
  | step :: steps, .skip later, s => s.moot step && fair steps later (s.step step).1
  | step :: steps, .keep inside later, s => fairWithin step inside s && fair steps later (s.step step).1

end Session

namespace Queue

variable {q : Queue α} {item : α}

/-- A push that is refused has at most looked. -/
theorem tryPush_of_refused {kept : α} {cause : PushFailure}
    (refused : (q.tryPush item).2 = .refused kept cause) :
    cause = .disconnected ∧ (q.tryPush item).1 = q ∨
      cause = .full ∧ (q.tryPush item).1 = q.refresh .producer ∨ cause = .occupied := by
  unfold tryPush at refused ⊢
  dsimp only at refused ⊢
  split at refused
  · rename_i gone
    rw [if_pos gone]
    cases refused
    exact .inl ⟨rfl, rfl⟩
  · rename_i here
    rw [if_neg here]
    split at refused
    · unfold accept at refused
      split at refused
      · cases refused
      · cases refused
        exact .inr (.inr rfl)
    · rename_i short
      rw [if_neg short]
      cases refused
      exact .inr (.inl ⟨rfl, q.look_eq_refresh (Bool.eq_false_iff.mpr short)⟩)

theorem tryPush_of_fails (fails : (Result.tryPush (q.tryPush item).2).fails = true) :
    (q.tryPush item).1 = q ∨ (q.tryPush item).1 = q.refresh .producer := by
  cases told : (q.tryPush item).2 with
  | accepted => rw [told] at fails; cases fails
  | refused kept cause =>
    rcases tryPush_of_refused told with ⟨_, same⟩ | ⟨_, looked⟩ | rfl
    · exact .inl same
    · exact .inr looked
    · rw [told] at fails
      cases fails

/-- A pop that fails has looked, and nothing else. -/
theorem tryPop_of_fails (fails : (Result.tryPop q.tryPop.2).fails = true) :
    q.tryPop.1 = q.refresh .consumer := by
  have delivers (p : Queue α) : (Result.tryPop p.deliver.2).fails = false := by
    unfold deliver
    split <;> rfl
  unfold tryPop at fails ⊢
  dsimp only at fails ⊢
  split at fails
  · rw [delivers] at fails
    cases fails
  · rename_i empty
    have looked := q.look_eq_refresh (Bool.eq_false_iff.mpr empty)
    rw [if_neg empty]
    rw [looked, refresh_refresh] at fails ⊢
    split at fails
    · split at fails
      · rw [delivers] at fails
        cases fails
      · rename_i gone drained
        rw [if_pos gone, if_neg drained]
    · rename_i here
      rw [if_neg here]

end Queue

namespace Session

open Exchange (Indistinct indistinct_simulation)

variable {s t : Session α} {step : Step α}

/-- All that a moot step does is that a party at rest may look at its peer. -/
theorem perform_of_moot (vain : s.moot step = true) :
    (perform step s).1 = s ∨ ∃ role, s.exchange.atRest role = true ∧
      (perform step s).1 = s.withQueue (s.queue.refresh role) := by
  have stays (role : Role) (use : Session α → Session α × Report α) (here : (use s).1 = s) :
      (s.withHandle role use).1 = s := by
    unfold withHandle
    split
    · rfl
    · exact here
  have onlooks (id : Nat) (report : Session α → Report α) :
      (s.withMonitor id fun s => (s, report s)).1 = s := by
    unfold withMonitor
    split <;> rfl
  cases step with
  | tryPush item =>
    simp only [moot, perform, tryPush, withHandle] at vain ⊢
    cases refused : s.obstacle .producer with
    | some => exact .inl rfl
    | none =>
      rw [refused] at vain
      refine (Queue.tryPush_of_fails vain).imp (congrArg s.withQueue) fun looked => ?_
      exact ⟨.producer, atRest_of_obstacle refused, congrArg s.withQueue looked⟩
  | tryPop =>
    simp only [moot, perform, tryPop, withHandle] at vain ⊢
    cases refused : s.obstacle .consumer with
    | some => exact .inl rfl
    | none =>
      rw [refused] at vain
      have looked := Queue.tryPop_of_fails vain
      exact .inr ⟨.consumer, atRest_of_obstacle refused, congrArg s.withQueue looked⟩
  | flush =>
    have shown : (s.queue.side .producer).cursor.published = s.queue.position .producer :=
      (Cursor.deferred_eq_zero_iff _).mp (beq_iff_eq.mp vain)
    have same : s.queue.flush = s.queue := Queue.publish_of_shown shown
    rw [perform]
    exact .inl (stays .producer _ (congrArg s.withQueue same))
  | inspect role | describe role =>
    rw [perform]
    exact .inl (stays role _ rfl)
  | inspectMonitor id | describeMonitor id =>
    rw [perform]
    exact .inl (onlooks id _)
  | _ => cases vain

/-- A moot step cannot be noticed. -/
theorem twins_of_moot (twins : Twins Indistinct s t) (vain : s.moot step = true) :
    Twins Indistinct (perform step s).1 t := by
  rcases perform_of_moot vain with same | ⟨role, rest, looked⟩
  · rwa [same]
  · rw [looked]
    refine { twins with exchange := ?_ }
    -- only a party at rest looks, so no call in the middle of its wait has its footing changed
    have blind := (Queue.blind_refresh s.queue role).symm
    have same : Exchange.SameButSeen { s.exchange with queue := s.queue.refresh role } t.exchange :=
      ⟨fun who => (twins.exchange.same.current who).trans (Exchange.current_withQueue _).symm,
        twins.exchange.same.queue.trans blind⟩
    obtain ⟨present, idle⟩ := Exchange.atRest_iff.mp rest
    cases twins.exchange with
    | live items others _ sound other =>
      refine .live items others same ?_ other
      exact sound.moved_idle rfl (sound.carries.refresh role) (s.queue.regards_refresh role)
        (Exchange.current_withQueue _) ((Exchange.current_withQueue _).trans idle)
    | finished _ closed =>
      rw [closed] at present
      cases present

theorem settle_of_calm (quiet : s.held = false → ∀ role, s.exchange.resumable role = false) :
    s.settle = (s, []) := by
  cases held : s.held with
  | true =>
    unfold settle
    rw [held]
    rfl
  | false => exact settle_of_quiet (quiet held)

/-- Nothing follows from a moot step. -/
theorem step_of_moot (quiet : s.held = false → ∀ role, s.exchange.resumable role = false)
    (vain : s.moot step = true) : (s.step step).1 = (perform step s).1 := by
  have still : (perform step s).1.settle = ((perform step s).1, []) ∧
      (perform step s).1.owned = s.owned := by
    rcases perform_of_moot vain with same | ⟨role, _, looked⟩
    · rw [same]
      exact ⟨settle_of_calm quiet, rfl⟩
    · rw [looked]
      refine ⟨settle_of_calm fun free who => ?_, by cases role <;> rfl⟩
      rw [← quiet free who]
      cases role <;> cases who <;> rfl
  unfold Session.step
  dsimp only
  rw [still.1]
  unfold releaseStorage
  rw [still.2]
  split <;> rfl

end Session

/-! Sifting what is told of a step and sifting the step come to the same. -/

theorem Step.stops_sift (meanwhile : Meanwhile (Step α)) (inside : Pause → Sieve) (rounds : Nat) :
    (Step.siftMeanwhile meanwhile inside).stops rounds = meanwhile.stops rounds := by
  have same : (Step.siftMeanwhile meanwhile inside).rounds = meanwhile.rounds := by
    induction meanwhile with
    | nothing => rw [Step.siftMeanwhile]
    | during pause steps rest ih =>
      rw [Step.siftMeanwhile]
      cases pause with
      | snooze round => exact congrArg (insertAscending round) ih
      | sleep | park => exact ih
  unfold Meanwhile.stops
  rw [same]

theorem Report.siftMeanwhile_eq_retell (meanwhile : Meanwhile (Report α)) (inside : Pause → Sieve) :
    siftMeanwhile meanwhile inside =
      meanwhile.retell fun pause reports => siftAll reports (inside pause) := by
  induction meanwhile with
  | nothing => rw [siftMeanwhile, Meanwhile.retell]
  | during pause reports rest ih => rw [siftMeanwhile, Meanwhile.retell, ih]

theorem Report.sift_eq_retell (report : Report α) (inside : Pause → Sieve) :
    report.sift inside = report.retell id fun pause reports => siftAll reports (inside pause) := by
  obtain ⟨result, events, meanwhile⟩ := report
  rw [Report.sift, Report.retell, Result.mapIndex_id, Event.map_mapIndex_id, siftMeanwhile_eq_retell]

theorem Report.sift_plain (result : Result α) (events : List Event) (inside : Pause → Sieve) :
    (Report.mk result events .nothing).sift inside = .mk result events .nothing := by
  rw [Report.sift, Report.siftMeanwhile]

/-- A step that never pauses. -/
def Step.brief : Step α → Bool
  | push .. | pop .. | popBatch .. => false
  | _ => true

namespace Session

open Exchange (Indistinct indistinct_simulation)

variable {s t : Session α} {step : Step α}

theorem sift_of_brief (brief : step.brief = true) (inside : Pause → Sieve) (s : Session α) :
    (perform step s).2.sift inside = (perform step s).2 := by
  have handles (role : Role) (use : Session α → Session α × Report α)
      (uses : (use s).2.sift inside = (use s).2) :
      (s.withHandle role use).2.sift inside = (s.withHandle role use).2 := by
    unfold withHandle
    split
    · exact Report.sift_plain _ _ inside
    · exact uses
  have monitors (id : Nat) (use : Session α → Session α × Report α)
      (uses : (use s).2.sift inside = (use s).2) :
      (s.withMonitor id use).2.sift inside = (s.withMonitor id use).2 := by
    unfold withMonitor
    split
    · exact uses
    · exact Report.sift_plain _ _ inside
  cases step with
  | push | pop | popBatch => cases brief
  | tryPush | flush | tryPop | inspect | describe | close =>
    rw [perform]
    exact handles _ _ (Report.sift_plain _ _ inside)
  | addMonitor id source =>
    rw [perform]
    cases source with
    | handle role => exact handles role _ (Report.sift_plain _ _ inside)
    | monitor other => exact monitors other _ (Report.sift_plain _ _ inside)
  | inspectMonitor | describeMonitor | closeMonitor =>
    rw [perform]
    exact monitors _ _ (Report.sift_plain _ _ inside)
  | hold | release =>
    rw [perform]
    exact Report.sift_plain _ _ inside

theorem brief_sift (brief : step.brief = true) (inside : Pause → Sieve) (twins : Twins Indistinct s t) :
    Twins Indistinct (perform step s).1 (perform step t).1 ∧
      (perform step t).2 = (perform step s).2.sift inside := by
  have alike := perform_alike indistinct_simulation step twins
  refine ⟨alike.twins, alike.report.trans ?_⟩
  rw [Report.mapIndex_id, sift_of_brief brief]

theorem call_sift {meanwhile : Meanwhile (Step α)} {inside : Pause → Sieve}
    (acts : InterludesAlike (fun pause reports => Report.siftAll reports (inside pause)) Indistinct
      (fairAt meanwhile inside) (act meanwhile) (act (Step.siftMeanwhile meanwhile inside)))
    (call : Call α role) (twins : Twins Indistinct s t)
    (fair : s.throughoutCall call (act meanwhile) (fairAt meanwhile inside)
      (meanwhile.stops s.queue.snoozeRounds) = true) :
    Twins Indistinct (s.call call (act meanwhile) (meanwhile.stops s.queue.snoozeRounds)).1
        (t.call call (act (Step.siftMeanwhile meanwhile inside))
          ((Step.siftMeanwhile meanwhile inside).stops t.queue.snoozeRounds)).1 ∧
      (t.call call (act (Step.siftMeanwhile meanwhile inside))
          ((Step.siftMeanwhile meanwhile inside).stops t.queue.snoozeRounds)).2 =
        (s.call call (act meanwhile) (meanwhile.stops s.queue.snoozeRounds)).2.sift inside := by
  have rounds : t.queue.snoozeRounds = s.queue.snoozeRounds :=
    twins.exchange.same.resembles.rounds
  rw [rounds, Step.stops_sift, Report.sift_eq_retell]
  exact call_carriedAlike indistinct_simulation acts call (stops_awake meanwhile _) twins fair

mutual

/-- A step made without the moot ones at its pauses tells the same but for these. -/
theorem perform_sift : ∀ (step : Step α) (inside : Pause → Sieve) {s t : Session α},
    Twins Indistinct s t → fairWithin step inside s = true →
      Twins Indistinct (perform step s).1 (perform (step.sift inside) t).1 ∧
        (perform (step.sift inside) t).2 = (perform step s).2.sift inside
  | .push item force meanwhile, inside, s, t, twins, fair => by
    rw [fairWithin] at fair
    rw [Step.sift, perform, perform]
    exact call_sift (act_sift meanwhile inside) _ twins fair
  | .pop meanwhile, inside, s, t, twins, fair => by
    rw [fairWithin] at fair
    rw [Step.sift, perform, perform]
    exact call_sift (act_sift meanwhile inside) _ twins fair
  | .popBatch keep meanwhile, inside, s, t, twins, fair => by
    have emptied : Twins Indistinct (if keep then s else { s with collected := [] })
        (if keep then t else { t with collected := [] }) := by
      cases keep with
      | true => exact twins
      | false => exact { twins with collected := rfl }
    rw [fairWithin] at fair
    rw [Step.sift, perform, perform]
    unfold withHandle
    rw [twins_obstacle indistinct_simulation twins]
    cases s.obstacle .consumer with
    | none => exact call_sift (act_sift meanwhile inside) _ emptied fair
    | some result => exact ⟨twins, (Report.sift_plain _ _ inside).symm⟩
  | .tryPush _, inside, _, _, twins, _ => brief_sift rfl inside twins
  | .flush, inside, _, _, twins, _ => brief_sift rfl inside twins
  | .tryPop, inside, _, _, twins, _ => brief_sift rfl inside twins
  | .inspect _, inside, _, _, twins, _ => brief_sift rfl inside twins
  | .describe _, inside, _, _, twins, _ => brief_sift rfl inside twins
  | .close _, inside, _, _, twins, _ => brief_sift rfl inside twins
  | .addMonitor _ _, inside, _, _, twins, _ => brief_sift rfl inside twins
  | .inspectMonitor _, inside, _, _, twins, _ => brief_sift rfl inside twins
  | .describeMonitor _, inside, _, _, twins, _ => brief_sift rfl inside twins
  | .closeMonitor _, inside, _, _, twins, _ => brief_sift rfl inside twins
  | .hold, inside, _, _, twins, _ => brief_sift rfl inside twins
  | .release, inside, _, _, twins, _ => brief_sift rfl inside twins

theorem performAll_sift : ∀ (steps : List (Step α)) (sieve : Sieve) {s t : Session α},
    Twins Indistinct s t → fairAll steps sieve s = true →
      Twins Indistinct (performAll steps s).1 (performAll (Step.siftAll steps sieve) t).1 ∧
        (performAll (Step.siftAll steps sieve) t).2 = Report.siftAll (performAll steps s).2 sieve
  | [], sieve, s, t, twins, _ => by
    rw [Step.siftAll, performAll, performAll, Report.siftAll]
    exact ⟨twins, rfl⟩
  | step :: steps, .all, s, t, twins, _ => by
    obtain ⟨made, reports⟩ := performAll_alike indistinct_simulation (step :: steps) twins
    rw [Report.mapIndexAll_id] at reports
    rw [Step.siftAll]
    refine ⟨made, reports.trans ?_⟩
    rw [performAll, Report.siftAll]
  | step :: steps, .skip later, s, t, twins, fair => by
    rw [fairAll, Bool.and_eq_true_iff] at fair
    rw [Step.siftAll, performAll, Report.siftAll]
    exact performAll_sift steps later (twins_of_moot twins fair.1) fair.2
  | step :: steps, .keep inside later, s, t, twins, fair => by
    rw [fairAll, Bool.and_eq_true_iff] at fair
    obtain ⟨made, report⟩ := perform_sift step inside twins fair.1
    obtain ⟨last, reports⟩ := performAll_sift steps later made fair.2
    rw [Step.siftAll, performAll, performAll, Report.siftAll]
    dsimp only
    rw [report, reports]
    exact ⟨last, rfl⟩

theorem act_sift : ∀ (plan : Meanwhile (Step α)) (inside : Pause → Sieve),
    InterludesAlike (fun pause reports => Report.siftAll reports (inside pause)) Indistinct
      (fairAt plan inside) (act plan) (act (Step.siftMeanwhile plan inside))
  | .nothing, inside => fun _ _ _ twins _ => by
    rw [Step.siftMeanwhile]
    exact ⟨twins, rfl⟩
  | .during planned steps rest, inside => fun pause s t twins fair => by
    rw [fairAt] at fair
    rw [Step.siftMeanwhile, act, act]
    by_cases here : planned = pause
    · subst here
      rw [if_pos rfl] at fair
      rw [if_pos rfl, if_pos rfl]
      obtain ⟨made, reports⟩ := performAll_sift steps (inside planned) twins fair
      exact ⟨made, congrArg some reports⟩
    · rw [if_neg here] at fair
      rw [if_neg here, if_neg here]
      exact act_sift rest inside pause twins fair

end

section

variable {x : Exchange α} {items : List α} {deeds : List (Deed α)} {results : List (Result α)}
  {resumed : List (Resumption α)} {dropped : List α}

/-- A run made without some moot steps tells the same but for these. -/
theorem steps_sift (sound : x.Sound items) (steps : List (Step α)) (sieve : Sieve)
    (chronicle : Chronicle x s deeds results resumed dropped) (twins : Twins Indistinct s t)
    (fair : fair steps sieve s = true) :
    Twins Indistinct (s.steps steps).1 (t.steps (Step.siftAll steps sieve)).1 ∧
      (t.steps (Step.siftAll steps sieve)).2 = Answer.siftAll (s.steps steps).2 sieve := by
  induction steps generalizing s t sieve deeds results resumed dropped with
  | nil =>
    rw [Step.siftAll]
    exact ⟨twins, rfl⟩
  | cons step steps ih =>
    cases sieve with
    | all =>
      obtain ⟨last, answers⟩ := steps_alike indistinct_simulation twins (step :: steps)
      rw [Step.siftAll]
      exact ⟨last, answers.trans (Answer.map_mapIndex_id _)⟩
    | skip later =>
      -- the thinned run stands still here, and nobody signalled is left waiting for this step to be over
      obtain ⟨vain, rest⟩ := Bool.and_eq_true_iff.mp fair
      have unnoticed : Twins Indistinct (s.step step).1 t := by
        rw [step_of_moot chronicle.quiet vain]
        exact twins_of_moot twins vain
      rw [Step.siftAll]
      exact ih later (chronicle.step sound step) unnoticed rest
    | keep inside later =>
      obtain ⟨within, rest⟩ := Bool.and_eq_true_iff.mp fair
      obtain ⟨made, report⟩ := perform_sift step inside twins within
      obtain ⟨stepped, answer⟩ := step_alike_of_performed indistinct_simulation twins made
      obtain ⟨last, answers⟩ := ih later (chronicle.step sound step) stepped rest
      rw [Step.siftAll]
      refine ⟨last, ?_⟩
      have first : (t.step (step.sift inside)).2 =
          { (s.step step).2 with report := (s.step step).2.report.sift inside } := by
        rw [answer, report, Answer.mapIndex_id]
        rfl
      show (t.step (step.sift inside)).2 ::
        ((t.step (step.sift inside)).1.steps (Step.siftAll steps later)).2 = _
      rw [first, answers]
      rfl

end

/-- Failed tries and observers leave no trace. If some steps of a run are left out, between calls or at
the pauses of calls, each of them a try that failed where it was made, a flush with nothing deferred, or
a mere question, then all the other steps answer the same, and so does the tear-down. A push in
particular that finds the queue full has looked at the consumer's signpost and done nothing else: it
shows no deferred item, and asks for no wakeup. -/
theorem moot_leaves_no_trace {settings : Settings} {fresh : Session α}
    (opened : Session.ofSettings settings = .ok fresh) (steps : List (Step α)) (sieve : Sieve)
    (fair : fair steps sieve fresh = true) :
    (fresh.steps (Step.siftAll steps sieve)).2 = Answer.siftAll (fresh.steps steps).2 sieve ∧
      (fresh.steps (Step.siftAll steps sieve)).1.tearDown.2 = (fresh.steps steps).1.tearDown.2 ∧
      ∀ (s : Session α) (item kept : α),
        (perform (.tryPush item) s).2 = plain (.tryPush (.refused kept .full)) →
          (perform (.tryPush item) s).1 = s.withQueue (s.queue.refresh .producer) := by
  have begins := begins_of_opened opened
  have twins : Twins Indistinct fresh fresh :=
    ⟨.live [] [] ⟨fun _ => rfl, rfl⟩ begins.sound begins.sound, rfl, rfl, rfl⟩
  obtain ⟨last, answers⟩ := steps_sift begins.sound steps sieve begins.chronicle twins fair
  refine ⟨answers, ?_, fun s item kept refused => ?_⟩
  · exact (tearDown_alike indistinct_simulation last).trans (Answer.map_mapIndex_id _)
  · simp only [perform, tryPush, withHandle] at refused ⊢
    cases obstacle : s.obstacle .producer with
    | some result =>
      rw [obstacle] at refused
      rcases obstacle_cases obstacle with rfl | rfl <;> cases refused
    | none =>
      rw [obstacle] at refused
      simp only [plain, Report.mk.injEq, Result.tryPush.injEq, and_true] at refused
      rcases Queue.tryPush_of_refused refused with ⟨full, _⟩ | ⟨_, looked⟩ | full
      · cases full
      · exact congrArg s.withQueue looked
      · cases full

/-- The push of a third item finds two deferred ones in the way and parks. What is left out is a flush
and a try before it, what the consumer tries and asks while it sleeps, and a question while it is
parked. Its parking, its waking and all items are as they were. -/
theorem moot_leaves_no_trace_parking :
    ∃ fresh : Session Nat,
      Session.ofSettings ⟨2, by decide, 0, 1000, 18446744073709551614, .whenShort, 8⟩ = .ok fresh ∧
        (fresh.steps [.push 7 false .nothing, .push 8 false .nothing,
            .push 9 false (.during .sleep [.addMonitor 0 (.handle .consumer)] .nothing), .tryPop]).2 =
          Answer.siftAll
            (fresh.steps [.flush, .push 7 false .nothing, .push 8 false .nothing, .tryPush 9,
              .push 9 false
                (.during .sleep [.tryPop, .inspect .consumer, .addMonitor 0 (.handle .consumer)] .nothing),
              .inspectMonitor 0, .tryPop]).2
            (.skip (.keep (fun _ => .all) (.keep (fun _ => .all) (.skip
              (.keep (fun _ => .skip (.skip .all)) (.skip .all)))))) := by
  have opened : Session.ofSettings (α := Nat)
      ⟨2, by decide, 0, 1000, 18446744073709551614, .whenShort, 8⟩ = .ok _ := rfl
  refine ⟨_, opened, ?_⟩
  exact (moot_leaves_no_trace opened
    [.flush, .push 7 false .nothing, .push 8 false .nothing, .tryPush 9,
      .push 9 false
        (.during .sleep [.tryPop, .inspect .consumer, .addMonitor 0 (.handle .consumer)] .nothing),
      .inspectMonitor 0, .tryPop]
    (.skip (.keep (fun _ => .all) (.keep (fun _ => .all) (.skip
      (.keep (fun _ => .skip (.skip .all)) (.skip .all)))))) (by decide +kernel)).1

end Session

end SpscQueue
