import SpscQueue.Proofs.TearDown

namespace SpscQueue

universe u

variable {α : Type u} {q : Queue α} {x y : Exchange α} {role : Role}

/-- The item that a call is about, if it is a push. -/
def Call.items {role : Role} : Call α role → List α
  | push item _ => [item]
  | pop => []
  | popBatch => []

namespace Queue

theorem accept_item (q : Queue α) (item : α) (force : Bool) : (q.accept item force).2.item = item := by
  unfold accept
  split <;> rfl

theorem tryPush_item (q : Queue α) (item : α) : (q.tryPush item).2.item = item := by
  unfold tryPush
  dsimp only
  split
  · rfl
  · split
    · exact accept_item _ item true
    · rfl

end Queue

namespace Call

theorem finish_handled (call : Call α role) (q : Queue α) :
    [(call.finish q).2.result].filterMap Result.handled = call.items := by
  cases call with
  | push item force => exact congrArg (fun item => [item]) (q.accept_item item force)
  | pop => rfl
  | popBatch =>
    have silent (result : Except PopFailure (List α)) :
        [(Outcome.popBatch result).result].filterMap Result.handled = [] := by
      cases result <;> rfl
    exact silent q.deliverKnown.2

theorem giveUp_handled (call : Call α role) :
    [call.giveUp.result].filterMap Result.handled = call.items := by
  cases call <;> rfl

end Call

namespace Exchange

/-- The item of a push under way. -/
def pending (x : Exchange α) : List α := x.pushing.toList.flatMap fun paused => paused.call.items

/-- A call hands its item over or back when it ends, and keeps it as long as it pauses. -/
theorem arrive_handled (x : Exchange α) (call : Call α role) (stretch : Stretch α) :
    ((x.arrive call stretch).turn role).result.toList.filterMap Result.handled ++
        ((x.arrive call stretch).exchange.current role).toList.flatMap (fun paused => paused.call.items) =
      call.items := by
  cases wait : stretch.wait with
  | ready =>
    simp only [arrive, wait, Advance.turn, current_withCurrent_self, Option.toList_some,
      Option.toList_none, List.flatMap_nil, List.append_nil]
    exact call.finish_handled stretch.queue
  | gone =>
    simp only [arrive, wait, Advance.turn, current_withCurrent_self, Option.toList_some,
      Option.toList_none, List.flatMap_nil, List.append_nil]
    exact call.giveUp_handled
  | pausing pause =>
    simp only [arrive, wait, Advance.turn, current_withCurrent_self]
    split <;> simp [Result.handled]

/-- The calls of the consumer are about no item, and leave a push under way alone. -/
theorem arrive_consumer_handled (call : Call α .consumer) {stretch : Stretch α}
    (alike : Queue.Alike .consumer x.queue stretch.queue) :
    ((x.arrive call stretch).turn .consumer).result.toList.filterMap Result.handled = [] ∧
      (x.arrive call stretch).exchange.pending = x.pending := by
  have none : call.items = [] := by cases call <;> rfl
  have whole := x.arrive_handled call stretch
  rw [none] at whole
  have same : (x.arrive call stretch).exchange.pushing = x.pushing := (arrive_beside call alike).2
  refine ⟨(List.append_eq_nil_iff.mp whole).1, ?_⟩
  unfold pending
  rw [same]

theorem pending_of_idle (idle : x.current .producer = none) : x.pending = [] := by
  have pushing : x.pushing = none := idle
  unfold pending
  rw [pushing]
  rfl

theorem pending_of_atRest (rests : x.atRest .producer = true) : x.pending = [] :=
  pending_of_idle (atRest_iff.mp rests).2

/-- The item offered with a move is handed over or back with its result, or is that of a push under
way. -/
theorem play_handled {move : Move α} (allowed : x.allows move = true) :
    x.pending ++ move.offer.toList =
      (x.play move).result.toList.filterMap Result.handled ++ (x.play move).exchange.pending := by
  cases move with
  | start role call =>
    cases role with
    | producer =>
      rw [pending_of_atRest allowed]
      cases call with
      | push item force => exact (x.arrive_handled (.push item force) _).symm
    | consumer =>
      have prepared := (Queue.alike_prepare call x.queue).trans (Queue.alike_await _ .consumer)
      obtain ⟨silent, same⟩ := arrive_consumer_handled call prepared
      have none : (Move.start .consumer call).offer = none := by cases call <;> rfl
      rw [none]
      show x.pending ++ [] = ((x.start call).turn .consumer).result.toList.filterMap _ ++
        (x.start call).exchange.pending
      unfold start
      rw [silent, same, List.append_nil, List.nil_append]
  | proceed role =>
    obtain ⟨⟨call, pause⟩, current⟩ := busy_iff.mp (Bool.and_eq_true_iff.mp allowed).1
    have goes := proceed_eq current
    cases role with
    | producer =>
      have under : x.pending = call.items := by
        have pushing : x.pushing = some ⟨call, pause⟩ := current
        unfold pending
        rw [pushing]
        exact List.append_nil _
      show x.pending ++ [] = ((x.proceed .producer).turn .producer).result.toList.filterMap _ ++
        (x.proceed .producer).exchange.pending
      rw [goes, under, List.append_nil]
      exact (x.arrive_handled call _).symm
    | consumer =>
      obtain ⟨silent, same⟩ :=
        arrive_consumer_handled call (x.queue.alike_resume .consumer pause)
      show x.pending ++ [] = ((x.proceed .consumer).turn .consumer).result.toList.filterMap _ ++
        (x.proceed .consumer).exchange.pending
      rw [goes, silent, same, List.append_nil, List.nil_append]
  | tryPush item =>
    have same : (x.play (.tryPush item)).exchange.pending = x.pending := rfl
    rw [same, pending_of_atRest allowed]
    show [item] = [(x.queue.tryPush item).2.item]
    rw [Queue.tryPush_item]
  | _ => exact List.append_nil x.pending

theorem Runs.handled {moves : List (Move α)} {results : List (Result α)}
    (run : x.Runs moves results y) :
    x.pending ++ moves.filterMap Move.offer = results.filterMap Result.handled ++ y.pending := by
  induction run with
  | rest x => exact List.append_nil x.pending
  | @next x y move moves results allowed _ ih =>
    have first := play_handled allowed
    have whole : (move :: moves).filterMap Move.offer =
        move.offer.toList ++ moves.filterMap Move.offer := by
      cases named : move.offer <;> simp [named]
    rw [whole, ← List.append_assoc, first, List.append_assoc, ih, List.filterMap_append,
      List.append_assoc]

end Exchange

theorem offer_of_other {move : Move α} (other : move.opens .producer = false) : move.offer = none := by
  cases move with
  | start role call =>
    cases role with
    | producer => cases other
    | consumer => cases call <;> rfl
  | tryPush item => cases other
  | _ => rfl

theorem filterMap_offer_opens (moves : List (Move α)) :
    (moves.filter (Move.opens .producer)).filterMap Move.offer = moves.filterMap Move.offer := by
  induction moves with
  | nil => rfl
  | cons move moves ih =>
    cases opens : move.opens .producer with
    | true => rw [List.filter_cons_of_pos opens, List.filterMap_cons, List.filterMap_cons, ih]
    | false =>
      rw [List.filter_cons_of_neg (Bool.eq_false_iff.mp opens), ih,
        List.filterMap_cons_none (offer_of_other opens)]

theorem offered_of_closes {closings : List (Deed α)} (closes : ∀ deed ∈ closings, Session.Closes deed) :
    offered closings = [] := by
  refine List.filterMap_eq_nil_iff.mpr fun move member => ?_
  obtain ⟨deed, known, opening⟩ := List.mem_filterMap.mp (List.mem_filter.mp member).1
  obtain ⟨done, silent⟩ := closes deed known
  unfold Deed.opening at opening
  rw [done] at opening
  exact silent move opening

theorem offered_append (deeds more : List (Deed α)) :
    offered (deeds ++ more) = offered deeds ++ offered more := by
  unfold offered
  rw [openings_append, List.filterMap_append]

namespace Session.Chronicle

variable {s : Session α} {deeds : List (Deed α)} {results : List (Result α)}
  {resumed : List (Resumption α)} {dropped : List α}

/-- A storage that is given up lists what was accepted and not delivered, and it is empty afterwards. -/
theorem released (sound : x.Sound []) (parted : x.queue.Parted)
    (chronicle : Chronicle x s deeds results resumed dropped) (unowned : s.owned = false) :
    results.filterMap Result.accepted = results.flatMap Result.delivered ++ dropped ∧
      ∀ i, s.queue.ring.occupant i = none := by
  obtain ⟨moves, y, run, _, ⟨owned, _⟩ | ⟨_, same, listed⟩⟩ := chronicle.runs
  · rw [unowned] at owned
    cases owned
  · obtain ⟨left, soundNow, account, _⟩ := sound.run run
    have gone : y.queue.closed .producer = true := by
      have closed := (owned_eq_false_iff.mp unowned).1 .producer
      unfold queue at closed
      rw [same] at closed
      exact closed
    obtain ⟨discards, vacant⟩ := soundNow.carries.release_eq (sound.run_parted parted run gone)
    rw [filterMap_ofCall _ Result.ofCall_accepted, flatMap_ofCall, List.nil_append] at account
    unfold queue
    rw [listed, discards, same]
    exact ⟨account, vacant⟩

theorem balance (sound : x.Sound []) (parted : x.queue.Parted)
    (chronicle : Chronicle x s deeds results resumed dropped) (unowned : s.owned = false) :
    results.filterMap Result.accepted = results.flatMap Result.delivered ++ dropped :=
  (chronicle.released sound parted unowned).1

theorem handled (sound : x.Sound []) (chronicle : Chronicle x s deeds results resumed dropped)
    (fresh : x.pending = []) (unowned : s.owned = false) :
    offered deeds = results.filterMap Result.handled := by
  have idle := chronicle.idle_of_unowned sound unowned .producer
  obtain ⟨moves, y, run, opens, ⟨owned, _⟩ | ⟨_, same, _⟩⟩ := chronicle.runs
  · rw [unowned] at owned
    cases owned
  · rw [same] at idle
    have none : y.pending = [] := Exchange.pending_of_idle idle
    have account := run.handled
    rw [fresh, none, List.nil_append, List.append_nil,
      filterMap_ofCall _ Result.ofCall_handled] at account
    unfold offered
    rw [← opens, filterMap_offer_opens]
    exact account

end Session.Chronicle

namespace Transcript

/-- Every item that was put into the queue leaves it once, in the same order: it is delivered, or it is
listed when the storage is given up. And every push hands over or hands back the very item that it
was called with, in the order of the calls. -/
theorem exactly_once {settings : Settings} {steps : List (Step α)} {t : Transcript α}
    (ran : Transcript.ofSteps settings steps = .ok t) :
    t.accepted = t.delivered ++ t.dropped ∧
      offered (told steps t.steps) = t.results.filterMap Result.handled := by
  unfold Transcript.ofSteps at ran
  cases opened : Session.ofSettings (α := α) settings with
  | error cause => rw [opened] at ran; cases ran
  | ok fresh =>
    rw [opened] at ran
    cases ran
    obtain ⟨idle, sound, parted, chronicle⟩ := Session.begins_of_opened opened
    have story := chronicle.steps sound steps
    obtain ⟨_, closed, monitors, closings, closes, ending⟩ := story.tearDown sound
    have unowned : (fresh.steps steps).1.tearDown.1.owned = false :=
      Session.owned_eq_false_iff.mpr ⟨closed, monitors⟩
    have balance := ending.balance sound parted unowned
    have handled := ending.handled sound (Exchange.pending_of_idle (idle .producer)) unowned
    rw [List.nil_append, offered_append, offered_of_closes closes, List.append_nil] at handled
    simp only [List.nil_append, ← List.flatMap_append] at balance handled
    exact ⟨balance, handled⟩

/-- A push that has parked, next to the top of the index range, goes on when an item is taken. -/
theorem exactly_once_parked_push :
    ∃ t : Transcript Nat,
      Transcript.ofSteps ⟨1, by decide, 0, 0, 18446744073709551615, .whenShort, 8⟩
          [.push 7 false .nothing, .push 8 false .nothing, .pop .nothing, .tryPush 9] = .ok t ∧
        t.delivered = [7] ∧ t.dropped = [8] ∧ t.accepted = t.delivered ++ t.dropped := by
  have ran : Transcript.ofSteps (α := Nat) ⟨1, by decide, 0, 0, 18446744073709551615, .whenShort, 8⟩
      [.push 7 false .nothing, .push 8 false .nothing, .pop .nothing, .tryPush 9] = .ok _ := rfl
  refine ⟨_, ran, ?_, rfl, (exactly_once ran).1⟩
  decide +kernel

end Transcript

end SpscQueue
