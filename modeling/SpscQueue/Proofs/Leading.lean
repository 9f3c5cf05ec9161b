import SpscQueue.Proofs.Enactment

namespace SpscQueue.Session

universe u

variable {α : Type u} {who : Role} {s middle after : Session α} {deeds more : List (Deed α)}

/-- What a call has done when it has been led through some pauses, and what happened meanwhile. The
moves known to come first are named. -/
structure Led (who : Role) (first : List (Move α)) (s : Session α) (carried : Carried α)
    (deeds : List (Deed α)) : Prop where
  runs : ∃ moves,
    s.exchange.Runs (first ++ moves) (callResults deeds ++ carried.result.ofCall.toList)
      carried.session.exchange ∧
    ∀ role, moves.filter (Move.opens role) = openings role deeds
  rounds : carried.session.queue.snoozeRounds = s.queue.snoozeRounds
  fate : carried.result = .parked ∧ carried.session.exchange.parked who = true ∨
    (∃ outcome : Outcome α, carried.result.ofCall = some outcome.result) ∧
      carried.session.exchange.current who = none
  openings : openings who deeds = []
  parkings : parkings who deeds = 0
  peer_calm : s.Calm who.peer → carried.session.Calm who.peer
  peer_parkings : s.Calm who.peer →
    SpscQueue.parkings who.peer deeds + (s.exchange.parked who.peer).toNat =
      (carried.session.exchange.parked who.peer).toNat

/-- What happens at the pauses of a call consists of moves, and leaves the call alone. -/
structure Interluded (who : Role) (plan : Meanwhile (Step α)) (act : Interlude α) : Prop where
  spares : InterludeSpares who plan act
  enacts (pause : Pause) (s : Session α) :
    Enacts s (act pause s).1 (noted plan pause (act pause s).2)

theorem led_of_enacts {carried : Carried α} (before : Enacts s middle deeds)
    (openings : openings who deeds = []) (parkings : parkings who deeds = 0)
    (led : Led who [] middle carried more) : Led who [] s carried (deeds ++ more) where
  runs := by
    obtain ⟨moves, run, opened⟩ := before.runs
    obtain ⟨others, later, reopened⟩ := led.runs
    refine ⟨moves ++ others, ?_, fun role => ?_⟩
    · rw [callResults_append, List.append_assoc]
      exact run.append later
    · rw [List.filter_append, opened, reopened, openings_append]
  rounds := led.rounds.trans before.rounds
  fate := led.fate
  openings := by rw [openings_append, openings, led.openings, List.append_nil]
  parkings := by rw [parkings_append, parkings, led.parkings]
  peer_calm calm := led.peer_calm (before.calm _ calm)
  peer_parkings calm := by
    have early := before.parkings _ calm
    have late := led.peer_parkings (before.calm _ calm)
    rw [parkings_append]
    omega

/-- What a party does between two pauses of its call. -/
theorem enacts_awake {moves : List (Move α)} {call : Call α who} {pause : Pause}
    (paused : s.exchange.current who = some ⟨call, pause⟩) (awake : pause ≠ .park)
    (run : s.exchange.Runs moves [] after.exchange)
    (silent : ∀ role, moves.filter (Move.opens role) = [])
    (rounds : after.queue.snoozeRounds = s.queue.snoozeRounds)
    (other : after.exchange.current who.peer = s.exchange.current who.peer) :
    Enacts s after [] := by
  have notCalm : ¬ s.Calm who := by
    intro calm
    have parked := calm (Exchange.busy_iff.mpr ⟨_, paused⟩)
    rw [Exchange.parked_eq paused] at parked
    exact awake (beq_iff_eq.mp parked)
  refine ⟨⟨moves, run, silent⟩, rounds, fun role calm => ?_, fun role calm => ?_⟩
  · rcases who.eq_or_eq_peer role with rfl | rfl
    · exact absurd calm notCalm
    · exact calm_of_current other calm
  · rcases who.eq_or_eq_peer role with rfl | rfl
    · exact absurd calm notCalm
    · rw [parked_eq_of_current other]
      exact Nat.zero_add _

/-- A round of spinning that leads to another pause short of the park. -/
theorem enacts_round {call : Call α who} {pause next : Pause}
    (paused : s.exchange.current who = some ⟨call, pause⟩) (awake : pause ≠ .park)
    (unfinished : (s.exchange.proceed who).outcome = none)
    (reached : (s.exchange.proceed who).exchange.current who = some ⟨call, next⟩)
    (still : next ≠ .park) :
    Enacts s { s with exchange := (s.exchange.proceed who).exchange } [] := by
  have beside := Exchange.proceed_beside s.exchange who
  have silent : ((s.exchange.proceed who).turn who).result = none := by
    unfold Advance.turn
    rw [unfinished]
    simp only [Exchange.parked_eq reached, beq_eq_false_iff_ne.mpr still, Bool.false_eq_true, if_false]
  have allowed : s.exchange.allows (.proceed who) = true :=
    Exchange.mayProceed_of_awake paused awake
  have run := Exchange.Runs.single allowed
  rw [show (s.exchange.play (.proceed who)).result = none from silent] at run
  exact enacts_awake paused awake run (fun _ => rfl) beside.1.rounds beside.2

theorem opens_proceed (n : Nat) (who role : Role) :
    (List.replicate n (Move.proceed who : Move α)).filter (Move.opens role) = [] := by
  refine List.filter_eq_nil_iff.mpr fun move member => ?_
  rw [List.eq_of_mem_replicate member]
  exact Bool.false_ne_true

theorem enacts_passTo {call : Call α who} {pause stop : Pause} {stops : List Pause}
    (paused : s.exchange.current who = some ⟨call, pause⟩) (stale : s.queue.Stale who)
    (comes : StopsFrom s.queue.snoozeRounds pause (stop :: stops)) :
    Enacts s { s with exchange := s.exchange.passTo who stop } [] := by
  obtain ⟨n, run⟩ := Exchange.runs_passTo paused stale comes
  have awake : pause ≠ .park := by cases comes <;> exact fun parks => nomatch parks
  refine enacts_awake paused awake run (opens_proceed n who) ?_
    (Exchange.current_passTo_peer s.exchange who stop)
  show (s.exchange.passTo who stop).queue.snoozeRounds = _
  rw [Exchange.passTo_queue]
  rfl

section

variable {move : Move α} {advance : Advance α} {carried : Carried α}
  (allowed : s.exchange.allows move = true) (plays : s.exchange.play move = advance.turn who)
  (beside : Queue.Alike who s.queue advance.exchange.queue ∧
    advance.exchange.current who.peer = s.exchange.current who.peer)
  (same : carried.session.exchange = advance.exchange)

include allowed plays beside same

theorem led_of_move (heard : carried.result.ofCall = (advance.turn who).result)
    (fate : carried.result = .parked ∧ advance.exchange.parked who = true ∨
      (∃ outcome : Outcome α, carried.result.ofCall = some outcome.result) ∧
        advance.exchange.current who = none) : Led who [move] s carried [] where
  runs := by
    refine ⟨[], ?_, fun role => rfl⟩
    have run := Exchange.Runs.single allowed
    rw [plays] at run
    rw [heard, same]
    exact run
  rounds := by
    unfold queue
    rw [same]
    exact beside.1.rounds
  fate := by rwa [same]
  openings := rfl
  parkings := rfl
  peer_calm := calm_of_current (by rw [same]; exact beside.2)
  peer_parkings _ := by
    have stays : carried.session.exchange.current who.peer = s.exchange.current who.peer := by
      rw [same]
      exact beside.2
    rw [parked_eq_of_current stays]
    exact Nat.zero_add _

/-- A call that ends before another pause. -/
theorem led_ended {outcome : Outcome α} (ended : advance.outcome = some outcome)
    (heard : carried.result.ofCall = some outcome.result)
    (idle : advance.exchange.current who = none) : Led who [move] s carried [] := by
  refine led_of_move allowed plays beside same ?_ (Or.inr ⟨⟨outcome, heard⟩, idle⟩)
  rw [heard]
  unfold Advance.turn
  rw [ended]

/-- A call that parks. -/
theorem led_parked (unfinished : advance.outcome = none) (parks : carried.result = .parked)
    (parked : advance.exchange.parked who = true) : Led who [move] s carried [] := by
  refine led_of_move allowed plays beside same ?_ (Or.inl ⟨parks, parked⟩)
  rw [parks]
  unfold Advance.turn
  rw [unfinished]
  simp only [parked, if_true]
  rfl

end

/-- The last of the moves that lead a call on is not one that begins something. -/
theorem Led.forget {carried : Carried α} (led : Led who [.proceed who] s carried deeds) :
    Led who [] s carried deeds :=
  { led with
    runs := by
      obtain ⟨moves, run, opened⟩ := led.runs
      exact ⟨.proceed who :: moves, run, opened⟩ }

section

variable {call : Call α who} {carried : Carried α}

theorem proceed_allowed {pause : Pause} (paused : s.exchange.current who = some ⟨call, pause⟩)
    (awake : pause ≠ .park) : s.exchange.allows (.proceed who) = true :=
  Exchange.mayProceed_of_awake paused awake

theorem ending_led {pause : Pause} {outcome : Outcome α}
    (paused : s.exchange.current who = some ⟨call, pause⟩) (awake : pause ≠ .park)
    (ended : (s.exchange.proceed who).outcome = some outcome)
    (same : carried.session.exchange = (s.exchange.proceed who).exchange)
    (heard : carried.result.ofCall = some outcome.result) : Led who [] s carried [] := by
  have idle : (s.exchange.proceed who).exchange.current who = none := by
    rw [Exchange.proceed_eq paused] at ended ⊢
    exact Exchange.arrive_ended ended
  exact (led_ended (proceed_allowed paused awake) rfl (Exchange.proceed_beside s.exchange who) same
    ended heard idle).forget

/-- A call that does not end with its sleep parks. -/
theorem sleep_led (paused : s.exchange.current who = some ⟨call, .sleep⟩)
    (unfinished : (s.exchange.proceed who).outcome = none)
    (same : carried.session.exchange = (s.exchange.proceed who).exchange)
    (parks : carried.result = .parked) : Led who [] s carried [] := by
  have parked : (s.exchange.proceed who).exchange.parked who = true := by
    rw [Exchange.proceed_eq paused] at unfinished ⊢
    obtain ⟨next, waits, _, reached⟩ := Exchange.arrive_unfinished unfinished
    rw [Queue.resume_sleep_pausing waits] at reached
    exact Exchange.parked_iff.mpr ⟨call, reached⟩
  exact (led_parked (proceed_allowed paused fun parks => nomatch parks) rfl
    (Exchange.proceed_beside s.exchange who) same unfinished parks parked).forget

/-- A call that does not end with a round of spinning goes on to the next stop. -/
theorem round_reaches {rounds round : Nat} {stops : List Pause}
    (paused : s.exchange.current who = some ⟨call, .snooze round⟩)
    (unfinished : (s.exchange.proceed who).outcome = none)
    (limit : s.queue.snoozeRounds = rounds)
    (onward : StopsFrom rounds (if round < rounds then .snooze (round + 1) else .sleep) stops) :
    ∃ next, (s.exchange.proceed who).exchange.current who = some ⟨call, next⟩ ∧
      (s.exchange.proceed who).exchange.queue.Stale who ∧
      StopsFrom (s.exchange.proceed who).exchange.queue.snoozeRounds next stops ∧
      Enacts s { s with exchange := (s.exchange.proceed who).exchange } [] := by
  have beside := Exchange.proceed_beside s.exchange who
  have unfinished' := unfinished
  rw [Exchange.proceed_eq paused] at unfinished'
  obtain ⟨next, waits, reachedQueue, reached⟩ := Exchange.arrive_unfinished unfinished'
  rw [← Exchange.proceed_eq paused] at reachedQueue reached
  obtain ⟨stale, step⟩ := Queue.resume_snooze_pausing waits
  have still : next ≠ .park := by
    rw [step]
    split <;> exact fun parks => nomatch parks
  refine ⟨next, reached, by rwa [reachedQueue], ?_,
    enacts_round paused (fun parks => nomatch parks) unfinished reached still⟩
  have early : s.exchange.queue.snoozeRounds = rounds := limit
  rw [beside.1.rounds.trans early, step, early]
  exact onward

end

/-- A call is led through its pauses by moves, those of the other party in between included. -/
theorem carryThrough_led {plan : Meanwhile (Step α)} {act : Interlude α}
    (acts : Interluded who plan act) {call : Call α who} {pause : Pause} {stops : List Pause}
    (s : Session α) (paused : s.exchange.current who = some ⟨call, pause⟩)
    (stale : s.queue.Stale who) (comes : StopsFrom s.queue.snoozeRounds pause stops) :
    Led who [] s (carryThrough who act stops s)
      (Report.deedsMeanwhile plan (carryThrough who act stops s).meanwhile) := by
  induction stops generalizing s pause with
  | nil => cases comes
  | cons stop stops ih =>
    rw [carryThrough_cons]
    dsimp only
    rw [deedsMeanwhile_noted]
    -- the time up to the stop passes, and the steps planned for it are made
    have reached := enacts_passTo paused stale comes
    have pausedThere := Exchange.current_passTo paused stop
    generalize s.exchange.passTo who stop = x at reached pausedThere
    have enacted := reached.trans (acts.enacts stop { s with exchange := x })
    have spared := acts.spares stop { s with exchange := x } fun free => by
      have idle := (obstacle_eq_none_iff.mp free).2
      rw [pausedThere] at idle
      cases idle
    rw [List.nil_append] at enacted
    refine led_of_enacts enacted spared.openings spared.parkings ?_
    have current := spared.current.trans pausedThere
    have rounds := enacted.rounds
    generalize (act stop { s with exchange := x }).1 = now at current rounds
    have awake : stop ≠ .park := by cases comes <;> exact fun parks => nomatch parks
    -- the call goes on from there
    cases ended : (now.exchange.proceed who).outcome with
    | some outcome =>
      rw [absorb_some ended]
      exact ending_led current awake ended (conclude_exchange _ outcome) (conclude_ofCall _ outcome)
    | none =>
      rw [absorb_none ended]
      cases comes with
      | asleep => exact sleep_led current ended rfl rfl
      | last _ => exact sleep_led current ended rfl rfl
      | round after within onward =>
        obtain ⟨next, pausedNext, staleNext, comesNext, spins⟩ :=
          round_reaches current ended rounds onward
        have rest := ih { now with exchange := (now.exchange.proceed who).exchange } pausedNext
          staleNext comesNext
        exact { led_of_enacts spins rfl rfl rest with }

theorem firstPause_awake (q : Queue α) : q.firstPause ≠ .park := by
  unfold Queue.firstPause
  split <;> exact fun parks => nomatch parks

/-- A call that pauses after its first move is led on from there. -/
theorem led_of_first {move : Move α} {advance : Advance α} {carried : Carried α}
    (allowed : s.exchange.allows move = true) (plays : s.exchange.play move = advance.turn who)
    (beside : Queue.Alike who s.queue advance.exchange.queue ∧
      advance.exchange.current who.peer = s.exchange.current who.peer)
    (silent : (advance.turn who).result = none)
    (rest : Led who [] { s with exchange := advance.exchange } carried deeds) :
    Led who [move] s carried deeds where
  runs := by
    obtain ⟨moves, run, opened⟩ := rest.runs
    have first := Exchange.Runs.single allowed
    rw [plays, silent] at first
    exact ⟨moves, first.append run, opened⟩
  rounds := rest.rounds.trans beside.1.rounds
  fate := rest.fate
  openings := rest.openings
  parkings := rest.parkings
  peer_calm calm := rest.peer_calm (calm_of_current beside.2 calm)
  peer_parkings calm := by
    have same : ({ s with exchange := advance.exchange } : Session α).exchange.parked who.peer =
        s.exchange.parked who.peer := parked_eq_of_current beside.2
    rw [← same]
    exact rest.peer_parkings (calm_of_current beside.2 calm)

/-- A call that is begun or woken is led to its end or to its park. -/
theorem carry_led {plan : Meanwhile (Step α)} {act : Interlude α} (acts : Interluded who plan act)
    {move : Move α} {call : Call α who} {stretch : Stretch α} {stops : List Pause}
    (allowed : s.exchange.allows move = true)
    (plays : s.exchange.play move = (s.exchange.arrive call stretch).turn who)
    (alike : Queue.Alike who s.queue stretch.queue)
    (pausing : ∀ pause, stretch.wait = .pausing pause →
      stretch.queue.Stale who ∧ pause = s.queue.firstPause)
    (comes : StopsFrom s.queue.snoozeRounds s.queue.firstPause stops) :
    Led who [move] s (s.carry who act stops (s.exchange.arrive call stretch))
      (Report.deedsMeanwhile plan
        (s.carry who act stops (s.exchange.arrive call stretch)).meanwhile) := by
  have beside := Exchange.arrive_beside call alike
  unfold carry
  cases ended : (s.exchange.arrive call stretch).outcome with
  | some outcome =>
    rw [absorb_some ended]
    exact led_ended allowed plays beside (conclude_exchange _ outcome) ended
      (conclude_ofCall _ outcome) (Exchange.arrive_ended ended)
  | none =>
    rw [absorb_none ended]
    obtain ⟨pause, waits, reachedQueue, reachedPause⟩ := Exchange.arrive_unfinished ended
    obtain ⟨stale, first⟩ := pausing pause waits
    have notParked : (s.exchange.arrive call stretch).exchange.parked who = false := by
      rw [Exchange.parked_eq reachedPause, first]
      exact beq_eq_false_iff_ne.mpr (firstPause_awake s.queue)
    have silent : ((s.exchange.arrive call stretch).turn who).result = none := by
      unfold Advance.turn
      rw [ended]
      simp only [notParked, Bool.false_eq_true, if_false]
    have staleNow : (s.exchange.arrive call stretch).exchange.queue.Stale who := by
      rwa [reachedQueue]
    have comesNow : StopsFrom (s.exchange.arrive call stretch).exchange.queue.snoozeRounds pause
        stops := by
      rw [beside.1.rounds, first]
      exact comes
    have rest := carryThrough_led acts { s with exchange := (s.exchange.arrive call stretch).exchange }
      reachedPause staleNow comesNow
    exact { led_of_first allowed plays beside silent rest with }

end SpscQueue.Session
