import SpscQueue.Proofs.Leading

namespace SpscQueue.Session

universe u

variable {α : Type u} {who : Role} {s : Session α} {deeds : List (Deed α)} {step : Step α}
  {result : Result α}

theorem opening_of_heard {heard : Result α} (told : result.ofCall = some heard) :
    (⟨step, result⟩ : Deed α).opening = step.opening := by
  cases result <;> first | rfl | cases told

theorem outcome_ne_parked (outcome : Outcome α) : outcome.result ≠ .parked := by
  unfold Outcome.result
  split <;> exact fun parks => nomatch parks

theorem not_parks_of_ended {outcome : Outcome α} (ended : result.ofCall = some outcome.result) :
    (⟨step, result⟩ : Deed α).parks role = false := by
  cases result with
  | parked => exact absurd (Option.some.inj ended).symm (outcome_ne_parked outcome)
  | _ => rfl

theorem callResults_single (step : Step α) (result : Result α) :
    callResults [⟨step, result⟩] = result.ofCall.toList := by
  cases heard : result.ofCall <;> simp [callResults, heard]

theorem peer_ne (role : Role) : role ≠ role.peer := by cases role <;> exact fun same => nomatch same

/-- A party that is calm at the end of its call is parked or at rest. -/
theorem Led.calm {first : List (Move α)} {carried : Carried α} (led : Led who first s carried deeds) :
    carried.session.Calm who := by
  rcases led.fate with ⟨_, parked⟩ | ⟨_, idle⟩
  · exact fun _ => parked
  · exact calm_of_idle idle

theorem enacts_of_led {call : Call α who} {carried : Carried α}
    (led : Led who [.start who call] s carried deeds)
    (opening : step.opening = some (.start who call)) (idle : s.exchange.current who = none) :
    Enacts s carried.session (deeds ++ [⟨step, carried.result⟩]) := by
  obtain ⟨moves, run, opened⟩ := led.runs
  have heard : ∃ heard, carried.result.ofCall = some heard := by
    rcases led.fate with ⟨parks, _⟩ | ⟨⟨outcome, ends⟩, _⟩
    · exact ⟨.parked, by rw [parks]; rfl⟩
    · exact ⟨_, ends⟩
  obtain ⟨heard, told⟩ := heard
  have opened' : (⟨step, carried.result⟩ : Deed α).opening = some (.start who call) :=
    (opening_of_heard told).trans opening
  have others (role : Role) (other : who ≠ role) :
      openings role [⟨step, carried.result⟩] = [] ∧ parkings role [⟨step, carried.result⟩] = 0 := by
    have spared : Spares role s s [⟨step, carried.result⟩] := spares_other opening other rfl rfl
    exact ⟨spared.openings, spared.parkings⟩
  refine ⟨⟨.start who call :: moves, ?_, fun role => ?_⟩, led.rounds, fun role calm => ?_,
    fun role calm => ?_⟩
  · rw [callResults_append, callResults_single]
    exact run
  · rw [openings_append]
    rcases who.eq_or_eq_peer role with rfl | rfl
    · rw [led.openings, List.filter_cons, if_pos (by cases role <;> rfl), opened, led.openings]
      simp [openings, opened', Move.opens, Move.role]
    · have begun : (Move.start who call).opens who.peer = false := opens_of_other (peer_ne who)
      rw [(others _ (peer_ne who)).1, List.append_nil, List.filter_cons, begun]
      exact opened _
  · rcases who.eq_or_eq_peer role with rfl | rfl
    · exact led.calm
    · exact led.peer_calm calm
  · rw [parkings_append]
    rcases who.eq_or_eq_peer role with rfl | rfl
    · rw [led.parkings, Exchange.parked_of_idle idle]
      rcases led.fate with ⟨parks, parked⟩ | ⟨⟨outcome, ends⟩, idle'⟩
      · rw [parked]
        simp [parkings, Deed.parks, parks, opening, Move.role]
      · rw [Exchange.parked_of_idle idle']
        simp [parkings, not_parks_of_ended ends]
    · rw [(others _ (peer_ne who)).2]
      exact led.peer_parkings calm

/-- A waiting call is a move, and so is whatever happens until it ends or parks. -/
theorem call_enacts (step : Step α) {call : Call α who}
    (opening : step.opening = some (.start who call)) {act : Interlude α}
    (acts : Interluded who step.meanwhile act) (s : Session α) :
    Enacts s (s.call call act (step.meanwhile.stops s.queue.snoozeRounds)).1
      ((s.call call act (step.meanwhile.stops s.queue.snoozeRounds)).2.deeds step) := by
  unfold Session.call withHandle
  split
  · rename_i result refused
    exact (unnoticed_refused refused).enacts
  · rename_i free
    have allowed : s.exchange.allows (.start who call) = true := atRest_of_obstacle free
    have idle := (obstacle_eq_none_iff.mp free).2
    have prepared := Queue.alike_prepare call s.queue
    have led := carry_led acts allowed rfl (prepared.trans (Queue.alike_await _ who))
      (fun pause waits => by
        rw [← Queue.firstPause_of_rounds prepared.rounds]
        exact Queue.await_pausing waits)
      (stopsFrom_firstPause step.meanwhile s.queue)
    rw [Report.deeds]
    exact enacts_of_led led opening idle

theorem withHandle_enacts {use : Session α → Session α × Report α}
    (uses : s.obstacle who = none → Enacts s (use s).1 ((use s).2.deeds step)) :
    Enacts s (s.withHandle who use).1 ((s.withHandle who use).2.deeds step) := by
  unfold withHandle
  split
  · rename_i result refused
    exact (unnoticed_refused refused).enacts
  · rename_i free
    exact uses free

mutual

/-- Whatever a session does is a run of the exchange. -/
theorem perform_enacts : ∀ (step : Step α) (s : Session α),
    Enacts s (perform step s).1 ((perform step s).2.deeds step)
  | .push item force meanwhile, s => by
    rw [perform]
    exact call_enacts (.push item force meanwhile) rfl
      ⟨act_spares .producer meanwhile, act_enacts meanwhile⟩ s
  | .tryPush item, s => by
    rw [perform]
    refine withHandle_enacts fun free => ?_
    rw [deeds_plain]
    have allowed : s.exchange.allows (.tryPush item) = true := atRest_of_obstacle free
    exact enacts_move allowed rfl rfl rfl (fun _ => rfl) (fun _ => Exchange.current_withQueue _)
      (s.queue.alike_tryPush item).rounds
  | .flush, s => by
    rw [perform]
    refine withHandle_enacts fun free => ?_
    rw [deeds_plain]
    have allowed : s.exchange.allows .flush = true := atRest_of_obstacle free
    exact enacts_move allowed rfl rfl rfl (fun _ => rfl) (fun _ => Exchange.current_withQueue _)
      (s.queue.alike_publish .producer).rounds
  | .pop meanwhile, s => by
    rw [perform]
    exact call_enacts (.pop meanwhile) rfl
      ⟨act_spares .consumer meanwhile, act_enacts meanwhile⟩ s
  | .popBatch keep meanwhile, s => by
    rw [perform]
    refine withHandle_enacts fun _ => ?_
    dsimp only
    have emptied : Enacts s (if keep then s else { s with collected := [] }) [] := by
      split
      · exact .refl s
      · exact { Enacts.refl s with }
    exact emptied.trans (call_enacts (.popBatch keep meanwhile) rfl
      ⟨act_spares .consumer meanwhile, act_enacts meanwhile⟩ _)
  | .tryPop, s => by
    rw [perform]
    refine withHandle_enacts fun free => ?_
    rw [deeds_plain]
    have allowed : s.exchange.allows .tryPop = true := atRest_of_obstacle free
    exact enacts_move allowed rfl rfl rfl (fun _ => rfl) (fun _ => Exchange.current_withQueue _)
      s.queue.alike_tryPop.rounds
  | .inspect who, s => (perform_unnoticed rfl s).enacts
  | .describe who, s => (perform_unnoticed rfl s).enacts
  | .close who, s => by
    rw [perform]
    refine withHandle_enacts fun free => ?_
    rw [deeds_mk]
    have allowed : s.exchange.allows (.close who) = true := atRest_of_obstacle free
    exact enacts_move allowed rfl rfl rfl (fun _ => rfl) (fun _ => Exchange.current_withQueue _)
      (s.queue.close_rounds who)
  | .addMonitor id source, s => (perform_unnoticed rfl s).enacts
  | .inspectMonitor id, s => (perform_unnoticed rfl s).enacts
  | .describeMonitor id, s => (perform_unnoticed rfl s).enacts
  | .closeMonitor id, s => (perform_unnoticed rfl s).enacts
  | .hold, s => (perform_unnoticed rfl s).enacts
  | .release, s => (perform_unnoticed rfl s).enacts

theorem performAll_enacts : ∀ (steps : List (Step α)) (s : Session α),
    Enacts s (performAll steps s).1 (Report.deedsOfAll steps (performAll steps s).2)
  | [], s => .refl s
  | step :: steps, s => (perform_enacts step s).trans (performAll_enacts steps (perform step s).1)

theorem act_enacts : ∀ (plan : Meanwhile (Step α)) (pause : Pause) (s : Session α),
    Enacts s (act plan pause s).1 (noted plan pause (act plan pause s).2)
  | .nothing, _, s => .refl s
  | .during planned steps rest, pause, s => by
    by_cases here : planned = pause
    · have all := performAll_enacts steps s
      rw [act, if_pos here, noted, Meanwhile.at?, if_pos here]
      exact all
    · have later := act_enacts rest pause s
      rw [act, if_neg here, noted_eq (Meanwhile.at?_during_other steps rest here)]
      exact later

end

end SpscQueue.Session
