import SpscQueue.Proofs.Frame
import SpscQueue.Proofs.Schedule

namespace SpscQueue

universe u

variable {α : Type u} {q : Queue α} {x : Exchange α} {role : Role}

namespace Queue

/-- The party cannot move on, and another look would not tell it anything new. -/
def Stale (q : Queue α) (role : Role) : Prop := q.look role = q ∧ q.ready role = false

theorem stale_look (short : (q.look role).ready role = false) : (q.look role).Stale role := by
  refine ⟨?_, short⟩
  rcases (q.look role).look_eq_or role with ⟨same, _⟩ | fresh
  · exact same
  · rw [fresh, look_eq_refresh short, refresh_refresh]

theorem firstPause_of_rounds {next : Queue α} (rounds : next.snoozeRounds = q.snoozeRounds) :
    next.firstPause = q.firstPause := by
  unfold firstPause
  rw [rounds]

theorem beginRound_pausing {pause : Pause} (waits : (q.beginRound role).wait = .pausing pause) :
    (q.beginRound role).queue = q ∧ pause = q.firstPause := by
  unfold beginRound at waits ⊢
  split at waits
  · rename_i left
    cases role with
    | producer => cases waits
    | consumer =>
      unfold lastLook at waits
      dsimp only at waits
      split at waits <;> cases waits
  · rename_i alive
    rw [if_neg alive]
    cases waits
    exact ⟨rfl, rfl⟩

/-- A wait that does not end at once begins with a round of waiting. -/
theorem await_pausing {pause : Pause} (waits : (q.await role).wait = .pausing pause) :
    (q.await role).queue.Stale role ∧ pause = q.firstPause := by
  unfold await at waits ⊢
  dsimp only at waits ⊢
  split at waits
  · cases waits
  · rename_i short
    obtain ⟨same, first⟩ := beginRound_pausing waits
    rw [if_neg short, same]
    exact ⟨stale_look (Bool.eq_false_iff.mpr short),
      first.trans (firstPause_of_rounds (q.alike_look role).rounds)⟩

theorem resume_snooze_pausing {round : Nat} {pause : Pause}
    (waits : (q.resume role (.snooze round)).wait = .pausing pause) :
    (q.resume role (.snooze round)).queue.Stale role ∧
      pause = if round < q.snoozeRounds then .snooze (round + 1) else .sleep := by
  unfold resume at waits ⊢
  dsimp only at waits ⊢
  split at waits
  · cases waits
  · rename_i short
    rw [if_neg short]
    cases waits
    exact ⟨stale_look (Bool.eq_false_iff.mpr short), rfl⟩

theorem enrol_pausing {pause : Pause} (waits : (q.enrol role).wait = .pausing pause) :
    pause = .park := by
  cases role with
  | producer =>
    unfold enrol at waits
    dsimp only at waits
    split at waits <;> cases waits
    rfl
  | consumer =>
    unfold enrol at waits
    dsimp only at waits
    split at waits <;> cases waits
    rfl

theorem resume_sleep_pausing {pause : Pause}
    (waits : (q.resume role .sleep).wait = .pausing pause) : pause = .park := by
  unfold resume at waits
  dsimp only at waits
  split at waits
  · cases waits
  · exact enrol_pausing waits

/-- A woken party that is still stuck begins a round of waiting anew. -/
theorem resume_park_pausing {pause : Pause} (waits : (q.resume role .park).wait = .pausing pause) :
    (q.resume role .park).queue.Stale role ∧ pause = q.firstPause := by
  have hushed : (q.hush role).firstPause = q.firstPause :=
    firstPause_of_rounds (q.alike_hush role).rounds
  have again (waits : ((q.hush role).await role).wait = .pausing pause) := await_pausing waits
  rw [hushed] at again
  unfold resume at waits ⊢
  unfold await at again
  dsimp only at waits again ⊢
  split at waits
  · cases waits
  · rename_i short
    rw [if_neg short] at again ⊢
    exact again waits

end Queue

/-- `StopsFrom rounds pause stops` says that a call which pauses at `pause` comes past the given stops,
in their order, until it leaves its sleep. -/
inductive StopsFrom (rounds : Nat) : Pause → List Pause → Prop
  | asleep : StopsFrom rounds .sleep [.sleep]
  | last {round : Nat} : round ≤ rounds → StopsFrom rounds (.snooze round) [.sleep]
  | round {round stop : Nat} {stops : List Pause} : round ≤ stop → stop ≤ rounds →
      StopsFrom rounds (if stop < rounds then .snooze (stop + 1) else .sleep) stops →
      StopsFrom rounds (.snooze round) (.snooze stop :: stops)

theorem insertAscending_ascending {n : Nat} {numbers : List Nat}
    (ascending : numbers.Pairwise (· < ·)) :
    (insertAscending n numbers).Pairwise (· < ·) ∧
      ∀ m ∈ insertAscending n numbers, m = n ∨ m ∈ numbers := by
  induction numbers with
  | nil => simp [insertAscending]
  | cons first rest ih =>
    obtain ⟨above, later⟩ := List.pairwise_cons.mp ascending
    obtain ⟨sorted, members⟩ := ih later
    unfold insertAscending
    split
    · rename_i before
      refine ⟨List.pairwise_cons.mpr ⟨?_, ascending⟩, ?_⟩
      · intro m member
        rcases List.mem_cons.mp member with rfl | inRest
        · exact before
        · exact Nat.lt_trans before (above m inRest)
      · intro m member
        exact List.mem_cons.mp member
    · split
      · exact ⟨ascending, fun m member => Or.inr member⟩
      · rename_i notBefore other
        refine ⟨List.pairwise_cons.mpr ⟨?_, sorted⟩, ?_⟩
        · intro m member
          rcases members m member with rfl | inRest
          · omega
          · exact above m inRest
        · intro m member
          rcases List.mem_cons.mp member with rfl | inserted
          · exact Or.inr (List.mem_cons_self ..)
          · exact (members m inserted).imp_right (List.mem_cons_of_mem first)

theorem Meanwhile.rounds_ascending {β : Type u} (m : Meanwhile β) : m.rounds.Pairwise (· < ·) := by
  induction m with
  | nothing => exact .nil
  | during pause steps rest ih =>
    cases pause with
    | snooze round => exact (insertAscending_ascending ih).1
    | sleep => exact ih
    | park => exact ih

theorem stopsFrom_of_ascending {rounds first : Nat} {numbers : List Nat}
    (ascending : numbers.Pairwise (· < ·)) (above : ∀ n ∈ numbers, first ≤ n)
    (below : ∀ n ∈ numbers, n ≤ rounds) :
    StopsFrom rounds (if first ≤ rounds then .snooze first else .sleep)
      (numbers.map .snooze ++ [.sleep]) := by
  induction numbers generalizing first with
  | nil =>
    split
    · rename_i more
      exact .last more
    · exact .asleep
  | cons n numbers ih =>
    obtain ⟨later, sorted⟩ := List.pairwise_cons.mp ascending
    have atLeast := above n (List.mem_cons_self ..)
    have atMost := below n (List.mem_cons_self ..)
    have rest : StopsFrom rounds (if n + 1 ≤ rounds then .snooze (n + 1) else .sleep)
        (numbers.map .snooze ++ [.sleep]) :=
      ih sorted (fun m member => later m member)
        (fun m member => below m (List.mem_cons_of_mem n member))
    rw [if_pos (Nat.le_trans atLeast atMost)]
    exact .round atLeast atMost rest

/-- The stops at which a call has to be led are the ones it comes past. -/
theorem stopsFrom_firstPause {β : Type u} (m : Meanwhile β) (q : Queue α) :
    StopsFrom q.snoozeRounds q.firstPause (m.stops q.snoozeRounds) := by
  have within (n : Nat)
      (member : n ∈ m.rounds.filter fun round => 1 ≤ round && round ≤ q.snoozeRounds) :
      1 ≤ n ∧ n ≤ q.snoozeRounds := by
    simpa using (List.mem_filter.mp member).2
  have first : q.firstPause = if 1 ≤ q.snoozeRounds then .snooze 1 else .sleep := by
    unfold Queue.firstPause
    by_cases none : q.snoozeRounds = 0
    · rw [if_pos none, if_neg (by omega)]
    · rw [if_neg none, if_pos (by omega)]
  rw [first]
  exact stopsFrom_of_ascending (m.rounds_ascending.filter _) (fun n member => (within n member).1)
    (fun n member => (within n member).2)

namespace Exchange

/-- A stretch of a call of one party leaves the other party where it is. -/
theorem arrive_beside (call : Call α role) {stretch : Stretch α}
    (alike : Queue.Alike role x.queue stretch.queue) :
    Queue.Alike role x.queue (x.arrive call stretch).exchange.queue ∧
      (x.arrive call stretch).exchange.current role.peer = x.current role.peer := by
  unfold arrive
  split
  · dsimp only
    rw [withCurrent_queue, current_withCurrent_peer, current_withQueue]
    exact ⟨alike.trans (Queue.alike_finish call stretch.queue), rfl⟩
  · dsimp only
    rw [withCurrent_queue, current_withCurrent_peer, current_withQueue]
    exact ⟨alike, rfl⟩
  · dsimp only
    rw [withCurrent_queue, current_withCurrent_peer, current_withQueue]
    exact ⟨alike, rfl⟩

theorem start_beside (x : Exchange α) (call : Call α role) :
    Queue.Alike role x.queue (x.start call).exchange.queue ∧
      (x.start call).exchange.current role.peer = x.current role.peer :=
  arrive_beside call ((Queue.alike_prepare call x.queue).trans (Queue.alike_await _ role))

theorem proceed_beside (x : Exchange α) (role : Role) :
    Queue.Alike role x.queue (x.proceed role).exchange.queue ∧
      (x.proceed role).exchange.current role.peer = x.current role.peer := by
  unfold proceed
  split
  · exact ⟨.refl role x.queue, rfl⟩
  · exact arrive_beside _ (Queue.alike_resume x.queue role _)

theorem proceed_eq {call : Call α role} {pause : Pause}
    (paused : x.current role = some ⟨call, pause⟩) :
    x.proceed role = x.arrive call (x.queue.resume role pause) := by
  unfold proceed
  rw [paused]

theorem passTo_eq {call : Call α role} {pause : Pause}
    (paused : x.current role = some ⟨call, pause⟩) (stop : Pause) :
    x.passTo role stop = x.withCurrent (some ⟨call, stop⟩) := by
  unfold passTo
  rw [paused]

theorem current_passTo {call : Call α role} {pause : Pause}
    (paused : x.current role = some ⟨call, pause⟩) (stop : Pause) :
    (x.passTo role stop).current role = some ⟨call, stop⟩ := by
  rw [passTo_eq paused, current_withCurrent_self]

theorem passTo_queue (x : Exchange α) (role : Role) (stop : Pause) :
    (x.passTo role stop).queue = x.queue := by
  unfold passTo
  split
  · rfl
  · exact withCurrent_queue x _

theorem current_passTo_peer (x : Exchange α) (role : Role) (stop : Pause) :
    (x.passTo role stop).current role.peer = x.current role.peer := by
  unfold passTo
  split
  · rfl
  · exact current_withCurrent_peer _

theorem passTo_self {call : Call α role} {pause : Pause}
    (paused : x.current role = some ⟨call, pause⟩) : x.passTo role pause = x := by
  rw [passTo_eq paused, ← paused]
  cases role <;> rfl

theorem passTo_passTo {call : Call α role} {pause : Pause}
    (paused : x.current role = some ⟨call, pause⟩) (stop later : Pause) :
    (x.passTo role stop).passTo role later = x.passTo role later := by
  rw [passTo_eq (current_passTo paused stop), passTo_eq paused, passTo_eq paused]
  cases role <;> rfl

theorem parked_eq {call : Call α role} {pause : Pause}
    (paused : x.current role = some ⟨call, pause⟩) : x.parked role = (pause == .park) := by
  unfold parked pauseOf
  rw [paused]
  rfl

/-- A call that ends leaves its party at rest. -/
theorem arrive_ended {call : Call α role} {stretch : Stretch α} {outcome : Outcome α}
    (ended : (x.arrive call stretch).outcome = some outcome) :
    (x.arrive call stretch).exchange.current role = none := by
  cases wait : stretch.wait with
  | ready =>
    simp only [arrive, wait]
    exact current_withCurrent_self none
  | gone =>
    simp only [arrive, wait]
    exact current_withCurrent_self none
  | pausing pause =>
    simp only [arrive, wait] at ended
    cases ended

/-- A call that does not end pauses. -/
theorem arrive_unfinished {call : Call α role} {stretch : Stretch α}
    (unfinished : (x.arrive call stretch).outcome = none) :
    ∃ pause, stretch.wait = .pausing pause ∧
      (x.arrive call stretch).exchange.queue = stretch.queue ∧
      (x.arrive call stretch).exchange.current role = some ⟨call, pause⟩ := by
  cases wait : stretch.wait with
  | ready =>
    simp only [arrive, wait] at unfinished
    cases unfinished
  | gone =>
    simp only [arrive, wait] at unfinished
    cases unfinished
  | pausing pause =>
    refine ⟨pause, rfl, ?_, ?_⟩
    · simp only [arrive, wait]
      exact withCurrent_queue _ _
    · simp only [arrive, wait]
      exact current_withCurrent_self _

/-- Short of its park a call can always go on. -/
theorem mayProceed_of_awake {call : Call α role} {pause : Pause}
    (paused : x.current role = some ⟨call, pause⟩) (awake : pause ≠ .park) :
    x.mayProceed role = true := by
  have busy : x.busy role = true := busy_iff.mpr ⟨_, paused⟩
  have notParked : x.parked role = false := by
    rw [parked_eq paused]
    exact beq_eq_false_iff_ne.mpr awake
  rw [mayProceed, busy, notParked]
  rfl

/-- A stale round of spinning is a move that has no result. -/
theorem runs_round {call : Call α role} {round : Nat}
    (paused : x.current role = some ⟨call, .snooze round⟩) (stale : x.queue.Stale role)
    {stop : Pause} (next : (if round < x.queue.snoozeRounds then .snooze (round + 1) else .sleep) = stop) :
    x.Runs [.proceed role] [] (x.passTo role stop) := by
  subst next
  have pass := proceed_snooze paused stale.1 stale.2
  have allowed : x.allows (.proceed role) = true :=
    mayProceed_of_awake paused fun parks => nomatch parks
  have run := Runs.single allowed
  have notParked : (x.passTo role (if round < x.queue.snoozeRounds then .snooze (round + 1)
      else .sleep)).parked role = false := by
    rw [parked_eq (current_passTo paused _)]
    split <;> rfl
  simp only [play, pass, Advance.turn, notParked, Bool.false_eq_true, if_false,
    Option.toList_none] at run
  exact run

theorem runs_rounds {call : Call α role} {round : Nat}
    (paused : x.current role = some ⟨call, .snooze round⟩) (stale : x.queue.Stale role) (n : Nat)
    (within : round + n ≤ x.queue.snoozeRounds) :
    x.Runs (List.replicate n (.proceed role)) [] (x.passTo role (.snooze (round + n))) := by
  induction n generalizing x round with
  | zero =>
    rw [Nat.add_zero, passTo_self paused]
    exact .rest x
  | succ n ih =>
    have first := runs_round paused stale (if_pos (by omega))
    have paused' := current_passTo paused (.snooze (round + 1))
    have rest := ih paused' (by rwa [passTo_queue]) (by rw [passTo_queue]; omega)
    rw [passTo_passTo paused, Nat.add_assoc, Nat.add_comm 1 n] at rest
    exact first.append rest

/-- The time up to a later stop passes by moves of the waiting party alone. -/
theorem runs_passTo {call : Call α role} {pause stop : Pause} {stops : List Pause}
    (paused : x.current role = some ⟨call, pause⟩) (stale : x.queue.Stale role)
    (comes : StopsFrom x.queue.snoozeRounds pause (stop :: stops)) :
    ∃ n, x.Runs (List.replicate n (.proceed role)) [] (x.passTo role stop) := by
  cases comes with
  | asleep =>
    rw [passTo_self paused]
    exact ⟨0, .rest x⟩
  | @last round within =>
    have spins := runs_rounds paused stale (x.queue.snoozeRounds - round) (by omega)
    have paused' := current_passTo paused (.snooze (round + (x.queue.snoozeRounds - round)))
    have beyond : ¬ round + (x.queue.snoozeRounds - round) < x.queue.snoozeRounds := by omega
    have falls := runs_round paused' (by rwa [passTo_queue]) (if_neg (by rwa [passTo_queue]))
    rw [passTo_passTo paused] at falls
    refine ⟨x.queue.snoozeRounds - round + 1, ?_⟩
    rw [List.replicate_succ']
    exact spins.append falls
  | @round round stop _ after within _ =>
    have spins := runs_rounds paused stale (stop - round) (by omega)
    rw [Nat.add_sub_cancel' after] at spins
    exact ⟨stop - round, spins⟩

end Exchange

end SpscQueue
