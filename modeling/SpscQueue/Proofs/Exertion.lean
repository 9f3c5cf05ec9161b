import SpscQueue.Proofs.Effort

namespace SpscQueue

universe u

variable {α : Type u} {q : Queue α} {x y : Exchange α} {items : List α} {role : Role}

/-- A bound on the stops of a call from a pause on until it parks. -/
def Pause.stopsLeft (rounds : Nat) : Pause → Nat
  | snooze round => rounds - round + 2
  | sleep => 1
  | park => 0

namespace Queue

theorem stopsLeft_firstPause (q : Queue α) :
    q.firstPause.stopsLeft q.snoozeRounds ≤ q.snoozeRounds + 1 := by
  unfold firstPause
  split
  · exact Nat.le_add_left 1 _
  · show q.snoozeRounds - 1 + 2 ≤ _
    omega

theorem stir_await (q : Queue α) (role : Role) : (q.await role).queue.stir = q.stir := by
  unfold await
  dsimp only
  split
  · exact q.stir_look role
  · rw [stir_beginRound, stir_look]

theorem stir_prepare (call : Call α role) (q : Queue α) : (call.prepare q).stir = q.stir := by
  cases call with
  | push => rfl
  | pop => rfl
  | popBatch => exact q.stir_refresh .consumer

theorem stir_resume_snooze (q : Queue α) (role : Role) (round : Nat) :
    (q.resume role (.snooze round)).queue.stir = q.stir := by
  unfold resume
  dsimp only
  split <;> exact q.stir_look role

/-- To go on from a pause uses up a stop, or else the signal. -/
theorem resume_stops (carries : q.Carries items) {pause next : Pause}
    (awake : pause = .park → q.signalled role = true)
    (waits : (q.resume role pause).wait = .pausing next) :
    (q.snoozeRounds + 2) * (q.resume role pause).queue.stir + next.stopsLeft q.snoozeRounds <
      (q.snoozeRounds + 2) * q.stir + pause.stopsLeft q.snoozeRounds := by
  cases pause with
  | snooze round =>
    rw [stir_resume_snooze, (resume_snooze_pausing waits).2]
    refine Nat.add_lt_add_left ?_ _
    show Pause.stopsLeft q.snoozeRounds
      (if round < q.snoozeRounds then .snooze (round + 1) else .sleep) < q.snoozeRounds - round + 2
    split
    · show q.snoozeRounds - (round + 1) + 2 < _
      omega
    · show 1 < _
      omega
  | sleep =>
    have still := Nat.mul_le_mul_left (q.snoozeRounds + 2) (carries.stir_resume_sleep role)
    rw [resume_sleep_pausing waits]
    exact Nat.add_lt_add_of_le_of_lt still Nat.zero_lt_one
  | park =>
    have spent := stir_resume_park (awake rfl)
    have first := q.stopsLeft_firstPause
    rw [(resume_park_pausing waits).2, ← spent, Nat.mul_succ]
    show _ < _ + 0
    omega

theorem stir_resume_le (carries : q.Carries items) {pause : Pause}
    (awake : pause = .park → q.signalled role = true) :
    (q.resume role pause).queue.stir ≤ q.stir := by
  cases pause with
  | snooze round => exact Nat.le_of_eq (q.stir_resume_snooze role round)
  | sleep => exact carries.stir_resume_sleep role
  | park =>
    have spent := stir_resume_park (awake rfl)
    omega

/-- The end of a handle raises one signal. -/
theorem stir_close (carries : q.Carries items) (role : Role) : (q.close role).1.stir ≤ q.stir + 1 := by
  cases role with
  | producer =>
    have shown := carries.stir_flush
    have raised : ({ q.flush.consumer with signal := q.flush.consumer.signal.raise } : Side).unease ≤
        q.flush.consumer.unease + 1 := q.flush.consumer.unease_raise true
    unfold stir at shown ⊢
    exact Nat.le_trans (Nat.add_le_add_left raised q.flush.producer.unease) (by omega)
  | consumer =>
    have raised : ({ q.producer with signal := q.producer.signal.raise } : Side).unease ≤
        q.producer.unease + 1 := q.producer.unease_raise true
    refine Nat.le_trans (Nat.add_le_add_right raised q.consumer.unease) ?_
    unfold stir
    omega

theorem stir_deliver (carries : q.Carries items) (ready : q.ready .consumer = true) :
    q.deliver.1.stir ≤ q.stir + 1 := by
  obtain ⟨item, rest, ring, _, delivered, _⟩ := carries.deliver ready
  rw [delivered]
  exact carries.stir_taken ring 1

theorem stir_tryPop (carries : q.Carries items) : q.tryPop.1.stir ≤ q.stir + 1 := by
  rcases tryPop_cases carries with ⟨_, ready, delivered⟩ | ⟨_, _, refused⟩ | ⟨_, _, refused⟩
  · have taken := stir_deliver (carries.look .consumer) ready
    rwa [stir_look, ← delivered] at taken
  · rw [refused]
    exact Nat.le_succ_of_le (Nat.le_of_eq (q.stir_refresh .consumer))
  · rw [refused]
    exact Nat.le_succ_of_le (Nat.le_of_eq (q.stir_look .consumer))

end Queue

namespace Exchange

/-- A bound on the stops still to come in the call of a party, or in the next one, until it parks. -/
def patience (x : Exchange α) (role : Role) : Nat :=
  match x.pauseOf role with
  | some pause => pause.stopsLeft x.queue.snoozeRounds
  | none => x.queue.snoozeRounds + 2

/-- A bound on the stops still to come if no call ends. A signal may cost a whole round of waiting. -/
def strain (x : Exchange α) : Nat :=
  (x.queue.snoozeRounds + 2) * x.queue.stir + (x.patience .producer + x.patience .consumer)

theorem patience_idle (idle : x.current role = none) :
    x.patience role = x.queue.snoozeRounds + 2 := by
  unfold patience pauseOf
  rw [idle]
  rfl

theorem patience_paused {paused : Paused α role} (current : x.current role = some paused) :
    x.patience role = paused.pause.stopsLeft x.queue.snoozeRounds := by
  unfold patience pauseOf
  rw [current]
  rfl

/-- One party has done something that leaves the other one where it is. -/
structure Beside (role : Role) (x y : Exchange α) : Prop where
  alike : Queue.Alike role x.queue y.queue
  other : y.current role.peer = x.current role.peer

theorem patience_peer (rounds : y.queue.snoozeRounds = x.queue.snoozeRounds)
    (other : y.current role.peer = x.current role.peer) :
    y.patience role.peer = x.patience role.peer := by
  unfold patience pauseOf
  rw [other, rounds]

theorem Beside.patience (beside : Beside role x y) : y.patience role.peer = x.patience role.peer :=
  patience_peer beside.alike.rounds beside.other

theorem strain_eq (x : Exchange α) (role : Role) :
    x.strain = (x.queue.snoozeRounds + 2) * x.queue.stir + (x.patience role + x.patience role.peer) := by
  cases role with
  | producer => rfl
  | consumer => exact congrArg (HAdd.hAdd _) (Nat.add_comm _ _)

/-- A party may end its call, and stir the other one up a little. -/
theorem strain_idle (rounds : y.queue.snoozeRounds = x.queue.snoozeRounds)
    (other : y.current role.peer = x.current role.peer) (idle : y.current role = none) {more : Nat}
    (stir : y.queue.stir ≤ x.queue.stir + more) :
    y.strain ≤ x.strain + (x.queue.snoozeRounds + 2) * (more + 1) := by
  have scaled := Nat.mul_le_mul_left (x.queue.snoozeRounds + 2) stir
  rw [strain_eq y role, strain_eq x role, patience_peer rounds other, patience_idle idle, rounds,
    Nat.mul_succ]
  rw [Nat.mul_add] at scaled
  omega

theorem beside_start (x : Exchange α) (call : Call α role) : Beside role x (x.start call).exchange :=
  ⟨(x.start_beside call).1, (x.start_beside call).2⟩

theorem beside_proceed (x : Exchange α) (role : Role) : Beside role x (x.proceed role).exchange :=
  ⟨(x.proceed_beside role).1, (x.proceed_beside role).2⟩

/-- A call that ends stirs the other party up no more than its wait did, but for its work. -/
theorem arrive_stir (call : Call α role) {stretch : Stretch α}
    (keeps : stretch.Keeps role x.queue items) :
    (x.arrive call stretch).exchange.queue.stir ≤ stretch.queue.stir + 4 := by
  cases wait : stretch.wait with
  | ready =>
    simp only [arrive, wait]
    rw [withCurrent_queue]
    exact keeps.carries.stir_finish call (keeps.ready wait)
  | gone =>
    simp only [arrive, wait]
    rw [withCurrent_queue]
    exact Nat.le_add_right _ _
  | pausing pause =>
    simp only [arrive, wait]
    rw [withCurrent_queue]
    exact Nat.le_add_right _ _

/-- The strain after a stretch of a call: less if the call pauses, and a little more at most if it
ends. -/
structure Spends (x : Exchange α) (advance : Advance α) : Prop where
  pausing : advance.outcome = none → advance.exchange.strain < x.strain
  ended : advance.outcome ≠ none →
    advance.exchange.strain ≤ x.strain + (x.queue.snoozeRounds + 2) * 5

theorem Sound.start_spends (sound : x.Sound items) (call : Call α role)
    (rests : x.atRest role = true) : Spends x (x.start call) := by
  have beside := x.beside_start call
  unfold start at beside ⊢
  have keeps := prepare_keeps sound.carries call
  have stir : ((call.prepare x.queue).await role).queue.stir = x.queue.stir := by
    rw [Queue.stir_await, Queue.stir_prepare]
  constructor
  · intro unfinished
    obtain ⟨pause, waits, same, current⟩ := arrive_unfinished unfinished
    have rounds : (call.prepare x.queue).snoozeRounds = x.queue.snoozeRounds :=
      (Queue.alike_prepare call x.queue).rounds
    have first := (call.prepare x.queue).stopsLeft_firstPause
    rw [← (Queue.await_pausing waits).2, rounds] at first
    rw [strain_eq _ role, strain_eq x role, beside.patience, beside.alike.rounds,
      patience_paused current, patience_idle (atRest_iff.mp rests).2, beside.alike.rounds, same, stir]
    dsimp only
    omega
  · intro ended
    obtain ⟨outcome, ended⟩ := Option.ne_none_iff_exists'.mp ended
    have most := arrive_stir call keeps
    rw [stir] at most
    exact strain_idle beside.alike.rounds beside.other (arrive_ended ended) most

theorem Sound.proceed_spends (sound : x.Sound items) (allowed : x.mayProceed role = true) :
    Spends x (x.proceed role) := by
  obtain ⟨busy, awake⟩ := Bool.and_eq_true_iff.mp allowed
  obtain ⟨⟨call, pause⟩, current⟩ := busy_iff.mp busy
  have beside := x.beside_proceed role
  have keeps := Queue.resume_keeps sound.carries (sound.told role busy) pause
  have signalled : pause = .park → x.queue.signalled role = true := by
    rintro rfl
    rw [parked_eq current] at awake
    exact awake
  rw [proceed_eq current] at beside ⊢
  constructor
  · intro unfinished
    obtain ⟨next, waits, same, reached⟩ := arrive_unfinished unfinished
    have less := Queue.resume_stops sound.carries signalled waits
    rw [strain_eq _ role, strain_eq x role, beside.patience, beside.alike.rounds,
      patience_paused reached, patience_paused current, beside.alike.rounds, same]
    dsimp only
    omega
  · intro ended
    obtain ⟨outcome, ended⟩ := Option.ne_none_iff_exists'.mp ended
    have most := arrive_stir call keeps
    have still := Queue.stir_resume_le sound.carries signalled
    exact strain_idle beside.alike.rounds beside.other (arrive_ended ended) (by omega)

end Exchange

end SpscQueue
