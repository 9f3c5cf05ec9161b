import SpscQueue.Proofs.Exertion
import SpscQueue.Proofs.Tuning

namespace SpscQueue

universe u

variable {α : Type u} {q : Queue α} {x : Exchange α} {items : List α} {role : Role}

namespace Queue

/-- A party is stuck for good unless its peer does something, and that is still there. -/
def Stuck (q : Queue α) (role : Role) : Prop := ¬ q.CanMove role ∧ q.closed role.peer = false

/-! A party leaves its own signal alone until it wakes up. -/

theorem signalled_beginRound (q : Queue α) (role : Role) :
    (q.beginRound role).queue.signalled role = q.signalled role := by
  unfold beginRound
  split
  · cases role with
    | producer => rfl
    | consumer =>
      unfold lastLook
      dsimp only
      split <;> rfl
  · rfl

theorem signalled_await (q : Queue α) (role : Role) :
    (q.await role).queue.signalled role = q.signalled role := by
  unfold await
  dsimp only
  split
  · exact q.signalled_look role role
  · rw [signalled_beginRound, signalled_look]

theorem signalled_prepare (call : Call α role) (q : Queue α) :
    (call.prepare q).signalled role = q.signalled role := by
  cases call <;> rfl

theorem Carries.signalled_enrol (carries : q.Carries items) (role : Role) :
    (q.enrol role).queue.signalled role = q.signalled role := by
  cases role with
  | producer =>
    rw [enrol_producer_queue]
    exact (carries.watch (q.threshold .producer) .producer).steady_flush.signalled
  | consumer =>
    rw [enrol_consumer_queue]
    rfl

theorem Carries.signalled_finish (carries : q.Carries items) (call : Call α role)
    (ready : q.ready role = true) : (call.finish q).1.signalled role = q.signalled role := by
  cases call with
  | push item force =>
    simp only [Call.finish, carries.accept_eq ready, Prod.map_apply, id_eq]
    exact (carries.steady_put ready item force).signalled
  | pop =>
    obtain ⟨item, rest, ring, rfl, delivered, _⟩ := carries.deliver ready
    simp only [Call.finish, delivered, Prod.map_apply, id_eq]
    exact (carries.steady_taken ring 1).signalled
  | popBatch =>
    obtain ⟨front, rest, ring, rfl, _, delivered, _⟩ := carries.deliverKnown
    simp only [Call.finish, delivered, Prod.map_apply, id_eq]
    exact (carries.steady_taken ring q.known).signalled

theorem Carries.signalled_tryPop (carries : q.Carries items) :
    q.tryPop.1.signalled .consumer = q.signalled .consumer := by
  rcases tryPop_cases carries with ⟨_, ready, made⟩ | ⟨_, _, made⟩ | ⟨_, _, made⟩
  · have looked := carries.look .consumer
    obtain ⟨item, rest, ring, rfl, delivered, _⟩ := looked.deliver ready
    rw [made, delivered]
    exact (looked.steady_taken ring 1).signalled.trans (q.signalled_look _ _)
  · rw [made]
    rfl
  · rw [made]
    exact q.signalled_look _ _

/-- Once it has woken up, a party has no signal left. -/
theorem Carries.signalled_resume (carries : q.Carries items) {pause : Pause}
    (raised : (q.resume role pause).queue.signalled role = true) :
    q.signalled role = true ∧ pause ≠ .park := by
  cases pause with
  | snooze round =>
    unfold resume at raised
    dsimp only at raised
    split at raised <;>
      exact ⟨(q.signalled_look role role).symm.trans raised, fun same => nomatch same⟩
  | sleep =>
    refine ⟨?_, fun same => nomatch same⟩
    unfold resume at raised
    dsimp only at raised
    split at raised
    · exact (q.signalled_look role role).symm.trans raised
    · rw [(carries.look role).signalled_enrol, signalled_look] at raised
      exact raised
  | park =>
    have quiet : (q.hush role).signalled role = false := by cases role <;> rfl
    unfold resume at raised
    dsimp only at raised
    split at raised
    · rw [signalled_look, quiet] at raised
      cases raised
    · rw [signalled_beginRound, signalled_look, quiet] at raised
      cases raised

/-! A round of waiting begins only if a party is stuck. -/

theorem beginRound_alone {pause : Pause} (waits : (q.beginRound role).wait = .pausing pause) :
    q.closed role.peer = false := by
  unfold beginRound at waits
  split at waits
  · cases role with
    | producer => cases waits
    | consumer =>
      unfold lastLook at waits
      dsimp only at waits
      split at waits <;> cases waits
  · rename_i there
    exact Bool.eq_false_iff.mpr there

theorem Carries.await_stuck (carries : q.Carries items) {pause : Pause}
    (waits : (q.await role).wait = .pausing pause) : q.Stuck role := by
  unfold await at waits
  dsimp only at waits
  split at waits
  · cases waits
  · rename_i short
    refine ⟨fun moves => short ((carries.look_ready role).mpr moves), ?_⟩
    rw [← q.closed_look role]
    exact beginRound_alone waits

theorem Carries.resume_park_stuck (carries : q.Carries items) {pause : Pause}
    (waits : (q.resume role .park).wait = .pausing pause) : q.Stuck role := by
  have hushed : ((q.hush role).await role).wait = .pausing pause := by
    unfold resume at waits
    unfold await
    dsimp only at waits ⊢
    split at waits
    · cases waits
    · rename_i short
      rw [if_neg short]
      exact waits
  obtain ⟨stuck, there⟩ := (carries.hush role).await_stuck hushed
  refine ⟨fun moves => stuck ?_, (((q.alike_hush role).closed role.peer).symm.trans there)⟩
  cases role <;> exact moves

/-- A party that goes on from a pause and can move on stops no more. -/
theorem Carries.resume_ready (carries : q.Carries items) (moves : q.CanMove role) (pause : Pause) :
    (q.resume role pause).wait = .ready := by
  have ready := (carries.look_ready role).mpr moves
  cases pause with
  | snooze round =>
    unfold resume
    dsimp only
    rw [if_pos ready]
  | sleep =>
    unfold resume
    dsimp only
    rw [if_pos ready]
  | park =>
    have hushed : (q.hush role).CanMove role := by cases role <;> exact moves
    unfold resume
    dsimp only
    rw [if_pos (((carries.hush role).look_ready role).mpr hushed)]

end Queue

/-- The pauses that may come next for a party: it begins a round of waiting, or goes on with one. -/
def Exchange.Next (x : Exchange α) (role : Role) (next : Pause) : Prop :=
  match x.pauseOf role with
  | some (.snooze round) => next = if round < x.queue.snoozeRounds then .snooze (round + 1) else .sleep
  | some .sleep => next = .park
  | _ => next = x.queue.firstPause ∧ x.queue.Stuck role

namespace Exchange

/-- A stretch of a call leaves the signal of its party alone unless it has woken up, and it goes from
pause to pause. -/
structure Paces (role : Role) (x : Exchange α) (advance : Advance α) : Prop where
  quiet : advance.exchange.queue.signalled role = true →
    x.queue.signalled role = true ∧ x.parked role = false
  pausing (paused : Paused α role) : advance.exchange.current role = some paused →
    x.Next role paused.pause

theorem arrive_signalled (call : Call α role) {stretch : Stretch α}
    (keeps : stretch.Keeps role x.queue items) :
    (x.arrive call stretch).exchange.queue.signalled role = stretch.queue.signalled role := by
  cases wait : stretch.wait with
  | ready =>
    simp only [arrive, wait]
    rw [withCurrent_queue]
    exact keeps.carries.signalled_finish call (keeps.ready wait)
  | gone =>
    simp only [arrive, wait]
    rw [withCurrent_queue]
  | pausing pause =>
    simp only [arrive, wait]
    rw [withCurrent_queue]

/-- Who is in the middle of a call after a stretch of it has reached a pause. -/
theorem arrive_pausing {call : Call α role} {stretch : Stretch α} {paused : Paused α role}
    (current : (x.arrive call stretch).exchange.current role = some paused) :
    stretch.wait = .pausing paused.pause := by
  cases ended : (x.arrive call stretch).outcome with
  | some outcome => cases (arrive_ended ended).symm.trans current
  | none =>
    obtain ⟨pause, waits, _, reached⟩ := arrive_unfinished ended
    cases reached.symm.trans current
    exact waits

theorem Sound.start_paces (sound : x.Sound items) (call : Call α role)
    (rests : x.atRest role = true) : Paces role x (x.start call) := by
  obtain ⟨_, idle⟩ := atRest_iff.mp rests
  have keeps := prepare_keeps sound.carries call
  have prepared : (call.prepare x.queue).Carries items := by
    cases call with
    | push | pop => exact sound.carries
    | popBatch => exact sound.carries.refresh .consumer
  constructor
  · intro raised
    refine ⟨?_, parked_of_idle idle⟩
    rwa [start, arrive_signalled call keeps, Queue.signalled_await, Queue.signalled_prepare] at raised
  · intro paused current
    have waits := arrive_pausing current
    obtain ⟨stuck, there⟩ := prepared.await_stuck waits
    have first := (Queue.await_pausing waits).2
    rw [Queue.firstPause_of_rounds (Queue.alike_prepare call x.queue).rounds] at first
    unfold Exchange.Next pauseOf
    rw [idle]
    refine ⟨first, fun moves => stuck ?_, ((Queue.alike_prepare call x.queue).closed _).symm.trans there⟩
    cases call with
    | push | pop => exact moves
    | popBatch => exact (x.queue.canMove_refresh .consumer).mpr moves

theorem Sound.proceed_paces (sound : x.Sound items) {call : Call α role} {pause : Pause}
    (current : x.current role = some ⟨call, pause⟩) : Paces role x (x.proceed role) := by
  have keeps := Queue.resume_keeps sound.carries (sound.told role (busy_iff.mpr ⟨_, current⟩)) pause
  rw [proceed_eq current]
  constructor
  · intro raised
    rw [arrive_signalled call keeps] at raised
    obtain ⟨before, awake⟩ := sound.carries.signalled_resume raised
    refine ⟨before, ?_⟩
    rw [parked_eq current]
    exact beq_eq_false_iff_ne.mpr awake
  · intro paused reached
    have waits := arrive_pausing reached
    unfold Exchange.Next pauseOf
    rw [current, Option.map_some]
    cases pause with
    | snooze round => exact (Queue.resume_snooze_pausing waits).2
    | sleep => exact Queue.resume_sleep_pausing waits
    | park => exact ⟨(Queue.resume_park_pausing waits).2, sound.carries.resume_park_stuck waits⟩

end Exchange

end SpscQueue
