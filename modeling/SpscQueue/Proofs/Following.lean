import SpscQueue.Proofs.Depiction

namespace SpscQueue

universe u

variable {α : Type u} {q : Queue α} {b : Backlog α} {role : Role} {o : Index} {pushes : Nat}
  {call : Call α role} {stop : Option Pause}

/-- A stretch of waiting comes to what the backlog says: the call can do its work, or it has to wait
and comes to the given stop. -/
inductive Stretch.Follows (o : Index) (b : Backlog α) (pushes : Nat) {role : Role}
    (call : Call α role) (stop : Option Pause) (s : Stretch α) : Prop
  | ready : s.wait = .ready → s.queue.Portrays o role b pushes → s.queue.ready role = true →
      call.prepare s.queue = s.queue → Follows o b pushes call stop s
  | gone : s.wait = .gone → b.attempt call = none → stop = none →
      s.queue.Portrays o role b pushes → Follows o b pushes call stop s
  | pausing (pause : Pause) : s.wait = .pausing pause → b.attempt call = none →
      stop = some pause → pause ≠ .park → s.queue.Portrays o role b pushes →
      Follows o b pushes call stop s
  | parking : s.wait = .pausing .park → b.attempt call = none → stop = some .park →
      s.queue.Depicts o (b.showOwn role) pushes → s.queue.Tuned o role true →
      s.queue.Tuned o role.peer ((b.showOwn role).parked role.peer) → Follows o b pushes call stop s

/-- More to log changes nothing. -/
theorem Stretch.Follows.log {s : Stretch α} (follows : s.Follows o b pushes call stop)
    (events : List Event) : { s with events }.Follows o b pushes call stop := by
  cases follows with
  | ready wait portrays ready prepared => exact .ready wait portrays ready prepared
  | gone wait waits leaves portrays => exact .gone wait waits leaves portrays
  | pausing pause wait waits stops awake portrays => exact .pausing pause wait waits stops awake portrays
  | parking wait waits stops depicts own peer => exact .parking wait waits stops depicts own peer

namespace Queue

theorem prepare_look (call : Call α role) (seen : q.ready role = false ∨ call.prepare q = q) :
    call.prepare (q.look role) = q.look role := by
  cases call with
  | push => rfl
  | pop => rfl
  | popBatch =>
    rcases q.look_eq_or .consumer with ⟨same, ready⟩ | fresh
    · rw [same]
      refine seen.resolve_left fun short => ?_
      rw [ready] at short
      cases short
    · rw [fresh]
      exact q.refresh_refresh .consumer

namespace Portrays

theorem enrol_producer (portrays : q.Portrays o .producer b pushes)
    (early : pushes < 0x8000000000000000) :
    (q.enrol .producer).queue.signalled .producer = q.signalled .producer ∧
      (q.enrol .producer).queue.Depicts o b.showAll pushes ∧
      (q.enrol .producer).queue.Tuned o .consumer (b.parked .consumer) := by
  have carries := portrays.carries.watch (q.threshold .producer) .producer
  have anchored : (q.watch (q.threshold .producer) .producer).Anchored o pushes :=
    portrays.anchored.of_books rfl rfl
  have peer : (q.watch (q.threshold .producer) .producer).Tuned o .consumer (b.parked .consumer) :=
    portrays.peer.watch (q.threshold .producer)
  have flushed := peer.flush carries anchored (portrays.published_le early)
  have alike := q.alike_enrol .producer
  rw [enrol_producer_queue] at alike ⊢
  refine ⟨carries.steady_flush.signalled, ?_, flushed.refresh .producer⟩
  refine portrays.toDepicts.moved alike ?_ carries.flush_shown
    ((anchored.flush carries).of_books rfl rfl)
  rw [List.append_nil]
  exact carries.flush.refresh .producer

theorem enrol_consumer (portrays : q.Portrays o .consumer b pushes) :
    (q.enrol .consumer).queue.signalled .consumer = q.signalled .consumer ∧
      (q.enrol .consumer).queue.Depicts o b pushes ∧
      (q.enrol .consumer).queue.Tuned o .producer (b.parked .producer) := by
  have carries := portrays.carries.watch (q.threshold .consumer) .consumer
  have peer : (q.watch (q.threshold .consumer) .consumer).Tuned o .producer (b.parked .producer) :=
    portrays.peer.watch (q.threshold .consumer)
  have alike := q.alike_enrol .consumer
  rw [enrol_consumer_queue] at alike ⊢
  exact ⟨rfl, portrays.toDepicts.moved alike (carries.refresh .consumer) portrays.visible
    (portrays.anchored.of_books rfl rfl), peer.refresh .consumer⟩

variable (portrays : q.Portrays o role b pushes)

include portrays

theorem stuck_of_short (short : ¬ (q.look role).ready role = true) : ¬ q.CanMove role :=
  fun moves => short ((portrays.carries.look_ready role).mpr moves)

theorem looked_follows (seen : q.ready role = false ∨ call.prepare q = q)
    (ready : (q.look role).ready role = true) :
    Stretch.Follows o b pushes call stop ⟨q.look role, [], .ready⟩ :=
  .ready rfl portrays.look ready (prepare_look call seen)

theorem firstPause_eq : q.firstPause = if b.snoozeRounds = 0 then .sleep else .snooze 1 := by
  unfold firstPause
  rw [portrays.rounds]

theorem beginRound_follows (call : Call α role) (stuck : ¬ q.CanMove role) :
    (q.beginRound role).Follows o b pushes call (b.firstStop role) := by
  have waits := portrays.attempt_of_stuck call stuck
  have closed := portrays.closed role.peer
  unfold beginRound Backlog.firstStop
  by_cases left : q.closed role.peer = true
  · rw [if_pos left]
    rw [left] at closed
    have leaves : (if b.gone role.peer then none
        else some (if b.snoozeRounds = 0 then Pause.sleep else .snooze 1)) = none :=
      if_pos closed.symm
    rw [leaves]
    cases role with
    | producer => exact .gone rfl waits rfl portrays
    | consumer =>
      have short : ¬ (q.refresh .consumer).ready .consumer = true :=
        fun ready => stuck ((portrays.carries.refresh_ready .consumer).mp ready)
      unfold lastLook
      dsimp only
      rw [if_neg short]
      exact .gone rfl waits rfl portrays.refresh
  · rw [if_neg left]
    rw [Bool.eq_false_iff.mpr left] at closed
    rw [← closed, if_neg Bool.false_ne_true, ← portrays.firstPause_eq]
    refine .pausing q.firstPause rfl waits rfl ?_ portrays
    unfold firstPause
    split <;> exact fun parks => nomatch parks

theorem await_follows (seen : q.ready role = false ∨ call.prepare q = q) :
    (q.await role).Follows o b pushes call (b.firstStop role) := by
  unfold await
  dsimp only
  split
  · rename_i ready
    exact portrays.looked_follows seen ready
  · rename_i short
    have stuck := portrays.stuck_of_short short
    exact portrays.look.beginRound_follows call fun moves => stuck ((q.canMove_look role).mp moves)

/-- A call that is still stuck after its sleep parks, a push not before it has shown everything. -/
theorem enrol_follows (early : pushes < 0x8000000000000000) (call : Call α role)
    (fresh : q.refresh role = q) (stuck : ¬ q.CanMove role)
    (told : q.closed role.peer = true → q.signalled role = true) :
    (q.enrol role).Follows o b pushes call (some .park) := by
  obtain ⟨keeps, parks⟩ := enrol_keeps portrays.carries fresh stuck told
  have watches := (keeps.pausing .park parks).2.2 rfl
  have alike := q.alike_enrol role
  have effects : (q.enrol role).queue.signalled role = q.signalled role ∧
      (q.enrol role).queue.Depicts o (b.showOwn role) pushes ∧
      (q.enrol role).queue.Tuned o role.peer ((b.showOwn role).parked role.peer) := by
    cases role with
    | producer => exact portrays.enrol_producer early
    | consumer => exact portrays.enrol_consumer
  obtain ⟨signalled, depicts, peer⟩ := effects
  exact .parking parks (portrays.attempt_of_stuck call stuck) rfl depicts
    (portrays.own.parked signalled (alike.closed _) watches) peer

theorem resume_follows (early : pushes < 0x8000000000000000) (call : Call α role)
    (short : q.ready role = false) (told : q.closed role.peer = true → q.signalled role = true)
    {pause : Pause} (awake : pause ≠ .park) :
    (q.resume role pause).Follows o b pushes call (b.nextStop role pause) := by
  cases pause with
  | snooze round =>
    unfold resume
    dsimp only
    split
    · rename_i ready
      exact portrays.looked_follows (Or.inl short) ready
    · rename_i stuck
      have waits := portrays.attempt_of_stuck call (portrays.stuck_of_short stuck)
      unfold Backlog.nextStop
      rw [← portrays.rounds]
      refine .pausing _ rfl waits rfl ?_ portrays.look
      split <;> exact fun parks => nomatch parks
  | sleep =>
    unfold resume
    dsimp only
    split
    · rename_i ready
      exact portrays.looked_follows (Or.inl short) ready
    · rename_i still
      have stuck := portrays.stuck_of_short still
      have fresh := q.look_eq_refresh (Bool.eq_false_iff.mpr still)
      refine portrays.look.enrol_follows early call ?_ (fun moves => stuck ((q.canMove_look role).mp moves)) ?_
      · rw [fresh, refresh_refresh]
      · rwa [q.closed_look, q.signalled_look]
  | park => exact absurd rfl awake

end Portrays

/-- A party that was woken waits on from the start. -/
theorem resume_park_follows (portrays : (q.hush role).Portrays o role b pushes)
    (call : Call α role) (short : q.ready role = false) :
    (q.resume role .park).Follows o b pushes call (b.nextStop role .park) := by
  have still : (q.hush role).ready role = false := by
    cases role <;> exact short
  have follows : ((q.hush role).await role).Follows o b pushes call (b.firstStop role) :=
    portrays.await_follows (Or.inl still)
  unfold await at follows
  unfold resume
  dsimp only at follows ⊢
  split
  · rename_i ready
    rw [if_pos ready] at follows
    exact follows.log _
  · rename_i stuck
    rw [if_neg stuck] at follows
    exact follows.log _

end Queue

end SpscQueue
