import SpscQueue.Proofs.Regard

namespace SpscQueue

universe u

variable {α : Type u} {q next : Queue α} {items : List α} {role : Role}

namespace Queue

theorem canMove_refresh (q : Queue α) (role : Role) :
    (q.refresh role).CanMove role ↔ q.CanMove role := by
  cases role <;> exact Iff.rfl

theorem canMove_look (q : Queue α) (role : Role) : (q.look role).CanMove role ↔ q.CanMove role := by
  rcases q.look_eq_or role with ⟨same, _⟩ | fresh
  · rw [same]
  · rw [fresh]
    exact q.canMove_refresh role

theorem closed_look (q : Queue α) (role other : Role) :
    (q.look role).closed other = q.closed other := by
  rcases q.look_eq_or role with ⟨same, _⟩ | fresh
  · rw [same]
  · rw [fresh]
    cases role <;> cases other <;> rfl

theorem signalled_look (q : Queue α) (role other : Role) :
    (q.look role).signalled other = q.signalled other := by
  rcases q.look_eq_or role with ⟨same, _⟩ | fresh
  · rw [same]
  · rw [fresh]
    cases role <;> cases other <;> rfl

namespace Carries

theorem hush (carries : q.Carries items) (role : Role) : (q.hush role).Carries items := by
  cases role <;> exact { carries with }

theorem watch (carries : q.Carries items) (threshold : Index) (role : Role) :
    (q.watch threshold role).Carries items := by
  cases role <;> exact { carries with }

theorem quota_le (carries : q.Carries items) : q.quota ≤ q.capacity.toNat := by
  have positive := carries.capacity_pos
  unfold quota
  omega

/-- A producer that has just found the queue full asks for the last item of the quota. -/
theorem threshold_producer (carries : q.Carries items) (fresh : q.refresh .producer = q)
    (full : ¬ q.CanMove .producer) :
    q.consumer.cursor.position.span (q.threshold .producer) + 1 = q.quota := by
  have seen : q.producer.cursor.seen = q.consumer.cursor.position := by
    rw [← carries.consumer_posted, ← fresh]
    rfl
  have most := carries.length_le
  have bound := carries.capacity_lt
  have length := carries.length_eq
  have whole : q.consumer.cursor.position.span q.producer.cursor.position = q.capacity.toNat := by
    unfold CanMove at full
    omega
  have quarter : (q.consumer.cursor.position.gap q.producer.cursor.position / 4).toNat =
      q.capacity.toNat / 4 := by
    rw [UInt64.toNat_div, ← whole]
    rfl
  unfold Queue.threshold quota
  rw [seen]
  dsimp only
  split
  · rename_i none
    rw [none, UInt64.toNat_zero] at quarter
    rw [Index.span_self]
    omega
  · rename_i some
    have positive : 0 < q.capacity.toNat / 4 := by
      refine Nat.pos_of_ne_zero fun none => some (UInt64.toNat_inj.mp ?_)
      rw [quarter, none, UInt64.toNat_zero]
    have less : (q.consumer.cursor.position.gap q.producer.cursor.position / 4 - 1).toNat =
        q.capacity.toNat / 4 - 1 := by
      rw [UInt64.toNat_sub_of_le _ _ (UInt64.le_iff_toNat_le.mpr (by rw [quarter]; exact positive)),
        quarter]
      rfl
    rw [Index.span_add_self, less]
    omega

end Carries

end Queue

/-- What a stretch of waiting preserves, and what holds where it stops. -/
structure Stretch.Keeps (role : Role) (q : Queue α) (items : List α) (s : Stretch α) : Prop where
  carries : s.queue.Carries items
  regards : Queue.Regards role q s.queue
  closed : s.queue.closed role = q.closed role
  ready : s.wait = .ready → s.queue.ready role = true
  gone : s.wait = .gone → s.queue.closed role.peer = true ∧ ¬ s.queue.CanMove role
  pausing (pause : Pause) : s.wait = .pausing pause →
    s.queue.ready role = false ∧
      (s.queue.closed role.peer = true → s.queue.signalled role = true) ∧
      (pause = .park → s.queue.Watches role)

namespace Stretch.Keeps

theorem of_regards {s : Stretch α} (first : Queue.Regards role q next)
    (closed : next.closed role = q.closed role) (keeps : s.Keeps role next items) :
    s.Keeps role q items :=
  { keeps with
    regards := first.trans keeps.regards
    closed := keeps.closed.trans closed }

/-- More to log changes nothing. -/
theorem log {s : Stretch α} (keeps : s.Keeps role q items) (events : List Event) :
    { s with events }.Keeps role q items := { keeps with }

theorem of_ready (carries : q.Carries items) (ready : q.ready role = true) :
    Stretch.Keeps role q items ⟨q, [], .ready⟩ where
  carries := carries
  regards := .refl role q
  closed := rfl
  ready := fun _ => ready
  gone := fun wait => nomatch wait
  pausing := fun _ wait => nomatch wait

/-- A pause short of the park. -/
theorem of_pausing (carries : q.Carries items) (short : q.ready role = false) {pause : Pause}
    (awake : pause ≠ .park) (told : q.closed role.peer = true → q.signalled role = true) :
    Stretch.Keeps role q items ⟨q, [], .pausing pause⟩ where
  carries := carries
  regards := .refl role q
  closed := rfl
  ready := fun wait => nomatch wait
  gone := fun wait => nomatch wait
  pausing := by
    rintro _ ⟨⟩
    exact ⟨short, told, fun parks => absurd parks awake⟩

end Stretch.Keeps

namespace Queue

theorem enrol_producer_queue (q : Queue α) : (q.enrol .producer).queue =
    ((q.watch (q.threshold .producer) .producer).flush).refresh .producer := by
  unfold enrol
  dsimp only
  split <;> rfl

theorem enrol_consumer_queue (q : Queue α) : (q.enrol .consumer).queue =
    (q.watch (q.threshold .consumer) .consumer).refresh .consumer := by
  unfold enrol
  dsimp only
  split <;> rfl

variable (carries : q.Carries items)

include carries

theorem lastLook_keeps (left : q.closed role.peer = true) (stuck : ¬ q.CanMove role) :
    (q.lastLook role).Keeps role q items := by
  cases role with
  | producer =>
    exact
      { carries := carries
        regards := .refl _ q
        closed := rfl
        ready := fun wait => nomatch wait
        gone := fun _ => ⟨left, stuck⟩
        pausing := fun _ wait => nomatch wait }
  | consumer =>
    have short : (q.refresh .consumer).ready .consumer ≠ true :=
      fun ready => stuck ((carries.refresh_ready .consumer).mp ready)
    unfold lastLook
    dsimp only
    rw [if_neg short]
    exact
      { carries := carries.refresh .consumer
        regards := q.regards_refresh .consumer
        closed := rfl
        ready := fun wait => nomatch wait
        gone := fun _ => ⟨left, stuck⟩
        pausing := fun _ wait => nomatch wait }

theorem beginRound_keeps (short : q.ready role = false) (stuck : ¬ q.CanMove role) :
    (q.beginRound role).Keeps role q items := by
  unfold beginRound
  split
  · rename_i left
    exact lastLook_keeps carries left stuck
  · rename_i alive
    refine .of_pausing carries short ?_ fun left => absurd left alive
    unfold firstPause
    split <;> exact fun parks => nomatch parks

/-- The producer asks for an item that is on the way from the consumer to itself. -/
theorem enrol_producer_watches (fresh : q.refresh .producer = q) (stuck : ¬ q.CanMove .producer) :
    (q.enrol .producer).queue.Watches .producer := by
  have asked := carries.watch (q.threshold .producer) .producer
  have threshold := carries.threshold_producer fresh stuck
  have quota := carries.quota_le
  have most := carries.length_le
  have length := carries.length_eq
  have whole : q.consumer.cursor.position.span q.producer.cursor.position = q.capacity.toNat := by
    unfold CanMove at stuck
    omega
  have between := Index.span_from (i := q.consumer.cursor.position)
    (j := q.threshold .producer) (k := q.producer.cursor.position) (by omega)
  rw [enrol_producer_queue, flush_eq asked.producer_posted]
  refine ⟨rfl, ?_, ?_⟩
  · show q.consumer.cursor.position.span (q.threshold .producer) +
        (q.threshold .producer).span q.producer.cursor.position =
      q.consumer.cursor.position.span q.producer.cursor.position
    omega
  · show (q.threshold .producer).span q.producer.cursor.position + q.quota = q.capacity.toNat + 1
    omega

theorem enrol_producer_keeps (fresh : q.refresh .producer = q) (stuck : ¬ q.CanMove .producer)
    (told : q.closed .consumer = true → q.signalled .producer = true) :
    (q.enrol .producer).Keeps .producer q items ∧ (q.enrol .producer).wait = .pausing .park := by
  have asked := carries.watch (q.threshold .producer) .producer
  have shown := asked.flush
  have full : ¬ ((q.watch (q.threshold .producer) .producer).flush).CanMove .producer := by
    rw [shown.canMove_producer_iff]
    exact fun room => stuck (carries.canMove_producer_iff.mpr room)
  have short : ((q.watch (q.threshold .producer) .producer).flush.refresh .producer).ready
      .producer ≠ true := fun ready => full ((shown.refresh_ready .producer).mp ready)
  have watches := enrol_producer_watches carries fresh stuck
  have regards := ((q.regards_watch (q.threshold .producer) .producer).trans
    asked.regards_flush).trans (Queue.regards_refresh _ .producer)
  rw [enrol_producer_queue] at watches
  unfold enrol
  dsimp only
  rw [if_neg short]
  refine ⟨?_, rfl⟩
  refine
    { carries := shown.refresh .producer
      regards := regards
      closed := ?_
      ready := fun wait => nomatch wait
      gone := fun wait => nomatch wait
      pausing := ?_ }
  · rw [flush_eq asked.producer_posted]
    rfl
  · rintro _ ⟨⟩
    refine ⟨Bool.eq_false_iff.mpr short, ?_, fun _ => watches⟩
    rw [flush_eq asked.producer_posted]
    exact told

theorem enrol_consumer_keeps (stuck : ¬ q.CanMove .consumer)
    (told : q.closed .producer = true → q.signalled .consumer = true) :
    (q.enrol .consumer).Keeps .consumer q items ∧ (q.enrol .consumer).wait = .pausing .park := by
  have asked := carries.watch (q.threshold .consumer) .consumer
  have short : ((q.watch (q.threshold .consumer) .consumer).refresh .consumer).ready
      .consumer ≠ true := fun ready => stuck ((asked.refresh_ready .consumer).mp ready)
  have nothing : q.shown = 0 := by
    unfold CanMove at stuck
    omega
  unfold enrol
  dsimp only
  rw [if_neg short]
  refine ⟨?_, rfl⟩
  exact
    { carries := asked.refresh .consumer
      regards := (q.regards_watch _ .consumer).trans (Queue.regards_refresh _ .consumer)
      closed := rfl
      ready := fun wait => nomatch wait
      gone := fun wait => nomatch wait
      pausing := by
        rintro _ ⟨⟩
        exact ⟨Bool.eq_false_iff.mpr short, told,
          fun _ => ⟨rfl, (Index.eq_of_span_eq_zero nothing).symm⟩⟩ }

/-- A call that is still stuck after its sleep parks. -/
theorem enrol_keeps (fresh : q.refresh role = q) (stuck : ¬ q.CanMove role)
    (told : q.closed role.peer = true → q.signalled role = true) :
    (q.enrol role).Keeps role q items ∧ (q.enrol role).wait = .pausing .park := by
  cases role with
  | producer => exact enrol_producer_keeps carries fresh stuck told
  | consumer => exact enrol_consumer_keeps carries stuck told

theorem looked_ready_keeps (ready : (q.look role).ready role = true) :
    Stretch.Keeps role q items ⟨q.look role, [], .ready⟩ :=
  (Stretch.Keeps.of_ready (carries.look role) ready).of_regards (q.regards_look role)
    (q.closed_look role role)

theorem await_keeps (role : Role) : (q.await role).Keeps role q items := by
  unfold await
  dsimp only
  split
  · rename_i ready
    exact looked_ready_keeps carries ready
  · rename_i short
    have stuck : ¬ (q.look role).CanMove role := fun moves =>
      short ((carries.look_ready role).mpr ((q.canMove_look role).mp moves))
    exact (beginRound_keeps (carries.look role) (Bool.eq_false_iff.mpr short) stuck).of_regards
      (q.regards_look role) (q.closed_look role role)

/-- A stretch that begins short of the park preserves the same as one that begins there. -/
theorem resume_keeps (told : q.closed role.peer = true → q.signalled role = true) (pause : Pause) :
    (q.resume role pause).Keeps role q items := by
  have toldLooked : (q.look role).closed role.peer = true → (q.look role).signalled role = true := by
    rwa [q.closed_look, q.signalled_look]
  have stuckOf (short : ¬ (q.look role).ready role = true) : ¬ (q.look role).CanMove role :=
    fun moves => short ((carries.look_ready role).mpr ((q.canMove_look role).mp moves))
  cases pause with
  | snooze round =>
    unfold resume
    dsimp only
    split
    · rename_i ready
      exact looked_ready_keeps carries ready
    · rename_i short
      refine (Stretch.Keeps.of_pausing (carries.look role) (Bool.eq_false_iff.mpr short) ?_
        toldLooked).of_regards (q.regards_look role) (q.closed_look role role)
      split <;> exact fun parks => nomatch parks
  | sleep =>
    unfold resume
    dsimp only
    split
    · rename_i ready
      exact looked_ready_keeps carries ready
    · rename_i short
      have fresh : (q.look role).refresh role = q.look role := by
        rw [q.look_eq_refresh (Bool.eq_false_iff.mpr short), q.refresh_refresh]
      exact (enrol_keeps (carries.look role) fresh (stuckOf short) toldLooked).1.of_regards
        (q.regards_look role) (q.closed_look role role)
  | park =>
    have hushed := carries.hush role
    have closedHush : (q.hush role).closed role = q.closed role := by cases role <;> rfl
    have awaited := (await_keeps hushed role).of_regards (q.regards_hush role) closedHush
    unfold resume
    unfold await at awaited
    dsimp only at awaited ⊢
    split
    · rename_i ready
      rw [if_pos ready] at awaited
      exact awaited.log _
    · rename_i short
      rw [if_neg short] at awaited
      exact awaited.log _

end Queue

end SpscQueue
