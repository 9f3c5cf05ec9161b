import SpscQueue.Proofs.Turnover
import SpscQueue.Queue.Call

namespace SpscQueue.Queue

universe u

variable {α : Type u} {q next last : Queue α} {item : α} {items : List α} {role : Role}

/-- The number of items that have to leave a full queue before a parked producer is woken. -/
def quota (q : Queue α) : Nat := max 1 (q.capacity.toNat / 4)

/-- A party has asked to be woken for a step that its peer has not taken yet. The consumer has seen
all items and asks for the next one. The producer has shown all items and asks for the last of the
quota. -/
def Watches (q : Queue α) : Role → Prop
  | .producer =>
    q.producer.cursor.published = q.producer.cursor.position ∧
      q.consumer.cursor.position.span q.consumer.post.threshold +
          q.consumer.post.threshold.span q.producer.cursor.position =
        q.consumer.cursor.position.span q.producer.cursor.position ∧
      q.consumer.post.threshold.span q.producer.cursor.position + q.quota = q.capacity.toNat + 1
  | .consumer =>
    q.producer.post.threshold = q.consumer.cursor.position ∧
      q.producer.cursor.published = q.consumer.cursor.position

/-- What a party leaves to its peer whatever it does: it never takes a signal back, it signals when it
takes the step that its peer has asked for and when it leaves, and it does not touch what its peer
can move on by. -/
structure Regards (role : Role) (q next : Queue α) : Prop where
  signalled : q.signalled role.peer = true → next.signalled role.peer = true
  watches : q.Watches role.peer → next.signalled role.peer = true ∨ next.Watches role.peer
  ready : next.ready role.peer = q.ready role.peer
  closed : next.closed role.peer = q.closed role.peer
  leaves : next.closed role = true → q.closed role = true ∨ next.signalled role.peer = true

theorem Regards.refl (role : Role) (q : Queue α) : Regards role q q :=
  ⟨id, Or.inr, rfl, rfl, Or.inl⟩

theorem Regards.trans (first : Regards role q next) (second : Regards role next last) :
    Regards role q last where
  signalled raised := second.signalled (first.signalled raised)
  watches asked := by
    rcases first.watches asked with raised | still
    · exact Or.inl (second.signalled raised)
    · exact second.watches still
  ready := second.ready.trans first.ready
  closed := second.closed.trans first.closed
  leaves gone := by
    rcases second.leaves gone with before | raised
    · exact (first.leaves before).imp_right second.signalled
    · exact Or.inr raised

theorem regards_refresh (q : Queue α) (role : Role) : Regards role q (q.refresh role) := by
  cases role <;> exact ⟨id, Or.inr, rfl, rfl, Or.inl⟩

theorem regards_look (q : Queue α) (role : Role) : Regards role q (q.look role) := by
  rcases q.look_eq_or role with ⟨same, _⟩ | fresh
  · rw [same]
    exact .refl role q
  · rw [fresh]
    exact q.regards_refresh role

theorem regards_watch (q : Queue α) (threshold : Index) (role : Role) :
    Regards role q (q.watch threshold role) := by
  cases role <;> exact ⟨id, Or.inr, rfl, rfl, Or.inl⟩

theorem regards_hush (q : Queue α) (role : Role) : Regards role q (q.hush role) := by
  cases role <;> exact ⟨id, Or.inr, rfl, rfl, Or.inl⟩

theorem regards_written (q : Queue α) (item : α) : Regards .producer q (q.written item) :=
  ⟨id, Or.inr, rfl, rfl, Or.inl⟩

/-- A consumer that watches asks for the very next item to be shown. -/
theorem Carries.owesWakeup_of_watches (carries : q.Carries items) (asked : q.Watches .consumer)
    (deferred : q.producer.cursor.published ≠ q.producer.cursor.position) :
    q.producer.owesWakeup = true := by
  obtain ⟨threshold, nothing⟩ := asked
  have shown := carries.shown_le
  have small := carries.length_le
  have bound := carries.capacity_lt
  have length := carries.length_eq
  rw [← nothing] at length
  have positive := Index.span_pos_of_ne deferred
  rw [Side.owesWakeup, Index.passes_iff_span (by omega), threshold, ← nothing, Index.span_self]
  exact positive

theorem Carries.regards_flush (carries : q.Carries items) : Regards .producer q q.flush := by
  by_cases published : q.producer.cursor.published = q.producer.cursor.position
  · have same : q.flush = q := by
      show q.publish .producer = q
      simp only [Queue.publish, Side.publish_of_published published]
    rw [same]
    exact .refl .producer q
  · rw [flush_eq carries.producer_posted]
    refine ⟨?_, ?_, rfl, rfl, Or.inl⟩
    · intro raised
      show (if q.producer.owesWakeup then q.consumer.signal.raise else q.consumer.signal).pending = true
      split
      · rfl
      · exact raised
    · intro asked
      refine Or.inl ?_
      show (if q.producer.owesWakeup then q.consumer.signal.raise else q.consumer.signal).pending = true
      rw [if_pos (carries.owesWakeup_of_watches asked published)]
      rfl

theorem Carries.regards_put (carries : q.Carries items) (space : q.ready .producer = true)
    (item : α) (force : Bool) : Regards .producer q (q.put item force) := by
  unfold Queue.put
  split
  · exact (q.regards_written item).trans (carries.written space item).regards_flush
  · exact q.regards_written item

/-- A consumer that moves on either passes the step the producer has asked for, or the producer still
waits for the same one. -/
theorem Carries.regards_taken (carries : q.Carries items) (ring : Ring α) {steps : UInt64}
    (within : steps.toNat ≤ q.shown) : Regards .consumer q (q.taken ring steps) := by
  have small := carries.length_le
  have bound := carries.capacity_lt
  have shown := carries.shown_le
  have length := carries.length_eq
  rw [taken_eq carries.consumer_posted_published, carries.consumer_published]
  have passed : Index.passes q.consumer.cursor.position (q.consumer.cursor.position + steps)
        q.consumer.post.threshold = true ↔
      q.consumer.cursor.position.span q.consumer.post.threshold < steps.toNat := by
    rw [Index.passes_iff_span (by rw [Index.span_add_self]; omega), Index.span_add_self]
  refine ⟨?_, ?_, rfl, rfl, Or.inl⟩
  · intro raised
    show (if _ then q.producer.signal.raise else q.producer.signal).pending = true
    split
    · rfl
    · exact raised
  · rintro ⟨published, between, ask⟩
    by_cases crossed : Index.passes q.consumer.cursor.position
        (q.consumer.cursor.position + steps) q.consumer.post.threshold = true
    · refine Or.inl ?_
      show (if _ then q.producer.signal.raise else q.producer.signal).pending = true
      rw [if_pos crossed]
      rfl
    · refine Or.inr ⟨published, ?_, ask⟩
      rw [passed] at crossed
      have toThreshold : (q.consumer.cursor.position + steps).span q.consumer.post.threshold =
          q.consumer.cursor.position.span q.consumer.post.threshold - steps.toNat :=
        Index.span_from_add (by omega)
      have toPosition : (q.consumer.cursor.position + steps).span q.producer.cursor.position =
          q.consumer.cursor.position.span q.producer.cursor.position - steps.toNat :=
        Index.span_from_add (by omega)
      show (q.consumer.cursor.position + steps).span q.consumer.post.threshold +
          q.consumer.post.threshold.span q.producer.cursor.position =
        (q.consumer.cursor.position + steps).span q.producer.cursor.position
      omega

theorem Carries.regards_close (carries : q.Carries items) (role : Role) :
    Regards role q (q.close role).1 := by
  cases role with
  | producer =>
    have shown := carries.regards_flush
    exact ⟨fun _ => rfl, fun _ => Or.inl rfl, shown.ready, shown.closed, fun _ => Or.inr rfl⟩
  | consumer => exact ⟨fun _ => rfl, fun _ => Or.inl rfl, rfl, rfl, fun _ => Or.inr rfl⟩

end SpscQueue.Queue
