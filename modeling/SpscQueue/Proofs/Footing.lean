import SpscQueue.Proofs.Alignment

namespace SpscQueue

universe u

variable {α : Type u} {role : Role} {q : Queue α}

/-- Whether a party that has shown its steps goes on to wait. -/
def Goal.rechecks : Goal α role → Bool
  | recheck _ => true
  | _ => false

namespace Queue

/-- Whether the peer of a party has passed the step that the party asks for. -/
def overdue (q : Queue α) (role : Role) : Bool :=
  (q.side role.peer).post.threshold.behind (q.side role.peer).post.index

/-- A party has shown all its steps. -/
def Shown (q : Queue α) (role : Role) : Prop := (q.side role).cursor.published = q.position role

/-- The consumer shows each of its moves before it does anything else. -/
def Settled (q : Queue α) : Role → Prop
  | .producer => True
  | .consumer => q.Shown .consumer

/-- What a party asks for that cannot move on: the producer for one of the items that it saw in a full
queue, the consumer for the very next item. -/
def Asks (q : Queue α) : Role → Prop
  | .producer => q.ready .producer = false ∧
    q.ahead q.consumer.post.threshold < q.ahead q.producer.cursor.position
  | .consumer => q.producer.post.threshold = q.consumer.cursor.position

/-- What a party relies on at its place. It only takes its own books and what it asks for. -/
def Suits (q : Queue α) {role : Role} : Place α role → Prop
  | .move _ => q.ready role = true ∧ q.Settled role
  | .enrol _ => q.ready role = false ∧ q.Settled role
  | .recheck _ => q.Asks role ∧ q.Shown role
  | .parked _ => q.Asks role ∧ q.Shown role
  | .announce goal => goal.rechecks = true → q.Asks role
  | .heed _ goal => (goal.rechecks = true → q.Asks role) ∧ q.Shown role
  | .tally goal => (goal.rechecks = true → q.Asks role) ∧ q.Shown role
  | .count _ goal => (goal.rechecks = true → q.Asks role) ∧ q.Shown role
  | .rouse goal => (goal.rechecks = true → q.Asks role) ∧ q.Shown role
  | _ => q.Settled role

theorem Shown.settled (shown : q.Shown role) : q.Settled role := by
  cases role with
  | producer => trivial
  | consumer => exact shown

theorem Shown.refresh (shown : q.Shown role) (other : Role) : (q.refresh other).Shown role := by
  cases role <;> cases other <;> exact shown

theorem Settled.refresh (settled : q.Settled role) : (q.refresh role).Settled role := by
  cases role with
  | producer => trivial
  | consumer => exact Shown.refresh settled .consumer

theorem Settled.look (settled : q.Settled role) : (q.look role).Settled role := by
  rcases q.look_eq_or role with ⟨same, _⟩ | fresh
  · rwa [same]
  · rw [fresh]
    exact settled.refresh

theorem Settled.hush (settled : q.Settled role) : (q.hush role).Settled role := by
  cases role with
  | producer => trivial
  | consumer => exact settled

namespace Ordered

variable (ordered : q.Ordered)

include ordered

theorem overdue_producer_iff (near : q.ahead q.consumer.post.threshold < q.capacity.toNat) :
    q.overdue .producer = true ↔
      q.ahead q.consumer.post.threshold < q.ahead q.consumer.cursor.published := by
  have small := ordered.capacity_le
  have first := ordered.consumer_published
  have second := ordered.consumer_position
  have third := ordered.consumer_seen
  have fourth := ordered.producer_published
  have room := ordered.room
  rw [← ordered.consumer_posted] at first ⊢
  exact Index.behind_iff_span (show q.ahead q.consumer.post.threshold < _ by omega)
    (show q.ahead q.consumer.post.index ≤ q.ahead q.consumer.post.threshold + _ by omega)

theorem overdue_consumer_iff (near : q.ahead q.producer.post.threshold ≤ q.ahead q.producer.cursor.published) :
    q.overdue .consumer = true ↔
      q.ahead q.producer.post.threshold < q.ahead q.producer.cursor.published := by
  have small := ordered.capacity_le
  have fourth := ordered.producer_published
  have room := ordered.room
  rw [← ordered.producer_posted] at near fourth ⊢
  exact Index.behind_iff_span
    (show q.ahead q.producer.post.threshold < q.ahead q.producer.post.index + _ by omega)
    (show q.ahead q.producer.post.index ≤ q.ahead q.producer.post.threshold + _ by omega)

end Ordered

/-- A producer that asked and is still short finds the consumer where it saw it before. -/
theorem Ordered.consumer_still (ordered : q.Ordered) (short : q.ready .producer = false)
    (still : (q.refresh .producer).ready .producer = false) :
    q.consumer.post.index = q.producer.cursor.seen := by
  have positive := ordered.capacity_pos
  have before := ordered.ahead_position_eq short
  have after : (q.refresh .producer).ahead q.producer.cursor.position = q.capacity.toNat :=
    (ordered.refresh .producer).ahead_position_eq still
  have first := ordered.consumer_published
  have second := ordered.consumer_position
  have third := ordered.consumer_seen
  have fourth := ordered.producer_published
  rw [ordered.ahead_refresh (i := q.producer.cursor.position) (by omega)] at after
  have none : q.ahead q.consumer.cursor.published = 0 := by omega
  rw [ordered.consumer_posted]
  exact (Index.eq_of_span_eq_zero none).symm

/-- A consumer that finds nothing has taken everything that is shown. -/
theorem producer_still (still : (q.refresh .consumer).ready .consumer = false) :
    q.producer.post.index = q.consumer.cursor.position := by
  have short := mt (Carries.ready_consumer_iff (q.refresh .consumer)).mpr (Bool.eq_false_iff.mp still)
  have none : q.consumer.cursor.position.span q.producer.post.index = 0 := Nat.eq_zero_of_not_pos short
  exact (Index.eq_of_span_eq_zero none).symm

/-- A party that checks once more, still cannot move on, and parks has not missed anything. -/
theorem Asks.recheck (asks : q.Asks role) (ordered : q.Ordered)
    (still : (q.refresh role).ready role = false) :
    (q.refresh role).Asks role ∧ (q.refresh role).overdue role = false := by
  cases role with
  | producer =>
    obtain ⟨short, watched⟩ := asks
    have same := ordered.consumer_still short still
    have fresh : (q.refresh .producer).ahead = q.ahead := by
      funext i
      exact congrArg (Index.span · i) same
    refine ⟨⟨still, fresh ▸ watched⟩, Bool.eq_false_iff.mpr fun due => ?_⟩
    have near := Nat.lt_of_lt_of_le watched ordered.room
    have passed := (ordered.overdue_producer_iff near).mp due
    have here : q.ahead q.consumer.cursor.published = 0 := by
      rw [← ordered.consumer_posted, same]
      exact Index.span_self _
    omega
  | consumer =>
    refine ⟨asks, Bool.eq_false_iff.mpr fun due => ?_⟩
    have self : q.producer.post.threshold.behind q.producer.post.index = true := due
    rw [producer_still still, show q.producer.post.threshold = q.consumer.cursor.position from asks,
      Index.behind_iff, Index.gap_self] at self
    exact absurd self (by decide)

end Queue

section

variable {place : Place α role} {goal : Goal α role} {aim : Aim α role} {stride : Stride α role}

open Queue (Asks Shown Settled Suits)

theorem Goal.reach_suits (asks : goal.rechecks = true → q.Asks role) (shown : q.Shown role) :
    (goal.reach q).queue = q ∧ q.Suits (goal.reach q).place := by
  cases goal with
  | rest => exact ⟨rfl, shown.settled⟩
  | recheck => exact ⟨rfl, asks rfl, shown⟩
  | leave => exact ⟨rfl, shown.settled⟩

theorem Aim.short_suits (settled : q.Settled role) (short : q.ready role = false) (check : Check)
    (aim : Aim α role) : (aim.short q check).queue = q ∧ q.Suits (aim.short q check).place := by
  cases aim with
  | tryPush => cases check <;> exact ⟨rfl, settled⟩
  | tryPop => cases check <;> exact ⟨rfl, settled⟩
  | call call =>
    cases check with
    | slept => exact ⟨rfl, short, settled⟩
    | _ => exact ⟨rfl, settled⟩

theorem Aim.present_suits (settled : q.Settled role) (aim : Aim α role) :
    (aim.present q).queue = q ∧ q.Suits (aim.present q).place := by
  cases aim <;> exact ⟨rfl, settled⟩

theorem Aim.absent_suits (settled : q.Settled role) (aim : Aim α role) :
    (aim.absent q).queue = q ∧ q.Suits (aim.absent q).place := by
  cases role <;> exact ⟨rfl, settled⟩

theorem Queue.store_suits (ordered : q.Ordered) (ready : q.ready .producer = true) (item : α)
    (force : Bool) (name : Admission α → Result α) :
    (q.store item force name).queue.Ordered ∧
      (q.store item force name).queue.Suits (q.store item force name).place := by
  unfold Queue.store
  split
  · exact ⟨ordered, trivial⟩
  · refine ⟨ordered.advance_producer _ ready, ?_⟩
    cases force with
    | true => exact fun goes => nomatch goes
    | false => exact trivial

theorem Queue.fetch_suits (ordered : q.Ordered) (ready : q.ready .consumer = true)
    (settled : q.Settled .consumer) (name : Except PopFailure α → Result α) :
    (q.fetch name).queue.Ordered ∧ (q.fetch name).queue.Suits (q.fetch name).place := by
  have known : (1 : UInt64).toNat ≤ q.known.toNat := (Carries.ready_consumer_iff q).mp ready
  unfold Queue.fetch
  split
  · exact ⟨ordered, settled⟩
  · exact ⟨ordered.advance_consumer _ known, fun goes => nomatch goes⟩

theorem Queue.fetchKnown_suits (ordered : q.Ordered) (settled : q.Settled .consumer) :
    q.fetchKnown.queue.Ordered ∧ q.fetchKnown.queue.Suits q.fetchKnown.place := by
  unfold Queue.fetchKnown
  split
  · exact ⟨ordered, settled⟩
  · exact ⟨ordered.advance_consumer _ (Nat.le_refl _), fun goes => nomatch goes⟩

theorem Aim.act_suits (ordered : q.Ordered) (ready : q.ready role = true) (settled : q.Settled role)
    (aim : Aim α role) : (aim.act q).queue.Ordered ∧ (aim.act q).queue.Suits (aim.act q).place := by
  cases aim with
  | tryPush item => exact q.store_suits ordered ready item true _
  | tryPop => exact q.fetch_suits ordered ready settled _
  | call call =>
    cases call with
    | push item force => exact q.store_suits ordered ready item force _
    | pop => exact q.fetch_suits ordered ready settled _
    | popBatch => exact q.fetchKnown_suits ordered settled

/-- What a party relies on still holds after its next access, at its next place. -/
theorem Place.stride_suits (ordered : q.Ordered) (suits : q.Suits place)
    (next : place.stride q = some stride) :
    stride.queue.Ordered ∧ stride.queue.Suits stride.place := by
  cases place with
  | rest => cases next
  | gone => cases next
  | glance call =>
    cases next
    exact ⟨ordered.refresh role, Settled.refresh suits⟩
  | look check aim =>
    cases next
    have settled := Settled.look suits
    split
    · rename_i ready
      exact ⟨ordered.look role, ready, settled⟩
    · rename_i short
      obtain ⟨same, after⟩ := aim.short_suits settled (Bool.eq_false_iff.mpr short) check
      rw [same]
      exact ⟨ordered.look role, after⟩
  | ask aim =>
    cases next
    split
    · obtain ⟨same, after⟩ := aim.absent_suits suits
      rw [same]
      exact ⟨ordered, after⟩
    · obtain ⟨same, after⟩ := aim.present_suits suits
      rw [same]
      exact ⟨ordered, after⟩
  | lastLook aim =>
    cases next
    have settled := Settled.refresh suits
    split
    · rename_i ready
      exact ⟨ordered.refresh role, ready, settled⟩
    · exact ⟨ordered.refresh role, settled⟩
  | enrol call =>
    cases next
    obtain ⟨short, settled⟩ := suits
    refine ⟨ordered.watch _ role, ?_⟩
    cases role with
    | producer => exact fun _ => ⟨short, ordered.threshold_producer short⟩
    | consumer => exact ⟨rfl, settled⟩
  | recheck call =>
    cases next
    obtain ⟨asks, shown⟩ := suits
    have later := shown.refresh role
    split
    · rename_i ready
      exact ⟨ordered.refresh role, ready, later.settled⟩
    · rename_i still
      exact ⟨ordered.refresh role, (asks.recheck ordered (Bool.eq_false_iff.mpr still)).1, later⟩
  | parked call =>
    rw [Place.stride] at next
    split at next
    · cases next
      exact ⟨ordered.hush role, suits.2.settled.hush⟩
    · cases next
  | move aim =>
    cases next
    exact aim.act_suits ordered suits.1 suits.2
  | peek result =>
    cases next
    refine ⟨ordered, ?_⟩
    dsimp only
    split
    · exact fun goes => nomatch goes
    · exact suits
  | announce goal =>
    cases next
    dsimp only
    split
    · rename_i shown
      obtain ⟨same, after⟩ := goal.reach_suits suits shown
      rw [same]
      exact ⟨ordered, after⟩
    · refine ⟨ordered.announce role, ?_⟩
      cases role with
      | producer => exact ⟨suits, rfl⟩
      | consumer => exact ⟨suits, rfl⟩
  | heed old goal =>
    cases next
    split
    · exact ⟨ordered, suits⟩
    · obtain ⟨same, after⟩ := goal.reach_suits suits.1 suits.2
      rw [same]
      exact ⟨ordered, after⟩
  | tally goal =>
    cases next
    exact ⟨ordered, suits⟩
  | count wakeups goal =>
    cases next
    refine ⟨ordered.withSide rfl rfl, ?_⟩
    cases role with
    | producer => exact suits
    | consumer => exact suits
  | rouse goal =>
    cases next
    have raised : (goal.rechecks = true → (q.raise role.peer).Asks role) ∧
        (q.raise role.peer).Shown role := by
      cases role <;> exact suits
    obtain ⟨same, after⟩ := goal.reach_suits raised.1 raised.2
    rw [same]
    exact ⟨ordered.raise role.peer, after⟩
  | shut =>
    cases next
    refine ⟨ordered.withSide rfl rfl, ?_⟩
    cases role with
    | producer => exact suits
    | consumer => exact suits
  | knock =>
    cases next
    refine ⟨ordered.raise role.peer, ?_⟩
    cases role with
    | producer => exact suits
    | consumer => exact suits

theorem Task.entry_settled (settled : q.Settled role) (task : Task α role) : q.Suits task.entry := by
  cases task with
  | flush => exact fun goes => nomatch goes
  | leave role =>
    cases role with
    | producer => exact fun goes => nomatch goes
    | consumer => exact settled
  | pursue aim =>
    cases aim with
    | tryPush => exact settled
    | tryPop => exact settled
    | call call => cases call <;> exact settled

end

end SpscQueue
