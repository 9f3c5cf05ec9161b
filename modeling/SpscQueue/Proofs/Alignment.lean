import SpscQueue.Proofs.Access
import SpscQueue.Proofs.Carrying

namespace SpscQueue

universe u

variable {α : Type u} {role : Role}

/-- Seen from a common point, what comes first is nearer, as long as the two are less than half the circle
apart. The first one may lie behind by just that much. -/
theorem Index.behind_iff_span {base i j : Index}
    (ahead : base.span i < base.span j + 0x8000000000000000)
    (back : base.span j ≤ base.span i + 0x8000000000000000) :
    i.behind j = true ↔ base.span i < base.span j := by
  rw [behind_iff]
  show 0x8000000000000000 ≤ j.span i ↔ _
  simp only [span_eq] at ahead back ⊢
  have := base.toNat_lt
  have := i.toNat_lt
  have := j.toNat_lt
  omega

namespace Queue

variable {q p : Queue α}

/-- How far an index lies ahead of where the producer last saw the consumer. -/
def ahead (q : Queue α) (i : Index) : Nat := q.producer.cursor.seen.span i

/-- The indices of the parties lie in order, and within the capacity, also in the middle of a call.
What a party shows and what it has seen is never newer than the truth. -/
structure Ordered (q : Queue α) : Prop where
  capacity_pos : 0 < q.capacity.toNat
  capacity_le : q.capacity.toNat ≤ 0x8000000000000000
  producer_posted : q.producer.post.index = q.producer.cursor.published
  consumer_posted : q.consumer.post.index = q.consumer.cursor.published
  consumer_published : q.ahead q.consumer.cursor.published ≤ q.ahead q.consumer.cursor.position
  consumer_position : q.ahead q.consumer.cursor.position ≤ q.ahead q.consumer.cursor.seen
  consumer_seen : q.ahead q.consumer.cursor.seen ≤ q.ahead q.producer.cursor.published
  producer_published : q.ahead q.producer.cursor.published ≤ q.ahead q.producer.cursor.position
  room : q.ahead q.producer.cursor.position ≤ q.capacity.toNat

theorem ofSettings_ordered {settings : Settings} (opened : ofSettings settings = .ok q) :
    q.Ordered := by
  have carries := ofSettings_carries opened
  have start (role : Role) : (q.side role).cursor = .ofStart settings.startIndex := by
    rw [ofSettings_side opened]
    rfl
  have producer : q.producer.cursor = .ofStart settings.startIndex := start .producer
  have consumer : q.consumer.cursor = .ofStart settings.startIndex := start .consumer
  have none : q.ahead settings.startIndex = 0 := by
    unfold ahead
    rw [producer]
    exact Index.span_self _
  refine ⟨carries.capacity_pos, carries.capacity_lt, carries.producer_posted,
    carries.consumer_posted.trans carries.consumer_published.symm, ?_, ?_, ?_, ?_, ?_⟩
  all_goals simp only [producer, consumer, Cursor.ofStart, none, Nat.zero_le]

namespace Ordered

/-- Only the places of the parties, their own and those seen and shown, count. -/
theorem of_books (ordered : q.Ordered) (capacity : p.capacity = q.capacity)
    (cursor : ∀ role, (p.side role).cursor = (q.side role).cursor)
    (index : ∀ role, (p.side role).post.index = (q.side role).post.index) : p.Ordered := by
  have producer : p.producer.cursor = q.producer.cursor := cursor .producer
  have consumer : p.consumer.cursor = q.consumer.cursor := cursor .consumer
  have producerIndex : p.producer.post.index = q.producer.post.index := index .producer
  have consumerIndex : p.consumer.post.index = q.consumer.post.index := index .consumer
  obtain ⟨positive, small, first, second, third, fourth, fifth, sixth, seventh⟩ := ordered
  unfold ahead at third fourth fifth sixth seventh
  constructor
  · rwa [capacity]
  · rwa [capacity]
  · rwa [producerIndex, producer]
  · rwa [consumerIndex, consumer]
  all_goals unfold ahead
  · rwa [producer, consumer]
  · rwa [producer, consumer]
  · rwa [producer, consumer]
  · rwa [producer]
  · rwa [producer, capacity]

variable (ordered : q.Ordered)

include ordered

theorem posted (role : Role) : (q.side role).post.index = (q.side role).cursor.published := by
  cases role with
  | producer => exact ordered.producer_posted
  | consumer => exact ordered.consumer_posted

/-- Seen from where the consumer is now everything is nearer by the same way. -/
theorem ahead_refresh {i : Index} (onward : q.ahead q.consumer.cursor.published ≤ q.ahead i) :
    (q.refresh .producer).ahead i = q.ahead i - q.ahead q.consumer.cursor.published := by
  show q.consumer.post.index.span i = _
  rw [ordered.consumer_posted]
  exact Index.span_from onward

theorem refresh (role : Role) : (q.refresh role).Ordered := by
  have first := ordered.consumer_published
  have second := ordered.consumer_position
  have third := ordered.consumer_seen
  have fourth := ordered.producer_published
  have room := ordered.room
  cases role with
  | producer =>
    have toPublished := ordered.ahead_refresh (Nat.le_refl _)
    have toPosition := ordered.ahead_refresh first
    have toSeen := ordered.ahead_refresh (Nat.le_trans first second)
    have toShown := ordered.ahead_refresh (i := q.producer.cursor.published) (by omega)
    have toEnd := ordered.ahead_refresh (i := q.producer.cursor.position) (by omega)
    exact
      { ordered with
        consumer_published := by
          show (q.refresh .producer).ahead q.consumer.cursor.published ≤
            (q.refresh .producer).ahead q.consumer.cursor.position
          omega
        consumer_position := by
          show (q.refresh .producer).ahead q.consumer.cursor.position ≤
            (q.refresh .producer).ahead q.consumer.cursor.seen
          omega
        consumer_seen := by
          show (q.refresh .producer).ahead q.consumer.cursor.seen ≤
            (q.refresh .producer).ahead q.producer.cursor.published
          omega
        producer_published := by
          show (q.refresh .producer).ahead q.producer.cursor.published ≤
            (q.refresh .producer).ahead q.producer.cursor.position
          omega
        room := by
          show (q.refresh .producer).ahead q.producer.cursor.position ≤ q.capacity.toNat
          omega }
  | consumer =>
    have seen : (q.refresh .consumer).consumer.cursor.seen = q.producer.cursor.published :=
      ordered.producer_posted
    exact
      { ordered with
        consumer_position := by
          rw [seen]
          exact Nat.le_trans second third
        consumer_seen := by
          rw [seen]
          exact Nat.le_refl _ }

theorem look (role : Role) : (q.look role).Ordered := by
  rcases q.look_eq_or role with ⟨same, _⟩ | fresh
  · rwa [same]
  · rw [fresh]
    exact ordered.refresh role

theorem watch (threshold : Index) (role : Role) : (q.watch threshold role).Ordered := by
  refine ordered.of_books ?_ ?_ ?_
  · cases role <;> rfl
  · intro who
    cases role <;> cases who <;> rfl
  · intro who
    cases role <;> cases who <;> rfl

theorem hush (role : Role) : (q.hush role).Ordered := by
  refine ordered.of_books ?_ ?_ ?_
  · cases role <;> rfl
  · intro who
    cases role <;> cases who <;> rfl
  · intro who
    cases role <;> cases who <;> rfl

theorem withSide {side : Side} (cursor : side.cursor = (q.side role).cursor)
    (index : side.post.index = (q.side role).post.index) : (q.withSide role side).Ordered := by
  refine ordered.of_books ?_ ?_ ?_
  · cases role <;> rfl
  · intro who
    cases role <;> cases who <;> first | rfl | exact cursor
  · intro who
    cases role <;> cases who <;> first | rfl | exact index

theorem raise (role : Role) : (q.raise role).Ordered := ordered.withSide rfl rfl

/-- A party shows all its steps. -/
theorem announce (role : Role) :
    (q.withSide role
      { q.side role with
        cursor := { (q.side role).cursor with published := (q.side role).cursor.position }
        post := { (q.side role).post with index := (q.side role).cursor.position } }).Ordered := by
  cases role with
  | producer =>
    exact
      { ordered with
        producer_posted := rfl
        consumer_seen := Nat.le_trans ordered.consumer_seen ordered.producer_published
        producer_published := Nat.le_refl _ }
  | consumer =>
    exact
      { ordered with
        consumer_posted := rfl
        consumer_published := Nat.le_refl _ }

theorem ready_producer_iff :
    q.ready .producer = true ↔ q.ahead q.producer.cursor.position < q.capacity.toNat := by
  have positive := ordered.capacity_pos
  have one : (q.capacity - 1).toNat = q.capacity.toNat - 1 :=
    UInt64.toNat_sub_of_le _ _ (UInt64.le_iff_toNat_le.mpr positive)
  simp only [ready, decide_eq_true_eq, UInt64.le_iff_toNat_le, one, ahead, Index.span]
  omega

/-- The producer fills one place. -/
theorem advance_producer (ring : Ring α) (ready : q.ready .producer = true) :
    ({ q with ring, producer.cursor := q.producer.cursor.advance 1 } : Queue α).Ordered := by
  have space := ordered.ready_producer_iff.mp ready
  have small := ordered.capacity_le
  have before := ordered.producer_published
  have one : (1 : UInt64).toNat = 1 := rfl
  have further : q.ahead (q.producer.cursor.position + 1) = q.ahead q.producer.cursor.position + 1 :=
    Index.span_add (show q.ahead q.producer.cursor.position + 1 < _ by omega)
  exact
    { ordered with
      producer_published := by
        show q.ahead q.producer.cursor.published ≤ q.ahead (q.producer.cursor.position + 1)
        omega
      room := by
        show q.ahead (q.producer.cursor.position + 1) ≤ q.capacity.toNat
        omega }

/-- The consumer empties places that it knows to be filled. -/
theorem advance_consumer (ring : Ring α) {steps : UInt64} (known : steps.toNat ≤ q.known.toNat) :
    ({ q with ring, consumer.cursor := q.consumer.cursor.advance steps } : Queue α).Ordered := by
  have small := ordered.capacity_le
  have first := ordered.consumer_published
  have second := ordered.consumer_position
  have third := ordered.consumer_seen
  have fourth := ordered.producer_published
  have room := ordered.room
  have away : q.known.toNat = q.ahead q.consumer.cursor.seen - q.ahead q.consumer.cursor.position :=
    Index.span_from second
  have further : q.ahead (q.consumer.cursor.position + steps) =
      q.ahead q.consumer.cursor.position + steps.toNat :=
    Index.span_add (show q.ahead q.consumer.cursor.position + steps.toNat < _ by omega)
  exact
    { ordered with
      consumer_published := by
        show q.ahead q.consumer.cursor.published ≤ q.ahead (q.consumer.cursor.position + steps)
        omega
      consumer_position := by
        show q.ahead (q.consumer.cursor.position + steps) ≤ q.ahead q.consumer.cursor.seen
        omega }

theorem ahead_position_eq (short : q.ready .producer = false) :
    q.ahead q.producer.cursor.position = q.capacity.toNat := by
  have room := ordered.room
  have full := mt ordered.ready_producer_iff.mpr (Bool.eq_false_iff.mp short)
  omega

/-- A producer that is short of room asks for one of the items that it last saw in the queue. -/
theorem threshold_producer (short : q.ready .producer = false) :
    q.ahead (q.threshold .producer) < q.ahead q.producer.cursor.position := by
  have positive := ordered.capacity_pos
  have full := ordered.ahead_position_eq short
  have used : (q.producer.cursor.seen.gap q.producer.cursor.position).toNat = q.capacity.toNat := full
  unfold threshold
  dsimp only
  split
  · show q.producer.cursor.seen.span q.producer.cursor.seen < _
    rw [Index.span_self]
    omega
  · rename_i many
    have least : 1 ≤ (q.producer.cursor.seen.gap q.producer.cursor.position / 4).toNat :=
      Nat.pos_of_ne_zero fun zero => many (UInt64.toNat_inj.mp zero)
    have part : (q.producer.cursor.seen.gap q.producer.cursor.position / 4).toNat =
        q.capacity.toNat / 4 := by
      rw [UInt64.toNat_div, used]
      rfl
    have less := UInt64.toNat_sub_of_le (q.producer.cursor.seen.gap q.producer.cursor.position / 4) 1
      (UInt64.le_iff_toNat_le.mpr least)
    have one : (1 : UInt64).toNat = 1 := rfl
    show q.producer.cursor.seen.span (q.producer.cursor.seen + _) < _
    rw [Index.span_add_self]
    omega

end Ordered

end Queue

end SpscQueue
