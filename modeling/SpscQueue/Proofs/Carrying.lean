import SpscQueue.Proofs.Frame
import SpscQueue.Proofs.Holding

namespace SpscQueue

universe u

variable {α : Type u}

theorem le_slots_of_slotOrder (capacity : Nat) : capacity ≤ 1 <<< slotOrder capacity := by
  rw [Nat.one_shiftLeft]
  unfold slotOrder
  split
  · omega
  · have above := Nat.lt_log2_self (n := capacity - 1)
    omega

theorem slotOrder_le_of_le_slots {capacity order : Nat} (enough : capacity ≤ 1 <<< order) :
    slotOrder capacity ≤ order := by
  rw [Nat.one_shiftLeft] at enough
  unfold slotOrder
  split
  · exact Nat.zero_le _
  · have below : (capacity - 1).log2 < order := (Nat.log2_lt (by omega)).mpr (by omega)
    omega

namespace Ring

variable {capacity itemSize : Nat} {ring : Ring α}

theorem eq_vacant_of_ofCapacity (accepted : ofCapacity capacity itemSize = .ok ring) :
    0 < capacity ∧ ∃ fits, ring = ⟨slotOrder capacity, slotOrder_le fits, .vacant _⟩ := by
  unfold ofCapacity at accepted
  split at accepted
  · cases accepted
  · split at accepted
    · rename_i positive fits
      split at accepted
      · cases accepted
        exact ⟨Nat.pos_of_ne_zero positive, fits, rfl⟩
      · cases accepted
    · cases accepted

theorem ofCapacity_eq_ok (accepted : ofCapacity capacity itemSize = .ok ring) :
    0 < capacity ∧ capacity ≤ maxCapacity ∧ capacity ≤ ring.size ∧ ∀ i, ring.occupant i = none := by
  obtain ⟨positive, fits, rfl⟩ := eq_vacant_of_ofCapacity accepted
  exact ⟨positive, fits, le_slots_of_slotOrder capacity, fun i => Slots.get_vacant _⟩

theorem size_of_ofCapacity (accepted : ofCapacity capacity itemSize = .ok ring) :
    ring.size = 1 <<< slotOrder capacity := by
  obtain ⟨_, _, rfl⟩ := eq_vacant_of_ofCapacity accepted
  rfl

end Ring

namespace Queue

variable {q : Queue α} {item : α} {items front rest : List α}

/-- The number of items shown to the consumer and not taken yet. -/
def shown (q : Queue α) : Nat := q.consumer.cursor.position.span q.producer.cursor.published

/-- Whether a party can move on: the producer if there is room, the consumer if an item is shown. -/
def CanMove (q : Queue α) : Role → Prop
  | .producer => q.consumer.cursor.position.span q.producer.cursor.position < q.capacity.toNat
  | .consumer => 0 < q.shown

/-- The books of the two parties fit together, and the ring carries exactly the given items. What a
party saw last is never newer than the truth. -/
structure Carries (q : Queue α) (items : List α) : Prop where
  capacity_pos : 0 < q.capacity.toNat
  capacity_le : q.capacity.toNat ≤ q.ring.size
  consumer_published : q.consumer.cursor.published = q.consumer.cursor.position
  consumer_posted : q.consumer.post.index = q.consumer.cursor.position
  producer_posted : q.producer.post.index = q.producer.cursor.published
  holds : q.ring.Holds q.consumer.cursor.position items
  length_eq : q.consumer.cursor.position.span q.producer.cursor.position = items.length
  length_le : items.length ≤ q.capacity.toNat
  shown_le : q.shown ≤ items.length
  consumer_seen : q.consumer.cursor.position.span q.consumer.cursor.seen ≤ q.shown
  producer_seen : q.producer.cursor.seen.span q.consumer.cursor.position ≤
    q.producer.cursor.seen.span q.producer.cursor.position
  producer_seen_le : q.producer.cursor.seen.span q.producer.cursor.position ≤ q.capacity.toNat

theorem ofSettings_carries {settings : Settings} (opened : ofSettings settings = .ok q) :
    q.Carries [] := by
  unfold ofSettings at opened
  cases made : Ring.ofCapacity (α := α) settings.capacity settings.itemSize with
  | error cause => rw [made] at opened; cases opened
  | ok ring =>
    rw [made] at opened
    cases opened
    obtain ⟨positive, fits, room, vacant⟩ := Ring.ofCapacity_eq_ok made
    have small : settings.capacity < 2 ^ 64 := by
      unfold maxCapacity at fits
      omega
    have value : settings.capacity.toUInt64.toNat = settings.capacity :=
      UInt64.toNat_ofNat_of_lt' small
    have zero := Index.span_self settings.startIndex
    exact
      { capacity_pos := by rwa [value]
        capacity_le := by rwa [value]
        consumer_published := rfl
        consumer_posted := rfl
        producer_posted := rfl
        holds := Ring.holds_nil_of_vacant vacant _
        length_eq := zero
        length_le := Nat.zero_le _
        shown_le := Nat.le_of_eq zero
        consumer_seen := Nat.le_refl _
        producer_seen := Nat.le_refl _
        producer_seen_le := Nat.le_trans (Nat.le_of_eq zero) (Nat.zero_le _) }

/-- Both parties of an opened queue stand at the start index, and nobody has signalled anything. -/
theorem ofSettings_side {settings : Settings} (opened : ofSettings settings = .ok q) (role : Role) :
    q.side role = .ofStart settings.startIndex := by
  unfold ofSettings at opened
  cases made : Ring.ofCapacity (α := α) settings.capacity settings.itemSize with
  | error cause => rw [made] at opened; cases opened
  | ok ring =>
    rw [made] at opened
    cases opened
    cases role <;> rfl

/-- The capacity of an opened queue is the one asked for. -/
theorem ofSettings_capacity {settings : Settings} (opened : ofSettings settings = .ok q) :
    q.capacity.toNat = settings.capacity := by
  unfold ofSettings at opened
  cases made : Ring.ofCapacity (α := α) settings.capacity settings.itemSize with
  | error cause => rw [made] at opened; cases opened
  | ok ring =>
    rw [made] at opened
    cases opened
    have fits := (Ring.ofCapacity_eq_ok made).2.1
    have small : settings.capacity < 2 ^ 64 := by
      unfold maxCapacity at fits
      omega
    exact UInt64.toNat_ofNat_of_lt' small

namespace Carries

theorem capacity_lt (carries : q.Carries items) : q.capacity.toNat ≤ 0x8000000000000000 :=
  Nat.le_trans carries.capacity_le q.ring.size_le

theorem waiting_eq (carries : q.Carries items) : q.waiting.toNat = q.shown := by
  rw [waiting, carries.producer_posted]
  rfl

theorem inFlight_eq (carries : q.Carries items) : q.inFlight.toNat = items.length := by
  rw [inFlight, carries.consumer_posted]
  exact carries.length_eq

/-- What was put in and not shown yet. -/
theorem deferred_eq (carries : q.Carries items) :
    q.producer.cursor.published.span q.producer.cursor.position = items.length - q.shown := by
  have shown := carries.shown_le
  rw [← carries.length_eq] at shown ⊢
  exact Index.span_from shown

/-! A look changes what a party has seen, and nothing else. -/

theorem refresh (carries : q.Carries items) (role : Role) : (q.refresh role).Carries items := by
  cases role with
  | producer =>
    exact
      { carries with
        producer_seen := by
          show q.consumer.post.index.span q.consumer.cursor.position ≤
            q.consumer.post.index.span q.producer.cursor.position
          rw [carries.consumer_posted, Index.span_self]
          exact Nat.zero_le _
        producer_seen_le := by
          show q.consumer.post.index.span q.producer.cursor.position ≤ q.capacity.toNat
          rw [carries.consumer_posted, carries.length_eq]
          exact carries.length_le }
  | consumer =>
    exact
      { carries with
        consumer_seen := by
          show q.consumer.cursor.position.span q.producer.post.index ≤ q.shown
          rw [carries.producer_posted]
          exact Nat.le_refl _ }

theorem look (carries : q.Carries items) (role : Role) : (q.look role).Carries items := by
  rcases q.look_eq_or role with ⟨same, _⟩ | fresh
  · rwa [same]
  · rw [fresh]
    exact carries.refresh role

theorem ready_producer_iff (carries : q.Carries items) :
    q.ready .producer = true ↔
      q.producer.cursor.seen.span q.producer.cursor.position < q.capacity.toNat := by
  have positive := carries.capacity_pos
  have one : (q.capacity - 1).toNat = q.capacity.toNat - 1 :=
    UInt64.toNat_sub_of_le _ _ (UInt64.le_iff_toNat_le.mpr positive)
  simp only [ready, decide_eq_true_eq, UInt64.le_iff_toNat_le, one, Index.span]
  omega

theorem ready_consumer_iff (q : Queue α) :
    q.ready .consumer = true ↔ 0 < q.consumer.cursor.position.span q.consumer.cursor.seen := by
  simp only [ready, decide_eq_true_eq, UInt64.le_iff_toNat_le]
  rfl

/-- A party that can move on by what it saw last really can. -/
theorem space_of_ready (carries : q.Carries items) (ready : q.ready .producer = true) :
    items.length < q.capacity.toNat := by
  have room := carries.ready_producer_iff.mp ready
  have between := Index.span_from carries.producer_seen
  rw [carries.length_eq] at between
  omega

theorem shown_pos_of_ready (carries : q.Carries items) (ready : q.ready .consumer = true) :
    0 < q.shown :=
  Nat.lt_of_lt_of_le ((ready_consumer_iff q).mp ready) carries.consumer_seen

/-- A fresh look tells the truth. -/
theorem refresh_ready (carries : q.Carries items) (role : Role) :
    (q.refresh role).ready role = true ↔ q.CanMove role := by
  cases role with
  | producer =>
    rw [(carries.refresh .producer).ready_producer_iff]
    show q.consumer.post.index.span q.producer.cursor.position < q.capacity.toNat ↔ _
    rw [carries.consumer_posted]
    exact Iff.rfl
  | consumer =>
    rw [ready_consumer_iff]
    show 0 < q.consumer.cursor.position.span q.producer.post.index ↔ _
    rw [carries.producer_posted]
    exact Iff.rfl

theorem canMove_of_ready (carries : q.Carries items) {role : Role} (ready : q.ready role = true) :
    q.CanMove role := by
  cases role with
  | producer => exact Nat.lt_of_le_of_lt (Nat.le_of_eq carries.length_eq) (carries.space_of_ready ready)
  | consumer => exact carries.shown_pos_of_ready ready

/-- Looking only when what was seen last is not enough is as good as always looking. -/
theorem look_ready (carries : q.Carries items) (role : Role) :
    (q.look role).ready role = true ↔ q.CanMove role := by
  rcases q.look_eq_or role with ⟨same, ready⟩ | fresh
  · rw [same]
    exact iff_of_true ready (carries.canMove_of_ready ready)
  · rw [fresh]
    exact carries.refresh_ready role

theorem canMove_producer_iff (carries : q.Carries items) :
    q.CanMove .producer ↔ items.length < q.capacity.toNat := by
  rw [← carries.length_eq]
  exact Iff.rfl

end Carries

end Queue

end SpscQueue
