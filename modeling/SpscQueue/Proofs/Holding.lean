import SpscQueue.Proofs.Span
import SpscQueue.Ring

namespace SpscQueue.Ring

universe u

variable {α : Type u} {r : Ring α} {first i j : Index} {item : α} {items front rest : List α}

/-- Once around the ring from `first` on, the slots hold exactly the given items. The slots beyond
them are vacant. -/
structure Holds (r : Ring α) (first : Index) (items : List α) : Prop where
  room : items.length ≤ r.size
  lap : ∀ i, first.span i < r.size → r.occupant i = items[first.span i]?

theorem size_le (r : Ring α) : r.size ≤ 0x8000000000000000 := by
  rw [size, Nat.one_shiftLeft]
  exact Nat.pow_le_pow_right (by decide) r.order_le

theorem size_pos (r : Ring α) : 0 < r.size := by
  rw [size, Nat.one_shiftLeft]
  exact Nat.two_pow_pos r.order

theorem size_replace (content : Option α) : (r.replace i content).size = r.size := rfl

theorem eq_of_slot_eq_of_lap (iNear : first.span i < r.size) (jNear : first.span j < r.size)
    (same : r.slot i = r.slot j) : i = j := by
  rcases Nat.le_total (first.span i) (first.span j) with before | after
  · have near := Index.span_from before
    exact eq_of_slot_eq (show i.span j < r.size by omega) same
  · have near := Index.span_from after
    exact (eq_of_slot_eq (show j.span i < r.size by omega) same.symm).symm

theorem slot_add_size_mul (first : Index) {n m : UInt64} {laps : Nat}
    (whole : m.toNat = n.toNat + laps * r.size) : r.slot (first + m) = r.slot (first + n) := by
  rw [slot_add, slot_add, whole, ← Nat.add_assoc, size, Nat.add_mul_mod_self_right]

/-- Every slot is met once on the way around the ring. -/
theorem exists_slot_eq_of_lap (r : Ring α) (first i : Index) :
    ∃ j, first.span j < r.size ∧ r.slot j = r.slot i := by
  have small : first.span i % r.size < r.size := Nat.mod_lt _ r.size_pos
  have fits : first.span i % r.size < 2 ^ 64 := by have := r.size_le; omega
  have value : (UInt64.ofNat (first.span i % r.size)).toNat = first.span i % r.size :=
    UInt64.toNat_ofNat_of_lt' fits
  refine ⟨first + UInt64.ofNat (first.span i % r.size), ?_, ?_⟩
  · rwa [Index.span_add_self, value]
  · have whole : (UInt64.ofNat (first.span i)).toNat =
        (UInt64.ofNat (first.span i % r.size)).toNat + first.span i / r.size * r.size := by
      rw [value, UInt64.toNat_ofNat_of_lt' (Index.span_lt first i), Nat.mul_comm]
      exact (Nat.mod_add_div _ _).symm
    rw [← slot_add_size_mul first whole, Index.add_span]

theorem occupant_eq_of_slot_eq (same : r.slot i = r.slot j) : r.occupant i = r.occupant j :=
  congrArg r.slots.get same

theorem occupant_replace_self (content : Option α) : (r.replace i content).occupant i = content := by
  rw [occupant_replace, if_pos rfl]

theorem occupant_replace_of_lap (content : Option α) (iNear : first.span i < r.size)
    (jNear : first.span j < r.size) (other : i ≠ j) :
    (r.replace i content).occupant j = r.occupant j := by
  rw [occupant_replace, if_neg fun same => other (eq_of_slot_eq_of_lap iNear jNear same)]

theorem holds_nil_of_vacant (vacant : ∀ i, r.occupant i = none) (first : Index) :
    r.Holds first [] := by
  refine ⟨Nat.zero_le _, ?_⟩
  intro i _
  rw [vacant, List.getElem?_nil]

theorem Holds.occupant_first (holds : r.Holds first (item :: items)) :
    r.occupant first = some item := by
  rw [holds.lap first (by rw [Index.span_self]; exact r.size_pos), Index.span_self]
  rfl

/-- The occupied slots are those of the items held. -/
theorem Holds.occupant_isSome_iff (holds : r.Holds first items) (i : Index) :
    (r.occupant i).isSome = true ↔ ∃ j, first.span j < items.length ∧ r.slot j = r.slot i := by
  constructor
  · intro occupied
    obtain ⟨j, near, same⟩ := r.exists_slot_eq_of_lap first i
    refine ⟨j, ?_, same⟩
    rw [← occupant_eq_of_slot_eq same, holds.lap j near] at occupied
    simpa only [isSome_getElem?, decide_eq_true_eq] using occupied
  · rintro ⟨j, inside, same⟩
    rw [← occupant_eq_of_slot_eq same, holds.lap j (Nat.lt_of_lt_of_le inside holds.room),
      List.getElem?_eq_getElem inside]
    rfl

theorem Holds.write (holds : r.Holds first items) (space : items.length < r.size)
    (next : first.span i = items.length) (item : α) :
    r.write? i item = some (r.replace i (some item)) ∧
      (r.replace i (some item)).Holds first (items ++ [item]) := by
  have vacant : r.occupant i = none := by
    rw [holds.lap i (by omega), next, List.getElem?_eq_none (Nat.le_refl _)]
  refine ⟨write?_eq_some_iff.mpr ⟨vacant, rfl⟩, ?_, ?_⟩
  · rw [List.length_append, List.length_singleton, size_replace]
    omega
  · intro j near
    rw [size_replace] at near
    by_cases same : i = j
    · subst j
      rw [occupant_replace_self, next, List.getElem?_concat_length]
    · have away : first.span j ≠ items.length := fun equal =>
        same (Index.span_inj (next.trans equal.symm))
      rw [occupant_replace_of_lap _ (by omega) near same, holds.lap j near]
      rcases Nat.lt_or_gt_of_ne away with before | after
      · rw [List.getElem?_append_left before]
      · rw [List.getElem?_eq_none (Nat.le_of_lt after), List.getElem?_eq_none]
        rw [List.length_append, List.length_singleton]
        exact after

theorem Holds.read (holds : r.Holds first (item :: items)) :
    r.read? first = some (item, r.replace first none) ∧
      (r.replace first none).Holds (first + 1) items := by
  have room := holds.room
  have small := r.size_le
  rw [List.length_cons] at room
  have start : first.span first < r.size := by rw [Index.span_self]; exact r.size_pos
  refine ⟨read?_eq_some_iff.mpr ⟨holds.occupant_first, rfl⟩, ?_, ?_⟩
  · rw [size_replace]
    omega
  · intro j near
    rw [size_replace] at near
    have other : first ≠ j := by
      rintro rfl
      rw [Index.span_succ_self] at near
      omega
    have step := Index.span_succ other
    by_cases whole : (first + 1).span j + 1 < r.size
    · rw [occupant_replace_of_lap _ start (by omega) other, holds.lap j (by omega), step]
      exact List.getElem?_cons_succ
    · have same : r.slot first = r.slot j := by
        rw [← Index.add_span first j]
        have around : (UInt64.ofNat (first.span j)).toNat = (0 : UInt64).toNat + 1 * r.size := by
          rw [UInt64.toNat_ofNat_of_lt' (Index.span_lt first j), UInt64.toNat_zero]
          omega
        rw [slot_add_size_mul first around, UInt64.add_zero]
      rw [occupant_replace, if_pos same, List.getElem?_eq_none (by omega)]

theorem Holds.readMany (holds : r.Holds first (front ++ rest)) :
    ∃ after, readMany? front.length first r = some (front, after) ∧ after.order = r.order ∧
      after.Holds (first + UInt64.ofNat front.length) rest := by
  induction front generalizing r first with
  | nil => exact ⟨r, rfl, rfl, by simpa using holds⟩
  | cons item front ih =>
    obtain ⟨read, left⟩ := holds.read
    obtain ⟨after, more, order, held⟩ := ih left
    refine ⟨after, ?_, order, ?_⟩
    · rw [List.length_cons, readMany?_succ, read]
      simp only [Option.bind_some, more, Option.map_some]
    · rw [List.length_cons, Nat.add_comm, UInt64.ofNat_add, ← UInt64.add_assoc]
      exact held

theorem Holds.discard (holds : r.Holds first items) :
    ∃ after, Ring.discard items.length first r = (items, after) ∧ after.order = r.order ∧
      after.Holds (first + UInt64.ofNat items.length) [] := by
  induction items generalizing r first with
  | nil => exact ⟨r, rfl, rfl, by simpa using holds⟩
  | cons item items ih =>
    obtain ⟨read, left⟩ := holds.read
    obtain ⟨after, more, order, held⟩ := ih left
    refine ⟨after, ?_, order, ?_⟩
    · rw [List.length_cons, discard_succ, read]
      simp only [more]
    · rw [List.length_cons, Nat.add_comm, UInt64.ofNat_add, ← UInt64.add_assoc]
      exact held

end SpscQueue.Ring
