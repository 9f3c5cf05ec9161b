import SpscQueue.Index

namespace SpscQueue.Index

/-- The number of steps from `i` up to `j`, as a number that does not wrap. -/
def span (i j : Index) : Nat := (i.gap j).toNat

theorem span_eq (i j : Index) : i.span j =
    (0x10000000000000000 - i.toNat + j.toNat) % 0x10000000000000000 := gap_toNat i j

theorem span_lt (i j : Index) : i.span j < 0x10000000000000000 := (i.gap j).toNat_lt

theorem span_self (i : Index) : i.span i = 0 := by
  rw [span, gap_self]
  rfl

theorem gap_eq_ofNat_span (i j : Index) : i.gap j = UInt64.ofNat (i.span j) :=
  UInt64.ofNat_toNat.symm

theorem add_span (i j : Index) : i + UInt64.ofNat (i.span j) = j := by
  rw [← gap_eq_ofNat_span, add_gap]

theorem span_inj {i j k : Index} (same : i.span j = i.span k) : j = k := by
  rw [← add_span i j, ← add_span i k, same]

theorem eq_of_span_eq_zero {i j : Index} (none : i.span j = 0) : i = j :=
  span_inj ((span_self i).trans none.symm)

theorem span_pos_of_ne {i j : Index} (different : i ≠ j) : 0 < i.span j :=
  Nat.pos_of_ne_zero fun none => different (eq_of_span_eq_zero none)

theorem span_add {i j : Index} {n : UInt64} (near : i.span j + n.toNat < 0x10000000000000000) :
    i.span (j + n) = i.span j + n.toNat := by
  simp only [span_eq, UInt64.toNat_add] at near ⊢
  have := i.toNat_lt
  have := j.toNat_lt
  omega

theorem span_add_self (i : Index) (n : UInt64) : i.span (i + n) = n.toNat := by
  rw [span, gap_add]

/-- A point on the way from `i` to `k` splits the way. -/
theorem span_from {i j k : Index} (within : i.span j ≤ i.span k) :
    j.span k = i.span k - i.span j := by
  simp only [span_eq] at within ⊢
  have := i.toNat_lt
  have := j.toNat_lt
  have := k.toNat_lt
  omega

theorem span_from_add {i k : Index} {n : UInt64} (within : n.toNat ≤ i.span k) :
    (i + n).span k = i.span k - n.toNat := by
  rw [span_from (by rwa [span_add_self]), span_add_self]

/-- Going back from `j` to `i` leads around the rest of the circle. -/
theorem span_back {i j : Index} (different : i ≠ j) : j.span i = 0x10000000000000000 - i.span j := by
  have positive := span_pos_of_ne different
  simp only [span_eq] at positive ⊢
  have := i.toNat_lt
  have := j.toNat_lt
  omega

/-- Every index but the first on a way is met one step later from the second on. -/
theorem span_succ {i j : Index} (other : i ≠ j) : i.span j = (i + 1).span j + 1 := by
  have positive := span_pos_of_ne other
  have step : (i + 1).span j = i.span j - (1 : UInt64).toNat := span_from_add positive
  have one : (1 : UInt64).toNat = 1 := rfl
  omega

/-- A way around the circle ends just behind its beginning. -/
theorem span_succ_self (i : Index) : (i + 1).span i = 0xffffffffffffffff := by
  rw [span_eq, UInt64.toNat_add, show (1 : UInt64).toNat = 1 from rfl]
  have := i.toNat_lt
  omega

theorem span_succ_lt_iff {i j past : Index} (away : i ≠ past) :
    (i + 1).span j < (i + 1).span past ↔ i ≠ j ∧ i.span j < i.span past := by
  have way := span_succ away
  by_cases same : i = j
  · subst j
    have around := span_succ_self i
    have short := span_lt i past
    simp only [ne_eq, not_true_eq_false, false_and, iff_false]
    omega
  · have step := span_succ same
    simp only [ne_eq, same, not_false_eq_true, true_and]
    omega

/-- A point on the way from `j` to `k` splits the way from `i` to `k` as well, if that leads over `j`
without going around. -/
theorem span_via {i j k m : Index} (way : i.span j + j.span k = i.span k)
    (within : j.span m ≤ j.span k) : i.span j + j.span m = i.span m := by
  simp only [span_eq] at way within ⊢
  have := i.toNat_lt
  have := j.toNat_lt
  have := k.toNat_lt
  have := m.toNat_lt
  omega

theorem passes_iff_span {old new mark : Index} (near : old.span new ≤ 0x8000000000000000) :
    passes old new mark = true ↔ old.span mark < old.span new :=
  passes_iff near

/-- What lies behind by no more than half the circle lies ahead by no less. -/
theorem le_span_of_past {i j mark : Index} (early : i.span j ≤ 0x8000000000000000)
    (past : i.span mark < i.span j) : 0x8000000000000000 ≤ j.span mark := by
  have behind := span_from (Nat.le_of_lt past)
  have different : mark ≠ j := by
    rintro rfl
    exact Nat.lt_irrefl _ past
  have around := span_back different
  omega

/-- A way that is gone in two goes passes a mark in just one of them, if at all. -/
theorem passes_via {i j k : Index} (way : i.span j + j.span k = i.span k)
    (near : i.span k ≤ 0x8000000000000000) (mark : Index) :
    passes i j mark = true ∧ passes j k mark = false ∧ passes i k mark = true ∨
      passes i j mark = false ∧ passes j k mark = passes i k mark := by
  have first : passes i j mark = true ↔ i.span mark < i.span j := passes_iff_span (by omega)
  have second : passes j k mark = true ↔ j.span mark < j.span k := passes_iff_span (by omega)
  have whole : passes i k mark = true ↔ i.span mark < i.span k := passes_iff_span near
  by_cases early : i.span mark < i.span j
  · have around := le_span_of_past (by omega) early
    refine Or.inl ⟨first.mpr early, Bool.eq_false_iff.mpr fun again => ?_, whole.mpr (by omega)⟩
    have ahead := second.mp again
    omega
  · have split := span_from (Nat.le_of_not_lt early)
    refine Or.inr ⟨Bool.eq_false_iff.mpr fun passed => early (first.mp passed), ?_⟩
    rw [Bool.eq_iff_iff, second, whole]
    omega

/-- Two goes from `i` on, of which just one passes a mark, if at all. -/
theorem passes_add (i mark : Index) {n m : UInt64} (near : n.toNat + m.toNat ≤ 0x8000000000000000) :
    passes i (i + n) mark = true ∧ passes (i + n) (i + (n + m)) mark = false ∧
        passes i (i + (n + m)) mark = true ∨
      passes i (i + n) mark = false ∧
        passes (i + n) (i + (n + m)) mark = passes i (i + (n + m)) mark := by
  have sum : (n + m).toNat = n.toNat + m.toNat := by
    rw [UInt64.toNat_add]
    omega
  have far : i.span (i + (n + m)) = n.toNat + m.toNat := by rw [span_add_self, sum]
  refine passes_via ?_ (by omega) mark
  rw [far, ← UInt64.add_assoc, span_add_self, span_add_self]

end SpscQueue.Index
