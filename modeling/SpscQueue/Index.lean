namespace SpscQueue

/-- A place in the endless sequence of items. Indices count modulo `2 ^ 64` and are compared only
through their differences, so a queue may start anywhere and run past the top. -/
abbrev Index := UInt64

namespace Index

/-- The number of steps from `i` up to `j`. -/
def gap (i j : Index) : UInt64 := j - i

/-- `i.behind j` says that `i` comes before `j`, which is meaningful while the two lie within half
the circle of each other. -/
def behind (i j : Index) : Bool := decide (0x8000000000000000 ≤ (j.gap i).toNat)

/-- A move from `old` up to `new` passes the items `old`, …, `new - 1`; `passes old new mark` says
that `mark` is one of them. -/
def passes (old new mark : Index) : Bool := !mark.behind old && mark.behind new

theorem gap_toNat (i j : Index) : (i.gap j).toNat =
    (0x10000000000000000 - i.toNat + j.toNat) % 0x10000000000000000 :=
  UInt64.toNat_sub ..

theorem gap_self (i : Index) : i.gap i = 0 := UInt64.sub_self i

theorem add_gap (i j : Index) : i + i.gap j = j := by
  unfold gap
  rw [UInt64.add_comm]
  exact UInt64.sub_add_cancel ..

theorem gap_add (i : Index) (n : UInt64) : i.gap (i + n) = n := by
  unfold gap
  rw [UInt64.add_comm]
  exact UInt64.add_sub_cancel ..

/-- Nothing but differences counts. -/
theorem gap_shift (i j k : Index) : (i + k).gap (j + k) = i.gap j := by
  apply UInt64.toNat_inj.mp
  simp only [gap_toNat, UInt64.toNat_add]
  have := i.toNat_lt
  have := j.toNat_lt
  have := k.toNat_lt
  omega

theorem behind_iff {i j : Index} : i.behind j = true ↔ 0x8000000000000000 ≤ (j.gap i).toNat :=
  decide_eq_true_iff

theorem passes_self (i mark : Index) : passes i i mark = false := by
  simp only [passes, Bool.not_and_self]

/-- The two comparisons amount to one half-open interval, up to moves of half the circle. -/
theorem passes_iff {old new mark : Index} (near : (old.gap new).toNat ≤ 0x8000000000000000) :
    passes old new mark = true ↔ old.gap mark < old.gap new := by
  rw [passes, Bool.and_eq_true, Bool.not_eq_true', ← Bool.not_eq_true, behind_iff, behind_iff,
    UInt64.lt_iff_toNat_lt]
  simp only [gap_toNat] at near ⊢
  have := old.toNat_lt
  have := new.toNat_lt
  have := mark.toNat_lt
  omega

end Index

end SpscQueue
