namespace SpscQueue

/-- Why a capacity is refused. -/
inductive CapacityError
  | zero
  | beyondIndices
  | beyondMemory
deriving DecidableEq, Repr

def CapacityError.message : CapacityError → String
  | zero => "capacity must be non-zero"
  | beyondIndices => "capacity overflows the address space"
  | beyondMemory => "capacity overflow"

/-- The greatest capacity. Two live indices are then at most half the circle apart, and only if they are just
that far apart their difference no longer tells their order. -/
def maxCapacity : Nat := 0x8000000000000000

/-- An array takes up less than this many bytes. -/
def memoryLimit : Nat := 0x8000000000000000

/-- The bytes that an item takes up, unless something else is said. -/
def defaultItemSize : Nat := 1

/-- The least exponent whose power of two is at least `capacity`. -/
def slotOrder (capacity : Nat) : Nat :=
  if capacity ≤ 1 then 0 else (capacity - 1).log2 + 1

theorem slotOrder_le {capacity : Nat} (fits : capacity ≤ maxCapacity) : slotOrder capacity ≤ 63 := by
  unfold maxCapacity at fits
  unfold slotOrder
  split
  · omega
  · have below : (capacity - 1).log2 < 63 := (Nat.log2_lt (by omega)).mpr (by omega)
    omega

end SpscQueue
