import SpscQueue.Capacity
import SpscQueue.Index
import SpscQueue.Slots

namespace SpscQueue

universe u

variable {α : Type u}

/-- The storage of a queue: a power of two of slots. The item with index `i` lives in the slot
numbered by the low bits of `i`. -/
structure Ring (α : Type u) where
  order : Nat
  order_le : order ≤ 63
  slots : Slots α order

namespace Ring

/-- A vacant ring with at least `capacity` slots, for items of `itemSize` bytes each. Items without a
size need no memory, however many there are. -/
def ofCapacity (capacity : Nat) (itemSize : optParam Nat defaultItemSize) : Except CapacityError (Ring α) :=
  if capacity = 0 then .error .zero
  else if fits : capacity ≤ maxCapacity then
    if (1 <<< slotOrder capacity) * itemSize < memoryLimit then
      .ok ⟨slotOrder capacity, slotOrder_le fits, .vacant _⟩
    else .error .beyondMemory
  else .error .beyondIndices

/-- The number of slots. -/
def size (r : Ring α) : Nat := 1 <<< r.order

/-- The number of the slot in which the item with index `i` lives. -/
def slot (r : Ring α) (i : Index) : Nat := i.toNat % r.size

/-- What the slot of `i` holds. -/
def occupant (r : Ring α) (i : Index) : Option α := r.slots.get (r.slot i)

/-- Changes what the slot of `i` holds. -/
def replace (r : Ring α) (i : Index) (content : Option α) : Ring α :=
  { r with slots := r.slots.set (r.slot i) content }

theorem occupant_replace (r : Ring α) (i j : Index) (content : Option α) :
    (r.replace i content).occupant j = if r.slot i = r.slot j then content else r.occupant j :=
  (Slots.get_set r.slots (r.slot i) (r.slot j) content).trans
    (ite_congr (by rw [slot, slot, size, Nat.mod_mod, Nat.mod_mod]) (fun _ => rfl) (fun _ => rfl))

/-- The low bits of an index do not notice the end of the circle. -/
theorem slot_add (r : Ring α) (i : Index) (n : UInt64) :
    r.slot (i + n) = (i.toNat + n.toNat) % r.size := by
  have laps : r.size ∣ 2 ^ 64 := by
    have small := r.order_le
    rw [size, Nat.one_shiftLeft]
    exact Nat.pow_dvd_pow 2 (by omega)
  simp only [slot, UInt64.toNat_add, Nat.mod_mod_of_dvd _ laps]

/-- Indices less than a lap apart never share a slot. -/
theorem eq_of_slot_eq {r : Ring α} {i j : Index} (near : (i.gap j).toNat < r.size)
    (same : r.slot i = r.slot j) : i = j := by
  have lap : (i.toNat + (i.gap j).toNat) % r.size = i.toNat % r.size := by
    rw [← slot_add, Index.add_gap, ← same]
    rfl
  have zero : (i.gap j).toNat % r.size = 0 := by
    have := Nat.sub_mod_eq_zero_of_mod_eq lap
    rwa [Nat.add_sub_cancel_left] at this
  have stay : (i.gap j).toNat = 0 := by rwa [Nat.mod_eq_of_lt near] at zero
  have step := Index.add_gap i j
  have none : i.gap j = 0 := UInt64.toNat_inj.mp stay
  rwa [none, UInt64.add_zero] at step

/-- Moves an item into the slot of `i`, which has to be vacant. -/
def write? (r : Ring α) (i : Index) (item : α) : Option (Ring α) :=
  match r.occupant i with
  | none => some (r.replace i (some item))
  | some _ => none

theorem write?_eq_some_iff {r after : Ring α} {i : Index} {item : α} :
    r.write? i item = some after ↔ r.occupant i = none ∧ r.replace i (some item) = after := by
  unfold write?
  split <;> simp_all

/-- Moves the item out of the slot of `i`, which has to be occupied. -/
def read? (r : Ring α) (i : Index) : Option (α × Ring α) :=
  (r.occupant i).map fun item => (item, r.replace i none)

theorem read?_eq_some_iff {r after : Ring α} {i : Index} {item : α} :
    r.read? i = some (item, after) ↔ r.occupant i = some item ∧ r.replace i none = after := by
  simp only [read?, Option.map_eq_some_iff, Prod.mk.injEq]
  constructor
  · rintro ⟨_, held, rfl, rfl⟩
    exact ⟨held, rfl⟩
  · rintro ⟨held, rfl⟩
    exact ⟨item, held, rfl, rfl⟩

/-- Moves the `n` items from index `i` on out of their slots. All of them have to be there. They
follow the items already `taken`, of which the newest comes first. -/
def readOnto? : Nat → Index → Ring α → List α → Option (List α × Ring α)
  | 0, _, r, taken => some (taken.reverse, r)
  | n + 1, i, r, taken =>
    match r.read? i with
    | none => none
    | some (item, r) => readOnto? n (i + 1) r (item :: taken)

/-- Moves the `n` items from index `i` on out of their slots, in order. -/
def readMany? (n : Nat) (i : Index) (r : Ring α) : Option (List α × Ring α) := readOnto? n i r []

theorem readOnto?_eq (n : Nat) (i : Index) (r : Ring α) (taken : List α) :
    readOnto? n i r taken =
      (readMany? n i r).map fun (items, after) => (taken.reverse ++ items, after) := by
  unfold readMany?
  induction n generalizing i r taken with
  | zero => simp only [readOnto?, Option.map_some, List.reverse_nil, List.append_nil]
  | succ n ih =>
    simp only [readOnto?]
    cases r.read? i with
    | none => rfl
    | some read =>
      simp only [ih (i + 1) read.2 (read.1 :: taken), ih (i + 1) read.2 [read.1], Option.map_map]
      congr 1
      funext rest
      simp only [Function.comp_apply, List.reverse_cons, List.reverse_nil, List.nil_append,
        List.append_assoc]

theorem readMany?_zero (i : Index) (r : Ring α) : readMany? 0 i r = some ([], r) := rfl

theorem readMany?_succ (n : Nat) (i : Index) (r : Ring α) :
    readMany? (n + 1) i r =
      (r.read? i).bind fun (item, after) =>
        (readMany? n (i + 1) after).map fun (items, last) => (item :: items, last) := by
  rw [readMany?, readOnto?]
  cases r.read? i with
  | none => rfl
  | some read => exact readOnto?_eq n (i + 1) read.2 [read.1]

/-- Vacates the slots of the `n` indices from `i` on and lists the items found there. They follow the
items already `taken`, of which the newest comes first. -/
def discardOnto : Nat → Index → Ring α → List α → List α × Ring α
  | 0, _, r, taken => (taken.reverse, r)
  | n + 1, i, r, taken =>
    match r.read? i with
    | none => discardOnto n (i + 1) r taken
    | some (item, r) => discardOnto n (i + 1) r (item :: taken)

/-- Vacates the slots of the `n` indices from `i` on and lists the items found there, in order. -/
def discard (n : Nat) (i : Index) (r : Ring α) : List α × Ring α := discardOnto n i r []

theorem discardOnto_eq (n : Nat) (i : Index) (r : Ring α) (taken : List α) :
    discardOnto n i r taken = (taken.reverse ++ (discard n i r).1, (discard n i r).2) := by
  unfold discard
  induction n generalizing i r taken with
  | zero => simp only [discardOnto, List.reverse_nil, List.append_nil]
  | succ n ih =>
    simp only [discardOnto]
    cases r.read? i with
    | none => exact ih (i + 1) r taken
    | some read =>
      show discardOnto n (i + 1) read.2 (read.1 :: taken) =
        (taken.reverse ++ (discardOnto n (i + 1) read.2 [read.1]).1,
          (discardOnto n (i + 1) read.2 [read.1]).2)
      rw [ih (i + 1) read.2 (read.1 :: taken), ih (i + 1) read.2 [read.1]]
      simp only [List.reverse_cons, List.reverse_nil, List.nil_append, List.append_assoc]

theorem discard_succ (n : Nat) (i : Index) (r : Ring α) :
    discard (n + 1) i r =
      match r.read? i with
      | none => discard n (i + 1) r
      | some (item, after) =>
        (item :: (discard n (i + 1) after).1, (discard n (i + 1) after).2) := by
  rw [discard, discardOnto]
  cases r.read? i with
  | none => rfl
  | some read => exact discardOnto_eq n (i + 1) read.2 [read.1]

/-- Vacates the slots of the indices from `first` up to, and without, `past`. -/
def discardRange (r : Ring α) (first past : Index) : List α × Ring α :=
  discard (first.gap past).toNat first r

end Ring

end SpscQueue
