import Mathlib.Algebra.Group.Nat.Defs
import Mathlib.Order.Bounds.Defs
import SpscQueue.Proofs.Carrying
import SpscQueue.Proofs.Unloading

namespace SpscQueue.Ring

universe u

variable {α : Type u} {r fresh last : Ring α} {contents : Index → Option α} {i j edge first past : Index}
  {item : α} {items : List α} {rounds : Nat}

/-- The number of slots is the least power of two that is enough. -/
theorem isLeast_size {capacity itemSize : Nat} (accepted : ofCapacity capacity itemSize = .ok fresh) :
    IsLeast {slots | capacity ≤ slots ∧ ∃ order, slots = 2 ^ order} fresh.size := by
  have size := size_of_ofCapacity accepted
  constructor
  · refine ⟨(ofCapacity_eq_ok accepted).2.2.1, slotOrder capacity, ?_⟩
    rw [size, Nat.one_shiftLeft]
  · rintro _ ⟨enough, order, rfl⟩
    rw [← Nat.one_shiftLeft] at enough
    rw [size, Nat.one_shiftLeft]
    exact Nat.pow_le_pow_right Nat.two_pos (slotOrder_le_of_le_slots enough)

/-- The greatest number of slots is there for items that take up no memory only. -/
example : (ofCapacity 0x8000000000000000 0).map (Ring.size (α := Unit)) = .ok 0x8000000000000000 ∧
    (ofCapacity 0x8000000000000000 1).map (Ring.size (α := Unit)) = .error .beyondMemory :=
  ⟨rfl, rfl⟩

/-- The low bits of an index number its slot. -/
theorem slot_eq_and (r : Ring α) (i : Index) :
    r.slot i = (i &&& (UInt64.ofNat r.size - 1)).toNat := by
  have positive := r.size_pos
  have small := r.size_le
  have mask : (UInt64.ofNat r.size - 1).toNat = r.size - 1 := by
    rw [UInt64.toNat_sub, UInt64.toNat_ofNat_of_lt' (by rw [UInt64.size]; omega),
      show (1 : UInt64).toNat = 1 from rfl]
    omega
  rw [UInt64.toNat_and, mask, slot, size, Nat.one_shiftLeft, Nat.and_two_pow_sub_one_eq_mod]

/-- What the slots hold is what `contents` tells of the indices they stand for: the item of an index is in
its slot, and an occupied slot is that of an index with an item. -/
structure Stores (r : Ring α) (contents : Index → Option α) : Prop where
  held : ∀ i item, contents i = some item → r.occupant i = some item
  owned : ∀ i, (r.occupant i).isSome = true → ∃ j, (contents j).isSome = true ∧ r.slot j = r.slot i

namespace Stores

theorem of_vacant (vacant : ∀ i, r.occupant i = none) : r.Stores fun _ => none := by
  refine ⟨fun _ _ here => (nomatch here), fun i occupied => ?_⟩
  rw [vacant i] at occupied
  cases occupied

/-- Within one lap around the indices with items, a slot speaks for its index alone. -/
theorem occupant_eq (stores : r.Stores contents)
    (near : ∀ j, (contents j).isSome = true ∨ j = i → edge.span j < r.size) :
    r.occupant i = contents i := by
  cases here : contents i with
  | some item => exact stores.held i item here
  | none =>
    refine Option.eq_none_iff_forall_not_mem.mpr fun item held => ?_
    obtain ⟨j, live, same⟩ := stores.owned i (Option.isSome_of_mem held)
    cases eq_of_slot_eq_of_lap (near j (.inl live)) (near i (.inr rfl)) same
    rw [here] at live
    cases live

/-- A change to the slot of an index changes what is stored at this index alone. -/
theorem replace (stores : r.Stores contents)
    (near : ∀ j, (contents j).isSome = true ∨ j = i → edge.span j < r.size) (content : Option α) :
    (r.replace i content).Stores fun j => if i = j then content else contents j := by
  constructor
  · intro j item here
    by_cases same : i = j
    · subst j
      rw [occupant_replace_self]
      simpa only [if_true] using here
    · rw [if_neg same] at here
      have live : (contents j).isSome = true := Option.isSome_of_mem here
      rw [occupant_replace_of_lap content (near i (.inr rfl)) (near j (.inl live)) same]
      exact stores.held j item here
  · intro j occupied
    rw [occupant_replace] at occupied
    by_cases same : r.slot i = r.slot j
    · refine ⟨i, ?_, same⟩
      rw [if_pos same] at occupied
      simpa only [if_true] using occupied
    · rw [if_neg same] at occupied
      obtain ⟨k, live, alike⟩ := stores.owned j occupied
      have other : i ≠ k := by
        rintro rfl
        exact same alike
      exact ⟨k, by simpa only [if_neg other] using live, alike⟩

/-- A range that is unloaded within the lap is missing afterwards, and nothing else is. -/
theorem unloaded (stores : r.Stores contents) (unloads : Unloads past rounds first r items last)
    (near : ∀ j, (contents j).isSome = true ∨ first.span j < first.span past → edge.span j < r.size) :
    last.Stores fun j => if first.span j < first.span past then none else contents j := by
  have slot_eq (j : Index) : last.slot j = r.slot j := by rw [slot, slot, size, size, unloads.order_eq]
  constructor
  · intro j item here
    split at here
    · cases here
    · rename_i outside
      -- no index of the range has its slot in common with a live one outside
      rw [unloads.occupant_eq fun k inside same => outside ?_]
      · exact stores.held j item here
      · cases eq_of_slot_eq_of_lap (near k (.inr inside)) (near j (.inl (Option.isSome_of_mem here))) same
        exact inside
  · intro j occupied
    have apart : ∀ k, first.span k < first.span past → r.slot k ≠ r.slot j := by
      intro k inside same
      rw [occupant_eq_of_slot_eq ((slot_eq j).trans (same.symm.trans (slot_eq k).symm)),
        unloads.vacated inside] at occupied
      cases occupied
    rw [unloads.occupant_eq apart] at occupied
    obtain ⟨k, live, same⟩ := stores.owned j occupied
    refine ⟨k, ?_, (slot_eq k).trans (same.trans (slot_eq j).symm)⟩
    rwa [if_neg fun inside => apart k inside same]

/-- The items unloaded are those of the range, in order. -/
theorem getElem?_eq (stores : r.Stores contents) (unloads : Unloads past rounds first r items last)
    (near : ∀ j, (contents j).isSome = true ∨ first.span j < first.span past → edge.span j < r.size)
    {k : Nat} (within : k < items.length) : items[k]? = contents (first + UInt64.ofNat k) := by
  have short := Index.span_lt first past
  have inside : first.span (first + UInt64.ofNat k) < first.span past := by
    rw [unloads.length_eq, unloads.rounds_eq] at within
    rwa [Index.span_add_self, UInt64.toNat_ofNat_of_lt' (Nat.lt_trans within short)]
  have held := unloads.occupant_of_getElem? (List.getElem?_eq_getElem within)
  rw [List.getElem?_eq_getElem within, ← held]
  refine stores.occupant_eq fun j either => near j (either.imp_right ?_)
  rintro rfl
  exact inside

end Stores

/-- A use of the storage. -/
inductive Use (α : Type u)
  | write (i : Index) (item : α)
  | read (i : Index)
  | discard (first past : Index)

/-- The indices whose slots a use touches. -/
def Use.Touches : Use α → Index → Prop
  | write i _, j => j = i
  | read i, j => j = i
  | discard first past, j => first.span j < first.span past

/-- What was written last at an index. Histories have the newest use first. -/
def lastWritten : List (Use α) → Index → Option α
  | [], _ => none
  | .write i item :: earlier, j => if i = j then some item else lastWritten earlier j
  | .read _ :: earlier, j => lastWritten earlier j
  | .discard _ _ :: earlier, j => lastWritten earlier j

/-- What was written last at an index and has been neither read nor discarded since. An index with such
an item is live. -/
def liveItem : List (Use α) → Index → Option α
  | [], _ => none
  | .write i item :: earlier, j => if i = j then some item else liveItem earlier j
  | .read i :: earlier, j => if i = j then none else liveItem earlier j
  | .discard first past :: earlier, j =>
    if first.span j < first.span past then none else liveItem earlier j

theorem lastWritten_of_liveItem {history : List (Use α)} (live : liveItem history i = some item) :
    lastWritten history i = some item := by
  induction history with
  | nil => cases live
  | cons use earlier ih =>
    cases use with
    | write j written =>
      by_cases same : j = i
      · simp only [liveItem, lastWritten, if_pos same] at live ⊢
        exact live
      · simp only [liveItem, lastWritten, if_neg same] at live ⊢
        exact ih live
    | read j =>
      simp only [liveItem] at live
      split at live
      · cases live
      · exact ih live
    | discard first past =>
      simp only [liveItem] at live
      split at live
      · cases live
      · exact ih live

/-- The live indices and those that a further use touches lie within one window of `slots` indices. -/
def InWindow (slots : Nat) (history : List (Use α)) (use : Use α) : Prop :=
  ∃ edge : Index, ∀ i, (liveItem history i).isSome = true ∨ use.Touches i → edge.span i < slots

/-- The storage `fresh`, used as the history tells, has become the given one. Each use had to keep to a
window, to write to a vacant slot and to empty none but occupied ones. -/
inductive Used (fresh : Ring α) : List (Use α) → Ring α → Prop
  | unused : Used fresh [] fresh
  | write {history : List (Use α)} {r after : Ring α} {i : Index} {item : α}
      (used : Used fresh history r) (window : InWindow fresh.size history (.write i item))
      (made : r.write? i item = some after) : Used fresh (.write i item :: history) after
  | read {history : List (Use α)} {r after : Ring α} {i : Index} {item : α}
      (used : Used fresh history r) (window : InWindow fresh.size history (.read i))
      (made : r.read? i = some (item, after)) : Used fresh (.read i :: history) after
  | discard {history : List (Use α)} {r : Ring α} {first past : Index}
      (used : Used fresh history r) (window : InWindow fresh.size history (.discard first past))
      (occupied : ∀ i, first.span i < first.span past → (r.occupant i).isSome = true) :
      Used fresh (.discard first past :: history) (r.discardRange first past).2

variable {history : List (Use α)}

theorem Used.stores (vacant : ∀ i, fresh.occupant i = none) (used : fresh.Used history r) :
    r.size = fresh.size ∧ r.Stores (liveItem history) := by
  induction used with
  | unused => exact ⟨rfl, .of_vacant vacant⟩
  | @write history r after i item _ window made ih =>
    obtain ⟨size, stores⟩ := ih
    obtain ⟨edge, near⟩ := window
    obtain ⟨_, rfl⟩ := write?_eq_some_iff.mp made
    rw [← size] at near
    exact ⟨size, stores.replace near (some item)⟩
  | @read history r after i item _ window made ih =>
    obtain ⟨size, stores⟩ := ih
    obtain ⟨edge, near⟩ := window
    obtain ⟨_, rfl⟩ := read?_eq_some_iff.mp made
    rw [← size] at near
    exact ⟨size, stores.replace near none⟩
  | @discard history r first past _ window occupied ih =>
    obtain ⟨size, stores⟩ := ih
    obtain ⟨edge, near⟩ := window
    rw [← size] at near
    obtain ⟨items, last, unloads⟩ := exists_unloads occupied fun j inside => near j (.inr inside)
    rw [unloads.discardRange_eq]
    refine ⟨?_, stores.unloaded unloads near⟩
    rw [← size, Ring.size, Ring.size, unloads.order_eq]

/-- The storage for a capacity has the least power of two of slots that is enough, the low bits of an
index number its slot, and no two indices less than that many steps apart share one. So whatever was
written, read and discarded, as long as all of it kept to a window of that many indices, which may have
moved on and run past the end of the circle: the slot of an index in the window holds just what was written
there last, if that was not taken since. A read hands it out, and an index without an item can be written.
Discarding a range gives up what was written at its indices, each item once and in order. It is over after
as many rounds as the range has indices and not before, and it leaves the slots of all other indices
alone. -/
theorem keeps_window {capacity itemSize : Nat} (accepted : ofCapacity capacity itemSize = .ok fresh) :
    IsLeast {slots | capacity ≤ slots ∧ ∃ order, slots = 2 ^ order} fresh.size ∧
    (∀ i, fresh.slot i = (i &&& (UInt64.ofNat fresh.size - 1)).toNat) ∧
    (∀ i j : Index, i.span j < fresh.size → fresh.slot i = fresh.slot j → i = j) ∧
    ∀ history r, fresh.Used history r →
      (∀ i, InWindow fresh.size history (.read i) → r.occupant i = liveItem history i ∧
        ((r.occupant i).isSome = true →
          ∃ item, r.read? i = some (item, r.replace i none) ∧ lastWritten history i = some item)) ∧
      (∀ i item, InWindow fresh.size history (.write i item) → liveItem history i = none →
        r.write? i item = some (r.replace i (some item))) ∧
      ∀ first past, InWindow fresh.size history (.discard first past) →
        (∀ i, first.span i < first.span past → (r.occupant i).isSome = true) →
        ∃ items last, r.discardRange first past = (items, last) ∧
          (∀ rounds found left, Unloads past rounds first r found left ↔
            rounds = first.span past ∧ found = items ∧ left = last) ∧
          items.length = first.span past ∧
          (∀ k < items.length, items[k]? = lastWritten history (first + UInt64.ofNat k)) ∧
          (∀ i, first.span i < first.span past → last.occupant i = none) ∧
          ∀ j, (∀ i, first.span i < first.span past → r.slot i ≠ r.slot j) →
            last.occupant j = r.occupant j := by
  refine ⟨isLeast_size accepted, fresh.slot_eq_and, fun _ _ => eq_of_slot_eq, ?_⟩
  intro history r used
  obtain ⟨same, stores⟩ := used.stores (ofCapacity_eq_ok accepted).2.2.2
  refine ⟨?_, ?_, ?_⟩
  · rintro i ⟨edge, near⟩
    rw [← same] at near
    have here : r.occupant i = liveItem history i := stores.occupant_eq near
    refine ⟨here, fun occupied => ?_⟩
    obtain ⟨item, held⟩ := Option.isSome_iff_exists.mp occupied
    exact ⟨item, read?_eq_some_iff.mpr ⟨held, rfl⟩, lastWritten_of_liveItem (here.symm.trans held)⟩
  · rintro i item ⟨edge, near⟩ free
    rw [← same] at near
    exact write?_eq_some_iff.mpr ⟨(stores.occupant_eq near).trans free, rfl⟩
  · rintro first past ⟨edge, near⟩ occupied
    rw [← same] at near
    obtain ⟨items, last, unloads⟩ := exists_unloads occupied fun j inside => near j (.inr inside)
    refine ⟨items, last, unloads.discardRange_eq, fun rounds found left => ⟨fun other => ?_, ?_⟩,
      unloads.length_eq, fun k within => ?_, fun i inside => unloads.vacated inside,
      fun j apart => unloads.occupant_eq apart⟩
    · obtain ⟨rfl, rfl⟩ := Prod.mk.inj (other.discardRange_eq.symm.trans unloads.discardRange_eq)
      exact ⟨other.rounds_eq, rfl, rfl⟩
    · rintro ⟨rfl, rfl, rfl⟩
      exact unloads
    · have turn := List.getElem?_eq_getElem within
      have live := stores.getElem?_eq unloads near within
      rw [turn] at live
      rw [turn, lastWritten_of_liveItem live.symm]

/-- A ring for three items has four slots. The slot of an index just before the end of the circle is used
again for index 0, and the range given up then runs past the end: its two rounds find both items. -/
theorem keeps_window_past_end :
    ∃ fresh r : Ring Nat, ofCapacity 3 8 = .ok fresh ∧ fresh.size = 4 ∧
      fresh.slot 0xfffffffffffffffc = fresh.slot 0 ∧
      fresh.Used [.write 0 8, .write 0xffffffffffffffff 7, .read 0xfffffffffffffffc,
        .write 0xfffffffffffffffc 5] r ∧
      ∃ items last, r.discardRange 0xffffffffffffffff 1 = (items, last) ∧ items = [7, 8] ∧
        ∀ rounds found left, Unloads 1 rounds 0xffffffffffffffff r found left ↔
          rounds = 2 ∧ found = items ∧ left = last := by
  have first : InWindow (α := Nat) 4 [] (.write 0xfffffffffffffffc 5) := by
    refine ⟨0xfffffffffffffffc, ?_⟩
    rintro i (live | rfl)
    · cases live
    · decide
  have second : InWindow (α := Nat) 4 [.write 0xfffffffffffffffc 5] (.read 0xfffffffffffffffc) := by
    refine ⟨0xfffffffffffffffc, ?_⟩
    rintro i (live | rfl)
    · obtain rfl : i = 0xfffffffffffffffc := by grind [liveItem]
      decide
    · decide
  have third : InWindow (α := Nat) 4 [.read 0xfffffffffffffffc, .write 0xfffffffffffffffc 5]
      (.write 0xffffffffffffffff 7) := by
    refine ⟨0xffffffffffffffff, ?_⟩
    rintro i (live | rfl)
    · grind [liveItem]
    · decide
  have fourth : InWindow (α := Nat) 4 [.write 0xffffffffffffffff 7, .read 0xfffffffffffffffc,
      .write 0xfffffffffffffffc 5] (.write 0 8) := by
    refine ⟨0xffffffffffffffff, ?_⟩
    rintro i (live | rfl)
    · obtain rfl : i = 0xffffffffffffffff := by grind [liveItem]
      decide
    · decide
  have fifth : InWindow (α := Nat) 4 [.write 0 8, .write 0xffffffffffffffff 7,
      .read 0xfffffffffffffffc, .write 0xfffffffffffffffc 5] (.discard 0xffffffffffffffff 1) := by
    refine ⟨0xffffffffffffffff, ?_⟩
    rintro i (live | inside)
    · obtain rfl | rfl : i = 0xffffffffffffffff ∨ i = 0 := by grind [liveItem]
      all_goals decide
    · exact Nat.lt_trans inside (by decide)
  have accepted : ofCapacity 3 8 = .ok (⟨2, by decide, .vacant 2⟩ : Ring Nat) := rfl
  have used : (⟨2, by decide, .vacant 2⟩ : Ring Nat).Used _ _ :=
    .write (.write (.read (.write .unused first rfl) second rfl) third rfl) fourth rfl
  obtain ⟨_, _, serves⟩ := (keeps_window accepted).2.2.2 _ _ used
  obtain ⟨items, last, discards, ends, length, turns, _⟩ := serves _ _ fifth fun i inside => by
    rcases steps : (0xffffffffffffffff : Index).span i with _ | _ | n
    · rw [← Index.add_span 0xffffffffffffffff i, steps]
      rfl
    · rw [← Index.add_span 0xffffffffffffffff i, steps]
      rfl
    · have far : (0xffffffffffffffff : Index).span 1 = 2 := rfl
      omega
  refine ⟨_, _, accepted, rfl, rfl, used, items, last, discards, ?_, ends⟩
  refine List.ext_getElem? fun k => ?_
  rcases k with _ | _ | k
  · exact turns 0 (by rw [length]; decide)
  · exact turns 1 (by rw [length]; decide)
  · rw [List.getElem?_eq_none (by rw [length]; exact Nat.le_add_left ..)]
    rfl

end SpscQueue.Ring
