import Mathlib.Data.Nat.ModEq
import SpscQueue.Ring

namespace SpscQueue.Ring

universe u

variable {α : Type u} {k : Index} {r turned : Ring α}

/-- The slots of the second ring are those of the first one, moved on by `k` places around the
circle. -/
structure Turned (k : Index) (r turned : Ring α) : Prop where
  size : turned.size = r.size
  occupant (i : Index) : turned.occupant (i + k) = r.occupant i

/-- What two ring operations yield for rings of which one is turned: both fail, or both give the same
and leave rings of which one is turned. -/
inductive BothTurned {β : Type u} (k : Index) : Option (β × Ring α) → Option (β × Ring α) → Prop
  | none : BothTurned k none none
  | some (found : β) {r turned : Ring α} : Turned k r turned →
      BothTurned k (some (found, r)) (some (found, turned))

theorem turned_of_vacant (same : turned.size = r.size) (vacant : ∀ i, r.occupant i = none)
    (vacated : ∀ i, turned.occupant i = none) : Turned k r turned :=
  ⟨same, fun i => (vacated _).trans (vacant i).symm⟩

namespace Turned

variable (turns : Turned k r turned)

include turns

/-- Two places share a slot of the turned ring if and only if they did so before it was turned. -/
theorem slot_eq_iff (i j : Index) :
    turned.slot (i + k) = turned.slot (j + k) ↔ r.slot i = r.slot j := by
  rw [slot_add, slot_add, turns.size]
  constructor
  · exact Nat.ModEq.add_right_cancel' k.toNat
  · exact Nat.ModEq.add_right k.toNat

theorem replace (i : Index) (content : Option α) :
    Turned k (r.replace i content) (turned.replace (i + k) content) := by
  refine ⟨turns.size, fun j => ?_⟩
  rw [occupant_replace, occupant_replace, turns.occupant]
  exact ite_congr (propext (turns.slot_eq_iff i j)) (fun _ => rfl) (fun _ => rfl)

theorem write? (i : Index) (item : α) :
    r.write? i item = none ∧ turned.write? (i + k) item = none ∨
      ∃ after other, r.write? i item = some after ∧ turned.write? (i + k) item = some other ∧
        Turned k after other := by
  unfold Ring.write?
  rw [turns.occupant]
  cases r.occupant i with
  | none => exact Or.inr ⟨_, _, rfl, rfl, turns.replace i (some item)⟩
  | some held => exact Or.inl ⟨rfl, rfl⟩

theorem read? (i : Index) : BothTurned k (r.read? i) (turned.read? (i + k)) := by
  unfold Ring.read?
  rw [turns.occupant]
  cases r.occupant i with
  | none => exact .none
  | some item => exact .some item (turns.replace i none)

theorem readMany? (n : Nat) (i : Index) :
    BothTurned k (Ring.readMany? n i r) (Ring.readMany? n (i + k) turned) := by
  induction n generalizing i r turned with
  | zero => exact .some [] turns
  | succ n ih =>
    have step : i + k + 1 = i + 1 + k := by ac_rfl
    have first := turns.read? i
    rw [readMany?_succ, readMany?_succ, step]
    generalize r.read? i = one at first ⊢
    generalize turned.read? (i + k) = other at first ⊢
    cases first with
    | none => exact .none
    | @some item after next left =>
      have rest := ih left (i + 1)
      simp only [Option.bind_some]
      generalize Ring.readMany? n (i + 1) after = one at rest ⊢
      generalize Ring.readMany? n (i + 1 + k) next = other at rest ⊢
      cases rest with
      | none => exact .none
      | some items last => exact .some (item :: items) last

theorem discard (n : Nat) (i : Index) :
    (Ring.discard n (i + k) turned).1 = (Ring.discard n i r).1 ∧
      Turned k (Ring.discard n i r).2 (Ring.discard n (i + k) turned).2 := by
  induction n generalizing i r turned with
  | zero => exact ⟨rfl, turns⟩
  | succ n ih =>
    have step : i + k + 1 = i + 1 + k := by ac_rfl
    have first := turns.read? i
    rw [discard_succ, discard_succ, step]
    generalize r.read? i = one at first ⊢
    generalize turned.read? (i + k) = other at first ⊢
    cases first with
    | none => exact ih turns (i + 1)
    | @some item after next left =>
      obtain ⟨items, last⟩ := ih left (i + 1)
      exact ⟨congrArg (item :: ·) items, last⟩

theorem discardRange (first past : Index) :
    (turned.discardRange (first + k) (past + k)).1 = (r.discardRange first past).1 ∧
      Turned k (r.discardRange first past).2 (turned.discardRange (first + k) (past + k)).2 := by
  unfold Ring.discardRange
  rw [Index.gap_shift]
  exact turns.discard _ first

end Turned

end SpscQueue.Ring
