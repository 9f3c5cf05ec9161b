import SpscQueue.Proofs.Holding

namespace SpscQueue.Ring

universe u

variable {α : Type u} {r last : Ring α} {i j edge first past : Index} {item : α} {items : List α}
  {rounds : Nat}

theorem occupant_of_replace_none (held : (r.replace i none).occupant j = some item) :
    r.occupant j = some item := by
  rw [occupant_replace] at held
  split at held
  · cases held
  · exact held

/-- Giving up the items from index `i` on, one round for each index: only at `past` it is over, and
before that the slot at hand has to be occupied. -/
inductive Unloads (past : Index) : Nat → Index → Ring α → List α → Ring α → Prop
  | arrived (r : Ring α) : Unloads past 0 past r [] r
  | round {rounds : Nat} {i : Index} {r last : Ring α} {item : α} {items : List α} (away : i ≠ past)
      (held : r.occupant i = some item)
      (onward : Unloads past rounds (i + 1) (r.replace i none) items last) :
      Unloads past (rounds + 1) i r (item :: items) last

namespace Unloads

/-- However far it is, the rounds are as many as the steps. -/
theorem rounds_eq (unloads : Unloads past rounds i r items last) : rounds = i.span past := by
  induction unloads with
  | arrived r => exact (Index.span_self past).symm
  | round away held onward ih => rw [Index.span_succ away, ih]

theorem discardRange_eq (unloads : Unloads past rounds i r items last) :
    r.discardRange i past = (items, last) := by
  have same : Ring.discard rounds i r = (items, last) := by
    induction unloads with
    | arrived r => rfl
    | round away held onward ih =>
      rw [discard_succ, read?_eq_some_iff.mpr ⟨held, rfl⟩]
      simp only [ih]
  rw [← same, unloads.rounds_eq]
  rfl

theorem order_eq (unloads : Unloads past rounds i r items last) : last.order = r.order := by
  induction unloads with
  | arrived r => rfl
  | round away held onward ih => exact ih

theorem length_eq (unloads : Unloads past rounds i r items last) : items.length = rounds := by
  induction unloads with
  | arrived r => rfl
  | round away held onward ih => rw [List.length_cons, ih]

/-- No item is given up but those that were there from the beginning, each in its turn. -/
theorem occupant_of_getElem? (unloads : Unloads past rounds i r items last) {k : Nat}
    (turn : items[k]? = some item) : r.occupant (i + UInt64.ofNat k) = some item := by
  induction unloads generalizing k with
  | arrived r => cases turn
  | @round rounds i r last first items away held onward ih =>
    cases k with
    | zero =>
      cases turn
      exact (congrArg r.occupant (UInt64.add_zero i)).trans held
    | succ k =>
      rw [Nat.add_comm, UInt64.ofNat_add, ← UInt64.add_assoc]
      exact occupant_of_replace_none (ih turn)

theorem vacant_of_vacant (unloads : Unloads past rounds i r items last)
    (vacant : r.occupant j = none) : last.occupant j = none := by
  induction unloads with
  | arrived r => exact vacant
  | round away held onward ih =>
    refine ih ?_
    rw [occupant_replace, vacant, ite_self]

theorem vacated (unloads : Unloads past rounds i r items last) (inside : i.span j < i.span past) :
    last.occupant j = none := by
  induction unloads with
  | arrived r =>
    rw [Index.span_self] at inside
    exact absurd inside (Nat.not_lt_zero _)
  | @round rounds i r last item items away held onward ih =>
    by_cases same : i = j
    · subst j
      exact onward.vacant_of_vacant (occupant_replace_self none)
    · exact ih ((Index.span_succ_lt_iff away).mpr ⟨same, inside⟩)

/-- The slots of other indices are left alone. -/
theorem occupant_eq (unloads : Unloads past rounds i r items last)
    (apart : ∀ k, i.span k < i.span past → r.slot k ≠ r.slot j) : last.occupant j = r.occupant j := by
  induction unloads with
  | arrived r => rfl
  | @round rounds i r last item items away held onward ih =>
    have here : r.slot i ≠ r.slot j := by
      refine apart i ?_
      rw [Index.span_self]
      exact Index.span_pos_of_ne away
    calc last.occupant j = (r.replace i none).occupant j :=
          ih fun k inside => apart k ((Index.span_succ_lt_iff away).mp inside).2
      _ = r.occupant j := by rw [occupant_replace, if_neg here]

end Unloads

/-- Occupied slots within one lap can be unloaded one after the other. -/
theorem exists_unloads (occupied : ∀ j, first.span j < first.span past → (r.occupant j).isSome = true)
    (near : ∀ j, first.span j < first.span past → edge.span j < r.size) :
    ∃ items last, Unloads past (first.span past) first r items last := by
  induction way : first.span past generalizing first r with
  | zero =>
    cases Index.eq_of_span_eq_zero way
    exact ⟨[], r, .arrived r⟩
  | succ n ih =>
    have away : first ≠ past := by
      rintro rfl
      rw [Index.span_self] at way
      cases way
    have begins : first.span first < first.span past := by
      rw [Index.span_self]
      exact Index.span_pos_of_ne away
    have rest : (first + 1).span past = n := by
      have step := Index.span_succ away
      omega
    obtain ⟨item, held⟩ := Option.isSome_iff_exists.mp (occupied first begins)
    have further : ∀ j, (first + 1).span j < (first + 1).span past →
        ((r.replace first none).occupant j).isSome = true := by
      intro j onward
      obtain ⟨other, inside⟩ := (Index.span_succ_lt_iff away).mp onward
      rw [occupant_replace_of_lap none (near first begins) (near j inside) other]
      exact occupied j inside
    obtain ⟨items, last, unloads⟩ :=
      ih further (fun j onward => near j ((Index.span_succ_lt_iff away).mp onward).2) rest
    exact ⟨item :: items, last, .round away held unloads⟩

end SpscQueue.Ring
