import SpscQueue.Proofs.Span
import SpscQueue.Side.Signpost

namespace SpscQueue.Signpost

/-- What the owner of a signpost does with it. The threshold is not its own to change. -/
inductive Act
  | publish (steps : UInt64)
  | countWakeup
deriving DecidableEq, Repr

variable {start mark : Index} {acts : List Act}

/-- What its publications tell an owner who comes from index `i`. -/
def reports (s : Signpost) (i : Index) : List Act → List Bool
  | [] => []
  | .publish steps :: acts =>
    let (shown, passed) := s.publish i (i + steps)
    passed :: shown.reports (i + steps) acts
  | .countWakeup :: acts => s.countWakeup.reports i acts

/-- The moves that an owner shows, each from an index up to another. -/
def moves (i : Index) : List Act → List (Index × Index)
  | [] => []
  | .publish steps :: acts => (i, i + steps) :: moves (i + steps) acts
  | .countWakeup :: acts => moves i acts

/-- The number of steps that an owner shows altogether. -/
def way : List Act → Nat
  | [] => 0
  | .publish steps :: acts => steps.toNat + way acts
  | .countWakeup :: acts => way acts

/-- Of all that a signpost holds, only its threshold matters to what is told. -/
theorem reports_eq (s : Signpost) (start : Index) (acts : List Act) :
    s.reports start acts =
      (moves start acts).map fun move => Index.passes move.1 move.2 s.threshold := by
  induction acts generalizing s start with
  | nil => rfl
  | cons act acts ih =>
    cases act with
    | publish steps =>
      rw [reports, moves, List.map_cons]
      exact congrArg _ (ih (s.publish start (start + steps)).1 (start + steps))
    | countWakeup => exact ih s.countWakeup start

/-- No single move is longer than all of them together. -/
theorem span_le_way {move : Index × Index} (made : move ∈ moves start acts) :
    move.1.span move.2 ≤ way acts := by
  induction acts generalizing start with
  | nil => cases made
  | cons act acts ih =>
    cases act with
    | publish steps =>
      rw [way]
      rcases List.mem_cons.mp made with rfl | later
      · rw [Index.span_add_self]
        exact Nat.le_add_right ..
      · exact Nat.le_trans (ih later) (Nat.le_add_left ..)
    | countWakeup => exact ih made

theorem toNat_ofNat_way (near : way acts ≤ 0x8000000000000000) :
    (UInt64.ofNat (way acts)).toNat = way acts :=
  UInt64.toNat_ofNat_of_lt' (Nat.lt_of_le_of_lt near (by decide))

/-- Moves in a row pass a mark once if going all the way at once passes it, and never if it does not. -/
theorem count_passes (start mark : Index) (near : way acts ≤ 0x8000000000000000) :
    ((moves start acts).map fun move => Index.passes move.1 move.2 mark).count true =
      if Index.passes start (start + UInt64.ofNat (way acts)) mark then 1 else 0 := by
  induction acts generalizing start with
  | nil =>
    show 0 = if Index.passes start (start + 0) mark then 1 else 0
    rw [UInt64.add_zero, Index.passes_self]
    rfl
  | cons act acts ih =>
    cases act with
    | publish steps =>
      rw [way] at near ⊢
      have rest := ih (start + steps) (by omega)
      have value : (UInt64.ofNat (way acts)).toNat = way acts := toNat_ofNat_way (by omega)
      rw [moves, List.map_cons, List.count_cons, rest, UInt64.ofNat_add, UInt64.ofNat_toNat,
        UInt64.add_assoc]
      -- of the first move and of those after it together, at most one passes the mark
      rcases Index.passes_add start mark (n := steps) (m := UInt64.ofNat (way acts)) (by omega) with
        ⟨first, second, whole⟩ | ⟨first, second⟩
      · rw [first, second, whole]
        rfl
      · rw [first, second]
        rfl
    | countWakeup => exact ih start near

theorem count_passes_eq (start mark : Index) (near : way acts ≤ 0x8000000000000000) :
    ((moves start acts).map fun move => Index.passes move.1 move.2 mark).count true =
      if start.span mark < way acts then 1 else 0 := by
  have far : start.span (start + UInt64.ofNat (way acts)) = way acts := by
    rw [Index.span_add_self, toNat_ofNat_way near]
  have short : start.span (start + UInt64.ofNat (way acts)) ≤ 0x8000000000000000 := by rwa [far]
  simp only [count_passes start mark near, Index.passes_iff_span short, far]

/-- Two comparisons of wrapped differences tell whether a move of up to half the circle passes a mark, and
they amount to one comparison of the steps from where the move begins. So among the moves that an owner
shows while nobody asks for another threshold, exactly the one whose steps contain the threshold tells that
it passed, and none does if the threshold lies beyond them all. They may be any number of moves of any
lengths that come to no more than half the circle together, and they may run past its end. At a fresh
signpost no move ever tells so. -/
theorem passes_once :
    (∀ old new mark : Index, (old.gap new).toNat ≤ 0x8000000000000000 →
      (Index.passes old new mark = true ↔ old.gap mark < old.gap new)) ∧
    ∀ (start : Index) (acts : List Act), way acts ≤ 0x8000000000000000 →
      (∀ (s : Signpost) (mark : Index),
        (s.watch mark).reports start acts =
            (moves start acts).map (fun (old, new) => decide (old.gap mark < old.gap new)) ∧
          ((s.watch mark).reports start acts).count true =
            if (start.gap mark).toNat < way acts then 1 else 0) ∧
      ∀ told ∈ (ofStart start).reports start acts, told = false := by
  refine ⟨fun _ _ _ near => Index.passes_iff near, fun start acts near => ⟨fun s mark => ⟨?_, ?_⟩, ?_⟩⟩
  · rw [reports_eq]
    refine List.map_congr_left fun move made => ?_
    have short := Nat.le_trans (span_le_way made) near
    rw [Bool.eq_iff_iff, decide_eq_true_iff]
    exact Index.passes_iff short
  · rw [reports_eq]
    exact count_passes_eq start mark near
  · intro told member
    have none : ((ofStart start).reports start acts).count true = 0 := by
      have around := Index.span_succ_self (start - 1)
      rw [UInt64.sub_add_cancel] at around
      rw [reports_eq, count_passes_eq start _ near, if_neg]
      show ¬ start.span (start - 1) < way acts
      omega
    refine Bool.eq_false_iff.mpr fun passed => ?_
    exact List.count_eq_zero.mp none (passed ▸ member)

/-- Three moves across the end of the circle, with wakeups counted in between. Only the second one passes
index 1. -/
theorem passes_once_second_move :
    let told := ((ofStart 7).watch 1).reports 0xfffffffffffffffd
      [.publish 2, .countWakeup, .publish 5, .countWakeup, .publish 100]
    told = [false, true, false] ∧ told.count true = 1 := by
  have once := passes_once.2 0xfffffffffffffffd
    [.publish 2, .countWakeup, .publish 5, .countWakeup, .publish 100] (by decide)
  exact ⟨(once.1 (ofStart 7) 1).1.trans (by decide), (once.1 (ofStart 7) 1).2.trans (by decide)⟩

end SpscQueue.Signpost
