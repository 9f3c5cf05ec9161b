namespace SpscQueue

universe u

variable {α : Type u}

/-- `2 ^ n` slots, each vacant or holding one item. They are kept as a balanced tree, the slots with
even numbers to one side and those with odd numbers to the other, so that a change leaves all but `n`
nodes alone and a vacant half is stored once. -/
inductive Slots (α : Type u) : Nat → Type u
  | single (content : Option α) : Slots α 0
  | halves {n : Nat} (even odd : Slots α n) : Slots α (n + 1)

namespace Slots

def vacant : (n : Nat) → Slots α n
  | 0 => single none
  | n + 1 =>
    let half := vacant n
    halves half half

/-- What a slot holds. Of its number only the `n` low bits count. -/
def get {n : Nat} : Slots α n → Nat → Option α
  | single content, _ => content
  | halves even odd, number =>
    if number % 2 = 0 then even.get (number / 2) else odd.get (number / 2)

/-- Changes what a slot holds. -/
def set {n : Nat} : Slots α n → Nat → Option α → Slots α n
  | single _, _, content => single content
  | halves even odd, number, content =>
    if number % 2 = 0 then halves (even.set (number / 2) content) odd
    else halves even (odd.set (number / 2) content)

theorem get_vacant {n : Nat} (number : Nat) : (vacant n : Slots α n).get number = none := by
  induction n generalizing number with
  | zero => rfl
  | succ n ih =>
    simp only [vacant, get, ih, ite_self]

theorem get_set {n : Nat} (slots : Slots α n) (i j : Nat) (content : Option α) :
    (slots.set i content).get j =
      if i % (1 <<< n) = j % (1 <<< n) then content else slots.get j := by
  induction slots generalizing i j with
  | single => simp only [set, get, Nat.one_shiftLeft, Nat.pow_zero, Nat.mod_one, if_true]
  | @halves n even odd evenIh oddIh =>
    have split (k : Nat) : k % (1 <<< (n + 1)) = k % 2 + 2 * (k / 2 % (1 <<< n)) := by
      rw [Nat.one_shiftLeft, Nat.one_shiftLeft, Nat.pow_succ', Nat.mod_mul]
    rw [split, split, set]
    by_cases iEven : i % 2 = 0
    · rw [if_pos iEven, get, get]
      by_cases jEven : j % 2 = 0
      · rw [if_pos jEven, if_pos jEven, evenIh]
        exact ite_congr (propext (by omega)) (fun _ => rfl) (fun _ => rfl)
      · rw [if_neg jEven, if_neg jEven, if_neg (by omega)]
    · rw [if_neg iEven, get, get]
      by_cases jEven : j % 2 = 0
      · rw [if_pos jEven, if_pos jEven, if_neg (by omega)]
      · rw [if_neg jEven, if_neg jEven, oddIh]
        exact ite_congr (propext (by omega)) (fun _ => rfl) (fun _ => rfl)

end Slots

end SpscQueue
