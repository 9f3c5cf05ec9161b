import SpscQueue.Index

namespace SpscQueue

/-- What one party shows the other: how far it has come, which of its steps the other one asked to
be woken for, and how often such a step has woken it. -/
structure Signpost where
  index : Index
  threshold : Index
  wakeups : UInt64
deriving DecidableEq, Repr

namespace Signpost

/-- A fresh signpost at `start`. Its threshold lies just behind, where no move passes it. -/
def ofStart (start : Index) : Signpost := ⟨start, start - 1, 0⟩

/-- Asks to be woken once the owner of this signpost has passed `threshold`. -/
def watch (s : Signpost) (threshold : Index) : Signpost := { s with threshold }

def countWakeup (s : Signpost) : Signpost := { s with wakeups := s.wakeups + 1 }

/-- Shows a move of the owner from `old` to `new`, and tells whether it passes the threshold. -/
def publish (s : Signpost) (old new : Index) : Signpost × Bool :=
  ({ s with index := new }, Index.passes old new s.threshold)

end Signpost

end SpscQueue
