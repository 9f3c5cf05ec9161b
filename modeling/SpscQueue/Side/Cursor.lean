import SpscQueue.Side.Signpost

namespace SpscQueue

/-- What one party keeps for itself: where it is, how much of that it has shown, and where it last
saw the other party. -/
structure Cursor where
  position : Index
  published : Index
  seen : Index
deriving DecidableEq, Repr

namespace Cursor

def ofStart (start : Index) : Cursor := ⟨start, start, start⟩

def advance (c : Cursor) (steps : UInt64) : Cursor := { c with position := c.position + steps }

/-- Looks at the other party's signpost again. -/
def refresh (c : Cursor) (other : Signpost) : Cursor := { c with seen := other.index }

/-- The number of steps taken but not shown yet. -/
def deferred (c : Cursor) : UInt64 := c.published.gap c.position

end Cursor

end SpscQueue
