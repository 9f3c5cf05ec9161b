namespace SpscQueue

universe u

/-- Why an item was not taken in. A slot that is still occupied would mean that the queue had
lost track of its items. -/
inductive PushFailure
  | full
  | disconnected
  | occupied
deriving DecidableEq, Repr

namespace PushFailure

def message : PushFailure → String
  | full => "queue full"
  | disconnected => "queue disconnected"
  | occupied => "slot occupied"

def isFull (f : PushFailure) : Bool := f == full

def isDisconnected (f : PushFailure) : Bool := f == disconnected

end PushFailure

/-- What became of an item that was to be put in. A refused item is handed back. -/
inductive Admission (α : Type u)
  | accepted (item : α)
  | refused (item : α) (cause : PushFailure)
deriving DecidableEq, Repr

/-- Why no item was given out. A slot that is already vacant would mean that the queue had lost
track of its items. -/
inductive PopFailure
  | empty
  | disconnected
  | vacant
deriving DecidableEq, Repr

namespace PopFailure

def message : PopFailure → String
  | empty => "queue empty"
  | disconnected => "queue disconnected"
  | vacant => "slot vacant"

def isEmpty (f : PopFailure) : Bool := f == empty

def isDisconnected (f : PopFailure) : Bool := f == disconnected

end PopFailure

end SpscQueue
