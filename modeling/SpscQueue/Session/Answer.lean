import SpscQueue.Description
import SpscQueue.Event
import SpscQueue.Failure
import SpscQueue.Session.Step

namespace SpscQueue

universe u

variable {α : Type u}

/-- What a handle tells about its queue. -/
structure HandleInfo where
  length : UInt64
  capacity : UInt64
  slots : Nat
  disconnected : Bool
  wakeups : Wakeups
deriving DecidableEq, Repr

def HandleInfo.isEmpty (info : HandleInfo) : Bool := info.length == 0

/-- What a monitor tells about its queue. -/
structure MonitorInfo where
  length : UInt64
  capacity : UInt64
  disconnected : Bool
  wakeups : Wakeups
deriving DecidableEq, Repr

def MonitorInfo.isEmpty (info : MonitorInfo) : Bool := info.length == 0

/-- The items that a batch brought, and those that were collected before. -/
structure Batch (α : Type u) where
  earlier : List α
  items : List α

/-- What a step answers. -/
inductive Result (α : Type u)
  | busy
  | gone
  | parked
  | done
  | push (result : Admission α)
  | tryPush (result : Admission α)
  | pop (result : Except PopFailure α)
  | tryPop (result : Except PopFailure α)
  | popBatch (result : Except PopFailure (Batch α))
  | handle (info : HandleInfo)
  | monitor (info : MonitorInfo)
  | description (description : Description)

/-- The result of a step, what its call logged, and the reports on the steps made during its
pauses. -/
inductive Report (α : Type u)
  | mk (result : Result α) (events : List Event) (meanwhile : Meanwhile (Report α))

/-- How a parked call went on. -/
structure Resumption (α : Type u) where
  role : Role
  result : Result α
  events : List Event

/-- How a handle stands between two steps. -/
inductive Standing
  | length (items : UInt64)
  | busy
  | gone
deriving DecidableEq, Repr

/-- The state that can be seen after a step. The wakeups can be asked only of a handle at rest. -/
structure Status where
  producer : Standing
  consumer : Standing
  wakeups : Option Wakeups
deriving DecidableEq, Repr

/-- All that a step brings about: its report, the parked calls that went on after it, the items given
up with the storage, and the state in the end. -/
structure Answer (α : Type u) where
  report : Report α
  resumptions : List (Resumption α)
  dropped : List α
  status : Status

namespace Result

/-- The item that a step has put into the queue. -/
def accepted : Result α → Option α
  | push (.accepted item) => some item
  | tryPush (.accepted item) => some item
  | _ => none

/-- The items that a step has taken out of the queue, in order. -/
def delivered : Result α → List α
  | pop (.ok item) => [item]
  | tryPop (.ok item) => [item]
  | popBatch (.ok batch) => batch.items
  | _ => []

end Result

mutual

/-- The results of a step and of the steps made during its pauses, in the order in which they came
about. -/
def Report.results : Report α → List (Result α)
  | .mk result _ meanwhile => resultsMeanwhile meanwhile ++ [result]

def Report.resultsOfAll : List (Report α) → List (Result α)
  | [] => []
  | report :: reports => report.results ++ resultsOfAll reports

def Report.resultsMeanwhile : Meanwhile (Report α) → List (Result α)
  | .nothing => []
  | .during _ reports rest => resultsOfAll reports ++ resultsMeanwhile rest

end

/-- All results of a step, those of the resumed calls included, in the order in which they came
about. -/
def Answer.results (a : Answer α) : List (Result α) :=
  a.report.results ++ a.resumptions.map (·.result)

end SpscQueue
