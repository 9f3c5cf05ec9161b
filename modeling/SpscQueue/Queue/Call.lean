import SpscQueue.Queue.Attempt
import SpscQueue.Queue.Wait

namespace SpscQueue

universe u

variable {α : Type u}

/-- The calls that wait until they can move on. -/
inductive Call (α : Type u) : Role → Type u
  | push (item : α) (force : Bool) : Call α .producer
  | pop : Call α .consumer
  | popBatch : Call α .consumer

/-- How a waiting call ends. -/
inductive Outcome (α : Type u)
  | push (result : Admission α)
  | pop (result : Except PopFailure α)
  | popBatch (result : Except PopFailure (List α))

namespace Call

/-- A batch takes everything that can be seen, so it starts with a fresh look. -/
def prepare {role : Role} : Call α role → Queue α → Queue α
  | popBatch, q => q.refresh .consumer
  | push .., q => q
  | pop, q => q

/-- The work of a call that can move on. -/
def finish {role : Role} : Call α role → Queue α → Queue α × Outcome α
  | push item force, q => (q.accept item force).map id .push
  | pop, q => q.deliver.map id .pop
  | popBatch, q => q.deliverKnown.map id .popBatch

/-- How a call ends whose peer is gone for good. -/
def giveUp {role : Role} : Call α role → Outcome α
  | push item _ => .push (.refused item .disconnected)
  | pop => .pop (.error .disconnected)
  | popBatch => .popBatch (.error .disconnected)

end Call

end SpscQueue
