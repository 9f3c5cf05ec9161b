import SpscQueue.Queue.Wait

namespace SpscQueue

universe u

/-- What happens during some of the pauses of a call. -/
inductive Meanwhile (β : Type u)
  | nothing
  | during (pause : Pause) (steps : List β) (rest : Meanwhile β)

/-- Adds a number to an ascending list that may hold it already. -/
def insertAscending (n : Nat) : List Nat → List Nat
  | [] => [n]
  | other :: rest =>
    if n < other then n :: other :: rest
    else if n = other then other :: rest
    else other :: insertAscending n rest

namespace Meanwhile

variable {β : Type u}

/-- The rounds of spinning in which something happens, in ascending order. -/
def rounds : Meanwhile β → List Nat
  | nothing => []
  | during (.snooze round) _ rest => insertAscending round rest.rounds
  | during _ _ rest => rest.rounds

/-- The pauses of one wait at which one has to stop: the rounds of spinning in which something
happens, as far as the wait has them, and the sleep. -/
def stops (m : Meanwhile β) (snoozeRounds : Nat) : List Pause :=
  (m.rounds.filter fun round => 1 ≤ round && round ≤ snoozeRounds).map .snooze ++ [.sleep]

end Meanwhile

/-- Where a monitor comes from: a handle, or another monitor. -/
inductive MonitorSource
  | handle (role : Role)
  | monitor (id : Nat)
deriving DecidableEq, Repr

/-- One step of a session. A step that may wait says what the other party does during its pauses. -/
inductive Step (α : Type u)
  | push (item : α) (force : Bool) (meanwhile : Meanwhile (Step α))
  | tryPush (item : α)
  | flush
  | pop (meanwhile : Meanwhile (Step α))
  | popBatch (keep : Bool) (meanwhile : Meanwhile (Step α))
  | tryPop
  | inspect (role : Role)
  | describe (role : Role)
  | close (role : Role)
  | addMonitor (id : Nat) (source : MonitorSource)
  | inspectMonitor (id : Nat)
  | describeMonitor (id : Nat)
  | closeMonitor (id : Nat)
  | hold
  | release

/-- Pushes an item and shows it at once. -/
def Step.send {α : Type u} (item : α) (meanwhile : Meanwhile (Step α)) : Step α :=
  .push item true meanwhile

end SpscQueue
