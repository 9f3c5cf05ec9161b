import SpscQueue.Exchange

namespace SpscQueue

/-- How a consumer takes items: it waits for one, it waits for a batch, or it takes one if there is
one. -/
inductive Intake
  | pop
  | popBatch
  | tryPop
deriving DecidableEq, Repr

/-- A bulk transfer between two parties that run freely. The producer pushes `count` items, and shows
every `forceEvery`-th one at once. The consumer goes through the pattern over and over until a call
finds the producer gone, or it has received as many items as it wants. -/
structure Transfer where
  count : Nat
  forceEvery : Nat
  factor : UInt64
  offset : UInt64
  pattern : List Intake
  stopAfter : Option Nat
deriving DecidableEq, Repr

namespace Transfer

def item (t : Transfer) (i : Nat) : UInt64 := UInt64.ofNat i * t.factor + t.offset

def forced (t : Transfer) (i : Nat) : Bool :=
  t.forceEvery != 0 && i % t.forceEvery == t.forceEvery - 1

/-- Why the consumer left. -/
inductive Ending
  | stopped
  | failed (cause : PopFailure)
deriving DecidableEq, Repr

def Ending.message : Ending → String
  | stopped => "stopped"
  | failed cause => cause.message

/-- Received items, the newest first, and their number. -/
structure Receipts where
  newest : List UInt64
  count : Nat
  count_eq : count = newest.length

namespace Receipts

def none : Receipts := ⟨[], 0, rfl⟩

def add (r : Receipts) (item : UInt64) : Receipts :=
  ⟨item :: r.newest, r.count + 1, congrArg (· + 1) r.count_eq⟩

def addAll (r : Receipts) (items : List UInt64) : Receipts := items.foldl add r

/-- The received items in order. -/
def items (r : Receipts) : List UInt64 := r.newest.reverse

end Receipts

/-- A transfer under way. -/
structure State where
  exchange : Exchange UInt64
  pushed : Nat
  refusal : Option (UInt64 × PushFailure)
  intakes : Nat
  received : Receipts
  ending : Option Ending
  overfull : Bool
  dropped : List UInt64

namespace State

def ofSettings (settings : Settings) : Except CapacityError State :=
  (Queue.ofSettings settings).map fun queue => ⟨.ofQueue queue, 0, none, 0, .none, none, false, []⟩

/-- Whether one of the parties now sees more items than the queue may hold. -/
def overflows (s : State) : Bool :=
  let q := s.exchange.queue
  decide (q.capacity < q.length .producer) || decide (q.capacity < q.length .consumer)

def withQueue (s : State) (queue : Queue UInt64) : State := { s with exchange.queue := queue }

/-- Takes in how a call ended. -/
def conclude (s : State) : Outcome UInt64 → State
  | .push (.accepted _) => { s with pushed := s.pushed + 1 }
  | .push (.refused item cause) => { s with refusal := some (item, cause) }
  | .pop (.ok item) => { s with received := s.received.add item }
  | .pop (.error cause) => { s with ending := some (.failed cause) }
  | .popBatch (.ok items) => { s with received := s.received.addAll items }
  | .popBatch (.error cause) => { s with ending := some (.failed cause) }

/-- Takes in what a call did up to its next stop. -/
def absorb (s : State) (advance : Advance UInt64) : State :=
  let moved := { s with exchange := advance.exchange }
  match advance.outcome with
  | none => moved
  | some outcome => moved.conclude outcome

/-- Ends a handle. The last one to go gives up the storage. -/
def close (s : State) (role : Role) : State :=
  let (queue, _) := s.exchange.queue.close role
  if queue.closed role.peer then
    let (dropped, queue) := queue.release
    { s.withQueue queue with dropped }
  else s.withQueue queue

/-- An attempt to take an item. The consumer goes on if there is none yet. -/
def tryPop (s : State) : State :=
  match s.exchange.queue.tryPop with
  | (queue, .ok item) => { s.withQueue queue with received := s.received.add item }
  | (queue, .error .empty) => s.withQueue queue
  | (queue, .error cause) => { s.withQueue queue with ending := some (.failed cause) }

end State

/-- What the producer does next when it is at rest: it pushes the next item, or it leaves. -/
def producerMove (t : Transfer) (s : State) : State :=
  if s.pushed < t.count && s.refusal.isNone then
    s.absorb (s.exchange.start (.push (t.item s.pushed) (t.forced s.pushed)))
  else s.close .producer

/-- What the consumer does next when it is at rest: it makes the next call of its pattern, or it
leaves. -/
def consumerMove (t : Transfer) (s : State) : State :=
  if s.ending.isSome then s.close .consumer
  else if t.stopAfter = some s.received.count then { s with ending := some .stopped }
  else
    let counted := { s with intakes := s.intakes + 1 }
    match t.pattern[s.intakes % t.pattern.length]? with
    | none => { s with ending := some .stopped }
    | some .pop => counted.absorb (s.exchange.start .pop)
    | some .popBatch => counted.absorb (s.exchange.start .popBatch)
    | some .tryPop => counted.tryPop

/-- One turn of a party, unless it is gone or waits for its signal. A party in the middle of a call
goes on with it. -/
def turn (t : Transfer) (role : Role) (s : State) : Option State :=
  let x := s.exchange
  if x.queue.closed role then none
  else if x.parked role && !x.resumable role then none
  else
    let moved :=
      if x.busy role then s.absorb (x.proceed role)
      else match role with
        | .producer => t.producerMove s
        | .consumer => t.consumerMove s
    some { moved with overfull := moved.overfull || moved.overflows }

/-- One turn of a party, after which it spins through all its rounds while the other party does
nothing. -/
def spinningTurn (t : Transfer) (role : Role) (s : State) : Option State :=
  (t.turn role s).map fun moved =>
    match moved.exchange.pauseOf role with
    | some (.snooze _) => { moved with exchange := moved.exchange.passTo role .sleep }
    | _ => moved

/-- Runs at most so many turns, with the producer going as far as it can each time. -/
def runWithin (t : Transfer) : Nat → State → State
  | 0, s => s
  | bound + 1, s =>
    match t.spinningTurn .producer s with
    | some next => runWithin t bound next
    | none =>
      match t.spinningTurn .consumer s with
      | some next => runWithin t bound next
      | none => s

/-- More turns than a transfer takes in which the producer goes first. Each item costs either party
one call, the last call of each may fail, a call stops in its sleep and in its park, and in the end
each party leaves. -/
def turnBound (t : Transfer) : Nat := 8 * (t.count + 2)

/-- Runs a transfer to its end. -/
def run (t : Transfer) (settings : Settings) : Except CapacityError State :=
  (State.ofSettings settings).map fun fresh => t.runWithin t.turnBound fresh

/-- A fingerprint of some items and their order. -/
def fingerprint (items : List UInt64) : UInt64 :=
  items.foldl (fun hash item => hash * 1000003 + item) 0

end Transfer

end SpscQueue
