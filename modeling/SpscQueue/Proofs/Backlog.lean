import Mathlib.Logic.Function.Basic
import SpscQueue.Proofs.Schedule

namespace SpscQueue

universe u

variable {α : Type u}

/-- A bounded queue as its users picture it: the items inside, oldest first, of which the consumer is
shown a first part and the rest is deferred, the parties that are gone, and the calls that wait. -/
structure Backlog (α : Type u) where
  capacity : Nat
  snoozeRounds : Nat
  shown : List α
  deferred : List α
  gone : Role → Bool
  current : (role : Role) → Option (Paused α role)

namespace Backlog

def ofSettings (settings : Settings) : Backlog α :=
  ⟨settings.capacity, settings.snoozeRounds, [], [], fun _ => false, fun _ => none⟩

def items (b : Backlog α) : List α := b.shown ++ b.deferred

def full (b : Backlog α) : Bool := b.items.length == b.capacity

def parked (b : Backlog α) (role : Role) : Bool :=
  (b.current role).map Paused.pause == some .park

/-- Whether the consumer is parked and nothing has been shown to it since. It has asked for the very
next item, so that one must not be deferred. -/
def awaited (b : Backlog α) : Bool := b.parked .consumer && b.shown.isEmpty

def showAll (b : Backlog α) : Backlog α := { b with shown := b.items, deferred := [] }

/-- Before the producer leaves or parks it shows everything. The consumer has nothing to show. -/
def showOwn (b : Backlog α) : Role → Backlog α
  | .producer => b.showAll
  | .consumer => b

def append (b : Backlog α) (item : α) (force : Bool) : Backlog α :=
  let longer := { b with deferred := b.deferred ++ [item] }
  if force || b.awaited then longer.showAll else longer

def close (b : Backlog α) (role : Role) : Backlog α :=
  { b.showOwn role with gone := Function.update b.gone role true }

def withCurrent (b : Backlog α) {role : Role} (paused : Option (Paused α role)) : Backlog α :=
  { b with current := Function.update b.current role paused }

/-- The work of a call, unless it has to wait. A push waits for a free place, a pop for an item that is
shown. -/
def attempt (b : Backlog α) {role : Role} : Call α role → Option (Backlog α × Result α)
  | .push item force =>
    if b.full then none else some (b.append item force, .push (.accepted item))
  | .pop =>
    match b.shown with
    | [] => none
    | item :: rest => some ({ b with shown := rest }, .pop (.ok item))
  | .popBatch =>
    match b.shown with
    | [] => none
    | item :: rest => some ({ b with shown := [] }, .popBatch (.ok ⟨[], item :: rest⟩))

/-- The first stop of a round of waiting. There is none if the peer is gone. -/
def firstStop (b : Backlog α) (role : Role) : Option Pause :=
  if b.gone role.peer then none else some (if b.snoozeRounds = 0 then .sleep else .snooze 1)

/-- The stop after a pause. -/
def nextStop (b : Backlog α) (role : Role) : Pause → Option Pause
  | .snooze round => some (if round < b.snoozeRounds then .snooze (round + 1) else .sleep)
  | .sleep => some .park
  | .park => b.firstStop role

/-- A call does its work. If it has to wait it pauses at the given stop, or it gives up if there is
none. -/
def carryOn (b : Backlog α) {role : Role} (call : Call α role) (stop : Option Pause) :
    Backlog α × Option (Result α) :=
  match b.attempt call with
  | some (next, result) => (next.withCurrent (none : Option (Paused α role)), some result)
  | none =>
    match stop with
    | none => (b.withCurrent (none : Option (Paused α role)), some call.giveUp.result)
    | some .park => ((b.showOwn role).withCurrent (some ⟨call, .park⟩), some .parked)
    | some pause => (b.withCurrent (some ⟨call, pause⟩), none)

def tryPush (b : Backlog α) (item : α) : Backlog α × Admission α :=
  if b.gone .consumer then (b, .refused item .disconnected)
  else if b.full then (b, .refused item .full)
  else (b.append item true, .accepted item)

def tryPop (b : Backlog α) : Backlog α × Except PopFailure α :=
  match b.shown with
  | item :: rest => ({ b with shown := rest }, .ok item)
  | [] => (b, .error (if b.gone .producer then .disconnected else .empty))

/-- Whether what a parked party waits for has come: an item that is shown to the consumer, or a quarter
of the places for the producer, but at least one. -/
def due (b : Backlog α) : Role → Bool
  | .producer => decide (b.items.length + max 1 (b.capacity / 4) ≤ b.capacity)
  | .consumer => !b.shown.isEmpty

def rouses (b : Backlog α) (role : Role) : Bool := b.gone role.peer || b.due role

/-- The items that a party sees in the queue. -/
def length (b : Backlog α) : Role → Nat
  | .producer => b.items.length
  | .consumer => b.shown.length

def allows (b : Backlog α) : Move α → Bool
  | .proceed role => (b.current role).isSome && (!b.parked role || b.rouses role)
  | move => !b.gone move.role && !(b.current move.role).isSome

/-- How a handle stands, as far as the backlog tells. -/
def standing (b : Backlog α) (role : Role) : Standing :=
  if b.gone role then .gone
  else if (b.current role).isSome then .busy
  else .length (UInt64.ofNat (b.length role))

/-- What an inspection of a handle answers. The number of slots and the counts of the wakeups are not told
by the backlog. -/
def inspect (b : Backlog α) (role : Role) (slots : Nat) (wakeups : Wakeups) : Result α :=
  if b.gone role then .gone
  else if (b.current role).isSome then .busy
  else
    .handle
      { length := UInt64.ofNat (b.length role)
        capacity := UInt64.ofNat b.capacity
        slots
        disconnected := b.gone role.peer
        wakeups }

/-- What an inspection of a monitor answers. An onlooker sees the items that the consumer sees. -/
def inspectMonitor (b : Backlog α) (wakeups : Wakeups) : Result α :=
  .monitor
    { length := UInt64.ofNat (b.length .consumer)
      capacity := UInt64.ofNat b.capacity
      disconnected := b.gone .producer || b.gone .consumer
      wakeups }

/-- What a move brings about: the backlog after it and its result, if it has one. -/
def play (b : Backlog α) : Move α → Backlog α × Option (Result α)
  | .start role call => b.carryOn call (b.firstStop role)
  | .proceed role =>
    match b.current role with
    | none => (b, none)
    | some paused => b.carryOn paused.call (b.nextStop role paused.pause)
  | .tryPush item => ((b.tryPush item).1, some (.tryPush (b.tryPush item).2))
  | .tryPop => (b.tryPop.1, some (.tryPop b.tryPop.2))
  | .flush => (b.showAll, none)
  | .close role => (b.close role, none)

/-- Makes some moves one after the other. All of them have to be allowed. -/
def run (b : Backlog α) : List (Move α) → Option (Backlog α × List (Result α))
  | [] => some (b, [])
  | move :: moves =>
    if b.allows move then
      ((b.play move).1.run moves).map fun (last, results) =>
        (last, (b.play move).2.toList ++ results)
    else none

end Backlog

end SpscQueue
