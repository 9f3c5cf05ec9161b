import SpscQueue.Capacity
import SpscQueue.Index

namespace SpscQueue

/-- When a party looks at the other one's signpost. What it saw last is a safe answer as long as
it says that there is room or that there are items, so looking only then is enough. -/
inductive Lookup
  | whenShort
  | always
deriving DecidableEq, Repr

/-- The settings of a queue. An item takes up `itemSize` bytes, which is nothing for some types. -/
structure Settings where
  capacity : Nat
  capacity_pos : 0 < capacity
  snoozeRounds : Nat
  sleepNanos : Nat
  startIndex : Index
  lookup : Lookup
  itemSize : Nat
deriving DecidableEq, Repr

namespace Settings

def defaultSnoozeRounds : Nat := 0

def defaultSleepNanos : Nat := 1000

/-- The default settings for a capacity, which has to be positive. -/
def ofCapacity (capacity : Nat) : Except CapacityError Settings :=
  if zero : capacity = 0 then .error .zero
  else .ok ⟨capacity, Nat.pos_of_ne_zero zero, defaultSnoozeRounds, defaultSleepNanos, 0, .whenShort,
    defaultItemSize⟩

/-- Before it goes to sleep, a blocked call spins for this many rounds. -/
def withSnoozeRounds (c : Settings) (rounds : Nat) : Settings := { c with snoozeRounds := rounds }

/-- A blocked call sleeps this long before it parks. -/
def withSleep (c : Settings) (seconds nanos : Nat) : Settings :=
  { c with sleepNanos := seconds * 1000000000 + nanos }

def withStartIndex (c : Settings) (start : Index) : Settings := { c with startIndex := start }

def withLookup (c : Settings) (lookup : Lookup) : Settings := { c with lookup }

/-- The whole seconds of the sleep and the nanoseconds beyond them. -/
def sleepParts (c : Settings) : Nat × Nat := (c.sleepNanos / 1000000000, c.sleepNanos % 1000000000)

end Settings

end SpscQueue
