import SpscQueue.Event
import SpscQueue.Ring
import SpscQueue.Settings
import SpscQueue.Side.Basic
import SpscQueue.Wakeups

namespace SpscQueue

universe u

variable {α : Type u}

/-- A bounded queue between one producer and one consumer. Items leave in the order in which they
came, and at most `capacity` of them are inside at a time. -/
structure Queue (α : Type u) where
  capacity : UInt64
  snoozeRounds : Nat
  lookup : Lookup
  ring : Ring α
  producer : Side
  consumer : Side

namespace Queue

/-- A new queue with both parties at the start index. -/
def ofSettings (settings : Settings) : Except CapacityError (Queue α) :=
  (Ring.ofCapacity settings.capacity settings.itemSize).map fun ring =>
    { capacity := settings.capacity.toUInt64
      snoozeRounds := settings.snoozeRounds
      lookup := settings.lookup
      ring
      producer := .ofStart settings.startIndex
      consumer := .ofStart settings.startIndex }

def side (q : Queue α) : Role → Side
  | .producer => q.producer
  | .consumer => q.consumer

/-- Whether the handle of a party is gone. -/
def closed (q : Queue α) (role : Role) : Bool := (q.side role).closed

def position (q : Queue α) (role : Role) : Index := (q.side role).cursor.position

def signalled (q : Queue α) (role : Role) : Bool := (q.side role).signal.pending

/-- The queue after a party has shown the other one all its steps. -/
def publish (q : Queue α) : Role → Queue α
  | .producer =>
    let (producer, consumer) := q.producer.publish q.consumer
    { q with producer, consumer }
  | .consumer =>
    let (consumer, producer) := q.consumer.publish q.producer
    { q with producer, consumer }

/-- The queue after a party has looked at the other one's signpost. -/
def refresh (q : Queue α) : Role → Queue α
  | .producer => { q with producer.cursor := q.producer.cursor.refresh q.consumer.post }
  | .consumer => { q with consumer.cursor := q.consumer.cursor.refresh q.producer.post }

/-- Whether a party can move on by what it saw last: the producer needs one free place, the consumer
one item. -/
def ready (q : Queue α) : Role → Bool
  | .producer => q.producer.cursor.seen.gap q.producer.cursor.position ≤ q.capacity - 1
  | .consumer => 1 ≤ q.consumer.cursor.position.gap q.consumer.cursor.seen

/-- The queue after a party has checked whether it can move on. `ready` tells the outcome. -/
def look (q : Queue α) (role : Role) : Queue α :=
  match q.lookup with
  | .whenShort => if q.ready role then q else q.refresh role
  | .always => q.refresh role

/-- The items that the producer has put in and the consumer has not taken out. -/
def inFlight (q : Queue α) : UInt64 := q.consumer.post.index.gap q.producer.cursor.position

/-- The items that wait for the consumer. Deferred ones are not among them. -/
def waiting (q : Queue α) : UInt64 := q.consumer.cursor.position.gap q.producer.post.index

/-- The length that a party sees. -/
def length (q : Queue α) : Role → UInt64
  | .producer => q.inFlight
  | .consumer => q.waiting

/-- The length an onlooker computes who reads the producer's index `tail` first and the consumer's
index `head` some time later, when the consumer may have gone past `tail`. -/
def lengthBetween (tail head : Index) : UInt64 := if tail.behind head then 0 else head.gap tail

/-- The length that an onlooker sees while both parties stand still. -/
def visibleLength (q : Queue α) : UInt64 := lengthBetween q.producer.post.index q.consumer.post.index

/-- A party is woken by the steps of the other one, so its count stands on the other signpost. -/
def wakeups (q : Queue α) : Wakeups := ⟨q.consumer.post.wakeups, q.producer.post.wakeups⟩

/-- Shows the consumer all deferred items. -/
def flush (q : Queue α) : Queue α := q.publish .producer

/-- Ends a handle. The producer shows its deferred items first, and the other party is woken so that
it learns about the end. -/
def close (q : Queue α) : Role → Queue α × Event
  | .producer =>
    let q := q.flush
    ({ q with producer.closed := true, consumer.signal := q.consumer.signal.raise },
      .closed .producer (q.position .producer))
  | .consumer =>
    ({ q with consumer.closed := true, producer.signal := q.producer.signal.raise },
      .closed .consumer (q.position .consumer))

/-- Gives up the storage and lists the items left in it, in order. -/
def release (q : Queue α) : List α × Queue α :=
  let (items, ring) := q.ring.discardRange q.consumer.post.index q.producer.post.index
  (items, { q with ring })

end Queue

end SpscQueue
