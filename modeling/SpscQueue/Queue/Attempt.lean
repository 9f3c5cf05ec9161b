import SpscQueue.Failure
import SpscQueue.Queue.Basic

namespace SpscQueue

universe u

variable {α : Type u}

namespace Queue

/-- Puts an item into the place at the producer's position. All items are shown at once if that is
forced or if the consumer asked for one of them, and otherwise this one is deferred. -/
def append? (q : Queue α) (item : α) (force : Bool) : Option (Queue α) :=
  (q.ring.write? q.producer.cursor.position item).map fun ring =>
    let written := { q with ring, producer.cursor := q.producer.cursor.advance 1 }
    if force || written.producer.owesWakeup then written.publish .producer else written

/-- Takes out the item at the consumer's position. -/
def take? (q : Queue α) : Option (α × Queue α) :=
  (q.ring.read? q.consumer.cursor.position).map fun (item, ring) =>
    (item, { q with ring, consumer.cursor := q.consumer.cursor.advance 1 }.publish .consumer)

/-- The items that wait for the consumer by what it saw last. -/
def known (q : Queue α) : UInt64 := q.consumer.cursor.position.gap q.consumer.cursor.seen

/-- Takes out all items that the consumer knows of. -/
def takeKnown? (q : Queue α) : Option (List α × Queue α) :=
  (Ring.readMany? q.known.toNat q.consumer.cursor.position q.ring).map fun (items, ring) =>
    (items, { q with ring, consumer.cursor := q.consumer.cursor.advance q.known }.publish .consumer)

/-- The end of a push, once there is known to be room. -/
def accept (q : Queue α) (item : α) (force : Bool) : Queue α × Admission α :=
  match q.append? item force with
  | some pushed => (pushed, .accepted item)
  | none => (q, .refused item .occupied)

/-- Puts an item in if there is room right now. -/
def tryPush (q : Queue α) (item : α) : Queue α × Admission α :=
  if q.closed .consumer then (q, .refused item .disconnected)
  else
    let looked := q.look .producer
    if looked.ready .producer then looked.accept item true else (looked, .refused item .full)

/-- The end of a pop, once there is known to be an item. -/
def deliver (q : Queue α) : Queue α × Except PopFailure α :=
  match q.take? with
  | some (item, popped) => (popped, .ok item)
  | none => (q, .error .vacant)

/-- The end of a batch, once there is known to be an item. -/
def deliverKnown (q : Queue α) : Queue α × Except PopFailure (List α) :=
  match q.takeKnown? with
  | some (items, popped) => (popped, .ok items)
  | none => (q, .error .vacant)

/-- Takes an item out if one is there right now. After the producer's end one more look finds
everything that there will ever be. -/
def tryPop (q : Queue α) : Queue α × Except PopFailure α :=
  let looked := q.look .consumer
  if looked.ready .consumer then looked.deliver
  else if looked.closed .producer then
    let last := looked.refresh .consumer
    if last.ready .consumer then last.deliver else (last, .error .disconnected)
  else (looked, .error .empty)

end Queue

end SpscQueue
