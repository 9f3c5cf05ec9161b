import SpscQueue.Queue.Basic

namespace SpscQueue

universe u

variable {α : Type u}

/-- Where a waiting call stands still and the other party may act: in a round of spinning, counted
from one, in its sleep, or parked until it is signalled. -/
inductive Pause
  | snooze (round : Nat)
  | sleep
  | park
deriving DecidableEq, Repr

/-- How far a call has got with its waiting: it can move on, the other party is gone for good, or it
pauses. -/
inductive Wait
  | ready
  | gone
  | pausing (pause : Pause)
deriving DecidableEq, Repr

/-- What a waiting call has done when it next stops. -/
structure Stretch (α : Type u) where
  queue : Queue α
  events : List Event
  wait : Wait

namespace Queue

/-- The step of the other party that a party about to park asks to be woken for. The consumer asks
for the very next item. The producer waits until a quarter of what it last saw in the queue is gone,
but at least one item. -/
def threshold (q : Queue α) : Role → Index
  | .producer =>
    let seen := q.producer.cursor.seen
    let quarter := seen.gap q.producer.cursor.position / 4
    if quarter = 0 then seen else seen + (quarter - 1)
  | .consumer => q.consumer.cursor.position

/-- Asks to be woken, on the other party's signpost. -/
def watch (q : Queue α) (threshold : Index) : Role → Queue α
  | .producer => { q with consumer.post := q.consumer.post.watch threshold }
  | .consumer => { q with producer.post := q.producer.post.watch threshold }

/-- What is logged when a party parks: its position, what it last saw, and what it asked for. -/
def parkingEvent (q : Queue α) (threshold : Index) : Role → Event
  | .producer => .producerParking q.producer.cursor.position q.producer.cursor.seen threshold
  | .consumer => .consumerParking q.consumer.cursor.position threshold

/-- Uses up the signal of a party. -/
def hush (q : Queue α) : Role → Queue α
  | .producer => { q with producer.signal := .quiet }
  | .consumer => { q with consumer.signal := .quiet }

/-- The end of the wait for a peer that is gone. The producer gives up. The consumer looks once
more, for what its peer showed before it left. -/
def lastLook (q : Queue α) : Role → Stretch α
  | .producer => ⟨q, [.abandoned (q.position .producer)], .gone⟩
  | .consumer =>
    let last := q.refresh .consumer
    if last.ready .consumer then ⟨last, [], .ready⟩
    else ⟨last, [.drained (q.position .consumer)], .gone⟩

/-- The first pause of a round of waiting. -/
def firstPause (q : Queue α) : Pause := if q.snoozeRounds = 0 then .sleep else .snooze 1

/-- The start of a round of waiting, after a look that found the party unable to move on. -/
def beginRound (q : Queue α) (role : Role) : Stretch α :=
  if q.closed role.peer then q.lastLook role else ⟨q, [], .pausing q.firstPause⟩

/-- The step from the sleep to the park. The party asks to be woken, the producer shows its deferred
items, for it must not wait for a consumer that waits for them, and only a look made after that
may find it still unable to move on. -/
def enrol (q : Queue α) (role : Role) : Stretch α :=
  let threshold := q.threshold role
  let asked := q.watch threshold role
  let shown := match role with
    | .producer => asked.flush
    | .consumer => asked
  let looked := shown.refresh role
  if looked.ready role then ⟨looked, [], .ready⟩
  else ⟨looked, [q.parkingEvent threshold role], .pausing .park⟩

/-- Goes on waiting from a pause up to the next stop. -/
def resume (q : Queue α) (role : Role) : Pause → Stretch α
  | .snooze round =>
    let looked := q.look role
    if looked.ready role then ⟨looked, [], .ready⟩
    else ⟨looked, [], .pausing (if round < q.snoozeRounds then .snooze (round + 1) else .sleep)⟩
  | .sleep =>
    let looked := q.look role
    if looked.ready role then ⟨looked, [], .ready⟩ else looked.enrol role
  | .park =>
    let woke := Event.woke role (q.position role)
    let looked := (q.hush role).look role
    if looked.ready role then ⟨looked, [woke], .ready⟩
    else
      let round := looked.beginRound role
      { round with events := woke :: round.events }

/-- Begins a wait: a look, and a round of waiting if that was not enough. -/
def await (q : Queue α) (role : Role) : Stretch α :=
  let looked := q.look role
  if looked.ready role then ⟨looked, [], .ready⟩ else looked.beginRound role

end Queue

end SpscQueue
