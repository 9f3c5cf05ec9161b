import SpscQueue.Session.Perform

namespace SpscQueue

universe u

variable {α : Type u}

namespace Session

/-- The parked party to go on next. The producer comes first. -/
def nextResumable (s : Session α) : Option Role :=
  if s.exchange.resumable .producer then some .producer
  else if s.exchange.resumable .consumer then some .consumer
  else none

/-- A parked call goes on until it ends or parks again, with nothing else happening meanwhile. -/
def resume (s : Session α) (role : Role) : Session α × Resumption α :=
  let carried := s.carry role (fun _ s => (s, none)) [.sleep] (s.exchange.proceed role)
  (carried.session, ⟨role, carried.result, carried.events⟩)

/-- A bound on the resumptions to come. Each uses up a signal. It may raise another one only by
showing items, which it either deferred before or takes out of a call that ends. -/
def unrest (s : Session α) : Nat :=
  let count (role : Role) : Nat :=
    6 * (s.exchange.parked role).toNat +
    3 * (decide ((s.queue.side role).cursor.published ≠ s.queue.position role)).toNat +
    (s.queue.signalled role).toNat
  count .producer + count .consumer

/-- Lets parked parties go on as long as one is signalled. -/
def settleWithin : Nat → Session α → Session α × List (Resumption α)
  | 0, s => (s, [])
  | bound + 1, s =>
    match s.nextResumable with
    | none => (s, [])
    | some role =>
      let (s, resumption) := s.resume role
      let (s, resumptions) := settleWithin bound s
      (s, resumption :: resumptions)

/-- What follows a step: parked parties go on unless they are held back. -/
def settle (s : Session α) : Session α × List (Resumption α) :=
  if s.held then (s, []) else s.settleWithin s.unrest

/-- Gives the storage up if nobody holds it any longer. -/
def releaseStorage (s : Session α) : Session α × List α :=
  if s.owned then (s, [])
  else
    let (items, queue) := s.queue.release
    (s.withQueue queue, items)

/-- One step with all that follows from it. -/
def step (s : Session α) (step : Step α) : Session α × Answer α :=
  let (performed, report) := perform step s
  let (settled, resumptions) := performed.settle
  let (final, dropped) := if s.owned then settled.releaseStorage else (settled, [])
  (final, ⟨report, resumptions, dropped, final.status⟩)

def steps (s : Session α) : List (Step α) → Session α × List (Answer α)
  | [] => (s, [])
  | next :: rest =>
    let (s, answer) := s.step next
    let (s, answers) := s.steps rest
    (s, answer :: answers)

/-- The handles that are left, in the order in which they can be closed: a parked producer has to wait
for the end of the consumer. -/
def closingOrder (s : Session α) : List Role :=
  let order := if s.exchange.parked .producer then [.consumer, .producer] else [.producer, .consumer]
  order.filter fun role => !s.queue.closed role

/-- Brings a session to its end: nothing is held back any longer, the handles are closed, and then
the monitors by ascending number. -/
def tearDown (s : Session α) : Session α × List (Answer α) :=
  let (freed, first) := s.steps (if s.held then [.release] else [])
  let (closed, second) := freed.steps (freed.closingOrder.map .close)
  let (final, third) := closed.steps (closed.monitors.map .closeMonitor)
  (final, first ++ second ++ third)

end Session

/-- The answers to the steps of a whole session and to its tear-down. -/
structure Transcript (α : Type u) where
  steps : List (Answer α)
  closing : List (Answer α)

namespace Transcript

/-- Runs a session from a fresh queue to its tear-down. -/
def ofSteps (settings : Settings) (steps : List (Step α)) :
    Except CapacityError (Transcript α) :=
  (Session.ofSettings settings).map fun fresh =>
    let (s, answers) := fresh.steps steps
    ⟨answers, s.tearDown.2⟩

def answers (t : Transcript α) : List (Answer α) := t.steps ++ t.closing

def results (t : Transcript α) : List (Result α) := t.answers.flatMap (·.results)

/-- The items that were put into the queue, in order. -/
def accepted (t : Transcript α) : List α := t.results.filterMap (·.accepted)

/-- The items that were taken out of the queue, in order. -/
def delivered (t : Transcript α) : List α := t.results.flatMap (·.delivered)

/-- The items that were given up with the storage of the queue, in order. -/
def dropped (t : Transcript α) : List α := t.answers.flatMap (·.dropped)

end Transcript

end SpscQueue
