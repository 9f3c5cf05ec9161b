import SpscQueue.Exchange
import SpscQueue.Session.Answer

namespace SpscQueue

universe u

variable {α : Type u}

/-- A queue whose two parties are led step by step, with the items collected by batches, the monitors
by ascending number, and whether parked calls are held back even if they are signalled. -/
structure Session (α : Type u) where
  exchange : Exchange α
  collected : List α
  monitors : List Nat
  held : Bool

namespace Session

def ofSettings (settings : Settings) : Except CapacityError (Session α) :=
  (Queue.ofSettings settings).map fun queue => ⟨.ofQueue queue, [], [], false⟩

def queue (s : Session α) : Queue α := s.exchange.queue

def withQueue (s : Session α) (queue : Queue α) : Session α :=
  { s with exchange.queue := queue }

/-- What a step on a handle answers if the handle cannot be used now. -/
def obstacle (s : Session α) (role : Role) : Option (Result α) :=
  if s.queue.closed role then some .gone
  else if s.exchange.busy role then some .busy
  else none

/-- A report on a step that logs nothing. -/
def plain (result : Result α) : Report α := .mk result [] .nothing

/-- Does something with a handle at rest. -/
def withHandle (s : Session α) (role : Role) (use : Session α → Session α × Report α) :
    Session α × Report α :=
  match s.obstacle role with
  | some result => (s, plain result)
  | none => use s

def handleInfo (s : Session α) (role : Role) : HandleInfo :=
  { length := s.queue.length role
    capacity := s.queue.capacity
    slots := s.queue.ring.size
    disconnected := s.queue.closed role.peer
    wakeups := s.queue.wakeups }

def monitorInfo (s : Session α) : MonitorInfo :=
  { length := s.queue.visibleLength
    capacity := s.queue.capacity
    disconnected := s.queue.closed .producer || s.queue.closed .consumer
    wakeups := s.queue.wakeups }

def describe (s : Session α) (role : Role) : Description :=
  let q := s.queue
  match role with
  | .producer =>
    .producer q.capacity (q.position role) q.producer.cursor.deferred (q.closed role.peer)
  | .consumer => .consumer q.capacity (q.position role) (q.closed role.peer)

def describeMonitor (s : Session α) : Description :=
  .monitor s.queue.visibleLength s.queue.capacity s.queue.wakeups

def standing (s : Session α) (role : Role) : Standing :=
  if s.queue.closed role then .gone
  else if s.exchange.busy role then .busy
  else .length (s.queue.length role)

def status (s : Session α) : Status :=
  { producer := s.standing .producer
    consumer := s.standing .consumer
    wakeups :=
      if (s.obstacle .producer).isNone || (s.obstacle .consumer).isNone then some s.queue.wakeups
      else none }

/-- Whether somebody still holds the storage of the queue. -/
def owned (s : Session α) : Bool :=
  !s.queue.closed .producer || !s.queue.closed .consumer || !s.monitors.isEmpty

end Session

end SpscQueue
