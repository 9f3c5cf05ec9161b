import SpscQueue.Queue.Call

namespace SpscQueue

universe u

variable {α : Type u}

/-- A call that pauses. -/
structure Paused (α : Type u) (role : Role) where
  call : Call α role
  pause : Pause

/-- A queue in use: each party is at rest or in the middle of a call. -/
structure Exchange (α : Type u) where
  queue : Queue α
  pushing : Option (Paused α .producer)
  popping : Option (Paused α .consumer)

/-- What one party has done when it next stops. It has no outcome as long as its call pauses. -/
structure Advance (α : Type u) where
  exchange : Exchange α
  events : List Event
  outcome : Option (Outcome α)

namespace Exchange

def ofQueue (queue : Queue α) : Exchange α := ⟨queue, none, none⟩

/-- The call that a party is in the middle of. -/
def current (x : Exchange α) : (role : Role) → Option (Paused α role)
  | .producer => x.pushing
  | .consumer => x.popping

def withCurrent (x : Exchange α) : {role : Role} → Option (Paused α role) → Exchange α
  | .producer, pushing => { x with pushing }
  | .consumer, popping => { x with popping }

def busy (x : Exchange α) (role : Role) : Bool := (x.current role).isSome

/-- Where the call of a party pauses, if it is in the middle of one. -/
def pauseOf (x : Exchange α) (role : Role) : Option Pause := (x.current role).map Paused.pause

def parked (x : Exchange α) (role : Role) : Bool := x.pauseOf role == some .park

/-- A parked party goes on once it is signalled. -/
def resumable (x : Exchange α) (role : Role) : Bool := x.parked role && x.queue.signalled role

/-- Carries a call to its outcome, or into the pause that its wait has reached. -/
def arrive {role : Role} (x : Exchange α) (call : Call α role) (stretch : Stretch α) : Advance α :=
  match stretch.wait with
  | .ready =>
    let (queue, outcome) := call.finish stretch.queue
    ⟨{ x with queue }.withCurrent (none : Option (Paused α role)), stretch.events, some outcome⟩
  | .gone =>
    ⟨{ x with queue := stretch.queue }.withCurrent (none : Option (Paused α role)), stretch.events,
      some call.giveUp⟩
  | .pausing pause =>
    ⟨{ x with queue := stretch.queue }.withCurrent (some ⟨call, pause⟩), stretch.events, none⟩

/-- A party at rest begins a call and takes it up to the first stop. -/
def start {role : Role} (x : Exchange α) (call : Call α role) : Advance α :=
  x.arrive call ((call.prepare x.queue).await role)

/-- A party goes on with its call from a pause up to the next stop. -/
def proceed (x : Exchange α) (role : Role) : Advance α :=
  match x.current role with
  | none => ⟨x, [], none⟩
  | some paused => x.arrive paused.call (x.queue.resume role paused.pause)

/-- Lets the time up to a later pause of the same round of waiting go by. It is for a party whose
peer does nothing meanwhile, so that each look on the way would see what the last one saw. -/
def passTo (x : Exchange α) (role : Role) (pause : Pause) : Exchange α :=
  match x.current role with
  | none => x
  | some paused => x.withCurrent (some { paused with pause })

theorem withCurrent_queue {role : Role} (x : Exchange α) (paused : Option (Paused α role)) :
    (x.withCurrent paused).queue = x.queue := by
  cases role <;> rfl

/-- A round of spinning in which there is nothing new to see does nothing but pass. -/
theorem proceed_snooze {role : Role} {x : Exchange α} {call : Call α role} {round : Nat}
    (paused : x.current role = some ⟨call, .snooze round⟩)
    (stale : x.queue.look role = x.queue) (short : x.queue.ready role = false) :
    x.proceed role =
      ⟨x.passTo role (if round < x.queue.snoozeRounds then .snooze (round + 1) else .sleep), [],
        none⟩ := by
  have waits : x.queue.resume role (.snooze round) =
      ⟨x.queue, [],
        .pausing (if round < x.queue.snoozeRounds then .snooze (round + 1) else .sleep)⟩ := by
    simp only [Queue.resume, stale, short, Bool.false_eq_true, if_false]
  simp only [proceed, passTo, paused, waits, arrive]

end Exchange

end SpscQueue
