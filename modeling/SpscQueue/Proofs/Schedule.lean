import SpscQueue.Session.Answer
import SpscQueue.Exchange

namespace SpscQueue

universe u

variable {α : Type u}

theorem Role.peer_peer (role : Role) : role.peer.peer = role := by cases role <;> rfl

theorem Role.eq_or_eq_peer (role other : Role) : other = role ∨ other = role.peer := by
  cases role <;> cases other <;> decide

/-- What a party can do next. A call is begun, and carried on from each of its pauses, by a move of
its own, so that moves of the other party may fall in between. -/
inductive Move (α : Type u)
  | start (role : Role) (call : Call α role)
  | proceed (role : Role)
  | tryPush (item : α)
  | tryPop
  | flush
  | close (role : Role)

namespace Move

/-- The party whose move it is. -/
def role : Move α → Role
  | start role _ => role
  | proceed role => role
  | tryPush _ => .producer
  | tryPop => .consumer
  | flush => .producer
  | close role => role

end Move

/-- The result that tells how a call ended. -/
def Outcome.result : Outcome α → Result α
  | push result => .push result
  | pop result => .pop result
  | popBatch (.ok items) => .popBatch (.ok ⟨[], items⟩)
  | popBatch (.error failure) => .popBatch (.error failure)

/-- What a move brings about. There is no result as long as a call pauses short of its park. -/
structure Turn (α : Type u) where
  exchange : Exchange α
  events : List Event
  result : Option (Result α)

namespace Turn

def accepted (t : Turn α) : List α := t.result.toList.filterMap Result.accepted

def delivered (t : Turn α) : List α := t.result.toList.flatMap Result.delivered

end Turn

/-- What one stretch of a call of a party brings about. -/
def Advance.turn (a : Advance α) (role : Role) : Turn α :=
  ⟨a.exchange, a.events,
    match a.outcome with
    | some outcome => some outcome.result
    | none => if a.exchange.parked role then some .parked else none⟩

namespace Exchange

/-- Whether the handle of a party is there and not in the middle of a call. -/
def atRest (x : Exchange α) (role : Role) : Bool := !x.queue.closed role && !x.busy role

/-- Whether a party can go on with its call. Once parked it waits for its signal. -/
def mayProceed (x : Exchange α) (role : Role) : Bool :=
  x.busy role && (!x.parked role || x.queue.signalled role)

def allows (x : Exchange α) : Move α → Bool
  | .proceed role => x.mayProceed role
  | move => x.atRest move.role

def play (x : Exchange α) : Move α → Turn α
  | .start role call => (x.start call).turn role
  | .proceed role => (x.proceed role).turn role
  | .tryPush item =>
    ⟨{ x with queue := (x.queue.tryPush item).1 }, [], some (.tryPush (x.queue.tryPush item).2)⟩
  | .tryPop => ⟨{ x with queue := x.queue.tryPop.1 }, [], some (.tryPop x.queue.tryPop.2)⟩
  | .flush => ⟨{ x with queue := x.queue.flush }, [], none⟩
  | .close role => ⟨{ x with queue := (x.queue.close role).1 }, [(x.queue.close role).2], none⟩

/-- `x.Runs moves results y` says that from `x` the given moves can be made, one after the other, that
they lead to `y`, and which results they have. Whose move is next is open. -/
inductive Runs : Exchange α → List (Move α) → List (Result α) → Exchange α → Prop
  | rest (x : Exchange α) : Runs x [] [] x
  | next {x y : Exchange α} {move : Move α} {moves : List (Move α)} {results : List (Result α)} :
      x.allows move = true → Runs (x.play move).exchange moves results y →
      Runs x (move :: moves) ((x.play move).result.toList ++ results) y

section

variable {x : Exchange α} {role : Role}

theorem busy_iff : x.busy role = true ↔ ∃ paused, x.current role = some paused :=
  Option.isSome_iff_exists

theorem busy_eq_false_iff : x.busy role = false ↔ x.current role = none :=
  Option.isSome_eq_false_iff.trans Option.isNone_iff_eq_none

theorem parked_iff : x.parked role = true ↔ ∃ call, x.current role = some ⟨call, .park⟩ := by
  unfold parked pauseOf
  cases x.current role with
  | none => simp
  | some paused =>
    obtain ⟨call, pause⟩ := paused
    simp only [Option.map_some, beq_iff_eq, Option.some.injEq, Paused.mk.injEq]
    constructor
    · rintro rfl
      exact ⟨call, rfl, rfl⟩
    · rintro ⟨_, _, parks⟩
      exact parks

theorem busy_of_parked (parked : x.parked role = true) : x.busy role = true := by
  obtain ⟨call, paused⟩ := parked_iff.mp parked
  exact busy_iff.mpr ⟨_, paused⟩

theorem parked_of_idle (idle : x.current role = none) : x.parked role = false := by
  unfold parked pauseOf
  rw [idle]
  rfl

@[simp]
theorem current_withCurrent_self (paused : Option (Paused α role)) :
    (x.withCurrent paused).current role = paused := by
  cases role <;> rfl

@[simp]
theorem current_withCurrent_peer (paused : Option (Paused α role)) :
    (x.withCurrent paused).current role.peer = x.current role.peer := by
  cases role <;> rfl

theorem current_withQueue (queue : Queue α) : { x with queue }.current role = x.current role := by
  cases role <;> rfl

theorem atRest_iff : x.atRest role = true ↔ x.queue.closed role = false ∧ x.current role = none := by
  rw [atRest, Bool.and_eq_true, Bool.not_eq_true', Bool.not_eq_true', busy_eq_false_iff]

/-- A call that finds what it needs with its first look is done at once. -/
theorem start_ready (call : Call α role) (idle : x.current role = none)
    (ready : ((call.prepare x.queue).look role).ready role = true) :
    x.start call =
      ⟨{ x with queue := (call.finish ((call.prepare x.queue).look role)).1 }, [],
        some (call.finish ((call.prepare x.queue).look role)).2⟩ := by
  have still (queue : Queue α) :
      { x with queue }.withCurrent (none : Option (Paused α role)) = { x with queue } := by
    obtain ⟨_, pushing, popping⟩ := x
    cases role <;> cases idle <;> rfl
  simp only [start, Queue.await, if_pos ready, arrive, still]

end

namespace Runs

variable {x y z : Exchange α} {move : Move α} {moves more : List (Move α)}
  {results others : List (Result α)}

theorem single (allowed : x.allows move = true) :
    x.Runs [move] (x.play move).result.toList (x.play move).exchange := by
  have run := Runs.next allowed (.rest (x.play move).exchange)
  rwa [List.append_nil] at run

theorem append (first : x.Runs moves results y) (second : y.Runs more others z) :
    x.Runs (moves ++ more) (results ++ others) z := by
  induction first with
  | rest => exact second
  | next allowed _ ih =>
    rw [List.append_assoc]
    exact .next allowed (ih second)

end Runs

end Exchange

end SpscQueue
