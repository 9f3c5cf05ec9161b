import Mathlib.Logic.Function.Basic
import SpscQueue.Proofs.Schedule

namespace SpscQueue

universe u

variable {α : Type u} {role : Role}

/-! The parties of a queue share some words of memory: their signposts, the marks that their handles
are gone, and their signals. Here a party makes one access to them at a time, and anything may happen
between two accesses. -/

/-- What a party is after: a call that waits, or an attempt that does not. -/
inductive Aim (α : Type u) : Role → Type u
  | call {role : Role} (call : Call α role) : Aim α role
  | tryPush (item : α) : Aim α .producer
  | tryPop : Aim α .consumer

/-- Which look comes next: the first one, or the one after a round of spinning, after the sleep or
after the park. -/
inductive Check
  | first
  | spun (round : Nat)
  | slept
  | woken
deriving DecidableEq, Repr

/-- What a party goes on with once it has shown its steps. -/
inductive Goal (α : Type u) (role : Role) : Type u
  | rest (result : Option (Result α))
  | recheck (call : Call α role)
  | leave

/-- Where a party stands, by the access that it makes next. In between it keeps what it has loaded
and not used yet. -/
inductive Place (α : Type u) (role : Role) : Type u
  | rest
  | gone
  /-- loads the other index for a batch -/
  | glance (call : Call α role)
  /-- loads the other index if what was seen last is not enough -/
  | look (check : Check) (aim : Aim α role)
  /-- loads the mark of the other handle -/
  | ask (aim : Aim α role)
  /-- loads the other index once more, after the end of the other handle -/
  | lastLook (aim : Aim α role)
  /-- stores the step it asks for -/
  | enrol (call : Call α role)
  /-- loads the other index before it parks -/
  | recheck (call : Call α role)
  /-- waits for its signal, and uses it up -/
  | parked (call : Call α role)
  /-- moves items into the ring or out of it -/
  | move (aim : Aim α role)
  /-- loads the step that the other party asks for, to see if it is one not shown yet -/
  | peek (result : Result α)
  /-- stores its index -/
  | announce (goal : Goal α role)
  /-- loads the step that the other party asks for, after a move from `old` was shown -/
  | heed (old : Index) (goal : Goal α role)
  /-- loads the count of wakeups -/
  | tally (goal : Goal α role)
  /-- stores the count of wakeups -/
  | count (wakeups : UInt64) (goal : Goal α role)
  /-- raises the signal of the other party -/
  | rouse (goal : Goal α role)
  /-- stores the mark of its handle -/
  | shut
  /-- raises the signal of the other party for the last time -/
  | knock

/-- What one access of a party leads to. -/
structure Stride (α : Type u) (role : Role) where
  queue : Queue α
  place : Place α role
  result : Option (Result α)

namespace Queue

def withSide (q : Queue α) (role : Role) (side : Side) : Queue α :=
  match role with
  | .producer => { q with producer := side }
  | .consumer => { q with consumer := side }

/-- Raises the signal of a party. -/
def raise (q : Queue α) (role : Role) : Queue α :=
  q.withSide role { q.side role with signal := (q.side role).signal.raise }

/-- The producer puts its item into the ring. A forced one is shown at once, and otherwise it looks
whether the consumer asks for it. -/
def store (q : Queue α) (item : α) (force : Bool) (name : Admission α → Result α) :
    Stride α .producer :=
  match q.ring.write? q.producer.cursor.position item with
  | none => ⟨q, .rest, some (name (.refused item .occupied))⟩
  | some ring =>
    ⟨{ q with ring, producer.cursor := q.producer.cursor.advance 1 },
      if force then .announce (.rest (some (name (.accepted item)))) else .peek (name (.accepted item)),
      none⟩

/-- The consumer takes an item out of the ring. -/
def fetch (q : Queue α) (name : Except PopFailure α → Result α) : Stride α .consumer :=
  match q.ring.read? q.consumer.cursor.position with
  | none => ⟨q, .rest, some (name (.error .vacant))⟩
  | some (item, ring) =>
    ⟨{ q with ring, consumer.cursor := q.consumer.cursor.advance 1 },
      .announce (.rest (some (name (.ok item)))), none⟩

/-- The consumer takes all items that it knows of out of the ring. -/
def fetchKnown (q : Queue α) : Stride α .consumer :=
  match Ring.readMany? q.known.toNat q.consumer.cursor.position q.ring with
  | none => ⟨q, .rest, some (.popBatch (.error .vacant))⟩
  | some (items, ring) =>
    ⟨{ q with ring, consumer.cursor := q.consumer.cursor.advance q.known },
      .announce (.rest (some (.popBatch (.ok ⟨[], items⟩)))), none⟩

end Queue

namespace Aim

/-- How an attempt ends whose peer is gone for good. -/
def giveUp : Aim α role → Result α
  | call c => c.giveUp.result
  | tryPush item => .tryPush (.refused item .disconnected)
  | tryPop => .tryPop (.error .disconnected)

/-- What follows a look that was not enough. -/
def short (q : Queue α) : Check → Aim α role → Stride α role
  | _, tryPush item => ⟨q, .rest, some (.tryPush (.refused item .full))⟩
  | _, tryPop => ⟨q, .ask .tryPop, none⟩
  | .first, call c => ⟨q, .ask (.call c), none⟩
  | .spun round, call c =>
    ⟨q, .look (if round < q.snoozeRounds then .spun (round + 1) else .slept) (.call c), none⟩
  | .slept, call c => ⟨q, .enrol c, none⟩
  | .woken, call c => ⟨q, .ask (.call c), none⟩

/-- What follows the answer that the other handle is there. -/
def present (q : Queue α) : Aim α role → Stride α role
  | call c => ⟨q, .look (if q.snoozeRounds = 0 then .slept else .spun 1) (.call c), none⟩
  | tryPush item => ⟨q, .look .first (.tryPush item), none⟩
  | tryPop => ⟨q, .rest, some (.tryPop (.error .empty))⟩

/-- What follows the answer that the other handle is gone. A push fails at once, and a pop looks
once more. -/
def absent (q : Queue α) : {role : Role} → Aim α role → Stride α role
  | .producer, aim => ⟨q, .rest, some aim.giveUp⟩
  | .consumer, aim => ⟨q, .lastLook aim, none⟩

/-- What an attempt does in the ring once it can. -/
def act (q : Queue α) : Aim α role → Stride α role
  | call (.push item force) => q.store item force .push
  | call .pop => q.fetch .pop
  | call .popBatch => q.fetchKnown
  | tryPush item => q.store item true .tryPush
  | tryPop => q.fetch .tryPop

end Aim

/-- Goes on after the steps were shown. -/
def Goal.reach (q : Queue α) : Goal α role → Stride α role
  | rest result => ⟨q, .rest, result⟩
  | recheck call => ⟨q, .recheck call, none⟩
  | leave => ⟨q, .shut, none⟩

/-- What follows when a party has asked to be woken. Only the producer may have steps left to show. -/
def Place.afterEnrol : {role : Role} → Call α role → Place α role
  | .producer, call => .announce (.recheck call)
  | .consumer, call => .recheck call

/-- The next access of a party, unless it has nothing to do or waits for its signal. -/
def Place.stride (q : Queue α) {role : Role} : Place α role → Option (Stride α role)
  | rest => none
  | gone => none
  | glance call => some ⟨q.refresh role, .look .first (.call call), none⟩
  | look check aim =>
    let looked := q.look role
    some (if looked.ready role then ⟨looked, .move aim, none⟩ else aim.short looked check)
  | ask aim => some (if q.closed role.peer then aim.absent q else aim.present q)
  | lastLook aim =>
    let last := q.refresh role
    some (if last.ready role then ⟨last, .move aim, none⟩ else ⟨last, .rest, some aim.giveUp⟩)
  | enrol call => some ⟨q.watch (q.threshold role) role, .afterEnrol call, none⟩
  | recheck call =>
    let looked := q.refresh role
    some (if looked.ready role then ⟨looked, .move (.call call), none⟩
      else ⟨looked, .parked call, some .parked⟩)
  | parked call =>
    if q.signalled role then some ⟨q.hush role, .look .woken (.call call), none⟩ else none
  | move aim => some (aim.act q)
  | peek result =>
    some ⟨q, if (q.side role).owesWakeup then .announce (.rest (some result)) else .rest,
      if (q.side role).owesWakeup then none else some result⟩
  | announce goal =>
    let own := q.side role
    some (if own.cursor.published = own.cursor.position then goal.reach q
      else
        ⟨q.withSide role
            { own with
              cursor := { own.cursor with published := own.cursor.position }
              post := { own.post with index := own.cursor.position } },
          .heed own.cursor.published goal, none⟩)
  | heed old goal =>
    let own := q.side role
    some (if Index.passes old own.cursor.position own.post.threshold then ⟨q, .tally goal, none⟩
      else goal.reach q)
  | tally goal => some ⟨q, .count (q.side role).post.wakeups goal, none⟩
  | count wakeups goal =>
    some ⟨q.withSide role { q.side role with post.wakeups := wakeups + 1 }, .rouse goal, none⟩
  | rouse goal => some (goal.reach (q.raise role.peer))
  | shut => some ⟨q.withSide role { q.side role with closed := true }, .knock, none⟩
  | knock => some ⟨q.raise role.peer, .gone, none⟩

/-- What a party sets out to do from its rest. -/
inductive Task (α : Type u) : Role → Type u
  | pursue {role : Role} (aim : Aim α role) : Task α role
  | flush : Task α .producer
  | leave (role : Role) : Task α role

/-- The place of the first access of a task. The producer shows its deferred items before it leaves. -/
def Task.entry : Task α role → Place α role
  | pursue (.call .popBatch) => .glance .popBatch
  | pursue (.call (.push item force)) => .look .first (.call (.push item force))
  | pursue (.call .pop) => .look .first (.call .pop)
  | pursue (.tryPush item) => .ask (.tryPush item)
  | pursue .tryPop => .look .first .tryPop
  | flush => .announce (.rest none)
  | leave .producer => .announce .leave
  | leave .consumer => .shut

/-- A party at rest sets out, or a party makes its next access. -/
inductive Access (α : Type u)
  | enter (role : Role) (task : Task α role)
  | go (role : Role)

/-- A queue in use, with both parties somewhere in the middle of what they do. -/
structure Scene (α : Type u) where
  queue : Queue α
  place : (role : Role) → Place α role

namespace Scene

/-- A queue with both parties at rest. -/
def ofQueue (queue : Queue α) : Scene α := ⟨queue, fun _ => .rest⟩

/-- Takes in what one access of a party leads to. -/
def absorb (s : Scene α) {role : Role} (stride : Stride α role) : Scene α × Option (Result α) :=
  (⟨stride.queue, Function.update s.place role stride.place⟩, stride.result)

/-- One access, if it is possible, and the result of the call that ends with it. -/
def step (s : Scene α) : Access α → Option (Scene α × Option (Result α))
  | .enter role task =>
    match s.place role with
    | .rest => some (s.absorb ⟨s.queue, task.entry, none⟩)
    | _ => none
  | .go role => ((s.place role).stride s.queue).map s.absorb

/-- Some accesses of both parties in any order, and the results of the calls that end on the way. All
of the accesses have to be possible. -/
def run (s : Scene α) : List (Access α) → Option (Scene α × List (Result α))
  | [] => some (s, [])
  | access :: accesses =>
    match s.step access with
    | none => none
    | some (next, result) =>
      (next.run accesses).map fun (last, results) => (last, result.toList ++ results)

/-- Whether a party waits for a signal that was not raised. -/
def blocked (s : Scene α) (role : Role) : Bool :=
  match s.place role with
  | .parked _ => !s.queue.signalled role
  | _ => false

/-- Whether a party is between two calls, gone or blocked, so that nothing more comes from it unless
it is moved to. -/
def still (s : Scene α) (role : Role) : Bool :=
  match s.place role with
  | .rest => true
  | .gone => true
  | _ => s.blocked role

end Scene

end SpscQueue
