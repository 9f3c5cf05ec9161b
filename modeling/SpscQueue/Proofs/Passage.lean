import SpscQueue.Proofs.Access
import SpscQueue.Proofs.Sound

namespace SpscQueue

universe u

variable {α : Type u} {role : Role} {q next last : Queue α}

/-! A party that is not interrupted does in its accesses what the functions of the queue say. -/

/-- The accesses of a party, with nothing in between, lead from one place to another. -/
inductive Place.Leads {role : Role} :
    Queue α → Place α role → List (Result α) → Queue α → Place α role → Prop
  | stay (q : Queue α) (place : Place α role) : Leads q place [] q place
  | go {q last : Queue α} {place final : Place α role} {stride : Stride α role}
      {results : List (Result α)} : place.stride q = some stride →
      Leads stride.queue stride.place results last final →
      Leads q place (stride.result.toList ++ results) last final

namespace Place.Leads

variable {place after final : Place α role} {results more : List (Result α)}

theorem one {result : Option (Result α)} (made : place.stride q = some ⟨next, after, result⟩) :
    Leads q place result.toList next after := by
  have leads := go made (stay next after)
  rwa [List.append_nil] at leads

theorem quietly (made : place.stride q = some ⟨next, after, none⟩)
    (rest : Leads next after results last final) : Leads q place results last final :=
  go made rest

theorem trans (first : Leads q place results next after) (rest : Leads next after more last final) :
    Leads q place (results ++ more) last final := by
  induction first with
  | stay => exact rest
  | go made _ ih =>
    rw [List.append_assoc]
    exact go made (ih rest)

end Place.Leads

open Place (Leads)

/-- What is stored when a party shows its steps. -/
def Queue.stored (q : Queue α) (role : Role) : Queue α :=
  q.withSide role
    { q.side role with
      cursor := { (q.side role).cursor with published := q.position role }
      post := { (q.side role).post with index := q.position role } }

/-- What is counted when a party wakes the other one. -/
def Queue.counted (q : Queue α) (role : Role) : Queue α :=
  q.withSide role { q.side role with post.wakeups := (q.side role).post.wakeups + 1 }

theorem Queue.publish_of_unshown (unshown : ¬ (q.side role).cursor.published = q.position role) :
    q.publish role =
      if Index.passes (q.side role).cursor.published (q.position role) (q.side role).post.threshold
        then ((q.stored role).counted role).raise role.peer else q.stored role := by
  cases role with
  | producer =>
    have sides : q.producer.publish q.consumer =
        if Index.passes q.producer.cursor.published q.producer.cursor.position
            q.producer.post.threshold
          then (((q.stored .producer).counted .producer).producer, (q.raise .consumer).consumer)
          else ((q.stored .producer).producer, q.consumer) := if_neg unshown
    unfold publish
    dsimp only
    rw [sides]
    by_cases passed : Index.passes q.producer.cursor.published q.producer.cursor.position
        q.producer.post.threshold = true
    · rw [if_pos passed]
      exact (if_pos passed).symm
    · rw [if_neg passed]
      exact (if_neg passed).symm
  | consumer =>
    have sides : q.consumer.publish q.producer =
        if Index.passes q.consumer.cursor.published q.consumer.cursor.position
            q.consumer.post.threshold
          then (((q.stored .consumer).counted .consumer).consumer, (q.raise .producer).producer)
          else ((q.stored .consumer).consumer, q.producer) := if_neg unshown
    unfold publish
    dsimp only
    rw [sides]
    by_cases passed : Index.passes q.consumer.cursor.published q.consumer.cursor.position
        q.consumer.post.threshold = true
    · rw [if_pos passed]
      exact (if_pos passed).symm
    · rw [if_neg passed]
      exact (if_neg passed).symm

theorem Queue.publish_of_shown (shown : (q.side role).cursor.published = q.position role) :
    q.publish role = q := by
  cases role with
  | producer =>
    have none : q.producer.publish q.consumer = (q.producer, q.consumer) :=
      Side.publish_of_published shown
    simp only [publish, none]
  | consumer =>
    have none : q.consumer.publish q.producer = (q.consumer, q.producer) :=
      Side.publish_of_published shown
    simp only [publish, none]

theorem announce_leads (q : Queue α) (goal : Goal α role) :
    Leads q (.announce goal) (goal.reach (q.publish role)).result.toList
      (goal.reach (q.publish role)).queue (goal.reach (q.publish role)).place := by
  by_cases shown : (q.side role).cursor.published = q.position role
  · rw [Queue.publish_of_shown shown]
    exact .one (congrArg some (if_pos shown))
  · have stores : (Place.announce goal).stride q =
        some ⟨q.stored role, .heed (q.side role).cursor.published goal, none⟩ :=
      congrArg some (if_neg shown)
    refine .quietly stores ?_
    have heeds : (Place.heed (q.side role).cursor.published goal).stride (q.stored role) =
        some (if Index.passes (q.side role).cursor.published (q.position role)
          (q.side role).post.threshold then ⟨q.stored role, .tally goal, none⟩
          else goal.reach (q.stored role)) := by
      cases role <;> rfl
    rw [Queue.publish_of_unshown shown]
    by_cases passed : Index.passes (q.side role).cursor.published (q.position role)
        (q.side role).post.threshold = true
    · rw [if_pos passed] at heeds ⊢
      have counts : (Place.count ((q.stored role).side role).post.wakeups goal).stride (q.stored role) =
          some ⟨(q.stored role).counted role, .rouse goal, none⟩ := rfl
      have rouses : (Place.rouse goal).stride ((q.stored role).counted role) =
          some (goal.reach (((q.stored role).counted role).raise role.peer)) := rfl
      exact .quietly heeds (.quietly rfl (.quietly counts (.one rouses)))
    · rw [if_neg passed] at heeds ⊢
      exact .one heeds

/-! The work in the ring, and the showing that goes with it. -/

/-- The item is in the ring. -/
def Queue.laid (q : Queue α) (ring : Ring α) : Queue α :=
  { q with ring, producer.cursor := q.producer.cursor.advance 1 }

/-- Some items are out of the ring. -/
def Queue.drawn (q : Queue α) (ring : Ring α) (steps : UInt64) : Queue α :=
  { q with ring, consumer.cursor := q.consumer.cursor.advance steps }

theorem peek_leads (q : Queue α) (result : Result α) :
    Leads q (.peek result : Place α .producer) [result]
      (if q.producer.owesWakeup then q.publish .producer else q) .rest := by
  have peeks : (Place.peek result : Place α .producer).stride q =
      some ⟨q, if q.producer.owesWakeup then .announce (.rest (some result)) else .rest,
        if q.producer.owesWakeup then none else some result⟩ := rfl
  by_cases owes : q.producer.owesWakeup = true
  · rw [if_pos owes, if_pos owes] at peeks
    rw [if_pos owes]
    exact .quietly peeks (announce_leads q (.rest (some result)))
  · rw [if_neg owes, if_neg owes] at peeks
    rw [if_neg owes]
    exact .one peeks

theorem store_leads {item : α} {force : Bool} {name : Admission α → Result α}
    {aim : Aim α .producer} (acts : aim.act q = q.store item force name) :
    Leads q (.move aim) [name (q.accept item force).2] (q.accept item force).1 .rest := by
  cases written : q.ring.write? q.producer.cursor.position item with
  | none =>
    have moves : (Place.move aim).stride q = some ⟨q, .rest, some (name (.refused item .occupied))⟩ := by
      rw [Place.stride, acts, Queue.store, written]
    have refuses : q.accept item force = (q, .refused item .occupied) := by
      rw [Queue.accept, Queue.append?, written, Option.map_none]
    rw [refuses]
    exact .one moves
  | some ring =>
    have moves : (Place.move aim).stride q =
        some ⟨q.laid ring, if force then .announce (.rest (some (name (.accepted item))))
          else .peek (name (.accepted item)), none⟩ := by
      rw [Place.stride, acts, Queue.store, written]
      rfl
    have accepts : q.accept item force =
        (if force || (q.laid ring).producer.owesWakeup then (q.laid ring).publish .producer
          else q.laid ring, .accepted item) := by
      rw [Queue.accept, Queue.append?, written, Option.map_some]
      rfl
    rw [accepts]
    cases force with
    | true => exact .quietly moves (announce_leads _ (.rest (some _)))
    | false => exact .quietly moves (peek_leads _ _)

theorem fetch_leads {name : Except PopFailure α → Result α} {aim : Aim α .consumer}
    (acts : aim.act q = q.fetch name) :
    Leads q (.move aim) [name q.deliver.2] q.deliver.1 .rest := by
  cases read : q.ring.read? q.consumer.cursor.position with
  | none =>
    have moves : (Place.move aim).stride q = some ⟨q, .rest, some (name (.error .vacant))⟩ := by
      rw [Place.stride, acts, Queue.fetch, read]
    have fails : q.deliver = (q, .error .vacant) := by
      rw [Queue.deliver, Queue.take?, read, Option.map_none]
    rw [fails]
    exact .one moves
  | some found =>
    have moves : (Place.move aim).stride q =
        some ⟨q.drawn found.2 1, .announce (.rest (some (name (.ok found.1)))), none⟩ := by
      rw [Place.stride, acts, Queue.fetch, read]
      rfl
    have delivers : q.deliver = ((q.drawn found.2 1).publish .consumer, .ok found.1) := by
      rw [Queue.deliver, Queue.take?, read, Option.map_some]
      rfl
    rw [delivers]
    exact .quietly moves (announce_leads _ (.rest (some _)))

theorem fetchKnown_leads (q : Queue α) :
    Leads q (.move (.call .popBatch)) [(Outcome.popBatch q.deliverKnown.2).result] q.deliverKnown.1
      .rest := by
  cases read : Ring.readMany? q.known.toNat q.consumer.cursor.position q.ring with
  | none =>
    have moves : (Place.move (.call .popBatch)).stride q =
        some (⟨q, .rest, some (.popBatch (.error .vacant))⟩ : Stride α .consumer) := by
      rw [Place.stride, Aim.act, Queue.fetchKnown, read]
    have fails : q.deliverKnown = (q, .error .vacant) := by
      rw [Queue.deliverKnown, Queue.takeKnown?, read, Option.map_none]
    rw [fails]
    exact .one moves
  | some found =>
    have moves : (Place.move (.call .popBatch)).stride q =
        some (⟨q.drawn found.2 q.known,
          .announce (.rest (some (.popBatch (.ok ⟨[], found.1⟩)))), none⟩ : Stride α .consumer) := by
      rw [Place.stride, Aim.act, Queue.fetchKnown, read]
      rfl
    have delivers : q.deliverKnown =
        ((q.drawn found.2 q.known).publish .consumer, .ok found.1) := by
      rw [Queue.deliverKnown, Queue.takeKnown?, read, Option.map_some]
      rfl
    rw [delivers]
    exact .quietly moves (announce_leads _ (.rest (some _)))

theorem finish_leads (q : Queue α) (call : Call α role) :
    Leads q (.move (.call call)) [(call.finish q).2.result] (call.finish q).1 .rest := by
  cases call with
  | push item force => exact store_leads rfl
  | pop => exact fetch_leads rfl
  | popBatch => exact fetchKnown_leads q

/-! The stretches of a wait. -/

/-- The place at which a call stands in a pause. -/
def Pause.place (call : Call α role) : Pause → Place α role
  | snooze round => .look (.spun round) (.call call)
  | sleep => .look .slept (.call call)
  | park => .parked call

/-- The place at which a call stands when its wait stops. -/
def Wait.place (call : Call α role) : Wait → Place α role
  | ready => .move (.call call)
  | gone => .rest
  | pausing pause => pause.place call

/-- The result that a call gives when its wait stops. -/
def Wait.results (call : Call α role) : Wait → List (Result α)
  | ready => []
  | gone => [call.giveUp.result]
  | pausing pause => if pause = .park then [.parked] else []

/-- The accesses from a place on come to where a stretch of waiting stops. -/
def Stretch.Reached (s : Stretch α) (call : Call α role) (q : Queue α) (place : Place α role) : Prop :=
  Leads q place (s.wait.results call) s.queue (s.wait.place call)

variable {call : Call α role}

theorem Stretch.Reached.after {s : Stretch α} {here there : Place α role}
    (reached : s.Reached call next there) (made : here.stride q = some ⟨next, there, none⟩) :
    s.Reached call q here :=
  .quietly made reached

theorem Stretch.Reached.led {s : Stretch α} {here there : Place α role}
    (reached : s.Reached call next there) (leads : Leads q here [] next there) :
    s.Reached call q here :=
  leads.trans reached

theorem Stretch.Reached.log {s : Stretch α} {place : Place α role} (reached : s.Reached call q place)
    (events : List Event) : { s with events }.Reached call q place := reached

theorem beginRound_reached (q : Queue α) (call : Call α role) :
    (q.beginRound role).Reached call q (.ask (.call call)) := by
  unfold Queue.beginRound
  by_cases gone : q.closed role.peer = true
  · have asks : (Place.ask (.call call)).stride q = some (Aim.absent q (.call call)) :=
      congrArg some (if_pos gone)
    rw [if_pos gone]
    cases role with
    | producer => exact Leads.one asks
    | consumer =>
      have looks : (Place.lastLook (.call call)).stride q =
          some (if (q.refresh .consumer).ready .consumer
            then ⟨q.refresh .consumer, .move (.call call), none⟩
            else ⟨q.refresh .consumer, .rest, some call.giveUp.result⟩) := rfl
      unfold Queue.lastLook
      dsimp only
      by_cases ready : (q.refresh .consumer).ready .consumer = true
      · rw [if_pos ready] at looks ⊢
        exact Leads.quietly asks (Leads.one looks)
      · rw [if_neg ready] at looks ⊢
        exact Leads.quietly asks (Leads.one looks)
  · have asks : (Place.ask (.call call)).stride q = some (Aim.present q (.call call)) :=
      congrArg some (if_neg gone)
    rw [if_neg gone]
    unfold Aim.present at asks
    unfold Stretch.Reached Queue.firstPause
    by_cases none : q.snoozeRounds = 0
    · rw [if_pos none] at asks ⊢
      exact Leads.one asks
    · rw [if_neg none] at asks ⊢
      exact Leads.one asks

theorem recheck_reached (q : Queue α) (call : Call α role) (event : Event) :
    (if (q.refresh role).ready role then ⟨q.refresh role, [], .ready⟩
      else ⟨q.refresh role, [event], .pausing .park⟩ : Stretch α).Reached call q (.recheck call) := by
  have checks : (Place.recheck call).stride q =
      some (if (q.refresh role).ready role then ⟨q.refresh role, .move (.call call), none⟩
        else ⟨q.refresh role, .parked call, some .parked⟩) := rfl
  by_cases ready : (q.refresh role).ready role = true
  · rw [if_pos ready] at checks ⊢
    exact Leads.one checks
  · rw [if_neg ready] at checks ⊢
    exact Leads.one checks

theorem enrol_reached (q : Queue α) (call : Call α role) :
    (q.enrol role).Reached call q (.enrol call) := by
  have asks : (Place.enrol call).stride q =
      some ⟨q.watch (q.threshold role) role, .afterEnrol call, none⟩ := rfl
  cases role with
  | producer =>
    have shows := announce_leads (q.watch (q.threshold .producer) .producer)
      (.recheck call : Goal α .producer)
    have checks := recheck_reached ((q.watch (q.threshold .producer) .producer).publish .producer) call
      (q.parkingEvent (q.threshold .producer) .producer)
    exact (checks.led shows).after asks
  | consumer =>
    exact (recheck_reached (q.watch (q.threshold .consumer) .consumer) call _).after asks

theorem await_reached (q : Queue α) (call : Call α role) :
    (q.await role).Reached call q (.look .first (.call call)) := by
  have looks : (Place.look .first (.call call)).stride q =
      some (if (q.look role).ready role then ⟨q.look role, .move (.call call), none⟩
        else ⟨q.look role, .ask (.call call), none⟩) := rfl
  unfold Queue.await
  dsimp only
  by_cases ready : (q.look role).ready role = true
  · rw [if_pos ready] at looks ⊢
    exact Leads.one looks
  · rw [if_neg ready] at looks ⊢
    exact (beginRound_reached _ call).after looks

theorem resume_reached (q : Queue α) (call : Call α role) (pause : Pause)
    (awake : pause = .park → q.signalled role = true) :
    (q.resume role pause).Reached call q (pause.place call) := by
  cases pause with
  | snooze round =>
    have looks : (Place.look (.spun round) (.call call)).stride q =
        some (if (q.look role).ready role then ⟨q.look role, .move (.call call), none⟩
          else ⟨q.look role, .look (if round < (q.look role).snoozeRounds then .spun (round + 1)
            else .slept) (.call call), none⟩) := rfl
    have rounds : (q.look role).snoozeRounds = q.snoozeRounds := (q.alike_look role).rounds
    unfold Queue.resume
    dsimp only
    rw [rounds] at looks
    by_cases ready : (q.look role).ready role = true
    · rw [if_pos ready] at looks ⊢
      exact Leads.one looks
    · rw [if_neg ready] at looks ⊢
      by_cases more : round < q.snoozeRounds
      · rw [if_pos more] at looks ⊢
        exact Leads.one looks
      · rw [if_neg more] at looks ⊢
        exact Leads.one looks
  | sleep =>
    have looks : (Place.look .slept (.call call)).stride q =
        some (if (q.look role).ready role then ⟨q.look role, .move (.call call), none⟩
          else ⟨q.look role, .enrol call, none⟩) := rfl
    unfold Queue.resume
    dsimp only
    by_cases ready : (q.look role).ready role = true
    · rw [if_pos ready] at looks ⊢
      exact Leads.one looks
    · rw [if_neg ready] at looks ⊢
      exact (enrol_reached _ call).after looks
  | park =>
    have wakes : (Place.parked call).stride q =
        some ⟨q.hush role, .look .woken (.call call), none⟩ := if_pos (awake rfl)
    have looks : (Place.look .woken (.call call)).stride (q.hush role) =
        some (if ((q.hush role).look role).ready role
          then ⟨(q.hush role).look role, .move (.call call), none⟩
          else ⟨(q.hush role).look role, .ask (.call call), none⟩) := rfl
    unfold Queue.resume
    dsimp only
    refine Stretch.Reached.after ?_ wakes
    by_cases ready : ((q.hush role).look role).ready role = true
    · rw [if_pos ready] at looks ⊢
      exact Leads.one looks
    · rw [if_neg ready] at looks ⊢
      exact ((beginRound_reached _ call).after looks).log _

/-! The attempts that do not wait, and the end of a handle. -/

theorem tryPush_leads (q : Queue α) (item : α) :
    Leads q (.ask (.tryPush item)) [.tryPush (q.tryPush item).2] (q.tryPush item).1 .rest := by
  have asks : (Place.ask (.tryPush item)).stride q =
      some (if q.closed .consumer then ⟨q, .rest, some (.tryPush (.refused item .disconnected))⟩
        else ⟨q, .look .first (.tryPush item), none⟩) := rfl
  have looks : (Place.look .first (.tryPush item)).stride q =
      some (if (q.look .producer).ready .producer
        then ⟨q.look .producer, .move (.tryPush item), none⟩
        else ⟨q.look .producer, .rest, some (.tryPush (.refused item .full))⟩) := rfl
  unfold Queue.tryPush
  dsimp only
  by_cases gone : q.closed .consumer = true
  · rw [if_pos gone] at asks ⊢
    exact .one asks
  · rw [if_neg gone] at asks ⊢
    by_cases ready : (q.look .producer).ready .producer = true
    · rw [if_pos ready] at looks ⊢
      exact .quietly asks (.quietly looks (store_leads rfl))
    · rw [if_neg ready] at looks ⊢
      exact .quietly asks (.one looks)

theorem tryPop_leads (q : Queue α) :
    Leads q (.look .first .tryPop) [.tryPop q.tryPop.2] q.tryPop.1 .rest := by
  have looks : (Place.look .first .tryPop).stride q =
      some (if (q.look .consumer).ready .consumer then ⟨q.look .consumer, .move .tryPop, none⟩
        else ⟨q.look .consumer, .ask .tryPop, none⟩) := rfl
  unfold Queue.tryPop
  dsimp only
  generalize q.look .consumer = looked at looks
  have asks : (Place.ask .tryPop).stride looked =
      some (if looked.closed .producer then ⟨looked, .lastLook .tryPop, none⟩
        else ⟨looked, .rest, some (.tryPop (.error .empty))⟩) := rfl
  have last : (Place.lastLook .tryPop).stride looked =
      some (if (looked.refresh .consumer).ready .consumer
        then ⟨looked.refresh .consumer, .move .tryPop, none⟩
        else ⟨looked.refresh .consumer, .rest, some (.tryPop (.error .disconnected))⟩) := rfl
  by_cases ready : looked.ready .consumer = true
  · rw [if_pos ready] at looks ⊢
    exact .quietly looks (fetch_leads rfl)
  · rw [if_neg ready] at looks ⊢
    refine .quietly looks ?_
    by_cases gone : looked.closed .producer = true
    · rw [if_pos gone] at asks ⊢
      refine .quietly asks ?_
      by_cases found : (looked.refresh .consumer).ready .consumer = true
      · rw [if_pos found] at last ⊢
        exact .quietly last (fetch_leads rfl)
      · rw [if_neg found] at last ⊢
        exact .one last
    · rw [if_neg gone] at asks ⊢
      exact .one asks

theorem flush_leads (q : Queue α) :
    Leads q (.announce (.rest none) : Place α .producer) [] q.flush .rest :=
  announce_leads q (.rest none)

theorem close_leads (q : Queue α) (role : Role) :
    Leads q (Task.leave role).entry [] (q.close role).1 .gone := by
  have leaves (shown : Queue α) : Leads shown (.shut : Place α role) []
      ((shown.withSide role { shown.side role with closed := true }).raise role.peer) .gone := by
    have knocks : (Place.knock : Place α role).stride
          (shown.withSide role { shown.side role with closed := true }) =
        some ⟨(shown.withSide role { shown.side role with closed := true }).raise role.peer, .gone,
          none⟩ := rfl
    exact .quietly rfl (.one knocks)
  cases role with
  | producer => exact (announce_leads q (.leave : Goal α .producer)).trans (leaves q.flush)
  | consumer => exact leaves q

end SpscQueue
