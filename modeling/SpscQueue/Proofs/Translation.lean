import SpscQueue.Proofs.Rotation
import SpscQueue.Proofs.Simulation

namespace SpscQueue

universe u

variable {α : Type u}

namespace Index

theorem behind_shift (i j k : Index) : (i + k).behind (j + k) = i.behind j := by
  rw [behind, behind, gap_shift]

theorem passes_shift (old new mark k : Index) :
    passes (old + k) (new + k) (mark + k) = passes old new mark := by
  rw [passes, passes, behind_shift, behind_shift]

end Index

/-! Whatever a party keeps or shows, moved on by `k` places around the circle. -/

def Cursor.shift (c : Cursor) (k : Index) : Cursor := ⟨c.position + k, c.published + k, c.seen + k⟩

def Signpost.shift (s : Signpost) (k : Index) : Signpost :=
  ⟨s.index + k, s.threshold + k, s.wakeups⟩

namespace Side

def shift (s : Side) (k : Index) : Side :=
  { s with cursor := s.cursor.shift k, post := s.post.shift k }

theorem shift_ofStart (start k : Index) : (ofStart start).shift k = ofStart (start + k) := by
  have behind : start - 1 + k = start + k - 1 := by
    rw [UInt64.sub_eq_add_neg, UInt64.sub_eq_add_neg]
    ac_rfl
  unfold ofStart Signpost.ofStart
  rw [← behind]
  rfl

theorem shift_owesWakeup (own : Side) (k : Index) : (own.shift k).owesWakeup = own.owesWakeup :=
  Index.passes_shift ..

theorem shift_publish (own peer : Side) (k : Index) :
    (own.shift k).publish (peer.shift k) =
      ((own.publish peer).1.shift k, (own.publish peer).2.shift k) := by
  by_cases shown : own.cursor.published = own.cursor.position
  · rw [publish_of_published shown]
    exact publish_of_published (congrArg (· + k) shown)
  · have unshown : ¬ (own.shift k).cursor.published = (own.shift k).cursor.position :=
      fun same => shown ((UInt64.add_left_inj k).mp same)
    have owes := own.shift_owesWakeup k
    unfold owesWakeup at owes
    unfold publish Signpost.publish
    rw [if_neg shown, if_neg unshown]
    dsimp only
    by_cases passed : own.cursor.published.passes own.cursor.position own.post.threshold = true
    · rw [if_pos passed, if_pos (owes.trans passed)]
      rfl
    · rw [if_neg passed, if_neg (fun other => passed (owes.symm.trans other))]
      rfl

end Side

theorem Cursor.shift_advance (c : Cursor) (k : Index) (steps : UInt64) :
    (c.shift k).advance steps = (c.advance steps).shift k := by
  have further : c.position + k + steps = c.position + steps + k := by ac_rfl
  exact congrArg (Cursor.mk · (c.published + k) (c.seen + k)) further

/-- The same stretch of waiting at another place of the circle. -/
def Stretch.shift (s : Stretch α) (queue : Queue α) (k : Index) : Stretch α :=
  ⟨queue, s.events.map (Event.mapIndex (· + k)), s.wait⟩

namespace Queue

variable {q : Queue α} {k : Index} {turned : Ring α}

/-- The queue with both parties moved on by `k` places, over the given storage. -/
def shift (q : Queue α) (k : Index) (ring : Ring α) : Queue α :=
  { q with ring, producer := q.producer.shift k, consumer := q.consumer.shift k }

/-! Showing, looking and asking go by differences, so they commute with the move. They do not touch
the storage. -/

section

variable (q : Queue α) (k : Index) (turned : Ring α) (role : Role)

theorem shift_publish : (q.shift k turned).publish role = (q.publish role).shift k turned := by
  cases role with
  | producer => unfold publish shift; dsimp only; rw [Side.shift_publish]
  | consumer => unfold publish shift; dsimp only; rw [Side.shift_publish]

theorem shift_refresh : (q.shift k turned).refresh role = (q.refresh role).shift k turned := by
  cases role <;> rfl

theorem shift_hush : (q.shift k turned).hush role = (q.hush role).shift k turned := by
  cases role <;> rfl

theorem shift_watch (threshold : Index) :
    (q.shift k turned).watch (threshold + k) role = (q.watch threshold role).shift k turned := by
  cases role <;> rfl

theorem shift_closed : (q.shift k turned).closed role = q.closed role := by
  cases role <;> rfl

theorem shift_signalled : (q.shift k turned).signalled role = q.signalled role := by
  cases role <;> rfl

theorem shift_position : (q.shift k turned).position role = q.position role + k := by
  cases role <;> rfl

theorem shift_ready : (q.shift k turned).ready role = q.ready role := by
  cases role with
  | producer =>
    exact congrArg (fun used => decide (used ≤ q.capacity - 1)) (Index.gap_shift ..)
  | consumer => exact congrArg (fun known => decide (1 ≤ known)) (Index.gap_shift ..)

theorem shift_look : (q.shift k turned).look role = (q.look role).shift k turned := by
  have same : (q.shift k turned).lookup = q.lookup := rfl
  unfold look
  rw [shift_ready, shift_refresh, same]
  cases q.lookup with
  | whenShort => exact (apply_ite (shift · k turned) _ _ _).symm
  | always => rfl

theorem shift_threshold : (q.shift k turned).threshold role = q.threshold role + k := by
  cases role with
  | producer =>
    have used : (q.producer.cursor.seen + k).gap (q.producer.cursor.position + k) =
        q.producer.cursor.seen.gap q.producer.cursor.position := Index.gap_shift ..
    unfold threshold
    dsimp only [shift, Side.shift, Cursor.shift]
    rw [used]
    split
    · rfl
    · ac_rfl
  | consumer => rfl

theorem shift_parkingEvent (threshold : Index) :
    (q.shift k turned).parkingEvent (threshold + k) role =
      (q.parkingEvent threshold role).mapIndex (· + k) := by
  cases role <;> rfl

theorem shift_length : (q.shift k turned).length role = q.length role := by
  cases role <;> exact Index.gap_shift ..

theorem shift_visibleLength : (q.shift k turned).visibleLength = q.visibleLength := by
  show lengthBetween (q.producer.post.index + k) (q.consumer.post.index + k) = _
  unfold lengthBetween
  rw [Index.behind_shift, Index.gap_shift]
  rfl

theorem look_ring : (q.look role).ring = q.ring := by
  rcases q.look_eq_or role with ⟨same, _⟩ | fresh
  · rw [same]
  · rw [fresh]
    cases role <;> rfl

end

/-! A wait only looks, asks and shows. -/

/-- Two stretches of waiting, of which one is the other moved on. -/
structure Parallel (q : Queue α) (k : Index) (turned : Ring α) (one other : Stretch α) : Prop where
  ring : one.queue.ring = q.ring
  shifted : other = one.shift (one.queue.shift k turned) k

theorem lastLook_parallel (q : Queue α) (k : Index) (turned : Ring α) (role : Role) :
    q.Parallel k turned (q.lastLook role) ((q.shift k turned).lastLook role) := by
  cases role with
  | producer => exact ⟨rfl, rfl⟩
  | consumer =>
    unfold lastLook
    dsimp only
    rw [shift_refresh, shift_ready]
    split <;> exact ⟨rfl, rfl⟩

theorem beginRound_parallel (q : Queue α) (k : Index) (turned : Ring α) (role : Role) :
    q.Parallel k turned (q.beginRound role) ((q.shift k turned).beginRound role) := by
  unfold beginRound
  rw [shift_closed]
  split
  · exact q.lastLook_parallel k turned role
  · exact ⟨rfl, rfl⟩

theorem enrol_parallel (q : Queue α) (k : Index) (turned : Ring α) (role : Role) :
    q.Parallel k turned (q.enrol role) ((q.shift k turned).enrol role) := by
  unfold enrol
  dsimp only
  rw [shift_threshold, shift_watch, shift_parkingEvent]
  cases role with
  | producer =>
    dsimp only
    unfold flush
    rw [shift_publish, shift_refresh, shift_ready]
    split <;> exact ⟨rfl, rfl⟩
  | consumer =>
    dsimp only
    rw [shift_refresh, shift_ready]
    split <;> exact ⟨rfl, rfl⟩

theorem Parallel.of_look {q : Queue α} {role : Role} {one other : Stretch α}
    (parallel : (q.look role).Parallel k turned one other) : q.Parallel k turned one other :=
  ⟨parallel.ring.trans (q.look_ring role), parallel.shifted⟩

theorem looked_parallel (q : Queue α) (k : Index) (turned : Ring α) (role : Role) (wait : Wait) :
    q.Parallel k turned ⟨q.look role, [], wait⟩ ⟨(q.look role).shift k turned, [], wait⟩ :=
  ⟨q.look_ring role, rfl⟩

theorem await_parallel (q : Queue α) (k : Index) (turned : Ring α) (role : Role) :
    q.Parallel k turned (q.await role) ((q.shift k turned).await role) := by
  unfold await
  dsimp only
  rw [shift_look, shift_ready]
  split
  · exact q.looked_parallel k turned role .ready
  · exact ((q.look role).beginRound_parallel k turned role).of_look

theorem resume_parallel (q : Queue α) (k : Index) (turned : Ring α) (role : Role) (pause : Pause) :
    q.Parallel k turned (q.resume role pause) ((q.shift k turned).resume role pause) := by
  cases pause with
  | snooze round =>
    unfold resume
    dsimp only
    rw [shift_look, shift_ready]
    split
    · exact q.looked_parallel k turned role .ready
    · exact q.looked_parallel k turned role _
  | sleep =>
    unfold resume
    dsimp only
    rw [shift_look, shift_ready]
    split
    · exact q.looked_parallel k turned role .ready
    · exact ((q.look role).enrol_parallel k turned role).of_look
  | park =>
    have hushed : (q.hush role).ring = q.ring := by cases role <;> rfl
    unfold resume
    dsimp only
    rw [shift_hush, shift_look, shift_ready, shift_position]
    split
    · exact ⟨((q.hush role).look_ring role).trans hushed, rfl⟩
    · obtain ⟨ring, shifted⟩ :=
        (((q.hush role).look role).beginRound_parallel k turned role).of_look
      refine ⟨ring.trans hushed, ?_⟩
      rw [shifted]
      rfl

/-! Items are put in and taken out at places that are moved on as well, over a storage that is
turned. -/

/-- What an operation yields at two places of the circle: the same answer, and queues of which one is
moved on. -/
def Together {β : Type u} (k : Index) (one other : Queue α × β) : Prop :=
  ∃ turned, one.1.ring.Turned k turned ∧ other = (one.1.shift k turned, one.2)

theorem shift_written (q : Queue α) (k : Index) (turned : Ring α) (item : α) :
    (q.shift k turned).written item =
      (q.written item).shift k (turned.replace (q.producer.cursor.position + k) (some item)) := by
  unfold written shift Side.shift
  dsimp only
  rw [Cursor.shift_advance]
  rfl

theorem shift_put (q : Queue α) (k : Index) (turned : Ring α) (item : α) (force : Bool) :
    (q.shift k turned).put item force =
      (q.put item force).shift k (turned.replace (q.producer.cursor.position + k) (some item)) := by
  have owes (written : Queue α) (ring : Ring α) :
      (written.shift k ring).producer.owesWakeup = written.producer.owesWakeup :=
    written.producer.shift_owesWakeup k
  unfold put flush
  rw [shift_written, owes, shift_publish]
  exact (apply_ite (shift · k _) _ _ _).symm

theorem put_ring (q : Queue α) (item : α) (force : Bool) :
    (q.put item force).ring = q.ring.replace q.producer.cursor.position (some item) := by
  unfold put
  split <;> rfl

theorem shift_taken (q : Queue α) (k : Index) (turned ring other : Ring α) (steps : UInt64) :
    (q.shift k turned).taken other steps = (q.taken ring steps).shift k other := by
  unfold taken
  rw [← shift_publish]
  unfold shift Side.shift
  dsimp only
  rw [Cursor.shift_advance]

variable (turns : q.ring.Turned k turned)

include turns

theorem accept_together (item : α) (force : Bool) :
    Together k (q.accept item force) ((q.shift k turned).accept item force) := by
  have place : (q.shift k turned).ring.write? (q.shift k turned).producer.cursor.position item =
      turned.write? (q.producer.cursor.position + k) item := rfl
  unfold accept append?
  rw [place]
  rcases turns.write? q.producer.cursor.position item with
    ⟨failed, other⟩ | ⟨_, _, written, wrote, _⟩
  · rw [failed, other]
    exact ⟨turned, turns, rfl⟩
  · obtain ⟨_, rfl⟩ := Ring.write?_eq_some_iff.mp written
    obtain ⟨_, rfl⟩ := Ring.write?_eq_some_iff.mp wrote
    rw [written, wrote]
    refine ⟨_, ?_, congrArg (·, Admission.accepted item) (q.shift_put k turned item force)⟩
    have replaced := turns.replace q.producer.cursor.position (some item)
    rwa [← q.put_ring item force] at replaced

theorem deliver_together : Together k q.deliver (q.shift k turned).deliver := by
  have place : (q.shift k turned).ring.read? (q.shift k turned).consumer.cursor.position =
      turned.read? (q.consumer.cursor.position + k) := rfl
  have reads := turns.read? q.consumer.cursor.position
  unfold deliver take?
  rw [place]
  generalize q.ring.read? q.consumer.cursor.position = one at reads ⊢
  generalize turned.read? (q.consumer.cursor.position + k) = other at reads ⊢
  cases reads with
  | none => exact ⟨turned, turns, rfl⟩
  | @some item ring other left =>
    exact ⟨other, left, congrArg (·, Except.ok item) (q.shift_taken k turned ring other 1)⟩

theorem deliverKnown_together : Together k q.deliverKnown (q.shift k turned).deliverKnown := by
  have known : (q.shift k turned).known = q.known := Index.gap_shift ..
  have place : (q.shift k turned).consumer.cursor.position = q.consumer.cursor.position + k := rfl
  have storage : (q.shift k turned).ring = turned := rfl
  have reads := turns.readMany? q.known.toNat q.consumer.cursor.position
  unfold deliverKnown takeKnown?
  rw [known, place, storage]
  generalize Ring.readMany? q.known.toNat q.consumer.cursor.position q.ring = one at reads ⊢
  generalize Ring.readMany? q.known.toNat (q.consumer.cursor.position + k) turned = other at reads ⊢
  cases reads with
  | none => exact ⟨turned, turns, rfl⟩
  | @some items ring other left =>
    exact ⟨other, left, congrArg (·, Except.ok items) (q.shift_taken k turned ring other q.known)⟩

theorem tryPush_together (item : α) : Together k (q.tryPush item) ((q.shift k turned).tryPush item) := by
  have looked : (q.look .producer).ring.Turned k turned := by rwa [look_ring]
  unfold tryPush
  dsimp only
  rw [shift_closed, shift_look, shift_ready]
  split
  · exact ⟨turned, turns, rfl⟩
  · split
    · exact accept_together looked item true
    · exact ⟨turned, looked, rfl⟩

theorem tryPop_together : Together k q.tryPop (q.shift k turned).tryPop := by
  have looked : (q.look .consumer).ring.Turned k turned := by rwa [look_ring]
  unfold tryPop
  dsimp only
  rw [shift_look, shift_ready, shift_closed, shift_refresh, shift_ready]
  split
  · exact deliver_together looked
  · split
    · split
      · exact deliver_together looked
      · exact ⟨turned, looked, rfl⟩
    · exact ⟨turned, looked, rfl⟩

theorem finish_together {role : Role} (call : Call α role) :
    Together k (call.finish q) (call.finish (q.shift k turned)) := by
  cases call with
  | push item force =>
    obtain ⟨left, turn, same⟩ := accept_together turns item force
    refine ⟨left, turn, ?_⟩
    rw [Call.finish, Call.finish, same]
    rfl
  | pop =>
    obtain ⟨left, turn, same⟩ := deliver_together turns
    refine ⟨left, turn, ?_⟩
    rw [Call.finish, Call.finish, same]
    rfl
  | popBatch =>
    obtain ⟨left, turn, same⟩ := deliverKnown_together turns
    refine ⟨left, turn, ?_⟩
    rw [Call.finish, Call.finish, same]
    rfl

theorem release_together :
    (q.shift k turned).release.1 = q.release.1 ∧
      ∃ left, q.release.2.ring.Turned k left ∧
        (q.shift k turned).release.2 = q.release.2.shift k left := by
  obtain ⟨items, left⟩ := turns.discardRange q.consumer.post.index q.producer.post.index
  exact ⟨items, _, left, rfl⟩

omit turns in
theorem shift_close (q : Queue α) (k : Index) (turned : Ring α) (role : Role) :
    (q.shift k turned).close role =
      ((q.close role).1.shift k turned, (q.close role).2.mapIndex (· + k)) := by
  cases role with
  | producer =>
    unfold close flush
    dsimp only
    rw [shift_publish, shift_position]
    rfl
  | consumer =>
    unfold close
    dsimp only
    rw [shift_position]
    rfl

end Queue

namespace Exchange

variable {x y : Exchange α} {k : Index} {turned : Ring α} {role : Role}

/-- The same exchange `k` places further around the circle. The storage is turned by as much. -/
def Translated (k : Index) (x y : Exchange α) : Prop :=
  ∃ turned, x.queue.ring.Turned k turned ∧ y = { x with queue := x.queue.shift k turned }

theorem arrive_translated (x : Exchange α) (turns : x.queue.ring.Turned k turned)
    (call : Call α role) {one other : Stretch α} (parallel : x.queue.Parallel k turned one other) :
    Matches (· + k) (Translated k) (x.arrive call one)
      (Exchange.arrive { x with queue := x.queue.shift k turned } call other) := by
  obtain ⟨ring, rfl⟩ := parallel
  rw [← ring] at turns
  have moved (queue : Queue α) (ring : Ring α) (paused : Option (Paused α role)) :
      ({ x with queue := queue.shift k ring } : Exchange α).withCurrent paused =
        { ({ x with queue } : Exchange α).withCurrent paused with
          queue := (({ x with queue } : Exchange α).withCurrent paused).queue.shift k ring } := by
    cases role <;> rfl
  unfold arrive Stretch.shift
  cases one.wait with
  | ready =>
    obtain ⟨left, turn, same⟩ := Queue.finish_together turns call
    dsimp only
    rw [same]
    refine ⟨⟨left, ?_, moved _ left none⟩, rfl, rfl⟩
    rwa [withCurrent_queue]
  | gone =>
    refine ⟨⟨turned, ?_, moved _ turned none⟩, rfl, rfl⟩
    rwa [withCurrent_queue]
  | pausing pause =>
    refine ⟨⟨turned, ?_, moved _ turned _⟩, rfl, rfl⟩
    rwa [withCurrent_queue]

theorem translated_withQueue {x : Exchange α} {queue : Queue α} (turns : queue.ring.Turned k turned) :
    Translated k { x with queue } { x with queue := queue.shift k turned } := ⟨turned, turns, rfl⟩

/-- An exchange and its translation go through the same motions. -/
theorem translated_simulation (k : Index) : Simulation (α := α) (· + k) (Translated k) where
  resembles := by
    rintro x _ ⟨turned, turns, rfl⟩
    exact
      { current := fun role => by cases role <;> rfl
        closed := x.queue.shift_closed k turned
        signalled := x.queue.shift_signalled k turned
        position := x.queue.shift_position k turned
        deferred := fun role => by cases role <;> exact Index.gap_shift ..
        length := x.queue.shift_length k turned
        visibleLength := x.queue.shift_visibleLength k turned
        capacity := rfl
        rounds := rfl
        size := turns.size
        wakeups := rfl }
  start := by
    rintro x _ role call ⟨turned, turns, rfl⟩ -
    have prepared : call.prepare (x.queue.shift k turned) = (call.prepare x.queue).shift k turned := by
      cases call with
      | push => rfl
      | pop => rfl
      | popBatch => exact x.queue.shift_refresh k turned .consumer
    have ring : (call.prepare x.queue).ring = x.queue.ring := by cases call <;> rfl
    obtain ⟨awaited, shifted⟩ := (call.prepare x.queue).await_parallel k turned role
    unfold start
    rw [prepared]
    exact x.arrive_translated turns call ⟨awaited.trans ring, shifted⟩
  proceed := by
    rintro x _ role ⟨turned, turns, rfl⟩
    have current : ({ x with queue := x.queue.shift k turned } : Exchange α).current role =
        x.current role := by cases role <;> rfl
    unfold proceed
    rw [current]
    cases x.current role with
    | none => exact ⟨⟨turned, turns, rfl⟩, rfl, rfl⟩
    | some paused =>
      exact x.arrive_translated turns paused.call
        (x.queue.resume_parallel k turned role paused.pause)
  passTo := by
    rintro x _ role pause ⟨turned, turns, rfl⟩ -
    refine ⟨turned, by rwa [passTo_queue], ?_⟩
    obtain ⟨queue, pushing, popping⟩ := x
    cases role with
    | producer => cases pushing <;> rfl
    | consumer => cases popping <;> rfl
  tryPush := by
    rintro x _ item ⟨turned, turns, rfl⟩ -
    obtain ⟨left, turn, same⟩ := Queue.tryPush_together turns item
    rw [same]
    exact ⟨translated_withQueue turn, rfl⟩
  tryPop := by
    rintro x _ ⟨turned, turns, rfl⟩ -
    obtain ⟨left, turn, same⟩ := Queue.tryPop_together turns
    rw [same]
    exact ⟨translated_withQueue turn, rfl⟩
  flush := by
    rintro x _ ⟨turned, turns, rfl⟩ -
    unfold Queue.flush
    rw [Queue.shift_publish]
    exact translated_withQueue turns
  close := by
    rintro x _ role ⟨turned, turns, rfl⟩ -
    have ring : (x.queue.close role).1.ring = x.queue.ring := by cases role <;> rfl
    rw [Queue.shift_close]
    exact ⟨translated_withQueue (by rwa [ring]), rfl⟩
  release := by
    rintro x _ ⟨turned, turns, rfl⟩ -
    obtain ⟨items, left, turn, same⟩ := Queue.release_together turns
    rw [same]
    exact ⟨translated_withQueue turn, items⟩

end Exchange

/-- The start index cannot be noticed. A session that starts at another index gives the same answers
to its steps and to its tear-down, but that every index told by an event or a description lies as much
further on, also when that leads past the top. -/
theorem Transcript.ofSteps_translated (settings : Settings) (start : Index) (steps : List (Step α)) :
    ofSteps (settings.withStartIndex start) steps =
      (ofSteps (settings.withStartIndex 0) steps).map (mapIndex (· + start)) := by
  refine ofSteps_alike (Exchange.translated_simulation start) ?_ ?_ steps
  · intro cause refused
    unfold Queue.ofSettings at refused ⊢
    dsimp only [Settings.withStartIndex] at refused ⊢
    cases made : Ring.ofCapacity (α := α) settings.capacity settings.itemSize with
    | error => rw [made] at refused; exact refused
    | ok ring => rw [made] at refused; cases refused
  · intro q opened
    unfold Queue.ofSettings at opened ⊢
    dsimp only [Settings.withStartIndex] at opened ⊢
    cases made : Ring.ofCapacity (α := α) settings.capacity settings.itemSize with
    | error => rw [made] at opened; cases opened
    | ok ring =>
      rw [made] at opened
      cases opened
      have vacant := (Ring.ofCapacity_eq_ok made).2.2.2
      refine ⟨_, rfl, ring, Ring.turned_of_vacant rfl vacant vacant, ?_⟩
      unfold Exchange.ofQueue Queue.shift
      dsimp only
      rw [Side.shift_ofStart, UInt64.zero_add]

end SpscQueue
