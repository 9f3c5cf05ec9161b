import SpscQueue.Proofs.Frame
import SpscQueue.Proofs.Turnover

namespace SpscQueue

universe u

variable {α : Type u}

/-- Showing does not go by what the other party remembers. -/
theorem Side.publish_remember (own peer : Side) (seen : Index) :
    own.publish { peer with cursor.seen := seen } =
      ((own.publish peer).1, { (own.publish peer).2 with cursor.seen := seen }) := by
  unfold publish
  split
  · rfl
  · dsimp only
    split <;> rfl

namespace Queue

/-- The queue if a party remembers its peer at some other place. -/
def remember (q : Queue α) (seen : Index) : Role → Queue α
  | .producer => { q with producer.cursor.seen := seen }
  | .consumer => { q with consumer.cursor.seen := seen }

variable (q : Queue α) (seen : Index) (role : Role)

theorem refresh_eq_remember : q.refresh role = q.remember (q.side role.peer).post.index role := by
  cases role <;> rfl

/-- A fresh look leaves nothing of what was remembered. -/
theorem remember_refresh : (q.remember seen role).refresh role = q.refresh role := by
  cases role <;> rfl

/-! What a party remembers is for itself alone. Whatever its peer does does not go by it, and leaves it as
it is. -/

@[simp] theorem remember_ready : (q.remember seen role).ready role.peer = q.ready role.peer := by
  cases role <;> rfl

@[simp] theorem remember_closed (who : Role) : (q.remember seen role).closed who = q.closed who := by
  cases role <;> cases who <;> rfl

@[simp] theorem remember_position (who : Role) : (q.remember seen role).position who = q.position who := by
  cases role <;> cases who <;> rfl

@[simp] theorem remember_rounds : (q.remember seen role).snoozeRounds = q.snoozeRounds := by
  cases role <;> rfl

theorem remember_refresh_peer :
    (q.remember seen role).refresh role.peer = (q.refresh role.peer).remember seen role := by
  cases role <;> rfl

theorem remember_look_peer :
    (q.remember seen role).look role.peer = (q.look role.peer).remember seen role := by
  have lookup : (q.remember seen role).lookup = q.lookup := by cases role <;> rfl
  unfold look
  rw [lookup, remember_ready, remember_refresh_peer]
  split
  · rw [apply_ite (remember · seen role)]
  · rfl

theorem remember_publish_peer :
    (q.remember seen role).publish role.peer = (q.publish role.peer).remember seen role := by
  cases role with
  | producer =>
    exact congrArg (fun made : Side × Side => ({ q with consumer := made.1, producer := made.2 } : Queue α))
      (q.consumer.publish_remember q.producer seen)
  | consumer =>
    exact congrArg (fun made : Side × Side => ({ q with producer := made.1, consumer := made.2 } : Queue α))
      (q.producer.publish_remember q.consumer seen)

theorem remember_threshold : (q.remember seen role).threshold role.peer = q.threshold role.peer := by
  cases role <;> rfl

theorem remember_watch (threshold : Index) :
    (q.remember seen role).watch threshold role.peer = (q.watch threshold role.peer).remember seen role := by
  cases role <;> rfl

theorem remember_hush :
    (q.remember seen role).hush role.peer = (q.hush role.peer).remember seen role := by
  cases role <;> rfl

theorem remember_parkingEvent (threshold : Index) :
    (q.remember seen role).parkingEvent threshold role.peer = q.parkingEvent threshold role.peer := by
  cases role <;> rfl

theorem remember_put (item : α) (force : Bool) :
    (q.remember seen .consumer).put item force = (q.put item force).remember seen .consumer := by
  have shown := remember_publish_peer (q.written item) seen .consumer
  unfold put flush
  rw [apply_ite (remember · seen .consumer)]
  exact congrArg (ite _ · _) shown

theorem remember_taken (ring : Ring α) (steps : UInt64) :
    (q.remember seen .producer).taken ring steps = (q.taken ring steps).remember seen .producer :=
  remember_publish_peer { q with ring, consumer.cursor := q.consumer.cursor.advance steps } seen .producer

theorem remember_accept (item : α) (force : Bool) :
    (q.remember seen .consumer).accept item force =
      ((q.accept item force).1.remember seen .consumer, (q.accept item force).2) := by
  have place : (q.remember seen .consumer).ring.write?
      (q.remember seen .consumer).producer.cursor.position item =
        q.ring.write? q.producer.cursor.position item := rfl
  unfold accept append?
  rw [place]
  cases written : q.ring.write? q.producer.cursor.position item with
  | none => rfl
  | some ring =>
    obtain ⟨_, rfl⟩ := Ring.write?_eq_some_iff.mp written
    exact congrArg (·, Admission.accepted item) (q.remember_put seen item force)

theorem remember_deliver :
    (q.remember seen .producer).deliver = (q.deliver.1.remember seen .producer, q.deliver.2) := by
  have place : (q.remember seen .producer).ring.read? (q.remember seen .producer).consumer.cursor.position =
      q.ring.read? q.consumer.cursor.position := rfl
  unfold deliver take?
  rw [place]
  cases q.ring.read? q.consumer.cursor.position with
  | none => rfl
  | some read => exact congrArg (·, Except.ok read.1) (q.remember_taken seen read.2 1)

theorem remember_deliverKnown :
    (q.remember seen .producer).deliverKnown =
      (q.deliverKnown.1.remember seen .producer, q.deliverKnown.2) := by
  have place : Ring.readMany? (q.remember seen .producer).known.toNat
      (q.remember seen .producer).consumer.cursor.position (q.remember seen .producer).ring =
        Ring.readMany? q.known.toNat q.consumer.cursor.position q.ring := rfl
  unfold deliverKnown takeKnown?
  rw [place]
  cases Ring.readMany? q.known.toNat q.consumer.cursor.position q.ring with
  | none => rfl
  | some read => exact congrArg (·, Except.ok read.1) (q.remember_taken seen read.2 q.known)

theorem remember_tryPush (item : α) :
    (q.remember seen .consumer).tryPush item =
      ((q.tryPush item).1.remember seen .consumer, (q.tryPush item).2) := by
  have looked : (q.remember seen .consumer).look .producer = (q.look .producer).remember seen .consumer :=
    q.remember_look_peer seen .consumer
  have ready : ((q.look .producer).remember seen .consumer).ready .producer =
      (q.look .producer).ready .producer := (q.look .producer).remember_ready seen .consumer
  unfold tryPush
  dsimp only
  rw [remember_closed, looked, ready, remember_accept]
  split
  · rfl
  · split <;> rfl

theorem remember_tryPop :
    (q.remember seen .producer).tryPop = (q.tryPop.1.remember seen .producer, q.tryPop.2) := by
  have looked : (q.remember seen .producer).look .consumer = (q.look .consumer).remember seen .producer :=
    q.remember_look_peer seen .producer
  have refreshed (p : Queue α) : (p.remember seen .producer).refresh .consumer =
      (p.refresh .consumer).remember seen .producer := p.remember_refresh_peer seen .producer
  have ready (p : Queue α) : (p.remember seen .producer).ready .consumer = p.ready .consumer :=
    p.remember_ready seen .producer
  unfold tryPop
  dsimp only
  rw [looked, refreshed, ready, ready, remember_closed, remember_deliver, remember_deliver]
  split
  · rfl
  · split
    · split <;> rfl
    · rfl

end Queue

/-- A stretch of a call in whose end the other party remembers its peer at some other place. -/
def Stretch.remember (s : Stretch α) (seen : Index) (role : Role) : Stretch α :=
  { s with queue := s.queue.remember seen role }

namespace Queue

variable (q : Queue α) (seen : Index) (role : Role)

theorem remember_lastLook :
    (q.remember seen role).lastLook role.peer = (q.lastLook role.peer).remember seen role := by
  cases role with
  | producer =>
    have refreshed : (q.remember seen .producer).refresh .consumer =
        (q.refresh .consumer).remember seen .producer := q.remember_refresh_peer seen .producer
    have ready : ((q.refresh .consumer).remember seen .producer).ready .consumer =
        (q.refresh .consumer).ready .consumer := (q.refresh .consumer).remember_ready seen .producer
    unfold Role.peer lastLook
    dsimp only
    rw [refreshed, ready, remember_position]
    split <;> rfl
  | consumer => rfl

theorem remember_beginRound :
    (q.remember seen role).beginRound role.peer = (q.beginRound role.peer).remember seen role := by
  have pause : (q.remember seen role).firstPause = q.firstPause := by
    unfold firstPause
    rw [remember_rounds]
  unfold beginRound
  rw [remember_closed, remember_lastLook, pause]
  split <;> rfl

theorem remember_enrol :
    (q.remember seen role).enrol role.peer = (q.enrol role.peer).remember seen role := by
  have asked := q.remember_watch seen role (q.threshold role.peer)
  have looks (p other : Queue α) (same : other = p.remember seen role) (event : Event) :
      (if (other.refresh role.peer).ready role.peer then
          (⟨other.refresh role.peer, [], .ready⟩ : Stretch α)
        else ⟨other.refresh role.peer, [event], .pausing .park⟩) =
        (if (p.refresh role.peer).ready role.peer then (⟨p.refresh role.peer, [], .ready⟩ : Stretch α)
          else ⟨p.refresh role.peer, [event], .pausing .park⟩).remember seen role := by
    rw [same, remember_refresh_peer, remember_ready]
    split <;> rfl
  unfold enrol
  dsimp only
  rw [remember_threshold, remember_parkingEvent, asked]
  cases role with
  | producer => exact looks _ _ rfl _
  | consumer => exact looks _ _ (remember_publish_peer _ seen .consumer) _

theorem remember_await :
    (q.remember seen role).await role.peer = (q.await role.peer).remember seen role := by
  unfold await
  dsimp only
  rw [remember_look_peer, remember_ready, remember_beginRound]
  split <;> rfl

theorem remember_resume (pause : Pause) :
    (q.remember seen role).resume role.peer pause = (q.resume role.peer pause).remember seen role := by
  cases pause with
  | snooze round =>
    unfold resume
    dsimp only
    rw [remember_look_peer, remember_ready, remember_rounds]
    split <;> rfl
  | sleep =>
    unfold resume
    dsimp only
    rw [remember_look_peer, remember_ready, remember_enrol]
    split <;> rfl
  | park =>
    unfold resume
    dsimp only
    rw [remember_hush, remember_look_peer, remember_ready, remember_beginRound, remember_position]
    split <;> rfl

theorem remember_prepare (call : Call α role.peer) :
    call.prepare (q.remember seen role) = (call.prepare q).remember seen role := by
  cases role with
  | producer =>
    cases call with
    | pop => rfl
    | popBatch => exact q.remember_refresh_peer seen .producer
  | consumer => cases call; rfl

theorem remember_finish (call : Call α role.peer) :
    call.finish (q.remember seen role) = ((call.finish q).1.remember seen role, (call.finish q).2) := by
  cases role with
  | producer =>
    cases call with
    | pop => exact congrArg (Prod.map id Outcome.pop) (q.remember_deliver seen)
    | popBatch => exact congrArg (Prod.map id Outcome.popBatch) (q.remember_deliverKnown seen)
  | consumer =>
    cases call with
    | push item force => exact congrArg (Prod.map id Outcome.push) (q.remember_accept seen item force)

end Queue

end SpscQueue
