import SpscQueue.Proofs.Following
import SpscQueue.Proofs.Pausing

namespace SpscQueue

universe u

variable {α : Type u} {role : Role} {call : Call α role}

namespace Queue

variable {q p : Queue α}

/-- The queue but for what each party remembers of the other one, and for when they look. -/
def blind (q : Queue α) : Queue α :=
  { q with lookup := .always, producer.cursor.seen := 0, consumer.cursor.seen := 0 }

/-! Asking, showing, putting in and taking out do not go by what a party remembers. -/

theorem blind_refresh (q : Queue α) (role : Role) : (q.refresh role).blind = q.blind := by
  cases role <;> rfl

theorem blind_look (q : Queue α) (role : Role) : (q.look role).blind = q.blind := by
  rcases q.look_eq_or role with ⟨same, _⟩ | fresh
  · rw [same]
  · rw [fresh, blind_refresh]

theorem blind_hush (q : Queue α) (role : Role) : (q.hush role).blind = q.blind.hush role := by
  cases role <;> rfl

theorem blind_watch (q : Queue α) (threshold : Index) (role : Role) :
    (q.watch threshold role).blind = q.blind.watch threshold role := by
  cases role <;> rfl

theorem blind_publish (q : Queue α) (role : Role) : (q.publish role).blind = q.blind.publish role := by
  cases role with
  | producer =>
    unfold publish blind Side.publish
    dsimp only
    by_cases shown : q.producer.cursor.published = q.producer.cursor.position
    · rw [if_pos shown, if_pos shown]
    · rw [if_neg shown, if_neg shown]
      split <;> rfl
  | consumer =>
    unfold publish blind Side.publish
    dsimp only
    by_cases shown : q.consumer.cursor.published = q.consumer.cursor.position
    · rw [if_pos shown, if_pos shown]
    · rw [if_neg shown, if_neg shown]
      split <;> rfl

theorem blind_put (q : Queue α) (item : α) (force : Bool) :
    (q.put item force).blind = q.blind.put item force := by
  unfold put flush
  rw [apply_ite blind, blind_publish]
  rfl

theorem blind_taken (q : Queue α) (ring : Ring α) (steps : UInt64) :
    (q.taken ring steps).blind = q.blind.taken ring steps := by
  unfold taken
  rw [blind_publish]
  rfl

theorem blind_accept (q : Queue α) (item : α) (force : Bool) :
    q.blind.accept item force = ((q.accept item force).1.blind, (q.accept item force).2) := by
  have place : q.blind.ring.write? q.blind.producer.cursor.position item =
      q.ring.write? q.producer.cursor.position item := rfl
  unfold accept append?
  rw [place]
  cases written : q.ring.write? q.producer.cursor.position item with
  | none => rfl
  | some ring =>
    obtain ⟨_, rfl⟩ := Ring.write?_eq_some_iff.mp written
    exact congrArg (·, Admission.accepted item) (q.blind_put item force).symm

theorem blind_deliver (q : Queue α) : q.blind.deliver = (q.deliver.1.blind, q.deliver.2) := by
  have place : q.blind.ring.read? q.blind.consumer.cursor.position =
      q.ring.read? q.consumer.cursor.position := rfl
  unfold deliver take?
  rw [place]
  cases q.ring.read? q.consumer.cursor.position with
  | none => rfl
  | some read => exact congrArg (·, Except.ok read.1) (q.blind_taken read.2 1).symm

theorem blind_close (q : Queue α) (role : Role) :
    q.blind.close role = ((q.close role).1.blind, (q.close role).2) := by
  cases role with
  | producer =>
    unfold close flush
    rw [← blind_publish]
    rfl
  | consumer => rfl

/-! A fresh look leaves nothing remembered that could matter to the party that looked. -/

theorem blind_refresh_ready (q : Queue α) (role : Role) :
    (q.blind.refresh role).ready role = (q.refresh role).ready role := by
  cases role <;> rfl

theorem blind_refresh_threshold (q : Queue α) (role : Role) :
    (q.blind.refresh role).threshold role = (q.refresh role).threshold role := by
  cases role <;> rfl

theorem blind_refresh_parkingEvent (q : Queue α) (threshold : Index) (role : Role) :
    (q.blind.refresh role).parkingEvent threshold role =
      (q.refresh role).parkingEvent threshold role := by
  cases role <;> rfl

theorem blind_refresh_deliverKnown (q : Queue α) :
    (q.blind.refresh .consumer).deliverKnown.1.blind = (q.refresh .consumer).deliverKnown.1.blind ∧
      (q.blind.refresh .consumer).deliverKnown.2 = (q.refresh .consumer).deliverKnown.2 := by
  have sight : (q.blind.refresh .consumer).known = (q.refresh .consumer).known := rfl
  have storage : (q.blind.refresh .consumer).ring = (q.refresh .consumer).ring := rfl
  have place : (q.blind.refresh .consumer).consumer.cursor.position =
      (q.refresh .consumer).consumer.cursor.position := rfl
  unfold deliverKnown takeKnown?
  rw [sight, storage, place]
  generalize Ring.readMany? _ _ (q.refresh .consumer).ring = read
  cases read with
  | none => exact ⟨rfl, rfl⟩
  | some read =>
    refine ⟨?_, rfl⟩
    exact (blind_taken (q.blind.refresh .consumer) read.2 _).trans
      (blind_taken (q.refresh .consumer) read.2 _).symm

/-! So two queues that are the same but for what is remembered cannot be told apart. -/

section

variable (same : p.blind = q.blind)

include same

theorem closed_eq_of_blind (role : Role) : p.closed role = q.closed role := by
  have closed := congrArg (Queue.closed · role) same
  cases role <;> exact closed

theorem position_eq_of_blind (role : Role) : p.position role = q.position role := by
  have position := congrArg (Queue.position · role) same
  cases role <;> exact position

theorem rounds_eq_of_blind : p.snoozeRounds = q.snoozeRounds :=
  have rounds : p.blind.snoozeRounds = q.blind.snoozeRounds := congrArg Queue.snoozeRounds same
  rounds

theorem refresh_ready_eq_of_blind (role : Role) :
    (p.refresh role).ready role = (q.refresh role).ready role := by
  rw [← blind_refresh_ready, same, blind_refresh_ready]

/-- Whether a party can move on after it has looked does not depend on when it looked before. -/
theorem look_ready_eq_of_blind {items others : List α} (carries : q.Carries items)
    (otherCarries : p.Carries others) (role : Role) :
    (p.look role).ready role = (q.look role).ready role := by
  have moves : p.CanMove role ↔ q.CanMove role := by
    have canMove := congrArg (Queue.CanMove · role) same
    cases role <;> exact iff_of_eq canMove
  rw [Bool.eq_iff_iff]
  exact (otherCarries.look_ready role).trans (moves.trans (carries.look_ready role).symm)

end

end Queue

/-- Two stretches of waiting that tell the same and lead to queues that are the same but for what is
remembered. If the call is ready now, nothing remembered matters to it. -/
structure Stretch.Agrees (call : Call α role) (s t : Stretch α) : Prop where
  queue : t.queue.blind = s.queue.blind
  events : t.events = s.events
  wait : t.wait = s.wait
  prepared : s.wait = .ready → call.prepare s.queue = s.queue ∧ call.prepare t.queue = t.queue

namespace Queue

variable {q p : Queue α} {items others : List α}

theorem prepare_refresh (call : Call α role) (q : Queue α) :
    call.prepare (q.refresh role) = q.refresh role := by
  cases call with
  | push => rfl
  | pop => rfl
  | popBatch => exact q.refresh_refresh .consumer

section

variable (same : p.blind = q.blind)

include same

theorem lastLook_agrees (call : Call α role) :
    Stretch.Agrees call (q.lastLook role) (p.lastLook role) := by
  have place := position_eq_of_blind same role
  cases role with
  | producer =>
    unfold lastLook
    dsimp only
    rw [place]
    exact ⟨same, rfl, rfl, fun ready => nomatch ready⟩
  | consumer =>
    have looked : (p.refresh .consumer).blind = (q.refresh .consumer).blind := by
      rw [blind_refresh, blind_refresh, same]
    unfold lastLook
    dsimp only
    rw [place, refresh_ready_eq_of_blind same]
    split
    · exact ⟨looked, rfl, rfl, fun _ => ⟨prepare_refresh call q, prepare_refresh call p⟩⟩
    · exact ⟨looked, rfl, rfl, fun ready => nomatch ready⟩

theorem beginRound_agrees (call : Call α role) :
    Stretch.Agrees call (q.beginRound role) (p.beginRound role) := by
  have rounds : p.firstPause = q.firstPause := firstPause_of_rounds (rounds_eq_of_blind same)
  unfold beginRound
  rw [closed_eq_of_blind same, rounds]
  split
  · exact lastLook_agrees same call
  · exact ⟨same, rfl, rfl, fun ready => nomatch ready⟩

/-- The step that a party asks for, and what it logs, goes by what it has just seen. -/
theorem enrol_agrees (call : Call α role) (fresh : q.refresh role = q)
    (otherFresh : p.refresh role = p) : Stretch.Agrees call (q.enrol role) (p.enrol role) := by
  have threshold : p.threshold role = q.threshold role := by
    rw [← fresh, ← otherFresh, ← blind_refresh_threshold, same, blind_refresh_threshold]
  have event : p.parkingEvent (q.threshold role) role = q.parkingEvent (q.threshold role) role := by
    generalize q.threshold role = asked
    rw [← fresh, ← otherFresh, ← blind_refresh_parkingEvent, same, blind_refresh_parkingEvent]
  have asked : (p.watch (q.threshold role) role).blind = (q.watch (q.threshold role) role).blind := by
    rw [blind_watch, blind_watch, same]
  unfold enrol
  dsimp only
  rw [threshold, event]
  have agrees (shown other : Queue α) (alike : other.blind = shown.blind) :
      Stretch.Agrees call
        (if (shown.refresh role).ready role then ⟨shown.refresh role, [], .ready⟩
          else ⟨shown.refresh role, [q.parkingEvent (q.threshold role) role], .pausing .park⟩)
        (if (other.refresh role).ready role then ⟨other.refresh role, [], .ready⟩
          else ⟨other.refresh role, [q.parkingEvent (q.threshold role) role], .pausing .park⟩) := by
    have looked : (other.refresh role).blind = (shown.refresh role).blind := by
      rw [blind_refresh, blind_refresh, alike]
    rw [refresh_ready_eq_of_blind alike]
    split
    · exact ⟨looked, rfl, rfl, fun _ => ⟨prepare_refresh call shown, prepare_refresh call other⟩⟩
    · exact ⟨looked, rfl, rfl, fun ready => nomatch ready⟩
  cases role with
  | producer =>
    refine agrees _ _ ?_
    unfold flush
    rw [blind_publish, blind_publish, asked]
  | consumer => exact agrees _ _ asked

theorem looked_agrees (seen : q.ready role = false ∨ call.prepare q = q)
    (otherSeen : p.ready role = false ∨ call.prepare p = p) (events : List Event) :
    Stretch.Agrees call ⟨q.look role, events, .ready⟩ ⟨p.look role, events, .ready⟩ :=
  ⟨by rw [blind_look, blind_look, same], rfl, rfl,
    fun _ => ⟨prepare_look call seen, prepare_look call otherSeen⟩⟩

end

section

variable (carries : q.Carries items) (otherCarries : p.Carries others) (same : p.blind = q.blind)

include carries otherCarries same

theorem await_agrees (seen : q.ready role = false ∨ call.prepare q = q)
    (otherSeen : p.ready role = false ∨ call.prepare p = p) :
    Stretch.Agrees call (q.await role) (p.await role) := by
  have looked : (p.look role).blind = (q.look role).blind := by rw [blind_look, blind_look, same]
  unfold await
  dsimp only
  rw [look_ready_eq_of_blind same carries otherCarries]
  split
  · exact looked_agrees same seen otherSeen []
  · exact beginRound_agrees looked call

theorem resume_agrees (call : Call α role) (short : q.ready role = false)
    (otherShort : p.ready role = false) (pause : Pause) :
    Stretch.Agrees call (q.resume role pause) (p.resume role pause) := by
  have looked : (p.look role).blind = (q.look role).blind := by rw [blind_look, blind_look, same]
  have ready := look_ready_eq_of_blind same carries otherCarries role
  cases pause with
  | snooze round =>
    unfold resume
    dsimp only
    rw [ready, rounds_eq_of_blind same]
    split
    · exact looked_agrees same (.inl short) (.inl otherShort) []
    · exact ⟨looked, rfl, rfl, fun ready => nomatch ready⟩
  | sleep =>
    unfold resume
    dsimp only
    rw [ready]
    split
    · exact looked_agrees same (.inl short) (.inl otherShort) []
    · rename_i stuck
      have fresh := q.look_eq_refresh (Bool.eq_false_iff.mpr stuck)
      rw [← ready] at stuck
      have otherFresh := p.look_eq_refresh (Bool.eq_false_iff.mpr stuck)
      refine enrol_agrees looked call ?_ ?_
      · rw [fresh, refresh_refresh]
      · rw [otherFresh, refresh_refresh]
  | park =>
    have hushed : (p.hush role).blind = (q.hush role).blind := by rw [blind_hush, blind_hush, same]
    have still (r : Queue α) (stuck : r.ready role = false) : (r.hush role).ready role = false := by
      cases role <;> exact stuck
    unfold resume
    dsimp only
    rw [look_ready_eq_of_blind hushed (carries.hush role) (otherCarries.hush role),
      position_eq_of_blind same]
    split
    · exact looked_agrees hushed
        (.inl (still q short)) (.inl (still p otherShort)) _
    · have later : ((p.hush role).look role).blind = ((q.hush role).look role).blind := by
        rw [blind_look, blind_look, hushed]
      have agrees := beginRound_agrees later call
      exact ⟨agrees.queue, congrArg (_ :: ·) agrees.events, agrees.wait, agrees.prepared⟩

theorem tryPush_agrees (item : α) :
    (p.tryPush item).1.blind = (q.tryPush item).1.blind ∧
      (p.tryPush item).2 = (q.tryPush item).2 := by
  have looked : (p.look .producer).blind = (q.look .producer).blind := by
    rw [blind_look, blind_look, same]
  have accepts := (blind_accept (p.look .producer) item true).symm.trans
    ((congrArg (accept · item true) looked).trans (blind_accept (q.look .producer) item true))
  unfold tryPush
  dsimp only
  rw [closed_eq_of_blind same, look_ready_eq_of_blind same carries otherCarries]
  split
  · exact ⟨same, rfl⟩
  · split
    · exact Prod.ext_iff.mp accepts
    · exact ⟨looked, rfl⟩

theorem tryPop_agrees : p.tryPop.1.blind = q.tryPop.1.blind ∧ p.tryPop.2 = q.tryPop.2 := by
  have looked : (p.look .consumer).blind = (q.look .consumer).blind := by
    rw [blind_look, blind_look, same]
  have again : ((p.look .consumer).refresh .consumer).blind =
      ((q.look .consumer).refresh .consumer).blind := by rw [blind_refresh, blind_refresh, looked]
  have delivers (r s : Queue α) (alike : s.blind = r.blind) :
      (s.deliver.1.blind, s.deliver.2) = (r.deliver.1.blind, r.deliver.2) := by
    rw [← blind_deliver, ← blind_deliver, alike]
  unfold tryPop
  dsimp only
  rw [look_ready_eq_of_blind same carries otherCarries, closed_eq_of_blind looked,
    refresh_ready_eq_of_blind looked]
  split
  · exact Prod.ext_iff.mp (delivers _ _ looked)
  · split
    · split
      · exact Prod.ext_iff.mp (delivers _ _ again)
      · exact ⟨again, rfl⟩
    · exact ⟨looked, rfl⟩

end

theorem finish_agrees (same : p.blind = q.blind) (prepared : call.prepare q = q)
    (otherPrepared : call.prepare p = p) :
    (call.finish p).1.blind = (call.finish q).1.blind ∧
      (call.finish p).2 = (call.finish q).2 := by
  cases call with
  | push item force =>
    have accepts := (blind_accept p item force).symm.trans
      ((congrArg (accept · item force) same).trans (blind_accept q item force))
    obtain ⟨queue, result⟩ := Prod.ext_iff.mp accepts
    exact ⟨queue, congrArg Outcome.push result⟩
  | pop =>
    have delivers := (blind_deliver p).symm.trans
      ((congrArg deliver same).trans (blind_deliver q))
    obtain ⟨queue, result⟩ := Prod.ext_iff.mp delivers
    exact ⟨queue, congrArg Outcome.pop result⟩
  | popBatch =>
    obtain ⟨queue, result⟩ := blind_refresh_deliverKnown q
    obtain ⟨other, otherResult⟩ := blind_refresh_deliverKnown p
    have fresh : q.refresh .consumer = q := prepared
    have otherFresh : p.refresh .consumer = p := otherPrepared
    rw [fresh] at queue result
    rw [same, otherFresh] at other otherResult
    exact ⟨other.symm.trans queue, congrArg Outcome.popBatch (otherResult.symm.trans result)⟩

end Queue

end SpscQueue
