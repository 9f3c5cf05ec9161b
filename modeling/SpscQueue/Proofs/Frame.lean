import SpscQueue.Exchange

namespace SpscQueue

universe u

variable {α : Type u} {q next last : Queue α} {role : Role}

namespace Queue

/-- What a party that does not leave changes neither of the handles nor of its peer's books. -/
structure Alike (role : Role) (q next : Queue α) : Prop where
  closed (who : Role) : next.closed who = q.closed who
  capacity : next.capacity = q.capacity
  rounds : next.snoozeRounds = q.snoozeRounds
  cursor : (next.side role.peer).cursor = (q.side role.peer).cursor

namespace Alike

theorem refl (role : Role) (q : Queue α) : Alike role q q := ⟨fun _ => rfl, rfl, rfl, rfl⟩

theorem trans (first : Alike role q next) (second : Alike role next last) : Alike role q last :=
  ⟨fun who => (second.closed who).trans (first.closed who), second.capacity.trans first.capacity,
    second.rounds.trans first.rounds, second.cursor.trans first.cursor⟩

end Alike

theorem look_eq_or (q : Queue α) (role : Role) :
    q.look role = q ∧ q.ready role = true ∨ q.look role = q.refresh role := by
  unfold look
  split
  · split
    · exact Or.inl ⟨rfl, by assumption⟩
    · exact Or.inr rfl
  · exact Or.inr rfl

theorem refresh_refresh (q : Queue α) (role : Role) :
    (q.refresh role).refresh role = q.refresh role := by
  cases role <;> rfl

/-- A look that found the party unable to move on was a fresh one. -/
theorem look_refresh (q : Queue α) (role : Role) : (q.refresh role).look role = q.refresh role := by
  rcases (q.refresh role).look_eq_or role with ⟨same, _⟩ | fresh
  · exact same
  · rw [fresh, refresh_refresh]

theorem refresh_look (q : Queue α) (role : Role) : (q.look role).refresh role = q.refresh role := by
  rcases q.look_eq_or role with ⟨same, _⟩ | fresh
  · rw [same]
  · rw [fresh, refresh_refresh]

theorem look_eq_refresh (short : (q.look role).ready role = false) :
    q.look role = q.refresh role := by
  rcases q.look_eq_or role with ⟨same, ready⟩ | fresh
  · rw [same, ready] at short
    cases short
  · exact fresh

theorem alike_refresh (q : Queue α) (role : Role) : Alike role q (q.refresh role) := by
  cases role <;> exact ⟨fun who => by cases who <;> rfl, rfl, rfl, rfl⟩

theorem alike_look (q : Queue α) (role : Role) : Alike role q (q.look role) := by
  unfold look
  split
  · split
    · exact .refl _ q
    · exact q.alike_refresh role
  · exact q.alike_refresh role

theorem alike_watch (q : Queue α) (threshold : Index) (role : Role) :
    Alike role q (q.watch threshold role) := by
  cases role <;> exact ⟨fun who => by cases who <;> rfl, rfl, rfl, rfl⟩

theorem alike_hush (q : Queue α) (role : Role) : Alike role q (q.hush role) := by
  cases role <;> exact ⟨fun who => by cases who <;> rfl, rfl, rfl, rfl⟩

theorem publish_beside (own peer : Side) :
    (own.publish peer).1.closed = own.closed ∧ (own.publish peer).2.closed = peer.closed ∧
      (own.publish peer).2.cursor = peer.cursor := by
  unfold Side.publish
  split
  · exact ⟨rfl, rfl, rfl⟩
  · dsimp only
    split <;> exact ⟨rfl, rfl, rfl⟩

theorem alike_publish (q : Queue α) (role : Role) : Alike role q (q.publish role) := by
  cases role with
  | producer =>
    obtain ⟨own, peer, books⟩ := publish_beside q.producer q.consumer
    exact ⟨fun who => by cases who <;> assumption, rfl, rfl, books⟩
  | consumer =>
    obtain ⟨own, peer, books⟩ := publish_beside q.consumer q.producer
    exact ⟨fun who => by cases who <;> assumption, rfl, rfl, books⟩

theorem alike_accept (q : Queue α) (item : α) (force : Bool) : Alike .producer q (q.accept item force).1 := by
  unfold accept append?
  cases q.ring.write? q.producer.cursor.position item with
  | none => exact .refl _ q
  | some ring =>
    let written : Queue α := { q with ring, producer.cursor := q.producer.cursor.advance 1 }
    have first : Alike .producer q written := ⟨fun who => by cases who <;> rfl, rfl, rfl, rfl⟩
    show Alike .producer q (if force || written.producer.owesWakeup then written.publish .producer else written)
    split
    · exact first.trans (written.alike_publish .producer)
    · exact first

theorem alike_moved (q : Queue α) (ring : Ring α) (steps : UInt64) :
    Alike .consumer q ({ q with ring, consumer.cursor := q.consumer.cursor.advance steps }.publish
      .consumer) := by
  have first : Alike .consumer q { q with ring, consumer.cursor := q.consumer.cursor.advance steps } :=
    ⟨fun who => by cases who <;> rfl, rfl, rfl, rfl⟩
  exact first.trans (alike_publish _ .consumer)

theorem alike_deliver (q : Queue α) : Alike .consumer q q.deliver.1 := by
  unfold deliver take?
  cases q.ring.read? q.consumer.cursor.position with
  | none => exact .refl _ q
  | some read => exact q.alike_moved read.2 1

theorem alike_deliverKnown (q : Queue α) : Alike .consumer q q.deliverKnown.1 := by
  unfold deliverKnown takeKnown?
  cases Ring.readMany? q.known.toNat q.consumer.cursor.position q.ring with
  | none => exact .refl _ q
  | some read => exact q.alike_moved read.2 q.known

theorem alike_tryPush (q : Queue α) (item : α) : Alike .producer q (q.tryPush item).1 := by
  unfold tryPush
  dsimp only
  split
  · exact .refl _ q
  · split
    · exact (q.alike_look .producer).trans (alike_accept _ item true)
    · exact q.alike_look .producer

theorem alike_tryPop (q : Queue α) : Alike .consumer q q.tryPop.1 := by
  have looked := q.alike_look .consumer
  unfold tryPop
  dsimp only
  split
  · exact looked.trans (alike_deliver _)
  · split
    · have again := looked.trans ((q.look .consumer).alike_refresh .consumer)
      split
      · exact again.trans (alike_deliver _)
      · exact again
    · exact looked

theorem close_closed_peer (q : Queue α) (role : Role) :
    (q.close role).1.closed role.peer = q.closed role.peer := by
  cases role with
  | producer => exact (q.alike_publish .producer).closed .consumer
  | consumer => rfl

theorem close_rounds (q : Queue α) (role : Role) :
    (q.close role).1.snoozeRounds = q.snoozeRounds := by
  cases role with
  | producer => exact (q.alike_publish .producer).rounds
  | consumer => rfl

theorem close_capacity (q : Queue α) (role : Role) : (q.close role).1.capacity = q.capacity := by
  cases role with
  | producer => exact (q.alike_publish .producer).capacity
  | consumer => rfl

theorem alike_lastLook (q : Queue α) (role : Role) : Alike role q (q.lastLook role).queue := by
  cases role with
  | producer => exact .refl _ q
  | consumer =>
    unfold lastLook
    dsimp only
    split <;> exact q.alike_refresh .consumer

theorem alike_beginRound (q : Queue α) (role : Role) : Alike role q (q.beginRound role).queue := by
  unfold beginRound
  split
  · exact q.alike_lastLook role
  · exact .refl _ q

theorem alike_enrol (q : Queue α) (role : Role) : Alike role q (q.enrol role).queue := by
  have asked := q.alike_watch (q.threshold role) role
  cases role with
  | producer =>
    have shown := asked.trans (alike_publish _ .producer)
    unfold enrol
    dsimp only
    split <;> exact shown.trans (alike_refresh _ .producer)
  | consumer =>
    unfold enrol
    dsimp only
    split <;> exact asked.trans (alike_refresh _ .consumer)

theorem alike_await (q : Queue α) (role : Role) : Alike role q (q.await role).queue := by
  unfold await
  dsimp only
  split
  · exact q.alike_look role
  · exact (q.alike_look role).trans (alike_beginRound _ role)

theorem alike_resume (q : Queue α) (role : Role) (pause : Pause) :
    Alike role q (q.resume role pause).queue := by
  cases pause with
  | snooze round =>
    unfold resume
    dsimp only
    split <;> exact q.alike_look role
  | sleep =>
    unfold resume
    dsimp only
    split
    · exact q.alike_look role
    · exact (q.alike_look role).trans (alike_enrol _ role)
  | park =>
    have looked := (q.alike_hush role).trans ((q.hush role).alike_look role)
    unfold resume
    dsimp only
    split
    · exact looked
    · exact looked.trans (alike_beginRound _ role)

theorem alike_prepare (call : Call α role) (q : Queue α) : Alike role q (call.prepare q) := by
  cases call with
  | push => exact .refl _ q
  | pop => exact .refl _ q
  | popBatch => exact q.alike_refresh .consumer

theorem alike_finish (call : Call α role) (q : Queue α) : Alike role q (call.finish q).1 := by
  cases call with
  | push item force => exact q.alike_accept item force
  | pop => exact q.alike_deliver
  | popBatch => exact q.alike_deliverKnown

end Queue

end SpscQueue
