import SpscQueue.Proofs.Accounting
import SpscQueue.Proofs.Backlog
import SpscQueue.Proofs.Tuning

namespace SpscQueue

universe u

variable {α : Type u} {q next : Queue α} {b : Backlog α} {role : Role} {o : Index}
  {pushes more : Nat} {shown deferred : List α}

theorem Backlog.append_current (b : Backlog α) (item : α) (force : Bool) :
    (b.append item force).current = b.current := by
  unfold append
  dsimp only
  split <;> rfl

namespace Queue

/-- The queue carries the items of a backlog and has shown the same ones. -/
structure Depicts (o : Index) (q : Queue α) (b : Backlog α) (pushes : Nat) : Prop where
  carries : q.Carries b.items
  visible : q.shown = b.shown.length
  capacity : q.capacity.toNat = b.capacity
  rounds : q.snoozeRounds = b.snoozeRounds
  closed (who : Role) : q.closed who = b.gone who
  anchored : q.Anchored o pushes

/-- The queue depicts a backlog while a party is at work on it. -/
structure Portrays (o : Index) (role : Role) (q : Queue α) (b : Backlog α) (pushes : Nat) : Prop
    extends Depicts o q b pushes where
  present : q.closed role = false
  own : q.Tuned o role false
  peer : q.Tuned o role.peer (b.parked role.peer)
  watches : b.parked role.peer = true → q.signalled role.peer = true ∨ q.Watches role.peer

/-- A party that does not leave changes at most the two parts of the backlog. -/
theorem Depicts.moved (depicts : q.Depicts o b pushes) (alike : Alike role q next)
    (carries : next.Carries (shown ++ deferred)) (visible : next.shown = shown.length)
    (anchored : next.Anchored o more) : next.Depicts o { b with shown, deferred } more where
  carries := carries
  visible := visible
  capacity := by rw [alike.capacity, depicts.capacity]
  rounds := by rw [alike.rounds, depicts.rounds]
  closed who := by rw [alike.closed, depicts.closed]
  anchored := anchored

theorem Portrays.moved (portrays : q.Portrays o role b pushes) (steady : Steady role q next)
    (regards : Regards role q next) (carries : next.Carries (shown ++ deferred))
    (visible : next.shown = shown.length) (anchored : next.Anchored o more)
    (peer : next.Tuned o role.peer (b.parked role.peer)) :
    next.Portrays o role { b with shown, deferred } more where
  toDepicts := portrays.toDepicts.moved steady.toAlike carries visible anchored
  present := by rw [steady.closed, portrays.present]
  own := portrays.own.steady steady
  peer := peer
  watches parked := by
    rcases portrays.watches parked with raised | asked
    · exact Or.inl (regards.signalled raised)
    · exact regards.watches asked

namespace Portrays

theorem refresh (portrays : q.Portrays o role b pushes) :
    (q.refresh role).Portrays o role b pushes :=
  portrays.moved (q.steady_refresh role) (q.regards_refresh role) (portrays.carries.refresh role)
    (by rw [← portrays.visible]; cases role <;> rfl)
    (portrays.anchored.of_books (by cases role <;> rfl) (by cases role <;> rfl))
    (portrays.peer.refresh role)

theorem look (portrays : q.Portrays o role b pushes) : (q.look role).Portrays o role b pushes := by
  rcases q.look_eq_or role with ⟨same, _⟩ | fresh
  · rwa [same]
  · rw [fresh]
    exact portrays.refresh

theorem published_le (portrays : q.Portrays o role b pushes)
    (early : pushes < 0x8000000000000000) :
    o.span q.producer.cursor.published ≤ 0x8000000000000000 := by
  have reach := (portrays.anchored.published_le portrays.carries).2
  omega

theorem flush (portrays : q.Portrays o .producer b pushes) (early : pushes < 0x8000000000000000) :
    q.flush.Portrays o .producer b.showAll pushes := by
  have carries := portrays.carries
  refine portrays.moved carries.steady_flush carries.regards_flush ?_ carries.flush_shown
    (portrays.anchored.flush carries)
    (portrays.peer.flush carries portrays.anchored (portrays.published_le early))
  rw [List.append_nil]
  exact carries.flush

/-- An item put in is shown at once if the consumer sleeps and waits for it. -/
theorem owes_written (portrays : q.Portrays o .producer b pushes)
    (early : pushes < 0x8000000000000000) (space : q.ready .producer = true) (item : α) :
    (q.written item).producer.owesWakeup = b.awaited := by
  have owes := portrays.peer.owes_written portrays.carries portrays.anchored early portrays.present
    portrays.watches space item
  rw [portrays.visible, List.length_eq_zero_iff] at owes
  rw [Bool.eq_iff_iff, owes, Backlog.awaited, Bool.and_eq_true, List.isEmpty_iff]
  exact Iff.rfl

theorem put (portrays : q.Portrays o .producer b pushes) (early : pushes < 0x8000000000000000)
    (space : q.ready .producer = true) (item : α) (force : Bool) :
    (q.put item force).Portrays o .producer (b.append item force) (pushes + 1) := by
  have carries := portrays.carries
  have steady := carries.steady_put space item force
  have regards := carries.regards_put space item force
  have after := carries.put space item force
  have visible := carries.put_shown space item force
  have anchored := portrays.anchored.put carries space early item force
  have tuned : (q.put item force).Tuned o .consumer (b.parked .consumer) := by
    have written := portrays.peer.written item
    unfold Queue.put
    split
    · exact written.flush (carries.written space item) (portrays.anchored.written carries early item)
        (portrays.published_le early)
    · exact written
  rw [portrays.owes_written early space item] at visible
  unfold Backlog.append
  dsimp only
  split
  · rename_i shows
    rw [if_pos shows] at visible
    refine portrays.moved steady regards ?_ ?_ anchored tuned
    · simpa [Backlog.items] using after
    · simpa [Backlog.items, Nat.add_assoc] using visible
  · rename_i hides
    rw [if_neg hides, portrays.visible] at visible
    refine portrays.moved steady regards ?_ visible anchored tuned
    simpa [Backlog.items] using after

/-- The consumer moves on past the first of the items shown to it. -/
theorem taken {front rest : List α} (portrays : q.Portrays o .consumer b pushes)
    (early : pushes < 0x8000000000000000) (split : b.shown = front ++ rest) {ring : Ring α}
    {steps : UInt64} (count : steps.toNat = front.length)
    (left : (q.taken ring steps).Carries (rest ++ b.deferred)) :
    (q.taken ring steps).Portrays o .consumer { b with shown := rest } pushes := by
  have carries := portrays.carries
  have total : b.shown.length = front.length + rest.length := by simp [split]
  have within : steps.toNat ≤ q.shown := by
    rw [portrays.visible]
    omega
  refine portrays.moved (carries.steady_taken ring steps) (carries.regards_taken ring within) left ?_
    (portrays.anchored.taken carries ring within)
    (portrays.peer.taken carries portrays.anchored early ring within)
  rw [carries.taken_shown ring within, portrays.visible]
  omega

end Portrays

namespace Depicts

variable (depicts : q.Depicts o b pushes)

include depicts

theorem canMove_producer_iff : q.CanMove .producer ↔ b.full = false := by
  have most := depicts.carries.length_le
  have capacity := depicts.capacity
  rw [depicts.carries.canMove_producer_iff, Backlog.full, beq_eq_false_iff_ne]
  omega

theorem canMove_consumer_iff : q.CanMove .consumer ↔ b.shown ≠ [] := by
  show 0 < q.shown ↔ _
  rw [depicts.visible, List.length_pos_iff]

/-- A call waits in the backlog if it has to wait in the queue. -/
theorem attempt_of_stuck (call : Call α role) (stuck : ¬ q.CanMove role) : b.attempt call = none := by
  cases call with
  | push item force =>
    have full : b.full = true :=
      Bool.of_not_eq_false fun room => stuck (depicts.canMove_producer_iff.mpr room)
    exact if_pos full
  | pop =>
    have nothing : b.shown = [] :=
      Decidable.not_not.mp fun some => stuck (depicts.canMove_consumer_iff.mpr some)
    simp only [Backlog.attempt, nothing]
  | popBatch =>
    have nothing : b.shown = [] :=
      Decidable.not_not.mp fun some => stuck (depicts.canMove_consumer_iff.mpr some)
    simp only [Backlog.attempt, nothing]

theorem due_iff (role : Role) : b.due role = true ↔ q.Due role := by
  have length := depicts.carries.length_eq
  have capacity := depicts.capacity
  have visible := depicts.visible
  cases role with
  | producer =>
    show decide (b.items.length + max 1 (b.capacity / 4) ≤ b.capacity) = true ↔
      q.consumer.cursor.position.span q.producer.cursor.position + max 1 (q.capacity.toNat / 4) ≤
        q.capacity.toNat
    rw [decide_eq_true_eq, length, capacity]
  | consumer =>
    show (!b.shown.isEmpty) = true ↔ 0 < q.shown
    rw [visible, Bool.not_eq_true', List.isEmpty_eq_false_iff, List.length_pos_iff]

theorem length_eq (role : Role) : (q.length role).toNat = b.length role := by
  cases role with
  | producer => exact depicts.carries.inFlight_eq
  | consumer => exact depicts.carries.waiting_eq.trans depicts.visible

/-- An onlooker sees the same items as the consumer. -/
theorem visibleLength_eq (early : pushes < 0x8000000000000000) :
    q.visibleLength.toNat = b.length .consumer := by
  have near := depicts.carries.shown_le
  have most := depicts.anchored.length_le depicts.carries
  have visible := depicts.visible
  have ahead : (q.consumer.post.index.gap q.producer.post.index).toNat = q.shown := by
    rw [depicts.carries.consumer_posted, depicts.carries.producer_posted]
    rfl
  have before : ¬ q.producer.post.index.behind q.consumer.post.index = true := by
    rw [Index.behind_iff, ahead]
    omega
  rw [visibleLength, lengthBetween, if_neg before, ahead]
  exact visible

end Depicts

namespace Portrays

theorem accept (portrays : q.Portrays o .producer b pushes) (early : pushes < 0x8000000000000000)
    (space : q.ready .producer = true) (item : α) (force : Bool) :
    (q.accept item force).2 = .accepted item ∧
      (q.accept item force).1.Portrays o .producer (b.append item force) (pushes + 1) := by
  rw [portrays.carries.accept_eq space]
  exact ⟨rfl, portrays.put early space item force⟩

theorem deliver (portrays : q.Portrays o .consumer b pushes) (early : pushes < 0x8000000000000000)
    (ready : q.ready .consumer = true) :
    ∃ item rest, b.shown = item :: rest ∧ q.deliver.2 = .ok item ∧
      q.deliver.1.Portrays o .consumer { b with shown := rest } pushes := by
  have some := portrays.canMove_consumer_iff.mp (portrays.carries.canMove_of_ready ready)
  obtain ⟨item, rest, split⟩ := List.exists_cons_of_ne_nil some
  obtain ⟨head, tail, ring, whole, delivered, left⟩ := portrays.carries.deliver ready
  rw [Backlog.items, split, List.cons_append, List.cons.injEq] at whole
  obtain ⟨rfl, rfl⟩ := whole
  have first : b.shown = [item] ++ rest := split
  rw [delivered]
  exact ⟨item, rest, split, rfl, portrays.taken early first rfl left⟩

/-- A batch that begins with a fresh look takes everything that is shown. -/
theorem deliverKnown (portrays : q.Portrays o .consumer b pushes)
    (early : pushes < 0x8000000000000000) (fresh : q.refresh .consumer = q) :
    q.deliverKnown.2 = .ok b.shown ∧
      q.deliverKnown.1.Portrays o .consumer { b with shown := [] } pushes := by
  obtain ⟨front, rest, ring, whole, count, delivered, left⟩ := portrays.carries.deliverKnown
  have known : q.known.toNat = q.shown := by
    have seen : q.consumer.cursor.seen = q.producer.cursor.published := by
      rw [← portrays.carries.producer_posted]
      exact congrArg (·.consumer.cursor.seen) fresh.symm
    rw [Queue.known, seen]
    rfl
  have lengths : b.shown.length = front.length := by rw [count, known, portrays.visible]
  obtain ⟨rfl, rfl⟩ := List.append_inj whole lengths
  have all : b.shown = b.shown ++ [] := (List.append_nil _).symm
  rw [delivered]
  exact ⟨rfl, portrays.taken early all count.symm left⟩

/-- A call that can move on does the same work on the queue and on the backlog. -/
theorem finish (portrays : q.Portrays o role b pushes) (early : pushes < 0x8000000000000000)
    (call : Call α role) (ready : q.ready role = true) (prepared : call.prepare q = q) :
    ∃ next result, b.attempt call = some (next, result) ∧ (call.finish q).2.result = result ∧
      (call.finish q).1.Portrays o role next (pushes + ([result].filterMap Result.accepted).length) ∧
      next.current = b.current := by
  have moves := portrays.carries.canMove_of_ready ready
  cases call with
  | push item force =>
    have room : b.full = false := portrays.canMove_producer_iff.mp moves
    obtain ⟨accepted, after⟩ := portrays.accept early ready item force
    refine ⟨b.append item force, .push (.accepted item), ?_, ?_, after, ?_⟩
    · simp only [Backlog.attempt, room, Bool.false_eq_true, if_false]
    · exact congrArg Result.push accepted
    · exact b.append_current item force
  | pop =>
    obtain ⟨item, rest, split, delivered, after⟩ := portrays.deliver early ready
    refine ⟨{ b with shown := rest }, .pop (.ok item), ?_, ?_, after, rfl⟩
    · simp only [Backlog.attempt, split]
    · exact congrArg Result.pop delivered
  | popBatch =>
    obtain ⟨delivered, after⟩ := portrays.deliverKnown early prepared
    obtain ⟨item, rest, split⟩ :=
      List.exists_cons_of_ne_nil (portrays.canMove_consumer_iff.mp moves)
    refine ⟨{ b with shown := [] }, .popBatch (.ok ⟨[], item :: rest⟩), ?_, ?_, after, rfl⟩
    · simp only [Backlog.attempt, split]
    · rw [split] at delivered
      show Outcome.result (.popBatch q.deliverKnown.2) = _
      rw [delivered]
      rfl

theorem tryPush (portrays : q.Portrays o .producer b pushes) (early : pushes < 0x8000000000000000)
    (item : α) :
    (q.tryPush item).2 = (b.tryPush item).2 ∧
      (q.tryPush item).1.Portrays o .producer (b.tryPush item).1
        (pushes + ([Result.tryPush (q.tryPush item).2].filterMap Result.accepted).length) ∧
      (b.tryPush item).1.current = b.current := by
  have closed := portrays.closed .consumer
  have room := portrays.canMove_producer_iff
  unfold Backlog.tryPush
  rcases tryPush_cases portrays.carries item with
    ⟨left, refused⟩ | ⟨present, moves, ready, accepted⟩ | ⟨present, stuck, refused⟩
  · rw [refused, if_pos (by rw [← closed, left])]
    exact ⟨rfl, portrays, rfl⟩
  · rw [accepted, if_neg (by simp [← closed, present]), if_neg (by simp [room.mp moves])]
    exact ⟨rfl, portrays.look.put early ready item true, b.append_current item true⟩
  · have full : b.full = true := Bool.of_not_eq_false fun free => stuck (room.mpr free)
    rw [refused, if_neg (by simp [← closed, present]), if_pos full]
    exact ⟨rfl, portrays.look, rfl⟩

theorem tryPop (portrays : q.Portrays o .consumer b pushes) (early : pushes < 0x8000000000000000) :
    q.tryPop.2 = b.tryPop.2 ∧ q.tryPop.1.Portrays o .consumer b.tryPop.1 pushes ∧
      b.tryPop.1.current = b.current := by
  have closed := portrays.closed .producer
  have nothing (stuck : ¬ q.CanMove .consumer) : b.shown = [] :=
    Decidable.not_not.mp fun some => stuck (portrays.canMove_consumer_iff.mpr some)
  unfold Backlog.tryPop
  rcases tryPop_cases portrays.carries with
    ⟨_, ready, delivered⟩ | ⟨stuck, left, refused⟩ | ⟨stuck, present, refused⟩
  · obtain ⟨item, rest, split, brought, after⟩ := portrays.look.deliver early ready
    rw [delivered, split]
    exact ⟨brought, after, rfl⟩
  · rw [refused, nothing stuck, ← closed, left]
    exact ⟨rfl, portrays.refresh, rfl⟩
  · rw [refused, nothing stuck, ← closed, present]
    exact ⟨rfl, portrays.look, rfl⟩

theorem close (portrays : q.Portrays o role b pushes) (early : pushes < 0x8000000000000000) :
    (q.close role).1.Depicts o (b.close role) pushes ∧ (q.close role).1.Tuned o role false ∧
      (q.close role).1.Tuned o role.peer ((b.close role).parked role.peer) := by
  cases role with
  | producer =>
    have flushed := portrays.flush early
    have closed (who : Role) : (q.close .producer).1.closed who = (b.close .producer).gone who := by
      cases who with
      | producer => rfl
      | consumer => exact flushed.closed .consumer
    have carries : (q.close .producer).1.Carries b.showAll.items := { flushed.carries with }
    refine ⟨?_, ⟨flushed.own.raised, flushed.own.asked⟩, .of_closed rfl⟩
    exact
      { carries := carries
        visible := flushed.visible
        capacity := flushed.capacity
        rounds := flushed.rounds
        closed := closed
        anchored := flushed.anchored.of_books rfl rfl }
  | consumer =>
    have closed (who : Role) : (q.close .consumer).1.closed who = (b.close .consumer).gone who := by
      cases who with
      | producer => exact portrays.closed .producer
      | consumer => rfl
    refine ⟨?_, ⟨portrays.own.raised, portrays.own.asked⟩, .of_closed rfl⟩
    exact
      { carries := portrays.carries.close .consumer
        visible := portrays.visible
        capacity := portrays.capacity
        rounds := portrays.rounds
        closed := closed
        anchored := portrays.anchored.of_books rfl rfl }

end Portrays

end Queue

end SpscQueue
