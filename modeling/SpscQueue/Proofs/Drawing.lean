import SpscQueue.Proofs.Outstanding

namespace SpscQueue

universe u

variable {α : Type u} {q next mid : Queue α} {x : Exchange α} {items front : List α}

namespace Queue

/-- The queue without what a party changes when it only looks or waits: what it saw last, its signal,
and what it has asked for. -/
def outward (q : Queue α) : Role → Queue α
  | .producer =>
    { q with
      consumer.post.threshold := 0
      producer.cursor.seen := 0
      producer.signal := .quiet }
  | .consumer =>
    { q with
      producer.post.threshold := 0
      consumer.cursor.seen := 0
      consumer.signal := .quiet }

theorem outward_refresh (q : Queue α) (role : Role) :
    (q.refresh role).outward role = q.outward role := by
  cases role <;> rfl

theorem outward_look (q : Queue α) (role : Role) : (q.look role).outward role = q.outward role := by
  rcases q.look_eq_or role with ⟨same, _⟩ | fresh
  · rw [same]
  · rw [fresh, outward_refresh]

theorem outward_watch (q : Queue α) (threshold : Index) (role : Role) :
    (q.watch threshold role).outward role = q.outward role := by
  cases role <;> rfl

theorem outward_hush (q : Queue α) (role : Role) : (q.hush role).outward role = q.outward role := by
  cases role <;> rfl

theorem outward_beginRound (q : Queue α) (role : Role) :
    (q.beginRound role).queue.outward role = q.outward role := by
  unfold beginRound
  split
  · cases role with
    | producer => rfl
    | consumer =>
      unfold lastLook
      dsimp only
      split <;> exact q.outward_refresh .consumer
  · rfl

theorem outward_enrol_consumer (q : Queue α) :
    (q.enrol .consumer).queue.outward .consumer = q.outward .consumer := by
  rw [enrol_consumer_queue, outward_refresh, outward_watch]

theorem outward_await (q : Queue α) (role : Role) :
    (q.await role).queue.outward role = q.outward role := by
  unfold await
  dsimp only
  split
  · exact q.outward_look role
  · rw [outward_beginRound, outward_look]

/-- A party that goes on waiting only looks and waits, unless it is on its way into the park. -/
theorem outward_resume (q : Queue α) (role : Role) (pause : Pause) :
    (q.resume role pause).queue.outward role = q.outward role ∨
      (q.look role).ready role = false ∧ q.resume role pause = (q.look role).enrol role := by
  cases pause with
  | snooze round =>
    unfold resume
    dsimp only
    split <;> exact Or.inl (q.outward_look role)
  | sleep =>
    unfold resume
    dsimp only
    split
    · exact Or.inl (q.outward_look role)
    · rename_i short
      exact Or.inr ⟨Bool.eq_false_iff.mpr short, rfl⟩
  | park =>
    unfold resume
    dsimp only
    split
    · exact Or.inl (by rw [outward_look, outward_hush])
    · exact Or.inl (by rw [outward_beginRound, outward_look, outward_hush])

theorem outward_prepare {role : Role} (call : Call α role) (q : Queue α) :
    (call.prepare q).outward role = q.outward role := by
  cases call <;> rfl

/-- What a move of the consumer does to the rest of the queue: nothing, as long as it looks or waits, or
it moves on past the items that it takes, or it leaves. -/
inductive Draws (q : Queue α) (items : List α) : List α → Queue α → Prop
  | waits {next : Queue α} : next.outward .consumer = q.outward .consumer → Draws q items [] next
  | takes {mid : Queue α} {front : List α} {steps : UInt64} (ring : Ring α) :
      mid.outward .consumer = q.outward .consumer → mid.Carries items → steps.toNat = front.length →
      steps.toNat ≤ mid.shown → Draws q items front (mid.taken ring steps)
  | leaves : Draws q items [] (q.close .consumer).1

/-- A consumer that takes an item has seen it. -/
theorem Carries.deliver_draws (carries : mid.Carries items) (same : mid.outward .consumer = q.outward .consumer)
    (ready : mid.ready .consumer = true) :
    ∃ item, mid.deliver.2 = .ok item ∧ q.Draws items [item] mid.deliver.1 := by
  obtain ⟨item, rest, ring, _, delivered, _⟩ := carries.deliver ready
  rw [delivered]
  exact ⟨item, rfl, .takes ring same carries rfl (carries.shown_pos_of_ready ready)⟩

theorem Carries.finish_draws (carries : mid.Carries items) (same : mid.outward .consumer = q.outward .consumer)
    (ready : mid.ready .consumer = true) (call : Call α .consumer) :
    q.Draws items (call.finish mid).2.result.delivered (call.finish mid).1 := by
  cases call with
  | pop =>
    obtain ⟨item, brought, draws⟩ := carries.deliver_draws same ready
    show q.Draws items (Outcome.pop mid.deliver.2).result.delivered mid.deliver.1
    rw [brought]
    exact draws
  | popBatch =>
    obtain ⟨front, rest, ring, _, count, delivered, _⟩ := carries.deliverKnown
    simp only [Call.finish, delivered, Prod.map_apply, id_eq]
    exact .takes ring same carries count.symm carries.consumer_seen

end Queue

namespace Exchange

theorem arrive_draws (call : Call α .consumer) {stretch : Stretch α}
    (keeps : stretch.Keeps .consumer x.queue items)
    (same : stretch.queue.outward .consumer = x.queue.outward .consumer) :
    x.queue.Draws items ((x.arrive call stretch).turn .consumer).delivered
      (x.arrive call stretch).exchange.queue := by
  cases wait : stretch.wait with
  | ready =>
    simp only [Exchange.arrive, wait, Advance.turn, Turn.delivered, Option.toList_some,
      List.flatMap_singleton, withCurrent_queue]
    exact keeps.carries.finish_draws same (keeps.ready wait) call
  | gone =>
    have silent : call.giveUp.result.delivered = [] := by cases call <;> rfl
    simp only [Exchange.arrive, wait, Advance.turn, Turn.delivered, Option.toList_some,
      List.flatMap_singleton, withCurrent_queue, silent]
    exact .waits same
  | pausing pause =>
    have silent : ((x.arrive call stretch).turn .consumer).delivered = [] := by
      simp only [Exchange.arrive, wait, Advance.turn, Turn.delivered]
      split <;> rfl
    rw [silent]
    simp only [Exchange.arrive, wait, withCurrent_queue]
    exact .waits same

/-- Whatever the consumer does, the rest of the queue can tell no more of it. -/
theorem Sound.play_draws (sound : x.Sound items) {move : Move α} (allowed : x.allows move = true)
    (own : move.role = .consumer) :
    x.queue.Draws items (x.play move).delivered (x.play move).exchange.queue := by
  have carries := sound.carries
  cases move with
  | start role call =>
    cases own
    refine arrive_draws call (prepare_keeps carries call) ?_
    rw [Queue.outward_await, Queue.outward_prepare]
  | proceed role =>
    cases own
    have busy := (Bool.and_eq_true_iff.mp allowed).1
    obtain ⟨⟨call, pause⟩, current⟩ := busy_iff.mp busy
    simp only [Exchange.play, proceed_eq current]
    refine arrive_draws call (Queue.resume_keeps carries (sound.told .consumer busy) pause) ?_
    rcases x.queue.outward_resume .consumer pause with same | ⟨_, parks⟩
    · exact same
    · rw [parks, Queue.outward_enrol_consumer, Queue.outward_look]
  | tryPush item => cases own
  | tryPop =>
    simp only [Exchange.play, Turn.delivered, Option.toList_some, List.flatMap_singleton]
    rcases Queue.tryPop_cases carries with ⟨_, ready, made⟩ | ⟨_, _, made⟩ | ⟨_, _, made⟩
    · obtain ⟨item, brought, draws⟩ :=
        (carries.look .consumer).deliver_draws (x.queue.outward_look .consumer) ready
      rw [made, brought]
      exact draws
    · rw [made]
      exact .waits (x.queue.outward_refresh .consumer)
    · rw [made]
      exact .waits (x.queue.outward_look .consumer)
  | flush => cases own
  | close role =>
    cases own
    exact .leaves

end Exchange

end SpscQueue
