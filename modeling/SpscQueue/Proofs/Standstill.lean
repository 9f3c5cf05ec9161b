import SpscQueue.Proofs.Concluding

namespace SpscQueue

universe u

variable {α : Type u} {q next last : Queue α} {x y : Exchange α} {items left : List α} {role : Role}
  {moves : List (Move α)} {results : List (Result α)}

namespace Queue

/-- The ring and the places of the parties are as before. -/
structure Unmoved (q next : Queue α) : Prop where
  ring : next.ring = q.ring
  capacity : next.capacity = q.capacity
  position (who : Role) : next.position who = q.position who

theorem Unmoved.refl (q : Queue α) : Unmoved q q := ⟨rfl, rfl, fun _ => rfl⟩

theorem Unmoved.trans (first : Unmoved q next) (second : Unmoved next last) : Unmoved q last :=
  ⟨second.ring.trans first.ring, second.capacity.trans first.capacity,
    fun who => (second.position who).trans (first.position who)⟩

theorem Unmoved.canMove_producer (unmoved : Unmoved q next) :
    next.CanMove .producer ↔ q.CanMove .producer := by
  have producer : next.producer.cursor.position = q.producer.cursor.position :=
    unmoved.position .producer
  have consumer : next.consumer.cursor.position = q.consumer.cursor.position :=
    unmoved.position .consumer
  unfold CanMove
  rw [producer, consumer, unmoved.capacity]

theorem unmoved_refresh (q : Queue α) (role : Role) : Unmoved q (q.refresh role) := by
  cases role <;> exact ⟨rfl, rfl, fun who => by cases who <;> rfl⟩

theorem unmoved_look (q : Queue α) (role : Role) : Unmoved q (q.look role) := by
  rcases q.look_eq_or role with ⟨same, _⟩ | fresh
  · rw [same]
    exact .refl q
  · rw [fresh]
    exact q.unmoved_refresh role

theorem unmoved_watch (q : Queue α) (threshold : Index) (role : Role) :
    Unmoved q (q.watch threshold role) := by
  cases role <;> exact ⟨rfl, rfl, fun who => by cases who <;> rfl⟩

theorem unmoved_hush (q : Queue α) (role : Role) : Unmoved q (q.hush role) := by
  cases role <;> exact ⟨rfl, rfl, fun who => by cases who <;> rfl⟩

theorem publish_position (own peer : Side) :
    (own.publish peer).1.cursor.position = own.cursor.position ∧
      (own.publish peer).2.cursor.position = peer.cursor.position := by
  unfold Side.publish
  split
  · exact ⟨rfl, rfl⟩
  · dsimp only
    split <;> exact ⟨rfl, rfl⟩

theorem unmoved_publish (q : Queue α) (role : Role) : Unmoved q (q.publish role) := by
  cases role with
  | producer =>
    obtain ⟨own, peer⟩ := publish_position q.producer q.consumer
    exact ⟨rfl, rfl, fun who => by cases who <;> assumption⟩
  | consumer =>
    obtain ⟨own, peer⟩ := publish_position q.consumer q.producer
    exact ⟨rfl, rfl, fun who => by cases who <;> assumption⟩

theorem unmoved_close (q : Queue α) (role : Role) : Unmoved q (q.close role).1 := by
  cases role with
  | producer =>
    obtain ⟨ring, capacity, position⟩ := q.unmoved_publish .producer
    refine ⟨ring, capacity, fun who => ?_⟩
    cases who with
    | producer => exact position .producer
    | consumer => exact position .consumer
  | consumer => exact ⟨rfl, rfl, fun who => by cases who <;> rfl⟩

theorem unmoved_beginRound (q : Queue α) (role : Role) : Unmoved q (q.beginRound role).queue := by
  unfold beginRound
  split
  · cases role with
    | producer => exact .refl q
    | consumer =>
      unfold lastLook
      dsimp only
      split <;> exact q.unmoved_refresh .consumer
  · exact .refl q

theorem unmoved_enrol (q : Queue α) (role : Role) : Unmoved q (q.enrol role).queue := by
  have asked := q.unmoved_watch (q.threshold role) role
  cases role with
  | producer =>
    rw [enrol_producer_queue]
    exact (asked.trans (unmoved_publish _ .producer)).trans (unmoved_refresh _ .producer)
  | consumer =>
    rw [enrol_consumer_queue]
    exact asked.trans (unmoved_refresh _ .consumer)

theorem unmoved_await (q : Queue α) (role : Role) : Unmoved q (q.await role).queue := by
  unfold await
  dsimp only
  split
  · exact q.unmoved_look role
  · exact (q.unmoved_look role).trans (unmoved_beginRound _ role)

theorem unmoved_resume (q : Queue α) (role : Role) (pause : Pause) :
    Unmoved q (q.resume role pause).queue := by
  cases pause with
  | snooze round =>
    unfold resume
    dsimp only
    split <;> exact q.unmoved_look role
  | sleep =>
    unfold resume
    dsimp only
    split
    · exact q.unmoved_look role
    · exact (q.unmoved_look role).trans (unmoved_enrol _ role)
  | park =>
    have looked := (q.unmoved_hush role).trans ((q.hush role).unmoved_look role)
    unfold resume
    dsimp only
    split
    · exact looked
    · exact looked.trans (unmoved_beginRound _ role)

theorem unmoved_prepare (call : Call α role) (q : Queue α) : Unmoved q (call.prepare q) := by
  cases call with
  | push | pop => exact .refl q
  | popBatch => exact q.unmoved_refresh .consumer

end Queue

/-- A call that has done its work tells of an item. -/
theorem Call.Does.tells {call : Call α role} {outcome : Outcome α}
    (does : call.Does items outcome left) (nothing : outcome.result.accepted = none) :
    outcome.result.delivered ≠ [] := by
  cases does with
  | push => cases nothing
  | pop => exact List.cons_ne_nil _ _
  | popBatch _ some => exact some

namespace Exchange

/-- A stretch of a call that moves no item tells of none, and the other way round. -/
theorem arrive_unmoved {call : Call α role} {stretch : Stretch α}
    (keeps : stretch.Keeps role q items) (unmoved : Queue.Unmoved x.queue stretch.queue)
    (accepted : ((x.arrive call stretch).turn role).accepted = [])
    (delivered : ((x.arrive call stretch).turn role).delivered = []) :
    Queue.Unmoved x.queue (x.arrive call stretch).exchange.queue := by
  cases wait : stretch.wait with
  | ready =>
    obtain ⟨left, does⟩ := keeps.carries.finish_does call (keeps.ready wait)
    simp only [Exchange.arrive, wait, Advance.turn, Turn.accepted, Turn.delivered, Option.toList_some,
      List.filterMap_cons, List.filterMap_nil, List.flatMap_singleton] at accepted delivered
    refine absurd delivered (does.tells ?_)
    cases told : (call.finish stretch.queue).2.result.accepted with
    | none => rfl
    | some item =>
      rw [told] at accepted
      cases accepted
  | gone =>
    simp only [Exchange.arrive, wait]
    rwa [withCurrent_queue]
  | pausing pause =>
    simp only [Exchange.arrive, wait]
    rwa [withCurrent_queue]

theorem Sound.play_unmoved (sound : x.Sound items) {move : Move α} (allowed : x.allows move = true)
    (accepted : (x.play move).accepted = []) (delivered : (x.play move).delivered = []) :
    Queue.Unmoved x.queue (x.play move).exchange.queue := by
  cases move with
  | start role call =>
    exact arrive_unmoved (prepare_keeps sound.carries call)
      ((Queue.unmoved_prepare call x.queue).trans (Queue.unmoved_await _ role)) accepted delivered
  | proceed role =>
    have busy := (Bool.and_eq_true_iff.mp allowed).1
    obtain ⟨⟨call, pause⟩, current⟩ := busy_iff.mp busy
    have goes := proceed_eq current
    simp only [Exchange.play, goes] at accepted delivered ⊢
    exact arrive_unmoved (Queue.resume_keeps sound.carries (sound.told role busy) pause)
      (Queue.unmoved_resume x.queue role pause) accepted delivered
  | tryPush item =>
    simp only [Exchange.play, Turn.accepted] at accepted ⊢
    rcases Queue.tryPush_cases sound.carries item with ⟨_, made⟩ | ⟨_, _, _, made⟩ | ⟨_, _, made⟩
    · rw [made]
      exact .refl x.queue
    · rw [made] at accepted
      cases accepted
    · rw [made]
      exact x.queue.unmoved_look .producer
  | tryPop =>
    simp only [Exchange.play, Turn.delivered] at delivered ⊢
    rcases Queue.tryPop_cases sound.carries with ⟨_, ready, made⟩ | ⟨_, _, made⟩ | ⟨_, _, made⟩
    · obtain ⟨item, rest, ring, _, brought, _⟩ := (sound.carries.look .consumer).deliver ready
      rw [made, brought] at delivered
      cases delivered
    · rw [made]
      exact x.queue.unmoved_refresh .consumer
    · rw [made]
      exact x.queue.unmoved_look .consumer
  | flush => exact x.queue.unmoved_publish .producer
  | close role => exact x.queue.unmoved_close role

/-- A run that tells of no item leaves the ring and the places of the parties as they are. -/
theorem Sound.run_unmoved (sound : x.Sound items) (run : x.Runs moves results y)
    (accepted : results.filterMap Result.accepted = [])
    (delivered : results.flatMap Result.delivered = []) : Queue.Unmoved x.queue y.queue := by
  induction run generalizing items with
  | rest x => exact .refl x.queue
  | @next x y move moves results allowed _ ih =>
    rw [List.filterMap_append, List.append_eq_nil_iff] at accepted
    rw [List.flatMap_append, List.append_eq_nil_iff] at delivered
    obtain ⟨middle, soundNow, _⟩ := sound.play allowed
    exact (sound.play_unmoved allowed accepted.1 delivered.1).trans
      (ih soundNow accepted.2 delivered.2)

end Exchange

end SpscQueue
