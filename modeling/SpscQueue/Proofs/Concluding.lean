import SpscQueue.Proofs.Parting

namespace SpscQueue

universe u

variable {α : Type u} {x : Exchange α} {q : Queue α} {items left : List α} {outcome : Outcome α}
  {role : Role}

/-- What a call that can move on does to the items in the queue, and how it ends. -/
inductive Call.Does : {role : Role} → Call α role → List α → Outcome α → List α → Prop
  | push (item : α) (force : Bool) (items : List α) :
      Does (.push item force) items (.push (.accepted item)) (items ++ [item])
  | pop (item : α) (rest : List α) : Does .pop (item :: rest) (.pop (.ok item)) rest
  | popBatch {front : List α} (rest : List α) : front ≠ [] →
      Does .popBatch (front ++ rest) (.popBatch (.ok front)) rest

theorem Call.Does.balance {call : Call α role} (does : call.Does items outcome left) :
    items ++ [outcome.result].filterMap Result.accepted =
      [outcome.result].flatMap Result.delivered ++ left := by
  cases does with
  | push item force items => rfl
  | pop item rest => exact List.append_nil _
  | popBatch rest some => simp [Outcome.result, Result.accepted, Result.delivered]

namespace Queue

theorem Carries.finish_does (carries : q.Carries items) (call : Call α role)
    (ready : q.ready role = true) : ∃ left, call.Does items (call.finish q).2 left := by
  cases call with
  | push item force =>
    refine ⟨items ++ [item], ?_⟩
    simp only [Call.finish, carries.accept_eq ready, Prod.map_apply]
    exact .push item force items
  | pop =>
    obtain ⟨item, rest, ring, rfl, delivered, _⟩ := carries.deliver ready
    refine ⟨rest, ?_⟩
    simp only [Call.finish, delivered, Prod.map_apply]
    exact .pop item rest
  | popBatch =>
    obtain ⟨front, rest, ring, rfl, count, delivered, _⟩ := carries.deliverKnown
    have some : 0 < q.known.toNat := (ready_consumer_iff q).mp ready
    refine ⟨rest, ?_⟩
    simp only [Call.finish, delivered, Prod.map_apply]
    exact .popBatch rest (List.ne_nil_of_length_pos (by rwa [count]))

/-- A producer that cannot move on has filled the queue. -/
theorem Carries.full_of_stuck (carries : q.Carries items) (stuck : ¬ q.CanMove .producer) :
    items.length = q.capacity.toNat := by
  have most := carries.length_le
  rw [carries.canMove_producer_iff] at stuck
  omega

/-- A consumer that cannot move on after the end of its peer has taken everything. -/
theorem Carries.drained_of_stuck (carries : q.Carries items) (parted : q.Parted)
    (gone : q.closed .producer = true) (stuck : ¬ q.CanMove .consumer) : items = [] := by
  have all := carries.length_eq
  rw [← parted gone] at all
  exact List.length_eq_zero_iff.mp (all.symm.trans (Nat.eq_zero_of_not_pos stuck))

end Queue

namespace Exchange

/-- How a call stands when its party next stops: it pauses, it is given up since the peer is gone for
good, or it has done its work. -/
inductive Came (items : List α) {role : Role} (call : Call α role) : Advance α → Prop
  | pauses {y : Exchange α} {events : List Event} (pause : Pause) :
      y.current role = some ⟨call, pause⟩ → y.Sound items → Came items call ⟨y, events, none⟩
  | givesUp {y : Exchange α} {events : List Event} :
      y.current role = none → y.Sound items → y.queue.closed role.peer = true →
      ¬ y.queue.CanMove role → Came items call ⟨y, events, some call.giveUp⟩
  | does {y : Exchange α} {events : List Event} {outcome : Outcome α} {left : List α} :
      y.current role = none → y.Sound left → call.Does items outcome left →
      Came items call ⟨y, events, some outcome⟩

theorem Sound.arrive_came (sound : x.Sound items) (call : Call α role) {stretch : Stretch α}
    (keeps : stretch.Keeps role x.queue items) (present : x.queue.closed role = false) :
    Came items call (x.arrive call stretch) := by
  obtain ⟨left, soundNow, balance, _⟩ := sound.arrive call keeps present
  cases wait : stretch.wait with
  | ready =>
    obtain ⟨after, does⟩ := keeps.carries.finish_does call (keeps.ready wait)
    have made : x.arrive call stretch =
        ⟨{ x with queue := (call.finish stretch.queue).1 }.withCurrent (none : Option (Paused α role)),
          stretch.events, some (call.finish stretch.queue).2⟩ := by
      simp only [Exchange.arrive, wait]
    rw [made] at soundNow balance ⊢
    have same : after = left := List.append_cancel_left (does.balance.symm.trans balance)
    subst same
    exact .does (current_withCurrent_self none) soundNow does
  | gone =>
    obtain ⟨gone, stuck⟩ := keeps.gone wait
    have made : x.arrive call stretch =
        ⟨{ x with queue := stretch.queue }.withCurrent (none : Option (Paused α role)),
          stretch.events, some call.giveUp⟩ := by
      simp only [Exchange.arrive, wait]
    rw [made] at soundNow balance ⊢
    have same : items = left := by
      cases call <;> exact (List.append_nil items).symm.trans balance
    subst same
    exact .givesUp (current_withCurrent_self none) soundNow (by rwa [withCurrent_queue])
      (by rwa [withCurrent_queue])
  | pausing pause =>
    have made : x.arrive call stretch =
        ⟨{ x with queue := stretch.queue }.withCurrent (some ⟨call, pause⟩), stretch.events, none⟩ := by
      simp only [Exchange.arrive, wait]
    rw [made] at soundNow balance ⊢
    have same : items = left := by
      simp only [Advance.turn, Turn.accepted, Turn.delivered] at balance
      split at balance <;> exact (List.append_nil items).symm.trans balance
    subst same
    exact .pauses pause (current_withCurrent_self _) soundNow

theorem Sound.start_came (sound : x.Sound items) (call : Call α role) (rests : x.atRest role = true) :
    Came items call (x.start call) :=
  sound.arrive_came call (prepare_keeps sound.carries call) (atRest_iff.mp rests).1

theorem Sound.proceed_came (sound : x.Sound items) {call : Call α role} {pause : Pause}
    (paused : x.current role = some ⟨call, pause⟩) : Came items call (x.proceed role) := by
  have busy : x.busy role = true := busy_iff.mpr ⟨_, paused⟩
  rw [proceed_eq paused]
  exact sound.arrive_came call (Queue.resume_keeps sound.carries (sound.told role busy) pause)
    (sound.present role busy)

/-- The three ways in which an attempt to take an item out can go: it takes the oldest one, it finds
everything taken and the peer gone, or it finds nothing yet. -/
theorem Sound.tryPop_came (sound : x.Sound items) (parted : x.queue.Parted)
    (rests : x.atRest .consumer = true) :
    (∃ item left, items = item :: left ∧ x.queue.tryPop.2 = .ok item ∧
        { x with queue := x.queue.tryPop.1 }.Sound left) ∨
      (items = [] ∧ x.queue.closed .producer = true ∧ x.queue.tryPop.2 = .error .disconnected ∧
        { x with queue := x.queue.tryPop.1 }.Sound items) ∨
      (¬ x.queue.CanMove .consumer ∧ x.queue.closed .producer = false ∧
        x.queue.tryPop = (x.queue.look .consumer, .error .empty) ∧
        { x with queue := x.queue.tryPop.1 }.Sound items) := by
  obtain ⟨left, soundNow, accounts, _⟩ := @Sound.play _ _ _ sound .tryPop rests
  have balance : items ++ [Result.tryPop x.queue.tryPop.2].filterMap Result.accepted =
      [Result.tryPop x.queue.tryPop.2].flatMap Result.delivered ++ left := accounts
  have carries := sound.carries
  rcases Queue.tryPop_cases carries with ⟨_, ready, made⟩ | ⟨stuck, gone, made⟩ | ⟨stuck, there, made⟩
  · obtain ⟨item, rest, ring, rfl, delivered, _⟩ := (carries.look .consumer).deliver ready
    have brought : x.queue.tryPop.2 = .ok item := by rw [made, delivered]
    have same : left = rest := by
      rw [brought] at balance
      exact (List.cons.inj balance).2.symm.trans (List.append_nil rest)
    subst same
    exact Or.inl ⟨item, left, rfl, brought, soundNow⟩
  · have failed : x.queue.tryPop.2 = .error .disconnected := by rw [made]
    have same : items = left := by
      rw [failed] at balance
      exact (List.append_nil items).symm.trans balance
    subst same
    exact Or.inr (Or.inl ⟨carries.drained_of_stuck parted gone stuck, gone, failed, soundNow⟩)
  · have failed : x.queue.tryPop.2 = .error .empty := by rw [made]
    have same : items = left := by
      rw [failed] at balance
      exact (List.append_nil items).symm.trans balance
    subst same
    exact Or.inr (Or.inr ⟨stuck, there, made, soundNow⟩)

end Exchange

end SpscQueue
