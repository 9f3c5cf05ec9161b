import SpscQueue.Proofs.Schedule
import SpscQueue.Proofs.Waiting

namespace SpscQueue

universe u

variable {α : Type u} {q next : Queue α} {items left : List α} {role : Role}

/-- A result that tells of a slot that was not as it should have been. -/
def Result.faulty : Result α → Bool
  | push (.refused _ .occupied) => true
  | tryPush (.refused _ .occupied) => true
  | pop (.error .vacant) => true
  | tryPop (.error .vacant) => true
  | popBatch (.error .vacant) => true
  | _ => false

namespace Queue

/-- A party has done something that leaves its handle open, and the result accounts for all items. -/
structure Accounts (role : Role) (q : Queue α) (items : List α) (result : Option (Result α))
    (next : Queue α) (left : List α) : Prop where
  carries : next.Carries left
  regards : Regards role q next
  closed : next.closed role = q.closed role
  balance : items ++ result.toList.filterMap Result.accepted =
    result.toList.flatMap Result.delivered ++ left
  sound : ∀ told ∈ result, told.faulty = false

theorem Accounts.of_regards {first : Queue α} {result : Option (Result α)}
    (regards : Regards role first q) (closed : q.closed role = first.closed role)
    (accounts : Accounts role q items result next left) :
    Accounts role first items result next left :=
  { accounts with
    regards := regards.trans accounts.regards
    closed := accounts.closed.trans closed }

variable (carries : q.Carries items)

include carries

theorem accounts_look (result : Option (Result α)) (nothing : ∀ told ∈ result, told.accepted = none ∧
    told.delivered = [] ∧ told.faulty = false) (role : Role) :
    Accounts role q items result (q.look role) items where
  carries := carries.look role
  regards := q.regards_look role
  closed := q.closed_look role role
  balance := by
    cases result with
    | none => simp
    | some told =>
      obtain ⟨accepted, delivered, _⟩ := nothing told rfl
      simp [accepted, delivered]
  sound := fun told member => (nothing told member).2.2

theorem accounts_put (space : q.ready .producer = true) (item : α) (force : Bool)
    {result : Result α} (accepted : result.accepted = some item) (delivered : result.delivered = [])
    (sound : result.faulty = false) :
    Accounts .producer q items (some result) (q.put item force) (items ++ [item]) where
  carries := carries.put space item force
  regards := carries.regards_put space item force
  closed := by
    unfold Queue.put
    split
    · rw [flush_eq (carries.written space item).producer_posted]
      rfl
    · rfl
  balance := by simp [accepted, delivered]
  sound := by
    rintro _ ⟨⟩
    exact sound

omit carries in
theorem accounts_taken {front rest : List α} (carries : q.Carries (front ++ rest)) {ring : Ring α}
    {steps : UInt64} (after : (q.taken ring steps).Carries rest) (within : steps.toNat ≤ q.shown)
    {result : Result α} (accepted : result.accepted = none) (delivered : result.delivered = front)
    (sound : result.faulty = false) :
    Accounts .consumer q (front ++ rest) (some result) (q.taken ring steps) rest where
  carries := after
  regards := carries.regards_taken ring within
  closed := by
    rw [taken_eq carries.consumer_posted_published]
    rfl
  balance := by simp [accepted, delivered]
  sound := by
    rintro _ ⟨⟩
    exact sound

/-- The three ways in which an attempt to put an item in can go. -/
theorem tryPush_cases (item : α) :
    q.closed .consumer = true ∧ q.tryPush item = (q, .refused item .disconnected) ∨
      q.closed .consumer = false ∧ q.CanMove .producer ∧
        (q.look .producer).ready .producer = true ∧
        q.tryPush item = ((q.look .producer).put item true, .accepted item) ∨
      q.closed .consumer = false ∧ ¬ q.CanMove .producer ∧
        q.tryPush item = (q.look .producer, .refused item .full) := by
  unfold tryPush
  by_cases left : q.closed .consumer = true
  · rw [if_pos left]
    exact Or.inl ⟨left, rfl⟩
  · rw [if_neg left]
    refine Or.inr ?_
    dsimp only
    by_cases ready : (q.look .producer).ready .producer = true
    · rw [if_pos ready, (carries.look .producer).accept_eq ready]
      exact Or.inl ⟨Bool.eq_false_iff.mpr left, (carries.look_ready .producer).mp ready, ready, rfl⟩
    · rw [if_neg ready]
      exact Or.inr ⟨Bool.eq_false_iff.mpr left,
        fun moves => ready ((carries.look_ready .producer).mpr moves), rfl⟩

/-- The three ways in which an attempt to take an item out can go. -/
theorem tryPop_cases :
    q.CanMove .consumer ∧ (q.look .consumer).ready .consumer = true ∧
        q.tryPop = (q.look .consumer).deliver ∨
      ¬ q.CanMove .consumer ∧ q.closed .producer = true ∧
        q.tryPop = (q.refresh .consumer, .error .disconnected) ∨
      ¬ q.CanMove .consumer ∧ q.closed .producer = false ∧
        q.tryPop = (q.look .consumer, .error .empty) := by
  unfold tryPop
  dsimp only
  by_cases ready : (q.look .consumer).ready .consumer = true
  · rw [if_pos ready]
    exact Or.inl ⟨(carries.look_ready .consumer).mp ready, ready, rfl⟩
  · rw [if_neg ready, q.closed_look]
    refine Or.inr ?_
    have stuck : ¬ q.CanMove .consumer := fun moves => ready ((carries.look_ready .consumer).mpr moves)
    have fresh := q.look_eq_refresh (Bool.eq_false_iff.mpr ready)
    have still : ¬ (q.refresh .consumer).ready .consumer = true := by rwa [← fresh]
    by_cases left : q.closed .producer = true
    · rw [if_pos left, fresh, refresh_refresh, if_neg still]
      exact Or.inl ⟨stuck, left, rfl⟩
    · rw [if_neg left]
      exact Or.inr ⟨stuck, Bool.eq_false_iff.mpr left, rfl⟩

theorem tryPush_accounts (item : α) :
    ∃ left, Accounts .producer q items (some (.tryPush (q.tryPush item).2)) (q.tryPush item).1 left := by
  rcases tryPush_cases carries item with ⟨_, refused⟩ | ⟨_, _, ready, accepted⟩ | ⟨_, _, refused⟩
  · rw [refused]
    refine ⟨items, carries, .refl _ q, rfl, by simp [Result.accepted, Result.delivered], ?_⟩
    rintro _ ⟨⟩
    rfl
  · rw [accepted]
    exact ⟨_, (accounts_put (carries.look .producer) ready item true rfl rfl rfl).of_regards
      (q.regards_look .producer) (q.closed_look _ _)⟩
  · rw [refused]
    refine ⟨items, accounts_look carries _ ?_ .producer⟩
    rintro _ ⟨⟩
    exact ⟨rfl, rfl, rfl⟩

/-- Once an item is known to be there, a party takes it, whatever it calls the result. -/
theorem deliver_accounts (ready : q.ready .consumer = true) (name : Except PopFailure α → Result α)
    (named : ∀ item, (name (.ok item)).accepted = none ∧ (name (.ok item)).delivered = [item] ∧
      (name (.ok item)).faulty = false) :
    ∃ left, Accounts .consumer q items (some (name q.deliver.2)) q.deliver.1 left := by
  obtain ⟨item, rest, ring, rfl, delivered, after⟩ := carries.deliver ready
  obtain ⟨accepted, brought, sound⟩ := named item
  rw [delivered]
  have first : q.Carries ([item] ++ rest) := carries
  exact ⟨rest, accounts_taken first after (carries.shown_pos_of_ready ready) accepted brought sound⟩

theorem tryPop_accounts :
    ∃ left, Accounts .consumer q items (some (.tryPop q.tryPop.2)) q.tryPop.1 left := by
  rcases tryPop_cases carries with ⟨_, ready, delivered⟩ | ⟨_, _, refused⟩ | ⟨_, _, refused⟩
  · rw [delivered]
    obtain ⟨left, accounts⟩ := deliver_accounts (carries.look .consumer) ready Result.tryPop
      fun _ => ⟨rfl, rfl, rfl⟩
    exact ⟨left, accounts.of_regards (q.regards_look .consumer) (q.closed_look _ _)⟩
  · rw [refused]
    refine ⟨items, carries.refresh .consumer, q.regards_refresh .consumer, rfl,
      by simp [Result.accepted, Result.delivered], ?_⟩
    rintro _ ⟨⟩
    rfl
  · rw [refused]
    refine ⟨items, accounts_look carries _ ?_ .consumer⟩
    rintro _ ⟨⟩
    exact ⟨rfl, rfl, rfl⟩

/-- A call that can move on does its work. -/
theorem finish_accounts (call : Call α role) (ready : q.ready role = true) :
    ∃ left, Accounts role q items (some (call.finish q).2.result) (call.finish q).1 left := by
  cases call with
  | push item force =>
    have done : (Call.push item force).finish q = (q.put item force, .push (.accepted item)) := by
      simp only [Call.finish, carries.accept_eq ready, Prod.map_apply, id_eq]
    rw [done]
    exact ⟨_, accounts_put carries ready item force rfl rfl rfl⟩
  | pop => exact deliver_accounts carries ready Result.pop fun _ => ⟨rfl, rfl, rfl⟩
  | popBatch =>
    obtain ⟨front, rest, ring, rfl, count, delivered, after⟩ := carries.deliverKnown
    have done : Call.popBatch.finish q = (q.taken ring q.known, .popBatch (.ok front)) := by
      simp only [Call.finish, delivered, Prod.map_apply, id_eq]
    rw [done]
    exact ⟨rest, accounts_taken carries after carries.consumer_seen rfl rfl rfl⟩

end Queue

end SpscQueue
