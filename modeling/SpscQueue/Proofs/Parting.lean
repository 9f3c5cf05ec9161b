import SpscQueue.Proofs.Pausing
import SpscQueue.Proofs.Sound

namespace SpscQueue

universe u

variable {α : Type u} {q next : Queue α} {x y : Exchange α} {items : List α} {role : Role}

namespace Queue

/-- A producer that is gone has left nothing behind that it did not show. -/
def Parted (q : Queue α) : Prop :=
  q.closed .producer = true → q.producer.cursor.published = q.producer.cursor.position

theorem Parted.of_alike (parted : q.Parted) (alike : Alike role q next)
    (present : q.closed role = false) : next.Parted := by
  intro gone
  rw [alike.closed] at gone
  cases role with
  | producer =>
    rw [present] at gone
    cases gone
  | consumer =>
    have same : next.producer.cursor = q.producer.cursor := alike.cursor
    rw [same]
    exact parted gone

theorem flush_published (q : Queue α) :
    q.flush.producer.cursor.published = q.flush.producer.cursor.position := by
  show (q.producer.publish q.consumer).1.cursor.published =
    (q.producer.publish q.consumer).1.cursor.position
  unfold Side.publish
  split
  · assumption
  · dsimp only
    split <;> rfl

theorem close_parted (parted : q.Parted) (role : Role) : (q.close role).1.Parted := by
  cases role with
  | producer => exact fun _ => q.flush_published
  | consumer => exact parted

/-- When the storage is given up, exactly the items that were not delivered are listed. -/
theorem Carries.release_eq (carries : q.Carries items)
    (published : q.producer.cursor.published = q.producer.cursor.position) :
    q.release.1 = items ∧ ∀ i, q.release.2.ring.occupant i = none := by
  have all : (q.consumer.post.index.gap q.producer.post.index).toNat = items.length := by
    rw [carries.consumer_posted, carries.producer_posted, published]
    exact carries.length_eq
  obtain ⟨after, listed, _, left⟩ := carries.holds.discard
  have done : q.ring.discardRange q.consumer.post.index q.producer.post.index = (items, after) := by
    rw [Ring.discardRange, all, carries.consumer_posted]
    exact listed
  unfold release
  rw [done]
  refine ⟨rfl, fun i => Option.not_isSome_iff_eq_none.mp fun occupied => ?_⟩
  obtain ⟨_, none, _⟩ := (left.occupant_isSome_iff i).mp occupied
  exact Nat.not_lt_zero _ none

end Queue

namespace Exchange

/-- Only a party whose handle is there can make a move. -/
theorem Sound.mover_present (sound : x.Sound items) {move : Move α} (allowed : x.allows move = true) :
    x.queue.closed move.role = false := by
  cases move with
  | proceed role => exact sound.present role (Bool.and_eq_true_iff.mp allowed).1
  | _ => exact (atRest_iff.mp allowed).1

theorem play_parted (sound : x.Sound items) (parted : x.queue.Parted) {move : Move α}
    (allowed : x.allows move = true) : (x.play move).exchange.queue.Parted := by
  have present := sound.mover_present allowed
  cases move with
  | start role call => exact parted.of_alike (x.start_beside call).1 present
  | proceed role => exact parted.of_alike (x.proceed_beside role).1 present
  | tryPush item => exact parted.of_alike (x.queue.alike_tryPush item) present
  | tryPop => exact parted.of_alike x.queue.alike_tryPop present
  | flush => exact parted.of_alike (x.queue.alike_publish .producer) present
  | close role => exact Queue.close_parted parted role

theorem Sound.run_parted {moves : List (Move α)} {results : List (Result α)} (sound : x.Sound items)
    (parted : x.queue.Parted) (run : x.Runs moves results y) : y.queue.Parted := by
  induction run generalizing items with
  | rest => exact parted
  | next allowed _ ih =>
    obtain ⟨left, soundNow, _⟩ := sound.play allowed
    exact ih soundNow (play_parted sound parted allowed)

/-- Time that a party lets go by changes nothing for anybody. -/
theorem Sound.passTo (sound : x.Sound items) (role : Role) {pause : Pause} (awake : pause ≠ .park) :
    (x.passTo role pause).Sound items := by
  refine sound.moved (passTo_queue x role pause) sound.carries (.refl role x.queue)
    (current_passTo_peer x role pause) ?_
  intro paused current
  have busy : x.busy role = true := by
    cases idle : x.current role with
    | some before => exact busy_iff.mpr ⟨before, idle⟩
    | none =>
      unfold Exchange.passTo at current
      rw [idle] at current
      cases idle.symm.trans current
  obtain ⟨before, held⟩ := busy_iff.mp busy
  have now := (current_passTo held pause).symm.trans current
  cases now
  exact ⟨sound.short role busy, sound.present role busy, sound.told role busy,
    fun parks => absurd parks awake⟩

end Exchange

end SpscQueue
