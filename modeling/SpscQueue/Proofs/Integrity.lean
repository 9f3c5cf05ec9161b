import SpscQueue.Proofs.TearDown

namespace SpscQueue

universe u

variable {α : Type u} {q : Queue α}

namespace Queue

/-- The books of a queue are in order. All distances are taken from the consumer's index or from what
the producer saw of it, and count modulo the number of indices. -/
structure Intact (q : Queue α) : Prop where
  consumer_published : q.consumer.cursor.published = q.consumer.cursor.position
  consumer_posted : q.consumer.post.index = q.consumer.cursor.position
  producer_posted : q.producer.post.index = q.producer.cursor.published
  shown_le : q.consumer.post.index.span q.producer.post.index ≤
    q.consumer.post.index.span q.producer.cursor.position
  inside_le : q.consumer.post.index.span q.producer.cursor.position ≤ q.capacity.toNat
  capacity_le : q.capacity.toNat ≤ q.ring.size
  producer_seen : q.producer.cursor.seen.span q.consumer.post.index ≤
    q.producer.cursor.seen.span q.producer.cursor.position
  producer_seen_le : q.producer.cursor.seen.span q.producer.cursor.position ≤ q.capacity.toNat
  consumer_seen : q.consumer.post.index.span q.consumer.cursor.seen ≤
    q.consumer.post.index.span q.producer.post.index
  occupied (i : Index) : (q.ring.occupant i).isSome = true ↔
    ∃ j, q.consumer.post.index.span j < q.consumer.post.index.span q.producer.cursor.position ∧
      q.ring.slot j = q.ring.slot i

theorem Carries.intact {items : List α} (carries : q.Carries items) : q.Intact := by
  have visible := carries.shown_le
  have most := carries.length_le
  unfold shown at visible
  constructor
  · exact carries.consumer_published
  · exact carries.consumer_posted
  · exact carries.producer_posted
  · rw [carries.consumer_posted, carries.producer_posted, carries.length_eq]
    exact visible
  · rw [carries.consumer_posted, carries.length_eq]
    exact most
  · exact carries.capacity_le
  · rw [carries.consumer_posted]
    exact carries.producer_seen
  · exact carries.producer_seen_le
  · rw [carries.consumer_posted, carries.producer_posted]
    exact carries.consumer_seen
  · intro i
    rw [carries.consumer_posted, carries.length_eq]
    exact carries.holds.occupant_isSome_iff i

/-- Giving the storage up takes an item out of every slot on the way. -/
def DiscardsAll (q : Queue α) : Prop :=
  q.release.1.length = q.consumer.post.index.span q.producer.post.index ∧
    ∀ i, q.release.2.ring.occupant i = none

theorem Carries.discardsAll {items : List α} (carries : q.Carries items)
    (published : q.producer.cursor.published = q.producer.cursor.position) : q.DiscardsAll := by
  obtain ⟨listed, vacant⟩ := carries.release_eq published
  refine ⟨?_, vacant⟩
  rw [listed, carries.consumer_posted, carries.producer_posted, published]
  exact carries.length_eq.symm

end Queue

theorem Result.not_faulty_of_silent {result : Result α} (silent : result.ofCall = none) :
    result.faulty = false := by
  unfold ofCall at silent
  split at silent <;> first | rfl | cases silent

theorem Result.ofCall_faulty {result heard : Result α} (told : result.ofCall = some heard) :
    result.faulty = heard.faulty := by
  unfold ofCall at told
  split at told <;> cases told <;> rfl

namespace Session

/-- In every state that the two parties can reach, whoever moves next and wherever a call pauses, the
books of the queue are in order. No call ever finds a slot occupied that it wants to fill or vacant
that it wants to empty, and when both parties are gone every slot that is to be emptied still holds
its item. -/
theorem reachable_intact {settings : Settings} {fresh : Session α}
    (opened : Session.ofSettings settings = .ok fresh) :
    (∀ moves results x, fresh.exchange.Runs moves results x →
      x.queue.Intact ∧ (∀ result ∈ results, result.faulty = false) ∧
        (x.queue.closed .producer = true → x.queue.DiscardsAll)) ∧
    ∀ steps : List (Step α),
      ((fresh.steps steps).1.owned = true → (fresh.steps steps).1.queue.Intact) ∧
        ∀ answer ∈ (fresh.steps steps).2 ++ (fresh.steps steps).1.tearDown.2,
          ∀ result ∈ answer.results, result.faulty = false := by
  obtain ⟨_, sound, parted, chronicle⟩ := begins_of_opened opened
  refine ⟨fun moves results x run => ?_, fun steps => ?_⟩
  · obtain ⟨left, soundNow, _, faultless⟩ := sound.run run
    refine ⟨soundNow.carries.intact, faultless, fun gone => ?_⟩
    exact soundNow.carries.discardsAll (sound.run_parted parted run gone)
  · have story := chronicle.steps sound steps
    refine ⟨fun owned => ?_, ?_⟩
    · obtain ⟨left, soundNow⟩ := story.sound_of_owned sound owned
      exact soundNow.carries.intact
    · intro answer answered result told
      obtain ⟨_, _, _, closings, _, ending⟩ := story.tearDown sound
      obtain ⟨moves, y, run, _⟩ := ending.runs
      obtain ⟨_, _, _, faultless⟩ := sound.run run
      cases heard : result.ofCall with
      | none => exact Result.not_faulty_of_silent heard
      | some call =>
        rw [Result.ofCall_faulty heard]
        refine faultless call (List.mem_filterMap.mpr ⟨result, ?_, heard⟩)
        rw [List.nil_append, ← List.flatMap_append]
        exact List.mem_flatMap.mpr ⟨answer, answered, told⟩

/-- The books after a push has filled a queue next to the top of the index range and another one has
parked. -/
theorem reachable_intact_full_queue :
    ∃ fresh : Session Nat,
      Session.ofSettings ⟨3, by decide, 0, 0, 18446744073709551614, .whenShort, 8⟩ = .ok fresh ∧
        let s := (fresh.steps ([1, 2, 3, 4].map fun item => .push item false .nothing)).1
        s.queue.inFlight = s.queue.capacity ∧ s.exchange.parked .producer = true ∧ s.queue.Intact := by
  refine ⟨_, rfl, rfl, rfl, ?_⟩
  have opened : Session.ofSettings (α := Nat)
      ⟨3, by decide, 0, 0, 18446744073709551614, .whenShort, 8⟩ = .ok _ := rfl
  exact ((reachable_intact opened).2 _).1 rfl

end Session

end SpscQueue
