import SpscQueue.Proofs.Carrying

namespace SpscQueue.Queue

universe u

variable {α : Type u} {q : Queue α} {item : α} {items front rest : List α}

/-- The queue with one more item in the ring, not shown yet. -/
def written (q : Queue α) (item : α) : Queue α :=
  { q with
    ring := q.ring.replace q.producer.cursor.position (some item)
    producer.cursor := q.producer.cursor.advance 1 }

/-- The queue after a push that found room. -/
def put (q : Queue α) (item : α) (force : Bool) : Queue α :=
  if force || (q.written item).producer.owesWakeup then (q.written item).flush else q.written item

/-- The queue after the consumer has moved on and left the given ring behind. -/
def taken (q : Queue α) (ring : Ring α) (steps : UInt64) : Queue α :=
  { q with ring, consumer.cursor := q.consumer.cursor.advance steps }.publish .consumer

/-- What is left of the consumer's side and of the producer's signal when the consumer has moved on.
A move wakes the producer if it passes the item that the producer asked for. -/
theorem taken_eq (posted : q.consumer.post.index = q.consumer.cursor.published) (ring : Ring α)
    (steps : UInt64) :
    q.taken ring steps =
      let owed := Index.passes q.consumer.cursor.published (q.consumer.cursor.position + steps)
        q.consumer.post.threshold
      { q with
        ring
        consumer :=
          { q.consumer with
            cursor := ⟨q.consumer.cursor.position + steps, q.consumer.cursor.position + steps,
              q.consumer.cursor.seen⟩
            post :=
              ⟨q.consumer.cursor.position + steps, q.consumer.post.threshold,
                q.consumer.post.wakeups + if owed then 1 else 0⟩ }
        producer.signal := if owed then q.producer.signal.raise else q.producer.signal } := by
  let moved : Side := { q.consumer with cursor := q.consumer.cursor.advance steps }
  have movedPosted : moved.post.index = moved.cursor.published := posted
  show ({ q with
      ring
      producer := (moved.publish q.producer).2
      consumer := (moved.publish q.producer).1 } : Queue α) = _
  rw [Side.publish_fst _ movedPosted, Side.publish_snd]
  rfl

/-- Showing changes what is shown, and raises the consumer's signal if a wakeup was owed. -/
theorem flush_eq (posted : q.producer.post.index = q.producer.cursor.published) :
    q.flush =
      { q with
        producer :=
          { q.producer with
            cursor := { q.producer.cursor with published := q.producer.cursor.position }
            post :=
              { q.producer.post with
                index := q.producer.cursor.position
                wakeups := q.producer.post.wakeups + if q.producer.owesWakeup then 1 else 0 } }
        consumer.signal :=
          if q.producer.owesWakeup then q.consumer.signal.raise else q.consumer.signal } := by
  simp only [flush, publish, Side.publish_fst _ posted, Side.publish_snd]

/-- A batch takes what it can read. -/
theorem deliverKnown_eq {ring : Ring α}
    (read : Ring.readMany? q.known.toNat q.consumer.cursor.position q.ring = some (front, ring)) :
    q.deliverKnown = (q.taken ring q.known, .ok front) := by
  unfold deliverKnown takeKnown?
  rw [read]
  rfl

namespace Carries

theorem consumer_posted_published (carries : q.Carries items) :
    q.consumer.post.index = q.consumer.cursor.published :=
  carries.consumer_posted.trans carries.consumer_published.symm

theorem flush (carries : q.Carries items) : q.flush.Carries items := by
  rw [flush_eq carries.producer_posted]
  have shownAll : q.consumer.cursor.position.span q.producer.cursor.position ≤ items.length :=
    Nat.le_of_eq carries.length_eq
  have seen := carries.consumer_seen
  have more := carries.shown_le
  rw [← carries.length_eq] at more
  exact
    { carries with
      producer_posted := rfl
      shown_le := shownAll
      consumer_seen := Nat.le_trans seen more }

theorem flush_shown (carries : q.Carries items) : q.flush.shown = items.length := by
  rw [flush_eq carries.producer_posted]
  exact carries.length_eq

theorem written (carries : q.Carries items) (space : q.ready .producer = true) (item : α) :
    (q.written item).Carries (items ++ [item]) := by
  have capacity := carries.capacity_lt
  have room := carries.space_of_ready space
  have slots := carries.capacity_le
  have seen := carries.producer_seen
  have near := carries.ready_producer_iff.mp space
  have one : (1 : UInt64).toNat = 1 := rfl
  have longer : (items ++ [item]).length = items.length + 1 := by
    rw [List.length_append, List.length_singleton]
  have held := (carries.holds.write (show items.length < q.ring.size by omega) carries.length_eq item).2
  have steps (i : Index) (small : i.span q.producer.cursor.position ≤ 0x8000000000000000) :
      i.span (q.producer.cursor.position + 1) = i.span q.producer.cursor.position + 1 :=
    Index.span_add (by omega)
  have away := steps q.consumer.cursor.position (by rw [carries.length_eq]; omega)
  have seenAway := steps q.producer.cursor.seen (by omega)
  have shown := carries.shown_le
  exact
    { carries with
      holds := held
      length_eq := by
        show q.consumer.cursor.position.span (q.producer.cursor.position + 1) = _
        rw [away, carries.length_eq, longer]
      length_le := by
        show _ ≤ q.capacity.toNat
        omega
      shown_le := by
        show q.shown ≤ _
        omega
      producer_seen := by
        show q.producer.cursor.seen.span q.consumer.cursor.position ≤
          q.producer.cursor.seen.span (q.producer.cursor.position + 1)
        omega
      producer_seen_le := by
        show q.producer.cursor.seen.span (q.producer.cursor.position + 1) ≤ q.capacity.toNat
        omega }

theorem put (carries : q.Carries items) (space : q.ready .producer = true) (item : α)
    (force : Bool) : (q.put item force).Carries (items ++ [item]) := by
  unfold Queue.put
  split
  · exact (carries.written space item).flush
  · exact carries.written space item

/-- A push that found room never meets an occupied slot. -/
theorem accept_eq (carries : q.Carries items) (space : q.ready .producer = true) (item : α)
    (force : Bool) : q.accept item force = (q.put item force, .accepted item) := by
  have room := carries.space_of_ready space
  have slots := carries.capacity_le
  have done := (carries.holds.write (show items.length < q.ring.size by omega) carries.length_eq item).1
  unfold accept append?
  rw [done, Option.map_some]
  rfl

/-- The consumer may move on by no more than it has seen. -/
theorem taken (carries : q.Carries (front ++ rest)) {ring : Ring α} {steps : UInt64}
    (count : steps.toNat = front.length) (order : ring.order = q.ring.order)
    (left : ring.Holds (q.consumer.cursor.position + steps) rest)
    (seen : front.length ≤ q.consumer.cursor.position.span q.consumer.cursor.seen) :
    (q.taken ring steps).Carries rest := by
  rw [taken_eq carries.consumer_posted_published]
  have total : (front ++ rest).length = front.length + rest.length := List.length_append
  have size : ring.size = q.ring.size := by rw [Ring.size, Ring.size, order]
  have capacity := carries.capacity_le
  have small := carries.capacity_lt
  have length := carries.length_eq
  have most := carries.length_le
  have sight := carries.consumer_seen
  have shownLe := carries.shown_le
  have behind := carries.producer_seen
  have behindLe := carries.producer_seen_le
  unfold shown at sight shownLe
  have onward (j : Index) (reach : front.length ≤ q.consumer.cursor.position.span j) :
      (q.consumer.cursor.position + steps).span j =
        q.consumer.cursor.position.span j - front.length := by
    rw [Index.span_from_add (by omega), count]
  have toPosition := onward q.producer.cursor.position (by omega)
  have toShown := onward q.producer.cursor.published (by omega)
  have toSeen := onward q.consumer.cursor.seen seen
  have between := Index.span_from behind
  have fromSeen : q.producer.cursor.seen.span (q.consumer.cursor.position + steps) =
      q.producer.cursor.seen.span q.consumer.cursor.position + front.length := by
    rw [Index.span_add (by omega), count]
  exact
    { carries with
      capacity_le := by
        show q.capacity.toNat ≤ ring.size
        omega
      consumer_published := rfl
      consumer_posted := rfl
      holds := left
      length_eq := by
        show (q.consumer.cursor.position + steps).span q.producer.cursor.position = rest.length
        omega
      length_le := by
        show rest.length ≤ q.capacity.toNat
        omega
      shown_le := by
        show (q.consumer.cursor.position + steps).span q.producer.cursor.published ≤ rest.length
        omega
      consumer_seen := by
        show (q.consumer.cursor.position + steps).span q.consumer.cursor.seen ≤
          (q.consumer.cursor.position + steps).span q.producer.cursor.published
        omega
      producer_seen := by
        show q.producer.cursor.seen.span (q.consumer.cursor.position + steps) ≤
          q.producer.cursor.seen.span q.producer.cursor.position
        omega
      producer_seen_le := behindLe }

/-- A pop that found an item never meets a vacant slot. -/
theorem deliver_eq (carries : q.Carries (item :: rest)) (ready : q.ready .consumer = true) :
    q.deliver = (q.taken (q.ring.replace q.consumer.cursor.position none) 1, .ok item) ∧
      (q.taken (q.ring.replace q.consumer.cursor.position none) 1).Carries rest := by
  obtain ⟨read, left⟩ := carries.holds.read
  constructor
  · unfold Queue.deliver take?
    rw [read]
    rfl
  · have first : q.Carries ([item] ++ rest) := carries
    exact first.taken rfl rfl left ((ready_consumer_iff q).mp ready)

/-- A pop that found an item brings the oldest one. -/
theorem deliver (carries : q.Carries items) (ready : q.ready .consumer = true) :
    ∃ item rest ring, items = item :: rest ∧ q.deliver = (q.taken ring 1, .ok item) ∧
      (q.taken ring 1).Carries rest := by
  have shown := carries.shown_pos_of_ready ready
  have more := carries.shown_le
  cases items with
  | nil =>
    rw [List.length_nil] at more
    omega
  | cons item rest =>
    obtain ⟨delivered, left⟩ := carries.deliver_eq ready
    exact ⟨item, rest, _, rfl, delivered, left⟩

/-- A batch that found an item never meets a vacant slot. It brings all items that the consumer has
seen, the oldest first. -/
theorem deliverKnown (carries : q.Carries items) :
    ∃ front rest ring, items = front ++ rest ∧ front.length = q.known.toNat ∧
      q.deliverKnown = (q.taken ring q.known, .ok front) ∧
      (q.taken ring q.known).Carries rest := by
  have within : q.known.toNat ≤ items.length := Nat.le_trans carries.consumer_seen carries.shown_le
  have count : (items.take q.known.toNat).length = q.known.toNat := by
    rw [List.length_take, Nat.min_eq_left within]
  have split : items.take q.known.toNat ++ items.drop q.known.toNat = items :=
    List.take_append_drop _ _
  rw [← split] at carries
  obtain ⟨ring, read, order, left⟩ := carries.holds.readMany
  rw [count] at read
  rw [count, UInt64.ofNat_toNat] at left
  exact ⟨items.take q.known.toNat, items.drop q.known.toNat, ring, split.symm, count,
    deliverKnown_eq read, taken carries count.symm order left (Nat.le_of_eq count)⟩

theorem close (carries : q.Carries items) (role : Role) : (q.close role).1.Carries items := by
  cases role with
  | producer => exact { carries.flush with }
  | consumer => exact { carries with }

end Carries

end SpscQueue.Queue
