import SpscQueue.Proofs.Drawing

namespace SpscQueue

universe u

variable {α : Type u} {q : Queue α} {x : Exchange α} {item : α} {items front rest : List α}
  {moves : List (Move α)} {results : List (Result α)}

namespace Queue

theorem refresh_consumer_eq (seen : q.consumer.cursor.seen = q.producer.post.index) :
    q.refresh .consumer = q := by
  show ({ q with consumer.cursor := { q.consumer.cursor with seen := q.producer.post.index } } :
    Queue α) = q
  rw [← seen]

namespace Carries

theorem refresh_taken (carries : q.Carries items) (ring : Ring α) (steps : UInt64) :
    (q.taken ring steps).refresh .consumer = (q.refresh .consumer).taken ring steps := by
  rw [taken_eq carries.consumer_posted_published,
    taken_eq (carries.refresh .consumer).consumer_posted_published]
  rfl

/-- Two moves of the consumer come to one, because just one of them passes what the longer one passes. -/
theorem taken_taken (carries : q.Carries items) {steps more : UInt64}
    (within : steps.toNat + more.toNat ≤ q.shown) (ring last : Ring α) :
    (q.taken ring steps).taken last more = q.taken last (steps + more) := by
  have shown := carries.shown_le
  have most := carries.length_le
  have small := carries.capacity_lt
  have posted : (q.taken ring steps).consumer.post.index =
      (q.taken ring steps).consumer.cursor.published := by
    rw [taken_eq carries.consumer_posted_published]
  rw [taken_eq posted, taken_eq carries.consumer_posted_published,
    taken_eq carries.consumer_posted_published]
  simp only [carries.consumer_published, UInt64.add_assoc]
  rcases Index.passes_add q.consumer.cursor.position q.consumer.post.threshold
    (show steps.toNat + more.toNat ≤ _ by omega) with ⟨first, second, whole⟩ | ⟨first, second⟩
  · simp only [first, second, whole, if_true, Bool.false_eq_true, if_false, UInt64.add_zero]
  · simp only [first, second, Bool.false_eq_true, if_false, UInt64.zero_add]

end Carries

end Queue

namespace Exchange

/-- The exchange after a number of pops. -/
def popped : Exchange α → Nat → Exchange α
  | x, 0 => x
  | x, n + 1 => (x.play (.start .consumer .pop)).exchange.popped n

/-- Whether the next one of some pops wakes the producer, when so many are done. -/
def PopWakes (x : Exchange α) (done : Nat) : Prop :=
  (x.popped (done + 1)).queue.wakeups.producer ≠ (x.popped done).queue.wakeups.producer

/-- What a pop leaves behind that finds an item. -/
def afterPop (x : Exchange α) : Exchange α :=
  { x with
    queue := (x.queue.look .consumer).taken
      (x.queue.ring.replace x.queue.consumer.cursor.position none) 1 }

theorem start_pop (idle : x.current .consumer = none) (carries : x.queue.Carries (item :: rest))
    (shown : 0 < x.queue.shown) :
    x.start (.pop : Call α .consumer) = ⟨x.afterPop, [], some (.pop (.ok item))⟩ ∧
      x.afterPop.queue.Carries rest := by
  have ready : (x.queue.look .consumer).ready .consumer = true :=
    (carries.look_ready .consumer).mpr shown
  have same := x.queue.outward_look .consumer
  have ring : (x.queue.look .consumer).ring = x.queue.ring := congrArg (·.ring) same
  have place : (x.queue.look .consumer).consumer.cursor.position = x.queue.consumer.cursor.position :=
    congrArg (·.consumer.cursor.position) same
  obtain ⟨delivered, left⟩ := (carries.look .consumer).deliver_eq ready
  rw [ring, place] at delivered left
  refine ⟨?_, left⟩
  rw [start_ready .pop idle ready]
  simp only [Call.finish, Call.prepare, delivered, Prod.map_apply, id_eq]
  rfl

theorem play_pop (idle : x.current .consumer = none) (carries : x.queue.Carries (item :: rest))
    (shown : 0 < x.queue.shown) :
    x.play (.start .consumer .pop) = ⟨x.afterPop, [], some (.pop (.ok item))⟩ := by
  simp only [play, (start_pop idle carries shown).1, Advance.turn]
  rfl

/-- A pop moves the consumer on by one, and wakes the producer if that asked for the item taken. -/
theorem afterPop_consumer (carries : x.queue.Carries items) :
    x.afterPop.queue.consumer.cursor.position = x.queue.consumer.cursor.position + 1 ∧
      x.afterPop.queue.consumer.post.threshold = x.queue.consumer.post.threshold ∧
      x.afterPop.queue.wakeups.producer = x.queue.wakeups.producer +
        if Index.passes x.queue.consumer.cursor.position (x.queue.consumer.cursor.position + 1)
          x.queue.consumer.post.threshold then 1 else 0 := by
  have same := x.queue.outward_look .consumer
  have place : (x.queue.look .consumer).consumer.cursor.position = x.queue.consumer.cursor.position :=
    congrArg (·.consumer.cursor.position) same
  have post : (x.queue.look .consumer).consumer.post = x.queue.consumer.post :=
    congrArg (·.consumer.post) same
  unfold afterPop
  rw [Queue.taken_eq (carries.look .consumer).consumer_posted_published]
  simp only [(carries.look .consumer).consumer_published, place, post, Queue.wakeups, and_self]

theorem afterPop_ring (x : Exchange α) :
    x.afterPop.queue.ring = x.queue.ring.replace x.queue.consumer.cursor.position none := rfl

theorem afterPop_refresh (carries : x.queue.Carries items) :
    x.afterPop.queue.refresh .consumer = (x.queue.refresh .consumer).taken
      (x.queue.ring.replace x.queue.consumer.cursor.position none) 1 := by
  show ((x.queue.look .consumer).taken _ 1).refresh .consumer = _
  rw [(carries.look .consumer).refresh_taken, Queue.refresh_look]

/-- The pop that takes the last item on view has seen that item only by a fresh look, or it has nothing
newer to see. -/
theorem afterPop_last (carries : x.queue.Carries items) (one : x.queue.shown = 1) :
    x.afterPop = { x with
      queue := (x.queue.refresh .consumer).taken
        (x.queue.ring.replace x.queue.consumer.cursor.position none) 1 } := by
  have looks : x.queue.look .consumer = x.queue.refresh .consumer := by
    rcases x.queue.look_eq_or .consumer with ⟨same, ready⟩ | fresh
    -- the one item on view was seen before, so a fresh look finds nothing else
    · have some := (Queue.Carries.ready_consumer_iff x.queue).mp ready
      have most := carries.consumer_seen
      have whole : x.queue.consumer.cursor.position.span x.queue.consumer.cursor.seen =
        x.queue.consumer.cursor.position.span x.queue.producer.cursor.published :=
          show _ = x.queue.shown by omega
      rw [same, Queue.refresh_consumer_eq]
      rw [carries.producer_posted]
      exact Index.span_inj whole
    · exact fresh
  rw [afterPop, looks]

theorem popped_succ (idle : x.current .consumer = none) (carries : x.queue.Carries (item :: rest))
    (shown : 0 < x.queue.shown) (n : Nat) : x.popped (n + 1) = x.afterPop.popped n := by
  rw [popped, play_pop idle carries shown]

theorem popWakes_succ (idle : x.current .consumer = none) (carries : x.queue.Carries (item :: rest))
    (shown : 0 < x.queue.shown) (done : Nat) : x.PopWakes (done + 1) ↔ x.afterPop.PopWakes done := by
  rw [PopWakes, PopWakes, popped_succ idle carries shown, popped_succ idle carries shown]

theorem popWakes_zero (idle : x.current .consumer = none) (carries : x.queue.Carries (item :: rest))
    (shown : 0 < x.queue.shown) :
    x.PopWakes 0 ↔ Index.passes x.queue.consumer.cursor.position
      (x.queue.consumer.cursor.position + 1) x.queue.consumer.post.threshold = true := by
  obtain ⟨_, _, wakeups⟩ := afterPop_consumer carries
  rw [PopWakes, popped_succ idle carries shown, popped, popped, wakeups]
  split
  · rename_i passed
    refine iff_of_true (fun same => ?_) passed
    have one : (1 : UInt64) = 0 := UInt64.add_eq_left.mp same
    cases one
  · rename_i missed
    exact iff_of_false (fun other => other (UInt64.add_zero _)) missed

/-- Some pops bring some items and leave the exchange as one move of the consumer leaves it that has looked
afresh and takes all those items. One of them wakes the producer just if that move passes the item which
the producer asked for. -/
structure Pops (x : Exchange α) (items : List α) (ring : Ring α) : Prop where
  read : Ring.readMany? items.length x.queue.consumer.cursor.position x.queue.ring = some (items, ring)
  runs : x.Runs (List.replicate items.length (.start .consumer .pop))
    (items.map fun item => .pop (.ok item)) (x.popped items.length)
  leaves : x.popped items.length =
    { x with queue := (x.queue.refresh .consumer).taken ring (UInt64.ofNat items.length) }
  wakes : (∃ done < items.length, x.PopWakes done) ↔
    Index.passes x.queue.consumer.cursor.position
      (x.queue.consumer.cursor.position + UInt64.ofNat items.length)
      x.queue.consumer.post.threshold = true

theorem pops_one (rests : x.atRest .consumer = true) (carries : x.queue.Carries (item :: rest))
    (one : x.queue.shown = 1) :
    x.Pops [item] (x.queue.ring.replace x.queue.consumer.cursor.position none) := by
  have idle := (atRest_iff.mp rests).2
  have shown : 0 < x.queue.shown := by omega
  have played := play_pop idle carries shown
  have wakes := popWakes_zero idle carries shown
  have run : x.Runs [.start .consumer .pop] _ _ := .single rests
  rw [played] at run
  refine ⟨?_, ?_, ?_, ?_⟩
  · rw [List.length_singleton, Ring.readMany?_succ, carries.holds.read.1]
    rfl
  · rw [List.length_singleton, popped_succ idle carries shown]
    exact run
  · rw [List.length_singleton, popped_succ idle carries shown]
    exact afterPop_last carries one
  · rw [List.length_singleton]
    refine Iff.trans ⟨?_, fun first => ⟨0, Nat.one_pos, first⟩⟩ wakes
    rintro ⟨done, small, wakes⟩
    obtain rfl := Nat.lt_one_iff.mp small
    exact wakes

theorem Pops.cons (rests : x.atRest .consumer = true)
    (carries : x.queue.Carries (item :: front ++ rest)) (within : (item :: front).length ≤ x.queue.shown)
    {ring : Ring α} (pops : x.afterPop.Pops front ring) : x.Pops (item :: front) ring := by
  have idle := (atRest_iff.mp rests).2
  have shown : 0 < x.queue.shown := Nat.lt_of_lt_of_le (Nat.succ_pos _) within
  have played := play_pop idle carries shown
  have wakes := popWakes_zero idle carries shown
  obtain ⟨position, threshold, _⟩ := afterPop_consumer carries
  have most := carries.shown_le
  have fits := carries.length_le
  have small := carries.capacity_lt
  rw [List.length_cons] at within
  have one : (1 : UInt64).toNat = 1 := rfl
  have more : (UInt64.ofNat front.length).toNat = front.length :=
    UInt64.toNat_ofNat_of_lt' (show _ < 2 ^ 64 by omega)
  have total : UInt64.ofNat (item :: front).length = 1 + UInt64.ofNat front.length := by
    rw [List.length_cons, Nat.add_comm, UInt64.ofNat_add]
    rfl
  have next : x.popped (item :: front).length = x.afterPop.popped front.length :=
    popped_succ idle carries shown front.length
  refine ⟨?_, ?_, ?_, ?_⟩
  · have read := pops.read
    rw [position, afterPop_ring] at read
    rw [List.length_cons, Ring.readMany?_succ, carries.holds.read.1, Option.bind_some]
    simp only [read, Option.map_some]
  · have run : x.Runs (.start .consumer .pop :: List.replicate front.length (.start .consumer .pop))
        ((x.play (.start .consumer .pop)).result.toList ++ front.map fun item => .pop (.ok item))
        (x.afterPop.popped front.length) := .next rests (by rw [played]; exact pops.runs)
    rw [played] at run
    rw [next]
    exact run
  · rw [next, pops.leaves, afterPop_refresh carries,
      (carries.refresh .consumer).taken_taken (show _ ≤ x.queue.shown by omega), total]
    rfl
  · have later := pops.wakes
    rw [position, threshold, UInt64.add_assoc] at later
    have shift := popWakes_succ idle carries shown
    have split : (∃ done < (item :: front).length, x.PopWakes done) ↔
        x.PopWakes 0 ∨ ∃ done < front.length, x.afterPop.PopWakes done := by
      constructor
      · rintro ⟨_ | done, small, now⟩
        · exact Or.inl now
        · exact Or.inr ⟨done, Nat.lt_of_succ_lt_succ small, (shift done).mp now⟩
      · rintro (now | ⟨done, small, now⟩)
        · exact ⟨0, Nat.succ_pos _, now⟩
        · exact ⟨done + 1, Nat.succ_lt_succ small, (shift done).mpr now⟩
    -- the first pop passes the item asked for, or one of the others does, but not both
    rw [split, wakes, later, total]
    rcases Index.passes_add x.queue.consumer.cursor.position x.queue.consumer.post.threshold
      (show (1 : UInt64).toNat + (UInt64.ofNat front.length).toNat ≤ _ by omega) with
      ⟨first, _, whole⟩ | ⟨first, second⟩
    · exact iff_of_true (Or.inl first) whole
    · rw [first, second]
      simp

theorem afterPop_shown (carries : x.queue.Carries items) (shown : 0 < x.queue.shown) :
    x.afterPop.queue.shown = x.queue.shown - 1 := by
  have looked : (x.queue.look .consumer).shown = x.queue.shown :=
    congrArg (·.shown) (x.queue.outward_look .consumer)
  have fewer := (carries.look .consumer).taken_shown
    (x.queue.ring.replace x.queue.consumer.cursor.position none) (show (1 : UInt64).toNat ≤ _ by
      rw [looked]
      exact shown)
  rwa [looked] at fewer

theorem atRest_afterPop (rests : x.atRest .consumer = true) : x.afterPop.atRest .consumer = true := by
  obtain ⟨present, idle⟩ := atRest_iff.mp rests
  have alike := (x.queue.alike_look .consumer).trans ((x.queue.look .consumer).alike_moved
    (x.queue.ring.replace x.queue.consumer.cursor.position none) 1)
  exact atRest_iff.mpr ⟨(alike.closed .consumer).trans present, idle⟩

/-- What the pops leave to the producer. -/
theorem Pops.producer {ring : Ring α} (pops : x.Pops front ring) (carries : x.queue.Carries items) :
    (x.popped front.length).queue.wakeups.producer = x.queue.wakeups.producer +
        (if Index.passes x.queue.consumer.cursor.position
            (x.queue.consumer.cursor.position + UInt64.ofNat front.length)
            x.queue.consumer.post.threshold then 1 else 0) ∧
      (x.popped front.length).queue.producer.signal =
        if Index.passes x.queue.consumer.cursor.position
            (x.queue.consumer.cursor.position + UInt64.ofNat front.length)
            x.queue.consumer.post.threshold then x.queue.producer.signal.raise
        else x.queue.producer.signal := by
  have old : (x.queue.refresh .consumer).consumer.cursor.published =
    x.queue.consumer.cursor.position := carries.consumer_published
  rw [pops.leaves, Queue.taken_eq (carries.refresh .consumer).consumer_posted_published, old]
  exact ⟨rfl, rfl⟩

/-- As many pops as there are items on view. -/
theorem pops (rests : x.atRest .consumer = true) (carries : x.queue.Carries (front ++ rest))
    (some : front ≠ []) (count : front.length = x.queue.shown) : ∃ ring, x.Pops front ring := by
  induction front generalizing x with
  | nil => exact absurd rfl some
  | cons item front ih =>
    have shown : 0 < x.queue.shown := Nat.lt_of_lt_of_eq (Nat.succ_pos _) count
    cases front with
    | nil => exact ⟨_, pops_one rests carries count.symm⟩
    | cons second front =>
      have left := (start_pop (atRest_iff.mp rests).2 carries shown).2
      have fewer := afterPop_shown carries shown
      rw [← count] at fewer
      obtain ⟨ring, later⟩ := ih (atRest_afterPop rests) left nofun fewer.symm
      exact ⟨ring, later.cons rests carries (Nat.le_of_eq count)⟩

end Exchange

namespace Exchange

end Exchange

end SpscQueue
