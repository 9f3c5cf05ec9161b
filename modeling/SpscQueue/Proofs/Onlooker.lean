import SpscQueue.Proofs.Farewell
import SpscQueue.Proofs.Forcing
import SpscQueue.Proofs.Undisturbed

namespace SpscQueue

universe u

variable {α : Type u} {role : Role} {q : Queue α} {place : Place α role} {stride : Stride α role}

namespace Index

/-- Steps counted from a common start tell how far two indices are apart. -/
theorem span_of_counts (start : Index) {i j : Nat} (order : i ≤ j)
    (near : j - i < 0x10000000000000000) :
    (start + UInt64.ofNat i).span (start + UInt64.ofNat j) = j - i := by
  simp only [span_eq, UInt64.toNat_add, UInt64.toNat_ofNat']
  have := start.toNat_lt
  omega

theorem span_inj_left {i j k : Index} (same : i.span k = j.span k) : i = j := by
  simp only [span_eq] at same
  refine UInt64.toNat_inj.mp ?_
  have := i.toNat_lt
  have := j.toNat_lt
  have := k.toNat_lt
  omega

end Index

/-- The length between two indices that were not read at the same time is the number of steps by which
the later one is still behind, as long as the two are within half the circle of each other. If it is just
half the circle behind it counts as ahead. -/
theorem Queue.lengthBetween_of_counts (start : Index) {published consumed : Nat}
    (behind : published ≤ consumed + 0x8000000000000000)
    (ahead : consumed < published + 0x8000000000000000) :
    (Queue.lengthBetween (start + UInt64.ofNat published) (start + UInt64.ofNat consumed)).toNat =
      if published = consumed + 0x8000000000000000 then 0 else published - consumed := by
  have small := start.toNat_lt
  unfold Queue.lengthBetween
  split
  · rename_i overtaken
    rw [Index.behind_iff, Index.gap_toNat] at overtaken
    simp only [UInt64.toNat_add, UInt64.toNat_ofNat'] at overtaken
    rw [UInt64.toNat_zero]
    split <;> omega
  · rename_i ordered
    rw [Index.behind_iff, Index.gap_toNat] at ordered
    rw [Index.gap_toNat]
    simp only [UInt64.toNat_add, UInt64.toNat_ofNat'] at ordered ⊢
    rw [if_neg (by omega)]
    omega

/-! Only the store of its index changes what a party shows. -/

theorem Place.stride_index (still : ∀ goal, place ≠ .announce goal)
    (next : place.stride q = some stride) (who : Role) :
    (stride.queue.side who).post.index = (q.side who).post.index := by
  cases Place.stride_touches next with
  | nothing unseen => rw [unseen.post]
  | announced goal here => exact absurd here (still goal)
  | asked call _ _ same => rw [same]; cases role <;> cases who <;> rfl
  | counted wakeups goal _ _ same => rw [same]; cases role <;> cases who <;> rfl
  | roused goal _ _ same => rw [same]; cases role <;> cases who <;> rfl
  | woken call _ _ same => rw [same]; cases role <;> cases who <;> rfl
  | shut _ _ same => rw [same]; cases role <;> cases who <;> rfl
  | knocked _ _ same => rw [same]; cases role <;> cases who <;> rfl

theorem Place.announce_index (ordered : q.Ordered) {goal : Goal α role}
    (next : (Place.announce goal).stride q = some stride) :
    (stride.queue.side role).post.index = q.position role ∧
      (stride.queue.side role.peer).post.index = (q.side role.peer).post.index := by
  cases next
  split
  · rename_i shown
    rw [(goal.reach_unmoved q).1]
    exact ⟨(ordered.posted role).trans shown, rfl⟩
  · cases role <;> exact ⟨rfl, rfl⟩

theorem Exchange.untold_scene {y : Exchange α} (idle : y.current role = none) :
    (y.scene.place role).untold = none := by
  show (y.place role).untold = none
  rw [place_idle idle]
  split <;> rfl

/-- Before the consumer sets to work, the producer can put in as many items as there is room for, and show
all of them. -/
theorem Exchange.exists_runs_filled {settings : Settings} (opened : Queue.ofSettings settings = .ok q)
    {items : List α} (fits : items.length ≤ settings.capacity) :
    ∃ moves results y, (ofQueue q).Runs moves results y ∧ (∀ role, y.current role = none) ∧
      (y.queue.side .producer).cursor.published = y.queue.position .producer ∧
      results.filterMap Result.accepted = items ∧ results.flatMap Result.delivered = [] := by
  have carries := Queue.ofSettings_carries opened
  have rests : (ofQueue q).atRest .producer = true :=
    atRest_iff.mpr ⟨Session.ofSettings_open opened .producer, rfl⟩
  have room : ([] : List α).length + (items.map (·, false)).length ≤ q.capacity.toNat := by
    rw [List.length_nil, Nat.zero_add, List.length_map, Queue.ofSettings_capacity opened]
    exact fits
  have named : (items.map (·, false)).map Prod.fst = items := by
    rw [List.map_map]
    exact List.map_id items
  have pushed := run_pushes rests carries carries rfl room
  rw [named] at pushed
  refine ⟨_, _, _, pushed, fun role => by cases role <;> rfl, Queue.flush_published _, ?_, ?_⟩
  · rw [List.filterMap_map]
    exact List.filterMap_some
  · rw [List.flatMap_map]
    exact List.flatMap_eq_nil_iff.mpr fun _ _ => rfl

namespace Scene

variable {settings : Settings} {s t : Scene α} {items : List α} {results later : List (Result α)}
  {counts : Role → Nat} {access : Access α} {accesses more : List (Access α)}
  {result : Option (Result α)}

/-- Whether an access is the one with which a party shows what it has moved. -/
def shows (s : Scene α) (role : Role) : Access α → Bool
  | .enter _ _ => false
  | .go who =>
    match s.place who with
    | .announce _ => who == role
    | _ => false

/-- How many items a party has shown once some accesses are made, if it has shown `shown` before, when the
results were `results`. The count has no end. -/
def shownAfter (role : Role) : Scene α → List (Result α) → Nat → List (Access α) → Nat
  | _, _, shown, [] => shown
  | s, results, shown, access :: accesses =>
    match s.step access with
    | none => shown
    | some (next, result) =>
      next.shownAfter role (results ++ result.toList)
        (if s.shows role access then (s.moved results role).length else shown) accesses

/-- How many items a party has shown by the end of a run that begins with a new queue. -/
def shown (s : Scene α) (role : Role) (accesses : List (Access α)) : Nat :=
  s.shownAfter role [] 0 accesses

/-- All indices come from the start index by the counts of the items moved and shown. The consumer takes
only what was shown, and the producer is never more than the capacity ahead of what the consumer has
shown. -/
structure Counted (settings : Settings) (s : Scene α) (results : List (Result α)) (counts : Role → Nat) :
    Prop where
  capacity : s.queue.capacity.toNat = settings.capacity
  position (role : Role) :
    s.queue.position role = settings.startIndex + UInt64.ofNat (s.moved results role).length
  index (role : Role) : (s.queue.side role).post.index = settings.startIndex + UInt64.ofNat (counts role)
  shown_le (role : Role) : counts role ≤ (s.moved results role).length
  taken_le : (s.moved results .consumer).length ≤ counts .producer
  room : (s.moved results .producer).length ≤ counts .consumer + settings.capacity

theorem counted_of_opened (opened : Queue.ofSettings settings = .ok q) :
    (ofQueue q).Counted settings [] fun _ => 0 where
  capacity := Queue.ofSettings_capacity opened
  position role := by
    have begins := Queue.ofSettings_side opened role
    show (q.side role).cursor.position = _
    rw [begins]
    cases role <;> exact (UInt64.add_zero _).symm
  index role := by
    have begins := Queue.ofSettings_side opened role
    show (q.side role).post.index = _
    rw [begins]
    exact (UInt64.add_zero _).symm
  shown_le role := Nat.zero_le _
  taken_le := Nat.le_refl _
  room := Nat.zero_le _

theorem Stocked.length_moved (stocked : s.Stocked results items) :
    (s.moved results .producer).length = (s.moved results .consumer).length + items.length := by
  have balance : s.moved results .producer = s.moved results .consumer ++ items := stocked.balance
  rw [balance, List.length_append]

namespace Counted

variable (counted : s.Counted settings results counts)

include counted

/-- An access that moves no item, but may show some. -/
theorem kept {stride : Stride α role} (unmoved : Queue.Unmoved s.queue stride.queue)
    (same : ∀ who, (s.absorb stride).1.moved (results ++ stride.result.toList) who =
      s.moved results who)
    {next : Role → Nat}
    (index : ∀ who, (stride.queue.side who).post.index = settings.startIndex + UInt64.ofNat (next who))
    (onward : ∀ who, counts who ≤ next who) (within : ∀ who, next who ≤ (s.moved results who).length) :
    (s.absorb stride).1.Counted settings (results ++ stride.result.toList) next := by
  have taken := counted.taken_le
  have room := counted.room
  have first := onward .producer
  have second := onward .consumer
  constructor
  · exact (congrArg _ unmoved.capacity).trans counted.capacity
  · intro who
    rw [same]
    exact (unmoved.position who).trans (counted.position who)
  · exact index
  · intro who
    rw [same]
    exact within who
  · rw [same]
    omega
  · rw [same]
    omega

omit counted in
theorem moved_peer (results : List (Result α)) (stride : Stride α role) :
    (s.absorb stride).1.moved results role.peer = s.moved results role.peer := by
  have rests := s.absorb_place_peer stride
  unfold Scene.moved
  cases role with
  | producer =>
    have same : (s.absorb stride).1.place .consumer = s.place .consumer := rests
    simp only [Role.peer, same]
  | consumer =>
    have same : (s.absorb stride).1.place .producer = s.place .producer := rests
    simp only [Role.peer, same]

/-- The producer has put an item into the ring. -/
theorem stored {stride : Stride α .producer} {item : α} (stocked : s.Stocked results items)
    (after : (s.absorb stride).1.Coherent results (items ++ [item]))
    (unseen : Queue.Unseen .producer s.queue stride.queue) :
    (s.absorb stride).1.Counted settings results counts := by
  have ordered : stride.queue.Ordered := after.guarded.ordered
  have small := ordered.capacity_le
  have taken := counted.taken_le
  have room := counted.room
  have shown := counted.shown_le .consumer
  have before := stocked.length_moved
  have total := after.stocked.length_moved
  have same : (s.absorb stride).1.moved results .consumer = s.moved results .consumer :=
    moved_peer results stride
  rw [same, List.length_append, List.length_singleton] at total
  have capacity : stride.queue.capacity.toNat = settings.capacity :=
    (congrArg _ unseen.capacity).trans counted.capacity
  have consumed : stride.queue.consumer.cursor = s.queue.consumer.cursor := unseen.cursor
  have index (who : Role) :
      (stride.queue.side who).post.index = settings.startIndex + UInt64.ofNat (counts who) := by
    rw [unseen.post]
    exact counted.index who
  have consumer : stride.queue.consumer.cursor.position =
      settings.startIndex + UInt64.ofNat (s.moved results .consumer).length := by
    rw [consumed]
    exact counted.position .consumer
  have producer : stride.queue.producer.cursor.position =
      settings.startIndex + UInt64.ofNat ((s.absorb stride).1.moved results .producer).length := by
    have length : stride.queue.consumer.cursor.position.span stride.queue.producer.cursor.position =
        (items ++ [item]).length := after.stocked.stocks.length_eq
    rw [List.length_append, List.length_singleton, consumer] at length
    refine Index.span_inj (length.trans ?_)
    rw [Index.span_of_counts settings.startIndex (by omega) (by omega)]
    omega
  constructor
  · exact capacity
  · intro who
    cases who with
    | producer => exact producer
    | consumer => rw [same]; exact consumer
  · exact index
  · intro who
    cases who with
    | producer => have := counted.shown_le .producer; omega
    | consumer => rw [same]; exact shown
  · rw [same]
    exact taken
  · have first := ordered.consumer_published
    have second := ordered.consumer_position
    have third := ordered.consumer_seen
    have fourth := ordered.producer_published
    have most := ordered.room
    have published : stride.queue.consumer.cursor.published =
        settings.startIndex + UInt64.ofNat (counts .consumer) :=
      ordered.consumer_posted.symm.trans (index .consumer)
    -- what the producer saw last is no newer than what the consumer has shown, so it has no more room than this
    have way := Index.span_from (i := stride.queue.producer.cursor.seen)
      (j := stride.queue.consumer.cursor.published) (k := stride.queue.producer.cursor.position)
      (show stride.queue.ahead _ ≤ stride.queue.ahead _ by omega)
    rw [published, producer, Index.span_of_counts settings.startIndex (by omega) (by omega)] at way
    unfold Queue.ahead at most
    rw [producer] at most
    omega

/-- The consumer has taken items out of the ring. -/
theorem fetched {stride : Stride α .consumer} {front rest : List α}
    (stocked : s.Stocked results (front ++ rest))
    (after : (s.absorb stride).1.Coherent results rest)
    (unseen : Queue.Unseen .consumer s.queue stride.queue) :
    (s.absorb stride).1.Counted settings results counts := by
  have ordered : stride.queue.Ordered := after.guarded.ordered
  have small := ordered.capacity_le
  have taken := counted.taken_le
  have room := counted.room
  have before := stocked.length_moved
  have total := after.stocked.length_moved
  have same : (s.absorb stride).1.moved results .producer = s.moved results .producer :=
    moved_peer results stride
  rw [List.length_append] at before
  rw [same] at total
  have capacity : stride.queue.capacity.toNat = settings.capacity :=
    (congrArg _ unseen.capacity).trans counted.capacity
  have produced : stride.queue.producer.cursor = s.queue.producer.cursor := unseen.cursor
  have shownConsumer := counted.shown_le .consumer
  have shownProducer := counted.shown_le .producer
  have index (who : Role) :
      (stride.queue.side who).post.index = settings.startIndex + UInt64.ofNat (counts who) := by
    rw [unseen.post]
    exact counted.index who
  have producer : stride.queue.producer.cursor.position =
      settings.startIndex + UInt64.ofNat (s.moved results .producer).length := by
    rw [produced]
    exact counted.position .producer
  have consumer : stride.queue.consumer.cursor.position =
      settings.startIndex + UInt64.ofNat ((s.absorb stride).1.moved results .consumer).length := by
    have length : stride.queue.consumer.cursor.position.span stride.queue.producer.cursor.position =
        rest.length := after.stocked.stocks.length_eq
    rw [producer] at length
    refine Index.span_inj_left (length.trans ?_)
    rw [Index.span_of_counts settings.startIndex (by omega) (by omega)]
    omega
  constructor
  · exact capacity
  · intro who
    cases who with
    | producer => rw [same]; exact producer
    | consumer => exact consumer
  · exact index
  · intro who
    cases who with
    | producer => rw [same]; exact shownProducer
    | consumer => omega
  -- the items left are at least as many as those not shown, so the consumer has taken none of these
  · have first := ordered.consumer_position
    have second := ordered.consumer_seen
    have third := ordered.producer_published
    have published : stride.queue.producer.cursor.published =
        settings.startIndex + UInt64.ofNat (counts .producer) :=
      ordered.producer_posted.symm.trans (index .producer)
    have whole := Index.span_from (i := stride.queue.producer.cursor.seen)
      (j := stride.queue.consumer.cursor.position) (k := stride.queue.producer.cursor.position)
      (show stride.queue.ahead _ ≤ stride.queue.ahead _ by omega)
    have hidden := Index.span_from (i := stride.queue.producer.cursor.seen) third
    unfold Queue.ahead at first second third
    rw [consumer, producer, Index.span_of_counts settings.startIndex (by omega) (by omega)] at whole
    rw [published, producer, Index.span_of_counts settings.startIndex shownProducer (by omega)] at hidden
    rw [consumer] at first
    rw [published] at second third
    rw [producer] at third
    omega
  · rw [same]
    exact room

/-- A party has made an access to the ring. -/
theorem moves {stride : Stride α role} {left : List α} (coherent : s.Coherent results items)
    (nothing : (s.place role).untold = none) (moves : Queue.Moves items stride left)
    (unseen : Queue.Unseen role s.queue stride.queue)
    (made : s.step (.go role) = some (s.absorb stride)) :
    (s.absorb stride).1.Counted settings (results ++ stride.result.toList) counts := by
  obtain ⟨silent, stocked⟩ := coherent.stocked.moved nothing moves
  obtain ⟨_, guarded, _, departs⟩ := coherent.step (t := (s.absorb stride).1) made
  have after : (s.absorb stride).1.Coherent results left := ⟨guarded, stocked, departs⟩
  rw [silent, Option.toList_none, List.append_nil]
  cases moves with
  | stored => exact counted.stored coherent.stocked after unseen
  | fetched split =>
    subst split
    exact counted.fetched coherent.stocked after unseen

theorem step (coherent : s.Coherent results items) (made : s.step access = some (t, result)) :
    t.Counted settings (results ++ result.toList) fun role =>
      if s.shows role access then (s.moved results role).length else counts role := by
  have shown_le := counted.shown_le
  cases access with
  | enter role task =>
    obtain ⟨here, rfl, rfl⟩ := of_step_enter made
    have untold : task.entry.untold = (s.place role).untold := by
      rw [here]
      exact Task.entry_untold task
    have keeps : (s.place role).Keeps ⟨s.queue, task.entry, none⟩ :=
      .kept untold fun _ member => nomatch member
    have same := moved_kept results keeps (coherent.stocked.untold role)
    exact counted.kept (.refl s.queue) same counted.index (fun _ => Nat.le_refl _) shown_le
  | go role =>
    obtain ⟨stride, next, rfl, rfl⟩ := of_step_go made
    by_cases moving : ∃ aim, s.place role = .move aim
    · obtain ⟨aim, here⟩ := moving
      have silent (who : Role) : s.shows who (.go role) = false := by simp only [shows, here]
      simp only [silent, Bool.false_eq_true, if_false]
      have ready := coherent.guarded.suits role
      rw [here] at next ready
      obtain ⟨left, moves⟩ := coherent.stocked.stocks.act coherent.guarded.ordered ready.1 aim
      have unseen := (aim.act_unseen s.queue).1
      cases next
      exact counted.moves coherent (by rw [here]; rfl) moves unseen made
    · have still (aim : Aim α role) : s.place role ≠ .move aim := fun here => moving ⟨aim, here⟩
      obtain ⟨unmoved, keeps⟩ := Place.stride_keeps still next
      have same := moved_kept results keeps (coherent.stocked.untold role)
      by_cases showing : ∃ goal, s.place role = .announce goal
      · obtain ⟨goal, here⟩ := showing
        have shows (who : Role) : s.shows who (.go role) = (role == who) := by
          simp only [shows, here]
        rw [here] at next
        obtain ⟨own, other⟩ := Place.announce_index coherent.guarded.ordered next
        have apart : (role == role.peer) = false := by cases role <;> rfl
        simp only [shows]
        refine counted.kept unmoved same ?_ ?_ ?_
        all_goals
          intro who
          rcases role.eq_or_eq_peer who with rfl | rfl
        · simpa using own.trans (counted.position _)
        · simpa [apart] using other.trans (counted.index _)
        · simpa using shown_le _
        · simp [apart]
        · simp
        · simpa [apart] using shown_le _
      · have silent (who : Role) : s.shows who (.go role) = false := by
          unfold shows
          dsimp only
          split
          · rename_i goal here
            exact absurd ⟨goal, here⟩ showing
          · rfl
        simp only [silent, Bool.false_eq_true, if_false]
        have quiet := Place.stride_index (fun goal here => showing ⟨goal, here⟩) next
        exact counted.kept unmoved same (fun who => (quiet who).trans (counted.index who))
          (fun _ => Nat.le_refl _) shown_le

theorem run (coherent : s.Coherent results items) (made : s.run accesses = some (t, later)) :
    t.Counted settings (results ++ later) (fun role => s.shownAfter role results (counts role) accesses) ∧
      ∀ role, counts role ≤ s.shownAfter role results (counts role) accesses := by
  induction accesses generalizing s results items counts later with
  | nil =>
    cases made
    exact ⟨by rwa [List.append_nil], fun _ => Nat.le_refl _⟩
  | cons access accesses ih =>
    obtain ⟨next, result, rest, first, second, rfl⟩ := of_run_cons made
    obtain ⟨left, after⟩ := coherent.step first
    obtain ⟨last, onward⟩ := ih (counted.step coherent first) after second
    simp only [shownAfter, first]
    refine ⟨by rwa [← List.append_assoc], fun role => Nat.le_trans ?_ (onward role)⟩
    have shown := counted.shown_le role
    split
    · exact shown
    · exact Nat.le_refl _

end Counted

/-- The count goes on from moment to moment. -/
theorem shownAfter_append (role : Role) (shown : Nat) (made : s.run accesses = some (t, later)) :
    s.shownAfter role results shown (accesses ++ more) =
      t.shownAfter role (results ++ later) (s.shownAfter role results shown accesses) more := by
  induction accesses generalizing s results shown later with
  | nil =>
    cases made
    rw [List.append_nil]
    rfl
  | cons access accesses ih =>
    obtain ⟨next, result, rest, first, second, rfl⟩ := of_run_cons made
    simp only [List.cons_append, shownAfter, first]
    rw [ih _ second, List.append_assoc]

namespace Counted

variable (counted : s.Counted settings results counts)

include counted

/-- The producer is never more than half the circle ahead of what the consumer has shown. -/
theorem within (ordered : s.queue.Ordered) :
    (s.moved results .producer).length ≤ counts .consumer + 0x8000000000000000 := by
  have small := ordered.capacity_le
  have capacity := counted.capacity
  have room := counted.room
  omega

/-- A party that has shown its last step has shown all of them. -/
theorem shown_eq (ordered : s.queue.Ordered)
    (all : (s.queue.side role).cursor.published = s.queue.position role) :
    counts role = (s.moved results role).length := by
  have taken := counted.taken_le
  have room := counted.within ordered
  have far := counted.shown_le role
  have close : (s.moved results role).length - counts role < 0x10000000000000000 := by
    have producer := counted.shown_le .producer
    have consumer := counted.shown_le .consumer
    cases role <;> omega
  have same : settings.startIndex + UInt64.ofNat (counts role) =
      settings.startIndex + UInt64.ofNat (s.moved results role).length := by
    rw [← counted.position, ← counted.index]
    exact (ordered.posted role).trans all
  have none : (settings.startIndex + UInt64.ofNat (counts role)).span
      (settings.startIndex + UInt64.ofNat (s.moved results role).length) = 0 := by
    rw [same]
    exact Index.span_self _
  rw [Index.span_of_counts _ far close] at none
  omega

theorem waiting_eq (ordered : s.queue.Ordered) :
    s.queue.waiting.toNat = counts .producer - (s.moved results .consumer).length := by
  have taken := counted.taken_le
  have room := counted.within ordered
  have producer := counted.shown_le .producer
  have consumer := counted.shown_le .consumer
  show s.queue.consumer.cursor.position.span s.queue.producer.post.index = _
  rw [show s.queue.producer.post.index = _ from counted.index .producer,
    show s.queue.consumer.cursor.position = _ from counted.position .consumer]
  exact Index.span_of_counts _ taken (by omega)

/-- What an onlooker sees who reads the one index now and the other one later. -/
theorem lengthBetween_eq (ordered : s.queue.Ordered) {told : List (Result α)} {laterCounts : Role → Nat}
    (afterwards : t.Counted settings told laterCounts)
    (onward : counts .consumer ≤ laterCounts .consumer)
    (few : laterCounts .consumer < counts .consumer + 0x8000000000000000) :
    (Queue.lengthBetween s.queue.producer.post.index t.queue.consumer.post.index).toNat =
      if counts .producer = laterCounts .consumer + 0x8000000000000000 then 0
      else counts .producer - laterCounts .consumer := by
  have taken := counted.taken_le
  have room := counted.within ordered
  have producer := counted.shown_le .producer
  have consumer := counted.shown_le .consumer
  rw [show s.queue.producer.post.index = _ from counted.index .producer,
    show t.queue.consumer.post.index = _ from afterwards.index .consumer]
  exact Queue.lengthBetween_of_counts _ (by omega) (by omega)

theorem visibleLength_eq (ordered : s.queue.Ordered) :
    s.queue.visibleLength.toNat = if counts .producer = counts .consumer + 0x8000000000000000 then 0
      else counts .producer - counts .consumer :=
  counted.lengthBetween_eq ordered counted (Nat.le_refl _) (Nat.lt_add_of_pos_right (by decide))

/-- A consumer at rest has shown all that it has taken. It sees what an onlooker sees, unless half the
circle of items waits for it. -/
theorem of_rest (coherent : s.Coherent results items) (rests : s.place .consumer = .rest) :
    counts .consumer = (results.flatMap Result.delivered).length ∧
      s.queue.waiting.toNat = counts .producer - counts .consumer ∧
      s.queue.visibleLength = if s.queue.waiting = 0x8000000000000000 then 0 else s.queue.waiting := by
  have ordered := coherent.guarded.ordered
  have delivered : (s.moved results .consumer).length = (results.flatMap Result.delivered).length := by
    unfold Scene.moved
    simp only [rests, Place.untold, Option.toList_none, List.append_nil]
  have settled := coherent.guarded.suits .consumer
  rw [rests] at settled
  have all : counts .consumer = (s.moved results .consumer).length := counted.shown_eq ordered settled
  have waiting := counted.waiting_eq ordered
  rw [← all] at waiting
  have visible := counted.visibleLength_eq ordered
  have half : s.queue.waiting = 0x8000000000000000 ↔
      counts .producer = counts .consumer + 0x8000000000000000 := by
    rw [← UInt64.toNat_inj, waiting, show (0x8000000000000000 : UInt64).toNat = 0x8000000000000000 from rfl]
    omega
  refine ⟨all.trans delivered, waiting, UInt64.toNat_inj.mp (visible.trans ?_)⟩
  rw [← ite_cond_congr (propext half), apply_ite UInt64.toNat, waiting]
  rfl

end Counted

/-- Before the consumer sets to work, the producer can show as many items as there is room for. -/
theorem exists_run_shown (opened : Queue.ofSettings settings = .ok q) {items : List α}
    (fits : items.length ≤ settings.capacity) :
    ∃ accesses s results, (ofQueue q).run accesses = some (s, results) ∧
      (ofQueue q).shown .producer accesses = items.length ∧
      (ofQueue q).shown .consumer accesses = 0 ∧ s.queue.waiting.toNat = items.length ∧
      s.queue.visibleLength.toNat =
        if items.length = 0x8000000000000000 then 0 else items.length := by
  obtain ⟨moves, results, y, runs, idle, all, accepted, delivered⟩ :=
    Exchange.exists_runs_filled opened fits
  obtain ⟨accesses, made⟩ := Exchange.runs_undisturbed opened runs
  have begins := coherent_of_opened opened
  obtain ⟨counted, _⟩ := (counted_of_opened opened).run begins made
  obtain ⟨left, coherent⟩ := begins.run made
  rw [List.nil_append] at counted coherent
  have ordered := coherent.guarded.ordered
  have put : y.scene.moved results .producer = items := by
    simp only [moved, Exchange.untold_scene (idle _), Option.toList_none, List.append_nil, accepted]
  have taken : y.scene.moved results .consumer = [] := by
    simp only [moved, Exchange.untold_scene (idle _), Option.toList_none, List.append_nil, delivered]
  have shown : (ofQueue q).shown .producer accesses = (y.scene.moved results .producer).length :=
    counted.shown_eq ordered all
  have none : (ofQueue q).shown .consumer accesses ≤ (y.scene.moved results .consumer).length :=
    counted.shown_le .consumer
  have waiting : y.scene.queue.waiting.toNat =
      (ofQueue q).shown .producer accesses - (y.scene.moved results .consumer).length :=
    counted.waiting_eq ordered
  have visible := counted.visibleLength_eq ordered
  rw [put] at shown
  rw [taken, List.length_nil] at none waiting
  refine ⟨accesses, y.scene, results, made, shown, by omega, by omega, visible.trans ?_⟩
  show (if (ofQueue q).shown .producer accesses = (ofQueue q).shown .consumer accesses + _ then 0
    else (ofQueue q).shown .producer accesses - (ofQueue q).shown .consumer accesses) = _
  rw [shown, Nat.le_zero.mp none, Nat.zero_add, Nat.sub_zero]

/-- The length that an onlooker computes from the producer's index and from the consumer's index at some
later moment, in whatever order the two parties make their accesses in between, as long as the consumer
shows fewer than half the circle of steps meanwhile. It is the number of items shown by the first moment
less those taken by the second, and nothing if the consumer has gone further. So it is never more than
the capacity, nor than what was there at the first moment. An onlooker who reads both indices at once
while the consumer rests sees the same length as the consumer. The number has one exception, which takes
the greatest capacity there is: a difference of just half the circle is taken for an index that was
overtaken, so that the onlooker sees none of so many items. The bounds hold all the same. -/
theorem lengthBetween_moments (opened : Queue.ofSettings settings = .ok q)
    (first : (ofQueue q).run accesses = some (s, results)) (second : s.run more = some (t, later))
    (few : (ofQueue q).shown .consumer (accesses ++ more) <
      (ofQueue q).shown .consumer accesses + 0x8000000000000000) :
    let published := (ofQueue q).shown .producer accesses
    let consumed := (ofQueue q).shown .consumer accesses
    let consumedLater := (ofQueue q).shown .consumer (accesses ++ more)
    let length := Queue.lengthBetween s.queue.producer.post.index t.queue.consumer.post.index
    (settings.capacity < 0x8000000000000000 →
      length.toNat = published - consumedLater ∧
        (s.place .consumer = .rest → s.queue.visibleLength = s.queue.waiting)) ∧
      length.toNat =
        (if published = consumedLater + 0x8000000000000000 then 0 else published - consumedLater) ∧
      length.toNat ≤ settings.capacity ∧
      consumed ≤ published ∧ length.toNat ≤ published - consumed ∧
      (published ≤ consumedLater → length = 0) ∧
      (s.place .consumer = .rest → consumed = (results.flatMap Result.delivered).length ∧
        s.queue.waiting.toNat = published - consumed ∧
        s.queue.visibleLength =
          if s.queue.waiting = 0x8000000000000000 then 0 else s.queue.waiting) := by
  intro published consumed consumedLater length
  have begins := coherent_of_opened opened
  obtain ⟨early, _⟩ := (counted_of_opened opened).run begins first
  obtain ⟨items, coherent⟩ := begins.run first
  obtain ⟨late, onward⟩ := early.run coherent second
  simp only [← shownAfter_append _ 0 first] at late onward
  rw [List.nil_append] at early coherent
  have onward : consumed ≤ consumedLater := onward .consumer
  have seen : consumed ≤ (s.moved results .consumer).length := early.shown_le .consumer
  have taken : (s.moved results .consumer).length ≤ published := early.taken_le
  have put : published ≤ (s.moved results .producer).length := early.shown_le .producer
  have room : (s.moved results .producer).length ≤ consumed + settings.capacity := early.room
  have value : length.toNat =
      if published = consumedLater + 0x8000000000000000 then 0 else published - consumedLater :=
    early.lengthBetween_eq coherent.guarded.ordered late onward few
  have most : length.toNat ≤ published - consumedLater := by
    rw [value]
    split <;> omega
  refine ⟨fun less => ⟨?_, fun rests => ?_⟩, value, by omega, by omega, by omega, fun passed => ?_,
    early.of_rest coherent⟩
  · rw [value, if_neg (by omega)]
  · obtain ⟨_, waiting, visible⟩ := early.of_rest coherent rests
    have waiting : s.queue.waiting.toNat = published - consumed := waiting
    rw [visible, if_neg fun half => ?_]
    rw [half, show (0x8000000000000000 : UInt64).toNat = 0x8000000000000000 from rfl] at waiting
    omega
  · refine UInt64.toNat_inj.mp ?_
    rw [UInt64.toNat_zero]
    omega

/-- A queue of the greatest capacity, for items that take up no memory. The producer has shown as many items
as half the circle has indices, and the consumer has taken none. All of them wait for the consumer, and an
onlooker who reads both indices at the same moment sees none. -/
theorem lengthBetween_half_circle :
    ∃ (fresh : Queue Unit) (accesses : List (Access Unit)) (s : Scene Unit) (results : List (Result Unit)),
      Queue.ofSettings ⟨0x8000000000000000, by decide, 0, 0, 0, .whenShort, 0⟩ = .ok fresh ∧
        (ofQueue fresh).run accesses = some (s, results) ∧
        (ofQueue fresh).shown .producer accesses = 0x8000000000000000 ∧
        (ofQueue fresh).shown .consumer accesses = 0 ∧
        s.queue.waiting = 0x8000000000000000 ∧
        Queue.lengthBetween s.queue.producer.post.index s.queue.consumer.post.index = 0 := by
  have opened : Queue.ofSettings (α := Unit)
      ⟨0x8000000000000000, by decide, 0, 0, 0, .whenShort, 0⟩ = .ok _ := rfl
  have length : (List.replicate 0x8000000000000000 ()).length = 0x8000000000000000 :=
    List.length_replicate
  obtain ⟨accesses, s, results, made, published, consumed, waiting, visible⟩ :=
    exists_run_shown opened (Nat.le_of_eq length)
  rw [length] at published waiting visible
  exact ⟨_, accesses, s, results, opened, made, published, consumed, UInt64.toNat_inj.mp waiting,
    UInt64.toNat_inj.mp visible⟩

/-- The accesses of a push that finds room, of an item nobody waits for. -/
def pushing (item : Nat) : List (Access Nat) :=
  .enter .producer (.pursue (.tryPush item)) :: List.replicate 5 (.go .producer)

/-- The accesses of a pop that finds an item. -/
def popping : List (Access Nat) :=
  .enter .consumer (.pursue .tryPop) :: List.replicate 4 (.go .consumer)

/-- Two items are pushed before the first index is read, and a third one after that, across the end of the
circle. When the second index is read the consumer has taken all three. The onlooker sees none, not the
huge distance from the one index around the circle to the other. -/
theorem lengthBetween_moments_overtaken :
    ∃ (fresh : Queue Nat) (s t : Scene Nat) (results later : List (Result Nat)),
      Queue.ofSettings ⟨2, by decide, 0, 0, 18446744073709551615, .whenShort, 8⟩ = .ok fresh ∧
        (ofQueue fresh).run (pushing 1 ++ pushing 2) = some (s, results) ∧
        s.run (popping ++ pushing 3 ++ popping ++ popping) = some (t, later) ∧
        s.queue.visibleLength = 2 ∧
        Queue.lengthBetween s.queue.producer.post.index t.queue.consumer.post.index = 0 := by
  refine ⟨_, _, _, _, _, rfl, rfl, rfl, ?_, ?_⟩
  · rfl
  · have opened : Queue.ofSettings (α := Nat)
      ⟨2, by decide, 0, 0, 18446744073709551615, .whenShort, 8⟩ = .ok _ := rfl
    exact (@lengthBetween_moments Nat _ _ _ _ _ _ (pushing 1 ++ pushing 2)
      (popping ++ pushing 3 ++ popping ++ popping) opened rfl rfl (by decide)).2.2.2.2.2.1 (by decide)

end Scene

end SpscQueue
