import SpscQueue.Proofs.Handshake
import SpscQueue.Proofs.Standstill

namespace SpscQueue

universe u

variable {α : Type u} {role : Role} {q next : Queue α} {items front rest : List α}

/-- A result that tells of an item moved into the ring, or of items moved out of it. -/
def Result.succeeds : Role → Result α → Bool
  | .producer, push (.accepted _) => true
  | .producer, tryPush (.accepted _) => true
  | .consumer, pop (.ok _) => true
  | .consumer, tryPop (.ok _) => true
  | .consumer, popBatch (.ok _) => true
  | _, _ => false

/-- A result that tells of no item moved. -/
structure Result.Idle (result : Result α) : Prop where
  accepted : result.accepted = none
  delivered : result.delivered = []
  sound : result.faulty = false

theorem Result.faulty_of_succeeds {result : Result α} (done : result.succeeds role = true) :
    result.faulty = false := by
  unfold succeeds at done
  split at done <;> first | rfl | cases done

theorem Result.delivered_of_succeeds {result : Result α}
    (done : result.succeeds .producer = true) : result.delivered = [] := by
  unfold succeeds at done
  split at done <;> first | rfl | (rename_i same; cases same) | cases done

theorem Result.accepted_of_succeeds {result : Result α}
    (done : result.succeeds .consumer = true) : result.accepted = none := by
  unfold succeeds at done
  split at done <;> first | rfl | (rename_i same; cases same) | cases done

/-- The result that a party has got once it has shown its steps. -/
def Goal.result : Goal α role → Option (Result α)
  | .rest result => result
  | _ => none

/-- The result that a party has got and not told yet. The items it tells of are moved already. -/
def Place.untold : Place α role → Option (Result α)
  | .peek result => some result
  | .announce goal => goal.result
  | .heed _ goal => goal.result
  | .tally goal => goal.result
  | .count _ goal => goal.result
  | .rouse goal => goal.result
  | _ => none

namespace Queue

/-- The ring holds the given items between the places of the two parties. -/
structure Stocks (q : Queue α) (items : List α) : Prop where
  capacity_le : q.capacity.toNat ≤ q.ring.size
  holds : q.ring.Holds q.consumer.cursor.position items
  length_eq : q.consumer.cursor.position.span q.producer.cursor.position = items.length

theorem Carries.stocks (carries : q.Carries items) : q.Stocks items :=
  ⟨carries.capacity_le, carries.holds, carries.length_eq⟩

theorem unmoved_withSide (q : Queue α) (role : Role) {side : Side}
    (position : side.cursor.position = q.position role) : Unmoved q (q.withSide role side) := by
  cases role <;>
    exact ⟨rfl, rfl, fun who => by cases who <;> first | rfl | exact position⟩

theorem unmoved_raise (q : Queue α) (role : Role) : Unmoved q (q.raise role) :=
  q.unmoved_withSide role rfl

namespace Stocks

variable (stocks : q.Stocks items)

include stocks

theorem of_unmoved (unmoved : Unmoved q next) : next.Stocks items := by
  obtain ⟨fits, holds, length⟩ := stocks
  have producer : next.producer.cursor.position = q.producer.cursor.position :=
    unmoved.position .producer
  have consumer : next.consumer.cursor.position = q.consumer.cursor.position :=
    unmoved.position .consumer
  refine ⟨?_, ?_, ?_⟩
  · rwa [unmoved.capacity, unmoved.ring]
  · rwa [unmoved.ring, consumer]
  · rwa [consumer, producer]

theorem length_add_ahead (ordered : q.Ordered) :
    items.length + q.ahead q.consumer.cursor.position = q.ahead q.producer.cursor.position := by
  have second := ordered.consumer_position
  have third := ordered.consumer_seen
  have fourth := ordered.producer_published
  have between : q.consumer.cursor.position.span q.producer.cursor.position =
      q.ahead q.producer.cursor.position - q.ahead q.consumer.cursor.position :=
    Index.span_from (i := q.producer.cursor.seen) (show q.ahead _ ≤ q.ahead _ by omega)
  have length := stocks.length_eq
  omega

/-- What the consumer has seen is there. -/
theorem known_le (ordered : q.Ordered) : q.known.toNat ≤ items.length := by
  have second := ordered.consumer_position
  have third := ordered.consumer_seen
  have fourth := ordered.producer_published
  have length := stocks.length_add_ahead ordered
  have away : q.known.toNat = q.ahead q.consumer.cursor.seen - q.ahead q.consumer.cursor.position :=
    Index.span_from second
  omega

/-- A producer that has seen room finds its slot vacant. -/
theorem write (ordered : q.Ordered) (ready : q.ready .producer = true) (item : α) :
    ∃ ring, q.ring.write? q.producer.cursor.position item = some ring ∧
      ({ q with ring, producer.cursor := q.producer.cursor.advance 1 } : Queue α).Stocks
        (items ++ [item]) := by
  have space := ordered.ready_producer_iff.mp ready
  have small := ordered.capacity_le
  have length := stocks.length_add_ahead ordered
  have fits := stocks.capacity_le
  obtain ⟨wrote, held⟩ := stocks.holds.write (by omega) stocks.length_eq item
  have one : (1 : UInt64).toNat = 1 := rfl
  refine ⟨_, wrote, fits, held, ?_⟩
  show q.consumer.cursor.position.span (q.producer.cursor.position + 1) = _
  have further := Index.span_add (i := q.consumer.cursor.position)
    (j := q.producer.cursor.position) (n := 1) (by rw [stocks.length_eq]; omega)
  rw [further, stocks.length_eq, one, List.length_append, List.length_singleton]

omit stocks in
/-- A consumer finds its slots occupied as far as the ring holds items. -/
theorem read (stocks : q.Stocks (front ++ rest)) {steps : UInt64}
    (count : front.length = steps.toNat) :
    ∃ ring, Ring.readMany? steps.toNat q.consumer.cursor.position q.ring = some (front, ring) ∧
      ({ q with ring, consumer.cursor := q.consumer.cursor.advance steps } : Queue α).Stocks
        rest := by
  obtain ⟨ring, read, order, held⟩ := stocks.holds.readMany
  rw [count] at read
  rw [count, UInt64.ofNat_toNat] at held
  have size : ring.size = q.ring.size := by rw [Ring.size, Ring.size, order]
  refine ⟨ring, read, ?_, held, ?_⟩
  · show q.capacity.toNat ≤ ring.size
    rw [size]
    exact stocks.capacity_le
  · have total := stocks.length_eq
    rw [List.length_append] at total
    show (q.consumer.cursor.position + steps).span q.producer.cursor.position = rest.length
    rw [Index.span_from_add (by omega), total]
    omega

end Stocks

end Queue

section

variable {place : Place α role} {goal : Goal α role} {aim : Aim α role} {stride : Stride α role}

/-- A party keeps the result that it has got, or it tells it. It may also tell of something that moved
no item. -/
inductive Place.Keeps (place : Place α role) (stride : Stride α role) : Prop
  | kept : stride.place.untold = place.untold → (∀ told ∈ stride.result, told.Idle) →
      Keeps place stride
  | told : stride.result = place.untold → stride.place.untold = none → Keeps place stride

theorem Aim.idle_giveUp (aim : Aim α role) : aim.giveUp.Idle := by
  cases aim with
  | call call => cases call <;> exact ⟨rfl, rfl, rfl⟩
  | tryPush | tryPop => exact ⟨rfl, rfl, rfl⟩

theorem Goal.reach_unmoved (q : Queue α) (goal : Goal α role) :
    (goal.reach q).queue = q ∧ (goal.reach q).result = goal.result ∧
      (goal.reach q).place.untold = none := by
  cases goal <;> exact ⟨rfl, rfl, rfl⟩

theorem Aim.short_unmoved (q : Queue α) (check : Check) (aim : Aim α role) :
    (aim.short q check).queue = q ∧ (aim.short q check).place.untold = none ∧
      ∀ told ∈ (aim.short q check).result, told.Idle := by
  cases aim with
  | tryPush =>
    cases check <;> exact ⟨rfl, rfl, fun _ told => by cases told; exact ⟨rfl, rfl, rfl⟩⟩
  | tryPop => cases check <;> exact ⟨rfl, rfl, fun _ told => nomatch told⟩
  | call call => cases check <;> exact ⟨rfl, rfl, fun _ told => nomatch told⟩

theorem Aim.present_unmoved (q : Queue α) (aim : Aim α role) :
    (aim.present q).queue = q ∧ (aim.present q).place.untold = none ∧
      ∀ told ∈ (aim.present q).result, told.Idle := by
  cases aim with
  | tryPop => exact ⟨rfl, rfl, fun _ told => by cases told; exact ⟨rfl, rfl, rfl⟩⟩
  | call | tryPush => exact ⟨rfl, rfl, fun _ told => nomatch told⟩

theorem Aim.absent_unmoved (q : Queue α) (aim : Aim α role) :
    (aim.absent q).queue = q ∧ (aim.absent q).place.untold = none ∧
      ∀ told ∈ (aim.absent q).result, told.Idle := by
  cases role with
  | producer => exact ⟨rfl, rfl, fun _ told => by cases told; exact aim.idle_giveUp⟩
  | consumer => exact ⟨rfl, rfl, fun _ told => nomatch told⟩

/-- Only an access to the ring moves items. -/
theorem Place.stride_keeps (still : ∀ aim, place ≠ .move aim) (next : place.stride q = some stride) :
    Queue.Unmoved q stride.queue ∧ place.Keeps stride := by
  have silent {after : Stride α role} (none : after.result = none)
      (same : after.place.untold = place.untold) : place.Keeps after :=
    .kept same fun told member => by rw [none] at member; cases member
  cases place with
  | rest => cases next
  | gone => cases next
  | glance call =>
    cases next
    exact ⟨q.unmoved_refresh role, silent rfl rfl⟩
  | look check aim =>
    cases next
    split
    · exact ⟨q.unmoved_look role, silent rfl rfl⟩
    · obtain ⟨same, none, idle⟩ := aim.short_unmoved (q.look role) check
      rw [same]
      exact ⟨q.unmoved_look role, .kept none idle⟩
  | ask aim =>
    cases next
    split
    · obtain ⟨same, none, idle⟩ := aim.absent_unmoved q
      rw [same]
      exact ⟨.refl q, .kept none idle⟩
    · obtain ⟨same, none, idle⟩ := aim.present_unmoved q
      rw [same]
      exact ⟨.refl q, .kept none idle⟩
  | lastLook aim =>
    cases next
    split
    · exact ⟨q.unmoved_refresh role, silent rfl rfl⟩
    · exact ⟨q.unmoved_refresh role,
        .kept rfl fun told member => by cases member; exact aim.idle_giveUp⟩
  | enrol call =>
    cases next
    refine ⟨q.unmoved_watch _ role, silent rfl ?_⟩
    cases role <;> rfl
  | recheck call =>
    cases next
    split
    · exact ⟨q.unmoved_refresh role, silent rfl rfl⟩
    · exact ⟨q.unmoved_refresh role,
        .kept rfl fun told member => by cases member; exact ⟨rfl, rfl, rfl⟩⟩
  | parked call =>
    rw [Place.stride] at next
    split at next
    · cases next
      exact ⟨q.unmoved_hush role, silent rfl rfl⟩
    · cases next
  | move aim => exact absurd rfl (still aim)
  | peek result =>
    cases next
    refine ⟨.refl q, ?_⟩
    split
    · exact silent rfl rfl
    · exact .told rfl rfl
  | announce goal =>
    cases next
    dsimp only
    split
    · obtain ⟨same, told, none⟩ := goal.reach_unmoved q
      rw [same]
      exact ⟨.refl q, .told told none⟩
    · exact ⟨q.unmoved_withSide role rfl, silent rfl rfl⟩
  | heed old goal =>
    cases next
    split
    · exact ⟨.refl q, silent rfl rfl⟩
    · obtain ⟨same, told, none⟩ := goal.reach_unmoved q
      rw [same]
      exact ⟨.refl q, .told told none⟩
  | tally goal =>
    cases next
    exact ⟨.refl q, silent rfl rfl⟩
  | count wakeups goal =>
    cases next
    exact ⟨q.unmoved_withSide role rfl, silent rfl rfl⟩
  | rouse goal =>
    cases next
    obtain ⟨same, told, none⟩ := goal.reach_unmoved (q.raise role.peer)
    rw [same]
    exact ⟨q.unmoved_raise role.peer, .told told none⟩
  | shut =>
    cases next
    exact ⟨q.unmoved_withSide role rfl, silent rfl rfl⟩
  | knock =>
    cases next
    exact ⟨q.unmoved_raise role.peer, silent rfl rfl⟩

end

namespace Queue

/-- What an access to the ring does to the items in it. The party then has a result, which it does not
tell yet. -/
inductive Moves (items : List α) : {role : Role} → Stride α role → List α → Prop
  | stored {next : Queue α} {place : Place α .producer} {result : Result α} {item : α} :
      next.Stocks (items ++ [item]) → place.untold = some result →
      result.succeeds .producer = true → result.accepted = some item →
      Moves items ⟨next, place, none⟩ (items ++ [item])
  | fetched {next : Queue α} {place : Place α .consumer} {result : Result α} {front rest : List α} :
      items = front ++ rest → next.Stocks rest → place.untold = some result →
      result.succeeds .consumer = true → result.delivered = front →
      Moves items ⟨next, place, none⟩ rest

variable (stocks : q.Stocks items) (ordered : q.Ordered)

include stocks ordered

theorem Stocks.store (ready : q.ready .producer = true) (item : α) (force : Bool)
    {name : Admission α → Result α} (done : (name (.accepted item)).succeeds .producer = true)
    (accepted : (name (.accepted item)).accepted = some item) :
    Moves items (q.store item force name) (items ++ [item]) := by
  obtain ⟨ring, wrote, stocked⟩ := stocks.write ordered ready item
  unfold Queue.store
  rw [wrote]
  exact .stored stocked (by cases force <;> rfl) done accepted

theorem Stocks.fetch (ready : q.ready .consumer = true) {name : Except PopFailure α → Result α}
    (named : ∀ item, (name (.ok item)).succeeds .consumer = true ∧
      (name (.ok item)).delivered = [item]) : ∃ left, Moves items (q.fetch name) left := by
  have some : 0 < q.known.toNat := (Carries.ready_consumer_iff q).mp ready
  have within := stocks.known_le ordered
  cases items with
  | nil =>
    rw [List.length_nil] at within
    omega
  | cons item rest =>
    have split : q.Stocks ([item] ++ rest) := stocks
    have count : [item].length = (1 : UInt64).toNat := rfl
    obtain ⟨ring, read, stocked⟩ := split.read count
    have one : (1 : UInt64).toNat = 0 + 1 := rfl
    rw [one, Ring.readMany?_succ] at read
    obtain ⟨⟨held, after⟩, found, last⟩ := Option.bind_eq_some_iff.mp read
    dsimp only at last
    rw [Ring.readMany?_zero] at last
    cases last
    refine ⟨rest, ?_⟩
    unfold Queue.fetch
    rw [found]
    have first : item :: rest = [item] ++ rest := rfl
    exact .fetched first stocked rfl (named item).1 (named item).2

theorem Stocks.fetchKnown : ∃ left, Moves items q.fetchKnown left := by
  have within := stocks.known_le ordered
  have count : (items.take q.known.toNat).length = q.known.toNat := by
    rw [List.length_take, Nat.min_eq_left within]
  have split : items = items.take q.known.toNat ++ items.drop q.known.toNat :=
    (List.take_append_drop _ _).symm
  rw [split] at stocks
  obtain ⟨ring, read, stocked⟩ := stocks.read count
  refine ⟨items.drop q.known.toNat, ?_⟩
  unfold Queue.fetchKnown
  rw [read]
  exact .fetched split stocked rfl rfl rfl

theorem Stocks.act (ready : q.ready role = true) (aim : Aim α role) :
    ∃ left, Moves items (aim.act q) left := by
  cases aim with
  | tryPush item => exact ⟨_, stocks.store ordered ready item true rfl rfl⟩
  | tryPop => exact stocks.fetch ordered ready fun _ => ⟨rfl, rfl⟩
  | call call =>
    cases call with
    | push item force => exact ⟨_, stocks.store ordered ready item force rfl rfl⟩
    | pop => exact stocks.fetch ordered ready fun _ => ⟨rfl, rfl⟩
    | popBatch => exact stocks.fetchKnown ordered

end Queue

namespace Scene

variable {s t : Scene α} {results : List (Result α)}

theorem absorb_place_self (s : Scene α) (stride : Stride α role) :
    (s.absorb stride).1.place role = stride.place := Function.update_self ..

theorem absorb_place_peer (s : Scene α) (stride : Stride α role) :
    (s.absorb stride).1.place role.peer = s.place role.peer :=
  Function.update_of_ne (by cases role <;> decide) ..

/-! What has happened when an access, or a run of accesses, was possible. -/

theorem of_step_enter {task : Task α role} {result : Option (Result α)}
    (made : s.step (.enter role task) = some (t, result)) :
    s.place role = .rest ∧ t = (s.absorb ⟨s.queue, task.entry, none⟩).1 ∧ result = none := by
  rw [Scene.step] at made
  cases here : s.place role with
  | rest =>
    rw [here] at made
    cases made
    exact ⟨rfl, rfl, rfl⟩
  | _ =>
    rw [here] at made
    cases made

theorem of_step_go {result : Option (Result α)} (made : s.step (.go role) = some (t, result)) :
    ∃ stride, (s.place role).stride s.queue = some stride ∧ t = (s.absorb stride).1 ∧
      result = stride.result := by
  obtain ⟨stride, next, taken⟩ := Option.map_eq_some_iff.mp made
  cases taken
  exact ⟨stride, next, rfl, rfl⟩

theorem of_run_cons {access : Access α} {accesses : List (Access α)}
    (made : s.run (access :: accesses) = some (t, results)) :
    ∃ next result later, s.step access = some (next, result) ∧ next.run accesses = some (t, later) ∧
      results = result.toList ++ later := by
  unfold Scene.run at made
  cases first : s.step access with
  | none =>
    rw [first] at made
    cases made
  | some moved =>
    rw [first] at made
    obtain ⟨⟨last, later⟩, run, taken⟩ := Option.map_eq_some_iff.mp made
    cases taken
    exact ⟨moved.1, moved.2, later, rfl, run, rfl⟩

/-- The ring holds exactly what was put in and not taken out, also in the middle of calls: what was put
in is told of by the results so far and by the one that the producer has not told yet, and so is what
was taken out. -/
structure Stocked (s : Scene α) (results : List (Result α)) (items : List α) : Prop where
  stocks : s.queue.Stocks items
  untold (role : Role) : ∀ result ∈ (s.place role).untold, result.succeeds role = true
  sound : ∀ result ∈ results, result.faulty = false
  balance : (results ++ (s.place .producer).untold.toList).filterMap Result.accepted =
    (results ++ (s.place .consumer).untold.toList).flatMap Result.delivered ++ items

theorem stocked_ofQueue (carries : q.Carries []) : (ofQueue q).Stocked [] [] :=
  ⟨carries.stocks, fun _ _ member => (nomatch member), fun _ member => (nomatch member), rfl⟩

theorem filterMap_accepted_of_idle (results untold : List (Result α)) {result : Option (Result α)}
    (idle : ∀ told ∈ result, told.accepted = none) :
    (results ++ result.toList ++ untold).filterMap Result.accepted =
      (results ++ untold).filterMap Result.accepted := by
  cases result with
  | none => simp
  | some told => simp [idle told rfl]

theorem flatMap_delivered_of_idle (results untold : List (Result α)) {result : Option (Result α)}
    (idle : ∀ told ∈ result, told.delivered = []) :
    (results ++ result.toList ++ untold).flatMap Result.delivered =
      (results ++ untold).flatMap Result.delivered := by
  cases result with
  | none => simp
  | some told => simp [idle told rfl]

/-- The items that a party has moved into the ring or out of it: those that the results so far tell of,
and those of a result that it has got and not told yet. -/
def moved (s : Scene α) (results : List (Result α)) : Role → List α
  | .producer => (results ++ (s.place .producer).untold.toList).filterMap Result.accepted
  | .consumer => (results ++ (s.place .consumer).untold.toList).flatMap Result.delivered

/-- A result that is got, kept or told leaves what was moved as it is. -/
theorem moved_kept (results : List (Result α)) {stride : Stride α role} (keeps : (s.place role).Keeps stride)
    (own : ∀ result ∈ (s.place role).untold, result.succeeds role = true) (who : Role) :
    (s.absorb stride).1.moved (results ++ stride.result.toList) who = s.moved results who := by
  have moved := s.absorb_place_self stride
  have rests := s.absorb_place_peer stride
  have accepts (idle : ∀ told ∈ stride.result, told.accepted = none) :=
    filterMap_accepted_of_idle results ((s.absorb stride).1.place .producer).untold.toList idle
  have delivers (idle : ∀ told ∈ stride.result, told.delivered = []) :=
    flatMap_delivered_of_idle results ((s.absorb stride).1.place .consumer).untold.toList idle
  cases keeps with
  | kept same idle =>
    have untold : ((s.absorb stride).1.place who).untold = (s.place who).untold := by
      rcases role.eq_or_eq_peer who with rfl | rfl
      · rw [moved, same]
      · rw [rests]
    cases who with
    | producer => exact (accepts fun told member => (idle told member).accepted).trans (by rw [untold]; rfl)
    | consumer => exact (delivers fun told member => (idle told member).delivered).trans (by rw [untold]; rfl)
  | told same none =>
    have told (result : Result α) (member : result ∈ stride.result) : result.succeeds role = true :=
      own result (same ▸ member)
    cases role with
    | producer =>
      have other : (s.absorb stride).1.place .consumer = s.place .consumer := rests
      cases who with
      | producer =>
        unfold Scene.moved
        rw [moved, none, same, Option.toList_none, List.append_nil]
      | consumer =>
        exact (delivers fun result member => Result.delivered_of_succeeds (told result member)).trans
          (by rw [other]; rfl)
    | consumer =>
      have other : (s.absorb stride).1.place .producer = s.place .producer := rests
      cases who with
      | consumer =>
        unfold Scene.moved
        rw [moved, none, same, Option.toList_none, List.append_nil]
      | producer =>
        exact (accepts fun result member => Result.accepted_of_succeeds (told result member)).trans
          (by rw [other]; rfl)

/-- A party has made an access that moves no item. -/
theorem Stocked.kept (stocked : s.Stocked results items) {stride : Stride α role}
    (unmoved : Queue.Unmoved s.queue stride.queue) (keeps : (s.place role).Keeps stride) :
    (s.absorb stride).1.Stocked (results ++ stride.result.toList) items := by
  have moved := s.absorb_place_self stride
  have rests := s.absorb_place_peer stride
  obtain ⟨stocks, untold, sound, balance⟩ := stocked
  have own := untold role
  have other := untold role.peer
  have still := moved_kept results keeps own
  refine ⟨stocks.of_unmoved unmoved, ?_, ?_, ?_⟩
  · intro who
    rcases role.eq_or_eq_peer who with rfl | rfl
    · rw [moved]
      cases keeps with
      | kept same => rw [same]; exact own
      | told _ none => rw [none]; exact fun _ member => nomatch member
    · rw [rests]
      exact other
  · intro result member
    rcases List.mem_append.mp member with before | now
    · exact sound result before
    · cases keeps with
      | kept _ idle => exact (idle result (Option.mem_toList.mp now)).sound
      | told same =>
        rw [same] at now
        exact Result.faulty_of_succeeds (own result (Option.mem_toList.mp now))
  · show (s.absorb stride).1.moved _ .producer = (s.absorb stride).1.moved _ .consumer ++ items
    rw [still, still]
    exact balance

/-- A party has made an access to the ring. -/
theorem Stocked.moved (stocked : s.Stocked results items) {stride : Stride α role} {left : List α}
    (nothing : (s.place role).untold = none) (moves : Queue.Moves items stride left) :
    stride.result = none ∧ (s.absorb stride).1.Stocked results left := by
  have moved := s.absorb_place_self stride
  have rests := s.absorb_place_peer stride
  obtain ⟨_, untold, sound, balance⟩ := stocked
  have other := untold role.peer
  cases moves with
  | @stored next place result item stocks got done accepted =>
    refine ⟨rfl, stocks, fun who => ?_, sound, ?_⟩
    · rcases Role.producer.eq_or_eq_peer who with rfl | rfl
      · rw [moved, got]
        rintro _ ⟨⟩
        exact done
      · rw [rests]
        exact other
    · have beside : (s.absorb _).1.place .consumer = s.place .consumer := rests
      rw [nothing, Option.toList_none, List.append_nil] at balance
      rw [moved, got, beside]
      simp only [Option.toList_some, List.filterMap_append, balance, accepted, List.filterMap_cons,
        List.filterMap_nil, List.append_assoc]
  | @fetched next place result front rest split stocks got done delivered =>
    subst split
    refine ⟨rfl, stocks, fun who => ?_, sound, ?_⟩
    · rcases Role.consumer.eq_or_eq_peer who with rfl | rfl
      · rw [moved, got]
        rintro _ ⟨⟩
        exact done
      · rw [rests]
        exact other
    · have beside : (s.absorb _).1.place .producer = s.place .producer := rests
      rw [nothing, Option.toList_none, List.append_nil] at balance
      rw [moved, got, beside]
      simp only [Option.toList_some, List.flatMap_append, delivered, List.flatMap_cons,
        List.flatMap_nil, List.append_nil, List.append_assoc]
      exact balance

theorem Task.entry_untold (task : Task α role) : task.entry.untold = none := by
  cases task with
  | flush => rfl
  | leave role => cases role <;> rfl
  | pursue aim =>
    cases aim with
    | tryPush | tryPop => rfl
    | call call => cases call <;> rfl

theorem Stocked.step (stocked : s.Stocked results items) (guarded : s.Guarded) {access : Access α}
    {result : Option (Result α)} (made : s.step access = some (t, result)) :
    ∃ left, t.Stocked (results ++ result.toList) left := by
  cases access with
  | enter role task =>
    obtain ⟨here, rfl, rfl⟩ := of_step_enter made
    refine ⟨items, stocked.kept (.refl s.queue) (.kept ?_ fun _ member => nomatch member)⟩
    rw [here]
    exact Task.entry_untold task
  | go role =>
    obtain ⟨stride, next, rfl, rfl⟩ := of_step_go made
    by_cases moving : ∃ aim, s.place role = .move aim
    · obtain ⟨aim, here⟩ := moving
      have suits := guarded.suits role
      rw [here] at suits next
      cases next
      obtain ⟨left, moves⟩ := stocked.stocks.act guarded.ordered suits.1 aim
      obtain ⟨silent, after⟩ := stocked.moved (by rw [here]; rfl) moves
      refine ⟨left, ?_⟩
      rw [silent, Option.toList_none, List.append_nil]
      exact after
    · obtain ⟨unmoved, keeps⟩ := Place.stride_keeps (fun aim here => moving ⟨aim, here⟩) next
      exact ⟨items, stocked.kept unmoved keeps⟩

end Scene

end SpscQueue
