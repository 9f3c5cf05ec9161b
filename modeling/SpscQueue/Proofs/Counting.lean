import SpscQueue.Proofs.Offering
import SpscQueue.Proofs.Refinement

namespace SpscQueue

universe u

variable {α : Type u} {q next mid last : Queue α} {x y : Exchange α} {items added front : List α}
  {role : Role} {move : Move α} {moves : List (Move α)} {results : List (Result α)} {asleep : Bool}
  {o : Index} {b : Backlog α} {pushes : Nat}

/-- How often a party was woken. -/
def Wakeups.of (w : Wakeups) : Role → UInt64
  | .producer => w.producer
  | .consumer => w.consumer

namespace Queue

/-- Whether the signal of a party is raised on the way from one state to another. -/
def rouses (q next : Queue α) (role : Role) : Bool := !q.signalled role && next.signalled role

theorem rouses_iff : q.rouses next role = true ↔
    q.signalled role = false ∧ next.signalled role = true := by
  rw [rouses, Bool.and_eq_true, Bool.not_eq_true']

theorem wakeups_of (q : Queue α) (role : Role) :
    q.wakeups.of role = (q.side role.peer).post.wakeups := by
  cases role <;> rfl

/-- What a party does while it shows its steps: it counts a wakeup just when that raises the signal of its
peer, which has to be asleep, and then it has shown something. -/
structure Counts (o : Index) (role : Role) (asleep : Bool) (q next : Queue α) : Prop where
  wakeups : next.wakeups.of role = q.wakeups.of role + if q.rouses next role then 1 else 0
  onward : o.span (q.side role.peer).cursor.published + (if q.rouses next role then 1 else 0) ≤
    o.span (next.side role.peer).cursor.published
  asleep : q.rouses next role = true → asleep = true
  keeps : q.signalled role = true → next.signalled role = true

namespace Counts

theorem refl (o : Index) (role : Role) (asleep : Bool) (q : Queue α) : Counts o role asleep q q := by
  have still : ¬ q.rouses q role = true := fun raised => by
    obtain ⟨quiet, raised⟩ := rouses_iff.mp raised
    cases quiet.symm.trans raised
  refine ⟨?_, ?_, fun raised => absurd raised still, id⟩
  · rw [if_neg still, UInt64.add_zero]
  · rw [if_neg still]
    exact Nat.le_refl _

/-- Only what is on view to the peer counts. -/
theorem of_outward (counts : Counts o role asleep mid last)
    (before : mid.outward role.peer = q.outward role.peer)
    (after : next.outward role.peer = last.outward role.peer) : Counts o role asleep q next := by
  have views {first second : Queue α} (same : second.outward role.peer = first.outward role.peer) :
      second.signalled role = first.signalled role ∧
        second.wakeups.of role = first.wakeups.of role ∧
        (second.side role.peer).cursor.published = (first.side role.peer).cursor.published := by
    cases role with
    | producer =>
      exact ⟨congrArg (·.signalled .producer) same, congrArg (·.wakeups.producer) same,
        congrArg (·.consumer.cursor.published) same⟩
    | consumer =>
      exact ⟨congrArg (·.signalled .consumer) same, congrArg (·.wakeups.consumer) same,
        congrArg (·.producer.cursor.published) same⟩
  obtain ⟨signalled, woken, published⟩ := views before
  obtain ⟨signalledNow, wokenNow, publishedNow⟩ := views after
  have rouses : q.rouses next role = mid.rouses last role := by
    rw [Queue.rouses, Queue.rouses, signalled, signalledNow]
  obtain ⟨wakeups, onward, asleep, keeps⟩ := counts
  rw [← rouses, woken, published, ← wokenNow, ← publishedNow, signalled, ← signalledNow] at *
  exact ⟨wakeups, onward, asleep, keeps⟩

theorem of_still (same : next.outward role.peer = q.outward role.peer) :
    Counts o role asleep q next := (refl o role asleep q).of_outward rfl same

/-- A wakeup that is owed counts, and only to a party that is asleep. -/
theorem of_owed (owed : Prop) [Decidable owed]
    (signals : next.signalled role = true ↔ owed ∨ q.signalled role = true)
    (wakes : owed → asleep = true ∧ q.signalled role = false)
    (wakeups : next.wakeups.of role = q.wakeups.of role + if owed then 1 else 0)
    (onward : o.span (q.side role.peer).cursor.published + (if owed then 1 else 0) ≤
      o.span (next.side role.peer).cursor.published) : Counts o role asleep q next := by
  have rouses : q.rouses next role = true ↔ owed := by
    rw [rouses_iff, signals]
    constructor
    · rintro ⟨quiet, owed | raised⟩
      · exact owed
      · cases quiet.symm.trans raised
    · exact fun owed => ⟨(wakes owed).2, Or.inl owed⟩
  refine ⟨?_, ?_, fun raised => (wakes (rouses.mp raised)).1, fun raised => signals.mpr (Or.inr raised)⟩
  · simp only [wakeups, rouses]
  · simpa only [rouses] using onward

end Counts

theorem tuned_outward (q : Queue α) (role : Role) :
    (q.outward role.peer).Tuned o role asleep ↔ q.Tuned o role asleep := by
  cases role <;> exact
    ⟨fun tuned => ⟨tuned.raised, tuned.asked⟩, fun tuned => ⟨tuned.raised, tuned.asked⟩⟩

theorem Tuned.of_outward (tuned : q.Tuned o role asleep)
    (same : next.outward role.peer = q.outward role.peer) : next.Tuned o role asleep := by
  rwa [← tuned_outward, same, tuned_outward]

theorem anchored_outward (q : Queue α) (role : Role) :
    (q.outward role).Anchored o pushes ↔ q.Anchored o pushes := by
  cases role <;> exact
    ⟨fun anchored => ⟨anchored.total, anchored.begun, anchored.way⟩,
      fun anchored => ⟨anchored.total, anchored.begun, anchored.way⟩⟩

theorem Anchored.of_outward (anchored : q.Anchored o pushes)
    (same : next.outward role = q.outward role) : next.Anchored o pushes := by
  rwa [← anchored_outward next role, same, anchored_outward]

theorem Tuned.asleep_of_near (tuned : q.Tuned o role asleep) (present : q.closed role.peer = false)
    (early : o.span (q.side role.peer).cursor.published ≤ 0x8000000000000000)
    (near : (q.side role.peer).cursor.published.span (q.side role.peer).post.threshold <
      0x8000000000000000) : asleep = true ∧ q.signalled role = false := by
  rcases tuned.asks_of_near early near with gone | ⟨sleeps, quiet, _⟩
  · rw [present] at gone
    cases gone
  · exact ⟨sleeps, quiet⟩

theorem Tuned.flush_counts (tuned : q.Tuned o .consumer asleep) (carries : q.Carries items)
    (anchored : q.Anchored o pushes)
    (early : o.span q.producer.cursor.published ≤ 0x8000000000000000)
    (present : q.closed .producer = false) : Counts o .consumer asleep q q.flush := by
  have small := carries.capacity_lt
  have most := carries.length_le
  have deferred := carries.deferred_eq
  have way := anchored.deferred_way carries
  have owes : q.producer.owesWakeup = true ↔
      q.producer.cursor.published.span q.producer.post.threshold <
        q.producer.cursor.published.span q.producer.cursor.position :=
    Index.passes_iff_span (by omega)
  refine .of_owed (q.producer.owesWakeup = true) carries.signalled_flush_iff ?_ ?_ ?_
  · intro owed
    have ahead := owes.mp owed
    exact tuned.asleep_of_near present early (Nat.lt_of_lt_of_le ahead (by omega))
  · rw [flush_eq carries.producer_posted]
    rfl
  · rw [flush_eq carries.producer_posted]
    show o.span q.producer.cursor.published + _ ≤ o.span q.producer.cursor.position
    split
    · rename_i owed
      have ahead := owes.mp owed
      omega
    · omega

theorem Tuned.put_counts (tuned : q.Tuned o .consumer asleep) (carries : q.Carries items)
    (anchored : q.Anchored o pushes) (early : pushes < 0x8000000000000000)
    (present : q.closed .producer = false) (space : q.ready .producer = true) (item : α)
    (force : Bool) : Counts o .consumer asleep q (q.put item force) := by
  have reach := (anchored.published_le carries).2
  unfold Queue.put
  split
  · have counts := (tuned.written item).flush_counts (carries.written space item)
      (anchored.written carries early item)
      (show o.span q.producer.cursor.published ≤ _ by omega) present
    exact ⟨counts.wakeups, counts.onward, counts.asleep, counts.keeps⟩
  · have counts := Counts.refl o .consumer asleep q
    exact ⟨counts.wakeups, counts.onward, counts.asleep, counts.keeps⟩

theorem Tuned.taken_counts (tuned : q.Tuned o .producer asleep) (carries : q.Carries items)
    (anchored : q.Anchored o pushes) (early : pushes < 0x8000000000000000)
    (present : q.closed .consumer = false) (ring : Ring α) {steps : UInt64}
    (within : steps.toNat ≤ q.shown) : Counts o .producer asleep q (q.taken ring steps) := by
  have small := carries.capacity_lt
  have most := carries.length_le
  have shown := carries.shown_le
  have length := carries.length_eq
  have total := anchored.total
  have way := anchored.way
  have published := carries.consumer_published
  obtain ⟨_, reach⟩ := anchored.onward carries within
  have near : q.consumer.cursor.position.span (q.consumer.cursor.position + steps) = steps.toNat :=
    Index.span_add_self ..
  have passes : Index.passes q.consumer.cursor.position (q.consumer.cursor.position + steps)
        q.consumer.post.threshold = true ↔
      q.consumer.cursor.position.span q.consumer.post.threshold < steps.toNat := by
    rw [Index.passes_iff_span (by omega), near]
  refine .of_owed (q.consumer.cursor.position.span q.consumer.post.threshold < steps.toNat)
    (carries.signalled_taken_iff ring within) ?_ ?_ ?_
  · intro ahead
    refine tuned.asleep_of_near present ?_ ?_
    · show o.span q.consumer.cursor.published ≤ _
      rw [published]
      omega
    · show q.consumer.cursor.published.span q.consumer.post.threshold < _
      rw [published]
      omega
  · rw [taken_eq carries.consumer_posted_published]
    simp only [published, passes]
    rfl
  · rw [taken_eq carries.consumer_posted_published]
    show o.span q.consumer.cursor.published + _ ≤ o.span (q.consumer.cursor.position + steps)
    rw [published]
    split <;> omega

theorem Offers.counts (offers : q.Offers items added next) (tuned : q.Tuned o .consumer asleep)
    (carries : q.Carries items) (anchored : q.Anchored o pushes) (early : pushes < 0x8000000000000000)
    (present : q.closed .producer = false) (stays : next.closed .producer = false) :
    Counts o .consumer asleep q next := by
  have reach := (anchored.published_le carries).2
  have sees {mid : Queue α} (same : mid.outward .producer = q.outward .producer) :
      o.span mid.producer.cursor.published ≤ 0x8000000000000000 ∧ mid.closed .producer = false := by
    rw [show mid.producer.cursor.published = q.producer.cursor.published from
      congrArg (·.producer.cursor.published) same]
    exact ⟨by omega, (congrArg (·.closed .producer) same).trans present⟩
  cases offers with
  | waits same => exact .of_still same
  | shows same carried shows =>
    obtain ⟨near, here⟩ := sees same
    exact ((tuned.of_outward same).flush_counts carried (anchored.of_outward same) near
      here).of_outward same shows
  | writes item force same carried space =>
    exact ((tuned.of_outward same).put_counts carried (anchored.of_outward same) early (sees same).2
      space item force).of_outward same rfl
  | leaves => cases stays

theorem Draws.counts (draws : q.Draws items front next) (tuned : q.Tuned o .producer asleep)
    (anchored : q.Anchored o pushes) (early : pushes < 0x8000000000000000)
    (present : q.closed .consumer = false) (stays : next.closed .consumer = false) :
    Counts o .producer asleep q next := by
  cases draws with
  | waits same => exact .of_still same
  | takes ring same carried _ within =>
    exact ((tuned.of_outward same).taken_counts carried (anchored.of_outward same) early
      ((congrArg (·.closed .consumer) same).trans present) ring within).of_outward same rfl
  | leaves => cases stays

/-! What a party does never counts for itself, because its own wakeups stand with its peer. -/

theorem publish_wakeups (q : Queue α) (role : Role) :
    (q.publish role).wakeups.of role = q.wakeups.of role := by
  cases role with
  | producer =>
    show (q.producer.publish q.consumer).2.post.wakeups = q.consumer.post.wakeups
    rw [Side.publish_snd]
  | consumer =>
    show (q.consumer.publish q.producer).2.post.wakeups = q.producer.post.wakeups
    rw [Side.publish_snd]

theorem Offers.wakeups_self (offers : q.Offers items added next) :
    next.wakeups.of .producer = q.wakeups.of .producer := by
  have still {first second : Queue α} (same : second.outward .producer = first.outward .producer) :
      second.wakeups.of .producer = first.wakeups.of .producer := congrArg (·.wakeups.of .producer) same
  cases offers with
  | waits same => exact still same
  | shows same _ shows => exact ((still shows).trans (publish_wakeups _ .producer)).trans (still same)
  | @writes mid item force same =>
    have before := still same
    unfold Queue.put
    split
    · exact (publish_wakeups (mid.written item) .producer).trans before
    · exact before
  | leaves => exact q.publish_wakeups .producer

theorem Draws.wakeups_self (draws : q.Draws items front next) :
    next.wakeups.of .consumer = q.wakeups.of .consumer := by
  have still {first second : Queue α} (same : second.outward .consumer = first.outward .consumer) :
      second.wakeups.of .consumer = first.wakeups.of .consumer := congrArg (·.wakeups.of .consumer) same
  cases draws with
  | waits same => exact still same
  | takes ring same =>
    have before := still same
    exact (publish_wakeups _ .consumer).trans before
  | leaves => rfl

end Queue

namespace Move

/-- The moves that come before the next one of a party. -/
def ahead (role : Role) (moves : List (Move α)) : List (Move α) :=
  moves.takeWhile fun move => move.role != role

theorem ahead_cons_self (own : move.role = role) : ahead role (move :: moves) = [] :=
  List.takeWhile_cons_of_neg (by simp [own])

theorem ahead_cons_peer (other : move.role = role.peer) :
    ahead role (move :: moves) = move :: ahead role moves :=
  List.takeWhile_cons_of_pos (by rw [other]; cases role <;> rfl)

end Move

/-- A party in its park, and what its peer does before that party goes on. -/
structure Park (α : Type u) where
  place : Exchange α
  meanwhile : List (Move α)

namespace Exchange

/-- The queue once a move has shown what there is to show. A handle that ends tells so only after that. -/
def showing (x : Exchange α) : Move α → Queue α
  | .close .producer => x.queue.flush
  | .close .consumer => x.queue
  | move => (x.play move).exchange.queue

/-- Whether the signal of a party is raised by what one of some moves shows. -/
def roused (role : Role) : Exchange α → List (Move α) → Bool
  | _, [] => false
  | x, move :: moves =>
    x.queue.rouses (x.showing move) role || roused role (x.play move).exchange moves

/-- The park in which a party is, if it is, when some moves are still to be made. -/
def park (x : Exchange α) (role : Role) (moves : List (Move α)) : List (Park α) :=
  if x.parked role then [⟨x, Move.ahead role moves⟩] else []

/-- The parks into which a party goes when some moves are made. -/
def parks (role : Role) : Exchange α → List (Move α) → List (Park α)
  | _, [] => []
  | x, move :: moves =>
    let y := (x.play move).exchange
    (if move.role = role then y.park role moves else []) ++ parks role y moves

end Exchange

/-- Whether a park ends, or is to end, because the peer has shown something. -/
def Park.woken (role : Role) (park : Park α) : Bool := park.place.roused role park.meanwhile

namespace Exchange

theorem showing_eq (here : ∀ role, move ≠ .close role) :
    x.showing move = (x.play move).exchange.queue := by
  cases move with
  | close role => exact absurd rfl (here role)
  | _ => rfl

/-- A party that makes a move other than its last stays. -/
theorem play_closed (here : ∀ role, move ≠ .close role) (role : Role) :
    (x.play move).exchange.queue.closed role = x.queue.closed role := by
  cases move with
  | start who call => exact (x.start_beside call).1.closed role
  | proceed who => exact (x.proceed_beside who).1.closed role
  | tryPush item => exact (x.queue.alike_tryPush item).closed role
  | tryPop => exact x.queue.alike_tryPop.closed role
  | flush => exact (x.queue.alike_publish .producer).closed role
  | close who => exact absurd rfl (here who)

/-- A handle that ends tells so by the signal of its peer, and by nothing else. -/
theorem play_showing (x : Exchange α) (move : Move α) :
    ((x.play move).exchange.queue.side move.role).post = ((x.showing move).side move.role).post ∧
      ((x.play move).exchange.queue.side move.role).cursor =
        ((x.showing move).side move.role).cursor ∧
      ((x.showing move).signalled move.role.peer = true →
        (x.play move).exchange.queue.signalled move.role.peer = true) := by
  cases move with
  | close role => cases role <;> exact ⟨rfl, rfl, fun _ => rfl⟩
  | _ => exact ⟨rfl, rfl, id⟩

/-- A party that a move leaves in its park answers so. -/
theorem result_of_parks (allowed : x.allows move = true)
    (parked : (x.play move).exchange.parked move.role = true) :
    (x.play move).result = some .parked := by
  have tells {role : Role} {call : Call α role} {stretch : Stretch α}
      (parked : (x.arrive call stretch).exchange.parked role = true) :
      ((x.arrive call stretch).turn role).result = some .parked := by
    cases ended : (x.arrive call stretch).outcome with
    | some outcome =>
      rw [parked_of_idle (arrive_ended ended)] at parked
      cases parked
    | none => simp only [Advance.turn, ended, if_pos parked]
  have awake (rests : x.atRest move.role = true) (queue : Queue α) :
      { x with queue }.parked move.role = false :=
    parked_of_idle ((current_withQueue queue).trans (atRest_iff.mp rests).2)
  cases move with
  | start role call => exact tells parked
  | proceed role =>
    obtain ⟨paused, current⟩ := busy_iff.mp (Bool.and_eq_true_iff.mp allowed).1
    simp only [play, proceed_eq current] at parked ⊢
    exact tells parked
  | _ => exact absurd parked (Bool.eq_false_iff.mp (awake allowed _))

/-- Who makes a move counts nothing for itself. -/
theorem Sound.play_wakeups_self (sound : x.Sound items) (allowed : x.allows move = true)
    (own : move.role = role) :
    (x.play move).exchange.queue.wakeups.of role = x.queue.wakeups.of role := by
  cases role with
  | producer => exact (sound.play_offers allowed own).wakeups_self
  | consumer => exact (sound.play_draws allowed own).wakeups_self

theorem Portrays.play_counts (portrays : x.Portrays o b pushes) (early : pushes < 0x8000000000000000)
    (allowed : x.allows move = true) (other : move.role = role.peer) :
    Queue.Counts o role (x.parked role) x.queue (x.showing move) := by
  obtain ⟨items, sound⟩ := portrays.sound
  have carries := sound.carries
  have anchored := portrays.depicts.anchored
  have tuned := portrays.tuned role
  have present := sound.mover_present allowed
  rw [← portrays.parked] at tuned
  rw [other] at present
  -- a handle that ends shows its steps before it tells so, and only the first of the two counts
  by_cases here : ∀ role, move ≠ .close role
  · have stays := (play_closed here role.peer).trans present
    rw [showing_eq here]
    cases role with
    | producer => exact (sound.play_draws allowed other).counts tuned anchored early present stays
    | consumer =>
      exact (sound.play_offers allowed other).counts tuned carries anchored early present stays
  · obtain ⟨who, ends⟩ := Classical.not_forall.mp here
    obtain rfl : move = .close who := Classical.not_not.mp ends
    obtain rfl : who = role.peer := other
    cases role with
    | producer => exact .refl o .producer _ _
    | consumer =>
      have reach := (anchored.published_le carries).2
      exact tuned.flush_counts carries anchored (by omega) present

/-- A move counts a wakeup of the other party just when it raises the signal of that party by what it
shows. -/
theorem Portrays.play_wakeups (portrays : x.Portrays o b pushes)
    (early : pushes < 0x8000000000000000) (allowed : x.allows move = true)
    (other : move.role = role.peer) : (x.play move).exchange.queue.wakeups.of role =
      x.queue.wakeups.of role + if x.queue.rouses (x.showing move) role then 1 else 0 := by
  have shows := (x.play_showing move).1
  rw [other] at shows
  rw [Queue.wakeups_of, shows, ← Queue.wakeups_of]
  exact (portrays.play_counts early allowed other).wakeups

theorem Portrays.published_le (portrays : x.Portrays o b pushes) (role : Role) :
    o.span (x.queue.side role).cursor.published ≤ pushes + 1 := by
  obtain ⟨items, sound⟩ := portrays.sound
  have anchored := portrays.depicts.anchored
  cases role with
  | producer => exact (anchored.published_le sound.carries).2
  | consumer =>
    have total := anchored.total
    have way := anchored.way
    show o.span x.queue.consumer.cursor.published ≤ pushes + 1
    rw [sound.carries.consumer_published]
    omega

/-- Neither party was woken more often than its peer has shown steps, so the count does not wrap. -/
def Modest (o : Index) (x : Exchange α) (role : Role) : Prop :=
  (x.queue.wakeups.of role).toNat ≤ o.span (x.queue.side role.peer).cursor.published

theorem Sound.play_modest_self (sound : x.Sound items) (modest : x.Modest o role)
    (allowed : x.allows move = true) (own : move.role = role) :
    (x.play move).exchange.Modest o role := by
  have books := x.play_cursor_peer move
  rw [own] at books
  unfold Modest
  rwa [sound.play_wakeups_self allowed own, books]

theorem Portrays.play_modest (portrays : x.Portrays o b pushes) (modest : x.Modest o role)
    (early : pushes < 0x8000000000000000) (allowed : x.allows move = true)
    (other : move.role = role.peer) :
    (x.play move).exchange.Modest o role ∧
      ((x.play move).exchange.queue.wakeups.of role).toNat = (x.queue.wakeups.of role).toNat +
        if x.queue.rouses (x.showing move) role then 1 else 0 := by
  have onward := (portrays.play_counts early allowed other).onward
  have reach := portrays.published_le role.peer
  have books := (x.play_showing move).2.1
  rw [other] at books
  have counted : ((x.play move).exchange.queue.wakeups.of role).toNat =
      (x.queue.wakeups.of role).toNat +
        if x.queue.rouses (x.showing move) role then 1 else 0 := by
    rw [portrays.play_wakeups early allowed other, UInt64.toNat_add]
    unfold Modest at modest
    split
    · have one : (1 : UInt64).toNat = 1 := rfl
      omega
    · have zero : (0 : UInt64).toNat = 0 := rfl
      omega
  refine ⟨?_, counted⟩
  unfold Modest at modest ⊢
  rw [counted, books]
  omega

/-- A signal that is there is not raised once more before its party goes on. -/
theorem Portrays.not_roused (portrays : x.Portrays o b pushes) (run : x.Runs moves results y)
    (few : pushes + (results.filterMap Result.accepted).length < 0x8000000000000000)
    (signalled : x.queue.signalled role = true) :
    x.roused role (Move.ahead role moves) = false := by
  induction run generalizing b pushes with
  | rest => rfl
  | @next x y move moves results allowed _ ih =>
    rw [List.filterMap_append, List.length_append, ← Nat.add_assoc] at few
    by_cases own : move.role = role
    · rw [Move.ahead_cons_self own]
      rfl
    · have other : move.role = role.peer := (role.eq_or_eq_peer move.role).resolve_left own
      obtain ⟨_, after⟩ := portrays.play (by omega) allowed
      have told := (x.play_showing move).2.2
      rw [other, Role.peer_peer] at told
      have stays := told ((portrays.play_counts (by omega) allowed other).keeps signalled)
      rw [Move.ahead_cons_peer other, roused, Queue.rouses, signalled, ih after few stays]
      rfl

theorem park_cons_self (own : move.role = role) :
    (x.park role (move :: moves)).countP (·.woken role) = 0 := by
  unfold park
  split
  · rw [Move.ahead_cons_self own]
    rfl
  · rfl

/-- What a move of the peer shows ends a park, or the park lasts on. -/
theorem Portrays.park_cons_peer (portrays : x.Portrays o b pushes)
    (run : (x.play move).exchange.Runs moves results y) (allowed : x.allows move = true)
    (few : pushes + (x.play move).accepted.length + (results.filterMap Result.accepted).length <
      0x8000000000000000)
    (other : move.role = role.peer) :
    (x.park role (move :: moves)).countP (·.woken role) =
      (if x.queue.rouses (x.showing move) role then 1 else 0) +
        ((x.play move).exchange.park role moves).countP (·.woken role) := by
  have early : pushes < 0x8000000000000000 := by omega
  obtain ⟨_, after⟩ := portrays.play early allowed
  have counts := portrays.play_counts early allowed other
  have stays := x.current_play_peer move
  have told := (x.play_showing move).2.2
  rw [other, Role.peer_peer] at stays told
  have still : (x.play move).exchange.parked role = x.parked role := by
    unfold Exchange.parked pauseOf
    rw [stays]
  unfold park
  rw [still, Move.ahead_cons_peer other]
  by_cases parked : x.parked role = true
  · have woken : Park.woken role ⟨x, move :: Move.ahead role moves⟩ =
        (x.queue.rouses (x.showing move) role ||
          Park.woken role ⟨(x.play move).exchange, Move.ahead role moves⟩) := rfl
    rw [if_pos parked, if_pos parked, List.countP_singleton, List.countP_singleton, woken]
    by_cases raised : x.queue.rouses (x.showing move) role = true
    -- the signal stays up until the party goes on, so nothing else in this park raises it
    · have quiet : Park.woken role ⟨(x.play move).exchange, Move.ahead role moves⟩ = false :=
        after.not_roused run few (told (Queue.rouses_iff.mp raised).2)
      rw [quiet, raised]
      rfl
    · rw [Bool.eq_false_iff.mpr raised, Bool.false_or, if_neg Bool.false_ne_true, Nat.zero_add]
  · have unmoved : ¬ x.queue.rouses (x.showing move) role = true :=
      fun raised => parked (counts.asleep raised)
    rw [if_neg parked, if_neg parked, if_neg unmoved, List.countP_nil]

/-- In a run a party is woken once for the park it may be in, and for each further one, that the peer
ends by what it shows. -/
theorem Portrays.run_wakeups (portrays : x.Portrays o b pushes) (modest : x.Modest o role)
    (run : x.Runs moves results y)
    (few : pushes + (results.filterMap Result.accepted).length < 0x8000000000000000) :
    (y.queue.wakeups.of role).toNat = (x.queue.wakeups.of role).toNat +
      (x.park role moves).countP (·.woken role) + (x.parks role moves).countP (·.woken role) := by
  induction run generalizing b pushes with
  | rest x =>
    have none : (x.park role []).countP (·.woken role) = 0 := by
      unfold park
      split <;> rfl
    rw [none]
    rfl
  | @next x y move moves results allowed rest ih =>
    rw [List.filterMap_append, List.length_append, ← Nat.add_assoc] at few
    obtain ⟨items, sound⟩ := portrays.sound
    obtain ⟨_, after⟩ := portrays.play (by omega) allowed
    rw [parks, List.countP_append]
    by_cases own : move.role = role
    · have later := ih after (sound.play_modest_self modest allowed own) few
      rw [sound.play_wakeups_self allowed own] at later
      rw [park_cons_self own, if_pos own]
      omega
    · have other : move.role = role.peer := (role.eq_or_eq_peer move.role).resolve_left own
      obtain ⟨modestNow, counted⟩ := portrays.play_modest modest (by omega) allowed other
      have later := ih after modestNow few
      rw [portrays.park_cons_peer rest allowed few other, if_neg own, List.countP_nil]
      omega

/-- Who never answers that it has parked does not park. -/
theorem Runs.parks_eq_nil (run : x.Runs moves results y) (awake : Result.parked ∉ results)
    (role : Role) : x.parks role moves = [] := by
  induction run with
  | rest => rfl
  | @next x y move moves results allowed _ ih =>
    have now : Result.parked ∉ (x.play move).result.toList :=
      fun member => awake (List.mem_append_left _ member)
    rw [parks, ih fun member => awake (List.mem_append_right _ member), List.append_nil]
    split
    · rename_i own
      have still : ¬ (x.play move).exchange.parked role = true := by
        intro parked
        rw [← own] at parked
        exact now (Option.mem_toList.mpr (result_of_parks allowed parked))
      exact if_neg still
    · rfl

theorem wakeups_of_opened {settings : Settings} {fresh : Session α}
    (opened : Session.ofSettings settings = .ok fresh) (role : Role) :
    fresh.exchange.queue.wakeups.of role = 0 := by
  unfold Session.ofSettings at opened
  cases made : Queue.ofSettings (α := α) settings with
  | error cause => rw [made] at opened; cases opened
  | ok q =>
    rw [made] at opened
    cases opened
    show q.wakeups.of role = 0
    rw [Queue.wakeups_of, Queue.ofSettings_side made]
    rfl

/-- A party is counted as woken once for each of its parks that ends, or is to end, because the peer has
shown something, and for nothing else. A move that shows something counts only if the other party is
parked and has no signal yet, and whoever makes a move counts nothing for itself. As long as nobody parks
nobody is woken. -/
theorem wakeups_eq_parks_woken {settings : Settings} {fresh : Session α}
    (opened : Session.ofSettings settings = .ok fresh) (run : fresh.exchange.Runs moves results x)
    (few : (results.filterMap Result.accepted).length < 0x8000000000000000) :
    (∀ role, (x.queue.wakeups.of role).toNat =
      (fresh.exchange.parks role moves).countP (·.woken role)) ∧
    (∀ move, x.allows move = true →
      (x.play move).exchange.queue.wakeups.of move.role = x.queue.wakeups.of move.role ∧
      (x.play move).exchange.queue.wakeups.of move.role.peer =
        x.queue.wakeups.of move.role.peer +
          if x.parked move.role.peer && x.queue.rouses (x.showing move) move.role.peer then 1 else 0) ∧
    (Result.parked ∉ results → x.queue.wakeups = .zero) := by
  have begins := Session.portrays_of_opened opened
  have counted (role : Role) : (x.queue.wakeups.of role).toNat =
      (fresh.exchange.parks role moves).countP (·.woken role) := by
    have modest : fresh.exchange.Modest (settings.startIndex - 1) role := by
      unfold Modest
      rw [wakeups_of_opened opened]
      exact Nat.zero_le _
    have idle : fresh.exchange.parked role = false :=
      parked_of_idle ((Session.begins_of_opened opened).idle role)
    have total := begins.run_wakeups modest run (by omega)
    rw [wakeups_of_opened opened, park, idle, if_neg Bool.false_ne_true, List.countP_nil] at total
    rw [total]
    exact Nat.zero_add _
  refine ⟨counted, fun move allowed => ?_, fun awake => ?_⟩
  · obtain ⟨last, _, portrays⟩ := begins.run run (by omega)
    obtain ⟨items, sound⟩ := portrays.sound
    have other : move.role = move.role.peer.peer := move.role.peer_peer.symm
    have counts := portrays.play_counts (by omega) allowed other
    have sleeps : (x.parked move.role.peer && x.queue.rouses (x.showing move) move.role.peer) =
        x.queue.rouses (x.showing move) move.role.peer :=
      Bool.and_eq_right_iff_imp.mpr counts.asleep
    rw [sleeps]
    exact ⟨sound.play_wakeups_self allowed rfl, portrays.play_wakeups (by omega) allowed other⟩
  · have none (role : Role) : x.queue.wakeups.of role = 0 := by
      have zero := counted role
      rw [run.parks_eq_nil awake] at zero
      exact UInt64.toNat_inj.mp zero
    exact congrArg₂ Wakeups.mk (none .producer) (none .consumer)

/-- Of two pushes to a parked consumer the first one counts. A push to a consumer that is still on its way
into the park does not. -/
theorem wakeups_eq_parks_woken_twice_shown :
    ∃ (fresh : Session Nat) (x : Exchange Nat),
      Session.ofSettings ⟨2, by decide, 0, 0, 18446744073709551615, .whenShort, 8⟩ = .ok fresh ∧
        fresh.exchange.Runs
          [.start .consumer .pop, .proceed .consumer, .start .producer (.push 5 false),
            .start .producer (.push 6 true), .proceed .consumer, .start .consumer .pop,
            .start .consumer .pop, .start .producer (.push 7 true), .proceed .consumer]
          [.parked, .push (.accepted 5), .push (.accepted 6), .pop (.ok 5), .pop (.ok 6),
            .push (.accepted 7), .pop (.ok 7)] x ∧
        (x.queue.wakeups.of .consumer).toNat = 1 := by
  suffices reached : ∃ (fresh : Session Nat) (x : Exchange Nat),
      Session.ofSettings ⟨2, by decide, 0, 0, 18446744073709551615, .whenShort, 8⟩ = .ok fresh ∧
        fresh.exchange.Runs
          [.start .consumer .pop, .proceed .consumer, .start .producer (.push 5 false),
            .start .producer (.push 6 true), .proceed .consumer, .start .consumer .pop,
            .start .consumer .pop, .start .producer (.push 7 true), .proceed .consumer]
          [.parked, .push (.accepted 5), .push (.accepted 6), .pop (.ok 5), .pop (.ok 6),
            .push (.accepted 7), .pop (.ok 7)] x ∧
        (fresh.exchange.parks .consumer
          [.start .consumer .pop, .proceed .consumer, .start .producer (.push 5 false),
            .start .producer (.push 6 true), .proceed .consumer, .start .consumer .pop,
            .start .consumer .pop, .start .producer (.push 7 true), .proceed .consumer]).countP
          (·.woken .consumer) = 1 by
    obtain ⟨fresh, x, opened, run, once⟩ := reached
    have counted := (wakeups_eq_parks_woken opened run (by decide)).1 .consumer
    exact ⟨fresh, x, opened, run, counted.trans once⟩
  exact ⟨_, _, rfl, .next rfl (.next rfl (.next rfl (.next rfl (.next rfl (.next rfl (.next rfl
    (.next rfl (.next rfl (.rest _))))))))), rfl⟩

end Exchange

end SpscQueue
