import SpscQueue.Proofs.Chronicle
import SpscQueue.Proofs.Following

namespace SpscQueue

universe u

variable {α : Type u} {q : Queue α} {x y : Exchange α} {b next : Backlog α} {role : Role} {o : Index}
  {pushes more : Nat}

namespace Backlog

theorem current_withCurrent_self (b : Backlog α) (paused : Option (Paused α role)) :
    (b.withCurrent paused).current role = paused := Function.update_self ..

theorem current_withCurrent_peer (b : Backlog α) (paused : Option (Paused α role)) :
    (b.withCurrent paused).current role.peer = b.current role.peer := by
  refine Function.update_of_ne ?_ ..
  cases role <;> decide

theorem withCurrent_current {paused : Option (Paused α role)} (same : b.current role = paused) :
    b.withCurrent paused = b := by
  subst same
  unfold withCurrent
  rw [Function.update_eq_self]

theorem parked_eq_of_current (same : next.current role = b.current role) :
    next.parked role = b.parked role := by
  unfold parked
  rw [same]

variable {call : Call α role} {pause : Pause} {result : Result α}

theorem carryOn_ready (works : b.attempt call = some (next, result)) (stop : Option Pause) :
    b.carryOn call stop = (next.withCurrent (none : Option (Paused α role)), some result) := by
  simp only [carryOn, works]

theorem carryOn_gone (waits : b.attempt call = none) :
    b.carryOn call none =
      (b.withCurrent (none : Option (Paused α role)), some call.giveUp.result) := by
  simp only [carryOn, waits]

theorem carryOn_pausing (waits : b.attempt call = none) (awake : pause ≠ .park) :
    b.carryOn call (some pause) = (b.withCurrent (some ⟨call, pause⟩), none) := by
  cases pause with
  | park => exact absurd rfl awake
  | _ => simp only [carryOn, waits]

theorem carryOn_parking (waits : b.attempt call = none) :
    b.carryOn call (some .park) =
      ((b.showOwn role).withCurrent (some ⟨call, .park⟩), some .parked) := by
  simp only [carryOn, waits]

theorem showOwn_current (b : Backlog α) (role : Role) : (b.showOwn role).current = b.current := by
  cases role <;> rfl

end Backlog

namespace Exchange

/-- The exchange does the same as a backlog would: its queue depicts it, and the same calls wait. -/
structure Portrays (o : Index) (x : Exchange α) (b : Backlog α) (pushes : Nat) : Prop where
  sound : ∃ items, x.Sound items
  depicts : x.queue.Depicts o b pushes
  current (role : Role) : x.current role = b.current role
  tuned (role : Role) : x.queue.Tuned o role (b.parked role)

namespace Portrays

variable (portrays : x.Portrays o b pushes)

include portrays

theorem parked (role : Role) : x.parked role = b.parked role := by
  unfold Exchange.parked Backlog.parked pauseOf
  rw [portrays.current]

/-- A party that is not asleep can set to work. -/
theorem work (awake : b.parked role = false) (present : x.queue.closed role = false) :
    x.queue.Portrays o role b pushes := by
  obtain ⟨items, sound⟩ := portrays.sound
  have own := portrays.tuned role
  rw [awake] at own
  refine ⟨portrays.depicts, present, own, portrays.tuned role.peer, fun parked => ?_⟩
  rw [← portrays.parked] at parked
  exact sound.watches role.peer parked

/-- A party that is asleep can set to work once it is signalled. -/
theorem wake (asleep : b.parked role = true) (present : x.queue.closed role = false)
    (signalled : x.queue.signalled role = true) : (x.queue.hush role).Portrays o role b pushes := by
  obtain ⟨items, sound⟩ := portrays.sound
  have own := portrays.tuned role
  have depicts := portrays.depicts
  rw [asleep] at own
  refine ⟨?_, ?_, own.woken signalled, (portrays.tuned role.peer).hush, fun parked => ?_⟩
  · exact depicts.moved (x.queue.alike_hush role) (depicts.carries.hush role)
      (by rw [← depicts.visible]; cases role <;> rfl)
      (depicts.anchored.of_books (by cases role <;> rfl) (by cases role <;> rfl))
  · rw [(x.queue.alike_hush role).closed, present]
  · rw [← portrays.parked] at parked
    rcases sound.watches role.peer parked with raised | asked
    · exact Or.inl ((x.queue.regards_hush role).signalled raised)
    · exact (x.queue.regards_hush role).watches asked

/-- A party has been at work on the queue, and now pauses or is at rest. -/
theorem after {paused : Option (Paused α role)} {asleep : Bool} (sound : ∃ items, y.Sound items)
    (place : y.queue = q) (depicts : q.Depicts o next more) (same : next.current = b.current)
    (own : y.current role = paused) (other : y.current role.peer = x.current role.peer)
    (parks : (paused.map Paused.pause == some .park) = asleep) (tuned : q.Tuned o role asleep)
    (peer : q.Tuned o role.peer (next.parked role.peer)) :
    y.Portrays o (next.withCurrent paused) more := by
  subst place
  have self : (next.withCurrent paused).current role = paused := next.current_withCurrent_self paused
  have beside : (next.withCurrent paused).current role.peer = next.current role.peer :=
    next.current_withCurrent_peer paused
  refine ⟨sound, { depicts with }, fun who => ?_, fun who => ?_⟩
  · rcases role.eq_or_eq_peer who with rfl | rfl
    · rw [own, self]
    · rw [other, beside, same, portrays.current]
  · rcases role.eq_or_eq_peer who with rfl | rfl
    · have parked : (next.withCurrent paused).parked who = asleep := by
        unfold Backlog.parked
        rw [self, parks]
      rwa [parked]
    · rwa [Backlog.parked_eq_of_current beside]

/-- A stretch of a call of the exchange does what the call does in the backlog. -/
theorem arrive (early : pushes < 0x8000000000000000) {call : Call α role} {stop : Option Pause}
    {stretch : Stretch α} (follows : stretch.Follows o b pushes call stop)
    (sound : ∃ items, (x.arrive call stretch).exchange.Sound items) :
    ((x.arrive call stretch).turn role).result = (b.carryOn call stop).2 ∧
      (x.arrive call stretch).exchange.Portrays o (b.carryOn call stop).1
        (pushes + ((x.arrive call stretch).turn role).accepted.length) := by
  have other (queue : Queue α) (paused : Option (Paused α role)) :
      ({ x with queue }.withCurrent paused).current role.peer = x.current role.peer := by
    rw [current_withCurrent_peer, current_withQueue]
  cases follows with
  | ready wait depicted ready prepared =>
    obtain ⟨next, result, works, told, after, same⟩ := depicted.finish early call ready prepared
    rw [Backlog.carryOn_ready works]
    simp only [Exchange.arrive, wait, Advance.turn, Turn.accepted, told] at sound ⊢
    exact ⟨trivial, portrays.after sound (withCurrent_queue _ none) after.toDepicts same
      (current_withCurrent_self none) (other _ none) rfl after.own after.peer⟩
  | gone wait waits leaves depicted =>
    have silent : ((some call.giveUp.result).toList.filterMap Result.accepted).length = 0 := by
      cases call <;> rfl
    rw [leaves, Backlog.carryOn_gone waits]
    simp only [Exchange.arrive, wait, Advance.turn, Turn.accepted, silent] at sound ⊢
    exact ⟨trivial, portrays.after sound (withCurrent_queue _ none) depicted.toDepicts rfl
      (current_withCurrent_self none) (other _ none) rfl depicted.own depicted.peer⟩
  | pausing pause wait waits stops awake depicted =>
    have short : (pause == Pause.park) = false := beq_eq_false_iff_ne.mpr awake
    rw [stops, Backlog.carryOn_pausing waits awake]
    simp only [Exchange.arrive, wait, Advance.turn, Turn.accepted,
      parked_eq (current_withCurrent_self _), short, Bool.false_eq_true, if_false] at sound ⊢
    exact ⟨trivial, portrays.after sound (withCurrent_queue _ _) depicted.toDepicts rfl
      (current_withCurrent_self _) (other _ _) short depicted.own depicted.peer⟩
  | parking wait waits stops depicts own peer =>
    rw [stops, Backlog.carryOn_parking waits]
    simp only [Exchange.arrive, wait, Advance.turn, Turn.accepted,
      parked_eq (current_withCurrent_self _), beq_self_eq_true, if_true] at sound ⊢
    exact ⟨trivial, portrays.after sound (withCurrent_queue _ _) depicts (b.showOwn_current role)
      (current_withCurrent_self _) (other _ _) rfl own peer⟩

/-- A party at rest has done something at once. -/
theorem placed (rests : x.current role = none)
    (sound : ∃ items, ({ x with queue := q } : Exchange α).Sound items)
    (depicts : q.Depicts o next more) (same : next.current = b.current)
    (own : q.Tuned o role false) (peer : q.Tuned o role.peer (next.parked role.peer)) :
    ({ x with queue := q } : Exchange α).Portrays o next more := by
  have idle : next.current role = none := by rw [same, ← portrays.current, rests]
  have moved := portrays.after sound rfl depicts same ((current_withQueue q).trans rests)
    (current_withQueue q) rfl own peer
  rwa [Backlog.withCurrent_current idle] at moved

theorem rests_awake (rests : x.current role = none) : b.parked role = false := by
  rw [← portrays.parked, parked_of_idle rests]

theorem start (early : pushes < 0x8000000000000000) (call : Call α role)
    (allowed : x.atRest role = true) (sound : ∃ items, (x.start call).exchange.Sound items) :
    ((x.start call).turn role).result = (b.carryOn call (b.firstStop role)).2 ∧
      (x.start call).exchange.Portrays o (b.carryOn call (b.firstStop role)).1
        (pushes + ((x.start call).turn role).accepted.length) := by
  obtain ⟨present, rests⟩ := atRest_iff.mp allowed
  have depicted := portrays.work (portrays.rests_awake rests) present
  have prepared : (call.prepare x.queue).Portrays o role b pushes := by
    cases call with
    | push => exact depicted
    | pop => exact depicted
    | popBatch => exact depicted.refresh
  have again : call.prepare (call.prepare x.queue) = call.prepare x.queue := by
    cases call with
    | push => rfl
    | pop => rfl
    | popBatch => exact x.queue.refresh_refresh .consumer
  exact portrays.arrive early (prepared.await_follows (Or.inr again)) sound

theorem proceed (early : pushes < 0x8000000000000000) {call : Call α role} {pause : Pause}
    (paused : x.current role = some ⟨call, pause⟩) (allowed : x.mayProceed role = true)
    (sound : ∃ items, (x.proceed role).exchange.Sound items) :
    ((x.proceed role).turn role).result = (b.carryOn call (b.nextStop role pause)).2 ∧
      (x.proceed role).exchange.Portrays o (b.carryOn call (b.nextStop role pause)).1
        (pushes + ((x.proceed role).turn role).accepted.length) := by
  obtain ⟨items, before⟩ := portrays.sound
  have busy : x.busy role = true := busy_iff.mpr ⟨_, paused⟩
  have present := before.present role busy
  have short := before.short role busy
  rw [proceed_eq paused] at sound ⊢
  by_cases parks : pause = .park
  · subst parks
    have parked : x.parked role = true := parked_iff.mpr ⟨call, paused⟩
    have signalled : x.queue.signalled role = true := by
      simpa [mayProceed, busy, parked] using allowed
    have asleep : b.parked role = true := by rw [← portrays.parked, parked]
    have depicted := portrays.wake asleep present signalled
    exact portrays.arrive early (Queue.resume_park_follows depicted call short) sound
  · have awake : b.parked role = false := by
      rw [← portrays.parked, parked_eq paused]
      exact beq_eq_false_iff_ne.mpr parks
    have depicted := portrays.work awake present
    exact portrays.arrive early
      (depicted.resume_follows early call short (before.told role busy) parks) sound

/-- Every move does the same on the exchange and on the backlog. -/
theorem play (early : pushes < 0x8000000000000000) {move : Move α} (allowed : x.allows move = true) :
    (x.play move).result = (b.play move).2 ∧
      (x.play move).exchange.Portrays o (b.play move).1
        (pushes + (x.play move).accepted.length) := by
  obtain ⟨items, before⟩ := portrays.sound
  obtain ⟨left, sound, _⟩ := before.play allowed
  cases move with
  | start role call => exact portrays.start early call allowed ⟨left, sound⟩
  | proceed role =>
    obtain ⟨paused, current⟩ := busy_iff.mp (Bool.and_eq_true_iff.mp allowed).1
    have depicted : b.current role = some paused := by rw [← portrays.current, current]
    have goes : b.play (.proceed role) = b.carryOn paused.call (b.nextStop role paused.pause) := by
      simp only [Backlog.play, depicted]
    rw [goes]
    exact portrays.proceed early current allowed ⟨left, sound⟩
  | tryPush item =>
    obtain ⟨present, rests⟩ := atRest_iff.mp allowed
    obtain ⟨told, after, same⟩ :=
      (portrays.work (portrays.rests_awake rests) present).tryPush early item
    exact ⟨congrArg (some ∘ Result.tryPush) told,
      portrays.placed rests ⟨left, sound⟩ after.toDepicts same after.own after.peer⟩
  | tryPop =>
    obtain ⟨present, rests⟩ := atRest_iff.mp allowed
    obtain ⟨told, after, same⟩ := (portrays.work (portrays.rests_awake rests) present).tryPop early
    have silent : (x.play .tryPop).accepted.length = 0 := by rfl
    rw [silent]
    exact ⟨congrArg (some ∘ Result.tryPop) told,
      portrays.placed rests ⟨left, sound⟩ after.toDepicts same after.own after.peer⟩
  | flush =>
    obtain ⟨present, rests⟩ := atRest_iff.mp allowed
    have after := (portrays.work (portrays.rests_awake rests) present).flush early
    exact ⟨rfl, portrays.placed rests ⟨left, sound⟩ after.toDepicts rfl after.own after.peer⟩
  | close role =>
    obtain ⟨present, rests⟩ := atRest_iff.mp allowed
    obtain ⟨depicts, own, peer⟩ := (portrays.work (portrays.rests_awake rests) present).close early
    exact ⟨rfl, portrays.placed rests ⟨left, sound⟩ depicts (b.showOwn_current role) own peer⟩

/-- The same moves can be made next. -/
theorem allows (move : Move α) : x.allows move = b.allows move := by
  obtain ⟨items, sound⟩ := portrays.sound
  have rests (role : Role) : x.atRest role = (!b.gone role && !(b.current role).isSome) := by
    rw [atRest, busy, portrays.depicts.closed, portrays.current]
  cases move with
  | proceed role =>
    have own := portrays.tuned role
    have parked := portrays.parked role
    show (x.busy role && (!x.parked role || x.queue.signalled role)) =
      ((b.current role).isSome && (!b.parked role || b.rouses role))
    rw [busy, portrays.current, parked]
    cases asleep : b.parked role with
    | false => rfl
    | true =>
      rw [asleep] at own parked
      have told := sound.told role (busy_of_parked parked)
      have signal := own.signalled_iff told (sound.watches role parked)
      have same : x.queue.signalled role = b.rouses role := by
        rw [Bool.eq_iff_iff, signal, Backlog.rouses, Bool.or_eq_true, portrays.depicts.due_iff,
          portrays.depicts.closed, or_comm]
      rw [same]
  | _ => exact rests _

end Portrays

/-- A run of moves goes the same way on the exchange and on the backlog. -/
theorem Portrays.run {moves : List (Move α)} {results : List (Result α)}
    (portrays : x.Portrays o b pushes) (runs : x.Runs moves results y)
    (few : pushes + (results.filterMap Result.accepted).length < 0x8000000000000000) :
    ∃ last, b.run moves = some (last, results) ∧
      y.Portrays o last (pushes + (results.filterMap Result.accepted).length) := by
  induction runs generalizing b pushes with
  | rest => exact ⟨b, rfl, portrays⟩
  | @next x y move moves results allowed _ ih =>
    rw [List.filterMap_append, List.length_append, ← Nat.add_assoc] at few ⊢
    obtain ⟨told, after⟩ := portrays.play (by omega) allowed
    obtain ⟨last, goes, reached⟩ := ih after few
    refine ⟨last, ?_, reached⟩
    rw [portrays.allows] at allowed
    rw [Backlog.run, if_pos allowed, goes, Option.map_some, told]

/-- All that can be seen of an exchange is as in a backlog: the capacity, the lengths, who is gone, which
calls wait, and what can be done next. -/
structure Mirrors (x : Exchange α) (b : Backlog α) : Prop where
  capacity : x.queue.capacity.toNat = b.capacity
  length (role : Role) : (x.queue.length role).toNat = b.length role
  visibleLength : x.queue.visibleLength.toNat = b.length .consumer
  closed (role : Role) : x.queue.closed role = b.gone role
  current (role : Role) : x.current role = b.current role
  allows (move : Move α) : x.allows move = b.allows move

theorem Portrays.mirrors (portrays : x.Portrays o b pushes) (early : pushes < 0x8000000000000000) :
    x.Mirrors b where
  capacity := portrays.depicts.capacity
  length := portrays.depicts.length_eq
  visibleLength := portrays.depicts.visibleLength_eq early
  closed := portrays.depicts.closed
  current := portrays.current
  allows := portrays.allows

/-- A queue starts as an empty backlog. Nobody has asked for anything yet, and the threshold that lies
just behind the start index counts as passed. -/
theorem portrays_of_opened {settings : Settings} {q : Queue α}
    (opened : Queue.ofSettings settings = .ok q) :
    (ofQueue q).Portrays (settings.startIndex - 1) (Backlog.ofSettings settings) 0 := by
  have carries := Queue.ofSettings_carries opened
  have capacity := Queue.ofSettings_capacity opened
  have present := Session.ofSettings_open opened
  have first : (settings.startIndex - 1).span settings.startIndex = 1 := by
    have next := Index.span_add_self (settings.startIndex - 1) 1
    rwa [UInt64.sub_add_cancel] at next
  unfold Queue.ofSettings at opened
  cases made : Ring.ofCapacity (α := α) settings.capacity settings.itemSize with
  | error cause => rw [made] at opened; cases opened
  | ok ring =>
    rw [made] at opened
    cases opened
    refine ⟨⟨[], sound_ofQueue carries⟩, ?_, fun role => by cases role <;> rfl, fun role => ?_⟩
    · exact
        { carries := carries
          visible := Index.span_self _
          capacity := capacity
          rounds := rfl
          closed := present
          anchored := ⟨first, Nat.lt_of_lt_of_eq Nat.one_pos first.symm,
            congrArg (_ + ·) (Index.span_self settings.startIndex)⟩ }
    · have past : (settings.startIndex - 1).span (settings.startIndex - 1) <
          (settings.startIndex - 1).span settings.startIndex := by
        rw [Index.span_self, first]
        exact Nat.one_pos
      cases role <;> exact ⟨fun raised => (nomatch raised), Or.inr (Or.inl past)⟩

end Exchange

namespace Session

/-- What the steps of a session have come to is what some moves come to on a backlog: the moves are
those that the parties have made, and they have the results that were answered. How the handles stand is
as in the backlog, and so is what the next step is answered if it inspects a handle or a monitor. -/
structure Refines (settings : Settings) (fresh : Session α) (steps : List (Step α))
    (made : Session α × List (Answer α)) (moves : List (Move α)) (b : Backlog α) : Prop where
  runs : ∃ y, fresh.exchange.Runs moves ((made.2.flatMap (·.results)).filterMap Result.ofCall) y ∧
    y.Mirrors b ∧ (made.1.owned = true → made.1.exchange = y)
  opens (role : Role) : moves.filter (Move.opens role) = openings role (told steps made.2)
  results : (Backlog.ofSettings settings).run moves =
    some (b, (made.2.flatMap (·.results)).filterMap Result.ofCall)
  standing (role : Role) : made.1.standing role = b.standing role
  inspected (role : Role) : (made.1.step (.inspect role)).2.report =
    plain (b.inspect role made.1.queue.ring.size made.1.queue.wakeups)
  watched (id : Nat) : id ∈ made.1.monitors → (made.1.step (.inspectMonitor id)).2.report =
    plain (b.inspectMonitor made.1.queue.wakeups)

theorem portrays_of_opened {settings : Settings} {fresh : Session α}
    (opened : Session.ofSettings settings = .ok fresh) :
    fresh.exchange.Portrays (settings.startIndex - 1) (Backlog.ofSettings settings) 0 := by
  unfold Session.ofSettings at opened
  cases made : Queue.ofSettings (α := α) settings with
  | error cause => rw [made] at opened; cases opened
  | ok q =>
    rw [made] at opened
    cases opened
    exact Exchange.portrays_of_opened made

theorem standing_of_mirrors {s : Session α} (mirrors : s.exchange.Mirrors b) (role : Role) :
    s.standing role = b.standing role := by
  have length := congrArg UInt64.ofNat (mirrors.length role)
  rw [UInt64.ofNat_toNat] at length
  unfold standing Backlog.standing queue Exchange.busy
  rw [mirrors.closed, mirrors.current, length]

theorem handleInfo_of_mirrors {s : Session α} (mirrors : s.exchange.Mirrors b) (role : Role) :
    s.handleInfo role = ⟨UInt64.ofNat (b.length role), UInt64.ofNat b.capacity, s.queue.ring.size,
      b.gone role.peer, s.queue.wakeups⟩ := by
  rw [← mirrors.length, ← mirrors.capacity, ← mirrors.closed, UInt64.ofNat_toNat, UInt64.ofNat_toNat]
  rfl

theorem monitorInfo_of_mirrors {s : Session α} (mirrors : s.exchange.Mirrors b) :
    s.monitorInfo = ⟨UInt64.ofNat (b.length .consumer), UInt64.ofNat b.capacity,
      b.gone .producer || b.gone .consumer, s.queue.wakeups⟩ := by
  rw [← mirrors.visibleLength, ← mirrors.capacity, ← mirrors.closed, ← mirrors.closed,
    UInt64.ofNat_toNat, UInt64.ofNat_toNat]
  rfl

theorem inspect_of_mirrors {s : Session α} (mirrors : s.exchange.Mirrors b) (role : Role) :
    (s.step (.inspect role)).2.report =
      plain (b.inspect role s.queue.ring.size s.queue.wakeups) := by
  have gone : s.queue.closed role = b.gone role := mirrors.closed role
  have busy : s.exchange.busy role = (b.current role).isSome := by rw [Exchange.busy, mirrors.current]
  have answered : (s.step (.inspect role)).2.report = (perform (.inspect role) s).2 := rfl
  rw [answered, perform]
  unfold withHandle obstacle Backlog.inspect
  rw [gone, busy]
  cases b.gone role with
  | true => rfl
  | false =>
    cases (b.current role).isSome with
    | true => rfl
    | false => exact congrArg (plain ∘ Result.handle) (handleInfo_of_mirrors mirrors role)

theorem inspectMonitor_of_mirrors {s : Session α} (mirrors : s.exchange.Mirrors b) {id : Nat}
    (present : id ∈ s.monitors) :
    (s.step (.inspectMonitor id)).2.report = plain (b.inspectMonitor s.queue.wakeups) := by
  have answered : (s.step (.inspectMonitor id)).2.report = (perform (.inspectMonitor id) s).2 := rfl
  rw [answered, perform]
  unfold withMonitor
  rw [if_pos (List.contains_iff_mem.mpr present)]
  exact congrArg (plain ∘ Result.monitor) (monitorInfo_of_mirrors mirrors)

/-- Whatever moves the two parties make, in whatever order, all their results and all that can be seen
in between are as on a backlog, as long as fewer than half as many items are put in as there are
indices. -/
theorem refines_backlog {settings : Settings} {fresh : Session α}
    (opened : Session.ofSettings settings = .ok fresh) :
    (∀ moves results x, fresh.exchange.Runs moves results x →
      (results.filterMap Result.accepted).length < 0x8000000000000000 →
      ∃ b, (Backlog.ofSettings settings).run moves = some (b, results) ∧ x.Mirrors b) ∧
    ∀ steps : List (Step α),
      (((fresh.steps steps).2.flatMap (·.results)).filterMap Result.accepted).length <
          0x8000000000000000 →
      ∃ moves b, Refines settings fresh steps (fresh.steps steps) moves b := by
  have portrays := portrays_of_opened opened
  have mirrored {moves : List (Move α)} {results : List (Result α)} {x : Exchange α}
      (run : fresh.exchange.Runs moves results x)
      (few : (results.filterMap Result.accepted).length < 0x8000000000000000) :
      ∃ b, (Backlog.ofSettings settings).run moves = some (b, results) ∧ x.Mirrors b := by
    obtain ⟨b, goes, reached⟩ := portrays.run run (by omega)
    exact ⟨b, goes, reached.mirrors (by omega)⟩
  obtain ⟨_, sound, _, chronicle⟩ := begins_of_opened opened
  refine ⟨fun moves results x run few => mirrored run few, fun steps few => ?_⟩
  obtain ⟨moves, y, run, opens, stands⟩ := (chronicle.steps sound steps).runs
  rw [List.nil_append] at run
  rw [← filterMap_ofCall _ Result.ofCall_accepted] at few
  obtain ⟨b, goes, mirrors⟩ := mirrored run few
  rcases stands with ⟨_, same, _⟩ | ⟨left, same, _⟩
  · subst same
    exact ⟨moves, b, ⟨_, run, mirrors, fun _ => rfl⟩, opens, goes, standing_of_mirrors mirrors,
      inspect_of_mirrors mirrors, fun _ => inspectMonitor_of_mirrors mirrors⟩
  · obtain ⟨parted, none⟩ := owned_eq_false_iff.mp left
    have gone (role : Role) : b.gone role = true := by
      rw [← mirrors.closed, ← parted role]
      unfold queue
      rw [same]
      cases role <;> rfl
    refine ⟨moves, b, ⟨y, run, mirrors, fun owned => ?_⟩, opens, goes, fun role => ?_, fun role => ?_,
      fun id present => ?_⟩
    · rw [owned] at left
      cases left
    · rw [standing, if_pos (parted role), Backlog.standing, if_pos (gone role)]
    · show (perform (.inspect role) _).2 = _
      rw [perform, withHandle, obstacle_of_closed (parted role), Backlog.inspect, if_pos (gone role)]
    · rw [none] at present
      cases present

/-- A parked consumer is shown the item that it waits for, and the next one is deferred. -/
theorem refines_backlog_parked_pop :
    ∃ fresh : Session Nat,
      Session.ofSettings ⟨2, by decide, 0, 0, 18446744073709551615, .whenShort, 8⟩ = .ok fresh ∧
        (fresh.steps [.hold, .pop .nothing, .push 7 false .nothing,
          .push 8 false .nothing]).1.queue.visibleLength = 1 ∧
        ∃ moves b, Refines ⟨2, by decide, 0, 0, 18446744073709551615, .whenShort, 8⟩ fresh
          [.hold, .pop .nothing, .push 7 false .nothing, .push 8 false .nothing]
          (fresh.steps [.hold, .pop .nothing, .push 7 false .nothing, .push 8 false .nothing])
          moves b := by
  refine ⟨_, rfl, rfl, ?_⟩
  have opened : Session.ofSettings (α := Nat)
      ⟨2, by decide, 0, 0, 18446744073709551615, .whenShort, 8⟩ = .ok _ := rfl
  exact (refines_backlog opened).2 _ (by decide)

end Session

end SpscQueue
