import SpscQueue.Proofs.Drawing
import SpscQueue.Proofs.Refinement

namespace SpscQueue

universe u

variable {α : Type u} {park q next : Queue α} {x y z : Exchange α} {items front : List α} {n : Nat}
  {moves : List (Move α)} {results : List (Result α)} {room : Nat}

namespace Queue

/-- A full queue in which the producer has parked. All items are shown, and the threshold is the last
item of the quota. -/
structure Parks (park : Queue α) : Prop where
  published : park.producer.cursor.published = park.producer.cursor.position
  full : park.consumer.cursor.position.span park.producer.cursor.position = park.capacity.toNat
  small : park.capacity.toNat ≤ 0x8000000000000000
  threshold : park.consumer.cursor.position.span park.consumer.post.threshold + 1 = park.quota

theorem Carries.parks (carries : park.Carries items) (watches : park.Watches .producer)
    (stuck : ¬ park.CanMove .producer) : park.Parks := by
  obtain ⟨published, between, ask⟩ := watches
  have length := carries.length_eq
  have full := carries.full_of_stuck stuck
  exact ⟨published, by omega, carries.capacity_lt, by omega⟩

theorem Parks.quota_pos (park : Queue α) : 0 < park.quota := by
  unfold quota
  omega

theorem Parks.threshold_eq (parks : park.Parks) (carries : park.Carries items) :
    park.consumer.post.threshold = park.consumer.post.index + UInt64.ofNat (park.quota - 1) := by
  have reach := parks.threshold
  rw [carries.consumer_posted, show park.quota - 1 =
    park.consumer.cursor.position.span park.consumer.post.threshold by omega, Index.add_span]

/-- The consumer has taken so many items out of a queue in which the producer has parked. The producer
was woken once if these make up the quota, and not at all if they do not. -/
structure Drawn (park q : Queue α) (n : Nat) : Prop where
  capacity : q.capacity = park.capacity
  position : park.consumer.cursor.position.span q.consumer.cursor.position = n
  left : n + q.consumer.cursor.position.span q.producer.cursor.position = park.capacity.toNat
  threshold : q.consumer.post.threshold = park.consumer.post.threshold
  wakeups : q.consumer.post.wakeups =
    park.consumer.post.wakeups + if park.quota ≤ n then 1 else 0
  signalled : q.signalled .producer = true ↔ park.quota ≤ n ∨ q.closed .consumer = true

theorem Parks.drawn (parks : park.Parks)
    (quiet : park.signalled .producer = true ↔ park.closed .consumer = true) : park.Drawn park 0 where
  capacity := rfl
  position := Index.span_self _
  left := by rw [Nat.zero_add, parks.full]
  threshold := rfl
  wakeups := by rw [if_neg (Nat.not_le.mpr (Parks.quota_pos park)), UInt64.add_zero]
  signalled := by
    rw [quiet]
    exact (or_iff_right (Nat.not_le.mpr (Parks.quota_pos park))).symm

namespace Drawn

theorem of_outward (drawn : park.Drawn q n) (same : next.outward .consumer = q.outward .consumer) :
    park.Drawn next n := by
  obtain ⟨capacity, position, left, threshold, wakeups, signalled⟩ := drawn
  have produced : next.producer.cursor = q.producer.cursor := congrArg (·.producer.cursor) same
  have consumed : next.consumer.cursor.position = q.consumer.cursor.position :=
    congrArg (·.consumer.cursor.position) same
  have posted : next.consumer.post = q.consumer.post := congrArg (·.consumer.post) same
  have raised : next.signalled .producer = q.signalled .producer :=
    congrArg (·.producer.signal.pending) same
  have gone : next.closed .consumer = q.closed .consumer := congrArg (·.consumer.closed) same
  refine ⟨(congrArg (·.capacity) same).trans capacity, ?_, ?_, ?_, ?_, ?_⟩
  · rw [consumed, position]
  · rw [consumed, produced, left]
  · rw [posted, threshold]
  · rw [posted, wakeups]
  · rw [raised, gone, signalled]

/-- The consumer passes the threshold just as it completes the quota. -/
theorem passes_iff (drawn : park.Drawn q n) (parks : park.Parks) {steps : UInt64}
    (within : steps.toNat ≤ q.consumer.cursor.position.span q.producer.cursor.position) :
    Index.passes q.consumer.cursor.position (q.consumer.cursor.position + steps)
        q.consumer.post.threshold = true ↔ n < park.quota ∧ park.quota ≤ n + steps.toNat := by
  have position := drawn.position
  have left := drawn.left
  have threshold := parks.threshold
  have small := parks.small
  rw [Index.passes_iff_span (by rw [Index.span_add_self]; omega), Index.span_add_self, drawn.threshold]
  by_cases early : n < park.quota
  · have ahead := Index.span_from (i := park.consumer.cursor.position)
      (j := q.consumer.cursor.position) (k := park.consumer.post.threshold) (by omega)
    omega
  · have far : park.consumer.cursor.position.span park.consumer.post.threshold <
        park.consumer.cursor.position.span q.consumer.cursor.position := by omega
    have behind := Index.le_span_of_past (by omega) far
    omega

theorem taken (drawn : park.Drawn q n) (parks : park.Parks) (carries : q.Carries items)
    (present : q.closed .consumer = false) (ring : Ring α) {steps : UInt64}
    (within : steps.toNat ≤ q.shown) : park.Drawn (q.taken ring steps) (n + steps.toNat) := by
  have inside : steps.toNat ≤ q.consumer.cursor.position.span q.producer.cursor.position := by
    rw [carries.length_eq]
    exact Nat.le_trans within carries.shown_le
  have passes := drawn.passes_iff parks inside
  obtain ⟨capacity, position, left, threshold, wakeups, signalled⟩ := drawn
  have small := parks.small
  have signals := carries.signalled_taken_iff ring within
  have gone : (q.taken ring steps).closed .consumer = false :=
    ((q.alike_moved ring steps).closed .consumer).trans present
  have crosses : Index.passes q.consumer.cursor.position (q.consumer.cursor.position + steps)
        q.consumer.post.threshold = true ↔
      q.consumer.cursor.position.span q.consumer.post.threshold < steps.toNat := by
    rw [Index.passes_iff_span (by rw [Index.span_add_self]; omega), Index.span_add_self]
  rw [← crosses, passes, signalled, present] at signals
  have counts : (q.taken ring steps).consumer.post.wakeups = q.consumer.post.wakeups +
      if Index.passes q.consumer.cursor.position (q.consumer.cursor.position + steps)
        q.consumer.post.threshold then 1 else 0 := by
    rw [taken_eq carries.consumer_posted_published, carries.consumer_published]
  have places : (q.taken ring steps).consumer.cursor.position = q.consumer.cursor.position + steps ∧
      (q.taken ring steps).producer.cursor = q.producer.cursor ∧
      (q.taken ring steps).consumer.post.threshold = q.consumer.post.threshold := by
    rw [taken_eq carries.consumer_posted_published]
    exact ⟨rfl, rfl, rfl⟩
  obtain ⟨onward, produced, asked⟩ := places
  refine ⟨(q.alike_moved ring steps).capacity.trans capacity, ?_, ?_, asked.trans threshold, ?_, ?_⟩
  · rw [onward, Index.span_add (by omega), position]
  · rw [onward, produced, Index.span_from_add inside]
    omega
  · rw [counts, wakeups, UInt64.add_assoc]
    by_cases before : park.quota ≤ n
    · rw [if_pos before, if_neg (fun passed => absurd (passes.mp passed).1 (Nat.not_lt.mpr before)),
        if_pos (Nat.le_add_right_of_le before)]
      rfl
    · rw [if_neg before, UInt64.zero_add]
      congr 1
      exact ite_congr (propext (passes.trans (and_iff_right (Nat.not_le.mp before))))
        (fun _ => rfl) (fun _ => rfl)
  · rw [signals, gone]
    simp only [Bool.false_eq_true, or_false]
    omega

/-- The quota leaves room. -/
theorem canMove (drawn : park.Drawn q n) (enough : park.quota ≤ n) : q.CanMove .producer := by
  have left := drawn.left
  have some := Parks.quota_pos park
  show q.consumer.cursor.position.span q.producer.cursor.position < q.capacity.toNat
  rw [drawn.capacity]
  omega

theorem closed (drawn : park.Drawn q n) : park.Drawn (q.close .consumer).1 n := by
  obtain ⟨capacity, position, left, threshold, wakeups, _⟩ := drawn
  exact ⟨capacity, position, left, threshold, wakeups, iff_of_true rfl (Or.inr rfl)⟩

/-- A move of the consumer counts by the items that it takes. -/
theorem draws (drawn : park.Drawn q n) (parks : park.Parks) (present : q.closed .consumer = false)
    (draws : q.Draws items front next) : park.Drawn next (n + front.length) := by
  cases draws with
  | waits same => exact drawn.of_outward same
  | @takes mid _ _ ring same carries count within =>
    rw [← count]
    have gone : mid.closed .consumer = false := (congrArg (·.consumer.closed) same).trans present
    exact (drawn.of_outward same).taken parks carries gone ring within
  | leaves => exact drawn.closed

end Drawn

end Queue

namespace Exchange

/-- While the producer is parked, the consumer's moves count by the items that they take. -/
theorem Kept.run_drawn (kept : x.Kept room items) (parks : park.Parks) (drawn : park.Drawn x.queue n)
    (own : ∀ move ∈ moves, move.role = .consumer) (run : x.Runs moves results y) :
    park.Drawn y.queue (n + (results.flatMap Result.delivered).length) := by
  induction run generalizing items n with
  | rest => exact drawn
  | @next x y move moves results allowed _ ih =>
    have mine : move.role = .consumer := own move (List.mem_cons_self ..)
    have present := kept.sound.mover_present allowed
    rw [mine] at present
    have now := drawn.draws parks present (kept.sound.play_draws allowed mine)
    obtain ⟨left, keptNow, _⟩ := kept.play allowed
    rw [List.flatMap_append, List.length_append, ← Nat.add_assoc]
    exact ih keptNow now fun m known => own m (List.mem_cons_of_mem _ known)

/-- A turn that parks pauses in the park. -/
theorem turn_parks {role : Role} {advance : Advance α}
    (parks : (advance.turn role).result = some .parked) :
    advance.outcome = none ∧ advance.exchange.parked role = true := by
  cases ended : advance.outcome with
  | some outcome =>
    simp only [Advance.turn, ended, Option.some.injEq] at parks
    exact absurd parks (Session.outcome_ne_parked outcome)
  | none =>
    simp only [Advance.turn, ended] at parks
    refine ⟨rfl, ?_⟩
    split at parks
    · assumption
    · cases parks

/-- A push that parks has filled the queue and asked for the last item of the quota. -/
theorem Sound.push_parks (sound : x.Sound items) {move : Move α} (allowed : x.allows move = true)
    (own : move.role = .producer) (parks : (x.play move).result = some .parked) :
    (∃ item force, (x.play move).exchange.current .producer = some ⟨.push item force, .park⟩) ∧
      (x.play move).exchange.queue.Parks := by
  cases move with
  | start role call =>
    cases own
    obtain ⟨unfinished, parked⟩ := turn_parks parks
    obtain ⟨call, current⟩ := parked_iff.mp parked
    have comes := (sound.start_paces _ allowed).pausing _ current
    unfold Exchange.Next pauseOf at comes
    rw [(atRest_iff.mp allowed).2] at comes
    exact absurd comes.1.symm (Session.firstPause_awake x.queue)
  | proceed role =>
    cases own
    have busy := (Bool.and_eq_true_iff.mp allowed).1
    obtain ⟨⟨call, pause⟩, current⟩ := busy_iff.mp busy
    obtain ⟨unfinished, parked⟩ := turn_parks parks
    have keeps := Queue.resume_keeps sound.carries (sound.told .producer busy) pause
    have unmoved := Queue.unmoved_resume x.queue .producer pause
    simp only [Exchange.play, Advance.turn, proceed_eq current] at unfinished parked ⊢
    obtain ⟨stop, waits, queue, paused⟩ := arrive_unfinished unfinished
    rw [parked_eq paused, beq_iff_eq] at parked
    subst parked
    have stuck : ¬ (x.queue.resume .producer pause).queue.CanMove .producer := by
      intro moves
      have ready := sound.carries.resume_ready (unmoved.canMove_producer.mp moves) pause
      cases ready.symm.trans waits
    obtain ⟨_, _, watches⟩ := keeps.pausing .park waits
    rw [queue, paused]
    refine ⟨?_, keeps.carries.parks (watches rfl) stuck⟩
    cases call with
    | push item force => exact ⟨item, force, rfl⟩
  | tryPush item => cases parks
  | tryPop => cases own
  | flush => cases parks
  | close role => cases parks

/-- A producer that parks has no signal yet, unless its peer is gone. A signal left over from an earlier
wait would need more steps than half the circle. -/
theorem Portrays.quiet {o : Index} {b : Backlog α} {pushes : Nat} (portrays : x.Portrays o b pushes)
    (parked : x.parked .producer = true) (parks : x.queue.Parks) :
    x.queue.signalled .producer = true ↔ x.queue.closed .consumer = true := by
  obtain ⟨items, sound⟩ := portrays.sound
  have tuned := portrays.tuned .producer
  rw [← portrays.parked, parked] at tuned
  constructor
  · intro raised
    rcases tuned.raised raised with gone | ⟨_, due⟩
    · exact gone
    · have free : x.queue.consumer.cursor.position.span x.queue.producer.cursor.position +
        x.queue.quota ≤ x.queue.capacity.toNat := due
      have some := Queue.Parks.quota_pos x.queue
      rw [parks.full] at free
      omega
  · exact sound.told .producer (busy_of_parked parked)

theorem quiet_of_parks {settings : Settings} {fresh : Session α}
    (opened : Session.ofSettings settings = .ok fresh) (run : fresh.exchange.Runs moves results x)
    (few : (results.filterMap Result.accepted).length < 0x8000000000000000)
    (parked : x.parked .producer = true) (parks : x.queue.Parks) :
    x.queue.signalled .producer = true ↔ x.queue.closed .consumer = true := by
  obtain ⟨b, _, portrays⟩ := (Session.portrays_of_opened opened).run run (by rwa [Nat.zero_add])
  exact portrays.quiet parked parks

/-- A producer that parks has filled the queue and shown all of it. It is woken by the consumer's very
move that brings the number of items taken since up to a quarter of the capacity, and by no earlier or
later one, unless the consumer leaves. After that its push goes through. -/
theorem woken_at_quota {settings : Settings} {fresh : Session α}
    (opened : Session.ofSettings settings = .ok fresh) (run : fresh.exchange.Runs moves results x)
    (few : (results.filterMap Result.accepted).length < 0x8000000000000000) {move : Move α}
    (allowed : x.allows move = true) (own : move.role = .producer)
    (parks : (x.play move).result = some .parked) (same : (x.play move).exchange = y) :
    (y.queue.inFlight.toNat = settings.capacity ∧ y.queue.waiting.toNat = settings.capacity ∧
      y.queue.consumer.post.threshold =
        y.queue.consumer.post.index + UInt64.ofNat (max 1 (settings.capacity / 4) - 1)) ∧
    ∀ later others z, (∀ other ∈ later, other.role = .consumer) → y.Runs later others z →
      let taken := (others.flatMap Result.delivered).length
      z.queue.wakeups.producer = y.queue.wakeups.producer +
          (if max 1 (settings.capacity / 4) ≤ taken then 1 else 0) ∧
        (z.queue.signalled .producer = true ↔
          max 1 (settings.capacity / 4) ≤ taken ∨ z.queue.closed .consumer = true) ∧
        (max 1 (settings.capacity / 4) ≤ taken → ∃ item force,
          z.current .producer = some ⟨.push item force, .park⟩ ∧
            z.allows (.proceed .producer) = true ∧
            (z.play (.proceed .producer)).result = some (.push (.accepted item))) := by
  subst same
  have begins := kept_of_opened opened
  have kept := begins.outstanding (run.append (.single allowed))
  obtain ⟨⟨item, force, current⟩, full⟩ := (begins.outstanding run).sound.push_parks allowed own parks
  rw [parks, Option.toList_some] at kept
  have parked : (x.play move).exchange.parked .producer = true := parked_iff.mpr ⟨_, current⟩
  have carries := kept.sound.carries
  have quota : (x.play move).exchange.queue.quota = max 1 (settings.capacity / 4) := by
    rw [Queue.quota, kept.capacity]
  have few : ((results ++ [Result.parked]).filterMap Result.accepted).length < 0x8000000000000000 := by
    rwa [List.filterMap_append, show [Result.parked].filterMap Result.accepted = ([] : List α) from rfl,
      List.append_nil]
  have reached := run.append (.single allowed)
  rw [parks, Option.toList_some] at reached
  have quiet := quiet_of_parks opened reached few parked full
  refine ⟨⟨?_, ?_, ?_⟩, fun later others z mine onward => ?_⟩
  · rw [carries.inFlight_eq, ← carries.length_eq, full.full, kept.capacity]
  · rw [carries.waiting_eq, Queue.shown, full.published, full.full, kept.capacity]
  · rw [full.threshold_eq carries, quota]
  · have drawn := kept.run_drawn full (full.drawn quiet) mine onward
    rw [Nat.zero_add] at drawn
    have signalled := drawn.signalled
    rw [← quota]
    refine ⟨drawn.wakeups, signalled, fun enough => ?_⟩
    obtain ⟨items, keptNow, _⟩ := kept.run onward
    have stands : z.current .producer = some ⟨.push item force, .park⟩ :=
      (onward.current_peer mine).trans current
    obtain ⟨outcome, after, ended, does⟩ :=
      keptNow.sound.proceed_does stands (drawn.canMove enough)
    cases does
    refine ⟨item, force, stands, mayProceed_of_signalled stands (signalled.mpr (Or.inl enough)), ?_⟩
    simp only [Exchange.play, Advance.turn, ended]
    rfl

/-- The second of two pops wakes a producer that has filled eight places, across the end of the circle. -/
theorem woken_at_quota_second_pop :
    ∃ (fresh : Session Nat) (x y z : Exchange Nat),
      Session.ofSettings ⟨8, by decide, 0, 0, 18446744073709551615, .whenShort, 8⟩ = .ok fresh ∧
        fresh.exchange.Runs ((List.range 9).map fun i => .start .producer (.push i false))
          ((List.range 8).map fun i => .push (.accepted i)) x ∧
        x.allows (.proceed .producer) = true ∧
        (x.play (.proceed .producer)).result = some .parked ∧
        (x.play (.proceed .producer)).exchange = y ∧
        y.Runs [.start .consumer .pop, .start .consumer .pop] [.pop (.ok 0), .pop (.ok 1)] z ∧
        z.queue.wakeups.producer = y.queue.wakeups.producer + 1 ∧
        z.queue.signalled .producer = true ∧
        ∃ item, (z.play (.proceed .producer)).result = some (.push (.accepted item)) := by
  suffices reached : ∃ (fresh : Session Nat) (x y z : Exchange Nat),
      Session.ofSettings ⟨8, by decide, 0, 0, 18446744073709551615, .whenShort, 8⟩ = .ok fresh ∧
        fresh.exchange.Runs ((List.range 9).map fun i => .start .producer (.push i false))
          ((List.range 8).map fun i => .push (.accepted i)) x ∧
        x.allows (.proceed .producer) = true ∧
        (x.play (.proceed .producer)).result = some .parked ∧
        (x.play (.proceed .producer)).exchange = y ∧
        y.Runs [.start .consumer .pop, .start .consumer .pop] [.pop (.ok 0), .pop (.ok 1)] z by
    obtain ⟨fresh, x, y, z, opened, run, allowed, parks, same, pops⟩ := reached
    have woken := (woken_at_quota opened run (by decide) allowed rfl parks same).2 _ _ _
      (by simp [Move.role]) pops
    obtain ⟨counted, signalled, goesOn⟩ := woken
    obtain ⟨item, force, _, _, pushed⟩ := goesOn (Nat.le_refl 2)
    exact ⟨fresh, x, y, z, opened, run, allowed, parks, same, pops, counted,
      signalled.mpr (Or.inl (Nat.le_refl 2)), item, pushed⟩
  have run {x : Exchange Nat} : x.Runs [] [] x := .rest x
  exact ⟨_, _, _, _, rfl, .next rfl (.next rfl (.next rfl (.next rfl (.next rfl (.next rfl (.next rfl
    (.next rfl (.next rfl run)))))))), rfl, rfl, rfl, .next rfl (.next rfl run)⟩

end Exchange

end SpscQueue
