import SpscQueue.Proofs.Futility
import SpscQueue.Proofs.Offering
import SpscQueue.Proofs.Rousing

namespace SpscQueue

universe u

variable {α : Type u} {q next : Queue α} {x y z : Exchange α} {items added : List α}
  {moves : List (Move α)} {results : List (Result α)} {room : Nat}

/-- What a call of the consumer brings if it finds the given items. It finds none only after the end of
the producer. -/
def Call.brings : Call α .consumer → List α → Outcome α
  | pop, [] => .pop (.error .disconnected)
  | pop, item :: _ => .pop (.ok item)
  | popBatch, [] => .popBatch (.error .disconnected)
  | popBatch, item :: rest => .popBatch (.ok (item :: rest))

theorem Call.giveUp_eq_brings (call : Call α .consumer) : call.giveUp = call.brings [] := by
  cases call <;> rfl

theorem Call.eq_nil_of_fails {call : Call α .consumer} (fails : (call.brings items).fails = true) :
    items = [] := by
  cases items with
  | nil => rfl
  | cons item rest => cases call <;> cases fails

namespace Queue

/-- The consumer has its signal, and it has something to take or its peer is gone. -/
structure Roused (q : Queue α) : Prop where
  signalled : q.signalled .consumer = true
  fed : q.CanMove .consumer ∨ q.closed .producer = true

theorem Roused.offered (roused : q.Roused) (carries : q.Carries items)
    (offers : q.Offers items added next)
    (gone : q.closed .producer = true → next.closed .producer = true) : next.Roused := by
  refine ⟨(offers.regards carries).signalled roused.signalled, ?_⟩
  rcases roused.fed with moves | left
  · exact Or.inl (Nat.lt_of_lt_of_le moves (offers.shown_le carries))
  · exact Or.inr (gone left)

theorem shown_of_watches (asked : q.Watches .consumer) : q.shown = 0 := by
  rw [shown, asked.2, Index.span_self]

theorem Carries.shown_of_published (carries : q.Carries items)
    (published : q.producer.cursor.published = q.producer.cursor.position) :
    q.shown = items.length := by
  rw [shown, published, carries.length_eq]

/-- An item put in while the consumer watches is the one that it asked for, so nothing stays deferred. -/
theorem Carries.published_put (carries : q.Carries items) (asked : q.Watches .consumer)
    (space : q.ready .producer = true) (item : α) (force : Bool) :
    (q.put item force).producer.cursor.published = (q.put item force).producer.cursor.position := by
  have written := carries.written space item
  have nothing : (q.written item).shown = 0 := shown_of_watches asked
  have owed : (q.written item).producer.owesWakeup = true := by
    refine written.owesWakeup_of_watches asked fun same => ?_
    have all := written.shown_of_published same
    rw [nothing, List.length_append, List.length_singleton] at all
    omega
  unfold Queue.put
  rw [owed, Bool.or_true, if_pos rfl]
  exact flush_published _

theorem Offers.published_of_watches (offers : q.Offers items added next) (asked : q.Watches .consumer)
    (wrote : added ≠ []) :
    next.producer.cursor.published = next.producer.cursor.position := by
  cases offers with
  | waits | shows | leaves => exact absurd rfl wrote
  | writes item force same carries space =>
    exact carries.published_put ((watches_of_outward same).mpr asked) space item force

/-- A producer that shows an item to a consumer that watches wakes it. -/
theorem Offers.signalled_of_watches (offers : q.Offers items added next) (carries : q.Carries items)
    (asked : q.Watches .consumer) (moves : next.CanMove .consumer) :
    next.signalled .consumer = true := by
  refine ((offers.regards carries).watches asked).resolve_right fun still => ?_
  exact Nat.ne_of_gt moves (shown_of_watches still)

/-- A call that has looked afresh and found something takes the oldest of the items shown, or all of
them. -/
theorem Carries.finish_brings (carries : q.Carries items) (fresh : q.refresh .consumer = q)
    (ready : q.ready .consumer = true) (call : Call α .consumer) :
    (call.finish q).2 = call.brings (items.take q.shown) := by
  have some := carries.shown_pos_of_ready ready
  cases call with
  | pop =>
    obtain ⟨item, rest, ring, rfl, delivered, _⟩ := carries.deliver ready
    obtain ⟨count, same⟩ := Nat.exists_eq_add_of_le' some
    simp only [Call.finish, delivered, Prod.map_apply, same, List.take_succ_cons, Call.brings]
  | popBatch =>
    have known : q.known.toNat = q.shown := by
      rw [← carries.waiting_eq, ← fresh]
      rfl
    obtain ⟨front, rest, ring, rfl, count, delivered, _⟩ := carries.deliverKnown
    rw [known] at count
    simp only [Call.finish, delivered, Prod.map_apply, ← count, List.take_left]
    cases front with
    | nil =>
      rw [← count] at some
      cases some
    | cons item front => rfl

end Queue

namespace Exchange

/-- A call that wakes up and finds something has just looked, so it sees all that is shown. -/
theorem Sound.proceed_brings (sound : x.Sound items) {call : Call α .consumer}
    (current : x.current .consumer = some ⟨call, .park⟩) (moves : x.queue.CanMove .consumer) :
    (x.proceed .consumer).outcome = some (call.brings (items.take x.queue.shown)) := by
  have hushed := sound.carries.hush .consumer
  have short : (x.queue.hush .consumer).ready .consumer = false :=
    sound.short .consumer (busy_iff.mpr ⟨_, current⟩)
  have ready : ((x.queue.hush .consumer).look .consumer).ready .consumer = true :=
    (hushed.look_ready .consumer).mpr moves
  have looks : (x.queue.hush .consumer).look .consumer = (x.queue.hush .consumer).refresh .consumer :=
    ((x.queue.hush .consumer).look_eq_or .consumer).resolve_left fun seen => by
      cases short.symm.trans seen.2
  have fresh : ((x.queue.hush .consumer).look .consumer).refresh .consumer =
      (x.queue.hush .consumer).look .consumer := by
    rw [looks, Queue.refresh_refresh]
  have shown : ((x.queue.hush .consumer).look .consumer).shown = x.queue.shown := by
    rw [looks]
    rfl
  have brought := (hushed.look .consumer).finish_brings fresh ready call
  rw [shown] at brought
  simp only [proceed_eq current, Queue.resume, if_pos ready, Exchange.arrive, brought]

/-- A call that wakes up since its peer is gone, and finds nothing, does not wait any longer. -/
theorem Kept.proceed_drained (kept : x.Kept room items) {call : Call α .consumer}
    (current : x.current .consumer = some ⟨call, .park⟩) (gone : x.queue.closed .producer = true)
    (stuck : ¬ x.queue.CanMove .consumer) :
    items = [] ∧ (x.proceed .consumer).outcome = some (call.brings []) := by
  have drained := kept.sound.carries.drained_of_stuck kept.parted gone stuck
  subst drained
  refine ⟨rfl, ?_⟩
  have came := kept.sound.proceed_came current
  have paces := kept.sound.proceed_paces current
  generalize x.proceed .consumer = advance at came paces
  cases came with
  | pauses pause paused =>
    have comes := paces.pausing _ paused
    unfold Exchange.Next pauseOf at comes
    rw [current] at comes
    cases gone.symm.trans comes.2.2
  | givesUp => exact congrArg some call.giveUp_eq_brings
  | does _ _ does => exact absurd rfl (does.length_ne (Nat.le_refl _))

/-- What a woken consumer gets is what has been shown to it by then. It fails only if nothing is left. -/
theorem Kept.roused_brings (kept : x.Kept room items) (roused : x.queue.Roused)
    {call : Call α .consumer} (current : x.current .consumer = some ⟨call, .park⟩) :
    (x.proceed .consumer).outcome = some (call.brings (items.take x.queue.shown)) ∧
      ((call.brings (items.take x.queue.shown)).fails = true →
        x.queue.closed .producer = true ∧ items = []) := by
  by_cases moves : x.queue.CanMove .consumer
  · refine ⟨kept.sound.proceed_brings current moves, fun fails => ?_⟩
    have some : 0 < x.queue.shown := moves
    have most := kept.sound.carries.shown_le
    rcases List.take_eq_nil_iff.mp (Call.eq_nil_of_fails fails) with nothing | rfl
    · exact absurd nothing (Nat.ne_of_gt some)
    · exact absurd some (Nat.not_lt.mpr most)
  · have gone := roused.fed.resolve_left moves
    obtain ⟨rfl, ended⟩ := kept.proceed_drained current gone moves
    rw [List.take_nil]
    exact ⟨ended, fun _ => ⟨gone, rfl⟩⟩

/-- While the consumer does not go on, it stays awake. -/
theorem Kept.run_roused (kept : x.Kept room items) (roused : x.queue.Roused)
    (own : ∀ move ∈ moves, move.role = .producer) (run : x.Runs moves results y) :
    y.queue.Roused := by
  induction run generalizing items with
  | rest => exact roused
  | @next x y move moves results allowed _ ih =>
    have mine : move.role = .producer := own move (List.mem_cons_self ..)
    have now := roused.offered kept.sound.carries (kept.sound.play_offers allowed mine)
      fun gone => play_gone gone move
    obtain ⟨left, keptNow, _⟩ := kept.play allowed
    exact ih keptNow now fun m known => own m (List.mem_cons_of_mem _ known)

/-- The moves that a producer does not make without waking a consumer that waits for it: to put an item
in, to flush deferred items, to park, and to leave. -/
def Serves (x : Exchange α) (move : Move α) : Prop :=
  (x.play move).accepted ≠ [] ∨
    (move = .flush ∧ x.queue.producer.cursor.deferred ≠ 0) ∨
    (move.role = .producer ∧ (x.play move).result = some .parked) ∨
    move = .close .producer

/-- Only the producer puts items in. -/
theorem role_of_accepted {move : Move α} (wrote : (x.play move).accepted ≠ []) :
    move.role = .producer := by
  cases own : move.role with
  | producer => rfl
  | consumer => exact absurd (play_accepted own) wrote

theorem Serves.role {move : Move α} (serves : x.Serves move) : move.role = .producer := by
  rcases serves with wrote | ⟨rfl, _⟩ | ⟨own, _⟩ | rfl
  · exact role_of_accepted wrote
  · rfl
  · exact own
  · rfl

/-- Such a move leaves no item deferred if the consumer watches. -/
theorem Kept.serves_published (kept : x.Kept room items) (asked : x.queue.Watches .consumer)
    {move : Move α} (allowed : x.allows move = true) (serves : x.Serves move) :
    (x.play move).exchange.queue.producer.cursor.published =
      (x.play move).exchange.queue.producer.cursor.position := by
  have own := serves.role
  rcases serves with wrote | ⟨rfl, _⟩ | ⟨_, parks⟩ | rfl
  · exact (kept.sound.play_offers allowed own).published_of_watches asked wrote
  · exact x.queue.flush_published
  · exact (kept.sound.push_parks allowed own parks).2.published
  · exact x.queue.flush_published

/-- Such a move wakes the consumer if that watches. -/
theorem Kept.serves_roused (kept : x.Kept room items) (asked : x.queue.Watches .consumer)
    {move : Move α} (allowed : x.allows move = true) (serves : x.Serves move) :
    (x.play move).exchange.queue.Roused := by
  have carries := kept.sound.carries
  have own := serves.role
  have published := kept.serves_published asked allowed serves
  have offers := kept.sound.play_offers allowed own
  obtain ⟨left, keptNow, balance⟩ := kept.play allowed
  have shown := keptNow.sound.carries.shown_of_published published
  suffices fed : 0 < left.length ∨ move = .close .producer by
    rcases fed with some | rfl
    · have moves : (x.play move).exchange.queue.CanMove .consumer := Nat.lt_of_lt_of_eq some shown.symm
      exact ⟨offers.signalled_of_watches carries asked moves, Or.inl moves⟩
    · exact ⟨rfl, Or.inr rfl⟩
  rw [play_delivered own, List.nil_append] at balance
  rcases serves with wrote | ⟨rfl, deferred⟩ | ⟨_, parks⟩ | rfl
  · refine Or.inl ?_
    rw [← balance, List.length_append]
    exact Nat.add_pos_right _ (List.length_pos_iff.mpr wrote)
  · refine Or.inl (Nat.pos_of_ne_zero fun none => deferred (UInt64.toNat_inj.mp ?_))
    have few : x.queue.producer.cursor.deferred.toNat = items.length - x.queue.shown :=
      carries.deferred_eq
    rw [← balance, List.length_append] at none
    rw [few, UInt64.toNat_zero]
    omega
  · have full := (kept.sound.push_parks allowed own parks).2.full
    rw [keptNow.sound.carries.length_eq] at full
    rw [full]
    exact Or.inl keptNow.sound.carries.capacity_pos
  · exact Or.inr rfl

/-- A producer never starves a consumer that waits in the park without a signal. Nothing is shown to that
consumer then, and the producer is still there. Whatever the producer puts in next, forced or not, it
shows together with all that it deferred before, and it signals the consumer, as it does if it flushes
something, parks, or leaves. The consumer then gets what is shown by the time it goes on: a pop brings
the oldest item, and a batch all of them. It finds nothing only if the producer is gone and no item is
left. -/
theorem never_starved {settings : Settings} {fresh : Session α}
    (opened : Session.ofSettings settings = .ok fresh) (run : fresh.exchange.Runs moves results x)
    {call : Call α .consumer} (parked : x.current .consumer = some ⟨call, .park⟩)
    (quiet : x.queue.signalled .consumer = false) :
    (x.queue.waiting = 0 ∧ x.queue.closed .producer = false) ∧
    ∀ move, x.allows move = true → x.Serves move →
      ∀ y told, (x.play move).exchange = y → results ++ (x.play move).result.toList = told →
      (y.queue.waiting.toNat = (outstanding told).length ∧ y.queue.signalled .consumer = true) ∧
      ∀ later others z, (∀ other ∈ later, other.role = .producer) → y.Runs later others z →
        let found := (outstanding (told ++ others)).take z.queue.waiting.toNat
        z.current .consumer = some ⟨call, .park⟩ ∧ z.allows (.proceed .consumer) = true ∧
        (z.play (.proceed .consumer)).result = some (call.brings found).result ∧
        ((call.brings found).fails = true →
          z.queue.closed .producer = true ∧ outstanding (told ++ others) = []) := by
  have begins := kept_of_opened opened
  have kept := begins.outstanding run
  have sleeps : x.parked .consumer = true := parked_iff.mpr ⟨call, parked⟩
  have asked : x.queue.Watches .consumer :=
    (kept.sound.watches .consumer sleeps).resolve_left (Bool.eq_false_iff.mp quiet)
  refine ⟨⟨UInt64.toNat_inj.mp ?_, kept.sound.peer_present sleeps quiet⟩, ?_⟩
  · rw [kept.sound.carries.waiting_eq, Queue.shown_of_watches asked, UInt64.toNat_zero]
  rintro move allowed serves y told rfl rfl
  have reached := run.append (.single allowed)
  have keptNow := begins.outstanding reached
  have roused := kept.serves_roused asked allowed serves
  have published := kept.serves_published asked allowed serves
  refine ⟨⟨?_, roused.signalled⟩, fun later others z own onward => ?_⟩
  · rw [keptNow.sound.carries.waiting_eq, keptNow.sound.carries.shown_of_published published]
  · have awake := keptNow.run_roused roused own onward
    have stays := x.current_play_peer move
    rw [serves.role] at stays
    have stands : z.current .consumer = some ⟨call, .park⟩ :=
      ((onward.current_peer own).trans stays).trans parked
    have keptLast := begins.outstanding (reached.append onward)
    obtain ⟨brought, drained⟩ := keptLast.roused_brings awake stands
    rw [keptLast.sound.carries.waiting_eq]
    refine ⟨stands, mayProceed_of_signalled stands awake.signalled, ?_, drained⟩
    simp only [Exchange.play, Advance.turn, brought]

/-- A batch that waits in the park is woken by an unforced push, which shows an earlier deferred item too.
What is deferred after that is not part of it. -/
theorem never_starved_deferred_items :
    ∃ (fresh : Session Nat) (x y z : Exchange Nat),
      Session.ofSettings ⟨8, by decide, 0, 0, 18446744073709551615, .whenShort, 8⟩ = .ok fresh ∧
        fresh.exchange.Runs
          [.start .producer (.push 1 false), .start .consumer .popBatch, .proceed .consumer]
          [.push (.accepted 1), .parked] x ∧
        x.current .consumer = some ⟨.popBatch, .park⟩ ∧ x.queue.signalled .consumer = false ∧
        x.allows (.start .producer (.push 2 false)) = true ∧
        x.Serves (.start .producer (.push 2 false)) ∧
        (x.play (.start .producer (.push 2 false))).exchange = y ∧
        y.Runs [.start .producer (.push 3 false)] [.push (.accepted 3)] z ∧
        (z.play (.proceed .consumer)).result = some (Outcome.popBatch (.ok [1, 2])).result := by
  suffices reached : ∃ (fresh : Session Nat) (x y z : Exchange Nat),
      Session.ofSettings ⟨8, by decide, 0, 0, 18446744073709551615, .whenShort, 8⟩ = .ok fresh ∧
        fresh.exchange.Runs
          [.start .producer (.push 1 false), .start .consumer .popBatch, .proceed .consumer]
          [.push (.accepted 1), .parked] x ∧
        x.current .consumer = some ⟨.popBatch, .park⟩ ∧ x.queue.signalled .consumer = false ∧
        x.allows (.start .producer (.push 2 false)) = true ∧
        (x.play (.start .producer (.push 2 false))).result = some (.push (.accepted 2)) ∧
        (x.play (.start .producer (.push 2 false))).exchange = y ∧
        y.Runs [.start .producer (.push 3 false)] [.push (.accepted 3)] z ∧ z.queue.waiting = 2 by
    obtain ⟨fresh, x, y, z, opened, run, parked, quiet, allowed, wrote, same, onward, shown⟩ := reached
    have serves : x.Serves (.start .producer (.push 2 false)) := by
      refine Or.inl ?_
      unfold Turn.accepted
      rw [wrote]
      exact List.cons_ne_nil _ _
    have woken := ((never_starved opened run parked quiet).2 _ allowed serves y _ same rfl).2 _ _ z
      (by simp [Move.role]) onward
    rw [wrote, shown] at woken
    exact ⟨fresh, x, y, z, opened, run, parked, quiet, allowed, serves, same, onward, woken.2.2.1⟩
  have stop {x : Exchange Nat} : x.Runs [] [] x := .rest x
  exact ⟨_, _, _, _, rfl, .next rfl (.next rfl (.next rfl stop)), rfl, rfl, rfl, rfl, rfl, .single rfl, rfl⟩

end Exchange

end SpscQueue
