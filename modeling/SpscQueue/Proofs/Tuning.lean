import SpscQueue.Proofs.Waiting

namespace SpscQueue.Queue

universe u

variable {α : Type u} {q next last : Queue α} {item : α} {items : List α} {role who : Role}
  {o : Index} {asleep : Bool} {pushes : Nat}

/-- Counted from `o`, the peer of a party has shown the step which that party last asked for. -/
def Past (o : Index) (q : Queue α) (role : Role) : Prop :=
  o.span (q.side role.peer).post.threshold < o.span (q.side role.peer).cursor.published

/-- What a parked party waits for has come: the consumer is shown an item, or the quota has left the
queue since the producer filled it. -/
def Due (q : Queue α) : Role → Prop
  | .producer => q.consumer.cursor.position.span q.producer.cursor.position + q.quota ≤ q.capacity.toNat
  | .consumer => 0 < q.shown

/-- A signal is raised for a party that sleeps, when what it waits for has come, or when its peer
leaves. What a party asked for in an earlier sleep lies behind its peer. -/
structure Tuned (o : Index) (q : Queue α) (role : Role) (asleep : Bool) : Prop where
  raised : q.signalled role = true → q.closed role.peer = true ∨ asleep = true ∧ q.Due role
  asked : q.closed role.peer = true ∨ q.Past o role ∨
    asleep = true ∧ q.signalled role = false ∧ q.Watches role

/-- Counted from `o`, the step before the first one, the parties have not come around the circle yet: the
producer has put in so many items since, and the consumer is on the way to it. -/
structure Anchored (o : Index) (q : Queue α) (pushes : Nat) : Prop where
  total : o.span q.producer.cursor.position = pushes + 1
  begun : 0 < o.span q.consumer.cursor.position
  way : o.span q.consumer.cursor.position +
      q.consumer.cursor.position.span q.producer.cursor.position =
    o.span q.producer.cursor.position

/-- What a party at work leaves alone in addition: its own signal, and what it asked for. -/
structure Steady (role : Role) (q next : Queue α) : Prop extends Alike role q next where
  signalled : next.signalled role = q.signalled role
  threshold : (next.side role.peer).post.threshold = (q.side role.peer).post.threshold

theorem Steady.trans (first : Steady role q next) (second : Steady role next last) :
    Steady role q last :=
  ⟨first.toAlike.trans second.toAlike, second.signalled.trans first.signalled,
    second.threshold.trans first.threshold⟩

theorem steady_refresh (q : Queue α) (role : Role) : Steady role q (q.refresh role) := by
  cases role <;> exact ⟨q.alike_refresh _, rfl, rfl⟩

theorem Carries.steady_flush (carries : q.Carries items) : Steady .producer q q.flush := by
  refine ⟨q.alike_publish .producer, ?_, ?_⟩
  · rw [flush_eq carries.producer_posted]
    rfl
  · rw [flush_eq carries.producer_posted]
    rfl

theorem Carries.steady_put (carries : q.Carries items) (space : q.ready .producer = true) (item : α)
    (force : Bool) : Steady .producer q (q.put item force) := by
  have first : Steady .producer q (q.written item) :=
    ⟨⟨fun who => by cases who <;> rfl, rfl, rfl, rfl⟩, rfl, rfl⟩
  unfold Queue.put
  split
  · exact first.trans (carries.written space item).steady_flush
  · exact first

theorem Carries.steady_taken (carries : q.Carries items) (ring : Ring α) (steps : UInt64) :
    Steady .consumer q (q.taken ring steps) := by
  refine ⟨q.alike_moved ring steps, ?_, ?_⟩
  · rw [taken_eq carries.consumer_posted_published]
    rfl
  · rw [taken_eq carries.consumer_posted_published]
    rfl

namespace Tuned

/-- A party at work is not asleep, and stays so. -/
theorem steady (tuned : q.Tuned o role false) (steady : Steady role q next) :
    next.Tuned o role false where
  raised signalled := by
    rw [steady.signalled] at signalled
    rw [steady.closed]
    exact (tuned.raised signalled).imp_right fun asleep => nomatch asleep.1
  asked := by
    unfold Past
    rw [steady.closed, steady.threshold, steady.cursor]
    exact tuned.asked.imp_right fun asked => asked.imp_right fun asleep => nomatch asleep.1

theorem refresh (tuned : q.Tuned o who asleep) (role : Role) :
    (q.refresh role).Tuned o who asleep := by
  cases role <;> cases who <;> exact ⟨tuned.raised, tuned.asked⟩

theorem hush (tuned : q.Tuned o role.peer asleep) : (q.hush role).Tuned o role.peer asleep := by
  cases role <;> exact ⟨tuned.raised, tuned.asked⟩

/-- A party that wakes up uses up its signal, and what it asked for lies behind its peer. -/
theorem woken (tuned : q.Tuned o role true) (signalled : q.signalled role = true) :
    (q.hush role).Tuned o role false := by
  have asked : q.closed role.peer = true ∨ q.Past o role := by
    rcases tuned.asked with gone | past | ⟨_, quiet, _⟩
    · exact Or.inl gone
    · exact Or.inr past
    · rw [signalled] at quiet
      cases quiet
  cases role <;> exact ⟨fun raised => (nomatch raised), asked.imp_right Or.inl⟩

theorem watch (tuned : q.Tuned o role.peer asleep) (threshold : Index) :
    (q.watch threshold role).Tuned o role.peer asleep := by
  cases role <;> exact ⟨tuned.raised, tuned.asked⟩

theorem written (tuned : q.Tuned o .consumer asleep) (item : α) :
    (q.written item).Tuned o .consumer asleep := ⟨tuned.raised, tuned.asked⟩

/-- A party that parks has a signal only if its peer is gone. -/
theorem parked (tuned : q.Tuned o role false) (signalled : next.signalled role = q.signalled role)
    (closed : next.closed role.peer = q.closed role.peer) (watches : next.Watches role) :
    next.Tuned o role true := by
  have raised : next.signalled role = true → next.closed role.peer = true := by
    intro raised
    rw [signalled] at raised
    rw [closed]
    exact (tuned.raised raised).resolve_right fun asleep => nomatch asleep.1
  refine ⟨fun told => Or.inl (raised told), ?_⟩
  cases quiet : next.signalled role with
  | true => exact Or.inl (raised quiet)
  | false => exact Or.inr (Or.inr ⟨rfl, rfl, watches⟩)

end Tuned

namespace Anchored

theorem of_books (anchored : q.Anchored o pushes)
    (producer : next.producer.cursor.position = q.producer.cursor.position)
    (consumer : next.consumer.cursor.position = q.consumer.cursor.position) :
    next.Anchored o pushes := by
  obtain ⟨total, begun, way⟩ := anchored
  constructor <;> simpa only [producer, consumer]

theorem published_le (anchored : q.Anchored o pushes) (carries : q.Carries items) :
    o.span q.consumer.cursor.position + q.shown = o.span q.producer.cursor.published ∧
      o.span q.producer.cursor.published ≤ pushes + 1 := by
  have shown := carries.shown_le
  have length := carries.length_eq
  have total := anchored.total
  have way := anchored.way
  have via : o.span q.consumer.cursor.position + q.shown = o.span q.producer.cursor.published :=
    Index.span_via way (show q.shown ≤ _ by omega)
  omega

/-- No more items wait than were put in. -/
theorem length_le (anchored : q.Anchored o pushes) (carries : q.Carries items) :
    items.length ≤ pushes := by
  have length := carries.length_eq
  have total := anchored.total
  have begun := anchored.begun
  have way := anchored.way
  omega

/-- The way on from what is shown does not lead around the circle either. -/
theorem deferred_way (anchored : q.Anchored o pushes) (carries : q.Carries items) :
    o.span q.producer.cursor.published +
        q.producer.cursor.published.span q.producer.cursor.position =
      o.span q.producer.cursor.position := by
  have via := (anchored.published_le carries).1
  have deferred := carries.deferred_eq
  have shown := carries.shown_le
  have length := carries.length_eq
  have way := anchored.way
  omega

theorem written (anchored : q.Anchored o pushes) (carries : q.Carries items)
    (early : pushes < 0x8000000000000000) (item : α) :
    (q.written item).Anchored o (pushes + 1) := by
  obtain ⟨total, begun, way⟩ := anchored
  have one : (1 : UInt64).toNat = 1 := rfl
  have length := carries.length_eq
  have most := carries.length_le
  have small := carries.capacity_lt
  have further : o.span (q.producer.cursor.position + 1) =
      o.span q.producer.cursor.position + 1 := Index.span_add (by omega)
  have away : q.consumer.cursor.position.span (q.producer.cursor.position + 1) =
      q.consumer.cursor.position.span q.producer.cursor.position + 1 := Index.span_add (by omega)
  constructor
  · show o.span (q.producer.cursor.position + 1) = pushes + 1 + 1
    omega
  · exact begun
  · show o.span q.consumer.cursor.position +
        q.consumer.cursor.position.span (q.producer.cursor.position + 1) =
      o.span (q.producer.cursor.position + 1)
    omega

theorem flush (anchored : q.Anchored o pushes) (carries : q.Carries items) :
    q.flush.Anchored o pushes := by
  rw [flush_eq carries.producer_posted]
  exact anchored.of_books rfl rfl

theorem put (anchored : q.Anchored o pushes) (carries : q.Carries items)
    (space : q.ready .producer = true) (early : pushes < 0x8000000000000000) (item : α)
    (force : Bool) : (q.put item force).Anchored o (pushes + 1) := by
  have written := anchored.written carries early item
  unfold Queue.put
  split
  · exact written.flush (carries.written space item)
  · exact written

/-- A consumer that moves on stays on the way to the producer. -/
theorem onward (anchored : q.Anchored o pushes) (carries : q.Carries items) {steps : UInt64}
    (within : steps.toNat ≤ q.shown) :
    (q.consumer.cursor.position + steps).span q.producer.cursor.position =
        q.consumer.cursor.position.span q.producer.cursor.position - steps.toNat ∧
      o.span q.consumer.cursor.position + steps.toNat =
        o.span (q.consumer.cursor.position + steps) := by
  have shown := carries.shown_le
  have length := carries.length_eq
  have reach : o.span q.consumer.cursor.position +
        q.consumer.cursor.position.span (q.consumer.cursor.position + steps) =
      o.span (q.consumer.cursor.position + steps) :=
    Index.span_via anchored.way (by rw [Index.span_add_self]; omega)
  rw [Index.span_add_self] at reach
  exact ⟨Index.span_from_add (by omega), reach⟩

theorem taken (anchored : q.Anchored o pushes) (carries : q.Carries items) (ring : Ring α)
    {steps : UInt64} (within : steps.toNat ≤ q.shown) :
    (q.taken ring steps).Anchored o pushes := by
  have shown := carries.shown_le
  have length := carries.length_eq
  obtain ⟨left, reach⟩ := anchored.onward carries within
  obtain ⟨total, begun, way⟩ := anchored
  rw [taken_eq carries.consumer_posted_published]
  refine ⟨total, Nat.lt_of_lt_of_eq (Nat.add_pos_left begun steps.toNat) reach, ?_⟩
  show o.span (q.consumer.cursor.position + steps) +
      (q.consumer.cursor.position + steps).span q.producer.cursor.position =
    o.span q.producer.cursor.position
  omega

end Anchored

namespace Carries

theorem signalled_flush_iff (carries : q.Carries items) :
    q.flush.signalled .consumer = true ↔
      q.producer.owesWakeup = true ∨ q.signalled .consumer = true := by
  rw [flush_eq carries.producer_posted]
  show (if q.producer.owesWakeup then q.consumer.signal.raise else q.consumer.signal).pending =
    true ↔ _
  split <;> simp_all [Signal.raise, signalled, side]

theorem signalled_taken_iff (carries : q.Carries items) (ring : Ring α) {steps : UInt64}
    (within : steps.toNat ≤ q.shown) :
    (q.taken ring steps).signalled .producer = true ↔
      q.consumer.cursor.position.span q.consumer.post.threshold < steps.toNat ∨
        q.signalled .producer = true := by
  have shown := carries.shown_le
  have most := carries.length_le
  have small := carries.capacity_lt
  have passed : Index.passes q.consumer.cursor.position (q.consumer.cursor.position + steps)
        q.consumer.post.threshold = true ↔
      q.consumer.cursor.position.span q.consumer.post.threshold < steps.toNat := by
    rw [Index.passes_iff_span (by rw [Index.span_add_self]; omega), Index.span_add_self]
  rw [taken_eq carries.consumer_posted_published, carries.consumer_published, ← passed]
  show (if _ then q.producer.signal.raise else q.producer.signal).pending = true ↔ _
  split <;> simp_all [Signal.raise, signalled, side]

end Carries

namespace Tuned

/-- A step that a party asked for is still ahead of its peer only as long as that party sleeps without a
signal, unless the peer is gone. -/
theorem asks_of_near (tuned : q.Tuned o role asleep)
    (early : o.span (q.side role.peer).cursor.published ≤ 0x8000000000000000)
    (near : (q.side role.peer).cursor.published.span (q.side role.peer).post.threshold <
      0x8000000000000000) :
    q.closed role.peer = true ∨ asleep = true ∧ q.signalled role = false ∧ q.Watches role := by
  rcases tuned.asked with gone | past | asks
  · exact Or.inl gone
  · have around := Index.le_span_of_past early past
    omega
  · exact Or.inr asks

/-- A flush wakes the consumer if that waits for it. -/
theorem flush (tuned : q.Tuned o .consumer asleep) (carries : q.Carries items)
    (anchored : q.Anchored o pushes)
    (early : o.span q.producer.cursor.published ≤ 0x8000000000000000) :
    q.flush.Tuned o .consumer asleep := by
  have shown := carries.shown_le
  have length := carries.length_eq
  have most := carries.length_le
  have small := carries.capacity_lt
  have deferred := carries.deferred_eq
  have way := anchored.deferred_way carries
  have visible := carries.flush_shown
  have signals := carries.signalled_flush_iff
  have owes : q.producer.owesWakeup = true ↔
      q.producer.cursor.published.span q.producer.post.threshold <
        q.producer.cursor.published.span q.producer.cursor.position :=
    Index.passes_iff_span (by omega)
  have past : q.flush.Past o .consumer ↔
      o.span q.producer.post.threshold < o.span q.producer.cursor.position := by
    rw [flush_eq carries.producer_posted]
    exact Iff.rfl
  have closed : q.flush.closed .producer = q.closed .producer := (q.alike_publish .producer).closed _
  constructor
  · intro raised
    show q.flush.closed .producer = true ∨ asleep = true ∧ 0 < q.flush.shown
    rw [closed]
    rcases signals.mp raised with owed | before
    · have ahead := owes.mp owed
      rcases tuned.asks_of_near early (Nat.lt_of_lt_of_le ahead (by omega)) with gone | ⟨sleeps, _⟩
      · exact Or.inl gone
      · exact Or.inr ⟨sleeps, by omega⟩
    · refine (tuned.raised before).imp_right fun ⟨sleeps, due⟩ => ⟨sleeps, ?_⟩
      have some : 0 < q.shown := due
      omega
  · show q.flush.closed .producer = true ∨ _
    rw [closed, past]
    rcases tuned.asked with gone | behind | ⟨sleeps, quiet, watches⟩
    · exact Or.inl gone
    · have far : o.span q.producer.post.threshold < o.span q.producer.cursor.published := behind
      exact Or.inr (Or.inl (by omega))
    · by_cases owed : q.producer.owesWakeup = true
      · have ahead := owes.mp owed
        have split := Index.span_via way (Nat.le_of_lt ahead)
        exact Or.inr (Or.inl (by omega))
      · have still : ¬ q.flush.signalled .consumer = true := by
          simp only [signals, quiet, owed, Bool.false_eq_true, or_self, not_false_iff]
        exact Or.inr (Or.inr ⟨sleeps, Bool.eq_false_iff.mpr still,
          (carries.regards_flush.watches watches).resolve_left still⟩)

/-- A consumer that moves on wakes the producer if that waits for one of the items taken. -/
theorem taken (tuned : q.Tuned o .producer asleep) (carries : q.Carries items)
    (anchored : q.Anchored o pushes) (early : pushes < 0x8000000000000000) (ring : Ring α)
    {steps : UInt64} (within : steps.toNat ≤ q.shown) :
    (q.taken ring steps).Tuned o .producer asleep := by
  have shown := carries.shown_le
  have length := carries.length_eq
  have total := anchored.total
  have way := anchored.way
  have signals := carries.signalled_taken_iff ring within
  have published := carries.consumer_published
  obtain ⟨left, reach⟩ := anchored.onward carries within
  have past : (q.taken ring steps).Past o .producer ↔
      o.span q.consumer.post.threshold < o.span (q.consumer.cursor.position + steps) := by
    rw [taken_eq carries.consumer_posted_published]
    exact Iff.rfl
  have due : (q.taken ring steps).Due .producer ↔
      (q.consumer.cursor.position + steps).span q.producer.cursor.position + q.quota ≤
        q.capacity.toNat := by
    rw [taken_eq carries.consumer_posted_published]
    exact Iff.rfl
  have closed : (q.taken ring steps).closed .consumer = q.closed .consumer :=
    (q.alike_moved ring steps).closed _
  constructor
  · intro raised
    show (q.taken ring steps).closed .consumer = true ∨ _
    rw [closed, due]
    rcases signals.mp raised with passed | before
    · have reached : o.span q.consumer.cursor.published ≤ 0x8000000000000000 := by
        rw [published]
        omega
      have near : q.consumer.cursor.published.span q.consumer.post.threshold <
          0x8000000000000000 := by
        rw [published]
        omega
      rcases tuned.asks_of_near reached near with gone | ⟨sleeps, _, _, between, ask⟩
      · exact Or.inl gone
      · exact Or.inr ⟨sleeps, by omega⟩
    · refine (tuned.raised before).imp_right fun ⟨sleeps, enough⟩ => ⟨sleeps, ?_⟩
      have free : q.consumer.cursor.position.span q.producer.cursor.position + q.quota ≤
        q.capacity.toNat := enough
      omega
  · show (q.taken ring steps).closed .consumer = true ∨ _
    rw [closed, past]
    rcases tuned.asked with gone | behind | ⟨sleeps, quiet, watches⟩
    · exact Or.inl gone
    · have far : o.span q.consumer.post.threshold < o.span q.consumer.cursor.published := behind
      rw [published] at far
      exact Or.inr (Or.inl (by omega))
    · by_cases passed : q.consumer.cursor.position.span q.consumer.post.threshold < steps.toNat
      · have split : o.span q.consumer.cursor.position +
              q.consumer.cursor.position.span q.consumer.post.threshold =
            o.span q.consumer.post.threshold := Index.span_via way (by omega)
        exact Or.inr (Or.inl (by omega))
      · have still : ¬ (q.taken ring steps).signalled .producer = true := by
          simp only [signals, quiet, passed, Bool.false_eq_true, or_self, not_false_iff]
        exact Or.inr (Or.inr ⟨sleeps, Bool.eq_false_iff.mpr still,
          ((carries.regards_taken ring within).watches watches).resolve_left still⟩)

theorem of_closed (gone : q.closed role.peer = true) : q.Tuned o role asleep :=
  ⟨fun _ => Or.inl gone, Or.inl gone⟩

end Tuned

/-- A party does not watch for what has come already. -/
theorem not_due_of_watches (watches : q.Watches role) : ¬ q.Due role := by
  intro due
  cases role with
  | producer =>
    obtain ⟨_, between, ask⟩ := watches
    have left : q.consumer.cursor.position.span q.producer.cursor.position + q.quota ≤
      q.capacity.toNat := due
    omega
  | consumer =>
    obtain ⟨_, nothing⟩ := watches
    have some : 0 < q.consumer.cursor.position.span q.producer.cursor.published := due
    rw [nothing, Index.span_self] at some
    exact Nat.lt_irrefl 0 some

/-- The signal of a party that sleeps tells whether what it waits for has come. -/
theorem Tuned.signalled_iff (tuned : q.Tuned o role true)
    (told : q.closed role.peer = true → q.signalled role = true)
    (watches : q.signalled role = true ∨ q.Watches role) :
    q.signalled role = true ↔ q.Due role ∨ q.closed role.peer = true := by
  constructor
  · intro raised
    rcases tuned.raised raised with gone | ⟨_, due⟩
    · exact Or.inr gone
    · exact Or.inl due
  · rintro (due | gone)
    · exact watches.resolve_right fun asks => not_due_of_watches asks due
    · exact told gone

/-- An item put in wakes the consumer if that sleeps and nothing was shown to it since. -/
theorem Tuned.owes_written (tuned : q.Tuned o .consumer asleep) (carries : q.Carries items)
    (anchored : q.Anchored o pushes) (early : pushes < 0x8000000000000000)
    (present : q.closed .producer = false)
    (watches : asleep = true → q.signalled .consumer = true ∨ q.Watches .consumer)
    (space : q.ready .producer = true) (item : α) :
    (q.written item).producer.owesWakeup = true ↔ asleep = true ∧ q.shown = 0 := by
  have after := carries.written space item
  have small := after.capacity_lt
  have most := after.length_le
  have deferred := after.deferred_eq
  have shown : (q.written item).shown = q.shown := rfl
  have visible := carries.shown_le
  have reach := (anchored.published_le carries).2
  have longer : (items ++ [item]).length = items.length + 1 := by simp
  have capacity : (q.written item).capacity.toNat = q.capacity.toNat := rfl
  have published : (q.written item).producer.cursor.published = q.producer.cursor.published := rfl
  rw [published, shown, longer] at deferred
  constructor
  · intro owed
    have ahead : q.producer.cursor.published.span q.producer.post.threshold <
        q.producer.cursor.published.span (q.written item).producer.cursor.position :=
      (Index.passes_iff_span (by omega)).mp owed
    rcases tuned.asks_of_near (show o.span q.producer.cursor.published ≤ _ by omega)
      (Nat.lt_of_lt_of_le ahead (by omega)) with gone | ⟨sleeps, _, _, nothing⟩
    · rw [Role.peer, present] at gone
      cases gone
    · refine ⟨sleeps, ?_⟩
      show q.consumer.cursor.position.span q.producer.cursor.published = 0
      rw [nothing, Index.span_self]
  · rintro ⟨sleeps, nothing⟩
    have asks : q.Watches .consumer := by
      refine (watches sleeps).resolve_left fun raised => ?_
      rcases tuned.raised raised with gone | ⟨_, due⟩
      · rw [Role.peer, present] at gone
        cases gone
      · exact Nat.ne_of_gt due nothing
    refine after.owesWakeup_of_watches asks fun same => ?_
    rw [← published, same, Index.span_self] at deferred
    omega

theorem Carries.put_shown (carries : q.Carries items) (space : q.ready .producer = true) (item : α)
    (force : Bool) :
    (q.put item force).shown =
      if force || (q.written item).producer.owesWakeup then items.length + 1 else q.shown := by
  have longer : (items ++ [item]).length = items.length + 1 := by simp
  unfold Queue.put
  split
  · rw [(carries.written space item).flush_shown, longer]
  · rfl

theorem Carries.taken_shown (carries : q.Carries items) (ring : Ring α) {steps : UInt64}
    (within : steps.toNat ≤ q.shown) : (q.taken ring steps).shown = q.shown - steps.toNat := by
  rw [taken_eq carries.consumer_posted_published]
  exact Index.span_from_add within

end SpscQueue.Queue
