import SpscQueue.Proofs.Noticing

namespace SpscQueue

universe u

variable {α : Type u} {role : Role} {q : Queue α}

namespace Scene

variable {s t : Scene α}

/-- Each party can rely on what it needs at its place, and neither waits in vain: who goes on to wait
for a peer that is gone has its signal or is about to get it, and so has who is parked when the peer
has passed the step asked for. -/
structure Guarded (s : Scene α) : Prop where
  ordered : s.queue.Ordered
  suits (role : Role) : s.queue.Suits (s.place role)
  told (who other : Role) : other = who.peer → (s.place who).waits = true →
    s.queue.closed other = true → s.queue.signalled who = true ∨ s.place other = .knock
  watched (who other : Role) (call : Call α who) : other = who.peer → s.place who = .parked call →
    s.queue.overdue who = true → s.queue.signalled who = true ∨ (s.place other).owes s.queue = true

theorem guarded_ofQueue (ordered : q.Ordered)
    (shown : q.consumer.cursor.published = q.consumer.cursor.position) : (ofQueue q).Guarded where
  ordered := ordered
  suits role := by
    cases role with
    | producer => trivial
    | consumer => exact shown
  told who other _ waits := nomatch waits
  watched who other call _ parked := nomatch parked

theorem Guarded.absorb (guarded : s.Guarded) {stride : Stride α role}
    (touches : (s.place role).Touches s.queue stride) (ordered : stride.queue.Ordered)
    (suits : stride.queue.Suits stride.place) : (s.absorb stride).1.Guarded := by
  have heeds := touches.heeds
  have moved : (s.absorb stride).1.place role = stride.place := Function.update_self ..
  have rests : (s.absorb stride).1.place role.peer = s.place role.peer :=
    Function.update_of_ne (by cases role <;> decide) ..
  have queue : (s.absorb stride).1.queue = stride.queue := rfl
  constructor
  · exact ordered
  · intro who
    rcases role.eq_or_eq_peer who with rfl | rfl
    · rw [moved]
      exact suits
    · rw [rests]
      exact heeds.suits (guarded.suits role.peer)
  · intro who other same
    rcases role.eq_or_eq_peer who with rfl | rfl
    · subst same
      rw [moved, rests, queue]
      intro waits gone
      obtain ⟨closed, stays⟩ := touches.stays waits
      rw [closed] at gone
      rcases stays with present | ⟨waited, kept⟩
      · rw [present] at gone
        cases gone
      · rw [kept]
        exact guarded.told _ _ rfl waited gone
    · obtain rfl : other = role := same.trans role.peer_peer
      rw [moved, rests, queue]
      intro waits gone
      rcases touches.closes gone with raised | knocks | ⟨before, here⟩
      · exact .inl raised
      · exact .inr knocks
      · rcases guarded.told _ _ same waits before with raised | knocks
        · exact .inl (heeds.signalled raised)
        · exact absurd knocks here
  · intro who other call same
    rcases role.eq_or_eq_peer who with rfl | rfl
    · rw [moved, queue]
      intro parked due
      obtain ⟨here, refreshed, still⟩ := touches.parks parked
      have asks := guarded.suits who
      rw [here] at asks
      have missed := (asks.1.recheck guarded.ordered still).2
      rw [refreshed, missed] at due
      cases due
    · obtain rfl : other = role := same.trans role.peer_peer
      rw [moved, rests, queue]
      intro parked due
      rcases touches.passes (guarded.ordered.posted _) due with before | owes
      · rcases guarded.watched _ _ call same parked before with raised | owed
        · exact .inl (heeds.signalled raised)
        · exact touches.owes owed
      · exact .inr owes

theorem Guarded.step (guarded : s.Guarded) {access : Access α} {result : Option (Result α)}
    (made : s.step access = some (t, result)) : t.Guarded := by
  cases access with
  | enter role task =>
    rw [Scene.step] at made
    cases here : s.place role with
    | rest =>
      have settled := guarded.suits role
      rw [here] at made settled
      cases made
      refine guarded.absorb ?_ guarded.ordered (task.entry_settled settled)
      obtain ⟨waits, awake⟩ := task.entry_waits
      refine .nothing (.refl role s.queue) ?_ ?_ ?_ fun call same => absurd same (awake call)
      · rw [here]
        exact fun same => nomatch same
      · rw [here]
        exact fun owed => nomatch owed
      · intro later
        rw [waits] at later
        cases later
    | _ =>
      rw [here] at made
      cases made
  | go role =>
    obtain ⟨stride, next, taken⟩ := Option.map_eq_some_iff.mp made
    obtain ⟨ordered, suits⟩ := Place.stride_suits guarded.ordered (guarded.suits role) next
    have after := guarded.absorb (Place.stride_touches next) ordered suits
    rw [taken] at after
    exact after

theorem Guarded.run (guarded : s.Guarded) {accesses : List (Access α)} {results : List (Result α)}
    (made : s.run accesses = some (t, results)) : t.Guarded := by
  induction accesses generalizing s results with
  | nil =>
    cases made
    exact guarded
  | cons access accesses ih =>
    unfold Scene.run at made
    cases first : s.step access with
    | none =>
      rw [first] at made
      cases made
    | some moved =>
      rw [first] at made
      obtain ⟨rest, later, same⟩ := Option.map_eq_some_iff.mp made
      cases same
      exact ih (guarded.step first) later

theorem blocked_iff : s.blocked role = true ↔
    (∃ call, s.place role = .parked call) ∧ s.queue.signalled role = false := by
  unfold blocked
  cases s.place role <;> simp

/-- Who stands still is not on the way to raise a signal. -/
theorem owes_of_still (still : s.still role = true) :
    (s.place role).owes s.queue = false ∧ s.place role ≠ .knock := by
  unfold Scene.still blocked at still
  cases here : s.place role with
  | rest => exact ⟨rfl, fun same => nomatch same⟩
  | gone => exact ⟨rfl, fun same => nomatch same⟩
  | parked => exact ⟨rfl, fun same => nomatch same⟩
  | _ =>
    rw [here] at still
    cases still

theorem Guarded.rests (guarded : s.Guarded) (blocked : s.blocked role = true)
    (still : s.still role.peer = true) :
    s.queue.overdue role = false ∧ s.queue.closed role.peer = false := by
  obtain ⟨⟨call, here⟩, quiet⟩ := blocked_iff.mp blocked
  obtain ⟨owes, knocks⟩ := owes_of_still still
  constructor
  · refine Bool.eq_false_iff.mpr fun due => ?_
    rcases guarded.watched role _ call rfl here due with raised | owed
    · rw [quiet] at raised
      cases raised
    · rw [owes] at owed
      cases owed
  · refine Bool.eq_false_iff.mpr fun gone => ?_
    rcases guarded.told role _ rfl (by rw [here]; rfl) gone with raised | knocking
    · rw [quiet] at raised
      cases raised
    · exact knocks knocking

/-- A producer blocked without a signal has shown a full queue, of which the consumer has not taken
what the producer asks for. A consumer blocked without a signal has taken all of it. -/
theorem Guarded.not_both_blocked (guarded : s.Guarded) :
    ¬ (s.blocked .producer = true ∧ s.blocked .consumer = true) := by
  rintro ⟨producer, consumer⟩
  obtain ⟨⟨_, pushing⟩, _⟩ := blocked_iff.mp producer
  obtain ⟨⟨_, popping⟩, _⟩ := blocked_iff.mp consumer
  have standsStill (who : Role) (blocked : s.blocked who = true) : s.still who = true := by
    obtain ⟨⟨call, here⟩, _⟩ := blocked_iff.mp blocked
    unfold still
    rw [here]
    exact blocked
  have early : s.queue.overdue .producer = false :=
    (guarded.rests producer (standsStill .consumer consumer)).1
  have empty : s.queue.overdue .consumer = false :=
    (guarded.rests consumer (standsStill .producer producer)).1
  have suitsPush := guarded.suits .producer
  have suitsPop := guarded.suits .consumer
  rw [pushing] at suitsPush
  rw [popping] at suitsPop
  obtain ⟨⟨short, watched⟩, shown⟩ := suitsPush
  obtain ⟨asked, taken⟩ := suitsPop
  have ordered := guarded.ordered
  have small := ordered.capacity_le
  have seen := ordered.consumer_position
  have seenShown := ordered.consumer_seen
  have room := ordered.room
  have shownAll : s.queue.producer.cursor.published = s.queue.producer.cursor.position := shown
  have takenAll : s.queue.consumer.cursor.published = s.queue.consumer.cursor.position := taken
  have place : s.queue.producer.post.threshold = s.queue.consumer.cursor.position := asked
  rw [shownAll] at seenShown
  have left := mt (ordered.overdue_producer_iff (by omega)).mpr (Bool.eq_false_iff.mp early)
  have none := mt (ordered.overdue_consumer_iff (by rw [place, shownAll]; omega)).mpr
    (Bool.eq_false_iff.mp empty)
  rw [takenAll] at left
  rw [shownAll, place] at none
  omega

/-- No wakeup is lost, in whatever order the two parties make their accesses. Nobody is blocked without
a signal while its peer stands still after it has passed the step asked for, or has gone. And the
parties never are both blocked without a signal. -/
theorem no_lost_wakeup {settings : Settings} {fresh : Queue α} {accesses : List (Access α)}
    {results : List (Result α)} (opened : Queue.ofSettings settings = .ok fresh)
    (reached : (ofQueue fresh).run accesses = some (s, results)) :
    (∀ role, s.blocked role = true → s.still role.peer = true →
      s.queue.overdue role = false ∧ s.queue.closed role.peer = false) ∧
    ¬ (s.blocked .producer = true ∧ s.blocked .consumer = true) := by
  have shown : fresh.consumer.cursor.published = fresh.consumer.cursor.position :=
    (Queue.ofSettings_carries opened).consumer_published
  have guarded := (guarded_ofQueue (Queue.ofSettings_ordered opened) shown).run reached
  exact ⟨fun role blocked still => guarded.rests blocked still, guarded.not_both_blocked⟩

/-- An item comes between the step that a consumer asks for and its last check. That leaves the consumer
with a signal that it does not need, which it uses up in its next wait. -/
def staleSignal : List (Access Nat) :=
  .enter .consumer (.pursue (.call .pop)) :: List.replicate 4 (.go .consumer) ++
    .enter .producer (.pursue (.call (.push 7 true))) :: List.replicate 3 (.go .producer) ++
    List.replicate 3 (.go .consumer) ++ List.replicate 4 (.go .producer) ++
    .go .consumer :: .enter .consumer (.pursue (.call .pop)) :: List.replicate 11 (.go .consumer)

theorem no_lost_wakeup_stale_signal :
    ∃ (fresh : Queue Nat) (s : Scene Nat) (results : List (Result Nat)),
      Queue.ofSettings ⟨1, by decide, 0, 0, 18446744073709551615, .whenShort, 8⟩ = .ok fresh ∧
        (ofQueue fresh).run staleSignal = some (s, results) ∧
        s.blocked .consumer = true ∧ s.still .producer = true ∧
        s.queue.overdue .consumer = false ∧ s.queue.closed .producer = false := by
  refine ⟨_, _, _, rfl, rfl, rfl, rfl, ?_⟩
  have opened : Queue.ofSettings (α := Nat)
      ⟨1, by decide, 0, 0, 18446744073709551615, .whenShort, 8⟩ = .ok _ := rfl
  exact (@no_lost_wakeup Nat _ _ _ staleSignal _ opened rfl).1 .consumer rfl rfl

end Scene

end SpscQueue
