import SpscQueue.Proofs.Farewell

namespace SpscQueue

universe u

variable {α : Type u} {role : Role} {q : Queue α}

/-- Whether a call of the consumer has failed for another reason than that there is nothing yet. -/
def Result.disconnects : Result α → Bool
  | pop (.error _) => true
  | popBatch (.error _) => true
  | tryPop (.error .empty) => false
  | tryPop (.error _) => true
  | _ => false

theorem Result.not_disconnects_of_succeeds {result : Result α}
    (done : result.succeeds role = true) : result.disconnects = false := by
  unfold succeeds at done
  split at done <;> first | rfl | cases done

/-- The call of the consumer that finds everything taken and its peer gone, and the number of accesses
that it still makes. -/
def Place.doomed : Place α .consumer → Option (Aim α .consumer × Nat)
  | .glance call => some (.call call, 4)
  | .look .first aim => some (aim, 3)
  | .ask aim => some (aim, 2)
  | .lastLook aim => some (aim, 1)
  | _ => none

/-- A consumer whose calls fail only by the end of the producer is told so after its last look. -/
theorem Place.stride_disconnects {place : Place α .consumer} {stride : Stride α .consumer}
    {result : Result α} (still : ∀ aim, place ≠ .move aim) (next : place.stride q = some stride)
    (done : ∀ told ∈ place.untold, told.succeeds .consumer = true)
    (told : stride.result = some result) (disconnects : result.disconnects = true) :
    ∃ aim, place = .lastLook aim ∧ result = aim.giveUp ∧ stride = ⟨q.refresh .consumer, .rest, result⟩ ∧
      (q.refresh .consumer).ready .consumer = false := by
  have pending {after : Result α} (same : place.untold = some after) : after ≠ result := by
    rintro rfl
    rw [Result.not_disconnects_of_succeeds (done after same)] at disconnects
    cases disconnects
  have reaches {after : Queue α} {goal : Goal α .consumer} (same : place.untold = goal.result)
      (told : (goal.reach after).result = some result) : False := by
    rw [(goal.reach_unmoved after).2.1, ← same] at told
    exact pending told rfl
  cases place with
  | rest | gone => cases next
  | glance | enrol | tally | count | shut | knock =>
    cases next
    cases told
  | look check aim =>
    cases next
    split at told
    · cases told
    · cases aim <;> cases check <;> cases told
  | ask aim =>
    cases next
    split at told
    · cases told
    · cases aim with
      | tryPop =>
        cases told
        cases disconnects
      | call call => cases told
  | lastLook aim =>
    rw [Place.stride] at next
    split at next
    · cases next
      cases told
    · rename_i short
      cases next
      cases told
      exact ⟨aim, rfl, rfl, rfl, Bool.eq_false_iff.mpr short⟩
  | recheck call =>
    cases next
    split at told
    · cases told
    · cases told
      cases disconnects
  | parked call =>
    rw [Place.stride] at next
    split at next
    · cases next
      cases told
    · cases next
  | move aim => exact absurd rfl (still aim)
  | peek after =>
    cases next
    dsimp only at told
    split at told
    · cases told
    · exact absurd (Option.some.inj told) (pending rfl)
  | announce goal =>
    cases next
    dsimp only at told
    split at told
    · exact (reaches rfl told).elim
    · cases told
  | heed old goal =>
    cases next
    split at told
    · cases told
    · exact (reaches rfl told).elim
  | rouse goal =>
    cases next
    exact (reaches rfl told).elim

namespace Queue

/-- The producer is gone, and the consumer has taken everything and seen that it has. -/
structure Drained (q : Queue α) : Prop where
  closed : q.closed .producer = true
  taken : q.producer.post.index = q.consumer.cursor.position
  seen : q.consumer.cursor.seen = q.consumer.cursor.position

variable (drained : q.Drained)

include drained

/-- There is nothing new to see. -/
theorem Drained.refresh : q.refresh .consumer = q := by
  obtain ⟨capacity, rounds, lookup, ring, producer, ⟨⟨position, published, seen⟩, post, signal, closed⟩⟩ := q
  have same : seen = producer.post.index := drained.seen.trans drained.taken.symm
  subst same
  rfl

theorem Drained.look : q.look .consumer = q := by
  rcases q.look_eq_or .consumer with ⟨same, _⟩ | fresh
  · exact same
  · rw [fresh, drained.refresh]

theorem Drained.short : q.ready .consumer = false := by
  refine Bool.eq_false_iff.mpr fun ready => ?_
  have some := (Carries.ready_consumer_iff q).mp ready
  rw [drained.seen, Index.span_self] at some
  exact Nat.lt_irrefl 0 some

/-- A call that is bound to fail gets one access nearer to its end, and with the last one it fails. -/
theorem Drained.stride {place : Place α .consumer} {aim : Aim α .consumer} {n : Nat}
    (doomed : place.doomed = some (aim, n + 1)) :
    ∃ after, place.stride q = some ⟨q, after, if n = 0 then some aim.giveUp else none⟩ ∧
      (n = 0 → after = .rest) ∧ (n ≠ 0 → after.doomed = some (aim, n)) := by
  have short := drained.short
  have gone : q.closed Role.consumer.peer = true := drained.closed
  unfold Place.doomed at doomed
  split at doomed
  · cases doomed
    refine ⟨.look .first (.call _), ?_, fun none => (by cases none), fun _ => rfl⟩
    simp only [Place.stride, drained.refresh]
    rfl
  · rename_i aim
    cases doomed
    refine ⟨.ask aim, ?_, fun none => (by cases none), fun _ => rfl⟩
    simp only [Place.stride, drained.look, short, Bool.false_eq_true, if_false]
    cases aim <;> rfl
  · rename_i aim
    cases doomed
    refine ⟨.lastLook aim, ?_, fun none => (by cases none), fun _ => rfl⟩
    simp only [Place.stride, gone, if_true]
    rfl
  · rename_i aim
    cases doomed
    refine ⟨.rest, ?_, fun _ => rfl, fun some => absurd rfl some⟩
    simp only [Place.stride, drained.refresh, short, Bool.false_eq_true, if_false]
    rfl
  · cases doomed

end Queue

theorem Place.doomed_pos {place : Place α .consumer} {aim : Aim α .consumer} {n : Nat}
    (doomed : place.doomed = some (aim, n)) : 0 < n := by
  unfold Place.doomed at doomed
  split at doomed <;> cases doomed <;> decide

theorem Task.entry_doomed (aim : Aim α .consumer) :
    ∃ n ≤ 4, (Task.pursue aim).entry.doomed = some (aim, n) := by
  cases aim with
  | tryPop => exact ⟨3, by decide, rfl⟩
  | call call =>
    cases call with
    | pop => exact ⟨3, by decide, rfl⟩
    | popBatch => exact ⟨4, by decide, rfl⟩

/-- Whether a party makes its next access. -/
def Access.goes (role : Role) : Access α → Bool
  | .go who => who == role
  | .enter .. => false

namespace Scene

variable {s t : Scene α} {items : List α} {results : List (Result α)} {result : Option (Result α)}
  {access : Access α} {accesses : List (Access α)} {aim : Aim α .consumer} {n : Nat}

/-- The producer is gone or about to give its last signal, nothing is left, and the consumer is not after
anything else than to learn that. -/
structure Over (s : Scene α) : Prop where
  left : s.place .producer = .knock ∨ s.place .producer = .gone
  drained : s.queue.Drained
  place : (∃ aim n, (s.place .consumer).doomed = some (aim, n)) ∨ s.place .consumer = .rest ∨
    (s.place .consumer).parts = true

/-- The consumer may begin a call that is doomed from the start, or leave. The producer begins nothing. -/
theorem Over.enter (done : s.Over) {task : Task α role}
    (made : s.step (.enter role task) = some (t, result)) :
    role = .consumer ∧ t.Over ∧ result = none ∧ t.place role = task.entry := by
  obtain ⟨left, drained, place⟩ := done
  obtain ⟨here, rfl, rfl⟩ := of_step_enter made
  have entered := s.absorb_place_self ⟨s.queue, task.entry, none⟩
  have beside := s.absorb_place_peer ⟨s.queue, task.entry, none⟩
  cases role with
  | producer => rcases left with same | same <;> cases here.symm.trans same
  | consumer =>
    refine ⟨rfl, ⟨?_, drained, ?_⟩, rfl, entered⟩
    · rwa [show (s.absorb ⟨s.queue, task.entry, none⟩).1.place .producer = s.place .producer from beside]
    · rw [entered]
      cases task with
      | pursue aim =>
        obtain ⟨n, _, doomed⟩ := Task.entry_doomed aim
        exact .inl ⟨aim, n, doomed⟩
      | leave => exact .inr (.inr rfl)

/-- The producer only gives its last signal. -/
theorem Over.go_producer (done : s.Over) (made : s.step (.go .producer) = some (t, result)) :
    t.Over ∧ result = none ∧ t.place .consumer = s.place .consumer := by
  obtain ⟨left, drained, place⟩ := done
  obtain ⟨stride, next, rfl, rfl⟩ := of_step_go made
  have moved := s.absorb_place_self stride
  have beside : (s.absorb stride).1.place .consumer = s.place .consumer := s.absorb_place_peer stride
  rcases left with knocks | gone
  · rw [knocks] at next
    cases next
    exact ⟨⟨.inr moved, ⟨drained.closed, drained.taken, drained.seen⟩, by rwa [beside]⟩, rfl, beside⟩
  · rw [gone] at next
    cases next

/-- A doomed call of the consumer gets nearer to its end, and its last access tells of that. -/
theorem Over.go_doomed (done : s.Over) (doomed : (s.place .consumer).doomed = some (aim, n + 1)) :
    ∃ t, s.step (.go .consumer) = some (t, if n = 0 then some aim.giveUp else none) ∧ t.Over ∧
      (n ≠ 0 → (t.place .consumer).doomed = some (aim, n)) := by
  obtain ⟨after, goes, ends, goesOn⟩ := done.drained.stride doomed
  let stride : Stride α .consumer := ⟨s.queue, after, if n = 0 then some aim.giveUp else none⟩
  have moved : (s.absorb stride).1.place .consumer = after := s.absorb_place_self stride
  have beside : (s.absorb stride).1.place .producer = s.place .producer := s.absorb_place_peer stride
  refine ⟨(s.absorb stride).1, Option.map_eq_some_iff.mpr ⟨stride, goes, rfl⟩, ⟨?_, done.drained, ?_⟩,
    fun some => ?_⟩
  · rw [beside]
    exact done.left
  · rw [moved]
    by_cases last : n = 0
    · exact .inr (.inl (ends last))
    · exact .inl ⟨aim, n, goesOn last⟩
  · rw [moved]
    exact goesOn some

/-- A consumer that is on its way out tells of nothing. -/
theorem Over.go_parting (done : s.Over) (parts : (s.place .consumer).parts = true)
    (made : s.step (.go .consumer) = some (t, result)) : t.Over ∧ result = none := by
  obtain ⟨left, drained, _⟩ := done
  obtain ⟨stride, next, rfl, rfl⟩ := of_step_go made
  have moved := s.absorb_place_self stride
  have beside : (s.absorb stride).1.place .producer = s.place .producer := s.absorb_place_peer stride
  rw [← beside] at left
  cases here : s.place .consumer with
  | shut | knock =>
    rw [here] at next
    cases next
    exact ⟨⟨left, ⟨drained.closed, drained.taken, drained.seen⟩, .inr (.inr (by rw [moved]; rfl))⟩, rfl⟩
  | gone =>
    rw [here] at next
    cases next
  | _ =>
    rw [here] at parts
    cases parts

/-- What one access comes to when all is over. A call that is under way gets nearer to its end, and
nothing else is told of. -/
theorem Over.step (done : s.Over) (made : s.step access = some (t, result)) :
    t.Over ∧ (∀ told ∈ result, ∃ aim : Aim α .consumer, told = aim.giveUp) ∧
      ∀ aim n, (s.place .consumer).doomed = some (aim, n) →
        result = some aim.giveUp ∨
          result = none ∧ ∃ m, (t.place .consumer).doomed = some (aim, m) ∧
            m + (access.goes .consumer).toNat = n := by
  cases access with
  | enter role task =>
    obtain ⟨here, _⟩ := of_step_enter made
    obtain ⟨rfl, still, rfl, _⟩ := done.enter made
    refine ⟨still, fun _ told => (nomatch told), fun aim n doomed => ?_⟩
    rw [here] at doomed
    cases doomed
  | go role =>
    cases role with
    | producer =>
      obtain ⟨still, rfl, beside⟩ := done.go_producer made
      refine ⟨still, fun _ told => (nomatch told), fun aim n doomed => .inr ⟨rfl, n, ?_, rfl⟩⟩
      rwa [beside]
    | consumer =>
      rcases done.place with ⟨aim, n, doomed⟩ | idle | parts
      · obtain ⟨m, rfl⟩ : ∃ m, n = m + 1 := ⟨n - 1, by have := Place.doomed_pos doomed; omega⟩
        obtain ⟨next, goes, still, nearer⟩ := done.go_doomed doomed
        cases goes.symm.trans made
        refine ⟨still, fun told member => ?_, fun other k same => ?_⟩
        · split at member
          · cases member
            exact ⟨aim, rfl⟩
          · cases member
        · cases doomed.symm.trans same
          by_cases last : m = 0
          · exact .inl (if_pos last)
          · exact .inr ⟨if_neg last, m, nearer last, rfl⟩
      · obtain ⟨stride, next, _⟩ := of_step_go made
        rw [idle] at next
        cases next
      · obtain ⟨still, rfl⟩ := done.go_parting parts made
        refine ⟨still, fun _ told => (nomatch told), fun aim n doomed => ?_⟩
        unfold Place.doomed at doomed
        split at doomed <;> simp_all [Place.parts]

theorem Over.run (done : s.Over) (made : s.run accesses = some (t, results)) :
    t.Over ∧ (∀ told ∈ results, ∃ aim : Aim α .consumer, told = aim.giveUp) ∧
      ∀ aim n, (s.place .consumer).doomed = some (aim, n) →
        results.head? = some aim.giveUp ∨
          results = [] ∧ ∃ m, (t.place .consumer).doomed = some (aim, m) ∧
            m + accesses.countP (Access.goes .consumer) = n := by
  induction accesses generalizing s results with
  | nil =>
    cases made
    exact ⟨done, fun _ told => (nomatch told), fun aim n doomed => .inr ⟨rfl, n, doomed, rfl⟩⟩
  | cons access accesses ih =>
    obtain ⟨next, result, later, first, rest, rfl⟩ := of_run_cons made
    obtain ⟨still, failed, nearer⟩ := done.step first
    obtain ⟨final, failing, onward⟩ := ih still rest
    refine ⟨final, fun told member => ?_, fun aim n doomed => ?_⟩
    · rcases List.mem_append.mp member with now | after
      · exact failed told (Option.mem_toList.mp now)
      · exact failing told after
    · rcases nearer aim n doomed with ends | ⟨rfl, m, doomed, fewer⟩
      · rw [ends]
        exact .inl rfl
      · rw [Option.toList_none, List.nil_append, List.countP_cons]
        refine (onward aim m doomed).imp_right fun ⟨quiet, k, doomed, count⟩ =>
          ⟨quiet, k, doomed, ?_⟩
        rw [← fewer, ← count]
        cases access.goes .consumer <;> simp [Nat.add_assoc]

/-- Once a call of the consumer has failed for good, every item that was put in is taken out, and all
is over. -/
theorem Coherent.ended (coherent : s.Coherent results items) {told : Result α}
    (made : s.step (.go .consumer) = some (t, some told)) (disconnects : told.disconnects = true) :
    (∃ aim : Aim α .consumer, told = aim.giveUp) ∧
      results.filterMap Result.accepted = results.flatMap Result.delivered ∧ t.Over := by
  obtain ⟨stride, next, taken⟩ := Option.map_eq_some_iff.mp made
  have scene : (s.absorb stride).1 = t := congrArg Prod.fst taken
  have result : stride.result = some told := congrArg Prod.snd taken
  subst scene
  have stocked := coherent.stocked
  have still : ∀ aim, s.place .consumer ≠ .move aim := by
    intro aim here
    have suits := coherent.guarded.suits .consumer
    rw [here] at suits next
    cases next
    obtain ⟨left, moves⟩ := stocked.stocks.act coherent.guarded.ordered suits.1 aim
    have silent := (stocked.moved (by rw [here]; rfl) moves).1
    cases silent.symm.trans result
  obtain ⟨aim, here, gives, made, short⟩ :=
    Place.stride_disconnects still next (stocked.untold .consumer) result disconnects
  subst made
  have gone : s.queue.closed .producer = true := (coherent.departs .consumer).asked aim here
  have left := (coherent.departs .producer).closed gone
  have shown : s.queue.Shown .producer :=
    (coherent.departs .producer).shown (by rcases left with same | same <;> rw [same] <;> rfl)
  have posted : s.queue.producer.post.index = s.queue.producer.cursor.position :=
    coherent.guarded.ordered.producer_posted.trans shown
  have reached := Queue.producer_still short
  have nothing : items = [] := by
    have length := stocked.stocks.length_eq
    rw [← posted, reached, Index.span_self] at length
    exact List.length_eq_zero_iff.mp length.symm
  refine ⟨⟨aim, gives⟩, ?_, ?_⟩
  · have balance := stocked.balance
    have silent : (s.place .producer).untold = none := by
      rcases left with same | same <;> rw [same] <;> rfl
    rw [silent, here, nothing] at balance
    simpa [Place.untold] using balance
  · let stride : Stride α .consumer := ⟨s.queue.refresh .consumer, .rest, told⟩
    have beside : (s.absorb stride).1.place .producer = s.place .producer :=
      s.absorb_place_peer stride
    exact ⟨by rwa [← beside] at left, ⟨gone, reached, reached⟩,
      .inr (.inl (s.absorb_place_self stride))⟩

/-- A consumer that is told of the end of its peer has been given everything before, in whatever order
the two parties make their accesses. From then on each of its calls fails in the same way, within four
of its own accesses, and none of them ever waits. -/
theorem disconnection_is_final {settings : Settings} {fresh : Queue α}
    {before : List (Access α)} {earlier : List (Result α)} {told : Result α}
    (opened : Queue.ofSettings settings = .ok fresh)
    (reached : (ofQueue fresh).run before = some (s, earlier))
    (answered : s.step (.go .consumer) = some (t, some told))
    (disconnects : told.disconnects = true) :
    (∃ aim : Aim α .consumer, told = aim.giveUp) ∧ t.queue.closed .producer = true ∧
      earlier.filterMap Result.accepted = earlier.flatMap Result.delivered ∧
      ∀ more u later, t.run more = some (u, later) →
        (∀ result ∈ later, ∃ aim : Aim α .consumer, result = aim.giveUp) ∧
          ∀ (aim : Aim α .consumer) rest w last,
            u.run (.enter .consumer (.pursue aim) :: rest) = some (w, last) →
            (4 ≤ rest.countP (Access.goes .consumer) → last.head? = some aim.giveUp) ∧
              (last = [] → (w.step (.go .consumer)).isSome = true) := by
  obtain ⟨left, coherent⟩ := (coherent_of_opened opened).run reached
  rw [List.nil_append] at coherent
  obtain ⟨gives, balanced, done⟩ := coherent.ended answered disconnects
  refine ⟨gives, done.drained.closed, balanced, fun more u later run => ?_⟩
  obtain ⟨still, failing, _⟩ := done.run run
  refine ⟨failing, fun aim rest w last run => ?_⟩
  obtain ⟨begun, silence, later, first, onward, rfl⟩ := of_run_cons run
  obtain ⟨_, after, rfl, begins⟩ := still.enter first
  obtain ⟨n, few, doomed⟩ := Task.entry_doomed aim
  rw [← begins] at doomed
  obtain ⟨final, _, goesOn⟩ := after.run onward
  rw [Option.toList_none, List.nil_append]
  rcases goesOn aim n doomed with ends | ⟨_, m, doomed, count⟩
  · refine ⟨fun _ => ends, fun none => ?_⟩
    rw [none] at ends
    cases ends
  · have some := Place.doomed_pos doomed
    refine ⟨fun enough => absurd enough (by omega), fun _ => ?_⟩
    obtain ⟨k, rfl⟩ : ∃ k, m = k + 1 := ⟨m - 1, by omega⟩
    obtain ⟨next, goes, _⟩ := final.go_doomed doomed
    rw [goes]
    rfl

/-- A deferred item is shown and the producer leaves between the look with which the consumer finds nothing
and the moment in which it learns of that. The consumer still gets the item, and is told of the end in
its next call. -/
def lateFarewell : List (Access Nat) :=
  .enter .consumer (.pursue .tryPop) :: .go .consumer ::
    .enter .producer (.pursue (.call (.push 7 false))) :: List.replicate 3 (.go .producer) ++
    .enter .producer (.leave .producer) :: List.replicate 3 (.go .producer) ++
    List.replicate 5 (.go .consumer) ++
    .enter .consumer (.pursue (.call .pop)) :: List.replicate 2 (.go .consumer)

theorem disconnection_is_final_late_farewell :
    ∃ (fresh : Queue Nat) (s t : Scene Nat),
      Queue.ofSettings ⟨1, by decide, 0, 0, 18446744073709551615, .whenShort, 8⟩ = .ok fresh ∧
        (ofQueue fresh).run lateFarewell = some (s, [.push (.accepted 7), .tryPop (.ok 7)]) ∧
        s.step (.go .consumer) = some (t, some (.pop (.error .disconnected))) ∧
        Result.disconnects (.pop (.error .disconnected) : Result Nat) = true ∧
        t.queue.closed .producer = true ∧
        ∀ more u later, t.run more = some (u, later) →
          ∀ result ∈ later, ∃ aim : Aim Nat .consumer, result = aim.giveUp := by
  suffices reached : ∃ (fresh : Queue Nat) (s t : Scene Nat),
      Queue.ofSettings ⟨1, by decide, 0, 0, 18446744073709551615, .whenShort, 8⟩ = .ok fresh ∧
        (ofQueue fresh).run lateFarewell = some (s, [.push (.accepted 7), .tryPop (.ok 7)]) ∧
        s.step (.go .consumer) = some (t, some (.pop (.error .disconnected))) by
    obtain ⟨fresh, s, t, opened, run, answered⟩ := reached
    obtain ⟨_, gone, _, final⟩ := disconnection_is_final opened run answered rfl
    exact ⟨fresh, s, t, opened, run, answered, rfl, gone,
      fun more u later onward => (final more u later onward).1⟩
  exact ⟨_, _, _, rfl, rfl, rfl⟩

end Scene

end SpscQueue
