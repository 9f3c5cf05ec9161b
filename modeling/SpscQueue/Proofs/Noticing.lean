import SpscQueue.Proofs.Footing

namespace SpscQueue

universe u

variable {α : Type u} {role : Role} {q next : Queue α}

namespace Place

/-- Whether a party has found its peer there and goes on waiting for it. -/
def waits : Place α role → Bool
  | look (.spun _) _ => true
  | look .slept _ => true
  | enrol _ => true
  | recheck _ => true
  | parked _ => true
  | announce goal => goal.rechecks
  | heed _ goal => goal.rechecks
  | tally goal => goal.rechecks
  | count _ goal => goal.rechecks
  | rouse goal => goal.rechecks
  | _ => false

/-- Whether a party has passed the step that its peer asks for and is on the way to raise the
peer's signal. -/
def owes (q : Queue α) : Place α role → Bool
  | heed old _ => Index.passes old (q.position role) (q.side role).post.threshold
  | tally _ => true
  | count _ _ => true
  | rouse _ => true
  | _ => false

end Place

/-- Nothing that both parties can read has changed, and nothing of the other party's books. -/
structure Queue.Unseen (role : Role) (q next : Queue α) : Prop where
  capacity : next.capacity = q.capacity
  cursor : (next.side role.peer).cursor = (q.side role.peer).cursor
  post (who : Role) : (next.side who).post = (q.side who).post
  signalled (who : Role) : next.signalled who = q.signalled who
  closed (who : Role) : next.closed who = q.closed who

namespace Queue

theorem Unseen.refl (role : Role) (q : Queue α) : Unseen role q q :=
  ⟨rfl, rfl, fun _ => rfl, fun _ => rfl, fun _ => rfl⟩

theorem unseen_refresh (q : Queue α) (role : Role) : Unseen role q (q.refresh role) := by
  cases role <;>
    exact ⟨rfl, rfl, fun who => by cases who <;> rfl, fun who => by cases who <;> rfl,
      fun who => by cases who <;> rfl⟩

theorem unseen_look (q : Queue α) (role : Role) : Unseen role q (q.look role) := by
  rcases q.look_eq_or role with ⟨same, _⟩ | fresh
  · rw [same]
    exact .refl role q
  · rw [fresh]
    exact q.unseen_refresh role

theorem unseen_advance (q : Queue α) (ring : Ring α) (steps : UInt64) :
    Unseen .producer q { q with ring, producer.cursor := q.producer.cursor.advance steps } ∧
      Unseen .consumer q { q with ring, consumer.cursor := q.consumer.cursor.advance steps } :=
  ⟨⟨rfl, rfl, fun who => by cases who <;> rfl, fun who => by cases who <;> rfl,
      fun who => by cases who <;> rfl⟩,
    ⟨rfl, rfl, fun who => by cases who <;> rfl, fun who => by cases who <;> rfl,
      fun who => by cases who <;> rfl⟩⟩

theorem store_unseen (q : Queue α) (item : α) (force : Bool) (name : Admission α → Result α) :
    Unseen .producer q (q.store item force name).queue ∧
      (q.store item force name).place.waits = false := by
  unfold store
  split
  · exact ⟨.refl _ q, rfl⟩
  · refine ⟨(q.unseen_advance _ 1).1, ?_⟩
    cases force <;> rfl

theorem fetch_unseen (q : Queue α) (name : Except PopFailure α → Result α) :
    Unseen .consumer q (q.fetch name).queue ∧ (q.fetch name).place.waits = false := by
  unfold fetch
  split
  · exact ⟨.refl _ q, rfl⟩
  · exact ⟨(q.unseen_advance _ 1).2, rfl⟩

theorem fetchKnown_unseen (q : Queue α) :
    Unseen .consumer q q.fetchKnown.queue ∧ q.fetchKnown.place.waits = false := by
  unfold fetchKnown
  split
  · exact ⟨.refl _ q, rfl⟩
  · exact ⟨(q.unseen_advance _ _).2, rfl⟩

end Queue

theorem Aim.act_unseen (q : Queue α) (aim : Aim α role) :
    Queue.Unseen role q (aim.act q).queue ∧ (aim.act q).place.waits = false := by
  cases aim with
  | tryPush item => exact q.store_unseen item true _
  | tryPop => exact q.fetch_unseen _
  | call call =>
    cases call with
    | push item force => exact q.store_unseen item force _
    | pop => exact q.fetch_unseen _
    | popBatch => exact q.fetchKnown_unseen

/-- What one party leaves alone: the books of the other party, what that asks for, and its signal once
raised. -/
structure Queue.Heeds (role : Role) (q next : Queue α) : Prop where
  capacity : next.capacity = q.capacity
  cursor : (next.side role).cursor = (q.side role).cursor
  threshold : (next.side role.peer).post.threshold = (q.side role.peer).post.threshold
  signalled : q.signalled role = true → next.signalled role = true

section

variable {place : Place α role} {stride : Stride α role}

namespace Place

/-- What one access does to what both parties can read. Most accesses do nothing to it. -/
inductive Touches (q : Queue α) (place : Place α role) (stride : Stride α role) : Prop
  | nothing : Queue.Unseen role q stride.queue → place ≠ .knock →
      (place.owes q = true → stride.place.owes stride.queue = true) →
      (stride.place.waits = true → place.waits = true ∨ q.closed role.peer = false) →
      (∀ call, stride.place = .parked call → place = .recheck call ∧
        stride.queue = q.refresh role ∧ (q.refresh role).ready role = false) →
      Touches q place stride
  | asked (call : Call α role) : place = .enrol call → stride.place = .afterEnrol call →
      stride.queue = q.watch (q.threshold role) role → Touches q place stride
  | announced (goal : Goal α role) : place = .announce goal →
      stride.place = .heed (q.side role).cursor.published goal →
      stride.queue = q.withSide role
        { q.side role with
          cursor := { (q.side role).cursor with published := q.position role }
          post := { (q.side role).post with index := q.position role } } → Touches q place stride
  | counted (wakeups : UInt64) (goal : Goal α role) : place = .count wakeups goal →
      stride.place = .rouse goal →
      stride.queue = q.withSide role { q.side role with post.wakeups := wakeups + 1 } →
      Touches q place stride
  | roused (goal : Goal α role) : place = .rouse goal → stride.place = (goal.reach q).place →
      stride.queue = q.raise role.peer → Touches q place stride
  | woken (call : Call α role) : stride.place.waits = false → place = .parked call →
      stride.queue = q.hush role → Touches q place stride
  | shut : place = .shut → stride.place = .knock →
      stride.queue = q.withSide role { q.side role with closed := true } → Touches q place stride
  | knocked : place = .knock → stride.place = .gone → stride.queue = q.raise role.peer →
      Touches q place stride

end Place

theorem Goal.reach_place (q next : Queue α) (goal : Goal α role) :
    (goal.reach q).queue = q ∧ (goal.reach q).place = (goal.reach next).place ∧
      (goal.reach q).place.waits = goal.rechecks ∧ (goal.reach q).place.owes next = false ∧
      ∀ call, (goal.reach q).place ≠ .parked call := by
  cases goal <;> exact ⟨rfl, rfl, rfl, rfl, fun _ same => nomatch same⟩

/-- A look that is not enough makes a party wait only if it waits already. -/
theorem Aim.short_waits (q : Queue α) (check : Check) (aim : Aim α role) :
    (aim.short q check).queue = q ∧
      ((aim.short q check).place.waits = true → (Place.look check aim).waits = true) ∧
      ∀ call, (aim.short q check).place ≠ .parked call := by
  cases aim with
  | tryPush => cases check <;> exact ⟨rfl, (fun waits => nomatch waits), fun _ same => nomatch same⟩
  | tryPop => cases check <;> exact ⟨rfl, (fun waits => nomatch waits), fun _ same => nomatch same⟩
  | call call =>
    cases check with
    | first => exact ⟨rfl, (fun waits => nomatch waits), fun _ same => nomatch same⟩
    | woken => exact ⟨rfl, (fun waits => nomatch waits), fun _ same => nomatch same⟩
    | spun => exact ⟨rfl, fun _ => rfl, fun _ same => nomatch same⟩
    | slept => exact ⟨rfl, fun _ => rfl, fun _ same => nomatch same⟩

theorem Place.stride_touches (next : place.stride q = some stride) : place.Touches q stride := by
  have unheard {after : Stride α role} (unseen : Queue.Unseen role q after.queue)
      (here : place ≠ .knock) (owes : place.owes q = false)
      (waits : after.place.waits = true → place.waits = true ∨ q.closed role.peer = false)
      (awake : ∀ call, after.place ≠ .parked call) : place.Touches q after :=
    .nothing unseen here (fun owed => by rw [owes] at owed; cases owed) waits
      fun call same => absurd same (awake call)
  cases place with
  | rest => cases next
  | gone => cases next
  | glance call =>
    cases next
    exact unheard (q.unseen_refresh role) (by simp) rfl (fun waits => by cases waits)
      (by simp)
  | look check aim =>
    cases next
    split
    · exact unheard (q.unseen_look role) (by simp) rfl (fun waits => by cases waits)
        (by simp)
    · obtain ⟨same, waits, awake⟩ := aim.short_waits (q.look role) check
      refine unheard ?_ (by simp) rfl (fun later => .inl (waits later)) awake
      rw [same]
      exact q.unseen_look role
  | ask aim =>
    cases next
    split
    · cases role <;>
        exact unheard (.refl _ q) (by simp) rfl (fun waits => by cases waits)
          (by simp [Aim.absent])
    · rename_i present
      have there := Bool.eq_false_iff.mpr present
      cases aim <;>
        exact unheard (.refl _ q) (by simp) rfl (fun _ => .inr there)
          (by simp [Aim.present])
  | lastLook aim =>
    cases next
    split <;>
      exact unheard (q.unseen_refresh role) (by simp) rfl
        (fun waits => by cases waits) (by simp)
  | enrol call =>
    cases next
    exact .asked call rfl rfl rfl
  | recheck call =>
    cases next
    split
    · exact unheard (q.unseen_refresh role) (by simp) rfl
        (fun waits => by cases waits) (by simp)
    · rename_i still
      refine .nothing (q.unseen_refresh role) (by simp) (fun owed => by cases owed)
        (fun _ => .inl rfl) ?_
      intro other same
      cases same
      exact ⟨rfl, rfl, Bool.eq_false_iff.mpr still⟩
  | parked call =>
    rw [Place.stride] at next
    split at next
    · cases next
      exact .woken call rfl rfl rfl
    · cases next
  | move aim =>
    cases next
    obtain ⟨unseen, waits⟩ := aim.act_unseen q
    have rests {after : Place α role} (same : (aim.act q).place = after) : after.waits = false := by
      rw [← same, waits]
    refine unheard unseen (by simp) rfl (fun later => ?_) fun call same => ?_
    · rw [waits] at later
      cases later
    · cases rests same
  | peek result =>
    cases next
    split <;>
      exact unheard (.refl _ q) (by simp) rfl (fun waits => by cases waits)
        (by simp)
  | announce goal =>
    cases next
    split
    · obtain ⟨queue, _, waits, _, awake⟩ := goal.reach_place q q
      refine unheard ?_ (by simp) rfl (fun later => .inl (waits.symm.trans later)) awake
      rw [queue]
      exact .refl role q
    · exact .announced goal rfl rfl rfl
  | heed old goal =>
    cases next
    split
    · exact .nothing (.refl _ q) (by simp) (fun _ => rfl) (fun waits => .inl waits)
        (by simp)
    · rename_i passed
      obtain ⟨queue, _, waits, _, awake⟩ := goal.reach_place q q
      refine unheard ?_ (by simp) (Bool.eq_false_iff.mpr passed)
        (fun later => .inl (waits.symm.trans later)) awake
      rw [queue]
      exact .refl role q
  | tally goal =>
    cases next
    exact .nothing (.refl _ q) (by simp) (fun _ => rfl) (fun waits => .inl waits)
      (by simp)
  | count wakeups goal =>
    cases next
    exact .counted wakeups goal rfl rfl rfl
  | rouse goal =>
    cases next
    obtain ⟨queue, place, _⟩ := goal.reach_place (q.raise role.peer) q
    exact .roused goal rfl place queue
  | shut =>
    cases next
    exact .shut rfl rfl rfl
  | knock =>
    cases next
    exact .knocked rfl rfl rfl

namespace Queue

theorem Unseen.heeds (unseen : Unseen role q next) : Heeds role.peer q next := by
  refine ⟨unseen.capacity, unseen.cursor, ?_, ?_⟩
  · rw [unseen.post]
  · rw [unseen.signalled]
    exact id

theorem heeds_raise (q : Queue α) (role who : Role) : Heeds who q (q.raise role) := by
  cases role <;> cases who <;> first | exact ⟨rfl, rfl, rfl, id⟩ | exact ⟨rfl, rfl, rfl, fun _ => rfl⟩

theorem raise_signalled (q : Queue α) (role : Role) : (q.raise role).signalled role = true := by
  cases role <;> rfl

theorem raise_overdue (q : Queue α) (role who : Role) :
    (q.raise role).overdue who = q.overdue who := by
  cases role <;> cases who <;> rfl

theorem Unseen.overdue (unseen : Unseen role q next) (who : Role) :
    next.overdue who = q.overdue who := by
  unfold Queue.overdue
  rw [unseen.post]

theorem heeds_withSide (q : Queue α) (role : Role) {side : Side}
    (threshold : side.post.threshold = (q.side role).post.threshold) :
    Heeds role.peer q (q.withSide role side) := by
  cases role <;> exact ⟨rfl, rfl, threshold, id⟩

theorem heeds_watch (q : Queue α) (threshold : Index) (role : Role) :
    Heeds role.peer q (q.watch threshold role) := by
  cases role <;> exact ⟨rfl, rfl, rfl, id⟩

theorem heeds_hush (q : Queue α) (role : Role) : Heeds role.peer q (q.hush role) := by
  cases role <;> exact ⟨rfl, rfl, rfl, id⟩

/-- A party may rely on whatever the other one leaves alone. -/
theorem Heeds.suits (heeds : Heeds role q next) {place : Place α role} (suits : q.Suits place) :
    next.Suits place := by
  obtain ⟨capacity, cursor, threshold, _⟩ := heeds
  have shown : q.Shown role → next.Shown role := by
    unfold Shown position
    rw [cursor]
    exact id
  have ready : next.ready role = q.ready role := by
    cases role with
    | producer =>
      have same : next.producer.cursor = q.producer.cursor := cursor
      simp only [Queue.ready, same, capacity]
    | consumer =>
      have same : next.consumer.cursor = q.consumer.cursor := cursor
      simp only [Queue.ready, same]
  have settled : q.Settled role → next.Settled role := by
    cases role with
    | producer => exact id
    | consumer => exact shown
  have asks : q.Asks role → next.Asks role := by
    cases role with
    | producer =>
      have same : next.producer.cursor = q.producer.cursor := cursor
      have mark : next.consumer.post.threshold = q.consumer.post.threshold := threshold
      rintro ⟨short, watched⟩
      refine ⟨ready.trans short, ?_⟩
      unfold ahead at watched ⊢
      rwa [same, mark]
    | consumer =>
      have same : next.consumer.cursor = q.consumer.cursor := cursor
      have mark : next.producer.post.threshold = q.producer.post.threshold := threshold
      intro asked
      exact mark.trans (asked.trans (congrArg Cursor.position same).symm)
  cases place with
  | move => exact ⟨ready.trans suits.1, settled suits.2⟩
  | enrol => exact ⟨ready.trans suits.1, settled suits.2⟩
  | recheck => exact ⟨asks suits.1, shown suits.2⟩
  | parked => exact ⟨asks suits.1, shown suits.2⟩
  | announce => exact fun goes => asks (suits goes)
  | heed => exact ⟨fun goes => asks (suits.1 goes), shown suits.2⟩
  | tally => exact ⟨fun goes => asks (suits.1 goes), shown suits.2⟩
  | count => exact ⟨fun goes => asks (suits.1 goes), shown suits.2⟩
  | rouse => exact ⟨fun goes => asks (suits.1 goes), shown suits.2⟩
  | _ => exact settled suits

end Queue

namespace Place.Touches

variable (touches : place.Touches q stride)

include touches

theorem heeds : Queue.Heeds role.peer q stride.queue := by
  cases touches with
  | nothing unseen => exact unseen.heeds
  | asked _ _ _ queue => rw [queue]; exact q.heeds_watch _ role
  | announced _ _ _ queue => rw [queue]; exact q.heeds_withSide role rfl
  | counted _ _ _ _ queue => rw [queue]; exact q.heeds_withSide role rfl
  | roused _ _ _ queue => rw [queue]; exact q.heeds_raise role.peer role.peer
  | woken _ _ _ queue => rw [queue]; exact q.heeds_hush role
  | shut _ _ queue => rw [queue]; exact q.heeds_withSide role rfl
  | knocked _ _ queue => rw [queue]; exact q.heeds_raise role.peer role.peer

/-- The end of a handle is followed by a signal. -/
theorem closes (gone : stride.queue.closed role = true) :
    stride.queue.signalled role.peer = true ∨ stride.place = .knock ∨
      q.closed role = true ∧ place ≠ .knock := by
  have other {p : Queue α} (queue : stride.queue = p) (same : p.closed role = q.closed role)
      (here : place ≠ .knock) : q.closed role = true ∧ place ≠ .knock := by
    rw [queue, same] at gone
    exact ⟨gone, here⟩
  cases touches with
  | nothing unseen here => exact .inr (.inr (other rfl (unseen.closed role) here))
  | asked _ here _ queue =>
    exact .inr (.inr (other queue (by cases role <;> rfl) (by rw [here]; exact fun same => nomatch same)))
  | announced _ here _ queue =>
    exact .inr (.inr (other queue (by cases role <;> rfl) (by rw [here]; exact fun same => nomatch same)))
  | counted _ _ here _ queue =>
    exact .inr (.inr (other queue (by cases role <;> rfl) (by rw [here]; exact fun same => nomatch same)))
  | roused _ _ _ queue => rw [queue]; exact .inl (q.raise_signalled role.peer)
  | woken _ _ here queue =>
    exact .inr (.inr (other queue (by cases role <;> rfl) (by rw [here]; exact fun same => nomatch same)))
  | shut _ place => exact .inr (.inl place)
  | knocked _ _ queue => rw [queue]; exact .inl (q.raise_signalled role.peer)

/-- Who is on the way to raise a signal stays on the way until it has raised it. -/
theorem owes (owed : place.owes q = true) :
    stride.queue.signalled role.peer = true ∨ stride.place.owes stride.queue = true := by
  cases touches with
  | nothing _ _ owes => exact .inr (owes owed)
  | asked _ here => rw [here] at owed; cases owed
  | announced _ here => rw [here] at owed; cases owed
  | counted _ _ _ place => rw [place]; exact .inr rfl
  | roused _ _ _ queue => rw [queue]; exact .inl (q.raise_signalled role.peer)
  | woken _ _ here => rw [here] at owed; cases owed
  | shut here => rw [here] at owed; cases owed
  | knocked here => rw [here] at owed; cases owed

/-- Who shows a move that passes the step asked for is on the way to raise the signal. -/
theorem passes (posted : (q.side role).post.index = (q.side role).cursor.published)
    (due : stride.queue.overdue role.peer = true) :
    q.overdue role.peer = true ∨ stride.place.owes stride.queue = true := by
  cases touches with
  | nothing unseen => exact .inl ((unseen.overdue role.peer).symm.trans due)
  | asked _ _ _ queue => rw [queue] at due; exact .inl (by cases role <;> exact due)
  | announced goal _ place queue =>
    rw [place]
    rw [queue] at due ⊢
    cases before : q.overdue role.peer with
    | true => exact .inl rfl
    | false =>
      refine .inr ?_
      cases role with
      | producer =>
        have early : q.producer.post.threshold.behind q.producer.cursor.published = false := by
          rw [← show q.producer.post.index = q.producer.cursor.published from posted]
          exact before
        have late : q.producer.post.threshold.behind q.producer.cursor.position = true := due
        show Index.passes q.producer.cursor.published q.producer.cursor.position
          q.producer.post.threshold = true
        rw [Index.passes, early, late]
        rfl
      | consumer =>
        have early : q.consumer.post.threshold.behind q.consumer.cursor.published = false := by
          rw [← show q.consumer.post.index = q.consumer.cursor.published from posted]
          exact before
        have late : q.consumer.post.threshold.behind q.consumer.cursor.position = true := due
        show Index.passes q.consumer.cursor.published q.consumer.cursor.position
          q.consumer.post.threshold = true
        rw [Index.passes, early, late]
        rfl
  | counted _ _ _ _ queue => rw [queue] at due; exact .inl (by cases role <;> exact due)
  | roused _ _ _ queue =>
    rw [queue, Queue.raise_overdue] at due
    exact .inl due
  | woken _ _ _ queue => rw [queue] at due; exact .inl (by cases role <;> exact due)
  | shut _ _ queue => rw [queue] at due; exact .inl (by cases role <;> exact due)
  | knocked _ _ queue =>
    rw [queue, Queue.raise_overdue] at due
    exact .inl due

/-- Who goes on to wait has just found its peer there, or waited before and has kept its signal. -/
theorem stays (waits : stride.place.waits = true) :
    stride.queue.closed role.peer = q.closed role.peer ∧
      (q.closed role.peer = false ∨
        place.waits = true ∧ stride.queue.signalled role = q.signalled role) := by
  cases touches with
  | nothing unseen _ _ before =>
    refine ⟨unseen.closed _, ?_⟩
    rcases before waits with waited | present
    · exact .inr ⟨waited, unseen.signalled role⟩
    · exact .inl present
  | asked _ here _ queue =>
    rw [queue, here]
    exact ⟨by cases role <;> rfl, .inr ⟨rfl, by cases role <;> rfl⟩⟩
  | announced goal here place queue =>
    rw [place] at waits
    rw [queue, here]
    exact ⟨by cases role <;> rfl, .inr ⟨waits, by cases role <;> rfl⟩⟩
  | counted _ goal here place queue =>
    rw [place] at waits
    rw [queue, here]
    exact ⟨by cases role <;> rfl, .inr ⟨waits, by cases role <;> rfl⟩⟩
  | roused goal here place queue =>
    rw [place, (goal.reach_place q q).2.2.1] at waits
    rw [queue, here]
    exact ⟨by cases role <;> rfl, .inr ⟨waits, by cases role <;> rfl⟩⟩
  | woken _ awake => rw [awake] at waits; cases waits
  | shut _ place => rw [place] at waits; cases waits
  | knocked _ place => rw [place] at waits; cases waits

/-- Who parks has checked once more before. -/
theorem parks {call : Call α role} (parked : stride.place = .parked call) :
    place = .recheck call ∧ stride.queue = q.refresh role ∧ (q.refresh role).ready role = false := by
  cases touches with
  | nothing _ _ _ _ checked => exact checked call parked
  | asked _ _ place => rw [place] at parked; cases role <;> cases parked
  | announced _ _ place => rw [place] at parked; cases parked
  | counted _ _ _ place => rw [place] at parked; cases parked
  | roused goal _ place => exact absurd (place.symm.trans parked) ((goal.reach_place q q).2.2.2.2 call)
  | woken _ awake => rw [parked] at awake; cases awake
  | shut _ place => rw [place] at parked; cases parked
  | knocked _ place => rw [place] at parked; cases parked

end Place.Touches

end

theorem Task.entry_waits (task : Task α role) :
    task.entry.waits = false ∧ ∀ call, task.entry ≠ .parked call := by
  cases task with
  | flush => exact ⟨rfl, fun _ same => nomatch same⟩
  | leave role => cases role <;> exact ⟨rfl, fun _ same => nomatch same⟩
  | pursue aim =>
    cases aim with
    | tryPush => exact ⟨rfl, fun _ same => nomatch same⟩
    | tryPop => exact ⟨rfl, fun _ same => nomatch same⟩
    | call call => cases call <;> exact ⟨rfl, fun _ same => nomatch same⟩

end SpscQueue
