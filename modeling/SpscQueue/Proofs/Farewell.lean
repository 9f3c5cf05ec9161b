import SpscQueue.Proofs.Stock

namespace SpscQueue

universe u

variable {α : Type u} {role : Role} {q : Queue α}

section

variable {place : Place α role} {stride : Stride α role}

/-- Whether a party is on its way out, or out. -/
def Place.parts : Place α role → Bool
  | .shut => true
  | .knock => true
  | .gone => true
  | _ => false

/-- Whether a party neither leaves nor looks for what its peer has left. -/
def Place.onward : Place α role → Bool
  | .lastLook _ => false
  | place => !place.parts

theorem Place.not_parts_of_onward (onward : place.onward = true) : place.parts = false := by
  cases place <;> first | rfl | cases onward

/-- A party that is on its way out has shown all its steps, and it is done with everything else when its
handle is gone. It looks for the last time only when its peer is gone. -/
structure Queue.Departs (q : Queue α) {role : Role} (place : Place α role) : Prop where
  shown : place.parts = true → q.Shown role
  closed : q.closed role = true → place = .knock ∨ place = .gone
  asked (aim : Aim α role) : place = .lastLook aim → q.closed role.peer = true

theorem Queue.Departs.of_onward (onward : place.onward = true) (present : q.closed role = false) :
    q.Departs place where
  shown parts := by
    rw [Place.not_parts_of_onward onward] at parts
    cases parts
  closed gone := by
    rw [present] at gone
    cases gone
  asked aim here := by
    subst here
    cases onward

/-! Where one access leads. -/

theorem Aim.short_onward (q : Queue α) (check : Check) (aim : Aim α role) :
    (aim.short q check).place.onward = true := by
  cases aim with
  | tryPush | tryPop => cases check <;> rfl
  | call call => cases check <;> rfl

theorem Aim.act_onward (q : Queue α) (aim : Aim α role) : (aim.act q).place.onward = true := by
  have store (p : Queue α) (item : α) (force : Bool) (name : Admission α → Result α) :
      (p.store item force name).place.onward = true := by
    unfold Queue.store
    split
    · rfl
    · cases force <;> rfl
  have fetch (p : Queue α) (name : Except PopFailure α → Result α) :
      (p.fetch name).place.onward = true := by
    unfold Queue.fetch
    split <;> rfl
  cases aim with
  | tryPush item => exact store q item true _
  | tryPop => exact fetch q _
  | call call =>
    cases call with
    | push item force => exact store q item force _
    | pop => exact fetch q _
    | popBatch =>
      show q.fetchKnown.place.onward = true
      unfold Queue.fetchKnown
      split <;> rfl

theorem Goal.reach_onward (q : Queue α) (goal : Goal α role) :
    (goal.reach q).place.onward = true ∨ (goal.reach q).place = .shut := by
  cases goal with
  | rest => exact .inl rfl
  | recheck => exact .inl rfl
  | leave => exact .inr rfl

/-- A party goes out when it has shown all its steps, and it looks for the last time when it has found its
peer gone. -/
inductive Place.Turns (q : Queue α) (place : Place α role) (stride : Stride α role) : Prop
  | onward : stride.place.onward = true → Turns q place stride
  | looks (aim : Aim α role) : place = .ask aim → stride.place = .lastLook aim → stride.queue = q →
      q.closed role.peer = true → Turns q place stride
  | leaves : place.parts = false → stride.place = .shut → stride.queue.Shown role →
      Turns q place stride
  | shut : place = .shut → stride.place = .knock → Turns q place stride
  | knocked : place = .knock → stride.place = .gone → Turns q place stride

theorem Place.stride_turns (suits : q.Suits place) (next : place.stride q = some stride) :
    place.Turns q stride := by
  have reaches {after : Queue α} (goal : Goal α role) (here : place.parts = false)
      (same : (goal.reach after).queue = after) (shown : after.Shown role) :
      place.Turns q (goal.reach after) := by
    rcases goal.reach_onward after with onward | shuts
    · exact .onward onward
    · exact .leaves here shuts (by rwa [same])
  cases place with
  | rest | gone => cases next
  | glance | tally | count =>
    cases next
    exact .onward rfl
  | look check aim =>
    cases next
    split
    · exact .onward rfl
    · exact .onward (aim.short_onward _ check)
  | ask aim =>
    cases next
    split
    · rename_i gone
      cases role with
      | producer => exact .onward rfl
      | consumer => exact .looks aim rfl rfl rfl gone
    · exact .onward (by cases aim <;> rfl)
  | lastLook aim =>
    cases next
    split <;> exact .onward rfl
  | enrol call =>
    cases next
    exact .onward (by cases role <;> rfl)
  | recheck call =>
    cases next
    split <;> exact .onward rfl
  | parked call =>
    rw [Place.stride] at next
    split at next
    · cases next
      exact .onward rfl
    · cases next
  | move aim =>
    cases next
    exact .onward (aim.act_onward q)
  | peek result =>
    cases next
    refine .onward ?_
    dsimp only
    split <;> rfl
  | announce goal =>
    cases next
    dsimp only
    split
    · rename_i shown
      exact reaches goal rfl (goal.reach_unmoved q).1 shown
    · exact .onward rfl
  | heed old goal =>
    cases next
    split
    · exact .onward rfl
    · exact reaches goal rfl (goal.reach_unmoved q).1 suits.2
  | rouse goal =>
    cases next
    have shown : (q.raise role.peer).Shown role := by cases role <;> exact suits.2
    exact reaches goal rfl (goal.reach_unmoved _).1 shown
  | shut =>
    cases next
    exact .shut rfl rfl
  | knock =>
    cases next
    exact .knocked rfl rfl

namespace Place.Touches

variable (touches : place.Touches q stride)

include touches

/-- Nobody ends the handle of the other party. -/
theorem closed_peer : stride.queue.closed role.peer = q.closed role.peer := by
  cases touches with
  | nothing unseen => exact unseen.closed _
  | asked _ _ _ queue => rw [queue]; cases role <;> rfl
  | announced _ _ _ queue => rw [queue]; cases role <;> rfl
  | counted _ _ _ _ queue => rw [queue]; cases role <;> rfl
  | roused _ _ _ queue => rw [queue]; cases role <;> rfl
  | woken _ _ _ queue => rw [queue]; cases role <;> rfl
  | shut _ _ queue => rw [queue]; cases role <;> rfl
  | knocked _ _ queue => rw [queue]; cases role <;> rfl

/-- A party ends its own handle in one place only. -/
theorem closed_self : stride.queue.closed role = q.closed role ∨ place = .shut := by
  cases touches with
  | nothing unseen => exact .inl (unseen.closed _)
  | asked _ _ _ queue => rw [queue]; exact .inl (by cases role <;> rfl)
  | announced _ _ _ queue => rw [queue]; exact .inl (by cases role <;> rfl)
  | counted _ _ _ _ queue => rw [queue]; exact .inl (by cases role <;> rfl)
  | roused _ _ _ queue => rw [queue]; exact .inl (by cases role <;> rfl)
  | woken _ _ _ queue => rw [queue]; exact .inl (by cases role <;> rfl)
  | shut here => exact .inr here
  | knocked _ _ queue => rw [queue]; exact .inl (by cases role <;> rfl)

theorem closed_mono {who : Role} (gone : q.closed who = true)
    (stays : place = .shut → stride.queue.closed role = true) :
    stride.queue.closed who = true := by
  rcases role.eq_or_eq_peer who with rfl | rfl
  · rcases touches.closed_self with same | here
    · rw [same, gone]
    · exact stays here
  · rw [touches.closed_peer, gone]

end Place.Touches

theorem Place.shut_closes (here : place = .shut) (next : place.stride q = some stride) :
    stride.queue.closed role = true := by
  subst here
  cases next
  cases role <;> rfl

/-- What a departing party relies on, its peer leaves alone. -/
theorem Queue.Departs.beside (departs : q.Departs place) {other : Place α role.peer}
    {stride : Stride α role.peer} (next : other.stride q = some stride) :
    stride.queue.Departs place := by
  have touches := Place.stride_touches next
  have heeds := touches.heeds
  rw [role.peer_peer] at heeds
  have closed := touches.closed_peer
  rw [role.peer_peer] at closed
  constructor
  · intro parts
    have before := departs.shown parts
    unfold Queue.Shown Queue.position at before ⊢
    rwa [heeds.cursor]
  · rw [closed]
    exact departs.closed
  · intro aim here
    exact touches.closed_mono (departs.asked aim here) fun shut => Place.shut_closes shut next

theorem Place.stride_departs (suits : q.Suits place) (departs : q.Departs place)
    (next : place.stride q = some stride) : stride.queue.Departs stride.place := by
  have touches := Place.stride_touches next
  have open_of (awake : place ≠ .knock) (stays : place ≠ .shut) :
      stride.queue.closed role = false := by
    rw [touches.closed_self.resolve_right stays]
    refine Bool.eq_false_iff.mpr fun gone => ?_
    rcases departs.closed gone with same | same
    · exact awake same
    · subst same
      cases next
  cases Place.stride_turns suits next with
  | onward onward =>
    refine .of_onward onward (open_of ?_ ?_)
    · rintro rfl
      cases next
      cases onward
    · rintro rfl
      cases next
      cases onward
  | looks aim here there same gone =>
    have present := open_of (by rw [here]; exact fun same => nomatch same)
      (by rw [here]; exact fun same => nomatch same)
    rw [there]
    refine ⟨fun parts => (nomatch parts), fun left => ?_, fun _ _ => by rwa [same]⟩
    rw [present] at left
    cases left
  | leaves here there shown =>
    have present := open_of (by rintro rfl; cases here) (by rintro rfl; cases here)
    rw [there]
    refine ⟨fun _ => shown, fun left => ?_, fun _ same => nomatch same⟩
    rw [present] at left
    cases left
  | shut here there =>
    subst here
    rw [there]
    have shown := departs.shown rfl
    cases next
    refine ⟨fun _ => ?_, fun _ => .inl rfl, fun _ same => nomatch same⟩
    cases role <;> exact shown
  | knocked here there =>
    subst here
    rw [there]
    have shown := departs.shown rfl
    cases next
    refine ⟨fun _ => ?_, fun _ => .inr rfl, fun _ same => nomatch same⟩
    cases role <;> exact shown

theorem Task.entry_departs (settled : q.Settled role) (present : q.closed role = false)
    (task : Task α role) : q.Departs task.entry := by
  cases task with
  | flush => exact .of_onward rfl present
  | leave role =>
    cases role with
    | producer => exact .of_onward rfl present
    | consumer =>
      refine ⟨fun _ => settled, fun gone => ?_, fun _ same => nomatch same⟩
      rw [present] at gone
      cases gone
  | pursue aim =>
    cases aim with
    | tryPush | tryPop => exact .of_onward rfl present
    | call call => cases call <;> exact .of_onward rfl present

end

namespace Scene

variable {s t : Scene α} {items : List α} {results : List (Result α)} {result : Option (Result α)}
  {access : Access α} {accesses : List (Access α)}

/-- All that is known of a scene at any time: nobody waits in vain, the items are accounted for, and
parties leave in order. -/
structure Coherent (s : Scene α) (results : List (Result α)) (items : List α) : Prop where
  guarded : s.Guarded
  stocked : s.Stocked results items
  departs (role : Role) : s.queue.Departs (s.place role)

theorem coherent_of_opened {settings : Settings} (opened : Queue.ofSettings settings = .ok q) :
    (ofQueue q).Coherent [] [] where
  guarded := guarded_ofQueue (Queue.ofSettings_ordered opened)
    (Queue.ofSettings_carries opened).consumer_published
  stocked := stocked_ofQueue (Queue.ofSettings_carries opened)
  departs role := by
    refine .of_onward rfl ?_
    show (q.side role).closed = false
    rw [Queue.ofSettings_side opened]
    rfl

theorem Coherent.step (coherent : s.Coherent results items)
    (made : s.step access = some (t, result)) :
    ∃ left, t.Coherent (results ++ result.toList) left := by
  obtain ⟨left, stocked⟩ := coherent.stocked.step coherent.guarded made
  refine ⟨left, coherent.guarded.step made, stocked, ?_⟩
  cases access with
  | enter role task =>
    have departs := coherent.departs role
    have other := coherent.departs role.peer
    have suits := coherent.guarded.suits role
    obtain ⟨here, rfl, _⟩ := of_step_enter made
    rw [here] at departs suits
    have present : s.queue.closed role = false := by
      refine Bool.eq_false_iff.mpr fun gone => ?_
      rcases departs.closed gone with same | same <;> cases same
    intro who
    rcases role.eq_or_eq_peer who with rfl | rfl
    · rw [absorb_place_self]
      exact task.entry_departs suits present
    · rw [absorb_place_peer]
      exact other
  | go role =>
    obtain ⟨stride, next, rfl, _⟩ := of_step_go made
    have own := Place.stride_departs (coherent.guarded.suits role) (coherent.departs role) next
    intro who
    rcases role.eq_or_eq_peer who with rfl | rfl
    · rw [absorb_place_self]
      exact own
    · rw [absorb_place_peer]
      have other := coherent.departs role.peer
      have moves : (s.place role.peer.peer).stride s.queue = some (role.peer_peer.symm ▸ stride) := by
        cases role <;> exact next
      have beside := other.beside moves
      cases role <;> exact beside

theorem Coherent.run (coherent : s.Coherent results items) {more : List (Result α)}
    (made : s.run accesses = some (t, more)) : ∃ left, t.Coherent (results ++ more) left := by
  induction accesses generalizing s results items more with
  | nil =>
    cases made
    exact ⟨items, by rwa [List.append_nil]⟩
  | cons access accesses ih =>
    obtain ⟨next, result, later, first, rest, rfl⟩ := of_run_cons made
    obtain ⟨middle, after⟩ := coherent.step first
    obtain ⟨left, final⟩ := ih after rest
    exact ⟨left, by rwa [← List.append_assoc]⟩

end Scene

end SpscQueue
