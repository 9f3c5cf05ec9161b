import SpscQueue.Proofs.Accounting

namespace SpscQueue

universe u

variable {α : Type u} {x y : Exchange α} {q next : Queue α} {items left : List α} {role : Role}

namespace Exchange

/-- The queue carries the given items, and nobody sleeps through what he waits for: a party in the
middle of a call still cannot move on by what it saw last, it knows by its signal if its peer is gone,
and if it is parked without a signal it watches for a step still to come. -/
structure Sound (x : Exchange α) (items : List α) : Prop where
  carries : x.queue.Carries items
  short (role : Role) : x.busy role = true → x.queue.ready role = false
  present (role : Role) : x.busy role = true → x.queue.closed role = false
  told (role : Role) : x.busy role = true → x.queue.closed role.peer = true →
    x.queue.signalled role = true
  watches (role : Role) : x.parked role = true → x.queue.signalled role = true ∨ x.queue.Watches role

theorem sound_ofQueue (carries : q.Carries items) : (ofQueue q).Sound items where
  carries := carries
  short role busy := by cases role <;> cases busy
  present role busy := by cases role <;> cases busy
  told role busy := by cases role <;> cases busy
  watches role parked := by cases role <;> cases parked

/-- What a party has done and where its call pauses now, if it does, preserves soundness as long as it
regards its peer. -/
theorem Sound.moved (sound : x.Sound items) (same : y.queue = next) (carries : next.Carries left)
    (regards : Queue.Regards role x.queue next)
    (other : y.current role.peer = x.current role.peer)
    (own : ∀ paused, y.current role = some paused →
      next.ready role = false ∧ next.closed role = false ∧
        (next.closed role.peer = true → next.signalled role = true) ∧
        (paused.pause = .park → next.Watches role)) : y.Sound left := by
  subst same
  have busyPeer (busy : y.busy role.peer = true) : x.busy role.peer = true := by
    rwa [Exchange.busy, other] at busy
  have parkedPeer (parked : y.parked role.peer = true) : x.parked role.peer = true := by
    rwa [Exchange.parked, pauseOf, other] at parked
  constructor
  · exact carries
  · intro who busy
    rcases role.eq_or_eq_peer who with rfl | rfl
    · obtain ⟨paused, current⟩ := busy_iff.mp busy
      exact (own paused current).1
    · rw [regards.ready]
      exact sound.short _ (busyPeer busy)
  · intro who busy
    rcases role.eq_or_eq_peer who with rfl | rfl
    · obtain ⟨paused, current⟩ := busy_iff.mp busy
      exact (own paused current).2.1
    · rw [regards.closed]
      exact sound.present _ (busyPeer busy)
  · intro who busy gone
    rcases role.eq_or_eq_peer who with rfl | rfl
    · obtain ⟨paused, current⟩ := busy_iff.mp busy
      exact (own paused current).2.2.1 gone
    · rw [Role.peer_peer] at gone
      rcases regards.leaves gone with before | raised
      · have told := sound.told _ (busyPeer busy)
        rw [Role.peer_peer] at told
        exact regards.signalled (told before)
      · exact raised
  · intro who parked
    rcases role.eq_or_eq_peer who with rfl | rfl
    · obtain ⟨call, current⟩ := parked_iff.mp parked
      exact Or.inr ((own _ current).2.2.2 rfl)
    · rcases sound.watches _ (parkedPeer parked) with raised | asked
      · exact Or.inl (regards.signalled raised)
      · exact regards.watches asked

/-- The turn leads to a sound exchange again, its result accounts for all items, and it tells of no
slot that was not as it should have been. -/
def AccountsFor (items : List α) (turn : Turn α) : Prop :=
  ∃ left, turn.exchange.Sound left ∧ items ++ turn.accepted = turn.delivered ++ left ∧
    ∀ result ∈ turn.result, result.faulty = false

theorem Sound.moved_idle (sound : x.Sound items) (same : y.queue = next)
    (carries : next.Carries left) (regards : Queue.Regards role x.queue next)
    (other : y.current role.peer = x.current role.peer) (idle : y.current role = none) :
    y.Sound left :=
  sound.moved same carries regards other fun paused current => by
    rw [idle] at current
    cases current

theorem Sound.of_accounts (sound : x.Sound items) {result : Option (Result α)} {events : List Event}
    (accounts : Queue.Accounts role x.queue items result next left)
    (same : y.queue = next) (other : y.current role.peer = x.current role.peer)
    (idle : y.current role = none) : AccountsFor items ⟨y, events, result⟩ := by
  exact ⟨left, sound.moved_idle same accounts.carries accounts.regards other idle,
    accounts.balance, accounts.sound⟩

/-- A call that ends accounts for all items, and one that pauses pauses in good order. -/
theorem Sound.arrive (sound : x.Sound items) (call : Call α role) {stretch : Stretch α}
    (keeps : stretch.Keeps role x.queue items) (present : x.queue.closed role = false) :
    AccountsFor items ((x.arrive call stretch).turn role) := by
  have other (queue : Queue α) (paused : Option (Paused α role)) :
      ({ x with queue }.withCurrent paused).current role.peer = x.current role.peer := by
    rw [current_withCurrent_peer, current_withQueue]
  cases wait : stretch.wait with
  | ready =>
    obtain ⟨left, accounts⟩ := Queue.finish_accounts keeps.carries call (keeps.ready wait)
    simp only [Exchange.arrive, wait]
    exact sound.of_accounts (accounts.of_regards keeps.regards keeps.closed)
      (withCurrent_queue _ none) (other _ none) (current_withCurrent_self none)
  | gone =>
    simp only [Exchange.arrive, wait]
    refine ⟨items, sound.moved_idle (withCurrent_queue _ none) keeps.carries keeps.regards
      (other _ none) (current_withCurrent_self none), ?_, ?_⟩
    · cases call <;> simp [Advance.turn, Turn.accepted, Turn.delivered, Call.giveUp, Outcome.result,
        Result.accepted, Result.delivered]
    · cases call <;> (rintro _ ⟨⟩; rfl)
  | pausing pause =>
    obtain ⟨short, told, watches⟩ := keeps.pausing pause wait
    simp only [Exchange.arrive, wait]
    refine ⟨items, sound.moved (withCurrent_queue _ _) keeps.carries keeps.regards (other _ _) ?_,
      ?_, ?_⟩
    · intro paused current
      cases (current_withCurrent_self _).symm.trans current
      exact ⟨short, keeps.closed.trans present, told, watches⟩
    · simp only [Advance.turn, Turn.accepted, Turn.delivered]
      split <;> simp [Result.accepted, Result.delivered]
    · intro result member
      simp only [Advance.turn] at member
      split at member <;> cases member
      rfl

theorem prepare_keeps (carries : q.Carries items) (call : Call α role) :
    ((call.prepare q).await role).Keeps role q items := by
  cases call with
  | push => exact Queue.await_keeps carries .producer
  | pop => exact Queue.await_keeps carries .consumer
  | popBatch =>
    exact (Queue.await_keeps (carries.refresh .consumer) .consumer).of_regards
      (q.regards_refresh .consumer) rfl

theorem Sound.proceed (sound : x.Sound items) (busy : x.busy role = true) :
    AccountsFor items ((x.proceed role).turn role) := by
  obtain ⟨⟨call, pause⟩, current⟩ := busy_iff.mp busy
  simp only [Exchange.proceed, current]
  exact sound.arrive call (Queue.resume_keeps sound.carries (sound.told role busy) pause)
    (sound.present role busy)

/-- Whatever move is made next, the exchange stays sound. -/
theorem Sound.play (sound : x.Sound items) {move : Move α} (allowed : x.allows move = true) :
    AccountsFor items (x.play move) := by
  cases move with
  | start role call =>
    exact sound.arrive call (prepare_keeps sound.carries call) (atRest_iff.mp allowed).1
  | proceed role => exact sound.proceed (Bool.and_eq_true_iff.mp allowed).1
  | tryPush item =>
    obtain ⟨left, accounts⟩ := Queue.tryPush_accounts sound.carries item
    exact sound.of_accounts accounts rfl rfl (atRest_iff.mp allowed).2
  | tryPop =>
    obtain ⟨left, accounts⟩ := Queue.tryPop_accounts sound.carries
    exact sound.of_accounts accounts rfl rfl (atRest_iff.mp allowed).2
  | flush =>
    exact ⟨items, sound.moved_idle rfl sound.carries.flush sound.carries.regards_flush rfl
      (atRest_iff.mp allowed).2,
      by simp [Exchange.play, Turn.accepted, Turn.delivered], fun _ member => nomatch member⟩
  | close role =>
    exact ⟨items, sound.moved_idle rfl (sound.carries.close role)
      (sound.carries.regards_close role) (current_withQueue _)
      ((current_withQueue _).trans (atRest_iff.mp allowed).2),
      by simp [Exchange.play, Turn.accepted, Turn.delivered], fun _ member => nomatch member⟩

/-- No run of moves loses an item, doubles one, or changes their order. -/
theorem Sound.run {moves : List (Move α)} {results : List (Result α)} (sound : x.Sound items)
    (run : x.Runs moves results y) :
    ∃ left, y.Sound left ∧
      items ++ results.filterMap Result.accepted = results.flatMap Result.delivered ++ left ∧
      ∀ result ∈ results, result.faulty = false := by
  induction run generalizing items with
  | rest => exact ⟨items, sound, by simp, by simp⟩
  | @next x y move moves results allowed _ ih =>
    obtain ⟨middle, soundMiddle, first, faultless⟩ := sound.play allowed
    obtain ⟨left, soundLeft, second, later⟩ := ih soundMiddle
    refine ⟨left, soundLeft, ?_, ?_⟩
    · unfold Turn.accepted Turn.delivered at first
      rw [List.filterMap_append, List.flatMap_append, ← List.append_assoc, first,
        List.append_assoc, second, List.append_assoc]
    · intro result member
      rcases List.mem_append.mp member with now | after
      · exact faultless result (Option.mem_toList.mp now)
      · exact later result after

/-- A parked producer without a signal leaves its peer something to take, and a parked consumer
without a signal has taken everything, so they do not wait for each other. -/
theorem Sound.not_both_asleep (sound : x.Sound items) :
    ¬ ∀ role, x.parked role = true ∧ x.queue.signalled role = false := by
  intro asleep
  have watches (role : Role) : x.queue.Watches role := by
    obtain ⟨parked, quiet⟩ := asleep role
    rcases sound.watches role parked with raised | asked
    · rw [quiet] at raised
      cases raised
    · exact asked
  obtain ⟨published, between, ask⟩ := watches .producer
  obtain ⟨_, nothing⟩ := watches .consumer
  have quota := sound.carries.quota_le
  rw [← nothing, published, Index.span_self] at between
  omega

/-- A parked party without a signal still has a peer. -/
theorem Sound.peer_present (sound : x.Sound items) (parked : x.parked role = true)
    (quiet : x.queue.signalled role = false) : x.queue.closed role.peer = false := by
  refine Bool.eq_false_iff.mpr fun gone => ?_
  have told := sound.told role (busy_of_parked parked) gone
  rw [quiet] at told
  cases told

end Exchange

end SpscQueue
