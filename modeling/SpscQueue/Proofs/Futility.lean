import SpscQueue.Proofs.Outstanding

namespace SpscQueue

universe u

variable {α : Type u} {x y z : Exchange α} {items left : List α} {role : Role}
  {moves : List (Move α)} {results meanwhile : List (Result α)} {outcome : Outcome α} {room : Nat}

/-- With so many items in the queue a party cannot move on: the producer finds no room, and the
consumer finds no item. -/
def Role.standstill (room : Nat) : Role → Nat
  | producer => room
  | consumer => 0

/-- Whether a call has ended without doing its work. -/
def Outcome.fails : Outcome α → Bool
  | push (.accepted _) => false
  | push (.refused ..) => true
  | pop (.ok _) => false
  | pop (.error _) => true
  | popBatch (.ok _) => false
  | popBatch (.error _) => true

theorem Call.fails_giveUp (call : Call α role) : call.giveUp.fails = true := by
  cases call <;> rfl

namespace Call.Does

variable {call : Call α role}

theorem not_fails (does : call.Does items outcome left) : outcome.fails = false := by
  cases does <;> rfl

/-- A call that has done its work had something to do. -/
theorem length_ne (does : call.Does items outcome left) (fits : left.length ≤ room) :
    items.length ≠ role.standstill room := by
  cases does with
  | push item force =>
    rw [List.length_append, List.length_singleton] at fits
    exact Nat.ne_of_lt fits
  | pop => exact Nat.succ_ne_zero _
  | popBatch rest some =>
    have positive := List.length_pos_iff.mpr some
    rw [List.length_append]
    exact Nat.ne_of_gt (Nat.add_pos_left positive _)

end Call.Does

namespace Exchange

/-- A call that a party began at `x` pauses at `y`, after moves of the other party and stretches of its
own. The results are those of all of them. -/
inductive Waits (x : Exchange α) {role : Role} (call : Call α role) :
    List (Result α) → Exchange α → Prop
  | begun : x.atRest role = true → (x.start call).outcome = none →
      Waits x call ((x.start call).turn role).result.toList (x.start call).exchange
  | goesOn {results : List (Result α)} {y : Exchange α} : Waits x call results y →
      y.mayProceed role = true → (y.proceed role).outcome = none →
      Waits x call (results ++ ((y.proceed role).turn role).result.toList) (y.proceed role).exchange
  | beside {results : List (Result α)} {y : Exchange α} {move : Move α} : Waits x call results y →
      move.role = role.peer → y.allows move = true →
      Waits x call (results ++ (y.play move).result.toList) (y.play move).exchange

/-- A call that a party began at `x` ends at `z`, with a last stretch that begins at `y`. Nobody else
moves during that stretch, so what it checks is as it is at `y`. -/
inductive Concludes (x : Exchange α) {role : Role} (call : Call α role) :
    List (Result α) → Exchange α → Outcome α → Exchange α → Prop
  | atOnce {outcome : Outcome α} : x.atRest role = true → (x.start call).outcome = some outcome →
      Concludes x call [] x outcome (x.start call).exchange
  | later {meanwhile : List (Result α)} {y : Exchange α} {outcome : Outcome α} :
      Waits x call meanwhile y → y.mayProceed role = true → (y.proceed role).outcome = some outcome →
      Concludes x call meanwhile y outcome (y.proceed role).exchange

/-- A call that fails hands back what it was given and leaves no trace: the places of the parties, the
ring, the items in the queue and those collected by batches are as they were when it began. From then
on every call of its party fails in the same way, and at once. -/
structure Fruitless (x : Exchange α) {role : Role} (call : Call α role)
    (results meanwhile : List (Result α)) (outcome : Outcome α) (z : Exchange α) : Prop where
  handsBack : outcome = call.giveUp
  position (who : Role) : z.queue.position who = x.queue.position who
  index : z.queue.consumer.post.index = x.queue.consumer.post.index
  ring : z.queue.ring = x.queue.ring
  outstanding : outstanding (results ++ meanwhile ++ [outcome.result]) = outstanding results
  collected (s : Session α) : (s.conclude outcome).1 = s
  final (moves : List (Move α)) (more : List (Result α)) (w : Exchange α) : z.Runs moves more w →
    w.atRest role = true → ∀ again : Call α role, (w.start again).outcome = some again.giveUp

/-! While a call waits, only the other party puts items in or takes them out. -/

theorem turn_of_unfinished {advance : Advance α} (unfinished : advance.outcome = none) :
    ∀ told ∈ (advance.turn role).result, told = .parked := by
  intro told member
  simp only [Advance.turn, unfinished] at member
  split at member <;> cases member
  rfl

namespace Waits

variable {call : Call α role}

theorem current (waits : x.Waits call meanwhile y) :
    ∃ pause, y.current role = some ⟨call, pause⟩ := by
  induction waits with
  | begun _ unfinished =>
    obtain ⟨pause, _, _, current⟩ := arrive_unfinished unfinished
    exact ⟨pause, current⟩
  | @goesOn results y _ _ unfinished ih =>
    obtain ⟨pause, current⟩ := ih
    rw [proceed_eq current] at unfinished ⊢
    obtain ⟨next, _, _, paused⟩ := arrive_unfinished unfinished
    exact ⟨next, paused⟩
  | @beside results y move _ other _ ih =>
    have stays := y.current_play_peer move
    rw [other, Role.peer_peer] at stays
    rwa [stays]

theorem runs (waits : x.Waits call meanwhile y) : ∃ moves, x.Runs moves meanwhile y := by
  induction waits with
  | begun rests _ => exact ⟨_, @Runs.single _ _ (.start role call) rests⟩
  | @goesOn results y _ allowed _ ih =>
    obtain ⟨moves, run⟩ := ih
    exact ⟨_, run.append (@Runs.single _ _ (.proceed role) allowed)⟩
  | beside _ _ allowed ih =>
    obtain ⟨moves, run⟩ := ih
    exact ⟨_, run.append (.single allowed)⟩

theorem confined (waits : x.Waits call meanwhile y) :
    ∀ told ∈ meanwhile, told.Confined role.peer := by
  have parked {advance : Advance α} (unfinished : advance.outcome = none) :
      ∀ told ∈ (advance.turn role).result.toList, told.Confined role.peer := by
    intro told member
    rw [turn_of_unfinished unfinished told (Option.mem_toList.mp member)]
    exact Result.confined_parked _
  induction waits with
  | begun _ unfinished => exact parked unfinished
  | goesOn _ _ unfinished ih =>
    exact fun told member => (List.mem_append.mp member).elim (ih told) (parked unfinished told)
  | @beside results y move _ other _ ih =>
    intro told member
    rcases List.mem_append.mp member with before | now
    · exact ih told before
    · rw [← other]
      exact y.play_confined move told (Option.mem_toList.mp now)

end Waits

namespace Kept

/-- A party whose peer is gone is stuck if the queue is full, or empty. -/
theorem stuck_iff (kept : x.Kept room items) (gone : x.queue.closed role.peer = true) :
    ¬ x.queue.CanMove role ↔ items.length = role.standstill room := by
  have most := kept.length_le
  cases role with
  | producer =>
    rw [kept.sound.carries.canMove_producer_iff, kept.capacity]
    show _ ↔ items.length = room
    omega
  | consumer =>
    constructor
    · intro stuck
      rw [kept.sound.carries.drained_of_stuck kept.parted gone stuck]
      rfl
    · intro nothing moves
      have some : 0 < x.queue.shown := moves
      have shown := kept.sound.carries.shown_le
      have none : items.length = 0 := nothing
      omega

end Kept

/-- The peer of a party is gone, and nothing is left to do for it. -/
structure Exhausted (role : Role) (room : Nat) (x : Exchange α) (items : List α) : Prop
    extends x.Kept room items where
  gone : x.queue.closed role.peer = true
  count : items.length = role.standstill room

/-- How the last stretch of a call ends is decided by what there was to do when it began. -/
theorem Kept.ends (kept : y.Kept room items) {move : Move α} (allowed : y.allows move = true)
    {call : Call α role} {advance : Advance α} (made : y.play move = advance.turn role)
    (came : Came items call advance) (alike : Queue.Alike role y.queue advance.exchange.queue)
    (ended : advance.outcome = some outcome) :
    (outcome.fails = true ↔
        y.queue.closed role.peer = true ∧ items.length = role.standstill room) ∧
      (outcome.fails = true →
        outcome = call.giveUp ∧ advance.exchange.Exhausted role room items) := by
  obtain ⟨_, keptNow, _⟩ := kept.play allowed
  rw [made] at keptNow
  cases came with
  | pauses => cases ended
  | givesUp _ sound gone stuck =>
    cases ended
    have keeps := Kept.mk sound keptNow.parted keptNow.capacity
    have count := (keeps.stuck_iff gone).mp stuck
    have before := (alike.closed role.peer).symm.trans gone
    exact ⟨iff_of_true call.fails_giveUp ⟨before, count⟩, fun _ => ⟨rfl, keeps, gone, count⟩⟩
  | does _ sound does =>
    cases ended
    have keeps := Kept.mk sound keptNow.parted keptNow.capacity
    have works : ¬ outcome.fails = true := Bool.eq_false_iff.mp does.not_fails
    exact ⟨iff_of_false works fun futile => does.length_ne keeps.length_le futile.2,
      fun fails => absurd fails works⟩

theorem Kept.start_ends (kept : x.Kept room items) (rests : x.atRest role = true)
    (call : Call α role) (ended : (x.start call).outcome = some outcome) :
    (outcome.fails = true ↔
        x.queue.closed role.peer = true ∧ items.length = role.standstill room) ∧
      (outcome.fails = true →
        outcome = call.giveUp ∧ (x.start call).exchange.Exhausted role room items) :=
  @ends _ _ _ _ _ _ kept (.start role call) rests _ _ rfl (kept.sound.start_came call rests)
    (x.start_beside call).1 ended

/-- A call whose peer is gone when it begins does not wait. -/
theorem Sound.start_outcome (sound : x.Sound items) (rests : x.atRest role = true)
    (gone : x.queue.closed role.peer = true) (call : Call α role) :
    ∃ outcome, (x.start call).outcome = some outcome := by
  refine Option.ne_none_iff_exists'.mp fun unfinished => ?_
  obtain ⟨pause, _, _, current⟩ := arrive_unfinished unfinished
  have comes := (sound.start_paces call rests).pausing _ current
  unfold Exchange.Next pauseOf at comes
  rw [(atRest_iff.mp rests).2] at comes
  cases gone.symm.trans comes.2.2

namespace Exhausted

/-- Nothing that the party can still do changes that. -/
theorem play (exhausted : x.Exhausted role room items) {move : Move α}
    (allowed : x.allows move = true) : (x.play move).exchange.Exhausted role room items := by
  obtain ⟨kept, gone, count⟩ := exhausted
  obtain ⟨left, keptNow, balance⟩ := kept.play allowed
  have own : move.role = role := by
    rcases role.eq_or_eq_peer move.role with same | other
    · exact same
    · have present := kept.sound.mover_present allowed
      rw [other, gone] at present
      cases present
  suffices same : left = items by
    subst same
    exact ⟨keptNow, play_gone gone move, count⟩
  cases role with
  | producer =>
    have full : items.length = room := count
    have fits := keptNow.length_le
    rw [play_delivered own, List.nil_append] at balance
    rw [← balance, List.length_append] at fits
    have none : (x.play move).accepted = [] := List.length_eq_zero_iff.mp (by omega)
    rw [← balance, none, List.append_nil]
  | consumer =>
    have empty : items = [] := List.length_eq_zero_iff.mp count
    rw [play_accepted own, List.append_nil, empty] at balance
    rw [empty, (List.append_eq_nil_iff.mp balance.symm).2]

theorem run (exhausted : x.Exhausted role room items) (run : x.Runs moves results y) :
    y.Exhausted role room items := by
  induction run with
  | rest => exact exhausted
  | next allowed _ ih => exact ih (exhausted.play allowed)

theorem start (exhausted : x.Exhausted role room items) (rests : x.atRest role = true)
    (call : Call α role) : (x.start call).outcome = some call.giveUp := by
  obtain ⟨outcome, ended⟩ := exhausted.sound.start_outcome rests exhausted.gone call
  obtain ⟨fails, failing⟩ := exhausted.toKept.start_ends rests call ended
  rw [ended, (failing (fails.mpr ⟨exhausted.gone, exhausted.count⟩)).1]

end Exhausted

/-- What a call waited for to no avail never came: if nothing is left to do in the end, then nothing was
put in or taken out while it waited. -/
theorem Kept.idle_meanwhile (kept : x.Kept room items) (count : left.length = role.standstill room)
    (confined : ∀ told ∈ meanwhile, told.Confined role.peer)
    (balance : items ++ meanwhile.filterMap Result.accepted =
      meanwhile.flatMap Result.delivered ++ left) :
    meanwhile.filterMap Result.accepted = [] ∧ meanwhile.flatMap Result.delivered = [] := by
  have fits := kept.length_le
  cases role with
  | producer =>
    have full : left.length = room := count
    have silent := accepted_eq_nil_of_confined confined
    have lengths := congrArg List.length balance
    rw [silent, List.append_nil, List.length_append] at lengths
    exact ⟨silent, List.length_eq_zero_iff.mp (by omega)⟩
  | consumer =>
    have empty : left = [] := List.length_eq_zero_iff.mp count
    have silent := delivered_eq_nil_of_confined confined
    rw [silent, empty] at balance
    exact ⟨(List.append_eq_nil_iff.mp balance).2, silent⟩

namespace Concludes

variable {call : Call α role}

theorem runs (concludes : x.Concludes call meanwhile y outcome z) :
    (∃ moves, x.Runs moves meanwhile y) ∧ (∃ move, y.Runs [move] [outcome.result] z) ∧
      ∀ told ∈ meanwhile, told.Confined role.peer := by
  have told {advance : Advance α} (ended : advance.outcome = some outcome) :
      (advance.turn role).result.toList = [outcome.result] := by
    simp only [Advance.turn, ended, Option.toList_some]
  cases concludes with
  | atOnce rests ended =>
    refine ⟨⟨[], .rest x⟩, ⟨.start role call, ?_⟩, fun _ member => by cases member⟩
    rw [← told ended]
    exact @Runs.single _ _ (.start role call) rests
  | later waits allowed ended =>
    refine ⟨waits.runs, ⟨.proceed role, ?_⟩, waits.confined⟩
    rw [← told ended]
    exact @Runs.single _ _ (.proceed role) allowed

theorem ends (concludes : x.Concludes call meanwhile y outcome z) (kept : y.Kept room items) :
    (outcome.fails = true ↔
        y.queue.closed role.peer = true ∧ items.length = role.standstill room) ∧
      (outcome.fails = true → outcome = call.giveUp ∧ z.Exhausted role room items) := by
  cases concludes with
  | atOnce rests ended => exact kept.start_ends rests call ended
  | later waits allowed ended =>
    obtain ⟨pause, current⟩ := waits.current
    exact @Kept.ends _ _ _ _ _ _ kept (.proceed role) allowed _ _ rfl
      (kept.sound.proceed_came current) (y.proceed_beside role).1 ended

/-- A call that fails was fruitless. -/
theorem fruitless (concludes : x.Concludes call meanwhile y outcome z)
    (kept : x.Kept room (outstanding results)) (keptLast : y.Kept room left)
    (balance : outstanding results ++ meanwhile.filterMap Result.accepted =
      meanwhile.flatMap Result.delivered ++ left)
    (fails : outcome.fails = true) : x.Fruitless call results meanwhile outcome z := by
  obtain ⟨⟨moves, run⟩, ⟨move, last⟩, confined⟩ := concludes.runs
  obtain ⟨handsBack, exhausted⟩ := (concludes.ends keptLast).2 fails
  obtain ⟨accepted, delivered⟩ := kept.idle_meanwhile exhausted.count confined balance
  have silent : outcome.result.accepted = none ∧ outcome.result.delivered = [] := by
    rw [handsBack]
    cases call <;> exact ⟨rfl, rfl⟩
  have noneIn : (meanwhile ++ [outcome.result]).filterMap Result.accepted = [] := by
    rw [List.filterMap_append, accepted, List.filterMap_cons_none silent.1]
    rfl
  have noneOut : (meanwhile ++ [outcome.result]).flatMap Result.delivered = [] := by
    rw [List.flatMap_append, delivered, List.flatMap_singleton, silent.2]
    rfl
  have unmoved := kept.sound.run_unmoved (run.append last) noneIn noneOut
  refine ⟨handsBack, unmoved.position, ?_, unmoved.ring, ?_, fun s => ?_, ?_⟩
  · rw [exhausted.sound.carries.consumer_posted, kept.sound.carries.consumer_posted]
    exact unmoved.position .consumer
  · unfold SpscQueue.outstanding
    rw [List.append_assoc, List.filterMap_append, List.flatMap_append, noneIn, noneOut, List.append_nil,
      List.append_nil]
  · rw [handsBack]
    cases call <;> rfl
  · exact fun moves more w onward rests again => (exhausted.run onward).start rests again

end Concludes

/-- A call that waits fails if and only if at its last check the other party is gone and nothing is left
to do: the queue is full for a push, and empty for a pop, deferred items included. A call that finds
its peer gone does not wait any longer, and if something is left to do it does it with its next
stretch. -/
theorem fails_iff_futile {settings : Settings} {fresh : Session α}
    (opened : Session.ofSettings settings = .ok fresh) (run : fresh.exchange.Runs moves results x)
    (call : Call α role) :
    (∀ meanwhile y outcome z, x.Concludes call meanwhile y outcome z →
      (outcome.fails = true ↔ y.queue.closed role.peer = true ∧
          (outstanding (results ++ meanwhile)).length = role.standstill settings.capacity) ∧
        (outcome.fails = true → x.Fruitless call results meanwhile outcome z)) ∧
    (x.atRest role = true → x.queue.closed role.peer = true →
      ∃ outcome, (x.start call).outcome = some outcome) ∧
    ∀ meanwhile y, x.Waits call meanwhile y → y.queue.closed role.peer = true →
      y.mayProceed role = true ∧
        ((outstanding (results ++ meanwhile)).length ≠ role.standstill settings.capacity →
          ∃ outcome, (y.proceed role).outcome = some outcome ∧ outcome.fails = false) := by
  have begins := kept_of_opened opened
  have kept := begins.outstanding run
  refine ⟨fun meanwhile y outcome z concludes => ?_, fun rests gone =>
    kept.sound.start_outcome rests gone call, fun meanwhile y waits gone => ?_⟩
  · obtain ⟨⟨moves, onward⟩, _⟩ := concludes.runs
    have keptLast := begins.outstanding (run.append onward)
    obtain ⟨left, keptLeft, balance⟩ := kept.run onward
    refine ⟨(concludes.ends keptLast).1, fun fails => ?_⟩
    exact concludes.fruitless kept keptLeft balance fails
  · obtain ⟨moves, onward⟩ := waits.runs
    obtain ⟨pause, current⟩ := waits.current
    have keptLast := begins.outstanding (run.append onward)
    have told := keptLast.sound.told role (busy_iff.mpr ⟨_, current⟩) gone
    refine ⟨mayProceed_of_signalled current told, fun some => ?_⟩
    have moves : y.queue.CanMove role := Classical.not_not.mp fun stuck =>
      some ((keptLast.stuck_iff gone).mp stuck)
    obtain ⟨outcome, left, ended, does⟩ := keptLast.sound.proceed_does current moves
    exact ⟨outcome, ended, does.not_fails⟩

/-- The consumer leaves while a push sleeps because the queue is full. The push parks, wakes up at once,
and hands its item back. -/
theorem fails_iff_futile_sleeping_push :
    ∃ (fresh : Session Nat) (x y z : Exchange Nat),
      Session.ofSettings ⟨1, by decide, 0, 0, 18446744073709551615, .whenShort, 8⟩ = .ok fresh ∧
        fresh.exchange.Runs [.start .producer (.push 7 false)] [.push (.accepted 7)] x ∧
        x.Concludes (.push 8 false) [.parked] y (.push (.refused 8 .disconnected)) z ∧
        x.Fruitless (.push 8 false) [.push (.accepted 7)] [.parked]
          (.push (.refused 8 .disconnected)) z := by
  suffices reached : ∃ (fresh : Session Nat) (x y z : Exchange Nat),
      Session.ofSettings ⟨1, by decide, 0, 0, 18446744073709551615, .whenShort, 8⟩ = .ok fresh ∧
        fresh.exchange.Runs [.start .producer (.push 7 false)] [.push (.accepted 7)] x ∧
        x.Concludes (.push 8 false) [.parked] y (.push (.refused 8 .disconnected)) z by
    obtain ⟨fresh, x, y, z, opened, run, ends⟩ := reached
    have spared := ((fails_iff_futile opened run (.push 8 false)).1 _ _ _ _ ends).2 rfl
    exact ⟨fresh, x, y, z, opened, run, ends, spared⟩
  exact ⟨_, _, _, _, rfl, .single rfl, .later (.goesOn
    (@Waits.beside _ _ _ _ _ _ (.close .consumer) (.begun rfl rfl) rfl rfl) rfl rfl) rfl rfl⟩

end Exchange

end SpscQueue
