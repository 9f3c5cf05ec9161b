import SpscQueue.Proofs.Chronicle
import SpscQueue.Proofs.Pacing
import SpscQueue.Proofs.Standstill

namespace SpscQueue

universe u

variable {α : Type u} {x y : Exchange α} {items : List α} {role : Role} {moves : List (Move α)}
  {results : List (Result α)} {room : Nat}

/-- The items that some results tell of as put in and not taken out since. -/
def outstanding (results : List (Result α)) : List α :=
  (results.filterMap Result.accepted).drop (results.flatMap Result.delivered).length

/-- A result that tells of no more than a party can do: only the consumer takes items out, and only
the producer puts items in. -/
def Result.Confined : Role → Result α → Prop
  | .producer, result => result.delivered = []
  | .consumer, result => result.accepted = none

theorem Result.confined_parked (role : Role) : (Result.parked : Result α).Confined role := by
  cases role <;> rfl

theorem delivered_eq_nil_of_confined (confined : ∀ told ∈ results, told.Confined .producer) :
    results.flatMap Result.delivered = [] :=
  List.flatMap_eq_nil_iff.mpr confined

theorem accepted_eq_nil_of_confined (confined : ∀ told ∈ results, told.Confined .consumer) :
    results.filterMap Result.accepted = [] :=
  List.filterMap_eq_nil_iff.mpr confined

theorem Call.finish_confined (call : Call α role) (q : Queue α) :
    (call.finish q).2.result.Confined role := by
  cases call with
  | push item force => rfl
  | pop => rfl
  | popBatch =>
    show (Outcome.popBatch q.deliverKnown.2).result.accepted = none
    cases q.deliverKnown.2 <;> rfl

theorem Call.giveUp_confined (call : Call α role) : call.giveUp.result.Confined role := by
  cases call <;> rfl

namespace Exchange

theorem arrive_confined (x : Exchange α) (call : Call α role) (stretch : Stretch α) :
    ∀ told ∈ ((x.arrive call stretch).turn role).result, told.Confined role := by
  intro told member
  cases wait : stretch.wait with
  | ready =>
    simp only [arrive, wait, Advance.turn, Option.mem_def, Option.some.injEq] at member
    rw [← member]
    exact call.finish_confined stretch.queue
  | gone =>
    simp only [arrive, wait, Advance.turn, Option.mem_def, Option.some.injEq] at member
    rw [← member]
    exact call.giveUp_confined
  | pausing pause =>
    simp only [arrive, wait, Advance.turn] at member
    split at member <;> cases member
    exact Result.confined_parked role

/-- Whatever move a party makes, its result tells of its own work only. -/
theorem play_confined (x : Exchange α) (move : Move α) :
    ∀ told ∈ (x.play move).result, told.Confined move.role := by
  cases move with
  | start role call => exact x.arrive_confined call _
  | proceed role =>
    simp only [play, proceed]
    cases x.current role with
    | none =>
      intro told member
      simp only [Advance.turn] at member
      split at member <;> cases member
      exact Result.confined_parked role
    | some paused => exact x.arrive_confined paused.call _
  | tryPush item => exact fun _ member => by cases member; rfl
  | tryPop => exact fun _ member => by cases member; rfl
  | flush => exact fun _ member => by cases member
  | close role => exact fun _ member => by cases member

/-- The producer takes nothing out. -/
theorem play_delivered {move : Move α} (own : move.role = .producer) : (x.play move).delivered = [] := by
  refine delivered_eq_nil_of_confined fun told member => ?_
  rw [← own]
  exact x.play_confined move told (Option.mem_toList.mp member)

/-- The consumer puts nothing in. -/
theorem play_accepted {move : Move α} (own : move.role = .consumer) : (x.play move).accepted = [] := by
  refine accepted_eq_nil_of_confined fun told member => ?_
  rw [← own]
  exact x.play_confined move told (Option.mem_toList.mp member)

/-- A move of one party leaves the call of the other one where it is. -/
theorem current_play_peer (x : Exchange α) (move : Move α) :
    (x.play move).exchange.current move.role.peer = x.current move.role.peer := by
  cases move with
  | start role call => exact (x.start_beside call).2
  | proceed role => exact (x.proceed_beside role).2
  | _ => exact current_withQueue _

/-- A move of one party leaves the books of the other one alone. -/
theorem play_cursor_peer (x : Exchange α) (move : Move α) :
    ((x.play move).exchange.queue.side move.role.peer).cursor =
      (x.queue.side move.role.peer).cursor := by
  cases move with
  | start role call => exact (x.start_beside call).1.cursor
  | proceed role => exact (x.proceed_beside role).1.cursor
  | tryPush item => exact (x.queue.alike_tryPush item).cursor
  | tryPop => exact x.queue.alike_tryPop.cursor
  | flush => exact (x.queue.alike_publish .producer).cursor
  | close role =>
    cases role with
    | producer => exact (x.queue.alike_publish .producer).cursor
    | consumer => rfl

theorem Runs.current_peer (run : x.Runs moves results y) (own : ∀ move ∈ moves, move.role = role) :
    y.current role.peer = x.current role.peer := by
  induction run with
  | rest => rfl
  | @next x y move moves results allowed _ ih =>
    have stays := x.current_play_peer move
    rw [own move (List.mem_cons_self ..)] at stays
    exact (ih fun m known => own m (List.mem_cons_of_mem _ known)).trans stays

theorem play_capacity (x : Exchange α) (move : Move α) :
    (x.play move).exchange.queue.capacity = x.queue.capacity := by
  cases move with
  | start role call => exact (x.start_beside call).1.capacity
  | proceed role => exact (x.proceed_beside role).1.capacity
  | tryPush item => exact (x.queue.alike_tryPush item).capacity
  | tryPop => exact x.queue.alike_tryPop.capacity
  | flush => exact (x.queue.alike_publish .producer).capacity
  | close role => exact x.queue.close_capacity role

/-- A handle that is gone stays so. -/
theorem play_gone (gone : x.queue.closed role = true) (move : Move α) :
    (x.play move).exchange.queue.closed role = true := by
  cases move with
  | start who call => exact ((x.start_beside call).1.closed role).trans gone
  | proceed who => exact ((x.proceed_beside who).1.closed role).trans gone
  | tryPush item => exact ((x.queue.alike_tryPush item).closed role).trans gone
  | tryPop => exact (x.queue.alike_tryPop.closed role).trans gone
  | flush => exact ((x.queue.alike_publish .producer).closed role).trans gone
  | close who =>
    rcases who.eq_or_eq_peer role with rfl | rfl
    · cases role <;> rfl
    · exact (x.queue.close_closed_peer who).trans gone

/-- A signal lets a paused call go on. -/
theorem mayProceed_of_signalled {paused : Paused α role} (current : x.current role = some paused)
    (raised : x.queue.signalled role = true) : x.mayProceed role = true := by
  rw [mayProceed, busy_iff.mpr ⟨paused, current⟩, raised, Bool.or_true]
  rfl

/-- A call that goes on from a pause and has something to do does it. -/
theorem Sound.proceed_does (sound : x.Sound items) {call : Call α role} {pause : Pause}
    (current : x.current role = some ⟨call, pause⟩) (moves : x.queue.CanMove role) :
    ∃ outcome left, (x.proceed role).outcome = some outcome ∧ call.Does items outcome left := by
  have keeps := Queue.resume_keeps sound.carries (sound.told role (busy_iff.mpr ⟨_, current⟩)) pause
  have ready := sound.carries.resume_ready moves pause
  obtain ⟨left, does⟩ := keeps.carries.finish_does call (keeps.ready ready)
  refine ⟨_, left, ?_, does⟩
  rw [proceed_eq current]
  simp only [Exchange.arrive, ready]

/-- What is so of a queue of some room wherever its parties have come to. -/
structure Kept (room : Nat) (x : Exchange α) (items : List α) : Prop where
  sound : x.Sound items
  parted : x.queue.Parted
  capacity : x.queue.capacity.toNat = room

theorem kept_of_opened {settings : Settings} {fresh : Session α}
    (opened : Session.ofSettings settings = .ok fresh) :
    fresh.exchange.Kept settings.capacity [] := by
  obtain ⟨_, sound, parted, _⟩ := Session.begins_of_opened opened
  refine ⟨sound, parted, ?_⟩
  unfold Session.ofSettings at opened
  cases made : Queue.ofSettings (α := α) settings with
  | error cause => rw [made] at opened; cases opened
  | ok q =>
    rw [made] at opened
    cases opened
    exact Queue.ofSettings_capacity made

namespace Kept

theorem length_le (kept : x.Kept room items) : items.length ≤ room := by
  have most := kept.sound.carries.length_le
  rwa [kept.capacity] at most

theorem play (kept : x.Kept room items) {move : Move α} (allowed : x.allows move = true) :
    ∃ left, (x.play move).exchange.Kept room left ∧
      items ++ (x.play move).accepted = (x.play move).delivered ++ left := by
  obtain ⟨left, sound, balance, _⟩ := kept.sound.play allowed
  refine ⟨left, ⟨sound, play_parted kept.sound kept.parted allowed, ?_⟩, balance⟩
  rw [play_capacity, kept.capacity]

theorem run_capacity (kept : x.Kept room items) (run : x.Runs moves results y) :
    y.queue.capacity.toNat = room := by
  induction run generalizing items with
  | rest => exact kept.capacity
  | next allowed _ ih =>
    obtain ⟨middle, keptNow, _⟩ := kept.play allowed
    exact ih keptNow

theorem run (kept : x.Kept room items) (run : x.Runs moves results y) :
    ∃ left, y.Kept room left ∧
      items ++ results.filterMap Result.accepted = results.flatMap Result.delivered ++ left := by
  obtain ⟨left, sound, balance, _⟩ := kept.sound.run run
  exact ⟨left, ⟨sound, kept.sound.run_parted kept.parted run, kept.run_capacity run⟩, balance⟩

/-- The items in the queue are those that the results so far account for. -/
theorem outstanding (kept : x.Kept room []) (run : x.Runs moves results y) :
    y.Kept room (outstanding results) := by
  obtain ⟨left, keptNow, balance⟩ := kept.run run
  rw [List.nil_append] at balance
  rwa [SpscQueue.outstanding, balance, List.drop_left]

end Kept

end Exchange

end SpscQueue
