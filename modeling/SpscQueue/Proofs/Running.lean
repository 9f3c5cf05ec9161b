import SpscQueue.Proofs.Completion

namespace SpscQueue.Transfer

variable {t : Transfer} {s moved next last : State} {left after : List UInt64} {role : Role}
  {room : Nat}

/-- How many more stops there are for a producer that goes first until it parks. It spins through
its rounds at once. -/
def stopsAhead : Option Pause → Nat
  | none => 2
  | some .park => 0
  | some _ => 1

/-- A bound on the turns still to come if the producer goes first. An item may cost it three
turns. -/
def remaining (t : Transfer) (s : State) : Nat :=
  t.chores s + 2 * t.pushesAhead s + stopsAhead (s.exchange.pauseOf .producer)

theorem stopsAhead_le (pause : Option Pause) : stopsAhead pause ≤ 2 := by
  match pause with
  | none | some (.snooze _) | some .sleep | some .park => simp [stopsAhead]

theorem stopsAhead_firstPause (q : Queue UInt64) : stopsAhead (some q.firstPause) = 1 := by
  unfold Queue.firstPause
  split <;> rfl

theorem remaining_le (t : Transfer) (s : State) : t.remaining s ≤ t.turnBound := by
  have stops := stopsAhead_le (s.exchange.pauseOf .producer)
  have refusal := Bool.toNat_le s.refusal.isNone
  have ending := Bool.toNat_le s.ending.isNone
  have producer := Bool.toNat_le (!s.exchange.queue.closed .producer)
  have consumer := Bool.toNat_le (!s.exchange.queue.closed .consumer)
  unfold remaining turnBound chores pushesAhead takesAhead State.handles
  omega

/-- A push that is done pays for the stops of the next one. -/
theorem remaining_lt_of_pushes (handles : moved.handles = s.handles)
    (takes : t.takesAhead moved = t.takesAhead s) (less : t.pushesAhead moved < t.pushesAhead s) :
    t.remaining moved < t.remaining s := by
  have stops := stopsAhead_le (moved.exchange.pauseOf .producer)
  unfold remaining chores
  omega

theorem remaining_lt_of_chores
    (stands : moved.exchange.current .producer = s.exchange.current .producer)
    (pushes : t.pushesAhead moved = t.pushesAhead s) (less : t.chores moved < t.chores s) :
    t.remaining moved < t.remaining s := by
  unfold remaining Exchange.pauseOf
  rw [stands, pushes]
  omega

/-- The producer has gone first all the time. The consumer never has to wait then, and as long as it
is there, it raises the signal of the producer only by taking items while the producer is parked. -/
structure Poised (s : State) : Prop where
  idle : s.exchange.current .consumer = none
  signalled : s.exchange.queue.closed .producer = false →
    s.exchange.queue.closed .consumer = false → s.exchange.queue.signalled .producer = true →
    s.exchange.parked .producer = true ∧ s.exchange.queue.CanMove .producer

/-- The producer is not in the middle of its spinning. -/
def Spun (s : State) : Prop := ∀ round, s.exchange.pauseOf .producer ≠ some (.snooze round)

namespace Poised

theorem of_goes {y : Exchange UInt64} (poised : Poised s) (goes : Goes .producer s.exchange y after)
    (same : moved.exchange = y) : Poised moved := by
  subst same
  refine ⟨goes.beside.other.trans poised.idle, fun present there raised => ?_⟩
  obtain ⟨before, awake⟩ := goes.quiet raised
  obtain ⟨parked, _⟩ := poised.signalled ((goes.closed _).symm.trans present)
    ((goes.closed _).symm.trans there) before
  cases awake.symm.trans parked

theorem of_close (poised : Poised s) (role : Role) :
    Poised (s.withQueue (s.exchange.queue.close role).1) := by
  refine ⟨(Exchange.current_withQueue _).trans poised.idle, fun present there _ => ?_⟩
  cases role with
  | producer => cases present
  | consumer => cases there

/-- What the consumer does while the producer has no turn may wake the producer up, but only if it
can go on now. -/
theorem of_ends {y : Exchange UInt64} (ends : Ends .consumer s.exchange y after)
    (waits : t.turn .producer s = none)
    (free : y.queue.closed .producer = true ∨ y.queue.CanMove .producer)
    (same : moved.exchange = y) : Poised moved := by
  subst same
  refine ⟨ends.idle, fun present _ _ => ?_⟩
  have there : s.exchange.queue.closed .producer = false := (ends.closed _).symm.trans present
  rcases turn_eq_none_iff.mp waits with gone | ⟨parked, _⟩
  · cases there.symm.trans gone
  refine ⟨?_, free.resolve_left (Bool.eq_false_iff.mp present)⟩
  have other : moved.exchange.current .producer = s.exchange.current .producer := ends.beside.other
  rw [Exchange.parked, Exchange.pauseOf, other]
  exact parked

/-- A producer that goes first wakes up only if it can go on, so it stops at most twice in a
call. -/
theorem stopsAhead_lt {pause : Pause} (poised : Poised s) (spun : Spun s)
    (taken : t.turn .producer s = some next) (comes : s.exchange.Next .producer pause) :
    stopsAhead (some pause) < stopsAhead (s.exchange.pauseOf .producer) := by
  unfold Exchange.Next at comes
  cases before : s.exchange.pauseOf .producer with
  | none =>
    rw [before] at comes
    rw [comes.1, stopsAhead_firstPause]
    exact Nat.lt_succ_self 1
  | some reached =>
    rw [before] at comes
    cases reached with
    | snooze round => exact absurd before (spun round)
    | sleep =>
      rw [comes]
      exact Nat.zero_lt_one
    | park =>
      obtain ⟨_, stuck, there⟩ := comes
      have parked : s.exchange.parked .producer = true := by
        rw [Exchange.parked, before]
        rfl
      have goes : t.turn .producer s ≠ none := by
        rw [taken]
        exact Option.some_ne_none next
      have may := mt turn_eq_none_iff.mpr goes
      rw [not_or, parked, Bool.not_eq_true, not_and, Bool.not_eq_false] at may
      exact absurd (poised.signalled may.1 there (may.2 rfl)).2 stuck

/-- A turn of a producer that goes first. -/
theorem producer_turn (poised : Poised s) (spun : Spun s) (underway : Underway t room s left)
    (taken : t.turn .producer s = some next) (does : Does t s left .producer moved after)
    (kept : Underway t room moved after) : Poised moved ∧ t.remaining moved < t.remaining s := by
  cases does with
  | @pauses _ y paused intakes goes current calls _ comes =>
    refine ⟨poised.of_goes goes rfl, ?_⟩
    have fewer := poised.stopsAhead_lt spun taken comes
    have now : y.pauseOf .producer = some paused.pause := by
      rw [Exchange.pauseOf, current]
      rfl
    unfold remaining
    rw [goes.chores]
    show _ + 2 * t.pushesAhead s + stopsAhead (y.pauseOf .producer) < _
    rw [now]
    omega
  | pushes ends fresh more =>
    exact ⟨poised.of_goes ends.toGoes rfl,
      remaining_lt_of_pushes (ends.handles rfl) rfl (pushesAhead_pushed more rfl rfl)⟩
  | refused ends fresh more gone stuck =>
    exact ⟨poised.of_goes ends.toGoes rfl, remaining_lt_of_pushes (ends.handles rfl) rfl
      (pushesAhead_refused fresh rfl (Option.some_ne_none _))⟩
  | leaves _ present idle done =>
    rw [underway.leaves_first done kept]
    exact ⟨poised.of_close .producer,
      remaining_lt_of_chores (Exchange.current_withQueue _) rfl (chores_close present)⟩

/-- A turn of the consumer, which finds something to take, or the producer gone. -/
theorem consumer_turn (poised : Poised s) (underway : Underway t room s left)
    (waits : t.turn .producer s = none) (does : Does t s left .consumer moved after)
    (kept : Underway t room moved after) :
    Poised moved ∧ moved.exchange.current .producer = s.exchange.current .producer ∧
      t.remaining moved < t.remaining s := by
  have fed := underway.fed waits
  cases does with
  | pauses intakes goes current calls _ comes =>
    unfold Exchange.Next Exchange.pauseOf at comes
    rw [poised.idle] at comes
    obtain ⟨_, stuck, there⟩ := comes
    rcases fed with moves | gone
    · exact absurd moves stuck
    · cases there.symm.trans gone
  | @takes y items rest intakes same some ends going wants single =>
    subst same
    have free : y.queue.CanMove .producer := by
      have most := underway.sound.carries.length_le
      have positive := List.length_pos_iff.mpr some
      rw [ends.sound.carries.canMove_producer_iff, ends.beside.alike.capacity]
      rw [List.length_append] at most
      omega
    exact ⟨of_ends ends waits (Or.inr free) rfl, ends.beside.other,
      remaining_lt_of_chores ends.beside.other rfl
        (chores_lt_of_takes (ends.handles rfl) rfl (underway.takesAhead_taken some rfl rfl))⟩
  | fails intakes nothing ends going wants gone =>
    exact ⟨of_ends ends waits (Or.inl gone) rfl, ends.beside.other,
      remaining_lt_of_chores ends.beside.other rfl (chores_lt_of_takes (ends.handles rfl) rfl
        (takesAhead_ended going rfl (Option.some_ne_none _)))⟩
  | misses intakes attempts ends going stuck there =>
    rcases fed with moves | gone
    · exact absurd moves stuck
    · cases there.symm.trans gone
  | stops present idle going enough =>
    exact ⟨⟨poised.idle, poised.signalled⟩, rfl, remaining_lt_of_chores rfl rfl
      (chores_lt_of_takes rfl rfl (takesAhead_ended going rfl (Option.some_ne_none _)))⟩
  | leaves _ present idle done =>
    rw [underway.leaves_first done kept]
    exact ⟨poised.of_close .consumer, Exchange.current_withQueue _,
      remaining_lt_of_chores (Exchange.current_withQueue _) rfl (chores_close present)⟩

end Poised

/-! Spinning through the rounds at once is no more than time going by. -/

theorem spinningTurn_cases (taken : t.spinningTurn role s = some next) :
    ∃ moved, t.turn role s = some moved ∧
      (next = moved ∧ (∀ round, moved.exchange.pauseOf role ≠ some (.snooze round)) ∨
        next = { moved with exchange := moved.exchange.passTo role .sleep } ∧
          ∃ round, moved.exchange.pauseOf role = some (.snooze round)) := by
  obtain ⟨moved, taken, reached⟩ := Option.map_eq_some_iff.mp taken
  refine ⟨moved, taken, ?_⟩
  split at reached
  · rename_i round snoozes
    exact Or.inr ⟨reached.symm, round, snoozes⟩
  · rename_i awake
    exact Or.inl ⟨reached.symm, fun round => awake round⟩

theorem spinningTurn_eq_none_iff : t.spinningTurn role s = none ↔ t.turn role s = none :=
  Option.map_eq_none_iff

theorem Underway.passTo (underway : Underway t room s left) (role : Role) :
    Underway t room { s with exchange := s.exchange.passTo role .sleep } left := by
  have queue := s.exchange.passTo_queue role .sleep
  exact
    { underway with
      sound := underway.sound.passTo role fun same => nomatch same
      parted := by rw [queue]; exact underway.parted
      capacity := by rw [queue]; exact underway.capacity
      calls := by
        intro who paused current
        rcases role.eq_or_eq_peer who with rfl | rfl
        · cases held : s.exchange.current who with
          | none =>
            unfold Exchange.passTo at current
            rw [held] at current
            cases held.symm.trans current
          | some before =>
            cases (Exchange.current_passTo held .sleep).symm.trans current
            exact underway.calls who before held
        · exact underway.calls _ paused
            ((Exchange.current_passTo_peer s.exchange role .sleep).symm.trans current)
      done := fun who gone => underway.done who (by rwa [queue] at gone)
      refused := by rw [queue]; exact underway.refused
      failed := by rw [queue]; exact underway.failed
      attended := by rw [queue]; exact underway.attended }

theorem Settled.passTo (settled : Settled t room s) (role : Role) :
    Settled t room { s with exchange := s.exchange.passTo role .sleep } := by
  refine ⟨fun who => ?_, settled.verdict⟩
  rw [Exchange.passTo_queue]
  exact settled.gone who

theorem Poised.passTo (poised : Poised s) {round : Nat}
    (snoozes : s.exchange.pauseOf .producer = some (.snooze round)) :
    Poised { s with exchange := s.exchange.passTo .producer .sleep } := by
  refine ⟨(Exchange.current_passTo_peer s.exchange .producer .sleep).trans poised.idle, ?_⟩
  rw [Exchange.passTo_queue]
  intro present there raised
  obtain ⟨parked, _⟩ := poised.signalled present there raised
  rw [Exchange.parked, snoozes] at parked
  cases parked

theorem pauseOf_passTo {x : Exchange UInt64} {pause : Pause} (paused : x.pauseOf role = some pause)
    (stop : Pause) : (x.passTo role stop).pauseOf role = some stop := by
  obtain ⟨before, held, _⟩ := Option.map_eq_some_iff.mp paused
  rw [Exchange.pauseOf, Exchange.current_passTo held]
  rfl

theorem remaining_passTo {round : Nat}
    (snoozes : s.exchange.pauseOf .producer = some (.snooze round)) :
    t.remaining { s with exchange := s.exchange.passTo .producer .sleep } = t.remaining s := by
  unfold remaining chores State.handles
  dsimp only
  rw [pauseOf_passTo snoozes, snoozes, Exchange.passTo_queue]
  rfl

/-- The transfer is still in order, with the producer ahead, or it is settled. -/
def OnCourse (t : Transfer) (room bound : Nat) (s : State) : Prop :=
  (∃ left, Underway t room s left ∧ Poised s ∧ Spun s ∧ t.remaining s < bound) ∨ Settled t room s

namespace Poised

theorem producer_spins (poised : Poised s) (spun : Spun s) (underway : Underway t room s left)
    (regular : t.Regular) (taken : t.spinningTurn .producer s = some next) :
    OnCourse t room (t.remaining s) next := by
  obtain ⟨moved, taken, reached⟩ := spinningTurn_cases taken
  obtain ⟨after, does, kept | settled⟩ := underway.turn regular taken
  · obtain ⟨still, fewer⟩ := poised.producer_turn spun underway taken does kept
    rcases reached with ⟨rfl, awake⟩ | ⟨rfl, round, snoozes⟩
    · exact Or.inl ⟨after, kept, still, awake, fewer⟩
    · refine Or.inl ⟨after, kept.passTo .producer, still.passTo snoozes, fun round asleep => ?_, ?_⟩
      · cases (pauseOf_passTo snoozes .sleep).symm.trans asleep
      · rwa [remaining_passTo snoozes]
  · rcases reached with ⟨rfl, _⟩ | ⟨rfl, _⟩
    · exact Or.inr settled
    · exact Or.inr (settled.passTo .producer)

theorem consumer_spins (poised : Poised s) (spun : Spun s) (underway : Underway t room s left)
    (regular : t.Regular) (waits : t.turn .producer s = none)
    (taken : t.spinningTurn .consumer s = some next) : OnCourse t room (t.remaining s) next := by
  obtain ⟨moved, taken, reached⟩ := spinningTurn_cases taken
  obtain ⟨after, does, kept | settled⟩ := underway.turn regular taken
  · obtain ⟨still, stands, fewer⟩ := poised.consumer_turn underway waits does kept
    rcases reached with ⟨rfl, _⟩ | ⟨_, round, snoozes⟩
    · refine Or.inl ⟨after, kept, still, fun round => ?_, fewer⟩
      rw [Exchange.pauseOf, stands]
      exact spun round
    · rw [Exchange.pauseOf, still.idle] at snoozes
      cases snoozes
  · rcases reached with ⟨rfl, _⟩ | ⟨rfl, _⟩
    · exact Or.inr settled
    · exact Or.inr (settled.passTo .consumer)

end Poised

theorem Settled.runWithin (settled : Settled t room s) (bound : Nat) : t.runWithin bound s = s := by
  have rests (role : Role) : t.spinningTurn role s = none :=
    spinningTurn_eq_none_iff.mpr (settled.isOver role)
  cases bound with
  | zero => rfl
  | succ bound =>
    unfold Transfer.runWithin
    rw [rests .producer, rests .consumer]

/-- Enough turns settle a transfer in which the producer goes first. -/
theorem Poised.runWithin (poised : Poised s) (spun : Spun s) (underway : Underway t room s left)
    (regular : t.Regular) {bound : Nat} (enough : t.remaining s ≤ bound) :
    Settled t room (t.runWithin bound s) := by
  induction bound generalizing s left with
  | zero =>
    have some := underway.handles_pos
    unfold remaining chores at enough
    omega
  | succ bound ih =>
    have goesOn {next : State} (course : OnCourse t room (t.remaining s) next) :
        Settled t room (t.runWithin bound next) := by
      rcases course with ⟨after, kept, still, awake, fewer⟩ | settled
      · exact ih still awake kept (by omega)
      · rwa [settled.runWithin]
    unfold Transfer.runWithin
    cases first : t.spinningTurn .producer s with
    | some next => exact goesOn (poised.producer_spins spun underway regular first)
    | none =>
      have waits := spinningTurn_eq_none_iff.mp first
      cases second : t.spinningTurn .consumer s with
      | some next => exact goesOn (poised.consumer_spins spun underway regular waits second)
      | none =>
        have rests := spinningTurn_eq_none_iff.mp second
        exact absurd (fun role => by cases role <;> assumption) underway.not_over

theorem poised_of_opened {settings : Settings} (opened : State.ofSettings settings = .ok s) :
    Poised s ∧ Spun s := by
  obtain ⟨q, made, rfl⟩ := State.ofSettings_eq_ok opened
  refine ⟨⟨rfl, fun _ _ raised => ?_⟩, fun _ snoozes => nomatch snoozes⟩
  have quiet : q.signalled .producer = false := by
    rw [Queue.signalled, Queue.ofSettings_side made]
    rfl
  cases quiet.symm.trans raised

/-- A transfer that is run with the producer going first comes to its end within the turns that it
is given, and to what the numbers alone say. -/
theorem run_settled {settings : Settings} (regular : t.Regular) (ran : t.run settings = .ok last) :
    Settled t settings.capacity last := by
  unfold run at ran
  cases opened : State.ofSettings settings with
  | error cause =>
    rw [opened] at ran
    cases ran
  | ok fresh =>
    rw [opened] at ran
    cases ran
    obtain ⟨poised, spun⟩ := poised_of_opened opened
    exact poised.runWithin spun (underway_of_opened opened) regular (t.remaining_le fresh)

end SpscQueue.Transfer
