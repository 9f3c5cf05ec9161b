import SpscQueue.Proofs.Futility
import SpscQueue.Proofs.Refinement

namespace SpscQueue

universe u

variable {α : Type u} {q : Queue α} {x y : Exchange α} {items : List α} {role : Role}
  {position : Index} {call : Call α role} {moves : List (Move α)} {events : List Event}
  {results told : List (Result α)} {o : Index} {b : Backlog α} {pushes : Nat}

/-- What a call logs last if its peer is gone for good. -/
def Role.farewell (position : Index) : Role → Event
  | producer => .abandoned position
  | consumer => .drained position

/-- Whether an event says that a party parks at a position. The consumer asks for the item that comes to
that very position. -/
def Event.IsParking (position : Index) : Role → Event → Prop
  | .producer, event => ∃ consumer threshold, event = .producerParking position consumer threshold
  | .consumer, event => event = .consumerParking position position

/-- What a stretch logs by the way it stops. A pause short of the park is not worth a word. -/
def Wait.log (wait : Wait) (role : Role) (position : Index) : List Event :=
  match wait with
  | .gone => [role.farewell position]
  | _ => []

/-- The life of a call that a party began at a position: what it has logged, what it has answered, and
where it pauses unless it is over. It parks at most once, and what it logs last is whether it fails. -/
inductive Call.Life {role : Role} (call : Call α role) (position : Index) :
    List Event → List (Result α) → Option (Paused α role) → Prop
  | awake {pause : Pause} : pause ≠ .park → Life call position [] [] (some ⟨call, pause⟩)
  | succeeds {outcome : Outcome α} : outcome.fails = false →
      Life call position [] [outcome.result] none
  | fails : Life call position [role.farewell position] [call.giveUp.result] none
  | parks {parking : Event} : parking.IsParking position role →
      Life call position [parking] [.parked] (some ⟨call, .park⟩)
  | wokeSucceeds {parking : Event} {outcome : Outcome α} : parking.IsParking position role →
      outcome.fails = false →
      Life call position [parking, .woke role position] [.parked, outcome.result] none
  | wokeFails {parking : Event} : parking.IsParking position role →
      Life call position [parking, .woke role position, role.farewell position]
        [.parked, call.giveUp.result] none

namespace Queue

theorem position_look (q : Queue α) (role : Role) :
    (q.look role).position role = q.position role := (q.unmoved_look role).position role

theorem beginRound_events (q : Queue α) (role : Role) :
    (q.beginRound role).events = (q.beginRound role).wait.log role (q.position role) := by
  unfold beginRound
  split
  · cases role with
    | producer => rfl
    | consumer =>
      unfold lastLook
      dsimp only
      split <;> rfl
  · rfl

theorem await_events (q : Queue α) (role : Role) :
    (q.await role).events = (q.await role).wait.log role (q.position role) := by
  unfold await
  dsimp only
  split
  · rfl
  · rw [beginRound_events, position_look]

theorem resume_snooze_events (q : Queue α) (role : Role) (round : Nat) :
    (q.resume role (.snooze round)).events =
      (q.resume role (.snooze round)).wait.log role (q.position role) := by
  unfold resume
  dsimp only
  split <;> rfl

/-- A party on its way into the park logs nothing but that it parks. -/
theorem enrol_events (q : Queue α) (role : Role) :
    (q.enrol role).wait = .ready ∧ (q.enrol role).events = [] ∨
      (q.enrol role).wait = .pausing .park ∧ ∃ parking : Event,
        parking.IsParking (q.position role) role ∧ (q.enrol role).events = [parking] := by
  cases role with
  | producer =>
    unfold enrol
    dsimp only
    split
    · exact Or.inl ⟨rfl, rfl⟩
    · exact Or.inr ⟨rfl, _, ⟨_, _, rfl⟩, rfl⟩
  | consumer =>
    unfold enrol
    dsimp only
    split
    · exact Or.inl ⟨rfl, rfl⟩
    · exact Or.inr ⟨rfl, _, rfl, rfl⟩

theorem resume_sleep_events (q : Queue α) (role : Role) :
    (q.resume role .sleep).wait = .ready ∧ (q.resume role .sleep).events = [] ∨
      (q.resume role .sleep).wait = .pausing .park ∧ ∃ parking : Event,
        parking.IsParking (q.position role) role ∧ (q.resume role .sleep).events = [parking] := by
  unfold resume
  dsimp only
  split
  · exact Or.inl ⟨rfl, rfl⟩
  · have parks := (q.look role).enrol_events role
    rwa [position_look] at parks

theorem resume_park_events (q : Queue α) (role : Role) :
    (q.resume role .park).events =
      .woke role (q.position role) :: (q.resume role .park).wait.log role (q.position role) := by
  have place : ((q.hush role).look role).position role = q.position role := by
    rw [position_look, (q.unmoved_hush role).position]
  unfold resume
  dsimp only
  split
  · rfl
  · rw [beginRound_events, place]

/-- A party for which the awaited has come can move on. -/
theorem canMove_of_due (due : q.Due role) : q.CanMove role := by
  cases role with
  | producer =>
    have free : q.consumer.cursor.position.span q.producer.cursor.position + q.quota ≤
      q.capacity.toNat := due
    have some : 1 ≤ q.quota := Nat.le_max_left ..
    show q.consumer.cursor.position.span q.producer.cursor.position < q.capacity.toNat
    omega
  | consumer => exact due

end Queue

namespace Exchange

/-- The turns that a party takes when some moves are made. -/
def turns (role : Role) : Exchange α → List (Move α) → List (Turn α)
  | _, [] => []
  | x, move :: moves =>
    if move.role = role then x.play move :: turns role (x.play move).exchange moves
    else turns role (x.play move).exchange moves

/-- What a party logs when some moves are made. -/
def logged (x : Exchange α) (role : Role) (moves : List (Move α)) : List Event :=
  (x.turns role moves).flatMap (·.events)

/-- What the calls of a party answer when some moves are made. -/
def answered (x : Exchange α) (role : Role) (moves : List (Move α)) : List (Result α) :=
  (x.turns role moves).filterMap (·.result)

theorem logged_cons_self {move : Move α} (own : move.role = role) :
    x.logged role (move :: moves) =
      (x.play move).events ++ (x.play move).exchange.logged role moves := by
  rw [logged, turns, if_pos own, List.flatMap_cons]
  rfl

theorem answered_cons_self {move : Move α} (own : move.role = role) :
    x.answered role (move :: moves) =
      (x.play move).result.toList ++ (x.play move).exchange.answered role moves := by
  rw [answered, turns, if_pos own]
  cases told : (x.play move).result with
  | none => rw [List.filterMap_cons_none told]; rfl
  | some result => rw [List.filterMap_cons_some told]; rfl

theorem logged_cons_other {move : Move α} (other : move.role ≠ role) :
    x.logged role (move :: moves) = (x.play move).exchange.logged role moves := by
  rw [logged, turns, if_neg other]
  rfl

theorem answered_cons_other {move : Move α} (other : move.role ≠ role) :
    x.answered role (move :: moves) = (x.play move).exchange.answered role moves := by
  rw [answered, turns, if_neg other]
  rfl

/-! How a turn looks by the way in which its stretch stops. -/

theorem turn_of_ready (x : Exchange α) (call : Call α role) {stretch : Stretch α}
    (keeps : stretch.Keeps role q items) (wait : stretch.wait = .ready) :
    ∃ (z : Exchange α) (outcome : Outcome α),
      (x.arrive call stretch).turn role = ⟨z, stretch.events, some outcome.result⟩ ∧
        outcome.fails = false ∧ z.current role = none := by
  obtain ⟨left, does⟩ := keeps.carries.finish_does call (keeps.ready wait)
  simp only [arrive, wait, Advance.turn]
  exact ⟨_, _, rfl, does.not_fails, current_withCurrent_self none⟩

theorem turn_of_gone (x : Exchange α) (call : Call α role) {stretch : Stretch α}
    (wait : stretch.wait = .gone) : ∃ z : Exchange α,
    (x.arrive call stretch).turn role = ⟨z, stretch.events, some call.giveUp.result⟩ ∧
      z.current role = none := by
  simp only [arrive, wait, Advance.turn]
  exact ⟨_, rfl, current_withCurrent_self none⟩

theorem turn_of_pausing (x : Exchange α) (call : Call α role) {stretch : Stretch α} {pause : Pause}
    (wait : stretch.wait = .pausing pause) :
    ∃ z : Exchange α, (x.arrive call stretch).turn role =
        ⟨z, stretch.events, if pause = .park then some .parked else none⟩ ∧
      z.queue = stretch.queue ∧ z.current role = some ⟨call, pause⟩ := by
  simp only [arrive, wait, Advance.turn, parked_eq (current_withCurrent_self _), beq_iff_eq]
  exact ⟨_, rfl, withCurrent_queue _ _, current_withCurrent_self _⟩

/-- What has become of a call so far, and that its party has not left its place meanwhile. -/
def Lives (x : Exchange α) (call : Call α role) (position : Index)
    (events : List Event) (told : List (Result α)) : Prop :=
  call.Life position events told (x.current role) ∧
    (x.busy role = true → x.queue.position role = position)

theorem lives_of_idle (life : call.Life position events told none) (idle : x.current role = none) :
    x.Lives call position events told := by
  refine ⟨by rwa [idle], fun busy => ?_⟩
  rw [Exchange.busy, idle] at busy
  cases busy

/-- A stretch that stops short of the park, or ends the call, logs nothing unless the call fails. -/
theorem arrive_lives {stretch : Stretch α} (keeps : stretch.Keeps role q items)
    (logs : stretch.events = stretch.wait.log role position) (awake : stretch.wait ≠ .pausing .park)
    (place : stretch.queue.position role = position) :
    ((x.arrive call stretch).turn role).exchange.Lives call position
      ((x.arrive call stretch).turn role).events
      ((x.arrive call stretch).turn role).result.toList := by
  cases wait : stretch.wait with
  | ready =>
    obtain ⟨z, outcome, made, succeeds, idle⟩ := turn_of_ready x call keeps wait
    rw [made, logs, wait]
    exact lives_of_idle (.succeeds succeeds) idle
  | gone =>
    obtain ⟨z, made, idle⟩ := turn_of_gone x call wait
    rw [made, logs, wait]
    exact lives_of_idle .fails idle
  | pausing pause =>
    obtain ⟨z, made, queue, current⟩ := turn_of_pausing x call wait
    have still : pause ≠ .park := fun parks => awake (by rw [wait, parks])
    rw [made, logs, wait, if_neg still]
    refine ⟨?_, fun _ => by rwa [queue]⟩
    rw [current]
    exact .awake still

theorem Sound.start_lives (sound : x.Sound items) (call : Call α role) :
    (x.play (.start role call)).exchange.Lives call (x.queue.position role)
      (x.play (.start role call)).events (x.play (.start role call)).result.toList := by
  have prepared := Queue.unmoved_prepare call x.queue
  have waited := Queue.unmoved_await (call.prepare x.queue) role
  refine arrive_lives (prepare_keeps sound.carries call) ?_ ?_ ?_
  · rw [Queue.await_events, prepared.position]
  · exact fun parks => Session.firstPause_awake _ (Queue.await_pausing parks).2.symm
  · exact (prepared.trans waited).position role

/-- A party that has its signal does not wait any longer. -/
theorem Portrays.resume_park_stops (portrays : x.Portrays o b pushes)
    (signalled : x.queue.signalled role = true) (pause : Pause) :
    (x.queue.resume role .park).wait ≠ .pausing pause := by
  obtain ⟨items, sound⟩ := portrays.sound
  have tuned := portrays.tuned role
  intro waits
  obtain ⟨stuck, there⟩ := sound.carries.resume_park_stuck waits
  rcases tuned.raised signalled with gone | ⟨_, due⟩
  · cases gone.symm.trans there
  · exact stuck (Queue.canMove_of_due due)

/-- A call that goes on from its park comes to its end. -/
theorem Portrays.wakes_lives (portrays : x.Portrays o b pushes)
    (current : x.current role = some ⟨call, .park⟩) (signalled : x.queue.signalled role = true)
    {parking : Event} (parks : parking.IsParking position role)
    (place : x.queue.position role = position) :
    ((x.proceed role).turn role).exchange.Lives call position
      (parking :: ((x.proceed role).turn role).events)
      (.parked :: ((x.proceed role).turn role).result.toList) := by
  obtain ⟨items, sound⟩ := portrays.sound
  have busy : x.busy role = true := busy_iff.mpr ⟨_, current⟩
  have keeps := Queue.resume_keeps sound.carries (sound.told role busy) .park
  have logs := x.queue.resume_park_events role
  rw [place] at logs
  rw [proceed_eq current]
  cases wait : (x.queue.resume role .park).wait with
  | ready =>
    obtain ⟨z, outcome, made, succeeds, idle⟩ := turn_of_ready x call keeps wait
    rw [made, logs, wait]
    exact lives_of_idle (.wokeSucceeds parks succeeds) idle
  | gone =>
    obtain ⟨z, made, idle⟩ := turn_of_gone x call wait
    rw [made, logs, wait]
    exact lives_of_idle (.wokeFails parks) idle
  | pausing pause =>
    -- there was a reason for the signal, so there is something to do or the peer is gone
    exact absurd wait (portrays.resume_park_stops signalled pause)

theorem Portrays.proceed_lives (portrays : x.Portrays o b pushes)
    (lives : x.Lives call position events told) (allowed : x.mayProceed role = true) :
    ((x.proceed role).turn role).exchange.Lives call position
      (events ++ ((x.proceed role).turn role).events)
      (told ++ ((x.proceed role).turn role).result.toList) := by
  obtain ⟨items, sound⟩ := portrays.sound
  obtain ⟨life, place⟩ := lives
  have busy := (Bool.and_eq_true_iff.mp allowed).1
  have unmoved (pause : Pause) := (Queue.unmoved_resume x.queue role pause).position role
  have keeps (pause : Pause) := Queue.resume_keeps sound.carries (sound.told role busy) pause
  replace place := place busy
  generalize here : x.current role = current at life
  cases life with
  | @awake pause awake =>
    rw [List.nil_append, List.nil_append, proceed_eq here]
    cases pause with
    | snooze round =>
      refine arrive_lives (keeps _) ?_ ?_ ?_
      · rw [Queue.resume_snooze_events, place]
      · intro parks
        have next := (Queue.resume_snooze_pausing parks).2
        split at next <;> cases next
      · rw [unmoved, place]
    | sleep =>
      rcases x.queue.resume_sleep_events role with ⟨wait, logs⟩ | ⟨wait, parking, parks, logs⟩
      · refine arrive_lives (keeps _) (by rw [logs, wait]; rfl) (by rw [wait]; exact nofun) ?_
        rw [unmoved, place]
      · obtain ⟨z, made, queue, current⟩ := turn_of_pausing x call wait
        rw [made, logs, if_pos rfl]
        refine ⟨?_, fun _ => by rw [queue, unmoved, place]⟩
        rw [current]
        exact .parks (place ▸ parks)
    | park => exact absurd rfl awake
  | parks parks =>
    have parked : x.parked role = true := parked_iff.mpr ⟨call, here⟩
    have signalled : x.queue.signalled role = true := by
      simpa [mayProceed, busy, parked] using allowed
    exact portrays.wakes_lives here signalled parks place
  | _ =>
    rw [Exchange.busy, here] at busy
    cases busy

/-- Until its party begins something else a call lives on. -/
theorem Portrays.run_lives (portrays : x.Portrays o b pushes) (lives : x.Lives call position events told)
    (run : x.Runs moves results y) (own : ∀ move ∈ moves, move.role = role → move = .proceed role)
    (few : pushes + (results.filterMap Result.accepted).length < 0x8000000000000000) :
    y.Lives call position (events ++ x.logged role moves) (told ++ x.answered role moves) := by
  induction run generalizing b pushes events told with
  | rest x =>
    rw [show x.logged role [] = [] from rfl, show x.answered role [] = [] from rfl, List.append_nil,
      List.append_nil]
    exact lives
  | @next x y move moves results allowed _ ih =>
    rw [List.filterMap_append, List.length_append, ← Nat.add_assoc] at few
    obtain ⟨_, after⟩ := portrays.play (by omega) allowed
    have later : ∀ m ∈ moves, m.role = role → m = .proceed role :=
      fun m known => own m (List.mem_cons_of_mem _ known)
    -- a call lives on in the stretches of its own party, and nothing else touches it
    by_cases mine : move.role = role
    · have goes := own move (List.mem_cons_self ..) mine
      subst goes
      rw [logged_cons_self mine, answered_cons_self mine, ← List.append_assoc, ← List.append_assoc]
      exact ih after (portrays.proceed_lives lives allowed) later few
    · rw [logged_cons_other mine, answered_cons_other mine]
      have other : role = move.role.peer := by
        rcases move.role.eq_or_eq_peer role with same | other
        · exact absurd same.symm mine
        · exact other
      have stays := x.current_play_peer move
      have place := congrArg Cursor.position (x.play_cursor_peer move)
      rw [← other] at stays place
      obtain ⟨life, there⟩ := lives
      refine ih after ⟨by rwa [stays], fun busy => ?_⟩ later few
      rw [Queue.position, place]
      exact there (by rwa [Exchange.busy, stays] at busy)

/-- A call that waits parks at most once. All that it ever logs is that it parks, that it woke, and that
its peer is gone, the last just when it fails, and always with the place at which it began. Once it is
signalled in its park, it comes to its end with the next stretch. -/
theorem parks_at_most_once {settings : Settings} {fresh : Session α}
    (opened : Session.ofSettings settings = .ok fresh) {before : List (Move α)}
    (run : fresh.exchange.Runs before results x) (call : Call α role) {others : List (Result α)}
    (onward : x.Runs (.start role call :: moves) others y)
    (own : ∀ move ∈ moves, move.role = role → move = .proceed role)
    (few : ((results ++ others).filterMap Result.accepted).length < 0x8000000000000000) :
    call.Life (x.queue.position role) (x.logged role (.start role call :: moves))
        (x.answered role (.start role call :: moves)) (y.current role) ∧
      (y.parked role = true → y.queue.signalled role = true →
        ∃ outcome, (y.proceed role).outcome = some outcome) := by
  rw [List.filterMap_append, List.length_append] at few
  obtain ⟨b, _, portrays⟩ := (Session.portrays_of_opened opened).run run (by omega)
  obtain ⟨c, _, reached⟩ := portrays.run onward (by omega)
  rw [Nat.zero_add] at portrays reached
  obtain ⟨items, sound⟩ := portrays.sound
  constructor
  · cases onward with
    | @next _ _ _ _ told allowed rest =>
      rw [List.filterMap_append, List.length_append] at few
      obtain ⟨_, begun⟩ := portrays.play (by omega) allowed
      rw [logged_cons_self (show (Move.start role call).role = role from rfl),
        answered_cons_self (show (Move.start role call).role = role from rfl)]
      refine (begun.run_lives (sound.start_lives call) rest own ?_).1
      show _ + ((x.play (.start role call)).result.toList.filterMap Result.accepted).length + _ < _
      omega
  · intro parked signalled
    obtain ⟨call, current⟩ := parked_iff.mp parked
    have stops := reached.resume_park_stops signalled
    refine Option.ne_none_iff_exists'.mp fun unfinished => ?_
    rw [proceed_eq current] at unfinished
    obtain ⟨pause, waits, _⟩ := arrive_unfinished unfinished
    exact stops pause waits

/-- Past the end of the circle a pop parks on an empty queue and fails as the producer leaves. -/
theorem parks_at_most_once_left_pop :
    ∃ (fresh : Session Nat) (x y : Exchange Nat),
      Session.ofSettings ⟨2, by decide, 0, 0, 18446744073709551615, .whenShort, 8⟩ = .ok fresh ∧
        fresh.exchange.Runs [.start .producer (.push 7 true), .start .consumer .pop]
          [.push (.accepted 7), .pop (.ok 7)] x ∧
        x.queue.position .consumer = 0 ∧
        x.Runs [.start .consumer .pop, .proceed .consumer, .close .producer, .proceed .consumer]
          [.parked, .pop (.error .disconnected)] y ∧
        Call.pop.Life 0 [.consumerParking 0 0, .woke .consumer 0, .drained 0]
          [.parked, .pop (.error .disconnected)] (y.current .consumer) := by
  suffices reached : ∃ (fresh : Session Nat) (x y : Exchange Nat),
      Session.ofSettings ⟨2, by decide, 0, 0, 18446744073709551615, .whenShort, 8⟩ = .ok fresh ∧
        fresh.exchange.Runs [.start .producer (.push 7 true), .start .consumer .pop]
          [.push (.accepted 7), .pop (.ok 7)] x ∧
        x.queue.position .consumer = 0 ∧
        x.Runs [.start .consumer .pop, .proceed .consumer, .close .producer, .proceed .consumer]
          [.parked, .pop (.error .disconnected)] y ∧
        x.logged .consumer
            [.start .consumer .pop, .proceed .consumer, .close .producer, .proceed .consumer] =
          [.consumerParking 0 0, .woke .consumer 0, .drained 0] ∧
        x.answered .consumer
            [.start .consumer .pop, .proceed .consumer, .close .producer, .proceed .consumer] =
          [.parked, .pop (.error .disconnected)] by
    obtain ⟨fresh, x, y, opened, run, place, onward, logged, answered⟩ := reached
    have life := (parks_at_most_once opened run .pop onward (by simp [Move.role]) (by decide)).1
    rw [place, logged, answered] at life
    exact ⟨fresh, x, y, opened, run, place, onward, life⟩
  exact ⟨_, _, _, rfl, .next rfl (.next rfl (.rest _)), rfl,
    .next rfl (.next rfl (.next rfl (.next rfl (.rest _)))), rfl, rfl⟩

end Exchange

end SpscQueue
