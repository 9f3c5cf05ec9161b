import SpscQueue.Proofs.Blindness
import SpscQueue.Proofs.Simulation

namespace SpscQueue

universe u

variable {α : Type u} {role : Role}

namespace Exchange

variable {x y : Exchange α} {items others : List α}

/-- Two exchanges that are the same but for what their parties remember of each other, and for when
they look. -/
structure SameButSeen (x y : Exchange α) : Prop where
  current (role : Role) : y.current role = x.current role
  queue : y.queue.blind = x.queue.blind

/-- The parties of both may still act and nothing is wrong with them, or they are all gone. -/
inductive Indistinct (x y : Exchange α) : Prop
  | live (items others : List α) : x.SameButSeen y → x.Sound items → y.Sound others → Indistinct x y
  | finished : x.SameButSeen y → (∀ role, x.queue.closed role = true) → (∀ role, x.current role = none) →
      Indistinct x y

theorem Indistinct.same (indistinct : x.Indistinct y) : x.SameButSeen y := by
  cases indistinct with
  | live _ _ same => exact same
  | finished same => exact same

theorem SameButSeen.withQueue {q p : Queue α} (same : x.SameButSeen y) (queue : p.blind = q.blind) :
    SameButSeen { x with queue := q } { y with queue := p } :=
  ⟨fun who => (current_withQueue p).trans ((same.current who).trans (current_withQueue q).symm), queue⟩

theorem SameButSeen.withCurrent (same : x.SameButSeen y) (paused : Option (Paused α role)) :
    SameButSeen (x.withCurrent paused) (y.withCurrent paused) := by
  refine ⟨fun who => ?_, ?_⟩
  · rcases role.eq_or_eq_peer who with rfl | rfl
    · rw [current_withCurrent_self, current_withCurrent_self]
    · rw [current_withCurrent_peer, current_withCurrent_peer, same.current]
  · rw [withCurrent_queue, withCurrent_queue, same.queue]

theorem SameButSeen.resembles (same : x.SameButSeen y) : x.Resembles id y := by
  have alike {β : Type} (read : Queue α → β) : read y.queue.blind = read x.queue.blind :=
    congrArg read same.queue
  exact
    { current := same.current
      closed := Queue.closed_eq_of_blind same.queue
      signalled := fun role => by
        have signalled := alike (Queue.signalled · role)
        cases role <;> exact signalled
      position := Queue.position_eq_of_blind same.queue
      deferred := fun role => by
        have deferred := alike fun q => (q.side role).cursor.deferred
        cases role <;> exact deferred
      length := fun role => by
        have length := alike (Queue.length · role)
        cases role <;> exact length
      visibleLength := alike Queue.visibleLength
      capacity := alike Queue.capacity
      rounds := Queue.rounds_eq_of_blind same.queue
      size := alike fun q => q.ring.size
      wakeups := alike Queue.wakeups }

theorem SameButSeen.arrive (same : x.SameButSeen y) {call : Call α role} {one other : Stretch α}
    (agrees : one.Agrees call other) :
    Matches id SameButSeen (x.arrive call one) (y.arrive call other) := by
  obtain ⟨queue, events, wait, prepared⟩ := agrees
  have told : other.events = one.events.map (Event.mapIndex id) := by
    rw [events, Event.map_mapIndex_id]
  unfold Exchange.arrive
  rw [wait]
  cases ends : one.wait with
  | ready =>
    obtain ⟨left, right⟩ := prepared ends
    obtain ⟨finished, outcome⟩ := Queue.finish_agrees queue left right
    exact ⟨(same.withQueue finished).withCurrent none, told, congrArg some outcome⟩
  | gone => exact ⟨(same.withQueue queue).withCurrent none, told, rfl⟩
  | pausing pause => exact ⟨(same.withQueue queue).withCurrent _, told, rfl⟩

theorem SameButSeen.atRest (same : x.SameButSeen y) (role : Role) : y.atRest role = x.atRest role := by
  unfold Exchange.atRest busy
  rw [same.current, Queue.closed_eq_of_blind same.queue]

theorem SameButSeen.allows (same : x.SameButSeen y) (move : Move α) :
    y.allows move = x.allows move := by
  cases move with
  | proceed role =>
    have signalled := same.resembles.signalled role
    show y.mayProceed role = x.mayProceed role
    unfold mayProceed busy parked pauseOf
    rw [same.current, signalled]
  | _ => exact same.atRest _

theorem Indistinct.sound_of_atRest (indistinct : x.Indistinct y) (rest : x.atRest role = true) :
    ∃ items others, x.Sound items ∧ y.Sound others := by
  cases indistinct with
  | live items others _ sound other => exact ⟨items, others, sound, other⟩
  | finished _ closed =>
    have present := (atRest_iff.mp rest).1
    rw [closed] at present
    cases present

/-- Who may move is not gone, so both exchanges were sound, and stay so. -/
theorem Indistinct.play (indistinct : x.Indistinct y) (move : Move α) (allowed : x.allows move = true)
    (same : SameButSeen (x.play move).exchange (y.play move).exchange) :
    Indistinct (x.play move).exchange (y.play move).exchange := by
  cases indistinct with
  | live items others before sound other =>
    obtain ⟨left, soundLeft, _⟩ := sound.play allowed
    obtain ⟨right, soundRight, _⟩ := other.play ((before.allows move).trans allowed)
    exact .live left right same soundLeft soundRight
  | finished before closed idle =>
    cases move with
    | proceed role =>
      have busy := (Bool.and_eq_true_iff.mp allowed).1
      rw [busy_eq_false_iff.mpr (idle role)] at busy
      cases busy
    | _ =>
      have present := (atRest_iff.mp allowed).1
      rw [closed] at present
      cases present

theorem SameButSeen.start (same : x.SameButSeen y) (sound : x.Sound items) (other : y.Sound others)
    (call : Call α role) : Matches id SameButSeen (x.start call) (y.start call) := by
  have prepared : (call.prepare y.queue).blind = (call.prepare x.queue).blind := by
    cases call with
    | push | pop => exact same.queue
    | popBatch =>
      show (y.queue.refresh .consumer).blind = (x.queue.refresh .consumer).blind
      rw [Queue.blind_refresh, Queue.blind_refresh, same.queue]
  have carries {z : Exchange α} {items : List α} (sound : z.Sound items) :
      (call.prepare z.queue).Carries items := by
    cases call with
    | push | pop => exact sound.carries
    | popBatch => exact sound.carries.refresh .consumer
  have fresh (q : Queue α) : call.prepare (call.prepare q) = call.prepare q := by
    cases call with
    | push | pop => rfl
    | popBatch => exact q.refresh_refresh .consumer
  exact same.arrive (Queue.await_agrees (carries sound) (carries other) prepared
    (.inr (fresh x.queue)) (.inr (fresh y.queue)))

theorem SameButSeen.proceed (same : x.SameButSeen y) (sound : x.Sound items) (other : y.Sound others)
    (busy : x.busy role = true) : Matches id SameButSeen (x.proceed role) (y.proceed role) := by
  have otherBusy : y.busy role = true := by rwa [Exchange.busy, same.current]
  obtain ⟨paused, current⟩ := busy_iff.mp busy
  rw [proceed_eq current, proceed_eq ((same.current role).trans current)]
  exact same.arrive (Queue.resume_agrees sound.carries other.carries same.queue paused.call
    (sound.short role busy) (other.short role otherBusy) paused.pause)

theorem SameButSeen.passTo (same : x.SameButSeen y) (role : Role) (pause : Pause) :
    SameButSeen (x.passTo role pause) (y.passTo role pause) := by
  unfold Exchange.passTo
  rw [same.current]
  cases x.current role with
  | none => exact same
  | some paused => exact same.withCurrent _

/-- Parties that look only when what they saw last is not enough and parties that always look go
through the same motions. -/
theorem indistinct_simulation : Simulation (α := α) id Indistinct where
  resembles indistinct := indistinct.same.resembles
  start {x y role} call indistinct rest := by
    obtain ⟨items, others, sound, other⟩ := indistinct.sound_of_atRest rest
    have moves := indistinct.same.start sound other call
    exact ⟨indistinct.play (.start role call) rest moves.exchange, moves.events, moves.outcome⟩
  proceed {x y} role indistinct := by
    by_cases busy : x.busy role = true
    · cases indistinct with
      | live items others same sound other =>
        have otherBusy : y.busy role = true := by rwa [Exchange.busy, same.current]
        have moves := same.proceed sound other busy
        obtain ⟨left, soundLeft, _⟩ := sound.proceed busy
        obtain ⟨right, soundRight, _⟩ := other.proceed otherBusy
        exact ⟨.live left right moves.exchange soundLeft soundRight, moves.events, moves.outcome⟩
      | finished _ _ idle =>
        rw [busy_eq_false_iff.mpr (idle role)] at busy
        cases busy
    · have idle := busy_eq_false_iff.mp (Bool.eq_false_iff.mpr busy)
      have rests {z : Exchange α} (idle : z.current role = none) : z.proceed role = ⟨z, [], none⟩ := by
        unfold Exchange.proceed
        rw [idle]
      rw [rests idle, rests ((indistinct.same.current role).trans idle)]
      exact ⟨indistinct, rfl, rfl⟩
  passTo {x y} role pause indistinct awake := by
    have same := indistinct.same.passTo role pause
    cases indistinct with
    | live items others _ sound other =>
      exact .live items others same (sound.passTo role awake) (other.passTo role awake)
    | finished _ closed idle =>
      have stays : x.passTo role pause = x := by
        unfold Exchange.passTo
        rw [idle]
      rw [stays] at same ⊢
      exact .finished same closed idle
  tryPush {x y} item indistinct rest := by
    obtain ⟨_, _, sound, other⟩ := indistinct.sound_of_atRest rest
    have tries := Queue.tryPush_agrees sound.carries other.carries indistinct.same.queue item
    exact ⟨indistinct.play (.tryPush item) rest (indistinct.same.withQueue tries.1), tries.2⟩
  tryPop {x y} indistinct rest := by
    obtain ⟨_, _, sound, other⟩ := indistinct.sound_of_atRest rest
    have tries := Queue.tryPop_agrees sound.carries other.carries indistinct.same.queue
    exact ⟨indistinct.play .tryPop rest (indistinct.same.withQueue tries.1), tries.2⟩
  flush {x y} indistinct rest := by
    have flushed : y.queue.flush.blind = x.queue.flush.blind := by
      unfold Queue.flush
      rw [Queue.blind_publish, Queue.blind_publish, indistinct.same.queue]
    exact indistinct.play .flush rest (indistinct.same.withQueue flushed)
  close {x y} role indistinct rest := by
    have closes := (Queue.blind_close y.queue role).symm.trans
      ((congrArg (Queue.close · role) indistinct.same.queue).trans (Queue.blind_close x.queue role))
    obtain ⟨queue, event⟩ := Prod.ext_iff.mp closes
    exact ⟨indistinct.play (.close role) rest (indistinct.same.withQueue queue),
      event.trans (Event.mapIndex_id _).symm⟩
  release {x y} indistinct closed := by
    have releases : (y.queue.release.1, y.queue.release.2.blind) =
        (x.queue.release.1, x.queue.release.2.blind) :=
      congrArg Queue.release indistinct.same.queue
    obtain ⟨items, queue⟩ := Prod.ext_iff.mp releases
    refine ⟨.finished (indistinct.same.withQueue queue) closed ?_, items⟩
    intro role
    rw [current_withQueue]
    cases indistinct with
    | live _ _ _ sound =>
      refine busy_eq_false_iff.mp (Bool.eq_false_iff.mpr fun busy => ?_)
      have present := sound.present role busy
      rw [closed] at present
      cases present
    | finished _ _ idle => exact idle role

end Exchange

/-- What a party remembers of the other one cannot be noticed. A queue whose parties look at each
other's signpost only when what they saw last is not enough answers every step, and the tear-down, as
the queue does whose parties look every time. -/
theorem Transcript.ofSteps_lookup (settings : Settings) (steps : List (Step α)) :
    ofSteps (settings.withLookup .whenShort) steps = ofSteps (settings.withLookup .always) steps := by
  have alike : ofSteps (settings.withLookup .always) steps =
      (ofSteps (settings.withLookup .whenShort) steps).map (mapIndex id) := by
    refine ofSteps_alike Exchange.indistinct_simulation ?_ ?_ steps
    · intro cause refused
      unfold Queue.ofSettings at refused ⊢
      dsimp only [Settings.withLookup] at refused ⊢
      cases made : Ring.ofCapacity (α := α) settings.capacity settings.itemSize with
      | error => rw [made] at refused; exact refused
      | ok ring => rw [made] at refused; cases refused
    · intro q opened
      have sound := Exchange.sound_ofQueue (Queue.ofSettings_carries opened)
      unfold Queue.ofSettings at opened
      dsimp only [Settings.withLookup] at opened
      cases made : Ring.ofCapacity (α := α) settings.capacity settings.itemSize with
      | error => rw [made] at opened; cases opened
      | ok ring =>
        have other : Queue.ofSettings (settings.withLookup .always) = .ok { q with lookup := .always } := by
          unfold Queue.ofSettings
          dsimp only [Settings.withLookup]
          rw [made] at opened ⊢
          cases opened
          rfl
        refine ⟨_, other, .live [] [] ⟨fun role => by cases role <;> rfl, rfl⟩ sound ?_⟩
        exact Exchange.sound_ofQueue (Queue.ofSettings_carries other)
  rw [alike]
  cases ofSteps (settings.withLookup .whenShort) steps with
  | error cause => rfl
  | ok transcript => exact congrArg Except.ok transcript.mapIndex_id.symm

end SpscQueue
