import SpscQueue.Proofs.Beside

namespace SpscQueue

universe u

variable {α : Type u} {role : Role}

/-- The step that makes a waiting call. A batch keeps what was collected before, or not. -/
def Call.step (keep : Bool) : {role : Role} → Call α role → Meanwhile (Step α) → Step α
  | _, push item force, meanwhile => .push item force meanwhile
  | _, pop, meanwhile => .pop meanwhile
  | _, popBatch, meanwhile => .popBatch keep meanwhile

/-- What is left of the items collected before when a call begins. -/
def Call.left (keep : Bool) : {role : Role} → Call α role → List α → List α
  | _, popBatch, collected => if keep then collected else []
  | _, _, collected => collected

namespace Queue

variable {q : Queue α} {seen : Index}

theorem look_of_short (short : q.ready role = false) : q.look role = q.refresh role := by
  unfold look
  split
  · rw [if_neg (Bool.eq_false_iff.mp short)]
  · rfl

/-- A call whose party could not move on when it last looked begins with a fresh look. -/
theorem prepare_look_of_short (call : Call α role) (short : q.ready role = false) :
    (call.prepare q).look role = q.refresh role := by
  cases call with
  | push | pop => exact look_of_short short
  | popBatch => exact q.look_refresh .consumer

/-- What a call comes to that looks for the last time before it parks. -/
def afresh (q : Queue α) (role : Role) : Stretch α :=
  if (q.refresh role).ready role then ⟨q.refresh role, [], .ready⟩ else (q.refresh role).enrol role

theorem resume_sleep_stale (stale : (q.remember seen role).ready role = false) :
    (q.remember seen role).resume role .sleep = q.afresh role := by
  unfold resume
  dsimp only
  rw [look_of_short stale, remember_refresh]
  rfl

theorem resume_snooze_stale (stale : (q.remember seen role).ready role = false) (round : Nat) :
    ∃ pause, (q.remember seen role).resume role (.snooze round) =
      if (q.refresh role).ready role then ⟨q.refresh role, [], .ready⟩
      else ⟨q.refresh role, [], .pausing pause⟩ := by
  unfold resume
  dsimp only
  rw [look_of_short stale, remember_refresh]
  exact ⟨_, rfl⟩

/-- Where a party last saw its peer is as good as it was, whatever its peer has done. -/
theorem Alike.ready_remember {next : Queue α} (alike : Alike role.peer q next) (seen : Index) :
    (next.remember seen role).ready role = (q.remember seen role).ready role := by
  have cursor := alike.cursor
  rw [role.peer_peer] at cursor
  cases role with
  | producer =>
    have same : next.producer.cursor = q.producer.cursor := cursor
    show decide (seen.gap next.producer.cursor.position ≤ next.capacity - 1) =
      decide (seen.gap q.producer.cursor.position ≤ q.capacity - 1)
    rw [same, alike.capacity]
  | consumer =>
    have same : next.consumer.cursor = q.consumer.cursor := cursor
    show decide (1 ≤ next.consumer.cursor.position.gap seen) =
      decide (1 ≤ q.consumer.cursor.position.gap seen)
    rw [same]

theorem remember_self (q : Queue α) (role : Role) : q.remember (q.side role).cursor.seen role = q := by
  cases role <;> rfl

end Queue

namespace Exchange

section

variable (x : Exchange α) (paused : Option (Paused α role)) (seen : Index)

/-- What a call of the party itself comes to replaces where it was before. -/
theorem arrive_amid (call : Call α role) (stretch : Stretch α) :
    (x.amid paused seen).arrive call stretch = x.arrive call stretch := by
  unfold arrive
  split <;> cases role <;> rfl

theorem passTo_amid (call : Call α role) (pause stop : Pause) :
    (x.amid (some ⟨call, pause⟩) seen).passTo role stop = x.amid (some ⟨call, stop⟩) seen := by
  rw [passTo_eq current_amid]
  cases role <;> rfl

end

/-- A call of a party that could not move on when it last looked, while its peer is there. -/
theorem start_of_short {x : Exchange α} (call : Call α role) (short : x.queue.ready role = false)
    (present : x.queue.closed role.peer = false) :
    ∃ pause, x.start call =
      if (x.queue.refresh role).ready role then x.arrive call ⟨x.queue.refresh role, [], .ready⟩
      else ⟨x.amid (some ⟨call, pause⟩) (x.queue.side role.peer).post.index, [], none⟩ := by
  have there : (x.queue.refresh role).closed role.peer = false := by
    rwa [Queue.refresh_eq_remember, Queue.remember_closed]
  refine ⟨(x.queue.refresh role).firstPause, ?_⟩
  unfold start Queue.await
  dsimp only
  rw [Queue.prepare_look_of_short call short]
  split
  · rfl
  · unfold Queue.beginRound
    rw [there, if_neg Bool.false_ne_true, Queue.refresh_eq_remember]
    rfl

end Exchange

namespace Session

variable {s t : Session α} {seen : Index} {collected : List α} {act : Interlude α} {pause : Pause}

/-- The reports on the steps made during the pauses of a call, from some pause on. -/
def reported (pause : Pause) (reports : Option (List (Report α))) (later : Meanwhile (Report α)) :
    Meanwhile (Report α) :=
  match reports with
  | none => later
  | some reports => .during pause reports later

/-- Where a call comes to that looks for the last time before it parks. -/
def closing (s : Session α) (call : Call α role) : Carried α :=
  let advance := s.exchange.arrive call (s.queue.afresh role)
  match s.absorb advance with
  | (ended, some result) => ⟨ended, result, advance.events, .nothing⟩
  | (moved, none) => ⟨moved, .parked, advance.events, .nothing⟩

/-- A call that can move on after its last look ends with it. -/
theorem closing_of_ready (call : Call α role) (ready : (s.queue.refresh role).ready role = true) :
    s.closing call =
      let advance := s.exchange.arrive call ⟨s.queue.refresh role, [], .ready⟩
      let concluded := ({ s with exchange := advance.exchange } : Session α).conclude
        (call.finish (s.queue.refresh role)).2
      ⟨concluded.1, concluded.2, [], .nothing⟩ := by
  have looked : s.queue.afresh role = ⟨s.queue.refresh role, [], .ready⟩ := if_pos ready
  unfold closing
  rw [looked]
  rfl

theorem perform_call (call : Call α role) (keep : Bool) (meanwhile : Meanwhile (Step α))
    (free : s.obstacle role = none) :
    perform (call.step keep meanwhile) s =
      let carried := (s.collecting role (call.left keep s.collected)).carry role
        (Session.act meanwhile) (meanwhile.stops s.queue.snoozeRounds) (s.exchange.start call)
      (carried.session, .mk carried.result carried.events carried.meanwhile) := by
  cases call with
  | push item force =>
    rw [Call.step, perform]
    unfold Session.call withHandle
    rw [free]
    rfl
  | pop =>
    rw [Call.step, perform]
    unfold Session.call withHandle
    rw [free]
    rfl
  | popBatch =>
    have emptied : (if keep then s else { s with collected := [] } : Session α) =
        s.collecting .consumer (Call.left keep .popBatch s.collected) := by cases keep <;> rfl
    have still : (s.collecting .consumer (Call.left keep .popBatch s.collected)).obstacle .consumer =
        none := free
    rw [Call.step, perform]
    unfold Session.call withHandle
    rw [free]
    dsimp only
    rw [emptied, still]
    rfl

theorem passTo_amid (s : Session α) (call : Call α role) (pause stop : Pause) :
    ({ s.amid (some ⟨call, pause⟩) seen collected with
        exchange := (s.amid (some ⟨call, pause⟩) seen collected).exchange.passTo role stop } : Session α) =
      s.amid (some ⟨call, stop⟩) seen collected := by
  unfold amid
  dsimp only
  rw [Exchange.passTo_amid]

theorem absorb_amid (s : Session α) (paused : Option (Paused α role)) (advance : Advance α) :
    (s.amid paused seen collected).absorb advance = (s.collecting role collected).absorb advance := rfl

/-- A call that pauses in its sleep, with the peer at it meanwhile. -/
theorem carryThrough_sleep_amid (pause : Pause) {call : Call α role} {reports : Option (List (Report α))}
    (acts : act .sleep (s.amid (some ⟨call, .sleep⟩) seen collected) =
      (t.amid (some ⟨call, .sleep⟩) seen collected, reports))
    (stale : (t.queue.remember seen role).ready role = false) :
    carryThrough role act [.sleep] (s.amid (some ⟨call, pause⟩) seen collected) =
      { (t.collecting role collected).closing call with meanwhile := reported .sleep reports .nothing } := by
  have advanced : (t.amid (some ⟨call, .sleep⟩) seen collected).exchange.proceed role =
      t.exchange.arrive call (t.queue.afresh role) := by
    show (t.exchange.amid (some ⟨call, .sleep⟩) seen).proceed role = _
    rw [Exchange.proceed_eq Exchange.current_amid, Exchange.arrive_amid, Exchange.amid_queue]
    exact congrArg (t.exchange.arrive call) (Queue.resume_sleep_stale stale)
  rw [carryThrough_cons, passTo_amid, acts]
  dsimp only
  rw [advanced, absorb_amid]
  have same : (t.collecting role collected).exchange.arrive call
      ((t.collecting role collected).queue.afresh role) = t.exchange.arrive call (t.queue.afresh role) := rfl
  unfold closing
  rw [same]
  generalize t.exchange.arrive call (t.queue.afresh role) = advance
  dsimp only
  generalize (t.collecting role collected).absorb advance = taken
  obtain ⟨after, told⟩ := taken
  cases told with
  | none =>
    unfold carryThrough
    dsimp only
    rw [List.append_nil]
    rfl
  | some result =>
    dsimp only
    rw [List.append_nil]
    rfl

/-- A call that pauses in a round of spinning, with the peer at it meanwhile. -/
theorem carryThrough_snooze_amid {call : Call α role} {round : Nat} {reports : Option (List (Report α))}
    (acts : act (.snooze round) (s.amid (some ⟨call, .snooze round⟩) seen collected) =
      (t.amid (some ⟨call, .snooze round⟩) seen collected, reports))
    (quiet : ∀ s, act .sleep s = (s, none)) (stale : (t.queue.remember seen role).ready role = false) :
    carryThrough role act [.snooze round, .sleep] (s.amid (some ⟨call, pause⟩) seen collected) =
      { (t.collecting role collected).closing call with
        meanwhile := reported (.snooze round) reports .nothing } := by
  obtain ⟨next, resumes⟩ := Queue.resume_snooze_stale stale round
  have advanced : (t.amid (some ⟨call, .snooze round⟩) seen collected).exchange.proceed role =
      t.exchange.arrive call (if (t.queue.refresh role).ready role then ⟨t.queue.refresh role, [], .ready⟩
        else ⟨t.queue.refresh role, [], .pausing next⟩) := by
    show (t.exchange.amid (some ⟨call, .snooze round⟩) seen).proceed role = _
    rw [Exchange.proceed_eq Exchange.current_amid, Exchange.arrive_amid, Exchange.amid_queue]
    exact congrArg (t.exchange.arrive call) resumes
  rw [carryThrough_cons, passTo_amid, acts]
  dsimp only
  rw [advanced, absorb_amid]
  by_cases ready : (t.queue.refresh role).ready role = true
  · rw [if_pos ready, closing_of_ready (s := t.collecting role collected) call ready]
    rfl
  · -- the call spins on to its sleep, where nothing happens, and looks again at what it has just seen
    have short := Bool.eq_false_iff.mpr ready
    rw [Queue.refresh_eq_remember] at short
    have waits : t.exchange.arrive call ⟨t.queue.refresh role, [], .pausing next⟩ =
        ⟨t.exchange.amid (some ⟨call, next⟩) (t.queue.side role.peer).post.index, [], none⟩ := by
      rw [Queue.refresh_eq_remember]
      rfl
    have later := carryThrough_sleep_amid next (quiet (t.amid (some ⟨call, .sleep⟩) _ collected)) short
    rw [if_neg ready, waits, absorb_none rfl]
    unfold amid at later
    dsimp only
    rw [later]
    rfl

section

variable (call : Call α role) (free : s.obstacle role = none) (short : s.queue.ready role = false)
  (present : s.queue.closed role.peer = false)

include free short present

/-- A call that cannot move on pauses for the first time. -/
theorem perform_stuck (keep : Bool) (meanwhile : Meanwhile (Step α))
    (stuck : (s.queue.refresh role).ready role = false) :
    ∃ pause, perform (call.step keep meanwhile) s =
      let carried := carryThrough role (Session.act meanwhile) (meanwhile.stops s.queue.snoozeRounds)
        (s.amid (some ⟨call, pause⟩) (s.queue.side role.peer).post.index (call.left keep s.collected))
      (carried.session, .mk carried.result carried.events carried.meanwhile) := by
  obtain ⟨pause, starts⟩ := Exchange.start_of_short call short present
  have waits : s.exchange.start call =
      ⟨s.exchange.amid (some ⟨call, pause⟩) (s.queue.side role.peer).post.index, [], none⟩ :=
    starts.trans (if_neg (Bool.eq_false_iff.mp stuck))
  refine ⟨pause, ?_⟩
  rw [perform_call call keep meanwhile free, waits]
  unfold carry
  rw [absorb_none rfl]
  rfl

/-- A call with nothing in its pauses, of a party that could not move on when it last looked. -/
theorem perform_bare (keep : Bool) :
    perform (call.step keep .nothing) s =
      let ended := (s.collecting role (call.left keep s.collected)).closing call
      (ended.session, .mk ended.result ended.events .nothing) := by
  cases ready : (s.queue.refresh role).ready role with
  | true =>
    obtain ⟨pause, starts⟩ := Exchange.start_of_short call short present
    have ends : s.exchange.start call = s.exchange.arrive call ⟨s.queue.refresh role, [], .ready⟩ :=
      starts.trans (if_pos ready)
    rw [perform_call call keep .nothing free, ends]
    rw [closing_of_ready (s := s.collecting role (call.left keep s.collected)) call ready]
    rfl
  | false =>
    have stale : (s.queue.remember (s.queue.side role.peer).post.index role).ready role = false := by
      rwa [← Queue.refresh_eq_remember]
    obtain ⟨pause, performed⟩ := perform_stuck call free short present keep .nothing ready
    have idle (t : Session α) : Session.act .nothing .sleep t = (t, none) := rfl
    have rest := carryThrough_sleep_amid pause
      (idle (s.amid (some ⟨call, .sleep⟩) _ (call.left keep s.collected))) stale
    have stops : (Meanwhile.nothing : Meanwhile (Step α)).stops s.queue.snoozeRounds = [.sleep] := rfl
    rw [performed, stops, rest]
    rfl

end

/-- A party that finds no way on has seen none before. -/
theorem short_of_stuck {q : Queue α} {items : List α} (carries : q.Carries items) (call : Call α role)
    (stuck : ((call.prepare q).look role).ready role = false) : q.ready role = false := by
  refine Bool.eq_false_iff.mpr fun ready => ?_
  have moves := carries.canMove_of_ready ready
  have looked : ((call.prepare q).look role).ready role = true := by
    cases call with
    | push | pop => exact (carries.look_ready _).mpr moves
    | popBatch => exact ((carries.refresh .consumer).look_ready .consumer).mpr moves
  rw [stuck] at looked
  cases looked

theorem amid_self (s : Session α) (role : Role) :
    s.amid (s.exchange.current role) (s.queue.side role).cursor.seen s.collected = s := by
  cases role <;> rfl

/-- What the steps beside a party leave as it was. -/
structure Awaits (role : Role) (s t : Session α) : Prop where
  alike : Queue.Alike role.peer s.queue t.queue
  current : t.exchange.current role = s.exchange.current role
  collecting (collected : List α → List α) :
    t.collecting role (collected t.collected) = t.collecting role (collected s.collected)

theorem performAll_awaits {steps : List (Step α)} (beside : ∀ step ∈ steps, step.Beside role)
    (s : Session α) : Awaits role s (performAll steps s).1 := by
  have moves := s.amid_performAll (s.exchange.current role) (s.queue.side role).cursor.seen s.collected
    beside
  rw [amid_self] at moves
  have stays := congrArg Prod.fst moves
  refine ⟨alike_performAll beside s, ?_, fun collected => ?_⟩
  · exact (congrArg (·.exchange.current role) stays).trans Exchange.current_amid
  · cases role with
    | producer => rfl
    | consumer =>
      have same : (performAll steps s).1.collected = s.collected :=
        (congrArg Session.collected stays).trans rfl
      rw [same]

namespace Awaits

variable (awaits : Awaits role s t)

include awaits

theorem ready : t.queue.ready role = s.queue.ready role := by
  have cursor := awaits.alike.cursor
  rw [role.peer_peer] at cursor
  have same := awaits.alike.ready_remember (s.queue.side role).cursor.seen
  rwa [Queue.remember_self, ← cursor, Queue.remember_self] at same

theorem obstacle : t.obstacle role = s.obstacle role :=
  obstacle_eq awaits.current (awaits.alike.closed role)

end Awaits

/-- It makes no difference when a waiting call finds out what its peer has done meanwhile. A call that
finds no way on may come upon it in its sleep, in any round of spinning, or right away, if its peer is
through with it before. In each case the peer gets the same answers, and the call comes to the same
result, logs the same, and leaves the same state behind. -/
theorem meantime_agrees {settings : Settings} {fresh : Session α} {moves : List (Move α)}
    {results : List (Result α)} {steps : List (Step α)}
    (opened : Session.ofSettings settings = .ok fresh)
    (reached : fresh.exchange.Runs moves results s.exchange)
    (call : Call α role) (keep : Bool) (free : s.obstacle role = none)
    (present : s.queue.closed role.peer = false)
    (stuck : ((call.prepare s.queue).look role).ready role = false)
    (beside : ∀ step ∈ steps, step.Beside role) :
    let meantime := performAll steps s
    ∃ last result events,
      perform (call.step keep .nothing) meantime.1 = (last, .mk result events .nothing) ∧
      perform (call.step keep (.during .sleep steps .nothing)) s =
        (last, .mk result events (.during .sleep meantime.2 .nothing)) ∧
      ∀ round, 1 ≤ round → round ≤ s.queue.snoozeRounds →
        perform (call.step keep (.during (.snooze round) steps .nothing)) s =
          (last, .mk result events (.during (.snooze round) meantime.2 .nothing)) := by
  obtain ⟨_, sound, _, _⟩ := begins_of_opened opened
  obtain ⟨items, soundNow, _⟩ := sound.run reached
  have short : s.queue.ready role = false := short_of_stuck soundNow.carries call stuck
  have awaits := performAll_awaits beside s
  have stuckThen : (s.queue.refresh role).ready role = false := by
    rwa [← Queue.prepare_look_of_short call short]
  have stale : ((performAll steps s).1.queue.remember (s.queue.side role.peer).post.index role).ready role =
      false := by
    rw [awaits.alike.ready_remember, ← Queue.refresh_eq_remember]
    exact stuckThen
  -- the peer does the same whether the call pauses meanwhile or is yet to begin
  have acted (pause : Pause) := s.amid_performAll (some ⟨call, pause⟩) (s.queue.side role.peer).post.index
    (call.left keep s.collected) beside
  refine ⟨_, _, _, perform_bare call (awaits.obstacle.trans free) (awaits.ready.trans short)
    ((awaits.alike.closed _).trans present) keep, ?_, fun round first last => ?_⟩
  · obtain ⟨pause, performed⟩ :=
      perform_stuck call free short present keep (.during .sleep steps .nothing) stuckThen
    have stops : (Meanwhile.during .sleep steps .nothing).stops s.queue.snoozeRounds = [.sleep] := rfl
    have acts : Session.act (.during .sleep steps .nothing) .sleep (s.amid (some ⟨call, .sleep⟩)
        (s.queue.side role.peer).post.index (call.left keep s.collected)) =
          ((performAll steps s).1.amid (some ⟨call, .sleep⟩) (s.queue.side role.peer).post.index
            (call.left keep s.collected), some (performAll steps s).2) := by
      rw [Session.act, if_pos rfl, acted]
    rw [performed, stops, carryThrough_sleep_amid pause acts stale, awaits.collecting (call.left keep)]
    rfl
  · obtain ⟨pause, performed⟩ :=
      perform_stuck call free short present keep (.during (.snooze round) steps .nothing) stuckThen
    have stops : (Meanwhile.during (.snooze round) steps .nothing).stops s.queue.snoozeRounds =
        [.snooze round, .sleep] := by
      simp [Meanwhile.stops, Meanwhile.rounds, insertAscending, first, last]
    have acts : Session.act (.during (.snooze round) steps .nothing) (.snooze round)
        (s.amid (some ⟨call, .snooze round⟩) (s.queue.side role.peer).post.index
          (call.left keep s.collected)) =
        ((performAll steps s).1.amid (some ⟨call, .snooze round⟩) (s.queue.side role.peer).post.index
          (call.left keep s.collected), some (performAll steps s).2) := by
      rw [Session.act, if_pos rfl, acted]
    have apart : Pause.snooze round ≠ .sleep := Pause.noConfusion
    have quiet (t : Session α) :
        Session.act (.during (.snooze round) steps .nothing) .sleep t = (t, none) := by
      rw [Session.act, if_neg apart, Session.act]
    rw [performed, stops, carryThrough_snooze_amid acts quiet stale, awaits.collecting (call.left keep)]
    rfl

/-- A push finds the queue full, next to the top of the index range. Meanwhile the consumer takes the
item and parks over the empty queue. The push finds that out in its eighth round of spinning. -/
theorem meantime_agrees_parked_peer :
    ∃ fresh s : Session Nat,
      Session.ofSettings ⟨1, by decide, 9, 1000, 18446744073709551615, .whenShort, 8⟩ = .ok fresh ∧
        fresh.exchange.Runs [.tryPush 7] [.tryPush (.accepted 7)] s.exchange ∧
        (performAll [.tryPop, .pop .nothing] s).1.exchange.parked .consumer = true ∧
        (perform (.push 8 false (.during (.snooze 8) [.tryPop, .pop .nothing] .nothing)) s).1 =
          (perform (.push 8 false .nothing) (performAll [.tryPop, .pop .nothing] s).1).1 := by
  have opened : Session.ofSettings (α := Nat)
      ⟨1, by decide, 9, 1000, 18446744073709551615, .whenShort, 8⟩ = .ok _ := rfl
  have beside : ∀ step ∈ [Step.tryPop, Step.pop (α := Nat) .nothing], step.Beside .producer := by
    intro step member
    simp only [List.mem_cons, List.not_mem_nil, or_false] at member
    rcases member with rfl | rfl <;>
      exact ⟨by decide, fun _ same => (nomatch same), rfl⟩
  have reached (x : Exchange Nat) (free : x.allows (.tryPush 7) = true) :
      x.Runs [.tryPush 7] (x.play (.tryPush 7)).result.toList (x.play (.tryPush 7)).exchange := .single free
  refine ⟨_, ⟨_, [], [], false⟩, opened, reached _ rfl, by decide +kernel, ?_⟩
  obtain ⟨last, result, events, bare, _, spins⟩ :=
    meantime_agrees opened (s := ⟨_, [], [], false⟩) (reached _ rfl) (.push 8 false) false
      (by decide +kernel) (by decide +kernel) (by decide +kernel) beside
  exact (congrArg Prod.fst (spins 8 (by decide) (by decide +kernel))).trans (congrArg Prod.fst bare).symm

end Session

end SpscQueue
