import SpscQueue.Proofs.Chronicle

namespace SpscQueue

universe u

variable {α : Type u}

/-- The result of the step that a report is about. -/
def Report.result : Report α → Result α
  | .mk result _ _ => result

/-- Calls that only go on leave the handles as they are. -/
theorem Exchange.Runs.closed {x y : Exchange α} {moves : List (Move α)} {results : List (Result α)}
    (run : x.Runs moves results y) (silent : ∀ role, moves.filter (Move.opens role) = [])
    (role : Role) : y.queue.closed role = x.queue.closed role := by
  induction run with
  | rest => rfl
  | @next x y move moves results allowed _ ih =>
    have proceeds := silent move.role
    have onward : ∀ role, moves.filter (Move.opens role) = [] := by
      intro who
      have none := List.filter_eq_nil_iff.mp (silent who)
      exact List.filter_eq_nil_iff.mpr fun m member => none m (List.mem_cons_of_mem _ member)
    rw [ih onward]
    have first := List.filter_eq_nil_iff.mp proceeds move (List.mem_cons_self ..)
    cases move with
    | proceed who => exact (x.proceed_beside who).1.closed role
    | _ => exact absurd (beq_self_eq_true _) first

namespace Session

variable {x : Exchange α} {s : Session α} {deeds : List (Deed α)} {results : List (Result α)}
  {resumed : List (Resumption α)} {dropped : List α} {items : List α} {role : Role}

theorem Resumes.closed {after : Session α} {resumptions : List (Resumption α)}
    (resumes : Resumes s after resumptions) (role : Role) :
    after.queue.closed role = s.queue.closed role := by
  obtain ⟨moves, run, silent⟩ := resumes.runs
  exact run.closed silent role

theorem step_report (s : Session α) (next : Step α) :
    (s.step next).2.report = (perform next s).2 := rfl

namespace Chronicle

/-- What follows a step changes neither the monitors nor the handles. -/
theorem step_aside (sound : x.Sound items) (chronicle : Chronicle x s deeds results resumed dropped)
    (next : Step α) :
    (s.step next).1.monitors = (perform next s).1.monitors ∧
      (s.step next).1.held = (perform next s).1.held ∧
      ∀ role, (s.step next).1.queue.closed role = (perform next s).1.queue.closed role := by
  obtain ⟨resumes, _⟩ := chronicle.settles sound next
  cases owned : s.owned with
  | true =>
    rw [step_of_owned owned]
    obtain ⟨monitors, held⟩ := (perform next s).1.settle.1.releaseStorage_aside
    refine ⟨monitors.trans resumes.monitors, held.trans resumes.held, fun role => ?_⟩
    exact ((releaseStorage_still _ role).2.2).trans (resumes.closed role)
  | false =>
    rw [step_of_unowned owned]
    exact ⟨resumes.monitors, resumes.held, resumes.closed⟩

/-- A party whose peer is gone is at rest, for if it had parked it would have gone on. -/
theorem rest_of_peer_gone (sound : x.Sound items)
    (chronicle : Chronicle x s deeds results resumed dropped) (free : s.held = false)
    (gone : s.queue.closed role.peer = true) : s.exchange.current role = none := by
  cases owned : s.owned with
  | false => exact chronicle.idle_of_unowned sound owned role
  | true =>
    obtain ⟨left, soundNow⟩ := chronicle.sound_of_owned sound owned
    refine Exchange.busy_eq_false_iff.mp (Bool.eq_false_iff.mpr fun busy => ?_)
    have quiet := chronicle.quiet free role
    have parked := chronicle.calm role busy
    have told := soundNow.told role busy gone
    unfold Exchange.resumable at quiet
    rw [parked, told] at quiet
    cases quiet

/-- If the producer is parked, the consumer is there and at rest. -/
theorem consumer_free (sound : x.Sound items)
    (chronicle : Chronicle x s deeds results resumed dropped) (free : s.held = false)
    (parked : s.exchange.parked .producer = true) :
    s.queue.closed .consumer = false ∧ s.exchange.current .consumer = none ∧
      s.queue.closed .producer = false := by
  have owned : s.owned = true := by
    refine Bool.not_eq_false _ |>.mp fun gone => ?_
    have idle := Exchange.parked_of_idle (chronicle.idle_of_unowned sound gone .producer)
    rw [parked] at idle
    cases idle
  obtain ⟨left, soundNow⟩ := chronicle.sound_of_owned sound owned
  have silent (role : Role) (parks : s.exchange.parked role = true) :
      s.exchange.queue.signalled role = false := by
    have quiet := chronicle.quiet free role
    unfold Exchange.resumable at quiet
    rwa [parks, Bool.true_and] at quiet
  refine ⟨soundNow.peer_present parked (silent .producer parked), ?_,
    soundNow.present .producer (Exchange.busy_of_parked parked)⟩
  refine Exchange.busy_eq_false_iff.mp (Bool.eq_false_iff.mpr fun busy => ?_)
  have parks := chronicle.calm .consumer busy
  refine soundNow.not_both_asleep fun role => ?_
  cases role with
  | producer => exact ⟨parked, silent .producer parked⟩
  | consumer => exact ⟨parks, silent .consumer parks⟩

/-- A handle at rest can be closed. -/
theorem step_close (sound : x.Sound items) (chronicle : Chronicle x s deeds results resumed dropped)
    (here : s.queue.closed role = false) (idle : s.exchange.current role = none) :
    let next := s.step (.close role)
    next.2.report.result = .done ∧ next.1.queue.closed role = true ∧
      next.1.queue.closed role.peer = s.queue.closed role.peer ∧
      next.1.monitors = s.monitors ∧ next.1.held = s.held := by
  obtain ⟨monitors, held, closed⟩ := chronicle.step_aside sound (.close role)
  have performed : perform (.close role) s =
      (s.withQueue (s.queue.close role).1, .mk .done [(s.queue.close role).2] .nothing) := by
    have free : s.obstacle role = none := obstacle_eq_none_iff.mpr ⟨here, idle⟩
    rw [perform]
    unfold Session.close withHandle
    rw [free]
  rw [performed] at monitors held closed
  refine ⟨?_, ?_, ?_, monitors, held⟩
  · rw [step_report, performed]
    rfl
  · rw [closed]
    cases role <;> rfl
  · rw [closed]
    exact s.queue.close_closed_peer role

end Chronicle

/-- Both handles are gone after some steps all of which got through, and the monitors are left. -/
structure Cleared (s : Session α) (made : Session α × List (Answer α)) : Prop where
  done : ∀ answer ∈ made.2, answer.report.result = .done
  closed (role : Role) : made.1.queue.closed role = true
  monitors : made.1.monitors = s.monitors

namespace Chronicle

theorem clear_last (sound : x.Sound items) (chronicle : Chronicle x s deeds results resumed dropped)
    (free : s.held = false) (here : s.queue.closed role = false)
    (gone : s.queue.closed role.peer = true) : Cleared s (s.steps [.close role]) := by
  obtain ⟨done, closed, other, monitors, _⟩ :=
    chronicle.step_close sound here (chronicle.rest_of_peer_gone sound free gone)
  refine ⟨?_, fun who => ?_, monitors⟩
  · intro answer member
    rw [List.mem_singleton.mp member]
    exact done
  · rcases role.eq_or_eq_peer who with rfl | rfl
    · exact closed
    · exact other.trans gone

theorem clear_both (sound : x.Sound items) (chronicle : Chronicle x s deeds results resumed dropped)
    (free : s.held = false) (here : s.queue.closed role = false)
    (there : s.queue.closed role.peer = false) (idle : s.exchange.current role = none) :
    Cleared s (s.steps [.close role, .close role.peer]) := by
  obtain ⟨done, closed, other, monitors, held⟩ := chronicle.step_close sound here idle
  have later : Cleared _ ((s.step (.close role)).1.steps [.close role.peer]) :=
    (chronicle.step sound (.close role)).clear_last sound (held.trans free) (other.trans there)
      (by rwa [Role.peer_peer])
  refine ⟨?_, later.closed, later.monitors.trans monitors⟩
  intro answer member
  rcases List.mem_cons.mp member with rfl | second
  · exact done
  · exact later.done answer second

/-- The handles can be closed in the order chosen. -/
theorem clear (sound : x.Sound items) (chronicle : Chronicle x s deeds results resumed dropped)
    (free : s.held = false) : Cleared s (s.steps (s.closingOrder.map .close)) := by
  unfold closingOrder
  cases parked : s.exchange.parked .producer with
  | true =>
    obtain ⟨consumer, idle, producer⟩ := chronicle.consumer_free sound free parked
    simp only [if_true, List.filter, consumer, producer, Bool.not_false]
    exact chronicle.clear_both sound free consumer producer idle
  | false =>
    have idle : s.exchange.current .producer = none := by
      refine Exchange.busy_eq_false_iff.mp (Bool.eq_false_iff.mpr fun busy => ?_)
      rw [chronicle.calm .producer busy] at parked
      cases parked
    cases producer : s.queue.closed .producer with
    | false =>
      cases consumer : s.queue.closed .consumer with
      | false =>
        simp only [Bool.false_eq_true, if_false, List.filter, consumer, producer, Bool.not_false]
        exact chronicle.clear_both sound free producer consumer idle
      | true =>
        simp only [Bool.false_eq_true, if_false, List.filter, consumer, producer, Bool.not_false,
          Bool.not_true]
        exact chronicle.clear_last sound free producer consumer
    | true =>
      cases consumer : s.queue.closed .consumer with
      | false =>
        simp only [Bool.false_eq_true, if_false, List.filter, consumer, producer, Bool.not_false,
          Bool.not_true]
        exact chronicle.clear_last sound free consumer producer
      | true =>
        simp only [Bool.false_eq_true, if_false, List.filter, consumer, producer, Bool.not_true]
        exact ⟨fun _ none => (nomatch none), fun role => by cases role <;> assumption, rfl⟩

/-- The monitors that are left can be closed. -/
theorem close_monitors (sound : x.Sound items)
    (chronicle : Chronicle x s deeds results resumed dropped)
    (closed : ∀ role, s.queue.closed role = true) :
    let made := s.steps (s.monitors.map .closeMonitor)
    (∀ answer ∈ made.2, answer.report.result = .done) ∧
      (∀ role, made.1.queue.closed role = true) ∧ made.1.monitors = [] := by
  generalize left : s.monitors = monitors
  induction monitors generalizing s deeds results resumed dropped with
  | nil => exact ⟨fun _ none => (nomatch none), closed, left⟩
  | cons id rest ih =>
    obtain ⟨fewer, _, same⟩ := chronicle.step_aside sound (.closeMonitor id)
    have performed : perform (.closeMonitor id) s =
        ({ s with monitors := s.monitors.erase id }, plain .done) := by
      rw [perform]
      unfold withMonitor
      rw [if_pos (by rw [left]; simp)]
    rw [performed] at fewer same
    have onward : (s.step (.closeMonitor id)).1.monitors = rest := by
      rw [fewer]
      dsimp only
      rw [left, List.erase_cons_head]
    obtain ⟨done, gone, none⟩ := ih (chronicle.step sound (.closeMonitor id))
      (fun role => (same role).trans (closed role)) onward
    refine ⟨?_, gone, none⟩
    intro answer member
    rcases List.mem_cons.mp member with first | later
    · have report : answer.report = (perform (.closeMonitor id) s).2 := by
        rw [first]
        exact step_report s (.closeMonitor id)
      rw [report, performed]
      rfl
    · exact done answer later

end Chronicle

/-- A step of a tear-down that got through. It offers nothing to the queue. -/
def Closes (d : Deed α) : Prop :=
  d.result = .done ∧ ∀ move, d.step.opening = some move → move.offer = none

theorem deeds_of_simple {step : Step α} (simple : step.meanwhile = .nothing) (report : Report α) :
    report.deeds step = [⟨step, report.result⟩] := by
  obtain ⟨result, events, meanwhile⟩ := report
  rw [Report.deeds, simple, deedsMeanwhile_nothing]
  rfl

theorem deedsOfAll_simple {steps : List (Step α)} (simple : ∀ step ∈ steps, step.meanwhile = .nothing)
    (answers : List (Answer α)) :
    ∀ deed ∈ Report.deedsOfAll steps (answers.map (·.report)),
      deed.step ∈ steps ∧ ∃ answer ∈ answers, answer.report.result = deed.result := by
  induction steps generalizing answers with
  | nil =>
    intro deed member
    cases answers <;> (simp only [List.map_nil, List.map_cons] at member; rw [Report.deedsOfAll] at member) <;>
      cases member
  | cons step steps ih =>
    intro deed member
    cases answers with
    | nil =>
      simp only [List.map_nil] at member
      rw [Report.deedsOfAll] at member
      cases member
    | cons answer answers =>
      rw [List.map_cons, Report.deedsOfAll, deeds_of_simple (simple step (List.mem_cons_self ..))] at member
      rcases List.mem_append.mp member with first | later
      · rw [List.mem_singleton.mp first]
        exact ⟨List.mem_cons_self .., answer, List.mem_cons_self .., rfl⟩
      · obtain ⟨known, answered, listed, same⟩ :=
          ih (fun step member => simple step (List.mem_cons_of_mem _ member)) answers deed later
        exact ⟨List.mem_cons_of_mem _ known, answered, List.mem_cons_of_mem _ listed, same⟩

/-- A step that neither waits nor offers anything. -/
def Plain (step : Step α) : Prop :=
  step.meanwhile = .nothing ∧ ∀ move, step.opening = some move → move.offer = none

theorem closes_of_done {steps : List (Step α)} (plain : ∀ step ∈ steps, Plain step)
    {answers : List (Answer α)} (done : ∀ answer ∈ answers, answer.report.result = .done) :
    ∀ deed ∈ Report.deedsOfAll steps (answers.map (·.report)), Closes deed := by
  intro deed member
  obtain ⟨known, answer, listed, same⟩ :=
    deedsOfAll_simple (fun step member => (plain step member).1) answers deed member
  exact ⟨same.symm.trans (done answer listed), (plain deed.step known).2⟩

theorem plain_closes (roles : List Role) : ∀ step ∈ roles.map (Step.close : Role → Step α), Plain step := by
  intro step member
  obtain ⟨role, _, rfl⟩ := List.mem_map.mp member
  refine ⟨rfl, fun move opens => ?_⟩
  cases opens
  rfl

theorem plain_closeMonitors (ids : List Nat) :
    ∀ step ∈ ids.map (Step.closeMonitor : Nat → Step α), Plain step := by
  intro step member
  obtain ⟨id, _, rfl⟩ := List.mem_map.mp member
  exact ⟨rfl, fun move opens => nomatch opens⟩

theorem plain_release (held : Bool) :
    ∀ step ∈ (if held then [.release] else [] : List (Step α)), Plain step := by
  intro step member
  cases held with
  | false => cases member
  | true =>
    rw [List.mem_singleton.mp member]
    exact ⟨rfl, fun move opens => nomatch opens⟩

/-- What a tear-down leaves behind, and what it tells. -/
structure TornDown (x : Exchange α) (s : Session α) (deeds : List (Deed α)) (results : List (Result α))
    (resumed : List (Resumption α)) (dropped : List α) (made : Session α × List (Answer α)) :
    Prop where
  done : ∀ answer ∈ made.2, answer.report.result = .done
  closed (role : Role) : made.1.queue.closed role = true
  monitors : made.1.monitors = []
  story : ∃ closings : List (Deed α), (∀ deed ∈ closings, Closes deed) ∧
    Chronicle x made.1 (deeds ++ closings) (results ++ made.2.flatMap (·.results))
      (resumed ++ made.2.flatMap (·.resumptions)) (dropped ++ made.2.flatMap (·.dropped))

namespace Chronicle

theorem free_all (sound : x.Sound items) (chronicle : Chronicle x s deeds results resumed dropped) :
    let made := s.steps (if s.held then [.release] else [])
    (∀ answer ∈ made.2, answer.report.result = .done) ∧ made.1.held = false := by
  cases held : s.held with
  | false => exact ⟨fun _ none => (nomatch none), held⟩
  | true =>
    obtain ⟨_, free, _⟩ := chronicle.step_aside sound .release
    refine ⟨?_, free⟩
    intro answer member
    rw [List.mem_singleton.mp member]
    rfl

/-- Whatever a session has come to, its tear-down gets through. -/
theorem tearDown (sound : x.Sound items) (chronicle : Chronicle x s deeds results resumed dropped) :
    TornDown x s deeds results resumed dropped s.tearDown := by
  obtain ⟨freeing, free⟩ := chronicle.free_all sound
  have first := chronicle.steps sound (if s.held then [.release] else [])
  have closesFirst := closes_of_done (plain_release s.held) freeing
  unfold Session.tearDown
  dsimp only
  generalize s.steps (if s.held then [.release] else []) = freed at *
  have clears := first.clear sound free
  have second := first.steps sound (freed.1.closingOrder.map .close)
  have closesSecond := closes_of_done (plain_closes freed.1.closingOrder) clears.done
  generalize freed.1.steps (freed.1.closingOrder.map .close) = closed at *
  obtain ⟨done, gone, none⟩ := second.close_monitors sound clears.closed
  have third := second.steps sound (closed.1.monitors.map .closeMonitor)
  have closesThird := closes_of_done (plain_closeMonitors closed.1.monitors) done
  generalize closed.1.steps (closed.1.monitors.map .closeMonitor) = final at *
  refine ⟨?_, gone, none,
    Report.deedsOfAll (if s.held then [.release] else []) (freed.2.map (·.report)) ++
      Report.deedsOfAll (freed.1.closingOrder.map .close) (closed.2.map (·.report)) ++
      Report.deedsOfAll (closed.1.monitors.map .closeMonitor) (final.2.map (·.report)), ?_, ?_⟩
  · intro answer member
    simp only [List.mem_append] at member
    rcases member with (one | two) | three
    · exact freeing answer one
    · exact clears.done answer two
    · exact done answer three
  · intro deed member
    simp only [List.mem_append] at member
    rcases member with (one | two) | three
    · exact closesFirst deed one
    · exact closesSecond deed two
    · exact closesThird deed three
  · simpa only [List.append_assoc, List.flatMap_append] using third

end Chronicle

end Session

end SpscQueue
