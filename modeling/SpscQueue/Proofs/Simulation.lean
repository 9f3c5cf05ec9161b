import SpscQueue.Proofs.Chronicle
import SpscQueue.Proofs.Relabeling

namespace SpscQueue

universe u

variable {α : Type u} {f : Index → Index} {role : Role}

theorem Cursor.deferred_eq_zero_iff (c : Cursor) : c.deferred = 0 ↔ c.published = c.position := by
  unfold deferred
  constructor
  · intro none
    have reached := c.published.add_gap c.position
    rwa [none, UInt64.add_zero] at reached
  · intro same
    rw [same, Index.gap_self]

/-- What happens during the pauses, told in another way. -/
def Meanwhile.retell {β : Type u} (tell : Pause → List β → List β) : Meanwhile β → Meanwhile β
  | .nothing => .nothing
  | .during pause steps rest => .during pause (tell pause steps) (rest.retell tell)

/-- A report that tells other indices, and of the steps made during the pauses in another way. -/
def Report.retell (f : Index → Index) (tell : Pause → List (Report α) → List (Report α)) :
    Report α → Report α
  | .mk result events meanwhile =>
    .mk (result.mapIndex f) (events.map (Event.mapIndex f)) (meanwhile.retell tell)

theorem Report.mapIndexMeanwhile_eq_retell (f : Index → Index) (meanwhile : Meanwhile (Report α)) :
    mapIndexMeanwhile f meanwhile = meanwhile.retell fun _ => mapIndexAll f := by
  induction meanwhile with
  | nothing => rw [mapIndexMeanwhile, Meanwhile.retell]
  | during pause reports rest ih => rw [mapIndexMeanwhile, Meanwhile.retell, ih]

theorem Report.mapIndex_eq_retell (f : Index → Index) (report : Report α) :
    report.mapIndex f = report.retell f fun _ => mapIndexAll f := by
  obtain ⟨result, events, meanwhile⟩ := report
  rw [Report.mapIndex, Report.retell, mapIndexMeanwhile_eq_retell]

namespace Exchange

/-- All that a session reads off an exchange is the same for both, but for the places of the
parties. -/
structure Resembles (f : Index → Index) (x y : Exchange α) : Prop where
  current (role : Role) : y.current role = x.current role
  closed (role : Role) : y.queue.closed role = x.queue.closed role
  signalled (role : Role) : y.queue.signalled role = x.queue.signalled role
  position (role : Role) : y.queue.position role = f (x.queue.position role)
  deferred (role : Role) : (y.queue.side role).cursor.deferred = (x.queue.side role).cursor.deferred
  length (role : Role) : y.queue.length role = x.queue.length role
  visibleLength : y.queue.visibleLength = x.queue.visibleLength
  capacity : y.queue.capacity = x.queue.capacity
  rounds : y.queue.snoozeRounds = x.queue.snoozeRounds
  size : y.queue.ring.size = x.queue.ring.size
  wakeups : y.queue.wakeups = x.queue.wakeups

/-- Two advances that tell the same, but for the indices, and lead to related exchanges. -/
structure Matches (f : Index → Index) (R : Exchange α → Exchange α → Prop) (a b : Advance α) :
    Prop where
  exchange : R a.exchange b.exchange
  events : b.events = a.events.map (Event.mapIndex f)
  outcome : b.outcome = a.outcome

/-- Related exchanges resemble each other, and stay related whatever is done to both of them. -/
structure Simulation (f : Index → Index) (R : Exchange α → Exchange α → Prop) : Prop where
  resembles {x y : Exchange α} : R x y → x.Resembles f y
  start {x y : Exchange α} {role : Role} (call : Call α role) : R x y → x.atRest role = true →
    Matches f R (x.start call) (y.start call)
  proceed {x y : Exchange α} (role : Role) : R x y → Matches f R (x.proceed role) (y.proceed role)
  passTo {x y : Exchange α} (role : Role) {pause : Pause} : R x y → pause ≠ .park →
    R (x.passTo role pause) (y.passTo role pause)
  tryPush {x y : Exchange α} (item : α) : R x y → x.atRest .producer = true →
    R { x with queue := (x.queue.tryPush item).1 } { y with queue := (y.queue.tryPush item).1 } ∧
      (y.queue.tryPush item).2 = (x.queue.tryPush item).2
  tryPop {x y : Exchange α} : R x y → x.atRest .consumer = true →
    R { x with queue := x.queue.tryPop.1 } { y with queue := y.queue.tryPop.1 } ∧
      y.queue.tryPop.2 = x.queue.tryPop.2
  flush {x y : Exchange α} : R x y → x.atRest .producer = true →
    R { x with queue := x.queue.flush } { y with queue := y.queue.flush }
  close {x y : Exchange α} (role : Role) : R x y → x.atRest role = true →
    R { x with queue := (x.queue.close role).1 } { y with queue := (y.queue.close role).1 } ∧
      (y.queue.close role).2 = (x.queue.close role).2.mapIndex f
  release {x y : Exchange α} : R x y → (∀ role, x.queue.closed role = true) →
    R { x with queue := x.queue.release.2 } { y with queue := y.queue.release.2 } ∧
      y.queue.release.1 = x.queue.release.1

end Exchange

namespace Session

open Exchange (Matches Resembles Simulation)

variable {R : Exchange α → Exchange α → Prop} {s t : Session α}

/-- Two sessions in related states. -/
structure Twins (R : Exchange α → Exchange α → Prop) (s t : Session α) : Prop where
  exchange : R s.exchange t.exchange
  collected : t.collected = s.collected
  monitors : t.monitors = s.monitors
  held : t.held = s.held

/-- Two sessions have made the same step: their states are related again, and what they report is the
same but for the indices. -/
structure Alike (f : Index → Index) (R : Exchange α → Exchange α → Prop)
    (made other : Session α × Report α) : Prop where
  twins : Twins R made.1 other.1
  report : other.2 = made.2.mapIndex f

namespace Twins

theorem withQueue {q p : Queue α} (twins : Twins R s t)
    (related : R { s.exchange with queue := q } { t.exchange with queue := p }) :
    Twins R (s.withQueue q) (t.withQueue p) :=
  { twins with exchange := related }

theorem withExchange {x y : Exchange α} (twins : Twins R s t) (related : R x y) :
    Twins R { s with exchange := x } { t with exchange := y } :=
  { twins with exchange := related }

end Twins

theorem mapIndex_plain {result : Result α} (fixed : result.mapIndex f = result) :
    (plain result).mapIndex f = plain result := by
  rw [plain, Report.mapIndex, Report.mapIndexMeanwhile, fixed]
  rfl

section

variable (simulation : Simulation f R)

include simulation

theorem twins_obstacle (twins : Twins R s t) (role : Role) : t.obstacle role = s.obstacle role :=
  have resembles := simulation.resembles twins.exchange
  obstacle_eq (resembles.current role) (resembles.closed role)

omit simulation in
theorem twins_conclude (twins : Twins R s t) (outcome : Outcome α) :
    Twins R (s.conclude outcome).1 (t.conclude outcome).1 ∧
      (t.conclude outcome).2 = (s.conclude outcome).2.mapIndex f := by
  have collected := twins.collected
  cases outcome with
  | push result => exact ⟨twins, rfl⟩
  | pop result => exact ⟨twins, rfl⟩
  | popBatch result =>
    cases result with
    | error failure => exact ⟨twins, rfl⟩
    | ok items =>
      refine ⟨{ twins with collected := ?_ }, ?_⟩
      · exact congrArg (· ++ items) collected
      · exact congrArg (fun earlier => Result.popBatch (.ok ⟨earlier, items⟩)) collected

/-- What happens at the pauses of two calls is alike, wherever the first stands as it is meant to, but
for how it is told. -/
def InterludesAlike (tell : Pause → List (Report α) → List (Report α))
    (R : Exchange α → Exchange α → Prop) (meant : Pause → Session α → Bool)
    (act other : Interlude α) : Prop :=
  ∀ (pause : Pause) {s t : Session α}, Twins R s t → meant pause s = true →
    Twins R (act pause s).1 (other pause t).1 ∧
      (other pause t).2 = (act pause s).2.map (tell pause)

/-- Two calls that were carried on in the same way. -/
structure CarriedAlike (f : Index → Index) (tell : Pause → List (Report α) → List (Report α))
    (R : Exchange α → Exchange α → Prop) (c d : Carried α) : Prop where
  twins : Twins R c.session d.session
  result : d.result = c.result.mapIndex f
  events : d.events = c.events.map (Event.mapIndex f)
  meanwhile : d.meanwhile = c.meanwhile.retell tell

/-- Whether the call of a party stands as it is meant to wherever it stops, before anything is made
there. -/
def throughout (role : Role) (act : Interlude α) (meant : Pause → Session α → Bool) :
    List Pause → Session α → Bool
  | [], _ => true
  | pause :: pauses, s =>
    let here := { s with exchange := s.exchange.passTo role pause }
    let acted := (act pause here).1
    let next := acted.absorb (acted.exchange.proceed role)
    meant pause here && (next.2.isSome || throughout role act meant pauses next.1)

/-- The same for a call that is yet to begin. -/
def throughoutCall (s : Session α) (call : Call α role) (act : Interlude α)
    (meant : Pause → Session α → Bool) (pauses : List Pause) : Bool :=
  let begun := s.absorb (s.exchange.start call)
  (s.obstacle role).isSome || begun.2.isSome || throughout role act meant pauses begun.1

omit simulation in
theorem throughout_true (act : Interlude α) (pauses : List Pause) (s : Session α) :
    throughout role act (fun _ _ => true) pauses s = true := by
  induction pauses generalizing s with
  | nil => rfl
  | cons pause pauses ih =>
    unfold throughout
    dsimp only
    rw [ih, Bool.or_true, Bool.and_true]

omit simulation in
theorem retell_after (tell : Pause → List (Report α) → List (Report α)) (pause : Pause)
    (reports : Option (List (Report α))) {made other : Meanwhile (Report α)}
    (same : other = made.retell tell) :
    (match reports.map (tell pause) with
      | none => other
      | some reports => .during pause reports other) =
      Meanwhile.retell tell
        (match reports with
        | none => made
        | some reports => .during pause reports made) := by
  cases reports with
  | none => exact same
  | some reports => exact congrArg (Meanwhile.during pause (tell pause reports)) same

section

variable {tell : Pause → List (Report α) → List (Report α)} {meant : Pause → Session α → Bool}
  {act other : Interlude α} (acts : InterludesAlike tell R meant act other)

include acts

theorem carryThrough_alike (role : Role) (pauses : List Pause) (awake : ∀ pause ∈ pauses, pause ≠ .park)
    (twins : Twins R s t) (stands : throughout role act meant pauses s = true) :
    CarriedAlike f tell R (carryThrough role act pauses s) (carryThrough role other pauses t) := by
  induction pauses generalizing s t with
  | nil => exact ⟨twins, rfl, rfl, rfl⟩
  | cons pause pauses ih =>
    have passed := twins.withExchange
      (simulation.passTo role twins.exchange (awake pause (List.mem_cons_self ..)))
    obtain ⟨here, onward⟩ := Bool.and_eq_true_iff.mp stands
    obtain ⟨acted, reports⟩ := acts pause passed here
    rw [carryThrough_cons, carryThrough_cons]
    generalize act pause { s with exchange := s.exchange.passTo role pause } = now
      at acted reports onward ⊢
    generalize other pause { t with exchange := t.exchange.passTo role pause } = later
      at acted reports ⊢
    have advanced := simulation.proceed role acted.exchange
    have moved := acted.withExchange advanced.exchange
    dsimp only at onward ⊢
    rw [reports]
    cases ended : (now.1.exchange.proceed role).outcome with
    | some outcome =>
      rw [absorb_some ended, absorb_some (advanced.outcome.trans ended)]
      obtain ⟨concluded, told⟩ := twins_conclude (f := f) moved outcome
      refine ⟨concluded, told, ?_, retell_after tell pause _ rfl⟩
      dsimp only
      rw [advanced.events, List.append_nil, List.append_nil]
    | none =>
      rw [absorb_none ended] at onward ⊢
      rw [absorb_none (advanced.outcome.trans ended)]
      have rest := ih (fun pause member => awake pause (List.mem_cons_of_mem _ member)) moved onward
      refine ⟨rest.twins, rest.result, ?_, retell_after tell pause _ rest.meanwhile⟩
      dsimp only
      rw [rest.events, advanced.events, List.map_append]

theorem carry_alike (role : Role) {pauses : List Pause} (awake : ∀ pause ∈ pauses, pause ≠ .park)
    (twins : Twins R s t) {a b : Advance α} (matched : Matches f R a b)
    (stands : ((s.absorb a).2.isSome || throughout role act meant pauses (s.absorb a).1) = true) :
    CarriedAlike f tell R (s.carry role act pauses a) (t.carry role other pauses b) := by
  have moved := twins.withExchange matched.exchange
  unfold carry
  cases ended : a.outcome with
  | some outcome =>
    rw [absorb_some ended, absorb_some (matched.outcome.trans ended)]
    obtain ⟨concluded, told⟩ := twins_conclude (f := f) moved outcome
    exact ⟨concluded, told, matched.events, rfl⟩
  | none =>
    rw [absorb_none ended] at stands ⊢
    rw [absorb_none (matched.outcome.trans ended)]
    have rest := carryThrough_alike simulation acts role pauses awake moved stands
    refine ⟨rest.twins, rest.result, ?_, rest.meanwhile⟩
    dsimp only
    rw [rest.events, matched.events, List.map_append]

end

theorem withHandle_alike {use other : Session α → Session α × Report α} (twins : Twins R s t)
    (uses : s.obstacle role = none → Alike f R (use s) (other t)) :
    Alike f R (s.withHandle role use) (t.withHandle role other) := by
  unfold withHandle
  rw [twins_obstacle simulation twins]
  cases refused : s.obstacle role with
  | none => exact uses refused
  | some result =>
    refine ⟨twins, (mapIndex_plain ?_).symm⟩
    rcases obstacle_cases refused with rfl | rfl <;> rfl

omit simulation in
theorem withMonitor_alike {use other : Session α → Session α × Report α} (id : Nat)
    (twins : Twins R s t) (uses : Alike f R (use s) (other t)) :
    Alike f R (s.withMonitor id use) (t.withMonitor id other) := by
  unfold withMonitor
  rw [twins.monitors]
  split
  · exact uses
  · exact ⟨twins, (mapIndex_plain rfl).symm⟩

/-- The same call, made by two sessions in related states, is carried on alike. -/
theorem call_carriedAlike {tell : Pause → List (Report α) → List (Report α)}
    {meant : Pause → Session α → Bool} {act other : Interlude α}
    (acts : InterludesAlike tell R meant act other) (call : Call α role)
    {pauses : List Pause} (awake : ∀ pause ∈ pauses, pause ≠ .park) (twins : Twins R s t)
    (stands : s.throughoutCall call act meant pauses = true) :
    Twins R (s.call call act pauses).1 (t.call call other pauses).1 ∧
      (t.call call other pauses).2 = (s.call call act pauses).2.retell f tell := by
  unfold throughoutCall at stands
  unfold Session.call withHandle
  rw [twins_obstacle simulation twins]
  cases refused : s.obstacle role with
  | none =>
    rw [refused] at stands
    have started := simulation.start call twins.exchange (atRest_of_obstacle refused)
    have carried := carry_alike simulation acts role awake twins started stands
    refine ⟨carried.twins, ?_⟩
    dsimp only
    rw [Report.retell, carried.result, carried.events, carried.meanwhile]
  | some result =>
    refine ⟨twins, ?_⟩
    rcases obstacle_cases refused with rfl | rfl <;> rfl

theorem call_alike {act : Interlude α}
    (acts : InterludesAlike (fun _ => Report.mapIndexAll f) R (fun _ _ => true) act act)
    (call : Call α role) {pauses : List Pause} (awake : ∀ pause ∈ pauses, pause ≠ .park)
    (twins : Twins R s t) : Alike f R (s.call call act pauses) (t.call call act pauses) := by
  have stands : s.throughoutCall call act (fun _ _ => true) pauses = true := by
    unfold throughoutCall
    dsimp only
    rw [throughout_true, Bool.or_true]
  obtain ⟨made, report⟩ := call_carriedAlike simulation acts call awake twins stands
  exact ⟨made, report.trans (Report.mapIndex_eq_retell f _).symm⟩

omit simulation in
theorem plain_alike {result : Result α} (twins : Twins R s t) (fixed : result.mapIndex f = result) :
    Alike f R (s, plain result) (t, plain result) :=
  ⟨twins, (mapIndex_plain fixed).symm⟩

theorem twins_handleInfo (twins : Twins R s t) (role : Role) : t.handleInfo role = s.handleInfo role := by
  have resembles := simulation.resembles twins.exchange
  have length := resembles.length role
  have closed := resembles.closed role.peer
  have capacity := resembles.capacity
  have size := resembles.size
  have wakeups := resembles.wakeups
  unfold handleInfo queue
  rw [length, closed, capacity, size, wakeups]

theorem twins_monitorInfo (twins : Twins R s t) : t.monitorInfo = s.monitorInfo := by
  have resembles := simulation.resembles twins.exchange
  unfold monitorInfo queue
  rw [resembles.visibleLength, resembles.closed, resembles.closed, resembles.capacity,
    resembles.wakeups]

theorem twins_describeMonitor (twins : Twins R s t) :
    t.describeMonitor = s.describeMonitor.mapIndex f := by
  have resembles := simulation.resembles twins.exchange
  unfold describeMonitor queue
  rw [resembles.visibleLength, resembles.capacity, resembles.wakeups]
  rfl

theorem twins_describe (twins : Twins R s t) (role : Role) :
    t.describe role = (s.describe role).mapIndex f := by
  have resembles := simulation.resembles twins.exchange
  have position := resembles.position role
  have closed := resembles.closed role.peer
  have deferred := resembles.deferred .producer
  have capacity := resembles.capacity
  unfold describe queue
  cases role with
  | producer =>
    dsimp only [Queue.side] at deferred ⊢
    rw [position, closed, deferred, capacity]
    rfl
  | consumer =>
    dsimp only
    rw [position, closed, capacity]
    rfl

theorem addMonitor_alike (twins : Twins R s t) (id : Nat) (source : MonitorSource) :
    Alike f R (s.addMonitor id source) (t.addMonitor id source) := by
  have added : Alike f R ({ s with monitors := insertAscending id s.monitors }, plain .done)
      ({ t with monitors := insertAscending id t.monitors }, plain .done) :=
    plain_alike { twins with monitors := congrArg (insertAscending id) twins.monitors } rfl
  unfold addMonitor
  cases source with
  | handle role =>
    dsimp only
    refine withHandle_alike simulation twins fun _ => ?_
    exact added
  | monitor other =>
    dsimp only
    refine withMonitor_alike other twins ?_
    exact added

omit simulation in
theorem stops_awake {β : Type u} (m : Meanwhile β) (rounds : Nat) :
    ∀ pause ∈ m.stops rounds, pause ≠ .park := by
  intro pause member
  unfold Meanwhile.stops at member
  rcases List.mem_append.mp member with spins | sleeps
  · obtain ⟨round, _, rfl⟩ := List.mem_map.mp spins
    exact fun parks => nomatch parks
  · rw [List.mem_singleton.mp sleeps]
    exact fun parks => nomatch parks

end

mutual

/-- The same step, made by two sessions in related states, is reported on alike. -/
theorem perform_alike (simulation : Simulation f R) : ∀ (step : Step α) {s t : Session α}, Twins R s t →
    Alike f R (perform step s) (perform step t)
  | .push item force meanwhile, s, t, twins => by
    have rounds : t.queue.snoozeRounds = s.queue.snoozeRounds :=
      (simulation.resembles twins.exchange).rounds
    rw [perform, perform, rounds]
    exact call_alike simulation (act_alike simulation meanwhile) _ (stops_awake meanwhile _) twins
  | .tryPush item, s, t, twins => by
    rw [perform, perform]
    refine withHandle_alike simulation twins fun free => ?_
    obtain ⟨related, same⟩ := simulation.tryPush item twins.exchange (atRest_of_obstacle free)
    refine ⟨twins.withQueue related, ?_⟩
    exact (congrArg (fun result => plain (.tryPush result)) same).trans (mapIndex_plain rfl).symm
  | .flush, s, t, twins => by
    rw [perform, perform]
    refine withHandle_alike simulation twins fun free => ?_
    exact plain_alike (twins.withQueue (simulation.flush twins.exchange (atRest_of_obstacle free))) rfl
  | .pop meanwhile, s, t, twins => by
    have rounds : t.queue.snoozeRounds = s.queue.snoozeRounds :=
      (simulation.resembles twins.exchange).rounds
    rw [perform, perform, rounds]
    exact call_alike simulation (act_alike simulation meanwhile) _ (stops_awake meanwhile _) twins
  | .popBatch keep meanwhile, s, t, twins => by
    have rounds : t.queue.snoozeRounds = s.queue.snoozeRounds :=
      (simulation.resembles twins.exchange).rounds
    rw [perform, perform]
    refine withHandle_alike simulation twins fun _ => ?_
    have emptied : Twins R (if keep then s else { s with collected := [] })
        (if keep then t else { t with collected := [] }) := by
      cases keep with
      | true => exact twins
      | false => exact { twins with collected := rfl }
    have same (u : Session α) :
        (if keep then u else { u with collected := [] } : Session α).queue = u.queue := by
      cases keep <;> rfl
    dsimp only
    rw [same, same, rounds]
    exact call_alike simulation (act_alike simulation meanwhile) _ (stops_awake meanwhile _) emptied
  | .tryPop, s, t, twins => by
    rw [perform, perform]
    refine withHandle_alike simulation twins fun free => ?_
    obtain ⟨related, same⟩ := simulation.tryPop twins.exchange (atRest_of_obstacle free)
    refine ⟨twins.withQueue related, ?_⟩
    exact (congrArg (fun result => plain (.tryPop result)) same).trans (mapIndex_plain rfl).symm
  | .inspect role, s, t, twins => by
    rw [perform, perform]
    refine withHandle_alike simulation twins fun _ => ?_
    rw [twins_handleInfo simulation twins]
    exact plain_alike twins rfl
  | .describe role, s, t, twins => by
    rw [perform, perform]
    refine withHandle_alike simulation twins fun _ => ⟨twins, ?_⟩
    rw [twins_describe simulation twins, plain, plain, Report.mapIndex, Report.mapIndexMeanwhile]
    rfl
  | .close role, s, t, twins => by
    rw [perform, perform]
    refine withHandle_alike simulation twins fun free => ?_
    obtain ⟨related, told⟩ := simulation.close role twins.exchange (atRest_of_obstacle free)
    refine ⟨twins.withQueue related, ?_⟩
    rw [Report.mapIndex, Report.mapIndexMeanwhile]
    exact congrArg (fun event => Report.mk .done [event] .nothing) told
  | .addMonitor id source, s, t, twins => by
    rw [perform, perform]
    exact addMonitor_alike simulation twins id source
  | .inspectMonitor id, s, t, twins => by
    rw [perform, perform]
    refine withMonitor_alike id twins ?_
    rw [twins_monitorInfo simulation twins]
    exact plain_alike twins rfl
  | .describeMonitor id, s, t, twins => by
    rw [perform, perform]
    refine withMonitor_alike id twins ⟨twins, ?_⟩
    rw [twins_describeMonitor simulation twins, plain, plain, Report.mapIndex,
      Report.mapIndexMeanwhile]
    rfl
  | .closeMonitor id, s, t, twins => by
    rw [perform, perform]
    exact withMonitor_alike id twins
      (plain_alike { twins with monitors := congrArg (List.erase · id) twins.monitors } rfl)
  | .hold, s, t, twins => by
    rw [perform, perform]
    exact plain_alike { twins with held := rfl } rfl
  | .release, s, t, twins => by
    rw [perform, perform]
    exact plain_alike { twins with held := rfl } rfl

theorem performAll_alike (simulation : Simulation f R) : ∀ (steps : List (Step α)) {s t : Session α},
    Twins R s t → Twins R (performAll steps s).1 (performAll steps t).1 ∧
      (performAll steps t).2 = Report.mapIndexAll f (performAll steps s).2
  | [], s, t, twins => by
    rw [performAll, performAll, Report.mapIndexAll]
    exact ⟨twins, rfl⟩
  | step :: steps, s, t, twins => by
    have first := perform_alike simulation step twins
    obtain ⟨last, rest⟩ := performAll_alike simulation steps first.twins
    rw [performAll, performAll]
    dsimp only
    rw [Report.mapIndexAll, first.report, rest]
    exact ⟨last, rfl⟩

theorem act_alike (simulation : Simulation f R) : ∀ plan : Meanwhile (Step α),
    InterludesAlike (fun _ => Report.mapIndexAll f) R (fun _ _ => true) (act plan) (act plan)
  | .nothing => fun _ _ _ twins _ => ⟨twins, rfl⟩
  | .during planned steps rest => fun pause s t twins _ => by
    rw [act, act]
    by_cases here : planned = pause
    · rw [if_pos here, if_pos here]
      obtain ⟨made, reports⟩ := performAll_alike simulation steps twins
      exact ⟨made, congrArg some reports⟩
    · rw [if_neg here, if_neg here]
      exact act_alike simulation rest pause twins rfl

end

section

variable (simulation : Simulation f R)

include simulation

theorem twins_parked (twins : Twins R s t) (role : Role) :
    t.exchange.parked role = s.exchange.parked role :=
  parked_eq_of_current ((simulation.resembles twins.exchange).current role)

theorem twins_resumable (twins : Twins R s t) (role : Role) :
    t.exchange.resumable role = s.exchange.resumable role := by
  unfold Exchange.resumable
  rw [twins_parked simulation twins, (simulation.resembles twins.exchange).signalled]

theorem twins_unrest (twins : Twins R s t) : t.unrest = s.unrest := by
  have resembles := simulation.resembles twins.exchange
  have shown (role : Role) :
      (decide ((t.queue.side role).cursor.published ≠ t.queue.position role)).toNat =
        (decide ((s.queue.side role).cursor.published ≠ s.queue.position role)).toNat := by
    have same := resembles.deferred role
    refine congrArg Bool.toNat (decide_eq_decide.mpr (not_congr ?_))
    have first := Cursor.deferred_eq_zero_iff (t.queue.side role).cursor
    have second := Cursor.deferred_eq_zero_iff (s.queue.side role).cursor
    exact first.symm.trans ((iff_of_eq (congrArg (· = 0) same)).trans second)
  unfold unrest
  dsimp only
  rw [shown, shown, twins_parked simulation twins, twins_parked simulation twins]
  unfold queue
  rw [resembles.signalled, resembles.signalled]

theorem twins_owned (twins : Twins R s t) : t.owned = s.owned := by
  have resembles := simulation.resembles twins.exchange
  unfold owned queue
  rw [resembles.closed, resembles.closed, twins.monitors]

theorem twins_status (twins : Twins R s t) : t.status = s.status := by
  have resembles := simulation.resembles twins.exchange
  have standing (role : Role) : t.standing role = s.standing role := by
    unfold Session.standing Exchange.busy queue
    rw [resembles.closed, resembles.current, resembles.length]
  unfold status
  rw [standing, standing, twins_obstacle simulation twins, twins_obstacle simulation twins]
  unfold queue
  rw [resembles.wakeups]

theorem resume_alike (twins : Twins R s t) (role : Role) :
    Twins R (s.resume role).1 (t.resume role).1 ∧
      (t.resume role).2 = (s.resume role).2.mapIndex f := by
  have acts : InterludesAlike (fun _ => Report.mapIndexAll f) R (fun _ _ => true)
      (fun _ s => (s, none)) (fun _ s => (s, none)) := fun _ _ _ twins _ => ⟨twins, rfl⟩
  have awake : ∀ pause ∈ [Pause.sleep], pause ≠ .park := by
    intro pause asleep
    rw [List.mem_singleton.mp asleep]
    exact fun parks => nomatch parks
  have carried := carry_alike simulation acts role awake twins (simulation.proceed role twins.exchange)
    (by rw [throughout_true, Bool.or_true])
  refine ⟨carried.twins, ?_⟩
  unfold resume Resumption.mapIndex
  dsimp only
  rw [carried.result, carried.events]

theorem settleWithin_alike (bound : Nat) (twins : Twins R s t) :
    Twins R (s.settleWithin bound).1 (t.settleWithin bound).1 ∧
      (t.settleWithin bound).2 = (s.settleWithin bound).2.map (Resumption.mapIndex f) := by
  induction bound generalizing s t with
  | zero => exact ⟨twins, rfl⟩
  | succ bound ih =>
    have same : t.nextResumable = s.nextResumable := by
      unfold nextResumable
      rw [twins_resumable simulation twins, twins_resumable simulation twins]
    unfold settleWithin
    rw [same]
    cases s.nextResumable with
    | none => exact ⟨twins, rfl⟩
    | some role =>
      obtain ⟨resumed, told⟩ := resume_alike simulation twins role
      obtain ⟨last, rest⟩ := ih resumed
      refine ⟨last, ?_⟩
      dsimp only
      rw [told, rest, List.map_cons]

theorem settle_alike (twins : Twins R s t) :
    Twins R s.settle.1 t.settle.1 ∧
      t.settle.2 = s.settle.2.map (Resumption.mapIndex f) := by
  unfold settle
  rw [twins.held, twins_unrest simulation twins]
  split
  · exact ⟨twins, rfl⟩
  · exact settleWithin_alike simulation _ twins

theorem releaseStorage_alike (twins : Twins R s t) :
    Twins R s.releaseStorage.1 t.releaseStorage.1 ∧ t.releaseStorage.2 = s.releaseStorage.2 := by
  unfold releaseStorage
  rw [twins_owned simulation twins]
  cases owned : s.owned with
  | true => exact ⟨twins, rfl⟩
  | false =>
    obtain ⟨related, same⟩ := simulation.release twins.exchange (owned_eq_false_iff.mp owned).1
    exact ⟨twins.withQueue related, same⟩

/-- What follows from two steps goes by what they have led to. -/
theorem step_alike_of_performed (twins : Twins R s t) {next other : Step α}
    (performed : Twins R (perform next s).1 (perform other t).1) :
    Twins R (s.step next).1 (t.step other).1 ∧
      (t.step other).2 = { (s.step next).2.mapIndex f with report := (perform other t).2 } := by
  obtain ⟨settled, resumed⟩ := settle_alike simulation performed
  obtain ⟨released, dropped⟩ := releaseStorage_alike simulation settled
  have owned := twins_owned simulation twins
  cases here : s.owned with
  | true =>
    rw [Chronicle.step_of_owned here, Chronicle.step_of_owned (owned.trans here)]
    refine ⟨released, ?_⟩
    unfold Answer.mapIndex
    dsimp only
    rw [resumed, dropped, twins_status simulation released]
  | false =>
    rw [Chronicle.step_of_unowned here, Chronicle.step_of_unowned (owned.trans here)]
    refine ⟨settled, ?_⟩
    unfold Answer.mapIndex
    dsimp only
    rw [resumed, twins_status simulation settled]

theorem step_alike (twins : Twins R s t) (next : Step α) :
    Twins R (s.step next).1 (t.step next).1 ∧ (t.step next).2 = (s.step next).2.mapIndex f := by
  have performed := perform_alike simulation next twins
  obtain ⟨stepped, answer⟩ := step_alike_of_performed simulation twins performed.twins
  refine ⟨stepped, answer.trans ?_⟩
  rw [performed.report]
  rfl

theorem steps_alike (twins : Twins R s t) (list : List (Step α)) :
    Twins R (s.steps list).1 (t.steps list).1 ∧
      (t.steps list).2 = (s.steps list).2.map (Answer.mapIndex f) := by
  induction list generalizing s t with
  | nil => exact ⟨twins, rfl⟩
  | cons next rest ih =>
    obtain ⟨stepped, answer⟩ := step_alike simulation twins next
    obtain ⟨last, answers⟩ := ih stepped
    unfold steps
    refine ⟨last, ?_⟩
    dsimp only
    rw [answer, answers, List.map_cons]

theorem tearDown_alike (twins : Twins R s t) :
    t.tearDown.2 = s.tearDown.2.map (Answer.mapIndex f) := by
  obtain ⟨freed, first⟩ := steps_alike simulation twins (if s.held then [.release] else [])
  have order : (t.steps (if s.held then [.release] else [])).1.closingOrder =
      (s.steps (if s.held then [.release] else [])).1.closingOrder := by
    have resembles := simulation.resembles freed.exchange
    unfold closingOrder queue
    rw [twins_parked simulation freed]
    simp only [resembles.closed]
  unfold tearDown
  rw [twins.held]
  dsimp only
  rw [order]
  generalize s.steps (if s.held then [.release] else []) = made at freed first ⊢
  generalize t.steps (if s.held then [.release] else []) = other at freed first ⊢
  obtain ⟨closed, second⟩ := steps_alike simulation freed (made.1.closingOrder.map .close)
  generalize made.1.steps (made.1.closingOrder.map .close) = shut at closed second ⊢
  generalize other.1.steps (made.1.closingOrder.map .close) = shutOther at closed second ⊢
  obtain ⟨_, third⟩ := steps_alike simulation closed (shut.1.monitors.map .closeMonitor)
  rw [closed.monitors, first, second, third, List.map_append, List.map_append]

end

end Session

namespace Transcript

open Exchange (Simulation)

/-- Sessions that begin with related queues tell the same, step by step and to the end of their
tear-down, but for the indices. -/
theorem ofSteps_alike {R : Exchange α → Exchange α → Prop} (simulation : Simulation f R)
    {settings others : Settings}
    (refused : ∀ cause, Queue.ofSettings (α := α) settings = .error cause →
      Queue.ofSettings (α := α) others = .error cause)
    (opened : ∀ q, Queue.ofSettings (α := α) settings = .ok q →
      ∃ p, Queue.ofSettings (α := α) others = .ok p ∧ R (.ofQueue q) (.ofQueue p))
    (steps : List (Step α)) :
    ofSteps others steps = (ofSteps settings steps).map (mapIndex f) := by
  unfold ofSteps Session.ofSettings
  cases made : Queue.ofSettings (α := α) settings with
  | error cause =>
    rw [refused cause made]
    rfl
  | ok q =>
    obtain ⟨p, other, related⟩ := opened q made
    rw [other]
    have twins : Session.Twins R ⟨.ofQueue q, [], [], false⟩ ⟨.ofQueue p, [], [], false⟩ :=
      ⟨related, rfl, rfl, rfl⟩
    obtain ⟨last, answers⟩ := Session.steps_alike simulation twins steps
    have closing := Session.tearDown_alike simulation last
    simp only [Except.map, mapIndex]
    rw [answers, closing]

end Transcript

end SpscQueue
