import SpscQueue.Session.Basic

namespace SpscQueue

universe u

variable {α : Type u}

namespace Session

/-- The result of a call that has ended. The items of a batch join those collected before. -/
def conclude (s : Session α) : Outcome α → Session α × Result α
  | .push result => (s, .push result)
  | .pop result => (s, .pop result)
  | .popBatch (.error failure) => (s, .popBatch (.error failure))
  | .popBatch (.ok items) =>
    ({ s with collected := s.collected ++ items }, .popBatch (.ok ⟨s.collected, items⟩))

/-- Where a call stands that was carried on: its result, or that it parked, what it logged on the
way, and the reports on the steps made meanwhile. -/
structure Carried (α : Type u) where
  session : Session α
  result : Result α
  events : List Event
  meanwhile : Meanwhile (Report α)

/-- Takes in what a call did up to its next stop. -/
def absorb (s : Session α) (advance : Advance α) : Session α × Option (Result α) :=
  let moved := { s with exchange := advance.exchange }
  match advance.outcome with
  | none => (moved, none)
  | some outcome =>
    let (concluded, result) := moved.conclude outcome
    (concluded, some result)

/-- What happens at a pause of a call: some steps may be made, and reported on. -/
abbrev Interlude (α : Type u) := Pause → Session α → Session α × Option (List (Report α))

/-- Carries the call of a party on through the given pauses until it ends or parks. -/
def carryThrough (role : Role) (act : Interlude α) : List Pause → Session α → Carried α
  | [], s => ⟨s, .parked, [], .nothing⟩
  | pause :: pauses, s =>
    let (acted, reports) := act pause { s with exchange := s.exchange.passTo role pause }
    let advance := acted.exchange.proceed role
    let carried : Carried α :=
      match acted.absorb advance with
      | (ended, some result) => ⟨ended, result, [], .nothing⟩
      | (moved, none) => carryThrough role act pauses moved
    { carried with
      events := advance.events ++ carried.events
      meanwhile :=
        match reports with
        | none => carried.meanwhile
        | some reports => .during pause reports carried.meanwhile }

/-- Takes in an advance and, if the call does not end with it, carries the call on. -/
def carry (s : Session α) (role : Role) (act : Interlude α) (pauses : List Pause)
    (advance : Advance α) : Carried α :=
  match s.absorb advance with
  | (ended, some result) => ⟨ended, result, advance.events, .nothing⟩
  | (moved, none) =>
    let carried := carryThrough role act pauses moved
    { carried with events := advance.events ++ carried.events }

/-- A step that makes a waiting call. -/
def call {role : Role} (s : Session α) (call : Call α role) (act : Interlude α)
    (pauses : List Pause) : Session α × Report α :=
  s.withHandle role fun s =>
    let carried := s.carry role act pauses (s.exchange.start call)
    (carried.session, .mk carried.result carried.events carried.meanwhile)

/-- A step on a monitor. -/
def withMonitor (s : Session α) (id : Nat) (use : Session α → Session α × Report α) :
    Session α × Report α :=
  if s.monitors.contains id then use s else (s, plain .gone)

def tryPush (s : Session α) (item : α) : Session α × Report α :=
  s.withHandle .producer fun s =>
    let (queue, result) := s.queue.tryPush item
    (s.withQueue queue, plain (.tryPush result))

def tryPop (s : Session α) : Session α × Report α :=
  s.withHandle .consumer fun s =>
    let (queue, result) := s.queue.tryPop
    (s.withQueue queue, plain (.tryPop result))

def close (s : Session α) (role : Role) : Session α × Report α :=
  s.withHandle role fun s =>
    let (queue, event) := s.queue.close role
    (s.withQueue queue, .mk .done [event] .nothing)

/-- Adds a monitor in the place of one that may have had the same number. -/
def addMonitor (s : Session α) (id : Nat) (source : MonitorSource) : Session α × Report α :=
  let add (s : Session α) : Session α × Report α :=
    ({ s with monitors := insertAscending id s.monitors }, plain .done)
  match source with
  | .handle role => s.withHandle role add
  | .monitor other => s.withMonitor other add

mutual

/-- Makes one step. Parked calls stay parked, even if the step signals them. -/
def perform : Step α → Session α → Session α × Report α
  | .push item force meanwhile, s =>
    s.call (.push item force) (act meanwhile) (meanwhile.stops s.queue.snoozeRounds)
  | .tryPush item, s => s.tryPush item
  | .flush, s => s.withHandle .producer fun s => (s.withQueue s.queue.flush, plain .done)
  | .pop meanwhile, s => s.call .pop (act meanwhile) (meanwhile.stops s.queue.snoozeRounds)
  | .popBatch keep meanwhile, s =>
    s.withHandle .consumer fun s =>
      let s := if keep then s else { s with collected := [] }
      s.call .popBatch (act meanwhile) (meanwhile.stops s.queue.snoozeRounds)
  | .tryPop, s => s.tryPop
  | .inspect role, s => s.withHandle role fun s => (s, plain (.handle (s.handleInfo role)))
  | .describe role, s => s.withHandle role fun s => (s, plain (.description (s.describe role)))
  | .close role, s => s.close role
  | .addMonitor id source, s => s.addMonitor id source
  | .inspectMonitor id, s => s.withMonitor id fun s => (s, plain (.monitor s.monitorInfo))
  | .describeMonitor id, s => s.withMonitor id fun s => (s, plain (.description s.describeMonitor))
  | .closeMonitor id, s =>
    s.withMonitor id fun s => ({ s with monitors := s.monitors.erase id }, plain .done)
  | .hold, s => ({ s with held := true }, plain .done)
  | .release, s => ({ s with held := false }, plain .done)

/-- Makes some steps one after the other. -/
def performAll : List (Step α) → Session α → Session α × List (Report α)
  | [], s => (s, [])
  | step :: steps, s =>
    let (s, report) := perform step s
    let (s, reports) := performAll steps s
    (s, report :: reports)

/-- Makes the steps meant for a pause, if there are any. -/
def act : Meanwhile (Step α) → Pause → Session α → Session α × Option (List (Report α))
  | .nothing, _, s => (s, none)
  | .during planned steps rest, pause, s =>
    if planned = pause then
      let (s, reports) := performAll steps s
      (s, some reports)
    else act rest pause s

end

end Session

end SpscQueue
