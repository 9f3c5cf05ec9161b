import SpscQueue.Session.Run

namespace SpscQueue

universe u

variable {α : Type u}

namespace Event

/-- The same event told with other indices. -/
def mapIndex (f : Index → Index) : Event → Event
  | producerParking position consumer threshold =>
    producerParking (f position) (f consumer) (f threshold)
  | consumerParking position threshold => consumerParking (f position) (f threshold)
  | woke role position => woke role (f position)
  | abandoned position => abandoned (f position)
  | drained position => drained (f position)
  | closed role position => closed role (f position)

theorem mapIndex_id (e : Event) : e.mapIndex id = e := by cases e <;> rfl

end Event

namespace Description

/-- The same description with another position. A monitor has none. -/
def mapIndex (f : Index → Index) : Description → Description
  | producer capacity position deferred disconnected =>
    producer capacity (f position) deferred disconnected
  | consumer capacity position disconnected => consumer capacity (f position) disconnected
  | monitor length capacity wakeups => monitor length capacity wakeups

theorem mapIndex_id (d : Description) : d.mapIndex id = d := by cases d <;> rfl

end Description

def Result.mapIndex (f : Index → Index) : Result α → Result α
  | description told => description (told.mapIndex f)
  | result => result

theorem Result.mapIndex_id (result : Result α) : result.mapIndex id = result := by
  cases result with
  | description told => exact congrArg description told.mapIndex_id
  | _ => rfl

mutual

/-- The same report told with other indices. -/
def Report.mapIndex (f : Index → Index) : Report α → Report α
  | .mk result events meanwhile =>
    .mk (result.mapIndex f) (events.map (Event.mapIndex f)) (mapIndexMeanwhile f meanwhile)

def Report.mapIndexAll (f : Index → Index) : List (Report α) → List (Report α)
  | [] => []
  | report :: reports => report.mapIndex f :: mapIndexAll f reports

def Report.mapIndexMeanwhile (f : Index → Index) : Meanwhile (Report α) → Meanwhile (Report α)
  | .nothing => .nothing
  | .during pause reports rest => .during pause (mapIndexAll f reports) (mapIndexMeanwhile f rest)

end

def Resumption.mapIndex (f : Index → Index) (r : Resumption α) : Resumption α :=
  ⟨r.role, r.result.mapIndex f, r.events.map (Event.mapIndex f)⟩

/-- The same answer told with other indices. Neither the items nor the state after the step tell any
index. -/
def Answer.mapIndex (f : Index → Index) (a : Answer α) : Answer α :=
  ⟨a.report.mapIndex f, a.resumptions.map (Resumption.mapIndex f), a.dropped, a.status⟩

def Transcript.mapIndex (f : Index → Index) (t : Transcript α) : Transcript α :=
  ⟨t.steps.map (Answer.mapIndex f), t.closing.map (Answer.mapIndex f)⟩

theorem Event.map_mapIndex_id (events : List Event) : events.map (Event.mapIndex id) = events :=
  (List.map_congr_left fun e _ => e.mapIndex_id).trans (List.map_id events)

mutual

theorem Report.mapIndex_id : ∀ report : Report α, report.mapIndex id = report
  | .mk result events meanwhile => by
    rw [Report.mapIndex, result.mapIndex_id, Event.map_mapIndex_id, mapIndexMeanwhile_id meanwhile]

theorem Report.mapIndexAll_id : ∀ reports : List (Report α), mapIndexAll id reports = reports
  | [] => by rw [Report.mapIndexAll]
  | report :: reports => by rw [Report.mapIndexAll, report.mapIndex_id, mapIndexAll_id reports]

theorem Report.mapIndexMeanwhile_id : ∀ meanwhile : Meanwhile (Report α),
    mapIndexMeanwhile id meanwhile = meanwhile
  | .nothing => by rw [Report.mapIndexMeanwhile]
  | .during pause reports rest => by
    rw [Report.mapIndexMeanwhile, mapIndexAll_id reports, mapIndexMeanwhile_id rest]

end

theorem Answer.mapIndex_id (a : Answer α) : a.mapIndex id = a := by
  have resumed : a.resumptions.map (Resumption.mapIndex id) = a.resumptions := by
    refine (List.map_congr_left fun r _ => ?_).trans (List.map_id _)
    rw [Resumption.mapIndex, r.result.mapIndex_id, Event.map_mapIndex_id, id_eq]
  rw [Answer.mapIndex, a.report.mapIndex_id, resumed]

theorem Answer.map_mapIndex_id (answers : List (Answer α)) : answers.map (Answer.mapIndex id) = answers :=
  (List.map_congr_left fun a _ => a.mapIndex_id).trans (List.map_id answers)

theorem Transcript.mapIndex_id (t : Transcript α) : t.mapIndex id = t := by
  rw [Transcript.mapIndex, Answer.map_mapIndex_id, Answer.map_mapIndex_id]

end SpscQueue
