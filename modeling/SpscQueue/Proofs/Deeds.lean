import SpscQueue.Proofs.Schedule
import SpscQueue.Session.Run

namespace SpscQueue

universe u

variable {α : Type u}

/-- The result of a call on a handle, without what batches brought before. Other results are left
out. -/
def Result.ofCall : Result α → Option (Result α)
  | busy => none
  | gone => none
  | parked => some .parked
  | done => none
  | push result => some (.push result)
  | tryPush result => some (.tryPush result)
  | pop result => some (.pop result)
  | tryPop result => some (.tryPop result)
  | popBatch (.ok batch) => some (.popBatch (.ok ⟨[], batch.items⟩))
  | popBatch (.error failure) => some (.popBatch (.error failure))
  | handle _ => none
  | monitor _ => none
  | description _ => none

/-- The item that a push hands over or hands back. -/
def Admission.item : Admission α → α
  | accepted item => item
  | refused item _ => item

/-- The item that a push which has ended was about. -/
def Result.handled : Result α → Option α
  | push result => some result.item
  | tryPush result => some result.item
  | _ => none

namespace Move

/-- Whether a move is one with which a party begins something. -/
def opens (role : Role) : Move α → Bool
  | proceed _ => false
  | move => move.role == role

/-- The item that a move offers to the queue. -/
def offer : Move α → Option α
  | start _ (.push item _) => some item
  | tryPush item => some item
  | _ => none

end Move

/-- The move with which a step on a handle begins. -/
def Step.opening : Step α → Option (Move α)
  | push item force _ => some (.start .producer (.push item force))
  | tryPush item => some (.tryPush item)
  | flush => some .flush
  | pop _ => some (.start .consumer .pop)
  | popBatch _ _ => some (.start .consumer .popBatch)
  | tryPop => some .tryPop
  | close role => some (.close role)
  | _ => none

/-- What the other party does during the pauses of a step. -/
def Step.meanwhile : Step α → Meanwhile (Step α)
  | push _ _ meanwhile => meanwhile
  | pop meanwhile => meanwhile
  | popBatch _ meanwhile => meanwhile
  | _ => .nothing

/-- The steps planned for a pause. -/
def Meanwhile.at? {β : Type u} : Meanwhile β → Pause → Option (List β)
  | nothing, _ => none
  | during planned steps rest, pause => if planned = pause then some steps else rest.at? pause

theorem Meanwhile.at?_during_other {β : Type u} {planned pause : Pause} (steps : List β)
    (rest : Meanwhile β) (other : planned ≠ pause) :
    (during planned steps rest).at? pause = rest.at? pause := if_neg other

/-- A step that was made, with its result. -/
structure Deed (α : Type u) where
  step : Step α
  result : Result α

namespace Deed

/-- The move with which the step began, unless its handle was not at rest. -/
def opening (d : Deed α) : Option (Move α) :=
  match d.result with
  | .busy => none
  | .gone => none
  | _ => d.step.opening

/-- Whether this is a call of the party that has parked. -/
def parks (role : Role) (d : Deed α) : Bool :=
  match d.result, d.step.opening with
  | .parked, some move => move.role == role
  | _, _ => false

end Deed

mutual

/-- A step and the steps made during its pauses, with their results, in the order in which the results
came about. -/
def Report.deeds : Step α → Report α → List (Deed α)
  | step, .mk result _ meanwhile => deedsMeanwhile step.meanwhile meanwhile ++ [⟨step, result⟩]

def Report.deedsOfAll : List (Step α) → List (Report α) → List (Deed α)
  | _, [] => []
  | [], _ :: _ => []
  | step :: steps, report :: reports => Report.deeds step report ++ deedsOfAll steps reports

def Report.deedsMeanwhile : Meanwhile (Step α) → Meanwhile (Report α) → List (Deed α)
  | _, .nothing => []
  | plan, .during pause reports rest =>
    deedsOfAll ((plan.at? pause).getD []) reports ++ deedsMeanwhile plan rest

end

/-- The steps made in a session, those made during the pauses of its calls included, as the answers
tell them. -/
def told (steps : List (Step α)) (answers : List (Answer α)) : List (Deed α) :=
  Report.deedsOfAll steps (answers.map (·.report))

/-- The moves of a party that begin something, as its steps tell them. -/
def openings (role : Role) (deeds : List (Deed α)) : List (Move α) :=
  (deeds.filterMap Deed.opening).filter (Move.opens role)

theorem openings_append (role : Role) (deeds more : List (Deed α)) :
    openings role (deeds ++ more) = openings role deeds ++ openings role more := by
  rw [openings, List.filterMap_append, List.filter_append]
  rfl

/-- The items that pushes have offered to the queue, in the order of the calls. -/
def offered (deeds : List (Deed α)) : List α := (openings .producer deeds).filterMap Move.offer

/-- The calls of a party that have parked. -/
def parkings (role : Role) (deeds : List (Deed α)) : Nat := deeds.countP (Deed.parks role)

theorem parkings_append (role : Role) (deeds more : List (Deed α)) :
    parkings role (deeds ++ more) = parkings role deeds + parkings role more :=
  List.countP_append

/-- What calls accept, deliver and handle is told by the results of calls alone. -/
theorem filterMap_ofCall {β : Type u} (f : Result α → Option β)
    (same : ∀ result : Result α, result.ofCall.bind f = f result) (results : List (Result α)) :
    (results.filterMap Result.ofCall).filterMap f = results.filterMap f := by
  rw [List.filterMap_filterMap]
  exact congrArg (List.filterMap · results) (funext same)

theorem Result.ofCall_accepted (result : Result α) :
    result.ofCall.bind Result.accepted = result.accepted := by
  unfold Result.ofCall
  split <;> rfl

theorem Result.ofCall_delivered (result : Result α) :
    result.ofCall.toList.flatMap Result.delivered = result.delivered := by
  unfold Result.ofCall
  split <;> simp [Result.delivered]

theorem Result.ofCall_handled (result : Result α) :
    result.ofCall.bind Result.handled = result.handled := by
  unfold Result.ofCall
  split <;> rfl

theorem flatMap_ofCall (results : List (Result α)) :
    (results.filterMap Result.ofCall).flatMap Result.delivered = results.flatMap Result.delivered := by
  induction results with
  | nil => rfl
  | cons result results ih =>
    rw [List.flatMap_cons, ← ih, ← result.ofCall_delivered]
    cases heard : result.ofCall with
    | none => rw [List.filterMap_cons_none heard]; rfl
    | some call => rw [List.filterMap_cons_some heard]; simp

end SpscQueue
