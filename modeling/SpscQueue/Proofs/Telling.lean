import SpscQueue.Proofs.Sparing

namespace SpscQueue.Session

universe u

variable {α : Type u} {who : Role} {s : Session α} {step : Step α}

/-- The deeds read off a report tell the same results as the report. -/
def Tells (step : Step α) (report : Report α) : Prop :=
  report.results = (report.deeds step).map Deed.result

theorem tells_mk (step : Step α) (result : Result α) (events : List Event) :
    Tells step (.mk result events .nothing) := by
  unfold Tells
  rw [deeds_mk, Report.results, Report.resultsMeanwhile]
  rfl

theorem tells_withHandle {use : Session α → Session α × Report α} (uses : Tells step (use s).2) :
    Tells step (s.withHandle who use).2 := by
  unfold withHandle
  split
  · exact tells_mk step _ []
  · exact uses

theorem Unnoticed.tells {made : Session α × Report α} (unnoticed : Unnoticed s step made) :
    Tells step made.2 := by
  obtain ⟨_, result, plainly, _⟩ := unnoticed
  rw [plainly]
  exact tells_mk step result []

/-- The results of the steps made at a pause. -/
def heard : Option (List (Report α)) → List (Result α)
  | none => []
  | some reports => Report.resultsOfAll reports

theorem resultsMeanwhile_heard (pause : Pause) (reports : Option (List (Report α)))
    (later : Meanwhile (Report α)) :
    Report.resultsMeanwhile
        (match reports with
        | none => later
        | some reports => .during pause reports later) =
      heard reports ++ Report.resultsMeanwhile later := by
  cases reports with
  | none => rfl
  | some reports => rw [Report.resultsMeanwhile]; rfl

/-- That the deeds read off the reports made at the pauses tell the same results. -/
def InterludeTells (plan : Meanwhile (Step α)) (act : Interlude α) : Prop :=
  ∀ pause s, heard (act pause s).2 = (noted plan pause (act pause s).2).map Deed.result

theorem carryThrough_tells {plan : Meanwhile (Step α)} {act : Interlude α}
    (tells : InterludeTells plan act) (pauses : List Pause) (s : Session α) :
    Report.resultsMeanwhile (carryThrough who act pauses s).meanwhile =
      (Report.deedsMeanwhile plan (carryThrough who act pauses s).meanwhile).map Deed.result := by
  induction pauses generalizing s with
  | nil =>
    unfold carryThrough
    rw [Report.resultsMeanwhile, Report.deedsMeanwhile]
    rfl
  | cons pause pauses ih =>
    rw [carryThrough_cons]
    dsimp only
    rw [deedsMeanwhile_noted, List.map_append, ← tells]
    refine (resultsMeanwhile_heard _ _ _).trans (congrArg (_ ++ ·) ?_)
    split
    · rw [Report.resultsMeanwhile, Report.deedsMeanwhile]
      rfl
    · exact ih _

theorem call_tells (step : Step α) {act : Interlude α} (tells : InterludeTells step.meanwhile act)
    (call : Call α who) (pauses : List Pause) : Tells step (s.call call act pauses).2 := by
  refine tells_withHandle ?_
  unfold Tells
  rw [Report.deeds, Report.results, List.map_append]
  refine congrArg (· ++ _) ?_
  unfold carry
  split
  · rw [Report.resultsMeanwhile, Report.deedsMeanwhile]
    rfl
  · exact carryThrough_tells tells pauses _

mutual

theorem perform_tells : ∀ (step : Step α) (s : Session α), Tells step (perform step s).2
  | .push item force meanwhile, s => by
    rw [perform]
    exact call_tells (.push item force meanwhile) (act_tells meanwhile) _ _
  | .tryPush item, s => by
    rw [perform]
    exact tells_withHandle (tells_mk _ _ _)
  | .flush, s => by
    rw [perform]
    exact tells_withHandle (tells_mk _ _ _)
  | .pop meanwhile, s => by
    rw [perform]
    exact call_tells (.pop meanwhile) (act_tells meanwhile) _ _
  | .popBatch keep meanwhile, s => by
    rw [perform]
    exact tells_withHandle (call_tells (.popBatch keep meanwhile) (act_tells meanwhile) _ _)
  | .tryPop, s => by
    rw [perform]
    exact tells_withHandle (tells_mk _ _ _)
  | .inspect who, s => (perform_unnoticed rfl s).tells
  | .describe who, s => (perform_unnoticed rfl s).tells
  | .close who, s => by
    rw [perform]
    exact tells_withHandle (tells_mk _ _ _)
  | .addMonitor id source, s => (perform_unnoticed rfl s).tells
  | .inspectMonitor id, s => (perform_unnoticed rfl s).tells
  | .describeMonitor id, s => (perform_unnoticed rfl s).tells
  | .closeMonitor id, s => (perform_unnoticed rfl s).tells
  | .hold, s => (perform_unnoticed rfl s).tells
  | .release, s => (perform_unnoticed rfl s).tells

theorem performAll_tells : ∀ (steps : List (Step α)) (s : Session α),
    Report.resultsOfAll (performAll steps s).2 =
      (Report.deedsOfAll steps (performAll steps s).2).map Deed.result
  | [], s => by
    rw [performAll, Report.resultsOfAll, Report.deedsOfAll]
    rfl
  | step :: steps, s => by
    rw [performAll]
    dsimp only
    rw [Report.resultsOfAll, Report.deedsOfAll, List.map_append, perform_tells step s,
      performAll_tells steps]

theorem act_tells : ∀ plan : Meanwhile (Step α), InterludeTells plan (act plan)
  | .nothing => fun _ _ => rfl
  | .during planned steps rest => fun pause s => by
    by_cases here : planned = pause
    · have all := performAll_tells steps s
      rw [act, if_pos here, noted, Meanwhile.at?, if_pos here]
      exact all
    · have later := act_tells rest pause s
      rw [act, if_neg here, noted_eq (Meanwhile.at?_during_other steps rest here)]
      exact later

end

end SpscQueue.Session
