import SpscQueue.Proofs.Sparing

namespace SpscQueue.Session

universe u

variable {α : Type u} {role who : Role} {s middle after : Session α} {deeds more : List (Deed α)}
  {step : Step α} {result : Result α}

/-- A party is calm if it is at rest or parked. -/
def Calm (s : Session α) (role : Role) : Prop :=
  s.exchange.busy role = true → s.exchange.parked role = true

theorem parked_eq_of_current (same : after.exchange.current role = s.exchange.current role) :
    after.exchange.parked role = s.exchange.parked role := by
  unfold Exchange.parked Exchange.pauseOf
  rw [same]

theorem calm_of_current (same : after.exchange.current role = s.exchange.current role)
    (calm : s.Calm role) : after.Calm role := by
  unfold Calm Exchange.busy at calm ⊢
  rw [parked_eq_of_current same, same]
  exact calm

theorem calm_of_idle (idle : s.exchange.current role = none) : s.Calm role := by
  unfold Calm Exchange.busy
  rw [idle]
  exact fun busy => nomatch busy

/-- The results of the calls among the deeds. -/
def callResults (deeds : List (Deed α)) : List (Result α) :=
  deeds.filterMap fun deed => deed.result.ofCall

theorem callResults_append (deeds more : List (Deed α)) :
    callResults (deeds ++ more) = callResults deeds ++ callResults more := List.filterMap_append

/-- The steps made are moves of the exchange: those that begin something are the ones the steps stand
for, and the results are those reported. A party that was calm is calm again, and it is parked if
one of its calls has parked since. -/
structure Enacts (s after : Session α) (deeds : List (Deed α)) : Prop where
  runs : ∃ moves, s.exchange.Runs moves (callResults deeds) after.exchange ∧
    ∀ role, moves.filter (Move.opens role) = openings role deeds
  rounds : after.queue.snoozeRounds = s.queue.snoozeRounds
  calm (role : Role) : s.Calm role → after.Calm role
  parkings (role : Role) : s.Calm role →
    parkings role deeds + (s.exchange.parked role).toNat = (after.exchange.parked role).toNat

theorem Enacts.refl (s : Session α) : Enacts s s [] where
  runs := ⟨[], .rest s.exchange, fun _ => rfl⟩
  rounds := rfl
  calm _ := id
  parkings _ _ := Nat.zero_add _

theorem Enacts.trans (first : Enacts s middle deeds) (second : Enacts middle after more) :
    Enacts s after (deeds ++ more) where
  runs := by
    obtain ⟨moves, run, opened⟩ := first.runs
    obtain ⟨others, later, reopened⟩ := second.runs
    refine ⟨moves ++ others, ?_, fun role => ?_⟩
    · rw [callResults_append]
      exact run.append later
    · rw [List.filter_append, opened, reopened, openings_append]
  rounds := second.rounds.trans first.rounds
  calm role calm := second.calm role (first.calm role calm)
  parkings role calm := by
    have before := first.parkings role calm
    have later := second.parkings role (first.calm role calm)
    rw [parkings_append]
    omega

theorem Unnoticed.enacts {made : Session α × Report α} (unnoticed : Unnoticed s step made) :
    Enacts s made.1 (made.2.deeds step) := by
  have spared (role : Role) : Spares role s made.1 (made.2.deeds step) := unnoticed.spares
  obtain ⟨same, result, plainly, silent, aside⟩ := unnoticed
  have results : callResults (made.2.deeds step) = [] := by
    rw [plainly, deeds_plain]
    simp [callResults, silent]
  refine ⟨⟨[], ?_, fun role => (spared role).openings.symm⟩, ?_, fun role => ?_, fun role _ => ?_⟩
  · rw [results, same]
    exact .rest s.exchange
  · exact congrArg (fun x => x.queue.snoozeRounds) same
  · exact calm_of_current (spared role).current
  · rw [(spared role).parkings, parked_eq_of_current (spared role).current, Nat.zero_add]

/-- A step that is a single move. -/
theorem enacts_move {move : Move α} (allowed : s.exchange.allows move = true)
    (same : after.exchange = (s.exchange.play move).exchange)
    (heard : result.ofCall = (s.exchange.play move).result)
    (opening : (⟨step, result⟩ : Deed α).opening = some move)
    (stays : ∀ role, (⟨step, result⟩ : Deed α).parks role = false)
    (current : ∀ role, after.exchange.current role = s.exchange.current role)
    (rounds : after.queue.snoozeRounds = s.queue.snoozeRounds) :
    Enacts s after [⟨step, result⟩] := by
  have results : callResults [(⟨step, result⟩ : Deed α)] =
      (s.exchange.play move).result.toList := by
    rw [← heard]
    cases named : result.ofCall <;> simp [callResults, named]
  refine ⟨⟨[move], ?_, fun role => ?_⟩, rounds, fun role => calm_of_current (current role),
    fun role _ => ?_⟩
  · rw [results, same]
    exact .single allowed
  · simp [openings, opening]
  · simp [SpscQueue.parkings, stays role, parked_eq_of_current (current role)]

end SpscQueue.Session
