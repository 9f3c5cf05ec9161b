import SpscQueue.Proofs.Effort
import SpscQueue.Proofs.Performance

namespace SpscQueue.Session

universe u

variable {α : Type u} {role who : Role} {s after : Session α} {items : List α}

theorem unrest_eq (s : Session α) (role : Role) :
    s.unrest = s.exchange.effort role + 6 * (s.exchange.parked role.peer).toNat := by
  have whole : s.unrest = 6 * (s.exchange.parked .producer).toNat +
      6 * (s.exchange.parked .consumer).toNat + s.queue.stir := by
    have count (role : Role) : (s.queue.side role).unease =
        3 * (decide ((s.queue.side role).cursor.published ≠ s.queue.position role)).toNat +
          (s.queue.signalled role).toNat := rfl
    have stir : s.queue.stir = (s.queue.side .producer).unease + (s.queue.side .consumer).unease := rfl
    rw [stir, count, count]
    unfold unrest
    dsimp only
    omega
  rw [whole]
  unfold Exchange.effort
  cases role with
  | producer =>
    show _ = 6 * (s.exchange.parked .producer).toNat + s.queue.stir +
      6 * (s.exchange.parked .consumer).toNat
    omega
  | consumer =>
    show _ = 6 * (s.exchange.parked .consumer).toNat + s.queue.stir +
      6 * (s.exchange.parked .producer).toNat
    omega

theorem absorb_aside (s : Session α) (advance : Advance α) :
    (s.absorb advance).1.monitors = s.monitors ∧ (s.absorb advance).1.held = s.held := by
  unfold absorb
  split
  · exact ⟨rfl, rfl⟩
  · unfold conclude
    split <;> exact ⟨rfl, rfl⟩

/-- A call that is led on with nothing else happening meanwhile. -/
theorem carryThrough_sleep (role : Role) (s : Session α) :
    (carryThrough role (fun _ s => (s, none)) [.sleep] s).session =
      (({ s with exchange := s.exchange.passTo role .sleep } : Session α).absorb
        ((s.exchange.passTo role .sleep).proceed role)).1 := by
  rw [carryThrough_cons]
  dsimp only
  split <;> (rename_i same; rw [same])
  rfl

/-- What a resumption makes of the exchange. -/
theorem resume_exchange (s : Session α) (role : Role) :
    (s.exchange.proceed role).outcome ≠ none ∧
        (s.resume role).1.exchange = (s.exchange.proceed role).exchange ∨
      (s.exchange.proceed role).outcome = none ∧ (s.resume role).1.exchange =
        (((s.exchange.proceed role).exchange.passTo role .sleep).proceed role).exchange := by
  unfold resume carry
  cases ended : (s.exchange.proceed role).outcome with
  | some outcome =>
    rw [absorb_some ended]
    exact Or.inl ⟨Option.some_ne_none outcome, conclude_exchange _ outcome⟩
  | none =>
    rw [absorb_none ended]
    dsimp only
    rw [carryThrough_sleep]
    exact Or.inr ⟨rfl, absorb_exchange _ _⟩

theorem resume_aside (s : Session α) (role : Role) :
    (s.resume role).1.monitors = s.monitors ∧ (s.resume role).1.held = s.held := by
  have first := s.absorb_aside (s.exchange.proceed role)
  unfold resume carry
  split
  · rename_i moved result ended
    rw [ended] at first
    exact first
  · rename_i moved unfinished
    rw [unfinished] at first
    dsimp only
    rw [carryThrough_sleep]
    obtain ⟨monitors, held⟩ :=
      ({ moved with exchange := moved.exchange.passTo role .sleep } : Session α).absorb_aside
        ((moved.exchange.passTo role .sleep).proceed role)
    exact ⟨monitors.trans first.1, held.trans first.2⟩

theorem deedsMeanwhile_nothing (reports : Meanwhile (Report α)) :
    Report.deedsMeanwhile (.nothing : Meanwhile (Step α)) reports = [] := by
  induction reports with
  | nothing => rw [Report.deedsMeanwhile]
  | during pause reports rest ih =>
    rw [Report.deedsMeanwhile, ih, List.append_nil]
    show Report.deedsOfAll [] reports = []
    cases reports <;> rw [Report.deedsOfAll]

/-- A parked party that is woken and led on until it ends or parks again. -/
theorem resume_led (resumable : s.exchange.resumable role = true) :
    Led role [.proceed role] s
      (s.carry role (fun _ s => (s, none)) [.sleep] (s.exchange.proceed role)) [] := by
  obtain ⟨parked, raised⟩ := Bool.and_eq_true_iff.mp resumable
  obtain ⟨call, paused⟩ := Exchange.parked_iff.mp parked
  have acts : Interluded role (.nothing : Meanwhile (Step α)) fun _ s => (s, none) :=
    ⟨fun _ s _ => .refl role s, fun _ s => .refl s⟩
  have allowed : s.exchange.allows (.proceed role) = true := by
    show (s.exchange.busy role && (!s.exchange.parked role || s.exchange.queue.signalled role)) = true
    rw [Exchange.busy_of_parked parked, raised, Bool.or_true, Bool.and_true]
  have plays : s.exchange.play (.proceed role) =
      (s.exchange.arrive call (s.queue.resume role .park)).turn role :=
    congrArg (Advance.turn · role) (Exchange.proceed_eq paused)
  have led := carry_led acts allowed plays (s.queue.alike_resume role .park)
    (fun pause waits => Queue.resume_park_pausing waits)
    (stopsFrom_firstPause (.nothing : Meanwhile (Step α)) s.queue)
  rw [deedsMeanwhile_nothing] at led
  rw [Exchange.proceed_eq paused]
  exact led

theorem unrest_lt (other : after.exchange.current role.peer = s.exchange.current role.peer)
    (less : after.exchange.effort role < s.exchange.effort role) : after.unrest < s.unrest := by
  rw [unrest_eq after role, unrest_eq s role, parked_eq_of_current other]
  omega

/-- Each resumption uses up a signal, or ends a call. -/
theorem resume_unrest (sound : s.exchange.Sound items) (resumable : s.exchange.resumable role = true) :
    (s.resume role).1.unrest < s.unrest := by
  obtain ⟨parked, raised⟩ := Bool.and_eq_true_iff.mp resumable
  obtain ⟨call, paused⟩ := Exchange.parked_iff.mp parked
  have keeps := Queue.resume_keeps sound.carries (sound.told role (Exchange.busy_of_parked parked)) .park
  have spent := Queue.stir_resume_park raised
  have before : s.exchange.effort role = 6 + s.exchange.queue.stir := by
    unfold Exchange.effort
    rw [parked]
    rfl
  have beside := Exchange.proceed_beside s.exchange role
  have first := s.exchange.arrive_effort call keeps
  rw [Exchange.proceed_eq paused] at beside
  rcases s.resume_exchange role with ⟨_, same⟩ | ⟨ended, same⟩
  · rw [Exchange.proceed_eq paused] at same
    refine unrest_lt (by rw [same]; exact beside.2) ?_
    rw [same, before]
    omega
  · rw [Exchange.proceed_eq paused] at ended same
    obtain ⟨pause, waits, kept, reached⟩ := Exchange.arrive_unfinished ended
    have told := (keeps.pausing pause waits).2.1
    have again := Exchange.current_passTo reached .sleep
    have asleep := Exchange.passTo_queue (s.exchange.arrive call (s.exchange.queue.resume role .park)).exchange
      role .sleep
    have other := Exchange.current_passTo_peer
      (s.exchange.arrive call (s.exchange.queue.resume role .park)).exchange role .sleep
    generalize (s.exchange.arrive call (s.exchange.queue.resume role .park)).exchange.passTo role .sleep =
      x at *
    have still := x.proceed_beside role
    rw [Exchange.proceed_eq again] at same still
    refine unrest_lt (by rw [same, still.2, other, beside.2]) ?_
    have carries := keeps.carries
    rw [← kept, ← asleep] at carries told spent
    have second := x.arrive_effort call (Queue.resume_keeps carries told .sleep)
    have rest := carries.stir_resume_sleep role
    rw [same, before]
    omega

/-- Whether a resumption ends a call of the party. -/
def ends (role : Role) (r : Resumption α) : Bool :=
  r.role == role &&
    match r.result with
    | .parked => false
    | _ => true

/-- The calls of a party that ended after they had parked. -/
def endings (role : Role) (resumptions : List (Resumption α)) : Nat := resumptions.countP (ends role)

/-- What has happened when some parked calls have gone on. -/
structure Resumes (s after : Session α) (resumptions : List (Resumption α)) : Prop where
  runs : ∃ moves,
    s.exchange.Runs moves (resumptions.filterMap fun r => r.result.ofCall) after.exchange ∧
    ∀ role, moves.filter (Move.opens role) = []
  calm (role : Role) : after.Calm role
  endings (role : Role) :
    endings role resumptions + (after.exchange.parked role).toNat = (s.exchange.parked role).toNat
  monitors : after.monitors = s.monitors
  held : after.held = s.held

variable {resumptions more : List (Resumption α)} {middle : Session α}

theorem Resumes.trans (first : Resumes s middle resumptions) (second : Resumes middle after more) :
    Resumes s after (resumptions ++ more) where
  runs := by
    obtain ⟨moves, run, silent⟩ := first.runs
    obtain ⟨others, later, still⟩ := second.runs
    refine ⟨moves ++ others, ?_, fun role => ?_⟩
    · rw [List.filterMap_append]
      exact run.append later
    · rw [List.filter_append, silent, still, List.append_nil]
  calm := second.calm
  endings role := by
    have early := first.endings role
    have late := second.endings role
    have total : Session.endings role (resumptions ++ more) =
        Session.endings role resumptions + Session.endings role more := List.countP_append
    omega
  monitors := second.monitors.trans first.monitors
  held := second.held.trans first.held

theorem ends_of_ended {r : Resumption α} {outcome : Outcome α}
    (ended : r.result.ofCall = some outcome.result) : ends r.role r = true := by
  obtain ⟨role, result, events⟩ := r
  unfold ends
  rw [beq_self_eq_true, Bool.true_and]
  cases result with
  | parked => exact absurd (Option.some.inj ended).symm (outcome_ne_parked outcome)
  | _ => rfl

theorem not_ends_of_parked {r : Resumption α} (parks : r.result = .parked) (who : Role) :
    ends who r = false := by
  unfold ends
  rw [parks, Bool.and_false]

theorem not_ends_of_other {r : Resumption α} (other : r.role ≠ role) : ends role r = false := by
  unfold ends
  rw [beq_eq_false_iff_ne.mpr other, Bool.false_and]

theorem resume_resumes (calm : ∀ role, s.Calm role) (resumable : s.exchange.resumable role = true) :
    Resumes s (s.resume role).1 [(s.resume role).2] := by
  have led := resume_led resumable
  have aside := s.resume_aside role
  have parked := (Bool.and_eq_true_iff.mp resumable).1
  have count (who : Role) : endings who [(s.resume role).2] = (ends who (s.resume role).2).toNat := by
    cases ends' : ends who (s.resume role).2 <;> simp [endings, ends']
  refine ⟨?_, fun who => ?_, fun who => ?_, aside.1, aside.2⟩
  · obtain ⟨moves, run, opened⟩ := led.runs
    refine ⟨.proceed role :: moves, ?_, opened⟩
    have single : [(s.resume role).2].filterMap (fun r => r.result.ofCall) =
        (s.resume role).2.result.ofCall.toList := by
      cases told : (s.resume role).2.result.ofCall <;> simp [told]
    rw [single]
    exact run
  · rcases role.eq_or_eq_peer who with rfl | rfl
    · exact led.calm
    · exact led.peer_calm (calm _)
  · rw [count]
    rcases role.eq_or_eq_peer who with rfl | rfl
    · rw [parked]
      rcases led.fate with ⟨parks, again⟩ | ⟨⟨outcome, ended⟩, idle⟩
      · have still : (s.resume who).1.exchange.parked who = true := again
        rw [not_ends_of_parked parks, still]
        rfl
      · have quieted : (s.resume who).1.exchange.parked who = false := Exchange.parked_of_idle idle
        have final : ends who (s.resume who).2 = true := ends_of_ended ended
        rw [final, quieted]
        rfl
    · rw [not_ends_of_other (peer_ne role)]
      have same := led.peer_parkings (calm _)
      exact (Nat.zero_add _).trans (same.symm.trans (Nat.zero_add _))

theorem next_cases (s : Session α) :
    (∃ role, s.nextResumable = some role ∧ s.exchange.resumable role = true) ∨
      s.nextResumable = none ∧ ∀ role, s.exchange.resumable role = false := by
  unfold nextResumable
  by_cases first : s.exchange.resumable .producer = true
  · rw [if_pos first]
    exact Or.inl ⟨.producer, rfl, first⟩
  · rw [if_neg first]
    by_cases second : s.exchange.resumable .consumer = true
    · rw [if_pos second]
      exact Or.inl ⟨.consumer, rfl, second⟩
    · rw [if_neg second]
      refine Or.inr ⟨rfl, fun role => ?_⟩
      cases role with
      | producer => exact Bool.eq_false_iff.mpr first
      | consumer => exact Bool.eq_false_iff.mpr second

theorem Resumes.refl (calm : ∀ role, s.Calm role) : Resumes s s [] :=
  ⟨⟨[], .rest s.exchange, fun _ => rfl⟩, calm, fun _ => Nat.zero_add _, rfl, rfl⟩

/-- Settling ends with nobody left who could go on. -/
theorem settleWithin_resumes (bound : Nat) (s : Session α) (sound : s.exchange.Sound items)
    (calm : ∀ role, s.Calm role) (enough : s.unrest ≤ bound) :
    Resumes s (s.settleWithin bound).1 (s.settleWithin bound).2 ∧
      ∀ role, (s.settleWithin bound).1.exchange.resumable role = false := by
  induction bound generalizing s items with
  | zero =>
    refine ⟨.refl calm, fun role => ?_⟩
    have none := s.unrest_eq role
    unfold Exchange.effort at none
    have awake : s.exchange.parked role = false := by
      cases parked : s.exchange.parked role with
      | false => rfl
      | true =>
        rw [parked] at none
        simp only [Bool.toNat_true] at none
        omega
    show (s.exchange.parked role && s.exchange.queue.signalled role) = false
    rw [awake, Bool.false_and]
  | succ bound ih =>
    rcases s.next_cases with ⟨role, next, resumable⟩ | ⟨next, quiet⟩
    · have first := resume_resumes calm resumable
      have less := resume_unrest sound resumable
      obtain ⟨moves, run, _⟩ := first.runs
      obtain ⟨left, soundNow, _⟩ := sound.run run
      obtain ⟨rest, quieted⟩ := ih (s.resume role).1 soundNow first.calm (by omega)
      simp only [settleWithin, next]
      exact ⟨first.trans rest, quieted⟩
    · simp only [settleWithin, next]
      exact ⟨.refl calm, quiet⟩

/-- What follows a step. Unless they are held back, the parked parties go on until none of them can. -/
theorem settle_resumes (sound : s.exchange.Sound items) (calm : ∀ role, s.Calm role) :
    Resumes s s.settle.1 s.settle.2 ∧
      (s.held = false → ∀ role, s.settle.1.exchange.resumable role = false) := by
  unfold settle
  split
  · rename_i held
    refine ⟨.refl calm, fun free => ?_⟩
    rw [held] at free
    cases free
  · obtain ⟨resumes, quieted⟩ := settleWithin_resumes s.unrest s sound calm (Nat.le_refl _)
    exact ⟨resumes, fun _ => quieted⟩

end SpscQueue.Session
