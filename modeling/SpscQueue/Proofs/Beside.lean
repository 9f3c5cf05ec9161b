import SpscQueue.Proofs.Chronicle
import SpscQueue.Proofs.Memory

namespace SpscQueue

universe u

variable {α : Type u} {role : Role}

/-- The handle that a step is on. -/
def Step.handle : Step α → Option Role
  | .push _ _ _ => some .producer
  | .tryPush _ => some .producer
  | .flush => some .producer
  | .pop _ => some .consumer
  | .popBatch _ _ => some .consumer
  | .tryPop => some .consumer
  | .inspect role => some role
  | .describe role => some role
  | .close role => some role
  | .addMonitor _ (.handle role) => some role
  | _ => none

/-- A step with nothing in its pauses that is not on the handle of a party, and ends no handle. -/
structure Step.Beside (role : Role) (step : Step α) : Prop where
  away : step.handle ≠ some role
  stays (who : Role) : step ≠ .close who
  bare : step.meanwhile = .nothing

/-- An outcome that brings no items to collect. -/
def Outcome.leaves : Outcome α → Bool
  | popBatch (.ok _) => false
  | _ => true

namespace Exchange

variable {x : Exchange α} {paused : Option (Paused α role)} {seen : Index}

/-- The exchange with a party in the middle of some other call, and remembering its peer at some other
place. -/
def amid (x : Exchange α) (paused : Option (Paused α role)) (seen : Index) : Exchange α :=
  { x with queue := x.queue.remember seen role }.withCurrent paused

theorem amid_queue : (x.amid paused seen).queue = x.queue.remember seen role := withCurrent_queue _ paused

theorem current_amid : (x.amid paused seen).current role = paused := current_withCurrent_self paused

theorem current_amid_peer : (x.amid paused seen).current role.peer = x.current role.peer := by
  unfold amid
  rw [current_withCurrent_peer, current_withQueue]

end Exchange

/-- An advance of a party while the other one is in the middle of some other call. -/
def Advance.amid (a : Advance α) (paused : Option (Paused α role)) (seen : Index) : Advance α :=
  { a with exchange := a.exchange.amid paused seen }

namespace Exchange

variable (x : Exchange α) (paused : Option (Paused α role)) (seen : Index)

theorem amid_withCurrent (other : Option (Paused α role.peer)) :
    (x.amid paused seen).withCurrent other = (x.withCurrent other).amid paused seen := by
  cases role <;> rfl

theorem amid_arrive (call : Call α role.peer) (stretch : Stretch α) :
    (x.amid paused seen).arrive call (stretch.remember seen role) =
      (x.arrive call stretch).amid paused seen := by
  unfold arrive Stretch.remember
  dsimp only
  rw [Queue.remember_finish]
  split <;> cases role <;> rfl

theorem amid_start (call : Call α role.peer) :
    (x.amid paused seen).start call = (x.start call).amid paused seen := by
  unfold start
  rw [amid_queue, Queue.remember_prepare, Queue.remember_await, amid_arrive]

theorem amid_proceed : (x.amid paused seen).proceed role.peer = (x.proceed role.peer).amid paused seen := by
  unfold proceed
  rw [current_amid_peer, amid_queue]
  split
  · rfl
  · rw [Queue.remember_resume, amid_arrive]

theorem amid_passTo (pause : Pause) :
    (x.amid paused seen).passTo role.peer pause = (x.passTo role.peer pause).amid paused seen := by
  unfold passTo
  rw [current_amid_peer]
  split
  · rfl
  · exact x.amid_withCurrent paused seen _

/-- The own call of the producer brings no items to collect. -/
theorem arrive_leaves (call : Call α .producer) (stretch : Stretch α) {outcome : Outcome α}
    (ended : (x.arrive call stretch).outcome = some outcome) : outcome.leaves = true := by
  cases call with
  | push item force =>
    unfold arrive at ended
    split at ended <;> cases ended <;> rfl

end Exchange

namespace Session

/-- The session with other items collected, if that is the party to collect them. -/
def collecting (s : Session α) (role : Role) (collected : List α) : Session α :=
  { s with collected := match role with | .producer => s.collected | .consumer => collected }

/-- The session with a party in the middle of some other call, and with other private books. -/
def amid (s : Session α) (paused : Option (Paused α role)) (seen : Index) (collected : List α) :
    Session α :=
  { s.collecting role collected with exchange := s.exchange.amid paused seen }

variable (s : Session α) (paused : Option (Paused α role)) (seen : Index) (collected : List α)

theorem amid_obstacle : (s.amid paused seen collected).obstacle role.peer = s.obstacle role.peer := by
  refine obstacle_eq Exchange.current_amid_peer ?_
  show (s.exchange.amid paused seen).queue.closed _ = _
  rw [Exchange.amid_queue, Queue.remember_closed]
  rfl

theorem amid_conclude {outcome : Outcome α} (leaves : role = .consumer → outcome.leaves = true) :
    (s.amid paused seen collected).conclude outcome =
      ((s.conclude outcome).1.amid paused seen collected, (s.conclude outcome).2) := by
  cases role with
  | producer => unfold conclude; split <;> rfl
  | consumer =>
    unfold conclude
    split
    · rfl
    · rfl
    · rfl
    · cases leaves rfl

theorem amid_absorb {advance : Advance α}
    (leaves : role = .consumer → ∀ outcome, advance.outcome = some outcome → outcome.leaves = true) :
    (s.amid paused seen collected).absorb (advance.amid paused seen) =
      ((s.absorb advance).1.amid paused seen collected, (s.absorb advance).2) := by
  have same : (advance.amid paused seen).outcome = advance.outcome := rfl
  cases ended : advance.outcome with
  | none => rw [absorb_none ended, absorb_none (same.trans ended)]; rfl
  | some outcome =>
    rw [absorb_some ended, absorb_some (same.trans ended)]
    have concluded := amid_conclude { s with exchange := advance.exchange } paused seen collected
      fun own => leaves own outcome ended
    exact congrArg (fun made : Session α × Result α => (made.1, some made.2)) concluded

/-- Nothing is collected in a call of the peer of the consumer. -/
theorem leaves_start (x : Exchange α) (call : Call α role.peer) (own : role = .consumer)
    (outcome : Outcome α) (ended : (x.start call).outcome = some outcome) : outcome.leaves = true := by
  subst own
  exact x.arrive_leaves call _ ended

theorem leaves_proceed (x : Exchange α) (own : role = .consumer) (outcome : Outcome α)
    (ended : (x.proceed role.peer).outcome = some outcome) : outcome.leaves = true := by
  subst own
  unfold Exchange.proceed at ended
  split at ended
  · cases ended
  · exact x.arrive_leaves _ _ ended

/-- Where a call of the other party stands that was carried on in the same way. -/
def Carried.amid (c : Carried α) (paused : Option (Paused α role)) (seen : Index) (collected : List α) :
    Carried α :=
  { c with session := c.session.amid paused seen collected }

theorem amid_carryThrough (pauses : List Pause) :
    carryThrough role.peer (act .nothing) pauses (s.amid paused seen collected) =
      (carryThrough role.peer (act .nothing) pauses s).amid paused seen collected := by
  induction pauses generalizing s with
  | nil => rfl
  | cons pause pauses ih =>
    rw [carryThrough_cons, carryThrough_cons]
    have passed : ({ s.amid paused seen collected with
          exchange := (s.amid paused seen collected).exchange.passTo role.peer pause } : Session α) =
        ({ s with exchange := s.exchange.passTo role.peer pause } : Session α).amid paused seen
          collected := by
      unfold amid
      dsimp only
      rw [Exchange.amid_passTo]
      rfl
    rw [passed]
    generalize ({ s with exchange := s.exchange.passTo role.peer pause } : Session α) = now
    have advanced : (now.amid paused seen collected).exchange.proceed role.peer =
        (now.exchange.proceed role.peer).amid paused seen := now.exchange.amid_proceed paused seen
    have absorbed := now.amid_absorb paused seen collected (leaves_proceed now.exchange)
    unfold act
    dsimp only
    rw [advanced, absorbed]
    generalize now.absorb (now.exchange.proceed role.peer) = taken
    obtain ⟨after, told⟩ := taken
    cases told with
    | none => dsimp only; rw [ih]; rfl
    | some result => rfl

theorem amid_call (call : Call α role.peer) (pauses : List Pause) :
    (s.amid paused seen collected).call call (act .nothing) pauses =
      ((s.call call (act .nothing) pauses).1.amid paused seen collected,
        (s.call call (act .nothing) pauses).2) := by
  have started : (s.amid paused seen collected).exchange.start call =
      (s.exchange.start call).amid paused seen := s.exchange.amid_start paused seen call
  have absorbed := s.amid_absorb paused seen collected (leaves_start s.exchange call)
  unfold Session.call withHandle
  rw [amid_obstacle]
  cases s.obstacle role.peer with
  | some result => rfl
  | none =>
    unfold carry
    dsimp only
    rw [started, absorbed]
    generalize s.absorb (s.exchange.start call) = taken
    obtain ⟨after, told⟩ := taken
    cases told with
    | none => dsimp only; rw [amid_carryThrough]; rfl
    | some result => rfl

theorem amid_withHandle {use : Session α → Session α × Report α}
    (uses : use (s.amid paused seen collected) = ((use s).1.amid paused seen collected, (use s).2)) :
    (s.amid paused seen collected).withHandle role.peer use =
      ((s.withHandle role.peer use).1.amid paused seen collected, (s.withHandle role.peer use).2) := by
  unfold withHandle
  rw [amid_obstacle]
  cases s.obstacle role.peer with
  | some result => rfl
  | none => exact uses

theorem amid_withMonitor {use : Session α → Session α × Report α} (id : Nat)
    (uses : use (s.amid paused seen collected) = ((use s).1.amid paused seen collected, (use s).2)) :
    (s.amid paused seen collected).withMonitor id use =
      ((s.withMonitor id use).1.amid paused seen collected, (s.withMonitor id use).2) := by
  unfold withMonitor
  show (if s.monitors.contains id then _ else _) = _
  split
  · exact uses
  · rfl

theorem peer_of_away {who : Role} (away : some who ≠ some role) : who = role.peer :=
  (role.eq_or_eq_peer who).resolve_left fun same => away (congrArg some same)

/-- A step beside a party does the same wherever that party is, and leaves it there. -/
theorem amid_perform {step : Step α} (beside : step.Beside role) :
    perform step (s.amid paused seen collected) =
      ((perform step s).1.amid paused seen collected, (perform step s).2) := by
  obtain ⟨away, stays, bare⟩ := beside
  cases step with
  | push item force meanwhile =>
    cases bare
    cases role with
    | producer => exact absurd rfl away
    | consumer => exact s.amid_call paused seen collected (.push item force) [.sleep]
  | tryPush item =>
    cases role with
    | producer => exact absurd rfl away
    | consumer =>
      rw [perform, perform]
      refine s.amid_withHandle paused seen collected ?_
      have tried : (s.amid paused seen collected).queue.tryPush item = _ :=
        s.queue.remember_tryPush seen item
      dsimp only
      rw [tried]
      rfl
  | flush =>
    cases role with
    | producer => exact absurd rfl away
    | consumer =>
      rw [perform, perform]
      refine s.amid_withHandle paused seen collected ?_
      have shown : (s.amid paused seen collected).queue.flush = _ :=
        s.queue.remember_publish_peer seen .consumer
      dsimp only
      rw [shown]
      rfl
  | pop meanwhile =>
    cases bare
    cases role with
    | consumer => exact absurd rfl away
    | producer => exact s.amid_call paused seen collected .pop [.sleep]
  | popBatch keep meanwhile =>
    cases bare
    cases role with
    | consumer => exact absurd rfl away
    | producer =>
      rw [perform, perform]
      refine s.amid_withHandle paused seen collected ?_
      cases keep with
      | true => exact s.amid_call paused seen collected .popBatch [.sleep]
      | false => exact amid_call { s with collected := [] } paused seen collected .popBatch [.sleep]
  | tryPop =>
    cases role with
    | consumer => exact absurd rfl away
    | producer =>
      rw [perform, perform]
      refine s.amid_withHandle paused seen collected ?_
      have tried : (s.amid paused seen collected).queue.tryPop = _ := s.queue.remember_tryPop seen
      dsimp only
      rw [tried]
      rfl
  | inspect who =>
    obtain rfl := peer_of_away away
    have told : (s.amid paused seen collected).handleInfo role.peer = s.handleInfo role.peer := by
      cases role <;> rfl
    rw [perform, perform]
    refine s.amid_withHandle paused seen collected ?_
    rw [told]
  | describe who =>
    obtain rfl := peer_of_away away
    have told : (s.amid paused seen collected).describe role.peer = s.describe role.peer := by
      cases role <;> rfl
    rw [perform, perform]
    refine s.amid_withHandle paused seen collected ?_
    rw [told]
  | close who => exact absurd rfl (stays who)
  | addMonitor id source =>
    rw [perform, perform]
    unfold addMonitor
    cases source with
    | handle who =>
      obtain rfl := peer_of_away away
      refine s.amid_withHandle paused seen collected ?_
      rfl
    | monitor other =>
      refine s.amid_withMonitor paused seen collected other ?_
      rfl
  | inspectMonitor id =>
    have told : (s.amid paused seen collected).monitorInfo = s.monitorInfo := by cases role <;> rfl
    rw [perform, perform]
    refine s.amid_withMonitor paused seen collected id ?_
    rw [told]
  | describeMonitor id =>
    have told : (s.amid paused seen collected).describeMonitor = s.describeMonitor := by
      cases role <;> rfl
    rw [perform, perform]
    refine s.amid_withMonitor paused seen collected id ?_
    rw [told]
  | closeMonitor id =>
    rw [perform, perform]
    refine s.amid_withMonitor paused seen collected id ?_
    rfl
  | hold => rfl
  | release => rfl

theorem amid_performAll {steps : List (Step α)} (beside : ∀ step ∈ steps, step.Beside role) :
    performAll steps (s.amid paused seen collected) =
      ((performAll steps s).1.amid paused seen collected, (performAll steps s).2) := by
  induction steps generalizing s with
  | nil => rfl
  | cons step steps ih =>
    have first := s.amid_perform paused seen collected (beside step (List.mem_cons_self ..))
    have rest := ih (perform step s).1 fun next member => beside next (List.mem_cons_of_mem _ member)
    unfold performAll
    rw [first]
    dsimp only
    rw [rest]

/-! A step beside a party leaves the books of that party alone, and both handles. -/

theorem alike_absorb {who : Role} {s : Session α} {advance : Advance α}
    (alike : Queue.Alike who s.queue advance.exchange.queue) :
    Queue.Alike who s.queue (s.absorb advance).1.queue := by
  show Queue.Alike who s.queue (s.absorb advance).1.exchange.queue
  rwa [absorb_exchange]

theorem alike_carryThrough (who : Role) (pauses : List Pause) (s : Session α) :
    Queue.Alike who s.queue (carryThrough who (act .nothing) pauses s).session.queue := by
  induction pauses generalizing s with
  | nil => exact .refl who s.queue
  | cons pause pauses ih =>
    have passed : ({ s with exchange := s.exchange.passTo who pause } : Session α).queue = s.queue :=
      Exchange.passTo_queue s.exchange who pause
    rw [carryThrough_cons]
    generalize ({ s with exchange := s.exchange.passTo who pause } : Session α) = now at passed
    unfold act
    dsimp only
    have moved := alike_absorb (now.exchange.proceed_beside who).1
    rw [passed] at moved
    generalize now.absorb (now.exchange.proceed who) = taken at moved
    obtain ⟨after, told⟩ := taken
    cases told with
    | none => exact moved.trans (ih after)
    | some result => exact moved

theorem alike_withHandle {who other : Role} {s : Session α} {use : Session α → Session α × Report α}
    (uses : Queue.Alike other s.queue (use s).1.queue) :
    Queue.Alike other s.queue (s.withHandle who use).1.queue := by
  unfold withHandle
  split
  · exact .refl other s.queue
  · exact uses

theorem alike_withMonitor {who : Role} {id : Nat} {s : Session α} {use : Session α → Session α × Report α}
    (uses : Queue.Alike who s.queue (use s).1.queue) :
    Queue.Alike who s.queue (s.withMonitor id use).1.queue := by
  unfold withMonitor
  split
  · exact uses
  · exact .refl who s.queue

theorem alike_call {who : Role} (call : Call α who) (pauses : List Pause) (s : Session α) :
    Queue.Alike who s.queue (s.call call (act .nothing) pauses).1.queue := by
  refine alike_withHandle ?_
  have moved := alike_absorb (s.exchange.start_beside call).1
  unfold carry
  generalize s.absorb (s.exchange.start call) = taken at moved
  obtain ⟨after, told⟩ := taken
  cases told with
  | none => exact moved.trans (alike_carryThrough who pauses after)
  | some result => exact moved

theorem alike_perform {step : Step α} (beside : step.Beside role) (s : Session α) :
    Queue.Alike role.peer s.queue (perform step s).1.queue := by
  obtain ⟨away, stays, bare⟩ := beside
  have unmoved : Queue.Alike role.peer s.queue s.queue := .refl _ _
  cases step with
  | push item force meanwhile =>
    cases bare
    cases role with
    | producer => exact absurd rfl away
    | consumer => exact alike_call (.push item force) [.sleep] s
  | tryPush item =>
    cases role with
    | producer => exact absurd rfl away
    | consumer => rw [perform]; exact alike_withHandle (s.queue.alike_tryPush item)
  | flush =>
    cases role with
    | producer => exact absurd rfl away
    | consumer => rw [perform]; exact alike_withHandle (s.queue.alike_publish .producer)
  | pop meanwhile =>
    cases bare
    cases role with
    | consumer => exact absurd rfl away
    | producer => exact alike_call .pop [.sleep] s
  | popBatch keep meanwhile =>
    cases bare
    cases role with
    | consumer => exact absurd rfl away
    | producer =>
      rw [perform]
      refine alike_withHandle ?_
      cases keep with
      | true => exact alike_call .popBatch [.sleep] s
      | false => exact alike_call .popBatch [.sleep] { s with collected := [] }
  | tryPop =>
    cases role with
    | consumer => exact absurd rfl away
    | producer => rw [perform]; exact alike_withHandle s.queue.alike_tryPop
  | inspect who | describe who => rw [perform]; exact alike_withHandle unmoved
  | close who => exact absurd rfl (stays who)
  | addMonitor id source =>
    rw [perform]
    cases source with
    | handle who => exact alike_withHandle unmoved
    | monitor other => exact alike_withMonitor unmoved
  | inspectMonitor id | describeMonitor id | closeMonitor id =>
    rw [perform]
    exact alike_withMonitor unmoved
  | hold | release => exact unmoved

theorem alike_performAll {steps : List (Step α)} (beside : ∀ step ∈ steps, step.Beside role)
    (s : Session α) : Queue.Alike role.peer s.queue (performAll steps s).1.queue := by
  induction steps generalizing s with
  | nil => exact .refl _ _
  | cons step steps ih =>
    have first := alike_perform (beside step (List.mem_cons_self ..)) s
    exact first.trans (ih (fun next member => beside next (List.mem_cons_of_mem _ member)) _)

end Session

end SpscQueue
