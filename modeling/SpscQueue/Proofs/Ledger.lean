import SpscQueue.Proofs.Concluding
import SpscQueue.Proofs.Pacing
import SpscQueue.Transfer

namespace SpscQueue.Transfer

open Exchange (Beside Came Paces Spends)

variable {t : Transfer} {s moved next : State} {left after : List UInt64} {role : Role}

/-- The first `n` items of the producer. -/
def stream (t : Transfer) (n : Nat) : List UInt64 := (List.range n).map t.item

theorem stream_succ (t : Transfer) (n : Nat) : t.stream (n + 1) = t.stream n ++ [t.item n] := by
  unfold stream
  rw [List.range_succ, List.map_append]
  rfl

@[simp]
theorem length_stream (t : Transfer) (n : Nat) : (t.stream n).length = n := by
  unfold stream
  rw [List.length_map, List.length_range]

theorem take_stream (t : Transfer) (n m : Nat) : (t.stream n).take m = t.stream (min m n) := by
  unfold stream
  rw [← List.map_take, List.take_range]

namespace Receipts

theorem items_add (r : Receipts) (item : UInt64) : (r.add item).items = r.items ++ [item] :=
  List.reverse_cons

theorem items_addAll (r : Receipts) (items : List UInt64) :
    (r.addAll items).items = r.items ++ items := by
  induction items generalizing r with
  | nil => exact (List.append_nil _).symm
  | cons item items ih =>
    show ((r.add item).addAll items).items = _
    rw [ih, items_add, List.append_assoc]
    rfl

theorem count_eq_length (r : Receipts) : r.count = r.items.length := by
  rw [r.count_eq, items, List.length_reverse]

theorem count_addAll (r : Receipts) (items : List UInt64) :
    (r.addAll items).count = r.count + items.length := by
  rw [count_eq_length, items_addAll, List.length_append, count_eq_length]

end Receipts

/-- The calls that a party makes at this point of the transfer. -/
def Calls (t : Transfer) (s : State) : {role : Role} → Call UInt64 role → Prop
  | .producer, call =>
    s.refusal = none ∧ s.pushed < t.count ∧ call = .push (t.item s.pushed) (t.forced s.pushed)
  | .consumer, call =>
    s.ending = none ∧ t.stopAfter ≠ some s.received.count ∧ (t.stopAfter ≠ none → call ≠ .popBatch)

/-- Whether a party has nothing left to do but to leave. -/
def Done (t : Transfer) (s : State) : Role → Prop
  | .producer => s.refusal = none → s.pushed = t.count
  | .consumer => s.ending ≠ none

/-- A transfer under way through a queue with room for so many items, with the items in it. The
consumer has received what it takes to make up, with those, everything that was pushed. A push was
refused only by a full queue that nobody empties, and a pop failed only when there was nothing left to
come. -/
structure Underway (t : Transfer) (room : Nat) (s : State) (left : List UInt64) : Prop where
  sound : s.exchange.Sound left
  parted : s.exchange.queue.Parted
  capacity : s.exchange.queue.capacity.toNat = room
  stream : t.stream s.pushed = s.received.items ++ left
  calls (role : Role) (paused : Paused UInt64 role) :
    s.exchange.current role = some paused → t.Calls s paused.call
  done (role : Role) : s.exchange.queue.closed role = true → t.Done s role
  pushed_le : s.pushed ≤ t.count
  refused (refusal : UInt64 × PushFailure) : s.refusal = some refusal →
    refusal = (t.item s.pushed, .disconnected) ∧ s.pushed < t.count ∧ left.length = room ∧
      s.exchange.queue.closed .consumer = true
  received_le (stop : Nat) : t.stopAfter = some stop → s.received.count ≤ stop
  stopped : s.ending = some .stopped → t.stopAfter = some s.received.count
  failed (cause : PopFailure) : s.ending = some (.failed cause) →
    cause = .disconnected ∧ t.stopAfter ≠ some s.received.count ∧ left = [] ∧
      s.exchange.queue.closed .producer = true
  dropped : s.dropped = []
  overfull : s.overfull = false
  attended : ∃ role, s.exchange.queue.closed role = false

/-- A party has made a turn that leaves its handle open, and the other party where it is. Its own
signal is still there only if it did not wake up by it. -/
structure Goes (role : Role) (x y : Exchange UInt64) (left : List UInt64) : Prop where
  beside : Beside role x y
  sound : y.Sound left
  present : x.queue.closed role = false
  quiet : y.queue.signalled role = true → x.queue.signalled role = true ∧ x.parked role = false

/-- A party has ended a call. -/
structure Ends (role : Role) (x y : Exchange UInt64) (left : List UInt64) : Prop
    extends Goes role x y left where
  idle : y.current role = none
  mild : y.strain ≤ x.strain + (x.queue.snoozeRounds + 2) * 5

/-- What a turn of a party can do: it pauses in a call, or a call of it ends in one way or another, or
it stops or leaves. -/
inductive Does (t : Transfer) (s : State) (left : List UInt64) :
    Role → State → List UInt64 → Prop
  | pauses {role : Role} {y : Exchange UInt64} {paused : Paused UInt64 role} (intakes : Nat) :
      Goes role s.exchange y left → y.current role = some paused → t.Calls s paused.call →
      y.strain < s.exchange.strain → s.exchange.Next role paused.pause →
      Does t s left role { s with exchange := y, intakes } left
  | pushes {y : Exchange UInt64} :
      Ends .producer s.exchange y (left ++ [t.item s.pushed]) → s.refusal = none →
      s.pushed < t.count →
      Does t s left .producer { s with exchange := y, pushed := s.pushed + 1 }
        (left ++ [t.item s.pushed])
  | refused {y : Exchange UInt64} :
      Ends .producer s.exchange y left → s.refusal = none → s.pushed < t.count →
      y.queue.closed .consumer = true → ¬ y.queue.CanMove .producer →
      Does t s left .producer
        { s with exchange := y, refusal := some (t.item s.pushed, .disconnected) } left
  | takes {y : Exchange UInt64} {items rest : List UInt64} (intakes : Nat) :
      left = items ++ rest → items ≠ [] → Ends .consumer s.exchange y rest → s.ending = none →
      t.stopAfter ≠ some s.received.count → (t.stopAfter ≠ none → items.length = 1) →
      Does t s left .consumer { s with exchange := y, received := s.received.addAll items, intakes }
        rest
  | fails {y : Exchange UInt64} (intakes : Nat) :
      left = [] → Ends .consumer s.exchange y left → s.ending = none →
      t.stopAfter ≠ some s.received.count → y.queue.closed .producer = true →
      Does t s left .consumer
        { s with exchange := y, ending := some (.failed .disconnected), intakes } left
  | misses {y : Exchange UInt64} (intakes : Nat) :
      .tryPop ∈ t.pattern → Ends .consumer s.exchange y left → s.ending = none →
      ¬ s.exchange.queue.CanMove .consumer → s.exchange.queue.closed .producer = false →
      y.strain = s.exchange.strain →
      Does t s left .consumer { s with exchange := y, intakes } left
  | stops :
      s.exchange.queue.closed .consumer = false → s.exchange.current .consumer = none →
      s.ending = none → t.stopAfter = some s.received.count →
      Does t s left .consumer { s with ending := some .stopped } left
  | leaves (role : Role) :
      s.exchange.queue.closed role = false → s.exchange.current role = none → t.Done s role →
      Does t s left role (s.close role) left

/-! Each call that stops does one of these things. -/

theorem push_does {call : Call UInt64 .producer} (calls : t.Calls s call)
    {advance : Advance UInt64} (came : Came left call advance)
    (beside : Beside .producer s.exchange advance.exchange) (spends : Spends s.exchange advance)
    (paces : Paces .producer s.exchange advance)
    (present : s.exchange.queue.closed .producer = false) :
    ∃ after, Does t s left .producer (s.absorb advance) after := by
  obtain ⟨fresh, more, rfl⟩ := id calls
  cases came with
  | pauses pause current sound =>
    exact ⟨left, .pauses s.intakes ⟨beside, sound, present, paces.quiet⟩ current calls
      (spends.pausing rfl) (paces.pausing _ current)⟩
  | givesUp idle sound gone stuck =>
    have ends := spends.ended fun none => nomatch none
    exact ⟨left, .refused ⟨⟨beside, sound, present, paces.quiet⟩, idle, ends⟩ fresh more gone stuck⟩
  | does idle sound does =>
    have ends := spends.ended fun none => nomatch none
    cases does with
    | push => exact ⟨_, .pushes ⟨⟨beside, sound, present, paces.quiet⟩, idle, ends⟩ fresh more⟩

theorem pop_does (parted : s.exchange.queue.Parted) {call : Call UInt64 .consumer}
    (calls : t.Calls s call) {advance : Advance UInt64} (came : Came left call advance)
    (beside : Beside .consumer s.exchange advance.exchange) (spends : Spends s.exchange advance)
    (paces : Paces .consumer s.exchange advance)
    (present : s.exchange.queue.closed .consumer = false) (intakes : Nat) :
    ∃ after, Does t s left .consumer ({ s with intakes }.absorb advance) after := by
  obtain ⟨going, wants, single⟩ := id calls
  cases came with
  | pauses pause current sound =>
    exact ⟨left, .pauses intakes ⟨beside, sound, present, paces.quiet⟩ current calls
      (spends.pausing rfl) (paces.pausing _ current)⟩
  | givesUp idle sound gone stuck =>
    have ends := spends.ended fun none => nomatch none
    have nothing := sound.carries.drained_of_stuck (parted.of_alike beside.alike present) gone stuck
    have fails := Does.fails intakes nothing ⟨⟨beside, sound, present, paces.quiet⟩, idle, ends⟩ going
      wants gone
    cases call with
    | pop => exact ⟨left, fails⟩
    | popBatch => exact ⟨left, fails⟩
  | does idle sound does =>
    have ends := spends.ended fun none => nomatch none
    cases does with
    | pop item =>
      exact ⟨_, @Does.takes _ _ _ _ [item] _ intakes rfl (List.cons_ne_nil _ _)
        ⟨⟨beside, sound, present, paces.quiet⟩, idle, ends⟩ going wants fun _ => rfl⟩
    | popBatch _ some =>
      exact ⟨_, .takes intakes rfl some ⟨⟨beside, sound, present, paces.quiet⟩, idle, ends⟩ going
        wants fun stops => absurd rfl (single stops)⟩

theorem State.tryPop_of_ok {item : UInt64} (brought : s.exchange.queue.tryPop.2 = .ok item) :
    s.tryPop = { s.withQueue s.exchange.queue.tryPop.1 with received := s.received.add item } := by
  have made : s.exchange.queue.tryPop = (s.exchange.queue.tryPop.1, .ok item) :=
    Prod.ext rfl brought
  unfold State.tryPop
  rw [made]

theorem State.tryPop_of_empty (failed : s.exchange.queue.tryPop.2 = .error .empty) :
    s.tryPop = s.withQueue s.exchange.queue.tryPop.1 := by
  have made : s.exchange.queue.tryPop = (s.exchange.queue.tryPop.1, .error .empty) :=
    Prod.ext rfl failed
  unfold State.tryPop
  rw [made]

theorem State.tryPop_of_disconnected (failed : s.exchange.queue.tryPop.2 = .error .disconnected) :
    s.tryPop =
      { s.withQueue s.exchange.queue.tryPop.1 with ending := some (.failed .disconnected) } := by
  have made : s.exchange.queue.tryPop = (s.exchange.queue.tryPop.1, .error .disconnected) :=
    Prod.ext rfl failed
  unfold State.tryPop
  rw [made]

/-- The patterns for which the outcome of a transfer is settled. There is a call in them, and if the
consumer stops after some number of items, no call that could bring more than one. -/
structure Regular (t : Transfer) : Prop where
  pattern : t.pattern ≠ []
  single : t.stopAfter ≠ none → .popBatch ∉ t.pattern

/-- A party has no turn if it is gone, or if it is parked without a signal. -/
theorem turn_eq_none_iff : t.turn role s = none ↔ s.exchange.queue.closed role = true ∨
    s.exchange.parked role = true ∧ s.exchange.queue.signalled role = false := by
  unfold turn Exchange.resumable
  dsimp only
  cases s.exchange.queue.closed role with
  | true => exact iff_of_true rfl (Or.inl rfl)
  | false =>
    cases s.exchange.parked role with
    | false => exact iff_of_false (fun none => nomatch none) (by simp)
    | true =>
      cases s.exchange.queue.signalled role with
      | true => exact iff_of_false (fun none => nomatch none) (by decide)
      | false => exact iff_of_true rfl (by decide)

namespace Underway

variable {room : Nat}

theorem producerMove_does (underway : Underway t room s left)
    (rests : s.exchange.atRest .producer = true) :
    ∃ after, Does t s left .producer (t.producerMove s) after := by
  obtain ⟨present, idle⟩ := Exchange.atRest_iff.mp rests
  unfold producerMove
  by_cases goesOn : (s.pushed < t.count && s.refusal.isNone) = true
  · rw [if_pos goesOn]
    obtain ⟨more, fresh⟩ := Bool.and_eq_true_iff.mp goesOn
    have calls : t.Calls s (.push (t.item s.pushed) (t.forced s.pushed)) :=
      ⟨Option.isNone_iff_eq_none.mp fresh, of_decide_eq_true more, rfl⟩
    exact push_does calls (underway.sound.start_came _ rests) (s.exchange.beside_start _)
      (underway.sound.start_spends _ rests) (underway.sound.start_paces _ rests) present
  · rw [if_neg goesOn]
    refine ⟨left, .leaves .producer present idle fun fresh => ?_⟩
    have most := underway.pushed_le
    rw [fresh] at goesOn
    simp only [Option.isNone_none, Bool.and_true, decide_eq_true_eq] at goesOn
    omega

theorem tryPop_does (underway : Underway t room s left) (rests : s.exchange.atRest .consumer = true)
    (attempts : .tryPop ∈ t.pattern) (going : s.ending = none)
    (wants : t.stopAfter ≠ some s.received.count) (intakes : Nat) :
    ∃ after, Does t s left .consumer ({ s with intakes } : State).tryPop after := by
  obtain ⟨present, idle⟩ := Exchange.atRest_iff.mp rests
  have carries := underway.sound.carries
  have beside : Beside .consumer s.exchange { s.exchange with queue := s.exchange.queue.tryPop.1 } :=
    ⟨s.exchange.queue.alike_tryPop, Exchange.current_withQueue _⟩
  have still : ({ s.exchange with queue := s.exchange.queue.tryPop.1 } :
      Exchange UInt64).current .consumer = none := (Exchange.current_withQueue _).trans idle
  have mild : ({ s.exchange with queue := s.exchange.queue.tryPop.1 } : Exchange UInt64).strain ≤
      s.exchange.strain + (s.exchange.queue.snoozeRounds + 2) * 5 := by
    have eased := Exchange.strain_idle beside.alike.rounds beside.other still
      (Queue.stir_tryPop carries)
    have more := Nat.mul_le_mul_left (s.exchange.queue.snoozeRounds + 2) (show 1 + 1 ≤ 5 by decide)
    omega
  have quiet (raised : s.exchange.queue.tryPop.1.signalled .consumer = true) :
      s.exchange.queue.signalled .consumer = true ∧ s.exchange.parked .consumer = false :=
    ⟨carries.signalled_tryPop.symm.trans raised, Exchange.parked_of_idle idle⟩
  have goes {rest : List UInt64}
      (sound : ({ s.exchange with queue := s.exchange.queue.tryPop.1 } : Exchange UInt64).Sound rest) :
      Ends .consumer s.exchange { s.exchange with queue := s.exchange.queue.tryPop.1 } rest :=
    ⟨⟨beside, sound, present, quiet⟩, still, mild⟩
  rcases underway.sound.tryPop_came underway.parted rests with
    ⟨item, rest, rfl, brought, sound⟩ | ⟨nothing, gone, failed, sound⟩ | ⟨stuck, there, missed, sound⟩
  · rw [State.tryPop_of_ok (s := { s with intakes }) brought]
    exact ⟨rest, @Does.takes _ _ _ _ [item] _ intakes rfl (List.cons_ne_nil _ _) (goes sound) going
      wants fun _ => rfl⟩
  · rw [State.tryPop_of_disconnected (s := { s with intakes }) failed]
    exact ⟨left, .fails intakes nothing (goes sound) going wants
      ((s.exchange.queue.alike_tryPop.closed .producer).trans gone)⟩
  · rw [State.tryPop_of_empty (s := { s with intakes }) (congrArg Prod.snd missed)]
    refine ⟨left, .misses intakes attempts (goes sound) going stuck there ?_⟩
    rw [Exchange.strain_eq _ .consumer, Exchange.strain_eq s.exchange .consumer, beside.patience,
      Exchange.patience_idle still, Exchange.patience_idle idle, beside.alike.rounds]
    dsimp only
    rw [missed, Queue.stir_look]

/-- What a consumer at rest does with its turn. -/
theorem consumerMove_does (underway : Underway t room s left) (regular : t.Regular)
    (rests : s.exchange.atRest .consumer = true) :
    ∃ after, Does t s left .consumer (t.consumerMove s) after := by
  obtain ⟨present, idle⟩ := Exchange.atRest_iff.mp rests
  unfold consumerMove
  by_cases ended : s.ending.isSome = true
  · rw [if_pos ended]
    exact ⟨left, .leaves .consumer present idle (Option.isSome_iff_ne_none.mp ended)⟩
  · rw [if_neg ended]
    have ending : s.ending = none := Option.not_isSome_iff_eq_none.mp ended
    by_cases enough : t.stopAfter = some s.received.count
    · rw [if_pos enough]
      exact ⟨left, .stops present idle ending enough⟩
    · rw [if_neg enough]
      have inside : s.intakes % t.pattern.length < t.pattern.length :=
        Nat.mod_lt _ (List.length_pos_iff.mpr regular.pattern)
      have start (call : Call UInt64 .consumer) (calls : t.Calls s call) :
          ∃ after, Does t s left .consumer
            (({ s with intakes := s.intakes + 1 } : State).absorb (s.exchange.start call)) after :=
        pop_does underway.parted calls (underway.sound.start_came call rests)
          (s.exchange.beside_start call) (underway.sound.start_spends call rests)
          (underway.sound.start_paces call rests) present _
      rw [List.getElem?_eq_getElem inside]
      have member := List.getElem_mem inside
      cases intake : t.pattern[s.intakes % t.pattern.length] with
      | pop => exact start .pop ⟨ending, enough, fun _ batch => nomatch batch⟩
      | popBatch =>
        refine start .popBatch ⟨ending, enough, fun stops => ?_⟩
        rw [intake] at member
        exact absurd member (regular.single stops)
      | tryPop =>
        rw [intake] at member
        exact underway.tryPop_does rests member ending enough _

/-- Whatever turn is taken, it does one of the things a party can do. -/
theorem turn_does (underway : Underway t room s left) (regular : t.Regular)
    (taken : t.turn role s = some next) :
    ∃ moved after, Does t s left role moved after ∧
      next = { moved with overfull := moved.overfull || moved.overflows } := by
  unfold turn at taken
  dsimp only at taken
  split at taken
  · cases taken
  · rename_i open'
    have present : s.exchange.queue.closed role = false := Bool.eq_false_iff.mpr open'
    split at taken
    · cases taken
    · rename_i awake
      cases Option.some.inj taken
      by_cases busy : s.exchange.busy role = true
      · obtain ⟨⟨call, pause⟩, paused⟩ := Exchange.busy_iff.mp busy
        have allowed : s.exchange.mayProceed role = true := by
          unfold Exchange.resumable at awake
          unfold Exchange.mayProceed
          rw [busy]
          cases parked : s.exchange.parked role with
          | false => rfl
          | true =>
            cases signalled : s.exchange.queue.signalled role with
            | true => rfl
            | false =>
              rw [parked, signalled] at awake
              exact absurd rfl awake
        have calls : t.Calls s call := underway.calls role ⟨call, pause⟩ paused
        have came := underway.sound.proceed_came paused
        have spends := underway.sound.proceed_spends allowed
        have paces := underway.sound.proceed_paces paused
        have beside := s.exchange.beside_proceed role
        rw [if_pos busy]
        cases role with
        | producer =>
          obtain ⟨after, does⟩ := push_does calls came beside spends paces present
          exact ⟨_, after, does, rfl⟩
        | consumer =>
          obtain ⟨after, does⟩ := pop_does underway.parted calls came beside spends paces present s.intakes
          exact ⟨_, after, does, rfl⟩
      · rw [if_neg busy]
        have rests : s.exchange.atRest role = true :=
          Exchange.atRest_iff.mpr ⟨present, Exchange.busy_eq_false_iff.mp (Bool.eq_false_iff.mpr busy)⟩
        cases role with
        | producer =>
          obtain ⟨after, does⟩ := underway.producerMove_does rests
          exact ⟨_, after, does, rfl⟩
        | consumer =>
          obtain ⟨after, does⟩ := underway.consumerMove_does regular rests
          exact ⟨_, after, does, rfl⟩

end Underway

end SpscQueue.Transfer
