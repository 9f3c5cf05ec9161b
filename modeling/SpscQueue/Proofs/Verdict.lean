import SpscQueue.Proofs.Upkeep

namespace SpscQueue.Transfer

variable {t : Transfer} {s moved next : State} {left after : List UInt64} {role : Role} {room : Nat}

/-- What a transfer comes to. -/
structure Verdict where
  received : List UInt64
  ending : Option Ending
  pushed : Nat
  refusal : Option (UInt64 × PushFailure)
  dropped : List UInt64
  overfull : Bool
deriving DecidableEq, Repr

def State.verdict (s : State) : Verdict :=
  ⟨s.received.items, s.ending, s.pushed, s.refusal, s.dropped, s.overfull⟩

/-- What a transfer has to come to. A consumer that does not stop by itself receives everything. If it
stops, the producer still fills the queue, and the next push is the one that is refused. -/
def verdict (t : Transfer) (room : Nat) : Verdict :=
  match t.stopAfter with
  | none => ⟨t.stream t.count, some (.failed .disconnected), t.count, none, [], false⟩
  | some stop =>
    { received := t.stream (min stop t.count)
      ending := some (if stop ≤ t.count then .stopped else .failed .disconnected)
      pushed := min t.count (stop + room)
      refusal :=
        if stop + room < t.count then some (t.item (stop + room), .disconnected) else none
      dropped := (t.stream (min t.count (stop + room))).drop stop
      overfull := false }

namespace Underway

theorem pushed_eq (underway : Underway t room s left) :
    s.pushed = s.received.count + left.length := by
  have lengths := congrArg List.length underway.stream
  rwa [length_stream, List.length_append, ← Receipts.count_eq_length] at lengths

theorem received_eq (underway : Underway t room s left) :
    s.received.items = t.stream s.received.count := by
  have count := underway.pushed_eq
  have front := congrArg (List.take s.received.count) underway.stream
  rwa [take_stream, Nat.min_eq_left (by omega), Receipts.count_eq_length, List.take_left', eq_comm,
    ← Receipts.count_eq_length] at front
  rfl

theorem left_eq (underway : Underway t room s left) :
    left = (t.stream s.pushed).drop s.received.count := by
  rw [underway.stream, Receipts.count_eq_length, List.drop_left]

/-- How far the producer gets: to its end, or to the item that no longer fits into a queue that nobody
empties. -/
theorem pushed_cases (underway : Underway t room s left) (done : t.Done s .producer) :
    s.refusal = none ∧ s.pushed = t.count ∨
      s.refusal = some (t.item s.pushed, .disconnected) ∧ s.pushed < t.count ∧ left.length = room := by
  cases refusal : s.refusal with
  | none => exact Or.inl ⟨rfl, done refusal⟩
  | some told =>
    obtain ⟨rfl, more, full, _⟩ := underway.refused told refusal
    exact Or.inr ⟨rfl, more, full⟩

theorem verdict_stopped (underway : Underway t room s left) (done : t.Done s .producer)
    (stopped : s.ending = some .stopped) : { s.verdict with dropped := left } = t.verdict room := by
  have pushed := underway.pushed_eq
  have within := underway.pushed_le
  have most := underway.sound.carries.length_le
  rw [underway.capacity] at most
  have early : s.received.count ≤ t.count := by omega
  unfold verdict State.verdict
  rw [underway.stopped stopped]
  dsimp only
  rw [Nat.min_eq_left early, if_pos early, stopped, underway.overfull, ← underway.received_eq]
  rcases underway.pushed_cases done with ⟨refusal, all⟩ | ⟨refusal, more, full⟩
  · have fits : t.count ≤ s.received.count + room := by omega
    rw [Nat.min_eq_left fits, if_neg (Nat.not_lt.mpr fits), refusal, ← all, ← underway.left_eq]
  · have reached : s.received.count + room = s.pushed := by omega
    rw [reached, Nat.min_eq_right (Nat.le_of_lt more), if_pos more, refusal, ← underway.left_eq]

theorem verdict_failed (underway : Underway t room s left) (done : t.Done s .producer)
    {cause : PopFailure} (failed : s.ending = some (.failed cause)) :
    { s.verdict with dropped := left } = t.verdict room := by
  obtain ⟨rfl, wants, rfl, _⟩ := underway.failed cause failed
  have pushed := underway.pushed_eq
  have positive := underway.sound.carries.capacity_pos
  rw [underway.capacity] at positive
  rw [List.length_nil, Nat.add_zero] at pushed
  rcases underway.pushed_cases done with ⟨refusal, all⟩ | ⟨_, _, full⟩
  · have received : s.received.items = t.stream t.count := by
      rw [underway.received_eq, ← pushed, all]
    unfold verdict State.verdict
    cases stops : t.stopAfter with
    | none =>
      dsimp only
      rw [received, failed, all, refusal, underway.overfull]
    | some stop =>
      have within := underway.received_le stop stops
      have short : s.received.count ≠ stop := fun same => wants (same ▸ stops)
      dsimp only
      rw [Nat.min_eq_right (show t.count ≤ stop by omega), if_neg (show ¬ stop ≤ t.count by omega),
        Nat.min_eq_left (show t.count ≤ stop + room by omega),
        if_neg (show ¬ stop + room < t.count by omega), received, failed, all, refusal,
        underway.overfull, List.drop_eq_nil_of_le (by rw [length_stream]; omega)]
  · rw [List.length_nil] at full
    omega

/-- Once both parties have nothing left to do, the transfer has come to what it has to come to, and
the items that are still in the queue are those to be given up. -/
theorem verdict_eq (underway : Underway t room s left) (done : ∀ role, t.Done s role) :
    { s.verdict with dropped := left } = t.verdict room := by
  cases ending : s.ending with
  | none => exact absurd ending (done .consumer)
  | some reason =>
    cases reason with
    | stopped => exact underway.verdict_stopped (done .producer) ending
    | failed cause => exact underway.verdict_failed (done .producer) ending

end Underway

/-- Both parties are gone, and the transfer has come to what it has to come to. -/
structure Settled (t : Transfer) (room : Nat) (s : State) : Prop where
  gone (role : Role) : s.exchange.queue.closed role = true
  verdict : s.verdict = t.verdict room

theorem overflows_of_carries (carries : s.exchange.queue.Carries left) : s.overflows = false := by
  have inFlight := carries.inFlight_eq
  have waiting := carries.waiting_eq
  have most := carries.length_le
  have shown := carries.shown_le
  have produced : ¬ s.exchange.queue.capacity < s.exchange.queue.length .producer := by
    rw [UInt64.lt_iff_toNat_lt]
    show ¬ _ < s.exchange.queue.inFlight.toNat
    omega
  have consumed : ¬ s.exchange.queue.capacity < s.exchange.queue.length .consumer := by
    rw [UInt64.lt_iff_toNat_lt]
    show ¬ _ < s.exchange.queue.waiting.toNat
    omega
  show (decide _ || decide _) = false
  rw [decide_eq_false produced, decide_eq_false consumed]
  rfl

theorem close_eq (s : State) (role : Role) :
    s.close role =
      if s.exchange.queue.closed role.peer then
        { s.withQueue (s.exchange.queue.close role).1.release.2 with
          dropped := (s.exchange.queue.close role).1.release.1 }
      else s.withQueue (s.exchange.queue.close role).1 := by
  rw [← s.exchange.queue.close_closed_peer role]
  rfl

/-- The party that leaves last gives up the storage, and then everything is settled. -/
theorem Underway.leaves_last (underway : Underway t room s left)
    (done : t.Done s role) (alone : s.exchange.queue.closed role.peer = true) :
    Settled t room (s.close role) ∧ (s.close role).overflows = false := by
  have carries := underway.sound.carries.close role
  have both (who : Role) : (s.exchange.queue.close role).1.closed who = true := by
    rcases role.eq_or_eq_peer who with rfl | rfl
    · cases who <;> rfl
    · rw [s.exchange.queue.close_closed_peer, alone]
  have published := Queue.close_parted underway.parted role (both .producer)
  obtain ⟨given, _⟩ := carries.release_eq published
  have all (who : Role) : t.Done s who := by
    rcases role.eq_or_eq_peer who with rfl | rfl
    · exact done
    · exact underway.done _ alone
  rw [close_eq, if_pos alone, given]
  refine ⟨⟨both, underway.verdict_eq all⟩, ?_⟩
  exact overflows_of_carries (s := s.withQueue (s.exchange.queue.close role).1) carries

/-- Each thing that a party can do keeps a transfer in order, or settles it. -/
theorem Underway.keeps (underway : Underway t room s left) (does : Does t s left role moved after) :
    (Underway t room moved after ∨ Settled t room moved) ∧ moved.overflows = false := by
  have calm {now : State} {rest : List UInt64} (still : Underway t room now rest) :
      (Underway t room now rest ∨ Settled t room now) ∧ now.overflows = false :=
    ⟨Or.inl still, overflows_of_carries still.sound.carries⟩
  cases does with
  | pauses intakes goes current calls _ _ => exact calm (underway.pauses intakes goes current calls)
  | pushes ends fresh more => exact calm (underway.pushes ends fresh more)
  | refused ends _ more gone stuck => exact calm (underway.refuses ends more gone stuck)
  | takes intakes same _ ends going wants single =>
    subst same
    exact calm (underway.takes intakes ends going wants single)
  | fails intakes nothing ends _ wants gone => exact calm (underway.fails intakes ends wants nothing gone)
  | misses intakes _ ends going _ _ _ => exact calm (underway.misses intakes ends going)
  | stops present idle _ enough => exact calm (underway.stops present idle enough)
  | leaves role present idle done =>
    by_cases alone : s.exchange.queue.closed role.peer = true
    · obtain ⟨settled, fits⟩ := underway.leaves_last done alone
      exact ⟨Or.inr settled, fits⟩
    · have closes := (close_eq s role).trans (if_neg alone)
      rw [closes]
      exact calm (underway.leaves present idle done (Bool.eq_false_iff.mpr alone))

end SpscQueue.Transfer
