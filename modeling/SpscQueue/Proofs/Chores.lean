import SpscQueue.Proofs.Verdict

namespace SpscQueue.Transfer

variable {t : Transfer} {s moved : State} {left after : List UInt64} {role : Role} {room : Nat}

/-- What the producer still has to do before it leaves. -/
def pushesAhead (t : Transfer) (s : State) : Nat := t.count - s.pushed + s.refusal.isNone.toNat

/-- What the consumer still has to do before it leaves. -/
def takesAhead (t : Transfer) (s : State) : Nat :=
  t.count - s.received.count + s.ending.isNone.toNat

/-- The handles that are still there. -/
def State.handles (s : State) : Nat :=
  (!s.exchange.queue.closed .producer).toNat + (!s.exchange.queue.closed .consumer).toNat

/-- Things that the two parties still have to do. -/
def chores (t : Transfer) (s : State) : Nat := t.pushesAhead s + t.takesAhead s + s.handles

theorem Goes.handles {y : Exchange UInt64} (goes : Goes role s.exchange y after)
    (same : moved.exchange = y) : moved.handles = s.handles := by
  subst same
  unfold State.handles
  rw [goes.closed .producer, goes.closed .consumer]

theorem handles_close (present : s.exchange.queue.closed role = false) :
    (s.withQueue (s.exchange.queue.close role).1).handles < s.handles := by
  have other := s.exchange.queue.close_closed_peer role
  unfold State.handles State.withQueue
  dsimp only
  cases role with
  | producer =>
    have own : (s.exchange.queue.close .producer).1.closed .producer = true := rfl
    have peer : (s.exchange.queue.close .producer).1.closed .consumer =
        s.exchange.queue.closed .consumer := other
    rw [own, peer, present, Bool.not_true, Bool.not_false, Bool.toNat_true, Bool.toNat_false]
    omega
  | consumer =>
    have own : (s.exchange.queue.close .consumer).1.closed .consumer = true := rfl
    have peer : (s.exchange.queue.close .consumer).1.closed .producer =
        s.exchange.queue.closed .producer := other
    rw [own, peer, present, Bool.not_true, Bool.not_false, Bool.toNat_true, Bool.toNat_false]
    omega

theorem Underway.handles_pos (underway : Underway t room s left) : 0 < s.handles := by
  obtain ⟨role, present⟩ := underway.attended
  unfold State.handles
  cases role <;> rw [present, Bool.not_false, Bool.toNat_true] <;> omega

theorem pushesAhead_pushed (more : s.pushed < t.count) (pushed : moved.pushed = s.pushed + 1)
    (same : moved.refusal = s.refusal) : t.pushesAhead moved < t.pushesAhead s := by
  unfold pushesAhead
  rw [pushed, same]
  omega

theorem pushesAhead_refused (fresh : s.refusal = none) (same : moved.pushed = s.pushed)
    (refused : moved.refusal ≠ none) : t.pushesAhead moved < t.pushesAhead s := by
  obtain ⟨refusal, refused⟩ := Option.ne_none_iff_exists'.mp refused
  unfold pushesAhead
  rw [same, fresh, refused, Option.isNone_none, Option.isNone_some, Bool.toNat_true, Bool.toNat_false]
  omega

theorem Underway.takesAhead_taken {items rest : List UInt64}
    (underway : Underway t room s (items ++ rest)) (some : items ≠ [])
    (received : moved.received = s.received.addAll items) (same : moved.ending = s.ending) :
    t.takesAhead moved < t.takesAhead s := by
  have lengths := underway.pushed_eq
  have within := underway.pushed_le
  have positive := List.length_pos_iff.mpr some
  unfold takesAhead
  rw [List.length_append] at lengths
  rw [received, same, Receipts.count_addAll]
  omega

theorem takesAhead_ended (going : s.ending = none) (same : moved.received = s.received)
    (ended : moved.ending ≠ none) : t.takesAhead moved < t.takesAhead s := by
  obtain ⟨reason, ended⟩ := Option.ne_none_iff_exists'.mp ended
  unfold takesAhead
  rw [same, going, ended, Option.isNone_none, Option.isNone_some, Bool.toNat_true, Bool.toNat_false]
  omega

theorem chores_lt_of_pushes (handles : moved.handles = s.handles)
    (takes : t.takesAhead moved = t.takesAhead s) (less : t.pushesAhead moved < t.pushesAhead s) :
    t.chores moved < t.chores s := by
  unfold chores
  omega

theorem chores_lt_of_takes (handles : moved.handles = s.handles)
    (pushes : t.pushesAhead moved = t.pushesAhead s) (less : t.takesAhead moved < t.takesAhead s) :
    t.chores moved < t.chores s := by
  unfold chores
  omega

theorem chores_close (present : s.exchange.queue.closed role = false) :
    t.chores (s.withQueue (s.exchange.queue.close role).1) < t.chores s :=
  Nat.add_lt_add_left (handles_close present) _

theorem Goes.chores {y : Exchange UInt64} (goes : Goes role s.exchange y after) (intakes : Nat) :
    t.chores { s with exchange := y, intakes } = t.chores s :=
  congrArg (_ + ·) (goes.handles rfl)

/-- A party that leaves while the other one stays does not settle anything yet. -/
theorem Underway.leaves_first (underway : Underway t room s left) (done : t.Done s role)
    (kept : Underway t room (s.close role) after) :
    s.close role = s.withQueue (s.exchange.queue.close role).1 := by
  have alone : ¬ s.exchange.queue.closed role.peer = true := by
    intro alone
    obtain ⟨who, attended⟩ := kept.attended
    cases attended.symm.trans ((underway.leaves_last done alone).1.gone who)
  rw [close_eq, if_neg alone]

end SpscQueue.Transfer
