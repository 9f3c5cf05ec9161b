import SpscQueue.Proofs.Ledger

namespace SpscQueue.Transfer

variable {t : Transfer} {s moved next : State} {left after : List UInt64} {role : Role} {room : Nat}

/-! Each thing that a party can do in a turn keeps a transfer in order. -/

namespace Goes

variable {x y : Exchange UInt64}

theorem closed (goes : Goes role x y after) (who : Role) : y.queue.closed who = x.queue.closed who :=
  goes.beside.alike.closed who

theorem attended (goes : Goes role x y after) : ∃ who, y.queue.closed who = false :=
  ⟨role, (goes.closed role).trans goes.present⟩

end Goes

namespace Ends

variable {y : Exchange UInt64}

/-- What still holds of the call of the other party holds of every call. -/
theorem calls (ends : Ends role s.exchange y after) (other : ∀ paused : Paused UInt64 role.peer,
      s.exchange.current role.peer = some paused → t.Calls moved paused.call)
    (who : Role) (paused : Paused UInt64 who) (current : y.current who = some paused) :
    t.Calls moved paused.call := by
  rcases role.eq_or_eq_peer who with rfl | rfl
  · cases ends.idle.symm.trans current
  · exact other paused (ends.beside.other.symm.trans current)

theorem done (ends : Ends role s.exchange y after)
    (other : s.exchange.queue.closed role.peer = true → t.Done moved role.peer) (who : Role)
    (gone : y.queue.closed who = true) : t.Done moved who := by
  have before := (ends.closed who).symm.trans gone
  rcases role.eq_or_eq_peer who with rfl | rfl
  · cases ends.present.symm.trans before
  · exact other before

end Ends

namespace Underway

variable {y : Exchange UInt64}

theorem goes_parted (underway : Underway t room s left) (goes : Goes role s.exchange y after) :
    y.queue.Parted :=
  underway.parted.of_alike goes.beside.alike goes.present

theorem goes_capacity (underway : Underway t room s left) (goes : Goes role s.exchange y after) :
    y.queue.capacity.toNat = room := by
  rw [goes.beside.alike.capacity, underway.capacity]

theorem pauses (underway : Underway t room s left) {paused : Paused UInt64 role} (intakes : Nat)
    (goes : Goes role s.exchange y left) (current : y.current role = some paused)
    (calls : t.Calls s paused.call) :
    Underway t room { s with exchange := y, intakes } left :=
  { underway with
    sound := goes.sound
    parted := underway.goes_parted goes
    capacity := underway.goes_capacity goes
    calls := by
      intro who other stands
      rcases role.eq_or_eq_peer who with rfl | rfl
      · cases current.symm.trans stands
        exact calls
      · exact underway.calls _ other (goes.beside.other.symm.trans stands)
    done := fun who gone => underway.done who ((goes.closed who).symm.trans gone)
    refused := fun told refusal => by
      obtain ⟨same, more, full, gone⟩ := underway.refused told refusal
      exact ⟨same, more, full, (goes.closed _).trans gone⟩
    failed := fun cause failed => by
      obtain ⟨same, wants, nothing, gone⟩ := underway.failed cause failed
      exact ⟨same, wants, nothing, (goes.closed _).trans gone⟩
    attended := goes.attended }

theorem pushes (underway : Underway t room s left)
    (ends : Ends .producer s.exchange y (left ++ [t.item s.pushed])) (fresh : s.refusal = none)
    (more : s.pushed < t.count) :
    Underway t room { s with exchange := y, pushed := s.pushed + 1 }
      (left ++ [t.item s.pushed]) :=
  { underway with
    sound := ends.sound
    parted := underway.goes_parted ends.toGoes
    capacity := underway.goes_capacity ends.toGoes
    stream := by rw [stream_succ, underway.stream, List.append_assoc]
    calls := ends.calls (underway.calls .consumer)
    done := ends.done (underway.done .consumer)
    pushed_le := more
    refused := fun told refusal => nomatch fresh.symm.trans refusal
    failed := fun cause failed => nomatch ends.present.symm.trans (underway.failed cause failed).2.2.2
    attended := ends.attended }

theorem refuses (underway : Underway t room s left) (ends : Ends .producer s.exchange y left)
    (more : s.pushed < t.count) (gone : y.queue.closed .consumer = true)
    (stuck : ¬ y.queue.CanMove .producer) :
    Underway t room
      { s with exchange := y, refusal := some (t.item s.pushed, .disconnected) } left :=
  { underway with
    sound := ends.sound
    parted := underway.goes_parted ends.toGoes
    capacity := underway.goes_capacity ends.toGoes
    calls := ends.calls (underway.calls .consumer)
    done := ends.done (underway.done .consumer)
    refused := by
      rintro _ ⟨⟩
      exact ⟨rfl, more, (ends.sound.carries.full_of_stuck stuck).trans
        (underway.goes_capacity ends.toGoes), gone⟩
    failed := fun cause failed => nomatch ends.present.symm.trans (underway.failed cause failed).2.2.2
    attended := ends.attended }

theorem takes {items rest : List UInt64} (underway : Underway t room s (items ++ rest))
    (intakes : Nat) (ends : Ends .consumer s.exchange y rest) (going : s.ending = none)
    (wants : t.stopAfter ≠ some s.received.count) (single : t.stopAfter ≠ none → items.length = 1) :
    Underway t room
      { s with exchange := y, received := s.received.addAll items, intakes } rest :=
  { underway with
    sound := ends.sound
    parted := underway.goes_parted ends.toGoes
    capacity := underway.goes_capacity ends.toGoes
    stream := by rw [Receipts.items_addAll, underway.stream, List.append_assoc]
    calls := ends.calls (underway.calls .producer)
    done := ends.done (underway.done .producer)
    refused := fun told refusal => nomatch ends.present.symm.trans (underway.refused told refusal).2.2.2
    received_le := by
      intro stop stops
      have most := underway.received_le stop stops
      have one := single (by rw [stops]; exact Option.some_ne_none stop)
      have short : s.received.count ≠ stop := fun same => wants (same ▸ stops)
      show (s.received.addAll items).count ≤ stop
      rw [Receipts.count_addAll]
      omega
    stopped := fun stopped => nomatch going.symm.trans stopped
    failed := fun cause failed => nomatch going.symm.trans failed
    attended := ends.attended }

theorem fails (underway : Underway t room s left) (intakes : Nat)
    (ends : Ends .consumer s.exchange y left) (wants : t.stopAfter ≠ some s.received.count)
    (nothing : left = []) (gone : y.queue.closed .producer = true) :
    Underway t room
      { s with exchange := y, ending := some (.failed .disconnected), intakes } left :=
  { underway with
    sound := ends.sound
    parted := underway.goes_parted ends.toGoes
    capacity := underway.goes_capacity ends.toGoes
    calls := ends.calls (underway.calls .producer)
    done := ends.done (underway.done .producer)
    refused := fun told refusal => nomatch ends.present.symm.trans (underway.refused told refusal).2.2.2
    stopped := fun stopped => nomatch stopped
    failed := by
      rintro _ ⟨⟩
      exact ⟨rfl, wants, nothing, gone⟩
    attended := ends.attended }

theorem misses (underway : Underway t room s left) (intakes : Nat)
    (ends : Ends .consumer s.exchange y left) (going : s.ending = none) :
    Underway t room { s with exchange := y, intakes } left :=
  { underway with
    sound := ends.sound
    parted := underway.goes_parted ends.toGoes
    capacity := underway.goes_capacity ends.toGoes
    calls := ends.calls (underway.calls .producer)
    done := ends.done (underway.done .producer)
    refused := fun told refusal => nomatch ends.present.symm.trans (underway.refused told refusal).2.2.2
    failed := fun _ failed => nomatch going.symm.trans failed
    attended := ends.attended }

theorem stops (underway : Underway t room s left) (present : s.exchange.queue.closed .consumer = false)
    (idle : s.exchange.current .consumer = none) (enough : t.stopAfter = some s.received.count) :
    Underway t room { s with ending := some .stopped } left :=
  { underway with
    calls := by
      intro who paused current
      cases who with
      | producer => exact underway.calls .producer paused current
      | consumer => cases idle.symm.trans current
    done := by
      intro who gone
      cases who with
      | producer => exact underway.done .producer gone
      | consumer => cases present.symm.trans gone
    stopped := fun _ => enough
    failed := fun _ failed => nomatch failed }

/-- A party that leaves first ends its handle, and the other one goes on. -/
theorem leaves (underway : Underway t room s left) (present : s.exchange.queue.closed role = false)
    (idle : s.exchange.current role = none) (done : t.Done s role)
    (attended : s.exchange.queue.closed role.peer = false) :
    Underway t room (s.withQueue (s.exchange.queue.close role).1) left := by
  have rests : s.exchange.atRest role = true := Exchange.atRest_iff.mpr ⟨present, idle⟩
  obtain ⟨kept, sound, balance, _⟩ := @Exchange.Sound.play _ _ _ underway.sound (.close role) rests
  have same : left = kept := (List.append_nil left).symm.trans balance
  subst same
  have both (who : Role) : s.exchange.queue.closed who = false := by
    rcases role.eq_or_eq_peer who with rfl | rfl <;> assumption
  have other := (s.exchange.queue.close_closed_peer role).trans attended
  exact
    { underway with
      sound := sound
      parted := Queue.close_parted underway.parted role
      capacity := by
        show (s.exchange.queue.close role).1.capacity.toNat = room
        rw [s.exchange.queue.close_capacity role, underway.capacity]
      calls := fun who paused current =>
        underway.calls who paused ((Exchange.current_withQueue _).symm.trans current)
      done := by
        intro who gone
        rcases role.eq_or_eq_peer who with rfl | rfl
        · exact done
        · cases other.symm.trans gone
      refused := fun told refusal => nomatch (both _).symm.trans (underway.refused told refusal).2.2.2
      failed := fun cause failed => nomatch (both _).symm.trans (underway.failed cause failed).2.2.2
      attended := ⟨role.peer, other⟩ }

end Underway

end SpscQueue.Transfer
