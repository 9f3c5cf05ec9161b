import SpscQueue.Proofs.TearDown

namespace SpscQueue.Session

universe u

variable {α : Type u}

/-- Nobody waits for a wakeup that cannot come: at most one party is asleep, and the other one is
there to wake it. -/
structure Wakeful (x : Exchange α) : Prop where
  one : ¬ ∀ role, x.parked role = true ∧ x.queue.signalled role = false
  peer (role : Role) : x.parked role = true → x.queue.signalled role = false →
    x.queue.closed role.peer = false

theorem wakeful_of_sound {x : Exchange α} {items : List α} (sound : x.Sound items) : Wakeful x :=
  ⟨sound.not_both_asleep, fun _ parked quiet => sound.peer_present parked quiet⟩

theorem wakeful_of_idle {x : Exchange α} (idle : ∀ role, x.current role = none) : Wakeful x := by
  refine ⟨fun asleep => ?_, fun role parked => ?_⟩
  · have parked := (asleep .producer).1
    rw [Exchange.parked_of_idle (idle .producer)] at parked
    cases parked
  · rw [Exchange.parked_of_idle (idle role)] at parked
    cases parked

/-- How the parked calls of a session end. After any number of steps every call that has parked either
ended since or is the one call of its party that is still parked. The tear-down gets through, and
then all of them have ended. -/
structure Resolves (steps : List (Step α)) (made : Session α × List (Answer α)) : Prop where
  wakeful : Wakeful made.1.exchange
  pending (role : Role) : parkings role (told steps made.2) =
    endings role (made.2.flatMap (·.resumptions)) + (made.1.exchange.parked role).toNat
  closing : ∀ answer ∈ made.1.tearDown.2, answer.report.result = .done
  gone (role : Role) : made.1.tearDown.1.queue.closed role = true
  idle (role : Role) : made.1.tearDown.1.exchange.busy role = false
  monitors : made.1.tearDown.1.monitors = []
  resolved (role : Role) : parkings role (told steps made.2) =
    endings role ((made.2 ++ made.1.tearDown.2).flatMap (·.resumptions))

/-- In no state that the two parties can reach do they wait for each other, and so every parked call
ends at the latest in the tear-down. -/
theorem every_wait_resolves {settings : Settings} {fresh : Session α}
    (opened : Session.ofSettings settings = .ok fresh) :
    (∀ moves results x, fresh.exchange.Runs moves results x → Wakeful x) ∧
      ∀ steps, Resolves steps (fresh.steps steps) := by
  obtain ⟨_, sound, _, chronicle⟩ := begins_of_opened opened
  refine ⟨fun moves results x run => ?_, fun steps => ?_⟩
  · obtain ⟨left, soundNow, _⟩ := sound.run run
    exact wakeful_of_sound soundNow
  · have story := chronicle.steps sound steps
    obtain ⟨done, closed, monitors, closings, closes, ending⟩ := story.tearDown sound
    have unowned : (fresh.steps steps).1.tearDown.1.owned = false :=
      owned_eq_false_iff.mpr ⟨closed, monitors⟩
    have idle := ending.idle_of_unowned sound unowned
    have still (role : Role) : parkings role closings = 0 := by
      refine List.countP_eq_zero.mpr fun deed member => ?_
      have done := (closes deed member).1
      unfold Deed.parks
      rw [done]
      exact Bool.false_ne_true
    constructor
    · cases owned : (fresh.steps steps).1.owned with
      | true =>
        obtain ⟨left, soundNow⟩ := story.sound_of_owned sound owned
        exact wakeful_of_sound soundNow
      | false => exact wakeful_of_idle (story.idle_of_unowned sound owned)
    · exact story.parkings
    · exact done
    · exact closed
    · intro role
      exact Exchange.busy_eq_false_iff.mpr (idle role)
    · exact monitors
    · intro role
      have total := ending.parkings role
      rw [parkings_append, still, Exchange.parked_of_idle (idle role)] at total
      rw [List.flatMap_append]
      exact total

/-- A producer that fills the queue with deferred items and parks does not leave an empty-handed
consumer asleep. -/
theorem every_wait_resolves_full_queue :
    ∃ fresh : Session Nat,
      Session.ofSettings ⟨1, by decide, 0, 0, 18446744073709551615, .whenShort, 8⟩ = .ok fresh ∧
        (fresh.steps [.push 7 false .nothing, .push 8 false .nothing]).1.exchange.parked .producer =
          true ∧
        Resolves [.push 7 false .nothing, .push 8 false .nothing]
          (fresh.steps [.push 7 false .nothing, .push 8 false .nothing]) := by
  refine ⟨_, rfl, rfl, ?_⟩
  have opened : Session.ofSettings (α := Nat)
      ⟨1, by decide, 0, 0, 18446744073709551615, .whenShort, 8⟩ = .ok _ := rfl
  exact (every_wait_resolves opened).2 _

end SpscQueue.Session
