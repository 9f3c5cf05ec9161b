import SpscQueue.Proofs.Sound
import SpscQueue.Proofs.Pausing

namespace SpscQueue

universe u

variable {α : Type u} {q : Queue α} {x : Exchange α} {items : List α} {role : Role}

namespace Side

/-- What may still stir up the two parties: steps that one side did not show yet, and its signal. -/
def unease (s : Side) : Nat :=
  3 * (decide (s.cursor.published ≠ s.cursor.position)).toNat + s.signal.pending.toNat

theorem unease_quiet {s : Side} (raised : s.signal.pending = true) :
    ({ s with signal := .quiet } : Side).unease + 1 = s.unease := by
  unfold unease
  rw [raised]
  rfl

theorem unease_raise (s : Side) (owed : Bool) :
    ({ s with signal := if owed then s.signal.raise else s.signal } : Side).unease ≤
      s.unease + 1 := by
  unfold unease
  cases owed with
  | false => exact Nat.le_succ _
  | true =>
    show 3 * (decide (s.cursor.published ≠ s.cursor.position)).toNat + 1 ≤ _
    omega

theorem unease_of_published {s : Side} (published : s.cursor.published = s.cursor.position) :
    s.unease = s.signal.pending.toNat := by
  unfold unease
  rw [published]
  simp

theorem unease_shown (position seen : Index) (post : Signpost) (signal : Signal) (closed : Bool) :
    (⟨⟨position, position, seen⟩, post, signal, closed⟩ : Side).unease = signal.pending.toNat :=
  unease_of_published rfl

theorem unease_of_deferred {s : Side} (deferred : s.cursor.published ≠ s.cursor.position) :
    s.unease = 3 + s.signal.pending.toNat := by
  unfold unease
  rw [decide_eq_true deferred]
  rfl

end Side

namespace Queue

def stir (q : Queue α) : Nat := q.producer.unease + q.consumer.unease

theorem stir_refresh (q : Queue α) (role : Role) : (q.refresh role).stir = q.stir := by
  cases role <;> rfl

theorem stir_look (q : Queue α) (role : Role) : (q.look role).stir = q.stir := by
  rcases q.look_eq_or role with ⟨same, _⟩ | fresh
  · rw [same]
  · rw [fresh, stir_refresh]

theorem stir_watch (q : Queue α) (threshold : Index) (role : Role) :
    (q.watch threshold role).stir = q.stir := by
  cases role <;> rfl

theorem stir_hush (raised : q.signalled role = true) : (q.hush role).stir + 1 = q.stir := by
  cases role with
  | producer =>
    have less := Side.unease_quiet (s := q.producer) raised
    unfold stir hush
    dsimp only
    omega
  | consumer =>
    have less := Side.unease_quiet (s := q.consumer) raised
    unfold stir hush
    dsimp only
    omega

theorem stir_beginRound (q : Queue α) (role : Role) : (q.beginRound role).queue.stir = q.stir := by
  unfold beginRound
  split
  · cases role with
    | producer => rfl
    | consumer =>
      unfold lastLook
      dsimp only
      split <;> exact q.stir_refresh .consumer
  · rfl

namespace Carries

/-- A signal that is raised by showing items costs the items shown. -/
theorem stir_flush (carries : q.Carries items) : q.flush.stir ≤ q.stir := by
  by_cases published : q.producer.cursor.published = q.producer.cursor.position
  · have same : q.flush = q := by
      show q.publish .producer = q
      simp only [Queue.publish, Side.publish_of_published published]
    exact Nat.le_of_eq (congrArg stir same)
  · have before := Side.unease_of_deferred published
    have raised := q.consumer.unease_raise q.producer.owesWakeup
    rw [flush_eq carries.producer_posted]
    unfold stir
    dsimp only
    rw [Side.unease_shown]
    omega

theorem stir_written (q : Queue α) (item : α) : (q.written item).stir ≤ q.stir + 3 := by
  show { q.producer with cursor := q.producer.cursor.advance 1 }.unease + q.consumer.unease ≤ _
  unfold stir Side.unease
  have most := Bool.toNat_le (decide ((q.producer.cursor.advance 1).published ≠
    (q.producer.cursor.advance 1).position))
  dsimp only
  omega

theorem stir_put (carries : q.Carries items) (space : q.ready .producer = true) (item : α)
    (force : Bool) : (q.put item force).stir ≤ q.stir + 3 := by
  have written := stir_written q item
  unfold Queue.put
  split
  · exact Nat.le_trans (carries.written space item).stir_flush written
  · exact written

theorem stir_taken (carries : q.Carries items) (ring : Ring α) (steps : UInt64) :
    (q.taken ring steps).stir ≤ q.stir + 1 := by
  have before := Side.unease_of_published carries.consumer_published
  rw [taken_eq carries.consumer_posted_published]
  unfold stir
  dsimp only
  rw [Side.unease_shown, before]
  have raised := q.producer.unease_raise (Index.passes q.consumer.cursor.published
    (q.consumer.cursor.position + steps) q.consumer.post.threshold)
  omega

theorem stir_enrol (carries : q.Carries items) (role : Role) :
    (q.enrol role).queue.stir ≤ q.stir := by
  have asked := carries.watch (q.threshold role) role
  have same := q.stir_watch (q.threshold role) role
  unfold enrol
  cases role with
  | producer =>
    have shown := asked.stir_flush
    dsimp only
    split
    · rw [stir_refresh]
      omega
    · rw [stir_refresh]
      omega
  | consumer =>
    dsimp only
    split
    · rw [stir_refresh]
      omega
    · rw [stir_refresh]
      omega

theorem stir_resume_sleep (carries : q.Carries items) (role : Role) :
    (q.resume role .sleep).queue.stir ≤ q.stir := by
  unfold resume
  dsimp only
  split
  · exact Nat.le_of_eq (q.stir_look role)
  · exact Nat.le_trans ((carries.look role).stir_enrol role) (Nat.le_of_eq (q.stir_look role))

/-- A call that can move on stirs its peer up by no more than its own end is worth. -/
theorem stir_finish (carries : q.Carries items) (call : Call α role) (ready : q.ready role = true) :
    (call.finish q).1.stir ≤ q.stir + 4 := by
  cases call with
  | push item force =>
    have most := carries.stir_put ready item force
    have done : (Call.push item force).finish q = (q.put item force, .push (.accepted item)) := by
      simp only [Call.finish, carries.accept_eq ready, Prod.map_apply, id_eq]
    rw [done]
    dsimp only
    omega
  | pop =>
    obtain ⟨item, rest, ring, _, delivered, _⟩ := carries.deliver ready
    have most := carries.stir_taken ring 1
    simp only [Call.finish, delivered, Prod.map_apply, id_eq]
    omega
  | popBatch =>
    obtain ⟨front, rest, ring, _, _, delivered, _⟩ := carries.deliverKnown
    have most := carries.stir_taken ring q.known
    simp only [Call.finish, delivered, Prod.map_apply, id_eq]
    omega

end Carries

/-- Waking up uses up the signal. -/
theorem stir_resume_park (raised : q.signalled role = true) :
    (q.resume role .park).queue.stir + 1 = q.stir := by
  have woken := stir_hush raised
  unfold resume
  dsimp only
  split
  · rw [stir_look]
    exact woken
  · rw [stir_beginRound, stir_look]
    exact woken

end Queue

namespace Exchange

/-- A bound on what is still to come from a party and from what stirs both up. -/
def effort (x : Exchange α) (role : Role) : Nat := 6 * (x.parked role).toNat + x.queue.stir

theorem arrive_effort (call : Call α role) {stretch : Stretch α}
    (keeps : stretch.Keeps role x.queue items) :
    (x.arrive call stretch).exchange.effort role ≤ stretch.queue.stir + 6 := by
  unfold effort
  cases ended : (x.arrive call stretch).outcome with
  | some outcome =>
    have idle : (x.arrive call stretch).exchange.parked role = false :=
      parked_of_idle (arrive_ended ended)
    rw [idle]
    unfold arrive at ended ⊢
    split
    · rename_i ready
      have most := keeps.carries.stir_finish call (keeps.ready ready)
      rw [withCurrent_queue]
      show 0 + (call.finish stretch.queue).1.stir ≤ _
      omega
    · rw [withCurrent_queue]
      show 0 + stretch.queue.stir ≤ _
      omega
    · rename_i pause waits
      rw [waits] at ended
      cases ended
  | none =>
    obtain ⟨pause, _, same, _⟩ := arrive_unfinished ended
    have most := Bool.toNat_le ((x.arrive call stretch).exchange.parked role)
    rw [same]
    omega

end Exchange

end SpscQueue
