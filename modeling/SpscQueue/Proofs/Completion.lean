import SpscQueue.Proofs.Chores
import SpscQueue.Proofs.Chronicle

namespace SpscQueue

open Exchange (Beside)

/-- A parked producer without a signal leaves the consumer something to take. -/
theorem Exchange.Sound.asleep_leaves {x : Exchange UInt64} {items : List UInt64}
    (sound : x.Sound items) (parked : x.parked .producer = true)
    (quiet : x.queue.signalled .producer = false) : x.queue.CanMove .consumer := by
  rcases sound.watches .producer parked with raised | ⟨published, between, ask⟩
  · rw [quiet] at raised
    cases raised
  · have quota := sound.carries.quota_le
    show 0 < x.queue.consumer.cursor.position.span x.queue.producer.cursor.published
    rw [published]
    omega

namespace Transfer

variable {t : Transfer} {s moved next last : State} {left after : List UInt64} {role : Role}
  {room : Nat} {schedule more : List Role}

/-- The turns of a schedule, one after the other. All of them have to be possible. -/
def follow (t : Transfer) : List Role → State → Option State
  | [], s => some s
  | role :: schedule, s => (t.turn role s).bind (t.follow schedule)

/-- Nobody has a turn left. -/
def Over (t : Transfer) (s : State) : Prop := ∀ role, t.turn role s = none

theorem follow_cons (taken : t.turn role s = some next) :
    t.follow (role :: schedule) s = t.follow schedule next := by
  rw [follow, taken]
  rfl

theorem Settled.isOver (settled : Settled t room s) : t.Over s := fun role =>
  turn_eq_none_iff.mpr (Or.inl (settled.gone role))

theorem Settled.follow (settled : Settled t room s) (reached : t.follow schedule s = some next) :
    schedule = [] ∧ next = s := by
  cases schedule with
  | nil => exact ⟨rfl, (Option.some.inj reached).symm⟩
  | cons role schedule =>
    rw [Transfer.follow, settled.isOver role] at reached
    cases reached

/-- A bound on the turns still to come. -/
def toil (t : Transfer) (s : State) : Nat :=
  (s.exchange.queue.snoozeRounds + 2) * (6 * t.chores s) + s.exchange.strain

namespace Underway

/-- In good order somebody always has a turn. -/
theorem not_over (underway : Underway t room s left) : ¬ t.Over s := by
  intro ended
  obtain ⟨role, present⟩ := underway.attended
  have sound := underway.sound
  have asleep {who : Role} (present : s.exchange.queue.closed who = false) :
      s.exchange.parked who = true ∧ s.exchange.queue.signalled who = false := by
    rcases turn_eq_none_iff.mp (ended who) with gone | asleep
    · cases present.symm.trans gone
    · exact asleep
  obtain ⟨parked, quiet⟩ := asleep present
  have other := asleep (sound.peer_present parked quiet)
  refine sound.not_both_asleep fun who => ?_
  rcases role.eq_or_eq_peer who with rfl | rfl
  · exact ⟨parked, quiet⟩
  · exact other

/-- If the producer has no turn, the consumer has something to take or finds it gone. -/
theorem fed (underway : Underway t room s left) (waits : t.turn .producer s = none) :
    s.exchange.queue.CanMove .consumer ∨ s.exchange.queue.closed .producer = true := by
  rcases turn_eq_none_iff.mp waits with gone | ⟨parked, quiet⟩
  · exact Or.inr gone
  · exact Or.inl (underway.sound.asleep_leaves parked quiet)

theorem turn (underway : Underway t room s left) (regular : t.Regular)
    (taken : t.turn role s = some next) :
    ∃ after, Does t s left role next after ∧ (Underway t room next after ∨ Settled t room next) := by
  obtain ⟨moved, after, does, same⟩ := underway.turn_does regular taken
  obtain ⟨kept, fits⟩ := underway.keeps does
  rw [fits, Bool.or_false] at same
  subst same
  exact ⟨after, does, kept⟩

/-- Whatever the schedule, a transfer stays in order until it is settled. -/
theorem follow (underway : Underway t room s left) (regular : t.Regular)
    (reached : t.follow schedule s = some next) :
    (∃ after, Underway t room next after) ∨ Settled t room next := by
  induction schedule generalizing s left with
  | nil =>
    cases reached
    exact Or.inl ⟨left, underway⟩
  | cons role schedule ih =>
    obtain ⟨middle, taken, rest⟩ := Option.bind_eq_some_iff.mp reached
    obtain ⟨after, _, kept | settled⟩ := underway.turn regular taken
    · exact ih kept rest
    · obtain ⟨_, rfl⟩ := settled.follow rest
      exact Or.inr settled

end Underway

theorem toil_lt_of_ends {y : Exchange UInt64} (ends : Ends role s.exchange y after)
    (same : moved.exchange = y) (less : t.chores moved < t.chores s) : t.toil moved < t.toil s := by
  subst same
  have mild := ends.mild
  have scaled := Nat.mul_le_mul_left (s.exchange.queue.snoozeRounds + 2)
    (show 6 * t.chores moved + 6 ≤ 6 * t.chores s by omega)
  unfold toil
  rw [ends.beside.alike.rounds]
  rw [Nat.mul_add] at scaled
  omega

/-- A party that leaves before the other one stirs it up, but it has done its last chore. -/
theorem Underway.toil_leaves (underway : Underway t room s left)
    (present : s.exchange.queue.closed role = false) (idle : s.exchange.current role = none) :
    t.toil (s.withQueue (s.exchange.queue.close role).1) < t.toil s := by
  have rounds := s.exchange.queue.close_rounds role
  have rest (who : Role) : (s.withQueue (s.exchange.queue.close role).1).exchange.current who =
      s.exchange.current who := Exchange.current_withQueue _
  have eased := Exchange.strain_idle rounds (rest role.peer) ((rest role).trans idle)
    (Queue.stir_close underway.sound.carries role)
  have fewer : t.chores (s.withQueue (s.exchange.queue.close role).1) < t.chores s :=
    chores_close present
  have scaled := Nat.mul_le_mul_left (s.exchange.queue.snoozeRounds + 2)
    (show 6 * t.chores (s.withQueue (s.exchange.queue.close role).1) + 6 ≤ 6 * t.chores s by omega)
  show ((s.exchange.queue.close role).1.snoozeRounds + 2) * _ + _ < _
  unfold toil
  rw [rounds]
  rw [Nat.mul_add] at scaled
  omega

/-- Every turn that leaves something to do brings the end closer, but for an attempt to take an item
when there is none. -/
theorem Underway.toil_lt (underway : Underway t room s left) (does : Does t s left role moved after)
    (kept : Underway t room moved after)
    (hits : role = .consumer → .tryPop ∈ t.pattern → s.exchange.queue.CanMove .consumer ∨
      s.exchange.queue.closed .producer = true) : t.toil moved < t.toil s := by
  cases does with
  | @pauses _ y _ intakes goes current calls less _ =>
    unfold toil
    rw [goes.chores]
    dsimp only
    rw [goes.beside.alike.rounds]
    exact Nat.add_lt_add_left less _
  | pushes ends fresh more =>
    exact toil_lt_of_ends ends rfl
      (chores_lt_of_pushes (ends.handles rfl) rfl (pushesAhead_pushed more rfl rfl))
  | refused ends fresh more gone stuck =>
    exact toil_lt_of_ends ends rfl (chores_lt_of_pushes (ends.handles rfl) rfl
      (pushesAhead_refused fresh rfl (Option.some_ne_none _)))
  | takes intakes same some ends going wants single =>
    subst same
    exact toil_lt_of_ends ends rfl
      (chores_lt_of_takes (ends.handles rfl) rfl (underway.takesAhead_taken some rfl rfl))
  | fails intakes nothing ends going wants gone =>
    exact toil_lt_of_ends ends rfl (chores_lt_of_takes (ends.handles rfl) rfl
      (takesAhead_ended going rfl (Option.some_ne_none _)))
  | misses intakes attempts ends going stuck there =>
    rcases hits rfl attempts with moves | gone
    · exact absurd moves stuck
    · cases there.symm.trans gone
  | stops present idle going enough =>
    have less : t.chores { s with ending := some .stopped } < t.chores s :=
      chores_lt_of_takes rfl rfl (takesAhead_ended going rfl (Option.some_ne_none _))
    refine Nat.add_lt_add_right (Nat.mul_lt_mul_of_pos_left ?_ (Nat.succ_pos _)) _
    omega
  | leaves role present idle done =>
    rw [underway.leaves_first done kept]
    exact underway.toil_leaves present idle

theorem Underway.toil_pos (underway : Underway t room s left) : 0 < t.toil s := by
  have some := underway.handles_pos
  refine Nat.add_pos_left (Nat.mul_pos (Nat.succ_pos _) ?_) _
  unfold chores
  omega

/-- Unless the consumer makes attempts that find nothing, no schedule goes on for ever. -/
theorem Underway.length_le (underway : Underway t room s left) (regular : t.Regular)
    (waits : .tryPop ∉ t.pattern) (reached : t.follow schedule s = some next) :
    schedule.length ≤ t.toil s := by
  induction schedule generalizing s left with
  | nil => exact Nat.zero_le _
  | cons role schedule ih =>
    obtain ⟨middle, taken, rest⟩ := Option.bind_eq_some_iff.mp reached
    obtain ⟨after, does, kept | settled⟩ := underway.turn regular taken
    · have less := underway.toil_lt does kept fun _ attempts => absurd attempts waits
      have more := ih kept rest
      rw [List.length_cons]
      omega
    · obtain ⟨rfl, _⟩ := settled.follow rest
      exact underway.toil_pos

/-- A transfer in order can be brought to its end. -/
theorem Underway.completes (underway : Underway t room s left) (regular : t.Regular) :
    ∃ schedule last, t.follow schedule s = some last ∧ t.Over last := by
  induction most : t.toil s using Nat.strongRecOn generalizing s left with
  | ind bound ih =>
    subst most
    obtain ⟨role, next, taken, hits⟩ : ∃ role next, t.turn role s = some next ∧
        (role = .consumer → s.exchange.queue.CanMove .consumer ∨
          s.exchange.queue.closed .producer = true) := by
      cases first : t.turn .producer s with
      | some next => exact ⟨.producer, next, first, fun same => nomatch same⟩
      | none =>
        cases second : t.turn .consumer s with
        | some next => exact ⟨.consumer, next, second, fun _ => underway.fed first⟩
        | none => exact absurd (fun role => by cases role <;> assumption) underway.not_over
    obtain ⟨after, does, kept | settled⟩ := underway.turn regular taken
    · have less := underway.toil_lt does kept fun same _ => hits same
      obtain ⟨schedule, last, reached, ended⟩ := ih _ less kept rfl
      exact ⟨role :: schedule, last, (follow_cons taken).trans reached, ended⟩
    · exact ⟨[role], next, follow_cons taken, settled.isOver⟩

theorem State.ofSettings_eq_ok {settings : Settings} (opened : State.ofSettings settings = .ok s) :
    ∃ q, Queue.ofSettings settings = .ok q ∧
      s = ⟨.ofQueue q, 0, none, 0, .none, none, false, []⟩ := by
  unfold State.ofSettings at opened
  cases made : Queue.ofSettings (α := UInt64) settings with
  | error cause =>
    rw [made] at opened
    cases opened
  | ok q =>
    rw [made] at opened
    cases opened
    exact ⟨q, rfl, rfl⟩

theorem underway_of_opened {settings : Settings} (opened : State.ofSettings settings = .ok s) :
    Underway t settings.capacity s [] := by
  obtain ⟨q, made, rfl⟩ := State.ofSettings_eq_ok opened
  have present := Session.ofSettings_open made
  exact
    { sound := Exchange.sound_ofQueue (Queue.ofSettings_carries made)
      parted := fun gone => nomatch (present .producer).symm.trans gone
      capacity := Queue.ofSettings_capacity made
      stream := rfl
      calls := fun who _ current => by cases who <;> cases current
      done := fun who gone => nomatch (present who).symm.trans gone
      pushed_le := Nat.zero_le _
      refused := fun _ refusal => nomatch refusal
      received_le := fun _ _ => Nat.zero_le _
      stopped := fun stopped => nomatch stopped
      failed := fun _ failed => nomatch failed
      dropped := rfl
      overfull := rfl
      attended := ⟨.producer, present .producer⟩ }

/-- What a transfer comes to does not depend on the schedule. Whatever turns the parties have taken,
they can go on to the end, and wherever nobody has a turn left both are gone and the items have gone
where the numbers alone say. -/
theorem schedule_immaterial {settings : Settings} {fresh : State}
    (opened : State.ofSettings settings = .ok fresh) (regular : t.Regular)
    (reached : t.follow schedule fresh = some s) :
    (t.Over s → s.verdict = t.verdict settings.capacity ∧
        ∀ role, s.exchange.queue.closed role = true) ∧
      ∃ more last, t.follow more s = some last ∧ t.Over last := by
  rcases (underway_of_opened opened).follow regular reached with ⟨_, underway⟩ | settled
  · exact ⟨fun ended => absurd ended underway.not_over, underway.completes regular⟩
  · exact ⟨fun _ => ⟨settled.verdict, settled.gone⟩, [], s, rfl, settled.isOver⟩

/-- The consumer stops after one item and leaves while the producer is parked in its third push. -/
def earlyLeave : List Role :=
  [.producer, .producer, .producer, .consumer, .producer, .producer, .producer, .consumer, .consumer,
    .producer, .producer]

theorem schedule_immaterial_early_leave :
    ∃ fresh s : State,
      State.ofSettings ⟨1, by decide, 0, 0, 18446744073709551615, .whenShort, 8⟩ = .ok fresh ∧
        (⟨4, 2, 3, 5, [.pop], some 1⟩ : Transfer).follow earlyLeave fresh = some s ∧
        s.verdict = ⟨[5], some .stopped, 2, some (11, .disconnected), [8], false⟩ := by
  refine ⟨_, _, rfl, rfl, ?_⟩
  have opened : State.ofSettings ⟨1, by decide, 0, 0, 18446744073709551615, .whenShort, 8⟩ = .ok _ := rfl
  exact ((@schedule_immaterial ⟨4, 2, 3, 5, [.pop], some 1⟩ _ earlyLeave _ _ opened
    ⟨by decide, fun _ => by decide⟩ rfl).1 fun role => by cases role <;> rfl).1

end Transfer

end SpscQueue
