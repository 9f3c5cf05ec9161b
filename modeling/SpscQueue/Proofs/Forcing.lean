import SpscQueue.Proofs.Drawing

namespace SpscQueue

universe u

variable {α : Type u} {q p : Queue α} {x : Exchange α} {item : α} {items held : List α}
  {moves : List (Move α)} {results : List (Result α)}

namespace Queue

/-! Showing some items early makes no difference once all are shown. -/

theorem flush_flush (q : Queue α) : q.flush.flush = q.flush := by
  show { q.flush with
    producer := (q.flush.producer.publish q.flush.consumer).1
    consumer := (q.flush.producer.publish q.flush.consumer).2 } = q.flush
  rw [Side.publish_of_published q.flush_published]

namespace Carries

theorem flush_look (carries : q.Carries items) :
    (q.look .producer).flush = q.flush.look .producer := by
  have ready : q.flush.ready .producer = q.ready .producer := by
    rw [flush_eq carries.producer_posted]
    rfl
  have lookup : q.flush.lookup = q.lookup := by
    rw [flush_eq carries.producer_posted]
  have fresh : (q.refresh .producer).flush = q.flush.refresh .producer := by
    rw [flush_eq carries.producer_posted, flush_eq (carries.refresh .producer).producer_posted]
    rfl
  unfold Queue.look
  rw [lookup, ready]
  cases q.lookup with
  | always => exact fresh
  | whenShort =>
    dsimp only
    split
    · rfl
    · exact fresh

/-- What is shown before an item is put in passes the threshold, or what is shown after that does, but not
both, and just if all at once does. -/
theorem flush_written (carries : q.Carries items) (space : q.ready .producer = true) (item : α) :
    (q.flush.written item).flush = (q.written item).flush := by
  have after := carries.written space item
  have small := after.capacity_lt
  have most := after.length_le
  have deferred := carries.deferred_eq
  have later : q.producer.cursor.published.span (q.producer.cursor.position + 1) =
      (items ++ [item]).length - (q.written item).shown := after.deferred_eq
  have shown := carries.shown_le
  have same : (q.written item).shown = q.shown := rfl
  have one : (1 : UInt64).toNat = 1 := rfl
  -- showing the older items first splits the way from what was shown to the new item
  have way : q.producer.cursor.published.span q.producer.cursor.position +
      q.producer.cursor.position.span (q.producer.cursor.position + 1) =
      q.producer.cursor.published.span (q.producer.cursor.position + 1) := by
    rw [Index.span_add_self, deferred, later, same, List.length_append, List.length_singleton, one]
    omega
  have posted : (q.flush.written item).producer.post.index =
      (q.flush.written item).producer.cursor.published := by
    show q.flush.producer.post.index = q.flush.producer.cursor.published
    exact carries.flush.producer_posted
  rw [flush_eq posted, flush_eq carries.producer_posted, flush_eq after.producer_posted]
  have reach : q.producer.cursor.published.span (q.producer.cursor.position + 1) ≤
      0x8000000000000000 := by
    rw [later]
    show _ ≤ _
    omega
  simp only [Queue.written, Cursor.advance, Side.owesWakeup]
  rcases Index.passes_via way reach q.producer.post.threshold with
    ⟨first, second, whole⟩ | ⟨first, second⟩
  · simp only [first, second, whole, if_true, Bool.false_eq_true, if_false, UInt64.add_zero]
  · simp only [first, second, Bool.false_eq_true, if_false, UInt64.add_zero]
    rfl

end Carries

theorem flush_put (q : Queue α) (item : α) (force : Bool) :
    (q.put item force).flush = (q.written item).flush := by
  unfold put
  split
  · exact flush_flush _
  · rfl

/-- The queue after a producer has put some items in without showing any of them. -/
def filled (q : Queue α) : List α → Queue α
  | [] => q
  | item :: items => ((q.look .producer).written item).filled items

theorem filled_still (q : Queue α) (items : List α) :
    (q.filled items).producer.cursor.published = q.producer.cursor.published ∧
      (q.filled items).producer.post = q.producer.post ∧
      (q.filled items).consumer.signal = q.consumer.signal := by
  induction items generalizing q with
  | nil => exact ⟨rfl, rfl, rfl⟩
  | cons item items ih =>
    have same := q.outward_look .producer
    obtain ⟨published, post, signal⟩ := ih ((q.look .producer).written item)
    exact ⟨published.trans (congrArg (·.producer.cursor.published) same),
      post.trans (congrArg (·.producer.post) same), signal.trans (congrArg (·.consumer.signal) same)⟩

namespace Carries

theorem look_space (carries : q.Carries held) (room : held.length < q.capacity.toNat) :
    (q.look .producer).ready .producer = true :=
  (carries.look_ready .producer).mpr (carries.canMove_producer_iff.mpr room)

/-- Of two queues that are the same once all is shown, one takes an item in and shows what it likes, and
the other one shows nothing. They are still the same once all is shown. -/
theorem flush_put_of_same (carries : q.Carries held) (twin : p.Carries held) (same : q.flush = p.flush)
    (room : held.length < q.capacity.toNat) (roomToo : held.length < p.capacity.toNat) (item : α)
    (force : Bool) :
    ((q.look .producer).put item force).flush = ((p.look .producer).written item).flush :=
  calc ((q.look .producer).put item force).flush
    _ = ((q.look .producer).written item).flush := flush_put _ item force
    _ = ((q.flush.look .producer).written item).flush := by
      rw [← carries.flush_look, (carries.look .producer).flush_written (carries.look_space room)]
    _ = ((p.look .producer).written item).flush := by
      rw [same, ← twin.flush_look, (twin.look .producer).flush_written (twin.look_space roomToo)]

end Carries

end Queue

namespace Exchange

/-- What a push leaves behind that finds room. -/
def afterPush (x : Exchange α) (item : α) (force : Bool) : Exchange α :=
  { x with queue := (x.queue.look .producer).put item force }

theorem start_push (idle : x.current .producer = none) (carries : x.queue.Carries held)
    (room : held.length < x.queue.capacity.toNat) (item : α) (force : Bool) :
    x.start (.push item force) = ⟨x.afterPush item force, [], some (.push (.accepted item))⟩ := by
  have space := carries.look_space room
  rw [start_ready (.push item force) idle space]
  simp only [Call.finish, Call.prepare, (carries.look .producer).accept_eq space, Prod.map_apply,
    id_eq, afterPush]

/-- The moves of a producer that pushes some items, each of them forced or not, and then flushes. -/
def pushesAndFlush (pushes : List (α × Bool)) : List (Move α) :=
  (pushes.map fun push => .start .producer (.push push.1 push.2)) ++ [.flush]

/-- Pushes that find room come, with the flush after them, to what showing nothing until then comes to. -/
theorem run_pushes {pushes : List (α × Bool)} (rests : x.atRest .producer = true)
    (carries : x.queue.Carries held) (twin : p.Carries held) (same : x.queue.flush = p.flush)
    (fits : held.length + pushes.length ≤ x.queue.capacity.toNat) :
    x.Runs (pushesAndFlush pushes) ((pushes.map Prod.fst).map fun item => .push (.accepted item))
      { x with queue := (p.filled (pushes.map Prod.fst)).flush } := by
  -- along with the pushes `p` takes the same items in, and shows none of them
  induction pushes generalizing x p held with
  | nil =>
    have run : x.Runs [.flush] _ _ := .single rests
    rw [play, same] at run
    exact run
  | cons push pushes ih =>
    obtain ⟨item, force⟩ := push
    obtain ⟨present, idle⟩ := atRest_iff.mp rests
    rw [List.length_cons] at fits
    have room : held.length < x.queue.capacity.toNat := by omega
    have capacity : p.capacity = x.queue.capacity :=
      (((p.alike_publish .producer).capacity.symm.trans (congrArg Queue.capacity same.symm)).trans
        (x.queue.alike_publish .producer).capacity)
    have roomToo : held.length < p.capacity.toNat := by rwa [capacity]
    have begun := start_push idle carries room item force
    have alike := (x.start_beside (.push item force)).1
    rw [begun] at alike
    have restsNow : (x.afterPush item force).atRest .producer = true :=
      atRest_iff.mpr ⟨(alike.closed .producer).trans present, idle⟩
    have fitsNow : (held ++ [item]).length + pushes.length ≤
        (x.afterPush item force).queue.capacity.toNat := by
      rw [alike.capacity, List.length_append, List.length_singleton]
      omega
    have later := ih restsNow ((carries.look .producer).put (carries.look_space room) item force)
      ((twin.look .producer).written (twin.look_space roomToo) item)
      (carries.flush_put_of_same twin same room roomToo item force) fitsNow
    have first : x.play (.start .producer (.push item force)) =
        ⟨x.afterPush item force, [], some (.push (.accepted item))⟩ := by
      simp only [play, begun, Advance.turn]
      rfl
    have run : x.Runs (.start .producer (.push item force) :: pushesAndFlush pushes) _ _ :=
      .next rests (by rw [first]; exact later)
    rw [first] at run
    exact run

/-- Once all is shown it makes no difference which of some pushes were forced. If there is room for all
their items none of them waits, and they lead with the flush after them to one and the same state. On the
way the consumer is woken at most once, and counted as woken once, just if the step that it asked for lies
between what was shown before and the last item. -/
theorem force_immaterial {settings : Settings} {fresh : Session α}
    (opened : Session.ofSettings settings = .ok fresh) (run : fresh.exchange.Runs moves results x)
    (rests : x.atRest .producer = true) (items : List α)
    (fits : x.queue.inFlight.toNat + items.length ≤ settings.capacity) :
    ∃ y : Exchange α,
      (∀ pushes : List (α × Bool), pushes.map Prod.fst = items →
        x.Runs (pushesAndFlush pushes) (items.map fun item => .push (.accepted item)) y) ∧
      (Index.passes x.queue.producer.cursor.published y.queue.producer.cursor.position
          x.queue.producer.post.threshold = true →
        y.queue.wakeups.consumer = x.queue.wakeups.consumer + 1 ∧
          y.queue.signalled .consumer = true) ∧
      (Index.passes x.queue.producer.cursor.published y.queue.producer.cursor.position
          x.queue.producer.post.threshold = false →
        y.queue.wakeups.consumer = x.queue.wakeups.consumer ∧
          y.queue.signalled .consumer = x.queue.signalled .consumer) := by
  obtain ⟨held, kept, _⟩ := (kept_of_opened opened).run run
  have carries := kept.sound.carries
  obtain ⟨published, post, signal⟩ := x.queue.filled_still items
  have posted : (x.queue.filled items).producer.post.index =
      (x.queue.filled items).producer.cursor.published := by
    rw [post, published, carries.producer_posted]
  have owes : (x.queue.filled items).producer.owesWakeup =
      Index.passes x.queue.producer.cursor.published
        (x.queue.filled items).producer.cursor.position x.queue.producer.post.threshold := by
    rw [Side.owesWakeup, published, post]
  refine ⟨{ x with queue := (x.queue.filled items).flush }, ?_, ?_⟩
  · rintro pushes rfl
    rw [List.length_map, carries.inFlight_eq, ← kept.capacity] at fits
    exact run_pushes rests carries carries rfl fits
  · rw [Queue.flush_eq posted]
    constructor
    · intro passed
      rw [← owes] at passed
      simp only [Queue.wakeups, Queue.signalled, Queue.side, passed, if_true, post, true_and]
      rfl
    · intro missed
      rw [← owes] at missed
      simp only [Queue.wakeups, Queue.signalled, Queue.side, missed, Bool.false_eq_true, if_false,
        UInt64.add_zero, post, signal, and_self]

/-- Of three pushes across the end of the circle, to a consumer that is parked, the first one may be forced
as well as the last one. -/
theorem force_immaterial_parked_pop :
    ∃ (fresh : Session Nat) (x y : Exchange Nat),
      Session.ofSettings ⟨4, by decide, 0, 0, 18446744073709551615, .whenShort, 8⟩ = .ok fresh ∧
        fresh.exchange.Runs [.start .consumer .pop, .proceed .consumer] [.parked] x ∧
        x.Runs (pushesAndFlush [(5, true), (6, false), (7, false)])
          [.push (.accepted 5), .push (.accepted 6), .push (.accepted 7)] y ∧
        x.Runs (pushesAndFlush [(5, false), (6, false), (7, true)])
          [.push (.accepted 5), .push (.accepted 6), .push (.accepted 7)] y := by
  suffices reached : ∃ (fresh : Session Nat) (x : Exchange Nat),
      Session.ofSettings ⟨4, by decide, 0, 0, 18446744073709551615, .whenShort, 8⟩ = .ok fresh ∧
        fresh.exchange.Runs [.start .consumer .pop, .proceed .consumer] [.parked] x ∧
        x.atRest .producer = true ∧ x.queue.inFlight.toNat = 0 by
    obtain ⟨fresh, x, opened, run, rests, empty⟩ := reached
    obtain ⟨y, pushes, _⟩ :=
      force_immaterial opened run rests [5, 6, 7] (by rw [empty]; decide)
    exact ⟨fresh, x, y, opened, run, pushes _ rfl, pushes _ rfl⟩
  exact ⟨_, _, rfl, .next rfl (.next rfl (.rest _)), rfl, rfl⟩

end Exchange

end SpscQueue
