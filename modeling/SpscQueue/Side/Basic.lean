import SpscQueue.Side.Cursor
import SpscQueue.Signal

namespace SpscQueue

/-- One party's half of a queue: its own books, what it shows the other party, the signal that wakes
it, and whether its handle is gone. -/
structure Side where
  cursor : Cursor
  post : Signpost
  signal : Signal
  closed : Bool
deriving DecidableEq, Repr

namespace Side

def ofStart (start : Index) : Side := ⟨.ofStart start, .ofStart start, .quiet, false⟩

/-- Whether a step that was not shown yet is the one the peer asked to be woken for. -/
def owesWakeup (own : Side) : Bool :=
  Index.passes own.cursor.published own.cursor.position own.post.threshold

/-- Shows the peer everything up to the own position, and wakes the peer if that passes the
threshold it asked for. Without new steps nothing is shown. -/
def publish (own peer : Side) : Side × Side :=
  if own.cursor.published = own.cursor.position then (own, peer)
  else
    let cursor := { own.cursor with published := own.cursor.position }
    let (post, passed) := own.post.publish own.cursor.published own.cursor.position
    if passed then
      ({ own with cursor, post := post.countWakeup }, { peer with signal := peer.signal.raise })
    else ({ own with cursor, post }, peer)

/-- A party that has shown all its steps owes nothing. -/
theorem owesWakeup_of_published {own : Side}
    (published : own.cursor.published = own.cursor.position) : own.owesWakeup = false := by
  rw [owesWakeup, published, Index.passes_self]

theorem publish_of_published {own peer : Side}
    (published : own.cursor.published = own.cursor.position) :
    own.publish peer = (own, peer) := if_pos published

/-- Showing changes the own side by what is shown and, if a wakeup was owed, by its count. -/
theorem publish_fst {own : Side} (peer : Side) (shown : own.post.index = own.cursor.published) :
    (own.publish peer).1 =
      { own with
        cursor := { own.cursor with published := own.cursor.position }
        post :=
          { own.post with
            index := own.cursor.position
            wakeups := own.post.wakeups + if own.owesWakeup then 1 else 0 } } := by
  by_cases published : own.cursor.published = own.cursor.position
  · rw [publish_of_published published, owesWakeup_of_published published]
    obtain ⟨⟨position, told, seen⟩, ⟨index, threshold, wakeups⟩, signal, closed⟩ := own
    cases published
    cases shown
    simp
  · unfold publish Signpost.publish
    rw [if_neg published]
    by_cases owed : own.owesWakeup = true
    · rw [if_pos owed]
      exact congrArg Prod.fst (if_pos owed)
    · rw [if_neg owed, UInt64.add_zero]
      exact congrArg Prod.fst (if_neg owed)

/-- Showing changes the other side by nothing but its signal, which is raised if a wakeup was
owed. -/
theorem publish_snd (own peer : Side) :
    (own.publish peer).2 =
      { peer with signal := if own.owesWakeup then peer.signal.raise else peer.signal } := by
  by_cases published : own.cursor.published = own.cursor.position
  · rw [publish_of_published published, owesWakeup_of_published published]
    rfl
  · unfold publish Signpost.publish
    rw [if_neg published]
    by_cases owed : own.owesWakeup = true
    · rw [if_pos owed]
      exact congrArg Prod.snd (if_pos owed)
    · rw [if_neg owed]
      exact congrArg Prod.snd (if_neg owed)

end Side

end SpscQueue
