import SpscQueue.RecordText

namespace SpscQueue

/-- A flag that wakes one waiter. Raising a raised flag changes nothing, and a flag raised while
nobody waits stays up for the next wait. -/
structure Signal where
  pending : Bool
deriving DecidableEq, Repr

namespace Signal

def quiet : Signal := ⟨false⟩

def raise (_ : Signal) : Signal := ⟨true⟩

end Signal

/-- A signal in use: the waiter may be blocked on it, and any number of notifiers share it. -/
structure Alarm where
  signal : Signal
  blocked : Bool
  notifiers : Nat
deriving DecidableEq, Repr

namespace Alarm

/-- A quiet alarm with one notifier, number zero. -/
def new : Alarm := ⟨.quiet, false, 1⟩

/-- Adds a notifier and answers its number. -/
def addNotifier (a : Alarm) : Alarm × Nat := ({ a with notifiers := a.notifiers + 1 }, a.notifiers)

/-- The waiter waits. A pending notification lets it go on at once and is used up, otherwise it
blocks. The answer says whether it went on. -/
def wait (a : Alarm) : Alarm × Bool :=
  if a.signal.pending then ({ a with signal := .quiet }, true) else ({ a with blocked := true }, false)

/-- Any of the notifiers notifies. The answer says whether that released a blocked waiter, which
then uses the notification up. -/
def notify (a : Alarm) : Alarm × Bool :=
  if a.blocked then ({ a with signal := .quiet, blocked := false }, true)
  else ({ a with signal := a.signal.raise }, false)

def waiterText : String := RecordText.render ⟨"Waiter", [], true⟩

def notifierText : String := RecordText.render ⟨"Notifier", [], true⟩

end Alarm

end SpscQueue
