import SpscQueue.RecordText

namespace SpscQueue

/-- How often each party was woken from its sleep by the other one making progress. The counts wrap
at `2 ^ 64`. -/
structure Wakeups where
  producer : UInt64
  consumer : UInt64
deriving DecidableEq, Repr

namespace Wakeups

def zero : Wakeups := ⟨0, 0⟩

/-- What was counted after `earlier`. It is right even if a count wrapped once in between. -/
def since (later earlier : Wakeups) : Wakeups :=
  ⟨later.producer - earlier.producer, later.consumer - earlier.consumer⟩

def text (w : Wakeups) : String :=
  RecordText.render
    ⟨"Stats", [("producer_wakeups", toString w.producer.toNat),
      ("consumer_wakeups", toString w.consumer.toNat)], false⟩

end Wakeups

end SpscQueue
