import SpscQueue.Index
import SpscQueue.Wakeups

namespace SpscQueue

/-- What is told about a queue to a person. Only the producer tells how many items it defers. -/
inductive Description
  | producer (capacity : UInt64) (position : Index) (deferred : UInt64) (disconnected : Bool)
  | consumer (capacity : UInt64) (position : Index) (disconnected : Bool)
  | monitor (length capacity : UInt64) (wakeups : Wakeups)
deriving DecidableEq, Repr

namespace Description

def record : Description → RecordText
  | producer capacity position deferred disconnected =>
    ⟨"Producer", [("capacity", toString capacity.toNat), ("position", toString position.toNat),
      ("unpublished", toString deferred.toNat), ("disconnected", toString disconnected)], true⟩
  | consumer capacity position disconnected =>
    ⟨"Consumer", [("capacity", toString capacity.toNat), ("position", toString position.toNat),
      ("disconnected", toString disconnected)], true⟩
  | monitor length capacity wakeups =>
    ⟨"Monitor", [("len", toString length.toNat), ("capacity", toString capacity.toNat),
      ("stats", wakeups.text)], false⟩

def text (d : Description) : String := d.record.render

end Description

end SpscQueue
