namespace SpscQueue

/-- The two parties of a queue. Each has one handle. -/
inductive Role
  | producer
  | consumer
deriving DecidableEq, Repr

namespace Role

/-- The other party. -/
def peer : Role → Role
  | producer => consumer
  | consumer => producer

def name : Role → String
  | producer => "producer"
  | consumer => "consumer"

end Role

end SpscQueue
