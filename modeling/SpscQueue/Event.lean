import SpscQueue.Index
import SpscQueue.Role

namespace SpscQueue

/-- What a call tells the log about its waiting, and a handle about its end. -/
inductive Event
  | producerParking (position consumer threshold : Index)
  | consumerParking (position threshold : Index)
  | woke (role : Role) (position : Index)
  | abandoned (position : Index)
  | drained (position : Index)
  | closed (role : Role) (position : Index)
deriving DecidableEq, Repr

namespace Event

def message : Event → String
  | producerParking .. => "producer parking"
  | consumerParking .. => "consumer parking"
  | woke role _ => role.name ++ " woke"
  | abandoned _ => "consumer gone, push abandoned"
  | drained _ => "producer gone, queue drained"
  | closed role _ => role.name ++ " dropped"

def fields : Event → List (String × Index)
  | producerParking position consumer threshold =>
    [("position", position), ("consumer", consumer), ("event", threshold)]
  | consumerParking position threshold => [("position", position), ("event", threshold)]
  | woke _ position => [("position", position)]
  | abandoned position => [("position", position)]
  | drained position => [("position", position)]
  | closed _ position => [("position", position)]

end Event

end SpscQueue
