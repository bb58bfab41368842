import QtCoap.Protocol.Failures
import QtCoap.Protocol.Multicast
import QtCoap.Reply.LifeCycle

namespace QtCoap

variable {Addr : Type}

/-- The error that a call brings to an unfinished reply. -/
def Slot.failure? : Slot Addr → Option Error
  | setContent _ _ code => if isError code then some (errorForResponseCode code) else none
  | setFinished error => if error = .ok then none else some error
  | setError error => some error
  | _ => none

def Signal.error? : Signal → Option Error
  | error signalled => some signalled
  | _ => none

namespace Reply

variable (r : Reply)

/-- The errors that a reply signals when it gets these calls. -/
def told (slots : List (Slot Addr)) : List Error :=
  ((Framework.trace (fun r slot => handle r slot) r slots).flatMap (·.outputs)).filterMap
    Signal.error?

end Reply

/-- The error that a slot call among the outputs brings to the reply. -/
def Output.failureFor (id : ReplyId) : Output Addr → Option Error
  | .post id' slot => if id' = id then slot.failure? else none
  | _ => none

/-- The errors that the outputs bring to the reply are the errors signalled for it. -/
def Agrees (id : ReplyId) (os : List (Output Addr)) : Prop :=
  os.filterMap (Output.failureFor id) = os.filterMap (Output.errorFor id)

section Agreement

variable {id : ReplyId} {os os' : List (Output Addr)}

theorem Agrees.append (h : Agrees id os) (h' : Agrees id os') : Agrees id (os ++ os') := by
  simp only [Agrees, List.filterMap_append]
  rw [h, h']

variable [Platform Addr]

namespace ExchangeData

variable {e : ExchangeData Addr}

end ExchangeData

namespace Protocol

variable {s t : Protocol Addr} {event : Event Addr} {tr : List (Taken Addr)}

end Protocol

end Agreement

end QtCoap
