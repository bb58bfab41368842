import QtCoap.Reply.CoreLink
import QtCoap.Reply.Reply

namespace QtCoap

/-- The signals of a `QCoapResourceDiscoveryReply`. -/
inductive DiscoverySignal (Addr : Type)
  | reply (signal : Signal)
  | discovered (resources : List (Resource Addr))
  deriving DecidableEq, Repr

/-- `QCoapResourceDiscoveryReplyPrivate`. -/
structure DiscoveryReply (Addr : Type) extends Reply where
  resources : List (Resource Addr) := []
  deriving DecidableEq, Repr

namespace DiscoveryReply

variable {Addr : Type} (d : DiscoveryReply Addr)

/-- What the base class does. -/
def inherited (result : Reply × List Signal) :
    DiscoveryReply Addr × List (DiscoverySignal Addr) :=
  ({ d with toReply := result.1 }, result.2.map .reply)

/-- `QCoapResourceDiscoveryReplyPrivate::_q_setContent`. -/
def setContent (sender : Addr) (message : Message) (code : ResponseCode) :
    DiscoveryReply Addr × List (DiscoverySignal Addr) :=
  if d.isFinishedOrAborted then (d, [])
  else
    let r : Reply := { d.toReply with message := message, responseCode := code }
    if isError code then d.inherited (r.setError (errorForResponseCode code))
    else
      let res := resourcesFromCoreLinkList sender message.payload
      ({ d with toReply := r, resources := d.resources ++ res }, [.discovered res])

/-- The slot calls of the protocol. -/
def handle : Slot Addr → DiscoveryReply Addr × List (DiscoverySignal Addr)
  | .setContent sender message code => d.setContent sender message code
  | slot => d.inherited (d.toReply.handle slot)

def abortRequest : DiscoveryReply Addr × List (DiscoverySignal Addr) :=
  d.inherited d.toReply.abortRequest

/-- To its base class a discovery reply is a reply. -/
theorem toReply_handle (slot : Slot Addr) :
    (d.handle slot).1.toReply = (d.toReply.handle slot).1 := by
  cases slot with
  | setContent sender message code =>
    simp only [handle, setContent, Reply.handle, Reply.setContent]
    split_ifs <;> rfl
  | _ => rfl

end DiscoveryReply

end QtCoap
