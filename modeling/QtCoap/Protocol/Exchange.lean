import QtCoap.Protocol.Step

namespace QtCoap

/-- What an exchange on its own does: the entry that is left, none when it is forgotten, and
what it puts out. -/
abbrev Reaction (Addr : Type) := Option (ExchangeData Addr) × List (Output Addr)

variable {Addr : Type}

namespace Protocol

variable (s : Protocol Addr) (key : Token)

/-- The state with the entry of `key` replaced, or removed. -/
def setExchange : Option (ExchangeData Addr) → Protocol Addr
  | some e => { s with exchangeMap := s.exchangeMap.insert key e }
  | none => { s with exchangeMap := s.exchangeMap.erase key }

/-- The reaction of the exchange stored under `key`, in the whole. -/
def apply (reaction : Reaction Addr) : Protocol Addr × List (Output Addr) :=
  (s.setExchange key reaction.1, reaction.2)

@[simp] theorem setExchange_some_map (e : ExchangeData Addr) :
    (s.setExchange key (some e)).exchangeMap = s.exchangeMap.insert key e := rfl

@[simp] theorem setExchange_none_map :
    (s.setExchange key none).exchangeMap = s.exchangeMap.erase key := rfl

@[simp] theorem find?_setExchange (j : Token) (o : Option (ExchangeData Addr)) :
    (s.setExchange key o).exchangeMap.find? j =
      if j = key then o else s.exchangeMap.find? j := by
  cases o <;> simp

theorem find?_setExchange_self (e : ExchangeData Addr) :
    (s.setExchange key (some e)).exchangeMap.find? key = some e := by
  simp

@[simp] theorem blockSize_setExchange (o : Option (ExchangeData Addr)) :
    (s.setExchange key o).blockSize = s.blockSize := by
  cases o <;> rfl

@[simp] theorem maximumRetransmitCount_setExchange (o : Option (ExchangeData Addr)) :
    (s.setExchange key o).maximumRetransmitCount = s.maximumRetransmitCount := by
  cases o <;> rfl

@[simp] theorem setExchange_setExchange (e : ExchangeData Addr) (o : Option (ExchangeData Addr)) :
    (s.setExchange key (some e)).setExchange key o = s.setExchange key o := by
  cases o <;> simp [setExchange]

theorem setExchange_self {s : Protocol Addr} {key : Token} {e : ExchangeData Addr}
    (h : s.exchangeMap.find? key = some e) : s.setExchange key (some e) = s := by
  simp only [setExchange]
  rw [Framework.OrderedMap.insert_of_find? h]

theorem setExchange_form {s : Protocol Addr} {key : Token} {e : ExchangeData Addr}
    (h : s.exchangeMap.find? key = some e) :
    ∃ s' : Protocol Addr, s = s'.setExchange key (some e) :=
  ⟨s, (setExchange_self h).symm⟩

section Entry

variable (e : ExchangeData Addr)

@[simp] theorem updateRequest_setExchange (f : InternalRequest → InternalRequest) :
    (s.setExchange key (some e)).updateRequest key f =
      s.setExchange key (some { e with request := f e.request }) := by
  simp [updateRequest, setExchange]

@[simp] theorem forgetExchange_setExchange :
    (s.setExchange key (some e)).forgetExchange key = s.setExchange key none := by
  simp [forgetExchange, setExchange]

@[simp] theorem forgetExchangeReplies_setExchange :
    (s.setExchange key (some e)).forgetExchangeReplies key =
      s.setExchange key (some { e with replies := [] }) := by
  simp [forgetExchangeReplies, setExchange]

@[simp] theorem addReply_setExchange (reply : ReceivedReply Addr) :
    (s.setExchange key (some e)).addReply key reply =
      s.setExchange key (some { e with replies := e.replies ++ [reply] }) := by
  simp [addReply, isTokenRegistered, Framework.OrderedMap.contains, setExchange]

@[simp] theorem userReplyForToken_setExchange :
    (s.setExchange key (some e)).userReplyForToken key = e.userReply := by
  simp [userReplyForToken]

@[simp] theorem repliesForToken_setExchange :
    (s.setExchange key (some e)).repliesForToken key = e.replies := by
  simp [repliesForToken]

end Entry

end Protocol

variable [Platform Addr]

/-- An empty message to where `request` goes. -/
def emptyMessage (request : InternalRequest) (messageId : UInt16) (type : MessageType) :
    List (Output Addr) :=
  (transmit Addr
    { InternalRequest.initEmptyMessage { targetUri := request.targetUri } messageId type with
      connection := request.connection } []).2

/-- Whether a reply is followed by a block request. -/
def ReceivedReply.continues (reply : ReceivedReply Addr) : Bool :=
  !isError reply.responseCode &&
    (reply.hasMoreBlocksToSend (Platform.junk Addr) || reply.hasMoreBlocksToReceive)

/-- The request with the block options of a first request. -/
def InternalRequest.firstBlocks (r : InternalRequest) (blockSize : Nat) : InternalRequest :=
  let r' := if 0 < blockSize then r.setToRequestBlock 0 blockSize else r
  if 0 < blockSize ∧ blockSize < r.message.payload.length
  then r'.setToSendBlock 0 blockSize else r'

namespace ExchangeData

variable (e : ExchangeData Addr)

/-- A new exchange: its request is sent at once. -/
def opened (reply : ReplyId) (r : InternalRequest) (blockSize timeout : Nat) : Reaction Addr :=
  let sent := transmit Addr ((r.firstBlocks blockSize).setTimeout timeout) []
  (some { userReply := some reply, request := sent.1 },
    .post reply (.setRunning r.token r.message.messageId) :: sent.2)

/-- The exchange with a reply added, its transmission stopped unless it is multicast. -/
def store (reply : ReceivedReply Addr) : ExchangeData Addr :=
  { e with
    request :=
      if e.request.isMulticast Addr then e.request else e.request.stopTransmission Addr
    replies := e.replies ++ [reply] }

def fail (error : Error) (reply : Option (ReceivedReply Addr)) : Reaction Addr :=
  (none, errorPosts e.userReply error reply ++ [.error e.userReply error])

/-- The block request that follows a reply, and the host it goes to. -/
def nextRequest (blockSize : Nat) (reply : ReceivedReply Addr) (request : InternalRequest) :
    Option (InternalRequest × QString) :=
  let nextBlock := reply.nextBlockToSend (Platform.junk Addr)
  if reply.hasMoreBlocksToSend (Platform.junk Addr) && 0 ≤ nextBlock then
    some (request.setToSendBlock nextBlock.toNat blockSize, [])
  else if reply.hasMoreBlocksToReceive then
    some (request.setToRequestBlock ((reply.currentBlockNumber + 1) % 2 ^ 32) reply.blockSize,
      Platform.toString reply.senderAddress)
  else none

theorem nextRequest_isSome (blockSize : Nat) (reply : ReceivedReply Addr)
    (request : InternalRequest) :
    (nextRequest blockSize reply request).isSome =
      (reply.hasMoreBlocksToSend (Platform.junk Addr) || reply.hasMoreBlocksToReceive) := by
  unfold nextRequest InternalReply.hasMoreBlocksToSend
  dsimp only
  split_ifs with more_to_send more_to_receive <;> simp_all

/-- The last message of the exchange is in. -/
def finish (sender : Addr) : Reaction Addr :=
  match e.userReply, e.replies.getLast? with
  | some userReply, some lastReply =>
    if e.request.isObserve && e.request.observeCancelled then (none, [])
    else if lastReply.message.type = .acknowledgment ∧
        lastReply.responseCode = ResponseCode.emptyMessage then
      (some { e with replies := e.replies.dropLast }, [])
    else
      let lastReply := assembled (e.request.isMulticast Addr) e.replies lastReply sender
      let content : Output Addr :=
        .post userReply
          (.setContent lastReply.senderAddress lastReply.message lastReply.responseCode)
      if e.request.isObserve then
        (some { e with replies := [] }, [content, .post userReply .setNotified])
      else if e.request.isMulticast Addr then
        (some { e with replies := e.replies.dropLast ++ [lastReply] },
          [content, .responseToMulticastReceived userReply lastReply.message sender])
      else (none, [content, .post userReply (.setFinished .ok)])
  | _, _ => (none, [])

/-- The empty message a reply is answered with. -/
def acknowledge (reply : ReceivedReply Addr) : List (Output Addr) :=
  if e.request.observeCancelled then emptyMessage e.request reply.message.messageId .reset
  else if reply.message.type = .confirmable then
    emptyMessage e.request reply.message.messageId .acknowledgment
  else []

def dropObserve : ExchangeData Addr :=
  if e.request.observeCancelled then
    { e with request := e.request.removeOption OptionName.observe }
  else e

/-- The exchange with its request changed to `request` and sent under a new message ID. -/
def resend (request : InternalRequest) (host : QString) (id : UInt16) : Reaction Addr :=
  let sent := transmit Addr (request.setMessageId id) host
  (some { e with request := sent.1 }, sent.2)

/-- A reply has been matched to the exchange. A block request that follows gets the message ID
`id`. -/
def receive (blockSize : Nat) (reply : ReceivedReply Addr) (id : UInt16) : Reaction Addr :=
  let stored := e.store reply
  if isError reply.responseCode then
    stored.fail (errorForResponseCode reply.responseCode) (some reply)
  else
    let kept := stored.dropObserve
    let reaction :=
      match nextRequest blockSize reply kept.request with
      | some (request, host) => kept.resend request host id
      | none => kept.finish reply.senderAddress
    (reaction.1, stored.acknowledge reply ++ reaction.2)

/-! The three ways of receiving a reply: an error ends the exchange, a block request follows, or
the last message is in. -/

theorem receive_of_error {blockSize : Nat} {reply : ReceivedReply Addr} {id : UInt16}
    (error : isError reply.responseCode = true) :
    e.receive blockSize reply id =
      (e.store reply).fail (errorForResponseCode reply.responseCode) (some reply) := by
  simp only [receive]
  rw [if_pos error]

theorem receive_of_next {blockSize : Nat} {reply : ReceivedReply Addr} {id : UInt16}
    (error : isError reply.responseCode = false) {request : InternalRequest} {host : QString}
    (next : nextRequest blockSize reply (e.store reply).dropObserve.request =
      some (request, host)) :
    e.receive blockSize reply id =
      (((e.store reply).dropObserve.resend request host id).1,
        (e.store reply).acknowledge reply ++
          ((e.store reply).dropObserve.resend request host id).2) := by
  simp only [receive]
  rw [if_neg (by simp [error]), next]

theorem receive_of_last {blockSize : Nat} {reply : ReceivedReply Addr} {id : UInt16}
    (error : isError reply.responseCode = false)
    (last : nextRequest blockSize reply (e.store reply).dropObserve.request = none) :
    e.receive blockSize reply id =
      (((e.store reply).dropObserve.finish reply.senderAddress).1,
        (e.store reply).acknowledge reply ++
          ((e.store reply).dropObserve.finish reply.senderAddress).2) := by
  simp only [receive]
  rw [if_neg (by simp [error]), last]

/-- How a reply is received. -/
inductive Receives (e : ExchangeData Addr) (blockSize : Nat) (reply : ReceivedReply Addr)
    (id : UInt16) : Reaction Addr → Prop
  | failed (error : isError reply.responseCode = true) :
      Receives e blockSize reply id
        ((e.store reply).fail (errorForResponseCode reply.responseCode) (some reply))
  | asked (noError : isError reply.responseCode = false) (q : InternalRequest) (host : QString)
      (next : nextRequest blockSize reply (e.store reply).dropObserve.request = some (q, host)) :
      Receives e blockSize reply id
        (some { (e.store reply).dropObserve with
            request := (transmit Addr (q.setMessageId id) host).1 },
          (e.store reply).acknowledge reply ++ (transmit Addr (q.setMessageId id) host).2)
  | ended (noError : isError reply.responseCode = false)
      (last : nextRequest blockSize reply (e.store reply).dropObserve.request = none) :
      Receives e blockSize reply id
        (((e.store reply).dropObserve.finish reply.senderAddress).1,
          (e.store reply).acknowledge reply ++
            ((e.store reply).dropObserve.finish reply.senderAddress).2)

theorem receives (blockSize : Nat) (reply : ReceivedReply Addr) (id : UInt16) :
    e.Receives blockSize reply id (e.receive blockSize reply id) := by
  cases error : isError reply.responseCode with
  | true =>
    rw [e.receive_of_error error]
    exact .failed error
  | false =>
    cases next : nextRequest blockSize reply (e.store reply).dropObserve.request with
    | none =>
      rw [e.receive_of_last error next]
      exact .ended error next
    | some changed =>
      rw [e.receive_of_next error next]
      exact .asked error changed.1 changed.2 next

theorem continues_eq {reply : ReceivedReply Addr} (error : isError reply.responseCode = false)
    (blockSize : Nat) (request : InternalRequest) :
    reply.continues = (nextRequest blockSize reply request).isSome := by
  simp [ReceivedReply.continues, error, nextRequest_isSome]

/-- A reply that nothing follows is the last message. -/
theorem receive_of_final {blockSize : Nat} {reply : ReceivedReply Addr} {id : UInt16}
    (error : isError reply.responseCode = false) (final : reply.continues = false) :
    e.receive blockSize reply id =
      (((e.store reply).dropObserve.finish reply.senderAddress).1,
        (e.store reply).acknowledge reply ++
          ((e.store reply).dropObserve.finish reply.senderAddress).2) := by
  have more := continues_eq error blockSize (e.store reply).dropObserve.request
  rw [final] at more
  exact receive_of_last e error (Option.not_isSome_iff_eq_none.mp (by simp [← more]))

theorem receive_of_continues {blockSize : Nat} {reply : ReceivedReply Addr} {id : UInt16}
    (continues : reply.continues = true) :
    ∃ request host, e.receive blockSize reply id =
      (((e.store reply).dropObserve.resend request host id).1,
        (e.store reply).acknowledge reply ++
          ((e.store reply).dropObserve.resend request host id).2) := by
  have error : isError reply.responseCode = false := by
    simp only [ReceivedReply.continues, Bool.and_eq_true, Bool.not_eq_true'] at continues
    exact continues.1
  have more := continues_eq error blockSize (e.store reply).dropObserve.request
  obtain ⟨changed, next⟩ := Option.isSome_iff_exists.mp (more.symm.trans continues)
  exact ⟨changed.1, changed.2, receive_of_next e error next⟩

/-- The retransmission timer has fired. -/
def timeout (maximumRetransmitCount : Nat) : Reaction Addr :=
  if e.request.message.type = .confirmable ∧
      e.request.retransmissionCounter < maximumRetransmitCount then
    let sent := transmit Addr e.request []
    (some { e with request := sent.1 }, sent.2)
  else e.fail .timeOut none

/-- The multicast timer has fired. -/
def expire : Reaction Addr := (none, expiryPosts e.userReply)

/-! What storing a reply leaves alone. -/

section Stored

variable {e}

theorem message_store (reply : ReceivedReply Addr) :
    (e.store reply).request.message = e.request.message := by
  simp only [store]
  split_ifs
  · rfl
  · exact InternalRequest.message_stopTransmission _ Addr

theorem token_store (reply : ReceivedReply Addr) :
    (e.store reply).request.token = e.request.token :=
  congrArg Message.token (message_store reply)

theorem messageId_store (reply : ReceivedReply Addr) :
    (e.store reply).request.message.messageId = e.request.message.messageId :=
  congrArg Message.messageId (message_store reply)

theorem observeCancelled_store (reply : ReceivedReply Addr) :
    (e.store reply).request.observeCancelled = e.request.observeCancelled := by
  simp only [store]
  split_ifs
  · rfl
  · exact InternalRequest.observeCancelled_stopTransmission _ Addr

theorem messageId_dropObserve {Addr : Type} {e : ExchangeData Addr} :
    e.dropObserve.request.message.messageId = e.request.message.messageId := by
  simp only [dropObserve]
  split_ifs <;> rfl

theorem token_dropObserve {Addr : Type} {e : ExchangeData Addr} :
    e.dropObserve.request.token = e.request.token := by
  simp only [dropObserve]
  split_ifs <;> rfl

end Stored

end ExchangeData

end QtCoap
