import QtCoap.Protocol.State

namespace QtCoap

variable {Addr : Type} [Platform Addr]

/-- Starts the timers of a request and hands its frame to the connection, to `host` if that is
not empty. -/
def transmit (Addr : Type) [Platform Addr] (r : InternalRequest) (host : QString) :
    InternalRequest × List (Output Addr) :=
  match r.connection with
  | none => (r, [])
  | some connection =>
    let target := if host.isEmpty then r.targetUri.host else host
    (r.startTransmission Addr,
      [.frame r.message r.method connection target (UInt16.ofInt r.targetUri.port)])

/-- The blocks merged so far: `finalPayload` and `lastBlockNumber`. -/
def mergeBlock (merged : QByteArray × Int) (reply : ReceivedReply Addr) : QByteArray × Int :=
  let currentBlock := toInt32 reply.currentBlockNumber
  if reply.message.payload.isEmpty ∨ currentBlock ≤ merged.2 then merged
  else (merged.1 ++ reply.message.payload, currentBlock)

/-- The payload that `onLastMessageReceived` assembles: a stable sort by block number, then
one non-empty payload for each number. -/
def mergedPayload (replies : List (ReceivedReply Addr)) : QByteArray :=
  ((replies.insertionSort (fun a b => a.currentBlockNumber ≤ b.currentBlockNumber)).foldl
    mergeBlock ([], -1)).1

/-- The last reply as it is forwarded: with the payload of all blocks when there are several
replies. In the multicast case only those of the sender count. -/
def assembled (multicast : Bool) (replies : List (ReceivedReply Addr))
    (lastReply : ReceivedReply Addr) (sender : Addr) : ReceivedReply Addr :=
  if replies.length ≤ 1 then lastReply
  else
    let ofSender :=
      if multicast then replies.filter (fun reply => reply.senderAddress = sender) else replies
    { lastReply with message := { lastReply.message with payload := mergedPayload ofSender } }

/-- The slot calls with which `onRequestError` ends an exchange, if its reply still exists. -/
def errorPosts (userReply : Option ReplyId) (error : Error)
    (reply : Option (ReceivedReply Addr)) : List (Output Addr) :=
  match userReply with
  | none => []
  | some id =>
    (match reply with
      | some reply =>
        [.post id (.setContent reply.senderAddress reply.message reply.responseCode)]
      | none => [.post id (.setError error)]) ++ [.post id (.setFinished .ok)]

/-- The slot call with which `onMulticastRequestExpired` does. -/
def expiryPosts (userReply : Option ReplyId) : List (Output Addr) :=
  match userReply with
  | none => []
  | some id => [.post id (.setFinished .ok)]

namespace Protocol

variable (s : Protocol Addr)

/-- `sendRequest(QCoapInternalRequest *, const QString &)` for a registered request. -/
def sendInternalRequest (key : Token) (host : QString) : Protocol Addr × List (Output Addr) :=
  match s.exchangeMap.find? key with
  | none => (s, [])
  | some e =>
    let sent := transmit Addr e.request host
    (s.updateRequest key (fun _ => sent.1), sent.2)

/-- `onRequestError`. -/
def onRequestError (key : Token) (error : Error) (reply : Option (ReceivedReply Addr)) :
    Protocol Addr × List (Output Addr) :=
  match s.exchangeMap.find? key with
  | none => (s, [])
  | some e =>
    let userReply := s.userReplyForToken e.request.token
    (s.forgetExchange e.request.token, errorPosts userReply error reply ++ [.error userReply error])

/-- `onRequestTimeout`. -/
def onRequestTimeout (key : Token) : Protocol Addr × List (Output Addr) :=
  match s.exchangeMap.find? key with
  | none => (s, [])
  | some e =>
    if e.request.message.type = .confirmable ∧
        e.request.retransmissionCounter < s.maximumRetransmitCount
    then s.sendInternalRequest key []
    else s.onRequestError key .timeOut none

/-- `onRequestMaxTransmissionSpanReached`. -/
def onRequestMaxTransmissionSpanReached (key : Token) : Protocol Addr × List (Output Addr) :=
  s.onRequestError key .timeOut none

/-- `onConnectionError`. -/
def onConnectionError (socketError : SocketError) : Protocol Addr × List (Output Addr) :=
  let coapError : Error :=
    match socketError with
    | .hostNotFound => .hostNotFound
    | .addressInUse => .addressInUse
    | _ => .unknown
  (s, [.error none coapError])

/-- `onMulticastRequestExpired`. -/
def onMulticastRequestExpired (key : Token) : Protocol Addr × List (Output Addr) :=
  match s.exchangeMap.find? key with
  | none => (s, [])
  | some e =>
    let s := s.updateRequest key (InternalRequest.stopTransmission · Addr)
    (s.forgetExchange e.request.token, expiryPosts (s.userReplyForToken e.request.token))

/-- `onRequestAborted`. -/
def onRequestAborted (token : Token) : Protocol Addr :=
  match s.exchangeMap.find? token with
  | none => s
  | some e =>
    (s.updateRequest token (InternalRequest.stopTransmission · Addr)).forgetExchange
      e.request.token

/-- An empty message of the given type, with the message ID of the last reply, to where the
request goes. -/
def sendEmptyMessage (key : Token) (type : MessageType) : Except Fault (List (Output Addr)) :=
  match s.exchangeMap.find? key with
  | none => .ok []
  | some e => do
    let reply ← s.lastReplyForToken e.request.token
    let request := InternalRequest.initEmptyMessage { targetUri := e.request.targetUri }
      reply.message.messageId type
    .ok (transmit Addr { request with connection := e.request.connection } []).2

/-- `sendAcknowledgment`. -/
def sendAcknowledgment (key : Token) : Except Fault (List (Output Addr)) :=
  s.sendEmptyMessage key .acknowledgment

/-- `sendReset`. -/
def sendReset (key : Token) : Except Fault (List (Output Addr)) :=
  s.sendEmptyMessage key .reset

/-- `onLastMessageReceived`. The last reply is shared with the map, so the payload set on it
stays there. -/
def onLastMessageReceived (key : Token) (sender : Addr) : Protocol Addr × List (Output Addr) :=
  match s.exchangeMap.find? key with
  | none => (s, [])
  | some e =>
    let request := e.request
    let replies := s.repliesForToken request.token
    match s.userReplyForToken request.token, replies.getLast? with
    | some userReply, some lastReply =>
      if request.isObserve && request.observeCancelled then (s.forgetExchange request.token, [])
      else if lastReply.message.type = .acknowledgment ∧
          lastReply.responseCode = ResponseCode.emptyMessage then
        ({ s with
            exchangeMap := s.exchangeMap.modify request.token
              (fun e => { e with replies := e.replies.dropLast }) }, [])
      else
        let lastReply := assembled (request.isMulticast Addr) replies lastReply sender
        let s :=
          { s with
            exchangeMap := s.exchangeMap.modify request.token
              (fun e => { e with replies := e.replies.dropLast ++ [lastReply] }) }
        let content : Output Addr :=
          .post userReply
            (.setContent lastReply.senderAddress lastReply.message lastReply.responseCode)
        if request.isObserve then
          (s.forgetExchangeReplies request.token, [content, .post userReply .setNotified])
        else if request.isMulticast Addr then
          (s, [content, .responseToMulticastReceived userReply lastReply.message sender])
        else
          (s.forgetExchange request.token, [content, .post userReply (.setFinished .ok)])
    | _, _ => (s.forgetExchange request.token, [])

/-- The request a frame is matched to, as the key it is stored under: by token, and if that
gives none, by message ID. -/
def frameTarget (message : Message) : Option Token :=
  if !message.token.isEmpty && s.exchangeMap.contains message.token then some message.token
  else s.findRequestByMessageId message.messageId

/-- Whether a frame from `sender` is let through to a request: the sender is its target, or the
target is a group. -/
def senderAdmissible (request : InternalRequest) (sender : Addr) : Bool :=
  let originalTarget : Addr := Platform.ofHost request.targetUri.host
  Platform.isMulticast originalTarget || Platform.isEqual originalTarget sender

/-- "Reply when the server asks for an ACK": a Reset once the observation is cancelled. -/
def acknowledgeReply (key : Token) (request : InternalRequest) (reply : ReceivedReply Addr) :
    Except Fault (Protocol Addr × List (Output Addr)) :=
  if request.observeCancelled then do
    let s := s.updateRequest key (·.removeOption OptionName.observe)
    let outputs ← s.sendReset key
    .ok (s, outputs)
  else if reply.message.type = .confirmable then do
    let outputs ← s.sendAcknowledgment key
    .ok (s, outputs)
  else .ok (s, [])

/-- The changed request goes out under a new message ID. -/
def sendNextBlock (key : Token) (host : QString) (draws : Draws) :
    Except Fault (Protocol Addr × List (Output Addr)) := do
  let (id, _) ← s.generateUniqueMessageId draws
  .ok ((s.updateRequest key (·.setMessageId id)).sendInternalRequest key host)

/-- "Send next block, ask for next block, or process the final reply". -/
def continueExchange (key : Token) (reply : ReceivedReply Addr) (sender : Addr) (draws : Draws) :
    Except Fault (Protocol Addr × List (Output Addr)) :=
  let nextBlock := reply.nextBlockToSend (Platform.junk Addr)
  if reply.hasMoreBlocksToSend (Platform.junk Addr) && 0 ≤ nextBlock then
    (s.updateRequest key (·.setToSendBlock nextBlock.toNat s.blockSize)).sendNextBlock key [] draws
  else if reply.hasMoreBlocksToReceive then
    (s.updateRequest key
      (·.setToRequestBlock ((reply.currentBlockNumber + 1) % 2 ^ 32) reply.blockSize)).sendNextBlock
        key (Platform.toString sender) draws
  else .ok (s.onLastMessageReceived key sender)

/-- `onFrameReceived` behind the match and the check of the sender. -/
def processReply (key : Token) (request : InternalRequest) (reply : ReceivedReply Addr)
    (sender : Addr) (draws : Draws) : Except Fault (Protocol Addr × List (Output Addr)) :=
  let s :=
    if request.isMulticast Addr then s
    else s.updateRequest key (InternalRequest.stopTransmission · Addr)
  let s := s.addReply request.token reply
  if isError reply.responseCode then
    .ok (s.onRequestError key (errorForResponseCode reply.responseCode) (some reply))
  else do
    let (s, empty) ← s.acknowledgeReply key request reply
    let (s, outputs) ← s.continueExchange key reply sender draws
    .ok (s, empty ++ outputs)

/-- `onFrameReceived`. -/
def onFrameReceived (data : QByteArray) (sender : Addr) (draws : Draws) :
    Except Fault (Protocol Addr × List (Output Addr)) := do
  let decoded ← createFromFrame (Platform.junk Addr) data
  let reply : ReceivedReply Addr := { decoded with senderAddress := sender }
  match s.frameTarget reply.message with
  | none => .ok (s, [])
  | some key =>
    match s.exchangeMap.find? key with
    | none => .ok (s, [])
    | some e =>
      if !senderAdmissible e.request sender then .ok (s, [])
      else s.processReply key e.request reply sender draws

/-- The timeout of a request: random for a Confirmable one. -/
def requestTimeout (type : MessageType) (draws : Draws) : Except Fault (Nat × Draws) :=
  if type = .confirmable ∧ s.minimumTimeout ≠ s.maximumTimeout
  then bounded s.minimumTimeout s.maximumTimeout draws
  else .ok (if type = .confirmable then s.minimumTimeout else s.maximumTimeout, draws)

/-- The internal request of a new exchange with its timers set; it has no message ID and no
connection yet, and a token only if the user set one. -/
def newRequest (request : Request) : InternalRequest :=
  let r := InternalRequest.ofRequest Addr request
  let r :=
    { r with
      maxTransmitWaitTimer := r.maxTransmitWaitTimer.setInterval (toInt32 s.maximumTransmitWait) }
  if r.isMulticast Addr then
    { r with
      multicastExpireTimer := r.multicastExpireTimer.setInterval
        (toInt32 (s.nonConfirmLifetime + maximumLatency + s.maximumServerResponseDelay)) }
  else r

/-- The token a request is registered with: its own, or a new one if that is empty. -/
def chosenToken (token : Token) (draws : Draws) : Except Fault (Token × Draws) :=
  if token.isEmpty then s.generateUniqueToken draws else .ok (token, draws)

/-- The end of `sendRequest`, for a request that is complete: it is registered, gets its block
options and its timeout, and is sent. -/
def openExchange (id : ReplyId) (r : InternalRequest) (draws : Draws) :
    Except Fault (Protocol Addr × List (Output Addr)) := do
  let s := s.registerExchange r.token id r
  let s :=
    if 0 < s.blockSize then s.updateRequest r.token (·.setToRequestBlock 0 s.blockSize) else s
  let s :=
    if 0 < s.blockSize ∧ s.blockSize < r.message.payload.length
    then s.updateRequest r.token (·.setToSendBlock 0 s.blockSize) else s
  let (timeout, _) ← s.requestTimeout r.message.type draws
  let s := s.updateRequest r.token (·.setTimeout timeout)
  let (s, outputs) := s.sendInternalRequest r.token []
  .ok (s, .post id (.setRunning r.token r.message.messageId) :: outputs)

/-- `sendRequest(QPointer<QCoapReply>, QCoapConnection *)`, with the request of the reply. -/
def sendRequest (reply : Option ReplyId) (request : Request) (connection : ConnectionId)
    (draws : Draws) : Except Fault (Protocol Addr × List (Output Addr)) :=
  match reply with
  | none => .ok (s, [])
  | some id =>
    if request.method = Method.invalid ∨ !isUrlValid request.uri then .ok (s, [])
    else do
      let r := s.newRequest request
      let (messageId, draws) ← s.generateUniqueMessageId draws
      let r := r.setMessageId messageId
      let (token, draws) ← s.chosenToken r.token draws
      s.openExchange id ((r.setToken token).setConnection connection) draws

/-- `cancelObserve(QPointer<QCoapReply>)`; `token` is the one in the request of the reply. -/
def cancelObserve (reply : Option ReplyId) (token : Token) : Protocol Addr × List (Output Addr) :=
  match reply with
  | none => (s, [])
  | some id =>
    match s.exchangeMap.find? token with
    | some e =>
      if !e.request.isObserve || e.request.observeCancelled then (s, [])
      else (s.updateRequest token (·.setObserveCancelled), [.post id .setObserveCancelled])
    | none => (s, [.post id .setObserveCancelled])

/-- One round of the loop in `cancelObserve(const QUrl &)`; `view` gives the URL and the token of
a living reply. -/
def cancelEntry (url : Url) (view : ReplyId → Url × Token)
    (acc : Protocol Addr × List (Output Addr)) (entry : Token × ExchangeData Addr) :
    Except Fault (Protocol Addr × List (Output Addr)) :=
  match entry.2.userReply with
  | none => .error .nullReply
  | some id =>
    if (view id).1 = url then
      let (s, outputs) := acc.1.cancelObserve (some id) (view id).2
      .ok (s, acc.2 ++ outputs)
    else .ok acc

/-- `cancelObserve(const QUrl &)`. -/
def cancelObserveUrl (url : Url) (view : ReplyId → Url × Token) :
    Except Fault (Protocol Addr × List (Output Addr)) :=
  s.exchangeMap.entries.foldlM (cancelEntry url view) (s, [])

/-- The pointers to a destroyed reply become null. -/
def replyDestroyed (id : ReplyId) : Protocol Addr :=
  { s with
    exchangeMap := s.exchangeMap.mapValues
      (fun e => if e.userReply = some id then { e with userReply := none } else e) }

theorem find?_replyDestroyed {Addr : Type} (s : Protocol Addr) (id : ReplyId) (key : Token) :
    (s.replyDestroyed id).exchangeMap.find? key = (s.exchangeMap.find? key).map fun e =>
      if e.userReply = some id then { e with userReply := none } else e := by
  simp [replyDestroyed]

end Protocol

end QtCoap
