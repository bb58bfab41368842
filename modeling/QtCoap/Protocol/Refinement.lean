import QtCoap.Protocol.Exchange

namespace QtCoap

variable {Addr : Type} [Platform Addr]

namespace Protocol

variable {s : Protocol Addr} {key : Token} {e : ExchangeData Addr}

theorem sendInternalRequest_eq (host : QString) (h : s.exchangeMap.find? key = some e) :
    s.sendInternalRequest key host =
      s.apply key (some { e with request := (transmit Addr e.request host).1 },
        (transmit Addr e.request host).2) := by
  obtain ⟨s, rfl⟩ := setExchange_form h
  simp [sendInternalRequest, apply]

/-! What each handler does to the whole is what the exchange it is about does on its own. The
hypotheses hold in every reachable state. -/

theorem onRequestError_eq {Addr : Type} {s : Protocol Addr} {e : ExchangeData Addr} (error : Error)
    (reply : Option (ReceivedReply Addr)) (h : s.exchangeMap.find? key = some e)
    (token : e.request.token = key) :
    s.onRequestError key error reply = s.apply key (e.fail error reply) := by
  obtain ⟨s, rfl⟩ := setExchange_form h
  simp [onRequestError, ExchangeData.fail, apply, token]

theorem onRequestTimeout_eq (h : s.exchangeMap.find? key = some e)
    (token : e.request.token = key) :
    s.onRequestTimeout key = s.apply key (e.timeout s.maximumRetransmitCount) := by
  simp only [onRequestTimeout, ExchangeData.timeout]
  rw [h]
  dsimp only
  split_ifs
  · exact sendInternalRequest_eq [] h
  · exact onRequestError_eq .timeOut none h token

theorem onMulticastRequestExpired_eq (h : s.exchangeMap.find? key = some e)
    (token : e.request.token = key) :
    s.onMulticastRequestExpired key = s.apply key e.expire := by
  obtain ⟨s, rfl⟩ := setExchange_form h
  simp [onMulticastRequestExpired, ExchangeData.expire, apply, token]

theorem onRequestAborted_eq (h : s.exchangeMap.find? key = some e)
    (token : e.request.token = key) : s.onRequestAborted key = s.setExchange key none := by
  obtain ⟨s, rfl⟩ := setExchange_form h
  simp [onRequestAborted, token]

theorem onLastMessageReceived_eq (sender : Addr) (h : s.exchangeMap.find? key = some e)
    (token : e.request.token = key) :
    s.onLastMessageReceived key sender = s.apply key (e.finish sender) := by
  obtain ⟨s, rfl⟩ := setExchange_form h
  simp only [onLastMessageReceived, ExchangeData.finish]
  simp only [find?_setExchange, if_true, token, userReplyForToken_setExchange,
    repliesForToken_setExchange]
  cases user : e.userReply with
  | none => simp [apply]
  | some userReply =>
    cases e.replies.getLast? with
    | none => simp [apply]
    | some lastReply =>
      dsimp only
      split_ifs <;> simp [apply, setExchange, forgetExchange, forgetExchangeReplies, user]

theorem sendEmptyMessage_eq (type : MessageType) {reply : ReceivedReply Addr}
    (h : s.exchangeMap.find? key = some e) (token : e.request.token = key)
    (last : e.replies.getLast? = some reply) :
    s.sendEmptyMessage key type =
      .ok (emptyMessage e.request reply.message.messageId type) := by
  simp [sendEmptyMessage, h, token, lastReplyForToken, last, emptyMessage, bind, Except.bind]

theorem isMessageIdRegistered_setExchange {Addr : Type} {s : Protocol Addr} {e : ExchangeData Addr}
    (e' : ExchangeData Addr) (h : s.exchangeMap.find? key = some e)
    (same : e'.request.message.messageId = e.request.message.messageId) :
    (s.setExchange key (some e')).isMessageIdRegistered = s.isMessageIdRegistered := by
  funext id
  simp only [isMessageIdRegistered]
  congr 1
  apply Bool.eq_iff_iff.mpr
  rw [Framework.OrderedMap.any_iff, Framework.OrderedMap.any_iff]
  constructor
  · intro found
    obtain ⟨k, d, hd, hid⟩ := found
    rw [find?_setExchange] at hd
    split_ifs at hd with hk
    · obtain rfl := Option.some.inj hd
      exact ⟨key, e, h, same ▸ hid⟩
    · exact ⟨k, d, hd, hid⟩
  · intro found
    obtain ⟨k, d, hd, hid⟩ := found
    by_cases hk : k = key
    · subst hk
      obtain rfl : d = e := Option.some.inj (hd.symm.trans h)
      exact ⟨k, e', by simp, by rw [same]; exact hid⟩
    · exact ⟨k, d, by simp [hk, hd], hid⟩

theorem generateUniqueMessageId_setExchange {Addr : Type} {s : Protocol Addr}
    {e : ExchangeData Addr} (e' : ExchangeData Addr) (h : s.exchangeMap.find? key = some e)
    (same : e'.request.message.messageId = e.request.message.messageId) (draws : Draws) :
    (s.setExchange key (some e')).generateUniqueMessageId draws =
      s.generateUniqueMessageId draws := by
  simp only [generateUniqueMessageId]
  rw [isMessageIdRegistered_setExchange e' h same]

theorem sendNextBlock_eq (host : QString) (draws : Draws)
    (h : s.exchangeMap.find? key = some e) :
    s.sendNextBlock key host draws =
      (s.generateUniqueMessageId draws).map fun drawn =>
        s.apply key (e.resend e.request host drawn.1) := by
  simp only [sendNextBlock]
  cases s.generateUniqueMessageId draws with
  | error f => rfl
  | ok drawn =>
    obtain ⟨s, rfl⟩ := setExchange_form h
    have sent := sendInternalRequest_eq host
      (find?_setExchange_self s key { e with request := e.request.setMessageId drawn.1 })
    simp only [bind, Except.bind, Except.map, updateRequest_setExchange]
    rw [sent]
    simp [apply, ExchangeData.resend]

theorem continueExchange_eq (reply : ReceivedReply Addr) (draws : Draws)
    (h : s.exchangeMap.find? key = some e) (token : e.request.token = key) :
    s.continueExchange key reply reply.senderAddress draws =
      match ExchangeData.nextRequest s.blockSize reply e.request with
      | some (request, host) =>
        (s.generateUniqueMessageId draws).map fun drawn =>
          s.apply key (e.resend request host drawn.1)
      | none => .ok (s.apply key (e.finish reply.senderAddress)) := by
  have changed (f : InternalRequest → InternalRequest) (host : QString)
      (same : (f e.request).message.messageId = e.request.message.messageId) :
      (s.updateRequest key f).sendNextBlock key host draws =
        (s.generateUniqueMessageId draws).map fun drawn =>
          s.apply key (e.resend (f e.request) host drawn.1) := by
    have ids := generateUniqueMessageId_setExchange { e with request := f e.request } h same draws
    obtain ⟨s, rfl⟩ := setExchange_form h
    rw [setExchange_setExchange] at ids
    rw [updateRequest_setExchange,
      sendNextBlock_eq host draws (find?_setExchange_self s key { e with request := f e.request }),
      ids]
    simp [apply, ExchangeData.resend]
  simp only [continueExchange, ExchangeData.nextRequest]
  split_ifs with more_to_send more_to_receive
  · exact changed (·.setToSendBlock _ s.blockSize) [] (InternalRequest.messageId_setToSendBlock ..)
  · exact changed (·.setToRequestBlock _ reply.blockSize) _
      (InternalRequest.messageId_setToRequestBlock ..)
  · exact congrArg Except.ok (onLastMessageReceived_eq reply.senderAddress h token)

/-- The acknowledgement is taken from the reply stored last, which is the one just received. -/
theorem acknowledgeReply_eq {reply : ReceivedReply Addr} (h : s.exchangeMap.find? key = some e)
    (token : e.request.token = key) (last : e.replies.getLast? = some reply)
    {request : InternalRequest} (same : request.observeCancelled = e.request.observeCancelled) :
    s.acknowledgeReply key request reply =
      .ok (s.setExchange key (some e.dropObserve), e.acknowledge reply) := by
  rw [acknowledgeReply, ExchangeData.dropObserve, ExchangeData.acknowledge]
  rw [same]
  split_ifs with cancelled confirmable
  · have reset := sendEmptyMessage_eq .reset (find?_setExchange_self s key
      { e with request := e.request.removeOption OptionName.observe }) token last
    obtain ⟨s, rfl⟩ := setExchange_form h
    rw [setExchange_setExchange] at reset
    dsimp only
    rw [updateRequest_setExchange, setExchange_setExchange, sendReset, reset]
    rfl
  · rw [sendAcknowledgment, sendEmptyMessage_eq .acknowledgment h token last, setExchange_self h]
    rfl
  · rw [setExchange_self h]

theorem stored_eq (reply : ReceivedReply Addr) (h : s.exchangeMap.find? key = some e)
    (token : e.request.token = key) :
    (if e.request.isMulticast Addr then s
      else s.updateRequest key (InternalRequest.stopTransmission · Addr)).addReply
        e.request.token reply = s.setExchange key (some (e.store reply)) := by
  obtain ⟨s, rfl⟩ := setExchange_form h
  simp only [ExchangeData.store]
  rw [token]
  split_ifs <;> simp

/-- The handling of a frame, from its match on, is the reaction of the exchange it is matched
to. -/
theorem processReply_eq (reply : ReceivedReply Addr) (draws : Draws)
    (h : s.exchangeMap.find? key = some e) (token : e.request.token = key) :
    s.processReply key e.request reply reply.senderAddress draws =
      if reply.continues then
        (s.generateUniqueMessageId draws).map fun drawn =>
          s.apply key (e.receive s.blockSize reply drawn.1)
      else .ok (s.apply key (e.receive s.blockSize reply 0)) := by
  have stored_token : (e.store reply).request.token = key :=
    (ExchangeData.token_store reply).trans token
  have kept_token : (e.store reply).dropObserve.request.token = key :=
    ExchangeData.token_dropObserve.trans stored_token
  have last : (e.store reply).replies.getLast? = some reply := by simp [ExchangeData.store]
  have same_id : (e.store reply).dropObserve.request.message.messageId =
      e.request.message.messageId :=
    ExchangeData.messageId_dropObserve.trans (ExchangeData.messageId_store reply)
  simp only [processReply]
  rw [stored_eq reply h token]
  cases herr : isError reply.responseCode with
  | true =>
    rw [if_pos rfl, onRequestError_eq _ _ (find?_setExchange_self s key (e.store reply))
      stored_token]
    simp [ReceivedReply.continues, herr, ExchangeData.receive, apply, ExchangeData.fail]
  | false =>
    have acknowledged := acknowledgeReply_eq (find?_setExchange_self s key (e.store reply))
      stored_token last (ExchangeData.observeCancelled_store reply).symm
    have continued := continueExchange_eq reply draws
      (find?_setExchange_self s key (e.store reply).dropObserve) kept_token
    rw [generateUniqueMessageId_setExchange _ h same_id] at continued
    rw [setExchange_setExchange] at acknowledged
    have more := ExchangeData.nextRequest_isSome s.blockSize reply
      (e.store reply).dropObserve.request
    rw [if_neg Bool.false_ne_true, acknowledged]
    simp only [bind, Except.bind]
    rw [continued]
    simp only [ExchangeData.receive, ReceivedReply.continues]
    rw [herr, ← more]
    simp only [blockSize_setExchange]
    cases ExchangeData.nextRequest s.blockSize reply (e.store reply).dropObserve.request with
    | none => simp [apply]
    | some next =>
      cases s.generateUniqueMessageId draws with
      | error f => simp [Except.map]
      | ok drawn => simp [Except.map, apply]

theorem firstBlocks_eq {Addr : Type} {s : Protocol Addr} (id : ReplyId) (r : InternalRequest) :
    (let s' := s.registerExchange r.token id r
     let s' :=
       if 0 < s'.blockSize then s'.updateRequest r.token (·.setToRequestBlock 0 s'.blockSize)
       else s'
     if 0 < s'.blockSize ∧ s'.blockSize < r.message.payload.length
     then s'.updateRequest r.token (·.setToSendBlock 0 s'.blockSize) else s') =
      s.setExchange r.token
        (some { userReply := some id, request := r.firstBlocks s.blockSize }) := by
  have registered : s.registerExchange r.token id r =
      s.setExchange r.token (some { userReply := some id, request := r }) := rfl
  rw [registered]
  simp only [InternalRequest.firstBlocks]
  by_cases hb : 0 < s.blockSize <;> by_cases hp : s.blockSize < r.message.payload.length <;>
    simp [hb, hp]

theorem requestTimeout_setExchange {Addr : Type} {s : Protocol Addr}
    (o : Option (ExchangeData Addr)) (type : MessageType) (draws : Draws) :
    (s.setExchange key o).requestTimeout type draws = s.requestTimeout type draws := by
  cases o <;> rfl

theorem openExchange_eq (id : ReplyId) (r : InternalRequest) (draws : Draws) :
    s.openExchange id r draws =
      (s.requestTimeout r.message.type draws).map fun drawn =>
        s.apply r.token (ExchangeData.opened id r s.blockSize drawn.1) := by
  simp only [openExchange]
  have blocks := firstBlocks_eq (s := s) id r
  dsimp only at blocks ⊢
  rw [blocks, requestTimeout_setExchange]
  cases s.requestTimeout r.message.type draws with
  | error f => rfl
  | ok drawn =>
    simp only [bind, Except.bind, Except.map, updateRequest_setExchange]
    rw [sendInternalRequest_eq [] (find?_setExchange_self ..)]
    simp [apply, ExchangeData.opened]

end Protocol

end QtCoap
