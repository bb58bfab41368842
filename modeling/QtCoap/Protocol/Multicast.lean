import QtCoap.Protocol.Reactions

namespace QtCoap

variable {Addr : Type} [Platform Addr]

/-- The empty Acknowledgment that announces a separate response. -/
def ReceivedReply.isEmptyAcknowledgment (reply : ReceivedReply Addr) : Bool :=
  reply.message.type = .acknowledgment ∧ reply.responseCode = ResponseCode.emptyMessage

@[simp] theorem senderAddress_assembled (multicast : Bool) (replies : List (ReceivedReply Addr))
    (reply : ReceivedReply Addr) (sender : Addr) :
    (assembled multicast replies reply sender).senderAddress = reply.senderAddress := by
  simp only [assembled]
  split_ifs <;> rfl

@[simp] theorem responseCode_assembled (multicast : Bool) (replies : List (ReceivedReply Addr))
    (reply : ReceivedReply Addr) (sender : Addr) :
    (assembled multicast replies reply sender).responseCode = reply.responseCode := by
  simp only [assembled]
  split_ifs <;> rfl

@[simp] theorem block_fields_assembled (multicast : Bool) (replies : List (ReceivedReply Addr))
    (reply : ReceivedReply Addr) (sender : Addr) :
    (assembled multicast replies reply sender).currentBlockNumber = reply.currentBlockNumber ∧
      (assembled multicast replies reply sender).hasNextBlock = reply.hasNextBlock := by
  simp only [assembled]
  split_ifs <;> exact ⟨rfl, rfl⟩

/-- The message that is handed to the user reply `id`, and the host it is from. -/
def Output.response? (id : ReplyId) : Output Addr → Option (Addr × Message)
  | .post id' (.setContent sender message _) => if id' = id then some (sender, message) else none
  | .responseToMulticastReceived id' message sender =>
    if id' = id then some (sender, message) else none
  | _ => none

theorem Output.isResponse_of_response? {Addr : Type} {id : ReplyId} {o : Output Addr}
    {response : Addr × Message} (h : o.response? id = some response) : o.isResponse = true := by
  cases o with
  | post id' slot =>
    cases slot with
    | setContent sender message code => rfl
    | _ => cases h
  | responseToMulticastReceived id' message sender => rfl
  | _ => cases h

namespace ExchangeData

/-- Without Block1 options a block request asks for the block after the one that came in, from the
host it came from. -/
theorem nextRequest_of_noBlock1 {reply : ReceivedReply Addr}
    (noBlock1 : reply.hasMoreBlocksToSend (Platform.junk Addr) = false) (blockSize : Nat)
    (r : InternalRequest) :
    nextRequest blockSize reply r =
      if reply.hasNextBlock then
        some (r.setToRequestBlock ((reply.currentBlockNumber + 1) % 2 ^ 32) reply.blockSize,
          Platform.toString reply.senderAddress)
      else none := by
  simp only [nextRequest, noBlock1, InternalReply.hasMoreBlocksToReceive]
  rfl

/-- That asks for no block behind the next one. -/
theorem askedBlock_next (r : InternalRequest) (asked : askedBlock r.message < 2 ^ 20)
    {number : Nat} (small : number < 2 ^ 20) (size : Nat) :
    askedBlock (r.setToRequestBlock ((number + 1) % 2 ^ 32) size).message < 2 ^ 20 ∧
      askedBlock (r.setToRequestBlock ((number + 1) % 2 ^ 32) size).message ≤ number + 1 := by
  have next : (number + 1) % 2 ^ 32 = number + 1 := Nat.mod_eq_of_lt (by omega)
  rw [next]
  by_cases limit : number + 1 < 2 ^ 20
  · rw [r.askedBlock_setToRequestBlock size limit]
    omega
  · rw [r.setToRequestBlock_of_large size limit]
    omega

theorem askedBlock_stored (e : ExchangeData Addr) (reply : ReceivedReply Addr) :
    askedBlock (e.store reply).dropObserve.request.message = askedBlock e.request.message := by
  simp only [askedBlock]
  rcases optionsNamed_dropObserve (e.store reply) OptionName.block2 with kept | ⟨-, other, -⟩
  · rw [kept, message_store]
  · cases other

/-- Only the exchange of a reply hands it messages. -/
theorem userReply_of_response? {e : ExchangeData Addr} {id : ReplyId} {o : Output Addr}
    {blockSize : Nat} {reply : ReceivedReply Addr} {messageId : UInt16} {response : Addr × Message}
    (out : o ∈ (e.receive blockSize reply messageId).2) (h : o.response? id = some response) :
    e.userReply = some id := by
  have posts := (issues_receive out).1
  cases o with
  | post id' slot =>
    have own := posts id' slot rfl
    cases slot with
    | setContent sender message code =>
      simp only [Output.response?] at h
      split_ifs at h with same
      rw [own, same]
    | _ => cases h
  | responseToMulticastReceived id' message sender =>
    simp only [Output.response?] at h
    split_ifs at h with same
    subst same
    have acknowledged : Output.responseToMulticastReceived id' message sender ∉
        (e.store reply).acknowledge reply := by
      intro answered
      obtain ⟨_, _, _, _, _, other, -⟩ := mem_acknowledge answered
      cases other
    cases error : isError reply.responseCode with
    | true =>
      rw [receive_of_error e error] at out
      simp only [fail, errorPosts] at out
      cases user : (e.store reply).userReply <;> simp [user] at out
    | false =>
      cases next : nextRequest blockSize reply (e.store reply).dropObserve.request with
      | some changed =>
        rw [receive_of_next e error next, List.mem_append] at out
        obtain ⟨_, _, _, _, other⟩ := mem_transmit (out.resolve_left acknowledged)
        cases other
      | none =>
        rw [receive_of_last e error next, List.mem_append] at out
        have finished := out.resolve_left acknowledged
        simp only [finish] at finished
        rw [last_dropObserve_store] at finished
        have before := continues_stored e reply
        cases user : (e.store reply).dropObserve.userReply with
        | none => simp [user] at finished
        | some own =>
          rw [user] at finished
          dsimp only at finished
          split_ifs at finished with cancelled empty observe multicast
          · cases finished
          · cases finished
          · simp at finished
          · obtain ⟨rfl, -⟩ : id' = own ∧ _ := by simpa using finished
            rw [← before.userReply, user]
          · simp at finished
  | _ => cases h

theorem response?_acknowledge {e : ExchangeData Addr} {id : ReplyId} {o : Output Addr}
    {reply : ReceivedReply Addr} (out : o ∈ e.acknowledge reply) : o.response? id = none := by
  obtain ⟨_, _, _, _, _, rfl, -⟩ := mem_acknowledge out
  rfl

/-- No message is handed on while blocks are missing. -/
theorem response?_of_continues {e : ExchangeData Addr} {id : ReplyId} {o : Output Addr}
    {blockSize : Nat} {reply : ReceivedReply Addr} {messageId : UInt16}
    (continues : reply.continues = true) (out : o ∈ (e.receive blockSize reply messageId).2) :
    o.response? id = none := by
  obtain ⟨request, host, received⟩ := e.receive_of_continues continues
  rw [received, List.mem_append] at out
  rcases out with acknowledged | sent
  · exact response?_acknowledge acknowledged
  · obtain ⟨_, _, _, _, rfl⟩ := mem_transmit sent
    rfl

/-- A multicast exchange that is no observation, of a living reply. -/
structure Multicasts (e : ExchangeData Addr) (id : ReplyId) : Prop where
  multicast : e.request.isMulticast Addr = true
  noObserve : e.request.message.optionsNamed OptionName.observe = []
  user : e.userReply = some id

variable {e : ExchangeData Addr} {id : ReplyId} {reply : ReceivedReply Addr} {blockSize : Nat}
  {messageId : UInt16}

/-- The response that is forwarded for a last message. -/
def forwarded (e : ExchangeData Addr) (reply : ReceivedReply Addr) : ReceivedReply Addr :=
  assembled true (e.replies ++ [reply]) reply reply.senderAddress

namespace Multicasts

theorem stored (h : e.Multicasts id) (reply : ReceivedReply Addr) :
    (e.store reply).dropObserve.Multicasts id := by
  have same := continues_stored e reply
  refine ⟨?_, ?_, same.userReply.trans h.user⟩
  · rw [InternalRequest.isMulticast_of_identity Addr same.identity]
    exact h.multicast
  · rcases optionsNamed_dropObserve (e.store reply) OptionName.observe with kept | ⟨-, -, gone⟩
    · rw [kept, message_store]
      exact h.noObserve
    · exact gone

theorem isObserve (h : e.Multicasts id) : e.request.isObserve = false := by
  simp only [InternalRequest.isObserve]
  rw [Message.hasOption_eq, h.noObserve]
  rfl

/-- A reply leaves it a multicast exchange. -/
theorem left (h : e.Multicasts id) {e' : ExchangeData Addr}
    (left : (e.receive blockSize reply messageId).1 = some e') : e'.Multicasts id := by
  have continues := (receive_kept left).1
  refine ⟨?_, ?_, continues.userReply.trans h.user⟩
  · rw [InternalRequest.isMulticast_of_identity Addr continues.identity]
    exact h.multicast
  · rcases @receive_options _ _ _ _ _ _ _ left OptionName.observe (by decide) (by decide) with
      kept | ⟨-, -, gone⟩
    · exact kept.trans h.noObserve
    · exact gone

/-- The last message of a responder is forwarded, and stays stored the way it was forwarded. -/
theorem receive_last (h : e.Multicasts id) (noError : isError reply.responseCode = false)
    (final : reply.continues = false) (notEmpty : reply.isEmptyAcknowledgment = false) :
    e.receive blockSize reply messageId =
      (some { (e.store reply).dropObserve with replies := e.replies ++ [e.forwarded reply] },
        (e.store reply).acknowledge reply ++
          [.post id (.setContent reply.senderAddress (e.forwarded reply).message
            reply.responseCode),
          .responseToMulticastReceived id (e.forwarded reply).message reply.senderAddress]) := by
  have stored := h.stored reply
  have other : ¬ (reply.message.type = .acknowledgment ∧
      reply.responseCode = ResponseCode.emptyMessage) := of_decide_eq_false notEmpty
  rw [receive_of_final e noError final]
  have finished : (e.store reply).dropObserve.finish reply.senderAddress =
      (some { (e.store reply).dropObserve with replies := e.replies ++ [e.forwarded reply] },
        [.post id (.setContent reply.senderAddress (e.forwarded reply).message
            reply.responseCode),
          .responseToMulticastReceived id (e.forwarded reply).message reply.senderAddress]) := by
    simp only [finish]
    rw [last_dropObserve_store, stored.user]
    dsimp only
    rw [if_neg (by simp [stored.isObserve]), if_neg other, if_neg (by simp [stored.isObserve]),
      if_pos stored.multicast, replies_stored, stored.multicast, List.dropLast_concat]
    simp [forwarded]
  rw [finished]

/-- An empty Acknowledgment is forgotten. -/
theorem receive_acknowledgment (h : e.Multicasts id) (noError : isError reply.responseCode = false)
    (final : reply.continues = false) (empty : reply.isEmptyAcknowledgment = true) :
    e.receive blockSize reply messageId =
      (some { (e.store reply).dropObserve with replies := e.replies },
        (e.store reply).acknowledge reply) := by
  have stored := h.stored reply
  have own : reply.message.type = .acknowledgment ∧
      reply.responseCode = ResponseCode.emptyMessage := of_decide_eq_true empty
  rw [receive_of_final e noError final]
  have finished : (e.store reply).dropObserve.finish reply.senderAddress =
      (some { (e.store reply).dropObserve with replies := e.replies }, []) := by
    simp only [finish]
    rw [last_dropObserve_store, stored.user]
    dsimp only
    rw [if_neg (by simp [stored.isObserve]), if_pos own, replies_stored, List.dropLast_concat]
  rw [finished, List.append_nil]

end Multicasts

end ExchangeData

end QtCoap
