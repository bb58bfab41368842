import QtCoap.Blockwise.Download
import QtCoap.Blockwise.Group
import QtCoap.Protocol.Multicast
import QtCoap.Protocol.Transmission

namespace QtCoap

variable {Addr : Type} [Platform Addr]

/-- A last block of the sender that is not its first one has been forwarded. -/
def Forwarded (replies : List (ReceivedReply Addr)) (sender : Addr) : Prop :=
  ∃ r ∈ replies, r.senderAddress = sender ∧ r.hasNextBlock = false ∧ 1 ≤ r.currentBlockNumber

instance (replies : List (ReceivedReply Addr)) (sender : Addr) :
    Decidable (Forwarded replies sender) :=
  inferInstanceAs (Decidable (∃ r ∈ replies, _))

theorem Forwarded.mono {Addr : Type} {replies replies' : List (ReceivedReply Addr)} {sender : Addr}
    (h : Forwarded replies sender) (kept : replies ⊆ replies') : Forwarded replies' sender := by
  obtain ⟨r, hr, last⟩ := h
  exact ⟨r, kept hr, last⟩

/-- The servers that a request reaches have sent all blocks below the one it asks for. -/
structure Prepared (group : Group Addr) (name : QString) (replies : List (ReceivedReply Addr))
    (request : Message × QString) : Prop where
  small : askedBlock request.1 < 2 ^ 20
  stored : ∀ sender, group sender ≠ none → Group.Reaches name request sender →
    ∀ k < askedBlock request.1, ∃ r ∈ replies, r.senderAddress = sender ∧ r.currentBlockNumber = k

theorem Prepared.mono {group : Group Addr} {name : QString}
    {replies replies' : List (ReceivedReply Addr)} {request : Message × QString}
    (h : Prepared group name replies request) (kept : replies ⊆ replies') :
    Prepared group name replies' request := by
  refine ⟨h.small, ?_⟩
  intro sender listens reaches k below
  obtain ⟨r, hr, own⟩ := h.stored sender listens reaches k below
  exact ⟨r, kept hr, own⟩

/-- What a multicast exchange keeps to: as long as no last block of a server has been forwarded,
only blocks of what it serves are stored for it. -/
structure Gathering (group : Group Addr) (name : QString) (id : ReplyId) (e : ExchangeData Addr) :
    Prop where
  multicasts : e.Multicasts id
  name : e.request.targetUri.host = name
  asked : askedBlock e.request.message < 2 ^ 20
  small : ∀ r ∈ e.replies, r.currentBlockNumber < 2 ^ 20
  blocks : ∀ sender, ∀ responder ∈ group sender, ¬ Forwarded e.replies sender →
    ∀ r ∈ e.replies, r.senderAddress = sender →
      r.message.payload = responder.served.block r.currentBlockNumber

namespace Gathering

variable {group : Group Addr} {name : QString} {id : ReplyId} {e e' : ExchangeData Addr}
  {reply : ReceivedReply Addr} {responder : Responder} {blockSize : Nat} {messageId : UInt16}

/-- One more reply is stored: a block, unless the last one has been forwarded. -/
theorem append (h : Gathering group name id e) (last : ReceivedReply Addr)
    (multicasts : e'.Multicasts id)
    (host : e'.request.targetUri.host = e.request.targetUri.host)
    (asked : askedBlock e'.request.message < 2 ^ 20) (replies : e'.replies = e.replies ++ [last])
    (small : last.currentBlockNumber < 2 ^ 20)
    (block : ∀ responder ∈ group last.senderAddress, ¬ Forwarded e'.replies last.senderAddress →
      last.message.payload = responder.served.block last.currentBlockNumber) :
    Gathering group name id e' := by
  refine ⟨multicasts, host.trans h.name, asked, ?_, ?_⟩
  · intro r hr
    rcases List.mem_append.mp (replies ▸ hr) with old | new
    · exact h.small r old
    · rw [List.mem_singleton.mp new]
      exact small
  · intro sender responder listens fresh r hr own
    have before : ¬ Forwarded e.replies sender := by
      intro forwarded
      exact fresh (forwarded.mono (replies ▸ List.subset_append_left _ _))
    rcases List.mem_append.mp (replies ▸ hr) with old | new
    · exact h.blocks sender responder listens before r old own
    · obtain rfl := List.mem_singleton.mp new
      subst own
      exact block responder listens fresh

theorem of_same (h : Gathering group name id e) (multicasts : e'.Multicasts id)
    (host : e'.request.targetUri.host = e.request.targetUri.host)
    (asked : askedBlock e'.request.message < 2 ^ 20) (replies : e'.replies = e.replies) :
    Gathering group name id e' := by
  refine ⟨multicasts, host.trans h.name, asked, ?_, ?_⟩
  · rw [replies]
    exact h.small
  · rw [replies]
    exact h.blocks

theorem passes (h : Gathering group name id e) (passes : e.Passes e')
    (user : e'.userReply = some id) : Gathering group name id e' := by
  refine h.of_same ⟨?_, ?_, user⟩ ?_ ?_ passes.replies
  · rw [InternalRequest.isMulticast_of_identity Addr passes.identity]
    exact h.multicasts.multicast
  · rw [passes.message]
    exact h.multicasts.noObserve
  · rw [InternalRequest.targetUri_of_identity passes.identity]
  · rw [passes.message]
    exact h.asked

/-- With the last block all of the representation is there. -/
theorem whole (h : Gathering group name id e) (listens : responder ∈ group reply.senderAddress)
    (fresh : ¬ Forwarded e.replies reply.senderAddress) (small : reply.currentBlockNumber < 2 ^ 20)
    (payload : reply.message.payload = responder.served.block reply.currentBlockNumber)
    (stored : ∀ k < reply.currentBlockNumber, ∃ r ∈ e.replies,
      r.senderAddress = reply.senderAddress ∧ r.currentBlockNumber = k)
    (final : responder.served.representation.length ≤
      (reply.currentBlockNumber + 1) * responder.served.size) :
    (e.forwarded reply).message.payload = responder.server.representation := by
  have mine : ∀ r ∈ (e.replies ++ [reply]).filter
      (fun r => r.senderAddress = reply.senderAddress),
      r = reply ∨ r ∈ e.replies ∧ r.senderAddress = reply.senderAddress := by
    intro r hr
    obtain ⟨listed, own⟩ := List.mem_filter.mp hr
    rcases List.mem_append.mp listed with old | new
    · exact .inr ⟨old, of_decide_eq_true own⟩
    · exact .inl (List.mem_singleton.mp new)
  rw [ExchangeData.forwarded, payload_assembled_multicast e.replies (by omega),
    ← responder.representation_served]
  refine mergedPayload_of_blocks (n := reply.currentBlockNumber + 1) ?_ ?_ ?_ final (by omega)
  · intro r hr
    rcases mine r hr with rfl | ⟨old, -⟩
    · omega
    · have inside := h.small r old
      omega
  · intro r hr
    rcases mine r hr with rfl | ⟨old, own⟩
    · exact payload
    · exact h.blocks _ responder listens fresh r old own
  · intro k below
    by_cases own : k = reply.currentBlockNumber
    · exact ⟨reply, by simp, own.symm⟩
    · obtain ⟨r, hr, sender, number⟩ := stored k (by omega)
      exact ⟨r, by simp [hr, sender], number⟩

end Gathering

/-- A reply is a block of what its sender serves, whose blocks below are stored. -/
structure IsNext (group : Group Addr) (replies : List (ReceivedReply Addr))
    (reply : ReceivedReply Addr) (responder : Responder) : Prop where
  listens : responder ∈ group reply.senderAddress
  success : isSuccess reply.responseCode = true
  noBlock1 : reply.hasMoreBlocksToSend (Platform.junk Addr) = false
  small : reply.currentBlockNumber < 2 ^ 20
  payload : reply.message.payload = responder.served.block reply.currentBlockNumber
  more : reply.hasNextBlock = decide ((reply.currentBlockNumber + 1) * responder.served.size <
    responder.served.representation.length)
  stored : ∀ k < reply.currentBlockNumber, ∃ r ∈ replies,
    r.senderAddress = reply.senderAddress ∧ r.currentBlockNumber = k

section Answers

variable {group : Group Addr} {name : QString} {requests : List (Message × QString)}
  {replies : List (ReceivedReply Addr)} {reply : ReceivedReply Addr} {data : QByteArray}

theorem isNext_of_answers
    (answers : group.Answers name requests reply.senderAddress reply.toInternalReply)
    (prepared : ∀ request ∈ requests, Prepared group name replies request)
    (decoded : createFromFrame (Platform.junk Addr) data = .ok reply.toInternalReply) :
    (∃ responder, IsNext group replies reply responder) ∨
      isError reply.responseCode = false ∧ reply.continues = false ∧
        reply.isEmptyAcknowledgment = true ∧ isSuccess reply.responseCode = false := by
  obtain ⟨responder, listens, request, asked, reaches, ⟨-, carried, noBlock1⟩ | acknowledges⟩ :=
    answers
  · left
    obtain ⟨below, small, payload, more⟩ := responder.block_fields carried decoded
    refine ⟨responder, listens, carried.success,
      InternalReply.hasMoreBlocksToSend_of_none noBlock1 _, small, payload, more, ?_⟩
    intro k hk
    have known : group reply.senderAddress ≠ none := by
      rw [listens]
      simp
    exact (prepared request asked).stored _ known reaches k (by omega)
  · right
    have code := acknowledges.code
    refine ⟨by rw [code]; rfl, acknowledges.continues decoded, ?_, by rw [code]; rfl⟩
    simp [ReceivedReply.isEmptyAcknowledgment, acknowledges.type, code]

theorem IsNext.continues {responder : Responder} (h : IsNext group replies reply responder) :
    reply.continues = reply.hasNextBlock := by
  simp [ReceivedReply.continues, not_isError_of_isSuccess h.success, h.noBlock1,
    InternalReply.hasMoreBlocksToReceive]

theorem IsNext.notEmpty {responder : Responder} (h : IsNext group replies reply responder) :
    reply.isEmptyAcknowledgment = false := by
  have success := h.success
  simp only [ReceivedReply.isEmptyAcknowledgment, decide_eq_false_iff_not]
  rintro ⟨-, empty⟩
  rw [empty] at success
  cases success

end Answers

namespace Gathering

variable {group : Group Addr} {name : QString} {id : ReplyId} {e e' : ExchangeData Addr}
  {reply : ReceivedReply Addr} {responder : Responder} {blockSize : Nat} {messageId : UInt16}

/-- A block that is not the last one is stored, and the next one is asked for. -/
theorem receive_next (h : Gathering group name id e)
    (block : IsNext group e.replies reply responder) (more : reply.hasNextBlock = true)
    (left : (e.receive blockSize reply messageId).1 = some e') :
    Gathering group name id e' ∧ e'.replies = e.replies ++ [reply] ∧
      askedBlock e'.request.message ≤ reply.currentBlockNumber + 1 := by
  have continues := block.continues.trans more
  have kept := (ExchangeData.receive_kept left).1
  have replies := ExchangeData.receive_replies left
  rw [if_pos continues] at replies
  have asked : askedBlock e'.request.message < 2 ^ 20 ∧
      askedBlock e'.request.message ≤ reply.currentBlockNumber + 1 := by
    obtain ⟨-, ⟨q, host, next, rfl⟩ | ⟨none, -⟩⟩ := ExchangeData.receive_left left
    · rw [ExchangeData.nextRequest_of_noBlock1 block.noBlock1, if_pos more] at next
      obtain ⟨rfl, rfl⟩ := Prod.mk.inj (Option.some.inj next)
      dsimp only
      rw [message_transmit]
      have before := h.asked
      rw [← ExchangeData.askedBlock_stored e reply] at before
      exact ExchangeData.askedBlock_next _ before block.small _
    · rw [ExchangeData.nextRequest_of_noBlock1 block.noBlock1, if_pos more] at none
      cases none
  refine ⟨?_, replies, asked.2⟩
  refine h.append reply (h.multicasts.left left) ?_ asked.1 replies block.small ?_
  · rw [InternalRequest.targetUri_of_identity kept.identity]
  · intro responder' listens _
    have same : responder = responder' := Option.some.inj (block.listens.symm.trans listens)
    rw [← same]
    exact block.payload

/-- With the last block the representation is forwarded, once. -/
theorem receive_last (h : Gathering group name id e)
    (block : IsNext group e.replies reply responder) (last : reply.hasNextBlock = false)
    (fresh : ¬ Forwarded e.replies reply.senderAddress) :
    (e.forwarded reply).message.payload = responder.server.representation ∧
      ∃ e', e.receive blockSize reply messageId =
        (some e', (e.store reply).acknowledge reply ++
          [.post id (.setContent reply.senderAddress (e.forwarded reply).message
            reply.responseCode),
          .responseToMulticastReceived id (e.forwarded reply).message reply.senderAddress]) ∧
        Gathering group name id e' ∧ e.replies ⊆ e'.replies := by
  have noError := not_isError_of_isSuccess block.success
  have final : responder.served.representation.length ≤
      (reply.currentBlockNumber + 1) * responder.served.size := by
    have more := block.more
    rw [last] at more
    simpa using more.symm
  have payload := h.whole block.listens fresh block.small block.payload block.stored final
  have received : e.receive blockSize reply messageId = _ :=
    h.multicasts.receive_last noError (block.continues.trans last) block.notEmpty
  have left := congrArg Prod.fst received
  have kept := (ExchangeData.receive_kept left).1
  obtain ⟨number, more⟩ := block_fields_assembled true (e.replies ++ [reply]) reply
    reply.senderAddress
  refine ⟨payload, _, received, ?_, List.subset_append_left _ _⟩
  refine h.append (e.forwarded reply) (h.multicasts.left left) ?_ ?_ rfl ?_ ?_
  · rw [InternalRequest.targetUri_of_identity kept.identity]
  · dsimp only
    rw [ExchangeData.askedBlock_stored]
    exact h.asked
  · rw [ExchangeData.forwarded, number]
    exact block.small
  · intro responder' listens notForwarded
    rw [ExchangeData.forwarded, senderAddress_assembled] at listens notForwarded
    have same : responder = responder' := Option.some.inj (block.listens.symm.trans listens)
    rw [← same, payload]
    -- otherwise this reply is a last block that has been forwarded
    have first : reply.currentBlockNumber = 0 := by
      by_contra later
      refine notForwarded ⟨_, List.mem_append_right _ (List.mem_singleton_self _),
        senderAddress_assembled .., more.trans last, ?_⟩
      rw [number]
      omega
    rw [first] at final
    rw [ExchangeData.forwarded, number, first, ← responder.representation_served]
    simp only [BlockServer.block, Framework.block]
    rw [Nat.zero_mul, List.drop_zero, List.take_of_length_le (by omega)]

/-- After an empty Acknowledgment everything is as before. -/
theorem receive_acknowledgment (h : Gathering group name id e)
    (noError : isError reply.responseCode = false) (final : reply.continues = false)
    (empty : reply.isEmptyAcknowledgment = true)
    (left : (e.receive blockSize reply messageId).1 = some e') :
    Gathering group name id e' ∧ e'.replies = e.replies := by
  have received : e.receive blockSize reply messageId = _ :=
    h.multicasts.receive_acknowledgment noError final empty
  have host := InternalRequest.targetUri_of_identity (ExchangeData.receive_kept left).1.identity
  have multicasts := h.multicasts.left left
  rw [received] at left
  obtain rfl := Option.some.inj left
  refine ⟨h.of_same multicasts (by rw [host]) ?_ rfl, rfl⟩
  dsimp only
  rw [ExchangeData.askedBlock_stored]
  exact h.asked

end Gathering

/-- When the block is stored, its server is prepared for the request for the next one. -/
theorem IsNext.prepared {group : Group Addr} {name : QString}
    {replies : List (ReceivedReply Addr)} {reply : ReceivedReply Addr} {responder : Responder}
    (h : IsNext group replies reply responder) (named : group.Named name) {message : Message}
    (small : askedBlock message < 2 ^ 20)
    (asked : askedBlock message ≤ reply.currentBlockNumber + 1) :
    Prepared group name (replies ++ [reply]) (message, Platform.toString reply.senderAddress) := by
  have known : group reply.senderAddress ≠ none := by
    rw [h.listens]
    simp
  refine ⟨small, ?_⟩
  intro sender listens reaches k below
  dsimp only at below
  have own : sender = reply.senderAddress := by
    rcases reaches with group_name | own_name
    · exact absurd group_name (named.name_ne known).1
    · exact (named.distinct known listens own_name).symm
  rw [own]
  by_cases last : k = reply.currentBlockNumber
  · exact ⟨reply, by simp, rfl, last.symm⟩
  · obtain ⟨r, hr, stored⟩ := h.stored k (by omega)
    exact ⟨r, by simp [hr], stored⟩

/-- Without Block1 options a request that follows a reply goes to where that came from. -/
theorem ExchangeData.receive_host {e : ExchangeData Addr} {reply : ReceivedReply Addr}
    {blockSize : Nat} {messageId : UInt16} (noError : isError reply.responseCode = false)
    (noBlock1 : reply.hasMoreBlocksToSend (Platform.junk Addr) = false)
    (named : Platform.toString reply.senderAddress ≠ []) {message : Message} {method : Method}
    {connection : ConnectionId} {host : QString} {port : UInt16} (token : message.token ≠ [])
    (sent : .frame message method connection host port ∈ (e.receive blockSize reply messageId).2) :
    reply.hasNextBlock = true ∧ host = Platform.toString reply.senderAddress := by
  have acknowledged : Output.frame message method connection host port ∉
      (e.store reply).acknowledge reply := by
    intro answered
    obtain ⟨_, _, _, _, _, same, empty⟩ := mem_acknowledge answered
    cases same
    exact token empty
  have follows := nextRequest_of_noBlock1 noBlock1 blockSize (e.store reply).dropObserve.request
  cases more : reply.hasNextBlock with
  | true =>
    rw [more, if_pos rfl] at follows
    rw [receive_of_next e noError follows, List.mem_append] at sent
    have target := (destination_mem_transmit (sent.resolve_left acknowledged)).2.2
    rw [if_neg (by simpa using named)] at target
    exact ⟨rfl, target⟩
  | false =>
    rw [more, if_neg (by simp)] at follows
    rw [receive_of_last e noError follows, List.mem_append] at sent
    exact absurd (sent.resolve_left acknowledged) (frame_not_mem_finish _ _ _ _ _ _ _)

/-- A frame that goes out is the request that is left, sent to the host of the reply. -/
theorem ExchangeData.sentTo_receive {e e' : ExchangeData Addr} {reply : ReceivedReply Addr}
    {blockSize : Nat} {messageId : UInt16} {token : Token} (token_ne : token ≠ [])
    (noError : isError reply.responseCode = false)
    (noBlock1 : reply.hasMoreBlocksToSend (Platform.junk Addr) = false)
    (named : Platform.toString reply.senderAddress ≠ [])
    (left : (e.receive blockSize reply messageId).1 = some e') {request : Message × QString}
    (hr : request ∈ sentTo token (e.receive blockSize reply messageId).2) :
    reply.hasNextBlock = true ∧
      request = (e'.request.message, Platform.toString reply.senderAddress) := by
  obtain ⟨own, method, connection, port, frame⟩ := mem_sentTo hr
  have sent_ne : request.1.token ≠ [] := by
    rw [own]
    exact token_ne
  obtain ⟨more, host⟩ := receive_host noError noBlock1 named sent_ne frame
  refine ⟨more, Prod.ext ?_ host⟩
  rcases (issues_receive frame).2 _ _ _ _ _ rfl with empty | ⟨e'', left', same⟩
  · exact absurd empty sent_ne
  · rw [left] at left'
    rw [Option.some.inj left']
    exact same

/-- A new exchange sends only its own request. -/
theorem ExchangeData.sentTo_opened {token : Token} (id : ReplyId) (r : InternalRequest)
    (blockSize timeout : Nat) (other : r.token ≠ token) :
    sentTo token (opened id r blockSize timeout : Reaction Addr).2 = [] := by
  apply sentTo_eq_nil
  intro message method connection host port sent own
  rcases List.mem_cons.mp sent with running | sent
  · cases running
  · have same : message.token = r.token := by
      rw [frame_mem_transmit sent]
      exact InternalRequest.token_of_identity (firstBlocks_kept r blockSize).1
    exact other (same.symm.trans own)

/-- Nothing with this token goes out when another exchange reacts. -/
theorem ExchangeData.Reacts.sentTo_eq_nil {s t : Protocol Addr} {k token : Token}
    {e : ExchangeData Addr} {event : Event Addr} {reaction : Reaction Addr}
    {os : List (Output Addr)} (reacts : ExchangeData.Reacts s k e event reaction)
    (after : (t, os) = s.apply k reaction) (consistent : t.Consistent) (token_ne : token ≠ [])
    (other : k ≠ token) : sentTo token os = [] := by
  obtain ⟨target, outputs⟩ := Prod.mk.inj after
  apply QtCoap.sentTo_eq_nil
  intro message method connection host port sent own
  rw [outputs] at sent
  rcases (reacts.issues sent).2 _ _ _ _ _ rfl with empty | ⟨left, stays, same⟩
  · exact token_ne (own.symm.trans empty)
  · have stored : t.exchangeMap.find? k = some left := by
      rw [target, Protocol.find?_setExchange, if_pos rfl]
      exact stays
    have token' := (consistent.registered stored).token
    exact other (token'.symm.trans ((congrArg Message.token same).symm.trans own))

end QtCoap
