import QtCoap.Blockwise.Merging
import QtCoap.Blockwise.Network
import QtCoap.Protocol.Reactions

namespace QtCoap

variable {Addr : Type} [Platform Addr]

/-- All blocks below the one that a request asks for are stored. -/
structure Follows (replies : List (ReceivedReply Addr)) (request : Message) : Prop where
  small : askedBlock request < 2 ^ 20
  stored : ∀ k < askedBlock request, ∃ r ∈ replies, r.currentBlockNumber = k

theorem Follows.mono {Addr : Type} {replies replies' : List (ReceivedReply Addr)}
    {request : Message} (h : Follows replies request) (kept : replies ⊆ replies') :
    Follows replies' request := by
  refine ⟨h.small, ?_⟩
  intro k below
  obtain ⟨r, hr, number⟩ := h.stored k below
  exact ⟨r, kept hr, number⟩

theorem Acknowledges.continues {request : Message} {reply : ReceivedReply Addr}
    (h : Acknowledges request reply.toInternalReply) {data : QByteArray}
    (decoded : createFromFrame (Platform.junk Addr) data = .ok reply.toInternalReply) :
    reply.continues = false := by
  have last : reply.hasMoreBlocksToReceive = false := h.hasNextBlock (Platform.junk Addr) decoded
  simp [ReceivedReply.continues, h.hasMoreBlocksToSend, last]

/-- An empty Acknowledgment is stored and taken out again. -/
theorem ExchangeData.receive_acknowledgment {e e' : ExchangeData Addr} {request : Message}
    {reply : ReceivedReply Addr} (acknowledges : Acknowledges request reply.toInternalReply)
    {data : QByteArray}
    (decoded : createFromFrame (Platform.junk Addr) data = .ok reply.toInternalReply)
    {blockSize : Nat} {messageId : UInt16}
    (left : (e.receive blockSize reply messageId).1 = some e') : e'.replies = e.replies := by
  rw [receive_replies left, if_neg (by simp [acknowledges.continues decoded]),
    if_pos ⟨acknowledges.type, acknowledges.code⟩]

/-- What a download keeps to: only blocks of the representation are stored, and a block is
requested after those below it. -/
structure Downloading (server : BlockServer) (e : ExchangeData Addr) : Prop where
  unicast : e.request.isMulticast Addr = false
  noObserve : e.request.message.optionsNamed OptionName.observe = []
  observeCancelled : e.request.observeCancelled = false
  small : ∀ r ∈ e.replies, r.currentBlockNumber < 2 ^ 20
  blocks : ∀ r ∈ e.replies, r.message.payload = server.block r.currentBlockNumber
  follows : Follows e.replies e.request.message

namespace Downloading

variable {server : BlockServer} {e e' : ExchangeData Addr} {reply : ReceivedReply Addr}
  {request : Message} {k blockSize : Nat} {messageId : UInt16}

theorem isObserve (h : Downloading server e) : e.request.isObserve = false := by
  simp only [InternalRequest.isObserve]
  rw [Message.hasOption_eq, h.noObserve]
  rfl

/-- An exchange that goes on with the same message and the same replies downloads on. -/
theorem of_same (h : Downloading server e) (identity : e'.request.identity = e.request.identity)
    (cancelled : e'.request.observeCancelled = e.request.observeCancelled)
    (message : e'.request.message = e.request.message) (replies : e'.replies = e.replies) :
    Downloading server e' := by
  constructor
  · rw [InternalRequest.isMulticast_of_identity Addr identity]
    exact h.unicast
  · rw [message]
    exact h.noObserve
  · rw [cancelled]
    exact h.observeCancelled
  · rw [replies]
    exact h.small
  · rw [replies]
    exact h.blocks
  · rw [replies, message]
    exact h.follows

theorem passes (h : Downloading server e) (passes : e.Passes e') : Downloading server e' := by
  apply h.of_same passes.identity _ passes.message passes.replies
  rcases passes.request with same | ⟨observe, -⟩
  · rw [same]
  · rw [h.isObserve] at observe
    cases observe

theorem dropObserve_store (h : Downloading server e) (reply : ReceivedReply Addr) :
    (e.store reply).dropObserve = e.store reply := by
  have same := (ExchangeData.continues_store e reply).observeCancelled
  simp only [ExchangeData.dropObserve]
  rw [same, h.observeCancelled]
  rfl

/-- The request that follows a reply asks for the same block as before or for the next one. -/
theorem nextRequest_asks {q r : InternalRequest} {host : QString}
    (next : ExchangeData.nextRequest blockSize reply r = some (q, host)) :
    q.message.optionsNamed OptionName.observe = r.message.optionsNamed OptionName.observe ∧
      (askedBlock q.message = askedBlock r.message ∨
        askedBlock q.message < 2 ^ 20 ∧
          askedBlock q.message = (reply.currentBlockNumber + 1) % 2 ^ 32) := by
  unfold ExchangeData.nextRequest at next
  dsimp only at next
  split_ifs at next
  · obtain ⟨rfl, -⟩ := Prod.mk.inj (Option.some.inj next)
    have kept {name : Nat} (other : name ≠ OptionName.block1) :=
      r.optionsNamed_setToSendBlock_of_ne
        (reply.nextBlockToSend (Platform.junk Addr)).toNat blockSize other
    refine ⟨kept (by decide), .inl ?_⟩
    simp only [askedBlock]
    rw [kept (by decide)]
  · obtain ⟨rfl, -⟩ := Prod.mk.inj (Option.some.inj next)
    refine ⟨r.optionsNamed_setToRequestBlock_of_ne _ _ (by decide) (by decide), ?_⟩
    by_cases small : (reply.currentBlockNumber + 1) % 2 ^ 32 < 2 ^ 20
    · have asked := r.askedBlock_setToRequestBlock reply.blockSize small
      exact .inr ⟨asked.symm ▸ small, asked⟩
    · rw [r.setToRequestBlock_of_large _ small]
      exact .inl rfl

/-- The exchange with a block stored. -/
theorem store (h : Downloading server e) (number : reply.currentBlockNumber = k)
    (carries : server.Carries reply.toInternalReply k) (small : k < 2 ^ 20) :
    Downloading server (e.store reply) := by
  have same := ExchangeData.continues_store e reply
  have stored : (e.store reply).replies = e.replies ++ [reply] := rfl
  constructor
  · rw [InternalRequest.isMulticast_of_identity Addr same.identity]
    exact h.unicast
  · rw [ExchangeData.message_store]
    exact h.noObserve
  · rw [same.observeCancelled]
    exact h.observeCancelled
  · intro r hr
    rcases List.mem_append.mp (stored ▸ hr) with old | new
    · exact h.small r old
    · obtain rfl := List.mem_singleton.mp new
      omega
  · intro r hr
    rcases List.mem_append.mp (stored ▸ hr) with old | new
    · exact h.blocks r old
    · obtain rfl := List.mem_singleton.mp new
      rw [number]
      exact carries.payload
  · rw [ExchangeData.message_store, stored]
    exact h.follows.mono (List.subset_append_left _ _)

/-- An exchange that is finished by a response is gone. -/
theorem finish_left (h : Downloading server e) {sender : Addr}
    (last : e.replies.getLast? = some reply) (success : isSuccess reply.responseCode = true) :
    (e.finish sender).1 = none := by
  have notEmpty : ¬ (reply.message.type = .acknowledgment ∧
      reply.responseCode = ResponseCode.emptyMessage) := by
    rintro ⟨-, empty⟩
    rw [empty] at success
    cases success
  simp only [ExchangeData.finish]
  rw [last]
  cases e.userReply with
  | none => rfl
  | some id =>
    dsimp only
    rw [h.isObserve, h.unicast, if_neg (by simp), if_neg notEmpty]
    rfl

/-- A block is stored. The request for the next one follows it. -/
theorem receive_block (h : Downloading server e) (number : reply.currentBlockNumber = k)
    (carries : server.Carries reply.toInternalReply k) (small : k < 2 ^ 20)
    (below : ∀ j < k, ∃ r ∈ e.replies, r.currentBlockNumber = j)
    (left : (e.receive blockSize reply messageId).1 = some e') :
    Downloading server e' ∧ e.replies ⊆ e'.replies := by
  have stored := h.store number carries small
  have grown : (e.store reply).replies = e.replies ++ [reply] := rfl
  obtain ⟨-, ⟨q, host, next, rfl⟩ | ⟨-, finished⟩⟩ := ExchangeData.receive_left left
  · rw [h.dropObserve_store] at next ⊢
    obtain ⟨identity, observeCancelled⟩ := ExchangeData.nextRequest_kept next
    obtain ⟨observe, asks⟩ := nextRequest_asks next
    refine ⟨⟨?_, ?_, ?_, stored.small, stored.blocks, ?_⟩, List.subset_append_left _ _⟩
    · have same : (transmit Addr (q.setMessageId messageId) host).1.identity =
          (e.store reply).request.identity := (identity_transmit ..).trans identity
      exact (InternalRequest.isMulticast_of_identity Addr same).trans stored.unicast
    · dsimp only
      rw [message_transmit]
      exact observe.trans stored.noObserve
    · dsimp only
      rw [observeCancelled_transmit]
      exact observeCancelled.trans stored.observeCancelled
    · dsimp only
      rw [message_transmit]
      have asked : askedBlock (q.setMessageId messageId).message = askedBlock q.message := rfl
      rcases asks with same | ⟨limit, another⟩
      · refine ⟨?_, ?_⟩
        · rw [asked, same]
          exact stored.follows.small
        · rw [asked, same]
          exact stored.follows.stored
      · refine ⟨asked ▸ limit, ?_⟩
        intro j hj
        rw [asked, another, number] at hj
        by_cases own : j = k
        · exact ⟨reply, by simp [grown], number.trans own.symm⟩
        · obtain ⟨r, hr, numbered⟩ := below j (by omega)
          exact ⟨r, by simp [grown, hr], numbered⟩
  · have gone : ((e.store reply).finish reply.senderAddress).1 = none :=
      stored.finish_left (by rw [grown, List.getLast?_concat]) carries.success
    rw [h.dropObserve_store, gone] at finished
    cases finished

theorem receive_acknowledgment (h : Downloading server e)
    (acknowledges : Acknowledges request reply.toInternalReply) {data : QByteArray}
    (decoded : createFromFrame (Platform.junk Addr) data = .ok reply.toInternalReply)
    (left : (e.receive blockSize reply messageId).1 = some e') :
    Downloading server e' ∧ e'.replies = e.replies := by
  have replies := ExchangeData.receive_acknowledgment acknowledges decoded left
  have kept := (ExchangeData.receive_kept left).1
  have final := acknowledges.continues decoded
  obtain ⟨noError, ⟨q, host, next, -⟩ | ⟨last, finished⟩⟩ := ExchangeData.receive_left left
  · rw [ExchangeData.continues_eq noError blockSize, next] at final
    cases final
  · refine ⟨h.of_same kept.identity kept.observeCancelled ?_ replies, replies⟩
    rw [(ExchangeData.finish_kept finished).1, h.dropObserve_store]
    exact ExchangeData.message_store reply

/-- Whatever the server answers with, the download goes on. -/
theorem receive (h : Downloading server e) (follows : Follows e.replies request)
    (answers : server.Answers request reply.toInternalReply) {data : QByteArray}
    (decoded : createFromFrame (Platform.junk Addr) data = .ok reply.toInternalReply)
    (left : (e.receive blockSize reply messageId).1 = some e') :
    Downloading server e' ∧ e.replies ⊆ e'.replies := by
  rcases answers with ⟨-, carries⟩ | acknowledges
  · have number := (carries.block_fields (Platform.junk Addr) decoded follows.small).1
    exact h.receive_block number carries follows.small follows.stored left
  · obtain ⟨downloading, same⟩ := h.receive_acknowledgment acknowledges decoded left
    exact ⟨downloading, same ▸ List.Subset.refl _⟩

theorem timeout (h : Downloading server e) {maximumRetransmitCount : Nat}
    (left : (e.timeout maximumRetransmitCount).1 = some e') :
    Downloading server e' ∧ e'.replies = e.replies := by
  obtain ⟨continues, message, replies⟩ := ExchangeData.timeout_kept left
  exact ⟨h.of_same continues.identity continues.observeCancelled message replies, replies⟩

/-- The content that is posted is the whole representation: its last block is in, and all others
came before it. -/
theorem content (h : Downloading server e) (follows : Follows e.replies request)
    (answers : server.Answers request reply.toInternalReply) {data : QByteArray}
    (decoded : createFromFrame (Platform.junk Addr) data = .ok reply.toInternalReply)
    {id : ReplyId} {sender : Addr} {message : Message} {code : ResponseCode}
    (posted : .post id (.setContent sender message code) ∈
      (e.receive blockSize reply messageId).2)
    (success : isSuccess code = true) : message.payload = server.representation := by
  obtain ⟨rfl, error | ⟨final, notEmpty, rfl⟩⟩ := ExchangeData.content_receive posted
  · rw [not_isError_of_isSuccess success] at error
    cases error
  rcases answers with ⟨-, carries⟩ | acknowledges
  · obtain ⟨number, more⟩ :=
      carries.block_fields (Platform.junk Addr) decoded follows.small
    have stored := h.store number carries follows.small
    have grown : (e.store reply).replies = e.replies ++ [reply] := rfl
    have last : ¬ (askedBlock request + 1) * server.size < server.representation.length := by
      unfold ReceivedReply.continues at final
      rw [not_isError_of_isSuccess success] at final
      simpa [InternalReply.hasMoreBlocksToReceive, more] using (Bool.or_eq_false_iff.mp final).2
    have limit := follows.small
    have present : ∀ k < askedBlock request + 1, ∃ r ∈ e.replies ++ [reply],
        r.currentBlockNumber = k := by
      intro k hk
      by_cases own : k = askedBlock request
      · exact ⟨reply, by simp, number.trans own.symm⟩
      · obtain ⟨r, hr, numbered⟩ := follows.stored k (by omega)
        exact ⟨r, by simp [hr], numbered⟩
    rw [h.unicast, payload_assembled e.replies (by omega)]
    have below : ∀ r ∈ e.replies ++ [reply], r.currentBlockNumber < 2 ^ 31 := by
      intro r hr
      have inside := stored.small r hr
      omega
    exact mergedPayload_of_blocks below stored.blocks present (by omega) (by omega)
  · exact absurd ⟨acknowledges.type, acknowledges.code⟩ notEmpty

end Downloading

/-- The exchange of the user reply `id` is the download with token `token`, and all requests on
the network follow what is stored. -/
structure Network.Downloads (server : BlockServer) (id : ReplyId) (token : Token)
    (n : Network Addr) : Prop where
  consistent : n.protocol.Consistent
  exchange : ∀ {key e}, n.protocol.exchangeMap.find? key = some e → e.userReply = some id →
    key = token ∧ Downloading server e ∧ ∀ request ∈ n.requests, Follows e.replies request

namespace Network

variable {server : BlockServer} {id : ReplyId} {token : Token} {n n' : Network Addr}
  {event : Event Addr} {os : List (Output Addr)}

/-- The frame that is received answers one of the requests on the network. -/
theorem answered_of_possible {data : QByteArray} {sender : Addr} {draws : Draws}
    {reply : InternalReply} (possible : n.Possible server (.frameReceived data sender draws))
    (decoded : createFromFrame (Platform.junk Addr) data = .ok reply) :
    ∃ request ∈ n.requests, server.Answers request reply := by
  unfold Possible at possible
  dsimp only at possible
  rw [decoded] at possible
  exact possible

/-- After a step the exchange of the user reply still downloads, and has stored what it had. -/
theorem Downloads.exchange_after (h : n.Downloads server id token)
    (possible : n.Possible server event) {t : Protocol Addr}
    (change : Protocol.Change n.protocol os t event) {key : Token} {e' : ExchangeData Addr}
    (found' : t.exchangeMap.find? key = some e') (user : e'.userReply = some id) :
    key = token ∧ Downloading server e' ∧ ∀ request ∈ n.requests, Follows e'.replies request := by
  cases change.origin found' with
  | opened messageId timeout registers made => exact possible.elim
  | reacted e reaction found reacts left =>
    have user' := (reacts.continues left).userReply.symm.trans user
    obtain ⟨named, downloading, follow⟩ := h.exchange found user'
    suffices goes_on : Downloading server e' ∧ e.replies ⊆ e'.replies from
      ⟨named, goes_on.1, fun request hr => (follow request hr).mono goes_on.2⟩
    cases reacts with
    | received messageId admits fresh =>
      obtain ⟨request, sent, answers⟩ := answered_of_possible possible admits.decoded
      exact downloading.receive (follow request sent) answers admits.decoded left
    | timedOut runs =>
      obtain ⟨downloading', same⟩ := downloading.timeout left
      exact ⟨downloading', same ▸ List.Subset.refl _⟩
    | spanReached runs | expired runs | aborted => cases left
  | passed e found passes =>
    obtain ⟨named, downloading, follow⟩ := h.exchange found (passes.userReply_of_some user)
    exact ⟨named, downloading.passes passes, passes.replies ▸ follow⟩

theorem Downloads.step (h : n.Downloads server id token) (step : Step server token n event os n') :
    n'.Downloads server id token := by
  have effect := Protocol.step_effect h.consistent step.protocol
  have change := Protocol.step_change h.consistent step.protocol
  have consistent := effect.consistent h.consistent
  refine ⟨consistent, ?_⟩
  intro key e found user
  obtain ⟨named, downloading, follow⟩ := h.exchange_after step.possible change found user
  refine ⟨named, downloading, ?_⟩
  intro request hr
  rw [step.requests] at hr
  rcases List.mem_append.mp hr with old | new
  · exact follow request old
  · -- a frame with this token is the request of the exchange
    obtain ⟨own, method, connection, host, port, sent⟩ := mem_requestsOf new
    have key_ne := (consistent.registered found).key_ne
    rcases effect.frames sent with empty | ⟨key', e', found', rfl⟩
    · exact absurd (named.trans (own.symm.trans empty)) key_ne
    · have stored : key' = key :=
        (consistent.registered found').token.symm.trans (own.trans named.symm)
      subst stored
      obtain rfl := Option.some.inj (found.symm.trans found')
      exact downloading.follows

/-- The exchange that `sendRequest` opens starts to download with block 0. -/
theorem downloading_opened {s : Protocol Addr} {request : Request} {connection : ConnectionId}
    {messageId : UInt16} {timeout : Nat} {e : ExchangeData Addr}
    (opened : (ExchangeData.opened id (s.completed request connection messageId token)
      s.blockSize timeout : Reaction Addr).1 = some e)
    (unicast : (InternalRequest.ofRequest Addr request).isMulticast Addr = false)
    (noObserve : request.message.hasOption OptionName.observe = false)
    (first : 0 < s.blockSize ∨ askedBlock request.message = 0) :
    Downloading server e := by
  let r := s.completed request connection messageId token
  obtain ⟨q, made, identity, message, observeCancelled⟩ :=
    @ExchangeData.opened_entry Addr _ id r s.blockSize timeout
  obtain rfl := Option.some.inj (made.symm.trans opened)
  have asked : askedBlock q.message = 0 := by
    rw [message, InternalRequest.askedBlock_firstBlocks]
    split_ifs with sized
    · rfl
    · rw [Protocol.askedBlock_completed]
      exact first.resolve_left sized
  refine ⟨?_, ?_, ?_, by simp, by simp, ?_⟩
  · rw [InternalRequest.isMulticast_of_identity Addr identity, Protocol.completed_isMulticast]
    exact unicast
  · rw [message, InternalRequest.optionsNamed_firstBlocks_of_ne _ _ (by decide) (by decide),
      Protocol.optionsNamed_completed _ _ _ _ _ (by decide)]
    rw [Message.hasOption_eq] at noObserve
    simpa using noObserve
  · exact observeCancelled.trans (s.completed_observeCancelled request connection messageId token)
  · refine ⟨by dsimp only; omega, ?_⟩
    intro k below
    dsimp only at below
    omega

theorem downloads_of_sendRequest {s t : Protocol Addr} (reachable : s.Reachable)
    {request : Request} {connection : ConnectionId} {draws : Draws}
    (sent : Protocol.Step s (.sendRequest (some id) request connection draws) os t)
    {messageId : UInt16} (running : .post id (.setRunning token messageId) ∈ os)
    (unused : ∀ key e, s.exchangeMap.find? key = some e → e.userReply ≠ some id)
    (unicast : (InternalRequest.ofRequest Addr request).isMulticast Addr = false)
    (noObserve : request.message.hasOption OptionName.observe = false)
    (first : 0 < s.blockSize ∨ askedBlock request.message = 0) :
    Downloads server id token ⟨t, requestsOf token os⟩ := by
  have consistent := reachable.consistent
  refine ⟨consistent.step sent, ?_⟩
  intro key e found user
  cases Protocol.step_effect consistent sent with
  | unchanged map posts => exact absurd user (unused key e (map ▸ found))
  | opened messageId' token' timeout registers after =>
    obtain ⟨ht, hos⟩ := Prod.mk.inj after
    have same : token = token' := by
      rw [hos] at running
      rcases List.mem_cons.mp running with own | later
      · cases own
        rfl
      · exact absurd later (post_not_mem_transmit _ _ _ _)
    subst same
    dsimp only at found
    rw [ht, Protocol.find?_setExchange] at found
    split_ifs at found with own
    · have downloading : Downloading server e :=
        downloading_opened found unicast noObserve first
      refine ⟨own, downloading, ?_⟩
      intro request' hr
      obtain ⟨-, method, connection', host, port, framed⟩ := mem_requestsOf hr
      rw [hos] at framed
      have message : request' = e.request.message := by
        rcases List.mem_cons.mp framed with posted | framed
        · cases posted
        · obtain rfl := Option.some.inj found
          exact (frame_mem_transmit framed).trans (message_transmit ..).symm
      rw [message]
      exact downloading.follows
    · exact absurd user (unused key e found)

/-- Whatever the network does to requests and answers, and whenever the timers fire: a success
message that is posted to the user reply of a download carries the representation of the
server. -/
theorem download_integrity {s t : Protocol Addr} (server : BlockServer) (reachable : s.Reachable)
    {request : Request} {connection : ConnectionId} {draws : Draws}
    (sent : Protocol.Step s (.sendRequest (some id) request connection draws) os t)
    {messageId : UInt16} (running : .post id (.setRunning token messageId) ∈ os)
    (unused : ∀ key e, s.exchangeMap.find? key = some e → e.userReply ≠ some id)
    (unicast : (InternalRequest.ofRequest Addr request).isMulticast Addr = false)
    (noObserve : request.message.hasOption OptionName.observe = false)
    (first : 0 < s.blockSize ∨ askedBlock request.message = 0)
    {tr : List (Framework.Transition (Network Addr) (Event Addr) (Output Addr))}
    (run : Framework.Run (Network.Step server token) ⟨t, requestsOf token os⟩ tr n)
    {x : Framework.Transition (Network Addr) (Event Addr) (Output Addr)} (taken : x ∈ tr)
    {sender : Addr} {message : Message} {code : ResponseCode}
    (posted : .post id (.setContent sender message code) ∈ x.outputs)
    (success : isSuccess code = true) : message.payload = server.representation := by
  have start : Downloads server id token ⟨t, requestsOf token os⟩ :=
    downloads_of_sendRequest reachable sent running unused unicast noObserve first
  obtain ⟨downloads, step⟩ := run.forall_step (P := fun n => n.Downloads server id token)
    (fun before step => before.step step) start x taken
  have change := Protocol.step_change downloads.consistent step.protocol
  obtain ⟨data, reply, draws', key, e, messageId', event, admits, user, content⟩ :=
    change.content posted
  have possible := step.possible
  rw [event] at possible
  obtain ⟨request', asked, answers⟩ := answered_of_possible possible admits.decoded
  obtain ⟨-, downloading, follow⟩ := downloads.exchange admits.found user
  exact downloading.content (follow request' asked) answers admits.decoded content success

/-- Four bytes more than a block of 16. -/
def textServer : BlockServer where
  representation := (List.range 20).map UInt8.ofNat
  size := 16

/-- A Non-confirmable 2.05 with one byte of Block2 value. -/
def blockFrame (value : UInt8) (payload : QByteArray) : QByteArray :=
  [0x52, 0x45, 0x30, 0x39, 0x01, 0x02, 0xD1, 0x0A, value, 0xFF] ++ payload

/-- The first request is answered by an empty Acknowledgment and twice by block 0, the second one
is sent again and then answered. -/
def twoBlockDownload : List (Event IPv4Address) :=
  [.frameReceived [0x60, 0x00, 0x00, 0x07] serverAddress [],
    .frameReceived (blockFrame 0x08 (textServer.block 0)) serverAddress [8, 0],
    .frameReceived (blockFrame 0x08 (textServer.block 0)) serverAddress [9, 0],
    .timeout [1, 2],
    .frameReceived (blockFrame 0x10 (textServer.block 1)) serverAddress []]

/-- Nothing sent yet. -/
def unusedClient : Protocol IPv4Address := {}

/-- The request is sent, then the events happen, and a success message that satisfies `p` is
posted. -/
def arrives (server : BlockServer) (request : Request) (events : List (Event IPv4Address))
    (p : Message → Bool) : Bool :=
  (unusedClient.handle (.sendRequest (some 0) request 0 [7, 0])).any fun first =>
    first.2.any (fun
      | .post reply (.setRunning token messageId) => reply = 0 ∧ token = [1, 2] ∧ messageId = 7
      | _ => false) &&
    (Framework.execute (handle server [1, 2]) ⟨first.1, requestsOf [1, 2] first.2⟩ events).any
      fun result => result.1.any fun x => x.outputs.any fun
        | .post reply (.setContent _ message code) => reply = 0 ∧ isSuccess code ∧ p message
        | _ => false

theorem arrives_spec {server : BlockServer} {request : Request}
    {events : List (Event IPv4Address)} {p : Message → Bool}
    (h : arrives server request events p = true) :
    ∃ os t tr n, Protocol.Step unusedClient (.sendRequest (some 0) request 0 [7, 0]) os t ∧
      .post 0 (.setRunning [1, 2] 7) ∈ os ∧
      Framework.Run (Step server [1, 2]) ⟨t, requestsOf [1, 2] os⟩ tr n ∧
      ∃ x ∈ tr, ∃ sender message code, .post 0 (.setContent sender message code) ∈ x.outputs ∧
        isSuccess code = true ∧ p message = true := by
  obtain ⟨⟨t, os⟩, handled, h⟩ := (Option.any_eq_true ..).mp h
  obtain ⟨starts, h⟩ := Bool.and_eq_true_iff.mp h
  obtain ⟨tr, n, run, -, h⟩ :=
    Framework.exists_run_of_execute (Step server [1, 2]) step_of_handle h
  obtain ⟨x, taken, h⟩ := List.any_eq_true.mp h
  refine ⟨os, t, tr, n, Protocol.step_of_handle handled, ?_, run, x, taken, ?_⟩
  · obtain ⟨o, ho, own⟩ := List.any_eq_true.mp starts
    split at own
    · obtain ⟨rfl, rfl, rfl⟩ := of_decide_eq_true own
      exact ho
    · cases own
  · obtain ⟨o, ho, own⟩ := List.any_eq_true.mp h
    split at own
    · obtain ⟨rfl, success, satisfied⟩ := of_decide_eq_true own
      exact ⟨_, _, _, ho, success, satisfied⟩
    · cases own

/-- Both blocks arrive, and the user gets the whole. -/
theorem download_integrity_twoBlocks : ∃ os t tr n,
    Protocol.Step unusedClient (.sendRequest (some 0) (getRequest [1, 2]) 0 [7, 0]) os t ∧
    Framework.Run (Step textServer [1, 2]) ⟨t, requestsOf [1, 2] os⟩ tr n ∧
    ∃ x ∈ tr, ∃ sender message code, .post 0 (.setContent sender message code) ∈ x.outputs ∧
      isSuccess code = true ∧ message.payload = textServer.representation := by
  have computed :
      arrives textServer (getRequest [1, 2]) twoBlockDownload (fun _ => true) = true := by
    decide +kernel
  obtain ⟨os, t, tr, n, sent, running, run, x, taken, sender, message, code, posted, success, -⟩ :=
    arrives_spec computed
  refine ⟨os, t, tr, n, sent, run, x, taken, sender, message, code, posted, success, ?_⟩
  have start : unusedClient.Reachable := ⟨{}, [], rfl, .nil⟩
  have none : ∀ key e, unusedClient.exchangeMap.find? key = some e → e.userReply ≠ some 0 := by
    simp [unusedClient]
  exact download_integrity textServer start sent running none (by decide) (by decide)
    (.inr (by decide)) run taken posted success

/-- The request for a later block, by a Block2 option of the user. -/
def laterBlock : Request :=
  { getRequest [1, 2] with
    message := (getRequest [1, 2]).message.addOption ⟨OptionName.block2, [0x10]⟩ }

/-- It gets what follows from that block on, and not the whole. -/
theorem laterBlock_not_whole : laterBlock.method = Method.get ∧
    (InternalRequest.ofRequest IPv4Address laterBlock).isMulticast IPv4Address = false ∧
    laterBlock.message.hasOption OptionName.observe = false ∧
    ∃ os t tr n, Protocol.Step unusedClient (.sendRequest (some 0) laterBlock 0 [7, 0]) os t ∧
      .post 0 (.setRunning [1, 2] 7) ∈ os ∧
      Framework.Run (Step textServer [1, 2]) ⟨t, requestsOf [1, 2] os⟩ tr n ∧
      ∃ x ∈ tr, ∃ sender message code, .post 0 (.setContent sender message code) ∈ x.outputs ∧
        isSuccess code = true ∧ message.payload ≠ textServer.representation := by
  have computed : arrives textServer laterBlock
      [.frameReceived (blockFrame 0x10 (textServer.block 1)) serverAddress []]
      (fun message => message.payload ≠ textServer.representation) = true := by
    decide +kernel
  obtain ⟨os, t, tr, n, sent, running, run, x, taken, sender, message, code, posted, success,
    differs⟩ := arrives_spec computed
  exact ⟨rfl, by decide, by decide, os, t, tr, n, sent, running, run, x, taken, sender, message,
    code, posted, success, of_decide_eq_true differs⟩

end Network

end QtCoap
