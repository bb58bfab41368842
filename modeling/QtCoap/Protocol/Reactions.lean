import Mathlib.Data.Option.Basic
import QtCoap.Protocol.Outputs
import QtCoap.Protocol.RequestOptions

namespace QtCoap

variable {Addr : Type} [Platform Addr]

namespace InternalRequest

variable (r : InternalRequest) (blockSize : Nat)

/-- A part of the first payload may go along; that leaves all but the Block1 options alone. -/
theorem optionsNamed_firstBlocks {name : Nat} (block1 : name ≠ OptionName.block1) :
    (r.firstBlocks blockSize).message.optionsNamed name =
      (if 0 < blockSize then r.setToRequestBlock 0 blockSize else r).message.optionsNamed name := by
  simp only [firstBlocks]
  by_cases upload : 0 < blockSize ∧ blockSize < r.message.payload.length
  · rw [if_pos upload]
    exact optionsNamed_setToSendBlock_of_ne _ _ _ block1
  · rw [if_neg upload]

theorem optionsNamed_firstBlocks_of_ne {name : Nat} (block1 : name ≠ OptionName.block1)
    (block2 : name ≠ OptionName.block2) :
    (r.firstBlocks blockSize).message.optionsNamed name = r.message.optionsNamed name := by
  rw [optionsNamed_firstBlocks r blockSize block1]
  split_ifs
  · exact r.optionsNamed_setToRequestBlock_of_ne _ _ block1 block2
  · rfl

/-- With a block size the first request asks for block 0. -/
theorem askedBlock_firstBlocks :
    askedBlock (r.firstBlocks blockSize).message =
      if 0 < blockSize then 0 else askedBlock r.message := by
  have same := optionsNamed_firstBlocks r blockSize
    (by decide : OptionName.block2 ≠ OptionName.block1)
  simp only [askedBlock]
  rw [same]
  split_ifs
  · exact r.askedBlock_setToRequestBlock blockSize (by decide : 0 < 2 ^ 20)
  · rfl

end InternalRequest

namespace Protocol

variable (s : Protocol Addr) (request : Request) (connection : ConnectionId) (messageId : UInt16)
  (token : Token)

/-- The request that is registered has the options of the user, but for those of the URI. -/
theorem optionsNamed_completed {name : Nat} (other : name ∉ InternalRequest.uriOptionNames) :
    (s.completed request connection messageId token).message.optionsNamed name =
      request.message.optionsNamed name := by
  have options : (s.completed request connection messageId token).message.optionsNamed name =
      (s.newRequest request).message.optionsNamed name := rfl
  rw [options, newRequest_message]
  exact InternalRequest.optionsNamed_ofRequest Addr request other

theorem askedBlock_completed :
    askedBlock (s.completed request connection messageId token).message =
      askedBlock request.message := by
  simp only [askedBlock]
  rw [optionsNamed_completed s request connection messageId token (by decide)]

end Protocol

namespace ExchangeData

/-- A block request changes block options only. -/
theorem nextRequest_options {blockSize : Nat} {reply : ReceivedReply Addr}
    {r q : InternalRequest} {host : QString}
    (next : nextRequest blockSize reply r = some (q, host)) {name : Nat}
    (block1 : name ≠ OptionName.block1) (block2 : name ≠ OptionName.block2) :
    q.message.optionsNamed name = r.message.optionsNamed name := by
  unfold nextRequest at next
  dsimp only at next
  split_ifs at next
  · obtain ⟨rfl, -⟩ := Prod.mk.inj (Option.some.inj next)
    exact r.optionsNamed_setToSendBlock_of_ne _ _ block1
  · obtain ⟨rfl, -⟩ := Prod.mk.inj (Option.some.inj next)
    exact r.optionsNamed_setToRequestBlock_of_ne _ _ block1 block2

/-- Only a cancelled observation loses an option. -/
theorem optionsNamed_dropObserve {Addr : Type} (e : ExchangeData Addr) (name : Nat) :
    e.dropObserve.request.message.optionsNamed name = e.request.message.optionsNamed name ∨
      e.request.observeCancelled = true ∧ name = OptionName.observe ∧
        e.dropObserve.request.message.optionsNamed name = [] := by
  simp only [dropObserve]
  split_ifs with cancelled
  · by_cases own : OptionName.observe = name
    · exact .inr ⟨cancelled, own.symm, (Message.optionsNamed_removeOption ..).trans (if_pos own)⟩
    · exact .inl ((Message.optionsNamed_removeOption ..).trans (if_neg own))
  · exact .inl rfl

/-- What is left of an exchange that has received a reply. -/
theorem receive_left {e e' : ExchangeData Addr} {blockSize : Nat} {reply : ReceivedReply Addr}
    {id : UInt16} (left : (e.receive blockSize reply id).1 = some e') :
    isError reply.responseCode = false ∧
      ((∃ q host, nextRequest blockSize reply (e.store reply).dropObserve.request =
          some (q, host) ∧ e' = { (e.store reply).dropObserve with
            request := (transmit Addr (q.setMessageId id) host).1 }) ∨
        nextRequest blockSize reply (e.store reply).dropObserve.request = none ∧
          ((e.store reply).dropObserve.finish reply.senderAddress).1 = some e') := by
  have received := e.receives blockSize reply id
  generalize e.receive blockSize reply id = reaction at left received
  cases received with
  | failed error => cases left
  | asked noError q host next =>
    exact ⟨noError, .inl ⟨q, host, next, (Option.some.inj left).symm⟩⟩
  | ended noError last => exact ⟨noError, .inr ⟨last, left⟩⟩

/-- The replies stored then: a notification is forgotten, those of a multicast exchange stay with
the merged one as the last. -/
theorem receive_replies {e e' : ExchangeData Addr} {blockSize : Nat} {reply : ReceivedReply Addr}
    {id : UInt16} (left : (e.receive blockSize reply id).1 = some e') :
    e'.replies =
      if reply.continues then e.replies ++ [reply]
      else if reply.message.type = .acknowledgment ∧
        reply.responseCode = ResponseCode.emptyMessage then e.replies
      else if e'.request.isObserve then []
      else e.replies ++ [assembled true (e.replies ++ [reply]) reply reply.senderAddress] := by
  have stored := replies_stored e reply
  obtain ⟨error, ⟨q, host, next, rfl⟩ | ⟨next, finished⟩⟩ := receive_left left
  · have continues := continues_eq error blockSize (e.store reply).dropObserve.request
    rw [next, Option.isSome_some] at continues
    rw [if_pos continues]
    exact stored
  · have continues := continues_eq error blockSize (e.store reply).dropObserve.request
    rw [next] at continues
    rw [if_neg (by simp [continues])]
    have request := (finish_kept finished).1
    rw [request]
    simp only [finish] at finished
    rw [last_dropObserve_store] at finished
    cases user : (e.store reply).dropObserve.userReply with
    | none =>
      rw [user] at finished
      cases finished
    | some id =>
      rw [user] at finished
      dsimp only at finished
      split_ifs at finished with cancelled empty observe multicast
      · cases finished
        rw [if_pos empty, stored, List.dropLast_concat]
      · cases finished
        rw [if_neg empty, if_pos observe]
      · cases finished
        rw [if_neg empty, if_neg observe, stored, List.dropLast_concat, multicast]

theorem receive_options {e e' : ExchangeData Addr} {blockSize : Nat}
    {reply : ReceivedReply Addr} {id : UInt16}
    (left : (e.receive blockSize reply id).1 = some e') {name : Nat}
    (block1 : name ≠ OptionName.block1) (block2 : name ≠ OptionName.block2) :
    e'.request.message.optionsNamed name = e.request.message.optionsNamed name ∨
      e.request.observeCancelled = true ∧ name = OptionName.observe ∧
        e'.request.message.optionsNamed name = [] := by
  have dropped := optionsNamed_dropObserve (e.store reply) name
  rw [message_store, observeCancelled_store] at dropped
  obtain ⟨-, ⟨q, host, next, rfl⟩ | ⟨-, finished⟩⟩ := receive_left left
  · dsimp only
    rw [message_transmit]
    have sent : (q.setMessageId id).message.optionsNamed name = q.message.optionsNamed name := rfl
    rw [sent, nextRequest_options next block1 block2]
    exact dropped
  · rw [(finish_kept finished).1]
    exact dropped

/-- How the exchange `e` stored under `key` reacts to an event that is about it. -/
inductive Reacts (s : Protocol Addr) (key : Token) (e : ExchangeData Addr) :
    Event Addr → Reaction Addr → Prop
  | received {data draws reply} (id : UInt16) (admits : s.Admits data reply key e)
      (fresh : reply.continues = true → s.isMessageIdRegistered id = false) :
      Reacts s key e (.frameReceived data reply.senderAddress draws)
        (e.receive s.blockSize reply id)
  | timedOut (runs : e.request.timeoutTimer.active = true) :
      Reacts s key e (.timeout key) (e.timeout s.maximumRetransmitCount)
  | spanReached (runs : e.request.maxTransmitWaitTimer.active = true) :
      Reacts s key e (.maxTransmissionSpanReached key) (e.fail .timeOut none)
  | expired (runs : e.request.multicastExpireTimer.active = true) :
      Reacts s key e (.multicastRequestExpired key) e.expire
  | aborted {id} : Reacts s key e (.aborted id key) (none, [])

/-- The exchange behind a step that is not about it, but for its observation and the pointer to
its reply. -/
structure Passes (e e' : ExchangeData Addr) : Prop where
  request : e'.request = e.request ∨
    e.request.isObserve = true ∧ e'.request = e.request.setObserveCancelled
  userReply : e'.userReply = e.userReply ∨ e'.userReply = none
  replies : e'.replies = e.replies

theorem Passes.refl {Addr : Type} (e : ExchangeData Addr) : e.Passes e := ⟨.inl rfl, .inl rfl, rfl⟩

theorem Passes.message {Addr : Type} {e e' : ExchangeData Addr} (h : e.Passes e') :
    e'.request.message = e.request.message := by
  rcases h.request with same | ⟨-, same⟩
  · rw [same]
  · rw [same]
    rfl

theorem Passes.identity {Addr : Type} {e e' : ExchangeData Addr} (h : e.Passes e') :
    e'.request.identity = e.request.identity := by
  rcases h.request with same | ⟨-, same⟩
  · rw [same]
  · rw [same]
    rfl

theorem Passes.isObserve {Addr : Type} {e e' : ExchangeData Addr} (h : e.Passes e') :
    e'.request.isObserve = e.request.isObserve := by
  simp only [InternalRequest.isObserve]
  rw [h.message]

theorem Passes.userReply_of_some {Addr : Type} {e e' : ExchangeData Addr} (h : e.Passes e')
    {id : ReplyId} (user : e'.userReply = some id) : e.userReply = some id := by
  rcases h.userReply with same | gone
  · exact same.symm.trans user
  · rw [user] at gone
    cases gone

/-- Of the options, a reaction changes those for blocks and may drop Observe. -/
theorem Reacts.optionsNamed {s : Protocol Addr} {key : Token} {e e' : ExchangeData Addr}
    {event : Event Addr} {reaction : Reaction Addr} (h : Reacts s key e event reaction)
    (left : reaction.1 = some e') {name : Nat} (block1 : name ≠ OptionName.block1)
    (block2 : name ≠ OptionName.block2) :
    e'.request.message.optionsNamed name = e.request.message.optionsNamed name ∨
      e.request.observeCancelled = true ∧ name = OptionName.observe ∧
        e'.request.message.optionsNamed name = [] := by
  cases h with
  | received id admits fresh => exact receive_options left block1 block2
  | timedOut runs =>
    rw [(timeout_kept left).2.1]
    exact .inl rfl
  | spanReached runs => cases left
  | expired runs => cases left
  | aborted => cases left

theorem Reacts.isObserve {s : Protocol Addr} {key : Token} {e e' : ExchangeData Addr}
    {event : Event Addr} {reaction : Reaction Addr} (h : Reacts s key e event reaction)
    (left : reaction.1 = some e') (observe : e'.request.isObserve = true) :
    e.request.isObserve = true := by
  simp only [InternalRequest.isObserve] at observe ⊢
  rw [Message.hasOption_eq] at observe ⊢
  rcases @Reacts.optionsNamed _ _ _ _ _ _ _ _ h left OptionName.observe (by decide)
    (by decide) with same | ⟨-, -, gone⟩
  · rw [← same]
    exact observe
  · rw [gone] at observe
    cases observe

/-- A reaction leaves the identity of the exchange and its user. -/
theorem Reacts.continues {s : Protocol Addr} {key : Token} {e e' : ExchangeData Addr}
    {event : Event Addr} {reaction : Reaction Addr} (h : Reacts s key e event reaction)
    (left : reaction.1 = some e') : e.Continues e' := by
  cases h with
  | received id admits fresh => exact (receive_kept left).1
  | timedOut runs => exact (timeout_kept left).1
  | spanReached runs => cases left
  | expired runs => cases left
  | aborted => cases left

theorem Reacts.issues {s : Protocol Addr} {key : Token} {e : ExchangeData Addr}
    {event : Event Addr} {reaction : Reaction Addr} (h : Reacts s key e event reaction)
    {o : Output Addr} (out : o ∈ reaction.2) : e.Issues reaction.1 o := by
  cases h with
  | received id admits fresh => exact issues_receive out
  | timedOut runs => exact issues_timeout out
  | spanReached runs => exact issues_fail out
  | expired runs => exact issues_expire out
  | aborted => cases out

end ExchangeData

/-- What the user is told of a response. -/
def Output.isResponse : Output Addr → Bool
  | .post _ (.setContent _ _ _) | .post _ .setNotified | .responseToMulticastReceived _ _ _ => true
  | _ => false

/-- A step as a run records it. -/
abbrev Taken (Addr : Type) := Framework.Transition (Protocol Addr) (Event Addr) (Output Addr)

namespace Protocol

variable {s t : Protocol Addr} {os : List (Output Addr)}

/-- A step opens an exchange, or one exchange reacts to it, or it passes all of them. -/
inductive Change (s : Protocol Addr) (os : List (Output Addr)) (t : Protocol Addr) :
    Event Addr → Prop
  | opened {id request connection draws} (messageId : UInt16) (token : Token) (timeout : Nat)
      (registers : s.Registers request messageId token)
      (after : (t, os) = s.apply token
        (ExchangeData.opened id (s.completed request connection messageId token) s.blockSize
          timeout)) :
      Change s os t (.sendRequest (some id) request connection draws)
  | reacted {event} (key : Token) (e : ExchangeData Addr) (reaction : Reaction Addr)
      (found : s.exchangeMap.find? key = some e) (reacts : e.Reacts s key event reaction)
      (after : (t, os) = s.apply key reaction) : Change s os t event
  | passed {event}
      (each : ∀ key, Option.Rel ExchangeData.Passes (s.exchangeMap.find? key)
        (t.exchangeMap.find? key))
      (outputs : ∀ o ∈ os, (∃ id, o = .post id .setObserveCancelled) ∨
        ∃ error, o = .error none error) : Change s os t event

theorem passes_self {Addr : Type} (o : Option (ExchangeData Addr)) :
    Option.Rel ExchangeData.Passes o o := by
  cases o with
  | none => exact .none
  | some e => exact .some (.refl e)

theorem passes_to_some {Addr : Type} {o : Option (ExchangeData Addr)} {e' : ExchangeData Addr}
    (h : Option.Rel ExchangeData.Passes o (some e')) : ∃ e, o = some e ∧ e.Passes e' := by
  cases h with
  | some passes => exact ⟨_, rfl, passes⟩

theorem ObserveCancelled.change (h : ObserveCancelled s t os) (event : Event Addr) :
    Change s os t event := by
  refine .passed ?_ fun o ho => .inl (h.posts o ho)
  intro key
  rcases h.each key with same | ⟨e, found, observe, cancelled⟩
  · rw [same]
    exact passes_self _
  · rw [found, cancelled]
    exact .some ⟨.inr ⟨observe, rfl⟩, .inl rfl, rfl⟩

theorem timerRuns_iff {Addr : Type} {s : Protocol Addr} {key : Token} {e : ExchangeData Addr}
    (found : s.exchangeMap.find? key = some e) (timer : InternalRequest → Timer) :
    s.timerRuns key timer = true ↔ (timer e.request).active = true := by
  simp [timerRuns, found]

theorem step_change (consistent : s.Consistent) {event : Event Addr} (h : Step s event os t) :
    Change s os t event := by
  have enabled := h.1
  cases step_effect consistent h with
  | opened messageId token timeout registers after =>
    exact .opened messageId token timeout registers after
  | received key e id admits fresh after =>
    exact .reacted key e _ admits.found (.received id admits fresh) after
  | timedOut e found after =>
    exact .reacted _ e _ found (.timedOut ((timerRuns_iff found _).mp enabled)) after
  | spanReached e found after =>
    exact .reacted _ e _ found (.spanReached ((timerRuns_iff found _).mp enabled)) after
  | expired e found after =>
    exact .reacted _ e _ found (.expired ((timerRuns_iff found _).mp enabled)) after
  | aborted e found after => exact .reacted _ e _ found .aborted after
  | cancelled cancels => exact cancels.change _
  | urlCancelled cancels => exact cancels.change _
  | @destroyed id after =>
    obtain ⟨rfl, rfl⟩ := Prod.mk.inj after
    refine .passed ?_ (by simp)
    intro key
    rw [find?_replyDestroyed]
    cases s.exchangeMap.find? key with
    | none => exact .none
    | some e =>
      refine .some ?_
      dsimp only
      split_ifs
      · exact ⟨.inl rfl, .inr rfl, rfl⟩
      · exact .refl e
  | unchanged map posts =>
    refine .passed ?_ ?_
    · intro key
      rw [map]
      exact passes_self _
    · intro o ho
      rcases posts with rfl | ⟨error, rfl⟩
      · cases ho
      · exact .inr ⟨error, List.mem_singleton.mp ho⟩

/-- That comes from a frame that is added to an exchange. -/
theorem Change.of_isResponse {event : Event Addr} (h : Change s os t event) {o : Output Addr}
    (out : o ∈ os) (response : o.isResponse = true) :
    ∃ data draws reply key e messageId,
      event = .frameReceived data reply.senderAddress draws ∧ s.Admits data reply key e ∧
        os = (e.receive s.blockSize reply messageId).2 := by
  have sent {r : InternalRequest} {host : QString} : o ∉ (transmit Addr r host).2 := by
    intro sent
    obtain ⟨_, _, _, _, rfl⟩ := mem_transmit sent
    cases response
  have failed {e : ExchangeData Addr} {error : Error} : o ∉ (e.fail error none).2 := by
    simp only [ExchangeData.fail, errorPosts]
    cases e.userReply with
    | none =>
      intro failed
      obtain rfl := List.mem_singleton.mp failed
      cases response
    | some id =>
      intro failed
      rcases List.mem_append.mp failed with posted | reported
      · simp only [List.singleton_append, List.mem_cons, List.not_mem_nil, or_false] at posted
        rcases posted with rfl | rfl <;> cases response
      · obtain rfl := List.mem_singleton.mp reported
        cases response
  cases h with
  | opened messageId token timeout registers after =>
    rw [(Prod.mk.inj after).2] at out
    rcases List.mem_cons.mp out with rfl | out
    · cases response
    · exact absurd out sent
  | reacted key e reaction found reacts after =>
    rw [(Prod.mk.inj after).2] at out ⊢
    cases reacts with
    | @received data draws reply messageId admits fresh =>
      exact ⟨data, draws, reply, key, e, messageId, rfl, admits, rfl⟩
    | timedOut runs =>
      simp only [ExchangeData.timeout] at out
      split_ifs at out
      · exact absurd out sent
      · exact absurd out failed
    | spanReached runs => exact absurd out failed
    | expired runs =>
      simp only [ExchangeData.expire, expiryPosts] at out
      split at out
      · cases out
      · obtain rfl := List.mem_singleton.mp out
        cases response
    | aborted => cases out
  | passed each outputs =>
    rcases outputs _ out with ⟨id', rfl⟩ | ⟨error, rfl⟩
    · cases response
    · cases response

/-- Content for a user reply comes from a frame that is added to its exchange. -/
theorem Change.content {event : Event Addr} (h : Change s os t event) {id : ReplyId}
    {sender : Addr} {message : Message} {code : ResponseCode}
    (posted : .post id (.setContent sender message code) ∈ os) :
    ∃ data reply draws key e messageId,
      event = .frameReceived data reply.senderAddress draws ∧ s.Admits data reply key e ∧
        e.userReply = some id ∧ Output.post id (.setContent sender message code) ∈
          (e.receive s.blockSize reply messageId).2 := by
  obtain ⟨data, draws, reply, key, e, messageId, rfl, admits, rfl⟩ := h.of_isResponse posted rfl
  exact ⟨data, reply, draws, key, e, messageId, rfl, admits,
    (ExchangeData.issues_receive posted).1 _ _ rfl, posted⟩

/-- Where an exchange that is registered after a step comes from. -/
inductive Origin (s : Protocol Addr) (key : Token) (e' : ExchangeData Addr) : Event Addr → Prop
  | opened {id request connection draws} (messageId : UInt16) (timeout : Nat)
      (registers : s.Registers request messageId key)
      (made : (ExchangeData.opened id (s.completed request connection messageId key) s.blockSize
        timeout).1 = some e') :
      Origin s key e' (.sendRequest (some id) request connection draws)
  | reacted {event} (e : ExchangeData Addr) (reaction : Reaction Addr)
      (found : s.exchangeMap.find? key = some e) (reacts : e.Reacts s key event reaction)
      (left : reaction.1 = some e') : Origin s key e' event
  | passed {event} (e : ExchangeData Addr) (found : s.exchangeMap.find? key = some e)
      (passes : e.Passes e') : Origin s key e' event

theorem Change.origin {event : Event Addr} (h : Change s os t event) {key : Token}
    {e' : ExchangeData Addr} (found : t.exchangeMap.find? key = some e') :
    Origin s key e' event := by
  cases h with
  | opened messageId token timeout registers after =>
    rw [(Prod.mk.inj after).1, find?_setExchange] at found
    split_ifs at found with own
    · subst own
      exact .opened messageId timeout registers found
    · exact .passed e' found (.refl e')
  | reacted key' e reaction found' reacts after =>
    rw [(Prod.mk.inj after).1, find?_setExchange] at found
    split_ifs at found with own
    · subst own
      exact .reacted e reaction found' reacts found
    · exact .passed e' found (.refl e')
  | passed each outputs =>
    obtain ⟨e, found', passes⟩ := passes_to_some (found ▸ each key)
    exact .passed e found' passes

theorem consistent_initial : Consistent ({} : Protocol Addr) :=
  Reachable.consistent ⟨{}, [], rfl, .nil⟩

/-- Every step of a run from the start is one of the three kinds of change. -/
theorem changes_of_run {tr : List (Taken Addr)} (run : Framework.Run Step {} tr t) :
    ∀ x ∈ tr, x.source.Consistent ∧ Change x.source x.outputs x.target x.event := by
  intro x hx
  obtain ⟨consistent, step⟩ :=
    run.forall_step (fun before h => before.step h) consistent_initial x hx
  exact ⟨consistent, step_change consistent step⟩

end Protocol

end QtCoap
