import QtCoap.Codec.FrameSafety
import QtCoap.Protocol.Effect

namespace QtCoap

variable {Addr : Type} [Platform Addr]

@[simp] theorem identity_transmit (r : InternalRequest) (host : QString) :
    (transmit Addr r host).1.identity = r.identity := by
  simp only [transmit]
  cases r.connection with
  | none => rfl
  | some connection => exact r.identity_startTransmission Addr

@[simp] theorem message_transmit (r : InternalRequest) (host : QString) :
    (transmit Addr r host).1.message = r.message := by
  simp only [transmit]
  cases r.connection with
  | none => rfl
  | some connection => exact r.message_startTransmission Addr

@[simp] theorem observeCancelled_transmit (r : InternalRequest) (host : QString) :
    (transmit Addr r host).1.observeCancelled = r.observeCancelled := by
  simp only [transmit]
  cases r.connection with
  | none => rfl
  | some connection => exact r.observeCancelled_startTransmission Addr

namespace ExchangeData

variable {e e' : ExchangeData Addr}

/-- The same exchange later on, for the same user reply. -/
structure Continues (e e' : ExchangeData Addr) : Prop where
  identity : e'.request.identity = e.request.identity
  userReply : e'.userReply = e.userReply
  observeCancelled : e'.request.observeCancelled = e.request.observeCancelled

theorem Registered.of_identity {Addr : Type} {e e' : ExchangeData Addr} {key : Token}
    (h : e.Registered key) (identity : e'.request.identity = e.request.identity)
    (messageId : e'.request.message.messageId ≠ 0) : e'.Registered key where
  key_ne := h.key_ne
  token := (InternalRequest.token_of_identity identity).trans h.token
  messageId := messageId
  connected := by
    rw [InternalRequest.connection_of_identity identity]
    exact h.connected
  method := by
    rw [InternalRequest.method_of_identity identity]
    exact h.method

theorem continues_store (e : ExchangeData Addr) (reply : ReceivedReply Addr) :
    e.Continues (e.store reply) := by
  refine ⟨?_, rfl, observeCancelled_store reply⟩
  simp only [store]
  split_ifs
  · rfl
  · exact InternalRequest.identity_stopTransmission e.request Addr

theorem continues_dropObserve {Addr : Type} (e : ExchangeData Addr) :
    e.Continues e.dropObserve := by
  simp only [dropObserve]
  split_ifs <;> exact ⟨rfl, rfl, rfl⟩

theorem Continues.trans {Addr : Type} {e e' : ExchangeData Addr} {e'' : ExchangeData Addr}
    (h : e.Continues e') (h' : e'.Continues e'') : e.Continues e'' where
  identity := h'.identity.trans h.identity
  userReply := h'.userReply.trans h.userReply
  observeCancelled := h'.observeCancelled.trans h.observeCancelled

theorem continues_stored (e : ExchangeData Addr) (reply : ReceivedReply Addr) :
    e.Continues (e.store reply).dropObserve :=
  (continues_store e reply).trans (continues_dropObserve _)

/-- The reply that has just come in is the last one stored. -/
theorem last_dropObserve_store (e : ExchangeData Addr) (reply : ReceivedReply Addr) :
    (e.store reply).dropObserve.replies.getLast? = some reply := by
  simp only [dropObserve, store]
  split_ifs <;> simp

theorem replies_stored (e : ExchangeData Addr) (reply : ReceivedReply Addr) :
    (e.store reply).dropObserve.replies = e.replies ++ [reply] := by
  simp only [dropObserve, store]
  split_ifs <;> rfl

theorem nextRequest_kept {blockSize : Nat} {reply : ReceivedReply Addr}
    {r q : InternalRequest} {host : QString}
    (h : nextRequest blockSize reply r = some (q, host)) :
    q.identity = r.identity ∧ q.observeCancelled = r.observeCancelled := by
  unfold nextRequest at h
  dsimp only at h
  split_ifs at h
  · obtain ⟨rfl, -⟩ := Prod.mk.inj (Option.some.inj h)
    exact ⟨r.identity_setToSendBlock _ _, r.observeCancelled_setToSendBlock _ _⟩
  · obtain ⟨rfl, -⟩ := Prod.mk.inj (Option.some.inj h)
    exact ⟨r.identity_setToRequestBlock _ _, r.observeCancelled_setToRequestBlock _ _⟩

theorem finish_kept {sender : Addr} (h : (e.finish sender).1 = some e') :
    e'.request = e.request ∧ e'.userReply = e.userReply := by
  unfold finish at h
  split at h
  · dsimp only at h
    split_ifs at h
    all_goals
      cases h
      exact ⟨rfl, rfl⟩
  · cases h

/-- What a received reply leaves of the exchange. Its message ID changes with the block request
that follows. -/
theorem receive_kept {blockSize : Nat} {reply : ReceivedReply Addr} {id : UInt16}
    (h : (e.receive blockSize reply id).1 = some e') :
    e.Continues e' ∧ e'.request.message.messageId =
      if reply.continues then id else e.request.message.messageId := by
  have before := continues_stored e reply
  have same_id : (e.store reply).dropObserve.request.message.messageId =
      e.request.message.messageId :=
    messageId_dropObserve.trans (messageId_store reply)
  have received := e.receives blockSize reply id
  generalize e.receive blockSize reply id = reaction at h received
  cases received with
  | failed error => cases h
  | asked noError q host next =>
    obtain rfl := Option.some.inj h
    obtain ⟨identity, observeCancelled⟩ := nextRequest_kept next
    refine ⟨before.trans ⟨?_, rfl, ?_⟩, ?_⟩
    · dsimp only
      rw [identity_transmit, InternalRequest.identity_setMessageId]
      exact identity
    · dsimp only
      rw [observeCancelled_transmit]
      exact observeCancelled
    · dsimp only
      rw [message_transmit,
        continues_eq noError blockSize (e.store reply).dropObserve.request, next]
      rfl
  | ended noError last =>
    obtain ⟨request, userReply⟩ := finish_kept h
    refine ⟨before.trans ⟨by rw [request], userReply, by rw [request]⟩, ?_⟩
    rw [request, same_id, continues_eq noError blockSize (e.store reply).dropObserve.request, last]
    rfl

theorem timeout_kept {maximumRetransmitCount : Nat}
    (h : (e.timeout maximumRetransmitCount).1 = some e') :
    e.Continues e' ∧ e'.request.message = e.request.message ∧ e'.replies = e.replies := by
  unfold timeout at h
  split_ifs at h
  · obtain rfl := Option.some.inj h
    exact ⟨⟨identity_transmit .., rfl, observeCancelled_transmit ..⟩, message_transmit .., rfl⟩
  · cases h

theorem firstBlocks_kept (r : InternalRequest) (blockSize : Nat) :
    (r.firstBlocks blockSize).identity = r.identity ∧
      (r.firstBlocks blockSize).message.messageId = r.message.messageId ∧
      (r.firstBlocks blockSize).observeCancelled = r.observeCancelled := by
  simp only [InternalRequest.firstBlocks]
  split_ifs <;> simp

/-- The entry a new exchange starts with. -/
theorem opened_entry (id : ReplyId) (r : InternalRequest) (blockSize timeout : Nat) :
    ∃ q : InternalRequest,
      (opened id r blockSize timeout : Reaction Addr).1 =
        some { userReply := some id, request := q } ∧
      q.identity = r.identity ∧ q.message = (r.firstBlocks blockSize).message ∧
      q.observeCancelled = r.observeCancelled := by
  obtain ⟨identity, -, observeCancelled⟩ := firstBlocks_kept r blockSize
  refine ⟨_, rfl, ?_, ?_, ?_⟩
  · rw [identity_transmit]
    exact identity
  · rw [message_transmit]
    rfl
  · rw [observeCancelled_transmit]
    exact observeCancelled

end ExchangeData

namespace Protocol

variable {s t : Protocol Addr} {os : List (Output Addr)} {event : Event Addr}

theorem isMessageIdRegistered_eq_false {Addr : Type} {s : Protocol Addr} {id : UInt16}
    (h : s.isMessageIdRegistered id = false) :
    id ≠ 0 ∧ ∀ {key e}, s.exchangeMap.find? key = some e → e.request.message.messageId ≠ id := by
  obtain ⟨nonzero, unused⟩ := Bool.or_eq_false_iff.mp h
  refine ⟨by simpa using nonzero, ?_⟩
  intro key e found same
  have used : s.exchangeMap.any (fun e => e.request.message.messageId == id) = true :=
    (Framework.OrderedMap.any_iff ..).mpr ⟨key, e, found, by simp [same]⟩
  rw [unused] at used
  cases used

/-- An entry may be replaced by one that is registered under a message ID no other has. -/
theorem Consistent.setExchange {Addr : Type} {s : Protocol Addr}
    (consistent : s.Consistent) (key : Token)
    (o : Option (ExchangeData Addr)) (registered : ∀ e', o = some e' → e'.Registered key)
    (distinct : ∀ e', o = some e' → ∀ {j e}, j ≠ key → s.exchangeMap.find? j = some e →
      e.request.message.messageId ≠ e'.request.message.messageId) :
    (s.setExchange key o).Consistent := by
  constructor
  · intro j e found
    rw [find?_setExchange] at found
    split_ifs at found with hj
    · exact hj ▸ registered e found
    · exact consistent.registered found
  · intro j j' e e' found found' same
    rw [find?_setExchange] at found found'
    split_ifs at found with hj <;> split_ifs at found' with hj'
    · exact hj.trans hj'.symm
    · exact absurd same.symm (distinct e found hj' found')
    · exact absurd same (distinct e' found' hj found)
    · exact consistent.distinct found found' same

/-- The same for an exchange that goes on under its message ID or a fresh one. -/
theorem Consistent.continues {Addr : Type} {s : Protocol Addr}
    (consistent : s.Consistent) {key : Token} {e : ExchangeData Addr}
    {o : Option (ExchangeData Addr)} (found : s.exchangeMap.find? key = some e)
    (later : ∀ e', o = some e' → e'.request.identity = e.request.identity ∧
      (e'.request.message.messageId = e.request.message.messageId ∨
        s.isMessageIdRegistered e'.request.message.messageId = false)) :
    (s.setExchange key o).Consistent := by
  apply consistent.setExchange
  · intro e' he'
    obtain ⟨identity, same | fresh⟩ := later e' he'
    · refine (consistent.registered found).of_identity identity ?_
      rw [same]
      exact (consistent.registered found).messageId
    · exact (consistent.registered found).of_identity identity
        (isMessageIdRegistered_eq_false fresh).1
  · intro e' he' j d hj found' same_id
    obtain ⟨-, same | fresh⟩ := later e' he'
    · exact hj (consistent.distinct found' found (same_id.trans same))
    · exact (isMessageIdRegistered_eq_false fresh).2 found' same_id

/-- The same for changes that keep keys and requests but for the cancelled flag. -/
theorem Consistent.of_each {Addr : Type} {s t : Protocol Addr} (consistent : s.Consistent)
    (each : ∀ {key e'}, t.exchangeMap.find? key = some e' → ∃ e,
      s.exchangeMap.find? key = some e ∧ e'.request.identity = e.request.identity ∧
        e'.request.message.messageId = e.request.message.messageId) : t.Consistent := by
  constructor
  · intro key e' found'
    obtain ⟨e, found, identity, same⟩ := each found'
    refine (consistent.registered found).of_identity identity ?_
    rw [same]
    exact (consistent.registered found).messageId
  · intro key key' d d' foundd foundd' same_id
    obtain ⟨e, found, -, same⟩ := each foundd
    obtain ⟨e', found', -, same'⟩ := each foundd'
    exact consistent.distinct found found' (same.symm.trans (same_id.trans same'))

theorem Registers.token_ne {Addr : Type} {s : Protocol Addr} {request : Request}
    {messageId : UInt16} {token : Token} (h : s.Registers request messageId token) :
    token ≠ [] := by
  have chosen := h.token
  split_ifs at chosen with none_set
  · intro empty
    simp [isTokenRegistered, empty] at chosen
  · rw [chosen]
    exact none_set

theorem Registers.registered {request : Request} {messageId : UInt16} {token : Token}
    (h : s.Registers request messageId token) (connection : ConnectionId) {e : ExchangeData Addr}
    (identity : e.request.identity = (s.completed request connection messageId token).identity)
    (same_id : e.request.message.messageId = messageId) : e.Registered token where
  key_ne := h.token_ne
  token := InternalRequest.token_of_identity identity
  messageId := by
    rw [same_id]
    exact (isMessageIdRegistered_eq_false h.messageId).1
  connected := ⟨connection, InternalRequest.connection_of_identity identity⟩
  method := by
    have method : e.request.method = request.method :=
      (InternalRequest.method_of_identity identity).trans (newRequest_method s request)
    rw [method]
    exact h.method

theorem Effect.consistent (h : Effect s os t event) (before : s.Consistent) : t.Consistent := by
  have left {key : Token} {reaction : Reaction Addr} (after : (t, os) = s.apply key reaction) :
      t = s.setExchange key reaction.1 := (Prod.mk.inj after).1
  cases h with
  | @opened id request connection draws messageId token timeout registers after =>
    rw [left after]
    let r := s.completed request connection messageId token
    obtain ⟨q, made, identity, message, -⟩ :=
      @ExchangeData.opened_entry Addr _ id r s.blockSize timeout
    have same_id : q.message.messageId = messageId :=
      (congrArg Message.messageId message).trans (ExchangeData.firstBlocks_kept r s.blockSize).2.1
    apply before.setExchange
    · intro e he
      obtain rfl := Option.some.inj (made.symm.trans he)
      exact registers.registered connection identity same_id
    · intro e he j d _ found
      obtain rfl := Option.some.inj (made.symm.trans he)
      exact fun same => (isMessageIdRegistered_eq_false registers.messageId).2 found
        (same.trans same_id)
  | @received data draws reply key e id admits fresh after =>
    rw [left after]
    apply before.continues admits.found
    intro e' he'
    obtain ⟨continues, messageId⟩ := ExchangeData.receive_kept he'
    refine ⟨continues.identity, ?_⟩
    split_ifs at messageId with more
    · exact .inr (messageId ▸ fresh more)
    · exact .inl messageId
  | @timedOut key e found after =>
    rw [left after]
    apply before.continues found
    intro e' he'
    obtain ⟨continues, message, -⟩ := ExchangeData.timeout_kept he'
    exact ⟨continues.identity, .inl (congrArg Message.messageId message)⟩
  | @spanReached key e found after =>
    rw [left after]
    exact before.continues found (fun e' he' => by cases he')
  | @expired key e found after =>
    rw [left after]
    exact before.continues found (fun e' he' => by cases he')
  | @aborted id token e found after =>
    rw [left after]
    exact before.continues found (fun e' he' => by cases he')
  | cancelled cancels | urlCancelled cancels =>
    apply before.of_each
    intro key e' found
    rcases cancels.each key with same | ⟨e, found', -, changed⟩
    · exact ⟨e', same ▸ found, rfl, rfl⟩
    · obtain rfl := Option.some.inj (changed.symm.trans found)
      exact ⟨e, found', rfl, rfl⟩
  | @destroyed id after =>
    obtain rfl := (Prod.mk.inj after).1
    apply before.of_each
    intro key e' found
    rw [find?_replyDestroyed] at found
    obtain ⟨e, found', rfl⟩ := Option.map_eq_some_iff.mp found
    refine ⟨e, found', ?_, ?_⟩
    · split_ifs <;> rfl
    · split_ifs <;> rfl
  | unchanged map posts =>
    apply before.of_each
    intro key e found
    exact ⟨e, map ▸ found, rfl, rfl⟩

theorem Consistent.step (before : s.Consistent) (h : Step s event os t) : t.Consistent :=
  (step_effect before h).consistent before

theorem Reachable.consistent (h : Reachable s) : s.Consistent := by
  refine Framework.Reachable.invariant (P := Consistent) ?_ (fun before h => before.step h) h
  intro s hs
  subst hs
  constructor
  · intro key e found
    simp at found
  · intro key key' e e' found
    simp at found

theorem sendRequest_fault {reply : Option ReplyId} {request : Request}
    {connection : ConnectionId} {draws : Draws} {f : Fault}
    (h : s.sendRequest reply request connection draws = .error f) : f = .moreDraws := by
  unfold sendRequest at h
  cases reply with
  | none => cases h
  | some id =>
    dsimp only at h
    split_ifs at h
    rcases Framework.bind_error h with drawn | ⟨⟨messageId, draws'⟩, -, h⟩
    · exact messageIdLoop_error drawn
    rcases Framework.bind_error h with chosen | ⟨⟨token, draws''⟩, -, h⟩
    · unfold chosenToken at chosen
      split_ifs at chosen
      exact tokenLoop_error chosen
    · dsimp only at h
      rw [openExchange_eq] at h
      have timeout := Framework.map_error h
      unfold requestTimeout at timeout
      split_ifs at timeout
      exact bounded_error timeout

theorem cancelObserveUrl_fault {Addr : Type} {s : Protocol Addr} {url : Url}
    {view : ReplyId → Url × Token} {f : Fault} (h : s.cancelObserveUrl url view = .error f) :
    f = .nullReply := by
  unfold cancelObserveUrl at h
  generalize s.exchangeMap.entries = entries at h
  generalize (s, []) = acc at h
  induction entries generalizing acc with
  | nil => cases h
  | cons entry entries ih =>
    rw [List.foldlM_cons] at h
    rcases Framework.bind_error h with one | ⟨acc', -, rest⟩
    · unfold cancelEntry at one
      cases hu : entry.2.userReply with
      | none =>
        rw [hu] at one
        exact (Except.error.inj one).symm
      | some id =>
        rw [hu] at one
        dsimp only at one
        split_ifs at one
    · exact ih acc' rest

/-- Acknowledgements find the reply they are about. -/
theorem Consistent.step_ne_noReply (consistent : s.Consistent) (event : Event Addr) :
    s.step event ≠ .error .noReply := by
  intro h
  cases event with
  | sendRequest reply request connection draws => cases sendRequest_fault h
  | cancelObserveUrl url view => cases cancelObserveUrl_fault h
  | frameReceived data sender draws =>
    rcases onFrameReceived_cases h with ⟨fault, decoded, hf⟩ | dropped |
      ⟨reply, key, e, rfl, admits⟩
    · obtain ⟨index, rfl, -⟩ := createFromFrame_error _ decoded
      cases hf
    · cases dropped
    · have handled : s.onFrameReceived data reply.senderAddress draws = .error .noReply := h
      rw [onFrameReceived_of_admits consistent admits] at handled
      split_ifs at handled
      cases messageIdLoop_error (Framework.map_error handled)
  | _ => cases h

/-- The map of exchanges in every reachable state: keys are the tokens of the requests under
them, message IDs are set and tell the exchanges apart, and no acknowledgement looks for a last
reply where none is stored. -/
theorem exchangeMap_invariant (h : Reachable s) :
    (∀ key e, s.exchangeMap.find? key = some e →
      key ≠ [] ∧ e.request.token = key ∧ e.request.message.messageId ≠ 0) ∧
    (∀ key key' e e', s.exchangeMap.find? key = some e → s.exchangeMap.find? key' = some e' →
      key ≠ key' → e.request.message.messageId ≠ e'.request.message.messageId) ∧
    ∀ event, s.step event ≠ .error .noReply := by
  have consistent := Reachable.consistent h
  refine ⟨?_, ?_, consistent.step_ne_noReply⟩
  · intro key e found
    have registered := consistent.registered found
    exact ⟨registered.key_ne, registered.token, registered.messageId⟩
  · intro key key' e e' found found' other same
    exact other (consistent.distinct found found' same)

/-- Two requests under way, one with a generated token. -/
def twoExchanges : Protocol IPv4Address :=
  after [.sendRequest (some 0) (getRequest [1, 2]) 0 [7, 0],
    .sendRequest (some 1) (getRequest []) 0 [7, 9, 0, 11, 12, 13, 14, 0]]

theorem exchangeMap_invariant_twoExchanges :
    (twoExchanges.exchangeMap.entries.map fun entry =>
        (entry.1, entry.2.request.message.messageId)) = [([1, 2], 7), ([11, 12, 13, 14], 9)] ∧
    (∀ key e, twoExchanges.exchangeMap.find? key = some e →
      key ≠ [] ∧ e.request.token = key ∧ e.request.message.messageId ≠ 0) ∧
    (∀ key key' e e', twoExchanges.exchangeMap.find? key = some e →
      twoExchanges.exchangeMap.find? key' = some e' →
      key ≠ key' → e.request.message.messageId ≠ e'.request.message.messageId) ∧
    ∀ event, twoExchanges.step event ≠ .error .noReply :=
  ⟨by decide +kernel, exchangeMap_invariant (reachable_after _)⟩

end Protocol

end QtCoap
