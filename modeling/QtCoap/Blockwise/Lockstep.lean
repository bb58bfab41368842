import QtCoap.Blockwise.Delivery
import QtCoap.Blockwise.Download
import QtCoap.Blockwise.Preconditions
import QtCoap.Protocol.Multicast
import QtCoap.Protocol.Transmission

namespace QtCoap

variable {Addr : Type} [Platform Addr]

/-! Transfers in rounds: each request is answered in time, whatever happens to other exchanges
meanwhile. -/

section Trace

variable {α β : Type} {asks : Message → α} {brings : Message → β} {id : ReplyId} {token : Token}
  {os : List (Output Addr)}

/-- What is to be seen of a transfer in an output: what a request of its exchange asks, and what a
content brings that is posted to its reply. -/
def Output.transferItem (asks : Message → α) (brings : Message → β) (id : ReplyId)
    (token : Token) : Output Addr → Option (α ⊕ β)
  | .frame message _ _ _ _ => if message.token = token then some (.inl (asks message)) else none
  | .post id' (.setContent _ message _) =>
    if id' = id then some (.inr (brings message)) else none
  | _ => none

def transferTrace (asks : Message → α) (brings : Message → β) (id : ReplyId) (token : Token)
    (os : List (Output Addr)) : List (α ⊕ β) :=
  os.filterMap (Output.transferItem asks brings id token)

theorem transferTrace_append {Addr : Type} (os os' : List (Output Addr)) :
    transferTrace asks brings id token (os ++ os') =
      transferTrace asks brings id token os ++ transferTrace asks brings id token os' :=
  List.filterMap_append

theorem transferTrace_eq_nil {Addr : Type} {os : List (Output Addr)}
    (silent : ∀ o ∈ os, o.transferItem asks brings id token = none) :
    transferTrace asks brings id token os = [] :=
  List.filterMap_eq_nil_iff.mpr silent

/-- Without a content these are the requests. -/
theorem transferTrace_of_silent {Addr : Type} {os : List (Output Addr)}
    (silent : ∀ id sender message code, .post id (.setContent sender message code) ∉ os) :
    transferTrace asks brings id token os = (requestsOf token os).map fun m => .inl (asks m) := by
  rw [transferTrace, requestsOf, sentTo, List.map_filterMap, List.map_filterMap]
  apply List.filterMap_congr
  intro o ho
  cases o with
  | frame message method connection host port =>
    simp only [Output.transferItem]
    split_ifs <;> rfl
  | post id' slot =>
    cases slot with
    | setContent sender message code => exact absurd ho (silent _ _ _ _)
    | _ => rfl
  | _ => rfl

end Trace

namespace ExchangeData

variable {α β : Type} {asks : Message → α} {brings : Message → β} {e : ExchangeData Addr}
  {reply : ReceivedReply Addr} {id : ReplyId} {blockSize : Nat} {messageId : UInt16} {key : Token}

/-- A unicast exchange without observation. -/
structure Single (e : ExchangeData Addr) : Prop where
  unicast : e.request.isMulticast Addr = false
  noObserve : e.request.isObserve = false
  observeCancelled : e.request.observeCancelled = false

theorem Single.store (h : e.Single) (reply : ReceivedReply Addr) : (e.store reply).Single := by
  have same := continues_store e reply
  refine ⟨?_, ?_, same.observeCancelled.trans h.observeCancelled⟩
  · rw [InternalRequest.isMulticast_of_identity Addr same.identity]
    exact h.unicast
  · have observe := h.noObserve
    simp only [InternalRequest.isObserve] at observe ⊢
    rw [message_store]
    exact observe

theorem Single.dropObserve (h : e.Single) : e.dropObserve = e := by
  simp only [ExchangeData.dropObserve]
  rw [h.observeCancelled]
  rfl

/-- A successful response to it ends it. -/
theorem Single.finish (h : e.Single) (user : e.userReply = some id)
    (last : e.replies.getLast? = some reply) (success : isSuccess reply.responseCode = true)
    (sender : Addr) : e.finish sender =
      (none, [.post id (.setContent reply.senderAddress
          (assembled false e.replies reply sender).message reply.responseCode),
        .post id (.setFinished .ok)]) := by
  have notEmpty : ¬ (reply.message.type = .acknowledgment ∧
      reply.responseCode = ResponseCode.emptyMessage) := by
    rintro ⟨-, empty⟩
    rw [empty] at success
    cases success
  simp only [ExchangeData.finish]
  rw [user, last]
  dsimp only
  rw [h.noObserve, h.unicast, if_neg (by simp), if_neg notEmpty]
  simp

/-- It stays so as long as it goes on. -/
theorem Single.receive (h : e.Single) {e' : ExchangeData Addr}
    (left : (e.receive blockSize reply messageId).1 = some e') : e'.Single := by
  have same := (receive_kept left).1
  refine ⟨?_, ?_, same.observeCancelled.trans h.observeCancelled⟩
  · rw [InternalRequest.isMulticast_of_identity Addr same.identity]
    exact h.unicast
  · have observe := h.noObserve
    simp only [InternalRequest.isObserve, Message.hasOption_eq] at observe ⊢
    rcases receive_options left (by decide : OptionName.observe ≠ OptionName.block1)
      (by decide : OptionName.observe ≠ OptionName.block2) with kept | ⟨cancelled, -⟩
    · rw [kept]
      exact observe
    · rw [h.observeCancelled] at cancelled
      cases cancelled

theorem transferTrace_acknowledge (key_ne : key ≠ []) (reply : ReceivedReply Addr) :
    transferTrace asks brings id key (e.acknowledge reply) = [] := by
  apply transferTrace_eq_nil
  intro o ho
  obtain ⟨message, _, _, _, _, rfl, empty⟩ := mem_acknowledge ho
  exact if_neg fun own => key_ne (own.symm.trans empty)

/-- A response that does not end the exchange is followed by the next request. -/
theorem transferTrace_receive_of_next (registered : e.Registered key)
    (noError : isError reply.responseCode = false) {q : InternalRequest} {host : QString}
    (next : nextRequest blockSize reply (e.store reply).dropObserve.request = some (q, host)) :
    transferTrace asks brings id key (e.receive blockSize reply messageId).2 =
      [.inl (asks (q.setMessageId messageId).message)] := by
  rw [transferTrace_of_silent, requestsOf_receive registered noError next, List.map_singleton]
  intro id' sender message code posted
  rw [receive_of_next e noError next] at posted
  rcases List.mem_append.mp posted with acknowledgment | request
  · obtain ⟨_, _, _, _, _, frame, -⟩ := mem_acknowledge acknowledgment
    cases frame
  · exact post_not_mem_transmit _ _ _ _ request

/-- The last response ends the exchange, and its content is handed over. -/
theorem Single.receive_last (h : e.Single) (asks : Message → α) (brings : Message → β)
    (blockSize : Nat) (messageId : UInt16) (user : e.userReply = some id) (key_ne : key ≠ [])
    (success : isSuccess reply.responseCode = true) (final : reply.continues = false) :
    (e.receive blockSize reply messageId).1 = none ∧
      transferTrace asks brings id key (e.receive blockSize reply messageId).2 =
        [.inr (brings
          (assembled false (e.store reply).replies reply reply.senderAddress).message)] := by
  have stored := h.store reply
  have newest : (e.store reply).replies.getLast? = some reply := List.getLast?_concat
  have finished := stored.finish user newest success reply.senderAddress
  rw [receive_of_final e (not_isError_of_isSuccess success) final, stored.dropObserve, finished]
  refine ⟨rfl, ?_⟩
  rw [transferTrace_append, transferTrace_acknowledge key_ne]
  simp [transferTrace, Output.transferItem]

end ExchangeData

/-- All blocks are in: the payload is the whole representation. -/
theorem Downloading.payload_last {server : BlockServer} {e : ExchangeData Addr}
    {reply : ReceivedReply Addr} {k : Nat} (h : Downloading server e)
    (number : reply.currentBlockNumber = k) (carries : server.Carries reply.toInternalReply k)
    (small : k < 2 ^ 20) (below : ∀ j < k, ∃ r ∈ e.replies, r.currentBlockNumber = j)
    (reaches : server.representation.length ≤ (k + 1) * server.size) :
    (assembled false (e.store reply).replies reply reply.senderAddress).message.payload =
      server.representation := by
  have stored := h.store number carries small
  have grown : (e.store reply).replies = e.replies ++ [reply] := rfl
  have present : ∀ j < k + 1, ∃ r ∈ e.replies ++ [reply], r.currentBlockNumber = j := by
    intro j hj
    by_cases own : j = k
    · exact ⟨reply, by simp, number.trans own.symm⟩
    · obtain ⟨r, hr, numbered⟩ := below j (by omega)
      exact ⟨r, by simp [hr], numbered⟩
  have limit : ∀ r ∈ e.replies ++ [reply], r.currentBlockNumber < 2 ^ 31 := by
    intro r hr
    have inside := stored.small r hr
    omega
  rw [grown, payload_assembled e.replies (by omega)]
  exact mergedPayload_of_blocks limit stored.blocks present reaches (by omega)

theorem Downloading.single {server : BlockServer} {e : ExchangeData Addr}
    (h : Downloading server e) : e.Single :=
  ⟨h.unicast, h.isObserve, h.observeCancelled⟩

/-- Whether the event fires a timer of the exchange or takes it away. -/
def Event.drives (token : Token) : Event Addr → Bool
  | .timeout key | .maxTransmissionSpanReached key | .multicastRequestExpired key
  | .aborted _ key => key == token
  | _ => false

namespace Protocol

variable {s t : Protocol Addr} {os : List (Output Addr)} {id : ReplyId} {token : Token}

/-- The exchange that is opened, and the frame that is sent for it. -/
theorem opened_of_sendRequest {request : Request} {connection : ConnectionId} {draws : Draws}
    (consistent : s.Consistent)
    (sent : Step s (.sendRequest (some id) request connection draws) os t) {messageId : UInt16}
    (running : .post id (.setRunning token messageId) ∈ os) :
    ∃ messageId timeout e, token ≠ [] ∧
      (ExchangeData.opened id (s.completed request connection messageId token) s.blockSize
        timeout : Reaction Addr).1 = some e ∧
      t.exchangeMap.find? token = some e ∧ e.userReply = some id ∧ e.replies = [] ∧
      requestsOf token os = [e.request.message] := by
  cases step_effect consistent sent with
  | unchanged map posts => rcases posts with rfl | ⟨error, rfl⟩ <;> simp at running
  | opened messageId' token' timeout registers after =>
    obtain ⟨rfl, rfl⟩ := Prod.mk.inj after
    have same : token = token' := by
      rcases List.mem_cons.mp running with own | later
      · cases own
        rfl
      · exact absurd later (post_not_mem_transmit _ _ _ _)
    subst same
    let r := ((s.completed request connection messageId' token).firstBlocks s.blockSize).setTimeout
      timeout
    have identity := (ExchangeData.firstBlocks_kept
      (s.completed request connection messageId' token) s.blockSize).1
    have own : r.token = token := InternalRequest.token_of_identity identity
    have connected := s.opened_connected request connection messageId' token timeout
    have transmitted := @requestsOf_transmit Addr _ r connected []
    rw [own] at transmitted
    refine ⟨messageId', timeout, { userReply := some id, request := (transmit Addr r []).1 },
      registers.token_ne, rfl, ?_, rfl, rfl, ?_⟩
    · rw [find?_setExchange, if_pos rfl]
      rfl
    · refine Eq.trans ?_ transmitted |>.trans ?_
      · rfl
      · rw [message_transmit]

/-- No timer of the exchange fires. The user keeps the reply and does not abort it, and no other
request gets its token. What other exchanges do is free. -/
structure Unhindered (id : ReplyId) (token : Token) (x : Taken Addr) : Prop where
  waits : x.event.drives token = false
  kept : x.event ≠ .replyDestroyed id
  single : x.event.sends id = false
  other : OpensOther token x.outputs

/-- Whether the step adds a response to the exchange. -/
def responds (token : Token) (x : Taken Addr) : Bool :=
  match x.event with
  | .frameReceived data sender _ =>
    (x.source.attribution data sender).any fun found => found.2.1 == token
  | _ => false

section Rounds

variable {α β : Type} {asks : Message → α} {brings : Message → β}
  {Waits : Nat → ExchangeData Addr → Prop} {n k : Nat} {event : Event Addr}

/-- Where a transfer of `n` rounds stands behind `k` of them. -/
structure AtRound (Waits : Nat → ExchangeData Addr → Prop) (n : Nat) (id : ReplyId) (token : Token)
    (k : Nat) (s : Protocol Addr) : Prop where
  consistent : s.Consistent
  token_ne : token ≠ []
  owns : ∀ key, s.Owns key id → key = token
  waiting : k < n → ∃ e, s.exchangeMap.find? token = some e ∧ Waits k e
  ended : ¬ k < n → s.exchangeMap.find? token = none

/-- The request of another token is sent for the first time. -/
theorem transferTrace_opened {id' : ReplyId} {request : Request} {connection : ConnectionId}
    {messageId : UInt16} {token' : Token} {timeout : Nat} (ne : token ≠ token') :
    transferTrace asks brings id token
      (ExchangeData.opened id' (s.completed request connection messageId token') s.blockSize
        timeout : Reaction Addr).2 = [] := by
  apply transferTrace_eq_nil
  intro o ho
  rcases List.mem_cons.mp ho with rfl | sent
  · rfl
  · obtain ⟨_, _, _, _, rfl⟩ := mem_transmit sent
    apply if_neg
    intro own
    have identity := (ExchangeData.firstBlocks_kept
      (s.completed request connection messageId token') s.blockSize).1
    exact ne (own.symm.trans (InternalRequest.token_of_identity identity))

namespace AtRound

/-- What the exchange of another key puts out is not to be seen of the transfer. -/
theorem trace_reaction (h : AtRound Waits n id token k s) {key : Token} {e : ExchangeData Addr}
    {reaction : Reaction Addr} (found : s.exchangeMap.find? key = some e)
    (reacts : e.Reacts s key event reaction) (consistent : t.Consistent)
    (after : t = s.setExchange key reaction.1) (other : key ≠ token) :
    transferTrace asks brings id token reaction.2 = [] := by
  apply transferTrace_eq_nil
  intro o ho
  obtain ⟨posts, frames⟩ := reacts.issues ho
  cases o with
  | frame message method connection host port =>
    apply if_neg
    intro own
    rcases frames _ _ _ _ _ rfl with empty | ⟨e', left, rfl⟩
    · exact h.token_ne (own.symm.trans empty)
    · have found' : t.exchangeMap.find? key = some e' := by
        rw [after, find?_setExchange, if_pos rfl, left]
      exact other ((consistent.registered found').token.symm.trans own)
  | post id' slot =>
    cases slot with
    | setContent sender message code =>
      apply if_neg
      intro own
      exact other (h.owns key ⟨e, found, own ▸ posts id' _ rfl⟩)
    | _ => rfl
  | _ => rfl

/-- An exchange that waits for a round is that of the reply, and no observe request. -/
theorem waits_of_found {Addr : Type} {Waits : Nat → ExchangeData Addr → Prop} {s : Protocol Addr}
    (h : AtRound Waits n id token k s)
    (waits : ∀ {k e}, Waits k e → e.userReply = some id ∧ e.request.isObserve = false)
    {e : ExchangeData Addr} (found : s.exchangeMap.find? token = some e) :
    e.userReply = some id ∧ e.request.isObserve = false := by
  by_cases inside : k < n
  · obtain ⟨e', found', waiting⟩ := h.waiting inside
    obtain rfl := Option.some.inj (found.symm.trans found')
    exact waits waiting
  · rw [h.ended inside] at found
    cases found

/-- Another exchange reacts. -/
theorem passed_by_reaction (h : AtRound Waits n id token k s) {key : Token} {e : ExchangeData Addr}
    {reaction : Reaction Addr} (found : s.exchangeMap.find? key = some e)
    (reacts : e.Reacts s key event reaction) (consistent : t.Consistent)
    (after : (t, os) = s.apply key reaction) (other : key ≠ token) :
    t.exchangeMap.find? token = s.exchangeMap.find? token ∧
      transferTrace asks brings id token os = [] := by
  obtain ⟨target, outputs⟩ := Prod.mk.inj after
  refine ⟨?_, outputs ▸ h.trace_reaction found reacts consistent target other⟩
  rw [target, find?_setExchange, if_neg other.symm]

/-- Observe requests are cancelled. -/
theorem passed_by_cancelled {Addr : Type} {asks : Message → α} {brings : Message → β}
    {Waits : Nat → ExchangeData Addr → Prop} {s t : Protocol Addr} {os : List (Output Addr)}
    (h : AtRound Waits n id token k s)
    (waits : ∀ {k e}, Waits k e → e.userReply = some id ∧ e.request.isObserve = false)
    (cancels : ObserveCancelled s t os) :
    t.exchangeMap.find? token = s.exchangeMap.find? token ∧
      transferTrace asks brings id token os = [] := by
  refine ⟨?_, transferTrace_eq_nil fun o ho => ?_⟩
  · rcases cancels.each token with same | ⟨e, found, observe, -⟩
    · exact same
    · rw [(h.waits_of_found waits found).2] at observe
      cases observe
  · obtain ⟨_, rfl⟩ := cancels.posts o ho
    rfl

/-- A step that the exchange takes no part in. -/
theorem passed_by (h : AtRound Waits n id token k s)
    (waits : ∀ {k e}, Waits k e → e.userReply = some id ∧ e.request.isObserve = false)
    {x : Taken Addr} (source : x.source = s) (step : Step s x.event x.outputs x.target)
    (unhindered : Unhindered id token x) (noResponse : responds token x = false) :
    x.target.exchangeMap.find? token = s.exchangeMap.find? token ∧
      transferTrace asks brings id token x.outputs = [] := by
  have enabled := step.1
  have consistent := h.consistent.step step
  obtain ⟨drives, kept, single, opens⟩ := unhindered
  obtain ⟨source', event, os, t⟩ := x
  obtain rfl : source' = s := source
  dsimp only at *
  cases step_effect h.consistent step with
  | @opened _ request connection _ messageId token' timeout registers after =>
    obtain ⟨rfl, rfl⟩ := Prod.mk.inj after
    have ne : token ≠ token' := by
      rintro rfl
      exact opens _ _ List.mem_cons_self
    exact ⟨by rw [find?_setExchange, if_neg ne], transferTrace_opened ne⟩
  | @received data draws reply key e mid admits fresh after =>
    have reacts : e.Reacts source' key (.frameReceived data reply.senderAddress draws) _ :=
      .received mid admits fresh
    refine h.passed_by_reaction admits.found reacts consistent after ?_
    simpa [responds, attribution_eq_some_iff.mpr ⟨rfl, admits⟩] using noResponse
  | timedOut e found after =>
    have runs := (timerRuns_iff found _).mp enabled
    exact h.passed_by_reaction found (.timedOut runs) consistent after
      (by simpa [Event.drives] using drives)
  | spanReached e found after =>
    have runs := (timerRuns_iff found _).mp enabled
    exact h.passed_by_reaction found (.spanReached runs) consistent after
      (by simpa [Event.drives] using drives)
  | expired e found after =>
    have runs := (timerRuns_iff found _).mp enabled
    exact h.passed_by_reaction found (.expired runs) consistent after
      (by simpa [Event.drives] using drives)
  | @aborted id' key e found after =>
    have reacts : e.Reacts source' key (.aborted id' key) _ := .aborted
    exact h.passed_by_reaction found reacts consistent after
      (by simpa [Event.drives] using drives)
  | cancelled cancels => exact h.passed_by_cancelled waits cancels
  | urlCancelled cancels => exact h.passed_by_cancelled waits cancels
  | @destroyed id' after =>
    obtain ⟨rfl, rfl⟩ := Prod.mk.inj after
    refine ⟨?_, rfl⟩
    rw [find?_replyDestroyed]
    cases found : source'.exchangeMap.find? token with
    | none => rfl
    | some e =>
      have other : id ≠ id' := by
        rintro rfl
        exact kept rfl
      simp [(h.waits_of_found waits found).1, other]
  | unchanged map posts =>
    refine ⟨by rw [map], ?_⟩
    rcases posts with rfl | ⟨error, rfl⟩ <;> rfl

/-- The state behind a round. -/
theorem next (h : AtRound Waits n id token k s) {e : ExchangeData Addr} {reaction : Reaction Addr}
    (found : s.exchangeMap.find? token = some e) (reacts : e.Reacts s token event reaction)
    (consistent : (s.setExchange token reaction.1).Consistent)
    (goesOn : if k + 1 < n then ∃ e', reaction.1 = some e' ∧ Waits (k + 1) e'
      else reaction.1 = none) :
    AtRound Waits n id token (k + 1) (s.setExchange token reaction.1) := by
  refine ⟨consistent, h.token_ne, ?_, ?_, ?_⟩
  · intro key owns
    exact h.owns key (owns.of_reaction found reacts)
  · intro more
    rw [if_pos more] at goesOn
    obtain ⟨e', left, waits⟩ := goesOn
    exact ⟨e', by rw [find?_setExchange, if_pos rfl, left], waits⟩
  · intro last
    rw [if_neg last] at goesOn
    rw [find?_setExchange, if_pos rfl, goesOn]

end AtRound

/-- What a response is to a transfer: it brings it one item further in its script, and at the end
of the script it ends the exchange. -/
def Advances (asks : Message → α) (brings : Message → β) (Waits : Nat → ExchangeData Addr → Prop)
    (n : Nat) (script : List (α ⊕ β)) (id : ReplyId) (token : Token) (x : Taken Addr) : Prop :=
  ∀ {data reply draws k e} (messageId : UInt16),
    x.event = .frameReceived data reply.senderAddress draws → x.source.Admits data reply token e →
    e.Registered token → Waits k e → k < n →
    let reaction := e.receive x.source.blockSize reply messageId
    transferTrace asks brings id token reaction.2 = script[k + 1]?.toList ∧
      if k + 1 < n then ∃ e', reaction.1 = some e' ∧ Waits (k + 1) e' else reaction.1 = none

theorem AtRound.round {script : List (α ⊕ β)} (h : AtRound Waits n id token k s)
    (waits : ∀ {k e}, Waits k e → e.userReply = some id ∧ e.request.isObserve = false)
    {x : Taken Addr} (source : x.source = s) (step : Step s x.event x.outputs x.target)
    (unhindered : Unhindered id token x)
    (advances : Advances asks brings Waits n script id token x) :
    if responds token x then k < n ∧ AtRound Waits n id token (k + 1) x.target ∧
      transferTrace asks brings id token x.outputs = script[k + 1]?.toList
    else AtRound Waits n id token k x.target ∧
      transferTrace asks brings id token x.outputs = [] := by
  split_ifs with response
  · obtain ⟨source', event, os, t⟩ := x
    obtain rfl : source' = s := source
    cases event with
    | frameReceived data sender draws =>
      obtain ⟨⟨reply, key, e⟩, attributed, own⟩ := (Option.any_eq_true ..).mp response
      obtain rfl : key = token := beq_iff_eq.mp own
      obtain ⟨rfl, admits⟩ := attribution_eq_some_iff.mp attributed
      by_cases inside : k < n
      · obtain ⟨e', found, waiting⟩ := h.waiting inside
        obtain rfl := Option.some.inj (admits.found.symm.trans found)
        have consistent := h.consistent.step step
        obtain ⟨mid, fresh, after⟩ := apply_of_admits h.consistent admits step
        obtain ⟨rfl, rfl⟩ := Prod.mk.inj after
        obtain ⟨shown, goesOn⟩ :=
          advances mid rfl admits (h.consistent.registered found) waiting inside
        have reacts : e.Reacts source' key (.frameReceived data reply.senderAddress draws) _ :=
          .received mid admits fresh
        exact ⟨inside, h.next found reacts consistent goesOn, shown⟩
      · have found := admits.found
        rw [h.ended inside] at found
        cases found
    | _ => cases response
  · obtain ⟨found, silent⟩ := h.passed_by waits source step unhindered (by simpa using response)
    refine ⟨⟨h.consistent.step step, h.token_ne, ?_, ?_, ?_⟩, silent⟩
    · intro key owns
      obtain ⟨opened, back⟩ := (step_change h.consistent step).owns id
      rcases back key owns with before | ⟨sends, -⟩
      · exact h.owns key before
      · rw [unhindered.single] at sends
        cases sends
    · intro inside
      rw [found]
      exact h.waiting inside
    · intro last
      rw [found]
      exact h.ended last

/-- The transfer behind the request that opens it. -/
theorem atRound_of_sendRequest (asks : Message → α) (brings : Message → β)
    (consistent : s.Consistent) {request : Request} {connection : ConnectionId} {draws : Draws}
    (sent : Step s (.sendRequest (some id) request connection draws) os t)
    (unused : ∀ key, ¬ s.Owns key id) (token_ne : token ≠ []) {e : ExchangeData Addr}
    (found : t.exchangeMap.find? token = some e) (user : e.userReply = some id)
    (waits : Waits 0 e) (positive : 0 < n)
    (requests : requestsOf token os = [e.request.message]) :
    AtRound Waits n id token 0 t ∧
      transferTrace asks brings id token os = [.inl (asks e.request.message)] := by
  have change := step_change consistent sent
  refine ⟨⟨consistent.step sent, token_ne, ?_, fun _ => ⟨e, found, waits⟩,
    fun none => absurd positive none⟩, ?_⟩
  · obtain ⟨token', back⟩ := change.owns id
    have new (key : Token) (owns : t.Owns key id) : key = token' :=
      ((back key owns).resolve_left (unused key)).2
    intro key owns
    exact (new key owns).trans (new token ⟨e, found, user⟩).symm
  · rw [transferTrace_of_silent, requests, List.map_singleton]
    intro id' sender message code posted
    obtain ⟨_, _, _, _, _, _, received, -⟩ := change.content posted
    cases received

/-- A transfer goes by its script, an item for the request and one for each response. -/
theorem AtRound.run {script : List (α ⊕ β)} {tr : List (Taken Addr)} {u : Protocol Addr}
    (start : AtRound Waits n id token 0 t)
    (waits : ∀ {k e}, Waits k e → e.userReply = some id ∧ e.request.isObserve = false)
    (length : script.length = n + 1)
    (opening : transferTrace asks brings id token os = script[0]?.toList)
    (run : Framework.Run Step t tr u) (unhindered : ∀ x ∈ tr, Unhindered id token x)
    (advances : ∀ x ∈ tr, Advances asks brings Waits n script id token x) :
    let responses := tr.countP (responds token)
    responses ≤ n ∧
      transferTrace asks brings id token (os ++ tr.flatMap (·.outputs)) =
        script.take (responses + 1) ∧
      (u.exchangeMap.find? token = none ↔ responses = n) := by
  intro responses
  have rest : script.tail.length = n := by
    rw [List.length_tail, length]
    rfl
  obtain ⟨below, stands, trace⟩ := Framework.Run.rounds (AtRound Waits n id token)
    (responds token) (transferTrace asks brings id token) script.tail run
    (fun x hx k step stage => by
      rw [rest, List.getElem?_tail]
      exact stage.round waits rfl step (unhindered x hx) (advances x hx)) start
  rw [rest] at below
  refine ⟨below, ?_, ?_⟩
  · have shown : transferTrace asks brings id token (tr.flatMap (·.outputs)) =
        tr.flatMap fun x => transferTrace asks brings id token x.outputs := List.filterMap_flatMap
    rw [transferTrace_append, opening, shown, trace]
    cases script with
    | nil => cases length
    | cons item script => rfl
  · constructor
    · intro gone
      by_contra goesOn
      obtain ⟨e, found, -⟩ := stands.waiting (by omega)
      rw [found] at gone
      cases gone
    · intro all
      exact stands.ended (by omega)

end Rounds

end Protocol

/-! A download, block by block. -/

namespace BlockServer

variable (server : BlockServer)

/-- How many blocks the representation has; at least one. -/
def blocks : Nat := Framework.blockCount server.size server.representation.length

/-- The course of a download: each block is asked for once, in order, and then the representation
is handed over. -/
def script : List (Nat ⊕ QByteArray) :=
  (List.range server.blocks).map .inl ++ [.inr server.representation]

end BlockServer

theorem script_of_lt {α β : Type} (f : Nat → α) (b : β) {n k : Nat} (inside : k < n) :
    ((List.range n).map (fun k => (.inl (f k) : α ⊕ β)) ++ [.inr b])[k]? = some (.inl (f k)) := by
  rw [List.getElem?_append_left (by simpa using inside), List.getElem?_map,
    List.getElem?_range inside]
  rfl

theorem script_of_eq {α β : Type} (f : Nat → α) (b : β) (n : Nat) :
    ((List.range n).map (fun k => (.inl (f k) : α ⊕ β)) ++ [.inr b])[n]? = some (.inr b) := by
  rw [List.getElem?_append_right (by simp)]
  simp

namespace Protocol

variable {s t : Protocol Addr} {os : List (Output Addr)} {id : ReplyId} {token : Token}

section Download

variable {server : BlockServer}

/-- The exchange waits for block `k`. -/
structure Awaiting (server : BlockServer) (id : ReplyId) (k : Nat) (e : ExchangeData Addr) :
    Prop where
  user : e.userReply = some id
  downloading : Downloading server e
  asked : askedBlock e.request.message = k

/-- Block `k` has come: the next one is asked for, or the whole is handed over. -/
theorem Awaiting.receive {k : Nat} {e : ExchangeData Addr} (h : Awaiting server id k e)
    (registered : e.Registered token) {reply : ReceivedReply Addr} {data : QByteArray}
    (decoded : createFromFrame (Platform.junk Addr) data = .ok reply.toInternalReply)
    (carries : server.Carries reply.toInternalReply k)
    (plain : reply.message.optionsNamed OptionName.block1 = [])
    (fits : server.blocks ≤ 2 ^ 20) (positive : 0 < server.size) (inside : k < server.blocks)
    (blockSize : Nat) (messageId : UInt16) :
    let reaction := e.receive blockSize reply messageId
    transferTrace askedBlock Message.payload id token reaction.2 =
        server.script[k + 1]?.toList ∧
      if k + 1 < server.blocks then ∃ e', reaction.1 = some e' ∧ Awaiting server id (k + 1) e'
      else reaction.1 = none := by
  intro reaction
  have small : k < 2 ^ 20 := by omega
  have noError := not_isError_of_isSuccess carries.success
  obtain ⟨number, more⟩ := carries.block_fields (Platform.junk Addr) decoded small
  have noneToSend : reply.hasMoreBlocksToSend (Platform.junk Addr) = false :=
    InternalReply.hasMoreBlocksToSend_of_none plain _
  have follows : Follows e.replies e.request.message := h.downloading.follows
  have below : ∀ j < k, ∃ r ∈ e.replies, r.currentBlockNumber = j := h.asked ▸ follows.stored
  have next_iff := Framework.succ_lt_blockCount positive server.representation.length k
  split_ifs with goesOn
  · -- the More flag is set
    have toReceive : reply.hasMoreBlocksToReceive = true := by
      rw [InternalReply.hasMoreBlocksToReceive, more]
      exact decide_eq_true (next_iff.mp goesOn)
    have next : ExchangeData.nextRequest blockSize reply (e.store reply).dropObserve.request =
        some ((e.store reply).dropObserve.request.setToRequestBlock (k + 1) reply.blockSize,
          Platform.toString reply.senderAddress) := by
      have wrapped : (k + 1) % 2 ^ 32 = k + 1 := Nat.mod_eq_of_lt (by omega)
      simp only [ExchangeData.nextRequest]
      rw [noneToSend, toReceive, number, wrapped]
      rfl
    have left : reaction.1 = some _ :=
      congrArg Prod.fst (@ExchangeData.receive_of_next Addr _ e blockSize reply messageId noError
        _ _ next)
    have asked := (e.store reply).dropObserve.request.askedBlock_setToRequestBlock
      reply.blockSize (by omega : k + 1 < 2 ^ 20)
    refine ⟨?_, _, left, ?_, (h.downloading.receive_block number carries small below left).1, ?_⟩
    · rw [ExchangeData.transferTrace_receive_of_next registered noError next, BlockServer.script,
        script_of_lt _ _ goesOn]
      exact congrArg (fun number => ([.inl number] : List (Nat ⊕ QByteArray))) asked
    · exact (ExchangeData.receive_kept left).1.userReply.trans h.user
    · rw [message_transmit]
      exact asked
  · -- the last block
    have last : k + 1 = server.blocks := by omega
    have reaches := next_iff.not.mp goesOn
    have toReceive : reply.hasMoreBlocksToReceive = false := by
      rw [InternalReply.hasMoreBlocksToReceive, more]
      exact decide_eq_false reaches
    have final : reply.continues = false := by
      simp [ReceivedReply.continues, noneToSend, toReceive]
    obtain ⟨ended, trace⟩ :=
      h.downloading.single.receive_last askedBlock Message.payload blockSize messageId h.user
        registered.key_ne carries.success final
    refine ⟨?_, ended⟩
    rw [trace, h.downloading.payload_last number carries small below (by omega), last,
      BlockServer.script, script_of_eq]
    rfl

end Download

end Protocol

/-! An upload, block by block. -/

/-- The block that a message carries, with its number. -/
def sentBlock (message : Message) : Option Nat × QByteArray :=
  ((message.optionsNamed OptionName.block1).head?.map (·.blockNumber), message.payload)

/-- The course of an upload: each block is sent once, in order, and then a content is handed
over. -/
def uploadScript (size : Nat) (payload : QByteArray) : List ((Option Nat × QByteArray) ⊕ Unit) :=
  (List.range (Framework.blockCount size payload.length)).map
    (fun k => .inl (some k, Framework.block size payload k)) ++ [.inr ()]

theorem IsBlockSize.pos {size : Nat} (sized : IsBlockSize size) : 0 < size := by
  obtain ⟨szx, -, rfl⟩ := sized
  exact Nat.two_pow_pos _

namespace InternalRequest

/-- What the answer to a block that was sent asks for. -/
theorem nextBlockToSend_blockOption (r : InternalRequest) {reply : InternalReply} {k size : Nat}
    (small : k < 2 ^ 20) (sized : IsBlockSize size)
    (echoes : reply.message.optionsNamed OptionName.block1 =
      [r.blockOption OptionName.block1 k size]) (junk : UInt8) :
    reply.nextBlockToSend junk =
      if (k + 1) * size < r.fullPayload.length then (k : Int) + 1 else -1 := by
  obtain ⟨number, more, -⟩ := read_blockOption junk r OptionName.block1 size small
  have read : reply.message.option OptionName.block1 = r.blockOption OptionName.block1 k size := by
    rw [Message.option_eq, echoes]
    rfl
  have valid : (r.blockOption OptionName.block1 k size).isValid = true := rfl
  have positive : toInt32 k = (k : Int) := toInt32_of_lt (by omega)
  rw [writesMore_eq small sized] at more
  simp only [InternalReply.nextBlockToSend]
  rw [read, valid, number, more, positive]
  by_cases goesOn : (k + 1) * size < r.fullPayload.length
  · simp [goesOn]
  · simp [goesOn]

theorem sentBlock_setToSendBlock (r : InternalRequest) {k : Nat} (size : Nat)
    (small : k < 2 ^ 20) :
    sentBlock (r.setToSendBlock k size).message =
      (some k, Framework.block size r.fullPayload k) := by
  have szx := szxOf_le size
  have number : (r.blockOption OptionName.block1 k size).blockNumber = k := by
    rw [CoapOption.blockNumber, bigEndian_blockOption r OptionName.block1 size small]
    split_ifs <;> omega
  rw [sentBlock, optionsNamed_setToSendBlock r size small, payload_setToSendBlock r size small]
  simp only [List.head?_cons, Option.map_some]
  rw [number]
  rfl

end InternalRequest

namespace Protocol

variable {s t : Protocol Addr} {os : List (Output Addr)} {id : ReplyId} {token : Token}

section Upload

variable {size k : Nat} {payload : QByteArray}

/-- The exchange has sent block `k`. -/
structure Sending (size : Nat) (payload : QByteArray) (id : ReplyId) (k : Nat)
    (e : ExchangeData Addr) : Prop where
  user : e.userReply = some id
  single : e.Single
  fullPayload : e.request.fullPayload = payload
  option : ∃ r : InternalRequest, r.fullPayload = payload ∧
    e.request.message.optionsNamed OptionName.block1 = [r.blockOption OptionName.block1 k size]

/-- A response for the exchange is a success, has the Block1 option of the block that was sent and
is no block itself; and the block size is still the one that the transfer began with. -/
def TakesBlock (size : Nat) (token : Token) (x : Taken Addr) : Prop :=
  ∀ data reply draws e, x.event = .frameReceived data reply.senderAddress draws →
    x.source.Admits data reply token e →
    isSuccess reply.responseCode = true ∧
      reply.message.optionsNamed OptionName.block1 =
        e.request.message.optionsNamed OptionName.block1 ∧
      reply.message.optionsNamed OptionName.block2 = [] ∧ x.source.blockSize = size

/-- Block `k` has been taken: the next one is sent, or the content is handed over. -/
theorem Sending.receive {e : ExchangeData Addr} (h : Sending size payload id k e)
    (registered : e.Registered token) {reply : ReceivedReply Addr} {data : QByteArray}
    (decoded : createFromFrame (Platform.junk Addr) data = .ok reply.toInternalReply)
    (success : isSuccess reply.responseCode = true)
    (echoes : reply.message.optionsNamed OptionName.block1 =
      e.request.message.optionsNamed OptionName.block1)
    (whole : reply.message.optionsNamed OptionName.block2 = [])
    (fits : Framework.blockCount size payload.length ≤ 2 ^ 20) (sized : IsBlockSize size)
    (inside : k < Framework.blockCount size payload.length) (messageId : UInt16) :
    let reaction := e.receive size reply messageId
    transferTrace sentBlock (fun _ => ()) id token reaction.2 =
        (uploadScript size payload)[k + 1]?.toList ∧
      if k + 1 < Framework.blockCount size payload.length then
        ∃ e', reaction.1 = some e' ∧ Sending size payload id (k + 1) e'
      else reaction.1 = none := by
  intro reaction
  have noError := not_isError_of_isSuccess success
  have next_iff := Framework.succ_lt_blockCount sized.pos payload.length k
  obtain ⟨r, full, option⟩ := h.option
  have answered := r.nextBlockToSend_blockOption (by omega) sized (echoes.trans option)
    (Platform.junk Addr)
  rw [full] at answered
  have noneToReceive : reply.hasMoreBlocksToReceive = false := by
    obtain ⟨-, more, -⟩ := createFromFrame_block (Platform.junk Addr) decoded
    rw [whole] at more
    exact more
  split_ifs with goesOn
  · rw [if_pos (next_iff.mp goesOn)] at answered
    have small : k + 1 < 2 ^ 20 := by omega
    have next : ExchangeData.nextRequest size reply (e.store reply).dropObserve.request =
        some ((e.store reply).dropObserve.request.setToSendBlock (k + 1) size, []) := by
      have asks : (0 : Int) ≤ (k : Int) + 1 := by omega
      have more : reply.hasMoreBlocksToSend (Platform.junk Addr) = true := by
        rw [InternalReply.hasMoreBlocksToSend, answered]
        exact decide_eq_true asks
      simp only [ExchangeData.nextRequest]
      rw [answered, more, if_pos (by simpa using asks)]
      rfl
    have left : reaction.1 = some _ :=
      congrArg Prod.fst (@ExchangeData.receive_of_next Addr _ e size reply messageId noError
        _ _ next)
    have stored : (e.store reply).dropObserve.request.fullPayload = payload :=
      (congrArg InternalRequest.Identity.fullPayload
        (ExchangeData.continues_stored e reply).identity).trans h.fullPayload
    refine ⟨?_, _, left, ?_, h.single.receive left, ?_, _, stored, ?_⟩
    · have sent := (e.store reply).dropObserve.request.sentBlock_setToSendBlock size small
      rw [stored] at sent
      rw [ExchangeData.transferTrace_receive_of_next registered noError next, uploadScript,
        script_of_lt _ _ goesOn]
      exact congrArg (fun block => ([.inl block] : List ((Option Nat × QByteArray) ⊕ Unit))) sent
    · exact (ExchangeData.receive_kept left).1.userReply.trans h.user
    · exact (congrArg InternalRequest.Identity.fullPayload
        (ExchangeData.receive_kept left).1.identity).trans h.fullPayload
    · rw [message_transmit]
      exact InternalRequest.optionsNamed_setToSendBlock _ size small
  · rw [if_neg (next_iff.not.mp goesOn)] at answered
    have last : k + 1 = Framework.blockCount size payload.length := by omega
    have noneToSend : reply.hasMoreBlocksToSend (Platform.junk Addr) = false := by
      rw [InternalReply.hasMoreBlocksToSend, answered]
      rfl
    have final : reply.continues = false := by
      simp [ReceivedReply.continues, noneToSend, noneToReceive]
    obtain ⟨ended, trace⟩ := h.single.receive_last sentBlock (fun _ => ()) size messageId h.user
      registered.key_ne success final
    refine ⟨?_, ended⟩
    rw [trace, last, uploadScript, script_of_eq]
    rfl

/-- The exchange that is opened for a payload that does not fit into one block has sent block 0. -/
theorem sending_opened {request : Request} {connection : ConnectionId} {messageId : UInt16}
    {timeout : Nat} {e : ExchangeData Addr}
    (made : (ExchangeData.opened id (s.completed request connection messageId token) s.blockSize
      timeout : Reaction Addr).1 = some e)
    (plain : request.Single Addr) (sized : IsBlockSize s.blockSize)
    (long : s.blockSize < request.message.payload.length) :
    Sending s.blockSize request.message.payload id 0 e ∧
      sentBlock e.request.message =
        (some 0, Framework.block s.blockSize request.message.payload 0) := by
  let r := s.completed request connection messageId token
  obtain ⟨unicast, noObserve⟩ := opened_unobserved plain connection messageId token timeout made
  obtain ⟨q, entry, identity, message, observeCancelled⟩ :=
    @ExchangeData.opened_entry Addr _ id r s.blockSize timeout
  obtain rfl := Option.some.inj (entry.symm.trans made)
  have full : r.fullPayload = request.message.payload :=
    completed_fullPayload s request connection messageId token
  have asksFirst : (r.setToRequestBlock 0 s.blockSize).fullPayload = request.message.payload :=
    (congrArg InternalRequest.Identity.fullPayload
      (r.identity_setToRequestBlock 0 s.blockSize)).trans full
  have first : r.firstBlocks s.blockSize =
      (r.setToRequestBlock 0 s.blockSize).setToSendBlock 0 s.blockSize := by
    have positive := sized.pos
    have large : s.blockSize < r.message.payload.length := by
      rw [completed_payload]
      exact long
    simp only [InternalRequest.firstBlocks]
    rw [if_pos positive, if_pos ⟨positive, large⟩]
  rw [first] at message
  refine ⟨⟨rfl, ⟨unicast, noObserve, ?_⟩, ?_, _, asksFirst, ?_⟩, ?_⟩
  · exact observeCancelled.trans (s.completed_observeCancelled request connection messageId token)
  · exact (congrArg InternalRequest.Identity.fullPayload identity).trans full
  · dsimp only
    rw [message]
    exact InternalRequest.optionsNamed_setToSendBlock _ _ (by decide)
  · dsimp only
    rw [message, InternalRequest.sentBlock_setToSendBlock _ _ (by decide), asksFirst]

/-- As long as the responses to an upload come in time and take the blocks that are sent, and
whatever other exchanges do meanwhile: what is to be seen of it is the start of its script, one
item for the request and one for each response. It ends with the response that takes the last
block, and not before. -/
theorem upload_rounds (reachable : s.Reachable) {request : Request} {connection : ConnectionId}
    {draws : Draws} (sent : Step s (.sendRequest (some id) request connection draws) os t)
    {messageId : UInt16} (running : .post id (.setRunning token messageId) ∈ os)
    (unused : ∀ key, ¬ s.Owns key id)
    (unicast : (InternalRequest.ofRequest Addr request).isMulticast Addr = false)
    (noObserve : request.message.hasOption OptionName.observe = false)
    (positive : 0 < s.blockSize) (long : s.blockSize < request.message.payload.length)
    (fits : Framework.blockCount s.blockSize request.message.payload.length ≤ 2 ^ 20)
    {tr : List (Taken Addr)} {u : Protocol Addr} (run : Framework.Run Step t tr u)
    (unhindered : ∀ x ∈ tr, Unhindered id token x)
    (inStep : ∀ x ∈ tr, TakesBlock s.blockSize token x) :
    let blocks := Framework.blockCount s.blockSize request.message.payload.length
    let responses := tr.countP (responds token)
    responses ≤ blocks ∧
      transferTrace sentBlock (fun _ => ()) id token (os ++ tr.flatMap (·.outputs)) =
        (uploadScript s.blockSize request.message.payload).take (responses + 1) ∧
      (u.exchangeMap.find? token = none ↔ responses = blocks) := by
  obtain ⟨messageId', timeout, e, token_ne, made, found, user, -, sends⟩ :=
    opened_of_sendRequest reachable.consistent sent running
  have sized : IsBlockSize s.blockSize := reachable.blockSize.resolve_left (by omega)
  obtain ⟨sending, first⟩ := sending_opened made ⟨unicast, noObserve⟩ sized long
  have some_blocks : 0 < Framework.blockCount s.blockSize request.message.payload.length :=
    Nat.succ_pos _
  obtain ⟨start, opening⟩ := atRound_of_sendRequest sentBlock (fun _ => ())
    reachable.consistent sent unused token_ne found user sending some_blocks sends
  refine start.run (fun waits => ⟨waits.user, waits.single.noObserve⟩)
    (by simp [uploadScript]) ?_ run unhindered ?_
  · rw [opening, first, uploadScript, script_of_lt _ _ some_blocks]
    rfl
  · intro x hx data reply draws k e' mid event admits registered waits inside
    obtain ⟨success, echoes, whole, same⟩ := inStep x hx data reply draws e' event admits
    rw [same]
    exact waits.receive registered admits.decoded success echoes whole fits sized inside mid

end Upload

section Instances

/-- The conditions on a step that are not about a response, for the reply 0 and the token 01 02. -/
def isUnhindered (x : Taken IPv4Address) : Bool :=
  !x.event.drives [1, 2] && !x.event.sends 0 &&
  (match x.event with
    | .replyDestroyed _ => false
    | _ => true) &&
  x.outputs.all fun
    | .post _ (.setRunning token _) => token != [1, 2]
    | _ => true

theorem unhindered_of_check {x : Taken IPv4Address} (h : isUnhindered x = true) :
    Unhindered 0 [1, 2] x := by
  simp only [isUnhindered, Bool.and_eq_true, Bool.not_eq_true'] at h
  obtain ⟨⟨⟨waits, single⟩, kept⟩, other⟩ := h
  refine ⟨waits, ?_, single, ?_⟩
  · intro destroyed
    rw [destroyed] at kept
    cases kept
  · intro id messageId opened
    have differs := List.all_eq_true.mp other _ opened
    simp at differs

/-- What is asked of the response that the step adds to the exchange 01 02, if it does. -/
def answers (p : ReceivedReply IPv4Address → ExchangeData IPv4Address → Bool)
    (x : Taken IPv4Address) : Bool :=
  match x.event with
  | .frameReceived data sender _ =>
    (x.source.attribution data sender).all fun found =>
      found.2.1 != [1, 2] || p found.1 found.2.2
  | _ => true

theorem of_answers {p : ReceivedReply IPv4Address → ExchangeData IPv4Address → Bool}
    {x : Taken IPv4Address} (h : answers p x = true) {data : QByteArray}
    {reply : ReceivedReply IPv4Address} {draws : Draws} {e : ExchangeData IPv4Address}
    (event : x.event = .frameReceived data reply.senderAddress draws)
    (admits : x.source.Admits data reply [1, 2] e) : p reply e = true := by
  unfold answers at h
  rw [event] at h
  dsimp only at h
  rw [attribution_eq_some_iff.mpr ⟨rfl, admits⟩] at h
  simpa using h

def takesBlock (reply : ReceivedReply IPv4Address) (e : ExchangeData IPv4Address) : Bool :=
  decide (isSuccess reply.responseCode = true ∧
    reply.message.optionsNamed OptionName.block1 =
      e.request.message.optionsNamed OptionName.block1 ∧
    reply.message.optionsNamed OptionName.block2 = [])

theorem owns_none {s : Protocol IPv4Address} (empty : s.exchangeMap.entries = []) (key : Token)
    (id : ReplyId) : ¬ s.Owns key id := by
  rintro ⟨e, found, -⟩
  simp [Framework.OrderedMap.find?, empty] at found

/-- Block 0 is taken, another request is sent and sent again, and then blocks 1 and 2 are taken. -/
def uploadBesideAnother : List (Event IPv4Address) :=
  [.frameReceived (blockAcknowledgment 0x07 0x08) serverAddress [8, 0],
    .sendRequest (some 1) (getRequest [3, 4]) 0 [9, 0],
    .timeout [3, 4],
    .frameReceived (blockAcknowledgment 0x08 0x18) serverAddress [10, 0],
    .frameReceived [0x62, 0x44, 0x00, 0x0A, 0x01, 0x02, 0xD1, 0x0E, 0x20] serverAddress []]

theorem upload_rounds_besideAnother :
    ∃ (os : List (Output IPv4Address)) (t : Protocol IPv4Address) (tr : List (Taken IPv4Address))
      (u : Protocol IPv4Address),
      Step smallBlocks (.sendRequest (some 0) putRequest 0 [7, 0]) os t ∧
      Framework.Run Step t tr u ∧ tr.map (·.event) = uploadBesideAnother ∧
      transferTrace sentBlock (fun _ => ()) 0 [1, 2] (os ++ tr.flatMap (·.outputs)) =
        [.inl (some 0, putRequest.message.payload.take 16),
          .inl (some 1, (putRequest.message.payload.drop 16).take 16),
          .inl (some 2, putRequest.message.payload.drop 32), .inr ()] ∧
      u.exchangeMap.find? [1, 2] = none := by
  have computed : uploads uploadBesideAnother (fun tr _ =>
      tr.all (fun x => isUnhindered x && answers takesBlock x && x.source.blockSize == 16) &&
        tr.countP (responds [1, 2]) == 3) = true := by
    decide +kernel
  obtain ⟨os, t, tr, u, sent, running, run, events, facts⟩ := uploads_spec computed
  obtain ⟨inStep, responses⟩ := Bool.and_eq_true_iff.mp facts
  have each (x) (hx : x ∈ tr) := (Bool.and_eq_true ..).mp (List.all_eq_true.mp inStep x hx)
  obtain ⟨-, trace, gone⟩ := upload_rounds smallBlocks_reachable sent running
    (fun key => owns_none rfl key 0) (by decide) (by decide) (by decide) (by decide) (by decide) run
    (fun x hx => unhindered_of_check ((Bool.and_eq_true ..).mp (each x hx).1).1)
    fun x hx data reply draws e event admits => by
      obtain ⟨free, sized⟩ := each x hx
      obtain ⟨success, echoes, whole⟩ :=
        of_decide_eq_true (of_answers ((Bool.and_eq_true ..).mp free).2 event admits)
      exact ⟨success, echoes, whole, beq_iff_eq.mp sized⟩
  rw [beq_iff_eq.mp responses] at trace gone
  exact ⟨os, t, tr, u, sent, run, events, trace.trans (by decide), gone.mpr (by decide)⟩

end Instances

end Protocol

end QtCoap
