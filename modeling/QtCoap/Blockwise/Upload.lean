import QtCoap.Blockwise.Network
import QtCoap.Protocol.Reactions
import QtCoap.Protocol.Settings

namespace QtCoap

variable {Addr : Type} [Platform Addr]

/-- A message is the block of the payload that its Block1 option announces. -/
structure IsBlockOf (size : Nat) (payload : QByteArray) (message : Message) (option : CoapOption) :
    Prop where
  declares : 2 ^ (bigEndian option.value % 8 + 4) = size
  carries : message.payload = Framework.block size payload (bigEndian option.value / 16)
  more : bigEndian option.value / 8 % 2 = 1 ↔
    (bigEndian option.value / 16 + 1) * size < payload.length

instance (size : Nat) (payload : QByteArray) (message : Message) (option : CoapOption) :
    Decidable (IsBlockOf size payload message option) :=
  decidable_of_iff
    (2 ^ (bigEndian option.value % 8 + 4) = size ∧
      message.payload = Framework.block size payload (bigEndian option.value / 16) ∧
      (bigEndian option.value / 8 % 2 = 1 ↔
        (bigEndian option.value / 16 + 1) * size < payload.length))
    ⟨fun ⟨a, b, c⟩ => ⟨a, b, c⟩, fun ⟨a, b, c⟩ => ⟨a, b, c⟩⟩

namespace InternalRequest

variable {q r : InternalRequest} {size number : Nat}

/-- What the request has a Block1 option for is a block of its payload. -/
def SendsBlocks (size : Nat) (r : InternalRequest) : Prop :=
  ∀ option ∈ r.message.optionsNamed OptionName.block1,
    IsBlockOf size r.fullPayload r.message option

namespace SendsBlocks

theorem of_none (none : r.message.optionsNamed OptionName.block1 = []) : r.SendsBlocks size := by
  intro option ho
  rw [none] at ho
  cases ho

theorem of_same (h : r.SendsBlocks size) (fullPayload : q.fullPayload = r.fullPayload)
    (payload : q.message.payload = r.message.payload)
    (options : q.message.optionsNamed OptionName.block1 =
      r.message.optionsNamed OptionName.block1) : q.SendsBlocks size := by
  intro option ho
  rw [options] at ho
  obtain ⟨declared, block, more⟩ := h option ho
  refine ⟨declared, ?_, ?_⟩
  · rw [payload, fullPayload]
    exact block
  · rw [fullPayload]
    exact more

/-- Any block of the size may follow; a block number that does not fit changes nothing. -/
theorem setToSendBlock (h : r.SendsBlocks size) (sized : IsBlockSize size) :
    (r.setToSendBlock number size).SendsBlocks size := by
  by_cases small : number < 2 ^ 20
  · intro option ho
    rw [optionsNamed_setToSendBlock r size small] at ho
    obtain rfl := List.mem_singleton.mp ho
    have fullPayload : (r.setToSendBlock number size).fullPayload = r.fullPayload :=
      congrArg Identity.fullPayload (r.identity_setToSendBlock number size)
    have szx := szxOf_le size
    have value := bigEndian_blockOption r OptionName.block1 size small
    have flag : writesMore OptionName.block1 number size r.fullPayload.length =
        decide ((number + 1) * size < r.fullPayload.length) := by
      rw [writesMore_eq small sized]
      simp only [true_and]
    have parts : bigEndian (r.blockOption OptionName.block1 number size).value / 16 = number ∧
        bigEndian (r.blockOption OptionName.block1 number size).value % 8 = szxOf size ∧
        (bigEndian (r.blockOption OptionName.block1 number size).value / 8 % 2 = 1 ↔
          (number + 1) * size < r.fullPayload.length) := by
      rw [value, flag]
      by_cases more : (number + 1) * size < r.fullPayload.length
      · simp only [more, decide_true, if_true, iff_true]
        omega
      · simp only [more, decide_false, Bool.false_eq_true, if_false, iff_false]
        omega
    obtain ⟨number_eq, szx_eq, more_iff⟩ := parts
    refine ⟨?_, ?_, ?_⟩
    · rw [szx_eq]
      exact sized.szxOf
    · rw [number_eq, fullPayload, payload_setToSendBlock r size small]
      rfl
    · rw [number_eq, fullPayload]
      exact more_iff
  · rw [setToSendBlock_of_large r size small]
    exact h

theorem setToRequestBlock (h : r.SendsBlocks size) (requested : Nat) :
    (r.setToRequestBlock number requested).SendsBlocks size := by
  by_cases small : number < 2 ^ 20
  · exact of_none (block1_setToRequestBlock r requested small)
  · rw [setToRequestBlock_of_large r requested small]
    exact h

/-- The first block of a new request. -/
theorem firstBlocks (sized : size = 0 ∨ IsBlockSize size)
    (none : 0 < size ∨ r.message.optionsNamed OptionName.block1 = []) :
    (r.firstBlocks size).SendsBlocks size := by
  simp only [InternalRequest.firstBlocks]
  by_cases positive : 0 < size
  · have first : (r.setToRequestBlock 0 size).SendsBlocks size :=
      of_none (block1_setToRequestBlock r size (by decide))
    simp only [positive, if_true, true_and]
    split_ifs
    · exact first.setToSendBlock (sized.resolve_left (by omega))
    · exact first
  · simp only [positive, if_false, false_and]
    exact of_none (none.resolve_left positive)

end SendsBlocks

end InternalRequest

namespace ExchangeData

variable {e e' : ExchangeData Addr} {size blockSize : Nat} {payload : QByteArray}
  {reply : ReceivedReply Addr} {id : UInt16}

/-- The exchange uploads the payload in blocks of the size. -/
structure Uploads (size : Nat) (payload : QByteArray) (e : ExchangeData Addr) : Prop where
  fullPayload : e.request.fullPayload = payload
  sends : e.request.SendsBlocks size

namespace Uploads

theorem of_same {Addr : Type} {e e' : ExchangeData Addr} (h : e.Uploads size payload)
    (identity : e'.request.identity = e.request.identity)
    (same : e'.request.message = e.request.message) : e'.Uploads size payload := by
  have fullPayload : e'.request.fullPayload = e.request.fullPayload :=
    congrArg InternalRequest.Identity.fullPayload identity
  refine ⟨fullPayload.trans h.fullPayload, h.sends.of_same fullPayload ?_ ?_⟩
  · rw [same]
  · rw [same]

theorem stored (h : e.Uploads size payload) (reply : ReceivedReply Addr) :
    (e.store reply).dropObserve.Uploads size payload := by
  have fullPayload : (e.store reply).dropObserve.request.fullPayload = e.request.fullPayload :=
    congrArg InternalRequest.Identity.fullPayload (continues_stored e reply).identity
  have message := @message_store Addr _ e reply
  refine ⟨fullPayload.trans h.fullPayload, h.sends.of_same fullPayload ?_ ?_⟩
  · have payload : (e.store reply).dropObserve.request.message.payload =
        (e.store reply).request.message.payload := by
      simp only [dropObserve]
      split_ifs <;> rfl
    exact payload.trans (congrArg Message.payload message)
  · rcases optionsNamed_dropObserve (e.store reply) OptionName.block1 with same | ⟨-, observe, -⟩
    · exact same.trans (congrArg (·.optionsNamed OptionName.block1) message)
    · exact absurd observe (by decide)

/-- A reply that asks for more comes while the block size is what it was. -/
theorem receive (h : e.Uploads size payload)
    (kept : isError reply.responseCode = false →
      reply.hasMoreBlocksToSend (Platform.junk Addr) = true →
      blockSize = size ∧ IsBlockSize size)
    (left : (e.receive blockSize reply id).1 = some e') : e'.Uploads size payload := by
  have stored := h.stored reply
  obtain ⟨noError, ⟨q, host, next, rfl⟩ | ⟨-, finished⟩⟩ := receive_left left
  · have identity := (nextRequest_kept next).1
    have sends : q.SendsBlocks size := by
      unfold nextRequest at next
      dsimp only at next
      split_ifs at next with more
      · obtain ⟨rfl, -⟩ := Prod.mk.inj (Option.some.inj next)
        obtain ⟨rfl, sized⟩ := kept noError ((Bool.and_eq_true ..).mp more).1
        exact stored.sends.setToSendBlock sized
      · obtain ⟨rfl, -⟩ := Prod.mk.inj (Option.some.inj next)
        exact stored.sends.setToRequestBlock _
    have changed : ({ e with request := q } : ExchangeData Addr).Uploads size payload :=
      ⟨(congrArg InternalRequest.Identity.fullPayload identity).trans stored.fullPayload, sends⟩
    have numbered : ({ e with request := q.setMessageId id } : ExchangeData Addr).Uploads size
        payload :=
      ⟨changed.fullPayload, changed.sends.of_same rfl rfl rfl⟩
    apply numbered.of_same
    · exact identity_transmit ..
    · exact message_transmit ..
  · have request := (finish_kept finished).1
    apply stored.of_same
    · rw [request]
    · rw [request]

theorem opened {reply : ReplyId} {r : InternalRequest} {timeout : Nat}
    (made : (ExchangeData.opened reply r size timeout : Reaction Addr).1 = some e)
    (full : r.fullPayload = payload) (sized : size = 0 ∨ IsBlockSize size)
    (none : 0 < size ∨ r.message.optionsNamed OptionName.block1 = []) :
    e.Uploads size payload := by
  obtain ⟨q, entry, identity, message, -⟩ := @opened_entry Addr _ reply r size timeout
  obtain rfl := Option.some.inj (entry.symm.trans made)
  have blocks : (r.firstBlocks size).SendsBlocks size := .firstBlocks sized none
  have fullPayload : q.fullPayload = r.fullPayload :=
    congrArg InternalRequest.Identity.fullPayload identity
  have first : (r.firstBlocks size).fullPayload = r.fullPayload :=
    congrArg InternalRequest.Identity.fullPayload (firstBlocks_kept r size).1
  refine ⟨fullPayload.trans full, blocks.of_same (fullPayload.trans first.symm) ?_ ?_⟩
  · rw [message]
  · rw [message]

end Uploads

end ExchangeData

namespace Protocol

variable {s t : Protocol Addr} {os : List (Output Addr)} {event : Event Addr} {key : Token}
  {size : Nat} {payload : QByteArray}

/-- What is registered under the key uploads the payload in blocks of the size. -/
def Uploads (key : Token) (size : Nat) (payload : QByteArray) (s : Protocol Addr) : Prop :=
  ∀ e, s.exchangeMap.find? key = some e → e.Uploads size payload

/-- When a further block of the payload is asked for, the block size is the one the request was
sent with. -/
def KeepsBlockSize (key : Token) (size : Nat) (s : Protocol Addr) (event : Event Addr) : Prop :=
  ∀ data reply draws e, event = .frameReceived data reply.senderAddress draws →
    s.Admits data reply key e → isError reply.responseCode = false →
    reply.hasMoreBlocksToSend (Platform.junk Addr) = true → s.blockSize = size ∧ 0 < size

/-- No exchange is opened under the key. -/
def OpensOther (key : Token) (os : List (Output Addr)) : Prop :=
  ∀ id messageId, .post id (.setRunning key messageId) ∉ os

theorem Uploads.step (h : s.Uploads key size payload) (reachable : s.Reachable)
    (step : Step s event os t) (other : OpensOther key os)
    (keeps : s.KeepsBlockSize key size event) : t.Uploads key size payload := by
  intro e' found'
  have consistent := reachable.consistent
  cases step_change consistent step with
  | @opened id request connection draws messageId token timeout registers after =>
    obtain ⟨rfl, rfl⟩ := Prod.mk.inj after
    rw [find?_setExchange] at found'
    split_ifs at found' with own
    · rw [own] at other
      exact absurd (List.mem_cons_self ..) (other id messageId)
    · exact h e' found'
  | @reacted _ key' e reaction found reacts after =>
    obtain ⟨rfl, rfl⟩ := Prod.mk.inj after
    rw [find?_setExchange] at found'
    split_ifs at found' with own
    · subst own
      have uploads := h e found
      cases reacts with
      | @received data draws reply id admits fresh =>
        refine uploads.receive ?_ found'
        intro noError more
        obtain ⟨same, positive⟩ := keeps data reply draws e rfl admits noError more
        refine ⟨same, ?_⟩
        rw [← same] at positive ⊢
        exact (Reachable.blockSize reachable).resolve_left (by omega)
      | timedOut runs =>
        obtain ⟨continues, message, -⟩ := ExchangeData.timeout_kept found'
        exact uploads.of_same continues.identity message
      | spanReached runs => cases found'
      | expired runs => cases found'
      | aborted => cases found'
    · exact h e' found'
  | passed each outputs =>
    obtain ⟨e, found, passes⟩ := passes_to_some (found' ▸ each key)
    exact (h e found).of_same passes.identity passes.message

theorem Uploads.frame (h : t.Uploads key size payload) (reachable : s.Reachable)
    (step : Step s event os t) (key_ne : key ≠ []) {message : Message}
    (sent : message ∈ requestsOf key os) :
    ∀ option ∈ message.optionsNamed OptionName.block1, IsBlockOf size payload message option := by
  obtain ⟨token, method, connection, host, port, sent⟩ := mem_requestsOf sent
  have consistent := reachable.consistent
  rcases (step_effect consistent step).frames sent with empty | ⟨key', e, found, rfl⟩
  · exact absurd (token.symm.trans empty) key_ne
  · have own : key' = key := ((consistent.step step).registered found).token.symm.trans token
    subst own
    have uploads := h e found
    rw [← uploads.fullPayload]
    exact uploads.sends

theorem Uploads.run {tr : List (Taken Addr)} (h : s.Uploads key size payload)
    (reachable : s.Reachable) (run : Framework.Run Step s tr t) (key_ne : key ≠ [])
    (other : ∀ x ∈ tr, OpensOther key x.outputs)
    (keeps : ∀ x ∈ tr, x.source.KeepsBlockSize key size x.event) :
    ∀ x ∈ tr, ∀ message ∈ requestsOf key x.outputs,
      ∀ option ∈ message.optionsNamed OptionName.block1, IsBlockOf size payload message option := by
  have along := (run.along (P := fun s => s.Reachable ∧ s.Uploads key size payload)
    (fun x hx step before => ⟨before.1.next step,
      before.2.step before.1 step (other x hx) (keeps x hx)⟩) ⟨reachable, h⟩).2
  intro x hx message sent
  have step := (run.forall_step (P := fun _ => True) (fun _ _ => trivial) trivial x hx).2
  obtain ⟨source, target⟩ := along x hx
  exact target.2.frame source.1 step key_ne sent

theorem completed_fullPayload (s : Protocol Addr) (request : Request) (connection : ConnectionId)
    (messageId : UInt16) (token : Token) :
    (s.completed request connection messageId token).fullPayload = request.message.payload := by
  obtain ⟨wait, expire, kept⟩ := s.newRequest_kept request
  obtain ⟨target, options, made⟩ := InternalRequest.ofRequest_kept Addr request
  simp only [completed, kept, made]
  rfl

/-- An exchange that is opened uploads in blocks of the size that is set. -/
theorem uploads_of_sendRequest {id : ReplyId} {request : Request} {connection : ConnectionId}
    {draws : Draws} (reachable : s.Reachable)
    (sent : Step s (.sendRequest (some id) request connection draws) os t) {messageId : UInt16}
    (running : .post id (.setRunning key messageId) ∈ os)
    (none : 0 < s.blockSize ∨ request.message.optionsNamed OptionName.block1 = []) :
    key ≠ [] ∧ t.Uploads key s.blockSize request.message.payload := by
  cases step_effect reachable.consistent sent with
  | unchanged map posts => rcases posts with rfl | ⟨error, rfl⟩ <;> simp at running
  | opened messageId' token timeout registers after =>
    obtain ⟨rfl, rfl⟩ := Prod.mk.inj after
    have same : key = token := by
      rcases List.mem_cons.mp running with own | later
      · cases own
        rfl
      · exact absurd later (post_not_mem_transmit _ _ _ _)
    subst same
    refine ⟨registers.token_ne, ?_⟩
    intro e found
    rw [find?_setExchange, if_pos rfl] at found
    refine .opened found (s.completed_fullPayload ..) (Reachable.blockSize reachable) ?_
    rw [optionsNamed_completed _ _ _ _ _ (by decide)]
    exact none

/-- As long as the block size is set back in time: every frame of an exchange with a Block1 option
is the block of the payload that the option announces, all of one size. -/
theorem upload_contiguous {id : ReplyId} {request : Request} {connection : ConnectionId}
    {draws : Draws} {u : Protocol Addr} {tr : List (Taken Addr)} (reachable : s.Reachable)
    (sent : Step s (.sendRequest (some id) request connection draws) os t) {messageId : UInt16}
    (running : .post id (.setRunning key messageId) ∈ os)
    (none : 0 < s.blockSize ∨ request.message.optionsNamed OptionName.block1 = [])
    (run : Framework.Run Step t tr u) (other : ∀ x ∈ tr, OpensOther key x.outputs)
    (keeps : ∀ x ∈ tr, x.source.KeepsBlockSize key s.blockSize x.event) :
    ∀ message ∈ requestsOf key (os ++ tr.flatMap (·.outputs)),
      ∀ option ∈ message.optionsNamed OptionName.block1,
        IsBlockOf s.blockSize request.message.payload message option := by
  obtain ⟨key_ne, uploads⟩ := uploads_of_sendRequest reachable sent running none
  intro message hm
  rw [requestsOf_append] at hm
  rcases List.mem_append.mp hm with first | later
  · exact uploads.frame reachable sent key_ne first
  · rw [requestsOf, sentTo, List.filterMap_flatMap, List.map_flatMap] at later
    obtain ⟨x, hx, later⟩ := List.mem_flatMap.mp later
    exact uploads.run (reachable.next sent) run key_ne other keeps x hx message later

def isKept (key : Token) (size : Nat) (x : Taken IPv4Address) : Bool :=
  (match x.event with
    | .frameReceived _ _ _ => decide (x.source.blockSize = size ∧ 0 < size)
    | _ => true) &&
  x.outputs.all fun
    | .post _ (.setRunning token _) => token ≠ key
    | _ => true

theorem keeps_of_check {x : Taken IPv4Address} (h : isKept key size x = true) :
    OpensOther key x.outputs ∧ x.source.KeepsBlockSize key size x.event := by
  obtain ⟨sized, outputs⟩ := (Bool.and_eq_true ..).mp h
  refine ⟨?_, ?_⟩
  · intro id messageId opened
    have other := List.all_eq_true.mp outputs _ opened
    simp at other
  · intro data reply draws e event _ _ _
    rw [event] at sized
    exact of_decide_eq_true sized

/-- Blocks of 16 bytes are wanted. -/
def smallBlocks : Protocol IPv4Address := Protocol.after [.setBlockSize 16]

theorem smallBlocks_reachable : smallBlocks.Reachable := Protocol.reachable_after [.setBlockSize 16]

/-- A PUT request with 48 bytes, three blocks of 16. -/
def putRequest : Request :=
  { getRequest [1, 2] with
    message := { (getRequest [1, 2]).message with
      payload := (List.range 48).map fun n => UInt8.ofNat n }
    method := Method.put }

/-- The Acknowledgment 2.31 of a block, with its Block1 option. -/
def blockAcknowledgment (messageId value : UInt8) : QByteArray :=
  [0x62, 0x5F, 0x00, messageId, 0x01, 0x02, 0xD1, 0x0E, value]

/-- The request is sent, and then the events happen; `p` is satisfied by the run and the messages
sent. -/
def uploads (events : List (Event IPv4Address))
    (p : List (Taken IPv4Address) → List Message → Bool) : Bool :=
  (smallBlocks.handle (.sendRequest (some 0) putRequest 0 [7, 0])).any fun first =>
    first.2.any (fun
      | .post reply (.setRunning token messageId) => reply = 0 ∧ token = [1, 2] ∧ messageId = 7
      | _ => false) &&
    (Framework.execute handle first.1 events).any fun result =>
      p result.1 (requestsOf [1, 2] (first.2 ++ result.1.flatMap (·.outputs)))

theorem uploads_spec {events : List (Event IPv4Address)}
    {p : List (Taken IPv4Address) → List Message → Bool} (h : uploads events p = true) :
    ∃ os t tr u, Step smallBlocks (.sendRequest (some 0) putRequest 0 [7, 0]) os t ∧
      .post 0 (.setRunning [1, 2] 7) ∈ os ∧ Framework.Run Step t tr u ∧ tr.map (·.event) = events ∧
      p tr (requestsOf [1, 2] (os ++ tr.flatMap (·.outputs))) = true := by
  obtain ⟨⟨t, os⟩, handled, h⟩ := (Option.any_eq_true ..).mp h
  obtain ⟨starts, h⟩ := Bool.and_eq_true_iff.mp h
  obtain ⟨tr, u, run, taken, h⟩ := Framework.exists_run_of_execute Step step_of_handle h
  refine ⟨os, t, tr, u, step_of_handle handled, ?_, run, taken, h⟩
  obtain ⟨o, ho, own⟩ := List.any_eq_true.mp starts
  split at own
  · obtain ⟨rfl, rfl, rfl⟩ := of_decide_eq_true own
    exact ho
  · cases own

/-- The block size is changed and set back, one block is sent twice, and all three arrive. -/
def threeBlocks : List (Event IPv4Address) :=
  [.setBlockSize 32, .setBlockSize 16,
    .frameReceived (blockAcknowledgment 0x07 0x08) serverAddress [8, 0], .timeout [1, 2],
    .frameReceived (blockAcknowledgment 0x08 0x18) serverAddress [9, 0]]

theorem upload_contiguous_threeBlocks :
    ∃ os t tr u, Step smallBlocks (.sendRequest (some 0) putRequest 0 [7, 0]) os t ∧
      Framework.Run Step t tr u ∧ tr.map (·.event) = threeBlocks ∧
      (requestsOf [1, 2] (os ++ tr.flatMap (·.outputs))).length = 4 ∧
      ∀ message ∈ requestsOf [1, 2] (os ++ tr.flatMap (·.outputs)),
        ∀ option ∈ message.optionsNamed OptionName.block1,
          IsBlockOf 16 putRequest.message.payload message option := by
  have computed : uploads threeBlocks (fun tr messages =>
      tr.all (isKept [1, 2] 16) && messages.length == 4) = true := by
    decide +kernel
  obtain ⟨os, t, tr, u, sent, running, run, events, facts⟩ := uploads_spec computed
  obtain ⟨kept, length⟩ := (Bool.and_eq_true ..).mp facts
  refine ⟨os, t, tr, u, sent, run, events, beq_iff_eq.mp length, ?_⟩
  have keeps := fun x hx => keeps_of_check (List.all_eq_true.mp kept x hx)
  exact upload_contiguous smallBlocks_reachable sent running (.inl (by decide)) run
    (fun x hx => (keeps x hx).1) fun x hx => (keeps x hx).2

/-- The block size is changed before block 0 is acknowledged. -/
def sizeChanged : List (Event IPv4Address) :=
  [.setBlockSize 32, .frameReceived (blockAcknowledgment 0x07 0x08) serverAddress [8, 0]]

/-- The next frame is announced as the last block of 32 bytes: 16 bytes are never sent. -/
theorem sizeChanged_drifts : smallBlocks.Reachable ∧
    (InternalRequest.ofRequest IPv4Address putRequest).isMulticast IPv4Address = false ∧
    smallBlocks.blockSize < putRequest.message.payload.length ∧
    ∃ os t tr u, Step smallBlocks (.sendRequest (some 0) putRequest 0 [7, 0]) os t ∧
      .post 0 (.setRunning [1, 2] 7) ∈ os ∧ Framework.Run Step t tr u ∧
      tr.map (·.event) = sizeChanged ∧
      ¬ ∃ size, ∀ message ∈ requestsOf [1, 2] (os ++ tr.flatMap (·.outputs)),
        ∀ option ∈ message.optionsNamed OptionName.block1,
          IsBlockOf size putRequest.message.payload message option := by
  have computed : uploads sizeChanged (fun _ messages =>
      messages.any (fun m => (m.optionsNamed OptionName.block1).any (·.value == [0x08])) &&
      messages.any (fun m => (m.optionsNamed OptionName.block1).any (·.value == [0x11]))) =
        true := by
    decide +kernel
  obtain ⟨os, t, tr, u, sent, running, run, events, facts⟩ := uploads_spec computed
  obtain ⟨first, second⟩ := (Bool.and_eq_true ..).mp facts
  refine ⟨smallBlocks_reachable, by decide, by decide, os, t, tr, u, sent, running, run, events, ?_⟩
  rintro ⟨size, each⟩
  obtain ⟨m, hm, own⟩ := List.any_eq_true.mp first
  obtain ⟨option, ho, value⟩ := List.any_eq_true.mp own
  obtain ⟨m', hm', own'⟩ := List.any_eq_true.mp second
  obtain ⟨option', ho', value'⟩ := List.any_eq_true.mp own'
  have sixteen := (each m hm option ho).declares
  have thirtytwo := (each m' hm' option' ho').declares
  rw [beq_iff_eq.mp value] at sixteen
  rw [beq_iff_eq.mp value', ← sixteen] at thirtytwo
  exact absurd thirtytwo (by decide)

end Protocol

end QtCoap
