import QtCoap.Blockwise.Upload
import QtCoap.Protocol.Outcome

namespace QtCoap

/-- What a server makes of a request: it waits for more of the payload, it has stored the payload,
or it does not take the request. -/
inductive Verdict
  | continued | stored | refused
  deriving DecidableEq

/-- A server that takes a payload in blocks: what it has of it, and the payloads it has stored. -/
structure UploadServer where
  received : QByteArray := []
  stored : List QByteArray := []

namespace UploadServer

/-- A block has to begin within what has been received or at its end, and replaces what was
received behind its begin. Without a Block1 option the payload is whole. The server is free to
refuse any request. -/
def take (server : UploadServer) (message : Message) : Verdict → Option UploadServer
  | .refused => some server
  | .stored =>
    match (message.optionsNamed OptionName.block1).head? with
    | none => some { received := [], stored := server.stored ++ [message.payload] }
    | some option =>
      let value := bigEndian option.value
      let start := value / 16 * 2 ^ (value % 8 + 4)
      if start ≤ server.received.length ∧ ¬ value / 8 % 2 = 1 then
        some { received := [],
               stored := server.stored ++ [server.received.take start ++ message.payload] }
      else none
  | .continued =>
    match (message.optionsNamed OptionName.block1).head? with
    | none => none
    | some option =>
      let value := bigEndian option.value
      let start := value / 16 * 2 ^ (value % 8 + 4)
      if start ≤ server.received.length ∧ value / 8 % 2 = 1 then
        some { server with received := server.received.take start ++ message.payload }
      else none

end UploadServer

/-- A request presents the payload whole, or the block of it that its Block1 option announces. -/
structure Message.Presents (size : Nat) (payload : QByteArray) (message : Message) : Prop where
  block : ∀ option ∈ message.optionsNamed OptionName.block1,
    IsBlockOf size payload message option ∧ bigEndian option.value < 2 ^ 24
  whole : message.optionsNamed OptionName.block1 = [] → message.payload = payload

/-- What the server has is the start of the payload, and all it has stored is the payload. -/
structure UploadServer.Holds (payload : QByteArray) (server : UploadServer) : Prop where
  received : server.received <+: payload
  stored : ∀ representation ∈ server.stored, representation = payload

theorem IsBlockOf.extends {size : Nat} {payload received : QByteArray} {message : Message}
    {option : CoapOption} (block : IsBlockOf size payload message option)
    (start : received <+: payload)
    (fits : bigEndian option.value / 16 * 2 ^ (bigEndian option.value % 8 + 4) ≤ received.length) :
    received.take (bigEndian option.value / 16 * 2 ^ (bigEndian option.value % 8 + 4)) ++
      message.payload = payload.take ((bigEndian option.value / 16 + 1) * size) := by
  rw [block.declares] at fits ⊢
  rw [block.carries, ← Framework.take_append_block]
  congr 1
  rw [List.prefix_iff_eq_take.mp start, List.take_take, Nat.min_eq_left fits]

namespace UploadServer

variable {server server' : UploadServer} {size : Nat} {payload : QByteArray} {message : Message}
  {verdict : Verdict}

/-- A request that presents the payload leaves the server with a start of it, or with the whole. -/
theorem take_holds (h : server.Holds payload) (presents : message.Presents size payload)
    (taken : server.take message verdict = some server') :
    server'.Holds payload ∧ (server.stored ≠ [] ∨ verdict = .stored → server'.stored ≠ []) ∧
      (verdict = .continued → ∃ option ∈ (message.optionsNamed OptionName.block1).head?,
        bigEndian option.value / 8 % 2 = 1) := by
  have stores {representation : QByteArray} (own : representation = payload) :
      Holds payload { received := [], stored := server.stored ++ [representation] } := by
    refine ⟨List.nil_prefix, fun listed member => ?_⟩
    rcases List.mem_append.mp member with before | new
    · exact h.stored listed before
    · exact (List.mem_singleton.mp new).trans own
  cases verdict with
  | refused =>
    obtain rfl := Option.some.inj taken
    exact ⟨h, fun some => some.resolve_right (by simp), by simp⟩
  | stored =>
    cases first : (message.optionsNamed OptionName.block1).head? with
    | none =>
      simp only [take, first] at taken
      obtain rfl := Option.some.inj taken
      exact ⟨stores (presents.whole (List.head?_eq_none_iff.mp first)), by simp, by simp⟩
    | some option =>
      simp only [take, first] at taken
      split_ifs at taken with last
      obtain rfl := Option.some.inj taken
      have block := (presents.block option (List.mem_of_head? first)).1
      have reaches : payload.length ≤ (bigEndian option.value / 16 + 1) * size :=
        Nat.le_of_not_lt fun more => last.2 (block.more.mpr more)
      refine ⟨stores ?_, by simp, by simp⟩
      rw [block.extends h.received last.1, List.take_of_length_le reaches]
  | continued =>
    cases first : (message.optionsNamed OptionName.block1).head? with
    | none => simp [take, first] at taken
    | some option =>
      simp only [take, first] at taken
      split_ifs at taken with next
      obtain rfl := Option.some.inj taken
      have block := (presents.block option (List.mem_of_head? first)).1
      refine ⟨⟨?_, h.stored⟩, fun some => some.resolve_right (by simp),
        fun _ => ⟨option, rfl, next.2⟩⟩
      dsimp only
      rw [block.extends h.received next.1]
      exact List.take_prefix _ _

end UploadServer

namespace InternalRequest

variable {q r : InternalRequest}

/-- Without a Block1 option the payload is the whole one, and a Block1 option has 24 bits. -/
structure Intact (r : InternalRequest) : Prop where
  whole : r.message.optionsNamed OptionName.block1 = [] → r.message.payload = r.fullPayload
  short : ∀ option ∈ r.message.optionsNamed OptionName.block1, bigEndian option.value < 2 ^ 24

namespace Intact

theorem of_same (h : r.Intact) (fullPayload : q.fullPayload = r.fullPayload)
    (payload : q.message.payload = r.message.payload)
    (options : q.message.optionsNamed OptionName.block1 =
      r.message.optionsNamed OptionName.block1) : q.Intact := by
  constructor
  · rw [options, payload, fullPayload]
    exact h.whole
  · rw [options]
    exact h.short

theorem setToSendBlock (h : r.Intact) (number size : Nat) :
    (r.setToSendBlock number size).Intact := by
  by_cases small : number < 2 ^ 20
  · have options := optionsNamed_setToSendBlock r size small
    constructor
    · intro none
      rw [options] at none
      cases none
    · intro option ho
      rw [options] at ho
      obtain rfl := List.mem_singleton.mp ho
      exact bigEndian_blockOption_lt r OptionName.block1 size small
  · rw [setToSendBlock_of_large r size small]
    exact h

/-- The first block of a request that has its payload whole. -/
theorem firstBlocks {size : Nat} (full : r.message.payload = r.fullPayload)
    (none : 0 < size ∨ r.message.optionsNamed OptionName.block1 = []) :
    (r.firstBlocks size).Intact := by
  have of_none {q : InternalRequest} (none : q.message.optionsNamed OptionName.block1 = [])
      (full : q.message.payload = q.fullPayload) : q.Intact :=
    ⟨fun _ => full, by simp [none]⟩
  simp only [InternalRequest.firstBlocks]
  by_cases positive : 0 < size
  · have asked : (r.setToRequestBlock 0 size).Intact := by
      apply of_none (block1_setToRequestBlock r size (by decide))
      have payload : (r.setToRequestBlock 0 size).message.payload = r.message.payload := by
        simp only [setToRequestBlock]
        split_ifs <;> rfl
      have fullPayload : (r.setToRequestBlock 0 size).fullPayload = r.fullPayload :=
        congrArg Identity.fullPayload (r.identity_setToRequestBlock 0 size)
      rw [payload, fullPayload, full]
    simp only [positive, if_true, true_and]
    split_ifs
    · exact asked.setToSendBlock 0 size
    · exact asked
  · simp only [positive, if_false, false_and]
    exact of_none (none.resolve_left positive) full

end Intact

end InternalRequest

namespace ExchangeData

variable {Addr : Type} [Platform Addr] {e e' : ExchangeData Addr}
  {blockSize : Nat} {reply : ReceivedReply Addr} {id : UInt16}

theorem intact_stored (h : e.request.Intact) (reply : ReceivedReply Addr) :
    (e.store reply).dropObserve.request.Intact := by
  have message := @message_store Addr _ e reply
  refine h.of_same ?_ ?_ ?_
  · exact congrArg InternalRequest.Identity.fullPayload (continues_stored e reply).identity
  · have payload : (e.store reply).dropObserve.request.message.payload =
        (e.store reply).request.message.payload := by
      simp only [dropObserve]
      split_ifs <;> rfl
    exact payload.trans (congrArg Message.payload message)
  · rcases optionsNamed_dropObserve (e.store reply) OptionName.block1 with same | ⟨-, observe, -⟩
    · exact same.trans (congrArg (·.optionsNamed OptionName.block1) message)
    · exact absurd observe (by decide)

/-- No further block of a response is asked for. -/
theorem intact_receive (h : e.request.Intact)
    (single : isError reply.responseCode = false → reply.hasMoreBlocksToReceive = false)
    (left : (e.receive blockSize reply id).1 = some e') : e'.request.Intact := by
  have stored := intact_stored h reply
  obtain ⟨noError, ⟨q, host, next, rfl⟩ | ⟨-, finished⟩⟩ := receive_left left
  · have sends : q.Intact := by
      unfold nextRequest at next
      dsimp only at next
      split_ifs at next with more again
      · obtain ⟨rfl, -⟩ := Prod.mk.inj (Option.some.inj next)
        exact stored.setToSendBlock _ _
      · rw [single noError] at again
        cases again
    have sent := @message_transmit Addr _ (q.setMessageId id) host
    refine sends.of_same ?_ ?_ ?_
    · exact congrArg InternalRequest.Identity.fullPayload (identity_transmit ..)
    · dsimp only
      rw [sent]
      rfl
    · dsimp only
      rw [sent]
      rfl
  · rw [(finish_kept finished).1]
    exact stored

end ExchangeData

namespace Protocol

variable {Addr : Type} [Platform Addr] {s t : Protocol Addr}
  {os : List (Output Addr)} {event : Event Addr} {key : Token} {size : Nat} {payload : QByteArray}

/-- What is registered under the key has an intact request. -/
def Intact (key : Token) (s : Protocol Addr) : Prop :=
  ∀ e, s.exchangeMap.find? key = some e → e.request.Intact

theorem Intact.step (h : s.Intact key) (consistent : s.Consistent) (step : Step s event os t)
    (other : OpensOther key os)
    (single : ∀ data reply draws e, event = .frameReceived data reply.senderAddress draws →
      s.Admits data reply key e → reply.hasMoreBlocksToReceive = false) : t.Intact key := by
  intro e' found'
  cases step_change consistent step with
  | @opened id request connection draws messageId token timeout registers after =>
    obtain ⟨rfl, rfl⟩ := Prod.mk.inj after
    rw [find?_setExchange] at found'
    split_ifs at found' with own
    · rw [own] at other
      exact absurd (List.mem_cons_self ..) (other id messageId)
    · exact h e' found'
  | @reacted _ key' e reaction found reacts after =>
    obtain ⟨rfl, rfl⟩ := Prod.mk.inj after
    rw [find?_setExchange] at found'
    split_ifs at found' with own
    · subst own
      cases reacts with
      | @received data draws reply id admits fresh =>
        exact ExchangeData.intact_receive (h e found)
          (fun _ => single data reply draws e rfl admits) found'
      | timedOut runs =>
        obtain ⟨continues, message, -⟩ := ExchangeData.timeout_kept found'
        refine (h e found).of_same ?_ ?_ ?_
        · exact congrArg InternalRequest.Identity.fullPayload continues.identity
        · rw [message]
        · rw [message]
      | spanReached runs => cases found'
      | expired runs => cases found'
      | aborted => cases found'
    · exact h e' found'
  | passed each outputs =>
    obtain ⟨e, found, passes⟩ := passes_to_some (found' ▸ each key)
    refine (h e found).of_same ?_ ?_ ?_
    · exact congrArg InternalRequest.Identity.fullPayload passes.identity
    · rw [passes.message]
    · rw [passes.message]

/-- What is sent for an exchange presents its payload. -/
theorem presents_of_mem (uploads : t.Uploads key size payload) (intact : t.Intact key)
    (consistent : s.Consistent) (step : Step s event os t) (key_ne : key ≠ []) {message : Message}
    (sent : message ∈ requestsOf key os) : message.Presents size payload := by
  obtain ⟨token, method, connection, host, port, sent⟩ := mem_requestsOf sent
  rcases (step_effect consistent step).frames sent with empty | ⟨key', e, found, rfl⟩
  · exact absurd (token.symm.trans empty) key_ne
  · have own : key' = key := ((consistent.step step).registered found).token.symm.trans token
    subst own
    have sends := (uploads e found).sends
    have full := (uploads e found).fullPayload
    constructor
    · intro option ho
      exact ⟨full ▸ sends option ho, (intact e found).short option ho⟩
    · intro none
      exact ((intact e found).whole none).trans full

theorem completed_payload (s : Protocol Addr) (request : Request) (connection : ConnectionId)
    (messageId : UInt16) (token : Token) :
    (s.completed request connection messageId token).message.payload = request.message.payload := by
  have payload : (s.completed request connection messageId token).message.payload =
      (s.newRequest request).message.payload := rfl
  obtain ⟨target, options, made⟩ := InternalRequest.ofRequest_kept Addr request
  rw [payload, newRequest_message, made]

end Protocol

/-- What the server may send for a request it has taken in this way. A block that it takes is
answered with its Block1 option, and no response is cut into blocks. -/
structure Verdict.Answers (verdict : Verdict) (request : Message) (reply : InternalReply) :
    Prop where
  refused : verdict = .refused → isError reply.responseCode = true
  block1 : reply.message.optionsNamed OptionName.block1 = [] ∧ verdict ≠ .continued ∨
    reply.message.optionsNamed OptionName.block1 = request.optionsNamed OptionName.block1
  block2 : reply.message.optionsNamed OptionName.block2 = []

instance (verdict : Verdict) (request : Message) (reply : InternalReply) :
    Decidable (verdict.Answers request reply) :=
  decidable_of_iff
    ((verdict = .refused → isError reply.responseCode = true) ∧
      (reply.message.optionsNamed OptionName.block1 = [] ∧ verdict ≠ .continued ∨
        reply.message.optionsNamed OptionName.block1 = request.optionsNamed OptionName.block1) ∧
      reply.message.optionsNamed OptionName.block2 = [])
    ⟨fun ⟨a, b, c⟩ => ⟨a, b, c⟩, fun ⟨a, b, c⟩ => ⟨a, b, c⟩⟩

/-- The client, the requests of one exchange that have reached the network, the server, and the
requests that the server has taken. -/
structure UploadNetwork (Addr : Type) where
  protocol : Protocol Addr
  requests : List Message
  server : UploadServer := {}
  taken : List (Message × Verdict) := []

/-- A step of the client, or the server takes a request. -/
inductive UploadEvent (Addr : Type)
  | client (event : Event Addr)
  | serve (request : Message) (verdict : Verdict)

variable {Addr : Type} [Platform Addr]

namespace UploadNetwork

/-- A frame that the client takes for one of this exchange is an answer to a request that the
server has taken, or acknowledges one. It may come late, more than once or never. -/
def Possible (token : Token) (n : UploadNetwork Addr) (event : Event Addr) : Prop :=
  ∀ data reply draws e, event = .frameReceived data reply.senderAddress draws →
    n.protocol.Admits data reply token e →
    ∃ entry ∈ n.taken, entry.2.Answers entry.1 reply.toInternalReply ∨
      Acknowledges entry.1 reply.toInternalReply

/-- The frames that the client sends for the exchange reach the network. The server takes any of
them, at any time and as often as it gets there. -/
def Step (token : Token) (n : UploadNetwork Addr) : UploadEvent Addr → List (Output Addr) →
    UploadNetwork Addr → Prop
  | .client event, os, n' =>
    n.Possible token event ∧ Protocol.Step n.protocol event os n'.protocol ∧
      n' = { n with protocol := n'.protocol, requests := n.requests ++ requestsOf token os }
  | .serve request verdict, os, n' => request ∈ n.requests ∧ os = [] ∧
      n.server.take request verdict = some n'.server ∧
      n' = { n with server := n'.server, taken := n.taken ++ [(request, verdict)] }

variable {n n' : UploadNetwork Addr} {token : Token} {size : Nat} {payload : QByteArray}
  {os : List (Output Addr)} {id : ReplyId}

/-- The invariant of an upload. -/
structure Uploading (id : ReplyId) (token : Token) (size : Nat) (payload : QByteArray)
    (n : UploadNetwork Addr) : Prop where
  reachable : n.protocol.Reachable
  token_ne : token ≠ []
  owns : ∀ key, n.protocol.Owns key id → key = token
  uploads : n.protocol.Uploads token size payload
  intact : n.protocol.Intact token
  requests : ∀ request ∈ n.requests, request.Presents size payload
  server : n.server.Holds payload
  taken : ∀ entry ∈ n.taken, entry.1.Presents size payload ∧
    (entry.2 = .stored → n.server.stored ≠ []) ∧
    (entry.2 = .continued → ∃ option ∈ (entry.1.optionsNamed OptionName.block1).head?,
      bigEndian option.value / 8 % 2 = 1)

/-- A block with the More flag asks for the next one. -/
theorem hasMoreBlocksToSend_of_more (junk : UInt8) {reply : InternalReply} {option : CoapOption}
    (first : option ∈ (reply.message.optionsNamed OptionName.block1).head?)
    (more : bigEndian option.value / 8 % 2 = 1) (short : bigEndian option.value < 2 ^ 24) :
    reply.hasMoreBlocksToSend junk = true := by
  have ne : option.value ≠ [] := by
    intro empty
    rw [empty] at more
    cases more
  have read : reply.message.option OptionName.block1 = option := by
    rw [Message.option_eq, Option.mem_def.mp first]
    rfl
  have valid : option.isValid = true := by
    simp [CoapOption.isValid, Message.name_of_head first, OptionName.block1, OptionName.invalid]
  have number := blockNumberOf_eq junk ne (by omega)
  have flag : moreFlagOf junk option.value = true :=
    (moreFlagOf_eq junk ne).trans (decide_eq_true more)
  have positive : toInt32 (bigEndian option.value / 16) = (bigEndian option.value / 16 : Nat) :=
    toInt32_of_lt (by omega)
  have next : reply.nextBlockToSend junk = (bigEndian option.value / 16 : Nat) + 1 := by
    simp only [InternalReply.nextBlockToSend]
    rw [read, valid, flag, number, positive]
    rfl
  apply decide_eq_true
  omega

namespace Uploading

variable {event : Event Addr} {data : QByteArray} {reply : ReceivedReply Addr} {draws : Draws}
  {e : ExchangeData Addr}

/-- What an answer can be. -/
theorem answered (h : n.Uploading id token size payload)
    (possible : n.Possible token (.frameReceived data reply.senderAddress draws))
    (admits : n.protocol.Admits data reply token e) :
    reply.hasMoreBlocksToReceive = false ∧
      (reply.hasMoreBlocksToSend (Platform.junk Addr) = true → 0 < size) ∧
      (isError reply.responseCode = false → n.server.stored ≠ [] ∨
        reply.hasMoreBlocksToSend (Platform.junk Addr) = true ∨
        reply.message.type = .acknowledgment ∧
          reply.responseCode = ResponseCode.emptyMessage) := by
  obtain ⟨⟨request, verdict⟩, listed, answers | acknowledges⟩ :=
    possible data reply draws e rfl admits
  · obtain ⟨presents, stored, continued⟩ := h.taken _ listed
    dsimp only at answers presents stored continued
    refine ⟨?_, ?_, ?_⟩
    · obtain ⟨-, more, -⟩ := createFromFrame_block (Platform.junk Addr) admits.decoded
      rw [answers.block2] at more
      exact more
    · intro more
      rcases answers.block1 with ⟨none, -⟩ | same
      · rw [InternalReply.hasMoreBlocksToSend_of_none none] at more
        cases more
      · cases options : request.optionsNamed OptionName.block1 with
        | nil =>
          rw [InternalReply.hasMoreBlocksToSend_of_none (same.trans options)] at more
          cases more
        | cons option rest =>
          have declares := (presents.block option (by simp [options])).1.declares
          rw [← declares]
          exact Nat.two_pow_pos _
    · intro noError
      cases verdict with
      | refused =>
        rw [answers.refused rfl] at noError
        cases noError
      | stored => exact .inl (stored rfl)
      | continued =>
        obtain ⟨option, first, more⟩ := continued rfl
        have same := answers.block1.resolve_left (by simp)
        refine .inr (.inl (hasMoreBlocksToSend_of_more _ (same ▸ first) more ?_))
        exact (presents.block option (List.mem_of_head? first)).2
  · refine ⟨acknowledges.hasNextBlock _ admits.decoded, fun more => ?_, fun _ => ?_⟩
    · rw [acknowledges.hasMoreBlocksToSend] at more
      cases more
    · exact .inr (.inr ⟨acknowledges.type, acknowledges.code⟩)

theorem client (h : n.Uploading id token size payload)
    (step : n.Step token (.client event) os n') (other : Protocol.OpensOther token os)
    (single : event.sends id = false) (kept : n.protocol.blockSize = size) :
    n'.Uploading id token size payload := by
  obtain ⟨possible, taken, after⟩ := step
  have consistent := h.reachable.consistent
  have keeps : n.protocol.KeepsBlockSize token size event := by
    rintro data reply draws e rfl admits noError more
    exact ⟨kept, (h.answered possible admits).2.1 more⟩
  have uploads : n'.protocol.Uploads token size payload :=
    h.uploads.step h.reachable taken other keeps
  have intact : n'.protocol.Intact token := by
    refine h.intact.step consistent taken other ?_
    rintro data reply draws e rfl admits
    exact (h.answered possible admits).1
  obtain ⟨opened, back⟩ := (Protocol.step_change consistent taken).owns id
  have owns (key : Token) (own : n'.protocol.Owns key id) : key = token := by
    rcases back key own with before | ⟨sends, -⟩
    · exact h.owns key before
    · rw [single] at sends
      cases sends
  have requests (request : Message) (listed : request ∈ n'.requests) :
      request.Presents size payload := by
    rw [after] at listed
    rcases List.mem_append.mp listed with before | new
    · exact h.requests request before
    · exact Protocol.presents_of_mem uploads intact consistent taken h.token_ne new
  refine ⟨h.reachable.next taken, h.token_ne, owns, uploads, intact, requests, ?_, ?_⟩
  · rw [after]
    exact h.server
  · rw [after]
    exact h.taken

theorem serve (h : n.Uploading id token size payload) {request : Message} {verdict : Verdict}
    (step : n.Step token (.serve request verdict) os n') :
    n'.Uploading id token size payload := by
  obtain ⟨listed, -, taken, after⟩ := step
  have presents := h.requests request listed
  obtain ⟨holds, stores, continued⟩ := UploadServer.take_holds h.server presents taken
  rw [after]
  refine ⟨h.reachable, h.token_ne, h.owns, h.uploads, h.intact, h.requests, holds, ?_⟩
  intro entry own
  rcases List.mem_append.mp own with before | new
  · obtain ⟨presents, stored, continued⟩ := h.taken entry before
    exact ⟨presents, fun finished => stores (.inl (stored finished)), continued⟩
  · obtain rfl := List.mem_singleton.mp new
    exact ⟨presents, fun finished => stores (.inr finished), continued⟩

end Uploading

/-- Whether a frame is an answer to a request that has been taken. -/
def expects (n : UploadNetwork Addr) : Event Addr → Bool
  | .frameReceived data _ _ =>
    match createFromFrame (Platform.junk Addr) data with
    | .ok reply => n.taken.any fun entry =>
      decide (entry.2.Answers entry.1 reply ∨ Acknowledges entry.1 reply)
    | .error _ => true
  | _ => true

theorem possible_of_expects {event : Event Addr} (h : n.expects event = true) :
    n.Possible token event := by
  rintro data reply draws e rfl admits
  simp only [expects] at h
  rw [admits.decoded] at h
  obtain ⟨entry, listed, answers⟩ := List.any_eq_true.mp h
  exact ⟨entry, listed, of_decide_eq_true answers⟩

def handle (token : Token) (n : UploadNetwork Addr) : UploadEvent Addr →
    Option (UploadNetwork Addr × List (Output Addr))
  | .client event =>
    if n.expects event then
      (n.protocol.handle event).map fun result =>
        ({ n with protocol := result.1, requests := n.requests ++ requestsOf token result.2 },
          result.2)
    else none
  | .serve request verdict =>
    if request ∈ n.requests then
      (n.server.take request verdict).map fun server =>
        ({ n with server := server, taken := n.taken ++ [(request, verdict)] }, [])
    else none

theorem step_of_handle {event : UploadEvent Addr} (h : n.handle token event = some (n', os)) :
    n.Step token event os n' := by
  cases event with
  | client event =>
    simp only [handle] at h
    split_ifs at h with expected
    obtain ⟨⟨t, os'⟩, handled, same⟩ := Option.map_eq_some_iff.mp h
    obtain ⟨rfl, rfl⟩ := Prod.mk.inj same
    exact ⟨possible_of_expects expected, Protocol.step_of_handle handled, rfl⟩
  | serve request verdict =>
    simp only [handle] at h
    split_ifs at h with listed
    obtain ⟨server, taken, same⟩ := Option.map_eq_some_iff.mp h
    obtain ⟨rfl, rfl⟩ := Prod.mk.inj same
    exact ⟨listed, rfl, taken, rfl⟩

section Instances

end Instances

end UploadNetwork

end QtCoap
