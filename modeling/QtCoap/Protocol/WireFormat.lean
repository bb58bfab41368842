import QtCoap.Codec.RfcEncoding
import QtCoap.Protocol.Destination
import QtCoap.Protocol.Identifiers
import QtCoap.Protocol.UriOptions

namespace QtCoap

/-- What the encoder needs of a message to write the standard's encoding. -/
structure Message.Encodable (m : Message) : Prop where
  version_le : m.version ≤ 3
  token_le : m.token.length ≤ 8
  ascending : Ascending 0 m.options
  short : ∀ o ∈ m.options, o.length ≤ 268

theorem Ascending.sublist {last : UInt8} {options options' : List CoapOption}
    (h : Ascending last options) (sub : options'.Sublist options) : Ascending last options' where
  above o ho := h.above o (sub.subset ho)
  sorted := h.sorted.sublist sub
  names_le o ho := h.names_le o (sub.subset ho)

namespace Message.Encodable

variable {m : Message}

theorem encodes (h : m.Encodable) (code : UInt8) : EncodesAsRfc m code := by
  have encoding := toQByteArray_eq_encode code h.version_le h.token_le h.ascending h.short
  refine ⟨encoding, ?_⟩
  rw [encoding]
  exact Rfc7252.decode_encode _
    (toFrame_wellFormed code h.version_le h.token_le h.ascending h.short)

/-- The other fields may be changed. -/
theorem with_options {m' : Message} (h : m.Encodable) (version : m'.version = m.version)
    (token : m'.token.length ≤ 8) (options : m'.options = m.options) : m'.Encodable where
  version_le := by
    rw [version]
    exact h.version_le
  token_le := token
  ascending := by
    rw [options]
    exact h.ascending
  short := by
    rw [options]
    exact h.short

theorem removeOption (h : m.Encodable) (name : Nat) : (m.removeOption name).Encodable where
  version_le := h.version_le
  token_le := h.token_le
  ascending := h.ascending.sublist List.filter_sublist
  short o ho := h.short o (List.filter_sublist.subset ho)

theorem addOption (h : m.Encodable) {o : CoapOption} (name_le : o.name ≤ 255)
    (short : o.length ≤ 268) : (m.addOption o).Encodable := by
  have member {p : CoapOption} (hp : p ∈ (m.addOption o).options) : p = o ∨ p ∈ m.options :=
    (Framework.mem_insertUpper CoapOption.name o p m.options).mp hp
  refine ⟨h.version_le, h.token_le, ⟨fun p _ => Nat.zero_le _, ?_, ?_⟩, ?_⟩
  · exact m.addOption_sorted o h.ascending.sorted
  · intro p hp
    rcases member hp with rfl | hp
    · exact name_le
    · exact h.ascending.names_le p hp
  · intro p hp
    rcases member hp with rfl | hp
    · exact short
    · exact h.short p hp

theorem addOptions (h : m.Encodable) {options : List CoapOption}
    (each : ∀ o ∈ options, o.name ≤ 255 ∧ o.length ≤ 268) : (m.addOptions options).Encodable := by
  induction options generalizing m with
  | nil => exact h
  | cons o options ih =>
    obtain ⟨name_le, short⟩ := each o (by simp)
    exact ih (h.addOption name_le short) fun p hp => each p (by simp [hp])

/-- An empty message. -/
theorem empty (type : MessageType) (messageId : UInt16) :
    Message.Encodable { type := type, messageId := messageId } where
  version_le := (by decide : (1 : UInt8) ≤ 3)
  token_le := Nat.zero_le 8
  ascending := ⟨by simp, .nil, by simp⟩
  short := by simp

end Message.Encodable

namespace InternalRequest

variable (r : InternalRequest)

theorem blockOption_encodable {name : Nat}
    (block : name = OptionName.block1 ∨ name = OptionName.block2) (number size : Nat) :
    (r.blockOption name number size).name ≤ 255 ∧
      (r.blockOption name number size).length ≤ 268 := by
  constructor
  · change name ≤ 255
    rcases block with rfl | rfl <;> decide
  · change (blockOptionValue _).length ≤ 268
    rw [length_blockOptionValue]
    split_ifs <;> omega

variable {r}

theorem encodable_setToRequestBlock (h : r.message.Encodable) (number size : Nat) :
    (r.setToRequestBlock number size).message.Encodable := by
  simp only [setToRequestBlock]
  split_ifs
  · exact h
  · obtain ⟨name_le, short⟩ := r.blockOption_encodable (.inr rfl) number size
    exact ((h.removeOption _).removeOption _).addOption name_le short

theorem encodable_setToSendBlock (h : r.message.Encodable) (number size : Nat) :
    (r.setToSendBlock number size).message.Encodable := by
  simp only [setToSendBlock]
  split_ifs
  · exact h
  · obtain ⟨name_le, short⟩ := r.blockOption_encodable (.inl rfl) number size
    refine Message.Encodable.addOption (Message.Encodable.removeOption ?_ _) name_le short
    exact h.with_options rfl h.token_le rfl

theorem encodable_firstBlocks (h : r.message.Encodable) (blockSize : Nat) :
    (r.firstBlocks blockSize).message.Encodable := by
  simp only [firstBlocks]
  split_ifs
  · exact encodable_setToSendBlock (encodable_setToRequestBlock h _ _) _ _
  · exact encodable_setToSendBlock h _ _
  · exact encodable_setToRequestBlock h _ _
  · exact h

end InternalRequest

section Addresses

variable (Addr : Type) [Platform Addr]

theorem name_uriOptions {uri proxyUri : Url} {o : CoapOption}
    (ho : o ∈ uriOptions Addr uri proxyUri) : o.name ≤ 255 := by
  simp only [uriOptions] at ho
  split_ifs at ho
  · cases ho
  · obtain rfl := List.mem_singleton.mp ho
    change OptionName.proxyUri ≤ 255
    decide
  · obtain ⟨authority, listed, -, below⟩ := destinationOptions_eq Addr uri.normalizePathSegments
    rw [listed] at ho
    rcases List.mem_append.mp ho with ho | ho
    · rcases List.mem_append.mp ho with ho | ho
      · exact (below o ho).le.trans (by decide)
      · rw [name_partOptions ho]
        decide
    · rw [name_partOptions ho]
      decide

/-- A request whose options, with those for its URLs, the encoder can write. -/
structure Request.Encodable (request : Request) : Prop where
  message : request.message.Encodable
  uri : ∀ o ∈ uriOptions Addr request.uri request.proxyUri, o.length ≤ 268

end Addresses

variable {Addr : Type} [Platform Addr]

theorem Request.Encodable.ofRequest {request : Request} (h : request.Encodable Addr) :
    (InternalRequest.ofRequest Addr request).message.Encodable := by
  rw [InternalRequest.ofRequest_eq]
  exact h.message.addOptions fun o ho => ⟨name_uriOptions Addr ho, h.uri o ho⟩

namespace ExchangeData

variable {e e' : ExchangeData Addr} {message : Message} {method : Method}
  {connection : ConnectionId} {host : QString} {port : UInt16}

theorem encodable_stored (h : e.request.message.Encodable) (reply : ReceivedReply Addr) :
    (e.store reply).dropObserve.request.message.Encodable := by
  rw [← message_store reply] at h
  simp only [dropObserve]
  split_ifs
  · exact h.removeOption _
  · exact h

theorem encodable_nextRequest {blockSize : Nat} {reply : ReceivedReply Addr}
    {r q : InternalRequest} {target : QString} (h : r.message.Encodable)
    (next : nextRequest blockSize reply r = some (q, target)) : q.message.Encodable := by
  unfold nextRequest at next
  dsimp only at next
  split_ifs at next
  · obtain ⟨rfl, -⟩ := Prod.mk.inj (Option.some.inj next)
    exact InternalRequest.encodable_setToSendBlock h _ _
  · obtain ⟨rfl, -⟩ := Prod.mk.inj (Option.some.inj next)
    exact InternalRequest.encodable_setToRequestBlock h _ _

theorem encodable_acknowledge {reply : ReceivedReply Addr}
    (sent : .frame message method connection host port ∈ e.acknowledge reply) :
    message.Encodable := by
  simp only [acknowledge] at sent
  split_ifs at sent
  · rw [frame_mem_transmit sent]
    exact .empty ..
  · rw [frame_mem_transmit sent]
    exact .empty ..
  · cases sent

variable {s : Protocol Addr} {key : Token} {event : Event Addr} {reaction : Reaction Addr}

/-- Nothing is left and nothing is sent. -/
theorem encodable_of_silent {Addr : Type} {os : List (Output Addr)}
    (silent : ∀ message method connection host port,
      .frame message method connection host port ∉ os) :
    (∀ e' : ExchangeData Addr, none = some e' → e'.request.message.Encodable) ∧
      ∀ message method connection host port,
        .frame message method connection host port ∈ os → message.Encodable := by
  refine ⟨fun e' left => (by cases left), ?_⟩
  intro message method connection host port sent
  exact (silent _ _ _ _ _ sent).elim

/-- Everything that a reaction sends, and the request that it leaves, can be encoded. -/
theorem Reacts.encodable (h : Reacts s key e event reaction) (good : e.request.message.Encodable) :
    (∀ e', reaction.1 = some e' → e'.request.message.Encodable) ∧
      ∀ message method connection host port,
        .frame message method connection host port ∈ reaction.2 → message.Encodable := by
  cases h with
  | @received data draws reply id admits fresh =>
    have stored := encodable_stored good reply
    have received := e.receives s.blockSize reply id
    generalize e.receive s.blockSize reply id = reaction at received
    cases received with
    | failed error => exact encodable_of_silent fun _ _ _ _ _ => frame_not_mem_fail
    | asked noError q target next =>
      have asked : (q.setMessageId id).message.Encodable := by
        have block := encodable_nextRequest stored next
        exact block.with_options rfl block.token_le rfl
      constructor
      · intro e' left
        obtain rfl := Option.some.inj left
        dsimp only
        rw [message_transmit]
        exact asked
      · intro message method connection host port sent
        rcases List.mem_append.mp sent with sent | sent
        · exact encodable_acknowledge sent
        · rw [frame_mem_transmit sent]
          exact asked
    | ended noError last =>
      constructor
      · intro e' left
        rw [(finish_kept left).1]
        exact stored
      · intro message method connection host port sent
        rcases List.mem_append.mp sent with sent | sent
        · exact encodable_acknowledge sent
        · exact absurd sent (frame_not_mem_finish _ _ _ _ _ _ _)
  | timedOut runs =>
    constructor
    · intro e' left
      rw [(timeout_kept left).2.1]
      exact good
    · intro message method connection host port sent
      simp only [timeout] at sent
      split_ifs at sent
      · rw [frame_mem_transmit sent]
        exact good
      · exact absurd sent frame_not_mem_fail
  | spanReached runs => exact encodable_of_silent fun _ _ _ _ _ => frame_not_mem_fail
  | expired runs => exact encodable_of_silent fun _ _ _ _ _ => frame_not_mem_expire
  | aborted => exact encodable_of_silent fun _ _ _ _ _ => List.not_mem_nil

end ExchangeData

namespace Protocol

variable {s t : Protocol Addr} {os : List (Output Addr)} {event : Event Addr}

/-- The token of a new exchange is the one of the user or has one of the lengths of the
generator. -/
theorem length_token_of_opened (small : s.minimumTokenSize ≤ 8) {id : ReplyId} {request : Request}
    {connection : ConnectionId} {draws : Draws} {messageId : UInt16} {token : Token}
    {timeout : Nat} (registers : s.Registers request messageId token)
    (h : s.sendRequest (some id) request connection draws = .ok (t, os))
    (after : (t, os) = s.apply token
      (ExchangeData.opened id (s.completed request connection messageId token) s.blockSize
        timeout)) :
    if request.message.token = [] then s.minimumTokenSize ≤ token.length ∧ token.length ≤ 8
    else token = request.message.token := by
  unfold sendRequest at h
  dsimp only at h
  rw [if_neg (by simp [registers.method, registers.url])] at h
  obtain ⟨⟨messageId', draws'⟩, -, h⟩ := Framework.bind_ok h
  obtain ⟨⟨token', draws''⟩, chosen, h⟩ := Framework.bind_ok h
  have chosen : s.chosenToken request.message.token draws' = .ok (token', draws'') := by
    rw [← newRequest_token s request]
    exact chosen
  have opened := (openExchange_eq id (s.completed request connection messageId' token')
    draws'').symm.trans h
  obtain ⟨timeout', -, after'⟩ := Framework.map_ok opened
  -- both are told to the reply
  have posts := (Prod.mk.inj (after'.trans after)).2
  obtain ⟨first, -⟩ := List.cons.inj posts
  have same : token' = token := (Slot.setRunning.inj (Output.post.inj first).2).1
  rw [← same]
  split_ifs with own
  · rw [own] at chosen
    have unregistered := tokenLoop_ok chosen
    rcases length_tokenLoop small chosen with none | range
    · dsimp only at unregistered none
      rw [none] at unregistered
      cases unregistered
    · exact range
  · have kept := chosenToken_ok chosen
    rw [if_neg own] at kept
    exact kept

/-- All registered exchanges have requests that can be encoded. -/
def Encodable (s : Protocol Addr) : Prop :=
  ∀ key e, s.exchangeMap.find? key = some e → e.request.message.Encodable

theorem Encodable.apply {Addr : Type} {s : Protocol Addr} (before : s.Encodable) {key : Token}
    {reaction : Reaction Addr} (left : ∀ e', reaction.1 = some e' → e'.request.message.Encodable) :
    (s.apply key reaction).1.Encodable := by
  intro key' e' found
  rw [Protocol.apply, find?_setExchange] at found
  split_ifs at found
  · exact left e' found
  · exact before key' e' found

theorem Encodable.step (consistent : s.Consistent) (small : s.minimumTokenSize ≤ 8)
    (before : s.Encodable) (step : Step s event os t)
    (requests : ∀ id request connection draws,
      event = .sendRequest (some id) request connection draws → request.Encodable Addr) :
    t.Encodable ∧ ∀ message method connection host port,
      .frame message method connection host port ∈ os → message.Encodable := by
  cases step_change consistent step with
  | @opened id request connection draws messageId token timeout registers after =>
    have encodable := requests id request connection draws rfl
    have length := length_token_of_opened small registers step.2 after
    have short : token.length ≤ 8 := by
      split_ifs at length
      · exact length.2
      · rw [length]
        exact encodable.message.token_le
    have completed : (s.completed request connection messageId token).message.Encodable := by
      have made := encodable.ofRequest
      rw [← newRequest_message (s := s)] at made
      exact made.with_options rfl short rfl
    have blocks := InternalRequest.encodable_firstBlocks completed s.blockSize
    obtain ⟨rfl, rfl⟩ := Prod.mk.inj after
    constructor
    · refine before.apply fun e' left => ?_
      obtain ⟨q, entry, -, sent, -⟩ := @ExchangeData.opened_entry Addr _ id
        (s.completed request connection messageId token) s.blockSize timeout
      obtain rfl := Option.some.inj (left.symm.trans entry)
      dsimp only
      rw [sent]
      exact blocks
    · intro message method connection host port sent
      rcases List.mem_cons.mp sent with sent | sent
      · cases sent
      · rw [frame_mem_transmit sent]
        exact blocks
  | reacted key e reaction found reacts after =>
    obtain ⟨left, sent⟩ := reacts.encodable (before key e found)
    obtain ⟨rfl, rfl⟩ := Prod.mk.inj after
    exact ⟨before.apply left, sent⟩
  | passed each outputs =>
    constructor
    · intro key e' found
      obtain ⟨e, found', passes⟩ := passes_to_some (found ▸ each key)
      rw [passes.message]
      exact before key e found'
    · intro message method connection host port sent
      rcases outputs _ sent with ⟨id, post⟩ | ⟨error, signal⟩
      · cases post
      · cases signal

theorem encodable_of_run {tr : List (Taken Addr)} (run : Framework.Run Step {} tr t)
    (requests : ∀ x ∈ tr, ∀ id request connection draws,
      x.event = .sendRequest (some id) request connection draws → request.Encodable Addr) :
    ∀ x ∈ tr, ∀ message method connection host port,
      .frame message method connection host port ∈ x.outputs → message.Encodable := by
  have steps := run.forall_step (P := fun s : Protocol Addr => Reachable s)
    (fun before step => Framework.Reachable.next before step) ⟨{}, [], rfl, .nil⟩
  have each (x : Taken Addr) (hx : x ∈ tr) (before : x.source.Encodable) :=
    before.step (steps x hx).1.consistent (steps x hx).1.minimumTokenSize.2 (steps x hx).2
      (requests x hx)
  have along := run.along (P := fun s : Protocol Addr => s.Encodable)
    (fun x hx _ before => (each x hx before).1) (by intro key e none; cases none)
  intro x hx
  exact (each x hx (along.2 x hx).1).2

/-- In every run whose requests can be encoded, with the options for their URLs: every frame is the
standard's encoding of its message, and an independent decoder reads that message back. That holds
of requests, of retransmissions, of block requests and of empty messages alike. -/
theorem frames_encode {tr : List (Taken Addr)} (run : Framework.Run Step {} tr t)
    (requests : ∀ x ∈ tr, ∀ id request connection draws,
      x.event = .sendRequest (some id) request connection draws → request.Encodable Addr) :
    ∀ x ∈ tr, ∀ message method connection host port,
      .frame message method connection host port ∈ x.outputs → EncodesAsRfc message method := by
  intro x hx message method connection host port sent
  exact (encodable_of_run run requests x hx _ _ _ _ _ sent).encodes method

end Protocol

section Instances

/-- Twenty bytes in blocks of sixteen: the first is sent twice, and a Continue asks for the
second. -/
def twoBlockUpload : List (Event IPv4Address) :=
  [.setBlockSize 16,
    .sendRequest (some 0)
      { getRequest [1, 2] with
        message := { type := .confirmable, token := [1, 2], payload := List.replicate 20 7 }
        method := Method.put } 0 [7, 0],
    .timeout [1, 2],
    .frameReceived [0x62, 0x5F, 0, 7, 1, 2, 0xD1, 14, 8] serverAddress [9]]

theorem frames_encode_twoBlocks : ∃ (tr : List (Taken IPv4Address)) (t : Protocol IPv4Address),
    Framework.Run Protocol.Step {} tr t ∧ tr.map (·.outputs.length) = [0, 2, 1, 1] ∧
      ∀ x ∈ tr, ∀ message method connection host port,
        .frame message method connection host port ∈ x.outputs → EncodesAsRfc message method := by
  have ran : (Framework.execute Protocol.handle {} twoBlockUpload).any
      (fun result => result.1.map (·.outputs.length) == [0, 2, 1, 1]) = true := by
    decide +kernel
  obtain ⟨tr, t, run, events, lengths⟩ :=
    Framework.exists_run_of_execute Protocol.Step Protocol.step_of_handle ran
  refine ⟨tr, t, run, by simpa using lengths, Protocol.frames_encode run ?_⟩
  intro x hx id request connection draws sent
  have listed : x.event ∈ twoBlockUpload := events ▸ List.mem_map_of_mem hx
  rw [sent] at listed
  simp only [twoBlockUpload, List.mem_cons, List.not_mem_nil, or_false, reduceCtorEq, false_or,
    Event.sendRequest.injEq] at listed
  obtain ⟨-, rfl, -⟩ := listed
  refine ⟨⟨by decide, by decide, ⟨by decide, .nil, by decide⟩, by decide⟩, ?_⟩
  decide

end Instances

end QtCoap
