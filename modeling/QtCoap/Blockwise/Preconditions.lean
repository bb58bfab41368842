import QtCoap.Blockwise.BlockReads
import QtCoap.Protocol.Matching
import QtCoap.Protocol.Reactions
import QtCoap.Protocol.Settings

namespace QtCoap

variable {Addr : Type} [Platform Addr]

/-- The calls of `blockOption` when a reply has been added. -/
def continueExchangeCalls (blockSize : Nat) (reply : ReceivedReply Addr) : List (Nat × Nat) :=
  let nextBlock := reply.nextBlockToSend (Platform.junk Addr)
  if reply.hasMoreBlocksToSend (Platform.junk Addr) && 0 ≤ nextBlock then
    blockOptionCalls nextBlock.toNat blockSize
  else if reply.hasMoreBlocksToReceive then
    blockOptionCalls ((reply.currentBlockNumber + 1) % 2 ^ 32) reply.blockSize
  else []

namespace Protocol

variable (s : Protocol Addr) (data : QByteArray) (sender : Addr)

/-- The block option values whose last byte is read while a frame is decoded and processed. -/
def blockReads : List QByteArray :=
  createFromFrameReads data ++
    match s.attribution data sender with
    | some (reply, _, _) => if isError reply.responseCode then [] else reply.nextBlockToSendReads
    | none => []

/-- The calls of `blockOption` that come from it. -/
def blockCalls : List (Nat × Nat) :=
  match s.attribution data sender with
  | some (reply, _, _) =>
    if isError reply.responseCode then [] else continueExchangeCalls s.blockSize reply
  | none => []

/-- The block options of a frame are handled within their preconditions: a value that is read is not
empty, the assertions hold, and when a further block is asked for, a request that is sent for the
exchange asks for the next block in the same size. -/
structure WithinPreconditions (os : List (Output Addr)) : Prop where
  reads : ∀ value ∈ s.blockReads data sender, value ≠ []
  asserts : ∀ call ∈ s.blockCalls data sender, BlockOptionAsserts call.1 call.2
  next : ∀ found ∈ s.attribution data sender,
    ∀ option ∈ (found.1.message.optionsNamed OptionName.block2).getLast?,
      option.blockMore = true → ∀ message ∈ requestsOf found.2.1 os,
        AsksFor message (option.blockNumber + 1) option.blockSzx

instance (os : List (Output Addr)) : Decidable (s.WithinPreconditions data sender os) :=
  decidable_of_iff
    ((∀ value ∈ s.blockReads data sender, value ≠ []) ∧
      (∀ call ∈ s.blockCalls data sender, BlockOptionAsserts call.1 call.2) ∧
      ∀ found ∈ s.attribution data sender,
        ∀ option ∈ (found.1.message.optionsNamed OptionName.block2).getLast?,
          option.blockMore = true → ∀ message ∈ requestsOf found.2.1 os,
            AsksFor message (option.blockNumber + 1) option.blockSzx)
    ⟨fun ⟨a, b, c⟩ => ⟨a, b, c⟩, fun ⟨a, b, c⟩ => ⟨a, b, c⟩⟩

/-- A further block that is asked for can be asked for: there is no block of the request to be sent
first, and its number and its size fit. Else the request that is sent is left alone, and has to ask
for that block already. -/
def CanAsk (request : Message) (reply : InternalReply) (option : CoapOption) : Prop :=
  if (reply.message.optionsNamed OptionName.block1).head?.any (·.blockMore) = true ∨
      2 ^ 20 ≤ option.blockNumber + 1
  then AsksFor request (option.blockNumber + 1) option.blockSzx
  else option.blockSzx ≠ 7

instance (request : Message) (reply : InternalReply) (option : CoapOption) :
    Decidable (CanAsk request reply option) := by
  unfold CanAsk
  infer_instance

/-- Values are not empty where they are looked at, and further blocks can be asked for. -/
structure ProperBlocks (r : InternalReply) : Prop where
  block2 : ∀ option ∈ r.message.optionsNamed OptionName.block2, option.value ≠ []
  block1 : ∀ found ∈ s.attribution data sender, isError r.responseCode = false →
    ∀ option ∈ (r.message.optionsNamed OptionName.block1).head?, option.value ≠ []
  next : ∀ found ∈ s.attribution data sender, isError r.responseCode = false →
    ∀ option ∈ (r.message.optionsNamed OptionName.block2).getLast?, option.blockMore = true →
      CanAsk found.2.2.request.message r option

instance (r : InternalReply) : Decidable (s.ProperBlocks data sender r) :=
  decidable_of_iff
    ((∀ option ∈ r.message.optionsNamed OptionName.block2, option.value ≠ []) ∧
      (∀ found ∈ s.attribution data sender, isError r.responseCode = false →
        ∀ option ∈ (r.message.optionsNamed OptionName.block1).head?, option.value ≠ []) ∧
      ∀ found ∈ s.attribution data sender, isError r.responseCode = false →
        ∀ option ∈ (r.message.optionsNamed OptionName.block2).getLast?,
          option.blockMore = true → CanAsk found.2.2.request.message r option)
    ⟨fun ⟨a, b, c⟩ => ⟨a, b, c⟩, fun ⟨a, b, c⟩ => ⟨a, b, c⟩⟩

end Protocol

section Requests

variable {token : Token} {os : List (Output Addr)}

theorem requestsOf_transmit {r : InternalRequest}
    (connected : ∃ connection, r.connection = some connection) (host : QString) :
    requestsOf r.token (transmit Addr r host).2 = [r.message] := by
  obtain ⟨connection, own⟩ := connected
  have token : r.message.token = r.token := rfl
  simp only [transmit, own, requestsOf, sentTo, List.filterMap_cons, List.filterMap_nil, token,
    if_true, List.map_cons, List.map_nil]

end Requests

namespace ExchangeData

variable {e : ExchangeData Addr} {key : Token} {reply : ReceivedReply Addr} {blockSize : Nat}
  {id : UInt16} {q r : InternalRequest} {host : QString}

theorem requestsOf_fail {Addr : Type} {e : ExchangeData Addr} (key_ne : key ≠ []) (error : Error)
    (last : Option (ReceivedReply Addr)) : requestsOf key (e.fail error last).2 = [] := by
  apply requestsOf_eq_nil
  intro message method connection host port sent own
  rcases (issues_fail sent).2 _ _ _ _ _ rfl with empty | ⟨e', left, -⟩
  · exact key_ne (own.symm.trans empty)
  · cases left

/-- The block request that follows a reply is sent once. -/
theorem requestsOf_receive (registered : e.Registered key)
    (noError : isError reply.responseCode = false)
    (next : nextRequest blockSize reply (e.store reply).dropObserve.request = some (q, host)) :
    requestsOf key (e.receive blockSize reply id).2 = [(q.setMessageId id).message] := by
  have acknowledged : requestsOf key ((e.store reply).acknowledge reply) = [] := by
    apply requestsOf_eq_nil
    intro message method connection host port sent own
    obtain ⟨_, _, _, _, _, frame, empty⟩ := mem_acknowledge sent
    cases frame
    exact registered.key_ne (own.symm.trans empty)
  have identity := (nextRequest_kept next).1.trans (continues_stored e reply).identity
  have token : (q.setMessageId id).token = key :=
    (InternalRequest.token_of_identity identity).trans registered.token
  have connected : ∃ connection, (q.setMessageId id).connection = some connection := by
    have same : (q.setMessageId id).connection = e.request.connection :=
      InternalRequest.connection_of_identity identity
    rw [same]
    exact registered.connected
  have sent := @requestsOf_transmit Addr _ _ connected host
  rw [receive_of_next e noError next, requestsOf_append, acknowledged, List.nil_append]
  rw [token] at sent
  exact sent

/-- Its Block2 options: a new one, or those there were. -/
theorem block2_nextRequest (next : nextRequest blockSize reply r = some (q, host))
    (small : reply.currentBlockNumber < 2 ^ 20) :
    q.message.optionsNamed OptionName.block2 =
      if reply.hasMoreBlocksToSend (Platform.junk Addr) = true ∨
        2 ^ 20 ≤ reply.currentBlockNumber + 1 then r.message.optionsNamed OptionName.block2
      else [r.blockOption OptionName.block2 (reply.currentBlockNumber + 1) reply.blockSize] := by
  have wrapped : (reply.currentBlockNumber + 1) % 2 ^ 32 = reply.currentBlockNumber + 1 :=
    Nat.mod_eq_of_lt (by omega)
  unfold nextRequest at next
  dsimp only at next
  rw [wrapped] at next
  split_ifs at next with more asked
  · obtain ⟨rfl, -⟩ := Prod.mk.inj (Option.some.inj next)
    rw [if_pos (.inl ((Bool.and_eq_true ..).mp more).1)]
    exact r.optionsNamed_setToSendBlock_of_ne _ _ (by decide)
  · obtain ⟨rfl, -⟩ := Prod.mk.inj (Option.some.inj next)
    have last : reply.hasMoreBlocksToSend (Platform.junk Addr) = false := by
      rw [InternalReply.hasMoreBlocksToSend] at more ⊢
      simpa using more
    by_cases fits : reply.currentBlockNumber + 1 < 2 ^ 20
    · rw [if_neg (by simp [last]; omega)]
      exact r.optionsNamed_setToRequestBlock reply.blockSize fits
    · rw [if_pos (.inr (by omega)), r.setToRequestBlock_of_large reply.blockSize fits]

end ExchangeData

/-- An option that is written asks for the size given, unless that is 2048. -/
theorem blockSzx_blockOption (r : InternalRequest) {number szx : Nat} (small : number < 2 ^ 20)
    (range : szx < 8) :
    (r.blockOption OptionName.block2 number (2 ^ (szx + 4))).blockNumber = number ∧
      ((r.blockOption OptionName.block2 number (2 ^ (szx + 4))).blockSzx = szx ↔ szx ≠ 7) := by
  have le := szxOf_le (2 ^ (szx + 4))
  have value := bigEndian_blockOption_block2 r (2 ^ (szx + 4)) small
  have fields : ∀ szx < 8, szxOf (2 ^ (szx + 4)) = szx ↔ szx ≠ 7 := by decide
  simp only [CoapOption.blockNumber, CoapOption.blockSzx]
  rw [value, ← fields szx range]
  refine ⟨by omega, ?_⟩
  constructor
  · intro same
    omega
  · intro same
    omega

namespace Protocol

variable {s t : Protocol Addr} {os : List (Output Addr)} {data : QByteArray}
  {reply : ReceivedReply Addr} {key : Token} {e : ExchangeData Addr} {draws : Draws}
  {option : CoapOption}

/-- Block options have up to three bytes. -/
def ShortBlocks (r : InternalReply) : Prop :=
  ∀ option ∈ r.message.options,
    option.name = OptionName.block1 ∨ option.name = OptionName.block2 → option.value.length ≤ 3

theorem ShortBlocks.named {r : InternalReply} (short : ShortBlocks r) {name : Nat}
    (block : name = OptionName.block1 ∨ name = OptionName.block2)
    (listed : option ∈ r.message.optionsNamed name) : option.value.length ≤ 3 := by
  obtain ⟨stored, own⟩ := List.mem_filter.mp listed
  refine short option stored ?_
  rw [of_decide_eq_true own]
  exact block

instance (r : InternalReply) : Decidable (ShortBlocks r) :=
  List.decidableBAll ..

/-- The block options of a reply that has been added: both are read as they are meant. -/
structure ReadBlocks (reply : ReceivedReply Addr) (option : CoapOption) : Prop where
  number : reply.currentBlockNumber = option.blockNumber
  more : reply.hasNextBlock = option.blockMore
  size : reply.blockSize = 2 ^ (option.blockSzx + 4)
  small : option.blockNumber < 2 ^ 20
  send : reply.hasMoreBlocksToSend (Platform.junk Addr) =
    (reply.message.optionsNamed OptionName.block1).head?.any (·.blockMore)

theorem readBlocks (decoded : createFromFrame (Platform.junk Addr) data = .ok reply.toInternalReply)
    (short : ShortBlocks reply.toInternalReply)
    (block1 : ∀ option ∈ (reply.message.optionsNamed OptionName.block1).head?, option.value ≠ [])
    (last : option ∈ (reply.message.optionsNamed OptionName.block2).getLast?)
    (ne : option.value ≠ []) : ReadBlocks reply option := by
  have listed := List.mem_of_getLast? (Option.mem_def.mp last)
  have length := short.named (.inr rfl) listed
  have value := bigEndian_lt_of_short length
  obtain ⟨number, more, size⟩ := block2_fields decoded last ne length
  refine ⟨number, more, size, ?_, ?_⟩
  · simp only [CoapOption.blockNumber]
    omega
  · apply hasMoreBlocksToSend_eq block1
    intro first own
    exact short.named (.inl rfl) (List.mem_of_head? (Option.mem_def.mp own))

/-- The request that follows a reply that asks for a further block. -/
theorem asksFor_iff (reachable : s.Reachable) (admits : s.Admits data reply key e)
    (step : Step s (.frameReceived data reply.senderAddress draws) os t)
    (noError : isError reply.responseCode = false) (read : ReadBlocks reply option)
    (more : option.blockMore = true) :
    (∀ message ∈ requestsOf key os,
        AsksFor message (option.blockNumber + 1) option.blockSzx) ↔
      CanAsk e.request.message reply.toInternalReply option := by
  have consistent := reachable.consistent
  have registered := consistent.registered admits.found
  obtain ⟨id, -, after⟩ := apply_of_admits consistent admits step
  have follows : (ExchangeData.nextRequest s.blockSize reply
      (e.store reply).dropObserve.request).isSome = true := by
    rw [ExchangeData.nextRequest_isSome, InternalReply.hasMoreBlocksToReceive, read.more, more,
      Bool.or_true]
  obtain ⟨⟨q, host⟩, next⟩ := Option.isSome_iff_exists.mp follows
  have small : reply.currentBlockNumber < 2 ^ 20 := by
    rw [read.number]
    exact read.small
  have stored : (e.store reply).dropObserve.request.message.optionsNamed OptionName.block2 =
      e.request.message.optionsNamed OptionName.block2 := by
    rcases ExchangeData.optionsNamed_dropObserve (e.store reply) OptionName.block2 with
      same | ⟨-, observe, -⟩
    · rw [same, ExchangeData.message_store]
    · exact absurd observe (by decide)
  have block2 := ExchangeData.block2_nextRequest next small
  rw [stored, read.number, read.size, read.send] at block2
  have sent : requestsOf key os = [(q.setMessageId id).message] := by
    rw [(Prod.mk.inj after).2]
    exact ExchangeData.requestsOf_receive registered noError next
  have options : (q.setMessageId id).message.optionsNamed OptionName.block2 =
      q.message.optionsNamed OptionName.block2 := rfl
  rw [sent, List.forall_mem_singleton, AsksFor, options, block2, CanAsk]
  split_ifs with unchanged
  · rfl
  · have fits : option.blockNumber + 1 < 2 ^ 20 := by omega
    have range : option.blockSzx < 8 := Nat.mod_lt _ (by decide)
    obtain ⟨number, szx⟩ := blockSzx_blockOption (e.store reply).dropObserve.request fits range
    rw [← szx]
    constructor
    · intro asks
      obtain ⟨written, own, -, same⟩ := asks
      rw [List.mem_singleton.mp own] at same
      exact same
    · intro same
      exact ⟨_, List.mem_singleton_self _, number, same⟩

/-- The assertions hold for the block sizes there are, and for none. -/
theorem blockOptionAsserts_of_size {number size : Nat} (small : number < 2 ^ 20)
    (sized : size = 0 ∨ IsBlockSize size) : BlockOptionAsserts number size := by
  have power : size &&& (size - 1) = 0 ∧ size >>> 11 = 0 := by
    rcases sized with rfl | ⟨szx, fits, rfl⟩
    · decide
    · have sizes : ∀ szx ≤ 6,
          2 ^ (szx + 4) &&& (2 ^ (szx + 4) - 1) = 0 ∧ 2 ^ (szx + 4) >>> 11 = 0 := by
        decide
      exact sizes szx fits
  refine ⟨power.1, power.2, ?_⟩
  rw [Nat.shiftRight_eq_div_pow]
  omega

theorem mem_blockOptionCalls {number size : Nat} {call : Nat × Nat}
    (h : call ∈ blockOptionCalls number size) : number < 2 ^ 20 ∧ call = (number, size) := by
  unfold blockOptionCalls at h
  split_ifs at h with fits
  · exact ⟨(InternalRequest.checkBlockNumber_iff number).mp fits, List.mem_singleton.mp h⟩
  · cases h

/-- The assertions hold when further blocks can be asked for. -/
theorem asserts_of_proper {request : Message}
    (sized : s.blockSize = 0 ∨ IsBlockSize s.blockSize)
    (read : ∀ option ∈ (reply.message.optionsNamed OptionName.block2).getLast?,
      ReadBlocks reply option)
    (none : (reply.message.optionsNamed OptionName.block2).getLast? = .none →
      reply.hasNextBlock = false)
    (next : ∀ option ∈ (reply.message.optionsNamed OptionName.block2).getLast?,
      option.blockMore = true → CanAsk request reply.toInternalReply option)
    {call : Nat × Nat} (called : call ∈ continueExchangeCalls s.blockSize reply) :
    BlockOptionAsserts call.1 call.2 := by
  unfold continueExchangeCalls at called
  dsimp only at called
  split_ifs at called with send receive
  · obtain ⟨small, rfl⟩ := mem_blockOptionCalls called
    exact blockOptionAsserts_of_size small sized
  · obtain ⟨small, rfl⟩ := mem_blockOptionCalls called
    cases last : (reply.message.optionsNamed OptionName.block2).getLast? with
    | none =>
      rw [InternalReply.hasMoreBlocksToReceive, none last] at receive
      cases receive
    | some option =>
      have fields := read option last
      have more : option.blockMore = true := fields.more.symm.trans receive
      have bounded := fields.small
      have wrapped : (reply.currentBlockNumber + 1) % 2 ^ 32 = option.blockNumber + 1 := by
        rw [fields.number]
        exact Nat.mod_eq_of_lt (by omega)
      have noSend : reply.hasMoreBlocksToSend (Platform.junk Addr) = false := by
        rw [InternalReply.hasMoreBlocksToSend] at send ⊢
        simpa using send
      have can := next option last more
      rw [wrapped] at small ⊢
      rw [CanAsk, ← fields.send, noSend, if_neg (by simp; omega)] at can
      have range : option.blockSzx < 8 := Nat.mod_lt _ (by decide)
      rw [fields.size]
      exact blockOptionAsserts_of_size small (.inr ⟨option.blockSzx, by omega, rfl⟩)
  · cases called

section Frame

variable {sender : Addr} {r : InternalReply}

theorem admits_of_attribution {found : ReceivedReply Addr × Token × ExchangeData Addr}
    (decoded : createFromFrame (Platform.junk Addr) data = .ok r)
    (attributed : found ∈ s.attribution data sender) :
    sender = found.1.senderAddress ∧ found.1.toInternalReply = r ∧
      s.Admits data found.1 found.2.1 found.2.2 := by
  obtain ⟨own, admits⟩ := attribution_eq_some_iff.mp (Option.mem_def.mp attributed)
  exact ⟨own, Except.ok.inj (admits.decoded.symm.trans decoded), admits⟩

/-- The values that are read: of all Block2 options, and of the first Block1 option when the frame
is added to an exchange and reports no error. -/
theorem blockReads_iff (decoded : createFromFrame (Platform.junk Addr) data = .ok r) :
    (∀ value ∈ s.blockReads data sender, value ≠ []) ↔
      (∀ option ∈ r.message.optionsNamed OptionName.block2, option.value ≠ []) ∧
      ∀ found ∈ s.attribution data sender, isError r.responseCode = false →
        ∀ option ∈ (r.message.optionsNamed OptionName.block1).head?, option.value ≠ [] := by
  have split : (∀ value ∈ s.blockReads data sender, value ≠ []) ↔
      (∀ option ∈ r.message.optionsNamed OptionName.block2, option.value ≠ []) ∧
      ∀ value ∈ (match s.attribution data sender with
        | some (reply, _, _) =>
          if isError reply.responseCode then [] else reply.nextBlockToSendReads
        | none => []), value ≠ [] := by
    rw [blockReads, List.forall_mem_append, createFromFrameReads_eq decoded, List.forall_mem_map]
  rw [split]
  apply and_congr_right
  intro _
  cases found : s.attribution data sender with
  | none => simp
  | some entry =>
    obtain ⟨-, same, -⟩ := admits_of_attribution decoded (Option.mem_def.mpr found)
    have code : entry.1.responseCode = r.responseCode := congrArg InternalReply.responseCode same
    dsimp only
    rw [code, same, nextBlockToSendReads_eq]
    cases isError r.responseCode with
    | true => simp
    | false => simp

/-- For every frame and every reachable state: its block options are handled within their
preconditions exactly when the values that are looked at are not empty, and the further block that
is asked for can be asked for. -/
theorem withinPreconditions_iff (reachable : s.Reachable)
    (decoded : createFromFrame (Platform.junk Addr) data = .ok r) (short : ShortBlocks r)
    (step : Step s (.frameReceived data sender draws) os t) :
    s.WithinPreconditions data sender os ↔ s.ProperBlocks data sender r := by
  constructor
  · intro h
    obtain ⟨block2, block1⟩ := (blockReads_iff decoded).mp h.reads
    refine ⟨block2, block1, ?_⟩
    intro found attributed noError option last more
    obtain ⟨rfl, rfl, admits⟩ := admits_of_attribution decoded attributed
    have listed := List.mem_of_getLast? (Option.mem_def.mp last)
    have read := readBlocks decoded short (block1 found attributed noError) last
      (block2 option listed)
    exact (asksFor_iff reachable admits step noError read more).mp
      (h.next found attributed option last more)
  · intro h
    refine ⟨(blockReads_iff decoded).mpr ⟨h.block2, h.block1⟩, ?_, ?_⟩
    · intro call called
      unfold blockCalls at called
      cases found : s.attribution data sender with
      | none => simp [found] at called
      | some entry =>
        have attributed := Option.mem_def.mpr found
        obtain ⟨rfl, rfl, admits⟩ := admits_of_attribution decoded attributed
        rw [found] at called
        dsimp only at called
        split_ifs at called with error
        · cases called
        · have noError : isError entry.1.responseCode = false := by simpa using error
          refine asserts_of_proper (Reachable.blockSize reachable) ?_ ?_
            (h.next entry attributed noError) called
          · intro option last
            exact readBlocks decoded short (h.block1 entry attributed noError) last
              (h.block2 option (List.mem_of_getLast? (Option.mem_def.mp last)))
          · intro none
            have fields := createFromFrame_block _ decoded
            rw [none] at fields
            exact fields.2.1
    · intro found attributed option last more
      obtain ⟨rfl, rfl, admits⟩ := admits_of_attribution decoded attributed
      cases error : isError found.1.responseCode with
      | true =>
        have consistent := reachable.consistent
        obtain ⟨id, -, after⟩ := apply_of_admits consistent admits step
        have silent : requestsOf found.2.1 os = [] := by
          rw [(Prod.mk.inj after).2, ExchangeData.receive_of_error _ error]
          exact ExchangeData.requestsOf_fail (consistent.registered admits.found).key_ne _ _
        simp [silent]
      | false =>
        have read := readBlocks decoded short (h.block1 found attributed error) last
          (h.block2 option (List.mem_of_getLast? (Option.mem_def.mp last)))
        exact (asksFor_iff reachable admits step error read more).mpr
          (h.next found attributed error option last more)

end Frame

/-- A piggybacked response 2.05 to the request, with these option bytes. -/
def optionsFrame (options : QByteArray) : QByteArray :=
  [0x62, 0x45, 0x00, 0x07, 0x01, 0x02] ++ options

/-- The frame is decoded and processed; `p` is satisfied by what it is decoded to and by the
outputs. -/
def processes (options : QByteArray) (p : InternalReply → List (Output IPv4Address) → Bool) :
    Bool :=
  (createFromFrame (Platform.junk IPv4Address) (optionsFrame options)).toOption.any fun r =>
    decide (ShortBlocks r) &&
    (oneExchange.handle (.frameReceived (optionsFrame options) serverAddress [8, 0])).any
      fun result => p r result.2

theorem processes_spec {options : QByteArray}
    {p : InternalReply → List (Output IPv4Address) → Bool} (h : processes options p = true) :
    ∃ r os t, createFromFrame (Platform.junk IPv4Address) (optionsFrame options) = .ok r ∧
      ShortBlocks r ∧
      Step oneExchange (.frameReceived (optionsFrame options) serverAddress [8, 0]) os t ∧
      p r os = true := by
  obtain ⟨r, decoded, h⟩ := (Option.any_eq_true ..).mp h
  obtain ⟨short, h⟩ := Bool.and_eq_true_iff.mp h
  obtain ⟨⟨t, os⟩, handled, h⟩ := (Option.any_eq_true ..).mp h
  refine ⟨r, os, t, ?_, of_decide_eq_true short, step_of_handle handled, h⟩
  cases result : createFromFrame (Platform.junk IPv4Address) (optionsFrame options) with
  | error fault =>
    rw [result] at decoded
    cases decoded
  | ok r' =>
    rw [result] at decoded
    exact congrArg Except.ok (Option.some.inj decoded)

/-- Block 0 of 16 bytes, with more to come. -/
theorem withinPreconditions_iff_firstBlock : ∃ r os t,
    createFromFrame (Platform.junk IPv4Address) (optionsFrame [0xD1, 0x0A, 0x08]) = .ok r ∧
    ShortBlocks r ∧
    Step oneExchange (.frameReceived (optionsFrame [0xD1, 0x0A, 0x08]) serverAddress [8, 0]) os t ∧
    (requestsOf [1, 2] os).length = 1 ∧
    oneExchange.WithinPreconditions (optionsFrame [0xD1, 0x0A, 0x08]) serverAddress os := by
  have computed : processes [0xD1, 0x0A, 0x08] (fun r os =>
      decide (oneExchange.ProperBlocks (optionsFrame [0xD1, 0x0A, 0x08]) serverAddress r) &&
        (requestsOf [1, 2] os).length == 1) = true := by
    decide +kernel
  obtain ⟨r, os, t, decoded, short, step, facts⟩ := processes_spec computed
  obtain ⟨proper, one⟩ := Bool.and_eq_true_iff.mp facts
  refine ⟨r, os, t, decoded, short, step, beq_iff_eq.mp one, ?_⟩
  have reachable : oneExchange.Reachable := Protocol.reachable_after _
  exact (withinPreconditions_iff reachable decoded short step).mpr (of_decide_eq_true proper)

/-- An empty Block2 value, an empty Block1 value, the size exponent 7, the number 2^20 - 1, and
further blocks in both directions. -/
def remoteOptions : List QByteArray :=
  [[0xD0, 0x0A], [0xD0, 0x0E], [0xD1, 0x0A, 0x0F], [0xD3, 0x0A, 0xFF, 0xFF, 0xF8],
    [0xD1, 0x0A, 0x08, 0x41, 0x08]]

theorem remoteOptions_break : oneExchange.Reachable ∧ ∀ options ∈ remoteOptions, ∃ r os t,
    createFromFrame (Platform.junk IPv4Address) (optionsFrame options) = .ok r ∧ ShortBlocks r ∧
    Step oneExchange (.frameReceived (optionsFrame options) serverAddress [8, 0]) os t ∧
    ¬ oneExchange.WithinPreconditions (optionsFrame options) serverAddress os := by
  have computed : remoteOptions.all (fun options => processes options (fun _ os =>
      !decide (oneExchange.WithinPreconditions (optionsFrame options) serverAddress os))) =
      true := by
    decide +kernel
  refine ⟨Protocol.reachable_after _, ?_⟩
  intro options listed
  obtain ⟨r, os, t, decoded, short, step, broken⟩ :=
    processes_spec (List.all_eq_true.mp computed options listed)
  refine ⟨r, os, t, decoded, short, step, ?_⟩
  simpa using broken

end Protocol

end QtCoap
