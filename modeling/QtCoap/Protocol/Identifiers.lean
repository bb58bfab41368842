import Mathlib.Order.Interval.Finset.Nat
import QtCoap.Protocol.Settings

namespace QtCoap

/-! The loops that look for an identifier: they end for some random values if and only if there is
one to be found. -/

theorem messageIdLoop_finds {registered : UInt16 → Bool} {start id : UInt16}
    (first : registered start = true) (free : registered id = false) (draws : Draws) :
    messageIdLoop registered start (id.toNat :: draws) = .ok (id, draws) := by
  have drawn : UInt16.ofNat (id.toNat % 0x10000) = id := by
    rw [Nat.mod_eq_of_lt id.toNat_lt, UInt16.ofNat_toNat]
  rw [messageIdLoop, if_pos first, drawn]
  cases draws with
  | nil => rw [messageIdLoop, if_neg (by simp [free])]
  | cons d draws => rw [messageIdLoop, if_neg (by simp [free])]

theorem drawBytes_draws (bytes : QByteArray) (draws : Draws) :
    drawBytes bytes.length (bytes.map UInt8.toNat ++ draws) = .ok (bytes, draws) := by
  induction bytes with
  | nil => rfl
  | cons b bytes ih =>
    have drawn : UInt8.ofNat (0 + b.toNat % (256 - 0)) = b := by
      rw [Nat.zero_add, Nat.sub_zero, Nat.mod_eq_of_lt b.toNat_lt, UInt8.ofNat_toNat]
    simp only [List.length_cons, List.map_cons, List.cons_append, drawBytes, bounded, ih, drawn]

theorem length_drawBytes {n : Nat} {draws : Draws} {drawn : QByteArray × Draws}
    (h : drawBytes n draws = .ok drawn) : drawn.1.length = n := by
  induction n generalizing draws drawn with
  | zero =>
    obtain rfl := Except.ok.inj h
    rfl
  | succ n ih =>
    rw [drawBytes] at h
    cases hb : bounded 0 256 draws with
    | error f => simp [hb] at h
    | ok b =>
      simp only [hb] at h
      cases hd : drawBytes n b.2 with
      | error f => simp [hd] at h
      | ok bytes =>
        simp only [hd] at h
        obtain rfl := Except.ok.inj h
        simp [ih hd]

theorem bounded_range {low high : Nat} (room : low < high) {draws : Draws} {drawn : Nat × Draws}
    (h : bounded low high draws = .ok drawn) : low ≤ drawn.1 ∧ drawn.1 < high := by
  cases draws with
  | nil => cases h
  | cons d draws =>
    obtain rfl := Except.ok.inj h
    have below := Nat.mod_lt d (Nat.sub_pos_of_lt room)
    dsimp only
    omega

/-- One round of the loop for a token that is free and of a length it may have. -/
theorem tokenLoop_finds {registered : Token → Bool} {minimumTokenSize rounds : Nat}
    {start token : Token} (first : registered start = true) (free : registered token = false)
    (least : minimumTokenSize ≤ token.length) (most : token.length ≤ 8) (draws : Draws) :
    tokenLoop registered minimumTokenSize start (rounds + 2)
      ((token.length - minimumTokenSize) :: (token.map UInt8.toNat ++ draws)) =
        .ok (token, draws) := by
  have length : minimumTokenSize + (token.length - minimumTokenSize) % (9 - minimumTokenSize) =
      token.length := by
    rw [Nat.mod_eq_of_lt (by omega)]
    omega
  rw [tokenLoop, if_neg (by simp [first])]
  simp only [bounded, length, drawBytes_draws]
  rw [tokenLoop, if_pos (by simp [free])]

/-- A token that the loop has drawn has one of the lengths it may have. -/
theorem length_tokenLoop {registered : Token → Bool} {minimumTokenSize rounds : Nat}
    (small : minimumTokenSize ≤ 8) {start : Token} {draws : Draws} {drawn : Token × Draws}
    (h : tokenLoop registered minimumTokenSize start rounds draws = .ok drawn) :
    drawn.1 = start ∨ minimumTokenSize ≤ drawn.1.length ∧ drawn.1.length ≤ 8 := by
  induction rounds generalizing start draws with
  | zero => cases h
  | succ n ih =>
    rw [tokenLoop] at h
    split_ifs at h with free
    · obtain rfl := Except.ok.inj h
      exact .inl rfl
    · cases hb : bounded minimumTokenSize 9 draws with
      | error f => simp [hb] at h
      | ok length =>
        simp only [hb] at h
        cases hd : drawBytes length.1 length.2 with
        | error f => simp [hd] at h
        | ok next =>
          simp only [hd] at h
          have range := bounded_range (by omega) hb
          have size := length_drawBytes hd
          right
          rcases ih h with same | range'
          · rw [same, size]
            omega
          · exact range'

namespace Protocol

variable {Addr : Type} [Platform Addr] {s t : Protocol Addr}
  {os : List (Output Addr)}

theorem Reachable.minimumTokenSize (h : Reachable s) :
    0 < s.minimumTokenSize ∧ s.minimumTokenSize ≤ 8 := by
  refine h.settings_invariant
    (P := fun s : Protocol Addr => 0 < s.minimumTokenSize ∧ s.minimumTokenSize ≤ 8) Iff.rfl
    (show 0 < 4 ∧ 4 ≤ 8 by decide) ?_
  intro s t event os setter before step
  cases event with
  | setMinimumTokenSize size =>
    obtain rfl := (Prod.mk.inj (Except.ok.inj step.2)).1
    simp only [setMinimumTokenSize]
    split_ifs with range
    · dsimp only
      omega
    · exact before
  | setBlockSize size =>
    obtain rfl := (Prod.mk.inj (Except.ok.inj step.2)).1
    simp only [setBlockSize]
    split_ifs <;> exact before
  | setAckTimeout _ | setAckRandomFactor _ | setMaximumRetransmitCount _
  | setMaximumServerResponseDelay _ =>
    obtain rfl := (Prod.mk.inj (Except.ok.inj step.2)).1
    exact before
  | _ => cases setter

/-- The message IDs in use. -/
def messageIds (s : Protocol Addr) : List Nat :=
  s.exchangeMap.entries.map fun entry => entry.2.request.message.messageId.toNat

theorem Consistent.nodup_messageIds {Addr : Type} {s : Protocol Addr} (consistent : s.Consistent) :
    s.messageIds.Nodup := by
  rw [messageIds, List.Nodup, List.pairwise_map]
  refine s.exchangeMap.sorted.imp_of_mem ?_
  intro a b ha hb below same
  have key := consistent.distinct ((Framework.OrderedMap.find?_eq_some_iff _ a.1 a.2).mpr ha)
    ((Framework.OrderedMap.find?_eq_some_iff _ b.1 b.2).mpr hb) (UInt16.toNat_inj.mp same)
  exact absurd below (by simp [key])

theorem Consistent.messageIds_subset {Addr : Type} {s : Protocol Addr} (consistent : s.Consistent) :
    s.messageIds.toFinset ⊆ Finset.Icc 1 65535 := by
  intro n listed
  obtain ⟨entry, he, rfl⟩ := List.mem_map.mp (List.mem_toFinset.mp listed)
  have nonzero := (consistent.registered
    ((Framework.OrderedMap.find?_eq_some_iff _ entry.1 entry.2).mpr he)).messageId
  have positive : entry.2.request.message.messageId.toNat ≠ 0 := by
    intro zero
    exact nonzero (UInt16.toNat_inj.mp zero)
  have bound := entry.2.request.message.messageId.toNat_lt
  rw [Finset.mem_Icc]
  omega

theorem isMessageIdRegistered_iff {Addr : Type} {s : Protocol Addr} (id : UInt16) :
    s.isMessageIdRegistered id = true ↔ id.toNat = 0 ∨ id.toNat ∈ s.messageIds := by
  rw [isMessageIdRegistered, Bool.or_eq_true, beq_iff_eq, messageIds]
  have zero : id = 0 ↔ id.toNat = 0 := UInt16.toNat_inj.symm
  have used : s.exchangeMap.any (fun e => e.request.message.messageId == id) = true ↔
      id.toNat ∈ s.exchangeMap.entries.map
        (fun entry => entry.2.request.message.messageId.toNat) := by
    simp [Framework.OrderedMap.any, UInt16.toNat_inj]
  rw [zero, used]

/-- An ID is free if and only if there are less exchanges than IDs. -/
theorem Consistent.exists_free_iff {Addr : Type} {s : Protocol Addr} (consistent : s.Consistent) :
    (∃ id, s.isMessageIdRegistered id = false) ↔ s.exchangeMap.entries.length < 65535 := by
  have subset := consistent.messageIds_subset
  have card : s.messageIds.toFinset.card = s.exchangeMap.entries.length := by
    rw [List.toFinset_card_of_nodup consistent.nodup_messageIds, messageIds, List.length_map]
  have all : (Finset.Icc 1 65535).card = 65535 := Nat.card_Icc 1 65535
  constructor
  · rintro ⟨id, free⟩
    have unused : ¬ (id.toNat = 0 ∨ id.toNat ∈ s.messageIds) := by
      rw [← isMessageIdRegistered_iff, free]
      simp
    rw [not_or] at unused
    have bound := id.toNat_lt
    have strict : s.messageIds.toFinset ⊂ Finset.Icc 1 65535 := by
      refine Finset.ssubset_iff_subset_ne.mpr ⟨subset, fun same => unused.2 ?_⟩
      rw [← List.mem_toFinset, same, Finset.mem_Icc]
      omega
    have below := Finset.card_lt_card strict
    omega
  · intro room
    obtain ⟨n, range, unused⟩ : ∃ n ∈ Finset.Icc 1 65535, n ∉ s.messageIds.toFinset := by
      refine Finset.exists_mem_notMem_of_card_lt_card ?_
      omega
    obtain ⟨least, most⟩ := Finset.mem_Icc.mp range
    have number : (UInt16.ofNat n).toNat = n := by
      rw [UInt16.toNat_ofNat']
      omega
    refine ⟨UInt16.ofNat n, Bool.eq_false_iff.mpr fun used => ?_⟩
    rw [isMessageIdRegistered_iff, number] at used
    rcases used with zero | used
    · omega
    · exact unused (List.mem_toFinset.mpr used)

/-- A token of eight bytes for each number of two bytes. -/
def numberedToken (n : Nat) : Token := [0, 0, 0, 0, 0, 0, UInt8.ofNat (n / 256), UInt8.ofNat n]

theorem numberedToken_inj {m n : Nat} (hm : m < 65536) (hn : n < 65536)
    (same : numberedToken m = numberedToken n) : m = n := by
  have bytes : UInt8.ofNat (m / 256) = UInt8.ofNat (n / 256) ∧ UInt8.ofNat m = UInt8.ofNat n := by
    simpa [numberedToken] using same
  have high := congrArg UInt8.toNat bytes.1
  have low := congrArg UInt8.toNat bytes.2
  rw [UInt8.toNat_ofNat', UInt8.toNat_ofNat'] at high low
  omega

theorem exists_free_token {Addr : Type} {s : Protocol Addr}
    (room : s.exchangeMap.entries.length < 65535) :
    ∃ token : Token, s.isTokenRegistered token = false ∧ token.length = 8 := by
  have numbered : ((Finset.range 65536).image numberedToken).card = 65536 := by
    rw [Finset.card_image_of_injOn, Finset.card_range]
    intro m hm n hn
    exact numberedToken_inj (Finset.mem_range.mp hm) (Finset.mem_range.mp hn)
  have used := List.toFinset_card_le (s.exchangeMap.entries.map Prod.fst)
  rw [List.length_map] at used
  obtain ⟨token, listed, free⟩ : ∃ token ∈ (Finset.range 65536).image numberedToken,
      token ∉ (s.exchangeMap.entries.map Prod.fst).toFinset := by
    refine Finset.exists_mem_notMem_of_card_lt_card ?_
    omega
  obtain ⟨n, -, rfl⟩ := Finset.mem_image.mp listed
  refine ⟨numberedToken n, Bool.eq_false_iff.mpr fun registered => ?_, rfl⟩
  have contains : s.exchangeMap.contains (numberedToken n) = true := registered
  obtain ⟨e, found⟩ := (Framework.OrderedMap.contains_iff ..).mp contains
  refine free (List.mem_toFinset.mpr ?_)
  exact List.mem_map.mpr ⟨_, (Framework.OrderedMap.find?_eq_some_iff ..).mp found, rfl⟩

/-- A token that can be registered is chosen for some random values. -/
theorem chosenToken_of_free {Addr : Type} {s : Protocol Addr} {own token : Token} (more : Draws)
    (free : if own = [] then s.isTokenRegistered token = false else token = own)
    (length : own = [] → s.minimumTokenSize ≤ token.length ∧ token.length ≤ 8) :
    ∃ draws, s.chosenToken own draws = .ok (token, more) := by
  simp only [chosenToken, List.isEmpty_iff]
  split_ifs at free ⊢ with none
  · obtain ⟨least, most⟩ := length none
    refine ⟨(token.length - s.minimumTokenSize) :: (token.map UInt8.toNat ++ more), ?_⟩
    have empty : s.isTokenRegistered [] = true := rfl
    rw [generateUniqueToken]
    have rounds : ((token.length - s.minimumTokenSize) ::
        (token.map UInt8.toNat ++ more)).length + 1 = (token.length + more.length) + 2 := by
      simp
    rw [rounds]
    exact tokenLoop_finds empty free least most more
  · exact ⟨more, by rw [free]⟩

/-- A request is registered with any message ID and any token that it may have, for some random
values. -/
theorem sendRequest_of_registers {request : Request} {messageId : UInt16} {token : Token}
    (registers : s.Registers request messageId token)
    (length : request.message.token = [] →
      s.minimumTokenSize ≤ token.length ∧ token.length ≤ 8)
    (id : ReplyId) (connection : ConnectionId) {drawn left : Draws} {timeout : Nat}
    (timed : s.requestTimeout (s.completed request connection messageId token).message.type drawn =
      .ok (timeout, left)) :
    ∃ draws, s.sendRequest (some id) request connection draws = .ok (s.apply token
      (ExchangeData.opened id (s.completed request connection messageId token) s.blockSize
        timeout)) := by
  obtain ⟨draws, chosen⟩ := chosenToken_of_free drawn registers.token length
  have zero : s.isMessageIdRegistered 0 = true := rfl
  have numbered := messageIdLoop_finds zero registers.messageId draws
  have own : ((s.newRequest request).setMessageId messageId).token = request.message.token :=
    newRequest_token s request
  refine ⟨messageId.toNat :: draws, ?_⟩
  simp only [sendRequest]
  rw [if_neg (by simp [registers.method, registers.url])]
  simp only [generateUniqueMessageId, numbered, bind, Except.bind, own, chosen]
  refine (openExchange_eq id (s.completed request connection messageId token) drawn).trans ?_
  rw [timed]
  rfl

/-- The random values for a new exchange: for its message ID, its token and its timeout. -/
theorem sendRequest_finds (minimum : s.minimumTokenSize ≤ 8)
    (room : s.exchangeMap.entries.length < 65535) {messageId : UInt16}
    (free : s.isMessageIdRegistered messageId = false) (id : ReplyId) {request : Request}
    (method : request.method ≠ Method.invalid) (url : isUrlValid request.uri = true)
    (connection : ConnectionId) :
    ∃ draws t os, s.sendRequest (some id) request connection draws = .ok (t, os) := by
  obtain ⟨token, chosen, length⟩ : ∃ token,
      (if request.message.token = [] then s.isTokenRegistered token = false
        else token = request.message.token) ∧
      (request.message.token = [] → s.minimumTokenSize ≤ token.length ∧ token.length ≤ 8) := by
    by_cases none : request.message.token = []
    · obtain ⟨token, unregistered, eight⟩ := exists_free_token room
      exact ⟨token, by rw [if_pos none]; exact unregistered, fun _ => by omega⟩
    · exact ⟨request.message.token, by rw [if_neg none], fun empty => absurd empty none⟩
  have timed (type : MessageType) :
      ∃ timeout left, s.requestTimeout type [0] = .ok (timeout, left) := by
    simp only [requestTimeout]
    split_ifs
    · exact ⟨_, _, rfl⟩
    · exact ⟨_, _, rfl⟩
    · exact ⟨_, _, rfl⟩
  obtain ⟨timeout, left, timed⟩ := timed _
  obtain ⟨draws, sent⟩ :=
    sendRequest_of_registers ⟨method, url, free, chosen⟩ length id connection timed
  exact ⟨draws, _, _, sent⟩

/-- In every reachable state: a request can be sent, and the next block asked for, if and only if
there are less than 65535 exchanges; with so many the loop that looks for a message ID does not
end. -/
theorem capacity (reachable : Reachable s) :
    (∀ (id : ReplyId) (request : Request) (connection : ConnectionId),
      request.method ≠ Method.invalid → isUrlValid request.uri = true →
      ((∃ draws t os, s.sendRequest (some id) request connection draws = .ok (t, os)) ↔
        s.exchangeMap.entries.length < 65535)) ∧
    ∀ data reply key e, s.Admits data reply key e → reply.continues = true →
      ((∃ draws t os, s.onFrameReceived data reply.senderAddress draws = .ok (t, os)) ↔
        s.exchangeMap.entries.length < 65535) := by
  have consistent := reachable.consistent
  constructor
  · intro id request connection method url
    constructor
    · rintro ⟨draws, t, os, sent⟩
      obtain ⟨messageId, token, timeout, registers, -⟩ := sendRequest_opened method url sent
      exact consistent.exists_free_iff.mp ⟨messageId, registers.messageId⟩
    · intro room
      obtain ⟨messageId, free⟩ := consistent.exists_free_iff.mpr room
      exact sendRequest_finds reachable.minimumTokenSize.2 room free id method url connection
  · intro data reply key e admits continues
    constructor
    · rintro ⟨draws, t, os, received⟩
      rw [onFrameReceived_of_admits consistent admits draws, if_pos continues] at received
      obtain ⟨drawn, found, -⟩ := Framework.map_ok received
      exact consistent.exists_free_iff.mp ⟨drawn.1, generateUniqueMessageId_ok found⟩
    · intro room
      obtain ⟨messageId, free⟩ := consistent.exists_free_iff.mpr room
      have zero : s.isMessageIdRegistered 0 = true := rfl
      have handled := onFrameReceived_of_admits consistent admits [messageId.toNat]
      rw [if_pos continues, generateUniqueMessageId, messageIdLoop_finds zero free []] at handled
      exact ⟨_, _, _, handled⟩

/-- A separate response with token 01 02, the first block of more. -/
def separateBlock : QByteArray := [0x52, 0x45, 0x30, 0x39, 0x01, 0x02, 0xD1, 0x0A, 0x08, 0xFF, 0x61]

theorem capacity_twoExchanges :
    (∃ draws t os, twoExchanges.sendRequest (some 2) (getRequest []) 0 draws = .ok (t, os)) ∧
    ∃ draws t os,
      twoExchanges.onFrameReceived separateBlock serverAddress draws = .ok (t, os) := by
  have room : twoExchanges.exchangeMap.entries.length < 65535 := by decide +kernel
  have attributed : (twoExchanges.attribution separateBlock serverAddress).any
      (fun found => found.1.continues) = true := by decide +kernel
  obtain ⟨⟨reply, key, e⟩, found, continues⟩ := (Option.any_eq_true ..).mp attributed
  obtain ⟨sender, admits⟩ := attribution_eq_some_iff.mp found
  have reachable : Reachable twoExchanges := reachable_after _
  obtain ⟨requests, blocks⟩ := capacity reachable
  refine ⟨(requests 2 (getRequest []) 0 (by decide) (by decide)).mpr room, ?_⟩
  rw [sender]
  exact (blocks _ _ _ _ admits continues).mpr room

end Protocol

end QtCoap
