import QtCoap.Protocol.WireFormat

namespace QtCoap

variable {Addr : Type}

/-! An exchange behaves as it would on its own: of the other exchanges it takes notice only in the
identifiers that are left to it. -/

/-- The same event, but for the random values. -/
inductive Event.Redrawn : Event Addr → Event Addr → Prop
  | same {event} : Redrawn event event
  | sent {reply request connection draws draws'} :
      Redrawn (.sendRequest reply request connection draws)
        (.sendRequest reply request connection draws')
  | received {data sender draws draws'} :
      Redrawn (.frameReceived data sender draws) (.frameReceived data sender draws')

/-- A reply is told that its exchange has the token. -/
def Output.opens (key : Token) : Output Addr → Bool
  | .post _ (.setRunning token _) => token == key
  | _ => false

namespace Protocol

variable {s t : Protocol Addr} {os : List (Output Addr)} {event : Event Addr} {key : Token}
  {e : ExchangeData Addr}

/-- The protocol with no exchange but that of the key. -/
def alone (s : Protocol Addr) (key : Token) : Protocol Addr :=
  { s with exchangeMap := s.exchangeMap.restrict key }

@[simp] theorem find?_alone (s : Protocol Addr) (key j : Token) :
    (s.alone key).exchangeMap.find? j = if j = key then s.exchangeMap.find? j else none := by
  simp [alone]

theorem find?_alone_self (s : Protocol Addr) (key : Token) :
    (s.alone key).exchangeMap.find? key = s.exchangeMap.find? key := by
  simp

theorem find?_of_alone {j : Token} (found : (s.alone key).exchangeMap.find? j = some e) :
    j = key ∧ s.exchangeMap.find? j = some e := by
  rw [find?_alone] at found
  split_ifs at found with own
  exact ⟨own, found⟩

@[simp] theorem settings_alone (s : Protocol Addr) (key : Token) :
    (s.alone key).settings = s.settings := rfl

theorem ext_exchanges (settings : s.settings = t.settings)
    (exchanges : ∀ key, s.exchangeMap.find? key = t.exchangeMap.find? key) : s = t := by
  have map := Framework.OrderedMap.ext exchanges
  have whole (u : Protocol Addr) : u = { u.settings with exchangeMap := u.exchangeMap } := rfl
  rw [whole s, whole t, settings, map]

theorem alone_eq (settings : s.settings = t.settings)
    (same : s.exchangeMap.find? key = t.exchangeMap.find? key) : s.alone key = t.alone key := by
  refine ext_exchanges (s := s.alone key) (t := t.alone key) settings fun j => ?_
  by_cases own : j = key
  · simpa [own] using same
  · simp [own]

theorem alone_setExchange (s : Protocol Addr) (key : Token) (o : Option (ExchangeData Addr)) :
    (s.setExchange key o).alone key = (s.alone key).setExchange key o := by
  apply ext_exchanges
  · simp
  · intro j
    by_cases own : j = key <;> simp [own]

theorem Consistent.alone (consistent : s.Consistent) (key : Token) : (s.alone key).Consistent where
  registered found := consistent.registered (find?_of_alone found).2
  distinct found found' _ := (find?_of_alone found).1.trans (find?_of_alone found').1.symm

/-! What is free in the whole is free for the exchange on its own. -/

theorem isMessageIdRegistered_alone {id : UInt16} (free : s.isMessageIdRegistered id = false)
    (key : Token) : (s.alone key).isMessageIdRegistered id = false := by
  obtain ⟨nonzero, unused⟩ := isMessageIdRegistered_eq_false free
  rw [isMessageIdRegistered, Bool.or_eq_false_iff]
  refine ⟨by simpa using nonzero, Bool.eq_false_iff.mpr fun used => ?_⟩
  obtain ⟨j, e, found, same⟩ := (Framework.OrderedMap.any_iff ..).mp used
  exact unused (find?_of_alone found).2 (by simpa using same)

theorem isTokenRegistered_alone {token : Token} (free : s.isTokenRegistered token = false)
    (key : Token) : (s.alone key).isTokenRegistered token = false := by
  obtain ⟨nonempty, unused⟩ := Bool.or_eq_false_iff.mp free
  refine Bool.or_eq_false_iff.mpr ⟨nonempty, ?_⟩
  rw [Framework.OrderedMap.contains, find?_alone]
  split_ifs
  · exact unused
  · rfl

theorem Registers.alone {request : Request} {messageId : UInt16} {token : Token}
    (registers : s.Registers request messageId token) (key : Token) :
    (s.alone key).Registers request messageId token where
  method := registers.method
  url := registers.url
  messageId := isMessageIdRegistered_alone registers.messageId key
  token := by
    have token := registers.token
    split_ifs at token ⊢
    · exact isTokenRegistered_alone token key
    · exact token

variable [Platform Addr]

/-- A frame that is matched to the exchange is matched to it also on its own. -/
theorem Admits.alone {data : QByteArray} {reply : ReceivedReply Addr}
    (admits : s.Admits data reply key e) : (s.alone key).Admits data reply key e where
  decoded := admits.decoded
  target := by
    have target := admits.target
    have found := (find?_alone_self s key).trans admits.found
    simp only [frameTarget] at target ⊢
    split_ifs at target with byToken
    · obtain rfl := Option.some.inj target
      obtain ⟨nonempty, -⟩ := (Bool.and_eq_true ..).mp byToken
      rw [if_pos]
      refine (Bool.and_eq_true ..).mpr ⟨nonempty, ?_⟩
      exact (Framework.OrderedMap.contains_iff ..).mpr ⟨e, found⟩
    · rw [if_neg]
      · obtain ⟨e', found', numbered⟩ := Framework.OrderedMap.findKey?_some target
        obtain rfl := Option.some.inj (admits.found.symm.trans found')
        exact Framework.OrderedMap.findKey?_eq_of_unique found numbered
          fun j e' found' _ => (find?_of_alone found').1
      · intro byToken'
        obtain ⟨nonempty, known⟩ := (Bool.and_eq_true ..).mp byToken'
        obtain ⟨e', found'⟩ := (Framework.OrderedMap.contains_iff ..).mp known
        refine byToken ((Bool.and_eq_true ..).mpr ⟨nonempty, ?_⟩)
        exact (Framework.OrderedMap.contains_iff ..).mpr ⟨e', (find?_of_alone found').2⟩
  found := (find?_alone_self s key).trans admits.found
  admissible := admits.admissible

end Protocol

namespace ExchangeData

variable [Platform Addr] {s : Protocol Addr} {event : Event Addr} {key : Token}
  {e : ExchangeData Addr} {reaction : Reaction Addr}

theorem Reacts.alone (reacts : e.Reacts s key event reaction) :
    e.Reacts (s.alone key) key event reaction := by
  cases reacts with
  | received id admits fresh =>
    exact .received id admits.alone
      fun continues => Protocol.isMessageIdRegistered_alone (fresh continues) key
  | timedOut runs => exact .timedOut runs
  | spanReached runs => exact .spanReached runs
  | expired runs => exact .expired runs
  | aborted => exact .aborted

/-- A reply that is not followed by a request needs no message ID. -/
theorem receive_of_not_continues {reply : ReceivedReply Addr} (final : reply.continues = false)
    (blockSize : Nat) (id id' : UInt16) :
    e.receive blockSize reply id = e.receive blockSize reply id' := by
  cases error : isError reply.responseCode with
  | true => rw [e.receive_of_error error, e.receive_of_error error]
  | false => rw [e.receive_of_final error final, e.receive_of_final error final]

/-- What an exchange can do to an event, the protocol does for some random values. -/
theorem Reacts.step (reacts : e.Reacts s key event reaction) (consistent : s.Consistent)
    (found : s.exchangeMap.find? key = some e) :
    ∃ event', event.Redrawn event' ∧
      Protocol.Step s event' reaction.2 (s.setExchange key reaction.1) := by
  have token := (consistent.registered found).token
  cases reacts with
  | @received data draws reply id admits fresh =>
    refine ⟨.frameReceived data reply.senderAddress [id.toNat], .received, rfl, ?_⟩
    refine (Protocol.onFrameReceived_of_admits consistent admits [id.toNat]).trans ?_
    split_ifs with continues
    · have zero : s.isMessageIdRegistered 0 = true := rfl
      rw [Protocol.generateUniqueMessageId, messageIdLoop_finds zero (fresh continues) []]
      rfl
    · rw [receive_of_not_continues (by simpa using continues) s.blockSize 0 id]
      rfl
  | timedOut runs =>
    exact ⟨_, .same, (Protocol.timerRuns_iff found _).mpr runs,
      congrArg _ (Protocol.onRequestTimeout_eq found token)⟩
  | spanReached runs =>
    exact ⟨_, .same, (Protocol.timerRuns_iff found _).mpr runs,
      congrArg _ (Protocol.onRequestError_eq .timeOut none found token)⟩
  | expired runs =>
    exact ⟨_, .same, (Protocol.timerRuns_iff found _).mpr runs,
      congrArg _ (Protocol.onMulticastRequestExpired_eq found token)⟩
  | aborted =>
    exact ⟨_, .same, rfl,
      congrArg (fun t => Except.ok (t, [])) (Protocol.onRequestAborted_eq found token)⟩

end ExchangeData

namespace Protocol

variable {s t : Protocol Addr} {os : List (Output Addr)} {event : Event Addr} {key : Token}
  {e : ExchangeData Addr}

theorem cancelObserve_alone (s : Protocol Addr) (reply : Option ReplyId) (key : Token) :
    (s.alone key).cancelObserve reply key =
      ((s.cancelObserve reply key).1.alone key, (s.cancelObserve reply key).2) := by
  simp only [cancelObserve]
  rw [find?_alone_self]
  cases reply with
  | none => rfl
  | some id =>
    cases found : s.exchangeMap.find? key with
    | none => rfl
    | some e =>
      dsimp only
      split_ifs
      · rfl
      · obtain ⟨s, rfl⟩ := setExchange_form found
        rw [alone_setExchange, updateRequest_setExchange, updateRequest_setExchange,
          alone_setExchange]

/-- The observation `e` of the key is cancelled, and the reply `id` is told so. -/
structure CancelsFor (s : Protocol Addr) (os : List (Output Addr)) (t : Protocol Addr)
    (key : Token) (e : ExchangeData Addr) (id : ReplyId) : Prop where
  found : s.exchangeMap.find? key = some e
  observe : e.request.isObserve = true
  before : e.request.observeCancelled = false
  after : t.exchangeMap.find? key = some { e with request := e.request.setObserveCancelled }
  told : .post id .setObserveCancelled ∈ os

/-- It is what cancelling the observation of the reply does. -/
theorem CancelsFor.cancelObserve {id : ReplyId} (h : CancelsFor s os t key e id)
    (settings : t.settings = s.settings) :
    (s.alone key).cancelObserve (some id) key = (t.alone key, [.post id .setObserveCancelled]) := by
  obtain ⟨s', form⟩ := setExchange_form h.found
  rw [cancelObserve_alone]
  simp only [Protocol.cancelObserve]
  rw [h.found]
  dsimp only
  rw [if_neg (by simp [h.observe, h.before])]
  refine congrArg (·, _) (alone_eq ?_ ?_)
  · exact settings.symm
  · rw [form, updateRequest_setExchange, find?_setExchange_self, h.after]

theorem cancelObserve_cases (s : Protocol Addr) (reply : Option ReplyId) (token key : Token) :
    (s.cancelObserve reply token).1.exchangeMap.find? key = s.exchangeMap.find? key ∨
      key = token ∧ ∃ e id,
        CancelsFor s (s.cancelObserve reply token).2 (s.cancelObserve reply token).1 key e id := by
  simp only [cancelObserve]
  cases reply with
  | none => exact .inl rfl
  | some id =>
    cases found : s.exchangeMap.find? token with
    | none => exact .inl rfl
    | some e =>
      dsimp only
      split_ifs with skipped
      · exact .inl rfl
      · obtain ⟨observe, before⟩ : e.request.isObserve = true ∧
            e.request.observeCancelled = false := by simpa using skipped
        obtain ⟨s, rfl⟩ := setExchange_form found
        rw [updateRequest_setExchange, find?_setExchange, find?_setExchange]
        by_cases own : key = token
        · subst own
          exact .inr ⟨rfl, e, id, found, observe, before, find?_setExchange_self .., by simp⟩
        · rw [if_neg own, if_neg own]
          exact .inl rfl

theorem cancelObserveUrl_cases {url : Url} {view : ReplyId → Url × Token}
    (h : s.cancelObserveUrl url view = .ok (t, os)) (key : Token) :
    t.exchangeMap.find? key = s.exchangeMap.find? key ∨ ∃ e id, CancelsFor s os t key e id := by
  unfold cancelObserveUrl at h
  suffices walk : ∀ (entries : List (Token × ExchangeData Addr))
      (acc : Protocol Addr × List (Output Addr)),
      (acc.1.exchangeMap.find? key = s.exchangeMap.find? key ∨
        ∃ e id, CancelsFor s acc.2 acc.1 key e id) →
      entries.foldlM (cancelEntry url view) acc = .ok (t, os) →
        t.exchangeMap.find? key = s.exchangeMap.find? key ∨ ∃ e id, CancelsFor s os t key e id from
    walk _ _ (.inl rfl) h
  intro entries
  induction entries with
  | nil =>
    intro acc before h
    obtain rfl := Except.ok.inj h
    exact before
  | cons entry entries ih =>
    intro acc before h
    rw [List.foldlM_cons] at h
    obtain ⟨acc', one, rest⟩ := Framework.bind_ok h
    refine ih acc' ?_ rest
    unfold cancelEntry at one
    cases user : entry.2.userReply with
    | none =>
      rw [user] at one
      cases one
    | some id =>
      rw [user] at one
      dsimp only at one
      split_ifs at one
      · obtain rfl := Except.ok.inj one
        dsimp only
        rcases cancelObserve_cases acc.1 (some id) (view id).2 key with
          same | ⟨-, e, id', cancels⟩
        · rw [same]
          refine before.imp_right fun ⟨e, id', cancels⟩ => ⟨e, id', ?_⟩
          exact ⟨cancels.found, cancels.observe, cancels.before, same.trans cancels.after,
            List.mem_append_left _ cancels.told⟩
        · rcases before with same | ⟨e', id'', earlier⟩
          · exact .inr ⟨e, id', same.symm.trans cancels.found, cancels.observe, cancels.before,
              cancels.after, List.mem_append_right _ cancels.told⟩
          · -- an observation is not cancelled a second time
            obtain rfl := Option.some.inj (earlier.after.symm.trans cancels.found)
            cases cancels.before
      · obtain rfl := Except.ok.inj one
        exact before

theorem replyDestroyed_alone (s : Protocol Addr) (id : ReplyId) (key : Token) :
    (s.replyDestroyed id).alone key = (s.alone key).replyDestroyed id := by
  refine ext_exchanges rfl fun j => ?_
  rw [find?_alone, find?_replyDestroyed, find?_replyDestroyed, find?_alone]
  split_ifs <;> rfl

/-- The exchange of the key is an observation that has been cancelled. -/
def isCancelled (s : Protocol Addr) (key : Token) : Bool :=
  (s.exchangeMap.find? key).any (·.request.observeCancelled)

variable [Platform Addr]

/-- Whether the step has to do with the exchange of the key: it opens it, or adds a response to it,
or fires one of its timers, or ends it or its observation, or is for all exchanges. -/
def concerns (key : Token) (x : Taken Addr) : Bool :=
  match x.event with
  | .sendRequest _ _ _ _ => x.outputs.any (Output.opens key)
  | .frameReceived data sender _ =>
    (x.source.attribution data sender).any fun found => found.2.1 == key
  | .timeout token | .maxTransmissionSpanReached token | .multicastRequestExpired token
  | .aborted _ token | .cancelObserve _ token => token == key
  | .cancelObserveUrl _ _ => x.target.isCancelled key && !x.source.isCancelled key
  | _ => true

/-- What the step is for the exchange on its own: the same but for random values. Of a cancellation
by URL it is the cancellation of its own observation. -/
inductive Seen (key : Token) (x : Taken Addr) : Event Addr → List (Output Addr) → Prop
  | same {event : Event Addr} (redrawn : x.event.Redrawn event) : Seen key x event x.outputs
  | cancelled {url view} (id : ReplyId) (byUrl : x.event = .cancelObserveUrl url view)
      (told : .post id .setObserveCancelled ∈ x.outputs) :
      Seen key x (.cancelObserve (some id) key) [.post id .setObserveCancelled]

/-- A step is one of the exchange on its own, or the exchange is not there for it. -/
def Separates (key : Token) (x : Taken Addr) : Prop :=
  if concerns key x then
    ∃ event os, Step (x.source.alone key) event os (x.target.alone key) ∧ Seen key x event os
  else x.target.alone key = x.source.alone key ∧
    ∀ message method connection host port,
      .frame message method connection host port ∈ x.outputs → message.token ≠ key

theorem separates_of_own {x : Taken Addr} (own : concerns key x = true)
    (step : Step (x.source.alone key) event os (x.target.alone key)) (seen : Seen key x event os) :
    Separates key x := by
  rw [Separates, if_pos own]
  exact ⟨event, os, step, seen⟩

theorem separates_of_other {x : Taken Addr} (other : concerns key x = false)
    (settings : x.target.settings = x.source.settings)
    (same : x.target.exchangeMap.find? key = x.source.exchangeMap.find? key)
    (silent : ∀ message method connection host port,
      .frame message method connection host port ∈ x.outputs → message.token ≠ key) :
    Separates key x := by
  rw [Separates, if_neg (by simp [other])]
  exact ⟨alone_eq settings same, silent⟩

/-- Nothing happens that any exchange takes notice of. -/
theorem separates_of_idle (other : concerns key ⟨s, event, [], s⟩ = false) :
    Separates key ⟨s, event, [], s⟩ :=
  separates_of_other other rfl rfl (by simp)

/-- Some exchange reacts. -/
theorem separates_of_reacts (consistent : s.Consistent) (key_ne : key ≠ []) {token : Token}
    {reaction : Reaction Addr} (found : s.exchangeMap.find? token = some e)
    (reacts : e.Reacts s token event reaction) (step : Step s event os t)
    (after : (t, os) = s.apply token reaction)
    (concerned : concerns key ⟨s, event, os, t⟩ = (token == key)) :
    Separates key ⟨s, event, os, t⟩ := by
  obtain ⟨target, outputs⟩ := Prod.mk.inj after
  by_cases own : token = key
  · subst own
    obtain ⟨event', redrawn, step'⟩ := reacts.alone.step (consistent.alone token)
      ((find?_alone_self s token).trans found)
    rw [← alone_setExchange, ← target, ← outputs] at step'
    exact separates_of_own (concerned.trans (by simp)) step' (.same redrawn)
  · refine separates_of_other (concerned.trans (by simpa using own)) (settings_of_apply after) ?_ ?_
    · dsimp only
      rw [target, find?_setExchange, if_neg (Ne.symm own)]
    · intro message method connection host port sent same
      dsimp only at sent
      rw [outputs] at sent
      rcases (reacts.issues sent).2 _ _ _ _ _ rfl with empty | ⟨e', left, rfl⟩
      · exact key_ne (same.symm.trans empty)
      · have left' : t.exchangeMap.find? token = some e' := by
          rw [target, find?_setExchange, if_pos rfl, left]
        have registered := (consistent.step step).registered left'
        exact own (registered.token.symm.trans same)

/-- A request opens the exchange of another key, or that of the key. -/
theorem separates_of_opened (reachable : s.Reachable) {id : ReplyId} {request : Request}
    {connection : ConnectionId} {draws : Draws} (method : request.method ≠ Method.invalid)
    (url : isUrlValid request.uri = true)
    (step : Step s (.sendRequest (some id) request connection draws) os t) :
    Separates key ⟨s, .sendRequest (some id) request connection draws, os, t⟩ := by
  obtain ⟨messageId, token, timeout, registers, ⟨drawn, left, timed⟩, after⟩ :=
    sendRequest_opened method url step.2
  have length := length_token_of_opened reachable.minimumTokenSize.2 registers step.2 after
  obtain ⟨target, outputs⟩ := Prod.mk.inj after
  have concerned : concerns key ⟨s, .sendRequest (some id) request connection draws, os, t⟩ =
      (token == key) := by
    simp only [concerns]
    rw [outputs]
    have frames : (transmit Addr (((s.completed request connection messageId token).firstBlocks
        s.blockSize).setTimeout timeout) []).2.any (Output.opens key) = false := by
      rw [List.any_eq_false]
      intro o sent
      obtain ⟨_, _, _, _, rfl⟩ := mem_transmit sent
      simp [Output.opens]
    exact (congrArg (token == key || ·) frames).trans (Bool.or_false _)
  by_cases own : token = key
  · subst own
    obtain ⟨draws', sent⟩ := sendRequest_of_registers (registers.alone token)
      (fun none => by rw [if_pos none] at length; exact length) id connection timed
    have opened : Step (s.alone token) (.sendRequest (some id) request connection draws') os
        (t.alone token) := by
      refine ⟨rfl, sent.trans (congrArg Except.ok (Prod.ext ?_ outputs.symm))⟩
      dsimp only
      rw [target, alone_setExchange]
      rfl
    exact separates_of_own (concerned.trans (by simp)) opened (.same .sent)
  · refine separates_of_other (concerned.trans (by simpa using own)) (settings_of_apply after) ?_ ?_
    · dsimp only
      rw [target, find?_setExchange, if_neg (Ne.symm own)]
    · intro message method connection' host port sent same
      dsimp only at sent
      rw [outputs] at sent
      rcases List.mem_cons.mp sent with post | sent
      · cases post
      · obtain rfl := frame_mem_transmit sent
        have identity := (ExchangeData.firstBlocks_kept
          (s.completed request connection messageId token) s.blockSize).1
        exact own ((InternalRequest.token_of_identity identity).symm.trans same)

theorem separates_sendRequest (reachable : s.Reachable) {reply : Option ReplyId}
    {request : Request} {connection : ConnectionId} {draws : Draws}
    (step : Step s (.sendRequest reply request connection draws) os t) :
    Separates key ⟨s, .sendRequest reply request connection draws, os, t⟩ := by
  have nothing (h : (.ok (s, []) : Except Fault (Protocol Addr × List (Output Addr))) =
      .ok (t, os)) : Separates key ⟨s, .sendRequest reply request connection draws, os, t⟩ := by
    obtain ⟨rfl, rfl⟩ := Prod.mk.inj (Except.ok.inj h)
    exact separates_of_idle rfl
  cases reply with
  | none => exact nothing step.2
  | some id =>
    by_cases invalid : request.method = Method.invalid ∨ !isUrlValid request.uri
    · have refused := step.2
      rw [Protocol.step, sendRequest] at refused
      dsimp only at refused
      rw [if_pos invalid] at refused
      exact nothing refused
    · obtain ⟨method, url⟩ : request.method ≠ Method.invalid ∧ isUrlValid request.uri = true := by
        simpa using invalid
      exact separates_of_opened reachable method url step

/-- The exchange a frame is added to reacts, or the frame is dropped. -/
theorem separates_frameReceived (consistent : s.Consistent) (key_ne : key ≠ [])
    {data : QByteArray} {sender : Addr} {draws : Draws}
    (step : Step s (.frameReceived data sender draws) os t) :
    Separates key ⟨s, .frameReceived data sender draws, os, t⟩ := by
  have concerned : concerns key ⟨s, .frameReceived data sender draws, os, t⟩ =
      (s.attribution data sender).any fun found => found.2.1 == key := rfl
  cases attributed : s.attribution data sender with
  | none =>
    rw [attributed] at concerned
    rcases onFrameReceived_cases step.2 with
      ⟨fault, -, failed⟩ | dropped | ⟨reply, token, e, rfl, admits⟩
    · cases failed
    · obtain ⟨rfl, rfl⟩ := Prod.mk.inj (Except.ok.inj dropped)
      exact separates_of_idle concerned
    · rw [attribution_eq_some_iff.mpr ⟨rfl, admits⟩] at attributed
      cases attributed
  | some found =>
    rw [attributed] at concerned
    obtain ⟨rfl, admits⟩ := attribution_eq_some_iff.mp attributed
    obtain ⟨id, fresh, after⟩ := apply_of_admits consistent admits step
    exact separates_of_reacts consistent key_ne admits.found (.received id admits fresh) step
      after concerned

theorem separates_aborted (consistent : s.Consistent) (key_ne : key ≠ []) {id : ReplyId}
    {token : Token} (step : Step s (.aborted id token) os t) :
    Separates key ⟨s, .aborted id token, os, t⟩ := by
  cases found : s.exchangeMap.find? token with
  | some e =>
    have reaction := onRequestAborted_eq found (consistent.registered found).token
    exact separates_of_reacts consistent key_ne found .aborted step
      ((Except.ok.inj step.2).symm.trans (congrArg (·, []) reaction)) rfl
  | none =>
    have unknown (s : Protocol Addr) (none : s.exchangeMap.find? token = none) :
        s.onRequestAborted token = s := by
      rw [onRequestAborted, none]
    obtain ⟨target, rfl⟩ := Prod.mk.inj (Except.ok.inj step.2)
    rw [unknown s found] at target
    subst target
    by_cases own : token = key
    · subst own
      have own : Step (s.alone token) (.aborted id token) [] (s.alone token) :=
        ⟨rfl, congrArg (fun t => Except.ok (t, []))
          (unknown _ ((find?_alone_self s token).trans found))⟩
      exact separates_of_own (by simp [concerns]) own (.same .same)
    · exact separates_of_idle (by simpa [concerns] using own)

theorem separates_cancelObserve {reply : Option ReplyId} {token : Token}
    (step : Step s (.cancelObserve reply token) os t) :
    Separates key ⟨s, .cancelObserve reply token, os, t⟩ := by
  have spec := cancelObserve_spec (s := s) reply token
  have settings := settings_cancelObserve (s := s) reply token
  obtain ⟨rfl, rfl⟩ := Prod.mk.inj (Except.ok.inj step.2)
  by_cases own : token = key
  · subst own
    have own : Step (s.alone token) (.cancelObserve reply token) (s.cancelObserve reply token).2
        ((s.cancelObserve reply token).1.alone token) :=
      ⟨rfl, congrArg Except.ok (cancelObserve_alone ..)⟩
    exact separates_of_own (by simp [concerns]) own (.same .same)
  · refine separates_of_other (by simpa [concerns] using own) settings ?_ ?_
    · rcases cancelObserve_cases s reply token key with same | ⟨same, -⟩
      · exact same
      · exact absurd same.symm own
    · intro message method connection host port sent
      obtain ⟨id, post⟩ := spec.posts _ sent
      cases post

/-- For the exchange on its own its own observation is cancelled, or nothing is. -/
theorem separates_cancelObserveUrl {url : Url} {view : ReplyId → Url × Token}
    (step : Step s (.cancelObserveUrl url view) os t) :
    Separates key ⟨s, .cancelObserveUrl url view, os, t⟩ := by
  have spec := cancelObserveUrl_spec step.2
  have settings := settings_cancelObserveUrl step.2
  rcases cancelObserveUrl_cases step.2 key with same | ⟨e, id, cancels⟩
  · refine separates_of_other ?_ settings same ?_
    · simp [concerns, isCancelled, same]
    · intro message method connection host port sent
      obtain ⟨id, post⟩ := spec.posts _ sent
      cases post
  · have own : Step (s.alone key) (.cancelObserve (some id) key)
        [.post id .setObserveCancelled] (t.alone key) :=
      ⟨rfl, congrArg Except.ok (cancels.cancelObserve settings)⟩
    refine separates_of_own ?_ own (.cancelled id rfl cancels.told)
    simp [concerns, isCancelled, cancels.found, cancels.after, cancels.before,
      InternalRequest.setObserveCancelled]

theorem separates_step (reachable : s.Reachable) (key_ne : key ≠ []) (step : Step s event os t) :
    Separates key ⟨s, event, os, t⟩ := by
  have consistent := reachable.consistent
  have enabled := step.1
  -- what is the same with any exchanges
  have shared (own : concerns key ⟨s, event, os, t⟩ = true)
      (step' : Step (s.alone key) event os (t.alone key)) : Separates key ⟨s, event, os, t⟩ :=
    separates_of_own own step' (.same .same)
  cases event with
  | sendRequest reply request connection draws => exact separates_sendRequest reachable step
  | frameReceived data sender draws => exact separates_frameReceived consistent key_ne step
  | timeout token =>
    obtain ⟨e, found⟩ := timerRuns_found enabled
    have reaction := onRequestTimeout_eq found (consistent.registered found).token
    exact separates_of_reacts consistent key_ne found
      (.timedOut ((timerRuns_iff found _).mp enabled)) step
      ((Except.ok.inj step.2).symm.trans reaction) rfl
  | maxTransmissionSpanReached token =>
    obtain ⟨e, found⟩ := timerRuns_found enabled
    have reaction := onRequestError_eq .timeOut none found (consistent.registered found).token
    exact separates_of_reacts consistent key_ne found
      (.spanReached ((timerRuns_iff found _).mp enabled)) step
      ((Except.ok.inj step.2).symm.trans reaction) rfl
  | multicastRequestExpired token =>
    obtain ⟨e, found⟩ := timerRuns_found enabled
    have reaction := onMulticastRequestExpired_eq found (consistent.registered found).token
    exact separates_of_reacts consistent key_ne found
      (.expired ((timerRuns_iff found _).mp enabled)) step
      ((Except.ok.inj step.2).symm.trans reaction) rfl
  | aborted id token => exact separates_aborted consistent key_ne step
  | cancelObserve reply token => exact separates_cancelObserve step
  | cancelObserveUrl url view => exact separates_cancelObserveUrl step
  | replyDestroyed id =>
    obtain ⟨rfl, rfl⟩ := Prod.mk.inj (Except.ok.inj step.2)
    exact shared rfl ⟨rfl, congrArg (fun t => Except.ok (t, [])) (replyDestroyed_alone ..).symm⟩
  | connectionError socketError =>
    obtain ⟨rfl, rfl⟩ := Prod.mk.inj (Except.ok.inj step.2)
    exact shared rfl ⟨rfl, rfl⟩
  | setAckTimeout _ | setAckRandomFactor _ | setMaximumRetransmitCount _
  | setMaximumServerResponseDelay _ =>
    obtain ⟨rfl, rfl⟩ := Prod.mk.inj (Except.ok.inj step.2)
    exact shared rfl ⟨rfl, rfl⟩
  | setBlockSize size =>
    obtain ⟨rfl, rfl⟩ := Prod.mk.inj (Except.ok.inj step.2)
    refine shared rfl ⟨rfl, congrArg (fun t => Except.ok (t, [])) ?_⟩
    simp only [setBlockSize]
    split_ifs <;> rfl
  | setMinimumTokenSize size =>
    obtain ⟨rfl, rfl⟩ := Prod.mk.inj (Except.ok.inj step.2)
    refine shared rfl ⟨rfl, congrArg (fun t => Except.ok (t, [])) ?_⟩
    simp only [setMinimumTokenSize]
    split_ifs <;> rfl

/-- Leaving out all other exchanges, and all steps that have nothing to do with the exchange, leaves
a run of the protocol: with the same states of the exchange, the same events but for the random
values, and the same outputs. The steps left out send no frame with its token. -/
theorem exchange_independent (reachable : s.Reachable) (key_ne : key ≠ [])
    {tr : List (Taken Addr)} (run : Framework.Run Step s tr t) :
    (∃ tr', Framework.Run Step (s.alone key) tr' (t.alone key) ∧
      List.Forall₂ (fun x x' => x'.source = x.source.alone key ∧
        x'.target = x.target.alone key ∧ Seen key x x'.event x'.outputs)
        (tr.filter (concerns key)) tr') ∧
    ∀ x ∈ tr, concerns key x = false → ∀ message method connection host port,
      .frame message method connection host port ∈ x.outputs → message.token ≠ key := by
  have separates (x) (hx : x ∈ tr) : Separates key x := by
    obtain ⟨reached, step⟩ := run.forall_step (P := Reachable)
      (fun reached step => Framework.Reachable.next reached step) reachable x hx
    exact separates_step reached key_ne step
  constructor
  · refine run.project (·.alone key) (concerns key) _ fun x hx => ?_
    have own := separates x hx
    rw [Separates] at own
    split_ifs at own ⊢
    · obtain ⟨event, os, step, seen⟩ := own
      exact ⟨event, os, step, rfl, rfl, seen⟩
    · exact own.1
  · intro x hx other
    have separated := separates x hx
    rw [Separates, if_neg (by simp [other])] at separated
    exact separated.2

/-- Two requests are sent, the second is sent again, and the first is answered. -/
def oneOfTwo : List (Event IPv4Address) :=
  [.sendRequest (some 0) (getRequest [1, 2]) 0 [7, 0],
    .sendRequest (some 1) (getRequest [3, 4]) 0 [7, 9, 0],
    .timeout [3, 4],
    .frameReceived [0x62, 0x45, 0x00, 0x07, 0x01, 0x02] serverAddress []]

/-- The first exchange is opened and answered also without the second one. -/
theorem exchange_independent_oneOfTwo :
    ∃ (tr tr' : List (Taken IPv4Address)) (u : Protocol IPv4Address),
      Framework.Run Step {} tr u ∧ tr.map (·.event) = oneOfTwo ∧
      Framework.Run Step (alone {} [1, 2]) tr' (u.alone [1, 2]) ∧ tr'.length = 2 ∧
      u.exchangeMap.find? [1, 2] = none := by
  have computed : (Framework.execute handle ({} : Protocol IPv4Address) oneOfTwo).any
      (fun result => (result.1.filter (concerns [1, 2])).length == 2 &&
        !result.2.exchangeMap.contains [1, 2]) = true := by
    decide +kernel
  obtain ⟨tr, u, run, events, facts⟩ := Framework.exists_run_of_execute Step step_of_handle computed
  obtain ⟨length, gone⟩ := (Bool.and_eq_true ..).mp facts
  obtain ⟨⟨tr', run', seen⟩, -⟩ := exchange_independent ⟨{}, [], rfl, .nil⟩
    (by decide : ([1, 2] : Token) ≠ []) run
  refine ⟨tr, tr', u, run, events, run', ?_, ?_⟩
  · rw [← seen.length_eq]
    exact beq_iff_eq.mp length
  · simpa [Framework.OrderedMap.contains] using gone

end Protocol

end QtCoap
