import QtCoap.Framework.Results
import QtCoap.Protocol.Refinement

namespace QtCoap

variable {Addr : Type} [Platform Addr]

/-- What every registered exchange has: it is stored under the token of its request, which is
not empty, and its request has a message ID, a connection and a method. -/
structure ExchangeData.Registered (key : Token) (e : ExchangeData Addr) : Prop where
  key_ne : key ≠ []
  token : e.request.token = key
  messageId : e.request.message.messageId ≠ 0
  connected : ∃ connection, e.request.connection = some connection
  method : e.request.method ≠ Method.invalid

namespace Protocol

/-- The invariant of the exchange map. -/
structure Consistent (s : Protocol Addr) : Prop where
  registered : ∀ {key e}, s.exchangeMap.find? key = some e → e.Registered key
  distinct : ∀ {key key' e e'}, s.exchangeMap.find? key = some e →
    s.exchangeMap.find? key' = some e' →
    e.request.message.messageId = e'.request.message.messageId → key = key'

variable {s t : Protocol Addr} {os : List (Output Addr)}

/-- The request of a new exchange, complete. -/
def completed (s : Protocol Addr) (request : Request) (connection : ConnectionId)
    (messageId : UInt16) (token : Token) : InternalRequest :=
  (((s.newRequest request).setMessageId messageId).setToken token).setConnection connection

/-- The conditions under which a request is registered with this message ID and token. -/
structure Registers (s : Protocol Addr) (request : Request) (messageId : UInt16) (token : Token) :
    Prop where
  method : request.method ≠ Method.invalid
  url : isUrlValid request.uri = true
  messageId : s.isMessageIdRegistered messageId = false
  token : if request.message.token = [] then s.isTokenRegistered token = false
    else token = request.message.token

/-- A frame decodes to `reply`, which is matched to the exchange `e` stored under `key` and comes
from a sender it admits. -/
structure Admits (s : Protocol Addr) (data : QByteArray) (reply : ReceivedReply Addr) (key : Token)
    (e : ExchangeData Addr) : Prop where
  decoded : createFromFrame (Platform.junk Addr) data = .ok reply.toInternalReply
  target : s.frameTarget reply.message = some key
  found : s.exchangeMap.find? key = some e
  admissible : senderAdmissible e.request reply.senderAddress = true

/-- What cancelling observations does. -/
structure ObserveCancelled (s t : Protocol Addr) (os : List (Output Addr)) : Prop where
  each : ∀ key, t.exchangeMap.find? key = s.exchangeMap.find? key ∨
    ∃ e, s.exchangeMap.find? key = some e ∧ e.request.isObserve = true ∧
      t.exchangeMap.find? key = some { e with request := e.request.setObserveCancelled }
  posts : ∀ o ∈ os, ∃ id, o = .post id .setObserveCancelled

/-- What a step does to the exchanges, one case for each kind of step. -/
inductive Effect (s : Protocol Addr) (os : List (Output Addr)) (t : Protocol Addr) :
    Event Addr → Prop
  | opened {id request connection draws} (messageId : UInt16) (token : Token) (timeout : Nat)
      (registers : s.Registers request messageId token)
      (after : (t, os) = s.apply token
        (ExchangeData.opened id (s.completed request connection messageId token) s.blockSize
          timeout)) :
      Effect s os t (.sendRequest (some id) request connection draws)
  | received {data draws reply} (key : Token) (e : ExchangeData Addr) (id : UInt16)
      (admits : s.Admits data reply key e)
      (fresh : reply.continues = true → s.isMessageIdRegistered id = false)
      (after : (t, os) = s.apply key (e.receive s.blockSize reply id)) :
      Effect s os t (.frameReceived data reply.senderAddress draws)
  | timedOut {key} (e : ExchangeData Addr) (found : s.exchangeMap.find? key = some e)
      (after : (t, os) = s.apply key (e.timeout s.maximumRetransmitCount)) :
      Effect s os t (.timeout key)
  | spanReached {key} (e : ExchangeData Addr) (found : s.exchangeMap.find? key = some e)
      (after : (t, os) = s.apply key (e.fail .timeOut none)) :
      Effect s os t (.maxTransmissionSpanReached key)
  | expired {key} (e : ExchangeData Addr) (found : s.exchangeMap.find? key = some e)
      (after : (t, os) = s.apply key e.expire) :
      Effect s os t (.multicastRequestExpired key)
  | aborted {id token} (e : ExchangeData Addr) (found : s.exchangeMap.find? token = some e)
      (after : (t, os) = s.apply token (none, [])) :
      Effect s os t (.aborted id token)
  | cancelled {id token} (cancels : ObserveCancelled s t os) :
      Effect s os t (.cancelObserve id token)
  | urlCancelled {url view} (cancels : ObserveCancelled s t os) :
      Effect s os t (.cancelObserveUrl url view)
  | destroyed {id} (after : (t, os) = (s.replyDestroyed id, [])) :
      Effect s os t (.replyDestroyed id)
  | unchanged {event} (map : t.exchangeMap = s.exchangeMap)
      (posts : os = [] ∨ ∃ error, os = [.error none error]) :
      Effect s os t event

/-- The new internal request, but for its timers. -/
theorem newRequest_kept (s : Protocol Addr) (request : Request) :
    ∃ wait expire, s.newRequest request =
      { InternalRequest.ofRequest Addr request with
        maxTransmitWaitTimer := wait
        multicastExpireTimer := expire } := by
  simp only [newRequest]
  split_ifs <;> exact ⟨_, _, rfl⟩

theorem newRequest_message (request : Request) :
    (s.newRequest request).message = (InternalRequest.ofRequest Addr request).message := by
  obtain ⟨wait, expire, made⟩ := s.newRequest_kept request
  rw [made]

theorem newRequest_token (s : Protocol Addr) (request : Request) :
    (s.newRequest request).token = request.message.token := by
  obtain ⟨target, options, made⟩ := InternalRequest.ofRequest_kept Addr request
  exact (congrArg Message.token (newRequest_message request)).trans (by rw [made])

theorem newRequest_method (s : Protocol Addr) (request : Request) :
    (s.newRequest request).method = request.method := by
  obtain ⟨wait, expire, kept⟩ := s.newRequest_kept request
  obtain ⟨target, options, made⟩ := InternalRequest.ofRequest_kept Addr request
  rw [kept, made]

theorem completed_isMulticast (s : Protocol Addr) (request : Request) (connection : ConnectionId)
    (messageId : UInt16) (token : Token) :
    (s.completed request connection messageId token).isMulticast Addr =
      (InternalRequest.ofRequest Addr request).isMulticast Addr := by
  obtain ⟨wait, expire, kept⟩ := s.newRequest_kept request
  simp only [completed, kept]
  rfl

theorem completed_observeCancelled (s : Protocol Addr) (request : Request)
    (connection : ConnectionId) (messageId : UInt16) (token : Token) :
    (s.completed request connection messageId token).observeCancelled = false := by
  obtain ⟨wait, expire, kept⟩ := s.newRequest_kept request
  obtain ⟨target, options, made⟩ := InternalRequest.ofRequest_kept Addr request
  simp only [completed, kept, made]
  rfl

theorem chosenToken_ok {Addr : Type} {s : Protocol Addr} {token : Token} {draws : Draws}
    {chosen : Token × Draws} (h : s.chosenToken token draws = .ok chosen) :
    if token = [] then s.isTokenRegistered chosen.1 = false else chosen.1 = token := by
  cases token with
  | nil => exact tokenLoop_ok h
  | cons b bytes => exact (congrArg Prod.fst (Except.ok.inj h)).symm

theorem generateUniqueMessageId_ok {Addr : Type} {s : Protocol Addr} {draws : Draws}
    {drawn : UInt16 × Draws} (h : s.generateUniqueMessageId draws = .ok drawn) :
    s.isMessageIdRegistered drawn.1 = false :=
  messageIdLoop_ok h

/-- A request that is complete opens an exchange. -/
theorem sendRequest_opened {id : ReplyId} {request : Request} {connection : ConnectionId}
    {draws : Draws} (method : request.method ≠ Method.invalid)
    (url : isUrlValid request.uri = true)
    (h : s.sendRequest (some id) request connection draws = .ok (t, os)) :
    ∃ messageId token timeout, s.Registers request messageId token ∧
      (∃ drawn left, s.requestTimeout (s.completed request connection messageId token).message.type
        drawn = .ok (timeout, left)) ∧
      (t, os) = s.apply token
        (ExchangeData.opened id (s.completed request connection messageId token) s.blockSize
          timeout) := by
  unfold sendRequest at h
  dsimp only at h
  rw [if_neg (by simp [method, url])] at h
  obtain ⟨⟨messageId, draws'⟩, drawn, h⟩ := Framework.bind_ok h
  obtain ⟨⟨token, draws''⟩, chosen, h⟩ := Framework.bind_ok h
  have chosen : s.chosenToken request.message.token draws' = .ok (token, draws'') := by
    rw [← newRequest_token s request]
    exact chosen
  have opened := (openExchange_eq id (s.completed request connection messageId token)
    draws'').symm.trans h
  obtain ⟨timeout, timed, after⟩ := Framework.map_ok opened
  exact ⟨messageId, token, timeout.1,
    ⟨method, url, generateUniqueMessageId_ok drawn, chosenToken_ok chosen⟩,
    ⟨draws'', timeout.2, timed⟩, after.symm⟩

theorem sendRequest_effect {reply : Option ReplyId} {request : Request}
    {connection : ConnectionId} {draws : Draws}
    (h : s.sendRequest reply request connection draws = .ok (t, os)) :
    Effect s os t (.sendRequest reply request connection draws) := by
  have nothing (h : (.ok (s, []) : Except Fault (Protocol Addr × List (Output Addr))) =
      .ok (t, os)) : Effect s os t (.sendRequest reply request connection draws) := by
    obtain ⟨hs, hos⟩ := Prod.mk.inj (Except.ok.inj h)
    exact .unchanged (congrArg _ hs.symm) (.inl hos.symm)
  cases reply with
  | none => exact nothing h
  | some id =>
    by_cases invalid : request.method = Method.invalid ∨ !isUrlValid request.uri
    · rw [sendRequest] at h
      dsimp only at h
      rw [if_pos invalid] at h
      exact nothing h
    · have valid : request.method ≠ Method.invalid ∧ isUrlValid request.uri = true := by
        simpa using invalid
      obtain ⟨messageId, token, timeout, registers, -, after⟩ :=
        sendRequest_opened valid.1 valid.2 h
      exact .opened messageId token timeout registers after

/-- The exchange a frame is added to, and the reply that is added. -/
def attribution (s : Protocol Addr) (data : QByteArray) (sender : Addr) :
    Option (ReceivedReply Addr × Token × ExchangeData Addr) := do
  let decoded ← (createFromFrame (Platform.junk Addr) data).toOption
  let reply : ReceivedReply Addr := { decoded with senderAddress := sender }
  let key ← s.frameTarget reply.message
  let e ← s.exchangeMap.find? key
  if senderAdmissible e.request sender then some (reply, key, e) else none

theorem attribution_eq_some_iff {data : QByteArray} {sender : Addr} {reply : ReceivedReply Addr}
    {key : Token} {e : ExchangeData Addr} :
    s.attribution data sender = some (reply, key, e) ↔
      sender = reply.senderAddress ∧ s.Admits data reply key e := by
  simp only [attribution]
  constructor
  · intro h
    obtain ⟨decoded, hd, h⟩ := Option.bind_eq_some_iff.mp h
    obtain ⟨key', target, h⟩ := Option.bind_eq_some_iff.mp h
    obtain ⟨e', found, h⟩ := Option.bind_eq_some_iff.mp h
    split_ifs at h with admissible
    obtain ⟨rfl, rfl, rfl⟩ := by simpa only [Option.some.injEq, Prod.mk.injEq] using h
    refine ⟨rfl, ?_, target, found, admissible⟩
    cases hc : createFromFrame (Platform.junk Addr) data with
    | error f => simp [hc, Except.toOption] at hd
    | ok r =>
      rw [hc] at hd
      exact congrArg Except.ok (Option.some.inj hd)
  · intro h
    obtain ⟨rfl, admits⟩ := h
    simp only [admits.decoded, Except.toOption, Option.bind_eq_bind, Option.bind_some]
    rw [admits.target]
    simp [admits.found, admits.admissible]

/-- Such a frame is processed: it is added first, and then answered. -/
theorem onFrameReceived_eq_processReply {data : QByteArray} {reply : ReceivedReply Addr}
    {key : Token} {e : ExchangeData Addr} (admits : s.Admits data reply key e) (draws : Draws) :
    s.onFrameReceived data reply.senderAddress draws =
      s.processReply key e.request reply reply.senderAddress draws := by
  simp only [onFrameReceived]
  rw [admits.decoded]
  simp only [bind, Except.bind]
  rw [admits.target]
  simp only [admits.found, admits.admissible]
  rfl

theorem onFrameReceived_of_admits (consistent : s.Consistent) {data : QByteArray}
    {reply : ReceivedReply Addr} {key : Token} {e : ExchangeData Addr}
    (admits : s.Admits data reply key e) (draws : Draws) :
    s.onFrameReceived data reply.senderAddress draws =
      if reply.continues then
        (s.generateUniqueMessageId draws).map fun drawn =>
          s.apply key (e.receive s.blockSize reply drawn.1)
      else .ok (s.apply key (e.receive s.blockSize reply 0)) :=
  (onFrameReceived_eq_processReply admits draws).trans
    (processReply_eq reply draws admits.found (consistent.registered admits.found).token)

theorem step_of_admits (consistent : s.Consistent) {data : QByteArray}
    {reply : ReceivedReply Addr} {key : Token} {e : ExchangeData Addr}
    (admits : s.Admits data reply key e) (last : reply.continues = false) (draws : Draws) :
    Step s (.frameReceived data reply.senderAddress draws) (e.receive s.blockSize reply 0).2
      (s.setExchange key (e.receive s.blockSize reply 0).1) := by
  refine ⟨rfl, ?_⟩
  have handled := onFrameReceived_of_admits consistent admits draws
  rw [last] at handled
  exact handled

theorem apply_of_admits (consistent : s.Consistent) {data : QByteArray}
    {reply : ReceivedReply Addr} {key : Token} {e : ExchangeData Addr}
    (admits : s.Admits data reply key e) {draws : Draws}
    (h : Step s (.frameReceived data reply.senderAddress draws) os t) :
    ∃ id, (reply.continues = true → s.isMessageIdRegistered id = false) ∧
      (t, os) = s.apply key (e.receive s.blockSize reply id) := by
  have handled := h.2
  dsimp only [step] at handled
  rw [onFrameReceived_of_admits consistent admits] at handled
  split_ifs at handled with continues
  · obtain ⟨drawn, hd, after⟩ := Framework.map_ok handled
    exact ⟨drawn.1, fun _ => generateUniqueMessageId_ok hd, after.symm⟩
  · exact ⟨0, fun hc => absurd hc continues, (Except.ok.inj handled).symm⟩

/-- Any other frame is dropped. -/
theorem onFrameReceived_cases {data : QByteArray} {sender : Addr} {draws : Draws}
    {result : Except Fault (Protocol Addr × List (Output Addr))}
    (h : s.onFrameReceived data sender draws = result) :
    (∃ fault, createFromFrame (Platform.junk Addr) data = .error fault ∧ result = .error fault) ∨
      result = .ok (s, []) ∨
      ∃ reply key e, sender = reply.senderAddress ∧ s.Admits data reply key e := by
  cases hd : createFromFrame (Platform.junk Addr) data with
  | error fault =>
    refine .inl ⟨fault, rfl, ?_⟩
    rw [← h, onFrameReceived, hd]
    rfl
  | ok decoded =>
    right
    unfold onFrameReceived at h
    rw [hd] at h
    simp only [bind, Except.bind] at h
    cases target : s.frameTarget decoded.message with
    | none =>
      rw [target] at h
      exact .inl h.symm
    | some key =>
      rw [target] at h
      dsimp only at h
      cases found : s.exchangeMap.find? key with
      | none =>
        rw [found] at h
        exact .inl h.symm
      | some e =>
        rw [found] at h
        dsimp only at h
        cases admissible : senderAdmissible e.request sender with
        | false =>
          rw [admissible] at h
          exact .inl h.symm
        | true =>
          exact .inr ⟨{ decoded with senderAddress := sender }, key, e, rfl,
            hd, target, found, admissible⟩

theorem onFrameReceived_effect (consistent : s.Consistent) {data : QByteArray} {sender : Addr}
    {draws : Draws} (h : s.onFrameReceived data sender draws = .ok (t, os)) :
    Effect s os t (.frameReceived data sender draws) := by
  rcases onFrameReceived_cases h with ⟨fault, -, failed⟩ | dropped | ⟨reply, key, e, rfl, admits⟩
  · cases failed
  · obtain ⟨hs, hos⟩ := Prod.mk.inj (Except.ok.inj dropped)
    exact .unchanged (congrArg _ hs) (.inl hos)
  · obtain ⟨id, fresh, after⟩ := apply_of_admits consistent admits ⟨rfl, h⟩
    exact .received key e id admits fresh after

namespace ObserveCancelled

theorem refl {Addr : Type} (s : Protocol Addr) :
    ObserveCancelled s s [] := ⟨fun _ => .inl rfl, by simp⟩

theorem trans {Addr : Type} {s t : Protocol Addr} {os : List (Output Addr)} {u : Protocol Addr}
    {os' : List (Output Addr)} (first : ObserveCancelled s t os)
    (second : ObserveCancelled t u os') : ObserveCancelled s u (os ++ os') := by
  constructor
  · intro key
    rcases second.each key with same | ⟨e, found, observe, cancelled⟩
    · rw [same]
      exact first.each key
    · right
      rcases first.each key with same | ⟨e₀, found₀, observe₀, cancelled₀⟩
      · exact ⟨e, same.symm.trans found, observe, cancelled⟩
      · obtain rfl := Option.some.inj (found.symm.trans cancelled₀)
        exact ⟨e₀, found₀, observe₀, cancelled⟩
  · intro o ho
    rcases List.mem_append.mp ho with ho | ho
    · exact first.posts o ho
    · exact second.posts o ho

end ObserveCancelled

theorem cancelObserve_spec {Addr : Type} {s : Protocol Addr} (reply : Option ReplyId)
    (token : Token) :
    ObserveCancelled s (s.cancelObserve reply token).1 (s.cancelObserve reply token).2 := by
  simp only [cancelObserve]
  cases reply with
  | none => exact .refl s
  | some id =>
    cases found : s.exchangeMap.find? token with
    | none => exact ⟨fun _ => .inl rfl, by simp⟩
    | some e =>
      dsimp only
      split_ifs with skipped
      · exact .refl s
      · have observe : e.request.isObserve = true := by
          simp only [Bool.or_eq_true, Bool.not_eq_true', not_or] at skipped
          simpa using skipped.1
        obtain ⟨s, rfl⟩ := setExchange_form found
        refine ⟨?_, by simp⟩
        intro key
        rw [updateRequest_setExchange, find?_setExchange, find?_setExchange]
        by_cases hk : key = token
        · right
          exact ⟨e, by simp [hk], observe, by simp [hk]⟩
        · left
          simp [hk]

theorem cancelObserveUrl_spec {Addr : Type} {s t : Protocol Addr} {os : List (Output Addr)}
    {url : Url} {view : ReplyId → Url × Token} (h : s.cancelObserveUrl url view = .ok (t, os)) :
    ObserveCancelled s t os := by
  unfold cancelObserveUrl at h
  suffices walk : ∀ (entries : List (Token × ExchangeData Addr))
      (acc : Protocol Addr × List (Output Addr)), ObserveCancelled s acc.1 acc.2 →
      entries.foldlM (cancelEntry url view) acc = .ok (t, os) → ObserveCancelled s t os from
    walk _ _ (.refl s) h
  intro entries
  induction entries with
  | nil =>
    intro acc before h
    obtain rfl := Except.ok.inj h
    exact before
  | cons entry entries ih =>
    intro acc before h
    rw [List.foldlM_cons] at h
    obtain ⟨acc', one, rest⟩ := Framework.bind_ok h
    refine ih acc' ?_ rest
    unfold cancelEntry at one
    cases hu : entry.2.userReply with
    | none =>
      rw [hu] at one
      cases one
    | some id =>
      rw [hu] at one
      dsimp only at one
      split_ifs at one
      · obtain rfl := Except.ok.inj one
        exact before.trans (cancelObserve_spec (some id) (view id).2)
      · obtain rfl := Except.ok.inj one
        exact before

theorem timerRuns_found {Addr : Type} {s : Protocol Addr} {key : Token}
    {timer : InternalRequest → Timer} (h : s.timerRuns key timer = true) :
    ∃ e, s.exchangeMap.find? key = some e := by
  cases found : s.exchangeMap.find? key with
  | none => simp [timerRuns, found] at h
  | some e => exact ⟨e, rfl⟩

theorem step_effect (consistent : s.Consistent) {event : Event Addr} (h : Step s event os t) :
    Effect s os t event := by
  obtain ⟨enabled, h⟩ := h
  have unchanged {s' : Protocol Addr} (map : s'.exchangeMap = s.exchangeMap)
      (h : (.ok (s', []) : Except Fault (Protocol Addr × List (Output Addr))) = .ok (t, os)) :
      Effect s os t event := by
    obtain ⟨rfl, rfl⟩ := Prod.mk.inj (Except.ok.inj h)
    exact .unchanged map (.inl rfl)
  cases event with
  | sendRequest reply request connection draws => exact sendRequest_effect h
  | frameReceived data sender draws => exact onFrameReceived_effect consistent h
  | timeout key =>
    obtain ⟨e, found⟩ := timerRuns_found enabled
    have reaction := onRequestTimeout_eq found (consistent.registered found).token
    exact .timedOut e found ((Except.ok.inj h).symm.trans reaction)
  | maxTransmissionSpanReached key =>
    obtain ⟨e, found⟩ := timerRuns_found enabled
    have reaction := onRequestError_eq .timeOut none found (consistent.registered found).token
    exact .spanReached e found ((Except.ok.inj h).symm.trans reaction)
  | multicastRequestExpired key =>
    obtain ⟨e, found⟩ := timerRuns_found enabled
    have reaction := onMulticastRequestExpired_eq found (consistent.registered found).token
    exact .expired e found ((Except.ok.inj h).symm.trans reaction)
  | aborted id token =>
    cases found : s.exchangeMap.find? token with
    | none =>
      refine @unchanged (s.onRequestAborted token) ?_ h
      rw [onRequestAborted, found]
    | some e =>
      have reaction := onRequestAborted_eq found (consistent.registered found).token
      exact .aborted e found ((Except.ok.inj h).symm.trans (congrArg (·, []) reaction))
  | cancelObserve reply token =>
    have spec := cancelObserve_spec (s := s) reply token
    rw [Except.ok.inj h] at spec
    exact .cancelled spec
  | cancelObserveUrl url view => exact .urlCancelled (cancelObserveUrl_spec h)
  | replyDestroyed id => exact .destroyed (Except.ok.inj h).symm
  | connectionError socketError =>
    obtain ⟨rfl, rfl⟩ := Prod.mk.inj (Except.ok.inj h)
    exact .unchanged rfl (.inr ⟨_, rfl⟩)
  | setAckTimeout ackTimeout => exact unchanged (by rfl) h
  | setAckRandomFactor factor => exact unchanged (by rfl) h
  | setMaximumRetransmitCount count => exact unchanged (by rfl) h
  | setBlockSize blockSize =>
    refine unchanged ?_ h
    simp only [setBlockSize]
    split_ifs <;> rfl
  | setMaximumServerResponseDelay delay => exact unchanged (by rfl) h
  | setMinimumTokenSize size =>
    refine unchanged ?_ h
    simp only [setMinimumTokenSize]
    split_ifs <;> rfl

end Protocol

end QtCoap
