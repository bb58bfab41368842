import QtCoap.Protocol.Outcome
import QtCoap.Protocol.Transmission

namespace QtCoap

/-- A timer that runs, with an interval it can be started with again. -/
structure Timer.Runs (t : Timer) : Prop where
  active : t.active = true
  interval : 0 ≤ t.interval

theorem Timer.runs_start {t : Timer} (interval : 0 ≤ t.interval) : t.start.Runs :=
  ⟨decide_eq_true interval, interval⟩

variable {Addr : Type} [Platform Addr]

/-- A request to be sent whose exchange waits for one response. -/
structure Request.Waits (Addr : Type) [Platform Addr] (request : Request) : Prop where
  method : request.method ≠ Method.invalid
  url : isUrlValid request.uri = true
  single : request.Single Addr

namespace ExchangeData

/-- The exchange waits for one response: it is neither multicast nor an observation. -/
structure Awaits (e : ExchangeData Addr) : Prop where
  unicast : e.request.isMulticast Addr = false
  single : e.request.isObserve = false
  observeCancelled : e.request.observeCancelled = false

/-- The maximum-transmit-wait timer runs while the exchange waits. -/
def Guarded (e : ExchangeData Addr) : Prop := e.Awaits → e.request.maxTransmitWaitTimer.Runs

/-- An empty Acknowledgment, which is no response. -/
structure Announces (e : ExchangeData Addr) (reply : ReceivedReply Addr) : Prop where
  awaits : e.Awaits
  userReply : e.userReply ≠ none
  type : reply.message.type = .acknowledgment
  code : reply.responseCode = ResponseCode.emptyMessage
  last : reply.continues = false

variable {s : Protocol Addr} {key : Token} {e e' : ExchangeData Addr} {event : Event Addr}
  {reaction : Reaction Addr}

theorem Reacts.awaits (h : Reacts s key e event reaction) (left : reaction.1 = some e')
    (awaits : e'.Awaits) : e.Awaits := by
  have continues := h.continues left
  have observing := continues.observeCancelled.symm.trans awaits.observeCancelled
  refine ⟨?_, ?_, observing⟩
  · rw [← InternalRequest.isMulticast_of_identity Addr continues.identity]
    exact awaits.unicast
  · have options := h.optionsNamed left (by decide : OptionName.observe ≠ OptionName.block1)
      (by decide : OptionName.observe ≠ OptionName.block2)
    have none := awaits.single
    simp only [InternalRequest.isObserve] at none ⊢
    rw [Message.hasOption_eq] at none ⊢
    rcases options with same | ⟨cancelled, -⟩
    · rw [← same]
      exact none
    · rw [observing] at cancelled
      cases cancelled

theorem Passes.awaits (h : e.Passes e') (awaits : e'.Awaits) : e'.request = e.request := by
  rcases h.request with same | ⟨-, cancelled⟩
  · exact same
  · have observing := awaits.observeCancelled
    rw [cancelled] at observing
    cases observing

/-- Of an exchange that waits, the last message leaves nothing but for an empty
Acknowledgment. -/
theorem finish_awaits {reply : ReceivedReply Addr} {sender : Addr} (awaits : e.Awaits)
    (last : e.replies.getLast? = some reply) (left : (e.finish sender).1 = some e') :
    e.userReply ≠ none ∧ reply.message.type = .acknowledgment ∧
      reply.responseCode = ResponseCode.emptyMessage := by
  unfold finish at left
  rw [last] at left
  cases user : e.userReply with
  | none =>
    rw [user] at left
    cases left
  | some id =>
    rw [user] at left
    dsimp only at left
    rw [awaits.single, awaits.unicast] at left
    rw [if_neg (by simp)] at left
    by_contra response
    have notEmpty : ¬ (reply.message.type = .acknowledgment ∧
        reply.responseCode = ResponseCode.emptyMessage) := fun empty => response ⟨by simp, empty⟩
    rw [if_neg notEmpty] at left
    simp at left

theorem dropObserve_of_observing {Addr : Type} {e : ExchangeData Addr}
    (observing : e.request.observeCancelled = false) : e.dropObserve = e := by
  simp only [dropObserve]
  rw [if_neg (by simp [observing])]

theorem guarded_receive {blockSize : Nat} {reply : ReceivedReply Addr} {id : UInt16}
    (registered : e.Registered key) (left : (e.receive blockSize reply id).1 = some e')
    (awaits : e.Awaits) (running : e.request.maxTransmitWaitTimer.Runs)
    (response : ¬ e.Announces reply) : e'.request.maxTransmitWaitTimer.Runs := by
  obtain ⟨r, identity, transmission, ⟨-, -, host, sent, -⟩ | ⟨last, -, -⟩⟩ := receive_request left
  · rw [sent]
    have unicast := (InternalRequest.isMulticast_of_identity Addr identity).trans awaits.unicast
    have connected : ∃ connection, r.connection = some connection := by
      rw [InternalRequest.connection_of_identity identity]
      exact registered.connected
    rw [transmission_store, awaits.unicast, if_neg (by simp)] at transmission
    have stopped : r.transmissionInProgress = false :=
      congrArg Transmission.transmissionInProgress transmission
    have timer : r.maxTransmitWaitTimer = e.request.maxTransmitWaitTimer.stop :=
      congrArg Transmission.maxTransmitWaitTimer transmission
    rw [transmit_unicast unicast connected, r.restartTransmission_spec.2.2, stopped,
      if_neg Bool.false_ne_true, timer]
    exact Timer.runs_start running.interval
  · obtain ⟨error, ⟨q, host, next, -⟩ | ⟨-, finished⟩⟩ := receive_left left
    · rw [continues_eq error, next] at last
      cases last
    · have observing := (observeCancelled_store reply).trans awaits.observeCancelled
      have stored : (e.store reply).Awaits := by
        refine ⟨?_, ?_, observing⟩
        · rw [InternalRequest.isMulticast_of_identity Addr (continues_store e reply).identity]
          exact awaits.unicast
        · have single := awaits.single
          simp only [InternalRequest.isObserve] at single ⊢
          rw [message_store]
          exact single
      have found := last_dropObserve_store e reply
      rw [dropObserve_of_observing observing] at finished found
      obtain ⟨user, type, code⟩ := finish_awaits stored found finished
      exact absurd ⟨awaits, user, type, code, last⟩ response

theorem Reacts.guarded (h : Reacts s key e event reaction) (registered : e.Registered key)
    (left : reaction.1 = some e') (guarded : e.Guarded)
    (response : ∀ data reply draws, event = .frameReceived data reply.senderAddress draws →
      s.Admits data reply key e → ¬ e.Announces reply) : e'.Guarded := by
  intro awaits'
  have awaits := h.awaits left awaits'
  cases h with
  | @received data draws reply id admits fresh =>
    exact guarded_receive registered left awaits (guarded awaits)
      (response data reply draws rfl admits)
  | timedOut runs =>
    unfold timeout at left
    split_ifs at left
    · obtain rfl := Option.some.inj left
      dsimp only
      rw [transmit_unicast awaits.unicast registered.connected,
        e.request.restartTransmission_spec.2.2]
      split_ifs
      · exact guarded awaits
      · exact Timer.runs_start (guarded awaits).interval
    · cases left
  | spanReached runs => cases left
  | expired runs => cases left
  | aborted => cases left

end ExchangeData

namespace Protocol

variable {s t : Protocol Addr} {os : List (Output Addr)} {event : Event Addr}

/-- A frame announces a separate response to an exchange that waits. -/
def Announced (s : Protocol Addr) (event : Event Addr) : Prop :=
  ∃ data reply draws key e, event = .frameReceived data reply.senderAddress draws ∧
    s.Admits data reply key e ∧ e.Announces reply

/-- A request is sent while MAX_TRANSMIT_WAIT is no interval of a timer: as an `int` it is
negative. -/
def Overlong (s : Protocol Addr) (event : Event Addr) : Prop :=
  ∃ id request connection draws, event = .sendRequest (some id) request connection draws ∧
    request.Waits Addr ∧ 2 ^ 31 ≤ s.maximumTransmitWait

theorem Change.guarded (h : Change s os t event) (consistent : s.Consistent)
    (response : ¬ s.Announced event) (long : ¬ s.Overlong event)
    (guarded : ∀ key e, s.exchangeMap.find? key = some e → e.Guarded) :
    ∀ key e, t.exchangeMap.find? key = some e → e.Guarded := by
  intro key e' found'
  cases h.origin found' with
  | @opened id request connection draws messageId timeout registers made =>
    intro awaits
    have ⟨unicast, observe⟩ := opened_kind _ _ _ _ made
    have waits : request.Waits Addr := ⟨registers.method, registers.url,
      unicast.symm.trans awaits.unicast, observe.symm.trans awaits.single⟩
    have fits : s.maximumTransmitWait < 2 ^ 31 := by
      by_contra large
      exact long ⟨id, request, connection, draws, rfl, waits, Nat.le_of_not_lt large⟩
    obtain rfl := Option.some.inj made
    let r := ((s.completed request connection messageId key).firstBlocks s.blockSize).setTimeout
      timeout
    have connected : ∃ connection', r.connection = some connection' := opened_connected ..
    have stopped : r.transmissionInProgress = false := (opened_idle ..).2
    have single : r.isMulticast Addr = false := by
      rw [← InternalRequest.isMulticast_of_identity Addr (@identity_transmit Addr _ r [])]
      exact awaits.unicast
    have interval : r.maxTransmitWaitTimer.interval = s.maximumTransmitWait :=
      (opened_wait request connection messageId key timeout).trans (toInt32_of_lt fits)
    have sent := congrArg InternalRequest.maxTransmitWaitTimer
      (transmit_unicast single connected [])
    rw [r.restartTransmission_spec.2.2, stopped, if_neg Bool.false_ne_true] at sent
    exact sent ▸ Timer.runs_start (interval ▸ Int.natCast_nonneg _)
  | reacted e reaction found reacts left =>
    refine reacts.guarded (consistent.registered found) left (guarded key e found) ?_
    intro data reply draws own admits announces
    exact response ⟨data, reply, draws, key, e, own, admits, announces⟩
  | passed e found passes =>
    intro awaits
    have same := passes.awaits awaits
    rw [same]
    exact guarded key e found ⟨same ▸ awaits.unicast, same ▸ awaits.single,
      same ▸ awaits.observeCancelled⟩

/-- As long as no empty Acknowledgment announces a separate response and MAX_TRANSMIT_WAIT is an
interval whenever a request is sent, an exchange that waits has its maximum-transmit-wait timer
running, which ends it with a TimeOut error when it fires. -/
theorem waiting_ends {tr : List (Taken Addr)} (run : Framework.Run Step {} tr t)
    (responses : ∀ x ∈ tr, ¬ x.source.Announced x.event)
    (intervals : ∀ x ∈ tr, ¬ x.source.Overlong x.event) :
    ∀ key e, t.exchangeMap.find? key = some e → e.Awaits →
      e.request.maxTransmitWaitTimer.active = true ∧
      ∃ os u, Step t (.maxTransmissionSpanReached key) os u ∧ u.exchangeMap.find? key = none ∧
        .error e.userReply .timeOut ∈ os ∧
        ∀ id, e.userReply = some id → .post id (.setError .timeOut) ∈ os ∧
          .post id (.setFinished .ok) ∈ os := by
  have changes := changes_of_run run
  have guarded := (run.along
    (P := fun s : Protocol Addr => ∀ key e, s.exchangeMap.find? key = some e → e.Guarded)
    (fun x hx _ before => (changes x hx).2.guarded (changes x hx).1 (responses x hx)
      (intervals x hx) before)
    (by simp)).1
  have consistent := run.invariant (fun before h => before.step h) consistent_initial
  intro key e found awaits
  have active := (guarded key e found awaits).active
  have token := (consistent.registered found).token
  refine ⟨active, _, _, ⟨(timerRuns_iff found _).mpr active,
    congrArg Except.ok (onRequestError_eq .timeOut none found token)⟩, ?_, ?_, ?_⟩
  · simp [ExchangeData.fail]
  · simp [ExchangeData.fail]
  · intro id user
    simp [ExchangeData.fail, errorPosts, user]

/-- A request that is sent once more. -/
def sentTwice : List (Event IPv4Address) :=
  [.sendRequest (some 0) (getRequest [1, 2]) 0 [7, 0], .timeout [1, 2]]

/-- A step that neither receives a frame nor comes while MAX_TRANSMIT_WAIT is no interval. -/
def isCalm (x : Taken IPv4Address) : Bool :=
  (match x.event with
  | .frameReceived _ _ _ => false
  | _ => true) && decide (x.source.maximumTransmitWait < 2 ^ 31)

/-- What is known of an exchange that waits without or with its timer. -/
def isAwaiting (runs : Bool) (e : ExchangeData IPv4Address) : Bool :=
  !e.request.isMulticast IPv4Address && !e.request.isObserve && !e.request.observeCancelled &&
    e.request.maxTransmitWaitTimer.active == runs

theorem awaits_of_isAwaiting {runs : Bool} {e : ExchangeData IPv4Address}
    (h : isAwaiting runs e = true) :
    e.Awaits ∧ e.request.maxTransmitWaitTimer.active = runs := by
  simp only [isAwaiting, Bool.and_eq_true, Bool.not_eq_true', beq_iff_eq] at h
  obtain ⟨⟨⟨unicast, single⟩, observing⟩, active⟩ := h
  exact ⟨⟨unicast, single, observing⟩, active⟩

theorem waiting_ends_sentTwice : ∃ (tr : List (Taken IPv4Address)) (t : Protocol IPv4Address)
    (e : ExchangeData IPv4Address), Framework.Run Step {} tr t ∧
    tr.map (fun x => x.outputs.length) = [2, 1] ∧
    t.exchangeMap.find? [1, 2] = some e ∧ e.request.maxTransmitWaitTimer.active = true ∧
    ∃ os u, Step t (.maxTransmissionSpanReached [1, 2]) os u ∧
      u.exchangeMap.find? [1, 2] = none ∧ .error e.userReply .timeOut ∈ os ∧
      ∀ id, e.userReply = some id → .post id (.setError .timeOut) ∈ os ∧
        .post id (.setFinished .ok) ∈ os := by
  have ran : (Framework.execute handle {} sentTwice).any (fun result =>
      result.1.map (fun x => x.outputs.length) == [2, 1] && result.1.all isCalm &&
      (result.2.exchangeMap.find? [1, 2]).any (isAwaiting true)) = true := by
    decide +kernel
  obtain ⟨tr, t, run, -, facts⟩ := Framework.exists_run_of_execute Step step_of_handle ran
  simp only [Bool.and_eq_true, List.all_eq_true] at facts
  obtain ⟨⟨lengths, calm⟩, entry⟩ := facts
  obtain ⟨e, found, kind⟩ := (Option.any_eq_true ..).mp entry
  refine ⟨tr, t, e, run, by simpa using lengths, found, waiting_ends run ?_ ?_ [1, 2] e found
    (awaits_of_isAwaiting kind).1⟩
  · rintro x hx ⟨data, reply, draws, key, e, event, -⟩
    have other := calm x hx
    rw [isCalm, event] at other
    cases other
  · rintro x hx ⟨id, request, connection, draws, event, -, long⟩
    have other := calm x hx
    rw [isCalm, Bool.and_eq_true, decide_eq_true_eq] at other
    exact Nat.not_le_of_lt other.2 long

/-- A timer that is not active never fires. -/
theorem not_step_of_stopped {s : Protocol Addr} {key : Token} {e : ExchangeData Addr}
    (found : s.exchangeMap.find? key = some e)
    (stopped : e.request.maxTransmitWaitTimer.active = false) (os : List (Output Addr))
    (u : Protocol Addr) : ¬ Step s (.maxTransmissionSpanReached key) os u := by
  intro step
  have active := (timerRuns_iff found (·.maxTransmitWaitTimer)).mp step.1
  rw [stopped] at active
  cases active

/-- An empty Acknowledgment for the request: the response is to come separately. -/
def emptyAcknowledgment : QByteArray := [0x60, 0x00, 0x00, 0x07]

theorem emptyAcknowledgment_hangs : ∃ os t, Reachable oneExchange ∧
    Step oneExchange (.frameReceived emptyAcknowledgment serverAddress []) os t ∧
    ∃ e, t.exchangeMap.find? [1, 2] = some e ∧ e.Awaits ∧
      e.request.maxTransmitWaitTimer.active = false ∧
      ∀ os u, ¬ Step t (.maxTransmissionSpanReached [1, 2]) os u := by
  have left : (oneExchange.handle (.frameReceived emptyAcknowledgment serverAddress [])).any
      (fun result => (result.1.exchangeMap.find? [1, 2]).any (isAwaiting false)) = true := by
    decide +kernel
  obtain ⟨⟨t, os⟩, handled, entry⟩ := (Option.any_eq_true ..).mp left
  obtain ⟨e, found, kind⟩ := (Option.any_eq_true ..).mp entry
  obtain ⟨awaits, stopped⟩ := awaits_of_isAwaiting kind
  exact ⟨os, t, reachable_after _, step_of_handle handled, e, found, awaits, stopped,
    not_step_of_stopped found stopped⟩

/-- With 19 retransmissions MAX_TRANSMIT_WAIT is 3145725000, which is negative as an `int`. -/
def longTransmission : Protocol IPv4Address :=
  after [.setMaximumRetransmitCount 19, .sendRequest (some 0) (getRequest [1, 2]) 0 [7, 0]]

theorem longTransmission_hangs : Reachable longTransmission ∧
    longTransmission.maximumTransmitWait = 3145725000 ∧
    ∃ e, longTransmission.exchangeMap.find? [1, 2] = some e ∧ e.Awaits ∧
      e.request.maxTransmitWaitTimer.active = false ∧
      ∀ os u, ¬ Step longTransmission (.maxTransmissionSpanReached [1, 2]) os u := by
  have entry : (longTransmission.exchangeMap.find? [1, 2]).any (isAwaiting false) = true := by
    decide +kernel
  obtain ⟨e, found, kind⟩ := (Option.any_eq_true ..).mp entry
  obtain ⟨awaits, stopped⟩ := awaits_of_isAwaiting kind
  exact ⟨reachable_after _, by decide +kernel, e, found, awaits, stopped,
    not_step_of_stopped found stopped⟩

end Protocol

end QtCoap
