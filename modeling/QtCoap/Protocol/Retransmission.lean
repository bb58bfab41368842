import QtCoap.Protocol.Matching
import QtCoap.Protocol.Settings
import QtCoap.Protocol.Transmission

namespace QtCoap

variable {Addr : Type} [Platform Addr]

/-- The bytes of the frames with token `key` and message ID `id` among the outputs. -/
def framesOf (key : Token) (id : UInt16) (os : List (Output Addr)) : List QByteArray :=
  os.filterMap fun
    | .frame message method _ _ _ =>
      if message.token = key ∧ message.messageId = id then some (toQByteArray message method)
      else none
    | _ => none

theorem framesOf_append {Addr : Type} (key : Token) (id : UInt16) (os os' : List (Output Addr)) :
    framesOf key id (os ++ os') = framesOf key id os ++ framesOf key id os' :=
  List.filterMap_append

theorem framesOf_eq_nil {Addr : Type} {key : Token} {id : UInt16} {os : List (Output Addr)}
    (others : ∀ message method connection host port,
      .frame message method connection host port ∈ os →
        ¬ (message.token = key ∧ message.messageId = id)) : framesOf key id os = [] := by
  rw [framesOf, List.filterMap_eq_nil_iff]
  intro o ho
  cases o with
  | frame message method connection host port => exact if_neg (others _ _ _ _ _ ho)
  | _ => rfl

theorem framesOf_transmit (key : Token) (id : UInt16) (r : InternalRequest) (host : QString) :
    ∃ k ≤ 1, framesOf key id (transmit Addr r host).2 =
      List.replicate k (toQByteArray r.message r.method) := by
  simp only [transmit]
  cases r.connection with
  | none => exact ⟨0, by omega, rfl⟩
  | some connection =>
    by_cases own : r.message.token = key ∧ r.message.messageId = id
    · exact ⟨1, le_rfl, by simp [framesOf, own]⟩
    · exact ⟨0, by omega, by simp [framesOf, own]⟩

/-- How often a request may be sent under one message ID. -/
def transmissionLimit (Addr : Type) [Platform Addr] (maximumRetransmitCount : Nat)
    (r : InternalRequest) : Nat :=
  if r.message.type = .confirmable ∧ r.isMulticast Addr = false then 1 + maximumRetransmitCount
  else 1

theorem transmissionLimit_of_identity (count : Nat) {q r : InternalRequest}
    (identity : q.identity = r.identity) :
    transmissionLimit Addr count q = transmissionLimit Addr count r := by
  simp only [transmissionLimit]
  rw [InternalRequest.type_of_identity identity,
    InternalRequest.isMulticast_of_identity Addr identity]

theorem one_le_transmissionLimit (count : Nat) (r : InternalRequest) :
    1 ≤ transmissionLimit Addr count r := by
  simp only [transmissionLimit]
  split_ifs <;> omega

/-- The request has been sent `n` times under its message ID. While its timer runs, the frames
were what it would be sent as now, and the counter keeps up with them. -/
structure SentTimes (Addr : Type) [Platform Addr] (count n : Nat) (bytes : QByteArray)
    (r : InternalRequest) : Prop where
  within : n ≤ transmissionLimit Addr count r
  pending : r.timeoutTimer.active = true → r.isMulticast Addr = false ∧
    r.transmissionInProgress = true ∧ n ≤ 1 + r.retransmissionCounter ∧
    toQByteArray r.message r.method = bytes

namespace SentTimes

variable {count n : Nat} {bytes : QByteArray} {q r : InternalRequest}

/-- A request is not sent again once its timer is stopped. -/
theorem of_stopped (h : SentTimes Addr count n bytes r) (identity : q.identity = r.identity)
    (stopped : q.timeoutTimer.active = false) : SentTimes Addr count n bytes q where
  within := by
    rw [transmissionLimit_of_identity count identity]
    exact h.within
  pending := by
    intro active
    rw [stopped] at active
    cases active

theorem retransmit (h : SentTimes Addr count n bytes r)
    (connected : ∃ connection, r.connection = some connection)
    (active : r.timeoutTimer.active = true) (confirmable : r.message.type = .confirmable)
    (more : r.retransmissionCounter < count) (bounded : count ≤ 25) (key : Token) (id : UInt16) :
    ∃ k, framesOf key id (transmit Addr r []).2 = List.replicate k bytes ∧
      SentTimes Addr count (n + k) bytes (transmit Addr r []).1 := by
  obtain ⟨unicast, started, upTo, same⟩ := h.pending active
  obtain ⟨k, one, frames⟩ := @framesOf_transmit Addr _ key id r []
  obtain ⟨started', counter, -⟩ := r.restartTransmission_spec
  rw [if_pos started, Nat.mod_eq_of_lt (by omega)] at counter
  have identity := @identity_transmit Addr _ r []
  refine ⟨k, same ▸ frames, ?_, ?_⟩
  · rw [transmissionLimit_of_identity count identity, transmissionLimit,
      if_pos ⟨confirmable, unicast⟩]
    omega
  · intro _
    rw [InternalRequest.isMulticast_of_identity Addr identity, message_transmit,
      InternalRequest.method_of_identity identity, transmit_unicast unicast connected, counter]
    exact ⟨unicast, started', by omega, same⟩

variable (Addr count) in
/-- The first transmission of a request under a message ID. -/
theorem first (connected : ∃ connection, r.connection = some connection)
    (stopped : r.timeoutTimer.active = false) (key : Token) (id : UInt16) (host : QString) :
    ∃ k, framesOf key id (transmit Addr r host).2 =
        List.replicate k (toQByteArray r.message r.method) ∧
      SentTimes Addr count k (toQByteArray r.message r.method) (transmit Addr r host).1 := by
  obtain ⟨k, one, frames⟩ := @framesOf_transmit Addr _ key id r host
  have identity := @identity_transmit Addr _ r host
  refine ⟨k, frames, one.trans (one_le_transmissionLimit ..), ?_⟩
  cases unicast : r.isMulticast Addr with
  | true =>
    rw [transmit_multicast unicast connected]
    intro active
    have still : r.startMulticastTransmission.timeoutTimer.active = false := stopped
    rw [still] at active
    cases active
  | false =>
    intro _
    rw [InternalRequest.isMulticast_of_identity Addr identity, message_transmit,
      InternalRequest.method_of_identity identity, transmit_unicast unicast connected]
    exact ⟨unicast, r.restartTransmission_spec.1, by omega, rfl⟩

end SentTimes

/-- The retransmission timer of a multicast request does not run. -/
def InternalRequest.Still (Addr : Type) [Platform Addr] (r : InternalRequest) : Prop :=
  r.isMulticast Addr = true → r.timeoutTimer.active = false

namespace InternalRequest.Still

variable {q r : InternalRequest}

theorem of_same (h : r.Still Addr) (identity : q.identity = r.identity)
    (transmission : q.transmission = r.transmission) : q.Still Addr := by
  intro multicast
  rw [isMulticast_of_identity Addr identity] at multicast
  have timer : q.timeoutTimer = r.timeoutTimer := congrArg Transmission.timeoutTimer transmission
  rw [timer]
  exact h multicast

theorem transmit (h : r.Still Addr) (connected : ∃ connection, r.connection = some connection)
    (host : QString) : (QtCoap.transmit Addr r host).1.Still Addr := by
  intro multicast
  rw [isMulticast_of_identity Addr (identity_transmit r host)] at multicast
  rw [transmit_multicast multicast connected]
  exact h multicast

end InternalRequest.Still

namespace ExchangeData

variable {s : Protocol Addr} {key : Token} {e e' : ExchangeData Addr} {event : Event Addr}
  {reaction : Reaction Addr}

/-- A reply stops the retransmission timer. -/
theorem timeoutTimer_store (still : e.request.Still Addr) (reply : ReceivedReply Addr) :
    (e.store reply).request.timeoutTimer.active = false := by
  have timers := congrArg Transmission.timeoutTimer (transmission_store e reply)
  cases unicast : e.request.isMulticast Addr with
  | true =>
    rw [unicast, if_pos rfl] at timers
    exact (congrArg Timer.active timers).trans (still unicast)
  | false =>
    rw [unicast, if_neg (by simp)] at timers
    exact congrArg Timer.active timers

theorem Reacts.still (h : Reacts s key e event reaction) (registered : e.Registered key)
    (left : reaction.1 = some e') (still : e.request.Still Addr) : e'.request.Still Addr := by
  cases h with
  | @received data draws reply id admits fresh =>
    obtain ⟨r, identity, transmission, ⟨-, -, host, sent, -⟩ | ⟨-, same, -⟩⟩ := receive_request left
    all_goals
      have stopped : r.Still Addr := by
        intro _
        have timer := congrArg Transmission.timeoutTimer transmission
        exact (congrArg Timer.active timer).trans (timeoutTimer_store still reply)
    · rw [sent]
      apply stopped.transmit
      rw [InternalRequest.connection_of_identity identity]
      exact registered.connected
    · rw [same]
      exact stopped
  | timedOut runs =>
    unfold timeout at left
    split_ifs at left
    · obtain rfl := Option.some.inj left
      exact still.transmit registered.connected []
    · cases left
  | spanReached runs => cases left
  | expired runs => cases left
  | aborted => cases left

/-- Frames of a reaction are empty messages or the request that is left. -/
theorem Reacts.framesOf_eq_nil (h : Reacts s key e event reaction) {token : Token} {id : UInt16}
    (token_ne : token ≠ [])
    (others : ∀ e', reaction.1 = some e' →
      ¬ (e'.request.token = token ∧ e'.request.message.messageId = id)) :
    framesOf token id reaction.2 = [] := by
  apply QtCoap.framesOf_eq_nil
  intro message method connection host port sent same
  rcases (h.issues sent).2 _ _ _ _ _ rfl with empty | ⟨e', left, rfl⟩
  · exact token_ne (same.1.symm.trans empty)
  · exact others e' left same

/-- While the exchange keeps its message ID: of the frames under it, a step puts out some more
that are the same, and there are not too many. -/
def Repeats (e : ExchangeData Addr) (key : Token) (count n : Nat) (bytes : QByteArray)
    (left : Option (ExchangeData Addr)) (os : List (Output Addr)) : Prop :=
  ∃ k, framesOf key e.request.message.messageId os = List.replicate k bytes ∧
    n + k ≤ transmissionLimit Addr count e.request ∧
    ∀ e', left = some e' → e'.request.message.messageId = e.request.message.messageId →
      e'.request.identity = e.request.identity ∧ SentTimes Addr count (n + k) bytes e'.request

theorem Repeats.silent {count n : Nat} {bytes : QByteArray} {left : Option (ExchangeData Addr)}
    {os : List (Output Addr)} (sent : SentTimes Addr count n bytes e.request)
    (none : framesOf key e.request.message.messageId os = [])
    (later : ∀ e', left = some e' →
      e'.request.message.messageId = e.request.message.messageId →
      e'.request.identity = e.request.identity ∧ SentTimes Addr count n bytes e'.request) :
    e.Repeats key count n bytes left os :=
  ⟨0, none, sent.within, later⟩

theorem framesOf_acknowledge {token : Token} (token_ne : token ≠ []) (id : UInt16)
    (reply : ReceivedReply Addr) : framesOf token id (e.acknowledge reply) = [] := by
  apply QtCoap.framesOf_eq_nil
  intro message method connection host port sent same
  obtain ⟨_, _, _, _, _, frame, empty⟩ := mem_acknowledge sent
  cases frame
  exact token_ne (same.1.symm.trans empty)

theorem repeats_timeout {count n : Nat} {bytes : QByteArray} (registered : e.Registered key)
    (bounded : count ≤ 25) (active : e.request.timeoutTimer.active = true)
    (sent : SentTimes Addr count n bytes e.request) :
    e.Repeats key count n bytes (e.timeout count).1 (e.timeout count).2 := by
  simp only [timeout]
  split_ifs with more
  · obtain ⟨k, frames, after⟩ := sent.retransmit registered.connected active more.1 more.2 bounded
      key e.request.message.messageId
    have identity := @identity_transmit Addr _ e.request []
    refine ⟨k, frames, ?_, ?_⟩
    · rw [← transmissionLimit_of_identity count identity]
      exact after.within
    · intro e' left _
      obtain rfl := Option.some.inj left
      exact ⟨identity, after⟩
  · refine .silent sent ?_ (fun e' left => by cases left)
    apply QtCoap.framesOf_eq_nil
    intro message method connection host port out same
    rcases (issues_fail out).2 _ _ _ _ _ rfl with empty | ⟨e', left, -⟩
    · exact registered.key_ne (same.1.symm.trans empty)
    · cases left

theorem repeats_receive {count n : Nat} {bytes : QByteArray} (registered : e.Registered key)
    (still : e.request.Still Addr) {blockSize : Nat} {reply : ReceivedReply Addr} {id : UInt16}
    (fresh : reply.continues = true → e.request.message.messageId ≠ id)
    (sent : SentTimes Addr count n bytes e.request) :
    e.Repeats key count n bytes (e.receive blockSize reply id).1
      (e.receive blockSize reply id).2 := by
  have acknowledged := @framesOf_acknowledge Addr _ (e.store reply) key registered.key_ne
    e.request.message.messageId reply
  cases left : (e.receive blockSize reply id).1 with
  | none =>
    refine .silent sent ?_ (fun e' h => by cases h)
    apply QtCoap.framesOf_eq_nil
    intro message method connection host port out same
    rcases (issues_receive out).2 _ _ _ _ _ rfl with empty | ⟨e', kept, -⟩
    · exact registered.key_ne (same.1.symm.trans empty)
    · rw [left] at kept
      cases kept
  | some e' =>
    obtain ⟨r, identity, transmission, ⟨more, new, host, next, out⟩ | ⟨-, same, out⟩⟩ :=
      receive_request left
    · -- the message ID is another one from here on
      refine .silent sent ?_ ?_
      · rw [out, framesOf_append, acknowledged, List.nil_append]
        apply QtCoap.framesOf_eq_nil
        intro message method connection host port frame same
        rw [frame_mem_transmit frame] at same
        exact fresh more (same.2.symm.trans new)
      · intro d kept same
        obtain rfl := Option.some.inj kept
        rw [next, message_transmit, new] at same
        exact absurd same.symm (fresh more)
    · refine .silent sent ?_ ?_
      · rw [out, framesOf_append, acknowledged, List.nil_append]
        apply QtCoap.framesOf_eq_nil
        intro message method connection host port frame
        exact absurd frame (frame_not_mem_finish _ _ _ _ _ _ _)
      · intro d kept _
        obtain rfl := Option.some.inj kept
        have timer := congrArg Transmission.timeoutTimer transmission
        have stopped := (congrArg Timer.active timer).trans (timeoutTimer_store still reply)
        rw [same]
        exact ⟨identity, sent.of_stopped identity stopped⟩

theorem Reacts.repeats {n : Nat} {bytes : QByteArray} (h : Reacts s key e event reaction)
    (found : s.exchangeMap.find? key = some e) (registered : e.Registered key)
    (still : e.request.Still Addr) (bounded : s.maximumRetransmitCount ≤ 25)
    (sent : SentTimes Addr s.maximumRetransmitCount n bytes e.request) :
    e.Repeats key s.maximumRetransmitCount n bytes reaction.1 reaction.2 := by
  have gone (none : reaction.1 = none) :
      e.Repeats key s.maximumRetransmitCount n bytes reaction.1 reaction.2 :=
    .silent sent (h.framesOf_eq_nil registered.key_ne (by simp [none])) (by simp [none])
  cases h with
  | @received data draws reply id admits fresh =>
    refine repeats_receive registered still ?_ sent
    intro more
    exact (Protocol.isMessageIdRegistered_eq_false (fresh more)).2 found
  | timedOut runs => exact repeats_timeout registered bounded runs sent
  | spanReached runs => exact gone rfl
  | expired runs => exact gone rfl
  | aborted => exact gone rfl

end ExchangeData

namespace Protocol

variable {s t : Protocol Addr} {os : List (Output Addr)} {event : Event Addr} {key : Token}
  {e e' : ExchangeData Addr} {n : Nat} {bytes : QByteArray}

theorem Change.still (h : Change s os t event) (consistent : s.Consistent)
    (still : ∀ key e, s.exchangeMap.find? key = some e → e.request.Still Addr) :
    ∀ key e, t.exchangeMap.find? key = some e → e.request.Still Addr := by
  intro key e' found'
  cases h.origin found' with
  | opened messageId timeout registers made =>
    obtain rfl := Option.some.inj made
    apply InternalRequest.Still.transmit _ (opened_connected ..)
    exact fun _ => (opened_idle ..).1
  | reacted e reaction found reacts left =>
    exact reacts.still (consistent.registered found) left (still key e found)
  | passed e found passes =>
    refine (still key e found).of_same passes.identity ?_
    rcases passes.request with same | ⟨-, same⟩
    · rw [same]
    · rw [same]
      rfl

theorem Reachable.still (h : Reachable s) :
    ∀ key e, s.exchangeMap.find? key = some e → e.request.Still Addr := by
  have both := Framework.Reachable.invariant
    (P := fun s : Protocol Addr => s.Consistent ∧ ∀ key e, s.exchangeMap.find? key = some e →
      e.request.Still Addr)
    (fun init => ⟨Reachable.consistent ⟨_, [], init, .nil⟩, by simp [init]⟩)
    (fun before step =>
      ⟨before.1.step step, (step_change before.1 step).still before.1 before.2⟩) h
  exact both.2

/-- One step while a request keeps its message ID. -/
theorem Change.repeats (h : Change s os t event) (consistent : s.Consistent)
    (still : e.request.Still Addr) (bounded : s.maximumRetransmitCount ≤ 25)
    (found : s.exchangeMap.find? key = some e)
    (sent : SentTimes Addr s.maximumRetransmitCount n bytes e.request) :
    e.Repeats key s.maximumRetransmitCount n bytes (t.exchangeMap.find? key) os := by
  have registered := consistent.registered found
  have other {j : Token} {o : Option (ExchangeData Addr)} (ne : key ≠ j)
      (none : framesOf key e.request.message.messageId os = []) :
      e.Repeats key s.maximumRetransmitCount n bytes ((s.setExchange j o).exchangeMap.find? key)
        os := by
    refine .silent sent none ?_
    intro e' found' _
    rw [find?_setExchange, if_neg ne, found] at found'
    obtain rfl := Option.some.inj found'
    exact ⟨rfl, sent⟩
  cases h with
  | @opened id request connection draws messageId token timeout registers after =>
    obtain ⟨rfl, rfl⟩ := Prod.mk.inj after
    have fresh := (isMessageIdRegistered_eq_false registers.messageId).2 found
    have own := (ExchangeData.firstBlocks_kept (s.completed request connection messageId token)
      s.blockSize).2.1
    have none : framesOf key e.request.message.messageId
        (ExchangeData.opened id (s.completed request connection messageId token) s.blockSize
          timeout : Reaction Addr).2 = [] := by
      apply framesOf_eq_nil
      intro message method connection' host port out same
      rcases List.mem_cons.mp out with post | out
      · cases post
      · rw [frame_mem_transmit out] at same
        exact fresh (same.2.symm.trans own)
    by_cases token_eq : key = token
    · subst token_eq
      refine .silent sent none ?_
      intro e' found' same
      rw [find?_setExchange, if_pos rfl] at found'
      obtain rfl := Option.some.inj found'
      rw [message_transmit] at same
      exact absurd (same.symm.trans own) fresh
    · exact other token_eq none
  | @reacted _ key' d reaction found' reacts after =>
    obtain ⟨rfl, rfl⟩ := Prod.mk.inj after
    by_cases key_eq : key = key'
    · subst key_eq
      obtain rfl := Option.some.inj (found.symm.trans found')
      rw [find?_setExchange, if_pos rfl]
      exact reacts.repeats found registered still bounded sent
    · apply other key_eq
      apply reacts.framesOf_eq_nil registered.key_ne
      intro e' left same
      have token := InternalRequest.token_of_identity (reacts.continues left).identity
      exact key_eq (same.1.symm.trans (token.trans (consistent.registered found').token))
  | passed each outputs =>
    refine .silent sent ?_ ?_
    · apply framesOf_eq_nil
      intro message method connection host port out
      rcases outputs _ out with ⟨id, post⟩ | ⟨error, signal⟩
      · cases post
      · cases signal
    · intro e' found' _
      obtain ⟨d, found'', passes⟩ := passes_to_some (found' ▸ each key)
      obtain rfl := Option.some.inj (found.symm.trans found'')
      refine ⟨passes.identity, ?_⟩
      rcases passes.request with same | ⟨-, same⟩
      · rw [same]
        exact sent
      · rw [same]
        exact ⟨sent.within, sent.pending⟩

/-- The request stored under `key` has the message ID `id`. -/
def uses (s : Protocol Addr) (key : Token) (id : UInt16) : Bool :=
  (s.exchangeMap.find? key).any (fun e => e.request.message.messageId == id)

theorem uses_iff {Addr : Type} {s : Protocol Addr} {id : UInt16} : s.uses key id = true ↔
    ∃ e, s.exchangeMap.find? key = some e ∧ e.request.message.messageId = id := by
  simp [uses, Option.any_eq_true]

/-- The step that assigns a message ID sends the request under it once at most. -/
theorem Change.assigns (h : Change s os t event) (consistent : s.Consistent)
    (still : ∀ key e, s.exchangeMap.find? key = some e → e.request.Still Addr) (count : Nat)
    (found' : t.exchangeMap.find? key = some e')
    (unused : s.uses key e'.request.message.messageId = false) :
    ∃ k bytes, framesOf key e'.request.message.messageId os = List.replicate k bytes ∧
      SentTimes Addr count k bytes e'.request := by
  have changed {e : ExchangeData Addr} (found : s.exchangeMap.find? key = some e) :
      e'.request.message.messageId ≠ e.request.message.messageId := by
    intro same
    rw [uses_iff.mpr ⟨e, found, same.symm⟩] at unused
    cases unused
  cases h with
  | @opened id request connection draws messageId token timeout registers after =>
    obtain ⟨rfl, rfl⟩ := Prod.mk.inj after
    rw [find?_setExchange] at found'
    split_ifs at found' with own
    · subst own
      obtain rfl := Option.some.inj found'
      let r := ((s.completed request connection messageId key).firstBlocks s.blockSize).setTimeout
        timeout
      have connected : ∃ connection', r.connection = some connection' := opened_connected ..
      have stopped : r.timeoutTimer.active = false := (opened_idle ..).1
      obtain ⟨k, frames, sent⟩ := SentTimes.first Addr count connected stopped key messageId []
      refine ⟨k, _, ?_, sent⟩
      have same := (ExchangeData.firstBlocks_kept (s.completed request connection messageId key)
        s.blockSize).2.1
      dsimp only
      rw [message_transmit]
      exact same ▸ frames
    · exact absurd rfl (changed found')
  | @reacted _ key' e reaction found reacts after =>
    obtain ⟨rfl, rfl⟩ := Prod.mk.inj after
    rw [find?_setExchange] at found'
    split_ifs at found' with own
    · subst own
      have registered := consistent.registered found
      cases reacts with
      | @received data draws reply id admits fresh =>
        obtain ⟨r, identity, transmission, ⟨-, -, host, next, out⟩ | ⟨final, -, -⟩⟩ :=
          ExchangeData.receive_request found'
        · have timer := congrArg Transmission.timeoutTimer transmission
          have stopped := (congrArg Timer.active timer).trans
            (ExchangeData.timeoutTimer_store (still key e found) reply)
          have connected : ∃ connection, r.connection = some connection := by
            rw [InternalRequest.connection_of_identity identity]
            exact registered.connected
          obtain ⟨k, frames, sent⟩ := SentTimes.first Addr count connected stopped key
            e'.request.message.messageId host
          refine ⟨k, _, ?_, next ▸ sent⟩
          rw [out, framesOf_append, ExchangeData.framesOf_acknowledge registered.key_ne,
            List.nil_append]
          exact frames
        · have same := (ExchangeData.receive_kept found').2
          rw [final] at same
          exact absurd same (changed found)
      | timedOut runs =>
        have same := (ExchangeData.timeout_kept found').2.1
        exact absurd (congrArg Message.messageId same) (changed found)
      | spanReached runs => cases found'
      | expired runs => cases found'
      | aborted => cases found'
    · exact absurd rfl (changed found')
  | passed each outputs =>
    obtain ⟨e, found, passes⟩ := passes_to_some (found' ▸ each key)
    exact absurd (congrArg Message.messageId passes.message) (changed found)

/-- The run over which a request keeps its message ID. -/
theorem repeats_along {tr : List (Taken Addr)} (reachable : Reachable s)
    (run : Framework.Run Step s tr t) {count : Nat}
    (limit : ∀ x ∈ tr, x.source.maximumRetransmitCount = count)
    (found : s.exchangeMap.find? key = some e) (sent : SentTimes Addr count n bytes e.request) :
    ∃ k, (tr.takeWhile (·.source.uses key e.request.message.messageId)).flatMap
        (fun x => framesOf key e.request.message.messageId x.outputs) = List.replicate k bytes ∧
      n + k ≤ transmissionLimit Addr count e.request := by
  induction tr generalizing s e n with
  | nil => exact ⟨0, rfl, sent.within⟩
  | cons x tr ih =>
    obtain ⟨rfl, step, rest⟩ := run.of_cons
    have own : x.source.uses key e.request.message.messageId = true := uses_iff.mpr ⟨e, found, rfl⟩
    rw [List.takeWhile_cons, if_pos own, List.flatMap_cons]
    have consistent := Reachable.consistent reachable
    obtain rfl := limit x (by simp)
    obtain ⟨k, frames, within, later⟩ := (step_change consistent step).repeats consistent
      (Reachable.still reachable key e found) (Reachable.maximumRetransmitCount_le reachable) found
      sent
    rw [frames]
    by_cases goes_on : x.target.uses key e.request.message.messageId = true
    · obtain ⟨e', found', same⟩ := uses_iff.mp goes_on
      obtain ⟨identity, sent'⟩ := later e' found' same
      obtain ⟨k', frames', within'⟩ := ih (reachable.next step) rest
        (fun y hy => limit y (by simp [hy])) found' sent'
      rw [same] at frames'
      rw [transmissionLimit_of_identity _ identity] at within'
      rw [frames', List.replicate_append_replicate]
      exact ⟨k + k', rfl, by omega⟩
    · have ended : tr.takeWhile (·.source.uses key e.request.message.messageId) = [] := by
        cases tr with
        | nil => rfl
        | cons y tr =>
          obtain ⟨same, -⟩ := rest.of_cons
          rw [List.takeWhile_cons, same, if_neg goes_on]
      rw [ended]
      exact ⟨k, by simp, within⟩

/-- While the limit is left alone, the frames sent for a request under one message ID, from the
step that assigns it on and as long as the request keeps it, are the same bytes, sent no more
often than the limit allows for a Confirmable unicast request, and once for any other. -/
theorem bounded_retransmission {before after : List (Taken Addr)} {x : Taken Addr}
    (reachable : Reachable s) (run : Framework.Run Step s (before ++ x :: after) t) {count : Nat}
    (limit : ∀ y ∈ before ++ x :: after, y.source.maximumRetransmitCount = count)
    (found : x.target.exchangeMap.find? key = some e)
    (assigned : x.source.uses key e.request.message.messageId = false) :
    let frames := (x :: after.takeWhile (·.source.uses key e.request.message.messageId)).flatMap
      (fun y => framesOf key e.request.message.messageId y.outputs)
    frames.length ≤ (if e.request.message.type = .confirmable ∧ e.request.isMulticast Addr = false
      then 1 + count else 1) ∧
    ∀ frame ∈ frames, ∀ frame' ∈ frames, frame = frame' := by
  obtain ⟨m, first, rest⟩ := run.of_append
  obtain ⟨rfl, step, rest⟩ := rest.of_cons
  have source := reachable.run first
  have consistent := Reachable.consistent source
  obtain ⟨k, bytes, frames, sent⟩ :=
    (step_change consistent step).assigns consistent (Reachable.still source) count found
      assigned
  obtain ⟨k', frames', within⟩ := repeats_along (source.next step) rest
    (fun y hy => limit y (by simp [hy])) found sent
  dsimp only
  rw [List.flatMap_cons, frames, frames', List.replicate_append_replicate]
  refine ⟨?_, ?_⟩
  · rw [List.length_replicate]
    exact within
  · intro frame hf frame' hf'
    rw [List.eq_of_mem_replicate hf, List.eq_of_mem_replicate hf']

/-- A Confirmable request whose timer fires twice. -/
def twoTimeouts : List (Event IPv4Address) :=
  [.sendRequest (some 0) (getRequest [1, 2]) 0 [7, 0], .timeout [1, 2], .timeout [1, 2]]

theorem bounded_retransmission_twoTimeouts :
    ∃ (x : Taken IPv4Address) (after : List (Taken IPv4Address)) (t : Protocol IPv4Address)
      (e : ExchangeData IPv4Address), Framework.Run Step {} (x :: after) t ∧
      x.target.exchangeMap.find? [1, 2] = some e ∧
      let frames := (x :: after.takeWhile
        (·.source.uses [1, 2] e.request.message.messageId)).flatMap
          (fun y => framesOf [1, 2] e.request.message.messageId y.outputs)
      frames.length = 3 ∧ frames.length ≤ 1 + 4 ∧
        ∀ frame ∈ frames, ∀ frame' ∈ frames, frame = frame' := by
  have ran : (Framework.execute handle {} twoTimeouts).any (fun result =>
      match result.1 with
      | [] => false
      | x :: after => (x :: after).all (·.source.maximumRetransmitCount == 4) &&
        (x.target.exchangeMap.find? [1, 2]).any (fun e =>
          !x.source.uses [1, 2] e.request.message.messageId &&
          decide (e.request.message.type = .confirmable ∧
            e.request.isMulticast IPv4Address = false) &&
          ((x :: after.takeWhile (·.source.uses [1, 2] e.request.message.messageId)).flatMap
            (fun y => framesOf [1, 2] e.request.message.messageId y.outputs)).length == 3)) =
      true := by
    decide +kernel
  obtain ⟨tr, t, run, -, facts⟩ := Framework.exists_run_of_execute Step step_of_handle ran
  cases tr with
  | nil => cases facts
  | cons x after =>
    obtain ⟨limit, entry⟩ := (Bool.and_eq_true ..).mp facts
    obtain ⟨e, found, facts⟩ := (Option.any_eq_true ..).mp entry
    simp only [Bool.and_eq_true, Bool.not_eq_true', decide_eq_true_eq, beq_iff_eq] at facts
    obtain ⟨⟨unused, kind⟩, length⟩ := facts
    have fixed (y : Taken IPv4Address) (hy : y ∈ [] ++ x :: after) :
        y.source.maximumRetransmitCount = 4 := by
      simpa using List.all_eq_true.mp limit y hy
    have result := bounded_retransmission ⟨{}, [], rfl, .nil⟩ run fixed found unused
    dsimp only at result
    rw [if_pos kind] at result
    exact ⟨x, after, t, e, run, found, length, result⟩

end Protocol

end QtCoap
