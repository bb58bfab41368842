import QtCoap.Protocol.Reactions

namespace QtCoap

/-- Timers and counter of a request. -/
structure Transmission where
  timeout : Nat
  retransmissionCounter : Nat
  timeoutTimer : Timer
  maxTransmitWaitTimer : Timer
  multicastExpireTimer : Timer
  transmissionInProgress : Bool

variable {Addr : Type} [Platform Addr]

namespace InternalRequest

variable (r : InternalRequest)

def transmission : Transmission where
  timeout := r.timeout
  retransmissionCounter := r.retransmissionCounter
  timeoutTimer := r.timeoutTimer
  maxTransmitWaitTimer := r.maxTransmitWaitTimer
  multicastExpireTimer := r.multicastExpireTimer
  transmissionInProgress := r.transmissionInProgress

@[simp] theorem transmission_setToRequestBlock (number size : Nat) :
    (r.setToRequestBlock number size).transmission = r.transmission := by
  simp only [setToRequestBlock]
  split_ifs <;> rfl

@[simp] theorem transmission_setToSendBlock (number size : Nat) :
    (r.setToSendBlock number size).transmission = r.transmission := by
  simp only [setToSendBlock]
  split_ifs <;> rfl

@[simp] theorem transmission_setMessageId (id : UInt16) :
    (r.setMessageId id).transmission = r.transmission := rfl

theorem transmission_firstBlocks (blockSize : Nat) :
    (r.firstBlocks blockSize).transmission = r.transmission := by
  simp only [firstBlocks]
  split_ifs <;> simp

/-- What a transmission does to a unicast request. -/
theorem restartTransmission_spec :
    r.restartTransmission.transmissionInProgress = true ∧
      r.restartTransmission.retransmissionCounter =
        (if r.transmissionInProgress then (r.retransmissionCounter + 1) % 2 ^ 32
          else r.retransmissionCounter) ∧
      r.restartTransmission.maxTransmitWaitTimer =
        (if r.transmissionInProgress then r.maxTransmitWaitTimer
          else r.maxTransmitWaitTimer.start) := by
  cases started : r.transmissionInProgress with
  | false =>
    simp only [restartTransmission, started, Bool.not_false, Bool.false_eq_true, if_true, if_false]
    split_ifs <;> simp
  | true =>
    simp only [restartTransmission, started, Bool.not_true, Bool.false_eq_true, if_false]
    split_ifs <;> simp

end InternalRequest

/-- What a transmission does to the timers, by the kind of request. -/
theorem transmit_unicast {r : InternalRequest} (unicast : r.isMulticast Addr = false)
    (connected : ∃ connection, r.connection = some connection) (host : QString) :
    (transmit Addr r host).1 = r.restartTransmission := by
  obtain ⟨connection, own⟩ := connected
  simp only [transmit, own, InternalRequest.startTransmission]
  rw [if_neg (by simp [unicast])]

theorem transmit_multicast {r : InternalRequest} (multicast : r.isMulticast Addr = true)
    (connected : ∃ connection, r.connection = some connection) (host : QString) :
    (transmit Addr r host).1 = r.startMulticastTransmission := by
  obtain ⟨connection, own⟩ := connected
  simp only [transmit, own, InternalRequest.startTransmission]
  rw [if_pos multicast]

namespace ExchangeData

variable (e : ExchangeData Addr)

theorem transmission_dropObserve {Addr : Type} (e : ExchangeData Addr) :
    e.dropObserve.request.transmission = e.request.transmission := by
  simp only [dropObserve]
  split_ifs <;> rfl

theorem transmission_nextRequest {blockSize : Nat} {reply : ReceivedReply Addr}
    {r q : InternalRequest} {host : QString}
    (next : nextRequest blockSize reply r = some (q, host)) :
    q.transmission = r.transmission := by
  unfold nextRequest at next
  dsimp only at next
  split_ifs at next
  · obtain ⟨rfl, -⟩ := Prod.mk.inj (Option.some.inj next)
    exact r.transmission_setToSendBlock _ _
  · obtain ⟨rfl, -⟩ := Prod.mk.inj (Option.some.inj next)
    exact r.transmission_setToRequestBlock _ _

/-- A reply stops the timers of a unicast request and the timers of no other. -/
theorem transmission_store (reply : ReceivedReply Addr) :
    (e.store reply).request.transmission =
      if e.request.isMulticast Addr then e.request.transmission
      else
        { timeout := e.request.timeout
          retransmissionCounter := 0
          timeoutTimer := e.request.timeoutTimer.stop
          maxTransmitWaitTimer := e.request.maxTransmitWaitTimer.stop
          multicastExpireTimer := e.request.multicastExpireTimer
          transmissionInProgress := false } := by
  simp only [store, InternalRequest.stopTransmission]
  split_ifs <;> rfl

/-- What becomes of the request that a reply came for: it is left alone but for its options and
timers, or it is sent with another message ID. -/
theorem receive_request {e e' : ExchangeData Addr} {blockSize : Nat} {reply : ReceivedReply Addr}
    {id : UInt16} (left : (e.receive blockSize reply id).1 = some e') :
    ∃ r : InternalRequest, r.identity = e.request.identity ∧
      r.transmission = (e.store reply).request.transmission ∧
      ((reply.continues = true ∧ r.message.messageId = id ∧ ∃ host,
          e'.request = (transmit Addr r host).1 ∧ (e.receive blockSize reply id).2 =
            (e.store reply).acknowledge reply ++ (transmit Addr r host).2) ∨
        (reply.continues = false ∧ e'.request = r ∧ (e.receive blockSize reply id).2 =
          (e.store reply).acknowledge reply ++
            ((e.store reply).dropObserve.finish reply.senderAddress).2)) := by
  have before := continues_stored e reply
  obtain ⟨error, ⟨q, host, next, rfl⟩ | ⟨none, finished⟩⟩ := receive_left left
  · have more := continues_eq error blockSize (e.store reply).dropObserve.request
    refine ⟨q.setMessageId id, ?_, ?_, .inl ⟨?_, rfl, host, rfl, ?_⟩⟩
    · exact (nextRequest_kept next).1.trans before.identity
    · exact (transmission_nextRequest next).trans (transmission_dropObserve _)
    · rw [more, next]
      rfl
    · rw [receive_of_next e error next]
      rfl
  · have more := continues_eq error blockSize (e.store reply).dropObserve.request
    refine ⟨(e.store reply).dropObserve.request, before.identity, transmission_dropObserve _,
      .inr ⟨?_, (finish_kept finished).1, ?_⟩⟩
    · rw [more, none]
      rfl
    · rw [receive_of_last e error none]

theorem frame_not_mem_finish (sender : Addr) (message : Message) (method : Method)
    (connection : ConnectionId) (host : QString) (port : UInt16) :
    Output.frame message method connection host port ∉ (e.finish sender).2 := by
  rw [finish]
  split
  · dsimp only
    split_ifs <;> simp
  · simp

end ExchangeData

namespace Protocol

variable {s t : Protocol Addr} {os : List (Output Addr)} {event : Event Addr}

theorem completed_transmission (s : Protocol Addr) (request : Request) (connection : ConnectionId)
    (messageId : UInt16) (token : Token) :
    let r := s.completed request connection messageId token
    r.timeoutTimer.active = false ∧ r.transmissionInProgress = false := by
  obtain ⟨wait, expire, kept⟩ := s.newRequest_kept request
  obtain ⟨target, options, made⟩ := InternalRequest.ofRequest_kept Addr request
  simp only [completed, kept, made]
  exact ⟨rfl, rfl⟩

/-- The timer for the maximum transmit wait is set once, when the request is made. -/
theorem completed_wait (s : Protocol Addr) (request : Request) (connection : ConnectionId)
    (messageId : UInt16) (token : Token) :
    (s.completed request connection messageId token).maxTransmitWaitTimer.interval =
      toInt32 s.maximumTransmitWait := by
  simp only [completed, newRequest]
  split_ifs <;> rfl

/-- The request of a new exchange before it is sent. -/
theorem opened_idle (request : Request) (connection : ConnectionId) (messageId : UInt16)
    (token : Token) (timeout : Nat) :
    let r := ((s.completed request connection messageId token).firstBlocks s.blockSize).setTimeout
      timeout
    r.timeoutTimer.active = false ∧ r.transmissionInProgress = false := by
  have blocks := (s.completed request connection messageId token).transmission_firstBlocks
    s.blockSize
  have completed := s.completed_transmission request connection messageId token
  have timer := congrArg Transmission.timeoutTimer blocks
  exact ⟨(congrArg Timer.active timer).trans completed.1,
    (congrArg Transmission.transmissionInProgress blocks).trans completed.2⟩

theorem opened_wait (request : Request) (connection : ConnectionId) (messageId : UInt16)
    (token : Token) (timeout : Nat) :
    (((s.completed request connection messageId token).firstBlocks s.blockSize).setTimeout
      timeout).maxTransmitWaitTimer.interval = toInt32 s.maximumTransmitWait := by
  have blocks := (s.completed request connection messageId token).transmission_firstBlocks
    s.blockSize
  exact (congrArg (·.maxTransmitWaitTimer.interval) blocks).trans
    (s.completed_wait request connection messageId token)

theorem opened_connected (request : Request) (connection : ConnectionId) (messageId : UInt16)
    (token : Token) (timeout : Nat) : ∃ connection',
    (((s.completed request connection messageId token).firstBlocks s.blockSize).setTimeout
      timeout).connection = some connection' := by
  have identity := (ExchangeData.firstBlocks_kept
    (s.completed request connection messageId token) s.blockSize).1
  exact ⟨connection, InternalRequest.connection_of_identity identity⟩

end Protocol

end QtCoap
