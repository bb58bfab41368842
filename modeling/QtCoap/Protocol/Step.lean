import QtCoap.Framework.Runs
import QtCoap.Protocol.Handlers

namespace QtCoap

/-- What the protocol thread can be asked to handle next. Requests whose timers fire are named by
the key they are stored under. -/
inductive Event (Addr : Type)
  | sendRequest (reply : Option ReplyId) (request : Request) (connection : ConnectionId)
      (draws : Draws)
  | frameReceived (data : QByteArray) (sender : Addr) (draws : Draws)
  | timeout (key : Token)
  | maxTransmissionSpanReached (key : Token)
  | multicastRequestExpired (key : Token)
  | aborted (reply : ReplyId) (token : Token)
  | cancelObserve (reply : Option ReplyId) (token : Token)
  | cancelObserveUrl (url : Url) (view : ReplyId → Url × Token)
  | replyDestroyed (reply : ReplyId)
  | connectionError (socketError : SocketError)
  | setAckTimeout (ackTimeout : Nat)
  | setAckRandomFactor (factor : ℚ)
  | setMaximumRetransmitCount (count : Nat)
  | setBlockSize (blockSize : UInt16)
  | setMaximumServerResponseDelay (delay : Nat)
  | setMinimumTokenSize (size : Int)

namespace Protocol

variable {Addr : Type} [Platform Addr]

/-- A timer fires only while it is running. -/
def timerRuns (s : Protocol Addr) (key : Token) (timer : InternalRequest → Timer) : Bool :=
  (s.exchangeMap.find? key).any (fun e => (timer e.request).active)

def enabled (s : Protocol Addr) : Event Addr → Bool
  | .timeout key => s.timerRuns key (·.timeoutTimer)
  | .maxTransmissionSpanReached key => s.timerRuns key (·.maxTransmitWaitTimer)
  | .multicastRequestExpired key => s.timerRuns key (·.multicastExpireTimer)
  | _ => true

def step (s : Protocol Addr) : Event Addr → Except Fault (Protocol Addr × List (Output Addr))
  | .sendRequest reply request connection draws => s.sendRequest reply request connection draws
  | .frameReceived data sender draws => s.onFrameReceived data sender draws
  | .timeout key => .ok (s.onRequestTimeout key)
  | .maxTransmissionSpanReached key => .ok (s.onRequestMaxTransmissionSpanReached key)
  | .multicastRequestExpired key => .ok (s.onMulticastRequestExpired key)
  | .aborted _ token => .ok (s.onRequestAborted token, [])
  | .cancelObserve reply token => .ok (s.cancelObserve reply token)
  | .cancelObserveUrl url view => s.cancelObserveUrl url view
  | .replyDestroyed reply => .ok (s.replyDestroyed reply, [])
  | .connectionError socketError => .ok (s.onConnectionError socketError)
  | .setAckTimeout ackTimeout => .ok (s.setAckTimeout ackTimeout, [])
  | .setAckRandomFactor factor => .ok (s.setAckRandomFactor factor, [])
  | .setMaximumRetransmitCount count => .ok (s.setMaximumRetransmitCount count, [])
  | .setBlockSize blockSize => .ok (s.setBlockSize blockSize, [])
  | .setMaximumServerResponseDelay delay => .ok (s.setMaximumServerResponseDelay delay, [])
  | .setMinimumTokenSize size => .ok (s.setMinimumTokenSize size, [])

/-- One event handled to its end. An event whose handling runs into a fault has no successor. -/
def Step (s : Protocol Addr) (e : Event Addr) (outputs : List (Output Addr))
    (t : Protocol Addr) : Prop :=
  s.enabled e = true ∧ s.step e = .ok (t, outputs)

def Reachable (s : Protocol Addr) : Prop := Framework.Reachable (· = {}) Step s

/-- The step that is taken, if there is one. -/
def handle (s : Protocol Addr) (e : Event Addr) : Option (Protocol Addr × List (Output Addr)) :=
  if s.enabled e then
    match s.step e with
    | .ok result => some result
    | .error _ => none
  else none

theorem step_of_handle {s t : Protocol Addr} {e : Event Addr} {os : List (Output Addr)}
    (h : s.handle e = some (t, os)) : Step s e os t := by
  unfold handle at h
  split_ifs at h with enabled
  cases result : s.step e with
  | error f => simp [result] at h
  | ok r =>
    rw [result] at h
    exact ⟨enabled, result.trans (congrArg _ (Option.some.inj h))⟩

theorem handle_of_step {s t : Protocol Addr} {e : Event Addr} {os : List (Output Addr)}
    (h : Step s e os t) : s.handle e = some (t, os) := by
  simp only [handle]
  rw [if_pos h.1, h.2]

/-- The state after the given events, from the start on. -/
def after (events : List (Event Addr)) : Protocol Addr :=
  ((Framework.execute handle {} events).map Prod.snd).getD {}

theorem reachable_after (events : List (Event Addr)) : Reachable (after events) := by
  simp only [after]
  cases h : Framework.execute handle {} events with
  | none => exact ⟨{}, [], rfl, .nil⟩
  | some result => exact ⟨{}, result.1, rfl, Framework.run_of_execute step_of_handle h⟩

end Protocol

/-- A Confirmable GET request to 10.0.0.1; an empty token leaves the choice to the protocol. -/
def getRequest (token : Token) : Request where
  message := { type := .confirmable, token := token }
  uri := { scheme := coapScheme, host := "10.0.0.1".toList, port := 5683, path := "/r".toList }
  method := Method.get

def serverAddress : IPv4Address := some (10, 0, 0, 1)

end QtCoap
