import Mathlib.Data.List.Lex
import Mathlib.Algebra.Order.Field.Rat
import QtCoap.Framework.OrderedMap
import QtCoap.Protocol.InternalRequest

namespace QtCoap

instance uint8LinearOrder : LinearOrder UInt8 where
  le_refl := UInt8.le_refl
  le_trans _ _ _ := UInt8.le_trans
  le_antisymm _ _ := UInt8.le_antisymm
  le_total := UInt8.le_total
  lt_iff_le_not_ge a b := by
    simp only [UInt8.lt_iff_toNat_lt, UInt8.le_iff_toNat_le]
    omega
  toDecidableLE := inferInstance
  toDecidableEq := inferInstance
  toDecidableLT := inferInstance

/-- `QtCoap::Error`. -/
inductive Error
  | ok | hostNotFound | addressInUse | timeOut
  | badRequest | unauthorized | badOption | forbidden | notFound | methodNotAllowed
  | notAcceptable | requestEntityIncomplete | preconditionFailed | requestEntityTooLarge
  | unsupportedContentFormat | internalServerFault | notImplemented | badGateway
  | serviceUnavailable | gatewayTimeout | proxyingNotSupported | unknown
  deriving DecidableEq, Repr

/-- `QAbstractSocket::SocketError`. -/
inductive SocketError
  | connectionRefused | remoteHostClosed | hostNotFound | socketAccess | socketResource
  | socketTimeout | datagramTooLarge | network | addressInUse | socketAddressNotAvailable
  | unsupportedSocketOperation | proxyAuthenticationRequired | sslHandshakeFailed
  | unfinishedSocketOperation | proxyConnectionRefused | proxyConnectionClosed
  | proxyConnectionTimeout | proxyNotFound | proxyProtocol | operation | sslInternal
  | sslInvalidUserData | temporary | unknownSocket
  deriving DecidableEq, Repr

/-- `QtCoap::isError`. -/
def isError (code : ResponseCode) : Bool := 0x80 ≤ code.toNat

/-- A response code of the class 2.xx. -/
def isSuccess (code : ResponseCode) : Bool := 0x40 ≤ code.toNat && code.toNat ≤ 0x5F

theorem not_isError_of_isSuccess {code : ResponseCode} (h : isSuccess code = true) :
    isError code = false := by
  simp only [isSuccess, isError] at *
  simp only [Bool.and_eq_true, decide_eq_true_eq, decide_eq_false_iff_not] at *
  omega

/-- `QtCoap::errorForResponseCode`. -/
def errorForResponseCode (code : ResponseCode) : Error :=
  if !isError code then .ok
  else
    match code with
    | 0x80 => .badRequest
    | 0x81 => .unauthorized
    | 0x82 => .badOption
    | 0x83 => .forbidden
    | 0x84 => .notFound
    | 0x85 => .methodNotAllowed
    | 0x86 => .notAcceptable
    | 0x88 => .requestEntityIncomplete
    | 0x8C => .preconditionFailed
    | 0x8D => .requestEntityTooLarge
    | 0x8E => .unsupportedContentFormat
    | 0xA0 => .internalServerFault
    | 0xA1 => .notImplemented
    | 0xA2 => .badGateway
    | 0xA3 => .serviceUnavailable
    | 0xA4 => .gatewayTimeout
    | 0xA5 => .proxyingNotSupported
    | _ => .unknown

/-- `QCoapInternalReply` with the address it came from. -/
structure ReceivedReply (Addr : Type) extends InternalReply where
  senderAddress : Addr

/-- `CoapExchangeData`. A user reply that has been destroyed leaves a null pointer. -/
structure ExchangeData (Addr : Type) where
  userReply : Option ReplyId
  request : InternalRequest
  replies : List (ReceivedReply Addr) := []

/-- The slots of `QCoapReply` the protocol invokes, all of them queued. -/
inductive Slot (Addr : Type)
  | setRunning (token : Token) (messageId : UInt16)
  | setContent (sender : Addr) (message : Message) (code : ResponseCode)
  | setNotified
  | setObserveCancelled
  | setFinished (error : Error)
  | setError (error : Error)

/-- What a step hands to the outside: frames to the connection, slot calls to the event queue
of user replies, and signals. -/
inductive Output (Addr : Type)
  | frame (message : Message) (method : Method) (connection : ConnectionId) (host : QString)
      (port : UInt16)
  | post (reply : ReplyId) (slot : Slot Addr)
  | responseToMulticastReceived (reply : ReplyId) (message : Message) (sender : Addr)
  | error (reply : Option ReplyId) (error : Error)

/-- `QCoapProtocolPrivate`. -/
structure Protocol (Addr : Type) where
  exchangeMap : Framework.OrderedMap Token (ExchangeData Addr) := .empty
  blockSize : Nat := 0
  maximumRetransmitCount : Nat := 4
  ackTimeout : Nat := 2000
  maximumServerResponseDelay : Nat := 250 * 1000
  minimumTokenSize : Nat := 4
  ackRandomFactor : ℚ := 3 / 2

/-- The values a step takes from the random generator. -/
abbrev Draws := List Nat

/-- `QRandomGenerator::bounded(low, high)`. -/
def bounded (low high : Nat) : Draws → Except Fault (Nat × Draws)
  | [] => .error .moreDraws
  | d :: draws => .ok (low + d % (high - low), draws)

/-- The loop of `generateUniqueMessageId`. -/
def messageIdLoop (registered : UInt16 → Bool) (id : UInt16) :
    Draws → Except Fault (UInt16 × Draws)
  | [] => if registered id then .error .moreDraws else .ok (id, [])
  | d :: draws =>
    if registered id then messageIdLoop registered (UInt16.ofNat (d % 0x10000)) draws
    else .ok (id, d :: draws)

def drawBytes : Nat → Draws → Except Fault (QByteArray × Draws)
  | 0, draws => .ok ([], draws)
  | n + 1, draws =>
    match bounded 0 256 draws with
    | .error e => .error e
    | .ok (b, draws) =>
      match drawBytes n draws with
      | .error e => .error e
      | .ok (bytes, draws) => .ok (UInt8.ofNat b :: bytes, draws)

/-- The loop of `generateUniqueToken`. Every round takes a value, which bounds the recursion. -/
def tokenLoop (registered : Token → Bool) (minimumTokenSize : Nat) (token : Token) :
    Nat → Draws → Except Fault (Token × Draws)
  | 0, _ => .error .moreDraws
  | rounds + 1, draws =>
    if !registered token then .ok (token, draws)
    else
      match bounded minimumTokenSize 9 draws with
      | .error e => .error e
      | .ok (length, draws) =>
        match drawBytes length draws with
        | .error e => .error e
        | .ok (token, draws) => tokenLoop registered minimumTokenSize token rounds draws

theorem messageIdLoop_ok {registered : UInt16 → Bool} {id id' : UInt16} {draws draws' : Draws}
    (h : messageIdLoop registered id draws = .ok (id', draws')) : registered id' = false := by
  induction draws generalizing id with
  | nil =>
    unfold messageIdLoop at h
    split_ifs at h with hid
    obtain ⟨rfl, -⟩ : id = id' ∧ _ := by simpa using h
    simpa using hid
  | cons d draws ih =>
    unfold messageIdLoop at h
    split_ifs at h with hid
    · exact ih h
    · obtain ⟨rfl, -⟩ : id = id' ∧ _ := by simpa using h
      simpa using hid

theorem tokenLoop_ok {registered : Token → Bool} {size rounds : Nat} {token token' : Token}
    {draws draws' : Draws}
    (h : tokenLoop registered size token rounds draws = .ok (token', draws')) :
    registered token' = false := by
  induction rounds generalizing token draws with
  | zero => cases h
  | succ n ih =>
    unfold tokenLoop at h
    split_ifs at h with hid
    · obtain ⟨rfl, -⟩ : token = token' ∧ _ := by simpa using h
      simpa using hid
    · cases hb : bounded size 9 draws with
      | error e => simp [hb] at h
      | ok length =>
        simp only [hb] at h
        cases hd : drawBytes length.1 length.2 with
        | error e => simp [hd] at h
        | ok next =>
          simp only [hd] at h
          exact ih h

/-! The generators fail for want of random values only. -/

theorem bounded_error {low high : Nat} {draws : Draws} {f : Fault}
    (h : bounded low high draws = .error f) : f = .moreDraws := by
  cases draws with
  | nil => exact (Except.error.inj h).symm
  | cons d draws => cases h

theorem messageIdLoop_error {registered : UInt16 → Bool} {id : UInt16} {draws : Draws} {f : Fault}
    (h : messageIdLoop registered id draws = .error f) : f = .moreDraws := by
  induction draws generalizing id with
  | nil =>
    unfold messageIdLoop at h
    split_ifs at h
    exact (Except.error.inj h).symm
  | cons d draws ih =>
    unfold messageIdLoop at h
    split_ifs at h
    exact ih h

theorem drawBytes_error {n : Nat} {draws : Draws} {f : Fault}
    (h : drawBytes n draws = .error f) : f = .moreDraws := by
  induction n generalizing draws with
  | zero => cases h
  | succ n ih =>
    unfold drawBytes at h
    cases hb : bounded 0 256 draws with
    | error e =>
      rw [hb] at h
      exact (Except.error.inj h) ▸ bounded_error hb
    | ok drawn =>
      simp only [hb] at h
      cases hd : drawBytes n drawn.2 with
      | error e =>
        rw [hd] at h
        obtain rfl := Except.error.inj h
        exact ih hd
      | ok bytes => simp [hd] at h

theorem tokenLoop_error {registered : Token → Bool} {size rounds : Nat} {token : Token}
    {draws : Draws} {f : Fault} (h : tokenLoop registered size token rounds draws = .error f) :
    f = .moreDraws := by
  induction rounds generalizing token draws with
  | zero => exact (Except.error.inj h).symm
  | succ n ih =>
    unfold tokenLoop at h
    split_ifs at h
    cases hb : bounded size 9 draws with
    | error e =>
      rw [hb] at h
      exact (Except.error.inj h) ▸ bounded_error hb
    | ok length =>
      simp only [hb] at h
      cases hd : drawBytes length.1 length.2 with
      | error e =>
        rw [hd] at h
        exact (Except.error.inj h) ▸ drawBytes_error hd
      | ok next =>
        simp only [hd] at h
        exact ih h

namespace Protocol

variable {Addr : Type} (s : Protocol Addr)

/-- `userReplyForToken`. -/
def userReplyForToken (token : Token) : Option ReplyId :=
  (s.exchangeMap.find? token).bind (·.userReply)

/-- `repliesForToken`. -/
def repliesForToken (token : Token) : List (ReceivedReply Addr) :=
  ((s.exchangeMap.find? token).map (·.replies)).getD []

/-- `lastReplyForToken`. Without an exchange it returns a null pointer, which its callers
dereference; without a stored reply it takes the last of an empty list. -/
def lastReplyForToken (token : Token) : Except Fault (ReceivedReply Addr) :=
  match s.exchangeMap.find? token with
  | none => .error .noReply
  | some e =>
    match e.replies.getLast? with
    | none => .error .noReply
    | some reply => .ok reply

/-- `findRequestByMessageId`; the request is returned as the key it is stored under. -/
def findRequestByMessageId (messageId : UInt16) : Option Token :=
  s.exchangeMap.findKey? (fun e => e.request.message.messageId == messageId)

/-- `isTokenRegistered`. -/
def isTokenRegistered (token : Token) : Bool := token.isEmpty || s.exchangeMap.contains token

/-- `isMessageIdRegistered`. -/
def isMessageIdRegistered (id : UInt16) : Bool :=
  id == 0 || s.exchangeMap.any (fun e => e.request.message.messageId == id)

/-- `generateUniqueMessageId`. -/
def generateUniqueMessageId (draws : Draws) : Except Fault (UInt16 × Draws) :=
  messageIdLoop s.isMessageIdRegistered 0 draws

/-- `generateUniqueToken`. -/
def generateUniqueToken (draws : Draws) : Except Fault (Token × Draws) :=
  tokenLoop s.isTokenRegistered s.minimumTokenSize [] (draws.length + 1) draws

/-- `registerExchange`. -/
def registerExchange (token : Token) (reply : ReplyId) (request : InternalRequest) :
    Protocol Addr :=
  { s with
    exchangeMap := s.exchangeMap.insert token { userReply := some reply, request := request } }

/-- `addReply`. -/
def addReply (token : Token) (reply : ReceivedReply Addr) : Protocol Addr :=
  if !s.isTokenRegistered token then s
  else
    { s with
      exchangeMap :=
        s.exchangeMap.modify token (fun e => { e with replies := e.replies ++ [reply] }) }

/-- `forgetExchange(const QCoapToken &)`. -/
def forgetExchange (token : Token) : Protocol Addr :=
  { s with exchangeMap := s.exchangeMap.erase token }

/-- `forgetExchangeReplies`. -/
def forgetExchangeReplies (token : Token) : Protocol Addr :=
  { s with exchangeMap := s.exchangeMap.modify token (fun e => { e with replies := [] }) }

/-- A change made through a pointer to the request stored under `key`. -/
def updateRequest (key : Token) (f : InternalRequest → InternalRequest) : Protocol Addr :=
  { s with exchangeMap := s.exchangeMap.modify key (fun e => { e with request := f e.request }) }

/-- `uint` times `uint` times `double`, cast to `uint`. -/
def scaled (timeout count : Nat) : Nat :=
  (((timeout * count % 2 ^ 32 : Nat) : ℚ) * s.ackRandomFactor).floor.toNat % 2 ^ 32

/-- `maximumTransmitSpan`. -/
def maximumTransmitSpan : Nat := s.scaled s.ackTimeout (2 ^ s.maximumRetransmitCount - 1)

/-- `maximumTransmitWait`. -/
def maximumTransmitWait : Nat := s.scaled s.ackTimeout (2 ^ (s.maximumRetransmitCount + 1) - 1)

/-- `maximumLatency`. -/
def maximumLatency : Nat := 100 * 1000

/-- `minimumTimeout`. -/
def minimumTimeout : Nat := s.ackTimeout

/-- `maximumTimeout`. -/
def maximumTimeout : Nat := s.scaled s.ackTimeout 1

/-- `nonConfirmLifetime`. -/
def nonConfirmLifetime : Nat := (s.maximumTransmitSpan + maximumLatency) % 2 ^ 32

/-- `setAckTimeout`. -/
def setAckTimeout (ackTimeout : Nat) : Protocol Addr := { s with ackTimeout := ackTimeout }

/-- `setAckRandomFactor`. -/
def setAckRandomFactor (factor : ℚ) : Protocol Addr := { s with ackRandomFactor := max 1 factor }

/-- `setMaximumRetransmitCount`. -/
def setMaximumRetransmitCount (count : Nat) : Protocol Addr :=
  { s with maximumRetransmitCount := if 25 < count then 25 else count }

/-- `setBlockSize`. -/
def setBlockSize (blockSize : UInt16) : Protocol Addr :=
  let size := blockSize.toNat
  if size &&& (size - 1) ≠ 0 then s
  else if size ≠ 0 ∧ (size < 16 ∨ 1024 < size) then s
  else { s with blockSize := size }

/-- `setMaximumServerResponseDelay`. -/
def setMaximumServerResponseDelay (delay : Nat) : Protocol Addr :=
  { s with maximumServerResponseDelay := delay }

/-- `setMinimumTokenSize`. -/
def setMinimumTokenSize (size : Int) : Protocol Addr :=
  if 0 < size ∧ size ≤ 8 then { s with minimumTokenSize := size.toNat } else s

end Protocol

end QtCoap
