import Mathlib.Algebra.Group.Int.Defs
import QtCoap.Codec.ToQByteArray
import QtCoap.Protocol.Platform

namespace QtCoap

abbrev Token := QByteArray

/-- `QCoapReply *` and `QCoapConnection *`, as the identity of what they point to. -/
abbrev ReplyId := Nat

abbrev ConnectionId := Nat

/-- `QTimer`: interval in milliseconds, and whether it is running. -/
structure Timer where
  interval : Int := 0
  active : Bool := false
  deriving DecidableEq, Repr

namespace Timer

def setInterval (t : Timer) (interval : Int) : Timer := { t with interval := interval }

/-- A timer with a negative interval is not started. -/
def start (t : Timer) : Timer := { t with active := decide (0 ≤ t.interval) }

def startWith (interval : Int) : Timer := start { interval := interval }
def stop (t : Timer) : Timer := { t with active := false }

theorem active_startWith (interval : Nat) : (startWith interval).active = true := by
  simp [startWith, start]

end Timer

/-- `QCoapInternalRequestPrivate`. The block fields it inherits are written for a Block1 option
and read nowhere; they are left out. -/
structure InternalRequest where
  message : Message := {}
  targetUri : Url := {}
  method : Method := Method.invalid
  connection : Option ConnectionId := none
  fullPayload : QByteArray := []
  timeout : Nat := 0
  retransmissionCounter : Nat := 0
  timeoutTimer : Timer := {}
  maxTransmitWaitTimer : Timer := {}
  multicastExpireTimer : Timer := {}
  observeCancelled : Bool := false
  transmissionInProgress : Bool := false
  deriving DecidableEq, Repr

/-- `optionData`, the block number, flag and size of a block option as one number. -/
def blockOptionData (name blockNumber blockSize fullSize : Nat) : Nat :=
  let szx :=
    if blockSize >>> 7 ≠ 0 then (if blockSize >>> 10 ≠ 0 then 6 else 3 + (blockSize >>> 8))
    else blockSize >>> 5
  let data := (blockNumber <<< 4) % 2 ^ 32 ||| szx
  if name = OptionName.block1 ∧ toInt32 ((blockNumber + 1) * blockSize) < fullSize then data ||| 8
  else data

/-- One to three bytes, the highest first. -/
def blockOptionValue (data : Nat) : QByteArray :=
  (if data > 0xFFFF then [UInt8.ofNat (data >>> 16)] else []) ++
    (if data > 0xFF then [UInt8.ofNat ((data >>> 8) &&& 0xFF)] else []) ++
    [UInt8.ofNat (data &&& 0xFF)]

namespace InternalRequest

variable (r : InternalRequest)

def token : Token := r.message.token

def setMessageId (id : UInt16) : InternalRequest :=
  { r with message := { r.message with messageId := id } }

def setToken (token : Token) : InternalRequest :=
  { r with message := { r.message with token := token } }

def setConnection (connection : ConnectionId) : InternalRequest :=
  { r with connection := some connection }

def setTimeout (timeout : Nat) : InternalRequest := { r with timeout := timeout }

def addOption (option : CoapOption) : InternalRequest :=
  { r with message := r.message.addOption option }

def removeOption (name : Nat) : InternalRequest :=
  { r with message := r.message.removeOption name }

/-- `initEmptyMessage`. -/
def initEmptyMessage (messageId : UInt16) (type : MessageType) : InternalRequest :=
  { r with
    method := Method.invalid
    message :=
      { r.message with
        type := type, messageId := messageId, token := [], payload := [], options := [] } }

def checkBlockNumber (blockNumber : Nat) : Bool := blockNumber >>> 20 == 0

/-- `blockOption`. Its assertions are not compiled into a release build. -/
def blockOption (name blockNumber blockSize : Nat) : CoapOption :=
  ⟨name, blockOptionValue (blockOptionData name blockNumber blockSize r.fullPayload.length)⟩

/-- `setToRequestBlock`. -/
def setToRequestBlock (blockNumber blockSize : Nat) : InternalRequest :=
  if !checkBlockNumber blockNumber then r
  else
    ((r.removeOption OptionName.block1).removeOption OptionName.block2).addOption
      (r.blockOption OptionName.block2 blockNumber blockSize)

/-- `setToSendBlock`. Number and size are below 2^20 and 2^11 here, so that the position does
not wrap. -/
def setToSendBlock (blockNumber blockSize : Nat) : InternalRequest :=
  if !checkBlockNumber blockNumber then r
  else
    let payload := QByteArray.mid r.fullPayload (blockNumber * blockSize) blockSize
    let r := { r with message := { r.message with payload := payload } }
    (r.removeOption OptionName.block1).addOption
      (r.blockOption OptionName.block1 blockNumber blockSize)

def isObserve : Bool := r.message.hasOption OptionName.observe

def setObserveCancelled : InternalRequest := { r with observeCancelled := true }

/-- `restartTransmission`. -/
def restartTransmission : InternalRequest :=
  let r :=
    if !r.transmissionInProgress then
      { r with
        transmissionInProgress := true
        maxTransmitWaitTimer := r.maxTransmitWaitTimer.start }
    else
      { r with
        retransmissionCounter := (r.retransmissionCounter + 1) % 2 ^ 32
        timeout := (r.timeout * 2) % 2 ^ 32 }
  if 0 < r.timeout then { r with timeoutTimer := Timer.startWith (toInt32 r.timeout) } else r

def startMulticastTransmission : InternalRequest :=
  { r with multicastExpireTimer := r.multicastExpireTimer.start }

section Addresses

variable (Addr : Type) [Platform Addr]

def isMulticast : Bool :=
  Platform.isMulticast (Platform.ofHost r.targetUri.host : Addr)

/-- `stopTransmission`. -/
def stopTransmission : InternalRequest :=
  if r.isMulticast Addr then { r with multicastExpireTimer := r.multicastExpireTimer.stop }
  else
    { r with
      transmissionInProgress := false
      retransmissionCounter := 0
      maxTransmitWaitTimer := r.maxTransmitWaitTimer.stop
      timeoutTimer := r.timeoutTimer.stop }

/-- What `QCoapProtocolPrivate::sendRequest` does to the timers of a request it sends. -/
def startTransmission : InternalRequest :=
  if r.isMulticast Addr then r.startMulticastTransmission else r.restartTransmission

/-- `uriHostOption`: none for an address. -/
def uriHostOption (uri : Url) : CoapOption :=
  if Platform.isNull (Platform.ofHost uri.host : Addr)
  then CoapOption.ofString OptionName.uriHost uri.host
  else {}

/-- The non-empty parts of a text, each as an option. -/
def addParts (r : InternalRequest) (name : Nat) (parts : List QString) : InternalRequest :=
  (parts.filter (fun part => !part.isEmpty)).foldl
    (fun r part => r.addOption (CoapOption.ofString name part)) r

/-- `addUriOptions`. -/
def addUriOptions (uri proxyUri : Url) : InternalRequest :=
  let r := { r with targetUri := {} }
  if !proxyUri.isEmpty then
    if !isUrlValid proxyUri then r
    else
      { r.addOption (CoapOption.ofString OptionName.proxyUri proxyUri.toString) with
        targetUri := proxyUri }
  else
    let uri := uri.normalizePathSegments
    if !isUrlValid uri || !uri.toString.all (·.toNat < 128) then r
    else
      let uriHost := uriHostOption Addr uri
      let r := if uriHost.isValid then r.addOption uriHost else r
      let r :=
        if uri.port ≠ 5683 ∧ uri.port ≠ 5684
        then r.addOption (CoapOption.ofUint OptionName.uriPort (UInt32.ofInt uri.port))
        else r
      let r := r.addParts OptionName.uriPath (uri.path.splitOn '/')
      let r := r.addParts OptionName.uriQuery (uri.query.splitOn '&')
      { r with targetUri := uri }

/-- `QCoapInternalRequest(const QCoapRequest &, QObject *)`. -/
def ofRequest (request : Request) : InternalRequest :=
  let r : InternalRequest :=
    { message := request.message
      method := request.method
      fullPayload := request.message.payload }
  r.addUriOptions Addr request.uri request.proxyUri

end Addresses

/-- What a request keeps from its registration on. -/
structure Identity where
  token : Token
  type : MessageType
  targetUri : Url
  method : Method
  connection : Option ConnectionId
  fullPayload : QByteArray

def identity : Identity where
  token := r.token
  type := r.message.type
  targetUri := r.targetUri
  method := r.method
  connection := r.connection
  fullPayload := r.fullPayload

section Kept

variable (Addr : Type) [Platform Addr]

@[simp] theorem identity_setMessageId (id : UInt16) :
    (r.setMessageId id).identity = r.identity := rfl

@[simp] theorem identity_addOption (o : CoapOption) : (r.addOption o).identity = r.identity := rfl

@[simp] theorem identity_removeOption (name : Nat) :
    (r.removeOption name).identity = r.identity := rfl

@[simp] theorem identity_setToRequestBlock (number size : Nat) :
    (r.setToRequestBlock number size).identity = r.identity := by
  simp only [setToRequestBlock]
  split_ifs <;> rfl

@[simp] theorem identity_setToSendBlock (number size : Nat) :
    (r.setToSendBlock number size).identity = r.identity := by
  simp only [setToSendBlock]
  split_ifs <;> rfl

@[simp] theorem messageId_setToRequestBlock (number size : Nat) :
    (r.setToRequestBlock number size).message.messageId = r.message.messageId := by
  simp only [setToRequestBlock]
  split_ifs <;> rfl

@[simp] theorem messageId_setToSendBlock (number size : Nat) :
    (r.setToSendBlock number size).message.messageId = r.message.messageId := by
  simp only [setToSendBlock]
  split_ifs <;> rfl

@[simp] theorem observeCancelled_setToRequestBlock (number size : Nat) :
    (r.setToRequestBlock number size).observeCancelled = r.observeCancelled := by
  simp only [setToRequestBlock]
  split_ifs <;> rfl

@[simp] theorem observeCancelled_setToSendBlock (number size : Nat) :
    (r.setToSendBlock number size).observeCancelled = r.observeCancelled := by
  simp only [setToSendBlock]
  split_ifs <;> rfl

@[simp] theorem identity_setObserveCancelled : r.setObserveCancelled.identity = r.identity := rfl

@[simp] theorem message_restartTransmission : r.restartTransmission.message = r.message := by
  simp only [restartTransmission]
  split_ifs <;> rfl

@[simp] theorem identity_restartTransmission : r.restartTransmission.identity = r.identity := by
  simp only [restartTransmission]
  split_ifs <;> rfl

@[simp] theorem observeCancelled_restartTransmission :
    r.restartTransmission.observeCancelled = r.observeCancelled := by
  simp only [restartTransmission]
  split_ifs <;> rfl

@[simp] theorem message_startTransmission : (r.startTransmission Addr).message = r.message := by
  simp only [startTransmission]
  split_ifs
  · rfl
  · exact r.message_restartTransmission

@[simp] theorem identity_startTransmission : (r.startTransmission Addr).identity = r.identity := by
  simp only [startTransmission]
  split_ifs
  · rfl
  · exact r.identity_restartTransmission

@[simp] theorem observeCancelled_startTransmission :
    (r.startTransmission Addr).observeCancelled = r.observeCancelled := by
  simp only [startTransmission]
  split_ifs
  · rfl
  · exact r.observeCancelled_restartTransmission

@[simp] theorem message_stopTransmission : (r.stopTransmission Addr).message = r.message := by
  simp only [stopTransmission]
  split_ifs <;> rfl

@[simp] theorem identity_stopTransmission : (r.stopTransmission Addr).identity = r.identity := by
  simp only [stopTransmission]
  split_ifs <;> rfl

@[simp] theorem observeCancelled_stopTransmission :
    (r.stopTransmission Addr).observeCancelled = r.observeCancelled := by
  simp only [stopTransmission]
  split_ifs <;> rfl

theorem addParts_kept (name : Nat) (parts : List QString) :
    ∃ options, r.addParts name parts =
      { r with message := { r.message with options := options } } := by
  simp only [addParts]
  generalize parts.filter (fun part => !part.isEmpty) = parts
  induction parts generalizing r with
  | nil => exact ⟨r.message.options, rfl⟩
  | cons part parts ih =>
    obtain ⟨options, hr⟩ := ih (r.addOption (CoapOption.ofString name part))
    exact ⟨options, hr⟩

/-- `addUriOptions` sets the target and adds options. -/
theorem addUriOptions_kept (uri proxyUri : Url) :
    ∃ target options, r.addUriOptions Addr uri proxyUri =
      { r with targetUri := target, message := { r.message with options := options } } := by
  simp only [addUriOptions]
  split_ifs
  all_goals first
    | exact ⟨_, _, rfl⟩
    | skip
  all_goals
    generalize hq : addParts _ OptionName.uriPath _ = q
    obtain ⟨options, hp⟩ := addParts_kept q OptionName.uriQuery
      (uri.normalizePathSegments.query.splitOn '&')
    obtain ⟨options', hp'⟩ := addParts_kept _ OptionName.uriPath
      (uri.normalizePathSegments.path.splitOn '/')
    rw [hp, ← hq, hp']
    exact ⟨_, _, rfl⟩

variable {r}

theorem token_of_identity {q : InternalRequest} (h : q.identity = r.identity) :
    q.token = r.token := congrArg Identity.token h

theorem type_of_identity {q : InternalRequest} (h : q.identity = r.identity) :
    q.message.type = r.message.type := congrArg Identity.type h

theorem targetUri_of_identity {q : InternalRequest} (h : q.identity = r.identity) :
    q.targetUri = r.targetUri := congrArg Identity.targetUri h

theorem method_of_identity {q : InternalRequest} (h : q.identity = r.identity) :
    q.method = r.method := congrArg Identity.method h

theorem connection_of_identity {q : InternalRequest} (h : q.identity = r.identity) :
    q.connection = r.connection := congrArg Identity.connection h

/-- `ofRequest` keeps message, method and payload of what it is made from, but for options. -/
theorem ofRequest_kept (request : Request) :
    ∃ target options, ofRequest Addr request =
      { targetUri := target
        message := { request.message with options := options }
        method := request.method
        fullPayload := request.message.payload } :=
  addUriOptions_kept _ Addr request.uri request.proxyUri

theorem isMulticast_of_identity {q : InternalRequest} (h : q.identity = r.identity) :
    q.isMulticast Addr = r.isMulticast Addr := by
  simp only [isMulticast]
  rw [targetUri_of_identity h]

end Kept

end InternalRequest

end QtCoap
