import QtCoap.Protocol.State

namespace QtCoap

/-- The signals of a `QCoapReply`. -/
inductive Signal
  | finished
  | notified (message : Message)
  | error (error : Error)
  | aborted (token : Token)
  deriving DecidableEq, Repr

/-- `QCoapReplyPrivate`. -/
structure Reply where
  request : Request
  message : Message := {}
  responseCode : ResponseCode := ResponseCode.invalidCode
  error : Error := .ok
  isRunning : Bool := false
  isFinished : Bool := false
  isAborted : Bool := false
  deriving DecidableEq, Repr

namespace Reply

variable (r : Reply)

/-- `QCoapReply::isFinished`. -/
def isFinishedOrAborted : Bool := r.isFinished || r.isAborted

/-- `QCoapReply::isSuccessful`. -/
def isSuccessful : Bool := r.isFinished && !isError r.responseCode && r.error == .ok

/-- `_q_setRunning`. -/
def setRunning (token : Token) (messageId : UInt16) : Reply :=
  let message := { r.request.message with token := token, messageId := messageId }
  { r with request := { r.request with message := message }, isRunning := true }

/-- `_q_setError`. -/
def setError (error : Error) : Reply × List Signal :=
  if r.error = error then (r, []) else ({ r with error := error }, [.error error])

/-- `_q_setContent`. -/
def setContent (message : Message) (code : ResponseCode) : Reply × List Signal :=
  if r.isFinishedOrAborted then (r, [])
  else
    let r := { r with message := message, responseCode := code }
    if isError code then r.setError (errorForResponseCode code) else (r, [])

/-- `_q_setNotified`. -/
def setNotified : Reply × List Signal :=
  if r.isFinishedOrAborted then (r, []) else (r, [.notified r.message])

/-- `_q_setObserveCancelled`. -/
def setObserveCancelled : Reply × List Signal :=
  ({ r with isFinished := true, isRunning := false },
    if r.isFinishedOrAborted then [] else [.finished])

/-- `_q_setFinished`. -/
def setFinished (error : Error) : Reply × List Signal :=
  if r.isFinishedOrAborted then (r, [])
  else
    let r := { r with isFinished := true, isRunning := false }
    let (r, signals) := if error ≠ .ok then r.setError error else (r, [])
    (r, signals ++ [.finished])

/-- `abortRequest`. -/
def abortRequest : Reply × List Signal :=
  if r.isFinishedOrAborted then (r, [])
  else
    ({ r with isAborted := true, isFinished := true, isRunning := false },
      [.aborted r.request.message.token, .finished])

/-- The slot calls of the protocol. -/
def handle {Addr : Type} : Slot Addr → Reply × List Signal
  | .setRunning token messageId => (r.setRunning token messageId, [])
  | .setContent _ message code => r.setContent message code
  | .setNotified => r.setNotified
  | .setObserveCancelled => r.setObserveCancelled
  | .setFinished error => r.setFinished error
  | .setError error => r.setError error

@[simp] theorem responseCode_setError (error : Error) :
    (r.setError error).1.responseCode = r.responseCode := by
  simp only [setError]
  split_ifs <;> rfl

@[simp] theorem responseCode_abortRequest : r.abortRequest.1.responseCode = r.responseCode := by
  simp only [abortRequest]
  split_ifs <;> rfl

/-- The response code changes with the content only. -/
theorem responseCode_handle {Addr : Type} (slot : Slot Addr) :
    (r.handle slot).1.responseCode = r.responseCode ∨
      ∃ sender message, slot = .setContent sender message (r.handle slot).1.responseCode := by
  cases slot with
  | setRunning token messageId => exact .inl rfl
  | setContent sender message code =>
    simp only [handle, setContent]
    split_ifs
    · exact .inl rfl
    · exact .inr ⟨sender, message, by simp⟩
    · exact .inr ⟨sender, message, rfl⟩
  | setNotified =>
    simp only [handle, setNotified]
    split_ifs <;> exact .inl rfl
  | setObserveCancelled => exact .inl rfl
  | setFinished error =>
    simp only [handle, setFinished]
    split_ifs <;> simp
  | setError error => exact .inl (r.responseCode_setError error)

end Reply

end QtCoap
