import Mathlib.Algebra.Group.Int.Defs
import QtCoap.Codec.Message

namespace QtCoap

/-- What the code does that has no defined result. -/
inductive Fault
  /-- `pduData[index]` behind the end of the frame. -/
  | frameRead (index : Nat)
  /-- The loop ran for more rounds than the frame has bytes. -/
  | rounds
  /-- `lastReplyForToken` on an exchange without stored replies, or on no exchange. -/
  | noReply
  /-- A user reply that is gone is dereferenced. -/
  | nullReply
  /-- The random values supplied are used up; the generator loop is still running. -/
  | moreDraws
  deriving DecidableEq, Repr

/-- `QCoapInternalMessagePrivate`. -/
structure InternalMessage where
  message : Message := {}
  currentBlockNumber : Nat := 0
  hasNextBlock : Bool := false
  blockSize : Nat := 0
  deriving DecidableEq, Repr

/-- `static_cast<int>` of a `uint`. -/
def toInt32 (n : Nat) : Int := if n % 2 ^ 32 < 2 ^ 31 then n % 2 ^ 32 else n % 2 ^ 32 - 2 ^ 32

theorem toInt32_of_lt {n : Nat} (small : n < 2 ^ 31) : toInt32 n = n := by
  have same : n % 2 ^ 32 = n := Nat.mod_eq_of_lt (by omega)
  simp only [toInt32]
  rw [same, if_pos small]
  omega

/-- `value.data()[value.size() - 1]`. For an empty value that is the byte in front of the
buffer all empty byte arrays share; `junk` stands for it. -/
def lastByte (junk : UInt8) (value : QByteArray) : UInt8 := value.getLast?.getD junk

/-- The NUM field as the code reads it, in `quint32` arithmetic. -/
def blockNumberOf (junk : UInt8) (value : QByteArray) : Nat :=
  let high := value.dropLast.foldl (fun n b => ((n <<< 8) ||| b.toNat) % 2 ^ 32) 0
  ((high <<< 4) ||| ((lastByte junk value).toNat >>> 4)) % 2 ^ 32

/-- The M field. -/
def moreFlagOf (junk : UInt8) (value : QByteArray) : Bool :=
  (lastByte junk value).toNat &&& 0x8 == 0x8

/-- The block size that the SZX field stands for. -/
def blockSizeOf (junk : UInt8) (value : QByteArray) : Nat :=
  1 <<< (((lastByte junk value).toNat &&& 0x7) + 4)

namespace InternalMessage

/-- `QCoapInternalMessage::setFromDescriptiveBlockOption`. -/
def setFromDescriptiveBlockOption (junk : UInt8) (m : InternalMessage) (option : CoapOption) :
    InternalMessage :=
  { m with
    currentBlockNumber := blockNumberOf junk option.value
    hasNextBlock := moreFlagOf junk option.value
    blockSize := blockSizeOf junk option.value }

/-- `QCoapInternalMessage::addOption`. -/
def addOption (m : InternalMessage) (option : CoapOption) : InternalMessage :=
  { m with message := m.message.addOption option }

end InternalMessage

/-- `QCoapInternalReplyPrivate` without the sender address, which decoding a frame leaves
alone. -/
structure InternalReply extends InternalMessage where
  responseCode : ResponseCode := ResponseCode.invalidCode
  deriving DecidableEq, Repr

namespace InternalReply

/-- `QCoapInternalReply::addOption`. -/
def addOption (junk : UInt8) (r : InternalReply) (option : CoapOption) : InternalReply :=
  let m := if option.name == OptionName.block2
    then r.toInternalMessage.setFromDescriptiveBlockOption junk option
    else r.toInternalMessage
  { r with toInternalMessage := m.addOption option }

@[simp] theorem addOption_message (junk : UInt8) (r : InternalReply) (o : CoapOption) :
    (r.addOption junk o).message = r.message.addOption o := by
  simp only [addOption, InternalMessage.addOption]
  split <;> rfl

@[simp] theorem addOption_responseCode (junk : UInt8) (r : InternalReply) (o : CoapOption) :
    (r.addOption junk o).responseCode = r.responseCode := rfl

/-- `QCoapInternalReply::nextBlockToSend`. -/
def nextBlockToSend (junk : UInt8) (r : InternalReply) : Int :=
  let option := r.message.option OptionName.block1
  if !option.isValid then -1
  else if !moreFlagOf junk option.value then -1
  else toInt32 (blockNumberOf junk option.value) + 1

/-- `QCoapInternalReply::hasMoreBlocksToSend`. -/
def hasMoreBlocksToSend (junk : UInt8) (r : InternalReply) : Bool :=
  0 ≤ r.nextBlockToSend junk

/-- `QCoapInternalMessage::hasMoreBlocksToReceive`. -/
def hasMoreBlocksToReceive (r : InternalReply) : Bool := r.hasNextBlock

end InternalReply

/-- `pduData[i]`, defined inside the frame only. -/
def byteAt (frame : QByteArray) (i : Nat) : Except Fault UInt8 :=
  match frame[i]? with
  | some b => .ok b
  | none => .error (.frameRead i)

def highNibble (b : UInt8) : Nat := (b.toNat >>> 4) &&& 0x0F

def lowNibble (b : UInt8) : Nat := b.toNat &&& 0x0F

/-- An option delta or length: its nibble, or one more byte when the nibble is 13 or 14.
Returns the cursor on the last byte used, and the value. -/
def extendedField (frame : QByteArray) (i nibble : Nat) : Except Fault (Nat × Nat) :=
  if nibble = 13 then
    match byteAt frame (i + 1) with
    | .ok b => .ok (i + 1, b.toNat + 13)
    | .error e => .error e
  else if nibble = 14 then
    match byteAt frame (i + 1) with
    | .ok b => .ok (i + 1, b.toNat + 269)
    | .error e => .error e
  else .ok (i, nibble)

/-- The loop "Parse Options". The cursor is an `int` and a datagram has fewer than 2^16
bytes, so it is a natural number here. `rounds` bounds the recursion. -/
def optionLoop (junk : UInt8) (frame : QByteArray) :
    Nat → Nat → Nat → InternalReply → Except Fault (Nat × InternalReply)
  | 0, _, _, _ => .error .rounds
  | rounds + 1, i, lastOptionNumber, r =>
    if i = frame.length then .ok (i, r)
    else match byteAt frame i with
      | .error e => .error e
      | .ok header =>
        if header = 0xFF then .ok (i, r)
        else match extendedField frame i (highNibble header) with
          | .error e => .error e
          | .ok (i, optionDelta) =>
            match extendedField frame i (lowNibble header) with
            | .error e => .error e
            | .ok (i, optionLength) =>
              let optionNumber := (lastOptionNumber + optionDelta) % 2 ^ 16
              optionLoop junk frame rounds (i + 1 + optionLength) optionNumber
                (r.addOption junk ⟨optionNumber, QByteArray.mid frame (i + 1) optionLength⟩)

/-- "Parse Header and Token", for a header whose four bytes are there. -/
def headerReply (frame : QByteArray) (b0 b1 b2 b3 : UInt8) : InternalReply :=
  { message :=
      { version := UInt8.ofNat ((b0.toNat >>> 6) &&& 0x03)
        type := MessageType.ofBits ((b0.toNat >>> 4) &&& 0x03)
        messageId := UInt16.ofNat ((b2.toNat <<< 8) ||| b3.toNat)
        token := QByteArray.mid frame 4 (lowNibble b0) }
    responseCode := b1 }

/-- Header, token and options: the reply so far and the cursor behind the option loop. -/
def parseOptions (junk : UInt8) (frame : QByteArray) : Except Fault (Nat × InternalReply) :=
  match byteAt frame 0, byteAt frame 1, byteAt frame 2, byteAt frame 3 with
  | .ok b0, .ok b1, .ok b2, .ok b3 =>
    optionLoop junk frame (frame.length + 1) (4 + lowNibble b0) 0
      (headerReply frame b0 b1 b2 b3)
  | .error e, _, _, _ => .error e
  | _, .error e, _, _ => .error e
  | _, _, .error e, _ => .error e
  | _, _, _, .error e => .error e

/-- "Parse Payload". -/
def parsePayload (frame : QByteArray) (i : Nat) (r : InternalReply) : InternalReply :=
  if frame[i]? = some 0xFF then
    let payload := r.message.payload ++ frame.drop (i + 1)
    { r with message := { r.message with payload := payload } }
  else r

/-- `QCoapInternalReply::createFromFrame`. -/
def createFromFrame (junk : UInt8) (frame : QByteArray) : Except Fault InternalReply :=
  match parseOptions junk frame with
  | .ok (i, r) => .ok (parsePayload frame i r)
  | .error e => .error e

end QtCoap
