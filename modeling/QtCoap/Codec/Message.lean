import Mathlib.Algebra.Ring.Nat
import QtCoap.Framework.SortedInsert

namespace QtCoap

abbrev QByteArray := List UInt8
abbrev QString := List Char

/-- `QString::toUtf8`. -/
def QString.toUtf8 (s : QString) : QByteArray := s.flatMap String.utf8EncodeChar

theorem QString.toUtf8_injective : Function.Injective QString.toUtf8 := by
  intro s t h
  have bytes : s.utf8Encode = t.utf8Encode := congrArg List.toByteArray h
  have texts : String.ofList s = String.ofList t := String.toByteArray_inj.mp (by simpa using bytes)
  exact String.ofList_injective texts

/-- `QByteArray::mid`: a position behind the end gives nothing, a length that is too long is cut. -/
def QByteArray.mid (a : QByteArray) (pos len : Nat) : QByteArray := (a.drop pos).take len

/-! `QCoapOption::OptionName`. The decoder casts any 16-bit number to this plain enum, so a
name is kept as its number. -/

namespace OptionName

abbrev invalid : Nat := 0
abbrev ifMatch : Nat := 1
abbrev uriHost : Nat := 3
abbrev etag : Nat := 4
abbrev ifNoneMatch : Nat := 5
abbrev observe : Nat := 6
abbrev uriPort : Nat := 7
abbrev locationPath : Nat := 8
abbrev uriPath : Nat := 11
abbrev contentFormat : Nat := 12
abbrev maxAge : Nat := 14
abbrev uriQuery : Nat := 15
abbrev accept : Nat := 17
abbrev locationQuery : Nat := 20
abbrev block2 : Nat := 23
abbrev block1 : Nat := 27
abbrev size2 : Nat := 28
abbrev proxyUri : Nat := 35
abbrev proxyScheme : Nat := 39
abbrev size1 : Nat := 60

def enumerators : List Nat :=
  [invalid, ifMatch, uriHost, etag, ifNoneMatch, observe, uriPort, locationPath, uriPath,
    contentFormat, maxAge, uriQuery, accept, locationQuery, block2, block1, size2, proxyUri,
    proxyScheme, size1]

theorem le_size1 {name : Nat} (h : name ∈ enumerators) : name ≤ 60 := by
  have all : ∀ n ∈ enumerators, n ≤ 60 := by decide
  exact all name h

end OptionName

/-- `QCoapOption`. -/
structure CoapOption where
  name : Nat := OptionName.invalid
  value : QByteArray := []
  deriving DecidableEq, Repr

namespace CoapOption

def length (o : CoapOption) : Nat := o.value.length

def isValid (o : CoapOption) : Bool := o.name != OptionName.invalid

/-- `QCoapOptionPrivate::setValue(quint32)`: the low byte first, until nothing is left. -/
def uintBytes : Nat → Nat → QByteArray
  | 0, _ => []
  | n + 1, value => if value = 0 then [] else UInt8.ofNat value :: uintBytes n (value / 256)

/-- `QCoapOption(OptionName, quint32)`. -/
def ofUint (name : Nat) (value : UInt32) : CoapOption := ⟨name, uintBytes 4 value.toNat⟩

/-- `QCoapOption::uintValue`: byte `i` is shifted by `8 * i` bits. Behind the fourth byte such a
shift has no defined result; it leaves nothing here. -/
def uintValue (o : CoapOption) : Nat :=
  o.value.zipIdx.foldl
    (fun intValue byte => intValue ||| (byte.1.toNat <<< (8 * byte.2)) % 2 ^ 32) 0

/-- `QCoapOption(OptionName, const QString &)`. -/
def ofString (name : Nat) (value : QString) : CoapOption := ⟨name, value.toUtf8⟩

/-- The sizes for which `QCoapOptionPrivate::setValue` logs a warning; it stores the value
all the same. -/
def oversized (name : Nat) (size : Nat) : Bool :=
  match name with
  | 5 => size > 0
  | 7 | 12 | 17 => size > 2
  | 14 | 60 => size > 4
  | 1 | 4 => size > 8
  | 3 | 8 | 11 | 15 | 20 | 39 => size > 255
  | 35 => size > 1034
  | _ => false

end CoapOption

/-- `QCoapMessage::Type`. -/
inductive MessageType
  | confirmable
  | nonConfirmable
  | acknowledgment
  | reset
  deriving DecidableEq, Repr

namespace MessageType

def toBits : MessageType → Nat
  | confirmable => 0
  | nonConfirmable => 1
  | acknowledgment => 2
  | reset => 3

/-- `QCoapMessage::Type(n)` for the two bits `n` of the header. -/
def ofBits : Nat → MessageType
  | 0 => confirmable
  | 1 => nonConfirmable
  | 2 => acknowledgment
  | _ => reset

@[simp] theorem ofBits_toBits (t : MessageType) : ofBits t.toBits = t := by cases t <;> rfl

theorem toBits_lt (t : MessageType) : t.toBits < 4 := by cases t <;> decide

theorem toBits_ofBits {n : Nat} (h : n < 4) : (ofBits n).toBits = n := by
  match n, h with
  | 0, _ | 1, _ | 2, _ | 3, _ => rfl

end MessageType

/-- `QCoapMessagePrivate`. -/
structure Message where
  version : UInt8 := 1
  type : MessageType := .nonConfirmable
  messageId : UInt16 := 0
  token : QByteArray := []
  options : List CoapOption := []
  payload : QByteArray := []
  deriving DecidableEq, Repr

namespace Message

/-- The order that `addOption` keeps and that `toQByteArray` asserts. -/
def Sorted (options : List CoapOption) : Prop := options.Pairwise (fun a b => a.name ≤ b.name)

instance (options : List CoapOption) : Decidable (Sorted options) :=
  inferInstanceAs (Decidable (options.Pairwise _))

/-- `QCoapMessage::addOption`. -/
def addOption (m : Message) (option : CoapOption) : Message :=
  { m with options := Framework.insertUpper CoapOption.name option m.options }

/-- `QCoapMessage::removeOption(OptionName)`. -/
def removeOption (m : Message) (name : Nat) : Message :=
  { m with options := m.options.filter (fun o => o.name != name) }

def clearOptions (m : Message) : Message := { m with options := [] }

/-- `QCoapMessage::option`: the first one with the name, or an invalid one. -/
def option (m : Message) (name : Nat) : CoapOption :=
  (m.options.find? (fun o => o.name == name)).getD {}

def hasOption (m : Message) (name : Nat) : Bool :=
  m.options.any (fun o => o.name == name)

/-- `QCoapMessage::options(OptionName)`. -/
def optionsNamed (m : Message) (name : Nat) : List CoapOption :=
  m.options.filter (fun o => o.name = name)

section Mutators

variable (m : Message) (o : CoapOption) (name : Nat)

@[simp] theorem addOption_version : (m.addOption o).version = m.version := rfl
@[simp] theorem addOption_type : (m.addOption o).type = m.type := rfl
@[simp] theorem addOption_messageId : (m.addOption o).messageId = m.messageId := rfl
@[simp] theorem addOption_token : (m.addOption o).token = m.token := rfl
@[simp] theorem addOption_payload : (m.addOption o).payload = m.payload := rfl
@[simp] theorem removeOption_type : (m.removeOption name).type = m.type := rfl
@[simp] theorem removeOption_messageId : (m.removeOption name).messageId = m.messageId := rfl
@[simp] theorem removeOption_token : (m.removeOption name).token = m.token := rfl
@[simp] theorem removeOption_payload : (m.removeOption name).payload = m.payload := rfl

end Mutators

theorem addOption_sorted (m : Message) (o : CoapOption) (h : Sorted m.options) :
    Sorted (m.addOption o).options :=
  Framework.insertUpper_sorted CoapOption.name o m.options h

theorem addOption_append (m : Message) (o : CoapOption)
    (h : ∀ p ∈ m.options, p.name ≤ o.name) :
    (m.addOption o).options = m.options ++ [o] :=
  Framework.insertUpper_of_ge CoapOption.name o m.options h

theorem optionsNamed_addOption (m : Message) (o : CoapOption) (name : Nat)
    (h : Sorted m.options) :
    (m.addOption o).optionsNamed name =
      m.optionsNamed name ++ if o.name = name then [o] else [] :=
  Framework.filter_insertUpper CoapOption.name o m.options name h

end Message

/-- `QtCoap::ResponseCode`, an enum over `quint8` that holds any byte. -/
abbrev ResponseCode := UInt8

namespace ResponseCode

abbrev emptyMessage : ResponseCode := 0x00
abbrev invalidCode : ResponseCode := 0xFF

end ResponseCode

/-- `QtCoap::Method`, an enum over `quint8`. -/
abbrev Method := UInt8

namespace Method

abbrev invalid : Method := 0
abbrev get : Method := 1
abbrev post : Method := 2
abbrev put : Method := 3
abbrev delete : Method := 4

end Method

end QtCoap
