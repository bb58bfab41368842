import QtCoap.Protocol.Platform

namespace QtCoap

/-- `QString::fromUtf8`: a byte that starts no character becomes the replacement character. -/
def QByteArray.decodeUtf8 : Nat → QByteArray → QString
  | _, [] => []
  | 0, _ => []
  | rounds + 1, byte :: bytes =>
    match (byte :: bytes).toByteArray.utf8DecodeChar? 0 with
    | some c => c :: decodeUtf8 rounds ((byte :: bytes).drop c.utf8Size)
    | none => Char.ofNat 0xFFFD :: decodeUtf8 rounds bytes

def QByteArray.fromUtf8 (data : QByteArray) : QString := decodeUtf8 data.length data

namespace QString

def decimal (s : QString) : Option Nat :=
  if s.isEmpty || !s.all Char.isDigit then none
  else some (s.foldl (fun n c => n * 10 + (c.toNat - '0'.toNat)) 0)

/-- Blanks around it are left out; a sign may stand in front. -/
def number (s : QString) : Option Int :=
  let s := ((s.dropWhile Char.isWhitespace).reverse.dropWhile Char.isWhitespace).reverse
  match s with
  | '-' :: digits => (decimal digits).map fun n => -(n : Int)
  | '+' :: digits => (decimal digits).map fun n => (n : Int)
  | digits => (decimal digits).map fun n => (n : Int)

/-- `QString::toInt`: zero for what is no number or does not fit. -/
def toInt (s : QString) : Int :=
  match number s with
  | some n => if -2 ^ 31 ≤ n ∧ n < 2 ^ 31 then n else 0
  | none => 0

/-- `QString::toUInt`. -/
def toUInt (s : QString) : Nat :=
  match number s with
  | some n => if 0 ≤ n ∧ n < 2 ^ 32 then n.toNat else 0
  | none => 0

/-- `QString::remove`, of the quotation mark. -/
def removeQuote (s : QString) : QString := s.filter (· != '"')

end QString

/-- `QCoapResourcePrivate`. -/
structure Resource (Addr : Type) where
  maximumSize : Int := -1
  contentFormat : Nat := 0
  resourceType : QString := []
  interface : QString := []
  host : Addr
  path : QString := []
  title : QString := []
  observable : Bool := false
  deriving DecidableEq, Repr

/-- The bytes of a text in the source. -/
def literal (text : String) : QByteArray := QString.toUtf8 text.toList

namespace Resource

variable {Addr : Type}

/-- One parameter of a link. -/
def setParameter (resource : Resource Addr) (parameter : QByteArray) : Resource Addr :=
  let parameterString := parameter.fromUtf8
  let length := parameterString.length
  let unquoted (pos : Nat) := QString.removeQuote (parameterString.drop pos)
  if (literal "<").isPrefixOf parameter
    then { resource with path := (parameterString.drop 1).take (length - 2) }
  else if (literal "title=").isPrefixOf parameter
    then { resource with title := unquoted 6 }
  else if (literal "rt=").isPrefixOf parameter
    then { resource with resourceType := unquoted 3 }
  else if (literal "if=").isPrefixOf parameter
    then { resource with interface := unquoted 3 }
  else if (literal "sz=").isPrefixOf parameter
    then { resource with maximumSize := QString.toInt (unquoted 3) }
  else if (literal "ct=").isPrefixOf parameter
    then { resource with contentFormat := QString.toUInt (unquoted 3) }
  else if parameter = literal "obs" then { resource with observable := true }
  else resource

/-- One link of the list. -/
def ofLink (sender : Addr) (link : QByteArray) : Resource Addr :=
  (link.splitOn 59).foldl setParameter { host := sender }

end Resource

/-- `resourcesFromCoreLinkList`. The links are separated by `,`, their parameters by `;`. -/
def resourcesFromCoreLinkList {Addr : Type} (sender : Addr) (data : QByteArray) :
    List (Resource Addr) :=
  ((data.splitOn 44).map (Resource.ofLink sender)).filter (fun resource => !resource.path.isEmpty)

end QtCoap
