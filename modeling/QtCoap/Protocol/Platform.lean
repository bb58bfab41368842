import QtCoap.Codec.InternalReply

namespace QtCoap

/-- What lies outside the sources: `QHostAddress` with its `==`, and the byte in front of the buffer
that all empty byte arrays share. -/
class Platform (Addr : Type) where
  decEq : DecidableEq Addr
  ofHost : QString → Addr
  isNull : Addr → Bool
  isMulticast : Addr → Bool
  isBroadcast : Addr → Bool
  isEqual : Addr → Addr → Bool
  toString : Addr → QString
  junk : UInt8

instance (priority := low) {Addr : Type} [Platform Addr] : DecidableEq Addr := Platform.decEq

/-- An address of one host. -/
def Platform.isUnicast {Addr : Type} [Platform Addr] (address : Addr) : Bool :=
  !isNull address && !isMulticast address && !isBroadcast address

/-- An IPv4 address, or the null address. -/
abbrev IPv4Address := Option (UInt8 × UInt8 × UInt8 × UInt8)

namespace IPv4Address

/-- One to three decimal digits of value 255 at most. -/
def octet (s : QString) : Option UInt8 :=
  if s.isEmpty || 3 < s.length || !s.all Char.isDigit then none
  else
    let value := s.foldl (fun n c => n * 10 + (c.toNat - '0'.toNat)) 0
    if value < 256 then some (UInt8.ofNat value) else none

def ofHost (host : QString) : IPv4Address :=
  match (host.splitOn '.').mapM octet with
  | some [a, b, c, d] => some (a, b, c, d)
  | _ => none

def toString : IPv4Address → QString
  | none => []
  | some (a, b, c, d) =>
    List.intercalate ['.'] ([a, b, c, d].map fun n => Nat.toDigits 10 n.toNat)

end IPv4Address

/-- IPv4 only; enough to run the model on concrete networks. -/
instance : Platform IPv4Address where
  decEq := inferInstance
  ofHost := IPv4Address.ofHost
  isNull := Option.isNone
  isMulticast
    | none => false
    | some (a, _, _, _) => a &&& 0xF0 == 0xE0
  isBroadcast a := a == some (255, 255, 255, 255)
  isEqual a b := a == b
  toString := IPv4Address.toString
  junk := 0

example : IPv4Address.ofHost "224.0.1.187".toList = some (224, 0, 1, 187) := by decide

/-- `QUrl` as a record; an absent port is -1. -/
structure Url where
  scheme : QString := []
  host : QString := []
  port : Int := -1
  path : QString := []
  query : QString := []
  fragment : Option QString := none
  deriving DecidableEq, Repr

namespace Url

def isEmpty (u : Url) : Bool := u == {}

def hasAuthority (u : Url) : Bool := !u.host.isEmpty || u.port != -1

/-- Not empty, and no relative path behind an authority. -/
def isValid (u : Url) : Bool :=
  !u.isEmpty && (!u.hasAuthority || u.path.isEmpty || u.path.head? == some '/')

def isLocalFile (u : Url) : Bool := u.scheme == "file".toList

def isRelative (u : Url) : Bool := u.scheme.isEmpty

def hasFragment (u : Url) : Bool := u.fragment.isSome

/-- `QUrl::toString`, on decoded components. -/
def toString (u : Url) : QString :=
  let host := if u.host.contains ':' then '[' :: u.host ++ [']'] else u.host
  let port := if u.port = -1 then [] else ':' :: u.port.repr.toList
  (if u.scheme.isEmpty then [] else u.scheme ++ [':']) ++
    (if u.hasAuthority then '/' :: '/' :: (host ++ port) else []) ++ u.path ++
    (if u.query.isEmpty then [] else '?' :: u.query) ++
    u.fragment.elim [] ('#' :: ·)

def keepSegment (kept : List QString) (segment : QString) : List QString :=
  if segment = ['.'] then kept
  else if segment = ['.', '.'] then (if 1 < kept.length then kept.dropLast else kept)
  else kept ++ [segment]

/-- `QUrl::adjusted(QUrl::NormalizePathSegments)`. -/
def normalizePathSegments (u : Url) : Url :=
  let segments := u.path.splitOn '/'
  let kept := segments.foldl keepSegment []
  let ends := segments.getLast? = some ['.'] ∨ segments.getLast? = some ['.', '.']
  { u with path := List.intercalate ['/'] (if ends then kept ++ [[]] else kept) }

example : (normalizePathSegments { path := "/a/./b/../c".toList }).path = "/a/c".toList := by
  decide

end Url

def coapScheme : QString := "coap".toList

def coapSecureScheme : QString := "coaps".toList

/-- `QCoapRequestPrivate::isUrlValid`. -/
def isUrlValid (url : Url) : Bool :=
  url.isValid && !url.isLocalFile && !url.isRelative &&
    (url.scheme == coapScheme || url.scheme == coapSecureScheme) && !url.hasFragment

/-- `QCoapRequest`: a message with a target, a proxy and a method. -/
structure Request where
  message : Message := {}
  uri : Url := {}
  proxyUri : Url := {}
  method : Method := Method.invalid
  deriving DecidableEq, Repr

end QtCoap
