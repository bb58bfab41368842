import QtCoap.Codec.OptionList
import QtCoap.Protocol.InternalRequest

namespace QtCoap

/-- What `addUriOptions` returns. -/
def acceptsUri (uri proxyUri : Url) : Bool :=
  if !proxyUri.isEmpty then isUrlValid proxyUri
  else
    let uri := uri.normalizePathSegments
    isUrlValid uri && uri.toString.all (·.toNat < 128)

/-- The target that `addUriOptions` leaves: none where it fails. -/
def chosenTarget (uri proxyUri : Url) : Url :=
  if !acceptsUri uri proxyUri then {}
  else if !proxyUri.isEmpty then proxyUri
  else uri.normalizePathSegments

/-- The non-empty parts of a text as options, in order. -/
def partOptions (name : Nat) (parts : List QString) : List CoapOption :=
  (parts.filter (fun part => !part.isEmpty)).map (CoapOption.ofString name)

theorem name_partOptions {name : Nat} {parts : List QString} {option : CoapOption}
    (h : option ∈ partOptions name parts) : option.name = name := by
  obtain ⟨part, _, rfl⟩ := List.mem_map.mp h
  rfl

theorem partOptions_inj {name : Nat} {parts parts' : List QString}
    (h : partOptions name parts = partOptions name parts') :
    parts.filter (fun part => !part.isEmpty) = parts'.filter (fun part => !part.isEmpty) := by
  apply List.map_injective_iff.mpr ?_ h
  intro part part' same
  exact QString.toUtf8_injective (congrArg CoapOption.value same)

namespace Url

/-- The non-empty segments of the path. -/
def segments (uri : Url) : List QString :=
  (uri.path.splitOn '/').filter (fun part => !part.isEmpty)

/-- The non-empty elements of the query. -/
def queryElements (uri : Url) : List QString :=
  (uri.query.splitOn '&').filter (fun part => !part.isEmpty)

end Url

section Addresses

variable (Addr : Type) [Platform Addr]

/-- The options of steps 5 to 9. -/
def destinationOptions (uri : Url) : List CoapOption :=
  let uriHost := InternalRequest.uriHostOption Addr uri
  (if uriHost.isValid then [uriHost] else []) ++
    (if uri.port ≠ 5683 ∧ uri.port ≠ 5684
      then [CoapOption.ofUint OptionName.uriPort (UInt32.ofInt uri.port)] else []) ++
    partOptions OptionName.uriPath (uri.path.splitOn '/') ++
    partOptions OptionName.uriQuery (uri.query.splitOn '&')

/-- The options that `addUriOptions` adds, in the order of adding. -/
def uriOptions (uri proxyUri : Url) : List CoapOption :=
  if !acceptsUri uri proxyUri then []
  else if !proxyUri.isEmpty
    then [CoapOption.ofString OptionName.proxyUri proxyUri.toString]
  else destinationOptions Addr uri.normalizePathSegments

/-- The options for the authority have the numbers 3 and 7, those for the path 11, those for the
query 15. -/
theorem destinationOptions_eq (uri : Url) :
    ∃ authority : List CoapOption,
      destinationOptions Addr uri =
        authority ++ partOptions OptionName.uriPath (uri.path.splitOn '/') ++
          partOptions OptionName.uriQuery (uri.query.splitOn '&') ∧
      Message.Sorted authority ∧ ∀ option ∈ authority, option.name < OptionName.uriPath := by
  refine ⟨_, rfl, ?_⟩
  have host (h : (InternalRequest.uriHostOption Addr uri).isValid = true) :
      (InternalRequest.uriHostOption Addr uri).name = OptionName.uriHost := by
    simp only [InternalRequest.uriHostOption] at h ⊢
    split_ifs at h ⊢ with address
    · rfl
    · cases h
  constructor
  · split_ifs with h
    · have order : OptionName.uriHost ≤ OptionName.uriPort := by decide
      simpa [Message.Sorted, host h, CoapOption.ofUint] using order
    · simp [Message.Sorted]
    · simp [Message.Sorted]
    · simp [Message.Sorted]
  · intro option listed
    rcases List.mem_append.mp listed with listed | listed
    · split_ifs at listed with h
      · rw [List.mem_singleton.mp listed, host h]
        decide
      · cases listed
    · split_ifs at listed with h
      · rw [List.mem_singleton.mp listed]
        change OptionName.uriPort < OptionName.uriPath
        decide
      · cases listed

theorem destinationOptions_sorted (uri : Url) : Message.Sorted (destinationOptions Addr uri) := by
  obtain ⟨authority, eq, sorted, below⟩ := destinationOptions_eq Addr uri
  have parts (name : Nat) (texts : List QString) : Message.Sorted (partOptions name texts) := by
    refine List.pairwise_iff_forall_sublist.mpr fun {a b} sub => ?_
    rw [name_partOptions (sub.subset (by simp)), name_partOptions (sub.subset (by simp))]
  rw [eq]
  refine List.pairwise_append.mpr ⟨List.pairwise_append.mpr ⟨sorted, parts _ _, ?_⟩, parts _ _, ?_⟩
  · intro a ha b hb
    rw [name_partOptions hb]
    exact (below a ha).le
  · intro a ha b hb
    rw [name_partOptions hb]
    rcases List.mem_append.mp ha with ha | ha
    · exact (below a ha).le.trans (by decide)
    · rw [name_partOptions ha]
      decide

/-- Path and query can be read back from the options. -/
theorem destinationOptions_inj {uri uri' : Url}
    (h : destinationOptions Addr uri = destinationOptions Addr uri') :
    uri.segments = uri'.segments ∧ uri.queryElements = uri'.queryElements := by
  have filtered (uri : Url) :
      (destinationOptions Addr uri).filter (fun o => o.name == OptionName.uriPath) =
        partOptions OptionName.uriPath (uri.path.splitOn '/') ∧
      (destinationOptions Addr uri).filter (fun o => o.name == OptionName.uriQuery) =
        partOptions OptionName.uriQuery (uri.query.splitOn '&') := by
    obtain ⟨authority, eq, -, below⟩ := destinationOptions_eq Addr uri
    have all (name : Nat) (texts : List QString) :
        (partOptions name texts).filter (fun o => o.name == name) = partOptions name texts :=
      List.filter_eq_self.mpr fun o listed => by simp [name_partOptions listed]
    have none (name other : Nat) (texts : List QString) (ne : name ≠ other) :
        (partOptions name texts).filter (fun o => o.name == other) = [] :=
      List.filter_eq_nil_iff.mpr fun o listed => by simp [name_partOptions listed, ne]
    have before (other : Nat) (le : OptionName.uriPath ≤ other) :
        authority.filter (fun o => o.name == other) = [] :=
      List.filter_eq_nil_iff.mpr fun o listed => by
        have lt := below o listed
        simp only [beq_iff_eq]
        omega
    rw [eq, List.filter_append, List.filter_append, List.filter_append, List.filter_append]
    rw [before _ le_rfl, before _ (by decide), all, all, none _ _ _ (by decide),
      none _ _ _ (by decide)]
    simp
  have path := (filtered uri).1.symm.trans ((congrArg _ h).trans (filtered uri').1)
  have query := (filtered uri).2.symm.trans ((congrArg _ h).trans (filtered uri').2)
  exact ⟨partOptions_inj path, partOptions_inj query⟩

namespace InternalRequest

theorem addParts_eq (r : InternalRequest) (name : Nat) (parts : List QString) :
    r.addParts name parts =
      { r with message := r.message.addOptions (partOptions name parts) } := by
  simp only [addParts, partOptions, Message.addOptions]
  generalize parts.filter (fun part => !part.isEmpty) = parts
  induction parts generalizing r with
  | nil => rfl
  | cons part parts ih => exact ih (r.addOption (CoapOption.ofString name part))

/-- `addUriOptions` in one line: it chooses a target and adds the options for it. -/
theorem addUriOptions_eq (r : InternalRequest) (uri proxyUri : Url) :
    r.addUriOptions Addr uri proxyUri =
      { r with
        message := r.message.addOptions (uriOptions Addr uri proxyUri)
        targetUri := chosenTarget uri proxyUri } := by
  simp only [addUriOptions, uriOptions, chosenTarget, acceptsUri]
  cases hp : proxyUri.isEmpty with
  | false =>
    cases hv : isUrlValid proxyUri with
    | false => rfl
    | true => rfl
  | true =>
    cases hv : isUrlValid uri.normalizePathSegments with
    | false => rfl
    | true =>
      cases ha : uri.normalizePathSegments.toString.all (·.toNat < 128) with
      | false => rfl
      | true =>
        simp only [Bool.not_true, Bool.or_false, Bool.false_eq_true, if_false, Bool.and_true]
        rw [addParts_eq, addParts_eq]
        simp only [destinationOptions, Message.addOptions_append]
        split_ifs
        all_goals rfl

theorem ofRequest_eq (request : Request) :
    ofRequest Addr request =
      { message := request.message.addOptions (uriOptions Addr request.uri request.proxyUri)
        targetUri := chosenTarget request.uri request.proxyUri
        method := request.method
        fullPayload := request.message.payload } :=
  addUriOptions_eq Addr _ request.uri request.proxyUri

end InternalRequest

/-- The target of a request without a proxy: two accepted URLs that still differ once dot segments
are removed are told apart by the options or by the destination. -/
theorem target_conveyed (request : Request) (uri uri' : Url) (direct : request.proxyUri.isEmpty)
    (accepted : acceptsUri uri request.proxyUri) (accepted' : acceptsUri uri' request.proxyUri)
    (differ : uri.host ≠ uri'.host ∨ uri.port ≠ uri'.port ∨
      uri.normalizePathSegments.segments ≠ uri'.normalizePathSegments.segments ∨
      uri.queryElements ≠ uri'.queryElements) :
    let r := InternalRequest.ofRequest Addr { request with uri := uri }
    let r' := InternalRequest.ofRequest Addr { request with uri := uri' }
    r.message.options ≠ r'.message.options ∨
      (r.targetUri.host, r.targetUri.port) ≠ (r'.targetUri.host, r'.targetUri.port) := by
  by_contra same
  simp only [not_or, not_not, Prod.mk.injEq] at same
  rw [InternalRequest.ofRequest_eq, InternalRequest.ofRequest_eq] at same
  dsimp only at same
  obtain ⟨options, host, port⟩ := same
  have chosen {uri : Url} (accepted : acceptsUri uri request.proxyUri) :
      chosenTarget uri request.proxyUri = uri.normalizePathSegments ∧
        uriOptions Addr uri request.proxyUri =
          destinationOptions Addr uri.normalizePathSegments := by
    simp [chosenTarget, uriOptions, accepted, direct]
  rw [(chosen accepted).1, (chosen accepted').1] at host port
  rw [(chosen accepted).2, (chosen accepted').2, Message.addOptions_eq, Message.addOptions_eq]
    at options
  have added := Framework.insertAll_inj CoapOption.name (destinationOptions_sorted Addr _)
    (destinationOptions_sorted Addr _) options
  obtain ⟨path, query⟩ := destinationOptions_inj Addr added
  rcases differ with h | h | h | h
  · exact h host
  · exact h port
  · exact h path
  · exact h query

end Addresses

section Instances

/-- Two resources of one server. -/
def lightUrl (path : String) : Url :=
  { scheme := coapScheme, host := "10.20.30.40".toList, port := 5683, path := path.toList }

theorem light_conveyed :
    let request : Request := { method := Method.get }
    let r := InternalRequest.ofRequest IPv4Address { request with uri := lightUrl "/light/1" }
    let r' := InternalRequest.ofRequest IPv4Address { request with uri := lightUrl "/light/2" }
    r.message.options ≠ r'.message.options ∨
      (r.targetUri.host, r.targetUri.port) ≠ (r'.targetUri.host, r'.targetUri.port) :=
  target_conveyed IPv4Address { method := Method.get } (lightUrl "/light/1") (lightUrl "/light/2")
    (by decide) (by decide) (by decide) (by decide)

def lightProxy : Url :=
  { scheme := coapScheme, host := "10.20.30.1".toList, port := 5683 }

/-- Dot segments are gone before anything is conveyed, and behind a proxy so is the whole URL. -/
theorem target_not_conveyed :
    (acceptsUri (lightUrl "/a/../b") {} ∧ acceptsUri (lightUrl "/b") {} ∧
      (lightUrl "/a/../b").segments ≠ (lightUrl "/b").segments ∧
      InternalRequest.ofRequest IPv4Address { uri := lightUrl "/a/../b", method := Method.get } =
        InternalRequest.ofRequest IPv4Address { uri := lightUrl "/b", method := Method.get }) ∧
    (acceptsUri (lightUrl "/a") lightProxy ∧ acceptsUri (lightUrl "/b") lightProxy ∧
      (lightUrl "/a").segments ≠ (lightUrl "/b").segments ∧
      InternalRequest.ofRequest IPv4Address { uri := lightUrl "/a", proxyUri := lightProxy } =
        InternalRequest.ofRequest IPv4Address
          { uri := lightUrl "/b", proxyUri := lightProxy }) := by
  decide

end Instances

end QtCoap
