import QtCoap.Connection.Connection
import QtCoap.Protocol.Destination
import QtCoap.Protocol.UriOptions

namespace QtCoap

/-- The scheme of the requests over a connection. -/
def requestScheme (isSecure : Bool) : QString :=
  if isSecure then coapSecureScheme else coapScheme

/-- The port where none is given. -/
def requestPort (isSecure : Bool) : Int := if isSecure then 5684 else 5683

/-- The URL with a scheme. Where the host was taken for a part of a relative path, the text is
parsed once more; `parse` is the constructor of `QUrl`. -/
def finalizedUrl (parse : QString → Url) (url : Url) (isSecure : Bool) : Url :=
  let scheme := requestScheme isSecure
  if url.host.isEmpty && url.isRelative then parse (scheme ++ "://".toList ++ url.toString)
  else if url.scheme.isEmpty then { url with scheme := scheme }
  else url

/-- `QCoapRequestPrivate::adjustedUrl`. -/
def adjustedUrl (parse : QString → Url) (url : Url) (isSecure : Bool) : Url :=
  if url.isEmpty || !url.isValid then {}
  else
    let finalized := finalizedUrl parse url isSecure
    if finalized.host.isEmpty then {}
    else if url.port = -1 then { finalized with port := requestPort isSecure }
    else finalized

/-- `QCoapRequestPrivate::createRequest`. -/
def createRequest (parse : QString → Url) (other : Request) (method : Method) (isSecure : Bool) :
    Request :=
  { other with method := method, uri := adjustedUrl parse other.uri isSecure }

namespace Url

theorem keepSegment_absolute {kept : List QString} (h : ∃ tail, kept = [] :: tail)
    (segment : QString) : ∃ tail, keepSegment kept segment = [] :: tail := by
  obtain ⟨tail, rfl⟩ := h
  simp only [keepSegment]
  split_ifs with dot dots more
  · exact ⟨tail, rfl⟩
  · cases tail with
    | nil => simp at more
    | cons part tail => exact ⟨_, List.dropLast_cons_of_ne_nil (by simp)⟩
  · exact ⟨tail, rfl⟩
  · exact ⟨tail ++ [segment], rfl⟩

/-- An absolute path stays one. -/
theorem normalizePathSegments_absolute {u : Url}
    (absolute : u.path.isEmpty = true ∨ u.path.head? = some '/') :
    u.normalizePathSegments.path.isEmpty = true ∨
      u.normalizePathSegments.path.head? = some '/' := by
  have first : ∃ rest, u.path.splitOn '/' = [] :: rest := by
    rcases absolute with none | slash
    · rw [List.isEmpty_iff.mp none]
      exact ⟨[], rfl⟩
    · obtain ⟨rest, path⟩ := List.head?_eq_some_iff.mp slash
      rw [path]
      exact ⟨rest.splitOn '/', by simp [List.splitOn, List.splitOnP_cons_eq_if_modifyHead]⟩
  obtain ⟨rest, segments⟩ := first
  have folded (rest kept : List QString) (h : ∃ tail, kept = [] :: tail) :
      ∃ tail, rest.foldl keepSegment kept = [] :: tail := by
    induction rest generalizing kept with
    | nil => exact h
    | cons segment rest ih => exact ih _ (keepSegment_absolute h segment)
  obtain ⟨tail, kept⟩ := folded rest [[]] ⟨[], rfl⟩
  have joined (tail : List QString) : (List.intercalate ['/'] ([] :: tail)).isEmpty = true ∨
      (List.intercalate ['/'] ([] :: tail)).head? = some '/' := by
    cases tail with
    | nil => exact .inl rfl
    | cons part tail => exact .inr (by simp [List.intercalate, List.intersperse])
  simp only [normalizePathSegments]
  rw [segments, List.foldl_cons]
  have start : keepSegment [] [] = [[]] := rfl
  rw [start, kept]
  split_ifs
  · exact joined (tail ++ [[]])
  · exact joined tail

theorem isUrlValid_normalizePathSegments {u : Url} (valid : isUrlValid u = true) :
    isUrlValid u.normalizePathSegments = true := by
  have authority : u.normalizePathSegments.hasAuthority = u.hasAuthority := rfl
  have scheme : u.normalizePathSegments.scheme = u.scheme := rfl
  have fragment : u.normalizePathSegments.fragment = u.fragment := rfl
  simp only [isUrlValid, isValid, isLocalFile, isRelative, hasFragment, Bool.and_eq_true]
    at valid ⊢
  rw [authority, scheme, fragment]
  obtain ⟨⟨⟨⟨⟨-, path⟩, notLocal⟩, notRelative⟩, coap⟩, noFragment⟩ := valid
  refine ⟨⟨⟨⟨⟨?_, ?_⟩, notLocal⟩, notRelative⟩, coap⟩, noFragment⟩
  · -- the scheme is kept, so that the URL is not empty
    rw [Bool.not_eq_true', isEmpty, beq_eq_false_iff_ne]
    intro empty
    rw [← scheme, empty] at notRelative
    cases notRelative
  · cases given : u.hasAuthority with
    | false => rfl
    | true =>
      have absolute := normalizePathSegments_absolute (u := u) (by simpa [given] using path)
      simpa using absolute

end Url

section Addresses

variable (Addr : Type) [Platform Addr]

/-- `QCoapClientPrivate::send`: whether the request is handed to the protocol. -/
def send (connection : Connection) (request : Request) : Bool :=
  if request.uri.scheme ≠ requestScheme connection.isSecure then false
  else if !isUrlValid request.uri then false
  else if Platform.isMulticast (Platform.ofHost request.uri.host : Addr) &&
      request.message.type == .confirmable then false
  else true

/-- What the checks of `send` are to establish for the target of a message. -/
structure GoodTarget (isSecure : Bool) (type : MessageType) (target : Url) : Prop where
  valid : isUrlValid target = true
  host : target.host ≠ []
  port : target.port ≠ -1
  scheme : target.scheme = requestScheme isSecure
  unicast : type = .confirmable →
    Platform.isMulticast (Platform.ofHost target.host : Addr) = false

/-- When they do. Without a proxy the URL has a host and a port, as `adjustedUrl` leaves it, and
its text is ASCII; a proxy URL has to be a good target by itself. -/
def Covers (isSecure : Bool) (request : Request) : Prop :=
  if request.proxyUri.isEmpty then
    request.uri.host ≠ [] ∧ request.uri.port ≠ -1 ∧
      request.uri.normalizePathSegments.toString.all (·.toNat < 128) = true
  else GoodTarget Addr isSecure request.message.type request.proxyUri

instance decidableGoodTarget (isSecure : Bool) (type : MessageType) (target : Url) :
    Decidable (GoodTarget Addr isSecure type target) :=
  decidable_of_iff
    (isUrlValid target = true ∧ target.host ≠ [] ∧ target.port ≠ -1 ∧
      target.scheme = requestScheme isSecure ∧
      (type = .confirmable → Platform.isMulticast (Platform.ofHost target.host : Addr) = false))
    ⟨fun ⟨valid, host, port, scheme, unicast⟩ => ⟨valid, host, port, scheme, unicast⟩,
      fun h => ⟨h.valid, h.host, h.port, h.scheme, h.unicast⟩⟩

variable {Addr} {connection : Connection} {request : Request}

/-- What the checks do establish for the URL of the request. -/
theorem send_spec (passes : send Addr connection request = true) :
    request.uri.scheme = requestScheme connection.isSecure ∧ isUrlValid request.uri = true ∧
      (request.message.type = .confirmable →
        Platform.isMulticast (Platform.ofHost request.uri.host : Addr) = false) := by
  simp only [send] at passes
  split_ifs at passes with scheme invalid multicast
  refine ⟨not_not.mp scheme, by simpa using invalid, ?_⟩
  intro confirmable
  simpa [confirmable] using multicast

/-- No target is good where `addUriOptions` has failed. -/
theorem not_goodTarget_empty (isSecure : Bool) (type : MessageType) :
    ¬ GoodTarget Addr isSecure type {} := fun good => good.host rfl

/-- The checks carry over to the target that `addUriOptions` chooses in exactly these cases. -/
theorem goodTarget_chosenTarget_iff (passes : send Addr connection request = true) :
    GoodTarget Addr connection.isSecure request.message.type
        (chosenTarget request.uri request.proxyUri) ↔
      Covers Addr connection.isSecure request := by
  obtain ⟨scheme, valid, unicast⟩ := send_spec passes
  simp only [Covers]
  split_ifs with direct
  · have normalized := Url.isUrlValid_normalizePathSegments valid
    cases ascii : request.uri.normalizePathSegments.toString.all (·.toNat < 128) with
    | false =>
      have chosen : chosenTarget request.uri request.proxyUri = {} := by
        simp [chosenTarget, acceptsUri, direct, ascii]
      rw [chosen]
      exact iff_of_false (not_goodTarget_empty _ _) (by simp)
    | true =>
      have chosen : chosenTarget request.uri request.proxyUri =
          request.uri.normalizePathSegments := by
        simp [chosenTarget, acceptsUri, direct, ascii, normalized]
      rw [chosen]
      constructor
      · intro good
        exact ⟨good.host, good.port, rfl⟩
      · rintro ⟨host, port, -⟩
        exact ⟨normalized, host, port, scheme, unicast⟩
  · cases accepted : isUrlValid request.proxyUri with
    | false =>
      have chosen : chosenTarget request.uri request.proxyUri = {} := by
        simp [chosenTarget, acceptsUri, direct, accepted]
      rw [chosen]
      refine iff_of_false (not_goodTarget_empty _ _) fun good => ?_
      rw [good.valid] at accepted
      cases accepted
    | true =>
      have chosen : chosenTarget request.uri request.proxyUri = request.proxyUri := by
        simp [chosenTarget, acceptsUri, direct, accepted]
      rw [chosen]

/-- A URL that `adjustedUrl` has completed has a host and, unless the host was mistaken for a path,
a port. -/
theorem adjustedUrl_spec (parse : QString → Url) (url : Url) (isSecure : Bool)
    (accepted : isUrlValid (adjustedUrl parse url isSecure) = true) :
    (adjustedUrl parse url isSecure).host ≠ [] ∧
      (url.port = -1 ∨ url.host ≠ [] → (adjustedUrl parse url isSecure).port ≠ -1) := by
  simp only [adjustedUrl] at accepted ⊢
  split_ifs at accepted ⊢ with unusable hostless unset
  · cases accepted
  · cases accepted
  · refine ⟨by simpa using hostless, fun _ => ?_⟩
    simp only [requestPort]
    split_ifs <;> decide
  · refine ⟨by simpa using hostless, fun known => ?_⟩
    have host : url.host ≠ [] := known.resolve_left unset
    have same : (finalizedUrl parse url isSecure).port = url.port := by
      simp only [finalizedUrl]
      rw [if_neg (by simp [host])]
      split_ifs <;> rfl
    rw [same]
    exact unset

/-- For the requests of the client the condition is on the text alone when there is no proxy. -/
theorem covers_createRequest (parse : QString → Url) (other : Request) (method : Method)
    (direct : other.proxyUri.isEmpty = true)
    (known : other.uri.port = -1 ∨ other.uri.host ≠ [])
    (passes : send Addr connection (createRequest parse other method connection.isSecure) = true) :
    Covers Addr connection.isSecure (createRequest parse other method connection.isSecure) ↔
      (adjustedUrl parse other.uri connection.isSecure).normalizePathSegments.toString.all
        (·.toNat < 128) = true := by
  obtain ⟨host, port⟩ := adjustedUrl_spec parse other.uri connection.isSecure (send_spec passes).2.1
  have same : (createRequest parse other method connection.isSecure).proxyUri.isEmpty = true :=
    direct
  rw [Covers, if_pos same]
  exact ⟨fun covers => covers.2.2, fun ascii => ⟨host, port known, ascii⟩⟩

end Addresses

section Runs

variable {Addr : Type} [Platform Addr]

open Protocol

/-- A frame is covered: it goes out for an exchange with a good target, to the port of that target
and to its host or the one that has answered. -/
def Covered (connections : ConnectionId → Connection) (x : Taken Addr) : Output Addr → Prop
  | .frame message method connection host port => ∃ e : ExchangeData Addr,
    SentFor x.source x.target x.event message e ∧
      (Output.frame message method connection host port : Output Addr).GoesTo e.request
        (x.event.hosts e.request.targetUri) ∧
      GoodTarget Addr (connections connection).isSecure e.request.message.type e.request.targetUri
  | _ => True

/-- The request that an event asks to be sent, and the connection to send it over. -/
def Event.request? : Event Addr → Option (Request × ConnectionId)
  | .sendRequest (some _) request connection _ =>
    if request.method = Method.invalid then none else some (request, connection)
  | _ => none

/-- All registered exchanges have good targets. -/
def Protocol.Aimed (connections : ConnectionId → Connection) (s : Protocol Addr) : Prop :=
  ∀ key e, s.exchangeMap.find? key = some e → ∀ connection, e.request.connection = some connection →
    GoodTarget Addr (connections connection).isSecure e.request.message.type e.request.targetUri

namespace Protocol

variable {s t : Protocol Addr} {os : List (Output Addr)} {event : Event Addr}
  {connections : ConnectionId → Connection}

theorem completed_target (s : Protocol Addr) (request : Request) (connection : ConnectionId)
    (messageId : UInt16) (token : Token) :
    let r := s.completed request connection messageId token
    r.targetUri = chosenTarget request.uri request.proxyUri ∧
      r.message.type = request.message.type ∧ r.connection = some connection := by
  obtain ⟨wait, expire, kept⟩ := s.newRequest_kept request
  have options (message : Message) (added : List CoapOption) :
      (message.addOptions added).type = message.type := by
    rw [Message.addOptions_eq]
  simp only [completed, kept, InternalRequest.ofRequest_eq]
  exact ⟨rfl, options _ _, rfl⟩

theorem Aimed.step (before : Aimed connections s) (change : Change s os t event)
    (opens : ∀ request connection, event.request? = some (request, connection) →
      GoodTarget Addr (connections connection).isSecure request.message.type
        (chosenTarget request.uri request.proxyUri)) : Aimed connections t := by
  intro key e' found' connection own
  have same {e : ExchangeData Addr} (identity : e'.request.identity = e.request.identity)
      (found : s.exchangeMap.find? key = some e) :
      GoodTarget Addr (connections connection).isSecure e'.request.message.type
        e'.request.targetUri := by
    rw [InternalRequest.type_of_identity identity, InternalRequest.targetUri_of_identity identity]
    refine before key e found connection ?_
    rwa [← InternalRequest.connection_of_identity identity]
  cases change.origin found' with
  | @opened id request connection' draws messageId timeout registers made =>
    obtain ⟨q, entry, identity, -, -⟩ := @ExchangeData.opened_entry Addr _ id
      (s.completed request connection' messageId key) s.blockSize timeout
    obtain rfl := Option.some.inj (made.symm.trans entry)
    obtain ⟨target, type, linked⟩ := completed_target s request connection' messageId key
    have connected := InternalRequest.connection_of_identity identity
    obtain rfl := Option.some.inj (linked.symm.trans (connected.symm.trans own))
    dsimp only
    rw [InternalRequest.type_of_identity identity, InternalRequest.targetUri_of_identity identity,
      target, type]
    exact opens request connection' (if_neg registers.method)
  | reacted e reaction found reacts left => exact same (reacts.continues left).identity found
  | passed e found passes => exact same passes.identity found

/-- An exchange that opens sends a frame, for a request with the target that was chosen. -/
theorem sendRequest_frame {id : ReplyId} {request : Request} {connection : ConnectionId}
    {draws : Draws} (valid : request.method ≠ Method.invalid)
    (url : isUrlValid request.uri = true)
    (h : s.sendRequest (some id) request connection draws = .ok (t, os)) :
    ∃ message method host port, .frame message method connection host port ∈ os ∧
      message.token ≠ [] ∧ ∃ e, t.exchangeMap.find? message.token = some e ∧
        e.request.targetUri = chosenTarget request.uri request.proxyUri ∧
        e.request.message.type = request.message.type := by
  obtain ⟨messageId, token, timeout, registers, -, after⟩ := sendRequest_opened valid url h
  obtain ⟨target, type, linked⟩ := completed_target s request connection messageId token
  obtain ⟨rfl, rfl⟩ := Prod.mk.inj after
  let r := ((s.completed request connection messageId token).firstBlocks s.blockSize).setTimeout
    timeout
  have identity : r.identity = (s.completed request connection messageId token).identity :=
    (ExchangeData.firstBlocks_kept _ s.blockSize).1
  have connected : r.connection = some connection :=
    (InternalRequest.connection_of_identity identity).trans linked
  have sent : Output.frame r.message r.method connection r.targetUri.host
      (UInt16.ofInt r.targetUri.port) ∈ (transmit Addr r []).2 := by
    simp [transmit, connected]
  have key : r.message.token = token := InternalRequest.token_of_identity identity
  have kept : (transmit Addr r []).1.identity = r.identity := identity_transmit r []
  have identity := kept.trans identity
  refine ⟨r.message, r.method, _, _, List.mem_cons_of_mem _ sent, ?_,
    { userReply := some id, request := (transmit Addr r []).1 }, ?_,
    (InternalRequest.targetUri_of_identity identity).trans target,
    (InternalRequest.type_of_identity identity).trans type⟩
  · rw [key]
    exact registers.token_ne
  · rw [key]
    exact find?_setExchange_self s token _

/-- That frame is covered only if the target is good. -/
theorem goodTarget_of_covered {x : Taken Addr} {request : Request} {connection : ConnectionId}
    (step : Step x.source x.event x.outputs x.target) (url : isUrlValid request.uri = true)
    (asked : x.event.request? = some (request, connection))
    (covered : ∀ o ∈ x.outputs, Covered connections x o) :
    GoodTarget Addr (connections connection).isSecure request.message.type
      (chosenTarget request.uri request.proxyUri) := by
  have handled := step.2
  cases event : x.event with
  | sendRequest reply request' connection' draws =>
    rw [event] at asked handled
    cases reply with
    | none => cases asked
    | some id =>
      simp only [Event.request?] at asked
      split_ifs at asked with valid
      obtain ⟨rfl, rfl⟩ := Prod.mk.inj (Option.some.inj asked)
      obtain ⟨message, method, host, port, sent, key, e', found', target, type⟩ :=
        sendRequest_frame valid url handled
      obtain ⟨e, sentFor, -, good⟩ := covered _ sent
      cases sentFor with
      | request found own =>
        obtain rfl := Option.some.inj (found.symm.trans found')
        rwa [target, type] at good
      | empty received admits none => exact absurd none key
  | _ =>
    rw [event] at asked
    cases asked

/-- Over any run whose requests have all passed `send`, on connections of either kind: the frames
all go to targets that pass the checks if and only if the checks cover each request. -/
theorem frames_covered_iff (connections : ConnectionId → Connection) {tr : List (Taken Addr)}
    (run : Framework.Run Step {} tr t)
    (passed : ∀ x ∈ tr, ∀ request connection, x.event.request? = some (request, connection) →
      send Addr (connections connection) request = true) :
    (∀ x ∈ tr, ∀ o ∈ x.outputs, Covered connections x o) ↔
      ∀ x ∈ tr, ∀ request connection, x.event.request? = some (request, connection) →
        Covers Addr (connections connection).isSecure request := by
  have changes := changes_of_run run
  constructor
  · intro covered x hx request connection asked
    have passes := passed x hx request connection asked
    have step := (run.forall_step (fun before h => before.step h) consistent_initial x hx).2
    exact (goodTarget_chosenTarget_iff passes).mp
      (goodTarget_of_covered step (send_spec passes).2.1 asked (covered x hx))
  · intro covers x hx o out
    have aimed := run.along (P := Aimed connections)
      (fun x hx _ before => before.step (changes x hx).2 fun request connection asked =>
        (goodTarget_chosenTarget_iff (passed x hx request connection asked)).mpr
          (covers x hx request connection asked))
      (by intro key e none; cases none)
    obtain ⟨source, target⟩ := aimed.2 x hx
    obtain ⟨consistent, change⟩ := changes x hx
    cases o with
    | frame message method connection host port =>
      obtain ⟨e, sentFor, goes⟩ := change.sentFor consistent out
      refine ⟨e, sentFor, goes, ?_⟩
      cases sentFor with
      | request found own => exact target _ e found connection goes.1
      | empty received admits none => exact source _ e admits.found connection goes.1
    | _ => trivial

end Protocol

end Runs

section Instances

open Protocol

/-- A request that is sent twice. -/
def sentAgain : List (Event IPv4Address) :=
  [.sendRequest (some 0) (getRequest [1, 2]) 0 [7, 0], .timeout [1, 2]]

theorem sentAgain_covered : ∃ (tr : List (Taken IPv4Address)) (t : Protocol IPv4Address),
    Framework.Run Step {} tr t ∧ tr.map (·.event) = sentAgain ∧
    tr.map (·.outputs.length) = [2, 1] ∧ ∀ x ∈ tr, ∀ o ∈ x.outputs, Covered (fun _ => {}) x o := by
  have ran : (Framework.execute handle {} sentAgain).any
      (fun result => result.1.map (·.outputs.length) == [2, 1]) = true := by
    decide +kernel
  obtain ⟨tr, t, run, events, lengths⟩ :=
    Framework.exists_run_of_execute Step step_of_handle ran
  have only (x : Taken IPv4Address) (hx : x ∈ tr) (request : Request) (connection : ConnectionId)
      (asked : x.event.request? = some (request, connection)) : request = getRequest [1, 2] := by
    have listed : x.event ∈ sentAgain := events ▸ List.mem_map_of_mem hx
    simp only [sentAgain, List.mem_cons, List.not_mem_nil, or_false] at listed
    rcases listed with event | event
    · rw [event] at asked
      exact (Prod.mk.inj (Option.some.inj asked)).1.symm
    · rw [event] at asked
      cases asked
  refine ⟨tr, t, run, events, by simpa using lengths, ?_⟩
  refine (frames_covered_iff (fun _ => {}) run ?_).mpr ?_
  · intro x hx request connection asked
    rw [only x hx request connection asked]
    decide
  · intro x hx request connection asked
    rw [only x hx request connection asked]
    exact ⟨by decide, by decide, by decide⟩

/-- Host and port of a frame. -/
def Output.destination? : Output IPv4Address → Option (QString × UInt16)
  | .frame _ _ _ host port => some (host, port)
  | _ => none

def lightRequest (path : String) (proxyUri : Url) : Request where
  message := { type := .confirmable, token := [1, 2] }
  uri := lightUrl path
  proxyUri := proxyUri
  method := Method.get

/-- A path that is not ASCII, and three proxy URLs: without a port, for the other kind of
connection, and of a group. Each with the place its first frame goes to. -/
def misdirected : List (Request × QString × UInt16) :=
  [(lightRequest "/ü" {}, [], 65535),
    (lightRequest "/light" { lightProxy with port := -1 }, "10.20.30.1".toList, 65535),
    (lightRequest "/light" { lightProxy with scheme := coapSecureScheme, port := 5684 },
      "10.20.30.1".toList, 5684),
    (lightRequest "/light" { lightProxy with host := "224.0.1.187".toList },
      "224.0.1.187".toList, 5683)]

theorem misdirected_not_covered : misdirected ≠ [] ∧ ∀ x ∈ misdirected,
    send IPv4Address {} x.1 = true ∧
    ∃ (tr : List (Taken IPv4Address)) (t : Protocol IPv4Address), Framework.Run Step {} tr t ∧
      tr.map (·.event) = [.sendRequest (some 0) x.1 0 [7, 0]] ∧
      (tr.flatMap (·.outputs)).filterMap Output.destination? = [x.2] ∧
      ¬ ∀ y ∈ tr, ∀ o ∈ y.outputs, Covered (fun _ => {}) y o := by
  have each : ∀ x ∈ misdirected, send IPv4Address {} x.1 = true ∧ x.1.method ≠ Method.invalid ∧
      ¬ GoodTarget IPv4Address false x.1.message.type (chosenTarget x.1.uri x.1.proxyUri) ∧
      (Framework.execute handle {} [.sendRequest (some 0) x.1 0 [7, 0]]).any
        (fun result => (result.1.flatMap (·.outputs)).filterMap Output.destination? ==
          [x.2]) = true := by
    decide +kernel
  refine ⟨by decide, fun x hx => ?_⟩
  obtain ⟨passes, method, bad, ran⟩ := each x hx
  obtain ⟨tr, t, run, events, destinations⟩ :=
    Framework.exists_run_of_execute Step step_of_handle ran
  refine ⟨passes, tr, t, run, events, by simpa using destinations, fun covered => bad ?_⟩
  obtain ⟨y, rfl, event⟩ : ∃ y, tr = [y] ∧ y.event = .sendRequest (some 0) x.1 0 [7, 0] :=
    List.map_eq_singleton_iff.mp events
  obtain ⟨source, step, -⟩ := run.of_cons
  rw [← source] at step
  have asked : y.event.request? = some (x.1, 0) := by
    rw [event]
    exact if_neg method
  exact goodTarget_of_covered step (send_spec passes).2.1 asked (covered y (by simp))

end Instances

end QtCoap
