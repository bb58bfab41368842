import QtCoap.Client.Send
import QtCoap.Reply.Discovery
import QtCoap.Reply.UrlCancellation

namespace QtCoap

namespace Request

variable (r : Request)

/-- `QCoapRequestPrivate::setUrl`. -/
def setUrl (url : Url) : Request :=
  if url.isEmpty then { r with uri := url }
  else if !url.isValid then r
  else if url.scheme.isEmpty then { r with uri := url }
  else if url.scheme = coapScheme then
    { r with uri := if url.port = -1 then { url with port := requestPort false } else url }
  else if url.scheme = coapSecureScheme then
    { r with uri := if url.port = -1 then { url with port := requestPort true } else url }
  else r

/-- `QCoapRequest(const QUrl &)`. -/
def ofUrl (url : Url) : Request := ({} : Request).setUrl url

def isObserve : Bool := r.message.hasOption OptionName.observe

/-- `enableObserve`. -/
def enableObserve : Request :=
  if r.isObserve then r
  else { r with message := r.message.addOption ⟨OptionName.observe, []⟩ }

def setPayload (payload : QByteArray) : Request :=
  { r with message := { r.message with payload := payload } }

end Request

inductive MulticastGroup
  | allCoapNodesIPv4
  | allCoapNodesIPv6LinkLocal
  | allCoapNodesIPv6SiteLocal
  deriving DecidableEq, Repr

def MulticastGroup.host : MulticastGroup → QString
  | allCoapNodesIPv4 => "224.0.1.187".toList
  | allCoapNodesIPv6LinkLocal => "ff02::fd".toList
  | allCoapNodesIPv6SiteLocal => "ff05::fd".toList

/-- `QUrl::setPort`; there is no URL with a port that is out of range. -/
def Url.setPort (u : Url) (port : Int) : Option Url :=
  if port < -1 ∨ 65535 < port then none else some { u with port := port }

namespace Client

variable (Addr : Type) [Platform Addr] (parse : QString → Url) (connection : Connection)

/-- `QCoapClientPrivate::sendRequest`: the reply, unless the request is refused. -/
def sendRequest (request : Request) : Option Reply :=
  if send Addr connection request then some { request := request } else none

/-- `QCoapClientPrivate::sendDiscovery`. -/
def sendDiscovery (request : Request) : Option (DiscoveryReply Addr) :=
  if send Addr connection request then some { request := request } else none

def get (request : Request) : Option Reply :=
  sendRequest Addr connection (createRequest parse request Method.get connection.isSecure)

def put (request : Request) (data : QByteArray) : Option Reply :=
  let copyRequest := createRequest parse request Method.put connection.isSecure
  sendRequest Addr connection (if data.isEmpty then copyRequest else copyRequest.setPayload data)

def post (request : Request) (data : QByteArray) : Option Reply :=
  let copyRequest := createRequest parse request Method.post connection.isSecure
  sendRequest Addr connection (if data.isEmpty then copyRequest else copyRequest.setPayload data)

/-- `put` with what a device holds. -/
def putDevice (request : Request) (device : Option QByteArray) : Option Reply :=
  put Addr parse connection request (device.getD [])

/-- `post` with what a device holds, which has to be there. -/
def postDevice (request : Request) (device : Option QByteArray) : Option Reply :=
  match device with
  | none => none
  | some data => post Addr parse connection request data

def deleteResource (request : Request) : Option Reply :=
  sendRequest Addr connection (createRequest parse request Method.delete connection.isSecure)

/-- The URL is adjusted here and once more in `get`. -/
def observe (request : Request) : Option Reply :=
  get Addr parse connection
    (createRequest parse request Method.get connection.isSecure).enableObserve

/-- `discover` for a multicast group. -/
def discoverGroup (group : MulticastGroup) (port : Int) (discoveryPath : QString) :
    Option (DiscoveryReply Addr) :=
  let discoveryUrl := Url.setPort { host := group.host, path := discoveryPath } port
  -- a URL that is not valid is not set
  let request := discoveryUrl.elim {} Request.ofUrl
  sendDiscovery Addr connection (createRequest parse request Method.get connection.isSecure)

def discover (url : Url) (discoveryPath : QString) : Option (DiscoveryReply Addr) :=
  let discoveryUrl := { url with path := url.path ++ discoveryPath }
  sendDiscovery Addr connection
    (createRequest parse (Request.ofUrl discoveryUrl) Method.get connection.isSecure)

/-- `cancelObserve(const QUrl &)`: what is queued for the protocol. -/
def cancelObserve (url : Url) : Call :=
  .cancelObserveUrl (adjustedUrl parse url connection.isSecure)

end Client

/-- The ways to send a request. A device is known by what it holds; there is none behind a null
pointer. -/
inductive Verb
  | get
  | put (data : QByteArray)
  | putDevice (device : Option QByteArray)
  | post (data : QByteArray)
  | postDevice (device : Option QByteArray)
  | deleteResource
  | observe
  deriving DecidableEq, Repr

namespace Verb

def method : Verb → Method
  | get | observe => Method.get
  | put _ | putDevice _ => Method.put
  | post _ | postDevice _ => Method.post
  | deleteResource => Method.delete

/-- The data that replaces the payload, if it is not empty. -/
def data : Verb → QByteArray
  | put data | post data => data
  | putDevice device | postDevice device => device.getD []
  | _ => []

/-- To `put` a null device is as good as an empty one; there is no `post` of it. -/
def isUsable : Verb → Bool
  | postDevice device => device.isSome
  | _ => true

def perform (Addr : Type) [Platform Addr] (parse : QString → Url) (connection : Connection)
    (request : Request) : Verb → Option Reply
  | get => Client.get Addr parse connection request
  | put data => Client.put Addr parse connection request data
  | putDevice device => Client.putDevice Addr parse connection request device
  | post data => Client.post Addr parse connection request data
  | postDevice device => Client.postDevice Addr parse connection request device
  | deleteResource => Client.deleteResource Addr parse connection request
  | observe => Client.observe Addr parse connection request

end Verb

namespace Url

/-- The URL with the scheme of the connection, and a port. -/
def completed (u : Url) (isSecure : Bool) : Url :=
  { u with
    scheme := requestScheme isSecure
    port := if u.port = -1 then requestPort isSecure else u.port }

/-- Nothing is left to adjust. -/
structure Complete (u : Url) : Prop where
  valid : u.isValid = true
  host : u.host ≠ []
  scheme : u.scheme ≠ []
  port : u.port ≠ -1

theorem isEmpty_of_isValid {u : Url} (valid : u.isValid = true) : u.isEmpty = false := by
  simp only [isValid, Bool.and_eq_true, Bool.not_eq_true'] at valid
  exact valid.1

/-- With a host, scheme and port do not matter. -/
theorem isValid_of_host {u v : Url} (valid : u.isValid = true) (host : u.host ≠ [])
    (same : v.host = u.host) (path : v.path = u.path) : v.isValid = true := by
  have authority : u.host.isEmpty = false := by simpa using host
  simp only [isValid, hasAuthority, isEmpty, Bool.and_eq_true, same, path, authority] at valid ⊢
  refine ⟨?_, by simpa using valid.2⟩
  rw [Bool.not_eq_true', beq_eq_false_iff_ne]
  intro empty
  rw [empty] at same
  exact host same.symm

end Url

theorem requestScheme_ne (isSecure : Bool) : requestScheme isSecure ≠ [] := by
  cases isSecure <;> decide

theorem requestPort_ne (isSecure : Bool) : requestPort isSecure ≠ -1 := by
  cases isSecure <;> decide

theorem Url.Complete.adjustedUrl_eq {u : Url} (complete : u.Complete) (parse : QString → Url)
    (isSecure : Bool) : adjustedUrl parse u isSecure = u := by
  have host : u.host.isEmpty = false := by simpa using complete.host
  have scheme : u.scheme.isEmpty = false := by simpa using complete.scheme
  have finalized : finalizedUrl parse u isSecure = u := by
    simp only [finalizedUrl]
    rw [host, scheme]
    rfl
  simp only [adjustedUrl]
  rw [finalized, Url.isEmpty_of_isValid complete.valid, complete.valid, host]
  simp [complete.port]

/-- With a host in the URL there is nothing to parse again. -/
theorem adjustedUrl_of_host {u : Url} (valid : u.isValid = true) (host : u.host ≠ [])
    (parse : QString → Url) (isSecure : Bool) :
    adjustedUrl parse u isSecure =
      { u with
        scheme := if u.scheme = [] then requestScheme isSecure else u.scheme
        port := if u.port = -1 then requestPort isSecure else u.port } := by
  have host' : u.host.isEmpty = false := by simpa using host
  have finalized : finalizedUrl parse u isSecure =
      { u with scheme := if u.scheme = [] then requestScheme isSecure else u.scheme } := by
    simp only [finalizedUrl]
    rw [host']
    by_cases none : u.scheme = []
    · simp [none]
    · simp [none]
  simp only [adjustedUrl]
  rw [finalized, Url.isEmpty_of_isValid valid, valid]
  dsimp only
  rw [host']
  by_cases unset : u.port = -1
  · simp [unset]
  · simp [unset]

theorem adjustedUrl_of_invalid {u : Url} (invalid : u.isValid = false) (parse : QString → Url)
    (isSecure : Bool) : adjustedUrl parse u isSecure = {} := by
  simp [adjustedUrl, invalid]

theorem complete_adjustedUrl_of_host {u : Url} (valid : u.isValid = true) (host : u.host ≠ [])
    (parse : QString → Url) (isSecure : Bool) : (adjustedUrl parse u isSecure).Complete := by
  rw [adjustedUrl_of_host valid host]
  refine ⟨Url.isValid_of_host valid host rfl rfl, host, ?_, ?_⟩
  · dsimp only
    split_ifs with none
    · exact requestScheme_ne isSecure
    · exact none
  · dsimp only
    split_ifs with unset
    · exact requestPort_ne isSecure
    · exact unset

/-- To adjust once more changes nothing then. -/
theorem adjustedUrl_twice_of_host {u : Url} (host : u.host ≠ []) (parse : QString → Url)
    (isSecure : Bool) :
    adjustedUrl parse (adjustedUrl parse u isSecure) isSecure = adjustedUrl parse u isSecure := by
  cases valid : u.isValid with
  | true => exact (complete_adjustedUrl_of_host valid host parse isSecure).adjustedUrl_eq ..
  | false =>
    rw [adjustedUrl_of_invalid valid]
    rfl

section Acceptance

variable (Addr : Type) [Platform Addr]

/-- What the client asks of a request whose URL has a host. -/
structure Acceptable (isSecure : Bool) (request : Request) : Prop where
  valid : request.uri.isValid = true
  scheme : request.uri.scheme = [] ∨ request.uri.scheme = requestScheme isSecure
  fragment : request.uri.fragment = none
  unicast : request.message.type = .confirmable →
    Platform.isMulticast (Platform.ofHost request.uri.host : Addr) = false

instance decidableAcceptable (isSecure : Bool) (request : Request) :
    Decidable (Acceptable Addr isSecure request) :=
  decidable_of_iff
    (request.uri.isValid = true ∧
      (request.uri.scheme = [] ∨ request.uri.scheme = requestScheme isSecure) ∧
      request.uri.fragment = none ∧ (request.message.type = .confirmable →
        Platform.isMulticast (Platform.ofHost request.uri.host : Addr) = false))
    ⟨fun ⟨valid, scheme, fragment, unicast⟩ => ⟨valid, scheme, fragment, unicast⟩,
      fun h => ⟨h.valid, h.scheme, h.fragment, h.unicast⟩⟩

namespace Verb

/-- The request that is sent. -/
def built (verb : Verb) (isSecure : Bool) (request : Request) : Request :=
  let r := { request with method := verb.method, uri := request.uri.completed isSecure }
  match verb with
  | observe => r.enableObserve
  | _ => if verb.data.isEmpty then r else r.setPayload verb.data

end Verb

variable {connection : Connection} {request : Request}

theorem send_iff : send Addr connection request = true ↔
    request.uri.scheme = requestScheme connection.isSecure ∧ isUrlValid request.uri = true ∧
      (request.message.type = .confirmable →
        Platform.isMulticast (Platform.ofHost request.uri.host : Addr) = false) := by
  refine ⟨send_spec, ?_⟩
  rintro ⟨scheme, valid, unicast⟩
  simp only [send]
  rw [if_neg (by simpa using scheme), if_neg (by simp [valid])]
  refine if_neg ?_
  rw [Bool.and_eq_true, beq_iff_eq]
  rintro ⟨multicast, confirmable⟩
  rw [unicast confirmable] at multicast
  cases multicast

theorem isUrlValid_of_scheme {u : Url} {isSecure : Bool}
    (scheme : u.scheme = requestScheme isSecure) :
    isUrlValid u = true ↔ u.isValid = true ∧ u.fragment = none := by
  have notLocal : u.isLocalFile = false := by
    simp only [Url.isLocalFile]
    rw [scheme]
    cases isSecure <;> decide
  have absolute : u.isRelative = false := by
    simp only [Url.isRelative]
    rw [scheme]
    cases isSecure <;> decide
  have coap : (u.scheme == coapScheme || u.scheme == coapSecureScheme) = true := by
    rw [scheme]
    cases isSecure <;> decide
  simp [isUrlValid, notLocal, absolute, coap, Url.hasFragment]

/-- What passes is in the request as the application has made it. -/
theorem send_adjusted_iff (parse : QString → Url) (host : request.uri.host ≠ []) {r : Request}
    (uri : r.uri = adjustedUrl parse request.uri connection.isSecure)
    (type : r.message.type = request.message.type) :
    send Addr connection r = true ↔ Acceptable Addr connection.isSecure request := by
  rw [send_iff, type]
  cases valid : request.uri.isValid with
  | false =>
    rw [uri, adjustedUrl_of_invalid valid]
    refine iff_of_false ?_ ?_
    · rintro ⟨scheme, -⟩
      exact requestScheme_ne _ scheme.symm
    · intro h
      rw [h.valid] at valid
      cases valid
  | true =>
    have complete := complete_adjustedUrl_of_host valid host parse connection.isSecure
    have form := adjustedUrl_of_host valid host parse connection.isSecure
    rw [← uri] at complete form
    have scheme : r.uri.scheme = requestScheme connection.isSecure ↔
        request.uri.scheme = [] ∨ request.uri.scheme = requestScheme connection.isSecure := by
      rw [form]
      dsimp only
      split_ifs with none <;> simp [none]
    have kept : r.uri.host = request.uri.host ∧ r.uri.fragment = request.uri.fragment := by
      rw [form]
      exact ⟨rfl, rfl⟩
    rw [kept.1]
    constructor
    · rintro ⟨own, accepted, unicast⟩
      obtain ⟨-, fragment⟩ := (isUrlValid_of_scheme own).mp accepted
      exact ⟨valid, scheme.mp own, kept.2.symm.trans fragment, unicast⟩
    · intro h
      have own := scheme.mpr h.scheme
      exact ⟨own, (isUrlValid_of_scheme own).mpr ⟨complete.valid, kept.2.trans h.fragment⟩,
        h.unicast⟩

theorem sendRequest_adjusted (parse : QString → Url) (host : request.uri.host ≠ []) {r : Request}
    (uri : r.uri = adjustedUrl parse request.uri connection.isSecure)
    (type : r.message.type = request.message.type) {built : Request}
    (made : Acceptable Addr connection.isSecure request → r = built) :
    Client.sendRequest Addr connection r =
      if Acceptable Addr connection.isSecure request then some { request := built } else none := by
  have accepts := send_adjusted_iff Addr parse host uri type
  simp only [Client.sendRequest]
  by_cases acceptable : Acceptable Addr connection.isSecure request
  · rw [if_pos (accepts.mpr acceptable), if_pos acceptable, made acceptable]
  · rw [if_neg (fun passes => acceptable (accepts.mp passes)), if_neg acceptable]

variable {Addr}

theorem adjustedUrl_of_acceptable (parse : QString → Url) (host : request.uri.host ≠ [])
    {isSecure : Bool} (h : Acceptable Addr isSecure request) :
    adjustedUrl parse request.uri isSecure = request.uri.completed isSecure := by
  rw [adjustedUrl_of_host h.valid host]
  rcases h.scheme with none | own
  · rw [if_pos none]
    rfl
  · rw [if_neg (by rw [own]; exact requestScheme_ne isSecure), own]
    rfl

theorem enableObserve_kept (r : Request) : r.enableObserve.uri = r.uri ∧
    r.enableObserve.method = r.method ∧ r.enableObserve.message.type = r.message.type := by
  simp only [Request.enableObserve]
  split_ifs
  · exact ⟨rfl, rfl, rfl⟩
  · exact ⟨rfl, rfl, rfl⟩

theorem createRequest_self (parse : QString → Url) {r : Request} {method : Method}
    {isSecure : Bool} (own : r.method = method) (uri : adjustedUrl parse r.uri isSecure = r.uri) :
    createRequest parse r method isSecure = r := by
  rw [createRequest, uri, ← own]

/-- The second adjustment of `observe` finds nothing to do. -/
theorem observe_of_host (parse : QString → Url) (connection : Connection)
    (host : request.uri.host ≠ []) :
    Client.observe Addr parse connection request = Client.sendRequest Addr connection
      (createRequest parse request Method.get connection.isSecure).enableObserve := by
  obtain ⟨uri, method, -⟩ :=
    enableObserve_kept (createRequest parse request Method.get connection.isSecure)
  have twice := adjustedUrl_twice_of_host host parse connection.isSecure
  have again := createRequest_self parse (method.trans rfl : _ = Method.get)
    ((congrArg (adjustedUrl parse · connection.isSecure) uri).trans (twice.trans uri.symm))
  exact congrArg (Client.sendRequest Addr connection) again

theorem perform_of_not_isUsable (parse : QString → Url) (connection : Connection) {verb : Verb}
    (unusable : verb.isUsable = false) (request : Request) :
    verb.perform Addr parse connection request = none := by
  cases verb with
  | postDevice device =>
    cases device with
    | none => rfl
    | some data => cases unusable
  | _ => cases unusable

/-- Every way to send a request whose URL has a host accepts the same requests, and says in full
what is sent. -/
theorem perform_eq (parse : QString → Url) (connection : Connection) {verb : Verb}
    (usable : verb.isUsable = true) (request : Request) (host : request.uri.host ≠ []) :
    verb.perform Addr parse connection request =
      if Acceptable Addr connection.isSecure request
      then some { request := verb.built connection.isSecure request } else none := by
  have adjusted (h : Acceptable Addr connection.isSecure request) :=
    adjustedUrl_of_acceptable parse host h
  have created (method : Method) (h : Acceptable Addr connection.isSecure request) :
      createRequest parse request method connection.isSecure =
        { request with method := method, uri := request.uri.completed connection.isSecure } := by
    simp only [createRequest]
    rw [adjusted h]
  have carrying (method : Method) (data : QByteArray) :
      let copyRequest := createRequest parse request method connection.isSecure
      Client.sendRequest Addr connection
          (if data.isEmpty then copyRequest else copyRequest.setPayload data) =
        if Acceptable Addr connection.isSecure request
        then some
          { request :=
              let r := { request with
                method := method, uri := request.uri.completed connection.isSecure }
              if data.isEmpty then r else r.setPayload data }
        else none := by
    refine sendRequest_adjusted Addr parse host ?_ ?_ fun h => ?_
    · split_ifs <;> rfl
    · split_ifs <;> rfl
    · rw [created method h]
  cases verb with
  | get => exact carrying Method.get []
  | put data => exact carrying Method.put data
  | putDevice device => exact carrying Method.put (device.getD [])
  | post data => exact carrying Method.post data
  | postDevice device =>
    obtain ⟨data, rfl⟩ := Option.isSome_iff_exists.mp usable
    exact carrying Method.post data
  | deleteResource => exact carrying Method.delete []
  | observe =>
    obtain ⟨uri, -, type⟩ :=
      enableObserve_kept (createRequest parse request Method.get connection.isSecure)
    refine (observe_of_host parse connection host).trans ?_
    exact sendRequest_adjusted Addr parse host uri type fun h =>
      congrArg Request.enableObserve (created Method.get h)

/-- A request counts with its adjusted URL only. -/
theorem perform_congr (parse : QString → Url) (connection : Connection) (verb : Verb)
    {request request' : Request} (same : request = { request' with uri := request.uri })
    (uri : adjustedUrl parse request.uri connection.isSecure =
      adjustedUrl parse request'.uri connection.isSecure) :
    verb.perform Addr parse connection request = verb.perform Addr parse connection request' := by
  have created (method : Method) : createRequest parse request method connection.isSecure =
      createRequest parse request' method connection.isSecure := by
    rw [createRequest, createRequest, uri, same]
  cases verb with
  | get =>
    show Client.sendRequest _ _ _ = Client.sendRequest _ _ _
    rw [created]
  | put data =>
    simp only [Verb.perform, Client.put]
    rw [created]
  | putDevice device =>
    simp only [Verb.perform, Client.putDevice, Client.put]
    rw [created]
  | post data =>
    simp only [Verb.perform, Client.post]
    rw [created]
  | postDevice device =>
    simp only [Verb.perform, Client.postDevice, Client.post]
    rw [created]
  | deleteResource =>
    show Client.sendRequest _ _ _ = Client.sendRequest _ _ _
    rw [created]
  | observe =>
    simp only [Verb.perform, Client.observe]
    rw [created]

theorem adjustedUrl_empty (parse : QString → Url) (isSecure : Bool) :
    adjustedUrl parse {} isSecure = {} := rfl

theorem perform_of_unusable (parse : QString → Url) (connection : Connection) (verb : Verb)
    {request : Request} (unusable : adjustedUrl parse request.uri connection.isSecure = {}) :
    verb.perform Addr parse connection request = none := by
  have refused {r : Request} (uri : r.uri = {}) : Client.sendRequest Addr connection r = none := by
    refine if_neg fun passes => ?_
    have scheme := (send_spec passes).1
    rw [uri] at scheme
    exact requestScheme_ne _ scheme.symm
  have created (method : Method) :
      (createRequest parse request method connection.isSecure).uri = {} := unusable
  have carrying (method : Method) (data : QByteArray) :
      let copyRequest := createRequest parse request method connection.isSecure
      Client.sendRequest Addr connection
        (if data.isEmpty then copyRequest else copyRequest.setPayload data) = none := by
    refine refused ?_
    split_ifs
    · exact created method
    · exact created method
  cases verb with
  | get => exact refused (created _)
  | put data => exact carrying Method.put data
  | putDevice device => exact carrying Method.put (device.getD [])
  | post data => exact carrying Method.post data
  | postDevice device =>
    cases device with
    | none => rfl
    | some data => exact carrying Method.post data
  | deleteResource => exact refused (created _)
  | observe =>
    refine refused ?_
    have uri := (enableObserve_kept
      (createRequest parse request Method.get connection.isSecure)).1.trans (created _)
    exact (congrArg (adjustedUrl parse · connection.isSecure) uri).trans (adjustedUrl_empty ..)

/-- What becomes of the URL of a request that is made from it. -/
inductive SetUrl (url : Url) : Url → Prop
  | kept : SetUrl url url
  | invalid (invalid : url.isValid = false) : SetUrl url {}
  | ported (isSecure : Bool) (valid : url.isValid = true)
      (scheme : url.scheme = requestScheme isSecure) (unset : url.port = -1) :
      SetUrl url { url with port := requestPort isSecure }
  | foreign (valid : url.isValid = true) (named : url.scheme ≠ [])
      (foreign : ∀ isSecure, url.scheme ≠ requestScheme isSecure) : SetUrl url {}

theorem setUrl_spec (url : Url) : SetUrl url (Request.ofUrl url).uri := by
  simp only [Request.ofUrl, Request.setUrl]
  split_ifs with empty invalid schemeless coap unset coaps unset'
  · exact .kept
  · exact .invalid (by simpa using invalid)
  · exact .kept
  · exact .ported false (by simpa using invalid) coap unset
  · exact .kept
  · exact .ported true (by simpa using invalid) coaps unset'
  · exact .kept
  · refine .foreign (by simpa using invalid) (by simpa using schemeless) ?_
    intro isSecure
    cases isSecure
    · exact coap
    · exact coaps

theorem ofUrl_eq (url : Url) : Request.ofUrl url = { uri := (Request.ofUrl url).uri } := by
  simp only [Request.ofUrl, Request.setUrl]
  split_ifs <;> rfl

theorem adjustedUrl_of_hostless {u : Url} (none : u.host = []) (named : u.scheme ≠ [])
    (parse : QString → Url) (isSecure : Bool) : adjustedUrl parse u isSecure = {} := by
  have absolute : u.scheme.isEmpty = false := by simpa using named
  have finalized : finalizedUrl parse u isSecure = u := by
    simp [finalizedUrl, Url.isRelative, absolute]
  simp [adjustedUrl, finalized, none]

theorem requestScheme_injective {isSecure isSecure' : Bool}
    (same : requestScheme isSecure = requestScheme isSecure') : isSecure = isSecure' := by
  revert same
  cases isSecure <;> cases isSecure' <;> decide

/-- It makes no difference whether a URL is checked when the request is made, as the calls with a
URL do, or set unchecked. -/
theorem perform_ofUrl (parse : QString → Url) (connection : Connection) {verb : Verb}
    (usable : verb.isUsable = true) (url : Url) :
    verb.perform Addr parse connection (Request.ofUrl url) =
      verb.perform Addr parse connection { uri := url } := by
  have spec := setUrl_spec url
  have made := ofUrl_eq url
  generalize (Request.ofUrl url).uri = uri at spec made
  rw [made]
  have refused (host : url.host ≠ []) (scheme : url.scheme ≠ [])
      (other : url.scheme ≠ requestScheme connection.isSecure) :
      verb.perform Addr parse connection { uri := url } = none := by
    rw [perform_eq parse connection usable { uri := url } host]
    exact if_neg fun h => h.scheme.elim scheme other
  cases spec with
  | kept => rfl
  | invalid invalid =>
    exact perform_congr parse connection verb rfl
      ((adjustedUrl_empty ..).trans (adjustedUrl_of_invalid invalid ..).symm)
  | foreign valid named foreign =>
    rw [perform_of_unusable parse connection verb (adjustedUrl_empty ..)]
    by_cases host : url.host = []
    · exact (perform_of_unusable parse connection verb
        (adjustedUrl_of_hostless host named ..)).symm
    · exact (refused host named (foreign _)).symm
  | ported isSecure valid scheme unset =>
    have named : url.scheme ≠ [] := scheme ▸ requestScheme_ne isSecure
    by_cases host : url.host = []
    · exact perform_congr parse connection verb rfl
        ((adjustedUrl_of_hostless (u := { url with port := requestPort isSecure }) host named
          ..).trans (adjustedUrl_of_hostless host named ..).symm)
    · by_cases own : isSecure = connection.isSecure
      · -- the port that is set is the one `adjustedUrl` would set
        refine perform_congr parse connection verb rfl ?_
        have valid' : Url.isValid { url with port := requestPort isSecure } = true :=
          Url.isValid_of_host valid host rfl rfl
        rw [adjustedUrl_of_host valid' host, adjustedUrl_of_host valid host, if_pos unset, ← own]
        simp [requestPort_ne]
      · have other : url.scheme ≠ requestScheme connection.isSecure := fun same =>
          own (requestScheme_injective (scheme.symm.trans same))
        rw [refused host named other, perform_eq parse connection usable _ host]
        exact if_neg fun h => h.scheme.elim named other

/-- The client makes no difference between a URL that is checked when the request is made, as in the
calls with a URL, and one that is set unchecked. Where the URL has a host, every way to send a
request accepts the same ones, but for a `post` of a null device, and what is sent is known in
full. -/
theorem perform_spec (parse : QString → Url) (connection : Connection) (verb : Verb) :
    (∀ url, verb.perform Addr parse connection (Request.ofUrl url) =
      verb.perform Addr parse connection { uri := url }) ∧
    ∀ request : Request, request.uri.host ≠ [] →
      verb.perform Addr parse connection request =
        if verb.isUsable = true ∧ Acceptable Addr connection.isSecure request
        then some { request := verb.built connection.isSecure request } else none := by
  cases usable : verb.isUsable with
  | false =>
    have refused := @perform_of_not_isUsable Addr _ parse connection verb usable
    refine ⟨fun url => (refused _).trans (refused _).symm, fun request _ => ?_⟩
    exact (refused request).trans (if_neg fun h => by cases h.1).symm
  | true =>
    refine ⟨perform_ofUrl parse connection usable, fun request host => ?_⟩
    rw [perform_eq parse connection usable request host]
    simp only [true_and]

theorem sendDiscovery_eq (connection : Connection) (request : Request) :
    Client.sendDiscovery Addr connection request =
      (Client.sendRequest Addr connection request).map fun reply => { toReply := reply } := by
  simp only [Client.sendDiscovery, Client.sendRequest]
  split_ifs <;> rfl

/-- A discovery is a GET request without more than its URL. -/
theorem discovery_eq (parse : QString → Url) (connection : Connection) (url : Url)
    (host : url.host ≠ []) :
    Client.sendDiscovery Addr connection
        (createRequest parse (Request.ofUrl url) Method.get connection.isSecure) =
      if url.isValid = true ∧ (url.scheme = [] ∨ url.scheme = requestScheme connection.isSecure) ∧
        url.fragment = none
      then some { request := { method := Method.get, uri := url.completed connection.isSecure } }
      else none := by
  have usable : Verb.get.isUsable = true := rfl
  have sent : Client.sendRequest Addr connection
      (createRequest parse (Request.ofUrl url) Method.get connection.isSecure) =
      Verb.get.perform Addr parse connection { uri := url } :=
    perform_ofUrl parse connection usable url
  rw [sendDiscovery_eq, sent, perform_eq parse connection usable { uri := url } host]
  by_cases accepted : url.isValid = true ∧
      (url.scheme = [] ∨ url.scheme = requestScheme connection.isSecure) ∧ url.fragment = none
  · obtain ⟨valid, scheme, fragment⟩ := accepted
    have unconfirmable : ({ uri := url } : Request).message.type ≠ .confirmable := nofun
    rw [if_pos ⟨valid, scheme, fragment, fun confirmable => absurd confirmable unconfirmable⟩,
      if_pos ⟨valid, scheme, fragment⟩]
    rfl
  · rw [if_neg fun h => accepted ⟨h.valid, h.scheme, h.fragment⟩, if_neg accepted]
    rfl

theorem MulticastGroup.host_ne (group : MulticastGroup) : group.host ≠ [] := by
  cases group <;> decide

/-- The discovery in a group takes any port that there is and any absolute path, over secure
connections also; the discovery at a URL takes what a GET request to it does. -/
theorem discover_spec (parse : QString → Url) (connection : Connection) :
    (∀ group port path, Client.discoverGroup Addr parse connection group port path =
      if -1 ≤ port ∧ port ≤ 65535 ∧ (path = [] ∨ path.head? = some '/')
      then some { request := { method := Method.get, uri := {
        scheme := requestScheme connection.isSecure, host := group.host,
        port := if port = -1 then requestPort connection.isSecure else port, path := path } } }
      else none) ∧
    ∀ url path, url.host ≠ [] → Client.discover Addr parse connection url path =
      let url := { url with path := url.path ++ path }
      if url.isValid = true ∧ (url.scheme = [] ∨ url.scheme = requestScheme connection.isSecure) ∧
        url.fragment = none
      then some { request := { method := Method.get, uri := url.completed connection.isSecure } }
      else none := by
  refine ⟨?_, fun url path host => discovery_eq parse connection _ host⟩
  intro group port path
  have host := group.host_ne
  simp only [Client.discoverGroup, Url.setPort]
  by_cases range : port < -1 ∨ 65535 < port
  · rw [if_pos range, if_neg (by omega), sendDiscovery_eq]
    have refused : Verb.get.perform Addr parse connection {} = none :=
      perform_of_unusable parse connection .get (adjustedUrl_empty ..)
    exact congrArg (Option.map fun reply => ({ toReply := reply } : DiscoveryReply Addr)) refused
  · have valid : Url.isValid { host := group.host, port := port, path := path } = true ↔
        path = [] ∨ path.head? = some '/' := by
      have authority : group.host.isEmpty = false := by simpa using host
      have some_url : ({ host := group.host, port := port, path := path } : Url) ≠ {} :=
        fun empty => host (congrArg Url.host empty)
      simp [Url.isValid, Url.hasAuthority, Url.isEmpty, authority, some_url]
    rw [if_neg range]
    refine (discovery_eq parse connection
      { host := group.host, port := port, path := path } host).trans ?_
    by_cases absolute : path = [] ∨ path.head? = some '/'
    · rw [if_pos ⟨valid.mpr absolute, .inl rfl, rfl⟩, if_pos ⟨by omega, by omega, absolute⟩]
      rfl
    · rw [if_neg fun h => absolute (valid.mp h.1), if_neg fun h => absolute h.2.2]

end Acceptance

section Cancellation

variable {Addr : Type} [Platform Addr] {parse : QString → Url}
  {connection : Connection} {request : Request}

/-- What `QUrl` makes of a text that starts with the scheme and two slashes: where it finds a host,
it finds the scheme. -/
def KeepsScheme (parse : QString → Url) (isSecure : Bool) : Prop :=
  ∀ text, (parse (requestScheme isSecure ++ "://".toList ++ text)).host ≠ [] →
    (parse (requestScheme isSecure ++ "://".toList ++ text)).scheme = requestScheme isSecure

theorem scheme_finalizedUrl {isSecure : Bool} (keeps : KeepsScheme parse isSecure) {u : Url}
    (host : (finalizedUrl parse u isSecure).host ≠ []) :
    (finalizedUrl parse u isSecure).scheme ≠ [] := by
  simp only [finalizedUrl] at host ⊢
  split_ifs at host ⊢ with mistaken none
  · rw [keeps _ host]
    exact requestScheme_ne isSecure
  · exact requestScheme_ne isSecure
  · simpa using none

/-- A URL of use that `adjustedUrl` has made is complete. -/
theorem complete_adjustedUrl {isSecure : Bool} (keeps : KeepsScheme parse isSecure) {u : Url}
    (known : u.port = -1 ∨ u.host ≠ []) (valid : (adjustedUrl parse u isSecure).isValid = true) :
    (adjustedUrl parse u isSecure).Complete := by
  have usable := valid
  simp only [adjustedUrl] at usable ⊢
  split_ifs at usable ⊢ with unusable hostless unset
  · cases usable
  · cases usable
  · have host : (finalizedUrl parse u isSecure).host ≠ [] := by simpa using hostless
    exact ⟨usable, host, scheme_finalizedUrl keeps host, requestPort_ne isSecure⟩
  · have host : (finalizedUrl parse u isSecure).host ≠ [] := by simpa using hostless
    refine ⟨usable, host, scheme_finalizedUrl keeps host, ?_⟩
    have given : u.host.isEmpty = false := by simpa using known.resolve_left unset
    have port : (finalizedUrl parse u isSecure).port = u.port := by
      simp only [finalizedUrl]
      rw [if_neg (by simp [given])]
      split_ifs <;> rfl
    rw [port]
    exact unset

/-- To observe and to cancel the observation lead to the same URL. -/
theorem uri_observe (keeps : KeepsScheme parse connection.isSecure)
    (known : request.uri.port = -1 ∨ request.uri.host ≠ []) {reply : Reply}
    (observed : Client.observe Addr parse connection request = some reply) :
    reply.request.uri = adjustedUrl parse request.uri connection.isSecure := by
  simp only [Client.observe, Client.get, Client.sendRequest] at observed
  split_ifs at observed with passes
  obtain rfl := Option.some.inj observed
  have once := (enableObserve_kept
    (createRequest parse request Method.get connection.isSecure)).1
  have twice : (createRequest parse
      (createRequest parse request Method.get connection.isSecure).enableObserve Method.get
      connection.isSecure).uri =
      adjustedUrl parse (adjustedUrl parse request.uri connection.isSecure) connection.isSecure :=
    congrArg (adjustedUrl parse · connection.isSecure) once
  have accepted := (send_spec passes).2.1
  rw [twice] at accepted
  have valid : (adjustedUrl parse request.uri connection.isSecure).isValid = true := by
    by_contra invalid
    rw [adjustedUrl_of_invalid (by simpa using invalid)] at accepted
    cases accepted
  exact twice.trans ((complete_adjustedUrl keeps known valid).adjustedUrl_eq ..)

/-- An observation is cancelled by the URL it was asked for with, however the URL was written, once
its reply has been set running: it is cancelled then, and no notification is posted to the reply
any more. -/
theorem observe_cancelled (keeps : KeepsScheme parse connection.isSecure)
    (known : request.uri.port = -1 ∨ request.uri.host ≠ []) {reply : Reply}
    (observed : Client.observe Addr parse connection request = some reply)
    {s t : Threads Addr} {id : ReplyId} (initial : s.Initial) (made : s.replies id = reply)
    {front later : List (Framework.Transition (Threads Addr) _ _)}
    {x : Framework.Transition (Threads Addr) (ThreadEvent Addr) (Emission Addr)}
    (run : Framework.Run Threads.Step s (front ++ x :: later) t)
    (called : ∃ draws, x.event = .call draws)
    (oldest : x.source.calls.head? = some (Client.cancelObserve parse connection request.uri))
    {key : Token} {e : ExchangeData Addr}
    (registered : x.source.protocol.exchangeMap.find? key = some e) (user : e.userReply = some id)
    (observes : e.request.isObserve = true) (running : announcements id x.source.posted = []) :
    x.target.protocol.exchangeMap.find? key =
      some { e with request := e.request.setObserveCancelled } ∧
    ∀ y ∈ later, .protocol (.post id .setNotified) ∉ y.outputs := by
  obtain ⟨m, before, after⟩ := run.of_append
  obtain ⟨rfl, step, after⟩ := after.of_cons
  have orderly := before.invariant (fun h step => Threads.Orderly.step h step)
    (Threads.initial_orderly initial)
  have url := before.invariant (P := fun u => u.urls id = s.urls id)
    (fun same step => (Threads.urls_of_step step).trans same) rfl
  have addressed : x.source.urls id = adjustedUrl parse request.uri connection.isSecure := by
    rw [url, Threads.urls, made]
    exact uri_observe keeps known observed
  obtain ⟨draws, event⟩ := called
  rw [event] at step
  have cancels : x.source.Cancels id (Client.cancelObserve parse connection request.uri) :=
    .inr ⟨_, rfl, addressed⟩
  have owns : x.source.protocol.Owns key id := ⟨e, registered, user⟩
  refine ⟨?_, Threads.cancelled_run orderly step after oldest cancels owns running⟩
  obtain ⟨os, cancelled, each⟩ := Threads.call_cancels orderly step oldest cancels running
  rcases cancelled.each key with same | ⟨e', found, -, changed⟩
  · have already := each key owns e (same.trans registered) observes
    rw [same, registered, InternalRequest.setObserveCancelled, ← already]
  · obtain rfl := Option.some.inj (found.symm.trans registered)
    exact changed

end Cancellation

section Instances

open Threads

theorem perform_spec_light :
    Verb.observe.perform IPv4Address (fun _ => {}) {} (Request.ofUrl (lightUrl "/light")) =
      some { request := Verb.observe.built false { uri := lightUrl "/light" } } ∧
    (Verb.put [65]).perform IPv4Address (fun _ => {}) {}
      { uri := { lightUrl "/light" with scheme := coapSecureScheme } } = none ∧
    (Verb.postDevice none).perform IPv4Address (fun _ => {}) {} { uri := lightUrl "/light" } =
      none := by
  have observes := @perform_spec IPv4Address _ (fun _ => {}) {} .observe
  have puts := @perform_spec IPv4Address _ (fun _ => {}) {} (.put [65])
  have posts := @perform_spec IPv4Address _ (fun _ => {}) {} (.postDevice none)
  refine ⟨(observes.1 _).trans ?_, ?_, ?_⟩
  · exact (observes.2 { uri := lightUrl "/light" } (by decide)).trans (if_pos (by decide))
  · refine (puts.2 { uri := { lightUrl "/light" with scheme := coapSecureScheme } }
      (by decide)).trans (if_neg (by decide))
  · exact (posts.2 { uri := lightUrl "/light" } (by decide)).trans (if_neg (by decide))

theorem discover_spec_light :
    Client.discover IPv4Address (fun _ => {}) {} (lightUrl "") "/.well-known/core".toList =
      some { request := { method := Method.get, uri := lightUrl "/.well-known/core" } } := by
  have spec := (@discover_spec IPv4Address _ (fun _ => {}) {}).2
  exact (spec (lightUrl "") "/.well-known/core".toList (by decide)).trans (if_pos (by decide))

/-- A request for "10.0.0.1/r", where the host is taken for a part of the path at first. -/
def withoutScheme : Request where
  uri := { path := "10.0.0.1/r".toList }

/-- What the text is parsed to with the scheme in front of it. -/
def withScheme (_ : QString) : Url :=
  { scheme := coapScheme, host := "10.0.0.1".toList, path := "/r".toList }

def observed : Reply where
  request := (createRequest withScheme withoutScheme Method.get false).enableObserve

def observing : Threads IPv4Address where
  replies _ := observed

/-- It is observed, cancelled by the same text, and notified after that. -/
def cancelledByText : List (ThreadEvent IPv4Address) :=
  [.send 0 0, .call [7, 0, 1, 2, 3, 4, 0], .deliver,
    .cancelObserveUrl (adjustedUrl withScheme withoutScheme.uri false), .call [],
    .protocol (.frameReceived [0x54, 0x45, 0, 9, 1, 2, 3, 4, 0xFF, 65] serverAddress [])]

theorem observe_cancelled_cancelledByText :
    Client.observe IPv4Address withScheme {} withoutScheme = some observed ∧
    ∃ (front later : List (Framework.Transition (Threads IPv4Address) _ _))
      (x : Framework.Transition (Threads IPv4Address) _ _) (t : Threads IPv4Address)
      (e : ExchangeData IPv4Address),
      Framework.Run Threads.Step observing (front ++ x :: later) t ∧
      x.source.protocol.exchangeMap.find? [1, 2, 3, 4] = some e ∧
      x.target.protocol.exchangeMap.find? [1, 2, 3, 4] =
        some { e with request := e.request.setObserveCancelled } ∧
      (∃ y ∈ later, y.outputs ≠ []) ∧
      ∀ y ∈ later, .protocol (.post 0 .setNotified) ∉ y.outputs := by
  have accepted : Client.observe IPv4Address withScheme {} withoutScheme = some observed := by
    decide
  have ran : (Framework.execute Threads.handle observing cancelledByText).any (fun result =>
      (result.1.drop 4).head?.any (fun x => isCall x.event &&
        x.source.calls.head? == some (Client.cancelObserve withScheme {} withoutScheme.uri) &&
        x.source.posted.isEmpty &&
        (x.source.protocol.exchangeMap.find? [1, 2, 3, 4]).any
          (fun e => e.userReply == some 0 && e.request.isObserve)) &&
      (result.1.drop 4).tail.any (fun y => !y.outputs.isEmpty)) = true := by
    decide +kernel
  obtain ⟨tr, t, run, -, facts⟩ :=
    Framework.exists_run_of_execute Threads.Step (fun handled => handled) ran
  obtain ⟨facts, last⟩ := (Bool.and_eq_true ..).mp facts
  obtain ⟨x, first, facts⟩ := (Option.any_eq_true ..).mp facts
  obtain ⟨later, split⟩ := List.head?_eq_some_iff.mp first
  rw [split] at last
  obtain ⟨y, hy, out⟩ := List.any_eq_true.mp last
  simp only [Bool.and_eq_true, beq_iff_eq, List.isEmpty_iff, Option.any_eq_true] at facts
  obtain ⟨⟨⟨called, oldest⟩, posted⟩, e, found, user, observes⟩ := facts
  have whole : tr = tr.take 4 ++ x :: later := by rw [← split, List.take_append_drop]
  rw [whole] at run
  obtain ⟨cancelled, quiet⟩ := observe_cancelled (fun _ _ => rfl) (.inl rfl) accepted
    ⟨⟨rfl, rfl, fun _ => ⟨_, rfl⟩⟩, rfl, fun _ => ⟨rfl, rfl⟩⟩ rfl run (call_of_isCall called)
    oldest found user observes (by rw [posted]; rfl)
  exact ⟨accepted, _, later, x, t, e, run, found, cancelled, ⟨y, hy, by simpa using out⟩, quiet⟩

end Instances

end QtCoap
