import QtCoap.Reply.System

namespace QtCoap

/-- What the application thread queues for the protocol thread: the calls of `QCoapClient`, and
the `aborted` signal of a reply. -/
inductive Call
  | sendRequest (reply : ReplyId) (connection : ConnectionId)
  | aborted (reply : ReplyId) (token : Token)
  | cancelObserve (reply : ReplyId)
  | cancelObserveUrl (url : Url)
  deriving DecidableEq

/-- Both threads, as long as no reply is destroyed. Slot calls travel to the application, calls to
the protocol, each in order. The `aborted` signal of a reply reaches the protocol once
`connected`. -/
structure Threads (Addr : Type) extends System Addr where
  calls : List Call := []
  sent : ReplyId → Bool := fun _ => false
  connected : ReplyId → Bool := fun _ => false

/-- The application sends a request with a new reply, aborts it or cancels observations; a slot call
is delivered; or the protocol handles the oldest call or something of its own. -/
inductive ThreadEvent (Addr : Type)
  | send (reply : ReplyId) (connection : ConnectionId)
  | abortRequest (reply : ReplyId)
  | cancelObserve (reply : ReplyId)
  | cancelObserveUrl (url : Url)
  | deliver
  | call (draws : Draws)
  | protocol (event : Event Addr)

/-- The check at the start of `sendRequest`. -/
def Request.accepted (request : Request) : Bool :=
  request.method != Method.invalid && isUrlValid request.uri

/-- What the protocol handles on its own account. -/
def Event.isOwn {Addr : Type} : Event Addr → Bool
  | .sendRequest _ _ _ _ | .aborted _ _ | .cancelObserve _ _ | .cancelObserveUrl _ _
  | .replyDestroyed _ => false
  | _ => true

/-- A call as it is handled, which reads the replies then. -/
def Call.event {Addr : Type} (replies : ReplyId → Reply) (draws : Draws) : Call → Event Addr
  | .sendRequest id connection => .sendRequest (some id) (replies id).request connection draws
  | .aborted id token => .aborted id token
  | .cancelObserve id => .cancelObserve (some id) (replies id).request.message.token
  | .cancelObserveUrl url =>
    .cancelObserveUrl url fun id => ((replies id).request.uri, (replies id).request.message.token)

/-- The signals of a reply that the protocol is connected to. -/
def abortedCalls (id : ReplyId) (signals : List Signal) : List Call :=
  signals.filterMap fun
    | .aborted token => some (.aborted id token)
    | _ => none

namespace Threads

variable {Addr : Type}

/-- The replies whose `aborted` is connected after a call. -/
def connectedBy (s : Threads Addr) : Call → ReplyId → Bool
  | .sendRequest id _ =>
    if (s.replies id).request.accepted then Function.update s.connected id true else s.connected
  | _ => s.connected

/-- No request has been sent yet. -/
def Initial (s : Threads Addr) : Prop :=
  s.toSystem.Initial ∧ s.calls = [] ∧ ∀ id, s.sent id = false ∧ s.connected id = false

variable [Platform Addr]

def handle (s : Threads Addr) : ThreadEvent Addr → Option (Threads Addr × List (Emission Addr))
  | .send id connection =>
    if s.sent id then none
    else
      some ({ s with
          calls := s.calls ++ [.sendRequest id connection]
          sent := Function.update s.sent id true }, [])
  | .abortRequest id =>
    if !s.sent id then none
    else
      let signals := (s.replies id).abortRequest.2
      (s.toSystem.handle (.abortRequest id)).map fun result =>
        ({ s with
            toSystem := result.1
            calls := s.calls ++ if s.connected id then abortedCalls id signals else [] },
          result.2)
  | .cancelObserve id =>
    if !s.sent id then none
    else some ({ s with calls := s.calls ++ [.cancelObserve id] }, [])
  | .cancelObserveUrl url => some ({ s with calls := s.calls ++ [.cancelObserveUrl url] }, [])
  | .deliver =>
    (s.toSystem.handle .deliver).map fun result => ({ s with toSystem := result.1 }, result.2)
  | .call draws =>
    match s.calls with
    | [] => none
    | call :: calls =>
      (s.toSystem.handle (.protocol (call.event s.replies draws))).map fun result =>
        ({ s with
            toSystem := result.1
            calls := calls
            connected := s.connectedBy call }, result.2)
  | .protocol event =>
    if event.isOwn then
      (s.toSystem.handle (.protocol event)).map fun result =>
        ({ s with toSystem := result.1 }, result.2)
    else none

def Step (s : Threads Addr) (event : ThreadEvent Addr) (emissions : List (Emission Addr))
    (t : Threads Addr) : Prop :=
  s.handle event = some (t, emissions)

variable {s t : Threads Addr} {emissions : List (Emission Addr)} {id : ReplyId}

theorem step_send {connection : ConnectionId} (h : Step s (.send id connection) emissions t) :
    s.sent id = false ∧ emissions = [] ∧ t = { s with
      calls := s.calls ++ [.sendRequest id connection]
      sent := Function.update s.sent id true } := by
  dsimp only [Step, handle] at h
  split_ifs at h with sent
  obtain ⟨rfl, rfl⟩ := Prod.mk.inj (Option.some.inj h)
  exact ⟨by simpa using sent, rfl, rfl⟩

theorem step_abortRequest (h : Step s (.abortRequest id) emissions t) :
    s.sent id = true ∧ t.protocol = s.protocol ∧ t.posted = s.posted ∧ t.sent = s.sent ∧
      t.connected = s.connected ∧
      t.replies = Function.update s.replies id (s.replies id).abortRequest.1 ∧
      t.calls = s.calls ++
        if s.connected id then abortedCalls id (s.replies id).abortRequest.2 else [] := by
  dsimp only [Step, handle] at h
  split_ifs at h with unsent
  all_goals
    obtain ⟨⟨system, signals⟩, aborted, same⟩ := Option.map_eq_some_iff.mp h
    obtain ⟨rfl, -⟩ := Prod.mk.inj same
    obtain ⟨protocol, posted, replies⟩ := System.step_abortRequest aborted
    exact ⟨by simpa using unsent, protocol, posted, rfl, rfl, replies, by simp [*]⟩

theorem step_cancelObserve (h : Step s (.cancelObserve id) emissions t) :
    emissions = [] ∧ t = { s with calls := s.calls ++ [.cancelObserve id] } := by
  dsimp only [Step, handle] at h
  split_ifs at h
  obtain ⟨rfl, rfl⟩ := Prod.mk.inj (Option.some.inj h)
  exact ⟨rfl, rfl⟩

theorem step_cancelObserveUrl {url : Url} (h : Step s (.cancelObserveUrl url) emissions t) :
    emissions = [] ∧ t = { s with calls := s.calls ++ [.cancelObserveUrl url] } := by
  obtain ⟨rfl, rfl⟩ := Prod.mk.inj (Option.some.inj h)
  exact ⟨rfl, rfl⟩

theorem step_deliver (h : Step s .deliver emissions t) :
    t.calls = s.calls ∧ t.sent = s.sent ∧ t.connected = s.connected ∧
      t.protocol = s.protocol ∧ ∃ id slot, s.posted = (id, slot) :: t.posted ∧
        t.replies = Function.update s.replies id ((s.replies id).handle slot).1 := by
  obtain ⟨⟨system, signals⟩, delivered, same⟩ := Option.map_eq_some_iff.mp h
  obtain ⟨rfl, -⟩ := Prod.mk.inj same
  obtain ⟨id, slot, posted, protocol, replies⟩ := System.step_deliver delivered
  exact ⟨rfl, rfl, rfl, protocol, id, slot, posted, replies⟩

theorem step_call {draws : Draws} (h : Step s (.call draws) emissions t) :
    ∃ call os, s.calls = call :: t.calls ∧
      Protocol.Step s.protocol (call.event s.replies draws) os t.protocol ∧
      emissions = os.map .protocol ∧ t.posted = s.posted ++ postsOf os ∧
      t.replies = s.replies ∧ t.sent = s.sent ∧ t.connected = s.connectedBy call := by
  dsimp only [Step, handle] at h
  cases pending : s.calls with
  | nil => simp [pending] at h
  | cons call calls =>
    rw [pending] at h
    obtain ⟨⟨system, signals⟩, handled, same⟩ := Option.map_eq_some_iff.mp h
    obtain ⟨rfl, rfl⟩ := Prod.mk.inj same
    obtain ⟨⟨protocol, os⟩, stepped, same⟩ := Option.map_eq_some_iff.mp handled
    obtain ⟨rfl, rfl⟩ := Prod.mk.inj same
    exact ⟨call, os, rfl, Protocol.step_of_handle stepped, rfl, rfl, rfl, rfl, rfl⟩

theorem step_protocol {event : Event Addr} (h : Step s (.protocol event) emissions t) :
    event.isOwn = true ∧ t.calls = s.calls ∧ t.sent = s.sent ∧ t.connected = s.connected ∧
      ∃ os, Protocol.Step s.protocol event os t.protocol ∧ emissions = os.map .protocol ∧
        t.posted = s.posted ++ postsOf os ∧ t.replies = s.replies := by
  dsimp only [Step, handle] at h
  split_ifs at h with own
  obtain ⟨⟨system, signals⟩, handled, same⟩ := Option.map_eq_some_iff.mp h
  obtain ⟨rfl, rfl⟩ := Prod.mk.inj same
  obtain ⟨⟨protocol, os⟩, stepped, same⟩ := Option.map_eq_some_iff.mp handled
  obtain ⟨rfl, rfl⟩ := Prod.mk.inj same
  exact ⟨own, rfl, rfl, rfl, os, Protocol.step_of_handle stepped, rfl, rfl, rfl⟩

end Threads

end QtCoap
