import QtCoap.Reply.Termination

namespace QtCoap

/-- Both threads, with the replies that the application has destroyed. -/
structure Application (Addr : Type) extends Threads Addr where
  destroyed : ReplyId → Bool := fun _ => false

inductive ApplicationEvent (Addr : Type)
  | threads (event : ThreadEvent Addr)
  | destroy (reply : ReplyId)

/-- The reply whose method the application calls, or that it hands to the client. -/
def ThreadEvent.reply? {Addr : Type} : ThreadEvent Addr → Option ReplyId
  | .send id _ | .abortRequest id | .cancelObserve id => some id
  | _ => none

namespace Application

variable {Addr : Type}

/-- What a `QPointer` to the reply holds. -/
def pointer (s : Application Addr) (id : ReplyId) : Option ReplyId :=
  if s.destroyed id then none else some id

/-- A call as it is handled, with the pointers as they are then. -/
def event (s : Application Addr) (draws : Draws) : Call → Event Addr
  | .sendRequest id connection =>
    .sendRequest (s.pointer id) (s.replies id).request connection draws
  | .cancelObserve id => .cancelObserve (s.pointer id) (s.replies id).request.message.token
  | call => call.event s.replies draws

/-- The replies whose `aborted` is connected after a call: none more for a null pointer. -/
def connectedBy (s : Application Addr) : Call → ReplyId → Bool
  | .sendRequest id connection =>
    if s.destroyed id then s.connected else s.toThreads.connectedBy (.sendRequest id connection)
  | _ => s.connected

/-- No request has been sent yet. -/
def Initial (s : Application Addr) : Prop :=
  s.toThreads.Initial ∧ ∀ id, s.destroyed id = false

variable [Platform Addr]

/-- `~QCoapReply` aborts the request. All pointers to the reply become null, and the slot calls
that wait for it are dropped. -/
def handle (s : Application Addr) :
    ApplicationEvent Addr → Option (Application Addr × List (Emission Addr))
  | .threads (.call draws) =>
    match s.calls with
    | [] => none
    | call :: calls =>
      (s.toSystem.handle (.protocol (s.event draws call))).map fun result =>
        ({ s with
            toThreads :=
              { s.toThreads with
                toSystem := result.1
                calls := calls
                connected := s.connectedBy call } }, result.2)
  | .threads event =>
    if event.reply?.any s.destroyed then none
    else (s.toThreads.handle event).map fun result => ({ s with toThreads := result.1 }, result.2)
  | .destroy id =>
    if !s.sent id || s.destroyed id then none
    else
      let aborted := (s.replies id).abortRequest
      some ({ s with
          protocol := s.protocol.replyDestroyed id
          replies := Function.update s.replies id aborted.1
          posted := s.posted.filter (fun post => post.1 != id)
          calls := s.calls ++ if s.connected id then abortedCalls id aborted.2 else []
          destroyed := Function.update s.destroyed id true }, aborted.2.map (.reply id))

def Step (s : Application Addr) (event : ApplicationEvent Addr)
    (emissions : List (Emission Addr)) (t : Application Addr) : Prop :=
  s.handle event = some (t, emissions)

variable {s t : Application Addr} {emissions : List (Emission Addr)} {id : ReplyId}

theorem step_call {draws : Draws} (h : Step s (.threads (.call draws)) emissions t) :
    ∃ call os, s.calls = call :: t.calls ∧
      Protocol.Step s.protocol (s.event draws call) os t.protocol ∧
      t.connected = s.connectedBy call ∧ t.destroyed = s.destroyed := by
  dsimp only [Step, handle] at h
  cases pending : s.calls with
  | nil => simp [pending] at h
  | cons call calls =>
    rw [pending] at h
    obtain ⟨⟨system, signals⟩, handled, same⟩ := Option.map_eq_some_iff.mp h
    obtain ⟨rfl, -⟩ := Prod.mk.inj same
    obtain ⟨⟨protocol, os⟩, stepped, same⟩ := Option.map_eq_some_iff.mp handled
    obtain ⟨rfl, -⟩ := Prod.mk.inj same
    exact ⟨call, os, rfl, Protocol.step_of_handle stepped, rfl, rfl⟩

theorem step_threads {event : ThreadEvent Addr} (other : ∀ draws, event ≠ .call draws)
    (h : Step s (.threads event) emissions t) :
    t.destroyed = s.destroyed ∧ Threads.Step s.toThreads event emissions t.toThreads := by
  unfold Step handle at h
  split at h
  · rename_i draws same
    cases same
    exact absurd rfl (other draws)
  · rename_i same
    cases same
    split_ifs at h
    obtain ⟨⟨threads, signals⟩, handled, same⟩ := Option.map_eq_some_iff.mp h
    obtain ⟨rfl, rfl⟩ := Prod.mk.inj same
    exact ⟨rfl, handled⟩
  · rename_i same
    cases same

theorem step_destroy (h : Step s (.destroy id) emissions t) :
    t.protocol = s.protocol.replyDestroyed id ∧ t.connected = s.connected ∧
      t.destroyed = Function.update s.destroyed id true ∧
      t.calls = s.calls ++
        if s.connected id then abortedCalls id (s.replies id).abortRequest.2 else [] := by
  dsimp only [Step, handle] at h
  split_ifs at h
  all_goals
    obtain ⟨rfl, -⟩ := Prod.mk.inj (Option.some.inj h)
    exact ⟨rfl, rfl, rfl, by simp [*]⟩

end Application

variable {Addr : Type} [Platform Addr]

namespace Protocol

variable {s t : Protocol Addr} {os : List (Output Addr)} {event : Event Addr} {key : Token}
  {e' : ExchangeData Addr}

/-- Only the destruction of a reply takes the user reply of an exchange away. -/
theorem Effect.userReply (h : Effect s os t event) (exists' : ∀ id, event ≠ .replyDestroyed id)
    (found' : t.exchangeMap.find? key = some e') :
    (∃ id request connection draws, event = .sendRequest (some id) request connection draws ∧
      request.accepted = true ∧ e'.userReply = some id) ∨
    ∃ e, s.exchangeMap.find? key = some e ∧ e'.userReply = e.userReply := by
  have reacted {k : Token} {e : ExchangeData Addr} {reaction : Reaction Addr}
      (found : s.exchangeMap.find? k = some e) (after : (t, os) = s.apply k reaction)
      (continues : ∀ d, reaction.1 = some d → d.userReply = e.userReply) :
      ∃ e, s.exchangeMap.find? key = some e ∧ e'.userReply = e.userReply := by
    rw [(Prod.mk.inj after).1, find?_setExchange] at found'
    split_ifs at found' with own
    · exact ⟨e, own ▸ found, continues e' found'⟩
    · exact ⟨e', found', rfl⟩
  have cancelled (cancels : ObserveCancelled s t os) :
      ∃ e, s.exchangeMap.find? key = some e ∧ e'.userReply = e.userReply := by
    rcases cancels.each key with same | ⟨e, found, -, changed⟩
    · exact ⟨e', same.symm.trans found', rfl⟩
    · obtain rfl := Option.some.inj (found'.symm.trans changed)
      exact ⟨e, found, rfl⟩
  cases h with
  | @opened id request connection draws messageId token timeout registers after =>
    rw [(Prod.mk.inj after).1, find?_setExchange] at found'
    split_ifs at found' with own
    · refine .inl ⟨id, request, connection, draws, rfl, ?_, ?_⟩
      · simp [Request.accepted, registers.method, registers.url]
      · obtain rfl := Option.some.inj found'
        rfl
    · exact .inr ⟨e', found', rfl⟩
  | received key e id admits fresh after =>
    exact .inr (reacted admits.found after fun d left =>
      (ExchangeData.receive_kept left).1.userReply)
  | timedOut e found after =>
    exact .inr (reacted found after fun d left => (ExchangeData.timeout_kept left).1.userReply)
  | spanReached e found after => exact .inr (reacted found after fun d left => by cases left)
  | expired e found after => exact .inr (reacted found after fun d left => by cases left)
  | aborted e found after => exact .inr (reacted found after fun d left => by cases left)
  | cancelled cancels => exact .inr (cancelled cancels)
  | urlCancelled cancels => exact .inr (cancelled cancels)
  | destroyed after => exact absurd rfl (exists' _)
  | unchanged map posts => exact .inr ⟨e', map ▸ found', rfl⟩

/-- The exchange is gone once its `aborted` signal is handled. -/
theorem find?_of_aborted (consistent : s.Consistent) {id : ReplyId}
    (step : Step s (.aborted id key) os t) : t.exchangeMap.find? key = none := by
  obtain ⟨rfl, -⟩ := Prod.mk.inj (Except.ok.inj step.2)
  cases found : s.exchangeMap.find? key with
  | none =>
    simp only [onRequestAborted]
    rw [found]
    exact found
  | some e =>
    rw [onRequestAborted_eq found (consistent.registered found).token, find?_setExchange,
      if_pos rfl]

/-- With every user reply there, the loop over the exchanges runs to its end. -/
theorem cancelObserveUrl_ok {Addr : Type} {s : Protocol Addr} {url : Url}
    {view : ReplyId → Url × Token}
    (alive : ∀ key e, s.exchangeMap.find? key = some e → e.userReply ≠ none) :
    ∃ result, s.cancelObserveUrl url view = .ok result := by
  have each : ∀ entry ∈ s.exchangeMap.entries, entry.2.userReply ≠ none := by
    intro entry listed
    exact alive entry.1 entry.2 ((s.exchangeMap.find?_eq_some_iff entry.1 entry.2).mpr listed)
  simp only [cancelObserveUrl]
  generalize s.exchangeMap.entries = entries at each
  generalize (s, ([] : List (Output Addr))) = acc
  induction entries generalizing acc with
  | nil => exact ⟨acc, rfl⟩
  | cons entry entries ih =>
    have one : ∃ acc', cancelEntry url view acc entry = .ok acc' := by
      simp only [cancelEntry]
      cases user : entry.2.userReply with
      | none => exact absurd user (each entry (by simp))
      | some id =>
        dsimp only
        split_ifs
        · exact ⟨_, rfl⟩
        · exact ⟨acc, rfl⟩
    obtain ⟨acc', one⟩ := one
    rw [List.foldlM_cons, one]
    exact ih (fun entry listed => each entry (List.mem_cons_of_mem _ listed)) acc'

end Protocol

namespace Application

variable {s t : Application Addr} {emissions : List (Emission Addr)} {id : ReplyId}

/-- A reply is destroyed while its exchange is registered only if the protocol is to be told: it is
unfinished and knows the token of the exchange, or has been aborted and the signal is still
queued. -/
def Tells (s : Application Addr) : ApplicationEvent Addr → Prop
  | .destroy id => ∀ key, s.protocol.Owns key id →
    ((s.replies id).isFinishedOrAborted = false ∧ (s.replies id).request.message.token = key) ∨
      .aborted id key ∈ s.calls
  | _ => True

/-- The user reply of a registered exchange is alive, or the signal that it was aborted is still
queued. -/
structure Attended (s : Application Addr) : Prop where
  consistent : s.protocol.Consistent
  alive : ∀ key id, s.protocol.Owns key id → s.destroyed id = false ∧ s.connected id = true
  queued : ∀ key e, s.protocol.exchangeMap.find? key = some e → e.userReply = none →
    ∃ id, s.destroyed id = true ∧ .aborted id key ∈ s.calls

theorem attended_initial (start : s.Initial) : s.Attended := by
  obtain ⟨⟨⟨protocol, -, -⟩, -, -⟩, -⟩ := start
  refine ⟨protocol ▸ Protocol.consistent_initial, ?_, ?_⟩
  · rintro key id ⟨e, found, -⟩
    rw [protocol] at found
    cases found
  · intro key e found
    rw [protocol] at found
    cases found

/-- A step of the protocol that sends for living replies only and takes no signal out of the queue
but the one it handles. -/
theorem Attended.of_step (h : s.Attended) {event : Event Addr} {os : List (Output Addr)}
    (step : Protocol.Step s.protocol event os t.protocol)
    (exists' : ∀ id, event ≠ .replyDestroyed id) (destroyed : t.destroyed = s.destroyed)
    (connected : ∀ id, s.connected id = true → t.connected id = true)
    (sends : ∀ id request connection draws,
      event = .sendRequest (some id) request connection draws → request.accepted = true →
      s.destroyed id = false ∧ t.connected id = true)
    (queue : ∀ id key, .aborted id key ∈ s.calls →
      .aborted id key ∈ t.calls ∨ event = .aborted id key) : t.Attended := by
  have effect := Protocol.step_effect h.consistent step
  refine ⟨h.consistent.step step, ?_, ?_⟩
  · rintro key id ⟨e', found', user⟩
    rw [destroyed]
    rcases effect.userReply exists' found' with
      ⟨id', request, connection, draws, sent, accepted, own⟩ | ⟨e, found, same⟩
    · obtain rfl := Option.some.inj (own.symm.trans user)
      exact sends id' request connection draws sent accepted
    · obtain ⟨alive, listens⟩ := h.alive key id ⟨e, found, same.symm.trans user⟩
      exact ⟨alive, connected id listens⟩
  · intro key e' found' user
    rw [destroyed]
    rcases effect.userReply exists' found' with ⟨id', -, -, -, -, -, own⟩ | ⟨e, found, same⟩
    · rw [user] at own
      cases own
    · obtain ⟨id, gone, queued⟩ := h.queued key e found (same.symm.trans user)
      rcases queue id key queued with still | rfl
      · exact ⟨id, gone, still⟩
      · -- the signal for this very exchange has been handled
        rw [Protocol.find?_of_aborted h.consistent step] at found'
        cases found'

/-- A step of the application alone. -/
theorem Attended.of_same {Addr : Type} {s t : Application Addr} (h : s.Attended)
    (protocol : t.protocol = s.protocol) (destroyed : t.destroyed = s.destroyed)
    (connected : t.connected = s.connected) (queue : ∀ call ∈ s.calls, call ∈ t.calls) :
    t.Attended := by
  refine ⟨protocol ▸ h.consistent, ?_, ?_⟩
  · rw [protocol, destroyed, connected]
    exact h.alive
  · rw [protocol, destroyed]
    intro key e found user
    obtain ⟨id, gone, queued⟩ := h.queued key e found user
    exact ⟨id, gone, queue _ queued⟩

theorem Attended.destroy (h : s.Attended) (step : Step s (.destroy id) emissions t)
    (tells : s.Tells (.destroy id)) : t.Attended := by
  obtain ⟨protocol, connected, destroyed, calls⟩ := step_destroy step
  have kept {key : Token} {e' : ExchangeData Addr}
      (found' : t.protocol.exchangeMap.find? key = some e') :
      ∃ e, s.protocol.exchangeMap.find? key = some e ∧
        e' = if e.userReply = some id then { e with userReply := none } else e := by
    rw [protocol, Protocol.find?_replyDestroyed] at found'
    obtain ⟨e, found, same⟩ := Option.map_eq_some_iff.mp found'
    exact ⟨e, found, same.symm⟩
  refine ⟨?_, ?_, ?_⟩
  · rw [protocol]
    have silent : Protocol.Step s.protocol (.replyDestroyed id) [] (s.protocol.replyDestroyed id) :=
      ⟨rfl, rfl⟩
    exact h.consistent.step silent
  · rintro key id' ⟨e', found', user⟩
    obtain ⟨e, found, rfl⟩ := kept found'
    split_ifs at user with own
    have ne : id' ≠ id := fun same => own (same ▸ user)
    rw [destroyed, connected, Function.update_of_ne ne]
    exact h.alive key id' ⟨e, found, user⟩
  · intro key e' found' user
    obtain ⟨e, found, rfl⟩ := kept found'
    rw [destroyed, calls]
    split_ifs at user with own
    · refine ⟨id, Function.update_self .., List.mem_append.mpr ?_⟩
      rcases tells key ⟨e, found, own⟩ with ⟨unfinished, token⟩ | queued
      · right
        rw [if_pos (h.alive key id ⟨e, found, own⟩).2, Reply.abortRequest,
          if_neg (by simp [unfinished]), token]
        simp [abortedCalls]
      · exact .inl queued
    · obtain ⟨id', gone, queued⟩ := h.queued key e found user
      refine ⟨id', ?_, List.mem_append.mpr (.inl queued)⟩
      by_cases same : id' = id
      · rw [same, Function.update_self]
      · rw [Function.update_of_ne same]
        exact gone

theorem Attended.call (h : s.Attended) {draws : Draws}
    (step : Step s (.threads (.call draws)) emissions t) : t.Attended := by
  obtain ⟨call, os, calls, handled, connected, destroyed⟩ := step_call step
  refine h.of_step handled ?_ destroyed ?_ ?_ ?_
  · intro id same
    cases call <;> cases same
  · intro id listens
    rw [connected]
    cases call with
    | sendRequest id' connection =>
      simp only [connectedBy, Threads.connectedBy]
      split_ifs
      · exact listens
      · by_cases own : id = id'
        · rw [own, Function.update_self]
        · rw [Function.update_of_ne own]
          exact listens
      · exact listens
    | _ => exact listens
  · intro id request connection draws' sent accepted
    cases call with
    | sendRequest id' connection' =>
      cases gone : s.destroyed id' with
      | true => simp [event, pointer, gone] at sent
      | false =>
        simp only [event, pointer, gone, Bool.false_eq_true, if_false] at sent
        cases sent
        refine ⟨gone, ?_⟩
        rw [connected]
        simp only [connectedBy, Threads.connectedBy, gone, Bool.false_eq_true, if_false]
        rw [if_pos accepted, Function.update_self]
    | _ => cases sent
  · intro id key queued
    rw [calls] at queued
    rcases List.mem_cons.mp queued with rfl | still
    · exact .inr rfl
    · exact .inl still

theorem Attended.threads (h : s.Attended) {event : ThreadEvent Addr}
    (step : Step s (.threads event) emissions t) : t.Attended := by
  by_cases call : ∃ draws, event = .call draws
  · obtain ⟨draws, rfl⟩ := call
    exact h.call step
  obtain ⟨destroyed, step⟩ := step_threads (fun draws same => call ⟨draws, same⟩) step
  cases event with
  | send id connection =>
    obtain ⟨-, -, same⟩ := Threads.step_send step
    exact h.of_same (by rw [same]) destroyed (by rw [same])
      fun call listed => by simp [same, listed]
  | abortRequest id =>
    obtain ⟨-, protocol, -, -, connected, -, calls⟩ := Threads.step_abortRequest step
    exact h.of_same protocol destroyed connected
      fun call listed => calls ▸ List.mem_append.mpr (.inl listed)
  | cancelObserve id =>
    obtain ⟨-, same⟩ := Threads.step_cancelObserve step
    exact h.of_same (by rw [same]) destroyed (by rw [same])
      fun call listed => by simp [same, listed]
  | cancelObserveUrl url =>
    obtain ⟨-, same⟩ := Threads.step_cancelObserveUrl step
    exact h.of_same (by rw [same]) destroyed (by rw [same])
      fun call listed => by simp [same, listed]
  | deliver =>
    obtain ⟨calls, -, connected, protocol, -⟩ := Threads.step_deliver step
    exact h.of_same protocol destroyed connected fun call listed => calls ▸ listed
  | call draws => exact absurd ⟨draws, rfl⟩ call
  | protocol event =>
    obtain ⟨own, calls, -, connected, os, handled, -⟩ := Threads.step_protocol step
    refine h.of_step handled ?_ destroyed (fun id listens => connected ▸ listens) ?_
      fun id key queued => .inl (calls ▸ queued)
    · rintro id rfl
      cases own
    · rintro id request connection draws rfl
      cases own

theorem Attended.step (h : s.Attended) {event : ApplicationEvent Addr}
    (step : Step s event emissions t) (tells : s.Tells event) : t.Attended := by
  cases event with
  | threads event => exact h.threads step
  | destroy id => exact h.destroy step tells

/-- No signal of a destroyed reply is queued for a registered exchange. -/
def Settled (s : Application Addr) : Prop :=
  ∀ id key, s.destroyed id = true → s.protocol.exchangeMap.contains key = true →
    .aborted id key ∉ s.calls

/-- Over any interleaving in which every reply is destroyed in a way that tells the protocol: where
it comes to `cancelObserve(url)` with the signals of destroyed replies behind it, all user replies
are there and alive, and the call is handled without a fault. -/
theorem cancelObserveUrl_safe {tr : List (Framework.Transition (Application Addr)
      (ApplicationEvent Addr) (Emission Addr))} (start : s.Initial)
    (run : Framework.Run Step s tr t) (tells : ∀ x ∈ tr, x.source.Tells x.event) {url : Url}
    {calls : List Call} (next : t.calls = .cancelObserveUrl url :: calls) (settled : t.Settled) :
    (∀ key e, t.protocol.exchangeMap.find? key = some e →
      ∃ id, e.userReply = some id ∧ t.destroyed id = false) ∧
    ∀ draws, ∃ u emissions, Step t (.threads (.call draws)) emissions u := by
  have attended : t.Attended := (run.along
    (fun x hx step before => before.step step (tells x hx)) (attended_initial start)).1
  have alive (key : Token) (e : ExchangeData Addr)
      (found : t.protocol.exchangeMap.find? key = some e) :
      ∃ id, e.userReply = some id ∧ t.destroyed id = false := by
    cases user : e.userReply with
    | none =>
      obtain ⟨id, gone, queued⟩ := attended.queued key e found user
      refine absurd queued (settled id key gone ?_)
      rw [Framework.OrderedMap.contains, found]
      rfl
    | some id => exact ⟨id, rfl, (attended.alive key id ⟨e, found, user⟩).1⟩
  refine ⟨alive, fun draws => ?_⟩
  let view : ReplyId → Url × Token := fun id =>
    ((t.replies id).request.uri, (t.replies id).request.message.token)
  obtain ⟨⟨protocol, os⟩, ran⟩ : ∃ result, t.protocol.cancelObserveUrl url view = .ok result :=
    Protocol.cancelObserveUrl_ok fun key e found none => by
      obtain ⟨id, user, -⟩ := alive key e found
      rw [none] at user
      cases user
  have handled : t.protocol.handle (.cancelObserveUrl url view) = some (protocol, os) :=
    Protocol.handle_of_step ⟨rfl, ran⟩
  have after : t.toSystem.handle (.protocol (.cancelObserveUrl url view)) = some
      ({ t.toSystem with protocol := protocol, posted := t.posted ++ postsOf os },
        os.map .protocol) := by
    simp only [System.handle]
    rw [handled]
    rfl
  have call : t.event draws (.cancelObserveUrl url) = .cancelObserveUrl url view := rfl
  have taken : ∃ result, t.handle (.threads (.call draws)) = some result := by
    simp only [handle]
    rw [next]
    dsimp only
    rw [call, after]
    exact ⟨_, rfl⟩
  obtain ⟨⟨u, emissions⟩, taken⟩ := taken
  exact ⟨u, emissions, taken⟩

/-- A reply is destroyed only while it is unfinished and knows the token of its exchanges. -/
def tells (s : Application Addr) : ApplicationEvent Addr → Bool
  | .destroy id => s.protocol.exchangeMap.entries.all fun entry =>
    entry.2.userReply != some id || (!(s.replies id).isFinishedOrAborted &&
      (s.replies id).request.message.token == entry.1)
  | _ => true

theorem tells_spec {Addr : Type} {s : Application Addr} {event : ApplicationEvent Addr}
    (h : s.tells event = true) : s.Tells event := by
  cases event with
  | threads event => trivial
  | destroy id =>
    rintro key ⟨e, found, user⟩
    have listed := (s.protocol.exchangeMap.find?_eq_some_iff key e).mp found
    have told := List.all_eq_true.mp h _ listed
    simp only [user, bne_self_eq_false, Bool.false_or, Bool.and_eq_true, Bool.not_eq_true',
      beq_iff_eq] at told
    exact .inl told

section Instances

/-- Nothing sent yet; every request is to observe the same URL. -/
def idle : Application IPv4Address where
  toThreads := Threads.idle

theorem idle_initial : idle.Initial := ⟨Threads.idle_initial, fun _ => rfl⟩

def observedUrl : Url := (getRequest []).uri

/-- One of two observing replies is destroyed, and its signal handled, before the URL is
cancelled. -/
def destroyedInTime : List (ApplicationEvent IPv4Address) :=
  [.threads (.send 0 0), .threads (.send 1 0), .threads (.call [7, 0, 1, 2, 3, 4, 0]),
    .threads (.call [8, 0, 5, 6, 7, 8, 0]), .threads .deliver, .threads .deliver, .destroy 0,
    .threads (.call []), .threads (.cancelObserveUrl observedUrl)]

theorem cancelObserveUrl_safe_destroyedInTime :
    ∃ (tr : List (Framework.Transition (Application IPv4Address) _ _))
      (t : Application IPv4Address), Framework.Run Step idle tr t ∧
      tr.map (·.event) = destroyedInTime ∧ t.calls = [.cancelObserveUrl observedUrl] ∧
      t.destroyed 0 = true ∧ t.protocol.exchangeMap.entries.map Prod.fst = [[5, 6, 7, 8]] ∧
      (∀ key e, t.protocol.exchangeMap.find? key = some e →
        ∃ id, e.userReply = some id ∧ t.destroyed id = false) ∧
      ∀ draws, ∃ u emissions, Step t (.threads (.call draws)) emissions u := by
  have ran : (Framework.execute handle idle destroyedInTime).any (fun result =>
      result.1.all (fun x => x.source.tells x.event) &&
      result.2.calls == [.cancelObserveUrl observedUrl] && result.2.destroyed 0 &&
      result.2.protocol.exchangeMap.entries.map Prod.fst == [[5, 6, 7, 8]]) = true := by
    decide +kernel
  obtain ⟨tr, t, run, events, facts⟩ :=
    Framework.exists_run_of_execute Step (fun handled => handled) ran
  simp only [Bool.and_eq_true, beq_iff_eq, List.all_eq_true] at facts
  obtain ⟨⟨⟨told, next⟩, gone⟩, keys⟩ := facts
  have settled : t.Settled := by
    intro id key _ _
    rw [next]
    simp
  exact ⟨tr, t, run, events, next, gone, keys,
    cancelObserveUrl_safe idle_initial run (fun x hx => tells_spec (told x hx)) next settled⟩

/-- One observing reply, deleted after `cancelObserve(reply)` has finished it; before it is told its
token; and between the call of `cancelObserve(url)` and its handling. -/
def deletedUnnoticed : List (List (ApplicationEvent IPv4Address)) :=
  let observing : List (ApplicationEvent IPv4Address) :=
    [.threads (.send 0 0), .threads (.call [7, 0, 1, 2, 3, 4, 0])]
  let cancelUrl : ApplicationEvent IPv4Address := .threads (.cancelObserveUrl observedUrl)
  [observing ++ [.threads .deliver, .threads (.cancelObserve 0), .threads (.call []),
      .threads .deliver, .destroy 0, cancelUrl],
    observing ++ [.destroy 0, .threads (.call []), cancelUrl],
    observing ++ [.threads .deliver, cancelUrl, .destroy 0]]

/-- Each time `cancelObserve(url)` comes to the exchange without a user reply, and cannot go on. -/
theorem deletedUnnoticed_null : idle.Initial ∧ ∀ events ∈ deletedUnnoticed,
    ∃ (tr : List (Framework.Transition (Application IPv4Address) _ _))
      (t : Application IPv4Address) (calls : List Call) (e : ExchangeData IPv4Address),
      Framework.Run Step idle tr t ∧ tr.map (·.event) = events ∧
      t.calls = .cancelObserveUrl observedUrl :: calls ∧
      t.protocol.exchangeMap.find? [1, 2, 3, 4] = some e ∧ e.userReply = none ∧
      ∀ draws u emissions, ¬ Step t (.threads (.call draws)) emissions u := by
  have each : ∀ events ∈ deletedUnnoticed, (Framework.execute handle idle events).any
      (fun result => result.2.calls.head? == some (.cancelObserveUrl observedUrl) &&
        (result.2.protocol.exchangeMap.find? [1, 2, 3, 4]).any (fun e => e.userReply.isNone) &&
        (result.2.handle (.threads (.call []))).isNone) = true := by
    decide +kernel
  refine ⟨idle_initial, fun events listed => ?_⟩
  obtain ⟨tr, t, run, taken, facts⟩ :=
    Framework.exists_run_of_execute Step (fun handled => handled) (each events listed)
  simp only [Bool.and_eq_true, beq_iff_eq, Option.isNone_iff_eq_none] at facts
  obtain ⟨⟨head, entry⟩, stuck⟩ := facts
  obtain ⟨calls, next⟩ := List.head?_eq_some_iff.mp head
  obtain ⟨e, found, user⟩ := (Option.any_eq_true ..).mp entry
  refine ⟨tr, t, calls, e, run, taken, next, found, by simpa using user, ?_⟩
  intro draws u emissions step
  -- the call draws nothing
  have same : t.handle (.threads (.call draws)) = t.handle (.threads (.call [])) := by
    simp only [handle]
    rw [next]
    rfl
  rw [Step, same, stuck] at step
  cases step

end Instances

end Application

end QtCoap
