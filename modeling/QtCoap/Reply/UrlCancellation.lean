import QtCoap.Protocol.Cancellation
import QtCoap.Reply.Destruction

namespace QtCoap

variable {Addr : Type} [Platform Addr]

/-- The call hands the reply to the protocol. -/
def Call.hands (id : ReplyId) : Call → Bool
  | .sendRequest id' _ => id' == id
  | _ => false

theorem countP_hands_abortedCalls (id id' : ReplyId) (connected : Bool) (signals : List Signal) :
    (if connected then abortedCalls id' signals else []).countP (Call.hands id) = 0 := by
  rw [List.countP_eq_zero]
  intro call listed
  split_ifs at listed
  · obtain ⟨signal, -, same⟩ := List.mem_filterMap.mp listed
    cases signal with
    | aborted token =>
      obtain rfl := Option.some.inj same
      simp [Call.hands]
    | _ => cases same
  · cases listed

theorem Reply.request_abortRequest (r : Reply) : r.abortRequest.1.request = r.request := by
  simp only [abortRequest]
  split_ifs <;> rfl

theorem Reply.uri_handle {Addr : Type} (r : Reply) (slot : Slot Addr) :
    (r.handle slot).1.request.uri = r.request.uri := by
  by_cases runs : ∃ token messageId, slot = .setRunning token messageId
  · obtain ⟨token, messageId, rfl⟩ := runs
    rfl
  · rw [r.handle_of_not_running fun token messageId same => runs ⟨token, messageId, same⟩]

namespace Threads

variable {s t : Threads Addr} {emissions : List (Emission Addr)} {id : ReplyId}

/-- How far a reply has come on its way to the protocol and back. -/
inductive Progress (s : Threads Addr) (id : ReplyId) : Prop
  /-- The protocol has not seen it. -/
  | waiting (free : ∀ key, ¬ s.protocol.Owns key id) (announced : announcements id s.posted = [])
      (calls : s.calls.countP (Call.hands id) = if s.sent id then 1 else 0)
  /-- It has the token of its exchange, or is about to get it. -/
  | handed (sent : s.sent id = true) (calls : s.calls.countP (Call.hands id) = 0)
      (own : ∀ key, s.protocol.Owns key id → announcements id s.posted = [key] ∨
        announcements id s.posted = [] ∧ (s.replies id).request.message.token = key)

theorem initial_progress {Addr : Type} {s : Threads Addr} (initial : Initial s) (id : ReplyId) :
    s.Progress id := by
  obtain ⟨⟨protocol, posted, -⟩, calls, unsent⟩ := initial
  refine .waiting ?_ ?_ ?_
  · rw [protocol]
    simp [Protocol.Owns]
  · rw [posted]
    rfl
  · rw [calls, (unsent id).1]
    rfl

/-- Only the token of its request matters, and where its calls are. -/
theorem Progress.of_same {Addr : Type} {s t : Threads Addr} (h : s.Progress id)
    (protocol : t.protocol = s.protocol) (posted : t.posted = s.posted)
    (sent : t.sent id = s.sent id)
    (calls : t.calls.countP (Call.hands id) = s.calls.countP (Call.hands id))
    (request : (t.replies id).request = (s.replies id).request) : t.Progress id := by
  cases h with
  | waiting free announced pending =>
    exact .waiting (protocol ▸ free) (posted ▸ announced) (by rw [calls, sent, pending])
  | handed sent' pending own =>
    refine .handed (sent.trans sent') (calls.trans pending) ?_
    rw [protocol, posted, request]
    exact own

/-- A step of the protocol that does not hand the reply to it. -/
theorem Progress.of_step (h : s.Progress id) (consistent : s.protocol.Consistent)
    {event : Event Addr} {os : List (Output Addr)}
    (step : Protocol.Step s.protocol event os t.protocol) (other : event.sends id = false)
    (posted : t.posted = s.posted ++ postsOf os) (replies : t.replies = s.replies)
    (sent : t.sent = s.sent)
    (calls : t.calls.countP (Call.hands id) = s.calls.countP (Call.hands id)) :
    t.Progress id := by
  rcases (Protocol.step_change consistent step).announces id with
    ⟨none, fewer⟩ | ⟨request, connection, draws, token, rfl, -⟩
  · have announced : announcements id t.posted = announcements id s.posted := by
      rw [posted, announcements_append, none, List.append_nil]
    cases h with
    | waiting free before pending =>
      refine .waiting (fun key owns => free key (fewer key owns)) (announced.trans before) ?_
      rw [calls, sent, pending]
    | handed sent' pending own =>
      refine .handed (by rw [sent, sent']) (calls.trans pending) fun key owns => ?_
      rw [announced, replies]
      exact own key (fewer key owns)
  · simp [Event.sends] at other

theorem Progress.deliver (h : s.Progress id) (step : Step s .deliver emissions t) :
    t.Progress id := by
  obtain ⟨calls, sent, -, protocol, id', slot, posted, replies⟩ := step_deliver step
  by_cases runs : id' = id ∧ ∃ token messageId, slot = .setRunning token messageId
  · obtain ⟨rfl, token, messageId, rfl⟩ := runs
    have announced : announcements id' s.posted = token :: announcements id' t.posted := by
      rw [posted]
      simp [announcements]
    cases h with
    | waiting free before pending =>
      rw [before] at announced
      cases announced
    | handed sent' pending own =>
      refine .handed (by rw [sent, sent']) (by rw [calls, pending]) fun key owns => .inr ?_
      rw [protocol] at owns
      rcases own key owns with one | ⟨none, -⟩
      · obtain ⟨rfl, rest⟩ := List.cons.inj (one.symm.trans announced)
        refine ⟨rest.symm, ?_⟩
        rw [replies, Function.update_self]
        rfl
      · rw [none] at announced
        cases announced
  · have announced : announcements id s.posted = announcements id t.posted := by
      rw [posted]
      cases slot with
      | setRunning token messageId =>
        have other : id' ≠ id := fun own => runs ⟨own, token, messageId, rfl⟩
        simp [announcements, other]
      | _ => rfl
    have request : (t.replies id).request = (s.replies id).request := by
      rw [replies]
      by_cases own : id' = id
      · subst own
        rw [Function.update_self]
        exact Reply.handle_of_not_running _ fun token messageId same =>
          runs ⟨rfl, token, messageId, same⟩
      · rw [Function.update_of_ne (Ne.symm own)]
    cases h with
    | waiting free before pending =>
      exact .waiting (protocol ▸ free) (announced.symm.trans before) (by rw [calls, sent, pending])
    | handed sent' pending own =>
      refine .handed (by rw [sent, sent']) (by rw [calls, pending]) ?_
      rw [protocol, ← announced, request]
      exact own

theorem Progress.call (h : s.Progress id) (consistent : s.protocol.Consistent) {draws : Draws}
    (step : Step s (.call draws) emissions t) : t.Progress id := by
  obtain ⟨call, os, pending, moved, -, posted, replies, sent, -⟩ := step_call step
  cases handing : call.hands id with
  | false =>
    refine h.of_step consistent moved ?_ posted replies sent ?_
    · cases call with
      | sendRequest id' connection => simpa [Call.hands, Call.event, Event.sends] using handing
      | _ => rfl
    · rw [pending, List.countP_cons_of_neg (by simp [handing])]
  | true =>
    have handed : s.calls.countP (Call.hands id) = t.calls.countP (Call.hands id) + 1 := by
      rw [pending, List.countP_cons_of_pos handing]
    cases h with
    | handed sent' none own =>
      rw [none] at handed
      cases handed
    | waiting free announced one =>
      have sent' : s.sent id = true := by
        cases sent' : s.sent id with
        | true => rfl
        | false => simp [sent', handed] at one
      rw [handed, if_pos sent'] at one
      refine .handed (by rw [sent, sent']) (by omega) fun key owns => ?_
      rw [posted, announcements_append, announced, List.nil_append]
      rcases (Protocol.step_change consistent moved).announces id with
        ⟨-, fewer⟩ | ⟨request, connection, draws', token, -, -, -, announces, back⟩
      · exact absurd (fewer key owns) (free key)
      · obtain rfl := (back key owns).resolve_left (free key)
        exact .inl announces

/-- Whatever happens, a reply comes to know the token of its exchange, and nothing else. -/
theorem Progress.step (h : s.Progress id) (consistent : s.protocol.Consistent)
    {event : ThreadEvent Addr} (step : Step s event emissions t) : t.Progress id := by
  cases event with
  | send id' connection =>
    obtain ⟨unsent, -, rfl⟩ := step_send step
    by_cases own : id' = id
    · subst own
      cases h with
      | handed sent calls own =>
        rw [unsent] at sent
        cases sent
      | waiting free announced calls =>
        refine .waiting free announced ?_
        rw [unsent] at calls
        simp [calls, Call.hands]
    · exact h.of_same rfl rfl (Function.update_of_ne (Ne.symm own) ..)
        (by simp [Call.hands, own]) rfl
  | abortRequest id' =>
    obtain ⟨-, protocol, posted, sent, -, replies, calls⟩ := step_abortRequest step
    refine h.of_same protocol posted (by rw [sent]) ?_ ?_
    · rw [calls, List.countP_append, countP_hands_abortedCalls, Nat.add_zero]
    · rw [replies]
      by_cases own : id' = id
      · subst own
        rw [Function.update_self, Reply.request_abortRequest]
      · rw [Function.update_of_ne (Ne.symm own)]
  | cancelObserve id' =>
    obtain ⟨-, rfl⟩ := step_cancelObserve step
    exact h.of_same rfl rfl rfl (by simp [Call.hands]) rfl
  | cancelObserveUrl url =>
    obtain ⟨-, rfl⟩ := step_cancelObserveUrl step
    exact h.of_same rfl rfl rfl (by simp [Call.hands]) rfl
  | deliver => exact h.deliver step
  | call draws => exact h.call consistent step
  | protocol event =>
    obtain ⟨own, calls, sent, -, os, moved, -, posted, replies⟩ := step_protocol step
    refine h.of_step consistent moved ?_ posted replies sent (by rw [calls])
    cases event with
    | sendRequest _ _ _ _ => cases own
    | _ => rfl

/-- A reply that has been handed to the protocol is not handed to it again. -/
theorem step_handed {event : ThreadEvent Addr} (step : Step s event emissions t)
    (sent : s.sent id = true) (calls : s.calls.countP (Call.hands id) = 0) :
    t.sent id = true ∧ t.calls.countP (Call.hands id) = 0 ∧
      (t.protocol = s.protocol ∧ (∀ o, .protocol o ∉ emissions) ∨
        ∃ event' os, Protocol.Step s.protocol event' os t.protocol ∧ event'.sends id = false ∧
          emissions = os.map .protocol) := by
  cases event with
  | send id' connection =>
    obtain ⟨unsent, rfl, rfl⟩ := step_send step
    have other : id' ≠ id := by
      rintro rfl
      rw [unsent] at sent
      cases sent
    refine ⟨?_, ?_, .inl ⟨rfl, by simp⟩⟩
    · dsimp only
      rw [Function.update_of_ne (Ne.symm other), sent]
    · simp [calls, Call.hands, other]
  | abortRequest id' =>
    obtain ⟨-, protocol, -, sent', -, -, calls'⟩ := step_abortRequest step
    refine ⟨by rw [sent', sent], ?_, .inl ⟨protocol, ?_⟩⟩
    · rw [calls', List.countP_append, calls, countP_hands_abortedCalls]
    · dsimp only [Step, handle] at step
      split_ifs at step
      all_goals
        obtain ⟨⟨system, signals⟩, aborted, same⟩ := Option.map_eq_some_iff.mp step
        obtain ⟨-, rfl⟩ := Prod.mk.inj same
        obtain ⟨-, rfl⟩ := Prod.mk.inj (Option.some.inj aborted)
        simp
  | cancelObserve id' =>
    obtain ⟨rfl, rfl⟩ := step_cancelObserve step
    exact ⟨sent, by simp [calls, Call.hands], .inl ⟨rfl, by simp⟩⟩
  | cancelObserveUrl url =>
    obtain ⟨rfl, rfl⟩ := step_cancelObserveUrl step
    exact ⟨sent, by simp [calls, Call.hands], .inl ⟨rfl, by simp⟩⟩
  | deliver =>
    obtain ⟨calls', sent', -, protocol, -⟩ := step_deliver step
    refine ⟨by rw [sent', sent], by rw [calls', calls], .inl ⟨protocol, ?_⟩⟩
    obtain ⟨⟨system, signals⟩, delivered, same⟩ := Option.map_eq_some_iff.mp step
    obtain ⟨-, rfl⟩ := Prod.mk.inj same
    dsimp only [System.handle] at delivered
    split at delivered
    · cases delivered
    · obtain ⟨-, rfl⟩ := Prod.mk.inj (Option.some.inj delivered)
      simp
  | call draws =>
    obtain ⟨call, os, pending, moved, emitted, -, -, sent', -⟩ := step_call step
    rw [pending, List.countP_cons] at calls
    have other : call.hands id = false := by
      by_contra own
      rw [if_pos (by simpa using own)] at calls
      cases calls
    refine ⟨by rw [sent', sent], by omega, .inr ⟨_, os, moved, ?_, emitted⟩⟩
    cases call with
    | sendRequest id' connection => simpa [Call.hands, Call.event, Event.sends] using other
    | _ => rfl
  | protocol event =>
    obtain ⟨own, calls', sent', -, os, moved, emitted, -⟩ := step_protocol step
    refine ⟨by rw [sent', sent], by rw [calls', calls], .inr ⟨event, os, moved, ?_, emitted⟩⟩
    cases event with
    | sendRequest _ _ _ _ => cases own
    | _ => rfl

/-- Without a reply being destroyed, every exchange keeps its reply. -/
def Alive (s : Threads Addr) : Prop :=
  ∀ key e, s.protocol.exchangeMap.find? key = some e → e.userReply ≠ none

theorem Alive.of_step (h : s.Alive) (consistent : s.protocol.Consistent) {event : Event Addr}
    {os : List (Output Addr)} (step : Protocol.Step s.protocol event os t.protocol)
    (exists' : ∀ id, event ≠ .replyDestroyed id) : t.Alive := by
  intro key e' found
  rcases (Protocol.step_effect consistent step).userReply exists' found with
    ⟨id, request, connection, draws, -, -, user⟩ | ⟨e, found', same⟩
  · rw [user]
    simp
  · rw [same]
    exact h key e found'

theorem Alive.step (h : s.Alive) (consistent : s.protocol.Consistent) {event : ThreadEvent Addr}
    (step : Step s event emissions t) : t.Alive := by
  have kept (same : t.protocol = s.protocol) : t.Alive := by
    intro key e found
    exact h key e (same ▸ found)
  cases event with
  | send id connection =>
    obtain ⟨-, -, rfl⟩ := step_send step
    exact kept rfl
  | abortRequest id => exact kept (step_abortRequest step).2.1
  | cancelObserve id =>
    obtain ⟨-, rfl⟩ := step_cancelObserve step
    exact kept rfl
  | cancelObserveUrl url =>
    obtain ⟨-, rfl⟩ := step_cancelObserveUrl step
    exact kept rfl
  | deliver => exact kept (step_deliver step).2.2.2.1
  | call draws =>
    obtain ⟨call, os, -, moved, -⟩ := step_call step
    refine h.of_step consistent moved fun id same => ?_
    cases call <;> cases same
  | protocol event =>
    obtain ⟨own, -, -, -, os, moved, -⟩ := step_protocol step
    refine h.of_step consistent moved fun id same => ?_
    subst same
    cases own

/-- What holds at every point of a run. -/
structure Orderly (s : Threads Addr) : Prop where
  consistent : s.protocol.Consistent
  alive : s.Alive
  progress : ∀ id, s.Progress id

theorem initial_orderly (initial : Initial s) : s.Orderly where
  consistent := by
    rw [initial.1.1]
    exact Protocol.consistent_initial
  alive := by
    intro key e found
    rw [initial.1.1] at found
    cases found
  progress := initial_progress initial

theorem Orderly.step (h : s.Orderly) {event : ThreadEvent Addr}
    (step : Step s event emissions t) : t.Orderly where
  consistent := step_consistent h.consistent step
  alive := h.alive.step h.consistent step
  progress id := (h.progress id).step h.consistent step

/-- The reply has an exchange, and knows of it. -/
theorem Orderly.known {Addr : Type} {s : Threads Addr} (h : s.Orderly) {key : Token}
    (owns : s.protocol.Owns key id) (running : announcements id s.posted = []) :
    s.sent id = true ∧ s.calls.countP (Call.hands id) = 0 ∧
      (s.replies id).request.message.token = key := by
  cases h.progress id with
  | waiting free announced calls => exact absurd owns (free key)
  | handed sent calls own =>
    refine ⟨sent, calls, ?_⟩
    rcases own key owns with one | ⟨-, token⟩
    · rw [running] at one
      cases one
    · exact token

/-- The URLs of the replies. -/
def urls (s : Threads Addr) (id : ReplyId) : Url := (s.replies id).request.uri

theorem call_cancelObserveUrl (h : s.Orderly) {draws : Draws}
    (step : Step s (.call draws) emissions t) {url : Url}
    (oldest : s.calls.head? = some (.cancelObserveUrl url))
    (running : ∀ id, s.urls id = url → announcements id s.posted = []) :
    t.protocol = { s.protocol with
        exchangeMap := s.protocol.exchangeMap.mapValues (·.cancelled url s.urls) } ∧
      emissions = (s.protocol.exchangeMap.entries.filterMap fun entry =>
        entry.2.told url s.urls).map .protocol := by
  obtain ⟨call, os, pending, moved, emitted, -⟩ := step_call step
  rw [pending] at oldest
  obtain rfl := Option.some.inj oldest
  have handled : s.protocol.cancelObserveUrl url
      (fun id => (s.urls id, (s.replies id).request.message.token)) = .ok (t.protocol, os) :=
    moved.2
  rw [Protocol.cancelObserveUrl_eq] at handled
  · obtain ⟨protocol, outputs⟩ := Prod.mk.inj (Except.ok.inj handled)
    exact ⟨protocol.symm, by rw [emitted, outputs]⟩
  · intro key e found
    obtain ⟨id, user⟩ := Option.ne_none_iff_exists'.mp (h.alive key e found)
    exact ⟨id, user, fun addressed =>
      (h.known ⟨e, found, user⟩ (running id addressed)).2.2⟩

/-- A cancellation by URL is handled after the replies with the URL have been set running: it
cancels the observations of exactly these replies, and tells each of them once. -/
theorem cancelObserveUrl_exact {tr : List (Framework.Transition (Threads Addr) _ _)}
    (initial : Initial s) (run : Framework.Run Step s tr t) :
    ∀ x ∈ tr, (∃ draws, x.event = .call draws) → ∀ url,
      x.source.calls.head? = some (.cancelObserveUrl url) →
      (∀ id, x.source.urls id = url → announcements id x.source.posted = []) →
      x.target.protocol = { x.source.protocol with
          exchangeMap := x.source.protocol.exchangeMap.mapValues
            (·.cancelled url x.source.urls) } ∧
        x.outputs = (x.source.protocol.exchangeMap.entries.filterMap fun entry =>
          entry.2.told url x.source.urls).map .protocol := by
  intro x hx called url oldest running
  obtain ⟨orderly, step⟩ :=
    run.forall_step (fun before h => Orderly.step before h) (initial_orderly initial) x hx
  obtain ⟨draws, event⟩ := called
  rw [event] at step
  exact call_cancelObserveUrl orderly step oldest running

/-- The call cancels the observation of the reply. -/
def Cancels (s : Threads Addr) (id : ReplyId) (call : Call) : Prop :=
  call = .cancelObserve id ∨ ∃ url, call = .cancelObserveUrl url ∧ s.urls id = url

/-- Of a reply that knows of its exchange, the observation is cancelled. -/
theorem call_cancels (h : s.Orderly) {draws : Draws} (step : Step s (.call draws) emissions t)
    {call : Call} (oldest : s.calls.head? = some call) (cancels : s.Cancels id call)
    (running : announcements id s.posted = []) :
    ∃ os, Protocol.ObserveCancelled s.protocol t.protocol os ∧
      ∀ key, s.protocol.Owns key id → t.protocol.CancelledAt key := by
  obtain ⟨call', os, pending, moved, -⟩ := step_call step
  rw [pending] at oldest
  obtain rfl := Option.some.inj oldest
  have known (key : Token) (owns : s.protocol.Owns key id) :
      (s.replies id).request.message.token = key := (h.known owns running).2.2
  rcases cancels with rfl | ⟨url, rfl, addressed⟩
  · have handled := Prod.mk.inj (Except.ok.inj moved.2)
    rw [← handled.1]
    refine ⟨_, Protocol.cancelObserve_spec (some id) _, fun key owns => ?_⟩
    rw [← known key owns]
    exact Protocol.cancelObserve_cancelledAt s.protocol id _
  · have handled : s.protocol.cancelObserveUrl url (fun id =>
        ((s.replies id).request.uri, (s.replies id).request.message.token)) =
          .ok (t.protocol, os) := moved.2
    refine ⟨os, Protocol.cancelObserveUrl_spec handled, fun key owns => ?_⟩
    obtain ⟨e, found, user⟩ := owns
    exact Protocol.cancelObserveUrl_cancelledAt handled found user addressed
      (known key ⟨e, found, user⟩)

/-- While the reply is not sent again, nothing makes it listen. -/
theorem quiet_run {tr : List (Framework.Transition (Threads Addr) _ _)}
    (run : Framework.Run Step s tr t) (consistent : s.protocol.Consistent)
    (sent : s.sent id = true) (handed : s.calls.countP (Call.hands id) = 0)
    (quiet : s.protocol.Quiet id) :
    ∀ x ∈ tr, .protocol (.post id .setNotified) ∉ x.outputs := by
  have each := run.forall_step
    (P := fun u => u.protocol.Consistent ∧ u.sent id = true ∧
      u.calls.countP (Call.hands id) = 0 ∧ u.protocol.Quiet id)
    (fun h step => by
      obtain ⟨consistent, sent, handed, quiet⟩ := h
      obtain ⟨sent', handed', moves⟩ := step_handed step sent handed
      refine ⟨step_consistent consistent step, sent', handed', ?_⟩
      rcases moves with ⟨same, -⟩ | ⟨event', os, moved, other, -⟩
      · exact same ▸ quiet
      · exact ((Protocol.step_change consistent moved).quiet quiet other).1)
    ⟨consistent, sent, handed, quiet⟩
  intro x hx notified
  obtain ⟨⟨consistent, sent, handed, quiet⟩, step⟩ := each x hx
  rcases (step_handed step sent handed).2.2 with ⟨-, silent⟩ | ⟨event', os, moved, other, emitted⟩
  · exact silent _ notified
  · rw [emitted] at notified
    obtain ⟨o, put, same⟩ := List.mem_map.mp notified
    obtain rfl : o = .post id .setNotified := by injection same
    exact ((Protocol.step_change consistent moved).quiet quiet other).2 put

/-- From a cancellation that has reached its exchange on, a reply is not notified. -/
theorem cancelled_run {later : List (Framework.Transition (Threads Addr) _ _)} {u : Threads Addr}
    (h : s.Orderly) {draws : Draws} (step : Step s (.call draws) emissions t)
    (run : Framework.Run Step t later u) {call : Call} (oldest : s.calls.head? = some call)
    (cancels : s.Cancels id call) {key : Token} (owns : s.protocol.Owns key id)
    (running : announcements id s.posted = []) :
    ∀ y ∈ later, .protocol (.post id .setNotified) ∉ y.outputs := by
  obtain ⟨os, cancelled, each⟩ := call_cancels h step oldest cancels running
  obtain ⟨sent, handed, -⟩ := h.known owns running
  obtain ⟨sent', handed', -⟩ := step_handed step sent handed
  exact quiet_run run (step_consistent h.consistent step) sent' handed' (cancelled.quiet each)

/-- The URL of a reply stays. -/
theorem urls_of_step {event : ThreadEvent Addr} (step : Step s event emissions t) :
    t.urls id = s.urls id := by
  have same (replies : t.replies = s.replies) : t.urls id = s.urls id := by
    simp only [urls, replies]
  cases event with
  | send id' connection =>
    obtain ⟨-, -, rfl⟩ := step_send step
    rfl
  | abortRequest id' =>
    obtain ⟨-, -, -, -, -, replies, -⟩ := step_abortRequest step
    simp only [urls, replies]
    by_cases own : id' = id
    · subst own
      rw [Function.update_self, Reply.request_abortRequest]
    · rw [Function.update_of_ne (Ne.symm own)]
  | cancelObserve id' =>
    obtain ⟨-, rfl⟩ := step_cancelObserve step
    rfl
  | cancelObserveUrl url =>
    obtain ⟨-, rfl⟩ := step_cancelObserveUrl step
    rfl
  | deliver =>
    obtain ⟨-, -, -, -, id', slot, -, replies⟩ := step_deliver step
    simp only [urls, replies]
    by_cases own : id' = id
    · subst own
      rw [Function.update_self, Reply.uri_handle]
    · rw [Function.update_of_ne (Ne.symm own)]
  | call draws =>
    obtain ⟨call, os, -, -, -, -, replies, -⟩ := step_call step
    exact same replies
  | protocol event =>
    obtain ⟨-, -, -, -, os, -, -, -, replies⟩ := step_protocol step
    exact same replies

/-- A cancellation, by reply or by URL, is handled after a reply that has an exchange has been set
running: from then on no notification is posted to it any more, whatever comes in for it. -/
theorem cancelled_quiet {front later : List (Framework.Transition (Threads Addr) _ _)}
    {x : Framework.Transition (Threads Addr) (ThreadEvent Addr) (Emission Addr)}
    (initial : Initial s) (run : Framework.Run Step s (front ++ x :: later) t)
    (called : ∃ draws, x.event = .call draws) {call : Call}
    (oldest : x.source.calls.head? = some call) (id : ReplyId) (cancels : x.source.Cancels id call)
    (registered : ∃ key, x.source.protocol.Owns key id)
    (running : announcements id x.source.posted = []) :
    ∀ y ∈ later, .protocol (.post id .setNotified) ∉ y.outputs := by
  obtain ⟨m, before, after⟩ := run.of_append
  obtain ⟨rfl, step, after⟩ := after.of_cons
  have orderly := before.invariant (fun h step => Orderly.step h step) (initial_orderly initial)
  obtain ⟨draws, event⟩ := called
  rw [event] at step
  obtain ⟨key, owns⟩ := registered
  exact cancelled_run orderly step after oldest cancels owns running

section Instances

/-- Nothing sent yet; the requests are to observe two resources. -/
def twoResources : Threads IPv4Address where
  replies id := { request := { getRequest [] with
    message := { type := .confirmable, options := [⟨OptionName.observe, []⟩] }
    uri := if id = 0 then (getRequest []).uri
      else { (getRequest []).uri with path := "/light".toList } } }

theorem twoResources_initial : Initial twoResources :=
  ⟨⟨rfl, rfl, fun _ => ⟨_, rfl⟩⟩, rfl, fun _ => ⟨rfl, rfl⟩⟩

/-- Both are observed; the observation of the first is cancelled by its URL, and notified again. -/
def notifiedAfterwards : List (ThreadEvent IPv4Address) :=
  [.send 0 0, .send 1 0, .call [7, 0, 1, 2, 3, 4, 0], .call [8, 0, 5, 6, 7, 8, 0], .deliver,
    .deliver, .cancelObserveUrl (getRequest []).uri, .call [],
    .protocol (.frameReceived [0x54, 0x45, 0, 9, 1, 2, 3, 4, 0xFF, 65] serverAddress [])]

def isCall : ThreadEvent IPv4Address → Bool
  | .call _ => true
  | _ => false

theorem call_of_isCall {event : ThreadEvent IPv4Address} (called : isCall event = true) :
    ∃ draws, event = .call draws := by
  cases event with
  | call draws => exact ⟨draws, rfl⟩
  | _ => cases called

theorem notifiedAfterwards_runs :
    ∃ (front later : List (Framework.Transition (Threads IPv4Address) _ _))
      (x : Framework.Transition (Threads IPv4Address) _ _) (t : Threads IPv4Address),
      Framework.Run Step twoResources (front ++ x :: later) t ∧
      (∃ draws, x.event = .call draws) ∧
      x.source.calls.head? = some (.cancelObserveUrl (getRequest []).uri) ∧
      x.source.urls 0 = (getRequest []).uri ∧ x.source.posted = [] ∧
      (∃ e, x.source.protocol.exchangeMap.find? [1, 2, 3, 4] = some e ∧ e.userReply = some 0) ∧
      x.target.protocol.exchangeMap.entries.map
        (fun entry => (entry.1, entry.2.request.observeCancelled)) =
          [([1, 2, 3, 4], true), ([5, 6, 7, 8], false)] ∧
      ∃ y ∈ later, y.outputs ≠ [] := by
  have ran : (Framework.execute handle twoResources notifiedAfterwards).any (fun result =>
      (result.1.drop 7).head?.any (fun x => isCall x.event &&
        x.source.calls.head? == some (.cancelObserveUrl (getRequest []).uri) &&
        x.source.urls 0 == (getRequest []).uri && x.source.posted.isEmpty &&
        (x.source.protocol.exchangeMap.find? [1, 2, 3, 4]).any (·.userReply == some 0) &&
        x.target.protocol.exchangeMap.entries.map
          (fun entry => (entry.1, entry.2.request.observeCancelled)) ==
            [([1, 2, 3, 4], true), ([5, 6, 7, 8], false)]) &&
      (result.1.drop 7).tail.any (fun y => !y.outputs.isEmpty)) = true := by
    decide +kernel
  obtain ⟨tr, t, run, -, facts⟩ :=
    Framework.exists_run_of_execute Step (fun handled => handled) ran
  obtain ⟨facts, last⟩ := (Bool.and_eq_true ..).mp facts
  obtain ⟨x, first, facts⟩ := (Option.any_eq_true ..).mp facts
  obtain ⟨later, split⟩ := List.head?_eq_some_iff.mp first
  rw [split] at last
  obtain ⟨y, hy, out⟩ := List.any_eq_true.mp last
  simp only [Bool.and_eq_true, beq_iff_eq, List.isEmpty_iff, Option.any_eq_true] at facts
  obtain ⟨⟨⟨⟨⟨called, oldest⟩, url⟩, posted⟩, entry⟩, entries⟩ := facts
  have whole : tr = tr.take 7 ++ x :: later := by rw [← split, List.take_append_drop]
  rw [whole] at run
  exact ⟨_, later, x, t, run, call_of_isCall called, oldest, url, posted, entry,
    entries, y, hy, by simpa using out⟩

theorem cancelObserveUrl_exact_twoResources :
    ∃ (tr : List (Framework.Transition (Threads IPv4Address) _ _)) (t : Threads IPv4Address),
      Framework.Run Step twoResources tr t ∧ ∃ x ∈ tr,
        x.target.protocol.exchangeMap.entries.map
          (fun entry => (entry.1, entry.2.request.observeCancelled)) =
            [([1, 2, 3, 4], true), ([5, 6, 7, 8], false)] ∧
        x.target.protocol = { x.source.protocol with
          exchangeMap := x.source.protocol.exchangeMap.mapValues
            (·.cancelled (getRequest []).uri x.source.urls) } ∧
        x.outputs = (x.source.protocol.exchangeMap.entries.filterMap fun entry =>
          entry.2.told (getRequest []).uri x.source.urls).map .protocol := by
  obtain ⟨front, later, x, t, run, called, oldest, -, posted, -, entries, -⟩ :=
    notifiedAfterwards_runs
  refine ⟨_, t, run, x, by simp, entries, ?_⟩
  refine cancelObserveUrl_exact twoResources_initial run x (by simp) called _ oldest ?_
  intro id addressed
  rw [posted]
  rfl

theorem cancelled_quiet_notifiedAfterwards :
    ∃ (front later : List (Framework.Transition (Threads IPv4Address) _ _))
      (x : Framework.Transition (Threads IPv4Address) _ _) (t : Threads IPv4Address),
      Framework.Run Step twoResources (front ++ x :: later) t ∧ (∃ y ∈ later, y.outputs ≠ []) ∧
      ∀ y ∈ later, .protocol (.post 0 .setNotified) ∉ y.outputs := by
  obtain ⟨front, later, x, t, run, called, oldest, url, posted, ⟨e, found, user⟩, -, last⟩ :=
    notifiedAfterwards_runs
  refine ⟨front, later, x, t, run, last, ?_⟩
  refine cancelled_quiet twoResources_initial run called oldest 0 (.inr ⟨_, rfl, url⟩)
    ⟨_, e, found, user⟩ ?_
  rw [posted]
  rfl

end Instances

end Threads

end QtCoap
