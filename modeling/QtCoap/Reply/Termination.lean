import QtCoap.Reply.Phase

namespace QtCoap

variable {Addr : Type} [Platform Addr]

namespace Threads

variable {s t : Threads Addr} {emissions : List (Emission Addr)} {id : ReplyId}

/-- An unfinished reply is aborted, and the cancellation of its observation is handled, after it has
been set running, unless it has no exchange and will get none. -/
def Timely (s : Threads Addr) (id : ReplyId) : ThreadEvent Addr → Prop
  | .abortRequest id' => id' = id → (s.replies id).isFinishedOrAborted = false →
    (s.replies id).request.message.token = [] → (∀ key, ¬ s.protocol.Owns key id) ∧
      ∀ connection, .sendRequest id connection ∈ s.calls → (s.replies id).request.accepted = false
  | .call _ => s.calls.head? = some (.cancelObserve id) →
    (s.replies id).request.message.token = [] → ∀ key, ¬ s.protocol.Owns key id
  | _ => True

/-- The reply is aborted, and the protocol has handled what was posted about it. -/
def Terminated (s : Threads Addr) (id : ReplyId) : Prop :=
  (s.replies id).isAborted = true ∧ ∀ call ∈ s.calls, call.isAbout id = false

theorem isAbout_abortedCalls {id' : ReplyId} (other : id' ≠ id) {connected : Bool}
    {signals : List Signal} {call : Call}
    (listed : call ∈ if connected then abortedCalls id' signals else []) :
    call.isAbout id = false := by
  split_ifs at listed
  · obtain ⟨signal, -, same⟩ := List.mem_filterMap.mp listed
    cases signal with
    | aborted token =>
      obtain rfl := Option.some.inj same
      simp [Call.isAbout, other]
    | _ => cases same
  · cases listed

theorem phase_abortRequest (h : Step s (.abortRequest id) emissions t)
    (timely : s.Timely id (.abortRequest id))
    (phase : Phase id (s.view id) (s.protocol.Owns · id)) :
    Phase id (t.view id) (t.protocol.Owns · id) := by
  obtain ⟨sent, protocol, posted, sent', connected, replies, calls⟩ := step_abortRequest h
  rw [protocol]
  have reply : t.replies id = (s.replies id).abortRequest.1 := by
    rw [replies, Function.update_self]
  cases finished : (s.replies id).isFinishedOrAborted with
  | true =>
    have same : (s.replies id).abortRequest = (s.replies id, []) := by
      rw [Reply.abortRequest, if_pos finished]
    have view : t.view id = s.view id := by
      simp [Threads.view, reply, same, posted, sent', connected, calls, abortedCalls]
    rw [view]
    exact phase
  | false =>
    have after : (s.replies id).abortRequest = ({ s.replies id with
        isAborted := true, isFinished := true, isRunning := false },
        [.aborted (s.replies id).request.message.token, .finished]) := by
      rw [Reply.abortRequest, if_neg (by simp [finished])]
    have unfinished : (s.replies id).isAborted = false := by
      simp only [Reply.isFinishedOrAborted, Bool.or_eq_false_iff] at finished
      exact finished.2
    have timely' := timely rfl finished
    have view : t.view id = { s.view id with
        calls := (s.view id).calls ++
          if (s.view id).connected then [.aborted id (s.view id).token] else []
        isAborted := true } := by
      have signalled : (if s.connected id then abortedCalls id
            [.aborted (s.replies id).request.message.token, .finished] else []).filter
              (Call.isAbout id) =
          if s.connected id then [.aborted id (s.replies id).request.message.token] else [] := by
        by_cases listens : s.connected id = true <;>
          simp [listens, abortedCalls, Call.isAbout]
      simp only [Threads.view, reply, after, posted, sent', connected, calls, List.filter_append]
      rw [signalled]
      rfl
    rw [view]
    refine phase.abort sent unfinished ?_
    intro empty
    obtain ⟨free, rejected⟩ := timely' empty
    exact ⟨free, fun connection pending => rejected connection (List.mem_filter.mp pending).1⟩

theorem phase_deliver (h : Step s .deliver emissions t)
    (phase : Phase id (s.view id) (s.protocol.Owns · id)) :
    Phase id (t.view id) (t.protocol.Owns · id) := by
  obtain ⟨calls, sent, connected, protocol, id', slot, posted, replies⟩ := step_deliver h
  rw [protocol]
  by_cases own : id' = id
  · subst own
    have reply : t.replies id' = ((s.replies id').handle slot).1 := by
      rw [replies, Function.update_self]
    by_cases runs : ∃ token messageId, slot = .setRunning token messageId
    · obtain ⟨token, messageId, rfl⟩ := runs
      have announced : (s.view id').announced = token :: (t.view id').announced := by
        simp [Threads.view, posted, announcements]
      have view : t.view id' = { s.view id' with
          token := token, announced := (t.view id').announced } := by
        simp only [Threads.view, reply, sent, connected, calls]
        rfl
      rw [view]
      exact phase.deliver announced
    · have other (token : Token) (messageId : UInt16) : slot ≠ .setRunning token messageId :=
        fun same => runs ⟨token, messageId, same⟩
      have request := (s.replies id').handle_of_not_running other
      have announced : announcements id' s.posted = announcements id' t.posted := by
        rw [posted]
        cases slot with
        | setRunning token messageId => exact absurd rfl (other token messageId)
        | _ => rfl
      have view : t.view id' = s.view id' := by
        simp [Threads.view, reply, request, Reply.isAborted_handle, announced, sent, connected,
          calls]
      rw [view]
      exact phase
  · have reply : t.replies id = s.replies id := by
      rw [replies, Function.update_of_ne (Ne.symm own)]
    have announced : announcements id s.posted = announcements id t.posted := by
      rw [posted]
      cases slot with
      | setRunning token messageId => simp [announcements, own]
      | _ => rfl
    have view : t.view id = s.view id := by
      simp [Threads.view, reply, announced, sent, connected, calls]
    rw [view]
    exact phase

/-- A step of the protocol that does not hand the reply to it. -/
theorem phase_of_step {os : List (Output Addr)} {event : Event Addr}
    (consistent : s.protocol.Consistent) (step : Protocol.Step s.protocol event os t.protocol)
    (other : event.sends id = false) (posted : t.posted = s.posted ++ postsOf os)
    (replies : t.replies = s.replies) (sent : t.sent = s.sent)
    (connected : t.connected id = s.connected id)
    (calls : t.calls.filter (Call.isAbout id) = s.calls.filter (Call.isAbout id))
    (phase : Phase id (s.view id) (s.protocol.Owns · id)) :
    Phase id (t.view id) (t.protocol.Owns · id) := by
  rcases (Protocol.step_change consistent step).announces id with
    ⟨none, fewer⟩ | ⟨request, connection, draws, token, rfl, -⟩
  · have view : t.view id = s.view id := by
      simp [Threads.view, posted, announcements_append, none, replies, sent, connected, calls]
    rw [view]
    exact phase.mono fewer
  · simp [Event.sends] at other

theorem phase_call {draws : Draws} (consistent : s.protocol.Consistent)
    (h : Step s (.call draws) emissions t) (phase : Phase id (s.view id) (s.protocol.Owns · id)) :
    Phase id (t.view id) (t.protocol.Owns · id) := by
  obtain ⟨call, os, pending, step, -, posted, replies, sent, connected⟩ := step_call h
  have other (about : call.isAbout id = false)
      (sends : (call.event s.replies draws : Event Addr).sends id = false)
      (listens : s.connectedBy call id = s.connected id) :
      Phase id (t.view id) (t.protocol.Owns · id) := by
    refine phase_of_step consistent step sends posted replies sent (by rw [connected, listens]) ?_
      phase
    rw [pending, List.filter_cons_of_neg (by simp [about])]
  cases call with
  | cancelObserve id' => exact other rfl rfl rfl
  | cancelObserveUrl url => exact other rfl rfl rfl
  | aborted id' token =>
    by_cases own : id' = id
    · subst own
      have gone : t.protocol.exchangeMap.find? token = none := by
        rw [← (Prod.mk.inj (Except.ok.inj step.2)).1]
        cases found : s.protocol.exchangeMap.find? token with
        | none => rw [Protocol.onRequestAborted, found]; exact found
        | some e =>
          rw [Protocol.onRequestAborted_eq found (consistent.registered found).token]
          simp
      rcases (Protocol.step_change consistent step).announces id' with
        ⟨none, fewer⟩ | ⟨_, _, _, _, same, -⟩
      · have handled : (s.view id').calls = .aborted id' token :: (t.view id').calls := by
          simp [Threads.view, pending, Call.isAbout]
        have view : t.view id' = { s.view id' with calls := (t.view id').calls } := by
          simp [Threads.view, posted, announcements_append, none, replies, sent, connected,
            connectedBy]
        rw [view]
        refine phase.aborted handled fewer ?_
        rintro ⟨e, found, -⟩
        rw [gone] at found
        cases found
      · cases same
    · exact other (by simp [Call.isAbout, own]) rfl rfl
  | sendRequest id' connection =>
    by_cases own : id' = id
    · subst own
      have handled : (s.view id').calls = .sendRequest id' connection :: (t.view id').calls := by
        simp [Threads.view, pending, Call.isAbout]
      have view : t.view id' = { s.view id' with
          announced := (s.view id').announced ++ announcements id' (postsOf os)
          calls := (t.view id').calls
          connected := (s.view id').accepted || (s.view id').connected } := by
        simp only [Threads.view, posted, announcements_append, replies, sent, connected,
          connectedBy]
        by_cases accepted : (s.replies id').request.accepted = true <;> simp [accepted]
      rw [view]
      refine phase.sendRequest handled ?_
      rcases (Protocol.step_change consistent step).announces id' with
        ⟨none, fewer⟩ | ⟨request, connection', draws', token, same, accepted, ne, one, back⟩
      · exact .inr ⟨fewer, none⟩
      · obtain ⟨rfl, -⟩ : (s.replies id').request = request ∧ connection = connection' ∧
            draws = draws' := by
          simpa [Call.event] using same
        exact .inl ⟨accepted, token, ne, back, one⟩
    · refine other (by simp [Call.isAbout, own]) (by simp [Call.event, Event.sends, own]) ?_
      simp only [connectedBy]
      split_ifs
      · rw [Function.update_of_ne (Ne.symm own)]
      · rfl

theorem step_phase {event : ThreadEvent Addr} (consistent : s.protocol.Consistent)
    (h : Step s event emissions t) (timely : s.Timely id event)
    (phase : Phase id (s.view id) (s.protocol.Owns · id)) :
    Phase id (t.view id) (t.protocol.Owns · id) := by
  cases event with
  | send id' connection =>
    obtain ⟨unsent, -, rfl⟩ := step_send h
    by_cases own : id' = id
    · subst own
      have view : view { s with
          calls := s.calls ++ [.sendRequest id' connection]
          sent := Function.update s.sent id' true } id' = { s.view id' with
            calls := (s.view id').calls ++ [.sendRequest id' connection], sent := true } := by
        simp [Threads.view, Call.isAbout]
      rw [view]
      exact phase.send unsent connection
    · have view : view { s with
          calls := s.calls ++ [.sendRequest id' connection]
          sent := Function.update s.sent id' true } id = s.view id := by
        simp [Threads.view, Call.isAbout, own, Function.update_of_ne (Ne.symm own)]
      rw [view]
      exact phase
  | abortRequest id' =>
    by_cases own : id' = id
    · subst own
      exact phase_abortRequest h timely phase
    · obtain ⟨-, protocol, posted, sent, connected, replies, calls⟩ := step_abortRequest h
      rw [protocol]
      have others : (if s.connected id' then abortedCalls id' (s.replies id').abortRequest.2
          else []).filter (Call.isAbout id) = [] := by
        rw [List.filter_eq_nil_iff]
        intro call hc
        simp [isAbout_abortedCalls own hc]
      have view : t.view id = s.view id := by
        simp only [Threads.view, posted, sent, connected, replies, calls, List.filter_append,
          others, List.append_nil, Function.update_of_ne (Ne.symm own)]
      rw [view]
      exact phase
  | cancelObserve id' =>
    obtain ⟨-, rfl⟩ := step_cancelObserve h
    have view : view { s with calls := s.calls ++ [.cancelObserve id'] } id = s.view id := by
      simp [Threads.view, Call.isAbout]
    rw [view]
    exact phase
  | cancelObserveUrl url =>
    obtain ⟨-, rfl⟩ := step_cancelObserveUrl h
    have view : view { s with calls := s.calls ++ [.cancelObserveUrl url] } id = s.view id := by
      simp [Threads.view, Call.isAbout]
    rw [view]
    exact phase
  | deliver => exact phase_deliver h phase
  | call draws => exact phase_call consistent h phase
  | protocol event =>
    obtain ⟨own, calls, sent, connected, os, step, -, posted, replies⟩ := step_protocol h
    refine phase_of_step consistent step ?_ posted replies sent (by rw [connected])
      (by rw [calls]) phase
    cases event with
    | sendRequest _ _ _ _ => cases own
    | _ => rfl

/-- What the protocol does in a step, if it does anything. -/
theorem step_moves {event : ThreadEvent Addr} (h : Step s event emissions t) :
    t.protocol = s.protocol ∧ (∀ o, .protocol o ∉ emissions) ∨
      ∃ event' os, Protocol.Step s.protocol event' os t.protocol ∧
        emissions = os.map .protocol := by
  cases event with
  | send id connection =>
    obtain ⟨-, rfl, rfl⟩ := step_send h
    exact .inl ⟨rfl, by simp⟩
  | abortRequest id =>
    have silent : ∀ o, Emission.protocol o ∉ emissions := by
      dsimp only [Step, handle] at h
      split_ifs at h
      all_goals
        obtain ⟨⟨system, signals⟩, aborted, same⟩ := Option.map_eq_some_iff.mp h
        obtain ⟨-, rfl⟩ := Prod.mk.inj same
        obtain ⟨-, rfl⟩ := Prod.mk.inj (Option.some.inj aborted)
        simp
    exact .inl ⟨(step_abortRequest h).2.1, silent⟩
  | cancelObserve id =>
    obtain ⟨rfl, rfl⟩ := step_cancelObserve h
    exact .inl ⟨rfl, by simp⟩
  | cancelObserveUrl url =>
    obtain ⟨rfl, rfl⟩ := step_cancelObserveUrl h
    exact .inl ⟨rfl, by simp⟩
  | deliver =>
    have silent : ∀ o, Emission.protocol o ∉ emissions := by
      obtain ⟨⟨system, signals⟩, delivered, same⟩ := Option.map_eq_some_iff.mp h
      obtain ⟨-, rfl⟩ := Prod.mk.inj same
      dsimp only [System.handle] at delivered
      split at delivered
      · cases delivered
      · obtain ⟨-, rfl⟩ := Prod.mk.inj (Option.some.inj delivered)
        simp
    exact .inl ⟨(step_deliver h).2.2.2.1, silent⟩
  | call draws =>
    obtain ⟨call, os, -, step, emitted, -⟩ := step_call h
    exact .inr ⟨_, os, step, emitted⟩
  | protocol event =>
    obtain ⟨-, -, -, -, os, step, emitted, -⟩ := step_protocol h
    exact .inr ⟨event, os, step, emitted⟩

theorem step_consistent {event : ThreadEvent Addr} (consistent : s.protocol.Consistent)
    (h : Step s event emissions t) : t.protocol.Consistent := by
  rcases step_moves h with ⟨same, -⟩ | ⟨event', os, step, -⟩
  · rw [same]
    exact consistent
  · exact consistent.step step

theorem Terminated.free {Addr : Type} {s : Threads Addr} (h : s.Terminated id)
    (phase : Phase id (s.view id) (s.protocol.Owns · id)) : ∀ key, ¬ s.protocol.Owns key id := by
  obtain ⟨aborted, handled⟩ := h
  cases phase with
  | waiting free token announced calls isAborted => exact free
  | announced key ne own token announced calls sent connected isAborted =>
    rw [show (s.view id).isAborted = true from aborted] at isAborted
    cases isAborted
  | running ne own announced sent connected calls =>
    rcases calls with ⟨-, free⟩ | ⟨-, pending⟩
    · exact free aborted
    · have listed : Call.aborted id (s.view id).token ∈ (s.view id).calls := by
        rw [pending]
        exact List.mem_singleton_self _
      have other := handled _ (List.mem_filter.mp listed).1
      simp [Call.isAbout] at other
  | ended free sent rejected => exact free

theorem Terminated.sent {Addr : Type} {s : Threads Addr} (h : s.Terminated id)
    (phase : Phase id (s.view id) (s.protocol.Owns · id)) : s.sent id = true := by
  cases phase with
  | waiting free token announced calls isAborted =>
    rw [show (s.view id).isAborted = true from h.1] at isAborted
    cases isAborted
  | announced _ _ _ _ _ _ sent _ _ | running _ _ _ sent _ _ | ended _ sent _ => exact sent

theorem Terminated.step {event : ThreadEvent Addr} (h : Step s event emissions t)
    (sent : s.sent id = true) (before : s.Terminated id) : t.Terminated id := by
  obtain ⟨aborted, handled⟩ := before
  have other {call : Call} (about : call.isAbout id = false) :
      ∀ c ∈ s.calls ++ [call], c.isAbout id = false := by
    intro c hc
    rcases List.mem_append.mp hc with hc | hc
    · exact handled c hc
    · obtain rfl := List.mem_singleton.mp hc
      exact about
  cases event with
  | send id' connection =>
    obtain ⟨unsent, -, rfl⟩ := step_send h
    refine ⟨aborted, other ?_⟩
    by_contra own
    obtain rfl : id' = id := by simpa [Call.isAbout] using own
    rw [sent] at unsent
    cases unsent
  | abortRequest id' =>
    obtain ⟨-, -, -, -, -, replies, calls⟩ := step_abortRequest h
    by_cases own : id' = id
    · subst own
      have finished : (s.replies id').abortRequest = (s.replies id', []) := by
        simp [Reply.abortRequest, Reply.isFinishedOrAborted, aborted]
      refine ⟨?_, ?_⟩
      · rw [replies, Function.update_self, finished]
        exact aborted
      · rw [calls, finished]
        simpa [abortedCalls] using handled
    · refine ⟨?_, ?_⟩
      · rw [replies, Function.update_of_ne (Ne.symm own)]
        exact aborted
      · intro call hc
        rw [calls] at hc
        rcases List.mem_append.mp hc with hc | hc
        · exact handled call hc
        · exact isAbout_abortedCalls own hc
  | cancelObserve id' =>
    obtain ⟨-, rfl⟩ := step_cancelObserve h
    exact ⟨aborted, other rfl⟩
  | cancelObserveUrl url =>
    obtain ⟨-, rfl⟩ := step_cancelObserveUrl h
    exact ⟨aborted, other rfl⟩
  | deliver =>
    obtain ⟨calls, -, -, -, id', slot, -, replies⟩ := step_deliver h
    refine ⟨?_, by rw [calls]; exact handled⟩
    rw [replies]
    by_cases own : id = id'
    · subst own
      rw [Function.update_self, Reply.isAborted_handle]
      exact aborted
    · rw [Function.update_of_ne own]
      exact aborted
  | call draws =>
    obtain ⟨call, os, pending, -, -, -, replies, -⟩ := step_call h
    refine ⟨by rw [replies]; exact aborted, ?_⟩
    intro c hc
    exact handled c (by simp [pending, hc])
  | protocol event =>
    obtain ⟨-, calls, -, -, os, -, -, -, replies⟩ := step_protocol h
    exact ⟨by rw [replies]; exact aborted, by rw [calls]; exact handled⟩

/-- A handled cancellation reaches the exchange of the reply. -/
theorem call_cancelObserve {draws : Draws} (h : Step s (.call draws) emissions t)
    (timely : s.Timely id (.call draws))
    (phase : Phase id (s.view id) (s.protocol.Owns · id))
    (oldest : s.calls.head? = some (.cancelObserve id)) {key : Token} {e : ExchangeData Addr}
    (found : s.protocol.exchangeMap.find? key = some e) (user : e.userReply = some id)
    (observe : e.request.isObserve = true) :
    ∃ e', t.protocol.exchangeMap.find? key = some e' ∧ e'.request.observeCancelled = true := by
  have owns : s.protocol.Owns key id := ⟨e, found, user⟩
  have known : (s.replies id).request.message.token = key := by
    by_cases empty : (s.replies id).request.message.token = []
    · exact absurd owns (timely oldest empty key)
    · cases phase with
      | waiting free token announced calls isAborted => exact absurd token empty
      | announced key' ne own token announced calls sent connected isAborted =>
        exact absurd token empty
      | running ne own announced sent connected calls => exact (own key owns).symm
      | ended free sent rejected => exact absurd owns (free key)
  obtain ⟨call, os, pending, step, -⟩ := step_call h
  rw [pending] at oldest
  obtain rfl := Option.some.inj oldest
  have after := (Prod.mk.inj (Except.ok.inj step.2)).1
  rw [← after, known]
  exact Protocol.cancelObserve_registered found observe id

theorem initial_phase {Addr : Type} {s : Threads Addr} (initial : Initial s)
    (token : (s.replies id).request.message.token = []) :
    Phase id (s.view id) (s.protocol.Owns · id) := by
  obtain ⟨⟨protocol, posted, replies⟩, calls, unsent⟩ := initial
  refine .waiting ?_ token ?_ (.inl ?_) ?_
  · rw [protocol]
    simp [Protocol.Owns]
  · simp [Threads.view, posted, announcements]
  · simp [Threads.view, calls]
  · obtain ⟨request, reply⟩ := replies id
    simp [Threads.view, reply]

/-- Timely aborts and cancellations take effect: a terminated reply stays so, has no exchange and
has nothing sent for it, and a cancellation that is handled cancels the observation. -/
theorem termination_takes_effect {tr : List (Framework.Transition (Threads Addr) _ _)}
    (initial : Initial s) (run : Framework.Run Step s tr t) (id : ReplyId)
    (token : (s.replies id).request.message.token = [])
    (timely : ∀ x ∈ tr, x.source.Timely id x.event) :
    (t.Terminated id → ∀ key, ¬ t.protocol.Owns key id) ∧
    ∀ x ∈ tr,
      (x.source.Terminated id → x.target.Terminated id ∧
        (∀ key, ¬ x.source.protocol.Owns key id ∧ ¬ x.target.protocol.Owns key id) ∧
        ∀ message method connection host port,
          .protocol (.frame message method connection host port) ∈ x.outputs →
          ∃ event os, x.outputs = os.map .protocol ∧
            x.source.protocol.WorksForOther event os id) ∧
      ((∃ draws, x.event = .call draws) → x.source.calls.head? = some (.cancelObserve id) →
        ∀ key e, x.source.protocol.exchangeMap.find? key = some e → e.userReply = some id →
          e.request.isObserve = true → ∃ e', x.target.protocol.exchangeMap.find? key = some e' ∧
            e'.request.observeCancelled = true) := by
  have start : s.protocol.Consistent := by
    rw [initial.1.1]
    exact Protocol.consistent_initial
  have steps := run.forall_step (P := fun s => s.protocol.Consistent) step_consistent start
  have phases := run.along
    (P := fun s : Threads Addr => Phase id (s.view id) (s.protocol.Owns · id))
    (fun x hx step before => step_phase (steps x hx).1 step (timely x hx) before)
    (initial_phase initial token)
  refine ⟨fun terminated => terminated.free phases.1, ?_⟩
  intro x hx
  obtain ⟨consistent, step⟩ := steps x hx
  obtain ⟨source, target⟩ := phases.2 x hx
  refine ⟨?_, ?_⟩
  · intro terminated
    have after := Terminated.step step (terminated.sent source) terminated
    have free (key : Token) := And.intro (terminated.free source key) (after.free target key)
    refine ⟨after, free, ?_⟩
    intro message method connection host port sent
    rcases step_moves step with ⟨-, silent⟩ | ⟨event, os, moved, emitted⟩
    · exact absurd sent (silent _)
    · refine ⟨event, os, emitted, ?_⟩
      rw [emitted] at sent
      obtain ⟨o, put, same⟩ := List.mem_map.mp sent
      obtain rfl : o = .frame message method connection host port := by injection same
      exact (Protocol.step_change consistent moved).worksForOther free put
  · intro called oldest key e found user observe
    obtain ⟨draws, event⟩ := called
    rw [event] at step
    exact call_cancelObserve step (event ▸ timely x hx) source oldest found user observe

instance Terminated.instDecidable (s : Threads Addr) (id : ReplyId) : Decidable (s.Terminated id) :=
  inferInstanceAs (Decidable (_ ∧ _))

/-- The replies that are aborted in this step, and those whose cancellation is handled, have their
token. -/
def informed (x : Framework.Transition (Threads Addr) (ThreadEvent Addr) (Emission Addr)) : Bool :=
  match x.event, x.source.calls.head? with
  | .abortRequest id, _ | .call _, some (.cancelObserve id) =>
    (x.source.replies id).request.message.token != []
  | _, _ => true

theorem timely_of_informed {Addr : Type}
    {x : Framework.Transition (Threads Addr) (ThreadEvent Addr) (Emission Addr)}
    (h : informed x = true) (id : ReplyId) : x.source.Timely id x.event := by
  obtain ⟨s, event, os, t⟩ := x
  cases event with
  | abortRequest id' =>
    rintro rfl - empty
    exact absurd empty (by simpa [informed] using h)
  | call draws =>
    intro oldest empty
    exact absurd empty (by simpa [informed, oldest] using h)
  | _ => trivial

/-- Nothing sent yet; every request is to observe. -/
def idle : Threads IPv4Address where
  replies _ := { request := { getRequest [] with
    message := { type := .confirmable, options := [⟨OptionName.observe, []⟩] } } }

theorem idle_initial : Initial idle :=
  ⟨⟨rfl, rfl, fun _ => ⟨_, rfl⟩⟩, rfl, fun _ => ⟨rfl, rfl⟩⟩

/-- Two requests; the observation of the first is cancelled, then it is aborted. -/
def abortedInTime : List (ThreadEvent IPv4Address) :=
  [.send 0 0, .send 1 0, .call [7, 0, 1, 2, 3, 4, 0], .call [8, 0, 5, 6, 7, 8, 0], .deliver,
    .deliver, .cancelObserve 0, .call [], .abortRequest 0, .call [],
    .protocol (.timeout [5, 6, 7, 8])]

theorem termination_takes_effect_abortedInTime :
    ∃ (tr : List (Framework.Transition (Threads IPv4Address) _ _)) (t : Threads IPv4Address),
      Framework.Run Step idle tr t ∧ t.Terminated 0 ∧ (∀ key, ¬ t.protocol.Owns key 0) ∧
      ∃ x ∈ tr, x.outputs ≠ [] ∧ x.source.Terminated 0 ∧ ∀ message method connection host port,
        .protocol (.frame message method connection host port) ∈ x.outputs →
        ∃ event os, x.outputs = os.map .protocol ∧ x.source.protocol.WorksForOther event os 0 := by
  have ran : (Framework.execute handle idle abortedInTime).any (fun result =>
      decide (result.2.Terminated 0) && result.1.all informed &&
      result.1.any (fun x => decide (x.source.Terminated 0) && !x.outputs.isEmpty)) = true := by
    decide +kernel
  obtain ⟨tr, t, run, -, facts⟩ :=
    Framework.exists_run_of_execute Step (fun handled => handled) ran
  simp only [Bool.and_eq_true, decide_eq_true_eq] at facts
  obtain ⟨⟨terminated, timely⟩, later⟩ := facts
  obtain ⟨x, hx, after⟩ := List.any_eq_true.mp later
  simp only [Bool.and_eq_true, decide_eq_true_eq, Bool.not_eq_true', List.isEmpty_eq_false_iff]
    at after
  obtain ⟨free, each⟩ := termination_takes_effect idle_initial run 0 rfl
    fun x hx => timely_of_informed (List.all_eq_true.mp timely x hx) 0
  exact ⟨tr, t, run, terminated, free terminated, x, hx, after.2, after.1,
    ((each x hx).1 after.1).2.2⟩

/-- A request is aborted after its registration, before the reply is told of it. -/
def abortedEarly : List (ThreadEvent IPv4Address) :=
  [.send 0 0, .call [7, 0, 1, 2, 3, 4, 0], .abortRequest 0, .call []]

/-- The emission is a frame with the message. -/
def sends (message : Message) : Emission IPv4Address → Bool
  | .protocol (.frame sent _ _ _ _) => sent == message
  | _ => false

/-- The signal carries the empty token then: the exchange stays and its request is sent again. -/
theorem abortedEarly_stays : Initial idle ∧ (idle.replies 0).request.message.token = [] ∧
    ∃ (tr : List (Framework.Transition (Threads IPv4Address) _ _)) (t u : Threads IPv4Address)
      (emissions : List (Emission IPv4Address)) (e : ExchangeData IPv4Address),
      Framework.Run Step idle tr t ∧ t.Terminated 0 ∧
      t.protocol.exchangeMap.find? [1, 2, 3, 4] = some e ∧ e.userReply = some 0 ∧
      Step t (.protocol (.timeout [1, 2, 3, 4])) emissions u ∧
      ∃ method connection host port,
        .protocol (.frame e.request.message method connection host port) ∈ emissions := by
  have ran : (Framework.execute handle idle abortedEarly).any (fun result =>
      decide (result.2.Terminated 0) &&
      (result.2.protocol.exchangeMap.find? [1, 2, 3, 4]).any (fun e => e.userReply == some 0 &&
        (handle result.2 (.protocol (.timeout [1, 2, 3, 4]))).any (fun next =>
          next.2.any (sends e.request.message)))) = true := by
    decide +kernel
  obtain ⟨tr, t, run, -, facts⟩ :=
    Framework.exists_run_of_execute Step (fun handled => handled) ran
  obtain ⟨terminated, entry⟩ := (Bool.and_eq_true ..).mp facts
  obtain ⟨e, found, entry⟩ := (Option.any_eq_true ..).mp entry
  obtain ⟨user, next⟩ := (Bool.and_eq_true ..).mp entry
  obtain ⟨⟨u, emissions⟩, step, sent⟩ := (Option.any_eq_true ..).mp next
  obtain ⟨o, put, frame⟩ := List.any_eq_true.mp sent
  refine ⟨idle_initial, rfl, tr, t, u, emissions, e, run, by simpa using terminated, found,
    by simpa using user, step, ?_⟩
  unfold sends at frame
  split at frame
  · rename_i message method connection host port
    obtain rfl : message = e.request.message := by simpa using frame
    exact ⟨method, connection, host, port, put⟩
  · cases frame

end Threads

end QtCoap
