import QtCoap.Protocol.Outcome

namespace QtCoap

variable {Addr : Type}

namespace Slot

/-- The call ends the reply. -/
def ends : Slot Addr → Bool
  | setFinished _ | setObserveCancelled => true
  | _ => false

/-- The call gives the reply content or an error. -/
def informs : Slot Addr → Bool
  | setContent _ _ _ | setError _ => true
  | setFinished error => error != .ok
  | _ => false

end Slot

namespace Output

/-- A slot call that gives the reply content or an error is posted to it. -/
def informs (id : ReplyId) : Output Addr → Bool
  | .post id' slot => id' == id && slot.informs
  | _ => false

theorem reports_of_informs {id : ReplyId} {o : Output Addr} (h : o.informs id = true) :
    o.reports id = true := by
  cases o with
  | post id' slot => cases slot <;> simp_all [informs, reports, Slot.informs]
  | _ => cases h

/-- A reply is told that its observation is cancelled. -/
def cancels : Output Addr → Bool
  | .post _ .setObserveCancelled => true
  | _ => false

/-- The error that the protocol signals for the reply. -/
def errorFor (id : ReplyId) : Output Addr → Option Error
  | .error (some id') signalled => if id' = id then some signalled else none
  | _ => none

theorem errorFor_eq_some_iff {id : ReplyId} {o : Output Addr} {error : Error} :
    o.errorFor id = some error ↔ o = .error (some id) error := by
  constructor
  · intro own
    cases o with
    | error reply error' =>
      cases reply with
      | none => cases own
      | some id' =>
        simp only [errorFor] at own
        split_ifs at own with same
        obtain rfl := Option.some.inj own
        rw [same]
    | _ => cases own
  · rintro rfl
    exact if_pos rfl

end Output

variable [Platform Addr]

namespace ExchangeData

variable {e : ExchangeData Addr} {id : ReplyId} {error : Error}

theorem error_not_mem_transmit (r : InternalRequest) (host : QString) (reply : Option ReplyId) :
    .error reply error ∉ (transmit Addr r host).2 := by
  intro sent
  obtain ⟨_, _, _, _, same⟩ := mem_transmit sent
  cases same

theorem error_not_mem_acknowledge (received : ReceivedReply Addr) (reply : Option ReplyId) :
    .error reply error ∉ e.acknowledge received := by
  intro sent
  obtain ⟨_, _, _, _, _, same, -⟩ := mem_acknowledge sent
  cases same

theorem error_not_mem_finish (sender : Addr) (reply : Option ReplyId) :
    .error reply error ∉ (e.finish sender).2 := by
  unfold finish
  split
  · dsimp only
    split_ifs <;> simp
  · simp

theorem error_mem_fail {Addr : Type} {e : ExchangeData Addr} {error' : Error}
    {reply : Option (ReceivedReply Addr)}
    (signalled : .error (some id) error ∈ (e.fail error' reply).2) :
    e.userReply = some id ∧ error = error' := by
  simp only [fail, errorPosts] at signalled
  cases user : e.userReply with
  | none => simp [user] at signalled
  | some own =>
    rw [user] at signalled
    cases reply with
    | none =>
      obtain ⟨rfl, rfl⟩ : id = own ∧ error = error' := by simpa using signalled
      exact ⟨rfl, rfl⟩
    | some received =>
      obtain ⟨rfl, rfl⟩ : id = own ∧ error = error' := by simpa using signalled
      exact ⟨rfl, rfl⟩

/-- What a failed exchange puts out. -/
theorem fail_outputs {Addr : Type} {e : ExchangeData Addr} (user : e.userReply = some id)
    (reply : Option (ReceivedReply Addr)) :
    (e.fail error reply).2 = errorPosts (some id) error reply ++ [.error (some id) error] := by
  rw [fail, user]

theorem timeout_of_exhausted {maximumRetransmitCount : Nat}
    (exhausted : e.request.message.type = .confirmable →
      maximumRetransmitCount ≤ e.request.retransmissionCounter) :
    e.timeout maximumRetransmitCount = e.fail .timeOut none := by
  rw [timeout, if_neg]
  rintro ⟨confirmable, more⟩
  exact absurd more (Nat.not_lt.mpr (exhausted confirmable))

end ExchangeData

namespace Protocol

variable {s t : Protocol Addr} {os : List (Output Addr)} {event : Event Addr} {id : ReplyId}
  {error : Error} {response : Option (ReceivedReply Addr)} {tr : List (Taken Addr)}

/-- The exchange of the reply fails: the server has answered with an error, there are no more
transmissions left, or the time for all of them is over. -/
inductive Fails (s : Protocol Addr) (id : ReplyId) :
    Event Addr → Error → Option (ReceivedReply Addr) → Prop
  | refused {data draws reply} (key : Token) (e : ExchangeData Addr)
      (admits : s.Admits data reply key e) (user : e.userReply = some id)
      (refused : isError reply.responseCode = true) :
      Fails s id (.frameReceived data reply.senderAddress draws)
        (errorForResponseCode reply.responseCode) (some reply)
  | timedOut (key : Token) (e : ExchangeData Addr) (found : s.exchangeMap.find? key = some e)
      (user : e.userReply = some id)
      (exhausted : e.request.message.type = .confirmable →
        s.maximumRetransmitCount ≤ e.request.retransmissionCounter) :
      Fails s id (.timeout key) .timeOut none
  | spanReached (key : Token) (e : ExchangeData Addr) (found : s.exchangeMap.find? key = some e)
      (user : e.userReply = some id) : Fails s id (.maxTransmissionSpanReached key) .timeOut none

theorem ExchangeData.Reacts.fails {key : Token} {e : ExchangeData Addr}
    {reaction : Reaction Addr} (found : s.exchangeMap.find? key = some e)
    (h : e.Reacts s key event reaction)
    (signalled : .error (some id) error ∈ reaction.2) :
    ∃ response, Fails s id event error response := by
  cases h with
  | @received data draws reply next admits fresh =>
    have received := e.receives s.blockSize reply next
    generalize e.receive s.blockSize reply next = reaction at received signalled
    cases received with
    | failed refused =>
      obtain ⟨user, rfl⟩ := ExchangeData.error_mem_fail signalled
      exact ⟨some reply, .refused key e admits user refused⟩
    | asked noError q host more =>
      rcases List.mem_append.mp signalled with answered | sent
      · exact absurd answered (ExchangeData.error_not_mem_acknowledge _ _)
      · exact absurd sent (ExchangeData.error_not_mem_transmit _ _ _)
    | ended noError last =>
      rcases List.mem_append.mp signalled with answered | finished
      · exact absurd answered (ExchangeData.error_not_mem_acknowledge _ _)
      · exact absurd finished (ExchangeData.error_not_mem_finish _ _)
  | timedOut runs =>
    by_cases more : e.request.message.type = .confirmable ∧
        e.request.retransmissionCounter < s.maximumRetransmitCount
    · rw [ExchangeData.timeout, if_pos more] at signalled
      exact absurd signalled (ExchangeData.error_not_mem_transmit _ _ _)
    · have exhausted (confirmable : e.request.message.type = .confirmable) :
          s.maximumRetransmitCount ≤ e.request.retransmissionCounter :=
        Nat.not_lt.mp fun less => more ⟨confirmable, less⟩
      rw [ExchangeData.timeout_of_exhausted exhausted] at signalled
      obtain ⟨user, rfl⟩ := ExchangeData.error_mem_fail signalled
      exact ⟨none, .timedOut key e found user exhausted⟩
  | spanReached runs =>
    obtain ⟨user, rfl⟩ := ExchangeData.error_mem_fail signalled
    exact ⟨none, .spanReached key e found user⟩
  | expired runs =>
    simp only [ExchangeData.expire, expiryPosts] at signalled
    cases user : e.userReply <;> simp [user] at signalled
  | aborted => cases signalled

/-- An error is signalled for a reply only if its exchange fails with it. -/
theorem Change.fails (h : Change s os t event) (signalled : .error (some id) error ∈ os) :
    ∃ response, Fails s id event error response := by
  cases h with
  | opened messageId token timeout registers after =>
    obtain rfl := (Prod.mk.inj after).2
    rcases List.mem_cons.mp signalled with running | sent
    · cases running
    · exact absurd sent (ExchangeData.error_not_mem_transmit _ _ _)
  | reacted key e reaction found reacts after =>
    obtain rfl := (Prod.mk.inj after).2
    exact ExchangeData.Reacts.fails found reacts signalled
  | passed each outputs =>
    rcases outputs _ signalled with ⟨_, same⟩ | ⟨_, same⟩ <;> cases same

/-- A failing exchange tells its reply, and signals the error. -/
theorem Fails.outputs (consistent : s.Consistent) (step : Step s event os t)
    (fails : Fails s id event error response) :
    os = errorPosts (some id) error response ++ [.error (some id) error] := by
  cases fails with
  | @refused data draws reply key e admits user refused =>
    obtain ⟨next, -, after⟩ := apply_of_admits consistent admits step
    rw [(Prod.mk.inj after).2, ExchangeData.receive_of_error _ refused]
    exact ExchangeData.fail_outputs (e := e.store reply) user (some reply)
  | timedOut key e found user exhausted =>
    have handled := onRequestTimeout_eq found (consistent.registered found).token
    rw [ExchangeData.timeout_of_exhausted exhausted] at handled
    have after := (Except.ok.inj step.2).symm.trans handled
    rw [(Prod.mk.inj after).2]
    exact ExchangeData.fail_outputs user none
  | spanReached key e found user =>
    have handled := onRequestError_eq .timeOut none found (consistent.registered found).token
    have after := (Except.ok.inj step.2).symm.trans handled
    rw [(Prod.mk.inj after).2]
    exact ExchangeData.fail_outputs user none

/-- It puts the end of the reply out. -/
theorem Fails.finishes {Addr : Type} {os : List (Output Addr)}
    {response : Option (ReceivedReply Addr)}
    (outputs : os = errorPosts (some id) error response ++ [.error (some id) error]) :
    ∃ o ∈ os, o.finishes id = true := by
  refine ⟨.post id (.setFinished .ok), ?_, by simp [Output.finishes]⟩
  rw [outputs]
  cases response <;> simp [errorPosts]

theorem Fails.countP {Addr : Type} {os : List (Output Addr)}
    {response : Option (ReceivedReply Addr)}
    (outputs : os = errorPosts (some id) error response ++ [.error (some id) error]) :
    os.countP (fun o => (o.errorFor id).isSome) = 1 := by
  rw [outputs]
  cases response <;> simp [errorPosts, Output.errorFor]

/-- Within the reports of one reaction, the content or the error comes before the end. -/
theorem reported_ordered {e : ExchangeData Addr} {left : Option (ExchangeData Addr)}
    {os : List (Output Addr)} (h : e.Reported id left os) :
    os.Pairwise fun o o' => o.finishes id = true → o'.informs id = false := by
  cases h with
  | silent => exact .nil
  | _ => simp [Output.finishes, Output.informs, Slot.informs]

theorem Change.ordered (h : Change s os t event) :
    os.Pairwise fun o o' => o.finishes id = true → o'.informs id = false := by
  have kept : (os.filter (Output.reports id)).Pairwise fun o o' =>
      o.finishes id = true → o'.informs id = false := by
    rcases h.reported id with none | ⟨key, e, reaction, -, -, -, reported⟩
    · rw [none]
      exact .nil
    · exact reported_ordered reported
  rw [List.pairwise_filter] at kept
  refine kept.imp fun {o o'} ordered finishes => ?_
  by_contra other
  have informs : o'.informs id = true := by simpa using other
  exact other (ordered (Output.reports_of_finishes finishes)
    (Output.reports_of_informs informs) finishes)

/-- The outputs of a step in which the exchange of the reply fails, and of no other step, hold an
error for it. -/
theorem failed_iff (run : Framework.Run Step {} tr t) {x : Taken Addr} (hx : x ∈ tr) :
    .error (some id) error ∈ x.outputs ↔
      ∃ response, Fails x.source id x.event error response := by
  obtain ⟨consistent, step⟩ :=
    run.forall_step (fun before h => before.step h) consistent_initial x hx
  constructor
  · exact (step_change consistent step).fails
  · rintro ⟨response, fails⟩
    rw [fails.outputs consistent step]
    simp

/-- At most one error is signalled for a reply that is sent once. -/
theorem failed_once (run : Framework.Run Step {} tr t)
    (once : tr.countP (·.event.sends id) ≤ 1) :
    (tr.flatMap (·.outputs)).countP (fun o => (o.errorFor id).isSome) ≤ 1 := by
  have failed (x : Taken Addr) (hx : x ∈ tr)
      (out : ∃ o ∈ x.outputs, (Output.errorFor id o).isSome = true) : ∃ error response,
        x.outputs = errorPosts (some id) error response ++ [.error (some id) error] := by
    obtain ⟨o, ho, some⟩ := out
    obtain ⟨error, own⟩ := Option.isSome_iff_exists.mp some
    obtain rfl := Output.errorFor_eq_some_iff.mp own
    obtain ⟨response, fails⟩ := (failed_iff run hx).mp ho
    obtain ⟨consistent, step⟩ :=
      run.forall_step (fun before h => before.step h) consistent_initial x hx
    exact ⟨error, response, fails.outputs consistent step⟩
  apply Framework.countP_outputs_le_one
  · intro x hx
    by_cases out : ∃ o ∈ x.outputs, (Output.errorFor id o).isSome = true
    · obtain ⟨error, response, outputs⟩ := failed x hx out
      exact (Fails.countP outputs).le
    · rw [List.countP_eq_zero.mpr fun o ho some => out ⟨o, ho, some⟩]
      exact Nat.zero_le 1
  · refine (traced_of_run run once).silent.imp_of_mem ?_
    intro x y hx hy silent out o ho
    obtain ⟨error, response, outputs⟩ := failed x hx out
    have quiet := silent (Fails.finishes outputs)
    by_contra again
    -- a second failure would end the reply a second time
    obtain ⟨error', response', outputs'⟩ :=
      failed y hy ⟨o, ho, Bool.eq_true_of_not_eq_false again⟩
    obtain ⟨o', ho', ends⟩ := Fails.finishes outputs'
    have reports := quiet o' ho'
    rw [Output.reports_of_finishes ends] at reports
    cases reports

/-- In a run in which the reply is sent once, an error is signalled for it in the steps in which
its exchange fails and in no others, which is one step at most. That step gives the reply the
response or the error and its end, signals the error, and leaves the reply without an exchange. -/
theorem errors_exact (run : Framework.Run Step {} tr t) (id : ReplyId)
    (once : tr.countP (·.event.sends id) ≤ 1) :
    (∀ x ∈ tr, ∀ error, .error (some id) error ∈ x.outputs ↔
      ∃ response, Fails x.source id x.event error response) ∧
    (∀ x ∈ tr, ∀ error response, Fails x.source id x.event error response →
      x.outputs = errorPosts (some id) error response ++ [.error (some id) error] ∧
        ∀ key, ¬ x.target.Owns key id) ∧
    (tr.flatMap (·.outputs)).countP (fun o => (o.errorFor id).isSome) ≤ 1 := by
  refine ⟨fun x hx error => failed_iff run hx, ?_, failed_once run once⟩
  intro x hx error response fails
  obtain ⟨consistent, step⟩ :=
    run.forall_step (fun before h => before.step h) consistent_initial x hx
  have outputs := fails.outputs consistent step
  exact ⟨outputs, ((traced_of_run run once).removes x hx (Fails.finishes outputs)).2⟩

/-- One request is answered with 4.04, the other one is not answered. -/
def refusedAndLost : List (Event IPv4Address) :=
  [.setMaximumRetransmitCount 0, .sendRequest (some 0) (getRequest [1, 2]) 0 [7, 0],
    .sendRequest (some 1) (getRequest [3, 4]) 0 [8, 0],
    .frameReceived [0x42, 0x84, 0x30, 0x39, 0x01, 0x02] serverAddress [], .timeout [3, 4]]

theorem errors_exact_refusedAndLost :
    ∃ (tr : List (Taken IPv4Address)) (t : Protocol IPv4Address), Framework.Run Step {} tr t ∧
      (tr.flatMap (·.outputs)).filterMap (Output.errorFor 0) = [.notFound] ∧
      (tr.flatMap (·.outputs)).filterMap (Output.errorFor 1) = [.timeOut] ∧
      ∀ id < 2, (∀ x ∈ tr, ∀ error, .error (some id) error ∈ x.outputs ↔
          ∃ response, Fails x.source id x.event error response) ∧
        (∀ x ∈ tr, ∀ error response, Fails x.source id x.event error response →
          x.outputs = errorPosts (some id) error response ++ [.error (some id) error] ∧
            ∀ key, ¬ x.target.Owns key id) ∧
        (tr.flatMap (·.outputs)).countP (fun o => (o.errorFor id).isSome) ≤ 1 := by
  have ran : (Framework.execute handle {} refusedAndLost).any (fun result =>
      (result.1.flatMap (·.outputs)).filterMap (Output.errorFor 0) == [.notFound] &&
      (result.1.flatMap (·.outputs)).filterMap (Output.errorFor 1) == [.timeOut] &&
      decide (∀ id < 2, result.1.countP (·.event.sends id) ≤ 1)) = true := by
    decide +kernel
  obtain ⟨tr, t, run, -, facts⟩ := Framework.exists_run_of_execute Step step_of_handle ran
  simp only [Bool.and_eq_true, decide_eq_true_eq, beq_iff_eq] at facts
  obtain ⟨⟨refused, lost⟩, once⟩ := facts
  exact ⟨tr, t, run, refused, lost, fun id small => errors_exact run id (once id small)⟩

end Protocol

end QtCoap
