import QtCoap.Protocol.Reactions
import QtCoap.Reply.System

namespace QtCoap

variable {Addr : Type} [Platform Addr]

/-- A response of the class 2.xx or with an error code, one that is followed by a block request,
or an empty Acknowledgment. -/
def IsAnswer (reply : ReceivedReply Addr) : Prop :=
  isSuccess reply.responseCode = true ∨ isError reply.responseCode = true ∨
    reply.continues = true ∨
    (reply.message.type = .acknowledgment ∧ reply.responseCode = ResponseCode.emptyMessage)

namespace System

variable {s t : System Addr}

abbrev Transition (Addr : Type) :=
  Framework.Transition (System Addr) (SystemEvent Addr) (Emission Addr)

/-- In this step a frame is added to the exchange `e` of the user reply `id`. -/
def Adds (x : Transition Addr) (id : ReplyId) (e : ExchangeData Addr)
    (reply : ReceivedReply Addr) : Prop :=
  e.userReply = some id ∧ ∃ data draws key,
    x.event = .protocol (.frameReceived data reply.senderAddress draws) ∧
      x.source.protocol.Admits data reply key e

/-- Neither does the reply hold content without an error code, nor is such content on its way. -/
def Unanswered (id : ReplyId) (s : System Addr) : Prop :=
  (∀ sender message code, (id, .setContent sender message code) ∈ s.posted →
    isError code = true) ∧
  isError (s.replies id).responseCode = true

theorem initial_unanswered {Addr : Type} {s : System Addr} (h : Initial s) (id : ReplyId) :
    Unanswered id s := by
  obtain ⟨-, posted, fresh⟩ := h
  obtain ⟨request, hr⟩ := fresh id
  constructor
  · intro sender message code hm
    simp [posted] at hm
  · rw [hr]
    rfl

theorem unanswered_or_success (consistent : s.protocol.Consistent) {event : SystemEvent Addr}
    {emissions : List (Emission Addr)} (h : Step s event emissions t) {id : ReplyId}
    (answers : ∀ e reply, Adds ⟨s, event, emissions, t⟩ id e reply → IsAnswer reply)
    (before : Unanswered id s) :
    Unanswered id t ∨ ∃ e reply, Adds ⟨s, event, emissions, t⟩ id e reply ∧
      isSuccess reply.responseCode = true := by
  cases event with
  | protocol event =>
    obtain ⟨os, step, posted, replies⟩ := step_protocol h
    by_cases success : ∃ e reply, Adds ⟨s, .protocol event, emissions, t⟩ id e reply ∧
        isSuccess reply.responseCode = true
    · exact .inr success
    · refine .inl ⟨?_, by rw [replies]; exact before.2⟩
      intro sender message code hm
      rw [posted] at hm
      rcases List.mem_append.mp hm with old | new
      · exact before.1 sender message code old
      · obtain ⟨data, reply, draws, key, e, messageId, rfl, admits, user, content⟩ :=
          (Protocol.step_change consistent step).content (mem_postsOf.mp new)
        have adds : Adds ⟨s, _, emissions, t⟩ id e reply :=
          ⟨user, data, draws, key, rfl, admits⟩
        obtain ⟨rfl, error | ⟨final, notEmpty, -⟩⟩ := ExchangeData.content_receive content
        · exact error
        · rcases answers e reply adds with ok | error | more | empty
          · exact absurd ⟨e, reply, adds, ok⟩ success
          · exact error
          · exact absurd more (by simp [final])
          · exact absurd empty notEmpty
  | deliver =>
    obtain ⟨target, slot, posted, -, replies⟩ := step_deliver h
    refine .inl ⟨?_, ?_⟩
    · intro sender message code hm
      exact before.1 sender message code (by rw [posted]; exact List.mem_cons_of_mem _ hm)
    · rw [replies]
      by_cases own : id = target
      · subst own
        rw [Function.update_self]
        rcases (s.replies id).responseCode_handle slot with same | ⟨sender, message, content⟩
        · rw [same]
          exact before.2
        · apply before.1 sender message
          rw [posted, ← content]
          exact List.mem_cons_self
      · rw [Function.update_of_ne own]
        exact before.2
  | abortRequest other =>
    obtain ⟨-, posted, replies⟩ := step_abortRequest h
    refine .inl ⟨by rw [posted]; exact before.1, ?_⟩
    rw [replies]
    by_cases own : id = other
    · subst own
      rw [Function.update_self, Reply.responseCode_abortRequest]
      exact before.2
    · rw [Function.update_of_ne own]
      exact before.2

theorem step_consistent {event : SystemEvent Addr} {emissions : List (Emission Addr)}
    (before : s.protocol.Consistent) (h : Step s event emissions t) : t.protocol.Consistent := by
  cases event with
  | protocol event =>
    obtain ⟨os, step, -, -⟩ := step_protocol h
    exact before.step step
  | deliver =>
    obtain ⟨target, slot, -, same, -⟩ := step_deliver h
    exact same ▸ before
  | abortRequest id =>
    obtain ⟨same, -, -⟩ := step_abortRequest h
    exact same ▸ before

/-- A reply becomes successful only after a response of the class 2.xx from the target has been
added to its exchange, as long as what else is added is an error, an empty Acknowledgment or
followed by a block request. -/
theorem isSuccessful_sound {tr : List (Transition Addr)} (initial : Initial s)
    (run : Framework.Run Step s tr t) (id : ReplyId)
    (unicast : ∀ x ∈ tr, ∀ key e, x.source.protocol.exchangeMap.find? key = some e →
      e.userReply = some id → e.request.isMulticast Addr = false)
    (answers : ∀ x ∈ tr, ∀ e reply, Adds x id e reply → IsAnswer reply)
    (successful : (t.replies id).isSuccessful = true) :
    ∃ x ∈ tr, ∃ e reply, Adds x id e reply ∧ isSuccess reply.responseCode = true ∧
      Platform.isEqual (Platform.ofHost e.request.targetUri.host) reply.senderAddress = true := by
  have start : s.protocol.Consistent := by
    rw [initial.1]
    exact Protocol.consistent_initial
  have steps := run.forall_step (P := fun s => s.protocol.Consistent) step_consistent start
  have outcome := run.kept_or_ended (K := Unanswered id)
    (fun x hx before => unanswered_or_success (steps x hx).1 (steps x hx).2 (answers x hx) before)
    (initial_unanswered initial id)
  rcases outcome with unanswered | ⟨x, hx, e, reply, adds, success⟩
  · have code := unanswered.2
    simp [Reply.isSuccessful, code] at successful
  · refine ⟨x, hx, e, reply, adds, success, ?_⟩
    obtain ⟨user, data, draws, key, -, admits⟩ := adds
    have single := unicast x hx key e admits.found user
    have admissible := admits.admissible
    unfold Protocol.senderAdmissible at admissible
    unfold InternalRequest.isMulticast at single
    simpa [single] using admissible

/-- The code of a frame that is received in this step satisfies `p`. -/
def receivesCode (p : ResponseCode → Bool) (x : Transition Addr) : Bool :=
  match x.event with
  | .protocol (.frameReceived data _ _) =>
    (createFromFrame (Platform.junk Addr) data).toOption.all (fun r => p r.responseCode)
  | _ => true

theorem Adds.receivesCode {x : Transition Addr} {id : ReplyId} {e : ExchangeData Addr}
    {reply : ReceivedReply Addr} (adds : Adds x id e reply) {p : ResponseCode → Bool}
    (h : System.receivesCode p x = true) : p reply.responseCode = true := by
  obtain ⟨-, data, draws, key, event, admits⟩ := adds
  unfold System.receivesCode at h
  rw [event] at h
  simpa [admits.decoded, Except.toOption] using h

/-- No exchange is multicast. -/
def unicastOnly (s : System Addr) : Bool :=
  s.protocol.exchangeMap.entries.all (fun entry => !entry.2.request.isMulticast Addr)

theorem unicastOnly_spec (h : s.unicastOnly = true) {key : Token} {e : ExchangeData Addr}
    (found : s.protocol.exchangeMap.find? key = some e) : e.request.isMulticast Addr = false := by
  have listed := (Framework.OrderedMap.find?_eq_some_iff ..).mp found
  simpa using List.all_eq_true.mp h _ listed

/-- Nothing sent yet. -/
def idle : System IPv4Address where
  replies _ := { request := getRequest [1, 2] }

theorem idle_initial : Initial idle := ⟨rfl, rfl, fun _ => ⟨_, rfl⟩⟩

/-- One request, answered by the given frame; all slot calls are delivered. -/
def answeredBy (frame : QByteArray) : List (SystemEvent IPv4Address) :=
  [.protocol (.sendRequest (some 0) (getRequest [1, 2]) 0 [7, 0]), .deliver,
    .protocol (.frameReceived frame serverAddress []), .deliver, .deliver]

/-- A Non-confirmable 2.05 makes the reply successful. -/
theorem isSuccessful_sound_content : ∃ tr t, Framework.Run Step idle tr t ∧
    (t.replies 0).isSuccessful = true ∧
    ∃ x ∈ tr, ∃ e reply, Adds x 0 e reply ∧ isSuccess reply.responseCode = true ∧
      Platform.isEqual (Platform.ofHost e.request.targetUri.host) reply.senderAddress = true := by
  have computed : (Framework.execute handle idle
      (answeredBy [0x52, 0x45, 0x30, 0x39, 0x01, 0x02, 0xFF, 0x61])).any (fun result =>
        (result.2.replies 0).isSuccessful && result.1.all (fun x => x.source.unicastOnly) &&
          result.1.all (receivesCode isSuccess)) = true := by
    decide +kernel
  obtain ⟨tr, t, run, -, h⟩ :=
    Framework.exists_run_of_execute Step (fun handled => handled) computed
  simp only [Bool.and_eq_true, List.all_eq_true] at h
  obtain ⟨⟨successful, unicast⟩, codes⟩ := h
  refine ⟨tr, t, run, successful, ?_⟩
  refine isSuccessful_sound idle_initial run 0 ?_ ?_ successful
  · exact fun x hx key e found _ => unicastOnly_spec (unicast x hx) found
  · exact fun x hx e reply adds => .inl (adds.receivesCode (codes x hx))

/-- A Reset with the message ID of the request does so, too. -/
theorem reset_isSuccessful : Initial idle ∧ ∃ tr t, Framework.Run Step idle tr t ∧
    (∀ x ∈ tr, ∀ key e, x.source.protocol.exchangeMap.find? key = some e →
      e.request.isMulticast IPv4Address = false) ∧
    (t.replies 0).isSuccessful = true ∧
    ¬ ∃ x ∈ tr, ∃ e reply, Adds x 0 e reply ∧ isSuccess reply.responseCode = true := by
  have computed : (Framework.execute handle idle (answeredBy [0x70, 0x00, 0x00, 0x07])).any
      (fun result =>
        (result.2.replies 0).isSuccessful && result.1.all (fun x => x.source.unicastOnly) &&
          result.1.all (receivesCode fun code => !isSuccess code)) = true := by
    decide +kernel
  obtain ⟨tr, t, run, -, h⟩ :=
    Framework.exists_run_of_execute Step (fun handled => handled) computed
  simp only [Bool.and_eq_true, List.all_eq_true] at h
  obtain ⟨⟨successful, unicast⟩, codes⟩ := h
  refine ⟨idle_initial, tr, t, run, ?_, successful, ?_⟩
  · exact fun x hx key e found => unicastOnly_spec (unicast x hx) found
  · intro claimed
    obtain ⟨x, hx, e, reply, adds, success⟩ := claimed
    simpa [success] using adds.receivesCode (codes x hx)

end System

end QtCoap
