import QtCoap.Protocol.Postable
import QtCoap.Reply.LifeCycle

namespace QtCoap

variable {Addr : Type}

/-- A step of a reply. -/
abbrev Moved (Addr : Type) := Framework.Transition Reply (ReplyCall Addr) Signal

def ReplyCall.slot? : ReplyCall Addr → Option (Slot Addr)
  | slot s => some s
  | abortRequest => none

namespace Signal

/-- Each error signal is followed by exactly one finished signal, and none comes behind one. -/
def ErrorsFirst : List Signal → Prop
  | [] => True
  | .error _ :: signals => signals.countP isFinished = 1 ∧ ErrorsFirst signals
  | .finished :: signals => (∀ error, Signal.error error ∉ signals) ∧ ErrorsFirst signals
  | _ :: signals => ErrorsFirst signals

end Signal

/-- The signals come in this order, and the error is settled once the reply is finished. -/
def ErrorsPrecede (tr : List (Moved Addr)) : Prop :=
  Signal.ErrorsFirst (tr.flatMap (·.outputs)) ∧
    ∀ x ∈ tr, x.source.isFinishedOrAborted = true → x.target.error = x.source.error

/-- No new error is set on a finished reply. -/
def InTime (x : Moved Addr) : Prop :=
  ∀ error, x.event = .slot (.setError error) → x.source.isFinishedOrAborted = true →
    x.source.error = error

namespace Reply

variable {r : Reply}

theorem error_setError (r : Reply) (error : Error) : (r.setError error).1.error = error := by
  simp only [setError]
  split_ifs with same
  · exact same
  · rfl

/-- A finished reply gives no signal and keeps its error, but for an error that is set. -/
theorem apply_of_finished (finished : r.isFinishedOrAborted = true) (call : ReplyCall Addr)
    (inTime : ∀ error, call = .slot (.setError error) → r.error = error) :
    (r.apply call).2 = [] ∧ (r.apply call).1.error = r.error ∧
      (r.apply call).1.isFinishedOrAborted = true := by
  have stays := (r.moves call).stays finished
  cases call with
  | abortRequest => simp [apply, abortRequest, finished]
  | slot slot =>
    refine ⟨?_, ?_, stays⟩
    · cases slot with
      | setError error => simp [apply, handle, setError, inTime error rfl]
      | _ => simp [apply, handle, setContent, setNotified, setObserveCancelled, setFinished,
          finished]
    · cases slot with
      | setError error => simp [apply, handle, setError, inTime error rfl]
      | _ => simp [apply, handle, setRunning, setContent, setNotified, setObserveCancelled,
          setFinished, finished]

theorem trace_of_finished (finished : r.isFinishedOrAborted = true) (calls : List (ReplyCall Addr))
    (inTime : ∀ x ∈ Framework.trace apply r calls, InTime x) :
    (Framework.trace apply r calls).flatMap (·.outputs) = [] ∧
      ∀ x ∈ Framework.trace apply r calls, x.target.error = x.source.error := by
  induction calls generalizing r with
  | nil => simp [Framework.trace]
  | cons call calls ih =>
    simp only [Framework.trace] at inTime ⊢
    obtain ⟨none, kept, stays⟩ := apply_of_finished finished call fun error own =>
      inTime _ (List.mem_cons_self ..) error own finished
    obtain ⟨silent, later⟩ := ih stays fun x hx => inTime x (List.mem_cons_of_mem _ hx)
    rw [List.flatMap_cons, none, silent]
    refine ⟨rfl, fun x hx => ?_⟩
    rcases List.mem_cons.mp hx with rfl | hx
    · exact kept
    · exact later x hx

theorem abortRequest_of_unfinished (unfinished : r.isFinishedOrAborted = false) :
    r.abortRequest.1.isFinishedOrAborted = true ∧
      r.abortRequest.2 = [.aborted r.request.message.token, .finished] := by
  simp only [abortRequest, unfinished]
  exact ⟨rfl, rfl⟩

/-- What a slot call does to an unfinished reply: it stays unfinished without a finished signal,
with an error signal at most and only for a call that reports one, or it finishes and gives one,
behind its error if that comes in the same call. -/
theorem handle_of_unfinished (unfinished : r.isFinishedOrAborted = false) (slot : Slot Addr) :
    ((r.handle slot).1.isFinishedOrAborted = false ∧
      ((r.handle slot).2 = [] ∨ (∃ message, (r.handle slot).2 = [.notified message]) ∨
        slot.reportsError = true ∧ ∃ error, (r.handle slot).2 = [.error error])) ∨
    ((r.handle slot).1.isFinishedOrAborted = true ∧
      ((r.handle slot).2 = [.finished] ∨
        ∃ error, (r.handle slot).2 = [.error error, .finished])) := by
  have errors (q : Reply) (error : Error) :
      (q.setError error).2 = [] ∨ (q.setError error).2 = [.error error] := by
    simp only [setError]
    split_ifs
    · exact .inl rfl
    · exact .inr rfl
  cases slot with
  | setRunning token messageId => exact .inl ⟨unfinished, .inl rfl⟩
  | setContent sender message code =>
    simp only [handle, setContent, unfinished]
    cases failed : isError code with
    | false => exact .inl ⟨unfinished, .inl rfl⟩
    | true =>
      refine .inl ⟨(isFinishedOrAborted_setError _ _).trans unfinished, ?_⟩
      rcases errors { r with message := message, responseCode := code }
        (errorForResponseCode code) with none | one
      · exact .inl none
      · exact .inr (.inr ⟨failed, _, one⟩)
  | setNotified =>
    simp only [handle, setNotified, unfinished]
    exact .inl ⟨unfinished, .inr (.inl ⟨_, rfl⟩)⟩
  | setObserveCancelled =>
    simp only [handle, setObserveCancelled, unfinished]
    exact .inr ⟨rfl, .inl rfl⟩
  | setFinished error =>
    simp only [handle, setFinished, unfinished]
    rw [if_neg Bool.false_ne_true]
    split_ifs with wrong
    · refine .inr ⟨isFinishedOrAborted_setError _ _, ?_⟩
      rcases errors { r with isFinished := true, isRunning := false } error with none | one
      · exact .inl (congrArg (· ++ [Signal.finished]) none)
      · exact .inr ⟨error, congrArg (· ++ [Signal.finished]) one⟩
    · exact .inr ⟨rfl, .inl rfl⟩
  | setError error =>
    refine .inl ⟨(isFinishedOrAborted_setError r error).trans unfinished, ?_⟩
    rcases errors r error with none | one
    · exact .inl none
    · exact .inr (.inr ⟨rfl, error, one⟩)

/-- The call that finishes the reply, and all that comes behind it. -/
theorem trace_of_finishing (call : ReplyCall Addr) {calls : List (ReplyCall Addr)}
    (finished : (r.apply call).1.isFinishedOrAborted = true)
    (gives : ∃ front, (r.apply call).2 = front ++ [.finished] ∧
      (front = [] ∨ (∃ token, front = [.aborted token]) ∨ ∃ error, front = [.error error]))
    (inTime : ∀ x ∈ Framework.trace apply r (call :: calls), InTime x) :
    Signal.ErrorsFirst ((Framework.trace apply r (call :: calls)).flatMap (·.outputs)) ∧
      ((Framework.trace apply r (call :: calls)).flatMap (·.outputs)).countP
        Signal.isFinished = 1 := by
  have silent := (trace_of_finished finished calls fun x hx =>
    inTime x (List.mem_cons_of_mem _ hx)).1
  simp only [Framework.trace]
  rw [List.flatMap_cons, silent, List.append_nil]
  obtain ⟨front, own, rfl | ⟨token, rfl⟩ | ⟨error, rfl⟩⟩ := gives
  all_goals rw [own]
  · exact ⟨⟨by simp, trivial⟩, rfl⟩
  · exact ⟨⟨by simp, trivial⟩, rfl⟩
  · exact ⟨⟨rfl, by simp, trivial⟩, rfl⟩

/-- The induction over the calls: an end that is due next comes exactly once. -/
theorem errorsFirst_of_unfinished (unfinished : r.isFinishedOrAborted = false)
    (calls : List (ReplyCall Addr)) (inTime : ∀ x ∈ Framework.trace apply r calls, InTime x) :
    (Postable (calls.filterMap ReplyCall.slot?) →
      Signal.ErrorsFirst ((Framework.trace apply r calls).flatMap (·.outputs))) ∧
    (∀ slots, calls.filterMap ReplyCall.slot? = .setFinished .ok :: slots →
      Signal.ErrorsFirst ((Framework.trace apply r calls).flatMap (·.outputs)) ∧
      ((Framework.trace apply r calls).flatMap (·.outputs)).countP Signal.isFinished = 1) := by
  induction calls generalizing r with
  | nil => exact ⟨fun _ => trivial, fun slots none => by cases none⟩
  | cons call calls ih =>
    cases call with
    | abortRequest =>
      obtain ⟨finished, gives⟩ := abortRequest_of_unfinished unfinished
      have ended := trace_of_finishing .abortRequest finished
        ⟨[.aborted r.request.message.token], gives, .inr (.inl ⟨_, rfl⟩)⟩ inTime
      exact ⟨fun _ => ended.1, fun _ _ => ended⟩
    | slot slot =>
      have later (open_ : (r.handle slot).1.isFinishedOrAborted = false) :=
        ih open_ fun x hx => inTime x (List.mem_cons_of_mem _ hx)
      change (Postable (slot :: calls.filterMap ReplyCall.slot?) → _) ∧
        ∀ slots, slot :: calls.filterMap ReplyCall.slot? = _ → _
      generalize calls.filterMap ReplyCall.slot? = slots at later
      rcases handle_of_unfinished unfinished slot with ⟨open_, gives⟩ | ⟨finished, gives⟩
      · -- nothing is due: the reply stays unfinished, and an error makes the end due
        have due_slot (rest : List (Slot Addr)) : slot :: slots ≠ .setFinished .ok :: rest := by
          intro due
          obtain ⟨rfl, -⟩ := List.cons.inj due
          simp only [handle, setFinished, unfinished] at open_
          cases open_
        refine ⟨fun postable => ?_, fun rest due => absurd due (due_slot rest)⟩
        simp only [Framework.trace]
        rw [List.flatMap_cons]
        have behind : Signal.ErrorsFirst
            ((Framework.trace apply (r.handle slot).1 calls).flatMap (·.outputs)) := by
          cases postable with
          | quiet noError rest => exact (later open_).1 rest
          | error reports rest => exact ((later open_).2 _ rfl).1
        rcases gives with own | ⟨message, own⟩ | ⟨reports, error, own⟩
        · rw [show (r.apply (.slot slot)).2 = [] from own]
          exact behind
        · rw [show (r.apply (.slot slot)).2 = [.notified message] from own]
          exact behind
        · rw [show (r.apply (.slot slot)).2 = [.error error] from own]
          refine ⟨?_, behind⟩
          cases postable with
          | quiet noError rest =>
            rw [noError] at reports
            cases reports
          | error reports rest => exact ((later open_).2 _ rfl).2
      · have ended := trace_of_finishing (.slot slot) finished ?_ inTime
        · exact ⟨fun _ => ended.1, fun _ _ => ended⟩
        · rcases gives with own | ⟨error, own⟩
          · exact ⟨[], own, .inl rfl⟩
          · exact ⟨[.error error], own, .inr (.inr ⟨error, rfl⟩)⟩

end Reply

section Runs

variable [Platform Addr]

/-- The slot calls that a run posts to a reply, with calls of `abortRequest` anywhere between them:
errors precede the end exactly if each error is set in time. -/
theorem errorsPrecede_iff {tr : List (Taken Addr)} {s : Protocol Addr}
    (run : Framework.Run Protocol.Step {} tr s) (id : ReplyId) (request : Request)
    (calls : List (ReplyCall Addr))
    (delivered : calls.filterMap ReplyCall.slot? = slotsTo id (tr.flatMap (·.outputs))) :
    ErrorsPrecede (Framework.trace Reply.apply { request := request } calls) ↔
      ∀ x ∈ Framework.trace Reply.apply { request := request } calls, InTime x := by
  have steps (x : Moved Addr)
      (hx : x ∈ Framework.trace Reply.apply { request := request } calls) :
      x.source.apply x.event = (x.target, x.outputs) := by
    exact ((Framework.run_trace Reply.apply { request := request } calls).forall_step
      (P := fun _ => True) (fun _ _ => trivial) trivial x hx).2
  constructor
  · intro precede x hx error set finished
    have kept := precede.2 x hx finished
    have step := steps x hx
    rw [set] at step
    rw [← kept, ← (Prod.mk.inj step).1]
    exact x.source.error_setError error
  · intro inTime
    refine ⟨?_, fun x hx finished => ?_⟩
    · refine (Reply.errorsFirst_of_unfinished (by rfl) calls inTime).1 ?_
      rw [delivered]
      exact Protocol.postable_run run id
    · have applied := (Reply.apply_of_finished finished x.event fun error set =>
        inTime x hx error set finished).2.1
      rwa [steps x hx] at applied

/-- A request that is never answered. -/
def unanswered : List (Event IPv4Address) :=
  [.sendRequest (some 0) (getRequest [1, 2]) 0 [7, 0], .maxTransmissionSpanReached [1, 2]]

/-- What the protocol posts for it. -/
def unansweredSlots : List (Slot IPv4Address) :=
  [.setRunning [1, 2] 7, .setError .timeOut, .setFinished .ok]

theorem unanswered_posts : ∃ (tr : List (Taken IPv4Address)) (s : _),
    Framework.Run Protocol.Step {} tr s ∧
      unansweredSlots = slotsTo 0 (tr.flatMap (·.outputs)) := by
  have ran : (Framework.execute Protocol.handle {} unanswered).any (fun result =>
      decide (unansweredSlots = slotsTo 0 (result.1.flatMap (·.outputs)))) = true := by
    decide +kernel
  obtain ⟨tr, s, run, -, posted⟩ :=
    Framework.exists_run_of_execute Protocol.Step Protocol.step_of_handle ran
  exact ⟨tr, s, run, of_decide_eq_true posted⟩

theorem errorsPrecede_unanswered :
    ErrorsPrecede (Framework.trace Reply.apply { request := getRequest [1, 2] }
      (unansweredSlots.map .slot)) := by
  obtain ⟨tr, s, run, posted⟩ := unanswered_posts
  refine (errorsPrecede_iff run 0 (getRequest [1, 2])
    (unansweredSlots.map .slot) posted).mpr ?_
  intro x hx error set finished
  simp only [unansweredSlots, List.map_cons, List.map_nil, Framework.trace, List.mem_cons,
    List.not_mem_nil, or_false] at hx
  rcases hx with rfl | rfl | rfl
  · cases set
  · cases finished
  · cases set

/-- The same with an abort in front of the error. -/
def abortedBeforeError : List (ReplyCall IPv4Address) :=
  [.slot (.setRunning [1, 2] 7), .abortRequest, .slot (.setError .timeOut),
    .slot (.setFinished .ok)]

theorem abortedBeforeError_late :
    (∃ (tr : List (Taken IPv4Address)) (s : _), Framework.Run Protocol.Step {} tr s ∧
      abortedBeforeError.filterMap ReplyCall.slot? = slotsTo 0 (tr.flatMap (·.outputs))) ∧
    let replyTrace := Framework.trace Reply.apply { request := getRequest [1, 2] }
      abortedBeforeError
    replyTrace.flatMap (·.outputs) = [.aborted [1, 2], .finished, .error .timeOut] ∧
      ¬ ErrorsPrecede replyTrace := by
  refine ⟨unanswered_posts, by decide, fun precede => ?_⟩
  have order : (∀ error, Signal.error error ∉ [Signal.error .timeOut]) ∧ _ := precede.1
  exact order.1 .timeOut (by simp)

end Runs

end QtCoap
