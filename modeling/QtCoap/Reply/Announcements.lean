import QtCoap.Protocol.Outcome
import QtCoap.Reply.Threads

namespace QtCoap

variable {Addr : Type}

/-- The tokens in the `_q_setRunning` calls for the reply. -/
def announcements (id : ReplyId) (posts : List (ReplyId × Slot Addr)) : List Token :=
  posts.filterMap fun
    | (id', .setRunning token _) => if id' = id then some token else none
    | _ => none

theorem announcements_append (id : ReplyId) (posts posts' : List (ReplyId × Slot Addr)) :
    announcements id (posts ++ posts') = announcements id posts ++ announcements id posts' :=
  List.filterMap_append

theorem announcements_eq_nil {id : ReplyId} {os : List (Output Addr)}
    (none : ∀ token messageId, Output.post id (.setRunning token messageId) ∉ os) :
    announcements id (postsOf os) = [] := by
  rw [announcements, List.filterMap_eq_nil_iff]
  rintro ⟨id', slot⟩ posted
  rw [mem_postsOf] at posted
  cases slot with
  | setRunning token messageId =>
    refine if_neg ?_
    rintro rfl
    exact none token messageId posted
  | _ => rfl

variable [Platform Addr]

namespace ExchangeData

variable {e : ExchangeData Addr} {id : ReplyId} {token : Token} {messageId : UInt16}

theorem running_not_mem_fail {Addr : Type} {e : ExchangeData Addr} (error : Error)
    (reply : Option (ReceivedReply Addr)) :
    Output.post id (.setRunning token messageId) ∉ (e.fail error reply).2 := by
  simp only [fail, errorPosts]
  cases e.userReply <;> cases reply <;> simp

theorem running_not_mem_finish (sender : Addr) :
    Output.post id (.setRunning token messageId) ∉ (e.finish sender).2 := by
  rw [finish]
  split
  · dsimp only
    split_ifs <;> simp
  · simp

theorem running_not_mem_receive (blockSize : Nat) (reply : ReceivedReply Addr) (next : UInt16) :
    Output.post id (.setRunning token messageId) ∉ (e.receive blockSize reply next).2 := by
  have acknowledged : Output.post id (.setRunning token messageId) ∉
      (e.store reply).acknowledge reply := by
    intro posted
    obtain ⟨_, _, _, _, _, same, -⟩ := mem_acknowledge posted
    cases same
  cases error : isError reply.responseCode with
  | true =>
    rw [receive_of_error e error]
    exact running_not_mem_fail _ _
  | false =>
    cases more : nextRequest blockSize reply (e.store reply).dropObserve.request with
    | none =>
      rw [receive_of_last e error more, List.mem_append, not_or]
      exact ⟨acknowledged, running_not_mem_finish _⟩
    | some changed =>
      rw [receive_of_next e error more, List.mem_append, not_or]
      exact ⟨acknowledged, post_not_mem_transmit _ _ _ _⟩

/-- No reaction of a registered exchange sets a reply running. -/
theorem Reacts.running_not_mem {s : Protocol Addr} {key : Token} {event : Event Addr}
    {reaction : Reaction Addr} (h : Reacts s key e event reaction) :
    Output.post id (.setRunning token messageId) ∉ reaction.2 := by
  cases h with
  | received next admits fresh => exact running_not_mem_receive _ _ _
  | timedOut runs =>
    simp only [timeout]
    split_ifs
    · exact post_not_mem_transmit _ _ _ _
    · exact running_not_mem_fail _ _
  | spanReached runs => exact running_not_mem_fail _ _
  | expired runs =>
    simp only [expire, expiryPosts]
    cases e.userReply <;> simp
  | aborted => simp

end ExchangeData

namespace Protocol

variable {s t : Protocol Addr} {os : List (Output Addr)} {event : Event Addr}

/-- A step either gives the reply no exchange and does not set it running, or it registers its
exchange and sets it running with the token it is registered under. -/
theorem Change.announces (h : Change s os t event) (id : ReplyId) :
    (announcements id (postsOf os) = [] ∧ ∀ key, t.Owns key id → s.Owns key id) ∨
    ∃ request connection draws token, event = .sendRequest (some id) request connection draws ∧
      request.accepted = true ∧ token ≠ [] ∧ announcements id (postsOf os) = [token] ∧
      ∀ key, t.Owns key id → s.Owns key id ∨ key = token := by
  cases h with
  | @opened id' request connection draws messageId token timeout registers after =>
    obtain ⟨rfl, rfl⟩ := Prod.mk.inj after
    have sent (id : ReplyId) (r : InternalRequest) :
        announcements id (postsOf (transmit Addr r []).2) = [] :=
      announcements_eq_nil fun _ _ => post_not_mem_transmit _ _ _ _
    by_cases own : id' = id
    · subst own
      refine .inr ⟨request, connection, draws, token, rfl, ?_, registers.token_ne, ?_, ?_⟩
      · simp [Request.accepted, registers.method, registers.url]
      · have rest := sent id' (((s.completed request connection messageId token).firstBlocks
          s.blockSize).setTimeout timeout)
        simp only [announcements, postsOf] at rest
        simp only [ExchangeData.opened, announcements, postsOf, List.filterMap_cons,
          Output.posted?]
        rw [rest]
        rfl
      · exact fun key owns => owns.of_opened.imp_right And.right
    · refine .inl ⟨?_, fun key owns => owns.of_opened.resolve_right fun new => own new.1⟩
      apply announcements_eq_nil
      intro token' messageId' posted
      rcases List.mem_cons.mp posted with same | posted
      · cases same
        exact own rfl
      · exact post_not_mem_transmit _ _ _ _ posted
  | reacted key e reaction found reacts after =>
    obtain ⟨rfl, rfl⟩ := Prod.mk.inj after
    exact .inl ⟨announcements_eq_nil fun _ _ => reacts.running_not_mem,
      fun _ owns => owns.of_reaction found reacts⟩
  | passed each outputs =>
    refine .inl ⟨?_, fun _ owns => owns.of_passed each⟩
    apply announcements_eq_nil
    intro token messageId posted
    rcases outputs _ posted with ⟨id', same⟩ | ⟨error, same⟩
    · cases same
    · cases same

/-- In this step an exchange of another reply is opened, or one reacts and puts out `os`. -/
def WorksForOther (s : Protocol Addr) (event : Event Addr) (os : List (Output Addr))
    (id : ReplyId) : Prop :=
  (∃ id' request connection draws, event = .sendRequest (some id') request connection draws ∧
    id' ≠ id) ∨
  ∃ key e reaction, s.exchangeMap.find? key = some e ∧ e.userReply ≠ some id ∧
    e.Reacts s key event reaction ∧ os = reaction.2

theorem Change.worksForOther (h : Change s os t event) {id : ReplyId}
    (free : ∀ key, ¬ s.Owns key id ∧ ¬ t.Owns key id) {message : Message} {method : Method}
    {connection : ConnectionId} {host : QString} {port : UInt16}
    (sent : .frame message method connection host port ∈ os) : s.WorksForOther event os id := by
  cases h with
  | @opened id' request connection' draws messageId token timeout registers after =>
    refine .inl ⟨id', request, connection', draws, rfl, ?_⟩
    rintro rfl
    apply (free token).2
    rw [Owns, (Prod.mk.inj after).1, find?_setExchange, if_pos rfl]
    exact ⟨_, rfl, rfl⟩
  | reacted key e reaction found reacts after =>
    exact .inr ⟨key, e, reaction, found, fun own => (free key).1 ⟨e, found, own⟩, reacts,
      (Prod.mk.inj after).2⟩
  | passed each outputs =>
    rcases outputs _ sent with ⟨id', same⟩ | ⟨error, same⟩
    · cases same
    · cases same

/-- An observation is cancelled that is registered under the token. -/
theorem cancelObserve_registered {Addr : Type} {s : Protocol Addr} {key : Token}
    {e : ExchangeData Addr} (found : s.exchangeMap.find? key = some e)
    (observe : e.request.isObserve = true) (id : ReplyId) :
    ∃ e', (s.cancelObserve (some id) key).1.exchangeMap.find? key = some e' ∧
      e'.request.observeCancelled = true := by
  by_cases cancelled : e.request.observeCancelled = true
  · refine ⟨e, ?_, cancelled⟩
    simp [cancelObserve, found, observe, cancelled]
  · refine ⟨{ e with request := e.request.setObserveCancelled }, ?_, rfl⟩
    simp [cancelObserve, found, observe, cancelled, updateRequest]

end Protocol

end QtCoap
