import QtCoap.Protocol.Invariant

namespace QtCoap

variable {Addr : Type}

/-- The slot calls posted to the reply `id`. -/
def slotsTo (id : ReplyId) (os : List (Output Addr)) : List (Slot Addr) :=
  os.filterMap fun
    | .post id' slot => if id' = id then some slot else none
    | _ => none

theorem slotsTo_append (id : ReplyId) (os os' : List (Output Addr)) :
    slotsTo id (os ++ os') = slotsTo id os ++ slotsTo id os' :=
  List.filterMap_append

theorem mem_slotsTo {id : ReplyId} {slot : Slot Addr} {os : List (Output Addr)} :
    slot ∈ slotsTo id os ↔ Output.post id slot ∈ os := by
  simp only [slotsTo]
  rw [List.mem_filterMap]
  constructor
  · rintro ⟨o, ho, posted⟩
    cases o with
    | post id' slot' =>
      obtain ⟨rfl, same⟩ := Option.ite_none_right_eq_some.mp posted
      exact Option.some.inj same ▸ ho
    | _ => cases posted
  · intro ho
    exact ⟨_, ho, if_pos rfl⟩

variable [Platform Addr]

/-! Where the slot calls and the frames among the outputs of a step come from. -/

theorem mem_transmit {r : InternalRequest} {host : QString} {o : Output Addr}
    (h : o ∈ (transmit Addr r host).2) :
    ∃ method connection host port, o = .frame r.message method connection host port := by
  unfold transmit at h
  cases hc : r.connection with
  | none => simp [hc] at h
  | some connection =>
    rw [hc] at h
    exact ⟨_, _, _, _, List.mem_singleton.mp h⟩

theorem post_not_mem_transmit (r : InternalRequest) (host : QString) (id : ReplyId)
    (slot : Slot Addr) : Output.post id slot ∉ (transmit Addr r host).2 := by
  intro h
  obtain ⟨method, connection, host, port, same⟩ := mem_transmit h
  cases same

theorem frame_mem_transmit {r : InternalRequest} {host : QString} {message : Message}
    {method : Method} {connection : ConnectionId} {host' : QString} {port : UInt16}
    (h : Output.frame message method connection host' port ∈ (transmit Addr r host).2) :
    message = r.message := by
  obtain ⟨_, _, _, _, same⟩ := mem_transmit h
  cases same
  rfl

/-- A frame goes over the connection of the request to the port of the URL, at the host given, and
without one at that of the URL. -/
theorem destination_mem_transmit {r : InternalRequest} {host target : QString} {message : Message}
    {method : Method} {connection : ConnectionId} {port : UInt16}
    (h : .frame message method connection target port ∈ (transmit Addr r host).2) :
    r.connection = some connection ∧ port = UInt16.ofInt r.targetUri.port ∧
      target = if host.isEmpty then r.targetUri.host else host := by
  simp only [transmit] at h
  split at h
  · cases h
  next own =>
    cases List.mem_singleton.mp h
    exact ⟨own, rfl, rfl⟩

namespace ExchangeData

variable {e : ExchangeData Addr} {o : Output Addr}

/-- The empty messages that answer a reply. -/
theorem mem_acknowledge {reply : ReceivedReply Addr} (h : o ∈ e.acknowledge reply) :
    ∃ message method connection host port,
      o = .frame message method connection host port ∧ message.token = [] := by
  unfold acknowledge at h
  split_ifs at h
  · obtain ⟨_, _, _, _, rfl⟩ := mem_transmit h
    exact ⟨_, _, _, _, _, rfl, rfl⟩
  · obtain ⟨_, _, _, _, rfl⟩ := mem_transmit h
    exact ⟨_, _, _, _, _, rfl, rfl⟩
  · cases h

/-- An output that is no slot call for anyone but the user reply of the exchange, and no frame
but an empty message and the request that stays. -/
def Issues (e : ExchangeData Addr) (left : Option (ExchangeData Addr)) (o : Output Addr) : Prop :=
  (∀ id slot, o = .post id slot → e.userReply = some id) ∧
  ∀ message method connection host port, o = .frame message method connection host port →
    message.token = [] ∨ ∃ e', left = some e' ∧ message = e'.request.message

theorem issues_fail {Addr : Type} {e : ExchangeData Addr} {o : Output Addr} {error : Error}
    {reply : Option (ReceivedReply Addr)} (h : o ∈ (e.fail error reply).2) :
    e.Issues (e.fail error reply).1 o := by
  unfold fail errorPosts at h
  cases user : e.userReply with
  | none =>
    rw [user] at h
    obtain rfl := List.mem_singleton.mp h
    constructor <;> simp
  | some own =>
    cases reply <;>
      (simp only [user, List.mem_append, List.mem_cons, List.not_mem_nil, or_false] at h
       rcases h with (rfl | rfl) | rfl <;> constructor <;> simp [user])

theorem issues_finish {sender : Addr} (h : o ∈ (e.finish sender).2) :
    e.Issues (e.finish sender).1 o := by
  have own (id : ReplyId) (slot : Slot Addr) (left : Option (ExchangeData Addr))
      (user : e.userReply = some id) : e.Issues left (.post id slot) := by
    constructor <;> simp [user]
  unfold finish at h ⊢
  cases user : e.userReply with
  | none => simp [user] at h
  | some userReply =>
    cases last : e.replies.getLast? with
    | none => simp [user, last] at h
    | some reply =>
      rw [user, last] at h
      dsimp only at h ⊢
      split_ifs at h ⊢
      all_goals
        simp only [List.mem_cons, List.not_mem_nil, or_false] at h
      all_goals
        rcases h with rfl | rfl
        · exact own _ _ _ user
        · first
            | exact own _ _ _ user
            | constructor <;> simp

theorem issues_receive {blockSize : Nat} {reply : ReceivedReply Addr} {messageId : UInt16}
    (h : o ∈ (e.receive blockSize reply messageId).2) :
    e.Issues (e.receive blockSize reply messageId).1 o := by
  have before := continues_stored e reply
  have acknowledged {left : Option (ExchangeData Addr)}
      (h : o ∈ (e.store reply).acknowledge reply) : e.Issues left o := by
    obtain ⟨message, method, connection, host, port, rfl, token⟩ := mem_acknowledge h
    refine ⟨by simp, ?_⟩
    intro message' _ _ _ _ same
    cases same
    exact .inl token
  have received := e.receives blockSize reply messageId
  generalize e.receive blockSize reply messageId = reaction at h received ⊢
  cases received with
  | failed error => exact issues_fail h
  | asked noError q host next =>
    rcases List.mem_append.mp h with acknowledgement | sent
    · exact acknowledged acknowledgement
    · obtain ⟨_, _, _, _, rfl⟩ := mem_transmit sent
      refine ⟨by simp, ?_⟩
      intro message _ _ _ _ same
      cases same
      exact .inr ⟨_, rfl, (message_transmit ..).symm⟩
  | ended noError last =>
    rcases List.mem_append.mp h with acknowledgement | finished
    · exact acknowledged acknowledgement
    · obtain ⟨posts, frames⟩ := issues_finish finished
      rw [before.userReply] at posts
      exact ⟨posts, frames⟩

theorem issues_timeout {maximumRetransmitCount : Nat}
    (h : o ∈ (e.timeout maximumRetransmitCount).2) :
    e.Issues (e.timeout maximumRetransmitCount).1 o := by
  unfold timeout at h ⊢
  split_ifs at h ⊢
  · obtain ⟨_, _, _, _, rfl⟩ := mem_transmit h
    refine ⟨by simp, ?_⟩
    intro message _ _ _ _ same
    cases same
    exact .inr ⟨_, rfl, (message_transmit ..).symm⟩
  · exact issues_fail h

theorem issues_expire {Addr : Type} {e : ExchangeData Addr} {o : Output Addr} (h : o ∈ e.expire.2) :
    e.Issues e.expire.1 o := by
  unfold expire expiryPosts at h
  cases user : e.userReply with
  | none => simp [user] at h
  | some own =>
    rw [user] at h
    obtain rfl := List.mem_singleton.mp h
    constructor <;> simp [user]

section Content

variable {id : ReplyId} {sender : Addr} {message : Message} {code : ResponseCode}

/-- The content an error ends with is the reply that reports it. -/
theorem content_fail {Addr : Type} {e : ExchangeData Addr} {sender : Addr} {error : Error}
    {reply : Option (ReceivedReply Addr)}
    (posted : .post id (.setContent sender message code) ∈ (e.fail error reply).2) :
    ∃ r, reply = some r ∧ code = r.responseCode := by
  unfold fail errorPosts at posted
  cases user : e.userReply with
  | none => simp [user] at posted
  | some own =>
    cases reply with
    | none => simp [user] at posted
    | some r =>
      obtain ⟨-, -, -, rfl⟩ : _ ∧ _ ∧ _ ∧ code = r.responseCode := by simpa [user] using posted
      exact ⟨r, rfl, rfl⟩

/-- The content of a finished exchange is its last reply with what was received before, unless
that is an empty Acknowledgment. -/
theorem content_finish {host : Addr} {reply : ReceivedReply Addr}
    (last : e.replies.getLast? = some reply)
    (posted : .post id (.setContent sender message code) ∈ (e.finish host).2) :
    code = reply.responseCode ∧
      ¬ (reply.message.type = .acknowledgment ∧
        reply.responseCode = ResponseCode.emptyMessage) ∧
      message = (assembled (e.request.isMulticast Addr) e.replies reply host).message := by
  have code_assembled (multicast : Bool) :
      (assembled multicast e.replies reply host).responseCode = reply.responseCode := by
    simp only [assembled]
    split_ifs <;> rfl
  unfold finish at posted
  rw [last] at posted
  cases user : e.userReply with
  | none => simp [user] at posted
  | some own =>
    rw [user] at posted
    dsimp only at posted
    split_ifs at posted with cancelled empty observe multicast
    all_goals
      simp at posted
    all_goals
      obtain ⟨-, -, same, rfl⟩ := posted
      exact ⟨code_assembled _, empty, same⟩

/-- The content a received reply leads to has its code. It is an error, or the reply is the last
one and no empty Acknowledgment. -/
theorem content_receive {blockSize : Nat} {reply : ReceivedReply Addr} {messageId : UInt16}
    (posted : .post id (.setContent sender message code) ∈
      (e.receive blockSize reply messageId).2) :
    code = reply.responseCode ∧ (isError code = true ∨ reply.continues = false ∧
      ¬ (reply.message.type = .acknowledgment ∧
        reply.responseCode = ResponseCode.emptyMessage) ∧
      message = (assembled (e.request.isMulticast Addr) (e.replies ++ [reply]) reply
        reply.senderAddress).message) := by
  have before := continues_stored e reply
  have stored := replies_stored e reply
  have acknowledged : .post id (.setContent sender message code) ∉
      (e.store reply).acknowledge reply := by
    intro posted
    obtain ⟨_, _, _, _, _, same, -⟩ := mem_acknowledge posted
    cases same
  have received := e.receives blockSize reply messageId
  generalize e.receive blockSize reply messageId = reaction at posted received
  cases received with
  | failed error =>
    obtain ⟨r, own, rfl⟩ := content_fail posted
    obtain rfl := Option.some.inj own
    exact ⟨rfl, .inl error⟩
  | asked noError q host next =>
    rcases List.mem_append.mp posted with posted | posted
    · exact absurd posted acknowledged
    · exact absurd posted (post_not_mem_transmit _ _ _ _)
  | ended noError last =>
    rcases List.mem_append.mp posted with posted | posted
    · exact absurd posted acknowledged
    · have final : reply.continues = false := by
        rw [continues_eq noError blockSize (e.store reply).dropObserve.request, last]
        rfl
      obtain ⟨same_code, notEmpty, same⟩ := content_finish (last_dropObserve_store e reply) posted
      rw [stored, InternalRequest.isMulticast_of_identity Addr before.identity] at same
      exact ⟨same_code, .inr ⟨final, notEmpty, same⟩⟩

end Content

end ExchangeData

namespace Protocol

variable {s t : Protocol Addr} {os : List (Output Addr)} {event : Event Addr}

/-- Frames are empty messages or the request of an exchange that is registered now. -/
theorem Effect.frames (h : Effect s os t event) {message : Message} {method : Method}
    {connection : ConnectionId} {host : QString} {port : UInt16}
    (sent : .frame message method connection host port ∈ os) :
    message.token = [] ∨ ∃ key e, t.exchangeMap.find? key = some e ∧
      message = e.request.message := by
  have left {key : Token} {e : ExchangeData Addr} {reaction : Reaction Addr}
      (after : (t, os) = s.apply key reaction) (issues : ∀ o ∈ reaction.2, e.Issues reaction.1 o) :
      message.token = [] ∨ ∃ key e, t.exchangeMap.find? key = some e ∧
        message = e.request.message := by
    obtain ⟨ht, hos⟩ := Prod.mk.inj after
    rw [hos] at sent
    rcases (issues _ sent).2 _ _ _ _ _ rfl with token | ⟨e', kept, same⟩
    · exact .inl token
    · refine .inr ⟨key, e', ?_, same⟩
      rw [ht, find?_setExchange, if_pos rfl]
      exact kept
  cases h with
  | @opened id request connection' draws messageId token timeout registers after =>
    obtain ⟨ht, hos⟩ := Prod.mk.inj after
    rw [hos] at sent
    rcases List.mem_cons.mp sent with sent | sent
    · cases sent
    · refine .inr ⟨token, ?_⟩
      rw [ht, find?_setExchange, if_pos rfl]
      exact ⟨_, rfl, (frame_mem_transmit sent).trans (message_transmit ..).symm⟩
  | received key e id admits fresh after => exact left after fun _ => ExchangeData.issues_receive
  | timedOut e found after => exact left after fun _ => ExchangeData.issues_timeout
  | spanReached e found after => exact left after fun _ => ExchangeData.issues_fail
  | expired e found after => exact left after fun _ => ExchangeData.issues_expire
  | aborted e found after =>
    rw [(Prod.mk.inj after).2] at sent
    cases sent
  | cancelled cancels | urlCancelled cancels =>
    obtain ⟨id, same⟩ := cancels.posts _ sent
    cases same
  | destroyed after =>
    rw [(Prod.mk.inj after).2] at sent
    cases sent
  | unchanged map posts => rcases posts with rfl | ⟨error, rfl⟩ <;> simp at sent

end Protocol

end QtCoap
