import QtCoap.Protocol.Matching
import QtCoap.Protocol.Reactions

namespace QtCoap

variable {Addr : Type}

namespace Output

/-- `_q_setFinished` is posted to the reply. -/
def finishes (id : ReplyId) : Output Addr → Bool
  | .post id' (.setFinished _) => id' == id
  | _ => false

/-- `_q_setContent` is posted to the reply. -/
def delivers (id : ReplyId) : Output Addr → Bool
  | .post id' (.setContent _ _ _) => id' == id
  | _ => false

/-- A slot call that reports what came of the request. -/
def reports (id : ReplyId) : Output Addr → Bool
  | .post id' (.setContent _ _ _) | .post id' .setNotified | .post id' (.setError _)
  | .post id' (.setFinished _) => id' == id
  | _ => false

theorem reports_of_finishes {id : ReplyId} {o : Output Addr} (h : o.finishes id = true) :
    o.reports id = true := by
  cases o with
  | post id' slot => cases slot <;> simp_all [finishes, reports]
  | _ => cases h

theorem reports_of_delivers {id : ReplyId} {o : Output Addr} (h : o.delivers id = true) :
    o.reports id = true := by
  cases o with
  | post id' slot => cases slot <;> simp_all [delivers, reports]
  | _ => cases h

end Output

variable [Platform Addr]

theorem reports_transmit (r : InternalRequest) (host : QString) (id : ReplyId) :
    (transmit Addr r host).2.filter (Output.reports id) = [] := by
  rw [List.filter_eq_nil_iff]
  intro o ho
  obtain ⟨_, _, _, _, rfl⟩ := mem_transmit ho
  simp [Output.reports]

namespace ExchangeData

variable {e : ExchangeData Addr} {id : ReplyId}

/-- What an exchange may report to the reply `id` in one reaction. -/
inductive Reported (e : ExchangeData Addr) (id : ReplyId) (left : Option (ExchangeData Addr)) :
    List (Output Addr) → Prop
  | silent : Reported e id left []
  | finished (user : e.userReply = some id) (ends : left = none) :
      Reported e id left [.post id (.setFinished .ok)]
  | failed (error : Error) (user : e.userReply = some id) (ends : left = none) :
      Reported e id left [.post id (.setError error), .post id (.setFinished .ok)]
  | answered (sender : Addr) (message : Message) (code : ResponseCode)
      (user : e.userReply = some id) (ends : left = none) :
      Reported e id left [.post id (.setContent sender message code), .post id (.setFinished .ok)]
  | notified (sender : Addr) (message : Message) (code : ResponseCode)
      (user : e.userReply = some id) (observe : e.request.isObserve = true) :
      Reported e id left [.post id (.setContent sender message code), .post id .setNotified]
  | responded (sender : Addr) (message : Message) (code : ResponseCode)
      (user : e.userReply = some id) (multicast : e.request.isMulticast Addr = true) :
      Reported e id left [.post id (.setContent sender message code)]

theorem reported_fail (error : Error) (reply : Option (ReceivedReply Addr)) :
    Reported e id (e.fail error reply).1 ((e.fail error reply).2.filter (Output.reports id)) := by
  simp only [fail, errorPosts]
  cases user : e.userReply with
  | none => exact .silent
  | some own =>
    by_cases hid : own = id
    · subst hid
      cases reply with
      | none => simpa [Output.reports] using .failed error user rfl
      | some r => simpa [Output.reports] using .answered _ _ _ user rfl
    · cases reply <;> simpa [Output.reports, hid] using .silent

theorem reported_expire :
    Reported e id e.expire.1 (e.expire.2.filter (Output.reports id)) := by
  simp only [expire, expiryPosts]
  cases user : e.userReply with
  | none => exact .silent
  | some own =>
    by_cases hid : own = id
    · subst hid
      simpa [Output.reports] using .finished user rfl
    · simpa [Output.reports, hid] using .silent

theorem reported_finish (sender : Addr) :
    Reported e id (e.finish sender).1 ((e.finish sender).2.filter (Output.reports id)) := by
  rw [finish]
  cases user : e.userReply with
  | none => exact .silent
  | some own =>
    cases e.replies.getLast? with
    | none => exact .silent
    | some last =>
      dsimp only
      by_cases hid : own = id
      · subst hid
        split_ifs with cancelled empty observe multicast
        · exact .silent
        · exact .silent
        · simpa [Output.reports] using .notified _ _ _ user observe
        · simpa [Output.reports] using .responded _ _ _ user multicast
        · simpa [Output.reports] using .answered _ _ _ user rfl
      · split_ifs <;> simpa [Output.reports, hid] using .silent

theorem isObserve_dropObserve {Addr : Type} {e : ExchangeData Addr}
    (h : e.dropObserve.request.isObserve = true) : e.request.isObserve = true := by
  simp only [dropObserve] at h
  split_ifs at h with cancelled
  · simp only [InternalRequest.isObserve, InternalRequest.removeOption] at h
    rw [Message.hasOption_eq, Message.optionsNamed_removeOption, if_pos rfl] at h
    cases h
  · exact h

/-- What is reported for an exchange that goes on from `e` is reported for `e`. -/
theorem Reported.of_continues {e' : ExchangeData Addr} {left : Option (ExchangeData Addr)}
    {os : List (Output Addr)} (h : Reported e' id left os) (continues : e.Continues e')
    (observe : e'.request.isObserve = true → e.request.isObserve = true) :
    Reported e id left os := by
  have multicast := InternalRequest.isMulticast_of_identity Addr continues.identity
  have reply := continues.userReply
  cases h with
  | silent => exact .silent
  | finished user ends => exact .finished (reply ▸ user) ends
  | failed error user ends => exact .failed error (reply ▸ user) ends
  | answered sender message code user ends => exact .answered _ _ _ (reply ▸ user) ends
  | notified sender message code user own =>
    exact .notified _ _ _ (reply ▸ user) (observe own)
  | responded sender message code user own =>
    exact .responded _ _ _ (reply ▸ user) (multicast ▸ own)

theorem reported_receive (blockSize : Nat) (reply : ReceivedReply Addr) (messageId : UInt16) :
    Reported e id (e.receive blockSize reply messageId).1
      ((e.receive blockSize reply messageId).2.filter (Output.reports id)) := by
  have acknowledged : ((e.store reply).acknowledge reply).filter (Output.reports id) = [] := by
    rw [List.filter_eq_nil_iff]
    intro o ho
    obtain ⟨_, _, _, _, _, rfl, -⟩ := mem_acknowledge ho
    simp [Output.reports]
  have received := e.receives blockSize reply messageId
  generalize e.receive blockSize reply messageId = reaction at received ⊢
  cases received with
  | failed error =>
    refine (reported_fail _ _).of_continues (continues_store e reply) ?_
    simp only [InternalRequest.isObserve]
    rw [message_store]
    exact fun same => same
  | asked noError q host next =>
    rw [List.filter_append, acknowledged, List.nil_append, reports_transmit]
    exact .silent
  | ended noError last =>
    rw [List.filter_append, acknowledged, List.nil_append]
    refine (reported_finish _).of_continues (continues_stored e reply) ?_
    intro observe
    have stored := isObserve_dropObserve observe
    simp only [InternalRequest.isObserve] at stored ⊢
    rw [message_store] at stored
    exact stored

theorem reported_timeout (maximumRetransmitCount : Nat) :
    Reported e id (e.timeout maximumRetransmitCount).1
      ((e.timeout maximumRetransmitCount).2.filter (Output.reports id)) := by
  simp only [timeout]
  split_ifs
  · dsimp only
    rw [reports_transmit]
    exact .silent
  · exact reported_fail _ _

theorem Reacts.reported {s : Protocol Addr} {key : Token} {event : Event Addr}
    {reaction : Reaction Addr} (h : Reacts s key e event reaction) (id : ReplyId) :
    Reported e id reaction.1 (reaction.2.filter (Output.reports id)) := by
  cases h with
  | received messageId admits fresh => exact reported_receive ..
  | timedOut runs => exact reported_timeout ..
  | spanReached runs => exact reported_fail ..
  | expired runs => exact reported_expire
  | aborted => exact .silent

namespace Reported

variable {left : Option (ExchangeData Addr)} {os : List (Output Addr)}

theorem counts (h : Reported e id left os) :
    os.countP (Output.finishes id) ≤ 1 ∧ os.countP (Output.delivers id) ≤ 1 := by
  cases h <;> simp [Output.finishes, Output.delivers]

theorem userReply (h : Reported e id left os) (some_out : os ≠ []) : e.userReply = some id := by
  cases h with
  | silent => exact absurd rfl some_out
  | finished user ends => exact user
  | failed error user ends => exact user
  | answered sender message code user ends => exact user
  | notified sender message code user observe => exact user
  | responded sender message code user multicast => exact user

theorem ends (h : Reported e id left os) (finished : ∃ o ∈ os, o.finishes id = true) :
    left = none := by
  cases h with
  | silent => simp at finished
  | finished user ends => exact ends
  | failed error user ends => exact ends
  | answered sender message code user ends => exact ends
  | notified sender message code user observe => simp [Output.finishes] at finished
  | responded sender message code user multicast => simp [Output.finishes] at finished

/-- A reply to a unicast request that is no observation gets its content when it is finished. -/
theorem finishes_of_delivers (h : Reported e id left os)
    (unicast : e.request.isMulticast Addr = false) (single : e.request.isObserve = false)
    (delivered : ∃ o ∈ os, o.delivers id = true) : ∃ o ∈ os, o.finishes id = true := by
  cases h with
  | silent => simp at delivered
  | finished user ends => simp [Output.finishes]
  | failed error user ends => simp [Output.finishes]
  | answered sender message code user ends => simp [Output.finishes]
  | notified sender message code user observe =>
    rw [single] at observe
    cases observe
  | responded sender message code user multicast =>
    rw [unicast] at multicast
    cases multicast

end Reported

end ExchangeData

/-- A unicast request that does not ask for an observation. -/
def Request.Single (Addr : Type) [Platform Addr] (request : Request) : Prop :=
  (InternalRequest.ofRequest Addr request).isMulticast Addr = false ∧
    request.message.hasOption OptionName.observe = false

/-- The reply is handed to the protocol. -/
def Event.sends (id : ReplyId) : Event Addr → Bool
  | .sendRequest (some id') _ _ _ => id' == id
  | _ => false

namespace Protocol

variable {s t : Protocol Addr} {os : List (Output Addr)} {event : Event Addr} {id : ReplyId}

/-- The exchange stored under `key` is that of the user reply `id`. -/
def Owns (s : Protocol Addr) (key : Token) (id : ReplyId) : Prop :=
  ∃ e, s.exchangeMap.find? key = some e ∧ e.userReply = some id

theorem Owns.of_reaction {k key : Token} {e : ExchangeData Addr} {reaction : Reaction Addr}
    (owns : (s.setExchange k reaction.1).Owns key id) (found : s.exchangeMap.find? k = some e)
    (reacts : e.Reacts s k event reaction) : s.Owns key id := by
  obtain ⟨e', found', user⟩ := owns
  rw [find?_setExchange] at found'
  split_ifs at found' with own
  · exact ⟨e, own ▸ found, (reacts.continues found').userReply.symm.trans user⟩
  · exact ⟨e', found', user⟩

theorem Owns.of_passed {Addr : Type} {s t : Protocol Addr} {key : Token} (owns : t.Owns key id)
    (each : ∀ key, Option.Rel ExchangeData.Passes (s.exchangeMap.find? key)
      (t.exchangeMap.find? key)) : s.Owns key id := by
  obtain ⟨e', found', user⟩ := owns
  obtain ⟨e, found, passes⟩ := passes_to_some (found' ▸ each key)
  exact ⟨e, found, passes.userReply_of_some user⟩

theorem Owns.of_opened {key token : Token} {id' : ReplyId} {r : InternalRequest}
    {blockSize timeout : Nat}
    (owns : (s.setExchange token (ExchangeData.opened id' r blockSize timeout).1).Owns key id) :
    s.Owns key id ∨ id' = id ∧ key = token := by
  obtain ⟨e, found, user⟩ := owns
  rw [find?_setExchange] at found
  split_ifs at found with own
  · obtain rfl := Option.some.inj found
    exact .inr ⟨Option.some.inj user, own⟩
  · exact .inl ⟨e, found, user⟩

/-- A reply gets its exchange, at most one, when it is handed to the protocol. -/
theorem Change.owns (h : Change s os t event) (id : ReplyId) :
    ∃ token, ∀ key, t.Owns key id → s.Owns key id ∨ event.sends id = true ∧ key = token := by
  cases h with
  | opened messageId token timeout registers after =>
    obtain rfl := (Prod.mk.inj after).1
    refine ⟨token, fun key owns => ?_⟩
    exact owns.of_opened.imp_right fun new => ⟨by simp [Event.sends, new.1], new.2⟩
  | reacted k e reaction found reacts after =>
    obtain rfl := (Prod.mk.inj after).1
    exact ⟨k, fun key owns => .inl (owns.of_reaction found reacts)⟩
  | passed each outputs => exact ⟨[], fun key owns => .inl (owns.of_passed each)⟩

/-- Reports to a reply come from its exchange. -/
theorem Change.reported (h : Change s os t event) (id : ReplyId) :
    os.filter (Output.reports id) = [] ∨ ∃ key e reaction, s.exchangeMap.find? key = some e ∧
      e.userReply = some id ∧ t = s.setExchange key (reaction : Reaction Addr).1 ∧
      e.Reported id reaction.1 (os.filter (Output.reports id)) := by
  have silent (out : ∀ o ∈ os, o.reports id = false) : os.filter (Output.reports id) = [] := by
    rw [List.filter_eq_nil_iff]
    intro o ho
    simp [out o ho]
  cases h with
  | opened messageId token timeout registers after =>
    refine .inl (silent ?_)
    intro o ho
    rw [(Prod.mk.inj after).2] at ho
    rcases List.mem_cons.mp ho with rfl | ho
    · rfl
    · obtain ⟨_, _, _, _, rfl⟩ := mem_transmit ho
      rfl
  | reacted key e reaction found reacts after =>
    obtain ⟨ht, rfl⟩ := Prod.mk.inj after
    have reported := reacts.reported id
    by_cases none : reaction.2.filter (Output.reports id) = []
    · exact .inl none
    · exact .inr ⟨key, e, reaction, found, reported.userReply none, ht, reported⟩
  | passed each outputs =>
    refine .inl (silent ?_)
    intro o ho
    rcases outputs o ho with ⟨other, rfl⟩ | ⟨error, rfl⟩ <;> rfl

/-- The step reports to the reply that it is finished. -/
def Finishes (id : ReplyId) (x : Taken Addr) : Prop := ∃ o ∈ x.outputs, o.finishes id = true

/-- What has been reported to a reply that is sent once, over a run that ended in `t`. -/
structure Traced (id : ReplyId) (tr : List (Taken Addr)) (t : Protocol Addr) : Prop where
  sent : ∀ {key}, t.Owns key id → ∃ x ∈ tr, x.event.sends id = true
  unique : ∀ {key key'}, t.Owns key id → t.Owns key' id → key = key'
  ended : ∀ x ∈ tr, Finishes id x → (∃ y ∈ tr, y.event.sends id = true) ∧ ∀ key, ¬ t.Owns key id
  removes : ∀ x ∈ tr, Finishes id x → (∃ key, x.source.Owns key id ∧
    x.target.exchangeMap.find? key = none) ∧ ∀ key, ¬ x.target.Owns key id
  silent : tr.Pairwise fun x y => Finishes id x → ∀ o ∈ y.outputs, o.reports id = false

variable {tr : List (Taken Addr)}

/-- A reply whose exchange is not registered gets no report. -/
theorem Change.silent (h : Change s os t event) (free : ∀ key, ¬ s.Owns key id) :
    ∀ o ∈ os, o.reports id = false := by
  rcases h.reported id with none | ⟨key, e, reaction, found, user, -⟩
  · intro o ho
    simpa using List.filter_eq_nil_iff.mp none o ho
  · exact absurd ⟨e, found, user⟩ (free key)

theorem Change.removes (h : Change s os t event)
    (unique : ∀ {key key'}, s.Owns key id → s.Owns key' id → key = key')
    (other : event.sends id = false) (finishes : ∃ o ∈ os, o.finishes id = true) :
    (∃ key, s.Owns key id ∧ t.exchangeMap.find? key = none) ∧ ∀ key, ¬ t.Owns key id := by
  obtain ⟨o, ho, finished⟩ := finishes
  have kept : o ∈ os.filter (Output.reports id) :=
    List.mem_filter.mpr ⟨ho, Output.reports_of_finishes finished⟩
  rcases h.reported id with none | ⟨key, e, reaction, found, user, rfl, reported⟩
  · rw [none] at kept
    cases kept
  · have gone := reported.ends ⟨o, kept, finished⟩
    have lookup : (s.setExchange key reaction.1).exchangeMap.find? key = none := by
      rw [find?_setExchange, if_pos rfl, gone]
    refine ⟨⟨key, ⟨e, found, user⟩, lookup⟩, ?_⟩
    intro key' owns
    obtain ⟨token, back⟩ := h.owns id
    rcases back key' owns with before | ⟨sends, -⟩
    · obtain rfl := unique before ⟨e, found, user⟩
      obtain ⟨e', found', -⟩ := owns
      rw [lookup] at found'
      cases found'
    · rw [other] at sends
      cases sends

theorem Traced.snoc (h : Traced id tr t) {u : Protocol Addr} (change : Change t os u event)
    (once : (tr ++ [⟨t, event, os, u⟩] : List (Taken Addr)).countP (·.event.sends id) ≤ 1) :
    Traced id (tr ++ [⟨t, event, os, u⟩]) u := by
  obtain ⟨token, back⟩ := change.owns id
  have newest : (⟨t, event, os, u⟩ : Taken Addr) ∈ tr ++ [⟨t, event, os, u⟩] := by
    simp
  have silent (free : ∀ key, ¬ t.Owns key id) : ¬ Finishes id ⟨t, event, os, u⟩ := by
    rintro ⟨o, ho, finishes⟩
    have reports := change.silent free o ho
    rw [Output.reports_of_finishes finishes] at reports
    cases reports
  have earlier (x) (hx : x ∈ tr ++ [⟨t, event, os, u⟩])
      (other : x ≠ (⟨t, event, os, u⟩ : Taken Addr)) : x ∈ tr := by
    simpa [other] using hx
  by_cases sends : event.sends id = true
  · -- the reply had not been sent before
    have unsent : ∀ x ∈ tr, ¬ x.event.sends id = true := by
      rw [List.countP_append, List.countP_singleton, if_pos sends] at once
      exact List.countP_eq_zero.mp (by omega)
    have free (key) : ¬ t.Owns key id := by
      intro owns
      obtain ⟨x, hx, before⟩ := h.sent owns
      exact unsent x hx before
    have unfinished (x) (hx : x ∈ tr ++ [⟨t, event, os, u⟩]) : ¬ Finishes id x := by
      rcases List.mem_append.mp hx with old | new
      · intro finishes
        obtain ⟨⟨y, hy, before⟩, -⟩ := h.ended x old finishes
        exact unsent y hy before
      · obtain rfl := List.mem_singleton.mp new
        exact silent free
    have own {key} (owns : u.Owns key id) : key = token := by
      rcases back key owns with before | ⟨-, new⟩
      · exact absurd before (free key)
      · exact new
    refine ⟨fun _ => ⟨_, newest, sends⟩, fun o o' => (own o).trans (own o').symm, ?_, ?_, ?_⟩
    · exact fun x hx finishes => absurd finishes (unfinished x hx)
    · exact fun x hx finishes => absurd finishes (unfinished x hx)
    · refine List.Pairwise.imp_of_mem ?_ (List.pairwise_of_forall fun _ _ => trivial)
      exact fun hx _ _ finishes => absurd finishes (unfinished _ hx)
  · have before {key} (owns : u.Owns key id) : t.Owns key id :=
      (back key owns).resolve_right fun new => sends new.1
    have known {x} (hx : x ∈ tr) (sent : x.event.sends id = true) :
        ∃ y ∈ tr ++ [⟨t, event, os, u⟩], y.event.sends id = true := ⟨x, by simp [hx], sent⟩
    have removed (finishes : Finishes id ⟨t, event, os, u⟩) :=
      change.removes h.unique (by simpa using sends) finishes
    refine ⟨?_, fun o o' => h.unique (before o) (before o'), ?_, ?_, ?_⟩
    · intro key owns
      obtain ⟨x, hx, sent⟩ := h.sent (before owns)
      exact known hx sent
    · intro x hx finishes
      rcases List.mem_append.mp hx with old | new
      · obtain ⟨⟨y, hy, sent⟩, free⟩ := h.ended x old finishes
        exact ⟨known hy sent, fun key owns => free key (before owns)⟩
      · obtain rfl := List.mem_singleton.mp new
        obtain ⟨⟨key, owns, -⟩, free⟩ := removed finishes
        obtain ⟨y, hy, sent⟩ := h.sent owns
        exact ⟨known hy sent, free⟩
    · intro x hx finishes
      rcases List.mem_append.mp hx with old | new
      · exact h.removes x old finishes
      · obtain rfl := List.mem_singleton.mp new
        exact removed finishes
    · refine List.pairwise_append.mpr ⟨h.silent, List.pairwise_singleton _ _, ?_⟩
      intro x hx y hy finishes
      obtain rfl := List.mem_singleton.mp hy
      exact change.silent (h.ended x hx finishes).2

/-- The exchange of the reply, if it is registered, is unicast and no observation. -/
def Unobserved (s : Protocol Addr) (id : ReplyId) : Prop :=
  ∀ key e, s.exchangeMap.find? key = some e → e.userReply = some id →
    e.request.isMulticast Addr = false ∧ e.request.isObserve = false

/-- A new exchange is of the kind its request asks for. -/
theorem opened_kind {request : Request} (connection : ConnectionId) (messageId : UInt16)
    (token : Token) (timeout : Nat) {e : ExchangeData Addr}
    (made : (ExchangeData.opened id (s.completed request connection messageId token) s.blockSize
      timeout).1 = some e) :
    e.request.isMulticast Addr = (InternalRequest.ofRequest Addr request).isMulticast Addr ∧
      e.request.isObserve = request.message.hasOption OptionName.observe := by
  obtain ⟨q, entry, identity, message, -⟩ :=
    @ExchangeData.opened_entry Addr _ id (s.completed request connection messageId token)
      s.blockSize timeout
  obtain rfl := Option.some.inj (entry.symm.trans made)
  constructor
  · rw [InternalRequest.isMulticast_of_identity Addr identity, completed_isMulticast]
  · simp only [InternalRequest.isObserve]
    rw [Message.hasOption_eq, Message.hasOption_eq]
    rw [message, InternalRequest.optionsNamed_firstBlocks_of_ne _ _ (by decide) (by decide),
      optionsNamed_completed s request connection messageId token (by decide)]

theorem opened_unobserved {request : Request} (single : request.Single Addr)
    (connection : ConnectionId) (messageId : UInt16) (token : Token) (timeout : Nat)
    {e : ExchangeData Addr}
    (made : (ExchangeData.opened id (s.completed request connection messageId token) s.blockSize
      timeout).1 = some e) :
    e.request.isMulticast Addr = false ∧ e.request.isObserve = false := by
  obtain ⟨unicast, observe⟩ := opened_kind connection messageId token timeout made
  exact ⟨unicast.trans single.1, observe.trans single.2⟩

theorem Change.unobserved (h : Change s os t event)
    (single : ∀ request connection draws,
      event = .sendRequest (some id) request connection draws → request.Single Addr)
    (before : s.Unobserved id) : t.Unobserved id := by
  intro key e' found user
  cases h.origin found with
  | opened messageId timeout registers made =>
    have own := Option.some.inj made
    obtain rfl := Option.some.inj ((congrArg ExchangeData.userReply own).trans user)
    exact opened_unobserved (single _ _ _ rfl) _ _ _ _ made
  | reacted e reaction found' reacts left =>
    have continues := reacts.continues left
    obtain ⟨unicast, single⟩ := before key e found' (continues.userReply.symm.trans user)
    refine ⟨(InternalRequest.isMulticast_of_identity Addr continues.identity).trans unicast, ?_⟩
    simp only [InternalRequest.isObserve] at single ⊢
    rw [Message.hasOption_eq] at single ⊢
    have options := reacts.optionsNamed left (by decide : OptionName.observe ≠ OptionName.block1)
      (by decide : OptionName.observe ≠ OptionName.block2)
    rcases options with same | ⟨-, -, none⟩
    · rw [same]
      exact single
    · rw [none]
      rfl
  | passed e found' passes =>
    obtain ⟨unicast, single⟩ := before key e found' (passes.userReply_of_some user)
    exact ⟨(InternalRequest.isMulticast_of_identity Addr passes.identity).trans unicast,
      passes.isObserve.trans single⟩

theorem Change.counts (h : Change s os t event) :
    os.countP (Output.finishes id) ≤ 1 ∧ os.countP (Output.delivers id) ≤ 1 := by
  have kept {p : Output Addr → Bool}
      (reports : ∀ o : Output Addr, p o = true → o.reports id = true) :
      (os.filter (Output.reports id)).countP p = os.countP p := by
    rw [List.countP_filter]
    apply List.countP_congr
    intro o _
    simpa using reports o
  rw [← kept fun o => Output.reports_of_finishes, ← kept fun o => Output.reports_of_delivers]
  rcases h.reported id with none | ⟨key, e, reaction, -, -, -, reported⟩
  · rw [none]
    simp
  · exact reported.counts

theorem Change.finishes_of_delivers (h : Change s os t event) (unobserved : s.Unobserved id)
    (delivered : ∃ o ∈ os, o.delivers id = true) : ∃ o ∈ os, o.finishes id = true := by
  obtain ⟨o, ho, delivers⟩ := delivered
  have kept : o ∈ os.filter (Output.reports id) :=
    List.mem_filter.mpr ⟨ho, Output.reports_of_delivers delivers⟩
  rcases h.reported id with none | ⟨key, e, reaction, found, user, -, reported⟩
  · rw [none] at kept
    cases kept
  · obtain ⟨unicast, single⟩ := unobserved key e found user
    obtain ⟨o', ho', finishes⟩ :=
      reported.finishes_of_delivers unicast single ⟨o, kept, delivers⟩
    exact ⟨o', (List.mem_filter.mp ho').1, finishes⟩

/-- What is reported to a reply that is sent once, over a whole run. -/
theorem traced_of_run (run : Framework.Run Step {} tr t)
    (once : tr.countP (·.event.sends id) ≤ 1) : Traced id tr t := by
  induction run with
  | nil => exact ⟨by simp [Owns], by simp [Owns], by simp, by simp, .nil⟩
  | @snoc tr t before e os u last ih =>
    have consistent := before.invariant (fun before h => before.step h) consistent_initial
    refine (ih ?_).snoc (step_change consistent last) once
    rw [List.countP_append] at once
    omega

/-- The reports to a reply that is sent once. It is finished once at most, which removes its
exchange, and nothing is reported to it after that; and content for a unicast request that is no
observation comes once at most, with the end. -/
theorem outcome_trace (run : Framework.Run Step {} tr t) (id : ReplyId)
    (once : tr.countP (·.event.sends id) ≤ 1) :
    (tr.flatMap (·.outputs)).countP (Output.finishes id) ≤ 1 ∧
    (∀ x ∈ tr, Finishes id x → (∃ key, x.source.Owns key id ∧
      x.target.exchangeMap.find? key = none) ∧ ∀ key, ¬ x.target.Owns key id) ∧
    tr.Pairwise (fun x y => Finishes id x → ∀ o ∈ y.outputs, o.reports id = false) ∧
    ((∀ x ∈ tr, ∀ request connection draws,
        x.event = .sendRequest (some id) request connection draws → request.Single Addr) →
      (tr.flatMap (·.outputs)).countP (Output.delivers id) ≤ 1 ∧
      ∀ x ∈ tr, (∃ o ∈ x.outputs, o.delivers id = true) → Finishes id x) := by
  have changes (x : Taken Addr) (hx : x ∈ tr) : Change x.source x.outputs x.target x.event :=
    (changes_of_run run x hx).2
  have traced := traced_of_run run once
  have quiet {p : Output Addr → Bool}
      (reports : ∀ o : Output Addr, p o = true → o.reports id = true)
      (finishes : ∀ x ∈ tr, (∃ o ∈ x.outputs, p o = true) → Finishes id x) :
      tr.Pairwise fun x y => (∃ o ∈ x.outputs, p o = true) → ∀ o ∈ y.outputs, p o = false := by
    refine traced.silent.imp_of_mem ?_
    intro x y hx _ silent out o ho
    by_contra holds
    have reported := silent (finishes x hx out) o ho
    rw [reports o (by simpa using holds)] at reported
    cases reported
  refine ⟨?_, traced.removes, traced.silent, ?_⟩
  · apply Framework.countP_outputs_le_one (fun x hx => (changes x hx).counts.1)
    exact quiet (fun o => Output.reports_of_finishes) fun x _ finishes => finishes
  · intro single
    have unobserved := (run.along (P := (Unobserved · id))
      (fun x hx _ before => (changes x hx).unobserved (single x hx) before)
      (by simp [Unobserved])).2
    have delivered (x) (hx : x ∈ tr) (out : ∃ o ∈ x.outputs, o.delivers id = true) :
        Finishes id x := (changes x hx).finishes_of_delivers (unobserved x hx).1 out
    refine ⟨?_, delivered⟩
    apply Framework.countP_outputs_le_one (fun x hx => (changes x hx).counts.2)
    exact quiet (fun o => Output.reports_of_delivers) delivered

/-- A request, its response and the response once more. -/
def answeredTwice : List (Event IPv4Address) :=
  [.sendRequest (some 0) (getRequest [1, 2]) 0 [7, 0],
    .frameReceived ownResponse serverAddress [], .frameReceived ownResponse serverAddress []]

theorem outcome_trace_answeredTwice : ∃ (tr : List (Taken IPv4Address)) (t : _),
    Framework.Run Step {} tr t ∧
    (∃ x ∈ tr, Finishes 0 x) ∧
    (tr.flatMap (·.outputs)).countP (Output.finishes 0) ≤ 1 ∧
    (tr.flatMap (·.outputs)).countP (Output.delivers 0) ≤ 1 := by
  have ran : (Framework.execute handle {} answeredTwice).any (fun result =>
      decide (result.1.countP (·.event.sends 0) ≤ 1) &&
      result.1.any (fun x => x.outputs.any (Output.finishes 0)) &&
      result.1.all (fun x => match x.event with
        | .sendRequest _ request _ _ => request = getRequest [1, 2]
        | _ => true)) = true := by
    decide +kernel
  obtain ⟨tr, t, run, -, facts⟩ := Framework.exists_run_of_execute Step step_of_handle ran
  simp only [Bool.and_eq_true, decide_eq_true_eq] at facts
  obtain ⟨⟨once, finished⟩, sent⟩ := facts
  obtain ⟨x, hx, finishes⟩ := List.any_eq_true.mp finished
  obtain ⟨oneFinish, -, -, content⟩ := outcome_trace run 0 once
  have single : (getRequest [1, 2]).Single IPv4Address := by
    constructor <;> decide
  refine ⟨tr, t, run, ⟨x, hx, List.any_eq_true.mp finishes⟩, oneFinish, (content ?_).1⟩
  intro y hy request connection draws event
  have own := List.all_eq_true.mp sent y hy
  rw [event] at own
  obtain rfl : request = getRequest [1, 2] := by simpa using own
  exact single

end Protocol

end QtCoap
