import QtCoap.Protocol.Matching

namespace QtCoap

variable {Addr : Type} [Platform Addr]

namespace ExchangeData

variable {e : ExchangeData Addr} {id : ReplyId}

theorem fail_posts {Addr : Type} {e : ExchangeData Addr} (error : Error)
    (reply : Option (ReceivedReply Addr)) (user : e.userReply = some id) :
    Output.post id (.setFinished .ok) ∈ (e.fail error reply).2 := by
  simp [fail, errorPosts, user]

theorem expire_posts {Addr : Type} {e : ExchangeData Addr} (user : e.userReply = some id) :
    Output.post id (.setFinished .ok) ∈ e.expire.2 := by
  simp [expire, expiryPosts, user]

/-- An exchange that ends with its last message has an outcome, unless its observation is
cancelled. -/
theorem finish_posts {sender : Addr} {reply : ReceivedReply Addr} (user : e.userReply = some id)
    (last : e.replies.getLast? = some reply) (observing : e.request.observeCancelled = false)
    (ends : (e.finish sender).1 = none) :
    Output.post id (.setFinished .ok) ∈ (e.finish sender).2 := by
  unfold finish at ends ⊢
  rw [user, last] at ends ⊢
  dsimp only at ends ⊢
  split_ifs at ends ⊢ with cancelled
  · simp [observing] at cancelled
  · simp

theorem receive_posts {blockSize : Nat} {reply : ReceivedReply Addr} {messageId : UInt16}
    (user : e.userReply = some id) (observing : e.request.observeCancelled = false)
    (ends : (e.receive blockSize reply messageId).1 = none) :
    Output.post id (.setFinished .ok) ∈ (e.receive blockSize reply messageId).2 := by
  have before : e.Continues (e.store reply).dropObserve :=
    (continues_store e reply).trans (continues_dropObserve _)
  have received := e.receives blockSize reply messageId
  generalize e.receive blockSize reply messageId = reaction at ends received ⊢
  cases received with
  | failed error => exact fail_posts _ _ user
  | asked noError q host next => cases ends
  | ended noError last =>
    have posted := finish_posts (before.userReply.trans user)
      (last_dropObserve_store e reply) (before.observeCancelled.trans observing) ends
    exact List.mem_append_right _ posted

theorem timeout_posts {maximumRetransmitCount : Nat} (user : e.userReply = some id)
    (ends : (e.timeout maximumRetransmitCount).1 = none) :
    Output.post id (.setFinished .ok) ∈ (e.timeout maximumRetransmitCount).2 := by
  unfold timeout at ends ⊢
  split_ifs at ends ⊢
  exact fail_posts _ _ user

end ExchangeData

namespace Protocol

variable {s t : Protocol Addr} {os : List (Output Addr)}

/-- A user-set token is not that of an exchange under way, and an abort is about the exchange of
the reply that is aborted, if about any. -/
def Orderly (s : Protocol Addr) : Event Addr → Prop
  | .sendRequest (some _) request _ _ =>
    request.method ≠ Method.invalid → isUrlValid request.uri = true →
      request.message.token ≠ [] → s.isTokenRegistered request.message.token = false
  | .aborted id token => ∀ e, s.exchangeMap.find? token = some e →
      e.userReply = some id ∨ e.userReply = none ∨ e.request.observeCancelled = true
  | _ => True

/-- The exchange `e` is still registered, for the user reply `id`. -/
def Keeps (key : Token) (e : ExchangeData Addr) (id : ReplyId) (s : Protocol Addr) : Prop :=
  ∃ e', s.exchangeMap.find? key = some e' ∧ e'.request.identity = e.request.identity ∧
    e'.userReply = some id ∧ e'.request.observeCancelled = false

/-- The ways an exchange may come to its end. -/
inductive Ends (key : Token) (id : ReplyId)
    (x : Framework.Transition (Protocol Addr) (Event Addr) (Output Addr)) : Prop
  | finished (error : Error) (posted : .post id (.setFinished error) ∈ x.outputs)
  | aborted (token : Token) (event : x.event = .aborted id token)
  | destroyed (event : x.event = .replyDestroyed id)
  | observeCancelled (e : ExchangeData Addr) (found : x.target.exchangeMap.find? key = some e)
      (cancelled : e.request.observeCancelled = true)

theorem Registers.token_fresh {Addr : Type} {s : Protocol Addr} {request : Request} {id : ReplyId}
    {connection : ConnectionId} {draws : Draws} {messageId : UInt16} {token : Token}
    (registers : s.Registers request messageId token)
    (orderly : s.Orderly (.sendRequest (some id) request connection draws)) :
    s.exchangeMap.find? token = none := by
  have free : s.isTokenRegistered token = false := by
    have chosen := registers.token
    split_ifs at chosen with none_set
    · exact chosen
    · rw [chosen]
      exact orderly registers.method registers.url none_set
  have absent := (Bool.or_eq_false_iff.mp free).2
  simpa [Framework.OrderedMap.contains] using absent

/-- Registering a new exchange leaves the others alone. -/
theorem registration_keeps {reply : Option ReplyId} {request : Request}
    {connection : ConnectionId} {draws : Draws}
    (h : Step s (.sendRequest reply request connection draws) os t)
    (orderly : s.Orderly (.sendRequest reply request connection draws)) {key : Token}
    {e : ExchangeData Addr} (found : s.exchangeMap.find? key = some e) :
    t.exchangeMap.find? key = some e := by
  cases sendRequest_effect h.2 with
  | opened messageId token timeout registers after =>
    have fresh := registers.token_fresh orderly
    have other : key ≠ token := by
      intro same
      rw [same, fresh] at found
      cases found
    rw [(Prod.mk.inj after).1, find?_setExchange, if_neg other]
    exact found
  | unchanged map posts => rw [map, found]

/-- A reaction of some exchange keeps an exchange or posts its outcome. -/
theorem Keeps.react {Addr : Type} {s t : Protocol Addr} {os : List (Output Addr)}
    {event : Event Addr} {key k : Token} {e d' : ExchangeData Addr} {id : ReplyId}
    {reaction : Reaction Addr} (keeps : Keeps key e id s)
    (found' : s.exchangeMap.find? k = some d') (after : (t, os) = s.apply k reaction)
    (goes_on : ∀ d'', reaction.1 = some d'' → d'.Continues d'')
    (posts : d'.userReply = some id → d'.request.observeCancelled = false →
      reaction.1 = none → Output.post id (.setFinished .ok) ∈ reaction.2) :
    Keeps key e id t ∨ Ends key id ⟨s, event, os, t⟩ := by
  obtain ⟨d, found, identity, user, observing⟩ := keeps
  obtain ⟨ht, hos⟩ := Prod.mk.inj after
  have lookup := find?_setExchange s k key reaction.1
  rw [← ht] at lookup
  by_cases hk : key = k
  · subst hk
    obtain rfl := Option.some.inj (found.symm.trans found')
    rw [if_pos rfl] at lookup
    cases left : reaction.1 with
    | none => exact .inr (.finished .ok (hos ▸ posts user observing left))
    | some d'' =>
      have continues := goes_on d'' left
      exact .inl ⟨d'', lookup.trans left, continues.identity.trans identity,
        continues.userReply.trans user, continues.observeCancelled.trans observing⟩
  · rw [if_neg hk, found] at lookup
    exact .inl ⟨d, lookup, identity, user, observing⟩

/-- One step keeps an exchange, or it ends in one of the ways there are. -/
theorem step_keeps_or_ends (consistent : s.Consistent) {event : Event Addr}
    (h : Step s event os t) (orderly : s.Orderly event) {key : Token} {e : ExchangeData Addr}
    {id : ReplyId} (keeps : Keeps key e id s) :
    Keeps key e id t ∨ Ends key id ⟨s, event, os, t⟩ := by
  have kept := keeps
  obtain ⟨d, found, identity, user, observing⟩ := kept
  have same (h : t.exchangeMap.find? key = some d) : Keeps key e id t :=
    ⟨d, h, identity, user, observing⟩
  cases step_effect consistent h with
  | opened messageId token timeout registers after =>
    exact .inl (same (registration_keeps h orderly found))
  | received k d' messageId admits fresh after =>
    exact keeps.react admits.found after (fun _ left => (ExchangeData.receive_kept left).1)
      ExchangeData.receive_posts
  | timedOut d' found' after =>
    exact keeps.react found' after (fun _ left => (ExchangeData.timeout_kept left).1)
      (fun user _ => ExchangeData.timeout_posts user)
  | spanReached d' found' after =>
    exact keeps.react found' after (fun _ left => by cases left)
      (fun user _ _ => ExchangeData.fail_posts _ _ user)
  | expired d' found' after =>
    exact keeps.react found' after (fun _ left => by cases left)
      (fun user _ _ => ExchangeData.expire_posts user)
  | @aborted id' token d' found' after =>
    by_cases hk : key = token
    · subst hk
      obtain rfl := Option.some.inj (found.symm.trans found')
      rcases orderly d found with own | gone | cancelled
      · obtain rfl := Option.some.inj (own.symm.trans user)
        exact .inr (.aborted key rfl)
      · rw [user] at gone
        cases gone
      · rw [observing] at cancelled
        cases cancelled
    · refine .inl (same ?_)
      rw [(Prod.mk.inj after).1, find?_setExchange, if_neg hk]
      exact found
  | cancelled cancels | urlCancelled cancels =>
    rcases cancels.each key with unchanged | ⟨d', found', -, changed⟩
    · exact .inl (same (unchanged.trans found))
    · exact .inr (.observeCancelled _ changed rfl)
  | @destroyed id' after =>
    by_cases hid : id' = id
    · subst hid
      exact .inr (.destroyed rfl)
    · refine .inl (same ?_)
      rw [(Prod.mk.inj after).1, find?_replyDestroyed, found]
      simp [user, Ne.symm hid]
  | unchanged map posts => exact .inl (same (map ▸ found))

/-- No exchange is lost in an orderly run: no registration touches the others, and an exchange
stays registered as long as it has not been finished, aborted, destroyed or its observation
cancelled. -/
theorem no_exchange_lost {tr : List (Framework.Transition (Protocol Addr) (Event Addr)
    (Output Addr))} (start : Reachable s) (run : Framework.Run Step s tr t)
    (orderly : ∀ x ∈ tr, x.source.Orderly x.event) :
    (∀ x ∈ tr, ∀ reply request connection draws,
      x.event = .sendRequest reply request connection draws →
      ∀ key e, x.source.exchangeMap.find? key = some e →
        x.target.exchangeMap.find? key = some e) ∧
    ∀ key e id, s.exchangeMap.find? key = some e → e.userReply = some id →
      e.request.observeCancelled = false → Keeps key e id t ∨ ∃ x ∈ tr, Ends key id x := by
  have steps := run.forall_step (P := Consistent) (fun before h => before.step h)
    (Reachable.consistent start)
  constructor
  · intro x hx reply request connection draws event key e found
    have step := (steps x hx).2
    have allowed := orderly x hx
    rw [event] at step allowed
    exact registration_keeps step allowed found
  · intro key e id found user observing
    apply run.kept_or_ended
    · intro x hx keeps
      exact step_keeps_or_ends (steps x hx).1 (steps x hx).2 (orderly x hx) keeps
    · exact ⟨e, found, rfl, user, observing⟩

/-- A second request with a token of its own. -/
def secondRequest : Event IPv4Address := .sendRequest (some 1) (getRequest [3]) 0 [9, 0]

theorem no_exchange_lost_secondRequest : ∃ tr t, Framework.Run Step oneExchange tr t ∧
    tr.map (·.event) = [secondRequest] ∧
    (∀ x ∈ tr, ∀ reply request connection draws,
      x.event = .sendRequest reply request connection draws →
      ∀ key e, x.source.exchangeMap.find? key = some e →
        x.target.exchangeMap.find? key = some e) ∧
    ∀ key e id, oneExchange.exchangeMap.find? key = some e → e.userReply = some id →
      e.request.observeCancelled = false → Keeps key e id t ∨ ∃ x ∈ tr, Ends key id x := by
  have sent : (oneExchange.handle secondRequest).isSome = true := by decide +kernel
  obtain ⟨⟨t, os⟩, handled⟩ := Option.isSome_iff_exists.mp sent
  have run := Framework.Run.single (step_of_handle handled)
  refine ⟨_, t, run, rfl, no_exchange_lost (reachable_after _) run ?_⟩
  have fresh : oneExchange.isTokenRegistered [3] = false := by decide +kernel
  intro x hx
  obtain rfl := List.mem_singleton.mp hx
  exact fun _ _ _ => fresh

/-- A second request with the token of the first. -/
def reusedToken : Event IPv4Address := .sendRequest (some 1) (getRequest [1, 2]) 0 [9, 0]

theorem reusedToken_loses_exchange : Reachable oneExchange ∧ ∃ e os t,
    Step oneExchange reusedToken os t ∧ oneExchange.exchangeMap.find? [1, 2] = some e ∧
    e.userReply = some 0 ∧ ¬ Keeps [1, 2] e 0 t ∧
    ¬ Ends [1, 2] 0 ⟨oneExchange, reusedToken, os, t⟩ := by
  have first : (oneExchange.exchangeMap.find? [1, 2]).any
      (fun e => e.userReply = some 0) = true := by
    decide +kernel
  have overwritten : (oneExchange.handle reusedToken).any (fun result =>
      (result.1.exchangeMap.find? [1, 2]).any
        (fun e => e.userReply = some 1 && !e.request.observeCancelled) &&
      result.2.all (fun o => match o with | .post id _ => id = 1 | _ => true)) = true := by
    decide +kernel
  obtain ⟨e, found, user⟩ := (Option.any_eq_true ..).mp first
  obtain ⟨⟨t, os⟩, handled, after⟩ := (Option.any_eq_true ..).mp overwritten
  obtain ⟨entry, posts⟩ := (Bool.and_eq_true ..).mp after
  obtain ⟨e', found', user'⟩ := (Option.any_eq_true ..).mp entry
  simp only [Bool.and_eq_true, decide_eq_true_eq, Bool.not_eq_true'] at user user'
  refine ⟨reachable_after _, e, os, t, step_of_handle handled, found, user, ?_, ?_⟩
  · intro keeps
    obtain ⟨d, left, -, own, -⟩ := keeps
    obtain rfl := Option.some.inj (found'.symm.trans left)
    rw [user'.1] at own
    cases own
  · intro ends
    cases ends with
    | finished error posted => simpa using List.all_eq_true.mp posts _ posted
    | aborted token event => cases event
    | destroyed event => cases event
    | observeCancelled d left cancelled =>
      obtain rfl := Option.some.inj (found'.symm.trans left)
      rw [user'.2] at cancelled
      cases cancelled

end Protocol

end QtCoap
