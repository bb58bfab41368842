import QtCoap.Protocol.Outcome
import QtCoap.Protocol.Settings

namespace QtCoap

variable {Addr : Type}

namespace ExchangeData

variable (url : Url) (urls : ReplyId → Url) (e : ExchangeData Addr)

/-- The exchange observes, and its reply has the URL. -/
def observes : Bool := e.userReply.any (fun id => urls id = url) && e.request.isObserve

/-- The exchange with its observation cancelled, if it is one of the URL. -/
def cancelled : ExchangeData Addr :=
  if e.observes url urls then { e with request := e.request.setObserveCancelled } else e

/-- What its reply is told, unless it has been told before. -/
def told : Option (Output Addr) :=
  if e.observes url urls && !e.request.observeCancelled
  then e.userReply.map fun id => .post id .setObserveCancelled else none

theorem isObserve_of_dropObserve (observe : e.dropObserve.request.isObserve = true) :
    e.request.isObserve = true ∧ e.request.observeCancelled = false := by
  refine ⟨isObserve_dropObserve observe, ?_⟩
  cases cancelled : e.request.observeCancelled with
  | false => rfl
  | true =>
    -- the option is gone then
    simp only [dropObserve, InternalRequest.isObserve] at observe
    rw [if_pos cancelled, InternalRequest.removeOption, Message.hasOption_eq,
      Message.optionsNamed_removeOption, if_pos rfl] at observe
    cases observe

variable {e} {id : ReplyId}

theorem setNotified_not_mem_fail (error : Error) (reply : Option (ReceivedReply Addr)) :
    Output.post id .setNotified ∉ (e.fail error reply).2 := by
  simp only [fail, errorPosts]
  cases e.userReply <;> cases reply <;> simp

variable [Platform Addr]

theorem isObserve_of_finish {sender : Addr}
    (notified : .post id .setNotified ∈ (e.finish sender).2) : e.request.isObserve = true := by
  rw [finish] at notified
  split at notified
  · dsimp only at notified
    split_ifs at notified with cancelled empty observe multicast
    · cases notified
    · cases notified
    · exact observe
    · simp at notified
    · simp at notified
  · cases notified

/-- Only an observation that is not cancelled notifies. -/
theorem Reacts.notifies {s : Protocol Addr} {key : Token} {event : Event Addr}
    {reaction : Reaction Addr} (h : Reacts s key e event reaction)
    (notified : .post id .setNotified ∈ reaction.2) :
    e.request.isObserve = true ∧ e.request.observeCancelled = false := by
  cases h with
  | @received data draws reply next admits fresh =>
    have acknowledged : Output.post id .setNotified ∉ (e.store reply).acknowledge reply := by
      intro posted
      obtain ⟨_, _, _, _, _, same, -⟩ := mem_acknowledge posted
      cases same
    have received := e.receives s.blockSize reply next
    generalize e.receive s.blockSize reply next = reaction at received notified
    cases received with
    | failed error => exact absurd notified (setNotified_not_mem_fail _ _)
    | asked noError q host more =>
      exact absurd ((List.mem_append.mp notified).resolve_left acknowledged)
        (post_not_mem_transmit _ _ _ _)
    | ended noError last =>
      have observe :=
        isObserve_of_finish ((List.mem_append.mp notified).resolve_left acknowledged)
      obtain ⟨stored, active⟩ := isObserve_of_dropObserve _ observe
      simp only [InternalRequest.isObserve] at stored ⊢
      rw [message_store] at stored
      exact ⟨stored, (observeCancelled_store reply).symm.trans active⟩
  | timedOut runs =>
    simp only [timeout] at notified
    split_ifs at notified
    · exact absurd notified (post_not_mem_transmit _ _ _ _)
    · exact absurd notified (setNotified_not_mem_fail _ _)
  | spanReached runs => exact absurd notified (setNotified_not_mem_fail _ _)
  | expired runs =>
    simp only [expire, expiryPosts] at notified
    cases user : e.userReply <;> simp [user] at notified
  | aborted => cases notified

end ExchangeData

namespace Protocol

variable {s t : Protocol Addr} {os : List (Output Addr)} {event : Event Addr} {url : Url}
  {urls : ReplyId → Url} {tokens : ReplyId → Token} {key : Token} {e : ExchangeData Addr}
  {id : ReplyId}

/-- The reply of the exchange is alive and, if it has the URL, knows the token of the exchange. -/
def Known (url : Url) (urls : ReplyId → Url) (tokens : ReplyId → Token) (key : Token)
    (e : ExchangeData Addr) : Prop :=
  ∃ id, e.userReply = some id ∧ (urls id = url → tokens id = key)

/-- One round of the loop. -/
theorem cancelEntry_eq {acc : Protocol Addr × List (Output Addr)}
    (found : acc.1.exchangeMap.find? key = some e) (known : Known url urls tokens key e) :
    cancelEntry url (fun id => (urls id, tokens id)) acc (key, e) =
      .ok (acc.1.setExchange key (some (e.cancelled url urls)),
        acc.2 ++ (e.told url urls).toList) := by
  obtain ⟨id, user, token⟩ := known
  have unchanged : acc.1.setExchange key (some e) = acc.1 := setExchange_self found
  have left (not : e.observes url urls = false) :
      e.cancelled url urls = e ∧ e.told url urls = none := by
    simp [ExchangeData.cancelled, ExchangeData.told, not]
  have observes : e.observes url urls =
      (decide (urls id = url) && e.request.isObserve) := by
    simp [ExchangeData.observes, user]
  simp only [cancelEntry]
  rw [user]
  dsimp only
  by_cases addressed : urls id = url
  · rw [if_pos addressed, token addressed]
    simp only [cancelObserve]
    rw [found]
    dsimp only
    cases observe : e.request.isObserve with
    | false =>
      obtain ⟨same, silent⟩ := left (by simp [observes, observe])
      simp [same, silent, unchanged]
    | true =>
      have aims : e.observes url urls = true := by simp [observes, observe, addressed]
      have changed : e.cancelled url urls =
          { e with request := e.request.setObserveCancelled } := if_pos aims
      cases before : e.request.observeCancelled with
      | true =>
        -- a second time it changes nothing
        have same : e.request.setObserveCancelled = e.request := by
          rw [InternalRequest.setObserveCancelled, ← before]
        have silent : e.told url urls = none := by simp [ExchangeData.told, before]
        rw [changed, same, silent, unchanged]
        simp
      | false =>
        have told : e.told url urls = some (.post id .setObserveCancelled) := by
          simp [ExchangeData.told, aims, before, user]
        obtain ⟨s, form⟩ := setExchange_form found
        rw [form, updateRequest_setExchange, changed, told]
        simp
  · obtain ⟨same, silent⟩ := left (by simp [observes, addressed])
    rw [if_neg addressed, same, silent, unchanged]
    simp

/-- The rounds for some entries with keys of their own. -/
theorem foldlM_cancelEntry {entries : List (Token × ExchangeData Addr)}
    (acc : Protocol Addr × List (Output Addr)) (distinct : entries.Pairwise fun a b => a.1 ≠ b.1)
    (found : ∀ entry ∈ entries, acc.1.exchangeMap.find? entry.1 = some entry.2)
    (known : ∀ entry ∈ entries, Known url urls tokens entry.1 entry.2) :
    ∃ t : Protocol Addr, entries.foldlM
        (cancelEntry url fun id => (urls id, tokens id)) acc =
        .ok (t, acc.2 ++ entries.filterMap (fun entry => entry.2.told url urls)) ∧
      t.settings = acc.1.settings ∧
      ∀ key, t.exchangeMap.find? key =
        if key ∈ entries.map Prod.fst
        then (acc.1.exchangeMap.find? key).map (·.cancelled url urls)
        else acc.1.exchangeMap.find? key := by
  induction entries generalizing acc with
  | nil => exact ⟨acc.1, by simp [pure, Except.pure], rfl, fun key => rfl⟩
  | cons entry entries ih =>
    obtain ⟨others, distinct⟩ := List.pairwise_cons.mp distinct
    have own := found entry (by simp)
    have round := cancelEntry_eq own (known entry (by simp))
    obtain ⟨t, folded, settings, each⟩ := ih (acc.1.setExchange entry.1
        (some (entry.2.cancelled url urls)), acc.2 ++ (entry.2.told url urls).toList) distinct
      (fun other listed => by
        rw [find?_setExchange, if_neg (Ne.symm (others other listed))]
        exact found other (by simp [listed]))
      (fun other listed => known other (by simp [listed]))
    refine ⟨t, ?_, settings.trans (settings_setExchange ..), fun key => ?_⟩
    · rw [List.foldlM_cons, round]
      refine folded.trans ?_
      rw [List.append_assoc, List.filterMap_cons]
      cases entry.2.told url urls <;> rfl
    · rw [each key]
      dsimp only
      rw [find?_setExchange]
      by_cases same : key = entry.1
      · have once : entry.1 ∉ entries.map Prod.fst := by
          intro listed
          obtain ⟨other, listed, repeated⟩ := List.mem_map.mp listed
          exact others other listed repeated.symm
        rw [same, if_neg once, if_pos rfl, if_pos (by simp), own]
        rfl
      · have elsewhere : key ∈ (entry :: entries).map Prod.fst ↔ key ∈ entries.map Prod.fst := by
          rw [List.map_cons, List.mem_cons, or_iff_right same]
        simp only [if_neg same, elsewhere]

/-- Where every reply is alive, and knows the token of its exchange if it has the URL, to cancel by
the URL cancels exactly the observations whose reply has it, and changes nothing else; each of these
replies is told so, in the order of the tokens, unless it had been told before. -/
theorem cancelObserveUrl_eq (s : Protocol Addr) (url : Url) (urls : ReplyId → Url)
    (tokens : ReplyId → Token)
    (known : ∀ key e, s.exchangeMap.find? key = some e → Known url urls tokens key e) :
    s.cancelObserveUrl url (fun id => (urls id, tokens id)) =
      .ok ({ s with exchangeMap := s.exchangeMap.mapValues (·.cancelled url urls) },
        s.exchangeMap.entries.filterMap fun entry => entry.2.told url urls) := by
  have distinct : s.exchangeMap.entries.Pairwise fun a b => a.1 ≠ b.1 :=
    s.exchangeMap.sorted.imp fun below => ne_of_lt below
  have registered : ∀ entry ∈ s.exchangeMap.entries,
      s.exchangeMap.find? entry.1 = some entry.2 := fun entry listed =>
    (Framework.OrderedMap.find?_eq_some_iff _ entry.1 entry.2).mpr listed
  obtain ⟨t, folded, settings, each⟩ := foldlM_cancelEntry (s, []) distinct registered
    fun entry listed => known entry.1 entry.2 (registered entry listed)
  have map : t.exchangeMap = s.exchangeMap.mapValues (·.cancelled url urls) := by
    apply Framework.OrderedMap.ext
    intro key
    rw [each key, Framework.OrderedMap.find?_mapValues]
    split_ifs with listed
    · rfl
    · cases found : s.exchangeMap.find? key with
      | none => rfl
      | some e =>
        have entry := (Framework.OrderedMap.find?_eq_some_iff ..).mp found
        exact absurd (List.mem_map.mpr ⟨_, entry, rfl⟩) listed
  have whole : t = { s with exchangeMap := t.exchangeMap } :=
    congrArg (fun u : Protocol Addr => { u with exchangeMap := t.exchangeMap }) settings
  rw [cancelObserveUrl, folded, List.nil_append, whole, map]

/-- The observation at the key is cancelled, if it is one. -/
def CancelledAt (s : Protocol Addr) (key : Token) : Prop :=
  ∀ e, s.exchangeMap.find? key = some e → e.request.isObserve = true →
    e.request.observeCancelled = true

theorem ObserveCancelled.cancelledAt (h : ObserveCancelled s t os) (before : s.CancelledAt key) :
    t.CancelledAt key := by
  intro e' found observe
  rcases h.each key with same | ⟨e, -, -, changed⟩
  · exact before e' (same ▸ found) observe
  · obtain rfl := Option.some.inj (found.symm.trans changed)
    rfl

theorem cancelObserve_cancelledAt (s : Protocol Addr) (id : ReplyId) (key : Token) :
    (s.cancelObserve (some id) key).1.CancelledAt key := by
  intro e' found' observe
  cases found : s.exchangeMap.find? key with
  | none =>
    have same : (s.cancelObserve (some id) key).1 = s := by simp [cancelObserve, found]
    rw [same, found] at found'
    cases found'
  | some e =>
    by_cases skipped : (!e.request.isObserve || e.request.observeCancelled) = true
    · have same : (s.cancelObserve (some id) key).1 = s := by
        simp only [cancelObserve]
        rw [found]
        exact congrArg Prod.fst (if_pos skipped)
      rw [same] at found'
      obtain rfl := Option.some.inj (found.symm.trans found')
      simpa [observe] using skipped
    · have changed : (s.cancelObserve (some id) key).1 =
          s.updateRequest key (·.setObserveCancelled) := by
        simp only [cancelObserve]
        rw [found]
        exact congrArg Prod.fst (if_neg skipped)
      obtain ⟨s, rfl⟩ := setExchange_form found
      rw [changed, updateRequest_setExchange, find?_setExchange, if_pos rfl] at found'
      obtain rfl := Option.some.inj found'
      rfl

/-- The loop comes by the exchange of the reply, in whatever state the others are. -/
theorem cancelObserveUrl_cancelledAt {view : ReplyId → Url × Token}
    (h : s.cancelObserveUrl url view = .ok (t, os)) (found : s.exchangeMap.find? key = some e)
    (user : e.userReply = some id) (addressed : (view id).1 = url) (token : (view id).2 = key) :
    t.CancelledAt key := by
  have walk (entries : List (Token × ExchangeData Addr)) :
      ∀ acc : Protocol Addr × List (Output Addr),
        entries.foldlM (cancelEntry url view) acc = .ok (t, os) →
        acc.1.CancelledAt key ∨ (key, e) ∈ entries → t.CancelledAt key := by
    induction entries with
    | nil =>
      intro acc folded before
      obtain rfl := Except.ok.inj folded
      exact before.resolve_right (by simp)
    | cons entry entries ih =>
      intro acc folded before
      rw [List.foldlM_cons] at folded
      obtain ⟨acc', one, rest⟩ := Framework.bind_ok folded
      refine ih acc' rest ?_
      unfold cancelEntry at one
      rcases before with cancelled | listed
      · left
        cases own : entry.2.userReply with
        | none =>
          rw [own] at one
          cases one
        | some id' =>
          rw [own] at one
          dsimp only at one
          split_ifs at one
          · obtain rfl := Except.ok.inj one
            exact (cancelObserve_spec (some id') (view id').2).cancelledAt cancelled
          · obtain rfl := Except.ok.inj one
            exact cancelled
      · rcases List.mem_cons.mp listed with rfl | later
        · left
          rw [user] at one
          dsimp only at one
          rw [if_pos addressed, token] at one
          obtain rfl := Except.ok.inj one
          exact cancelObserve_cancelledAt acc.1 id key
        · exact .inr later
  exact walk _ _ h (.inr ((Framework.OrderedMap.find?_eq_some_iff ..).mp found))

/-- Every observation for the reply is cancelled. -/
def Quiet (s : Protocol Addr) (id : ReplyId) : Prop :=
  ∀ key e, s.exchangeMap.find? key = some e → e.userReply = some id →
    e.request.isObserve = true → e.request.observeCancelled = true

theorem ObserveCancelled.quiet (h : ObserveCancelled s t os)
    (each : ∀ key, s.Owns key id → t.CancelledAt key) : t.Quiet id := by
  intro key e' found user
  refine each key ?_ e' found
  rcases h.each key with same | ⟨e, found', -, changed⟩
  · exact ⟨e', same ▸ found, user⟩
  · obtain rfl := Option.some.inj (found.symm.trans changed)
    exact ⟨e, found', user⟩

variable [Platform Addr]

/-- It stays so, and the reply is not notified any more, until it is sent again. -/
theorem Change.quiet (h : Change s os t event) (quiet : s.Quiet id)
    (other : event.sends id = false) : t.Quiet id ∧ .post id .setNotified ∉ os := by
  constructor
  · intro key e' found user observe
    cases h.origin found with
    | @opened id' request connection draws messageId timeout registers made =>
      have own := Option.some.inj made
      obtain rfl := Option.some.inj ((congrArg ExchangeData.userReply own).trans user)
      simp [Event.sends] at other
    | reacted e reaction found' reacts left =>
      have continues := reacts.continues left
      rw [continues.observeCancelled]
      exact quiet key e found' (continues.userReply.symm.trans user) (reacts.isObserve left observe)
    | passed e found' passes =>
      have before := quiet key e found' (passes.userReply_of_some user)
        (passes.isObserve.symm.trans observe)
      rcases passes.request with same | ⟨-, cancelled⟩
      · rw [same]
        exact before
      · rw [cancelled]
        rfl
  · intro notified
    cases h with
    | @opened id' request connection draws messageId token timeout registers after =>
      rw [(Prod.mk.inj after).2] at notified
      rcases List.mem_cons.mp notified with same | sent
      · cases same
      · exact post_not_mem_transmit _ _ _ _ sent
    | reacted key e reaction found reacts after =>
      rw [(Prod.mk.inj after).2] at notified
      obtain ⟨observe, active⟩ := reacts.notifies notified
      have kept : Output.post id .setNotified ∈ reaction.2.filter (Output.reports id) :=
        List.mem_filter.mpr ⟨notified, by simp [Output.reports]⟩
      have user := (reacts.reported id).userReply (List.ne_nil_of_mem kept)
      rw [quiet key e found user observe] at active
      cases active
    | passed each outputs =>
      rcases outputs _ notified with ⟨id', same⟩ | ⟨error, same⟩
      · cases same
      · cases same

end Protocol

end QtCoap
