import QtCoap.Blockwise.Multicast
import QtCoap.Protocol.Matching

namespace QtCoap

variable {Addr : Type} [Platform Addr]

/-- The output hands a message of the host to the user reply. -/
def Output.handsOn (id : ReplyId) (host : Addr) (o : Output Addr) : Bool :=
  (o.response? id).any fun response => response.1 = host

/-- The stored replies of one host. -/
def repliesOf (host : Addr) (replies : List (ReceivedReply Addr)) : List (ReceivedReply Addr) :=
  replies.filter fun r => r.senderAddress = host

/-! A multicast exchange as one host sees it: its own replies, and what is handed on of them. -/

/-- The exchange of one host gets a reply; it is gone after an error. -/
def hostReceive (id : ReplyId) (mine : List (ReceivedReply Addr)) (reply : ReceivedReply Addr) :
    Option (List (ReceivedReply Addr)) × List (Output Addr) :=
  if isError reply.responseCode then
    (none, [.post id (.setContent reply.senderAddress reply.message reply.responseCode)])
  else if reply.continues then (some (mine ++ [reply]), [])
  else if reply.isEmptyAcknowledgment then (some mine, [])
  else
    let whole := { reply with
      message := { reply.message with payload := mergedPayload (mine ++ [reply]) } }
    (some (mine ++ [whole]),
      [.post id (.setContent reply.senderAddress whole.message reply.responseCode),
        .responseToMulticastReceived id whole.message reply.senderAddress])

/-- A frame concerns the host when it is from there and has the token of the exchange. -/
def hostFrame (id : ReplyId) (key : Token) (host : Addr)
    (mine : Option (List (ReceivedReply Addr))) (frame : QByteArray × Addr) :
    Option (List (ReceivedReply Addr)) × List (Output Addr) :=
  match mine, createFromFrame (Platform.junk Addr) frame.1 with
  | some replies, .ok reply =>
    if frame.2 = host ∧ reply.message.token = key then
      hostReceive id replies { reply with senderAddress := host }
    else (some replies, [])
  | _, _ => (mine, [])

def hostRun (id : ReplyId) (key : Token) (host : Addr) :
    Option (List (ReceivedReply Addr)) → List (QByteArray × Addr) →
    Option (List (ReceivedReply Addr)) × List (Output Addr)
  | mine, [] => (mine, [])
  | mine, frame :: frames =>
    let first := hostFrame id key host mine frame
    let rest := hostRun id key host first.1 frames
    (rest.1, first.2 ++ rest.2)

section Host

variable (id : ReplyId) (key : Token) (host : Addr)

/-- Frames of other hosts are nothing to it. -/
theorem hostFrame_of_ne (mine : Option (List (ReceivedReply Addr))) {frame : QByteArray × Addr}
    (other : frame.2 ≠ host) : hostFrame id key host mine frame = (mine, []) := by
  unfold hostFrame
  split
  · rw [if_neg fun own => other own.1]
  · rfl

theorem hostRun_filter (mine : Option (List (ReceivedReply Addr)))
    (frames : List (QByteArray × Addr)) :
    hostRun id key host mine (frames.filter fun frame => frame.2 = host) =
      hostRun id key host mine frames := by
  induction frames generalizing mine with
  | nil => rfl
  | cons frame frames ih =>
    by_cases own : frame.2 = host
    · rw [List.filter_cons_of_pos (by simpa using own)]
      simp only [hostRun, ih]
    · rw [List.filter_cons_of_neg (by simpa using own), ih]
      simp [hostRun, hostFrame_of_ne id key host mine own]

end Host

theorem repliesOf_append (host : Addr) (replies replies' : List (ReceivedReply Addr)) :
    repliesOf host (replies ++ replies') = repliesOf host replies ++ repliesOf host replies' :=
  List.filter_append ..

theorem repliesOf_singleton (host : Addr) (reply : ReceivedReply Addr) :
    repliesOf host [reply] = if reply.senderAddress = host then [reply] else [] := by
  simp [repliesOf, List.filter_singleton]

namespace ExchangeData

variable {e : ExchangeData Addr} {id : ReplyId} {reply : ReceivedReply Addr} {blockSize : Nat}
  {messageId : UInt16} {host : Addr}

/-- What is forwarded depends on the replies of the sender only. -/
theorem forwarded_eq (e : ExchangeData Addr) (small : reply.currentBlockNumber < 2 ^ 31) :
    e.forwarded reply = { reply with
      message := { reply.message with
        payload := mergedPayload (repliesOf reply.senderAddress e.replies ++ [reply]) } } := by
  have payload := payload_assembled_multicast e.replies small
  have mine : (e.replies ++ [reply]).filter (fun r => r.senderAddress = reply.senderAddress) =
      repliesOf reply.senderAddress e.replies ++ [reply] := by
    rw [List.filter_append]
    simp [repliesOf]
  rw [mine] at payload
  rw [← payload, forwarded]
  simp only [assembled]
  split_ifs <;> rfl

theorem handsOn_eq_false {os : List (Output Addr)} (none : ∀ o ∈ os, o.response? id = none) :
    os.filter (Output.handsOn id host) = [] := by
  rw [List.filter_eq_nil_iff]
  intro o ho
  simp [Output.handsOn, none o ho]

theorem replies_of_continues (continues : reply.continues = true) :
    ∃ e', (e.receive blockSize reply messageId).1 = some e' ∧
      e'.replies = e.replies ++ [reply] := by
  obtain ⟨request, host, received⟩ := e.receive_of_continues continues
  rw [received]
  exact ⟨_, rfl, replies_stored e reply⟩

/-- A reply of the host does to the exchange what it does to the exchange of the host alone. -/
theorem Multicasts.of_host (h : e.Multicasts id) (blockSize : Nat) (messageId : UInt16)
    (own : reply.senderAddress = host)
    (small : reply.currentBlockNumber < 2 ^ 31) :
    (e.receive blockSize reply messageId).1.map (fun e' => repliesOf host e'.replies) =
        (hostReceive id (repliesOf host e.replies) reply).1 ∧
      (e.receive blockSize reply messageId).2.filter (Output.handsOn id host) =
        (hostReceive id (repliesOf host e.replies) reply).2 := by
  subst own
  have acknowledged : ((e.store reply).acknowledge reply).filter
      (Output.handsOn id reply.senderAddress) = [] :=
    handsOn_eq_false fun o => response?_acknowledge
  have mine : repliesOf reply.senderAddress [reply] = [reply] := by
    rw [repliesOf_singleton, if_pos rfl]
  cases error : isError reply.responseCode with
  | true =>
    rw [receive_of_error e error, hostReceive, if_pos error]
    have user : (e.store reply).userReply = some id := h.user
    refine ⟨rfl, ?_⟩
    simp [fail, errorPosts, user, Output.handsOn, Output.response?]
  | false =>
    cases continues : reply.continues with
    | true =>
      obtain ⟨e', left, replies⟩ :=
        @replies_of_continues Addr _ e reply blockSize messageId continues
      rw [left, hostReceive, if_neg (by simp [error]), if_pos continues]
      refine ⟨?_, handsOn_eq_false fun o => response?_of_continues continues⟩
      rw [Option.map_some, replies, repliesOf_append, mine]
    | false =>
      cases empty : reply.isEmptyAcknowledgment with
      | true =>
        rw [h.receive_acknowledgment error continues empty, hostReceive,
          if_neg (by simp [error]), if_neg (by simp [continues]), if_pos empty]
        exact ⟨rfl, acknowledged⟩
      | false =>
        rw [h.receive_last error continues empty, hostReceive, if_neg (by simp [error]),
          if_neg (by simp [continues]), if_neg (by simp [empty])]
        have sender : (e.forwarded reply).senderAddress = reply.senderAddress :=
          senderAddress_assembled ..
        refine ⟨?_, ?_⟩
        · rw [Option.map_some, repliesOf_append, repliesOf_singleton, if_pos sender,
            forwarded_eq e small]
        · rw [List.filter_append, acknowledged, forwarded_eq e small]
          simp [Output.handsOn, Output.response?]

/-- A reply of another host that is no error leaves that alone. -/
theorem Multicasts.of_other (h : e.Multicasts id) (blockSize : Nat) (messageId : UInt16)
    (other : reply.senderAddress ≠ host)
    (noError : isError reply.responseCode = false) :
    (e.receive blockSize reply messageId).1.map (fun e' => repliesOf host e'.replies) =
        some (repliesOf host e.replies) ∧
      (e.receive blockSize reply messageId).2.filter (Output.handsOn id host) = [] := by
  have acknowledged : ((e.store reply).acknowledge reply).filter (Output.handsOn id host) = [] :=
    handsOn_eq_false fun o => response?_acknowledge
  cases continues : reply.continues with
  | true =>
    obtain ⟨e', left, replies⟩ :=
      @replies_of_continues Addr _ e reply blockSize messageId continues
    refine ⟨?_, handsOn_eq_false fun o => response?_of_continues continues⟩
    rw [left, Option.map_some, replies, repliesOf_append, repliesOf_singleton, if_neg other,
      List.append_nil]
  | false =>
    cases empty : reply.isEmptyAcknowledgment with
    | true =>
      rw [h.receive_acknowledgment noError continues empty]
      exact ⟨rfl, acknowledged⟩
    | false =>
      rw [h.receive_last noError continues empty]
      refine ⟨?_, ?_⟩
      · rw [Option.map_some, repliesOf_append, repliesOf_singleton, if_neg, List.append_nil]
        rw [forwarded, senderAddress_assembled]
        exact other
      · rw [List.filter_append, acknowledged]
        simp [Output.handsOn, Output.response?, other]

end ExchangeData

namespace Protocol

variable {s t : Protocol Addr} {os : List (Output Addr)} {id : ReplyId} {key : Token} {host : Addr}
  {mine : Option (List (ReceivedReply Addr))}

/-- The exchange stored under the key, if there is one, is the multicast exchange of the user reply,
and `mine` is what it holds of the host. -/
structure Sees (id : ReplyId) (key : Token) (host : Addr) (s : Protocol Addr)
    (mine : Option (List (ReceivedReply Addr))) : Prop where
  consistent : s.Consistent
  own : ∀ k, s.Owns k id → k = key
  exchange : (s.exchangeMap.find? key).map (fun e => repliesOf host e.replies) = mine
  multicasts : ∀ e, s.exchangeMap.find? key = some e → e.Multicasts id

/-- No error of another host is added to the exchange. What is added of the host itself has the
token of the exchange, unless it is a mere Acknowledgment, and a block number that is positive as
an `int`. -/
def Undisturbed (key : Token) (host : Addr) (s : Protocol Addr) (event : Event Addr) : Prop :=
  ∀ data reply draws e, event = .frameReceived data reply.senderAddress draws →
    s.Admits data reply key e →
    (reply.senderAddress ≠ host → isError reply.responseCode = false) ∧
    (reply.senderAddress = host → reply.currentBlockNumber < 2 ^ 31 ∧
      (reply.message.token = key ∨
        reply.isEmptyAcknowledgment = true ∧ reply.continues = false))

/-- The exchange after it has received a reply. -/
theorem Sees.received (h : s.Sees id key host mine) {data : QByteArray}
    {reply : ReceivedReply Addr} {e : ExchangeData Addr} {messageId : UInt16}
    (admits : s.Admits data reply key e) (consistent : t.Consistent)
    (after : (t, os) = s.apply key (e.receive s.blockSize reply messageId))
    {mine' : Option (List (ReceivedReply Addr))}
    (seen : (e.receive s.blockSize reply messageId).1.map (fun e' => repliesOf host e'.replies) =
      mine') : t.Sees id key host mine' := by
  obtain ⟨rfl, -⟩ := Prod.mk.inj after
  have multicasts := h.multicasts e admits.found
  refine ⟨consistent, ?_, ?_, ?_⟩
  · intro k owns
    obtain ⟨e', found, user⟩ := owns
    rw [find?_setExchange] at found
    split_ifs at found with own
    · exact own
    · exact h.own k ⟨e', found, user⟩
  · rw [find?_setExchange, if_pos rfl]
    exact seen
  · intro e' found
    rw [find?_setExchange, if_pos rfl] at found
    exact multicasts.left found

/-- A frame for another exchange leaves this one alone. -/
theorem Sees.elsewhere (h : s.Sees id key host mine) {data : QByteArray}
    {reply : ReceivedReply Addr} {k : Token} {e : ExchangeData Addr} {messageId : UInt16}
    (admits : s.Admits data reply k e) (other : k ≠ key) (consistent : t.Consistent)
    (after : (t, os) = s.apply k (e.receive s.blockSize reply messageId)) :
    t.Sees id key host mine ∧ os.filter (Output.handsOn id host) = [] := by
  obtain ⟨rfl, rfl⟩ := Prod.mk.inj after
  have same : (s.setExchange k (e.receive s.blockSize reply messageId).1).exchangeMap.find? key =
      s.exchangeMap.find? key := by
    rw [find?_setExchange, if_neg (Ne.symm other)]
  refine ⟨⟨consistent, ?_, ?_, ?_⟩, ?_⟩
  · intro k' owns
    obtain ⟨e', found, user⟩ := owns
    rw [find?_setExchange] at found
    split_ifs at found with own
    · have back := (ExchangeData.receive_kept found).1.userReply
      exact own.trans (h.own k ⟨e, admits.found, back.symm.trans user⟩)
    · exact h.own k' ⟨e', found, user⟩
  · rw [same]
    exact h.exchange
  · rw [same]
    exact h.multicasts
  · apply ExchangeData.handsOn_eq_false
    intro o out
    cases response : o.response? id with
    | none => rfl
    | some message =>
      have user := ExchangeData.userReply_of_response? out response
      exact absurd (h.own k ⟨e, admits.found, user⟩) other

/-- Whoever sends a frame with its token is admitted to the exchange. -/
theorem Sees.admits (h : s.Sees id key host mine) {data : QByteArray} {sender : Addr}
    {r : InternalReply} {e : ExchangeData Addr} (found : s.exchangeMap.find? key = some e)
    (decoded : createFromFrame (Platform.junk Addr) data = .ok r) (token : r.message.token = key) :
    s.Admits data { r with senderAddress := sender } key e := by
  have registered : s.isTokenRegistered key = true := by
    have listed : s.exchangeMap.contains key = true :=
      (Framework.OrderedMap.contains_iff ..).mpr ⟨e, found⟩
    simp [isTokenRegistered, listed]
  have key_ne := (h.consistent.registered found).key_ne
  have target : s.frameTarget r.message = some r.message.token :=
    frameTarget_of_registered (token ▸ key_ne) (token ▸ registered)
  refine ⟨decoded, target.trans (congrArg some token), found, ?_⟩
  have multicast := (h.multicasts e found).multicast
  simp only [InternalRequest.isMulticast] at multicast
  simp [senderAdmissible, multicast]

/-- A frame without the token, or of another host, does nothing to the exchange of the host. -/
theorem Sees.quiet (h : s.Sees id key host mine) {data : QByteArray} {draws : Draws}
    {reply : ReceivedReply Addr} {e : ExchangeData Addr} (admits : s.Admits data reply key e)
    (undisturbed : s.Undisturbed key host (.frameReceived data reply.senderAddress draws))
    (foreign : ¬ (reply.senderAddress = host ∧ reply.message.token = key))
    (messageId : UInt16) :
    (e.receive s.blockSize reply messageId).1.map (fun e' => repliesOf host e'.replies) =
        some (repliesOf host e.replies) ∧
      (e.receive s.blockSize reply messageId).2.filter (Output.handsOn id host) = [] := by
  have multicasts := h.multicasts e admits.found
  obtain ⟨outer, inner⟩ := undisturbed data reply draws e rfl admits
  by_cases sender : reply.senderAddress = host
  · obtain ⟨small, token | ⟨empty, final⟩⟩ := inner sender
    · exact absurd ⟨sender, token⟩ foreign
    · have code : reply.responseCode = ResponseCode.emptyMessage := (of_decide_eq_true empty).2
      have noError : isError reply.responseCode = false := by
        rw [code]
        rfl
      have alone := multicasts.of_host s.blockSize messageId sender small
      rw [hostReceive, if_neg (by simp [noError]), if_neg (by simp [final]), if_pos empty] at alone
      exact alone
  · exact multicasts.of_other s.blockSize messageId sender (outer sender)

/-- What a frame does to the exchange is, for a host, what it does to the exchange of the host
alone. -/
theorem Sees.frame (h : s.Sees id key host mine) {data : QByteArray} {sender : Addr}
    {draws : Draws} (step : Step s (.frameReceived data sender draws) os t)
    (undisturbed : s.Undisturbed key host (.frameReceived data sender draws)) :
    t.Sees id key host (hostFrame id key host mine (data, sender)).1 ∧
      os.filter (Output.handsOn id host) = (hostFrame id key host mine (data, sender)).2 := by
  have consistent := h.consistent.step step
  by_cases concerns : ∃ e r, s.exchangeMap.find? key = some e ∧
      createFromFrame (Platform.junk Addr) data = .ok r ∧ sender = host ∧ r.message.token = key
  · obtain ⟨e, r, found, decoded, rfl, token⟩ := concerns
    have multicasts := h.multicasts e found
    have known : mine = some (repliesOf sender e.replies) := by
      rw [← h.exchange, found]
      rfl
    let reply : ReceivedReply Addr := { r with senderAddress := sender }
    have admits : s.Admits data reply key e := h.admits found decoded token
    obtain ⟨messageId, -, after⟩ := apply_of_admits h.consistent admits step
    have small := ((undisturbed data reply draws e rfl admits).2 rfl).1
    obtain ⟨left, outputs⟩ := multicasts.of_host s.blockSize messageId rfl small
    have seen : hostFrame id key sender mine (data, sender) =
        hostReceive id (repliesOf sender e.replies) reply := by
      rw [known]
      simp only [hostFrame, decoded, true_and, if_pos token, reply]
    rw [seen]
    refine ⟨h.received admits consistent after left, ?_⟩
    rw [(Prod.mk.inj after).2]
    exact outputs
  · have seen : hostFrame id key host mine (data, sender) = (mine, []) := by
      unfold hostFrame
      split
      · rename_i replies r decoded
        rw [if_neg]
        rintro ⟨own, token⟩
        obtain ⟨e, found, -⟩ := Option.map_eq_some_iff.mp h.exchange
        exact concerns ⟨e, r, found, decoded, own, token⟩
      · rfl
    rw [seen]
    rcases onFrameReceived_cases step.2 with ⟨fault, -, failed⟩ | dropped | admitted
    · cases failed
    · obtain ⟨rfl, rfl⟩ := Prod.mk.inj (Except.ok.inj dropped)
      exact ⟨h, rfl⟩
    · obtain ⟨reply, k, e, rfl, admits⟩ := admitted
      obtain ⟨messageId, -, after⟩ := apply_of_admits h.consistent admits step
      by_cases own : k = key
      · subst own
        have known : mine = some (repliesOf host e.replies) := by
          rw [← h.exchange, admits.found]
          rfl
        have foreign : ¬ (reply.senderAddress = host ∧ reply.message.token = k) := by
          rintro ⟨sender, token⟩
          exact concerns ⟨e, _, admits.found, admits.decoded, sender, token⟩
        have quiet := h.quiet admits undisturbed foreign messageId
        rw [known]
        refine ⟨h.received admits consistent after quiet.1, ?_⟩
        rw [(Prod.mk.inj after).2]
        exact quiet.2
      · exact h.elsewhere admits own consistent after

end Protocol

/-- The frame that arrives, and who sent it. -/
def Event.frame? : Event Addr → Option (QByteArray × Addr)
  | .frameReceived data sender _ => some (data, sender)
  | _ => none

/-- All that happens in the run is that these frames arrive. -/
def Arrive (frames : List (QByteArray × Addr))
    (tr : List (Framework.Transition (Protocol Addr) (Event Addr) (Output Addr))) : Prop :=
  tr.map (·.event.frame?) = frames.map some

namespace Protocol

variable {s t : Protocol Addr} {os : List (Output Addr)} {id : ReplyId} {key : Token} {host : Addr}
  {mine : Option (List (ReceivedReply Addr))} {frames : List (QByteArray × Addr)}

/-- What a run of frames does to the exchange is, for a host, what it does to the exchange of the
host alone. -/
theorem Sees.run {tr : List (Framework.Transition (Protocol Addr) _ _)}
    (h : s.Sees id key host mine) (run : Framework.Run Step s tr t)
    (arrive : Arrive frames tr)
    (undisturbed : ∀ x ∈ tr, x.source.Undisturbed key host x.event) :
    t.Sees id key host (hostRun id key host mine frames).1 ∧
      (tr.flatMap (·.outputs)).filter (Output.handsOn id host) =
        (hostRun id key host mine frames).2 := by
  induction frames generalizing s mine tr with
  | nil =>
    have none : tr = [] := List.map_eq_nil_iff.mp arrive
    subst none
    have same : t = s := run.eq_of_nil
    subst same
    exact ⟨h, rfl⟩
  | cons frame frames ih =>
    cases tr with
    | nil => cases arrive
    | cons x tr =>
      rw [Arrive, List.map_cons, List.map_cons, List.cons.injEq] at arrive
      obtain ⟨source, first, rest⟩ := run.of_cons
      have quiet := undisturbed x (by simp)
      rw [source] at quiet
      have one : x.target.Sees id key host (hostFrame id key host mine frame).1 ∧
          x.outputs.filter (Output.handsOn id host) =
            (hostFrame id key host mine frame).2 := by
        have event := arrive.1
        cases kind : x.event with
        | frameReceived data sender draws =>
          rw [kind] at event first quiet
          have same : frame = (data, sender) := (Option.some.inj event).symm
          rw [same]
          exact h.frame first quiet
        | _ =>
          rw [kind] at event
          cases event
      obtain ⟨seen, outputs⟩ := ih one.1 rest arrive.2 fun y hy => undisturbed y (by simp [hy])
      refine ⟨seen, ?_⟩
      rw [List.flatMap_cons, List.filter_append, one.2, outputs, hostRun]

theorem Sees.of_reachable (reachable : s.Reachable) {e : ExchangeData Addr}
    (found : s.exchangeMap.find? key = some e) (multicasts : e.Multicasts id)
    (own : ∀ k, s.Owns k id → k = key) :
    s.Sees id key host (some (repliesOf host e.replies)) := by
  refine ⟨reachable.consistent, own, ?_, ?_⟩
  · rw [found]
    rfl
  · intro e' found'
    rw [← Option.some.inj (found.symm.trans found')]
    exact multicasts

/-- The hosts that answer a multicast request are independent: as long as nobody disturbs the
exchange of a host, what is handed on for it, and whether the exchange goes on, is the same when the
frames of all others are left out. -/
theorem responders_independent {tr tr' : List (Framework.Transition (Protocol Addr) _ _)}
    {t' : Protocol Addr} {e : ExchangeData Addr} (reachable : s.Reachable)
    (found : s.exchangeMap.find? key = some e) (multicasts : e.Multicasts id)
    (own : ∀ k, s.Owns k id → k = key)
    (all : Framework.Run Step s tr t) (arrive : Arrive frames tr)
    (alone : Framework.Run Step s tr' t')
    (arrive' : Arrive (frames.filter fun frame => frame.2 = host) tr')
    (undisturbed : ∀ x ∈ tr, x.source.Undisturbed key host x.event)
    (undisturbed' : ∀ x ∈ tr', x.source.Undisturbed key host x.event) :
    (tr.flatMap (·.outputs)).filter (Output.handsOn id host) =
        (tr'.flatMap (·.outputs)).filter (Output.handsOn id host) ∧
      (t.exchangeMap.find? key).isSome = (t'.exchangeMap.find? key).isSome := by
  have start : s.Sees id key host (some (repliesOf host e.replies)) :=
    Sees.of_reachable reachable found multicasts own
  obtain ⟨seen, outputs⟩ := start.run all arrive undisturbed
  obtain ⟨seen', outputs'⟩ := start.run alone arrive' undisturbed'
  rw [hostRun_filter] at seen' outputs'
  refine ⟨outputs.trans outputs'.symm, ?_⟩
  have same := congrArg Option.isSome (seen.exchange.trans seen'.exchange.symm)
  simpa using same

def isUndisturbed (key : Token) (host : Addr) : Event Addr → Bool
  | .frameReceived data sender _ =>
    match createFromFrame (Platform.junk Addr) data with
    | .ok reply =>
      if sender = host then
        decide (reply.currentBlockNumber < 2 ^ 31) && decide (reply.message.token = key)
      else !isError reply.responseCode
    | .error _ => true
  | _ => true

theorem undisturbed_of_check {event : Event Addr} (h : isUndisturbed key host event = true) :
    s.Undisturbed key host event := by
  rintro data reply draws e rfl admits
  simp only [isUndisturbed, admits.decoded] at h
  refine ⟨?_, ?_⟩
  · intro other
    simpa [if_neg other] using h
  · intro same
    rw [if_pos same, Bool.and_eq_true] at h
    exact ⟨of_decide_eq_true h.1, .inl (of_decide_eq_true h.2)⟩

/-- A request to a group has been sent. -/
def groupSent : Protocol IPv4Address :=
  GroupNetwork.groupAsked.protocol

theorem groupSent_exchange : ∃ e, groupSent.exchangeMap.find? [1, 2] = some e ∧
    e.Multicasts 0 ∧ ∀ k, groupSent.Owns k 0 → k = [1, 2] := by
  have known : (groupSent.exchangeMap.find? [1, 2]).isSome = true := by decide +kernel
  obtain ⟨e, found⟩ := Option.isSome_iff_exists.mp known
  refine ⟨e, found, ?_, ?_⟩
  · have user : e.userReply = some 0 := by
      have users : groupSent.exchangeMap.entries.all (fun entry =>
          entry.2.userReply = some 0) = true := by
        decide +kernel
      have mine := List.all_eq_true.mp users ([1, 2], e)
        ((Framework.OrderedMap.find?_eq_some_iff ..).mp found)
      exact of_decide_eq_true mine
    have opened := GroupNetwork.groupAsked_opened.exchange found user
    exact ⟨opened.2.1, opened.2.2.2.1, user⟩
  · intro k owns
    obtain ⟨e', found', user⟩ := owns
    exact (GroupNetwork.groupAsked_opened.exchange found' user).1

/-- The frames among the events. -/
def arrivals (events : List (Event IPv4Address)) : List (QByteArray × IPv4Address) :=
  events.filterMap Event.frame?

/-- The events in which frames of the host arrive. -/
def fromHost (host : IPv4Address) (events : List (Event IPv4Address)) : List (Event IPv4Address) :=
  events.filter fun event => event.frame?.any fun frame => frame.2 = host

theorem arrive_of_events {events : List (Event IPv4Address)}
    {tr : List (Framework.Transition (Protocol IPv4Address) (Event IPv4Address)
      (Output IPv4Address))}
    {frames : List (QByteArray × IPv4Address)} (taken : tr.map (·.event) = events)
    (all : events.map Event.frame? = frames.map some) : Arrive frames tr := by
  rw [Arrive, ← all, ← taken, List.map_map]
  rfl

/-- Two hosts answer, one of them in blocks. -/
theorem responders_independent_bothAnswer :
    ∃ tr t tr' t', Framework.Run Step groupSent tr t ∧ Framework.Run Step groupSent tr' t' ∧
      tr.length = 3 ∧ tr'.length = 2 ∧
      (tr.flatMap (·.outputs)).countP (Output.handsOn 0 serverAddress) = 2 ∧
      (tr.flatMap (·.outputs)).filter (Output.handsOn 0 serverAddress) =
        (tr'.flatMap (·.outputs)).filter (Output.handsOn 0 serverAddress) ∧
      (t.exchangeMap.find? [1, 2]).isSome = (t'.exchangeMap.find? [1, 2]).isSome := by
  have ran : (Framework.execute handle groupSent GroupNetwork.bothAnswer).any (fun result =>
      result.1.length == 3 &&
      (result.1.flatMap (·.outputs)).countP (Output.handsOn 0 serverAddress) == 2 &&
      result.1.all (fun x => isUndisturbed [1, 2] serverAddress x.event)) = true := by
    decide +kernel
  have ran' : (Framework.execute handle groupSent
      (fromHost serverAddress GroupNetwork.bothAnswer)).any (fun result =>
      result.1.length == 2 &&
      result.1.all (fun x => isUndisturbed [1, 2] serverAddress x.event)) = true := by
    decide +kernel
  obtain ⟨tr, t, run, taken, facts⟩ := Framework.exists_run_of_execute Step step_of_handle ran
  obtain ⟨tr', t', run', taken', facts'⟩ :=
    Framework.exists_run_of_execute Step step_of_handle ran'
  simp only [Bool.and_eq_true, beq_iff_eq] at facts facts'
  obtain ⟨⟨length, responses⟩, undisturbed⟩ := facts
  obtain ⟨length', undisturbed'⟩ := facts'
  have arrive : Arrive (arrivals GroupNetwork.bothAnswer) tr :=
    arrive_of_events taken rfl
  have arrive' : Arrive ((arrivals GroupNetwork.bothAnswer).filter
      fun frame => frame.2 = serverAddress) tr' :=
    arrive_of_events taken' rfl
  obtain ⟨e, found, multicasts, own⟩ := groupSent_exchange
  refine ⟨tr, t, tr', t', run, run', length, length', responses, ?_⟩
  exact responders_independent GroupNetwork.groupAsked_reachable found multicasts own run arrive
    run' arrive' (fun x hx => undisturbed_of_check (List.all_eq_true.mp undisturbed x hx))
    fun x hx => undisturbed_of_check (List.all_eq_true.mp undisturbed' x hx)

/-- One host does not have the resource, another one has. -/
def notFoundFirst : List (Event IPv4Address) :=
  [.frameReceived [0x52, 0x84, 0x30, 0x39, 0x01, 0x02] GroupNetwork.otherAddress [],
    .frameReceived (Network.blockFrame 0x00 GroupNetwork.shortText) serverAddress []]

/-- The answer of the second host is lost: the error has ended the exchange. -/
theorem notFoundFirst_ends : groupSent.Reachable ∧
    (∃ e, groupSent.exchangeMap.find? [1, 2] = some e ∧ e.Multicasts 0 ∧
      ∀ k, groupSent.Owns k 0 → k = [1, 2]) ∧
    ∃ (frames : List (QByteArray × IPv4Address)) (tr tr' : List (Framework.Transition
        (Protocol IPv4Address) (Event IPv4Address) (Output IPv4Address)))
        (t t' : Protocol IPv4Address),
      Framework.Run Step groupSent tr t ∧ Arrive frames tr ∧
      Framework.Run Step groupSent tr' t' ∧
      Arrive (frames.filter fun frame => frame.2 = serverAddress) tr' ∧
      (tr.flatMap (·.outputs)).countP (Output.handsOn 0 serverAddress) = 0 ∧
      (tr'.flatMap (·.outputs)).countP (Output.handsOn 0 serverAddress) = 2 ∧
      t.exchangeMap.find? [1, 2] = none ∧ t'.exchangeMap.find? [1, 2] ≠ none := by
  have ran : (Framework.execute handle groupSent notFoundFirst).any (fun result =>
      (result.1.flatMap (·.outputs)).countP (Output.handsOn 0 serverAddress) == 0 &&
      (result.2.exchangeMap.find? [1, 2]).isNone) = true := by
    decide +kernel
  have ran' : (Framework.execute handle groupSent (fromHost serverAddress notFoundFirst)).any
      (fun result =>
      (result.1.flatMap (·.outputs)).countP (Output.handsOn 0 serverAddress) == 2 &&
      (result.2.exchangeMap.find? [1, 2]).isSome) = true := by
    decide +kernel
  obtain ⟨tr, t, run, taken, facts⟩ := Framework.exists_run_of_execute Step step_of_handle ran
  obtain ⟨tr', t', run', taken', facts'⟩ :=
    Framework.exists_run_of_execute Step step_of_handle ran'
  simp only [Bool.and_eq_true, beq_iff_eq] at facts facts'
  obtain ⟨none, gone⟩ := facts
  obtain ⟨two, stays⟩ := facts'
  refine ⟨GroupNetwork.groupAsked_reachable, groupSent_exchange, arrivals notFoundFirst, tr, tr',
    t, t', run, arrive_of_events taken rfl, run', arrive_of_events taken' rfl, none, two, ?_, ?_⟩
  · exact Option.isNone_iff_eq_none.mp gone
  · exact Option.ne_none_iff_isSome.mpr stays

end Protocol

end QtCoap
