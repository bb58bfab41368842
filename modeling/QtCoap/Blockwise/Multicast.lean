import QtCoap.Blockwise.Gathering
import QtCoap.Protocol.Retransmission

namespace QtCoap

variable {Addr : Type} [Platform Addr]

namespace GroupNetwork

variable {group : Group Addr} {name : QString} {id : ReplyId} {token : Token}
  {n n' : GroupNetwork Addr} {event : Event Addr} {os : List (Output Addr)}

/-- The exchange of the user reply is the one with the token; it gathers what the servers that its
requests have reached send. -/
structure Gathers (group : Group Addr) (name : QString) (id : ReplyId) (token : Token)
    (n : GroupNetwork Addr) : Prop where
  consistent : n.protocol.Consistent
  still : ∀ key e, n.protocol.exchangeMap.find? key = some e → e.request.Still Addr
  exchange : ∀ {key e}, n.protocol.exchangeMap.find? key = some e → e.userReply = some id →
    key = token ∧ Gathering group name id e ∧
      ∀ request ∈ n.requests, Prepared group name e.replies request

/-- A last block is not received again once it has been forwarded, unless it is the first block. -/
def LastOnce (token : Token) (n : GroupNetwork Addr) (event : Event Addr) : Prop :=
  ∀ data reply draws e, event = .frameReceived data reply.senderAddress draws →
    n.protocol.Admits data reply token e → isSuccess reply.responseCode = true →
    reply.hasNextBlock = false → ¬ Forwarded e.replies reply.senderAddress

/-- The exchange after the answer of a server. -/
theorem Gathers.received (h : n.Gathers group name id token) (named : group.Named name)
    {data : QByteArray} {draws : Draws} {reply : ReceivedReply Addr} {e e' : ExchangeData Addr}
    {messageId : UInt16}
    (possible : n.Possible group name id token (.frameReceived data reply.senderAddress draws))
    (once : n.LastOnce token (.frameReceived data reply.senderAddress draws))
    (admits : n.protocol.Admits data reply token e) (user : e.userReply = some id)
    (left : (e.receive n.protocol.blockSize reply messageId).1 = some e') :
    Gathering group name id e' ∧
      ∀ request ∈ n.requests ++ sentTo token (e.receive n.protocol.blockSize reply messageId).2,
        Prepared group name e'.replies request := by
  obtain ⟨-, gathering, prepared⟩ := h.exchange admits.found user
  have key_ne := (h.consistent.registered admits.found).key_ne
  unfold Possible at possible
  dsimp only at possible
  rw [admits.decoded] at possible
  have answers := possible admits.target
  have known : group reply.senderAddress ≠ none := by
    obtain ⟨responder, listens, -⟩ := answers
    rw [listens]
    simp
  have host_ne := (named.name_ne known).2
  have kept (same : e.replies ⊆ e'.replies) (request) (hr : request ∈ n.requests) :
      Prepared group name e'.replies request := (prepared request hr).mono same
  rcases isNext_of_answers answers prepared admits.decoded with
    ⟨responder, block⟩ | ⟨noError, final, empty, -⟩
  · have noError := not_isError_of_isSuccess block.success
    cases more : reply.hasNextBlock with
    | true =>
      obtain ⟨gathering', replies, asked⟩ := gathering.receive_next block more left
      refine ⟨gathering', ?_⟩
      intro request hr
      rcases List.mem_append.mp hr with old | new
      · exact kept (replies ▸ List.subset_append_left _ _) request old
      · obtain ⟨-, rfl⟩ :=
          ExchangeData.sentTo_receive key_ne noError block.noBlock1 host_ne left new
        rw [replies]
        exact block.prepared named gathering'.asked asked
    | false =>
      have fresh := once data reply draws e rfl admits block.success more
      obtain ⟨-, e'', received, gathering', grown⟩ := gathering.receive_last block more fresh
      rw [received] at left
      obtain rfl := Option.some.inj left
      refine ⟨gathering', ?_⟩
      intro request hr
      rcases List.mem_append.mp hr with old | new
      · exact kept grown request old
      · have asks := ExchangeData.sentTo_receive key_ne noError block.noBlock1 host_ne
          (congrArg Prod.fst received) new
        rw [asks.1] at more
        cases more
  · have nothing : reply.hasMoreBlocksToSend (Platform.junk Addr) = false ∧
        reply.hasNextBlock = false := by
      have both := final
      rw [ReceivedReply.continues, noError] at both
      exact Bool.or_eq_false_iff.mp both
    obtain ⟨gathering', replies⟩ := gathering.receive_acknowledgment noError final empty left
    refine ⟨gathering', ?_⟩
    intro request hr
    rcases List.mem_append.mp hr with old | new
    · exact kept (replies ▸ List.Subset.refl _) request old
    · have asks := ExchangeData.sentTo_receive key_ne noError nothing.1 host_ne left new
      rw [asks.1] at nothing
      cases nothing.2

/-- A step of the client that is possible in this network goes on gathering. -/
theorem Gathers.step (h : n.Gathers group name id token) (named : group.Named name)
    (step : Step group name id token n event os n') (once : n.LastOnce token event) :
    n'.Gathers group name id token := by
  have change := Protocol.step_change h.consistent step.protocol
  have consistent := h.consistent.step step.protocol
  refine ⟨consistent, change.still h.consistent h.still, ?_⟩
  intro key e' found' user
  rw [step.requests]
  have key_ne := (consistent.registered found').key_ne
  cases change with
  | @opened id' request connection draws messageId token' timeout registers after =>
    have other : id' ≠ id := by simpa [Possible, Event.sends] using step.possible
    obtain ⟨target, outputs⟩ := Prod.mk.inj after
    have found := found'
    rw [target, Protocol.find?_setExchange] at found
    split_ifs at found with own
    · obtain rfl := Option.some.inj found
      exact absurd (Option.some.inj user) other
    · obtain ⟨rfl, gathering, prepared⟩ := h.exchange found user
      have none : sentTo key os = [] := by
        rw [outputs]
        exact ExchangeData.sentTo_opened _ _ _ _ (Ne.symm own)
      rw [none, List.append_nil]
      exact ⟨rfl, gathering, prepared⟩
  | reacted k e reaction found reacts after =>
    obtain ⟨target, outputs⟩ := Prod.mk.inj after
    have stored := found'
    rw [target, Protocol.find?_setExchange] at stored
    split_ifs at stored with own
    · subst own
      have user' := (reacts.continues stored).userReply.symm.trans user
      obtain ⟨rfl, gathering, prepared⟩ := h.exchange found user'
      refine ⟨rfl, ?_⟩
      rw [outputs]
      cases reacts with
      | received messageId admits fresh =>
        exact h.received named step.possible once admits user' stored
      | timedOut runs =>
        rw [h.still key e found gathering.multicasts.multicast] at runs
        cases runs
      | spanReached runs => cases stored
      | expired runs => cases stored
      | aborted => cases stored
    · obtain ⟨rfl, gathering, prepared⟩ := h.exchange stored user
      rw [reacts.sentTo_eq_nil after consistent key_ne (Ne.symm own), List.append_nil]
      exact ⟨rfl, gathering, prepared⟩
  | passed each outputs =>
    obtain ⟨e, found, passes⟩ := Protocol.passes_to_some (found' ▸ each key)
    obtain ⟨rfl, gathering, prepared⟩ := h.exchange found (passes.userReply_of_some user)
    have none : sentTo key os = [] := by
      apply sentTo_eq_nil
      intro message method connection host port sent
      rcases outputs _ sent with ⟨id', same⟩ | ⟨error, same⟩
      · cases same
      · cases same
    rw [none, List.append_nil, passes.replies]
    exact ⟨rfl, gathering.passes passes user, prepared⟩

/-- What is handed on for a server is the representation it serves. -/
theorem Gathers.response (h : n.Gathers group name id token)
    (step : Step group name id token n event os n') (once : n.LastOnce token event)
    {o : Output Addr} (out : o ∈ os) {sender : Addr} {message : Message}
    (response : o.response? id = some (sender, message)) :
    ∃ responder ∈ group sender, message.payload = responder.server.representation := by
  obtain ⟨data, draws, reply, key, e, messageId, rfl, admits, rfl⟩ :=
    (Protocol.step_change h.consistent step.protocol).of_isResponse out
      (Output.isResponse_of_response? response)
  have user := ExchangeData.userReply_of_response? out response
  obtain ⟨rfl, gathering, prepared⟩ := h.exchange admits.found user
  have possible := step.possible
  unfold Possible at possible
  dsimp only at possible
  rw [admits.decoded] at possible
  rcases isNext_of_answers (possible admits.target) prepared admits.decoded with
    ⟨responder, block⟩ | ⟨noError, final, empty, -⟩
  · cases more : reply.hasNextBlock with
    | true =>
      rw [ExchangeData.response?_of_continues (block.continues.trans more) out] at response
      cases response
    | false =>
      have fresh := once data reply draws e rfl admits block.success more
      obtain ⟨payload, e', received, -, -⟩ := gathering.receive_last block more fresh
      rw [received] at out
      rcases List.mem_append.mp out with acknowledged | handed
      · rw [ExchangeData.response?_acknowledge acknowledged] at response
        cases response
      · have same : (reply.senderAddress, (e.forwarded reply).message) = (sender, message) := by
          simp only [List.mem_cons, List.not_mem_nil, or_false] at handed
          rcases handed with rfl | rfl
          · simpa [Output.response?] using response
          · simpa [Output.response?] using response
        obtain ⟨rfl, rfl⟩ := Prod.mk.inj same
        exact ⟨responder, block.listens, payload⟩
  · have received : e.receive n.protocol.blockSize reply messageId = _ :=
      gathering.multicasts.receive_acknowledgment noError final empty
    rw [received] at out
    rw [ExchangeData.response?_acknowledge out] at response
    cases response

/-- The exchange of the user reply is multicast and no observation, and asks for the first block;
nothing has been received for it yet. -/
structure Opened (name : QString) (id : ReplyId) (token : Token) (n : GroupNetwork Addr) :
    Prop where
  exchange : ∀ {key e}, n.protocol.exchangeMap.find? key = some e → e.userReply = some id →
    key = token ∧ e.request.isMulticast Addr = true ∧ e.request.targetUri.host = name ∧
      e.request.message.optionsNamed OptionName.observe = [] ∧
      askedBlock e.request.message = 0 ∧ e.replies = []
  requests : ∀ request ∈ n.requests, askedBlock request.1 = 0

theorem Opened.gathers (h : n.Opened name id token) (reachable : n.protocol.Reachable) :
    n.Gathers group name id token := by
  refine ⟨reachable.consistent, Protocol.Reachable.still reachable, ?_⟩
  intro key e found user
  obtain ⟨own, multicast, host, noObserve, asked, empty⟩ := h.exchange found user
  refine ⟨own, ⟨⟨multicast, noObserve, user⟩, host, ?_, by simp [empty], by simp [empty]⟩, ?_⟩
  · rw [asked]
    exact Nat.two_pow_pos 20
  · intro request hr
    have first := h.requests request hr
    refine ⟨?_, ?_⟩
    · rw [first]
      exact Nat.two_pow_pos 20
    · intro sender listens reaches k below
      omega

/-- Whatever the network does to the requests and answers: as long as no last block of a server is
received twice, what is handed on for a server is the representation it serves. -/
theorem multicast_integrity {tr : List (Framework.Transition (GroupNetwork Addr) _ _)}
    (named : group.Named name) (reachable : n.protocol.Reachable) (opened : n.Opened name id token)
    (run : Framework.Run (Step group name id token) n tr n')
    (once : ∀ x ∈ tr, x.source.LastOnce token x.event) :
    ∀ x ∈ tr, ∀ o ∈ x.outputs, ∀ sender message, o.response? id = some (sender, message) →
      ∃ responder ∈ group sender, message.payload = responder.server.representation := by
  have gathers := (run.along (P := Gathers group name id token)
    (fun x hx step before => before.step named step (once x hx)) (opened.gathers reachable)).2
  intro x hx o out sender message response
  have step := (run.forall_step (P := fun _ => True) (fun _ _ => trivial) trivial x hx).2
  exact (gathers x hx).1.response step (once x hx) out response

theorem step_of_handle (h : n.handle group name id token event = some (n', os)) :
    Step group name id token n event os n' := by
  unfold handle at h
  split_ifs at h with possible
  obtain ⟨⟨t, os'⟩, handled, same⟩ := Option.map_eq_some_iff.mp h
  obtain ⟨rfl, rfl⟩ := Prod.mk.inj same
  exact ⟨possible, Protocol.step_of_handle handled, rfl⟩

def isLastOnce (token : Token) (n : GroupNetwork Addr) : Event Addr → Bool
  | .frameReceived data sender _ =>
    match createFromFrame (Platform.junk Addr) data with
    | .ok reply => reply.hasNextBlock ||
      (n.protocol.exchangeMap.find? token).all (fun e => decide (¬ Forwarded e.replies sender))
    | .error _ => true
  | _ => true

theorem lastOnce_of_check (h : n.isLastOnce token event = true) : n.LastOnce token event := by
  rintro data reply draws e rfl admits success last
  simpa only [isLastOnce, admits.decoded, last, admits.found, Bool.false_or, Option.all_some,
    decide_eq_true_eq] using h

def groupName : QString := "224.0.1.187".toList

/-- A request to a group, without a word on blocks. -/
def groupRequest : Request :=
  { getRequest [1, 2] with
    message := { (getRequest [1, 2]).message with type := .nonConfirmable }
    uri := { (getRequest [1, 2]).uri with host := groupName } }

/-- It has just been sent. -/
def groupAsked : GroupNetwork IPv4Address where
  protocol := Protocol.after [.sendRequest (some 0) groupRequest 0 [7, 0]]
  requests := [({ (InternalRequest.ofRequest IPv4Address groupRequest).message with
    messageId := 7 }, groupName)]

theorem groupAsked_reachable : groupAsked.protocol.Reachable :=
  Protocol.reachable_after [.sendRequest (some 0) groupRequest 0 [7, 0]]

theorem groupAsked_opened : groupAsked.Opened groupName 0 [1, 2] := by
  refine ⟨?_, by decide⟩
  intro key e found user
  have entries : groupAsked.protocol.exchangeMap.entries.all (fun entry =>
      entry.1 = [1, 2] ∧ entry.2.request.isMulticast IPv4Address = true ∧
        entry.2.request.targetUri.host = groupName ∧
        entry.2.request.message.optionsNamed OptionName.observe = [] ∧
        askedBlock entry.2.request.message = 0 ∧ entry.2.replies.isEmpty) = true := by
    decide +kernel
  have own := List.all_eq_true.mp entries (key, e)
    ((Framework.OrderedMap.find?_eq_some_iff ..).mp found)
  simpa using own

def otherAddress : IPv4Address := some (10, 0, 0, 2)

/-- What the other server answers with, in one frame. -/
def shortText : QByteArray := [104, 105]

/-- Two servers, one of which answers in blocks. -/
def pair : Group IPv4Address := fun address =>
  if address = serverAddress then some ⟨Network.textServer, true⟩
  else if address = otherAddress then some ⟨⟨shortText, 16⟩, false⟩
  else none

theorem pair_named : pair.Named groupName := by
  have members {address : IPv4Address} (listens : pair address ≠ none) :
      address = serverAddress ∨ address = otherAddress := by
    by_contra neither
    rw [not_or] at neither
    exact listens (by simp [pair, neither])
  have names : (Platform.toString serverAddress : QString) ≠ Platform.toString otherAddress := by
    decide
  constructor
  · intro a b ha hb same
    rcases members ha with rfl | rfl <;> rcases members hb with rfl | rfl
    · rfl
    · exact absurd same names
    · exact absurd same.symm names
    · rfl
  · intro a ha
    rcases members ha with rfl | rfl <;> decide

/-- The two blocks of one server, with the answer of the other one between them. -/
def bothAnswer : List (Event IPv4Address) :=
  [.frameReceived (Network.blockFrame 0x08 (Network.textServer.block 0)) serverAddress [8, 0],
    .frameReceived ([0x52, 0x45, 0x30, 0x39, 0x01, 0x02, 0xFF] ++ shortText) otherAddress [],
    .frameReceived (Network.blockFrame 0x10 (Network.textServer.block 1)) serverAddress []]

theorem multicast_integrity_bothAnswer :
    ∃ (tr : List (Framework.Transition (GroupNetwork IPv4Address) (Event IPv4Address)
        (Output IPv4Address))) (n : GroupNetwork IPv4Address),
      Framework.Run (Step pair groupName 0 [1, 2]) groupAsked tr n ∧
      (tr.flatMap (·.outputs)).countP (fun o => (o.response? 0).isSome) = 4 ∧
      ∀ x ∈ tr, ∀ o ∈ x.outputs, ∀ sender message, o.response? 0 = some (sender, message) →
        ∃ responder ∈ pair sender, message.payload = responder.server.representation := by
  have ran : (Framework.execute (handle pair groupName 0 [1, 2]) groupAsked bothAnswer).any
      (fun result =>
        (result.1.flatMap (·.outputs)).countP (fun o => (o.response? 0).isSome) == 4 &&
          result.1.all (fun x => x.source.isLastOnce [1, 2] x.event)) = true := by
    decide +kernel
  obtain ⟨tr, n, run, -, facts⟩ :=
    Framework.exists_run_of_execute (Step pair groupName 0 [1, 2]) step_of_handle ran
  obtain ⟨responses, once⟩ := (Bool.and_eq_true ..).mp facts
  refine ⟨tr, n, run, by simpa using responses, ?_⟩
  exact multicast_integrity pair_named groupAsked_reachable groupAsked_opened run
    fun x hx => lastOnce_of_check (List.all_eq_true.mp once x hx)

/-- The last block of the server arrives twice. -/
def lastBlockTwice : List (Event IPv4Address) :=
  [.frameReceived (Network.blockFrame 0x08 (Network.textServer.block 0)) serverAddress [8, 0],
    .frameReceived (Network.blockFrame 0x10 (Network.textServer.block 1)) serverAddress [],
    .frameReceived (Network.blockFrame 0x10 (Network.textServer.block 1)) serverAddress []]

/-- The output forwards a payload of the server to the user. -/
def forwards (payload : QByteArray) : Output IPv4Address → Bool
  | .responseToMulticastReceived id message sender =>
    id == 0 && sender == serverAddress && message.payload == payload
  | _ => false

/-- The second time the first block is put before the whole representation. -/
theorem lastBlockTwice_garbles : pair.Named groupName ∧ groupAsked.protocol.Reachable ∧
    groupAsked.Opened groupName 0 [1, 2] ∧
    ∃ (tr : List (Framework.Transition (GroupNetwork IPv4Address) (Event IPv4Address)
        (Output IPv4Address))) (n : GroupNetwork IPv4Address),
      Framework.Run (Step pair groupName 0 [1, 2]) groupAsked tr n ∧
      ∃ x ∈ tr, ∃ message, .responseToMulticastReceived 0 message serverAddress ∈ x.outputs ∧
        message.payload =
          Network.textServer.block 0 ++ Network.textServer.representation ∧
        ∀ responder ∈ pair serverAddress, message.payload ≠ responder.server.representation := by
  have ran : (Framework.execute (handle pair groupName 0 [1, 2]) groupAsked lastBlockTwice).any
      (fun result => result.1.any (fun x => x.outputs.any (forwards
        (Network.textServer.block 0 ++ Network.textServer.representation)))) = true := by
    decide +kernel
  obtain ⟨tr, n, run, -, facts⟩ :=
    Framework.exists_run_of_execute (Step pair groupName 0 [1, 2]) step_of_handle ran
  obtain ⟨x, hx, facts⟩ := List.any_eq_true.mp facts
  obtain ⟨o, emitted, garbled⟩ := List.any_eq_true.mp facts
  refine ⟨pair_named, groupAsked_reachable, groupAsked_opened, tr, n, run, x, hx, ?_⟩
  unfold forwards at garbled
  split at garbled
  · rename_i id message sender
    simp only [Bool.and_eq_true, beq_iff_eq] at garbled
    obtain ⟨⟨rfl, rfl⟩, payload⟩ := garbled
    refine ⟨message, emitted, payload, ?_⟩
    intro responder listens
    obtain rfl : (⟨Network.textServer, true⟩ : Responder) = responder := Option.some.inj listens
    rw [payload]
    decide
  · cases garbled

end GroupNetwork

end QtCoap
