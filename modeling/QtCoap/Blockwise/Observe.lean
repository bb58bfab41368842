import QtCoap.Blockwise.Observation
import QtCoap.Protocol.Matching

namespace QtCoap

variable {Addr : Type} [Platform Addr]

namespace ExchangeData

variable {e : ExchangeData Addr} {id : ReplyId}

/-- A notification is posted right after its content. -/
theorem notified_finish {sender : Addr}
    (posted : .post id .setNotified ∈ (e.finish sender).2) :
    e.userReply = some id ∧ e.request.isObserve = true ∧
      ∃ last, e.replies.getLast? = some last ∧
        let whole := assembled (e.request.isMulticast Addr) e.replies last sender
        (e.finish sender).2 = [.post id (.setContent whole.senderAddress whole.message
          whole.responseCode), .post id .setNotified] := by
  unfold finish at posted ⊢
  cases user : e.userReply with
  | none => simp [user] at posted
  | some own =>
    cases last : e.replies.getLast? with
    | none => simp [user, last] at posted
    | some reply =>
      simp only [user, last] at posted ⊢
      split_ifs at posted with cancelled empty observe multicast
      · cases posted
      · cases posted
      · have same : id = own := by simpa using posted
        subst same
        rw [if_neg cancelled, if_neg empty, if_pos observe]
        exact ⟨rfl, observe, reply, rfl, rfl⟩
      · simp at posted
      · simp at posted

/-- It is posted when the last message is in. -/
theorem notified_receive {blockSize : Nat} {reply : ReceivedReply Addr} {messageId : UInt16}
    (posted : .post id .setNotified ∈ (e.receive blockSize reply messageId).2) :
    reply.continues = false ∧ isError reply.responseCode = false ∧ e.userReply = some id ∧
      e.request.isObserve = true ∧
      let whole := assembled (e.request.isMulticast Addr) (e.replies ++ [reply]) reply
        reply.senderAddress
      (e.receive blockSize reply messageId).2 = (e.store reply).acknowledge reply ++
        [.post id (.setContent whole.senderAddress whole.message whole.responseCode),
          .post id .setNotified] := by
  have before := continues_stored e reply
  cases error : isError reply.responseCode with
  | true =>
    rw [receive_of_error e error] at posted
    simp only [fail, errorPosts] at posted
    cases user : (e.store reply).userReply <;> simp [user] at posted
  | false =>
    cases continues : reply.continues with
    | true =>
      obtain ⟨request, host, received⟩ := e.receive_of_continues continues
      rw [received, List.mem_append] at posted
      rcases posted with acknowledged | sent
      · obtain ⟨_, _, _, _, _, same, -⟩ := mem_acknowledge acknowledged
        cases same
      · exact absurd sent (post_not_mem_transmit _ _ _ _)
    | false =>
      rw [receive_of_final e error continues, List.mem_append] at posted
      rcases posted with acknowledged | finished
      · obtain ⟨_, _, _, _, _, same, -⟩ := mem_acknowledge acknowledged
        cases same
      · obtain ⟨user, observe, last, stored, outputs⟩ := notified_finish finished
        have own : last = reply :=
          Option.some.inj (stored.symm.trans (last_dropObserve_store e reply))
        subst own
        rw [replies_stored, InternalRequest.isMulticast_of_identity Addr before.identity] at outputs
        rw [receive_of_final e error continues, outputs]
        have observing : e.request.isObserve = true := by
          have stored := isObserve_dropObserve observe
          simp only [InternalRequest.isObserve] at stored ⊢
          rwa [message_store] at stored
        exact ⟨rfl, rfl, before.userReply ▸ user, observing, rfl⟩

end ExchangeData

namespace Observation

variable {server : Addr} {id : ReplyId} {token : Token} {n n' : Observation Addr}
  {os : List (Output Addr)}

/-- The exchange of the user reply is the one with the token, and while it observes its replies are
what has arrived. The server sends what it has published. -/
structure Observing (server : Addr) (id : ReplyId) (token : Token) (n : Observation Addr) :
    Prop where
  consistent : n.protocol.Consistent
  exchange : ∀ {key e}, n.protocol.exchangeMap.find? key = some e → e.userReply = some id →
    key = token ∧ (e.request.isObserve = true →
      Arrived n.arriving e.replies ∧ ∀ r ∈ e.replies, r.senderAddress = server)
  sent : ∀ response ∈ n.responses, response.server ∈ n.published

theorem step_receive {response : Response} {data : QByteArray} {draws : Draws}
    (h : Step server id token n (.receive response data draws) os n') :
    response ∈ n.responses ∧ response.Encoded (Platform.junk Addr) token data ∧
      (∀ e, n.protocol.exchangeMap.find? token = some e →
        Protocol.senderAdmissible e.request server = true) ∧
      Protocol.Step n.protocol (.frameReceived data server draws) os n'.protocol ∧
      n' = { n.handled token (n'.protocol, os) with arriving := response.advance n.arriving } := by
  dsimp only [Step, handle] at h
  split_ifs at h with possible
  obtain ⟨sent, encoded, admissible⟩ := possible
  obtain ⟨⟨t, os'⟩, handled, same⟩ := Option.map_eq_some_iff.mp h
  obtain ⟨rfl, rfl⟩ := Prod.mk.inj same
  refine ⟨sent, encoded, ?_, Protocol.step_of_handle handled, rfl⟩
  intro e found
  simpa [found] using admissible

theorem step_client {event : Event Addr} (h : Step server id token n (.client event) os n') :
    n.Beside id token event ∧ Protocol.Step n.protocol event os n'.protocol ∧
      n' = n.handled token (n'.protocol, os) := by
  dsimp only [Step, handle] at h
  split_ifs at h with beside
  obtain ⟨⟨t, os'⟩, handled, same⟩ := Option.map_eq_some_iff.mp h
  obtain ⟨rfl, rfl⟩ := Prod.mk.inj same
  exact ⟨beside, Protocol.step_of_handle handled, rfl⟩

/-- What the server does leaves the client alone. -/
theorem step_server {event : ObserveEvent Addr} (h : Step server id token n event os n')
    (own : (∃ current blockwise, event = .publish current blockwise) ∨
      ∃ request blockwise, event = .answer request blockwise) :
    os = [] ∧ n'.protocol = n.protocol ∧ n'.arriving = n.arriving ∧
      ∃ response, n'.responses = n.responses ++ [response] ∧ n.published ⊆ n'.published ∧
        response.server ∈ n'.published := by
  rcases own with ⟨current, blockwise, rfl⟩ | ⟨request, blockwise, rfl⟩
  · obtain ⟨rfl, rfl⟩ := Prod.mk.inj (Option.some.inj h)
    refine ⟨rfl, rfl, rfl, _, rfl, by simp, ?_⟩
    cases blockwise <;> simp [Response.server]
  · obtain ⟨current, last, h⟩ := Option.bind_eq_some_iff.mp h
    have published := List.mem_of_getLast? last
    by_cases possible : request ∈ n.requests ∧ (blockwise = true ∨ askedBlock request = 0)
    · rw [if_pos possible] at h
      obtain ⟨rfl, rfl⟩ := Prod.mk.inj (Option.some.inj h)
      refine ⟨rfl, rfl, rfl, _, rfl, List.Subset.refl _, ?_⟩
      cases blockwise <;> simpa [Response.server] using published
    · rw [if_neg possible] at h
      cases h

/-- A response of the server is admitted to the exchange. -/
theorem Observing.admits (h : n.Observing server id token) {response : Response}
    {data : QByteArray} (encoded : response.Encoded (Platform.junk Addr) token data)
    {e : ExchangeData Addr} (found : n.protocol.exchangeMap.find? token = some e)
    (admissible : Protocol.senderAdmissible e.request server = true) :
    ∃ reply : ReceivedReply Addr, n.protocol.Admits data reply token e ∧
      reply.senderAddress = server ∧ response.CarriedBy reply.toInternalReply ∧
      reply.message.optionsNamed OptionName.block1 = [] := by
  obtain ⟨reply, decoded, own, carried, noBlock1⟩ := encoded.decoded
  have key_ne := (h.consistent.registered found).key_ne
  have registered : n.protocol.isTokenRegistered token = true := by
    have known : n.protocol.exchangeMap.contains token = true :=
      (Framework.OrderedMap.contains_iff ..).mpr ⟨e, found⟩
    simp [Protocol.isTokenRegistered, known]
  have target : n.protocol.frameTarget reply.message = some reply.message.token :=
    Protocol.frameTarget_of_registered (own ▸ key_ne) (own ▸ registered)
  exact ⟨{ reply with senderAddress := server }, ⟨decoded, target.trans (congrArg some own), found,
    admissible⟩, rfl, carried, noBlock1⟩

/-- A response that reaches the client leaves the exchange observing. -/
theorem Observing.receive (h : n.Observing server id token) {response : Response}
    {data : QByteArray} {draws : Draws}
    (step : Step server id token n (.receive response data draws) os n')
    (continues : response.continues n.arriving = true) : n'.Observing server id token := by
  obtain ⟨sent, encoded, admissible, protocol, after⟩ := step_receive step
  have arriving : n'.arriving = response.advance n.arriving := by rw [after]
  have consistent := h.consistent.step protocol
  refine ⟨consistent, ?_, by rw [after]; exact h.sent⟩
  intro key e' found' user
  have owns : n.protocol.Owns key id := by
    obtain ⟨_, back⟩ := (Protocol.step_change h.consistent protocol).owns id
    rcases back key ⟨e', found', user⟩ with owns | ⟨sends, -⟩
    · exact owns
    · cases sends
  obtain ⟨e, found, user'⟩ := owns
  obtain ⟨rfl, observed⟩ := h.exchange found user'
  refine ⟨rfl, ?_⟩
  intro observe
  obtain ⟨reply, admits, rfl, carried, noBlock1⟩ := h.admits encoded found (admissible e found)
  obtain ⟨messageId, fresh, applied⟩ := Protocol.apply_of_admits h.consistent admits protocol
  have left : (e.receive n.protocol.blockSize reply messageId).1 = some e' := by
    rw [(Prod.mk.inj applied).1, Protocol.find?_setExchange, if_pos rfl] at found'
    exact found'
  have reacts : e.Reacts n.protocol key (.frameReceived data reply.senderAddress draws) _ :=
    .received messageId admits fresh
  obtain ⟨arrived, senders⟩ := observed (reacts.isObserve left observe)
  obtain ⟨arrived', kept⟩ := ExchangeData.receive_arrived arrived continues carried noBlock1
    admits.decoded left observe
  refine ⟨arriving ▸ arrived', ?_⟩
  intro r hr
  rcases List.mem_append.mp (kept hr) with old | new
  · exact senders r old
  · obtain rfl := List.mem_singleton.mp new
    rfl

/-- So does everything else that happens to the client. -/
theorem Observing.client (h : n.Observing server id token) {event : Event Addr}
    (step : Step server id token n (.client event) os n') : n'.Observing server id token := by
  obtain ⟨beside, protocol, after⟩ := step_client step
  have arriving : n'.arriving = n.arriving := by rw [after]; rfl
  refine ⟨h.consistent.step protocol, ?_, by rw [after]; exact h.sent⟩
  intro key e' found' user
  rw [arriving]
  cases (Protocol.step_change h.consistent protocol).origin found' with
  | opened messageId timeout registers made =>
    have other := beside
    obtain rfl := Option.some.inj made
    obtain rfl := Option.some.inj user
    simp [Beside, Event.sends] at other
  | reacted e reaction found reacts left =>
    obtain ⟨own, observed⟩ := h.exchange found ((reacts.continues left).userReply.symm.trans user)
    refine ⟨own, ?_⟩
    intro observe
    have before := observed (reacts.isObserve left observe)
    suffices same : e'.replies = e.replies by
      rw [same]
      exact before
    cases reacts with
    | received messageId admits fresh =>
      unfold Beside at beside
      dsimp only at beside
      rw [admits.decoded] at beside
      obtain ⟨request, -, acknowledges⟩ := beside (own ▸ admits.target)
      exact ExchangeData.receive_acknowledgment acknowledges admits.decoded left
    | timedOut runs => exact (ExchangeData.timeout_kept left).2.2
    | spanReached runs => cases left
    | expired runs => cases left
    | aborted => cases left
  | passed e found passes =>
    obtain ⟨own, observed⟩ := h.exchange found (passes.userReply_of_some user)
    refine ⟨own, ?_⟩
    intro observe
    rw [passes.replies]
    exact observed (passes.isObserve.symm.trans observe)

theorem Observing.step (h : n.Observing server id token) {event : ObserveEvent Addr}
    (step : Step server id token n event os n')
    (inOrder : ∀ response data draws, event = .receive response data draws →
      response.continues n.arriving = true) : n'.Observing server id token := by
  have served (own : (∃ current blockwise, event = .publish current blockwise) ∨
      ∃ request blockwise, event = .answer request blockwise) :
      n'.Observing server id token := by
    obtain ⟨-, protocol, arriving, response, responses, published, known⟩ := step_server step own
    refine ⟨protocol ▸ h.consistent, by rw [protocol, arriving]; exact h.exchange, ?_⟩
    intro response' sent
    rw [responses] at sent
    rcases List.mem_append.mp sent with old | new
    · exact published (h.sent response' old)
    · obtain rfl := List.mem_singleton.mp new
      exact known
  cases event with
  | publish current blockwise => exact served (.inl ⟨current, blockwise, rfl⟩)
  | answer request blockwise => exact served (.inr ⟨request, blockwise, rfl⟩)
  | receive response data draws => exact h.receive step (inOrder response data draws rfl)
  | client event => exact h.client step

/-- The notification that a step posts is a whole that has been published. -/
theorem Observing.notified (h : n.Observing server id token) {event : ObserveEvent Addr}
    (step : Step server id token n event os n')
    (inOrder : ∀ response data draws, event = .receive response data draws →
      response.continues n.arriving = true) (posted : .post id .setNotified ∈ os) :
    ∃ front sender message code, ∃ server' ∈ n.published,
      os = front ++ [.post id (.setContent sender message code), .post id .setNotified] ∧
        message.payload = server'.representation := by
  have moved : ∃ event', Protocol.Step n.protocol event' os n'.protocol ∧
      ((∃ response data draws, event = .receive response data draws ∧
        event' = .frameReceived data server draws) ∨ event = .client event') := by
    cases event with
    | publish current blockwise =>
      rw [(step_server step (.inl ⟨_, _, rfl⟩)).1] at posted
      cases posted
    | answer request blockwise =>
      rw [(step_server step (.inr ⟨_, _, rfl⟩)).1] at posted
      cases posted
    | receive response data draws =>
      exact ⟨_, (step_receive step).2.2.2.1, .inl ⟨response, data, draws, rfl, rfl⟩⟩
    | client event => exact ⟨event, (step_client step).2.1, .inr rfl⟩
  obtain ⟨event', protocol, kind⟩ := moved
  obtain ⟨data, draws, reply, key, e, messageId, rfl, admits, rfl⟩ :=
    (Protocol.step_change h.consistent protocol).of_isResponse posted rfl
  obtain ⟨final, noError, user, observe, outputs⟩ := ExchangeData.notified_receive posted
  obtain ⟨rfl, observed⟩ := h.exchange admits.found user
  obtain ⟨arrived, senders⟩ := observed observe
  rcases kind with ⟨response, data', draws', rfl, same⟩ | rfl
  · obtain ⟨rfl, rfl, rfl⟩ : data = data' ∧ reply.senderAddress = server ∧ draws = draws' := by
      simpa using same
    obtain ⟨sent, encoded, -⟩ := step_receive step
    obtain ⟨reply', decoded, -, carried, noBlock1⟩ := encoded.decoded
    have own : reply' = reply.toInternalReply :=
      Except.ok.inj (decoded.symm.trans admits.decoded)
    subst own
    obtain ⟨number, more⟩ := carried.block_fields decoded
    have last : response.more = false := by
      rw [← more]
      have both := final
      rw [ReceivedReply.continues, noError] at both
      simpa [InternalReply.hasMoreBlocksToReceive] using (Bool.or_eq_false_iff.mp both).2
    refine ⟨_, _, _, _, response.server, h.sent response sent, outputs, ?_⟩
    refine arrived.whole (inOrder response data draws rfl) carried number last ?_ _
    intro r hr
    rcases List.mem_append.mp hr with old | new
    · exact senders r old
    · rw [List.mem_singleton.mp new]
  · -- an Acknowledgment posts nothing
    obtain ⟨beside, -⟩ := step_client step
    unfold Beside at beside
    dsimp only at beside
    rw [admits.decoded] at beside
    obtain ⟨request, -, acknowledges⟩ := beside admits.target
    have content : Output.post id (.setContent _ _ _) ∈ (e.receive _ reply messageId).2 :=
      outputs ▸ List.mem_append_right _ List.mem_cons_self
    obtain ⟨code, error | ⟨-, notEmpty, -⟩⟩ := ExchangeData.content_receive content
    · rw [code, noError] at error
      cases error
    · exact absurd ⟨acknowledges.type, acknowledges.code⟩ notEmpty

/-- As long as every response that reaches the client goes on with the notification that is coming
in, each notification that is delivered is a whole that the server has published. -/
theorem notification_integrity {tr : List (Framework.Transition (Observation Addr) _ _)}
    (reachable : n.protocol.Reachable)
    (idle : ∀ key e, n.protocol.exchangeMap.find? key = some e → e.userReply = some id →
      key = token ∧ e.replies = [])
    (fresh : n.responses = [] ∧ n.arriving = none)
    (run : Framework.Run (Step server id token) n tr n')
    (inOrder : ∀ x ∈ tr, ∀ response data draws, x.event = .receive response data draws →
      response.continues x.source.arriving = true) :
    ∀ x ∈ tr, .post id .setNotified ∈ x.outputs →
      ∃ front sender message code, ∃ server' ∈ x.source.published,
        x.outputs = front ++ [.post id (.setContent sender message code), .post id .setNotified] ∧
          message.payload = server'.representation := by
  have start : n.Observing server id token := by
    refine ⟨reachable.consistent, ?_, by simp [fresh.1]⟩
    intro key e found user
    obtain ⟨own, empty⟩ := idle key e found user
    refine ⟨own, fun _ => ?_⟩
    rw [fresh.2, empty]
    exact ⟨rfl, by simp⟩
  have observing := (run.along (P := Observing server id token)
    (fun x hx step before => before.step step (inOrder x hx)) start).2
  intro x hx posted
  have step := (run.forall_step (P := fun _ => True) (fun _ _ => trivial) trivial x hx).2
  exact (observing x hx).1.notified step (inOrder x hx) posted

/-- The request to observe. -/
def observeRequest : Request :=
  { getRequest [1, 2] with
    message := (getRequest [1, 2]).message.addOption ⟨OptionName.observe, []⟩ }

def observeMessage (messageId : UInt16) : Message :=
  { (InternalRequest.ofRequest IPv4Address observeRequest).message with messageId := messageId }

/-- The observation has just been asked for. -/
def watching : Observation IPv4Address where
  protocol := Protocol.after [.sendRequest (some 0) observeRequest 0 [7, 0]]
  published := [Network.textServer]
  requests := [observeMessage 7]

theorem watching_idle (key : Token) (e : ExchangeData IPv4Address)
    (found : watching.protocol.exchangeMap.find? key = some e) (_ : e.userReply = some 0) :
    key = [1, 2] ∧ e.replies = [] := by
  have entries : watching.protocol.exchangeMap.entries.all (fun entry =>
      entry.1 == [1, 2] && entry.2.replies.isEmpty) = true := by
    decide +kernel
  have own := List.all_eq_true.mp entries (key, e)
    ((Framework.OrderedMap.find?_eq_some_iff ..).mp found)
  simpa using own

/-- The request for block 1. -/
def blockMessage : Message := (observeMessage 8).addOption ⟨OptionName.block2, [0x10]⟩

/-- What the server publishes next. -/
def nextText : BlockServer where
  representation := (List.range 20).map fun k => UInt8.ofNat (100 + k)
  size := 16

/-- Both blocks of the first representation arrive, then all of the second one. -/
def twoNotifications : List (ObserveEvent IPv4Address) :=
  [.answer (observeMessage 7) true,
    .receive (.block Network.textServer 0)
      (Network.blockFrame 0x08 (Network.textServer.block 0)) [8, 0],
    .answer blockMessage true,
    .receive (.block Network.textServer 1)
      (Network.blockFrame 0x10 (Network.textServer.block 1)) [],
    .publish nextText false,
    .receive (.whole nextText)
      ([0x52, 0x45, 0x30, 0x39, 0x01, 0x02, 0xFF] ++ nextText.representation) []]

def notifies (reply : ReplyId) (o : Output IPv4Address) : Bool :=
  match o with
  | .post id .setNotified => id = reply
  | _ => false

theorem notification_integrity_twoNotifications :
    ∃ (tr : List (Framework.Transition (Observation IPv4Address) (ObserveEvent IPv4Address)
        (Output IPv4Address))) (n : Observation IPv4Address),
      Framework.Run (Step serverAddress 0 [1, 2]) watching tr n ∧
      tr.countP (fun x => x.outputs.any (notifies 0)) = 2 ∧
      ∀ x ∈ tr, .post 0 .setNotified ∈ x.outputs →
        ∃ front sender message code, ∃ server' ∈ x.source.published,
          x.outputs = front ++ [.post 0 (.setContent sender message code), .post 0 .setNotified] ∧
            message.payload = server'.representation := by
  have ran : (Framework.execute (handle serverAddress 0 [1, 2]) watching twoNotifications).any
      (fun result => result.1.countP (fun x => x.outputs.any (notifies 0)) == 2 &&
        result.1.all (fun x => match x.event with
          | .receive response _ _ => response.continues x.source.arriving
          | _ => true)) = true := by
    decide +kernel
  obtain ⟨tr, n, run, -, facts⟩ := Framework.exists_run_of_execute
    (Step serverAddress 0 [1, 2]) (fun handled => handled) ran
  obtain ⟨notified, order⟩ := (Bool.and_eq_true ..).mp facts
  refine ⟨tr, n, run, by simpa using notified, ?_⟩
  refine notification_integrity (Protocol.reachable_after _) watching_idle ⟨rfl, rfl⟩ run ?_
  intro x hx response data draws event
  have own := List.all_eq_true.mp order x hx
  rw [event] at own
  exact own

/-- The server publishes while block 1 is still to be fetched. -/
def publishedBetween : List (ObserveEvent IPv4Address) :=
  [.answer (observeMessage 7) true,
    .receive (.block Network.textServer 0)
      (Network.blockFrame 0x08 (Network.textServer.block 0)) [8, 0],
    .publish nextText true,
    .answer blockMessage true,
    .receive (.block nextText 1) (Network.blockFrame 0x10 (nextText.block 1)) []]

/-- The output is content for the user that satisfies `p`. -/
def posts (p : Message → Bool) : Output IPv4Address → Bool
  | .post id (.setContent _ message _) => id == 0 && p message
  | _ => false

/-- The notification is then made of blocks of both representations. -/
theorem publishedBetween_mixes :
    (watching.protocol.exchangeMap.find? [1, 2]).any (fun e => e.request.isObserve) = true ∧
    ∃ (tr : List (Framework.Transition (Observation IPv4Address) (ObserveEvent IPv4Address)
        (Output IPv4Address))) (n : Observation IPv4Address),
      Framework.Run (Step serverAddress 0 [1, 2]) watching tr n ∧
      ∃ x ∈ tr, (∃ o ∈ x.outputs, notifies 0 o = true) ∧ ∃ sender message code,
        .post 0 (.setContent sender message code) ∈ x.outputs ∧
        message.payload = Network.textServer.block 0 ++ nextText.block 1 ∧
        ∀ server' ∈ x.source.published, message.payload ≠ server'.representation := by
  have ran : (Framework.execute (handle serverAddress 0 [1, 2]) watching publishedBetween).any
      (fun result => result.1.any (fun x => x.outputs.any (notifies 0) &&
        x.outputs.any (posts fun message =>
          message.payload == Network.textServer.block 0 ++ nextText.block 1 &&
          x.source.published.all (fun server' => message.payload != server'.representation)))) =
      true := by
    decide +kernel
  obtain ⟨tr, n, run, -, facts⟩ := Framework.exists_run_of_execute
    (Step serverAddress 0 [1, 2]) (fun handled => handled) ran
  obtain ⟨x, hx, facts⟩ := List.any_eq_true.mp facts
  obtain ⟨notified, content⟩ := (Bool.and_eq_true ..).mp facts
  obtain ⟨o, posted, mixed⟩ := List.any_eq_true.mp content
  refine ⟨by decide +kernel, tr, n, run, x, hx, List.any_eq_true.mp notified, ?_⟩
  unfold posts at mixed
  split at mixed
  · rename_i id sender message code
    simp only [Bool.and_eq_true, beq_iff_eq, List.all_eq_true, bne_iff_ne] at mixed
    obtain ⟨rfl, payload, differs⟩ := mixed
    exact ⟨sender, message, code, posted, payload, differs⟩
  · cases mixed

end Observation

end QtCoap
