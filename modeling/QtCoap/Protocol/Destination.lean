import QtCoap.Protocol.Transmission

namespace QtCoap

variable {Addr : Type} [Platform Addr]

/-- A frame goes over the connection of the request `r` to the port of its target, at one of the
hosts. -/
def Output.GoesTo (r : InternalRequest) (hosts : List QString) : Output Addr → Prop
  | .frame _ _ connection host port =>
    r.connection = some connection ∧ host ∈ hosts ∧ port = UInt16.ofInt r.targetUri.port
  | _ => True

/-- The hosts of the frames of a step: that of the target, and the one that has answered. -/
def Event.hosts (target : Url) : Event Addr → List QString
  | .frameReceived _ sender _ => [target.host, Platform.toString sender]
  | _ => [target.host]

namespace Output.GoesTo

variable {q r : InternalRequest} {hosts : List QString} {o : Output Addr}

theorem of_identity {Addr : Type} {o : Output Addr} (h : o.GoesTo q hosts)
    (identity : r.identity = q.identity) : o.GoesTo r hosts := by
  cases o with
  | frame message method connection host port =>
    simp only [GoesTo] at h ⊢
    rw [InternalRequest.connection_of_identity identity,
      InternalRequest.targetUri_of_identity identity]
    exact h
  | _ => trivial

/-- Where there are no frames there is nothing to say. -/
theorem of_silent {Addr : Type} {o : Output Addr} {os : List (Output Addr)}
    (silent : ∀ message method connection host port,
      .frame message method connection host port ∉ os) (out : o ∈ os) : o.GoesTo r hosts := by
  cases o with
  | frame message method connection host port => exact absurd out (silent _ _ _ _ _)
  | _ => trivial

theorem transmit {host : QString} (sent : o ∈ (QtCoap.transmit Addr r host).2)
    (listed : (if host.isEmpty then r.targetUri.host else host) ∈ hosts) : o.GoesTo r hosts := by
  cases o with
  | frame message method connection target port =>
    obtain ⟨own, port, rfl⟩ := destination_mem_transmit sent
    exact ⟨own, listed, port⟩
  | _ => trivial

end Output.GoesTo

namespace ExchangeData

variable {s : Protocol Addr} {key : Token} {e : ExchangeData Addr} {event : Event Addr}
  {reaction : Reaction Addr} {o : Output Addr}

theorem goesTo_acknowledge {reply : ReceivedReply Addr} {hosts : List QString}
    (listed : e.request.targetUri.host ∈ hosts) (sent : o ∈ e.acknowledge reply) :
    o.GoesTo e.request hosts := by
  have empty {messageId : UInt16} {type : MessageType}
      (sent : o ∈ emptyMessage e.request messageId type) : o.GoesTo e.request hosts := by
    have goes := Output.GoesTo.transmit sent listed
    cases o with
    | frame message method connection host port => exact goes
    | _ => trivial
  simp only [acknowledge] at sent
  split_ifs at sent
  · exact empty sent
  · exact empty sent
  · cases sent

theorem frame_not_mem_fail {Addr : Type} {e : ExchangeData Addr} {error : Error}
    {reply : Option (ReceivedReply Addr)} {message : Message} {method : Method}
    {connection : ConnectionId} {host : QString} {port : UInt16} :
    .frame message method connection host port ∉ (e.fail error reply).2 := by
  simp only [fail, errorPosts]
  cases e.userReply <;> cases reply <;> simp

theorem frame_not_mem_expire {Addr : Type} {e : ExchangeData Addr} {message : Message}
    {method : Method} {connection : ConnectionId} {host : QString} {port : UInt16} :
    .frame message method connection host port ∉ e.expire.2 := by
  simp only [expire, expiryPosts]
  cases e.userReply <;> simp

/-- The next block of a download is asked for where the last one came from. -/
theorem host_nextRequest {blockSize : Nat} {reply : ReceivedReply Addr} {r q : InternalRequest}
    {host : QString} (next : nextRequest blockSize reply r = some (q, host)) :
    host = [] ∨ host = Platform.toString reply.senderAddress := by
  unfold nextRequest at next
  dsimp only at next
  split_ifs at next
  · exact .inl (Prod.mk.inj (Option.some.inj next)).2.symm
  · exact .inr (Prod.mk.inj (Option.some.inj next)).2.symm

theorem goesTo_receive {blockSize : Nat} {reply : ReceivedReply Addr} {id : UInt16}
    (out : o ∈ (e.receive blockSize reply id).2) :
    o.GoesTo e.request [e.request.targetUri.host, Platform.toString reply.senderAddress] := by
  have target := InternalRequest.targetUri_of_identity (continues_store e reply).identity
  have acknowledged (sent : o ∈ (e.store reply).acknowledge reply) :
      o.GoesTo e.request [e.request.targetUri.host, Platform.toString reply.senderAddress] :=
    (goesTo_acknowledge (by simp [target]) sent).of_identity
      (continues_store e reply).identity.symm
  have received := e.receives blockSize reply id
  generalize e.receive blockSize reply id = reaction at out received
  cases received with
  | failed error => exact .of_silent (fun _ _ _ _ _ => frame_not_mem_fail) out
  | asked noError q host next =>
    rcases List.mem_append.mp out with sent | sent
    · exact acknowledged sent
    · have identity : (q.setMessageId id).identity = e.request.identity :=
        (nextRequest_kept next).1.trans (continues_stored e reply).identity
      refine Output.GoesTo.of_identity (q := q.setMessageId id) (.transmit sent ?_) identity.symm
      rw [InternalRequest.targetUri_of_identity identity]
      rcases host_nextRequest next with rfl | rfl
      · simp
      · split_ifs <;> simp
  | ended noError last =>
    rcases List.mem_append.mp out with sent | finished
    · exact acknowledged sent
    · exact .of_silent (frame_not_mem_finish _ _) finished

/-- The frames of a reaction go to the target of the request, or to the one that has answered. -/
theorem Reacts.goesTo (h : Reacts s key e event reaction) (out : o ∈ reaction.2) :
    o.GoesTo e.request (event.hosts e.request.targetUri) := by
  cases h with
  | received id admits fresh => exact goesTo_receive out
  | timedOut runs =>
    simp only [timeout] at out
    split_ifs at out
    · exact .transmit out (by simp [Event.hosts])
    · exact .of_silent (fun _ _ _ _ _ => frame_not_mem_fail) out
  | spanReached runs => exact .of_silent (fun _ _ _ _ _ => frame_not_mem_fail) out
  | expired runs => exact .of_silent (fun _ _ _ _ _ => frame_not_mem_expire) out
  | aborted => cases out

end ExchangeData

namespace Protocol

variable {s t : Protocol Addr} {os : List (Output Addr)} {event : Event Addr}

/-- A frame with this message goes out for the exchange `e`: it is the request of `e`, which is
registered then, or an empty message that answers what was received for `e`. -/
inductive SentFor (s t : Protocol Addr) (event : Event Addr) (message : Message)
    (e : ExchangeData Addr) : Prop
  | request (found : t.exchangeMap.find? message.token = some e)
      (own : message = e.request.message)
  | empty {data draws reply key} (received : event = .frameReceived data reply.senderAddress draws)
      (admits : s.Admits data reply key e) (none : message.token = [])

theorem Change.sentFor (h : Change s os t event) (consistent : s.Consistent) {message : Message}
    {method : Method} {connection : ConnectionId} {host : QString} {port : UInt16}
    (sent : .frame message method connection host port ∈ os) :
    ∃ e, SentFor s t event message e ∧
      (Output.frame message method connection host port : Output Addr).GoesTo e.request
        (event.hosts e.request.targetUri) := by
  cases h with
  | @opened id request connection' draws messageId token timeout registers after =>
    obtain ⟨rfl, rfl⟩ := Prod.mk.inj after
    rcases List.mem_cons.mp sent with sent | sent
    · cases sent
    · let r := ((s.completed request connection' messageId token).firstBlocks
        s.blockSize).setTimeout timeout
      let e : ExchangeData Addr := { userReply := some id, request := (transmit Addr r []).1 }
      have identity : e.request.identity = r.identity := identity_transmit r []
      have own : message = e.request.message :=
        (frame_mem_transmit sent).trans (message_transmit r []).symm
      have token_eq : message.token = token := by
        rw [own]
        exact (InternalRequest.token_of_identity identity).trans
          (InternalRequest.token_of_identity (ExchangeData.firstBlocks_kept
            (s.completed request connection' messageId token) s.blockSize).1)
      refine ⟨e, .request ?_ own, ?_⟩
      · rw [token_eq]
        exact find?_setExchange_self s token e
      · have goes : (Output.frame message method connection host port : Output Addr).GoesTo r
            [r.targetUri.host] := .transmit sent (by simp)
        rw [InternalRequest.targetUri_of_identity identity]
        exact goes.of_identity identity
  | reacted key e reaction found reacts after =>
    obtain ⟨rfl, rfl⟩ := Prod.mk.inj after
    have goes := reacts.goesTo sent
    have registered := consistent.registered found
    rcases (reacts.issues sent).2 _ _ _ _ _ rfl with empty | ⟨e', left, own⟩
    · refine ⟨e, ?_, goes⟩
      cases reacts with
      | received id admits fresh => exact .empty rfl admits empty
      | timedOut runs =>
        simp only [ExchangeData.timeout] at sent
        split_ifs at sent
        · rw [frame_mem_transmit sent] at empty
          exact absurd (registered.token.symm.trans empty) registered.key_ne
        · exact absurd sent ExchangeData.frame_not_mem_fail
      | spanReached runs => exact absurd sent ExchangeData.frame_not_mem_fail
      | expired runs => exact absurd sent ExchangeData.frame_not_mem_expire
      | aborted => cases sent
    · have identity := (reacts.continues left).identity
      refine ⟨e', .request ?_ own, ?_⟩
      · have token := (InternalRequest.token_of_identity identity).trans registered.token
        rw [own]
        change (s.setExchange key reaction.1).exchangeMap.find? e'.request.token = some e'
        rw [token, left]
        exact find?_setExchange_self s key e'
      · rw [InternalRequest.targetUri_of_identity identity]
        exact goes.of_identity identity
  | passed each outputs =>
    rcases outputs _ sent with ⟨id, post⟩ | ⟨error, signal⟩
    · cases post
    · cases signal

end Protocol

end QtCoap
