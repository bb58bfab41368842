import QtCoap.Protocol.Matching

namespace QtCoap

variable {Addr : Type} [Platform Addr]

/-- Type and message ID of an output that is an empty message, a frame with code 0.00. -/
def Output.emptyMessage? : Output Addr → Option (MessageType × UInt16)
  | .frame message method _ _ _ =>
    if method = Method.invalid then some (message.type, message.messageId) else none
  | _ => none

def emptyMessages (outputs : List (Output Addr)) : List (MessageType × UInt16) :=
  outputs.filterMap Output.emptyMessage?

@[simp] theorem emptyMessages_nil {Addr : Type} :
    emptyMessages ([] : List (Output Addr)) = [] := rfl

theorem emptyMessages_append {Addr : Type} (os os' : List (Output Addr)) :
    emptyMessages (os ++ os') = emptyMessages os ++ emptyMessages os' :=
  List.filterMap_append

theorem emptyMessages_transmit {r : InternalRequest} (host : QString)
    (connected : ∃ connection, r.connection = some connection) :
    emptyMessages (transmit Addr r host).2 =
      if r.method = Method.invalid then [(r.message.type, r.message.messageId)] else [] := by
  obtain ⟨connection, hc⟩ := connected
  simp only [transmit]
  rw [hc]
  dsimp only
  by_cases empty : r.method = Method.invalid <;>
    simp [emptyMessages, Output.emptyMessage?, empty]

theorem emptyMessages_emptyMessage {r : InternalRequest} (messageId : UInt16) (type : MessageType)
    (connected : ∃ connection, r.connection = some connection) :
    emptyMessages (emptyMessage r messageId type : List (Output Addr)) = [(type, messageId)] :=
  emptyMessages_transmit [] connected

namespace ExchangeData

variable {e : ExchangeData Addr} {key : Token}

theorem emptyMessages_fail {Addr : Type} {e : ExchangeData Addr} (error : Error)
    (reply : Option (ReceivedReply Addr)) : emptyMessages (e.fail error reply).2 = [] := by
  simp only [fail, errorPosts]
  cases e.userReply <;> cases reply <;> rfl

theorem emptyMessages_finish (sender : Addr) : emptyMessages (e.finish sender).2 = [] := by
  rw [finish]
  split
  · dsimp only
    split_ifs <;> rfl
  · rfl

theorem emptyMessages_acknowledge (registered : e.Registered key) (reply : ReceivedReply Addr) :
    emptyMessages (e.acknowledge reply) =
      if e.request.observeCancelled then [(.reset, reply.message.messageId)]
      else if reply.message.type = .confirmable then
        [(.acknowledgment, reply.message.messageId)]
      else [] := by
  simp only [acknowledge]
  split_ifs
  · exact emptyMessages_emptyMessage _ _ registered.connected
  · exact emptyMessages_emptyMessage _ _ registered.connected
  · rfl

/-- The empty messages with which a reply is answered: a block request that follows is none. -/
theorem emptyMessages_receive (registered : e.Registered key) (blockSize : Nat)
    (reply : ReceivedReply Addr) (id : UInt16) :
    emptyMessages (e.receive blockSize reply id).2 =
      if isError reply.responseCode then []
      else if e.request.observeCancelled then [(.reset, reply.message.messageId)]
      else if reply.message.type = .confirmable then
        [(.acknowledgment, reply.message.messageId)]
      else [] := by
  have stored_id : (e.store reply).request.message.messageId ≠ 0 := by
    rw [ExchangeData.messageId_store]
    exact registered.messageId
  have stored : (e.store reply).Registered key :=
    registered.of_identity (continues_store e reply).identity stored_id
  have kept : (e.store reply).dropObserve.Registered key := by
    apply stored.of_identity (continues_dropObserve _).identity
    rw [ExchangeData.messageId_dropObserve]
    exact stored_id
  have acknowledged := @emptyMessages_acknowledge Addr _ (e.store reply) key stored reply
  rw [ExchangeData.observeCancelled_store] at acknowledged
  have received := e.receives blockSize reply id
  generalize e.receive blockSize reply id = reaction at received ⊢
  cases received with
  | failed error =>
    rw [if_pos error]
    exact emptyMessages_fail ..
  | asked noError q host next =>
    have identity := (nextRequest_kept next).1
    have sent : emptyMessages (transmit Addr (q.setMessageId id) host).2 = [] := by
      rw [emptyMessages_transmit, if_neg]
      · have method : q.method = (e.store reply).dropObserve.request.method :=
          InternalRequest.method_of_identity identity
        exact method ▸ kept.method
      · have connection : q.connection = (e.store reply).dropObserve.request.connection :=
          InternalRequest.connection_of_identity identity
        exact connection ▸ kept.connected
    rw [if_neg (by simp [noError]), emptyMessages_append, acknowledged, sent, List.append_nil]
  | ended noError last =>
    rw [if_neg (by simp [noError]), emptyMessages_append, acknowledged, emptyMessages_finish,
      List.append_nil]

end ExchangeData

/-- How a frame may be answered at the message layer: a Confirmable one by one empty message with
its ID, an Acknowledgment or a Reset by none. -/
def Acknowledged (message : Message) (outputs : List (Output Addr)) : Prop :=
  (message.type = .confirmable →
    ∃ type, (type = .acknowledgment ∨ type = .reset) ∧
      emptyMessages outputs = [(type, message.messageId)]) ∧
  (message.type = .acknowledgment ∨ message.type = .reset → emptyMessages outputs = [])

namespace Protocol

variable {s t : Protocol Addr} {os : List (Output Addr)}

/-- What is handed to the connection while an admitted frame is processed. -/
theorem emptyMessages_of_admits (h : Reachable s) {data : QByteArray} {reply : ReceivedReply Addr}
    {key : Token} {e : ExchangeData Addr} (admits : s.Admits data reply key e) {draws : Draws}
    (step : Step s (.frameReceived data reply.senderAddress draws) os t) :
    emptyMessages os =
      if isError reply.responseCode then []
      else if e.request.observeCancelled then [(.reset, reply.message.messageId)]
      else if reply.message.type = .confirmable then
        [(.acknowledgment, reply.message.messageId)]
      else [] := by
  have consistent := Reachable.consistent h
  have registered := consistent.registered admits.found
  have handled : s.onFrameReceived data reply.senderAddress draws = .ok (t, os) := step.2
  rw [onFrameReceived_of_admits consistent admits] at handled
  split_ifs at handled
  · obtain ⟨drawn, -, after⟩ := Framework.map_ok handled
    obtain rfl := (Prod.mk.inj after).2
    exact ExchangeData.emptyMessages_receive registered ..
  · obtain rfl := (Prod.mk.inj (Except.ok.inj handled)).2
    exact ExchangeData.emptyMessages_receive registered ..

theorem acknowledged_iff (h : Reachable s) {data : QByteArray} {reply : ReceivedReply Addr}
    {key : Token} {e : ExchangeData Addr} (admits : s.Admits data reply key e) {draws : Draws}
    (step : Step s (.frameReceived data reply.senderAddress draws) os t) :
    Acknowledged reply.message os ↔
      (reply.message.type = .confirmable → isError reply.responseCode = false) ∧
      (reply.message.type = .acknowledgment ∨ reply.message.type = .reset →
        e.request.observeCancelled = false ∨ isError reply.responseCode = true) := by
  simp only [Acknowledged]
  rw [emptyMessages_of_admits h admits step]
  cases isError reply.responseCode <;> cases e.request.observeCancelled <;>
    cases reply.message.type <;> simp

/-- A Confirmable 2.05 to the request. -/
def confirmableResponse : QByteArray := [0x42, 0x45, 0x30, 0x39, 0x01, 0x02, 0xFF, 0x61]

def confirmableReply : ReceivedReply IPv4Address where
  message := { type := .confirmable, messageId := 0x3039, token := [1, 2], payload := [0x61] }
  responseCode := 0x45
  senderAddress := serverAddress

theorem acknowledged_confirmableReply : ∃ e os t,
    oneExchange.Admits confirmableResponse confirmableReply [1, 2] e ∧
    Step oneExchange (.frameReceived confirmableResponse serverAddress []) os t ∧
    Acknowledged confirmableReply.message os := by
  have decoded : createFromFrame 0 confirmableResponse = .ok confirmableReply.toInternalReply := rfl
  obtain ⟨e, admits⟩ := oneExchange_admits confirmableReply decoded rfl rfl
  have step := step_of_admits (reachable_after _).consistent admits (by decide) []
  refine ⟨e, _, _, admits, step, ?_⟩
  refine (acknowledged_iff (reachable_after _) admits step).mpr ⟨by decide, ?_⟩
  intro other
  simp [confirmableReply] at other

/-- A Confirmable 4.04 to the request. -/
def notFoundResponse : QByteArray := [0x42, 0x84, 0x30, 0x39, 0x01, 0x02]

def notFoundReply : ReceivedReply IPv4Address where
  message := { type := .confirmable, messageId := 0x3039, token := [1, 2] }
  responseCode := 0x84
  senderAddress := serverAddress

theorem notFound_not_acknowledged : Reachable oneExchange ∧ ∃ e os t,
    oneExchange.Admits notFoundResponse notFoundReply [1, 2] e ∧
    Step oneExchange (.frameReceived notFoundResponse serverAddress []) os t ∧
    ¬ Acknowledged notFoundReply.message os := by
  have decoded : createFromFrame 0 notFoundResponse = .ok notFoundReply.toInternalReply := rfl
  obtain ⟨e, admits⟩ := oneExchange_admits notFoundReply decoded rfl rfl
  have step := step_of_admits (reachable_after _).consistent admits (by decide) []
  refine ⟨reachable_after _, e, _, _, admits, step, ?_⟩
  intro acknowledged
  obtain ⟨type, -, one⟩ := acknowledged.1 rfl
  rw [emptyMessages_of_admits (reachable_after _) admits step, if_pos (by decide)] at one
  cases one

end Protocol

end QtCoap
