import QtCoap.Framework.Pieces
import QtCoap.Protocol.RequestOptions
import QtCoap.Protocol.Step

namespace QtCoap

/-- A server with one representation, which it cuts into blocks of one size. -/
structure BlockServer where
  representation : QByteArray
  size : Nat

namespace BlockServer

variable (server : BlockServer)

def block (k : Nat) : QByteArray := Framework.block server.size server.representation k

/-- A success response with block `k`. Its one Block2 option has the number, and the More flag
exactly when bytes of the representation remain; the size field is left open. -/
structure Carries (reply : InternalReply) (k : Nat) : Prop where
  success : isSuccess reply.responseCode = true
  payload : reply.message.payload = server.block k
  single : reply.message.optionsNamed OptionName.block2 = [reply.message.option OptionName.block2]
  value_ne : (reply.message.option OptionName.block2).value ≠ []
  number : bigEndian (reply.message.option OptionName.block2).value / 16 = k
  more : bigEndian (reply.message.option OptionName.block2).value / 8 % 2 = 1 ↔
    (k + 1) * server.size < server.representation.length

instance (reply : InternalReply) (k : Nat) : Decidable (server.Carries reply k) :=
  decidable_of_iff
    (isSuccess reply.responseCode = true ∧ reply.message.payload = server.block k ∧
      reply.message.optionsNamed OptionName.block2 =
        [reply.message.option OptionName.block2] ∧
      (reply.message.option OptionName.block2).value ≠ [] ∧
      bigEndian (reply.message.option OptionName.block2).value / 16 = k ∧
      (bigEndian (reply.message.option OptionName.block2).value / 8 % 2 = 1 ↔
        (k + 1) * server.size < server.representation.length))
    ⟨fun ⟨a, b, c, d, e, f⟩ => ⟨a, b, c, d, e, f⟩, fun ⟨a, b, c, d, e, f⟩ => ⟨a, b, c, d, e, f⟩⟩

end BlockServer

/-- The empty Acknowledgment that announces a separate response. -/
structure Acknowledges (request : Message) (reply : InternalReply) : Prop where
  type : reply.message.type = .acknowledgment
  code : reply.responseCode = ResponseCode.emptyMessage
  messageId : reply.message.messageId = request.messageId
  token : reply.message.token = []
  options : reply.message.options = []

instance (request : Message) (reply : InternalReply) : Decidable (Acknowledges request reply) :=
  decidable_of_iff
    (reply.message.type = .acknowledgment ∧ reply.responseCode = ResponseCode.emptyMessage ∧
      reply.message.messageId = request.messageId ∧ reply.message.token = [] ∧
      reply.message.options = [])
    ⟨fun ⟨a, b, c, d, e⟩ => ⟨a, b, c, d, e⟩, fun ⟨a, b, c, d, e⟩ => ⟨a, b, c, d, e⟩⟩

/-- What the server may send for a request: the block asked for, piggybacked or as a separate
response of any type and message ID, or an empty Acknowledgment. -/
def BlockServer.Answers (server : BlockServer) (request : Message) (reply : InternalReply) : Prop :=
  (reply.message.token = request.token ∧ server.Carries reply (askedBlock request)) ∨
    Acknowledges request reply

instance (server : BlockServer) (request : Message) (reply : InternalReply) :
    Decidable (server.Answers request reply) := instDecidableOr

/-- The client, and the requests that have reached the network for one exchange. -/
structure Network (Addr : Type) where
  protocol : Protocol Addr
  requests : List Message

section Frames

variable {Addr : Type}

/-- The frames with the token `token` among the outputs, and where they go. -/
def sentTo (token : Token) (os : List (Output Addr)) : List (Message × QString) :=
  os.filterMap fun
    | .frame message _ _ host _ => if message.token = token then some (message, host) else none
    | _ => none

theorem mem_sentTo {token : Token} {os : List (Output Addr)} {message : Message} {host : QString}
    (h : (message, host) ∈ sentTo token os) : message.token = token ∧
      ∃ method connection port, .frame message method connection host port ∈ os := by
  obtain ⟨o, ho, kept⟩ := List.mem_filterMap.mp h
  cases o with
  | frame m method connection target port =>
    dsimp only at kept
    split_ifs at kept with own
    obtain ⟨rfl, rfl⟩ := Prod.mk.inj (Option.some.inj kept)
    exact ⟨own, method, connection, port, ho⟩
  | post _ _ | responseToMulticastReceived _ _ _ | error _ _ => cases kept

theorem sentTo_append (token : Token) (os os' : List (Output Addr)) :
    sentTo token (os ++ os') = sentTo token os ++ sentTo token os' :=
  List.filterMap_append

theorem sentTo_eq_nil {token : Token} {os : List (Output Addr)}
    (others : ∀ message method connection host port,
      .frame message method connection host port ∈ os → message.token ≠ token) :
    sentTo token os = [] := by
  rw [List.eq_nil_iff_forall_not_mem]
  rintro ⟨message, host⟩ hm
  obtain ⟨own, method, connection, port, sent⟩ := mem_sentTo hm
  exact others message method connection host port sent own

/-- The frames with the token `token` among the outputs. -/
def requestsOf (token : Token) (os : List (Output Addr)) : List Message :=
  (sentTo token os).map Prod.fst

theorem mem_requestsOf {token : Token} {os : List (Output Addr)} {message : Message}
    (h : message ∈ requestsOf token os) : message.token = token ∧
      ∃ method connection host port, .frame message method connection host port ∈ os := by
  obtain ⟨⟨message, host⟩, hm, rfl⟩ := List.mem_map.mp h
  obtain ⟨own, method, connection, port, sent⟩ := mem_sentTo hm
  exact ⟨own, method, connection, host, port, sent⟩

theorem requestsOf_append (token : Token) (os os' : List (Output Addr)) :
    requestsOf token (os ++ os') = requestsOf token os ++ requestsOf token os' := by
  rw [requestsOf, sentTo_append, List.map_append, requestsOf, requestsOf]

theorem requestsOf_eq_nil {token : Token} {os : List (Output Addr)}
    (others : ∀ message method connection host port,
      .frame message method connection host port ∈ os → message.token ≠ token) :
    requestsOf token os = [] := by
  rw [requestsOf, sentTo_eq_nil others, List.map_nil]

end Frames

namespace Network

variable {Addr : Type} [Platform Addr]

/-- No new request is sent, and the frames received are answers to requests sent before. A request
may be answered never, once or many times, at any later time and in any order. -/
def Possible (server : BlockServer) (n : Network Addr) : Event Addr → Prop
  | .sendRequest _ _ _ _ => False
  | .frameReceived data _ _ =>
    match createFromFrame (Platform.junk Addr) data with
    | .ok reply => ∃ request ∈ n.requests, server.Answers request reply
    | .error _ => False
  | _ => True

instance (server : BlockServer) (n : Network Addr) (event : Event Addr) :
    Decidable (n.Possible server event) := by
  simp only [Possible]
  split
  · infer_instance
  · split <;> infer_instance
  · infer_instance

/-- A step of the client; the frames it sends for the exchange with token `token` reach the
network. -/
structure Step (server : BlockServer) (token : Token) (n : Network Addr) (event : Event Addr)
    (os : List (Output Addr)) (n' : Network Addr) : Prop where
  possible : n.Possible server event
  protocol : Protocol.Step n.protocol event os n'.protocol
  requests : n'.requests = n.requests ++ requestsOf token os

def handle (server : BlockServer) (token : Token) (n : Network Addr) (event : Event Addr) :
    Option (Network Addr × List (Output Addr)) :=
  if n.Possible server event then
    (n.protocol.handle event).map fun result =>
      (⟨result.1, n.requests ++ requestsOf token result.2⟩, result.2)
  else none

theorem step_of_handle {server : BlockServer} {token : Token} {n n' : Network Addr}
    {event : Event Addr} {os : List (Output Addr)}
    (h : n.handle server token event = some (n', os)) : Step server token n event os n' := by
  unfold handle at h
  split_ifs at h with possible
  obtain ⟨⟨t, os'⟩, handled, same⟩ := Option.map_eq_some_iff.mp h
  obtain ⟨rfl, rfl⟩ := Prod.mk.inj same
  exact ⟨possible, Protocol.step_of_handle handled, rfl⟩

end Network

/-! What the client reads from an answer. -/

section Reading

variable (junk : UInt8) {server : BlockServer} {data : QByteArray} {reply : InternalReply}

theorem BlockServer.Carries.block_fields {k : Nat} (carries : server.Carries reply k)
    (decoded : createFromFrame junk data = .ok reply) (small : k < 2 ^ 20) :
    reply.currentBlockNumber = k ∧ reply.hasNextBlock =
      decide ((k + 1) * server.size < server.representation.length) := by
  obtain ⟨number, more, -⟩ := createFromFrame_block junk decoded
  have last : (reply.message.optionsNamed OptionName.block2).getLast? =
      some (reply.message.option OptionName.block2) := by
    rw [carries.single]
    rfl
  have own := carries.number
  rw [last, Option.elim_some] at number more
  rw [blockNumberOf_eq junk carries.value_ne (by omega), own] at number
  rw [moreFlagOf_eq junk carries.value_ne] at more
  refine ⟨number, more.trans ?_⟩
  exact decide_eq_decide.mpr carries.more

theorem Acknowledges.hasNextBlock {request : Message} (h : Acknowledges request reply)
    (decoded : createFromFrame junk data = .ok reply) : reply.hasNextBlock = false := by
  obtain ⟨-, more, -⟩ := createFromFrame_block junk decoded
  have none : reply.message.optionsNamed OptionName.block2 = [] := by
    rw [Message.optionsNamed, h.options]
    rfl
  rw [more, none]
  rfl

theorem Acknowledges.hasMoreBlocksToSend {request : Message} (h : Acknowledges request reply) :
    reply.hasMoreBlocksToSend junk = false := by
  apply InternalReply.hasMoreBlocksToSend_of_none
  rw [Message.optionsNamed, h.options]
  rfl

end Reading

end QtCoap
