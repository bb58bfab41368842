import QtCoap.Blockwise.Responses
import QtCoap.Protocol.Outcome

namespace QtCoap

variable {Addr : Type} [Platform Addr]

/-- A server that listens to a group. It answers in blocks, or with the whole. -/
structure Responder where
  server : BlockServer
  blockwise : Bool

namespace Responder

variable (r : Responder)

def response (k : Nat) : Response := if r.blockwise then .block r.server k else .whole r.server

/-- What it answers with, in blocks; a whole is one block. -/
def served : BlockServer :=
  if r.blockwise then r.server else { r.server with size := r.server.representation.length }

theorem representation_served : r.served.representation = r.server.representation := by
  simp only [served]
  split_ifs <;> rfl

/-- What the client reads from an answer. -/
theorem block_fields {k : Nat} {reply : InternalReply} {junk : UInt8} {data : QByteArray}
    (carried : (r.response k).CarriedBy reply) (decoded : createFromFrame junk data = .ok reply) :
    reply.currentBlockNumber ≤ k ∧ reply.currentBlockNumber < 2 ^ 20 ∧
      reply.message.payload = r.served.block reply.currentBlockNumber ∧
      reply.hasNextBlock = decide ((reply.currentBlockNumber + 1) * r.served.size <
        r.served.representation.length) := by
  have payload := carried.payload
  have small := carried.number_lt
  obtain ⟨number, more⟩ := carried.block_fields decoded
  cases blockwise : r.blockwise with
  | true =>
    simp only [response, served, blockwise, if_true] at number more payload small ⊢
    simp only [Response.number, Response.more, Response.payload] at number more payload small
    rw [number]
    exact ⟨le_rfl, small, payload, more⟩
  | false =>
    simp only [response, served, blockwise, Bool.false_eq_true, if_false] at number more payload ⊢
    simp only [Response.number, Response.more, Response.payload] at number more payload
    rw [number]
    refine ⟨Nat.zero_le k, Nat.two_pow_pos 20, ?_, ?_⟩
    · rw [payload]
      simp [BlockServer.block, Framework.block]
    · rw [more]
      simp

end Responder

/-- The servers that listen to a multicast address. -/
abbrev Group (Addr : Type) := Addr → Option Responder

namespace Group

variable (group : Group Addr) (name : QString)

/-- The servers have names of their own. -/
structure Named : Prop where
  distinct : ∀ {a b : Addr}, group a ≠ none → group b ≠ none →
    Platform.toString a = Platform.toString b → a = b
  name_ne : ∀ {a : Addr}, group a ≠ none →
    Platform.toString a ≠ name ∧ Platform.toString a ≠ []

/-- Requests to the group and to its own name reach a server. -/
def Reaches (request : Message × QString) (sender : Addr) : Prop :=
  request.2 = name ∨ request.2 = Platform.toString sender

instance (request : Message × QString) (sender : Addr) :
    Decidable (Reaches name request sender) := instDecidableOr

/-- What a server may send: what it serves for a request that reaches it, without a word on blocks
of the request, or an empty Acknowledgment. -/
def Answers (requests : List (Message × QString)) (sender : Addr) (reply : InternalReply) : Prop :=
  ∃ responder ∈ group sender, ∃ request ∈ requests, Reaches name request sender ∧
    ((reply.message.token = request.1.token ∧
      (responder.response (askedBlock request.1)).CarriedBy reply ∧
      reply.message.optionsNamed OptionName.block1 = []) ∨ Acknowledges request.1 reply)

instance (requests : List (Message × QString)) (sender : Addr) (reply : InternalReply) :
    Decidable (group.Answers name requests sender reply) :=
  match found : group sender with
  | none => isFalse fun answers => by
    obtain ⟨responder, some, -⟩ := answers
    rw [found] at some
    cases some
  | some responder =>
    decidable_of_iff
      (∃ request ∈ requests, Reaches name request sender ∧
        ((reply.message.token = request.1.token ∧
          (responder.response (askedBlock request.1)).CarriedBy reply ∧
          reply.message.optionsNamed OptionName.block1 = []) ∨ Acknowledges request.1 reply))
      (by simp [Answers, found])

end Group

/-- The client, and the requests sent for one exchange with the hosts they went to. -/
structure GroupNetwork (Addr : Type) where
  protocol : Protocol Addr
  requests : List (Message × QString)

namespace GroupNetwork

/-- The client handles no request for this reply, and frames for the exchange with the token are
answers of the servers. A request may be answered never, once or many times, at any later time and
in any order. -/
def Possible (group : Group Addr) (name : QString) (id : ReplyId) (token : Token)
    (n : GroupNetwork Addr) : Event Addr → Prop
  | .frameReceived data sender _ =>
    match createFromFrame (Platform.junk Addr) data with
    | .ok reply => n.protocol.frameTarget reply.message = some token →
      group.Answers name n.requests sender reply
    | .error _ => True
  | event => event.sends id = false

def isPossible (group : Group Addr) (name : QString) (id : ReplyId) (token : Token)
    (n : GroupNetwork Addr) : Event Addr → Bool
  | .frameReceived data sender _ =>
    match createFromFrame (Platform.junk Addr) data with
    | .ok reply => !decide (n.protocol.frameTarget reply.message = some token) ||
      decide (group.Answers name n.requests sender reply)
    | .error _ => true
  | event => !event.sends id

theorem isPossible_iff (group : Group Addr) (name : QString) (id : ReplyId) (token : Token)
    (n : GroupNetwork Addr) (event : Event Addr) :
    n.isPossible group name id token event = true ↔ n.Possible group name id token event := by
  cases event with
  | frameReceived data sender draws =>
    simp only [isPossible, Possible]
    cases createFromFrame (Platform.junk Addr) data with
    | ok reply => simp [imp_iff_not_or]
    | error fault => simp
  | _ => simp [isPossible, Possible]

instance (group : Group Addr) (name : QString) (id : ReplyId) (token : Token)
    (n : GroupNetwork Addr) (event : Event Addr) :
    Decidable (n.Possible group name id token event) :=
  decidable_of_iff _ (isPossible_iff group name id token n event)

structure Step (group : Group Addr) (name : QString) (id : ReplyId) (token : Token)
    (n : GroupNetwork Addr) (event : Event Addr) (os : List (Output Addr))
    (n' : GroupNetwork Addr) : Prop where
  possible : n.Possible group name id token event
  protocol : Protocol.Step n.protocol event os n'.protocol
  requests : n'.requests = n.requests ++ sentTo token os

def handle (group : Group Addr) (name : QString) (id : ReplyId) (token : Token)
    (n : GroupNetwork Addr) (event : Event Addr) :
    Option (GroupNetwork Addr × List (Output Addr)) :=
  if n.Possible group name id token event then
    (n.protocol.handle event).map fun result =>
      (⟨result.1, n.requests ++ sentTo token result.2⟩, result.2)
  else none

end GroupNetwork

end QtCoap
