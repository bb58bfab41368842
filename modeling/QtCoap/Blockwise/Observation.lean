import QtCoap.Blockwise.Download
import QtCoap.Blockwise.Responses
import QtCoap.Protocol.Outcome

namespace QtCoap

variable {Addr : Type} [Platform Addr]

/-- The client and a server it observes: what the server has published, the last one being current,
the requests that have reached it and the responses it has sent. `arriving` follows the
notification that is coming in: its representation, and how many of its blocks are there. -/
structure Observation (Addr : Type) where
  protocol : Protocol Addr
  published : List BlockServer
  requests : List Message
  responses : List Response := []
  arriving : Option (BlockServer × Nat) := none

/-- The server publishes a representation and sends a notification, it answers a request, a response
reaches the client, or the client handles something else. -/
inductive ObserveEvent (Addr : Type)
  | publish (server : BlockServer) (blockwise : Bool)
  | answer (request : Message) (blockwise : Bool)
  | receive (response : Response) (data : QByteArray) (draws : Draws)
  | client (event : Event Addr)

namespace Response

/-- The response goes on with what is arriving: with a first block or a whole when there is
nothing, else with a block of the same representation that leaves no gap. -/
def continues (arriving : Option (BlockServer × Nat)) : Response → Bool
  | .whole _ => arriving.isNone
  | .block server k => arriving.elim (k = 0) fun known => known.1 = server ∧ k ≤ known.2

/-- What is arriving then. -/
def advance (arriving : Option (BlockServer × Nat)) (response : Response) :
    Option (BlockServer × Nat) :=
  if response.more then
    some (response.server, max (arriving.elim 0 Prod.snd) (response.number + 1))
  else none

end Response

namespace Observation

/-- The client handles no request for this reply, and its exchange gets nothing but Acknowledgments
this way. -/
def Beside (id : ReplyId) (token : Token) (n : Observation Addr) : Event Addr → Prop
  | .frameReceived data _ _ =>
    match createFromFrame (Platform.junk Addr) data with
    | .ok reply => n.protocol.frameTarget reply.message = some token →
      ∃ request ∈ n.requests, Acknowledges request reply
    | .error _ => True
  | event => event.sends id = false

def isBeside (id : ReplyId) (token : Token) (n : Observation Addr) : Event Addr → Bool
  | .frameReceived data _ _ =>
    match createFromFrame (Platform.junk Addr) data with
    | .ok reply => !decide (n.protocol.frameTarget reply.message = some token) ||
      decide (∃ request ∈ n.requests, Acknowledges request reply)
    | .error _ => true
  | event => !event.sends id

theorem isBeside_iff (id : ReplyId) (token : Token) (n : Observation Addr) (event : Event Addr) :
    n.isBeside id token event = true ↔ n.Beside id token event := by
  cases event with
  | frameReceived data sender draws =>
    simp only [isBeside, Beside]
    cases createFromFrame (Platform.junk Addr) data with
    | ok reply => simp [imp_iff_not_or]
    | error fault => simp
  | _ => simp [isBeside, Beside]

instance (id : ReplyId) (token : Token) (n : Observation Addr) (event : Event Addr) :
    Decidable (n.Beside id token event) :=
  decidable_of_iff _ (isBeside_iff id token n event)

/-- The client has handled an event; the frames it sends reach the server. -/
def handled (token : Token) (n : Observation Addr)
    (result : Protocol Addr × List (Output Addr)) : Observation Addr :=
  { n with protocol := result.1, requests := n.requests ++ requestsOf token result.2 }

/-- One event. A response may reach the client never, once or many times, at any later time and in
any order; it comes from the address of the server. -/
def handle (server : Addr) (id : ReplyId) (token : Token) (n : Observation Addr) :
    ObserveEvent Addr → Option (Observation Addr × List (Output Addr))
  | .publish current blockwise =>
    some ({ n with
      published := n.published ++ [current]
      responses := n.responses ++ [if blockwise then .block current 0 else .whole current] }, [])
  | .answer request blockwise =>
    n.published.getLast?.bind fun current =>
      if request ∈ n.requests ∧ (blockwise ∨ askedBlock request = 0) then
        some ({ n with
          responses := n.responses ++
            [if blockwise then .block current (askedBlock request) else .whole current] }, [])
      else none
  | .receive response data draws =>
    if response ∈ n.responses ∧ response.Encoded (Platform.junk Addr) token data ∧
        (n.protocol.exchangeMap.find? token).all
          (fun e => Protocol.senderAdmissible e.request server) then
      (n.protocol.handle (.frameReceived data server draws)).map fun result =>
        ({ n.handled token result with arriving := response.advance n.arriving }, result.2)
    else none
  | .client event =>
    if n.Beside id token event then
      (n.protocol.handle event).map fun result => (n.handled token result, result.2)
    else none

def Step (server : Addr) (id : ReplyId) (token : Token) (n : Observation Addr)
    (event : ObserveEvent Addr) (os : List (Output Addr)) (n' : Observation Addr) : Prop :=
  n.handle server id token event = some (n', os)

end Observation

/-- The replies are the first `n` blocks of what the server publishes, in any order and number. -/
structure Collects (replies : List (ReceivedReply Addr)) (server : BlockServer) (n : Nat) :
    Prop where
  small : n ≤ 2 ^ 20
  below : ∀ r ∈ replies, r.currentBlockNumber < n
  blocks : ∀ r ∈ replies, r.message.payload = server.block r.currentBlockNumber
  stored : ∀ k < n, ∃ r ∈ replies, r.currentBlockNumber = k

/-- The replies are what has arrived. -/
def Arrived (arriving : Option (BlockServer × Nat)) (replies : List (ReceivedReply Addr)) : Prop :=
  match arriving with
  | none => replies = []
  | some (server, n) => Collects replies server n

section Arrival

variable {arriving : Option (BlockServer × Nat)} {replies : List (ReceivedReply Addr)}
  {reply : ReceivedReply Addr} {response : Response}

/-- A response that goes on with what is arriving is a block like those before. -/
theorem Collects.of_arrived {Addr : Type} {replies : List (ReceivedReply Addr)}
    {reply : ReceivedReply Addr} (arrived : Arrived arriving replies)
    (continues : response.continues arriving = true) (small : response.number < 2 ^ 20)
    (number : reply.currentBlockNumber = response.number)
    (payload : reply.message.payload = response.server.block response.number) :
    Collects (replies ++ [reply]) response.server
      (max (arriving.elim 0 Prod.snd) (response.number + 1)) := by
  have first (only : replies = []) (zero : response.number = 0) :
      Collects (replies ++ [reply]) response.server 1 := by
    subst only
    rw [zero] at number payload
    refine ⟨by omega, ?_, ?_, ?_⟩
    · intro r hr
      obtain rfl := List.mem_singleton.mp hr
      omega
    · intro r hr
      obtain rfl := List.mem_singleton.mp hr
      rw [number]
      exact payload
    · intro k hk
      exact ⟨reply, by simp, by omega⟩
  cases arriving with
  | none =>
    have zero : response.number = 0 := by
      cases response with
      | whole server => rfl
      | block server k =>
        show k = 0
        simpa [Response.continues] using continues
    simpa [zero] using first arrived zero
  | some known =>
    obtain ⟨server, n⟩ := known
    cases response with
    | whole server' => cases continues
    | block server' k =>
      obtain ⟨rfl, gapless⟩ : server = server' ∧ k ≤ n := by
        simpa [Response.continues] using continues
      have before : Collects replies server n := arrived
      simp only [Response.number, Response.server, Option.elim_some] at small number payload ⊢
      refine ⟨?_, ?_, ?_, ?_⟩
      · have limit := before.small
        omega
      · intro r hr
        rcases List.mem_append.mp hr with old | new
        · have inside := before.below r old
          omega
        · obtain rfl := List.mem_singleton.mp new
          omega
      · intro r hr
        rcases List.mem_append.mp hr with old | new
        · exact before.blocks r old
        · obtain rfl := List.mem_singleton.mp new
          rw [number]
          exact payload
      · intro j hj
        by_cases own : j = k
        · exact ⟨reply, by simp, number.trans own.symm⟩
        · obtain ⟨r, hr, numbered⟩ := before.stored j (by omega)
          exact ⟨r, by simp [hr], numbered⟩

/-- Once the last one is in, all of the representation is there. -/
theorem Arrived.whole (arrived : Arrived arriving replies)
    (continues : response.continues arriving = true)
    (carried : response.CarriedBy reply.toInternalReply)
    (number : reply.currentBlockNumber = response.number) (last : response.more = false)
    {sender : Addr} (senders : ∀ r ∈ replies ++ [reply], r.senderAddress = sender)
    (multicast : Bool) :
    (assembled multicast (replies ++ [reply]) reply sender).message.payload =
      response.server.representation := by
  have payload := carried.payload
  cases response with
  | whole server =>
    have nothing : arriving = none := Option.isNone_iff_eq_none.mp continues
    subst nothing
    have only : replies = [] := arrived
    subst only
    exact payload
  | block server k =>
    have collects := Collects.of_arrived arrived continues carried.number_lt number payload
    have limit := collects.small
    have small : ∀ r ∈ replies ++ [reply], r.currentBlockNumber < 2 ^ 31 := by
      intro r hr
      have inside := collects.below r hr
      omega
    have mine : (replies ++ [reply]).filter (fun r => r.senderAddress = sender) =
        replies ++ [reply] :=
      List.filter_eq_self.mpr fun r hr => decide_eq_true (senders r hr)
    have same : assembled multicast (replies ++ [reply]) reply sender =
        assembled false (replies ++ [reply]) reply sender := by
      simp only [assembled]
      rw [mine, if_neg Bool.false_ne_true, ite_self]
    rw [same, payload_assembled replies (small reply (by simp))]
    refine mergedPayload_of_blocks small collects.blocks collects.stored ?_ (by omega)
    have reaches : server.representation.length ≤ (k + 1) * server.size := by
      simpa [Response.more] using last
    exact reaches.trans (Nat.mul_le_mul_right _ (le_max_right _ _))

end Arrival

namespace ExchangeData

variable {e e' : ExchangeData Addr} {reply : ReceivedReply Addr} {blockSize : Nat}
  {messageId : UInt16} {data : QByteArray}

/-- The replies of an observation are what has arrived also after the next response. -/
theorem receive_arrived {arriving : Option (BlockServer × Nat)} {response : Response}
    (arrived : Arrived arriving e.replies) (continues : response.continues arriving = true)
    (carried : response.CarriedBy reply.toInternalReply)
    (noBlock1 : reply.message.optionsNamed OptionName.block1 = [])
    (decoded : createFromFrame (Platform.junk Addr) data = .ok reply.toInternalReply)
    (left : (e.receive blockSize reply messageId).1 = some e')
    (observe : e'.request.isObserve = true) :
    Arrived (response.advance arriving) e'.replies ∧ e'.replies ⊆ e.replies ++ [reply] := by
  obtain ⟨number, more⟩ := carried.block_fields decoded
  have success := carried.success
  have follows : reply.continues = response.more := by
    simp [ReceivedReply.continues, not_isError_of_isSuccess success,
      InternalReply.hasMoreBlocksToSend_of_none noBlock1, InternalReply.hasMoreBlocksToReceive,
      more]
  have replies := receive_replies left
  cases further : response.more with
  | true =>
    rw [if_pos (follows.trans further)] at replies
    rw [replies, Response.advance, if_pos further]
    refine ⟨?_, List.Subset.refl _⟩
    refine Collects.of_arrived arrived continues carried.number_lt number ?_
    rw [carried.payload]
    cases response with
    | whole server => cases further
    | block server k => rfl
  | false =>
    have notEmpty : ¬ (reply.message.type = .acknowledgment ∧
        reply.responseCode = ResponseCode.emptyMessage) := by
      rintro ⟨-, empty⟩
      rw [empty] at success
      cases success
    rw [if_neg (by simp [follows, further]), if_neg notEmpty, if_pos observe] at replies
    rw [replies, Response.advance, if_neg (by simp [further])]
    exact ⟨rfl, List.nil_subset _⟩

end ExchangeData

end QtCoap
