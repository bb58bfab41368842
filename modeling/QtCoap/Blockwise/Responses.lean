import QtCoap.Blockwise.Merging
import QtCoap.Blockwise.Network

namespace QtCoap

/-- What a server sends of its representation: the whole, or one block. -/
inductive Response
  | whole (server : BlockServer)
  | block (server : BlockServer) (k : Nat)

deriving instance DecidableEq for BlockServer
deriving instance DecidableEq for Response

namespace Response

def server : Response → BlockServer
  | .whole server | .block server _ => server

def number : Response → Nat
  | .whole _ => 0
  | .block _ k => k

/-- Bytes of the representation remain. -/
def more : Response → Bool
  | .whole _ => false
  | .block server k => (k + 1) * server.size < server.representation.length

def payload : Response → QByteArray
  | .whole server => server.representation
  | .block server k => server.block k

/-- The reply is a success response with it. A block number has 20 bits. -/
def CarriedBy (reply : InternalReply) : Response → Prop
  | .whole server => isSuccess reply.responseCode = true ∧
    reply.message.payload = server.representation ∧
    reply.message.optionsNamed OptionName.block2 = []
  | .block server k => server.Carries reply k ∧ k < 2 ^ 20

instance (reply : InternalReply) (response : Response) : Decidable (response.CarriedBy reply) :=
  match response with
  | .whole _ | .block _ _ => inferInstanceAs (Decidable (_ ∧ _))

/-- The frame has the token and carries it, and says nothing of blocks of the request. -/
def Encoded (junk : UInt8) (token : Token) (data : QByteArray) (response : Response) : Prop :=
  match createFromFrame junk data with
  | .ok reply => reply.message.token = token ∧ response.CarriedBy reply ∧
    reply.message.optionsNamed OptionName.block1 = []
  | .error _ => False

instance (junk : UInt8) (token : Token) (data : QByteArray) (response : Response) :
    Decidable (response.Encoded junk token data) := by
  simp only [Encoded]
  split <;> infer_instance

variable {response : Response} {junk : UInt8} {token : Token} {data : QByteArray}
  {reply : InternalReply}

theorem Encoded.decoded (h : response.Encoded junk token data) : ∃ reply,
    createFromFrame junk data = .ok reply ∧ reply.message.token = token ∧
      response.CarriedBy reply ∧ reply.message.optionsNamed OptionName.block1 = [] := by
  unfold Encoded at h
  split at h
  · exact ⟨_, by assumption, h⟩
  · exact h.elim

theorem CarriedBy.success (h : response.CarriedBy reply) : isSuccess reply.responseCode = true := by
  cases response with
  | whole server => exact h.1
  | block server k => exact h.1.success

theorem CarriedBy.payload (h : response.CarriedBy reply) :
    reply.message.payload = response.payload := by
  cases response with
  | whole server => exact h.2.1
  | block server k => exact h.1.payload

theorem CarriedBy.number_lt (h : response.CarriedBy reply) : response.number < 2 ^ 20 := by
  cases response with
  | whole server => exact Nat.two_pow_pos 20
  | block server k => exact h.2

/-- What the client reads from it. -/
theorem CarriedBy.block_fields (h : response.CarriedBy reply)
    (decoded : createFromFrame junk data = .ok reply) :
    reply.currentBlockNumber = response.number ∧ reply.hasNextBlock = response.more := by
  cases response with
  | whole server =>
    have fields := createFromFrame_block junk decoded
    rw [h.2.2] at fields
    exact ⟨fields.1, fields.2.1⟩
  | block server k => exact h.1.block_fields junk decoded h.2

end Response

end QtCoap
