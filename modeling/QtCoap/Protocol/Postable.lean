import QtCoap.Protocol.Reactions

namespace QtCoap

deriving instance DecidableEq for Slot

variable {Addr : Type}

/-- A slot call that reports an error and leaves it to another one to end the reply. -/
def Slot.reportsError : Slot Addr → Bool
  | .setError _ => true
  | .setContent _ _ code => isError code
  | _ => false

/-- A sequence of slot calls in which each error is directly followed by the end. -/
inductive Postable : List (Slot Addr) → Prop
  | nil : Postable []
  | quiet {slot : Slot Addr} {slots : List (Slot Addr)} (noError : slot.reportsError = false)
      (rest : Postable slots) : Postable (slot :: slots)
  | error {slot : Slot Addr} {slots : List (Slot Addr)} (reports : slot.reportsError = true)
      (rest : Postable slots) : Postable (slot :: .setFinished .ok :: slots)

namespace Postable

theorem of_quiet {slots : List (Slot Addr)} (h : ∀ slot ∈ slots, slot.reportsError = false) :
    Postable slots := by
  induction slots with
  | nil => exact .nil
  | cons slot slots ih =>
    exact .quiet (h slot (by simp)) (ih fun slot' listed => h slot' (by simp [listed]))

theorem append {slots slots' : List (Slot Addr)} (h : Postable slots) (h' : Postable slots') :
    Postable (slots ++ slots') := by
  induction h with
  | nil => exact h'
  | quiet noError rest ih => exact .quiet noError ih
  | error reports rest ih => exact .error reports ih

/-- Some call and the end behind it. -/
theorem ended (slot : Slot Addr) : Postable [slot, .setFinished .ok] := by
  cases reports : slot.reportsError with
  | false => exact .quiet reports (.quiet rfl .nil)
  | true => exact .error reports .nil

end Postable

theorem postable_of_quiet {id : ReplyId} {os : List (Output Addr)}
    (h : ∀ slot, Output.post id slot ∈ os → slot.reportsError = false) :
    Postable (slotsTo id os) :=
  .of_quiet fun slot listed => h slot (mem_slotsTo.mp listed)

variable [Platform Addr]

namespace ExchangeData

variable {e : ExchangeData Addr} {id : ReplyId}

theorem postable_fail {Addr : Type} {e : ExchangeData Addr} (error : Error)
    (reply : Option (ReceivedReply Addr)) : Postable (slotsTo id (e.fail error reply).2) := by
  simp only [fail, errorPosts]
  cases e.userReply with
  | none => exact .nil
  | some own =>
    by_cases same : own = id
    · cases reply with
      | none => simpa [slotsTo, same] using Postable.ended _
      | some r => simpa [slotsTo, same] using Postable.ended _
    · cases reply with
      | none => simpa [slotsTo, same] using Postable.nil
      | some r => simpa [slotsTo, same] using Postable.nil

theorem quiet_finish {sender : Addr} {reply : ReceivedReply Addr} {slot : Slot Addr}
    (last : e.replies.getLast? = some reply) (noError : isError reply.responseCode = false)
    (posted : Output.post id slot ∈ (e.finish sender).2) : slot.reportsError = false := by
  cases slot with
  | setContent sender' message code =>
    obtain ⟨rfl, -⟩ := content_finish last posted
    exact noError
  | setRunning token messageId => rfl
  | setNotified => rfl
  | setObserveCancelled => rfl
  | setFinished error => rfl
  | setError error =>
    unfold finish at posted
    split at posted
    · dsimp only at posted
      split_ifs at posted <;> simp at posted
    · simp at posted

theorem postable_receive (blockSize : Nat) (reply : ReceivedReply Addr) (messageId : UInt16) :
    Postable (slotsTo id (e.receive blockSize reply messageId).2) := by
  have acknowledged (slot : Slot Addr) :
      Output.post id slot ∉ (e.store reply).acknowledge reply := by
    intro posted
    obtain ⟨_, _, _, _, _, same, -⟩ := mem_acknowledge posted
    cases same
  have received := e.receives blockSize reply messageId
  generalize e.receive blockSize reply messageId = reaction at received ⊢
  cases received with
  | failed error => exact postable_fail _ _
  | asked noError q host next =>
    refine postable_of_quiet fun slot posted => ?_
    rcases List.mem_append.mp posted with posted | posted
    · exact absurd posted (acknowledged slot)
    · exact absurd posted (post_not_mem_transmit _ _ _ _)
  | ended noError last =>
    refine postable_of_quiet fun slot posted => ?_
    rcases List.mem_append.mp posted with posted | posted
    · exact absurd posted (acknowledged slot)
    · exact quiet_finish (last_dropObserve_store e reply) noError posted

theorem Reacts.postable {s : Protocol Addr} {key : Token} {event : Event Addr}
    {reaction : Reaction Addr} (h : Reacts s key e event reaction) (id : ReplyId) :
    Postable (slotsTo id reaction.2) := by
  cases h with
  | received messageId admits fresh => exact postable_receive _ _ _
  | timedOut runs =>
    simp only [timeout]
    split_ifs
    · exact postable_of_quiet fun slot posted => absurd posted (post_not_mem_transmit _ _ _ _)
    · exact postable_fail _ _
  | spanReached runs => exact postable_fail _ _
  | expired runs =>
    refine postable_of_quiet fun slot posted => ?_
    simp only [expire, expiryPosts] at posted
    cases user : e.userReply with
    | none => simp [user] at posted
    | some own =>
      obtain ⟨-, rfl⟩ : id = own ∧ slot = .setFinished .ok := by simpa [user] using posted
      rfl
  | aborted => exact .nil

end ExchangeData

namespace Protocol

variable {s t : Protocol Addr} {os : List (Output Addr)} {event : Event Addr}

/-- What one step posts to a reply. -/
theorem Change.postable (h : Change s os t event) (id : ReplyId) : Postable (slotsTo id os) := by
  cases h with
  | opened messageId token timeout registers after =>
    rw [(Prod.mk.inj after).2]
    refine postable_of_quiet fun slot posted => ?_
    rcases List.mem_cons.mp posted with posted | posted
    · cases posted
      rfl
    · exact absurd posted (post_not_mem_transmit _ _ _ _)
  | reacted key e reaction found reacts after =>
    rw [(Prod.mk.inj after).2]
    exact reacts.postable id
  | passed each outputs =>
    refine postable_of_quiet fun slot posted => ?_
    rcases outputs _ posted with ⟨id', same⟩ | ⟨error, same⟩
    · cases same
      rfl
    · cases same

/-- What a whole run posts to a reply: each error is directly followed by the end. -/
theorem postable_run {tr : List (Taken Addr)} (run : Framework.Run Step {} tr s) (id : ReplyId) :
    Postable (slotsTo id (tr.flatMap (·.outputs))) := by
  have each (x : Taken Addr) (hx : x ∈ tr) : Postable (slotsTo id x.outputs) :=
    (changes_of_run run x hx).2.postable id
  clear run
  induction tr with
  | nil => exact .nil
  | cons x tr ih =>
    rw [List.flatMap_cons, slotsTo_append]
    exact (each x (by simp)).append (ih fun y hy => each y (by simp [hy]))

end Protocol

end QtCoap
