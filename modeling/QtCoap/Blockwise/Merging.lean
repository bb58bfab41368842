import QtCoap.Framework.Pieces
import QtCoap.Protocol.Handlers

namespace QtCoap

variable {Addr : Type}

theorem mergeBlock_eq (merged : QByteArray × Int) {reply : ReceivedReply Addr}
    (small : reply.currentBlockNumber < 2 ^ 31) :
    mergeBlock merged reply =
      Framework.appendNext (fun r : ReceivedReply Addr => r.currentBlockNumber)
        (fun r => r.message.payload) merged reply := by
  simp only [mergeBlock, Framework.appendNext]
  rw [toInt32_of_lt small]
  simp only [List.isEmpty_iff]

/-- The merged payload, while the block numbers are positive as an `int`: the earliest payload
with each number, in ascending order. -/
theorem mergedPayload_eq {replies : List (ReceivedReply Addr)} {bound : Nat}
    (bounded : ∀ r ∈ replies, r.currentBlockNumber < bound) (small : bound ≤ 2 ^ 31) :
    mergedPayload replies =
      (List.range bound).flatMap
        (Framework.pieceAt (fun r => r.currentBlockNumber) (fun r => r.message.payload)
          replies) := by
  have same := List.foldl_ext mergeBlock (Framework.appendNext
      (fun r : ReceivedReply Addr => r.currentBlockNumber) (fun r => r.message.payload)) ([], -1)
    (l := replies.insertionSort (fun a b => a.currentBlockNumber ≤ b.currentBlockNumber))
    (by
      intro merged r hr
      have inside := bounded r ((List.mem_insertionSort _).mp hr)
      exact mergeBlock_eq merged (by omega))
  simp only [mergedPayload]
  rw [same]
  exact Framework.foldl_appendNext_insertionSort bound replies bounded

/-- Replies that are blocks of one representation, with all blocks up to one that reaches its
end, are merged to the representation. -/
theorem mergedPayload_of_blocks {replies : List (ReceivedReply Addr)} {representation : QByteArray}
    {size n : Nat} (small : ∀ r ∈ replies, r.currentBlockNumber < 2 ^ 31)
    (blocks : ∀ r ∈ replies, r.message.payload =
      Framework.block size representation r.currentBlockNumber)
    (present : ∀ k < n, ∃ r ∈ replies, r.currentBlockNumber = k)
    (reaches : representation.length ≤ n * size) (inside : n ≤ 2 ^ 31) :
    mergedPayload replies = representation := by
  rw [mergedPayload_eq small le_rfl]
  exact Framework.flatMap_pieceAt_block blocks present reaches inside

theorem mergedPayload_singleton {reply : ReceivedReply Addr}
    (small : reply.currentBlockNumber < 2 ^ 31) :
    mergedPayload [reply] = reply.message.payload := by
  have merged : mergedPayload [reply] = (mergeBlock ([], -1) reply).1 := rfl
  rw [merged, mergeBlock]
  rw [toInt32_of_lt small]
  dsimp only
  split_ifs with skipped
  · rcases skipped with empty | below
    · simpa using empty.symm
    · omega
  · rfl

/-- The earliest payload with each number is what is merged. -/
theorem mergedPayload_eq_merge {replies : List (ReceivedReply Addr)}
    (small : ∀ r ∈ replies, r.currentBlockNumber < 2 ^ 31) :
    mergedPayload replies =
      Framework.merge (fun r => r.currentBlockNumber) (fun r => r.message.payload) replies := by
  rw [mergedPayload_eq small le_rfl]
  exact Framework.flatMap_range_eq_merge (2 ^ 31) replies small

section Assembled

variable [Platform Addr]

/-- The stored replies that count: in the multicast case only those of the sender. -/
def counted (multicast : Bool) (sender : Addr) (replies : List (ReceivedReply Addr)) :
    List (ReceivedReply Addr) :=
  if multicast then replies.filter (fun reply => reply.senderAddress = sender) else replies

theorem counted_sublist (multicast : Bool) (sender : Addr) (replies : List (ReceivedReply Addr)) :
    (counted multicast sender replies).Sublist replies := by
  rw [counted]
  split_ifs
  · exact List.filter_sublist
  · exact List.Sublist.refl replies

/-- The stored replies that are merged: a reply stored alone is, whoever sent it. -/
def mergeable (multicast : Bool) (sender : Addr) (replies : List (ReceivedReply Addr)) :
    List (ReceivedReply Addr) :=
  counted (multicast && decide (1 < replies.length)) sender replies

variable (before : List (ReceivedReply Addr)) {reply : ReceivedReply Addr}

theorem mergeable_eq_counted {multicast : Bool} {sender : Addr}
    (own : multicast = true → before = [] → reply.senderAddress = sender) :
    mergeable multicast sender (before ++ [reply]) =
      counted multicast sender (before ++ [reply]) := by
  cases before with
  | nil =>
    cases multicast with
    | false => rfl
    | true => simp [mergeable, counted, own rfl rfl]
  | cons r rs => simp [mergeable]

/-- The reply that is forwarded carries the merged payload also when there is one reply only. -/
theorem payload_assembled_mergeable (multicast : Bool) (sender : Addr)
    (small : reply.currentBlockNumber < 2 ^ 31) :
    (assembled multicast (before ++ [reply]) reply sender).message.payload =
      mergedPayload (mergeable multicast sender (before ++ [reply])) := by
  simp only [assembled, mergeable]
  by_cases single : (before ++ [reply]).length ≤ 1
  · rw [if_pos single]
    have none : before = [] := by
      rw [List.length_append, List.length_singleton] at single
      exact List.eq_nil_of_length_eq_zero (by omega)
    subst none
    simpa [counted] using (mergedPayload_singleton small).symm
  · rw [if_neg single, decide_eq_true (Nat.lt_of_not_le single), Bool.and_true]
    rfl

theorem payload_assembled_counted {multicast : Bool} {sender : Addr}
    (small : reply.currentBlockNumber < 2 ^ 31)
    (own : multicast = true → before = [] → reply.senderAddress = sender) :
    (assembled multicast (before ++ [reply]) reply sender).message.payload =
      mergedPayload (counted multicast sender (before ++ [reply])) := by
  rw [payload_assembled_mergeable before multicast sender small, mergeable_eq_counted before own]

theorem payload_assembled (small : reply.currentBlockNumber < 2 ^ 31) (sender : Addr) :
    (assembled false (before ++ [reply]) reply sender).message.payload =
      mergedPayload (before ++ [reply]) :=
  payload_assembled_counted before small fun multicast => absurd multicast (by decide)

/-- In the multicast case it is the payload merged from the replies of its sender. -/
theorem payload_assembled_multicast (small : reply.currentBlockNumber < 2 ^ 31) :
    (assembled true (before ++ [reply]) reply reply.senderAddress).message.payload =
      mergedPayload ((before ++ [reply]).filter
        fun r => r.senderAddress = reply.senderAddress) :=
  payload_assembled_counted before small fun _ _ => rfl

end Assembled

end QtCoap
