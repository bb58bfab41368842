import Mathlib.Order.Bounds.Defs
import QtCoap.Framework.Pieces
import QtCoap.Protocol.OptionOrder
import QtCoap.Protocol.RequestOptions

namespace QtCoap

namespace Message

/-- The options other than those of the exchange of blocks. -/
def otherOptions (m : Message) : List CoapOption :=
  m.options.filter (fun o => o.name ≠ OptionName.block1 ∧ o.name ≠ OptionName.block2)

variable {m : Message}

theorem otherOptions_addOption {o : CoapOption}
    (h : o.name = OptionName.block1 ∨ o.name = OptionName.block2) :
    (m.addOption o).otherOptions = m.otherOptions := by
  refine Framework.filter_insertUpper_of_neg CoapOption.name m.options ?_
  rw [decide_eq_true_eq]
  tauto

theorem otherOptions_removeOption {name : Nat}
    (h : name = OptionName.block1 ∨ name = OptionName.block2) :
    (m.removeOption name).otherOptions = m.otherOptions := by
  simp only [otherOptions, removeOption, List.filter_filter]
  refine List.filter_congr fun o _ => ?_
  by_cases same : o.name = name
  · rw [← same] at h
    simp only [same, bne_self_eq_false, Bool.and_false]
    rw [← same, eq_comm, decide_eq_false_iff_not]
    tauto
  · simp [same]

theorem otherOptions_eq
    (none : ∀ o ∈ m.options, o.name ≠ OptionName.block1 ∧ o.name ≠ OptionName.block2) :
    m.otherOptions = m.options :=
  List.filter_eq_self.mpr fun o ho => decide_eq_true (none o ho)

theorem length_optionsNamed_of_absent
    (none : ∀ o ∈ m.options, o.name ≠ OptionName.block1 ∧ o.name ≠ OptionName.block2)
    {name : Nat} (block : name = OptionName.block1 ∨ name = OptionName.block2) :
    (m.optionsNamed name).length ≤ 1 := by
  have empty : m.optionsNamed name = [] := by
    refine List.filter_eq_nil_iff.mpr fun o ho => ?_
    have other := none o ho
    rw [decide_eq_true_eq]
    rintro rfl
    tauto
  rw [empty]
  exact Nat.zero_le 1

end Message

/-- What the exchange of blocks leaves of a request `r`: the payload that is cut, and the options
but for one of each kind at most, unless there were more. -/
structure InBlocks (r q : InternalRequest) : Prop where
  fullPayload : q.fullPayload = r.fullPayload
  others : q.message.otherOptions = r.message.otherOptions
  block1 : (r.message.optionsNamed OptionName.block1).length ≤ 1 →
    (q.message.optionsNamed OptionName.block1).length ≤ 1
  block2 : (r.message.optionsNamed OptionName.block2).length ≤ 1 →
    (q.message.optionsNamed OptionName.block2).length ≤ 1

namespace InBlocks

variable {r q : InternalRequest}

theorem refl (r : InternalRequest) : InBlocks r r := ⟨rfl, rfl, id, id⟩

theorem setToRequestBlock (h : InBlocks r q) (number size : Nat) :
    InBlocks r (q.setToRequestBlock number size) := by
  by_cases small : number < 2 ^ 20
  · refine ⟨?_, ?_, ?_, ?_⟩
    · rw [← h.fullPayload]
      exact congrArg InternalRequest.Identity.fullPayload (q.identity_setToRequestBlock number size)
    · rw [← h.others]
      simp only [InternalRequest.setToRequestBlock]
      rw [if_neg (by simp [(InternalRequest.checkBlockNumber_iff number).mpr small])]
      refine (Message.otherOptions_addOption (.inr rfl)).trans ?_
      refine (Message.otherOptions_removeOption (.inr rfl)).trans ?_
      exact Message.otherOptions_removeOption (.inl rfl)
    · intro _
      rw [q.block1_setToRequestBlock size small]
      exact Nat.zero_le 1
    · intro _
      rw [q.optionsNamed_setToRequestBlock size small]
      exact Nat.le_refl 1
  · rw [q.setToRequestBlock_of_large size small]
    exact h

theorem setToSendBlock (h : InBlocks r q) (number size : Nat) :
    InBlocks r (q.setToSendBlock number size) := by
  by_cases small : number < 2 ^ 20
  · refine ⟨?_, ?_, ?_, ?_⟩
    · rw [← h.fullPayload]
      exact congrArg InternalRequest.Identity.fullPayload (q.identity_setToSendBlock number size)
    · rw [← h.others]
      simp only [InternalRequest.setToSendBlock]
      rw [if_neg (by simp [(InternalRequest.checkBlockNumber_iff number).mpr small])]
      refine (Message.otherOptions_addOption (.inl rfl)).trans ?_
      exact Message.otherOptions_removeOption (.inl rfl)
    · intro _
      rw [q.optionsNamed_setToSendBlock size small]
      exact Nat.le_refl 1
    · rw [q.optionsNamed_setToSendBlock_of_ne number size (by decide)]
      exact h.block2
  · rw [q.setToSendBlock_of_large size small]
    exact h

theorem apply (h : InBlocks r q) (call : BlockCall) : InBlocks r (call.apply q) := by
  cases call with
  | setToRequestBlock number size => exact h.setToRequestBlock number size
  | setToSendBlock number size => exact h.setToSendBlock number size

theorem foldl (h : InBlocks r q) (calls : List BlockCall) :
    InBlocks r (calls.foldl BlockCall.apply q) := by
  induction calls generalizing q with
  | nil => exact h
  | cons call calls ih => exact ih (h.apply call)

/-- Whatever was sent before, the payload is the block with the number. -/
theorem payload (h : InBlocks r q) (size : Nat) {number : Nat} (small : number < 2 ^ 20) :
    (q.setToSendBlock number size).message.payload =
      Framework.block size r.fullPayload number := by
  rw [q.payload_setToSendBlock size small, h.fullPayload]
  rfl

end InBlocks

/-- The payloads that are sent are the payload in slices. If there were no block options, there is
one Block1 and one Block2 option at most then, and the others are as they were. -/
theorem setToSendBlock_slices {r : InternalRequest} {size count : Nat} (sized : IsBlockSize size)
    (payload : r.fullPayload ≠ []) (fits : r.fullPayload.length ≤ 2 ^ 20 * size)
    (least : IsLeast {n | r.fullPayload.length ≤ n * size} count) :
    (∃ slices : Nat → QByteArray,
      (∀ calls : List BlockCall, ∀ k < count,
        ((calls.foldl BlockCall.apply r).setToSendBlock k size).message.payload = slices k) ∧
      (∀ k, k + 1 < count → (slices k).length = size) ∧
      (1 ≤ (slices (count - 1)).length ∧ (slices (count - 1)).length ≤ size) ∧
      (List.range count).flatMap slices = r.fullPayload) ∧
    ((∀ o ∈ r.message.options, o.name ≠ OptionName.block1 ∧ o.name ≠ OptionName.block2) →
      ∀ calls : List BlockCall,
        let message := (calls.foldl BlockCall.apply r).message
        (message.optionsNamed OptionName.block1).length ≤ 1 ∧
        (message.optionsNamed OptionName.block2).length ≤ 1 ∧
        message.otherOptions = r.message.options) := by
  obtain ⟨reaches, below⟩ := least
  have bytes : 0 < r.fullPayload.length := List.length_pos_iff.mpr payload
  have enough : count ≤ 2 ^ 20 := below fits
  have positive : 0 < count := by
    by_contra zero
    obtain rfl : count = 0 := by omega
    have reaches : r.fullPayload.length ≤ 0 * size := reaches
    omega
  -- without the last block the payload is not covered
  have short : (count - 1) * size < r.fullPayload.length := by
    by_contra covered
    have fewer : count ≤ count - 1 := below (Nat.not_lt.mp covered)
    omega
  have covered : r.fullPayload.length ≤ (count - 1) * size + size := by
    rw [← Nat.succ_mul, Nat.succ_eq_add_one, Nat.sub_add_cancel positive]
    exact reaches
  refine ⟨⟨Framework.block size r.fullPayload, ?_, ?_, ?_, ?_⟩, fun none calls => ?_⟩
  · intro calls k hk
    exact ((InBlocks.refl r).foldl calls).payload size (by omega)
  · intro k hk
    have inside : (k + 1) * size ≤ (count - 1) * size := Nat.mul_le_mul_right size (by omega)
    rw [Nat.succ_mul] at inside
    rw [Framework.length_block]
    omega
  · rw [Framework.length_block]
    obtain ⟨szx, -, rfl⟩ := sized
    have byte : 0 < 2 ^ (szx + 4) := Nat.two_pow_pos _
    omega
  · rw [Framework.flatMap_block]
    exact List.take_of_length_le reaches
  · have kept := (InBlocks.refl r).foldl calls
    exact ⟨kept.block1 (Message.length_optionsNamed_of_absent none (.inl rfl)),
      kept.block2 (Message.length_optionsNamed_of_absent none (.inr rfl)),
      kept.others.trans (Message.otherOptions_eq none)⟩

/-- Twenty bytes in slices of sixteen, in a message with a Uri-Path and a Size1 option. -/
def slicedRequest : InternalRequest where
  message := { options := [⟨OptionName.uriPath, [97]⟩, ⟨OptionName.size1, [20]⟩] }
  fullPayload := (List.range 20).map UInt8.ofNat

/-- The last slice comes first, and a block of the reply is asked for in between. -/
theorem setToSendBlock_slices_twenty :
    (∃ slices : Nat → QByteArray,
      (([BlockCall.setToSendBlock 1 16, .setToRequestBlock 3 64].foldl BlockCall.apply
        slicedRequest).setToSendBlock 0 16).message.payload = slices 0 ∧
      (slices 0).length = 16 ∧
      (List.range 2).flatMap slices = (List.range 20).map UInt8.ofNat) ∧
    ([BlockCall.setToSendBlock 1 16, .setToRequestBlock 3 64, .setToSendBlock 0 16].foldl
        BlockCall.apply slicedRequest).message.otherOptions =
      [⟨OptionName.uriPath, [97]⟩, ⟨OptionName.size1, [20]⟩] := by
  have two : IsLeast {n | slicedRequest.fullPayload.length ≤ n * 16} 2 := by
    refine ⟨by decide, fun n covered => ?_⟩
    have covered : 20 ≤ n * 16 := covered
    omega
  obtain ⟨⟨slices, sent, full, -, whole⟩, options⟩ := setToSendBlock_slices
    (⟨0, by decide, rfl⟩ : IsBlockSize 16) (by decide : slicedRequest.fullPayload ≠ [])
    (by decide) two
  exact ⟨⟨slices, sent _ 0 (by decide), full 0 (by decide), whole⟩, (options (by decide) _).2.2⟩

end QtCoap
