import QtCoap.Blockwise.Responses

namespace QtCoap

/-! Which option values are read, and what `blockOption` is called with. -/

/-- `setFromDescriptiveBlockOption` reads the last byte of a Block2 value. -/
def InternalReply.addOptionReads (option : CoapOption) : List QByteArray :=
  if option.name == OptionName.block2 then [option.value] else []

/-- What `optionLoop` reads so. -/
def optionLoopReads (frame : QByteArray) : Nat → Nat → Nat → List QByteArray
  | 0, _, _ => []
  | rounds + 1, i, lastOptionNumber =>
    if i = frame.length then []
    else match byteAt frame i with
      | .error _ => []
      | .ok header =>
        if header = 0xFF then []
        else match extendedField frame i (highNibble header) with
          | .error _ => []
          | .ok (i, optionDelta) =>
            match extendedField frame i (lowNibble header) with
            | .error _ => []
            | .ok (i, optionLength) =>
              let optionNumber := (lastOptionNumber + optionDelta) % 2 ^ 16
              InternalReply.addOptionReads
                  ⟨optionNumber, QByteArray.mid frame (i + 1) optionLength⟩ ++
                optionLoopReads frame rounds (i + 1 + optionLength) optionNumber

def createFromFrameReads (frame : QByteArray) : List QByteArray :=
  match byteAt frame 0 with
  | .ok b0 => optionLoopReads frame (frame.length + 1) (4 + lowNibble b0) 0
  | .error _ => []

/-- `nextBlockToSend` reads the last byte of the first Block1 value. -/
def InternalReply.nextBlockToSendReads (r : InternalReply) : List QByteArray :=
  let option := r.message.option OptionName.block1
  if option.isValid then [option.value] else []

/-- Number and size with which `setToSendBlock` and `setToRequestBlock` call `blockOption`. -/
def blockOptionCalls (blockNumber blockSize : Nat) : List (Nat × Nat) :=
  if InternalRequest.checkBlockNumber blockNumber then [(blockNumber, blockSize)] else []

/-- The assertions of `blockOption`: a power of two, at most 1024, 20 bits. -/
def BlockOptionAsserts (blockNumber blockSize : Nat) : Prop :=
  blockSize &&& (blockSize - 1) = 0 ∧ blockSize >>> 11 = 0 ∧ blockNumber >>> 20 = 0

instance (blockNumber blockSize : Nat) : Decidable (BlockOptionAsserts blockNumber blockSize) :=
  instDecidableAnd

section Decoding

/-- The Block2 options read are those that are in the message then. -/
theorem optionLoopReads_eq (junk : UInt8) (frame : QByteArray) (rounds i last : Nat)
    (r : InternalReply) (sorted : Message.Sorted r.message.options) {j : Nat} {r' : InternalReply}
    (h : optionLoop junk frame rounds i last r = .ok (j, r')) :
    (r'.message.optionsNamed OptionName.block2).map (·.value) =
      (r.message.optionsNamed OptionName.block2).map (·.value) ++
        optionLoopReads frame rounds i last := by
  induction rounds generalizing i last r with
  | zero => simp [optionLoop] at h
  | succ n ih =>
    rw [optionLoop] at h
    rw [optionLoopReads]
    split_ifs at h ⊢ with at_end
    · obtain rfl := (Prod.mk.inj (Except.ok.inj h)).2
      simp
    · cases hb : byteAt frame i with
      | error e => simp [hb] at h
      | ok header =>
        simp only [hb] at h ⊢
        split_ifs at h ⊢ with marker
        · obtain rfl := (Prod.mk.inj (Except.ok.inj h)).2
          simp
        · cases hd : extendedField frame i (highNibble header) with
          | error e => simp [hd] at h
          | ok delta =>
            obtain ⟨i₁, delta⟩ := delta
            simp only [hd] at h ⊢
            cases hl : extendedField frame i₁ (lowNibble header) with
            | error e => simp [hl] at h
            | ok length =>
              obtain ⟨i₂, length⟩ := length
              simp only [hl] at h ⊢
              have sorted' := Message.addOption_sorted r.message
                ⟨(last + delta) % 2 ^ 16, QByteArray.mid frame (i₂ + 1) length⟩ sorted
              rw [← InternalReply.addOption_message junk] at sorted'
              rw [ih _ _ _ sorted' h, InternalReply.addOption_message,
                Message.optionsNamed_addOption r.message _ _ sorted, ← List.append_assoc]
              congr 1
              rw [List.map_append]
              congr 1
              simp only [InternalReply.addOptionReads, beq_iff_eq]
              split_ifs <;> rfl

theorem options_parsePayload (frame : QByteArray) (i : Nat) (r : InternalReply) :
    (parsePayload frame i r).message.options = r.message.options := by
  simp only [parsePayload]
  split_ifs <;> rfl

theorem createFromFrameReads_eq {junk : UInt8} {frame : QByteArray} {r : InternalReply}
    (h : createFromFrame junk frame = .ok r) :
    createFromFrameReads frame = (r.message.optionsNamed OptionName.block2).map (·.value) := by
  unfold createFromFrame at h
  cases parsed : parseOptions junk frame with
  | error e => simp [parsed] at h
  | ok result =>
    obtain ⟨i, before⟩ := result
    rw [parsed] at h
    obtain rfl := Except.ok.inj h
    have options : (parsePayload frame i before).message.optionsNamed OptionName.block2 =
        before.message.optionsNamed OptionName.block2 := by
      simp only [Message.optionsNamed]
      rw [options_parsePayload]
    obtain ⟨b0, b1, b2, b3, token, bytes, _, _, shape, -, -⟩ := parseOptions_ok junk parsed
    subst shape
    rw [parseOptions_cons] at parsed
    let frame := b0 :: b1 :: b2 :: b3 :: (token ++ bytes)
    have sorted : Message.Sorted (headerReply frame b0 b1 b2 b3).message.options := .nil
    rw [options, optionLoopReads_eq junk frame _ _ _ _ sorted parsed]
    rfl

end Decoding

/-! A block option as RFC 7959 reads it; an empty value is the number 0. -/

namespace CoapOption

variable (o : CoapOption)

def blockNumber : Nat := bigEndian o.value / 16

def blockMore : Bool := bigEndian o.value / 8 % 2 = 1

def blockSzx : Nat := bigEndian o.value % 8

end CoapOption

/-- A Block2 option asks for this block. -/
def AsksFor (message : Message) (number szx : Nat) : Prop :=
  ∃ option ∈ message.optionsNamed OptionName.block2,
    option.blockNumber = number ∧ option.blockSzx = szx

instance (message : Message) (number szx : Nat) : Decidable (AsksFor message number szx) :=
  List.decidableBEx ..

section Reading

variable {junk : UInt8} {r : InternalReply}

theorem bigEndian_lt_of_short {value : QByteArray} (short : value.length ≤ 3) :
    bigEndian value < 2 ^ 24 := by
  calc bigEndian value < 256 ^ value.length := bigEndian_lt value
    _ ≤ 256 ^ 3 := Nat.pow_le_pow_right (by decide) short
    _ = 2 ^ 24 := rfl

/-- The block fields of a frame whose Block2 options have values. -/
theorem block2_fields {frame : QByteArray} (decoded : createFromFrame junk frame = .ok r)
    {option : CoapOption} (last : option ∈ (r.message.optionsNamed OptionName.block2).getLast?)
    (ne : option.value ≠ []) (short : option.value.length ≤ 3) :
    r.currentBlockNumber = option.blockNumber ∧ r.hasNextBlock = option.blockMore ∧
      r.blockSize = 2 ^ (option.blockSzx + 4) := by
  have small := bigEndian_lt_of_short short
  have fields := createFromFrame_block junk decoded
  rw [Option.mem_def.mp last] at fields
  obtain ⟨number, more, size⟩ := fields
  refine ⟨number.trans ?_, more.trans ?_, size.trans ?_⟩
  · exact blockNumberOf_eq junk ne (by omega)
  · exact moreFlagOf_eq junk ne
  · exact blockSizeOf_eq junk ne

theorem nextBlockToSendReads_eq :
    r.nextBlockToSendReads =
      (r.message.optionsNamed OptionName.block1).head?.toList.map (·.value) := by
  simp only [InternalReply.nextBlockToSendReads]
  rw [Message.option_eq]
  cases first : (r.message.optionsNamed OptionName.block1).head? with
  | none => rfl
  | some option =>
    have name := Message.name_of_head (Option.mem_def.mpr first)
    have valid : option.isValid = true := by
      simp [CoapOption.isValid, name, OptionName.block1, OptionName.invalid]
    simp [valid]

/-- What the first Block1 option asks for. -/
theorem nextBlockToSend_eq {option : CoapOption}
    (first : option ∈ (r.message.optionsNamed OptionName.block1).head?) (ne : option.value ≠ [])
    (short : option.value.length ≤ 3) :
    r.nextBlockToSend junk = if option.blockMore then (option.blockNumber : Int) + 1 else -1 := by
  have small := bigEndian_lt_of_short short
  have read : r.message.option OptionName.block1 = option := by
    rw [Message.option_eq, Option.mem_def.mp first]
    rfl
  have valid : option.isValid = true := by
    simp [CoapOption.isValid, Message.name_of_head first, OptionName.block1, OptionName.invalid]
  have number := blockNumberOf_eq junk ne (by omega)
  have more : moreFlagOf junk option.value = option.blockMore := moreFlagOf_eq junk ne
  have positive : toInt32 (bigEndian option.value / 16) = (option.blockNumber : Int) :=
    toInt32_of_lt (by omega)
  simp only [InternalReply.nextBlockToSend]
  rw [read, valid, more, number, positive]
  cases option.blockMore <;> rfl

theorem hasMoreBlocksToSend_eq
    (ne : ∀ option ∈ (r.message.optionsNamed OptionName.block1).head?, option.value ≠ [])
    (short : ∀ option ∈ (r.message.optionsNamed OptionName.block1).head?,
      option.value.length ≤ 3) :
    r.hasMoreBlocksToSend junk =
      (r.message.optionsNamed OptionName.block1).head?.any (·.blockMore) := by
  cases first : (r.message.optionsNamed OptionName.block1).head? with
  | none => exact InternalReply.hasMoreBlocksToSend_of_none (List.head?_eq_none_iff.mp first) junk
  | some option =>
    have own : option ∈ (r.message.optionsNamed OptionName.block1).head? := first
    have next := @nextBlockToSend_eq junk r option own (ne option own) (short option own)
    simp only [InternalReply.hasMoreBlocksToSend, next, Option.any_some]
    cases option.blockMore with
    | true =>
      simp only [if_true, decide_eq_true_eq]
      omega
    | false => rfl

end Reading

end QtCoap
