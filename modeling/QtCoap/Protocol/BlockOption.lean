import Mathlib.Algebra.Ring.Nat
import Mathlib.Data.List.Induction
import Mathlib.Data.Nat.Bitwise
import QtCoap.Codec.FrameReading
import QtCoap.Protocol.InternalRequest

namespace QtCoap

/-- The number that a string of bytes stands for, the highest byte first. -/
def bigEndian (value : QByteArray) : Nat := value.foldl (fun n b => n * 256 + b.toNat) 0

theorem bigEndian_append (value : QByteArray) (b : UInt8) :
    bigEndian (value ++ [b]) = bigEndian value * 256 + b.toNat := by
  simp [bigEndian]

theorem bigEndian_lt (value : QByteArray) : bigEndian value < 256 ^ value.length := by
  induction value using List.reverseRecOn with
  | nil => exact Nat.one_pos
  | append_singleton value b ih =>
    have byte := b.toNat_lt
    rw [bigEndian_append, List.length_append, List.length_singleton, Nat.pow_succ]
    omega

theorem shiftByte_or (n : Nat) (b : UInt8) : (n <<< 8) ||| b.toNat = n * 256 + b.toNat := by
  rw [← Nat.shiftLeft_add_eq_or_of_lt b.toNat_lt, Nat.shiftLeft_eq]

theorem foldl_shift_or (value : QByteArray) (small : bigEndian value < 2 ^ 32) :
    value.foldl (fun n b => ((n <<< 8) ||| b.toNat) % 2 ^ 32) 0 = bigEndian value := by
  induction value using List.reverseRecOn with
  | nil => rfl
  | append_singleton value b ih =>
    rw [bigEndian_append] at small
    rw [List.foldl_append, ih (by omega), List.foldl_cons, List.foldl_nil, shiftByte_or,
      bigEndian_append]
    exact Nat.mod_eq_of_lt small

/-! A block option value read as the code reads it: number, More flag and size are the parts of
one number. -/

section Reading

variable (junk : UInt8) {value : QByteArray}

theorem lastByte_append (value : QByteArray) (b : UInt8) : lastByte junk (value ++ [b]) = b := by
  simp [lastByte]

theorem blockNumberOf_eq (ne : value ≠ []) (small : bigEndian value < 2 ^ 32) :
    blockNumberOf junk value = bigEndian value / 16 := by
  obtain ⟨high, last, rfl⟩ := List.eq_nil_or_concat value |>.resolve_left ne
  rw [List.concat_eq_append] at small ⊢
  rw [bigEndian_append] at small
  have nibble : last.toNat >>> 4 < 2 ^ 4 := by
    have byte := last.toNat_lt
    rw [Nat.shiftRight_eq_div_pow]
    omega
  unfold blockNumberOf
  rw [List.dropLast_concat, lastByte_append, foldl_shift_or high (by omega), bigEndian_append]
  dsimp only
  rw [← Nat.shiftLeft_add_eq_or_of_lt nibble, Nat.shiftLeft_eq, Nat.shiftRight_eq_div_pow]
  omega

theorem moreFlagOf_eq (ne : value ≠ []) :
    moreFlagOf junk value = decide (bigEndian value / 8 % 2 = 1) := by
  obtain ⟨high, last, rfl⟩ := List.eq_nil_or_concat value |>.resolve_left ne
  rw [List.concat_eq_append, moreFlagOf, lastByte_append, bigEndian_append]
  have bit : last.toNat &&& 8 = last.toNat / 8 % 2 * 8 := by
    have flag := Nat.and_two_pow last.toNat 3
    rw [Nat.testBit_eq_decide_div_mod_eq] at flag
    rcases Nat.mod_two_eq_zero_or_one (last.toNat / 8) with zero | one
    · simpa [zero] using flag
    · simpa [one] using flag
  rw [bit]
  have split : (bigEndian high * 256 + last.toNat) / 8 % 2 = last.toNat / 8 % 2 := by omega
  rw [split]
  have parity := Nat.mod_two_eq_zero_or_one (last.toNat / 8)
  rcases parity with zero | one
  · simp [zero]
  · simp [one]

theorem blockSizeOf_eq (ne : value ≠ []) :
    blockSizeOf junk value = 2 ^ (bigEndian value % 8 + 4) := by
  obtain ⟨high, last, rfl⟩ := List.eq_nil_or_concat value |>.resolve_left ne
  rw [List.concat_eq_append, blockSizeOf, lastByte_append, bigEndian_append]
  have low : last.toNat &&& 7 = last.toNat % 8 := Nat.and_two_pow_sub_one_eq_mod last.toNat 3
  have split : (bigEndian high * 256 + last.toNat) % 8 = last.toNat % 8 := by omega
  rw [low, split, Nat.one_shiftLeft]

end Reading

/-! The value as the code writes it. -/

/-- The SZX field for a block size. -/
def szxOf (blockSize : Nat) : Nat :=
  if blockSize >>> 7 ≠ 0 then (if blockSize >>> 10 ≠ 0 then 6 else 3 + (blockSize >>> 8))
  else blockSize >>> 5

theorem szxOf_le (blockSize : Nat) : szxOf blockSize ≤ 6 := by
  simp only [szxOf]
  simp only [Nat.shiftRight_eq_div_pow]
  split_ifs <;> omega

/-- The block sizes there are: powers of two from 16 to 1024. -/
def IsBlockSize (size : Nat) : Prop := ∃ szx ≤ 6, size = 2 ^ (szx + 4)

theorem IsBlockSize.le {size : Nat} (sized : IsBlockSize size) : size ≤ 1024 := by
  obtain ⟨szx, small, rfl⟩ := sized
  exact Nat.pow_le_pow_right (by decide : 0 < 2) (by omega : szx + 4 ≤ 10)

/-- Such a size is the one its SZX field stands for. -/
theorem IsBlockSize.szxOf {size : Nat} (sized : IsBlockSize size) :
    2 ^ (QtCoap.szxOf size + 4) = size := by
  obtain ⟨szx, small, rfl⟩ := sized
  have each : ∀ szx ≤ 6, 2 ^ (QtCoap.szxOf (2 ^ (szx + 4)) + 4) = 2 ^ (szx + 4) := by decide
  exact each szx small

/-- The More flag that is written. -/
def writesMore (name number blockSize fullSize : Nat) : Bool :=
  name = OptionName.block1 ∧ toInt32 ((number + 1) * blockSize) < fullSize

theorem blockOptionData_eq (name blockSize fullSize : Nat) {number : Nat}
    (small : number < 2 ^ 28) :
    blockOptionData name number blockSize fullSize =
      number * 16 + (if writesMore name number blockSize fullSize then 8 else 0) +
        szxOf blockSize := by
  have szx := szxOf_le blockSize
  have data : (number <<< 4) % 2 ^ 32 ||| szxOf blockSize = number * 16 + szxOf blockSize := by
    rw [Nat.mod_eq_of_lt (by rw [Nat.shiftLeft_eq]; omega),
      ← Nat.shiftLeft_add_eq_or_of_lt (by omega : szxOf blockSize < 2 ^ 4), Nat.shiftLeft_eq]
  have flagged : number * 16 + szxOf blockSize ||| 8 = number * 16 + 8 + szxOf blockSize := by
    have parts : number * 16 + szxOf blockSize = (number * 2) <<< 3 + szxOf blockSize := by
      rw [Nat.shiftLeft_eq]
      omega
    have low : szxOf blockSize < 2 ^ 3 := by omega
    have eight : (8 : Nat) = 1 <<< 3 := rfl
    rw [parts, Nat.shiftLeft_add_eq_or_of_lt low, Nat.or_assoc, Nat.or_comm (szxOf blockSize),
      ← Nat.or_assoc, eight, ← Nat.shiftLeft_or_distrib]
    have odd : number * 2 ||| 1 = number * 2 + 1 := by
      have one := Nat.shiftLeft_add_eq_or_of_lt (by decide : 1 < 2 ^ 1) number
      rw [Nat.shiftLeft_eq] at one
      exact one.symm
    rw [odd, ← Nat.shiftLeft_add_eq_or_of_lt low, Nat.shiftLeft_eq, Nat.shiftLeft_eq]
    omega
  simp only [blockOptionData, writesMore]
  change (if _ then (number <<< 4) % 2 ^ 32 ||| szxOf blockSize ||| 8
    else (number <<< 4) % 2 ^ 32 ||| szxOf blockSize) = _
  rw [data, flagged]
  simp only [decide_eq_true_eq]
  split_ifs
  · rfl
  · rfl

theorem bigEndian_blockOptionValue {data : Nat} (small : data < 2 ^ 24) :
    bigEndian (blockOptionValue data) = data := by
  have byte (n : Nat) : n &&& 0xFF = n % 256 := Nat.and_two_pow_sub_one_eq_mod n 8
  simp only [blockOptionValue]
  by_cases three : data > 0xFFFF
  · have two : data > 0xFF := by omega
    simp only [three, two, if_true, byte, bigEndian, Nat.shiftRight_eq_div_pow]
    simp
    omega
  · by_cases two : data > 0xFF
    · simp only [three, two, if_true, if_false, byte, bigEndian, Nat.shiftRight_eq_div_pow]
      simp
      omega
    · simp only [three, two, if_false, byte, bigEndian]
      simp
      omega

/-- The parts of a block option that is written. -/
theorem bigEndian_blockOption (r : InternalRequest) (name size : Nat) {number : Nat}
    (small : number < 2 ^ 20) :
    bigEndian (r.blockOption name number size).value =
      number * 16 + (if writesMore name number size r.fullPayload.length then 8 else 0) +
        szxOf size := by
  have szx := szxOf_le size
  dsimp only [InternalRequest.blockOption]
  rw [blockOptionData_eq name size _ (by omega)]
  apply bigEndian_blockOptionValue
  split_ifs <;> omega

/-- No More flag is set when a block is asked for. -/
theorem bigEndian_blockOption_block2 (r : InternalRequest) (size : Nat) {number : Nat}
    (small : number < 2 ^ 20) :
    bigEndian (r.blockOption OptionName.block2 number size).value =
      number * 16 + szxOf size := by
  have noMore : writesMore OptionName.block2 number size r.fullPayload.length = false := by
    simp [writesMore]
  rw [bigEndian_blockOption r OptionName.block2 size small, noMore, if_neg Bool.false_ne_true,
    Nat.add_zero]

theorem bigEndian_blockOption_lt (r : InternalRequest) (name size : Nat) {number : Nat}
    (small : number < 2 ^ 20) : bigEndian (r.blockOption name number size).value < 2 ^ 24 := by
  have szx := szxOf_le size
  rw [bigEndian_blockOption r name size small]
  split_ifs <;> omega

theorem blockOptionValue_ne (data : Nat) : blockOptionValue data ≠ [] := by
  simp [blockOptionValue]

/-- A written block option as the code reads it. -/
theorem read_blockOption (junk : UInt8) (r : InternalRequest) (name size : Nat) {number : Nat}
    (small : number < 2 ^ 20) :
    blockNumberOf junk (r.blockOption name number size).value = number ∧
      moreFlagOf junk (r.blockOption name number size).value =
        writesMore name number size r.fullPayload.length ∧
      blockSizeOf junk (r.blockOption name number size).value = 2 ^ (szxOf size + 4) := by
  have ne : (r.blockOption name number size).value ≠ [] := blockOptionValue_ne _
  have fields := bigEndian_blockOption r name size small
  have fits := bigEndian_blockOption_lt r name size small
  have szx := szxOf_le size
  rw [blockNumberOf_eq junk ne (by omega), moreFlagOf_eq junk ne, blockSizeOf_eq junk ne, fields]
  cases writesMore name number size r.fullPayload.length with
  | false =>
    have low : (number * 16 + 0 + szxOf size) % 8 = szxOf size := by omega
    refine ⟨?_, ?_, ?_⟩
    · simp only [Bool.false_eq_true, if_false]
      omega
    · simp only [Bool.false_eq_true, if_false, decide_eq_false_iff_not]
      omega
    · simp only [Bool.false_eq_true, if_false]
      rw [low]
  | true =>
    have low : (number * 16 + 8 + szxOf size) % 8 = szxOf size := by omega
    refine ⟨?_, ?_, ?_⟩
    · simp only [if_true]
      omega
    · simp only [if_true, decide_eq_true_eq]
      omega
    · simp only [if_true]
      rw [low]

theorem length_blockOptionValue (data : Nat) :
    (blockOptionValue data).length =
      if data > 0xFFFF then 3 else if data > 0xFF then 2 else 1 := by
  simp only [blockOptionValue]
  by_cases three : data > 0xFFFF
  · have two : data > 0xFF := by omega
    simp [three, two]
  · by_cases two : data > 0xFF
    · simp [three, two]
    · simp [three, two]

/-- As few bytes as hold a number of 4, 12 or 20 bits. -/
theorem length_blockOption (r : InternalRequest) (name size : Nat) {number : Nat}
    (small : number < 2 ^ 20) :
    (r.blockOption name number size).length =
      if number < 2 ^ 4 then 1 else if number < 2 ^ 12 then 2 else 3 := by
  have szx := szxOf_le size
  have length := length_blockOptionValue
    (blockOptionData name number size r.fullPayload.length)
  rw [blockOptionData_eq name size _ (by omega)] at length
  change (blockOptionValue (blockOptionData name number size r.fullPayload.length)).length = _
  rw [blockOptionData_eq name size _ (by omega), length]
  split_ifs <;> omega

theorem writesMore_eq {name number size fullSize : Nat} (small : number < 2 ^ 20)
    (sized : IsBlockSize size) : writesMore name number size fullSize =
      decide (name = OptionName.block1 ∧ (number + 1) * size < fullSize) := by
  have range : (number + 1) * size ≤ 2 ^ 20 * 1024 := Nat.mul_le_mul small sized.le
  simp only [writesMore]
  rw [toInt32_of_lt (by omega)]
  simp only [Int.ofNat_lt]

/-- What `blockOption` writes is read back by both decoders. -/
theorem blockOption_codec (junk : UInt8) (m : InternalMessage) (reply : InternalReply)
    (r : InternalRequest) (name : Nat) {number size : Nat} (small : number < 2 ^ 20)
    (sized : IsBlockSize size) :
    let option := r.blockOption name number size
    let more := decide (name = OptionName.block1 ∧ (number + 1) * size < r.fullPayload.length)
    let read := m.setFromDescriptiveBlockOption junk option
    (1 ≤ option.length ∧ option.length ≤ 3 ∧ number < 2 ^ (8 * option.length - 4) ∧
      ∀ n, 1 ≤ n → number < 2 ^ (8 * n - 4) → option.length ≤ n) ∧
    (read.currentBlockNumber = number ∧ read.blockSize = size ∧ read.hasNextBlock = more) ∧
    (reply.message.option OptionName.block1 = ⟨OptionName.block1, option.value⟩ →
      reply.nextBlockToSend junk = if more then (number : Int) + 1 else -1) := by
  intro option more read
  obtain ⟨number_eq, more_eq, size_eq⟩ := read_blockOption junk r name size small
  rw [writesMore_eq small sized] at more_eq
  rw [sized.szxOf] at size_eq
  refine ⟨?_, ⟨number_eq, size_eq, more_eq⟩, fun carried => ?_⟩
  · have length : option.length = _ := length_blockOption r name size small
    rw [length]
    split_ifs with one two
    · refine ⟨by omega, by omega, one, fun n positive _ => positive⟩
    · refine ⟨by omega, by omega, two, fun n positive holds => ?_⟩
      by_contra less
      obtain rfl : n = 1 := by omega
      exact one holds
    · refine ⟨by omega, by omega, small, fun n positive holds => ?_⟩
      by_contra less
      have bits : 2 ^ (8 * n - 4) ≤ 2 ^ 12 := Nat.pow_le_pow_right (by decide) (by omega)
      omega
  · have valid : CoapOption.isValid ⟨OptionName.block1, option.value⟩ = true := rfl
    simp only [InternalReply.nextBlockToSend]
    have flag : moreFlagOf junk option.value = more := more_eq
    have num : blockNumberOf junk option.value = number := number_eq
    rw [carried, valid, flag, num, toInt32_of_lt (by omega)]
    cases more with
    | false => rfl
    | true => rfl

/-- A number of thirteen bits, which takes three bytes, before the last of 4098 blocks. -/
theorem blockOption_codec_4096 :
    let r : InternalRequest := { fullPayload := List.replicate 262209 0 }
    let option := r.blockOption OptionName.block1 4096 64
    let reply : InternalReply := { message := { options := [option] } }
    IsBlockSize 64 ∧ option.length = 3 ∧ reply.nextBlockToSend 0 = 4097 := by
  intro r option reply
  have sized : IsBlockSize 64 := ⟨2, by decide, rfl⟩
  have more : r.fullPayload.length = 262209 := List.length_replicate
  obtain ⟨⟨-, le, fits, -⟩, -, next⟩ := blockOption_codec 0 {} reply r OptionName.block1
    (by decide : 4096 < 2 ^ 20) sized
  refine ⟨sized, ?_, ?_⟩
  · by_contra less
    have short : option.length ≤ 2 := by
      change option.length ≤ 3 at le
      omega
    have bits : 2 ^ (8 * option.length - 4) ≤ 2 ^ 12 :=
      Nat.pow_le_pow_right (by decide) (by omega)
    exact absurd (lt_of_lt_of_le fits bits) (by decide)
  · rw [next rfl, more]
    rfl

/-! The block fields of a decoded reply. -/

namespace InternalReply

/-- The Block2 option added last determines the block fields. -/
theorem foldl_addOption_block (junk : UInt8) (options : List CoapOption) (r : InternalReply) :
    let last := (options.filter (fun o => o.name = OptionName.block2)).getLast?
    (options.foldl (addOption junk) r).toInternalMessage.currentBlockNumber =
        last.elim r.currentBlockNumber (fun o => blockNumberOf junk o.value) ∧
      (options.foldl (addOption junk) r).toInternalMessage.hasNextBlock =
        last.elim r.hasNextBlock (fun o => moreFlagOf junk o.value) ∧
      (options.foldl (addOption junk) r).toInternalMessage.blockSize =
        last.elim r.blockSize (fun o => blockSizeOf junk o.value) := by
  induction options using List.reverseRecOn with
  | nil => exact ⟨rfl, rfl, rfl⟩
  | append_singleton options o ih =>
    dsimp only at ih ⊢
    rw [List.foldl_append, List.filter_append]
    by_cases block : o.name = OptionName.block2
    · simp [addOption, InternalMessage.addOption, InternalMessage.setFromDescriptiveBlockOption,
        block]
    · simpa [addOption, InternalMessage.addOption, block] using ih

end InternalReply

theorem createFromFrame_block (junk : UInt8) {frame : QByteArray} {r : InternalReply}
    (h : createFromFrame junk frame = .ok r) :
    let last := (r.message.optionsNamed OptionName.block2).getLast?
    r.currentBlockNumber = last.elim 0 (fun o => blockNumberOf junk o.value) ∧
      r.hasNextBlock = last.elim false (fun o => moreFlagOf junk o.value) ∧
      r.blockSize = last.elim 0 (fun o => blockSizeOf junk o.value) := by
  obtain ⟨b0, b1, b2, b3, token, bytes, options, tail, -, -, -, rfl⟩ := createFromFrame_ok junk h
  have fields := InternalReply.foldl_addOption_block junk options (headerReply frame b0 b1 b2 b3)
  have named : (readReply junk frame b0 b1 b2 b3 options tail).message.optionsNamed
      OptionName.block2 = options.filter (fun o => o.name = OptionName.block2) := by
    have kept := Message.optionsNamed_foldl_addOption options
      (headerReply frame b0 b1 b2 b3).message OptionName.block2 List.Pairwise.nil
    rw [readReply_message]
    exact kept
  dsimp only at fields ⊢
  rw [named]
  exact fields

end QtCoap
