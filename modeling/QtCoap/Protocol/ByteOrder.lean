import QtCoap.Protocol.BlockOption
import QtCoap.Rfc7252.Uint

namespace QtCoap

theorem bigEndian_eq_uintValue (value : QByteArray) :
    bigEndian value = Rfc7252.uintValue value := by
  induction value using List.reverseRecOn with
  | nil => rfl
  | append_singleton value b ih =>
    rw [bigEndian_append, ih, Rfc7252.uintValue, Rfc7252.uintValue, List.reverse_concat,
      List.map_cons, Nat.ofDigits_cons]
    omega

namespace CoapOption

/-- The bytes that are written are those of the format, the other way round. -/
theorem uintBytes_eq (n : Nat) {value : Nat} (small : value < 256 ^ n) :
    uintBytes n value = (Rfc7252.uint value).reverse := by
  rw [Rfc7252.uint, List.reverse_reverse]
  induction n generalizing value with
  | zero =>
    obtain rfl : value = 0 := by simpa using small
    simp [uintBytes]
  | succ n ih =>
    rw [uintBytes]
    split_ifs with zero
    · simp [zero]
    · have rest : value / 256 < 256 ^ n := by
        rw [Nat.pow_succ] at small
        omega
      have byte : UInt8.ofNat (value % 256) = UInt8.ofNat value := by
        apply UInt8.toNat_inj.mp
        simp
      rw [ih rest, Nat.digits_def' (by decide) (Nat.pos_of_ne_zero zero),
        List.map_cons, byte]

/-- The loop reads the lowest byte first. -/
theorem uintValue_eq {o : CoapOption} (short : o.value.length ≤ 4) :
    o.uintValue = Rfc7252.uintValue o.value.reverse := by
  rw [Rfc7252.uintValue, List.reverse_reverse, uintValue]
  generalize o.value = value at short
  induction value using List.reverseRecOn with
  | nil => rfl
  | append_singleton value b ih =>
    rw [List.length_append, List.length_singleton] at short
    have below : Nat.ofDigits 256 (value.map UInt8.toNat) < 256 ^ value.length := by
      have bound := Nat.ofDigits_lt_base_pow_length (by decide)
        (fun d hd => @Rfc7252.toNat_lt_of_mem value d hd)
      rwa [List.length_map] at bound
    have power : 2 ^ (8 * value.length) = 256 ^ value.length := by
      rw [Nat.pow_mul]
    have fits : b.toNat * 256 ^ value.length < 2 ^ 32 := by
      have byte := b.toNat_lt
      have top : 256 ^ value.length ≤ 256 ^ 3 := Nat.pow_le_pow_right (by decide) (by omega)
      calc b.toNat * 256 ^ value.length ≤ 255 * 256 ^ 3 := Nat.mul_le_mul (by omega) top
        _ < 2 ^ 32 := by decide
    rw [List.zipIdx_append, List.foldl_append, ih (by omega), List.map_append, Nat.ofDigits_append,
      List.length_map]
    simp only [List.zipIdx_singleton, List.foldl_cons, List.foldl_nil, List.map_cons, List.map_nil,
      Nat.ofDigits_singleton, Nat.zero_add]
    rw [Nat.shiftLeft_eq, power, Nat.mod_eq_of_lt fits, Nat.lor_comm, ← power, ← Nat.shiftLeft_eq,
      ← Nat.shiftLeft_add_eq_or_of_lt (power ▸ below), Nat.shiftLeft_eq]
    ring

end CoapOption

/-- A number whose bytes are the same from both ends. -/
def Palindromic (n : Nat) : Prop := (Rfc7252.uint n).reverse = Rfc7252.uint n

instance (n : Nat) : Decidable (Palindromic n) := inferInstanceAs (Decidable (_ = _))

/-- Only as many bytes as the number needs. -/
theorem head_blockOptionValue {data : Nat} (positive : 0 < data) (small : data < 2 ^ 24) :
    (blockOptionValue data).head? ≠ some 0 := by
  have byte (n : Nat) : n &&& 0xFF = n % 256 := Nat.and_two_pow_sub_one_eq_mod n 8
  have first {n : Nat} (nonzero : 0 < n) (fits : n < 256) : some (UInt8.ofNat n) ≠ some 0 := by
    intro zero
    have same := congrArg UInt8.toNat (Option.some.inj zero)
    rw [UInt8.toNat_ofNat', UInt8.toNat_zero] at same
    omega
  simp only [blockOptionValue]
  rw [byte, byte, Nat.shiftRight_eq_div_pow, Nat.shiftRight_eq_div_pow]
  by_cases three : data > 0xFFFF
  · rw [if_pos three]
    exact first (by omega) (by omega)
  · rw [if_neg three]
    by_cases two : data > 0xFF
    · rw [if_pos two]
      exact first (by omega) (by omega)
    · rw [if_neg two]
      exact first (by omega) (by omega)

theorem blockOptionValue_palindrome {data : Nat} (small : data < 2 ^ 24) :
    (blockOptionValue data).reverse = blockOptionValue data ↔ Palindromic data := by
  rcases Nat.eq_zero_or_pos data with rfl | positive
  · decide
  · have own : Rfc7252.uint data = blockOptionValue data := by
      conv_lhs => rw [← bigEndian_blockOptionValue small, bigEndian_eq_uintValue]
      exact Rfc7252.uint_uintValue (head_blockOptionValue positive small)
    rw [Palindromic, own]

/-- What an integer option holds and what it is read as is in network byte order exactly if its
bytes are the same from both ends. The block options are written and read in network byte order, so
that the other reading agrees with theirs in the same cases. -/
theorem byteOrder_iff (name : Nat) (value : UInt32) {option : CoapOption}
    (short : option.value.length ≤ 4) (junk : UInt8) (m : InternalMessage) (r : InternalRequest)
    (blockName size : Nat) {number : Nat} (small : number < 2 ^ 20) :
    let block := r.blockOption blockName number size
    let more := writesMore blockName number size r.fullPayload.length
    let fields := number * 16 + (if more then 8 else 0) + szxOf size
    let read := m.setFromDescriptiveBlockOption junk block
    ((CoapOption.ofUint name value).value = Rfc7252.uint value.toNat ↔
      Palindromic value.toNat) ∧
    (option.uintValue = Rfc7252.uintValue option.value ↔ option.value.reverse = option.value) ∧
    (read.currentBlockNumber = number ∧ read.hasNextBlock = more ∧
      read.blockSize = 2 ^ (szxOf size + 4)) ∧
    (block.uintValue = fields ↔ Palindromic fields) := by
  intro block more fields read
  refine ⟨?_, ?_, ?_, ?_⟩
  · have bytes : (CoapOption.ofUint name value).value = (Rfc7252.uint value.toNat).reverse :=
      CoapOption.uintBytes_eq 4 value.toNat_lt
    rw [bytes]
    exact Iff.rfl
  · rw [CoapOption.uintValue_eq short]
    exact Rfc7252.uintValue_reverse_eq_iff option.value
  · exact read_blockOption junk r blockName size small
  · have data : blockOptionData blockName number size r.fullPayload.length = fields :=
      blockOptionData_eq blockName size _ (by omega)
    have bytes : block.value = blockOptionValue fields := congrArg blockOptionValue data
    have number_of : bigEndian block.value = fields :=
      bigEndian_blockOption r blockName size small
    have fits : fields < 2 ^ 24 := number_of ▸ bigEndian_blockOption_lt r blockName size small
    have length : block.value.length ≤ 4 := by
      rw [bytes, length_blockOptionValue]
      split_ifs <;> decide
    rw [CoapOption.uintValue_eq length, ← blockOptionValue_palindrome fits, ← bytes, ← number_of,
      bigEndian_eq_uintValue]
    exact Rfc7252.uintValue_reverse_eq_iff block.value

/-- A port whose two bytes are the same, and one block of the largest size. -/
theorem byteOrder_257 :
    (CoapOption.ofUint OptionName.uriPort 257).value = Rfc7252.uint 257 ∧
      CoapOption.uintValue ⟨OptionName.uriPort, [1, 1]⟩ = 257 ∧
      (({} : InternalRequest).blockOption OptionName.block2 15 1024).uintValue = 246 := by
  have short : (⟨OptionName.uriPort, [1, 1]⟩ : CoapOption).value.length ≤ 4 := by decide
  obtain ⟨written, read, -, block⟩ := byteOrder_iff OptionName.uriPort 257 short 0 {} {}
    OptionName.block2 1024 (by decide : 15 < 2 ^ 20)
  exact ⟨written.mpr (by decide), read.mpr (by decide), block.mpr (by decide)⟩

/-- Port 1234 goes out with its low byte first, and is read the other way round by a peer that
follows the format; the option for block 16 is misread as well. -/
theorem byteOrder_1234 :
    (CoapOption.ofUint OptionName.uriPort 1234).value = [0xD2, 0x04] ∧
      Rfc7252.uint 1234 = [0x04, 0xD2] ∧
      CoapOption.uintValue ⟨OptionName.uriPort, [0x04, 0xD2]⟩ = 0xD204 ∧
      Rfc7252.uintValue [0x04, 0xD2] = 1234 ∧
      let option := ({} : InternalRequest).blockOption OptionName.block2 16 16
      option.value = [0x01, 0x00] ∧ option.uintValue = 1 ∧
        blockNumberOf 0 option.value * 16 + szxOf 16 = 256 := by
  decide

end QtCoap
