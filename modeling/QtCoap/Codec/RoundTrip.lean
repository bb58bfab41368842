import QtCoap.Codec.FrameReading
import QtCoap.Codec.ToQByteArray

namespace QtCoap

/-- What the one-byte extension can carry is read back. -/
theorem writtenField_fieldBytes {value : Nat} (h : value ≤ 524) :
    FieldBytes (writtenField value).1 (writtenField value).2 value := by
  simp only [writtenField]
  split_ifs with h268 h12
  · have byte : (UInt8.ofNat (value - 269)).toNat + 269 = value := by
      rw [UInt8.toNat_ofNat']
      omega
    have field := FieldBytes.fourteen (UInt8.ofNat (value - 269))
    rwa [byte] at field
  · have byte : (UInt8.ofNat (value - 13)).toNat + 13 = value := by
      rw [UInt8.toNat_ofNat']
      omega
    have field := FieldBytes.thirteen (UInt8.ofNat (value - 13))
    rwa [byte] at field
  · exact .plain (by omega) (by omega)

theorem optionHeader_nibbles {delta length : Nat} (hdelta : delta < 15) (hlength : length < 15) :
    highNibble (UInt8.ofNat ((delta <<< 4) ||| (length &&& 0x0F))) = delta ∧
      lowNibble (UInt8.ofNat ((delta <<< 4) ||| (length &&& 0x0F))) = length ∧
      UInt8.ofNat ((delta <<< 4) ||| (length &&& 0x0F)) ≠ 0xFF := by
  have header := optionHeader_eq hdelta hlength
  refine ⟨?_, ?_, ?_⟩
  · rw [highNibble_eq, header]
    omega
  · rw [lowNibble_eq, header]
    omega
  · intro is_marker
    rw [is_marker] at header
    have marker : (0xFF : UInt8).toNat = 255 := rfl
    omega

/-- One option, written behind one with number `last`, is read as itself. -/
theorem readsOptions_writeOption {last : UInt8} {option : CoapOption} {rest tail : QByteArray}
    {options : List CoapOption} (ordered : last.toNat ≤ option.name) (name_le : option.name ≤ 255)
    (short : option.length ≤ 524) (behind : ReadsOptions option.name rest options tail) :
    ReadsOptions last.toNat (writeOption last option ++ rest) (option :: options) tail := by
  have length_eq : option.length % 2 ^ 16 = option.length := by omega
  have number : (last.toNat + (option.name - last.toNat)) % 2 ^ 16 = option.name := by omega
  obtain ⟨high, low, notMarker⟩ := optionHeader_nibbles
    (writtenField_lt (option.name - last.toNat)) (writtenField_lt option.length)
  have delta_bytes := writtenField_fieldBytes (show option.name - last.toNat ≤ 524 by omega)
  have length_bytes := writtenField_fieldBytes short
  rw [← high] at delta_bytes
  rw [← low] at length_bytes
  rw [← number] at behind
  have read := ReadsOptions.option notMarker delta_bytes length_bytes rfl behind
  rw [number] at read
  simp only [writeOption]
  rw [delta_eq ordered name_le, length_eq]
  exact read

theorem readsOptions_writeOptions {options : List CoapOption} {tail : QByteArray}
    (ends : ∀ last, ReadsOptions last tail [] tail) {last : UInt8}
    (ascending : Ascending last options) (short : ∀ o ∈ options, o.length ≤ 524) :
    ReadsOptions last.toNat (writeOptions last options ++ tail) options tail := by
  induction options generalizing last with
  | nil => exact ends last.toNat
  | cons option options ih =>
    obtain ⟨number, rest⟩ := ascending.tail
    have behind := ih rest fun o ho => short o (by simp [ho])
    rw [number] at behind
    rw [writeOptions, List.append_assoc]
    exact readsOptions_writeOption (ascending.above option (by simp))
      (ascending.names_le option (by simp)) (short option (by simp)) behind

theorem readsOptions_writePayload (payload : QByteArray) (last : Nat) :
    ReadsOptions last (writePayload payload) [] (writePayload payload) := by
  simp only [writePayload]
  cases payload with
  | nil => exact .done last
  | cons b payload => exact .marker last _

/-- The four header bytes are read back. -/
theorem headerReply_writeHeader (message : Message) (method : Method) {frame : QByteArray}
    (version_le : message.version ≤ 3) (token_le : message.token.length ≤ 8)
    (token_at : QByteArray.mid frame 4 message.token.length = message.token) :
    ∃ b0 b2 b3, writeHeader message method = [b0, method, b2, b3] ∧
      lowNibble b0 = message.token.length ∧
      headerReply frame b0 method b2 b3 =
        { message := { message with options := [], payload := [] }, responseCode := method } := by
  have version : message.version.toNat ≤ 3 := UInt8.le_iff_toNat_le.mp version_le
  have type_lt := message.type.toBits_lt
  have id_lt := message.messageId.toNat_lt
  generalize hb : message.version.toNat * 64 + message.type.toBits * 16 + message.token.length = n
  have n_lt : n < 256 := by omega
  have token_length : lowNibble (UInt8.ofNat n) = message.token.length := by
    rw [lowNibble_eq, UInt8.toNat_ofNat', Nat.mod_eq_of_lt n_lt]
    omega
  have read_version : UInt8.ofNat (((UInt8.ofNat n).toNat >>> 6) &&& 0x03) = message.version := by
    have bits : n / 2 ^ 6 &&& 2 ^ 2 - 1 = message.version.toNat := by
      rw [Nat.and_two_pow_sub_one_eq_mod]
      omega
    rw [UInt8.toNat_ofNat', Nat.mod_eq_of_lt n_lt, Nat.shiftRight_eq_div_pow]
    exact (congrArg UInt8.ofNat bits).trans UInt8.ofNat_toNat
  have read_type : MessageType.ofBits (((UInt8.ofNat n).toNat >>> 4) &&& 0x03) = message.type := by
    have bits : n / 2 ^ 4 &&& 2 ^ 2 - 1 = message.type.toBits := by
      rw [Nat.and_two_pow_sub_one_eq_mod]
      omega
    rw [UInt8.toNat_ofNat', Nat.mod_eq_of_lt n_lt, Nat.shiftRight_eq_div_pow]
    exact (congrArg MessageType.ofBits bits).trans message.type.ofBits_toBits
  have read_id : UInt16.ofNat (((UInt8.ofNat (message.messageId.toNat / 256)).toNat <<< 8) |||
      (UInt8.ofNat message.messageId.toNat).toNat) = message.messageId := by
    rw [shift_or_eq 8 (UInt8.toNat_lt _), UInt8.toNat_ofNat', UInt8.toNat_ofNat']
    apply UInt16.toNat_inj.mp
    rw [UInt16.toNat_ofNat']
    omega
  refine ⟨_, _, _, writeHeader_eq message method version_le token_le, ?_, ?_⟩
  · rw [hb, token_length]
  · simp only [headerReply]
    rw [hb, read_version, read_type, read_id, token_length, token_at]

/-- Decoding what the encoder wrote gives the message back, with its code. -/
theorem createFromFrame_toQByteArray (junk : UInt8) (message : Message) (code : UInt8)
    (version_le : message.version ≤ 3) (token_le : message.token.length ≤ 8)
    (named : ∀ o ∈ message.options, o.name ∈ OptionName.enumerators)
    (sorted : Message.Sorted message.options) (short : ∀ o ∈ message.options, o.length ≤ 524) :
    ∃ r, createFromFrame junk (toQByteArray message code) = .ok r ∧
      r.message = message ∧ r.responseCode = code := by
  have reads := readsOptions_writeOptions (readsOptions_writePayload message.payload)
    (Ascending.of_named named sorted) short
  have token_at : QByteArray.mid (toQByteArray message code) 4 message.token.length =
      message.token := by
    simp only [toQByteArray, writeHeader, QByteArray.mid]
    simp
  obtain ⟨b0, b2, b3, header, token_length, decoded_header⟩ :=
    headerReply_writeHeader message code version_le token_le token_at
  have shape : toQByteArray message code = b0 :: code :: b2 :: b3 ::
      (message.token ++ (writeOptions 0 message.options ++ writePayload message.payload)) := by
    simp only [toQByteArray]
    rw [header]
    simp
  refine ⟨_, createFromFrame_of_reads junk shape token_length.symm reads, ?_, ?_⟩
  · have appended := Message.foldl_addOption_sorted message.options
      { message with options := [], payload := [] } sorted
    rw [readReply_message, decoded_header, appended]
    have payload : (writePayload message.payload).drop 1 = message.payload := by
      simp only [writePayload]
      cases message.payload <;> rfl
    rw [payload]
    rfl
  · rw [readReply_responseCode]

theorem createFromFrame_toQByteArray_repeated_path :
    ∃ r, createFromFrame 0 (toQByteArray
        { token := [1, 2], payload := [0xFF, 0]
          options := [⟨OptionName.uriPath, [97]⟩, ⟨OptionName.uriPath, List.replicate 20 0xFF⟩,
            ⟨OptionName.size1, []⟩] } Method.put) = .ok r ∧
      r.message =
        { token := [1, 2], payload := [0xFF, 0]
          options := [⟨OptionName.uriPath, [97]⟩, ⟨OptionName.uriPath, List.replicate 20 0xFF⟩,
            ⟨OptionName.size1, []⟩] } ∧
      r.responseCode = Method.put :=
  createFromFrame_toQByteArray 0 _ _ (by decide) (by decide) (by decide) (by decide)
    (by decide)

end QtCoap
