import QtCoap.Codec.ToQByteArray
import QtCoap.Rfc7252.Format

namespace QtCoap

def CoapOption.toOpt (o : CoapOption) : Rfc7252.Opt := ⟨o.name, o.value⟩

/-- The frame of RFC 7252 that a message with a code stands for. -/
def Message.toFrame (m : Message) (code : UInt8) : Rfc7252.Frame where
  version := m.version.toNat
  type := m.type.toBits
  code := code
  messageId := m.messageId
  token := m.token
  options := m.options.map CoapOption.toOpt
  payload := m.payload

theorem writtenField_eq_extended {v : Nat} (h : v ≤ 268) :
    writtenField v = Rfc7252.extended v := by
  simp only [writtenField, Rfc7252.extended]
  split_ifs with h268 h12 h13 h269 <;> first | omega | rfl

theorem length_writtenField (v : Nat) : (writtenField v).2.length ≤ 1 := by
  simp only [writtenField]
  split_ifs <;> simp

theorem length_extended {v : Nat} (h : 268 < v) : (Rfc7252.extended v).2.length = 2 := by
  rw [Rfc7252.extended, if_neg (by omega), if_neg (by omega)]
  rfl

theorem writeOption_eq {last : UInt8} {o : CoapOption} (ordered : last.toNat ≤ o.name)
    (name_le : o.name ≤ 255) (short : o.length ≤ 268) :
    writeOption last o = Rfc7252.encodeOption last.toNat o.toOpt := by
  have length_eq : o.length % 2 ^ 16 = o.length := by omega
  have delta := writtenField_eq_extended (show o.name - last.toNat ≤ 268 by omega)
  have length := writtenField_eq_extended short
  have delta_lt := writtenField_lt (o.name - last.toNat)
  have length_lt := writtenField_lt o.length
  have header : UInt8.ofNat (((writtenField (o.name - last.toNat)).1 <<< 4) |||
      ((writtenField o.length).1 &&& 0x0F)) =
        UInt8.ofNat ((writtenField (o.name - last.toNat)).1 * 16 + (writtenField o.length).1) := by
    apply UInt8.toNat_inj.mp
    rw [optionHeader_eq delta_lt length_lt, UInt8.toNat_ofNat']
    omega
  unfold writeOption Rfc7252.encodeOption
  rw [delta_eq ordered name_le, length_eq]
  dsimp only
  rw [header, delta, length]
  rfl

/-- In length the code's form of an option is never above the standard's, and below it when
the value needs the two-byte form. -/
theorem length_writeOption {last : UInt8} {o : CoapOption} (ordered : last.toNat ≤ o.name)
    (name_le : o.name ≤ 255) :
    (writeOption last o).length ≤ (Rfc7252.encodeOption last.toNat o.toOpt).length ∧
      (268 < o.length → (writeOption last o).length <
        (Rfc7252.encodeOption last.toNat o.toOpt).length) := by
  have strict : 268 < o.length → (writeOption last o).length <
      (Rfc7252.encodeOption last.toNat o.toOpt).length := by
    intro long
    have two : (Rfc7252.extended o.toOpt.value.length).2.length = 2 := length_extended long
    have at_most_one := length_writtenField (o.length % 2 ^ 16)
    have delta := writtenField_eq_extended (show o.name - last.toNat ≤ 268 by omega)
    simp only [writeOption, Rfc7252.encodeOption]
    rw [delta_eq ordered name_le, delta]
    simp only [List.length_cons, List.length_append]
    have value : o.value.length = o.toOpt.value.length := rfl
    have number : o.name = o.toOpt.number := rfl
    rw [number]
    omega
  refine ⟨?_, strict⟩
  by_cases short : o.length ≤ 268
  · rw [writeOption_eq ordered name_le short]
  · exact (strict (by omega)).le

theorem writeOptions_eq {last : UInt8} {options : List CoapOption} (h : Ascending last options)
    (short : ∀ o ∈ options, o.length ≤ 268) :
    writeOptions last options =
      Rfc7252.encodeOptions last.toNat (options.map CoapOption.toOpt) := by
  induction options generalizing last with
  | nil => rfl
  | cons o options ih =>
    obtain ⟨number, rest⟩ := h.tail
    have behind := ih rest fun p hp => short p (by simp [hp])
    rw [number] at behind
    rw [writeOptions, List.map_cons, Rfc7252.encodeOptions, behind,
      writeOption_eq (h.above o (by simp)) (h.names_le o (by simp)) (short o (by simp))]
    rfl

theorem length_writeOptions {last : UInt8} {options : List CoapOption}
    (h : Ascending last options) :
    (writeOptions last options).length ≤
        (Rfc7252.encodeOptions last.toNat (options.map CoapOption.toOpt)).length ∧
      ((∃ o ∈ options, 268 < o.length) → (writeOptions last options).length <
        (Rfc7252.encodeOptions last.toNat (options.map CoapOption.toOpt)).length) := by
  induction options generalizing last with
  | nil => exact ⟨Nat.le_refl _, by simp⟩
  | cons o options ih =>
    obtain ⟨number, rest⟩ := h.tail
    obtain ⟨behind_le, behind_lt⟩ := ih rest
    rw [number] at behind_le behind_lt
    obtain ⟨here_le, here_lt⟩ := length_writeOption (h.above o (by simp)) (h.names_le o (by simp))
    have same : o.toOpt.number = o.name := rfl
    rw [writeOptions, List.map_cons, Rfc7252.encodeOptions, List.length_append,
      List.length_append, same]
    refine ⟨by omega, ?_⟩
    intro long
    obtain ⟨p, hp, long⟩ := long
    cases List.mem_cons.mp hp with
    | inl here =>
      have := here_lt (here ▸ long)
      omega
    | inr behind =>
      have := behind_lt ⟨p, behind, long⟩
      omega

theorem encodable_toOpt {last : UInt8} {options : List CoapOption} (h : Ascending last options)
    (short : ∀ o ∈ options, o.length ≤ 268) :
    Rfc7252.Encodable last.toNat (options.map CoapOption.toOpt) := by
  induction options generalizing last with
  | nil => trivial
  | cons o options ih =>
    obtain ⟨number, rest⟩ := h.tail
    have behind := ih rest fun p hp => short p (by simp [hp])
    rw [number] at behind
    have name_le := h.names_le o (by simp)
    have length_le : o.value.length ≤ 268 := short o (by simp)
    have number_le : o.toOpt.number ≤ 65535 := Nat.le_trans name_le (by decide)
    have value_le : o.toOpt.value.length ≤ 65804 := Nat.le_trans length_le (by decide)
    exact ⟨h.above o (by simp), number_le, value_le, behind⟩

theorem writePayload_eq (payload : QByteArray) :
    writePayload payload = Rfc7252.encodePayload payload := by
  cases payload <;> rfl

theorem toFrame_wellFormed {m : Message} (code : UInt8) (version_le : m.version ≤ 3)
    (token_le : m.token.length ≤ 8) (ascending : Ascending 0 m.options)
    (short : ∀ o ∈ m.options, o.length ≤ 268) : (m.toFrame code).WellFormed where
  version_lt := Nat.lt_succ_of_le (UInt8.le_iff_toNat_le.mp version_le)
  type_lt := m.type.toBits_lt
  token_le := token_le
  encodable := encodable_toOpt ascending short

theorem writeHeader_toFrame {m : Message} (code : UInt8) (version_le : m.version ≤ 3)
    (token_le : m.token.length ≤ 8) :
    writeHeader m code = Rfc7252.encodeHeader (m.toFrame code) := by
  rw [writeHeader_eq m code version_le token_le]
  rfl

theorem toQByteArray_eq_encode {m : Message} (code : UInt8) (version_le : m.version ≤ 3)
    (token_le : m.token.length ≤ 8) (ascending : Ascending 0 m.options)
    (short : ∀ o ∈ m.options, o.length ≤ 268) :
    toQByteArray m code = Rfc7252.encode (m.toFrame code) := by
  have options : writeOptions 0 m.options =
      Rfc7252.encodeOptions 0 (m.toFrame code).options := writeOptions_eq ascending short
  simp only [toQByteArray, Rfc7252.encode]
  rw [writeHeader_toFrame code version_le token_le, options, writePayload_eq]
  rfl

/-- A value that needs the two-byte form makes the output too short to be the encoding. -/
theorem length_toQByteArray_lt (m : Message) (code : UInt8) (ascending : Ascending 0 m.options)
    (long : ∃ o ∈ m.options, 268 < o.length) :
    (toQByteArray m code).length < (Rfc7252.encode (m.toFrame code)).length := by
  have options := (length_writeOptions ascending).2 long
  have same : (m.toFrame code).options = m.options.map CoapOption.toOpt := rfl
  have zero : (0 : UInt8).toNat = 0 := rfl
  rw [zero, ← same] at options
  have payload : (writePayload m.payload).length =
      (Rfc7252.encodePayload (m.toFrame code).payload).length := by
    rw [writePayload_eq]
    rfl
  have token : m.token.length = (m.toFrame code).token.length := rfl
  simp only [toQByteArray, Rfc7252.encode, writeHeader, Rfc7252.encodeHeader]
  simp only [List.length_append, List.length_cons, List.length_nil]
  omega

/-- The bytes are the standard's encoding, and an independent decoder reads the message back. -/
def EncodesAsRfc (m : Message) (code : UInt8) : Prop :=
  toQByteArray m code = Rfc7252.encode (m.toFrame code) ∧
    Rfc7252.decode (toQByteArray m code) = some (m.toFrame code)

theorem encodesAsRfc_iff (m : Message) (code : UInt8) (token_le : m.token.length ≤ 8)
    (sorted : Message.Sorted m.options)
    (named : ∀ o ∈ m.options, o.name ∈ OptionName.enumerators) :
    EncodesAsRfc m code ↔ m.version ≤ 3 ∧ ∀ o ∈ m.options, o.length ≤ 268 := by
  have ascending := Ascending.of_named named sorted
  constructor
  · intro h
    obtain ⟨encoding, decoding⟩ := h
    have wellFormed := (Rfc7252.encode_decode decoding).2
    refine ⟨?_, ?_⟩
    · have version_lt : m.version.toNat < 4 := wellFormed.version_lt
      exact UInt8.le_iff_toNat_le.mpr (Nat.le_of_lt_succ version_lt)
    · intro o ho
      by_contra long
      have shorter := length_toQByteArray_lt m code ascending ⟨o, ho, by omega⟩
      rw [encoding] at shorter
      exact Nat.lt_irrefl _ shorter
  · intro h
    obtain ⟨version_le, short⟩ := h
    have encoding := toQByteArray_eq_encode code version_le token_le ascending short
    refine ⟨encoding, ?_⟩
    rw [encoding]
    exact Rfc7252.decode_encode _ (toFrame_wellFormed code version_le token_le ascending short)

theorem encodesAsRfc_uriPath :
    EncodesAsRfc
      { token := [7], options := [⟨OptionName.uriPath, List.replicate 20 0x61⟩,
          ⟨OptionName.size1, [1]⟩], payload := [0xFF] } Method.post :=
  (encodesAsRfc_iff _ _ (by decide) (by decide) (by decide)).mpr ⟨by decide, by decide⟩

/-- A Proxy-Uri of 300 bytes is admitted without a warning, and encoded in a form of its own. -/
theorem proxyUri_not_encodesAsRfc :
    ¬ ∀ (m : Message) (code : UInt8), m.token.length ≤ 8 → Message.Sorted m.options →
      (∀ o ∈ m.options, o.name ∈ OptionName.enumerators) →
      (∀ o ∈ m.options, CoapOption.oversized o.name o.length = false) → EncodesAsRfc m code := by
  intro claim
  have long : 268 < (⟨OptionName.proxyUri, List.replicate 300 0x61⟩ : CoapOption).length := by
    rw [CoapOption.length, List.length_replicate]
    decide
  have admitted : CoapOption.oversized OptionName.proxyUri
      (⟨OptionName.proxyUri, List.replicate 300 0x61⟩ : CoapOption).length = false := by
    rw [CoapOption.length, List.length_replicate]
    decide
  have named : ∀ o ∈ [(⟨OptionName.proxyUri, List.replicate 300 0x61⟩ : CoapOption)],
      o.name ∈ OptionName.enumerators := by
    intro o ho
    rw [List.mem_singleton.mp ho]
    decide
  have sorted : Message.Sorted [(⟨OptionName.proxyUri, List.replicate 300 0x61⟩ : CoapOption)] :=
    List.pairwise_singleton _ _
  have encoding := (claim { options := [⟨OptionName.proxyUri, List.replicate 300 0x61⟩] }
    Method.get (by decide) sorted named
    (fun o ho => by rw [List.mem_singleton.mp ho]; exact admitted)).1
  have shorter := length_toQByteArray_lt
    { options := [⟨OptionName.proxyUri, List.replicate 300 0x61⟩] } Method.get
    (Ascending.of_named named sorted) ⟨_, List.mem_singleton_self _, long⟩
  rw [encoding] at shorter
  exact Nat.lt_irrefl _ shorter

end QtCoap
