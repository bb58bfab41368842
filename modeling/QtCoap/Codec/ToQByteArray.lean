import QtCoap.Codec.Message

namespace QtCoap

/-- An option delta or length as written: its nibble and its extension bytes. -/
def writtenField (value : Nat) : Nat × QByteArray :=
  if value > 268 then (14, [UInt8.ofNat (value - 269)])
  else if value > 12 then (13, [UInt8.ofNat (value - 13)])
  else (value, [])

/-- One round of the loop over the options. `lastOptionNumber` is a `quint8`, delta and length
are `quint16`. -/
def writeOption (lastOptionNumber : UInt8) (option : CoapOption) : QByteArray :=
  let delta := writtenField ((option.name % 2 ^ 16 + 2 ^ 16 - lastOptionNumber.toNat) % 2 ^ 16)
  let length := writtenField (option.length % 2 ^ 16)
  UInt8.ofNat ((delta.1 <<< 4) ||| (length.1 &&& 0x0F)) :: (delta.2 ++ length.2 ++ option.value)

/-- "Insert Options". -/
def writeOptions : UInt8 → List CoapOption → QByteArray
  | _, [] => []
  | lastOptionNumber, option :: options =>
    writeOption lastOptionNumber option ++ writeOptions (UInt8.ofNat option.name) options

/-- "Insert header". -/
def writeHeader (message : Message) (method : Method) : QByteArray :=
  [UInt8.ofNat ((message.version.toNat <<< 6) ||| (message.type.toBits <<< 4) |||
      message.token.length),
    UInt8.ofNat (method.toNat &&& 0xFF),
    UInt8.ofNat ((message.messageId.toNat >>> 8) &&& 0xFF),
    UInt8.ofNat (message.messageId.toNat &&& 0xFF)]

/-- "Insert Payload". -/
def writePayload (payload : QByteArray) : QByteArray :=
  if payload.isEmpty then [] else 0xFF :: payload

/-- `QCoapInternalRequest::toQByteArray`. The assertion that the options are sorted is not
compiled into a release build. -/
def toQByteArray (message : Message) (method : Method) : QByteArray :=
  writeHeader message method ++ message.token ++ writeOptions 0 message.options ++
    writePayload message.payload

theorem writtenField_lt (value : Nat) : (writtenField value).1 < 15 := by
  simp only [writtenField]
  split_ifs with h268 h12
  · simp
  · simp
  · change value < 15
    omega

theorem shift_or_eq {high low : Nat} (k : Nat) (hlow : low < 2 ^ k) :
    (high <<< k) ||| low = high * 2 ^ k + low := by
  rw [← Nat.shiftLeft_add_eq_or_of_lt hlow, Nat.shiftLeft_eq]

theorem and_nibble {n : Nat} (h : n < 16) : n &&& 0x0F = n := by
  have low : n &&& 2 ^ 4 - 1 = n % 2 ^ 4 := Nat.and_two_pow_sub_one_eq_mod n 4
  change n &&& 2 ^ 4 - 1 = n
  rw [low]
  omega

theorem writeHeader_eq (message : Message) (method : Method) (version_le : message.version ≤ 3)
    (token_le : message.token.length ≤ 8) :
    writeHeader message method =
      [UInt8.ofNat (message.version.toNat * 64 + message.type.toBits * 16 + message.token.length),
        method, UInt8.ofNat (message.messageId.toNat / 256),
        UInt8.ofNat message.messageId.toNat] := by
  have type_lt := message.type.toBits_lt
  have version : message.version.toNat ≤ 3 := UInt8.le_iff_toNat_le.mp version_le
  have id_lt := message.messageId.toNat_lt
  have first : (message.version.toNat <<< 6) ||| (message.type.toBits <<< 4) |||
      message.token.length =
        message.version.toNat * 64 + message.type.toBits * 16 + message.token.length := by
    rw [Nat.or_assoc, shift_or_eq 4 (by omega), shift_or_eq 6 (by omega)]
    omega
  have byte (n : Nat) : n &&& 0xFF = n % 256 := Nat.and_two_pow_sub_one_eq_mod n 8
  have high : message.messageId.toNat >>> 8 = message.messageId.toNat / 256 :=
    Nat.shiftRight_eq_div_pow _ 8
  have method_lt := method.toNat_lt
  simp only [writeHeader]
  rw [first, byte, byte, byte, high]
  rw [Nat.mod_eq_of_lt method_lt, UInt8.ofNat_toNat,
    Nat.mod_eq_of_lt (show message.messageId.toNat / 256 < 256 by omega), UInt8.ofNat_mod_size]

/-- The header byte of an option holds the two nibbles, and is not the payload marker. -/
theorem optionHeader_eq {delta length : Nat} (hdelta : delta < 15) (hlength : length < 15) :
    (UInt8.ofNat ((delta <<< 4) ||| (length &&& 0x0F))).toNat = delta * 16 + length := by
  rw [and_nibble (by omega), shift_or_eq 4 (by omega), UInt8.toNat_ofNat']
  omega

theorem delta_eq {last : UInt8} {name : Nat} (ordered : last.toNat ≤ name) (name_le : name ≤ 255) :
    (name % 2 ^ 16 + 2 ^ 16 - last.toNat) % 2 ^ 16 = name - last.toNat := by
  omega

/-- What the option numbers have to be for the encoder's `quint8` not to wrap. -/
structure Ascending (last : UInt8) (options : List CoapOption) : Prop where
  above : ∀ o ∈ options, last.toNat ≤ o.name
  sorted : Message.Sorted options
  names_le : ∀ o ∈ options, o.name ≤ 255

theorem Ascending.tail {last : UInt8} {o : CoapOption} {options : List CoapOption}
    (h : Ascending last (o :: options)) :
    (UInt8.ofNat o.name).toNat = o.name ∧ Ascending (UInt8.ofNat o.name) options := by
  have name_le := h.names_le o (by simp)
  have number : (UInt8.ofNat o.name).toNat = o.name := by
    rw [UInt8.toNat_ofNat']
    omega
  obtain ⟨below, sorted⟩ := List.pairwise_cons.mp h.sorted
  refine ⟨number, ?_, sorted, fun p hp => h.names_le p (by simp [hp])⟩
  rw [number]
  exact below

theorem Ascending.of_named {options : List CoapOption}
    (named : ∀ o ∈ options, o.name ∈ OptionName.enumerators) (sorted : Message.Sorted options) :
    Ascending 0 options where
  above o _ := Nat.zero_le o.name
  sorted := sorted
  names_le := by
    intro o ho
    have := OptionName.le_size1 (named o ho)
    omega

end QtCoap
