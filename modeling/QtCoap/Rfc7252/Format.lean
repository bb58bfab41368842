import Mathlib.Algebra.Ring.Nat
import Mathlib.Data.List.Basic

/-! The message format of RFC 7252, section 3. -/

namespace Rfc7252

abbrev Bytes := List UInt8

structure Opt where
  number : Nat
  value : Bytes
  deriving DecidableEq, Repr

structure Frame where
  version : Nat
  type : Nat
  code : UInt8
  messageId : UInt16
  token : Bytes
  options : List Opt
  payload : Bytes
  deriving DecidableEq, Repr

/-- Options whose numbers and lengths the format can carry, behind one with number `last`. -/
def Encodable : Nat → List Opt → Prop
  | _, [] => True
  | last, o :: options =>
    last ≤ o.number ∧ o.number ≤ 65535 ∧ o.value.length ≤ 65804 ∧ Encodable o.number options

structure Frame.WellFormed (f : Frame) : Prop where
  version_lt : f.version < 4
  type_lt : f.type < 4
  token_le : f.token.length ≤ 8
  encodable : Encodable 0 f.options

/-- The nibble and the extension bytes for an option delta or length. -/
def extended (v : Nat) : Nat × Bytes :=
  if v < 13 then (v, [])
  else if v < 269 then (13, [UInt8.ofNat (v - 13)])
  else (14, [UInt8.ofNat ((v - 269) / 256), UInt8.ofNat (v - 269)])

def encodeOption (last : Nat) (o : Opt) : Bytes :=
  let delta := extended (o.number - last)
  let length := extended o.value.length
  UInt8.ofNat (delta.1 * 16 + length.1) :: (delta.2 ++ length.2 ++ o.value)

def encodeOptions : Nat → List Opt → Bytes
  | _, [] => []
  | last, o :: options => encodeOption last o ++ encodeOptions o.number options

def encodePayload : Bytes → Bytes
  | [] => []
  | payload => 0xFF :: payload

def encodeHeader (f : Frame) : Bytes :=
  [UInt8.ofNat (f.version * 64 + f.type * 16 + f.token.length), f.code,
    UInt8.ofNat (f.messageId.toNat / 256), UInt8.ofNat f.messageId.toNat]

def encode (f : Frame) : Bytes :=
  encodeHeader f ++ f.token ++ encodeOptions 0 f.options ++ encodePayload f.payload

/-- Reads the extension bytes that a nibble asks for; 15 is reserved. -/
def readExtended (nibble : Nat) (bytes : Bytes) : Option (Nat × Bytes) :=
  if nibble < 13 then some (nibble, bytes)
  else
    match nibble, bytes with
    | 13, b :: rest => some (b.toNat + 13, rest)
    | 14, high :: low :: rest => some (high.toNat * 256 + low.toNat + 269, rest)
    | _, _ => none

/-- Reads options up to the end or the payload marker, which has to have a payload behind it. -/
def readOptions : Nat → Nat → Bytes → Option (List Opt × Bytes)
  | 0, _, _ => none
  | _ + 1, _, [] => some ([], [])
  | fuel + 1, last, header :: bytes =>
    if header = 0xFF then (if bytes = [] then none else some ([], bytes))
    else
      match readExtended (header.toNat / 16) bytes with
      | none => none
      | some (delta, bytes) =>
        match readExtended (header.toNat % 16) bytes with
        | none => none
        | some (length, bytes) =>
          if 65535 < last + delta ∨ bytes.length < length then none
          else
            match readOptions fuel (last + delta) (bytes.drop length) with
            | none => none
            | some (options, payload) =>
              some (⟨last + delta, bytes.take length⟩ :: options, payload)

def decode : Bytes → Option Frame
  | b0 :: b1 :: b2 :: b3 :: bytes =>
    let tokenLength := b0.toNat % 16
    if 8 < tokenLength ∨ bytes.length < tokenLength then none
    else
      match readOptions (bytes.length + 1) 0 (bytes.drop tokenLength) with
      | none => none
      | some (options, payload) =>
        some
          { version := b0.toNat / 64
            type := b0.toNat / 16 % 4
            code := b1
            messageId := UInt16.ofNat (b2.toNat * 256 + b3.toNat)
            token := bytes.take tokenLength
            options := options
            payload := payload }
  | _ => none

/-- How an option delta or length may be written: the three forms of the format. -/
inductive Form : (nibble : Nat) → (bytes : Bytes) → (value : Nat) → Prop
  | plain {n : Nat} (small : n < 13) : Form n [] n
  | one (b : UInt8) : Form 13 [b] (b.toNat + 13)
  | two (high low : UInt8) : Form 14 [high, low] (high.toNat * 256 + low.toNat + 269)

theorem extended_form {v : Nat} (h : v ≤ 65804) : Form (extended v).1 (extended v).2 v := by
  simp only [extended]
  split_ifs with h13 h269
  · exact .plain h13
  · have byte : (UInt8.ofNat (v - 13)).toNat + 13 = v := by
      rw [UInt8.toNat_ofNat']
      omega
    have form := Form.one (UInt8.ofNat (v - 13))
    rwa [byte] at form
  · have bytes : (UInt8.ofNat ((v - 269) / 256)).toNat * 256 +
        (UInt8.ofNat (v - 269)).toNat + 269 = v := by
      rw [UInt8.toNat_ofNat', UInt8.toNat_ofNat']
      omega
    have form := Form.two (UInt8.ofNat ((v - 269) / 256)) (UInt8.ofNat (v - 269))
    rwa [bytes] at form

/-- The forms do not overlap: a value has one encoding. -/
theorem Form.eq_extended {nibble v : Nat} {bytes : Bytes} (h : Form nibble bytes v) :
    extended v = (nibble, bytes) ∧ v ≤ 65804 := by
  cases h with
  | plain small => exact ⟨by simp [extended, small], by omega⟩
  | one b =>
    have := b.toNat_lt
    have byte : UInt8.ofNat (b.toNat + 13 - 13) = b := by simp
    refine ⟨?_, by omega⟩
    rw [extended, if_neg (by omega), if_pos (by omega), byte]
  | two high low =>
    have := high.toNat_lt
    have := low.toNat_lt
    have first : UInt8.ofNat ((high.toNat * 256 + low.toNat + 269 - 269) / 256) = high := by
      apply UInt8.toNat_inj.mp
      rw [UInt8.toNat_ofNat']
      omega
    have second : UInt8.ofNat (high.toNat * 256 + low.toNat + 269 - 269) = low := by
      apply UInt8.toNat_inj.mp
      rw [UInt8.toNat_ofNat']
      omega
    refine ⟨?_, by omega⟩
    rw [extended, if_neg (by omega), if_neg (by omega), first, second]

theorem Form.nibble_lt {nibble v : Nat} {bytes : Bytes} (h : Form nibble bytes v) :
    nibble < 15 := by
  cases h with
  | plain small => omega
  | one b => omega
  | two high low => omega

theorem readExtended_form {nibble v : Nat} {bytes : Bytes} (h : Form nibble bytes v)
    (rest : Bytes) : readExtended nibble (bytes ++ rest) = some (v, rest) := by
  cases h with
  | plain small => exact if_pos small
  | one b => rfl
  | two high low => rfl

theorem form_of_readExtended {nibble v : Nat} {bytes rest : Bytes}
    (h : readExtended nibble bytes = some (v, rest)) :
    ∃ front, Form nibble front v ∧ bytes = front ++ rest := by
  unfold readExtended at h
  split_ifs at h with small
  · obtain ⟨rfl, rfl⟩ : nibble = v ∧ bytes = rest := by simpa using h
    exact ⟨[], .plain small, rfl⟩
  · split at h
    · next b tail =>
      obtain ⟨rfl, rfl⟩ : b.toNat + 13 = v ∧ tail = rest := by simpa using h
      exact ⟨[b], .one b, rfl⟩
    · next high low tail =>
      obtain ⟨rfl, rfl⟩ : high.toNat * 256 + low.toNat + 269 = v ∧ tail = rest := by simpa using h
      exact ⟨[high, low], .two high low, rfl⟩
    · cases h
/-- The header byte of an option gives its nibbles back and is not the payload marker. -/
theorem optionHeader {delta length : Nat} (hdelta : delta < 15) (hlength : length < 15) :
    (UInt8.ofNat (delta * 16 + length)).toNat / 16 = delta ∧
      (UInt8.ofNat (delta * 16 + length)).toNat % 16 = length ∧
      UInt8.ofNat (delta * 16 + length) ≠ 0xFF := by
  have header : (UInt8.ofNat (delta * 16 + length)).toNat = delta * 16 + length := by
    rw [UInt8.toNat_ofNat']
    omega
  refine ⟨by omega, by omega, ?_⟩
  intro is_marker
  rw [is_marker] at header
  have marker : (0xFF : UInt8).toNat = 255 := rfl
  omega

/-- The encoding has at least one byte for each option. -/
theorem length_encodeOptions (last : Nat) (options : List Opt) :
    options.length ≤ (encodeOptions last options).length := by
  induction options generalizing last with
  | nil => exact Nat.zero_le _
  | cons o options ih =>
    have := ih o.number
    simp only [encodeOptions, encodeOption, List.length_append, List.length_cons]
    omega

theorem readOptions_encodeOptions (last : Nat) (options : List Opt) (payload : Bytes) (fuel : Nat)
    (enough : options.length < fuel) (h : Encodable last options) :
    readOptions fuel last (encodeOptions last options ++ encodePayload payload) =
      some (options, payload) := by
  induction options generalizing last fuel with
  | nil =>
    obtain ⟨n, rfl⟩ : ∃ n, fuel = n + 1 := ⟨fuel - 1, by omega⟩
    cases payload with
    | nil => rfl
    | cons b payload => rfl
  | cons o options ih =>
    obtain ⟨n, rfl⟩ : ∃ n, fuel = n + 1 := ⟨fuel - 1, by omega⟩
    obtain ⟨above, number_le, length_le, behind⟩ := h
    have delta := extended_form (show o.number - last ≤ 65804 by omega)
    have length := extended_form length_le
    obtain ⟨high, low, notMarker⟩ := optionHeader delta.nibble_lt length.nibble_lt
    have read_delta := readExtended_form delta ((extended o.value.length).2 ++ (o.value ++
      (encodeOptions o.number options ++ encodePayload payload)))
    have read_length := readExtended_form length (o.value ++
      (encodeOptions o.number options ++ encodePayload payload))
    have number : last + (o.number - last) = o.number := by omega
    have rest := ih o.number n (by simpa using enough) behind
    simp only [encodeOptions, encodeOption, List.cons_append, List.append_assoc, readOptions]
    rw [if_neg notMarker, high, low, read_delta]
    dsimp only
    rw [read_length, number]
    dsimp only
    rw [if_neg (by simp only [List.length_append]; omega), List.drop_left, List.take_left, rest]

theorem encodeOptions_readOptions {fuel last : Nat} {bytes payload : Bytes} {options : List Opt}
    (h : readOptions fuel last bytes = some (options, payload)) :
    encodeOptions last options ++ encodePayload payload = bytes ∧ Encodable last options := by
  induction fuel generalizing last bytes options with
  | zero => cases h
  | succ n ih =>
    cases bytes with
    | nil =>
      obtain ⟨rfl, rfl⟩ : [] = options ∧ [] = payload := by simpa [readOptions] using h
      exact ⟨rfl, trivial⟩
    | cons header bytes =>
      rw [readOptions] at h
      split_ifs at h with is_marker no_payload
      · obtain ⟨rfl, rfl⟩ : [] = options ∧ bytes = payload := by simpa using h
        obtain ⟨b, rest, rfl⟩ := List.exists_cons_of_ne_nil no_payload
        rw [is_marker]
        exact ⟨rfl, trivial⟩
      · cases hd : readExtended (header.toNat / 16) bytes with
        | none => simp [hd] at h
        | some delta =>
          obtain ⟨delta, bytes₁⟩ := delta
          simp only [hd] at h
          cases hl : readExtended (header.toNat % 16) bytes₁ with
          | none => simp [hl] at h
          | some length =>
            obtain ⟨length, bytes₂⟩ := length
            simp only [hl] at h
            split_ifs at h with bad
            cases hr : readOptions n (last + delta) (bytes₂.drop length) with
            | none => simp [hr] at h
            | some rest =>
              obtain ⟨options', payload'⟩ := rest
              obtain ⟨rfl, rfl⟩ : _ = options ∧ payload' = payload := by simpa [hr] using h
              obtain ⟨d, delta_form, rfl⟩ := form_of_readExtended hd
              obtain ⟨l, length_form, rfl⟩ := form_of_readExtended hl
              obtain ⟨rest_eq, encodable⟩ := ih hr
              have value_length : (bytes₂.take length).length = length := by
                rw [List.length_take]
                omega
              have header_eq : UInt8.ofNat (header.toNat / 16 * 16 + header.toNat % 16) =
                  header := by
                rw [Nat.div_add_mod' header.toNat 16, UInt8.ofNat_toNat]
              have number_le : last + delta ≤ 65535 := by omega
              refine ⟨?_, Nat.le_add_right _ _, number_le, ?_, encodable⟩
              · simp only [encodeOptions, encodeOption]
                rw [value_length, Nat.add_sub_cancel_left, delta_form.eq_extended.1,
                  length_form.eq_extended.1]
                simp only [List.cons_append, List.append_assoc]
                rw [rest_eq, List.take_append_drop, header_eq]
              · rw [value_length]
                exact length_form.eq_extended.2

theorem decode_encode (f : Frame) (h : f.WellFormed) : decode (encode f) = some f := by
  obtain ⟨version, type, code, messageId, token, options, payload⟩ := f
  obtain ⟨version_lt, type_lt, token_le, encodable⟩ := h
  dsimp only at version_lt type_lt token_le encodable
  have id_lt := messageId.toNat_lt
  have b0 : (UInt8.ofNat (version * 64 + type * 16 + token.length)).toNat =
      version * 64 + type * 16 + token.length := by
    rw [UInt8.toNat_ofNat']
    omega
  have read_id : UInt16.ofNat ((UInt8.ofNat (messageId.toNat / 256)).toNat * 256 +
      (UInt8.ofNat messageId.toNat).toNat) = messageId := by
    rw [UInt8.toNat_ofNat', UInt8.toNat_ofNat']
    apply UInt16.toNat_inj.mp
    rw [UInt16.toNat_ofNat']
    omega
  have token_length : (version * 64 + type * 16 + token.length) % 16 = token.length := by omega
  have fuel : options.length <
      (token ++ (encodeOptions 0 options ++ encodePayload payload)).length + 1 := by
    have := length_encodeOptions 0 options
    simp only [List.length_append]
    omega
  have read := readOptions_encodeOptions 0 options payload _ fuel encodable
  simp only [encode, encodeHeader, List.cons_append, List.nil_append, List.append_assoc, decode]
  rw [b0, token_length, if_neg (by simp only [List.length_append]; omega), List.drop_left, read,
    List.take_left, read_id]
  dsimp only
  rw [show (version * 64 + type * 16 + token.length) / 64 = version by omega,
    show (version * 64 + type * 16 + token.length) / 16 % 4 = type by omega]

/-- A frame that is read has one encoding: the bytes it was read from. -/
theorem encode_decode {bytes : Bytes} {f : Frame} (h : decode bytes = some f) :
    encode f = bytes ∧ f.WellFormed := by
  match bytes, h with
  | [], h | [_], h | [_, _], h | [_, _, _], h => cases h
  | b0 :: b1 :: b2 :: b3 :: bytes, h =>
    simp only [decode] at h
    split_ifs at h with bad
    cases hr : readOptions (bytes.length + 1) 0 (bytes.drop (b0.toNat % 16)) with
    | none => simp [hr] at h
    | some rest =>
      obtain ⟨options, payload⟩ := rest
      simp only [hr, Option.some.injEq] at h
      obtain ⟨rest_eq, encodable⟩ := encodeOptions_readOptions hr
      have token_length : (bytes.take (b0.toNat % 16)).length = b0.toNat % 16 := by
        rw [List.length_take]
        omega
      have b0_lt := b0.toNat_lt
      have b2_lt := b2.toNat_lt
      have b3_lt := b3.toNat_lt
      have first : b0.toNat / 64 * 64 + b0.toNat / 16 % 4 * 16 + b0.toNat % 16 = b0.toNat := by
        omega
      have id : (UInt16.ofNat (b2.toNat * 256 + b3.toNat)).toNat = b2.toNat * 256 + b3.toNat := by
        rw [UInt16.toNat_ofNat']
        omega
      have high : UInt8.ofNat ((b2.toNat * 256 + b3.toNat) / 256) = b2 := by
        apply UInt8.toNat_inj.mp
        rw [UInt8.toNat_ofNat']
        omega
      have low : UInt8.ofNat (b2.toNat * 256 + b3.toNat) = b3 := by
        apply UInt8.toNat_inj.mp
        rw [UInt8.toNat_ofNat']
        omega
      subst h
      refine ⟨?_, ⟨?_, ?_, ?_, encodable⟩⟩
      · simp only [encode, encodeHeader, List.cons_append, List.nil_append, List.append_assoc]
        rw [token_length, first, id, high, low, UInt8.ofNat_toNat, rest_eq,
          List.take_append_drop]
      · dsimp only
        omega
      · dsimp only
        omega
      · dsimp only
        omega

end Rfc7252
