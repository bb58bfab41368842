import QtCoap.Codec.RoundTrip
import QtCoap.Codec.RfcEncoding

namespace QtCoap

open Rfc7252 (Opt Frame Form extended encodeOption encodeOptions encodePayload Encodable)

def ofOpt (o : Opt) : CoapOption := ⟨o.number, o.value⟩

/-- Every delta and every length fits the plain or the one-byte form. -/
def OneByteForms : Nat → List Opt → Prop
  | _, [] => True
  | last, o :: options =>
    o.number - last ≤ 268 ∧ o.value.length ≤ 268 ∧ OneByteForms o.number options

/-- Decoding succeeds and gives exactly this frame. -/
def DecodesAs (junk : UInt8) (bytes : QByteArray) (f : Frame) : Prop :=
  ∃ r, createFromFrame junk bytes = .ok r ∧ r.message.toFrame r.responseCode = f

/-- The same options for each number, in the same order. -/
def SameGroups (read : List CoapOption) (options : List Opt) : Prop :=
  ∀ k, (read.map CoapOption.toOpt).filter (fun o => o.number = k) =
    options.filter (fun o => o.number = k)

theorem SameGroups.tail {p : CoapOption} {o : Opt} {read : List CoapOption} {options : List Opt}
    (h : SameGroups (p :: read) (o :: options)) (same : p.toOpt = o) :
    SameGroups read options := by
  intro k
  have group := h k
  rw [List.map_cons, same, List.filter_cons, List.filter_cons] at group
  by_cases hk : o.number = k
  · simpa [hk] using group
  · simpa [hk] using group

theorem SameGroups.first {p : CoapOption} {read : List CoapOption} {options : List Opt}
    (h : SameGroups (p :: read) options) : ∃ o ∈ options, o.number = p.name := by
  have group := h p.name
  rw [List.map_cons, List.filter_cons_of_pos (by simp [CoapOption.toOpt])] at group
  have found : p.toOpt ∈ options.filter (fun o => o.number = p.name) := by
    rw [← group]
    exact List.mem_cons_self
  exact ⟨p.toOpt, List.mem_of_mem_filter found, rfl⟩

/-- If the first options of both sides have the same number, they are the same. -/
theorem SameGroups.head {p : CoapOption} {o : Opt} {read : List CoapOption} {options : List Opt}
    (h : SameGroups (p :: read) (o :: options)) (number : o.number = p.name) : p.toOpt = o := by
  have group := h p.name
  rw [List.map_cons, List.filter_cons_of_pos (by simp [CoapOption.toOpt]),
    List.filter_cons_of_pos (by simp [number])] at group
  exact (List.cons.inj group).1

theorem Encodable.le {last : Nat} {options : List Opt} (h : Encodable last options) :
    ∀ o ∈ options, last ≤ o.number := by
  induction options generalizing last with
  | nil => simp
  | cons o options ih =>
    intro p hp
    cases List.mem_cons.mp hp with
    | inl here => exact here ▸ h.1
    | inr behind => exact h.1.trans (ih h.2.2.2 p behind)

/-- What the code takes from the extension bytes of a form is at most its value. -/
theorem FieldBytes.le_of_form {nibble v w : Nat} {d front x y : QByteArray}
    (field : FieldBytes nibble d v) (form : Form nibble front w) (same : d ++ x = front ++ y) :
    v ≤ w := by
  cases form with
  | plain small =>
    cases field with
    | plain not13 not14 => exact Nat.le_refl _
    | thirteen b => omega
    | fourteen b => omega
  | one c =>
    cases field with
    | plain not13 not14 => omega
    | thirteen b =>
      rw [(List.cons.inj same).1]
  | two high low =>
    cases field with
    | plain not13 not14 => omega
    | fourteen b =>
      rw [(List.cons.inj same).1]
      omega

theorem FieldBytes.of_form {nibble v : Nat} {front : QByteArray} (form : Form nibble front v)
    (small : v ≤ 268) : FieldBytes nibble front v := by
  cases form with
  | plain small => exact .plain (by omega) (by omega)
  | one b => exact .thirteen b
  | two high low => omega

/-- Where the code gets the value right although the form has two bytes, both are zero and
one of them is left in the stream. -/
theorem FieldBytes.same_value {nibble v : Nat} {d front : QByteArray}
    (field : FieldBytes nibble d v) (form : Form nibble front v) :
    (front = d ∧ v ≤ 268) ∨ front = 0 :: d := by
  generalize hw : v = w at form
  cases form with
  | plain small =>
    cases field with
    | plain not13 not14 => exact .inl ⟨rfl, by omega⟩
    | thirteen b => omega
    | fourteen b => omega
  | one c =>
    cases field with
    | plain not13 not14 => omega
    | thirteen b =>
      have := b.toNat_lt
      have bytes : c = b := UInt8.toNat_inj.mp (by omega)
      exact .inl ⟨by rw [bytes], by omega⟩
  | two high low =>
    cases field with
    | plain not13 not14 => omega
    | fourteen b =>
      have := b.toNat_lt
      have zero : high = 0 := UInt8.toNat_inj.mp (show high.toNat = 0 by omega)
      have bytes : low = b := UInt8.toNat_inj.mp (by omega)
      exact .inr (by rw [zero, bytes])

/-- Zero bytes in front of `w` that are read as part of it come out behind it. -/
theorem zeros_shift (k : Nat) (w x y : QByteArray)
    (h : w ++ x = List.replicate k 0 ++ (w ++ y)) : x = List.replicate k 0 ++ y := by
  induction w with
  | nil => exact h
  | cons a w ih =>
    cases k with
    | zero => simpa using h
    | succ k =>
      rw [List.replicate_succ, List.cons_append, List.cons_append, List.cons_append] at h
      obtain ⟨rfl, h⟩ := List.cons.inj h
      apply ih
      rw [h, List.replicate_succ', List.append_assoc]
      rfl

/-- The first round of a reading that does not stop at once. -/
theorem ReadsOptions.first {last : Nat} {header : UInt8} {bytes tail : QByteArray}
    {read : List CoapOption} (h : ReadsOptions last (header :: bytes) read tail)
    (notMarker : header ≠ 0xFF) :
    ∃ delta length d l value rest read', FieldBytes (highNibble header) d delta ∧
      FieldBytes (lowNibble header) l length ∧ value.length = length ∧
      bytes = d ++ l ++ value ++ rest ∧ read = ⟨(last + delta) % 2 ^ 16, value⟩ :: read' ∧
      ReadsOptions ((last + delta) % 2 ^ 16) rest read' tail := by
  cases h with
  | marker last payload => exact absurd rfl notMarker
  | option _ delta_bytes length_bytes whole behind =>
    exact ⟨_, _, _, _, _, _, _, delta_bytes, length_bytes, whole, rfl, rfl, behind⟩

/-- Leftover zero bytes are read as empty options with the last number; then there is one too
many of these. -/
theorem no_leftover_zeros {n : Nat} {options : List Opt} {payload tail : QByteArray}
    {read : List CoapOption} (k : Nat) (encodable : Encodable n options) (n_le : n ≤ 65535)
    (h : ReadsOptions n
      (List.replicate (k + 1) 0 ++ (encodeOptions n options ++ encodePayload payload)) read tail)
    (groups : SameGroups read options) : False := by
  induction options generalizing read with
  | nil =>
    rw [List.replicate_succ, List.cons_append] at h
    obtain ⟨_, _, _, _, _, _, _, _, _, _, _, rfl, _⟩ := h.first (by decide)
    obtain ⟨o, ho, -⟩ := groups.first
    cases ho
  | cons o options ih =>
    rw [List.replicate_succ, List.cons_append] at h
    obtain ⟨delta, length, d, l, value, rest, read', delta_bytes, length_bytes, whole, stream,
      rfl, behind⟩ := h.first (by decide)
    obtain ⟨rfl, rfl⟩ : d = [] ∧ delta = 0 := by
      have zero : highNibble 0 = 0 := by decide
      rw [zero] at delta_bytes
      cases delta_bytes
      exact ⟨rfl, rfl⟩
    obtain ⟨rfl, rfl⟩ : l = [] ∧ length = 0 := by
      have zero : lowNibble 0 = 0 := by decide
      rw [zero] at length_bytes
      cases length_bytes
      exact ⟨rfl, rfl⟩
    obtain rfl := List.length_eq_zero_iff.mp whole
    have number : (n + 0) % 2 ^ 16 = n := by omega
    rw [number] at groups behind
    have at_n : o.number = n := by
      obtain ⟨p, hp, p_number⟩ := groups.first
      have above := encodable.1
      have o_le : o.number ≤ p.number := by
        cases List.mem_cons.mp hp with
        | inl here => rw [here]
        | inr behind => exact Encodable.le encodable.2.2.2 p behind
      have p_eq : p.number = n := p_number
      omega
    have same := groups.head at_n
    have written : encodeOption n o = [0] := by
      rw [← same]
      simp only [encodeOption]
      simp [CoapOption.toOpt, extended]
    have next : rest = List.replicate (k + 1) 0 ++
        (encodeOptions n options ++ encodePayload payload) := by
      rw [encodeOptions, written, at_n] at stream
      rw [List.replicate_succ', List.append_assoc]
      simpa using stream.symm
    rw [next] at behind
    exact ih (at_n ▸ encodable.2.2.2) behind (groups.tail same)

theorem header_nibbles {delta length : Nat} (hdelta : delta < 15) (hlength : length < 15) :
    highNibble (UInt8.ofNat (delta * 16 + length)) = delta ∧
      lowNibble (UInt8.ofNat (delta * 16 + length)) = length ∧
      UInt8.ofNat (delta * 16 + length) ≠ 0xFF := by
  rw [highNibble_eq, lowNibble_eq]
  exact Rfc7252.optionHeader hdelta hlength

/-- Up to the first two-byte form reader and format agree; from there on the options read
cannot be those of the frame. -/
theorem oneByteForms_of_reads {last : Nat} {options : List Opt} {payload tail : QByteArray}
    {read : List CoapOption} (encodable : Encodable last options)
    (h : ReadsOptions last (encodeOptions last options ++ encodePayload payload) read tail)
    (groups : SameGroups read options) : OneByteForms last options := by
  induction options generalizing last read with
  | nil => trivial
  | cons o options ih =>
    obtain ⟨above, number_le, length_le, encodable_behind⟩ := encodable
    have delta_form := Rfc7252.extended_form (show o.number - last ≤ 65804 by omega)
    have length_form := Rfc7252.extended_form length_le
    obtain ⟨high, low, notMarker⟩ := header_nibbles delta_form.nibble_lt length_form.nibble_lt
    rw [encodeOptions, encodeOption, List.cons_append, List.cons_append] at h
    obtain ⟨delta, length, d, l, value, rest, read', delta_bytes, length_bytes, whole, stream,
      rfl, behind⟩ := h.first notMarker
    rw [high] at delta_bytes
    rw [low] at length_bytes
    simp only [List.append_assoc] at stream
    have delta_le := delta_bytes.le_of_form delta_form stream.symm
    have no_wrap : (last + delta) % 2 ^ 16 = last + delta := by omega
    rw [no_wrap] at groups behind
    have delta_eq : delta = o.number - last := by
      obtain ⟨p, hp, p_number⟩ := groups.first
      have o_le : o.number ≤ p.number := by
        cases List.mem_cons.mp hp with
        | inl here => rw [here]
        | inr later => exact Encodable.le encodable_behind p later
      have p_eq : p.number = last + delta := p_number
      omega
    have number : last + delta = o.number := by omega
    have same := groups.head number.symm
    have value_eq : value = o.value := by
      rw [← same]
      rfl
    subst delta_eq
    have length_eq : length = o.value.length := by rw [← whole, value_eq]
    subst value_eq
    subst length_eq
    rw [number] at behind
    have aligned_no_more : ∀ k, rest = List.replicate (k + 1) 0 ++
        (encodeOptions o.number options ++ encodePayload payload) → False := by
      intro k leftover
      rw [leftover] at behind
      exact no_leftover_zeros k encodable_behind number_le behind (groups.tail same)
    cases delta_bytes.same_value delta_form with
    | inl delta_same =>
      obtain ⟨delta_bytes_eq, delta_small⟩ := delta_same
      rw [delta_bytes_eq, List.append_cancel_left_eq] at stream
      cases length_bytes.same_value length_form with
      | inl length_same =>
        obtain ⟨length_bytes_eq, length_small⟩ := length_same
        rw [length_bytes_eq, List.append_cancel_left_eq, List.append_cancel_left_eq] at stream
        rw [← stream] at behind
        exact ⟨delta_small, length_small, ih encodable_behind behind (groups.tail same)⟩
      | inr length_two =>
        rw [length_two] at stream
        exact (aligned_no_more 0
          (zeros_shift 1 (l ++ o.value) _ _ (by simpa using stream.symm))).elim
    | inr delta_two =>
      rw [delta_two] at stream
      cases length_bytes.same_value length_form with
      | inl length_same =>
        rw [length_same.1] at stream
        exact (aligned_no_more 0
          (zeros_shift 1 (d ++ l ++ o.value) _ _ (by simpa using stream.symm))).elim
      | inr length_two =>
        rw [length_two] at stream
        have behind_delta : l ++ (o.value ++ rest) = List.replicate 1 0 ++
            (0 :: (l ++ (o.value ++ (encodeOptions o.number options ++ encodePayload payload)))) :=
          zeros_shift 1 d _ _ (by simpa using stream.symm)
        exact (aligned_no_more 1
          (zeros_shift 2 (l ++ o.value) _ _ (by simpa using behind_delta))).elim

/-- With one-byte forms only, the code reads the options the format has. -/
theorem readsOptions_encodeOptions {last : Nat} {options : List Opt} (payload : QByteArray)
    (encodable : Encodable last options) (forms : OneByteForms last options) :
    ReadsOptions last (encodeOptions last options ++ encodePayload payload)
      (options.map ofOpt) (encodePayload payload) := by
  induction options generalizing last with
  | nil =>
    rw [← writePayload_eq]
    exact readsOptions_writePayload payload last
  | cons o options ih =>
    obtain ⟨above, number_le, length_le, encodable_behind⟩ := encodable
    obtain ⟨delta_small, length_small, forms_behind⟩ := forms
    have delta_form := Rfc7252.extended_form (show o.number - last ≤ 65804 by omega)
    have length_form := Rfc7252.extended_form length_le
    obtain ⟨high, low, notMarker⟩ := header_nibbles delta_form.nibble_lt length_form.nibble_lt
    have delta_bytes := FieldBytes.of_form delta_form delta_small
    have length_bytes := FieldBytes.of_form length_form length_small
    have number : (last + (o.number - last)) % 2 ^ 16 = o.number := by omega
    rw [← high] at delta_bytes
    rw [← low] at length_bytes
    have behind := ih encodable_behind forms_behind
    rw [← number] at behind
    have read := ReadsOptions.option notMarker delta_bytes length_bytes rfl behind
    rw [number] at read
    rw [encodeOptions, encodeOption, List.map_cons, ofOpt, List.cons_append, List.cons_append]
    simp only [List.append_assoc] at read ⊢
    exact read

def Message.ofFrame (f : Frame) : Message where
  version := UInt8.ofNat f.version
  type := MessageType.ofBits f.type
  messageId := f.messageId
  token := f.token
  options := f.options.map ofOpt
  payload := f.payload

theorem toFrame_ofFrame {f : Frame} (h : f.WellFormed) :
    (Message.ofFrame f).toFrame f.code = f := by
  have version_lt := h.version_lt
  have version : (UInt8.ofNat f.version).toNat = f.version := by
    rw [UInt8.toNat_ofNat']
    omega
  have same : CoapOption.toOpt ∘ ofOpt = id := rfl
  simp only [Message.toFrame, Message.ofFrame]
  rw [version, MessageType.toBits_ofBits h.type_lt, List.map_map, same, List.map_id]

theorem sorted_ofOpt {last : Nat} {options : List Opt} (h : Encodable last options) :
    Message.Sorted (options.map ofOpt) := by
  induction options generalizing last with
  | nil => exact List.Pairwise.nil
  | cons o options ih =>
    rw [List.map_cons]
    refine List.pairwise_cons.mpr ⟨?_, ih h.2.2.2⟩
    intro p hp
    obtain ⟨q, hq, rfl⟩ := List.mem_map.mp hp
    exact Encodable.le h.2.2.2 q hq

/-- How the code sees an encoding: its header, its token, and the options and payload. -/
theorem encode_shape {f : Frame} (h : f.WellFormed) :
    ∃ b0 b2 b3, Rfc7252.encode f = b0 :: f.code :: b2 :: b3 ::
        (f.token ++ (encodeOptions 0 f.options ++ encodePayload f.payload)) ∧
      f.token.length = lowNibble b0 ∧
      headerReply (Rfc7252.encode f) b0 f.code b2 b3 =
        { message := { Message.ofFrame f with options := [], payload := [] }
          responseCode := f.code } := by
  have version_lt := h.version_lt
  have version_le : (Message.ofFrame f).version ≤ 3 := by
    have version : (UInt8.ofNat f.version).toNat = f.version := by
      rw [UInt8.toNat_ofNat']
      omega
    exact UInt8.le_iff_toNat_le.mpr (version ▸ Nat.le_of_lt_succ version_lt)
  have header : writeHeader (Message.ofFrame f) f.code = Rfc7252.encodeHeader f := by
    rw [writeHeader_toFrame _ version_le h.token_le, toFrame_ofFrame h]
  have token_at : QByteArray.mid (Rfc7252.encode f) 4 (Message.ofFrame f).token.length =
      (Message.ofFrame f).token := by
    simp [Rfc7252.encode, Rfc7252.encodeHeader, QByteArray.mid, Message.ofFrame]
  obtain ⟨b0, b2, b3, bytes, token_length, decoded⟩ :=
    headerReply_writeHeader (Message.ofFrame f) f.code version_le h.token_le token_at
  refine ⟨b0, b2, b3, ?_, token_length.symm, decoded⟩
  rw [Rfc7252.encode, ← header, bytes]
  simp

theorem decodesAs_of_forms (junk : UInt8) {f : Frame} (h : f.WellFormed)
    (forms : OneByteForms 0 f.options) : DecodesAs junk (Rfc7252.encode f) f := by
  obtain ⟨b0, b2, b3, shape, token_length, decoded_header⟩ := encode_shape h
  have reads := readsOptions_encodeOptions f.payload h.encodable forms
  have appended := Message.foldl_addOption_sorted (f.options.map ofOpt)
    { Message.ofFrame f with options := [], payload := [] } (sorted_ofOpt h.encodable)
  refine ⟨_, createFromFrame_of_reads junk shape token_length reads, ?_⟩
  rw [readReply_responseCode, readReply_message, decoded_header, appended]
  have payload : (encodePayload f.payload).drop 1 = f.payload := by
    cases f.payload <;> rfl
  rw [payload]
  exact toFrame_ofFrame h

theorem forms_of_decodesAs (junk : UInt8) {f : Frame} (h : f.WellFormed)
    (decodes : DecodesAs junk (Rfc7252.encode f) f) : OneByteForms 0 f.options := by
  obtain ⟨r, decoded, same⟩ := decodes
  obtain ⟨b0, b2, b3, shape, token_length, decoded_header⟩ := encode_shape h
  obtain ⟨c0, c1, c2, c3, token, bytes, read, tail, shape', token_length', reads, rfl⟩ :=
    createFromFrame_ok junk decoded
  rw [shape'] at shape
  simp only [List.cons.injEq] at shape
  obtain ⟨rfl, rfl, rfl, rfl, body⟩ := shape
  have bytes_eq := (List.append_inj body (token_length'.trans token_length.symm)).2
  rw [bytes_eq] at reads
  apply oneByteForms_of_reads h.encodable reads
  intro k
  have options : f.options = (read.foldl Message.addOption
      (headerReply (Rfc7252.encode f) c0 f.code c2 c3).message).options.map CoapOption.toOpt := by
    rw [← congrArg Frame.options same, readReply_message]
    rfl
  have grouped := Message.optionsNamed_foldl_addOption read
    (headerReply (Rfc7252.encode f) c0 f.code c2 c3).message k (by rw [decoded_header]; exact .nil)
  rw [decoded_header] at grouped options
  rw [options, List.filter_map, List.filter_map]
  have none : ({ Message.ofFrame f with options := [], payload := [] } : Message).optionsNamed k =
      [] := rfl
  rw [none, List.nil_append] at grouped
  exact congrArg (List.map CoapOption.toOpt) grouped.symm

theorem decodesAs_iff (junk : UInt8) {bytes : QByteArray} {f : Frame}
    (h : Rfc7252.decode bytes = some f) : DecodesAs junk bytes f ↔ OneByteForms 0 f.options := by
  obtain ⟨encoding, wellFormed⟩ := Rfc7252.encode_decode h
  rw [← encoding]
  exact ⟨forms_of_decodesAs junk wellFormed, decodesAs_of_forms junk wellFormed⟩

theorem decodesAs_size1 :
    DecodesAs 0 [0x61, 0x45, 0x12, 0x34, 0x4A, 0xD1, 0x2F, 0x05, 0xFF, 0x7B]
      ⟨1, 2, 0x45, 0x1234, [0x4A], [⟨60, [0x05]⟩], [0x7B]⟩ :=
  (decodesAs_iff 0 (by decide)).mpr ⟨by decide, by decide, trivial⟩

/-- An option 300 with one value byte: its delta has the two-byte form `00 1F`, of which the
code takes one byte. It reads an option 269 with the other one as value, and a second one. -/
theorem twoByteDelta_not_decodesAs :
    Rfc7252.decode [0x40, 0x45, 0x00, 0x01, 0xE1, 0x00, 0x1F, 0x00] =
        some ⟨1, 0, 0x45, 1, [], [⟨300, [0]⟩], []⟩ ∧
      ¬ DecodesAs 0 [0x40, 0x45, 0x00, 0x01, 0xE1, 0x00, 0x1F, 0x00]
        ⟨1, 0, 0x45, 1, [], [⟨300, [0]⟩], []⟩ := by
  refine ⟨by decide, ?_⟩
  intro h
  obtain ⟨r, decoded, same⟩ := h
  have read : createFromFrame 0 [0x40, 0x45, 0x00, 0x01, 0xE1, 0x00, 0x1F, 0x00] =
      .ok { message := { type := .confirmable, messageId := 1
                         options := [⟨269, [0x1F]⟩, ⟨269, []⟩] }
            responseCode := 0x45 } := rfl
  rw [read] at decoded
  obtain rfl := Except.ok.inj decoded
  revert same
  decide

end QtCoap
