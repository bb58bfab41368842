import QtCoap.Codec.FrameReading

namespace QtCoap

/-- Whole options, with their extension bytes and values, up to the end or a marker. -/
inductive WholeOptions : QByteArray → Prop
  | done : WholeOptions []
  | marker (payload : QByteArray) : WholeOptions (0xFF :: payload)
  | option {header : UInt8} {d l value rest : QByteArray} {delta : Nat} (notMarker : header ≠ 0xFF)
      (delta_bytes : FieldBytes (highNibble header) d delta)
      (length_bytes : FieldBytes (lowNibble header) l value.length)
      (behind : WholeOptions rest) : WholeOptions (header :: (d ++ l ++ value ++ rest))

theorem WholeOptions.reads {bytes : QByteArray} (h : WholeOptions bytes) (last : Nat) :
    ∃ options tail, ReadsOptions last bytes options tail := by
  induction h generalizing last with
  | done => exact ⟨[], [], .done last⟩
  | marker payload => exact ⟨[], _, .marker last payload⟩
  | @option header d l value rest delta notMarker delta_bytes length_bytes behind ih =>
    obtain ⟨options, tail, reads⟩ := ih ((last + delta) % 2 ^ 16)
    exact ⟨_, tail, .option notMarker delta_bytes length_bytes rfl reads⟩

theorem ReadsOptions.whole {last : Nat} {bytes tail : QByteArray} {options : List CoapOption}
    (h : ReadsOptions last bytes options tail) : WholeOptions bytes := by
  induction h with
  | done last => exact .done
  | marker last payload => exact .marker payload
  | option notMarker delta_bytes length_bytes whole behind ih =>
    exact .option notMarker delta_bytes (whole ▸ length_bytes) ih

/-- Four header bytes, as many token bytes as the header says, and whole options. -/
def WholeFrame (frame : QByteArray) : Prop :=
  ∃ b0 b1 b2 b3 token bytes, frame = b0 :: b1 :: b2 :: b3 :: (token ++ bytes) ∧
    token.length = lowNibble b0 ∧ WholeOptions bytes

/-- No byte behind the end of the frame is read, and the option loop comes to an end with
its cursor inside the frame or just behind it. -/
def ReadsInside (junk : UInt8) (frame : QByteArray) : Prop :=
  (∃ r, createFromFrame junk frame = .ok r) ∧
    ∃ i r, parseOptions junk frame = .ok (i, r) ∧ i ≤ frame.length

/-- Decoding comes to an end on every frame; where it fails, it has read behind the end. -/
theorem createFromFrame_error (junk : UInt8) {frame : QByteArray} {e : Fault}
    (h : createFromFrame junk frame = .error e) :
    ∃ index, e = .frameRead index ∧ frame.length ≤ index := by
  cases parsed : parseOptions junk frame with
  | ok result => simp [createFromFrame, parsed] at h
  | error f =>
    obtain rfl : f = e := by simpa [createFromFrame, parsed] using h
    exact parseOptions_error junk parsed

theorem readsInside_iff_wholeFrame (junk : UInt8) (frame : QByteArray) :
    ReadsInside junk frame ↔ WholeFrame frame := by
  constructor
  · intro h
    obtain ⟨-, i, r, parsed, -⟩ := h
    obtain ⟨b0, b1, b2, b3, token, bytes, options, tail, shape, token_length, reads⟩ :=
      parseOptions_ok junk parsed
    exact ⟨b0, b1, b2, b3, token, bytes, shape, token_length, reads.whole⟩
  · intro h
    obtain ⟨b0, b1, b2, b3, token, bytes, shape, token_length, whole⟩ := h
    obtain ⟨options, tail, reads⟩ := whole.reads 0
    have parsed := parseOptions_of_reads junk shape token_length reads
    have decoded := createFromFrame_of_reads junk shape token_length reads
    exact ⟨⟨_, decoded⟩, _, _, parsed, Nat.sub_le _ _⟩

/-- An option that announces four value bytes where one is left: the cursor jumps over the
end, which the loop tests for equality only. -/
theorem truncated_value_reads_outside :
    ¬ ReadsInside 0 [0x40, 0x45, 0x00, 0x01, 0xB4, 0x41] := by
  intro h
  obtain ⟨⟨r, decoded⟩, -⟩ := h
  have outside : createFromFrame 0 [0x40, 0x45, 0x00, 0x01, 0xB4, 0x41] = .error (.frameRead 9) :=
    rfl
  rw [outside] at decoded
  cases decoded

end QtCoap
