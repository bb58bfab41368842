import QtCoap.Codec.OptionReading

namespace QtCoap

namespace InternalReply

theorem foldl_addOption_message (junk : UInt8) (options : List CoapOption) (r : InternalReply) :
    (options.foldl (addOption junk) r).message = options.foldl Message.addOption r.message := by
  induction options generalizing r with
  | nil => rfl
  | cons o options ih => rw [List.foldl_cons, List.foldl_cons, ih, addOption_message]

theorem foldl_addOption_responseCode (junk : UInt8) (options : List CoapOption)
    (r : InternalReply) : (options.foldl (addOption junk) r).responseCode = r.responseCode := by
  induction options generalizing r with
  | nil => rfl
  | cons o options ih => rw [List.foldl_cons, ih, addOption_responseCode]

end InternalReply

namespace Message

theorem foldl_addOption_frame (options : List CoapOption) (m : Message) :
    options.foldl addOption m = { m with options := (options.foldl addOption m).options } := by
  induction options generalizing m with
  | nil => rfl
  | cons o options ih =>
    rw [List.foldl_cons, ih]
    rfl

theorem foldl_addOption_sorted (options : List CoapOption) (m : Message)
    (h : Sorted (m.options ++ options)) :
    (options.foldl addOption m).options = m.options ++ options := by
  induction options generalizing m with
  | nil => simp
  | cons o options ih =>
    have ordered := List.pairwise_append.mp h
    have last : (m.addOption o).options = m.options ++ [o] :=
      addOption_append m o fun p hp => ordered.2.2 p hp o (by simp)
    have step : Sorted ((m.addOption o).options ++ options) := by
      rw [last, List.append_assoc]
      exact h
    rw [List.foldl_cons, ih _ step, last, List.append_assoc]
    rfl

/-- Whatever the order in which options come, those with one name stay in it. -/
theorem optionsNamed_foldl_addOption (options : List CoapOption) (m : Message)
    (name : Nat) (h : Sorted m.options) :
    (options.foldl addOption m).optionsNamed name =
      m.optionsNamed name ++ options.filter (fun o => o.name = name) := by
  induction options generalizing m with
  | nil => simp
  | cons o options ih =>
    rw [List.foldl_cons, ih _ (addOption_sorted m o h), optionsNamed_addOption m o name h,
      List.append_assoc, List.filter_cons]
    by_cases ho : o.name = name <;> simp [ho]

end Message

/-- What decoding makes of a header, the options read and what the option loop stopped at. -/
def readReply (junk : UInt8) (frame : QByteArray) (b0 b1 b2 b3 : UInt8)
    (options : List CoapOption) (tail : QByteArray) : InternalReply :=
  let r := options.foldl (InternalReply.addOption junk) (headerReply frame b0 b1 b2 b3)
  { r with message := { r.message with payload := tail.drop 1 } }

theorem readReply_message (junk : UInt8) (frame : QByteArray) (b0 b1 b2 b3 : UInt8)
    (options : List CoapOption) (tail : QByteArray) :
    (readReply junk frame b0 b1 b2 b3 options tail).message =
      { (headerReply frame b0 b1 b2 b3).message with
        options := (options.foldl Message.addOption (headerReply frame b0 b1 b2 b3).message).options
        payload := tail.drop 1 } := by
  simp only [readReply]
  rw [InternalReply.foldl_addOption_message, Message.foldl_addOption_frame]

@[simp] theorem readReply_responseCode (junk : UInt8) (frame : QByteArray) (b0 b1 b2 b3 : UInt8)
    (options : List CoapOption) (tail : QByteArray) :
    (readReply junk frame b0 b1 b2 b3 options tail).responseCode = b1 :=
  InternalReply.foldl_addOption_responseCode junk options _

theorem parsePayload_eq {frame tail : QByteArray} {i : Nat} {r : InternalReply}
    (at_tail : frame.drop i = tail) (ends : tail = [] ∨ ∃ payload, tail = 0xFF :: payload)
    (no_payload : r.message.payload = []) :
    parsePayload frame i r = { r with message := { r.message with payload := tail.drop 1 } } := by
  have first : frame[i]? = tail[0]? := by
    rw [← at_tail, List.getElem?_drop, Nat.add_zero]
  have behind : frame.drop (i + 1) = tail.drop 1 := by
    rw [← List.drop_drop, at_tail]
  rw [parsePayload, first, behind, no_payload]
  cases ends with
  | inl at_end =>
    subst at_end
    rw [if_neg (by simp), List.drop_nil, ← no_payload]
  | inr marker =>
    obtain ⟨payload, rfl⟩ := marker
    rw [if_pos (by simp)]
    rfl

theorem parseOptions_cons (junk b0 b1 b2 b3 : UInt8) (rest : QByteArray) :
    parseOptions junk (b0 :: b1 :: b2 :: b3 :: rest) =
      optionLoop junk (b0 :: b1 :: b2 :: b3 :: rest) (rest.length + 5) (4 + lowNibble b0) 0
        (headerReply (b0 :: b1 :: b2 :: b3 :: rest) b0 b1 b2 b3) := rfl

/-- A frame with whole options is decoded: nothing is read behind its end, and the cursor
stops in front of the payload marker or at the end. -/
theorem parseOptions_of_reads (junk : UInt8) {frame token bytes tail : QByteArray}
    {b0 b1 b2 b3 : UInt8} {options : List CoapOption}
    (shape : frame = b0 :: b1 :: b2 :: b3 :: (token ++ bytes))
    (token_length : token.length = lowNibble b0)
    (reads : ReadsOptions 0 bytes options tail) :
    parseOptions junk frame = .ok (frame.length - tail.length,
      options.foldl (InternalReply.addOption junk) (headerReply frame b0 b1 b2 b3)) := by
  have behind_token : frame.drop (4 + lowNibble b0) = bytes := by
    rw [shape, ← token_length, ← List.drop_drop]
    simp
  have inside : 4 + lowNibble b0 ≤ frame.length := by
    rw [shape]
    simp only [List.length_cons, List.length_append]
    omega
  have loop := optionLoop_of_reads junk frame reads (frame.length + 1) (4 + lowNibble b0)
    (headerReply frame b0 b1 b2 b3) behind_token inside (by omega)
  subst shape
  rw [parseOptions_cons]
  exact loop

theorem createFromFrame_of_reads (junk : UInt8) {frame token bytes tail : QByteArray}
    {b0 b1 b2 b3 : UInt8} {options : List CoapOption}
    (shape : frame = b0 :: b1 :: b2 :: b3 :: (token ++ bytes))
    (token_length : token.length = lowNibble b0)
    (reads : ReadsOptions 0 bytes options tail) :
    createFromFrame junk frame = .ok (readReply junk frame b0 b1 b2 b3 options tail) := by
  have parsed := parseOptions_of_reads junk shape token_length reads
  have tail_of_frame : tail <:+ frame := by
    rw [shape]
    exact reads.suffix.trans
      ((List.suffix_append token bytes).trans (List.suffix_append [b0, b1, b2, b3] _))
  have no_payload : (options.foldl (InternalReply.addOption junk)
      (headerReply frame b0 b1 b2 b3)).message.payload = [] := by
    rw [InternalReply.foldl_addOption_message, Message.foldl_addOption_frame]
    rfl
  rw [createFromFrame, parsed]
  exact congrArg Except.ok (parsePayload_eq (List.suffix_iff_eq_drop.mp tail_of_frame).symm
    reads.tail_cases no_payload)

/-- Decoding succeeds on nothing else. -/
theorem parseOptions_ok (junk : UInt8) {frame : QByteArray} {i : Nat} {r : InternalReply}
    (h : parseOptions junk frame = .ok (i, r)) :
    ∃ b0 b1 b2 b3 token bytes options tail,
      frame = b0 :: b1 :: b2 :: b3 :: (token ++ bytes) ∧ token.length = lowNibble b0 ∧
        ReadsOptions 0 bytes options tail := by
  match frame, h with
  | [], h | [_], h | [_, _], h | [_, _, _], h => cases h
  | b0 :: b1 :: b2 :: b3 :: rest, h =>
    rw [parseOptions_cons] at h
    obtain ⟨options, tail, reads, inside⟩ := optionLoop_ok junk _ _ _ _ _ h
    rw [← List.drop_drop] at reads
    refine ⟨b0, b1, b2, b3, rest.take (lowNibble b0), rest.drop (lowNibble b0), options, tail,
      ?_, ?_, reads⟩
    · rw [List.take_append_drop]
    · rw [List.length_take]
      simp only [List.length_cons] at inside
      omega

theorem parseOptions_error (junk : UInt8) {frame : QByteArray} {e : Fault}
    (h : parseOptions junk frame = .error e) :
    ∃ index, e = .frameRead index ∧ frame.length ≤ index := by
  match frame, h with
  | [], h => exact ⟨0, by cases h; rfl, by simp⟩
  | [_], h => exact ⟨1, by cases h; rfl, by simp⟩
  | [_, _], h => exact ⟨2, by cases h; rfl, by simp⟩
  | [_, _, _], h => exact ⟨3, by cases h; rfl, by simp⟩
  | b0 :: b1 :: b2 :: b3 :: rest, h =>
    rw [parseOptions_cons] at h
    exact optionLoop_error junk _ _ _ _ _ (by simp only [List.length_cons]; omega) (by omega) h

theorem createFromFrame_ok (junk : UInt8) {frame : QByteArray} {r : InternalReply}
    (h : createFromFrame junk frame = .ok r) :
    ∃ b0 b1 b2 b3 token bytes options tail,
      frame = b0 :: b1 :: b2 :: b3 :: (token ++ bytes) ∧ token.length = lowNibble b0 ∧
        ReadsOptions 0 bytes options tail ∧
        r = readReply junk frame b0 b1 b2 b3 options tail := by
  cases parsed : parseOptions junk frame with
  | error e => simp [createFromFrame, parsed] at h
  | ok result =>
    obtain ⟨b0, b1, b2, b3, token, bytes, options, tail, shape, token_length, reads⟩ :=
      parseOptions_ok junk parsed
    have decoded := createFromFrame_of_reads junk shape token_length reads
    rw [decoded] at h
    obtain rfl := Except.ok.inj h
    exact ⟨b0, b1, b2, b3, token, bytes, options, tail, shape, token_length, reads, rfl⟩

end QtCoap
