import QtCoap.Codec.InternalReply

namespace QtCoap

theorem highNibble_eq (b : UInt8) : highNibble b = b.toNat / 16 := by
  have low : b.toNat >>> 4 &&& 2 ^ 4 - 1 = b.toNat >>> 4 % 2 ^ 4 :=
    Nat.and_two_pow_sub_one_eq_mod _ 4
  have small := b.toNat_lt
  change b.toNat >>> 4 &&& 15 = _
  rw [show (15 : Nat) = 2 ^ 4 - 1 from rfl, low, Nat.shiftRight_eq_div_pow]
  omega

theorem lowNibble_eq (b : UInt8) : lowNibble b = b.toNat % 16 :=
  Nat.and_two_pow_sub_one_eq_mod _ 4

theorem byteAt_drop {frame rest : QByteArray} {i : Nat} {b : UInt8}
    (h : frame.drop i = b :: rest) : byteAt frame i = .ok b := by
  have at_i : frame[i]? = some b := by
    rw [← Nat.add_zero i, ← List.getElem?_drop, h]
    rfl
  simp [byteAt, at_i]

theorem byteAt_ok {frame : QByteArray} {i : Nat} {b : UInt8} (h : byteAt frame i = .ok b) :
    frame.drop i = b :: frame.drop (i + 1) := by
  unfold byteAt at h
  cases hb : frame[i]? with
  | none => simp [hb] at h
  | some c =>
    obtain rfl : c = b := by simpa [hb] using h
    obtain ⟨bound, hc⟩ := List.getElem?_eq_some_iff.mp hb
    rw [← hc, List.drop_eq_getElem_cons bound]

theorem byteAt_error {frame : QByteArray} {i : Nat} {e : Fault} (h : byteAt frame i = .error e) :
    e = .frameRead i ∧ frame.length ≤ i := by
  unfold byteAt at h
  cases hb : frame[i]? with
  | none => exact ⟨by simpa [hb] using h.symm, List.getElem?_eq_none_iff.mp hb⟩
  | some c => simp [hb] at h

theorem mid_append_drop (frame : QByteArray) (pos len : Nat) :
    frame.drop pos = QByteArray.mid frame pos len ++ frame.drop (pos + len) := by
  rw [QByteArray.mid, ← List.drop_drop, List.take_append_drop]

/-- `bytes` behind an option header give the field with this nibble the value `value`. -/
inductive FieldBytes : (nibble : Nat) → (bytes : QByteArray) → (value : Nat) → Prop
  | plain {n : Nat} (not13 : n ≠ 13) (not14 : n ≠ 14) : FieldBytes n [] n
  | thirteen (b : UInt8) : FieldBytes 13 [b] (b.toNat + 13)
  | fourteen (b : UInt8) : FieldBytes 14 [b] (b.toNat + 269)

theorem FieldBytes.extendedField_eq {frame bytes rest : QByteArray} {i nibble value : Nat}
    (h : FieldBytes nibble bytes value) (behind : frame.drop (i + 1) = bytes ++ rest) :
    extendedField frame i nibble = .ok (i + bytes.length, value) := by
  cases h with
  | plain not13 not14 => simp [extendedField, not13, not14]
  | thirteen b => simp [extendedField, byteAt_drop behind]
  | fourteen b => simp [extendedField, byteAt_drop behind]

theorem extendedField_ok {frame : QByteArray} {i j nibble value : Nat}
    (h : extendedField frame i nibble = .ok (j, value)) :
    ∃ bytes, FieldBytes nibble bytes value ∧ j = i + bytes.length ∧
      frame.drop (i + 1) = bytes ++ frame.drop (j + 1) := by
  unfold extendedField at h
  split_ifs at h with h13 h14
  · cases hb : byteAt frame (i + 1) with
    | error e => simp [hb] at h
    | ok b =>
      obtain ⟨rfl, rfl⟩ : i + 1 = j ∧ b.toNat + 13 = value := by simpa [hb] using h
      exact ⟨[b], h13 ▸ .thirteen b, rfl, byteAt_ok hb⟩
  · cases hb : byteAt frame (i + 1) with
    | error e => simp [hb] at h
    | ok b =>
      obtain ⟨rfl, rfl⟩ : i + 1 = j ∧ b.toNat + 269 = value := by simpa [hb] using h
      exact ⟨[b], h14 ▸ .fourteen b, rfl, byteAt_ok hb⟩
  · obtain ⟨rfl, rfl⟩ : i = j ∧ nibble = value := by simpa using h
    exact ⟨[], .plain h13 h14, rfl, rfl⟩

theorem extendedField_error {frame : QByteArray} {i nibble : Nat} {e : Fault}
    (h : extendedField frame i nibble = .error e) :
    ∃ index, e = .frameRead index ∧ frame.length ≤ index := by
  unfold extendedField at h
  split_ifs at h
  · cases hb : byteAt frame (i + 1) with
    | ok b => simp [hb] at h
    | error f =>
      obtain rfl : f = e := by simpa [hb] using h
      exact ⟨i + 1, byteAt_error hb⟩
  · cases hb : byteAt frame (i + 1) with
    | ok b => simp [hb] at h
    | error f =>
      obtain rfl : f = e := by simpa [hb] using h
      exact ⟨i + 1, byteAt_error hb⟩

/-- `ReadsOptions last bytes options tail`: the option loop, started at `bytes` behind an
option with number `last`, reads `options` and stops in front of `tail`. -/
inductive ReadsOptions : Nat → QByteArray → List CoapOption → QByteArray → Prop
  | done (last : Nat) : ReadsOptions last [] [] []
  | marker (last : Nat) (payload : QByteArray) :
      ReadsOptions last (0xFF :: payload) [] (0xFF :: payload)
  | option {last delta length : Nat} {header : UInt8} {d l value rest tail : QByteArray}
      {options : List CoapOption} (notMarker : header ≠ 0xFF)
      (delta_bytes : FieldBytes (highNibble header) d delta)
      (length_bytes : FieldBytes (lowNibble header) l length)
      (whole : value.length = length)
      (behind : ReadsOptions ((last + delta) % 2 ^ 16) rest options tail) :
      ReadsOptions last (header :: (d ++ l ++ value ++ rest))
        (⟨(last + delta) % 2 ^ 16, value⟩ :: options) tail

theorem ReadsOptions.suffix {last : Nat} {bytes tail : QByteArray}
    {options : List CoapOption} (h : ReadsOptions last bytes options tail) : tail <:+ bytes := by
  induction h with
  | done last => exact List.suffix_rfl
  | marker last payload => exact List.suffix_rfl
  | option notMarker delta_bytes length_bytes whole behind ih =>
    exact ((ih.trans (List.suffix_append _ _))).trans (List.suffix_cons _ _)

theorem ReadsOptions.tail_cases {last : Nat} {bytes tail : QByteArray}
    {options : List CoapOption} (h : ReadsOptions last bytes options tail) :
    tail = [] ∨ ∃ payload, tail = 0xFF :: payload := by
  induction h with
  | done last => exact .inl rfl
  | marker last payload => exact .inr ⟨payload, rfl⟩
  | option notMarker delta_bytes length_bytes whole behind ih => exact ih

/-- The loop does what the relation says, whatever the reply held before. -/
theorem optionLoop_of_reads (junk : UInt8) (frame : QByteArray) {last : Nat}
    {bytes tail : QByteArray} {options : List CoapOption}
    (h : ReadsOptions last bytes options tail) :
    ∀ (rounds i : Nat) (r : InternalReply), frame.drop i = bytes → i ≤ frame.length →
      frame.length < i + rounds →
      optionLoop junk frame rounds i last r =
        .ok (frame.length - tail.length, options.foldl (InternalReply.addOption junk) r) := by
  induction h with
  | done last =>
    intro rounds i r hbytes hi hrounds
    have at_end : i = frame.length := by
      have := List.drop_eq_nil_iff.mp hbytes
      omega
    obtain ⟨n, rfl⟩ : ∃ n, rounds = n + 1 := ⟨rounds - 1, by omega⟩
    simp [optionLoop, at_end]
  | marker last payload =>
    intro rounds i r hbytes hi hrounds
    have hlen : frame.length - i = payload.length + 1 := by
      rw [← List.length_drop, hbytes, List.length_cons]
    obtain ⟨n, rfl⟩ : ∃ n, rounds = n + 1 := ⟨rounds - 1, by omega⟩
    have stop : frame.length - (payload.length + 1) = i := by omega
    have inside : i ≠ frame.length := by omega
    simp [optionLoop, inside, byteAt_drop hbytes, stop]
  | @option last delta length header d l value rest tail options notMarker delta_bytes
      length_bytes whole behind ih =>
    intro rounds i r hbytes hi hrounds
    have hlen : frame.length - i = 1 + d.length + l.length + value.length + rest.length := by
      rw [← List.length_drop, hbytes]
      simp only [List.length_cons, List.length_append]
      omega
    have inside : i ≠ frame.length := by omega
    obtain ⟨n, rfl⟩ : ∃ n, rounds = n + 1 := ⟨rounds - 1, by omega⟩
    have after_header : frame.drop (i + 1) = d ++ (l ++ value ++ rest) := by
      rw [← List.drop_drop, hbytes]
      simp
    have after_delta : frame.drop (i + d.length + 1) = l ++ (value ++ rest) := by
      rw [show i + d.length + 1 = i + 1 + d.length by omega, ← List.drop_drop, after_header]
      simp
    have after_length : frame.drop (i + d.length + l.length + 1) = value ++ rest := by
      rw [show i + d.length + l.length + 1 = i + d.length + 1 + l.length by omega,
        ← List.drop_drop, after_delta]
      simp
    have after_value : frame.drop (i + d.length + l.length + 1 + length) = rest := by
      rw [← List.drop_drop, after_length, ← whole]
      simp
    have taken : QByteArray.mid frame (i + d.length + l.length + 1) length = value := by
      rw [QByteArray.mid, after_length, ← whole]
      simp
    rw [optionLoop, if_neg inside, byteAt_drop hbytes]
    simp only [if_neg notMarker, delta_bytes.extendedField_eq after_header,
      length_bytes.extendedField_eq after_delta, taken]
    exact ih n _ _ after_value (by omega) (by omega)

/-- A loop that comes to an end has read whole options up to the end or to a marker. -/
theorem optionLoop_ok (junk : UInt8) (frame : QByteArray) (rounds i last : Nat)
    (r : InternalReply) {j : Nat} {r' : InternalReply}
    (h : optionLoop junk frame rounds i last r = .ok (j, r')) :
    ∃ options tail, ReadsOptions last (frame.drop i) options tail ∧ i ≤ frame.length := by
  induction rounds generalizing i last r with
  | zero => simp [optionLoop] at h
  | succ n ih =>
    rw [optionLoop] at h
    split_ifs at h with at_end
    · refine ⟨[], [], ?_, at_end.le⟩
      rw [at_end, List.drop_length]
      exact .done last
    · cases hb : byteAt frame i with
      | error e => simp [hb] at h
      | ok header =>
        have start := byteAt_ok hb
        have inside : i ≤ frame.length := by
          by_contra outside
          simp [List.drop_eq_nil_of_le (Nat.le_of_not_le outside)] at start
        simp only [hb] at h
        split_ifs at h with hmarker
        · refine ⟨[], frame.drop i, ?_, inside⟩
          rw [start, hmarker]
          exact .marker last _
        · cases hd : extendedField frame i (highNibble header) with
          | error e => simp [hd] at h
          | ok delta =>
            obtain ⟨i₁, delta⟩ := delta
            simp only [hd] at h
            cases hl : extendedField frame i₁ (lowNibble header) with
            | error e => simp [hl] at h
            | ok length =>
              obtain ⟨i₂, length⟩ := length
              simp only [hl] at h
              obtain ⟨options, tail, reads, bound⟩ := ih _ _ _ h
              obtain ⟨d, delta_bytes, rfl, after_header⟩ := extendedField_ok hd
              obtain ⟨l, length_bytes, rfl, after_delta⟩ := extendedField_ok hl
              have whole :
                  (QByteArray.mid frame (i + d.length + l.length + 1) length).length = length := by
                rw [QByteArray.mid, List.length_take, List.length_drop]
                omega
              have this_option := ReadsOptions.option hmarker delta_bytes length_bytes whole reads
              rw [List.append_assoc, List.append_assoc, ← mid_append_drop, ← after_delta,
                ← after_header, ← start] at this_option
              exact ⟨_, tail, this_option, inside⟩

/-- The only way for the loop to fail is a read behind the end: it never runs out of rounds. -/
theorem optionLoop_error (junk : UInt8) (frame : QByteArray) (rounds i last : Nat)
    (r : InternalReply) {e : Fault} (enough : frame.length < i + rounds) (some_round : 0 < rounds)
    (h : optionLoop junk frame rounds i last r = .error e) :
    ∃ index, e = .frameRead index ∧ frame.length ≤ index := by
  induction rounds generalizing i last r with
  | zero => omega
  | succ n ih =>
    rw [optionLoop] at h
    split_ifs at h with at_end
    cases hb : byteAt frame i with
    | error f =>
      obtain rfl : f = e := by simpa [hb] using h
      exact ⟨i, byteAt_error hb⟩
    | ok header =>
      simp only [hb] at h
      split_ifs at h with hmarker
      cases hd : extendedField frame i (highNibble header) with
      | error f =>
        obtain rfl : f = e := by simpa [hd] using h
        exact extendedField_error hd
      | ok delta =>
        obtain ⟨i₁, delta⟩ := delta
        simp only [hd] at h
        cases hl : extendedField frame i₁ (lowNibble header) with
        | error f =>
          obtain rfl : f = e := by simpa [hl] using h
          exact extendedField_error hl
        | ok length =>
          obtain ⟨i₂, length⟩ := length
          simp only [hl] at h
          obtain ⟨d, -, rfl, -⟩ := extendedField_ok hd
          obtain ⟨l, -, rfl, -⟩ := extendedField_ok hl
          have inside : i < frame.length := by
            by_contra outside
            have start := byteAt_ok hb
            simp [List.drop_eq_nil_of_le (Nat.le_of_not_lt outside)] at start
          exact ih _ _ _ (by omega) (by omega) h

end QtCoap
