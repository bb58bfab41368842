import QtCoap.Framework.Separated
import QtCoap.Reply.CoreLink

namespace QtCoap

/-! UTF-8 as Qt converts it, and the ASCII characters in it. -/

theorem le_of_mem_utf8EncodeChar {c : Char} {b : UInt8} (large : 128 ≤ c.toNat)
    (h : b ∈ String.utf8EncodeChar c) : 128 ≤ b.toNat := by
  have number : c.val.toNat = c.toNat := rfl
  have value := List.mem_map_of_mem (f := UInt8.toNat) h
  simp only [String.utf8EncodeChar] at value
  split_ifs at value
  · omega
  all_goals
    simp only [List.map_cons, List.map_nil, List.mem_cons, List.not_mem_nil, or_false,
      UInt8.toNat_ofNat'] at value
    omega

theorem utf8EncodeChar_ascii {c : Char} (ascii : c.toNat < 128) :
    String.utf8EncodeChar c = [UInt8.ofNat c.toNat] := by
  simp only [String.utf8EncodeChar]
  exact if_pos (Nat.le_of_lt_succ ascii)

/-- The byte of an ASCII character stands for this character only. -/
theorem mem_utf8EncodeChar_iff {a c : Char} (ascii : a.toNat < 128) :
    UInt8.ofNat a.toNat ∈ String.utf8EncodeChar c ↔ a = c := by
  have byte : (UInt8.ofNat a.toNat).toNat = a.toNat := by
    rw [UInt8.toNat_ofNat']
    omega
  constructor
  · intro h
    by_cases small : c.toNat < 128
    · rw [utf8EncodeChar_ascii small, List.mem_singleton] at h
      have same := congrArg UInt8.toNat h
      rw [byte, UInt8.toNat_ofNat'] at same
      exact Char.toNat_inj.mp (by omega)
    · have large := le_of_mem_utf8EncodeChar (Nat.not_lt.mp small) h
      omega
  · rintro rfl
    rw [utf8EncodeChar_ascii ascii]
    exact List.mem_singleton_self _

namespace QString

@[simp] theorem toUtf8_append (s t : QString) : (s ++ t).toUtf8 = s.toUtf8 ++ t.toUtf8 :=
  List.flatMap_append

theorem mem_toUtf8_iff {a : Char} (ascii : a.toNat < 128) (s : QString) :
    UInt8.ofNat a.toNat ∈ s.toUtf8 ↔ a ∈ s := by
  simp only [toUtf8, List.mem_flatMap, mem_utf8EncodeChar_iff ascii]
  exact exists_eq_right'

end QString

namespace QByteArray

theorem decodeUtf8_toUtf8 (s : QString) {rounds : Nat} (enough : s.toUtf8.length ≤ rounds) :
    decodeUtf8 rounds s.toUtf8 = s := by
  induction s generalizing rounds with
  | nil => simp [QString.toUtf8, decodeUtf8]
  | cons c s ih =>
    have bytes : QString.toUtf8 (c :: s) = String.utf8EncodeChar c ++ QString.toUtf8 s := rfl
    have size := String.length_utf8EncodeChar c
    have decoded :
        (String.utf8EncodeChar c ++ QString.toUtf8 s).toByteArray.utf8DecodeChar? 0 = some c := by
      rw [List.toByteArray_append]
      exact ByteArray.utf8DecodeChar?_utf8EncodeChar_append
    rw [bytes, List.length_append] at enough
    rw [bytes]
    cases encoded : String.utf8EncodeChar c with
    | nil => exact absurd encoded String.utf8EncodeChar_ne_nil
    | cons b bs =>
      rw [encoded] at decoded enough size
      rw [List.length_cons] at enough
      obtain ⟨rounds, rfl⟩ : ∃ n, rounds = n + 1 := ⟨rounds - 1, by omega⟩
      rw [List.cons_append] at decoded ⊢
      simp only [decodeUtf8, decoded]
      rw [← size, ← List.cons_append, List.drop_left, ih (by omega)]

/-- Qt reads back what it has written. -/
theorem fromUtf8_toUtf8 (s : QString) : fromUtf8 s.toUtf8 = s :=
  decodeUtf8_toUtf8 s (Nat.le_refl _)

theorem mem_decodeUtf8 {a : Char} (ascii : a.toNat < 128) {rounds : Nat} {data : QByteArray}
    (h : a ∈ decodeUtf8 rounds data) : UInt8.ofNat a.toNat ∈ data := by
  induction rounds generalizing data with
  | zero =>
    cases data with
    | nil => cases h
    | cons b bs => cases h
  | succ rounds ih =>
    cases data with
    | nil => cases h
    | cons b bs =>
      cases decoded : (b :: bs).toByteArray.utf8DecodeChar? 0 with
      | none =>
        simp only [decodeUtf8, decoded] at h
        rcases List.mem_cons.mp h with rfl | later
        · exact absurd ascii (by decide)
        · exact List.mem_cons_of_mem b (ih later)
      | some c =>
        simp only [decodeUtf8, decoded] at h
        rcases List.mem_cons.mp h with rfl | later
        · obtain ⟨rest, split⟩ := ByteArray.exists_of_utf8DecodeChar?_eq_some decoded
          have bytes := congrArg (·.data.toList) split
          simp only [ByteArray.toList_data_append, List.toList_data_toByteArray] at bytes
          rw [bytes]
          exact List.mem_append_left _ ((mem_utf8EncodeChar_iff ascii).mpr rfl)
        · exact List.mem_of_mem_drop (ih later)

/-- No ASCII character appears that was not there. -/
theorem mem_fromUtf8 {a : Char} (ascii : a.toNat < 128) {data : QByteArray}
    (h : a ∈ data.fromUtf8) : UInt8.ofNat a.toNat ∈ data := mem_decodeUtf8 ascii h

end QByteArray

end QtCoap
