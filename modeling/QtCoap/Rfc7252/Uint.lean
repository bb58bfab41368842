import Mathlib.Data.Nat.Digits.Defs
import QtCoap.Rfc7252.Format

/-! The uint format of options, RFC 7252, section 3.2. -/

namespace Rfc7252

/-- A number in network byte order, in as few bytes as there can be: none for zero. -/
def uint (n : Nat) : Bytes := ((Nat.digits 256 n).map UInt8.ofNat).reverse

/-- The number that bytes in network byte order stand for, leading zeros allowed. -/
def uintValue (bytes : Bytes) : Nat := Nat.ofDigits 256 (bytes.reverse.map UInt8.toNat)

theorem toNat_lt_of_mem {bytes : Bytes} {d : Nat} (h : d ∈ bytes.map UInt8.toNat) : d < 256 := by
  obtain ⟨b, -, rfl⟩ := List.mem_map.mp h
  exact b.toNat_lt

theorem map_ofNat_toNat (bytes : Bytes) : (bytes.map UInt8.toNat).map UInt8.ofNat = bytes := by
  rw [List.map_map]
  exact (List.map_congr_left fun b _ => UInt8.ofNat_toNat).trans bytes.map_id

/-- Without a leading zero the bytes are the ones for their number. -/
theorem uint_uintValue {bytes : Bytes} (h : bytes.head? ≠ some 0) :
    uint (uintValue bytes) = bytes := by
  have digits : Nat.digits 256 (uintValue bytes) = bytes.reverse.map UInt8.toNat := by
    refine Nat.digits_ofDigits 256 (by decide) _ (fun d hd => toNat_lt_of_mem hd) fun ne => ?_
    intro zero
    apply h
    cases bytes with
    | nil => exact absurd rfl ne
    | cons b bytes =>
      have first : b.toNat = 0 := by simpa using zero
      rw [List.head?_cons, UInt8.toNat_inj.mp (first.trans UInt8.toNat_zero.symm)]
  rw [uint, digits, map_ofNat_toNat, List.reverse_reverse]

/-- As many bytes for the same number are the same bytes. -/
theorem uintValue_inj {bytes bytes' : Bytes} (length : bytes.length = bytes'.length)
    (h : uintValue bytes = uintValue bytes') : bytes = bytes' := by
  have digits := Nat.ofDigits_inj_of_len_eq (by decide) (by simpa using length)
    (fun d hd => toNat_lt_of_mem hd) (fun d hd => toNat_lt_of_mem hd) h
  have bytes_eq := congrArg (List.map UInt8.ofNat) digits
  rw [map_ofNat_toNat, map_ofNat_toNat] at bytes_eq
  exact List.reverse_injective bytes_eq

theorem uintValue_reverse_eq_iff (bytes : Bytes) :
    uintValue bytes.reverse = uintValue bytes ↔ bytes.reverse = bytes :=
  ⟨uintValue_inj bytes.length_reverse, congrArg uintValue⟩

end Rfc7252
