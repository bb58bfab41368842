import Mathlib.Data.Nat.ModEq
import Mathlib.Algebra.Ring.Parity
import Mathlib.Data.Nat.Prime.Basic

namespace Framework

/-- `value` doubled so many times, in words of `width` bits. -/
def doubled (width value : Nat) : Nat → Nat
  | 0 => value
  | times + 1 => doubled width value times * 2 % 2 ^ width

variable {width value : Nat}

theorem doubled_modEq (times : Nat) :
    doubled width value times ≡ value * 2 ^ times [MOD 2 ^ width] := by
  induction times with
  | zero => rw [pow_zero, mul_one]; rfl
  | succ times ih =>
    rw [pow_succ, ← mul_assoc]
    exact (Nat.mod_modEq _ _).trans (ih.mul_right 2)

/-- As long as nothing wraps this is the power of two. -/
theorem doubled_of_lt {times : Nat} (small : value * 2 ^ times < 2 ^ width) :
    doubled width value times = value * 2 ^ times := by
  cases times with
  | zero => rw [pow_zero, mul_one]; rfl
  | succ times =>
    have same := (@doubled_modEq width value (times + 1)).symm
    have bound : doubled width value (times + 1) < 2 ^ width := Nat.mod_lt _ (Nat.two_pow_pos _)
    exact (same.eq_of_lt_of_lt small bound).symm

/-- A value that has been doubled some more does not come back to a smaller power, wrapped or not,
for 2^k - 1 is odd. -/
theorem times_eq_of_modEq {times later : Nat} (pos : 0 < value)
    (small : value * 2 ^ times < 2 ^ width) (le : times ≤ later)
    (same : doubled width value later ≡ value * 2 ^ times [MOD 2 ^ width]) : times = later := by
  obtain ⟨more, rfl⟩ := Nat.exists_eq_add_of_le le
  by_contra ne
  have more_pos : more ≠ 0 := by omega
  have powers := (doubled_modEq (times + more)).symm.trans same
  rw [pow_add, ← mul_assoc] at powers
  have divides : 2 ^ width ∣ value * 2 ^ times * (2 ^ more - 1) := by
    have le : value * 2 ^ times ≤ value * 2 ^ times * 2 ^ more :=
      Nat.le_mul_of_pos_right _ (Nat.two_pow_pos _)
    rw [Nat.mul_sub, mul_one]
    exact (Nat.modEq_iff_dvd' le).mp powers.symm
  have odd : Nat.Coprime (2 ^ width) (2 ^ more - 1) := by
    apply Nat.Coprime.pow_left
    rw [Nat.coprime_two_left]
    exact Nat.Even.sub_odd Nat.one_le_two_pow (Nat.even_pow.mpr ⟨even_two, more_pos⟩) odd_one
  have whole := odd.dvd_of_dvd_mul_right divides
  exact absurd (Nat.le_of_dvd (Nat.mul_pos pos (Nat.two_pow_pos _)) whole) (by omega)

end Framework
