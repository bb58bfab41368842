import Mathlib.Algebra.Order.Floor.Ring
import Mathlib.Data.Rat.Floor
import QtCoap.Protocol.Settings

namespace QtCoap

namespace Protocol

variable {Addr : Type} [Platform Addr] (s : Protocol Addr)

/-- `timeout * count * factor` of the specification, rounded down. -/
def exactly (timeout count : Nat) (factor : ℚ) : Nat :=
  (((timeout * count : Nat) : ℚ) * factor).floor.toNat

/-- `MAX_TRANSMIT_SPAN`, rounded down. -/
def exactTransmitSpan : Nat :=
  exactly s.ackTimeout (2 ^ s.maximumRetransmitCount - 1) s.ackRandomFactor

/-- `MAX_TRANSMIT_WAIT`, rounded down. -/
def exactTransmitWait : Nat :=
  exactly s.ackTimeout (2 ^ (s.maximumRetransmitCount + 1) - 1) s.ackRandomFactor

theorem le_exactly_iff {timeout count n : Nat} {factor : ℚ} (positive : 0 ≤ factor) :
    n ≤ exactly timeout count factor ↔ (n : ℚ) ≤ ((timeout * count : Nat) : ℚ) * factor := by
  have nonneg : 0 ≤ ((timeout * count : Nat) : ℚ) * factor :=
    mul_nonneg (Nat.cast_nonneg _) positive
  have floor_nonneg : 0 ≤ (((timeout * count : Nat) : ℚ) * factor).floor :=
    Rat.le_floor_iff.mpr (by exact_mod_cast nonneg)
  simp only [exactly]
  rw [← Int.ofNat_le, Int.toNat_of_nonneg floor_nonneg, Rat.le_floor_iff]
  simp

theorem exactly_mono {timeout count count' : Nat} {factor : ℚ} (positive : 0 ≤ factor)
    (le : count ≤ count') : exactly timeout count factor ≤ exactly timeout count' factor := by
  rw [le_exactly_iff positive]
  refine ((le_exactly_iff positive).mp le_rfl).trans ?_
  have products : timeout * count ≤ timeout * count' := Nat.mul_le_mul_left timeout le
  exact mul_le_mul_of_nonneg_right (by exact_mod_cast products) positive

/-- A factor of at least one: the product of the integers fits if the whole fits. -/
theorem mul_le_exactly {timeout count : Nat} {factor : ℚ} (one : 1 ≤ factor) :
    timeout * count ≤ exactly timeout count factor := by
  rw [le_exactly_iff (zero_le_one.trans one)]
  exact le_mul_of_one_le_right (Nat.cast_nonneg _) one

theorem scaled_eq {Addr : Type} (s : Protocol Addr) {timeout count : Nat}
    (one : 1 ≤ s.ackRandomFactor) (fits : exactly timeout count s.ackRandomFactor < 2 ^ 32) :
    s.scaled timeout count = exactly timeout count s.ackRandomFactor := by
  have product : timeout * count < 2 ^ 32 := (mul_le_exactly one).trans_lt fits
  simp only [scaled]
  rw [Nat.mod_eq_of_lt product]
  exact Nat.mod_eq_of_lt fits

theorem scaled_lt {Addr : Type} (s : Protocol Addr) (timeout count : Nat) :
    s.scaled timeout count < 2 ^ 32 :=
  Nat.mod_lt _ (by decide)

theorem toInt32_nonneg_iff {n : Nat} (small : n < 2 ^ 32) : 0 ≤ toInt32 n ↔ n < 2 ^ 31 := by
  simp only [toInt32]
  rw [Nat.mod_eq_of_lt small]
  split_ifs <;> omega

/-- The parameters for the overall timeout as the specification has them, as the timers take them,
and long enough for every timeout that may be chosen. -/
structure SpansExact : Prop where
  span : s.maximumTransmitSpan = s.exactTransmitSpan
  wait : s.maximumTransmitWait = s.exactTransmitWait
  span_interval : 0 ≤ toInt32 s.maximumTransmitSpan
  wait_interval : 0 ≤ toInt32 s.maximumTransmitWait
  outlasts : ∀ timeout, s.ackTimeout ≤ timeout → timeout ≤ s.maximumTimeout →
    timeout * (2 ^ (s.maximumRetransmitCount + 1) - 1) ≤ s.maximumTransmitWait

/-- Doubling up to the last retransmission takes no longer than the exact wait. -/
theorem mul_le_exactTransmitWait {Addr : Type} (s : Protocol Addr) (one : 1 ≤ s.ackRandomFactor)
    {timeout : Nat} (le : timeout ≤ exactly s.ackTimeout 1 s.ackRandomFactor) :
    timeout * (2 ^ (s.maximumRetransmitCount + 1) - 1) ≤ s.exactTransmitWait := by
  have positive : 0 ≤ s.ackRandomFactor := zero_le_one.trans one
  simp only [exactTransmitWait]
  rw [le_exactly_iff positive]
  generalize 2 ^ (s.maximumRetransmitCount + 1) - 1 = count
  have each := (le_exactly_iff positive).mp le
  calc ((timeout * count : Nat) : ℚ)
      = (timeout : ℚ) * (count : ℚ) := Nat.cast_mul ..
    _ ≤ ((s.ackTimeout * 1 : Nat) : ℚ) * s.ackRandomFactor * (count : ℚ) :=
        mul_le_mul_of_nonneg_right each (Nat.cast_nonneg _)
    _ = ((s.ackTimeout * count : Nat) : ℚ) * s.ackRandomFactor := by
        push_cast
        ring

/-- The parameters are right exactly as long as MAX_TRANSMIT_WAIT fits into 31 bits. -/
theorem spansExact_iff {Addr : Type} (s : Protocol Addr) (one : 1 ≤ s.ackRandomFactor) :
    s.SpansExact ↔ s.exactTransmitWait < 2 ^ 31 := by
  have positive : 0 ≤ s.ackRandomFactor := zero_le_one.trans one
  constructor
  · intro exact
    have fits : s.maximumTransmitWait < 2 ^ 31 :=
      (toInt32_nonneg_iff (s.scaled_lt _ _)).mp exact.wait_interval
    rwa [exact.wait] at fits
  · intro fits
    have less : s.exactTransmitSpan ≤ s.exactTransmitWait := by
      refine exactly_mono positive (Nat.sub_le_sub_right ?_ 1)
      exact Nat.pow_le_pow_right (by decide) (Nat.le_succ _)
    have span : s.maximumTransmitSpan = s.exactTransmitSpan :=
      s.scaled_eq one (less.trans_lt (fits.trans (by decide)))
    have wait : s.maximumTransmitWait = s.exactTransmitWait :=
      s.scaled_eq one (fits.trans (by decide))
    refine ⟨span, wait, ?_, ?_, ?_⟩
    · rw [span, toInt32_nonneg_iff (less.trans_lt (fits.trans (by decide)))]
      exact less.trans_lt fits
    · rw [wait, toInt32_nonneg_iff (fits.trans (by decide))]
      exact fits
    · intro timeout _ le
      have once : exactly s.ackTimeout 1 s.ackRandomFactor ≤ s.exactTransmitWait := by
        refine exactly_mono positive (Nat.le_sub_of_add_le ?_)
        exact Nat.pow_le_pow_right (by decide : 0 < 2) (Nat.succ_pos s.maximumRetransmitCount)
      have chosen : s.maximumTimeout = exactly s.ackTimeout 1 s.ackRandomFactor :=
        s.scaled_eq one (once.trans_lt (fits.trans (by decide)))
      rw [wait]
      exact s.mul_le_exactTransmitWait one (chosen ▸ le)

theorem spansExact_default :
    ({} : Protocol IPv4Address).exactTransmitWait = 93000 ∧
      ({} : Protocol IPv4Address).SpansExact := by
  have wait : ({} : Protocol IPv4Address).exactTransmitWait = 93000 := by decide +kernel
  refine ⟨wait, (spansExact_iff {} (by norm_num)).mpr ?_⟩
  rw [wait]
  decide

/-- With 25 retransmissions the product wraps, and less than a hundredth of the wait is left. -/
theorem not_spansExact_of_twentyFive :
    let s := ({} : Protocol IPv4Address).setMaximumRetransmitCount 25
    s.maximumTransmitWait = 1610609736 ∧ s.exactTransmitWait = 201326589000 ∧
      ¬ s.SpansExact := by
  intro s
  have wait : s.maximumTransmitWait = 1610609736 := by decide +kernel
  have exact_wait : s.exactTransmitWait = 201326589000 := by decide +kernel
  refine ⟨wait, exact_wait, fun exact => ?_⟩
  have same := exact.wait
  rw [wait, exact_wait] at same
  omega

end Protocol

end QtCoap
