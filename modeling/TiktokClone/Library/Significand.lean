import Mathlib.Data.Nat.Bits
import Mathlib.Tactic.Ring

/-!
# Binary significands

A natural number fits a significand of some width when it is a number of at most so
many bits, shifted to the left. Below the width everything fits, and beyond it the
low bits decide.
-/

namespace TiktokClone.Library

/-- The number is a power of two times a factor of at most `width` bits. -/
def FitsSignificand (width n : Nat) : Prop :=
  ∃ significand exponent, significand < 2 ^ width ∧ n = significand * 2 ^ exponent

variable {width n : Nat}

theorem fitsSignificand_of_lt (h : n < 2 ^ width) : FitsSignificand width n :=
  ⟨n, 0, h, by rw [pow_zero, Nat.mul_one]⟩

/-- All bits below the highest `width + 1` ones are zero. -/
theorem fitsSignificand_succ_iff :
    FitsSignificand (width + 1) n ↔ 2 ^ (n.log2 - width) ∣ n := by
  constructor
  · rintro ⟨significand, exponent, hlt, rfl⟩
    by_cases hzero : significand * 2 ^ exponent = 0
    · rw [hzero]
      exact dvd_zero _
    · have hbound : significand * 2 ^ exponent < 2 ^ (width + 1 + exponent) := by
        rw [pow_add]
        exact Nat.mul_lt_mul_of_pos_right hlt (Nat.two_pow_pos exponent)
      have hlog := (Nat.log2_lt hzero).mpr hbound
      exact (pow_dvd_pow 2 (by omega)).trans (dvd_mul_left _ _)
  · rintro ⟨significand, hn⟩
    have hbound : n < 2 ^ (n.log2 - width) * 2 ^ (width + 1) := by
      rw [← pow_add]
      exact Nat.lt_log2_self.trans_le (Nat.pow_le_pow_right (by omega) (by omega))
    refine ⟨significand, n.log2 - width, ?_, by rw [Nat.mul_comm, ← hn]⟩
    refine Nat.lt_of_mul_lt_mul_left (a := 2 ^ (n.log2 - width)) ?_
    rw [← hn]
    exact hbound

/-- The least number that does not fit. -/
theorem not_fitsSignificand_two_pow_succ (hwidth : 0 < width) :
    ¬ FitsSignificand width (2 ^ width + 1) := by
  rintro ⟨significand, exponent, hlt, h⟩
  have heven : 2 ∣ 2 ^ width := dvd_pow_self 2 (by omega)
  cases exponent with
  | zero => omega
  | succ exponent =>
    rw [pow_succ, ← Nat.mul_assoc] at h
    omega

end TiktokClone.Library
