import Mathlib.Algebra.Order.Round
import Mathlib.Data.List.TakeWhile
import Mathlib.Data.Rat.Floor
import Mathlib.Tactic.FieldSimp

/-!
# Decimal numerals

Rounding to an integer with halves away from zero, and reading a numeral back: its digits
are a natural number, counted in units of its last place.
-/

namespace TiktokClone.Library

/-! ## Rounding -/

/-- The nearest integer; halves are rounded away from zero. -/
def roundHalfAway (x : ℚ) : Int := if 0 ≤ x then round x else -round (-x)

/-- Rounding a nonnegative fraction is a division of integers. -/
theorem roundHalfAway_div {n : Int} {d : Nat} (hn : 0 ≤ n) (hd : 0 < d) :
    roundHalfAway (n / d) = (2 * n + d) / (2 * d) := by
  have hpos : (0 : ℚ) < d := Nat.cast_pos.mpr hd
  have hnonneg : (0 : ℚ) ≤ n / d := div_nonneg (Int.cast_nonneg hn) hpos.le
  have hsum : (n / d + 1 / 2 : ℚ) = ((2 * n + d : Int) : ℚ) / ((2 * d : Nat) : ℚ) := by
    push_cast
    field_simp
  rw [roundHalfAway, if_pos hnonneg, round_eq, hsum, Rat.floor_intCast_div_natCast, Nat.cast_mul,
    Nat.cast_ofNat]

/-! ## Reading -/

/-- The number that a numeral denotes and the value of its last place. -/
def readDecimal (numeral : List Char) : ℚ × ℚ :=
  let whole := numeral.takeWhile (· != '.')
  let fraction := (numeral.dropWhile (· != '.')).drop 1
  let place := 1 / 10 ^ fraction.length
  (Nat.ofDigitChars 10 (whole ++ fraction) 0 * place, place)

theorem ne_point_of_mem_toDigits {n : Nat} {c : Char} (h : c ∈ Nat.toDigits 10 n) :
    (c != '.') = true := by
  have hdigit : c.isDigit = true := Nat.isDigit_of_mem_toDigits (by decide) (by decide) h
  refine bne_iff_ne.mpr fun heq => ?_
  rw [heq] at hdigit
  exact absurd hdigit (by decide)

theorem readDecimal_toDigits (n : Nat) :
    readDecimal (Nat.toDigits 10 n) = ((n, 1) : ℚ × ℚ) := by
  have hall : ∀ c ∈ Nat.toDigits 10 n, (c != '.') = true := fun c => ne_point_of_mem_toDigits
  have htake := List.takeWhile_eq_self_iff.mpr hall
  have hdrop := List.dropWhile_eq_nil_iff.mpr hall
  simp [readDecimal, htake, hdrop, Nat.ofDigitChars_ten_toDigits]

/-- A numeral with one digit behind the point counts tenths. -/
theorem readDecimal_tenths (tenths : Nat) :
    readDecimal (Nat.toDigits 10 (tenths / 10) ++ '.' :: Nat.toDigits 10 (tenths % 10)) =
      ((tenths / 10, 1 / 10) : ℚ × ℚ) := by
  have hall : ∀ c ∈ Nat.toDigits 10 (tenths / 10), (c != '.') = true :=
    fun c => ne_point_of_mem_toDigits
  have hdigit : tenths % 10 < 10 := Nat.mod_lt _ (by decide)
  have hwhole : 10 * (tenths / 10) + tenths % 10 = tenths := Nat.div_add_mod tenths 10
  have hread : Nat.ofDigitChars 10
      (Nat.toDigits 10 (tenths / 10) ++ [(tenths % 10).digitChar]) 0 = tenths := by
    rw [Nat.ofDigitChars_append, Nat.ofDigitChars_ten_toDigits,
      Nat.ofDigitChars_cons_digitChar_of_lt_ten hdigit, Nat.ofDigitChars_nil, hwhole]
  simp only [readDecimal, List.takeWhile_append_of_pos hall, List.dropWhile_append_of_pos hall,
    Nat.toDigits_of_lt_base hdigit]
  simp [hread, div_eq_mul_inv]

end TiktokClone.Library
