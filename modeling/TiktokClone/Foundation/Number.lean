import TiktokClone.Library.Decimal

/-!
# Shortened numbers

A like or share count is shown in thousands or millions with one digit behind the point.
The unit is chosen before the mantissa is rounded, so a count just below a million is
rounded up to a thousand thousands.

The arithmetic on `Double` is exact here.
-/

namespace TiktokClone

open Library

/-- The description of a `Double`, for a nonnegative number of tenths. -/
def description (number : ℚ) : String :=
  let tenths := ⌊number * 10⌋.toNat
  toString (tenths / 10) ++ "." ++ toString (tenths % 10)

/-- Shorten the number to *thousand* or *million* -/
def shorten (n : Int) : String :=
  let number : ℚ := n
  let thousand := number / 1000
  let million := number / 1000000
  if million ≥ 1 then description (roundHalfAway (million * 10) / 10) ++ "M"
  else if thousand ≥ 1 then description (roundHalfAway (thousand * 10) / 10) ++ "K"
  else toString n

example : shorten 1234567 = "1.2M" ∧ shorten 12345 = "12.3K" ∧ shorten 999 = "999" := by
  decide +kernel

/-- What a reader makes of a shown count. -/
structure ShownCount where
  mantissa : ℚ
  /-- The value of the last digit of the mantissa. -/
  lastPlace : ℚ
  /-- The value of the suffix. -/
  unit : ℚ

namespace ShownCount

def number (shown : ShownCount) : ℚ := shown.mantissa * shown.unit

/-- The number of a numeral in a unit. -/
def ofNumeral (numeral : List Char) (unit : ℚ) : ShownCount :=
  ⟨(readDecimal numeral).1, (readDecimal numeral).2, unit⟩

/-- The unit that a suffix stands for. -/
def suffixUnit : Char → Option ℚ
  | 'M' => some 1000000
  | 'K' => some 1000
  | _ => none

/-- Read the suffix, if there is one, and the numeral before it. -/
def read (string : String) : ShownCount :=
  match string.toList.getLast?.bind suffixUnit with
  | some unit => ofNumeral string.toList.dropLast unit
  | none => ofNumeral string.toList 1

/-- The value of the last digit shown. -/
def resolution (shown : ShownCount) : ℚ := shown.lastPlace * shown.unit

theorem toList_description (tenths : Nat) : (description (tenths / 10)).toList =
    Nat.toDigits 10 (tenths / 10) ++ '.' :: Nat.toDigits 10 (tenths % 10) := by
  have htenths : ⌊(tenths / 10 : ℚ) * 10⌋.toNat = tenths := by
    rw [div_mul_cancel₀ _ (by norm_num), Int.floor_natCast, Int.toNat_natCast]
  simp only [description, htenths]
  simp

/-- A mantissa of tenths is read back in front of a suffix. -/
theorem read_description_append {suffix : Char} {unit : ℚ} (hunit : suffixUnit suffix = some unit)
    (tenths : Nat) : read (description (tenths / 10) ++ String.singleton suffix) =
      ⟨tenths / 10, 1 / 10, unit⟩ := by
  have htoList : (description (tenths / 10) ++ String.singleton suffix).toList =
      (Nat.toDigits 10 (tenths / 10) ++ '.' :: Nat.toDigits 10 (tenths % 10)) ++ [suffix] := by
    rw [String.toList_append, toList_description, String.toList_singleton]
  rw [read, htoList, List.getLast?_concat, List.dropLast_concat, Option.bind_some, hunit]
  simp only [ofNumeral, readDecimal_tenths]

/-- A numeral without a suffix counts ones. -/
theorem read_toString (n : Nat) : read (toString n) = ⟨n, 1, 1⟩ := by
  have htoList : (toString n).toList = Nat.toDigits 10 n := by simp
  have hsuffix : (Nat.toDigits 10 n).getLast?.bind suffixUnit = none := by
    rw [List.getLast?_eq_some_getLast Nat.toDigits_ne_nil, Option.bind_some]
    have hdigit : ((Nat.toDigits 10 n).getLast Nat.toDigits_ne_nil).isDigit = true :=
      Nat.isDigit_of_mem_toDigits (by decide) (by decide) (List.getLast_mem _)
    unfold suffixUnit
    split
    · rename_i heq
      rw [heq] at hdigit
      cases hdigit
    · rename_i heq
      rw [heq] at hdigit
      cases hdigit
    · rfl
  rw [read, htoList, hsuffix]
  simp only [ofNumeral, readDecimal_toDigits]

end ShownCount

open ShownCount

variable {n m : Int}

/-- A mantissa is rounded to tenths of its unit. -/
theorem read_rounded {suffix : Char} {unit : ℚ} {d : Nat} {tenths : Int} (hn : 0 ≤ n) (hd : 0 < d)
    (hsuffix : suffixUnit suffix = some unit) (hunit : unit = 10 * d)
    (htenths : (2 * n + d) / (2 * d) = tenths) :
    read (description (roundHalfAway (n / unit * 10) / 10) ++ String.singleton suffix) =
      ⟨tenths / 10, 1 / 10, unit⟩ := by
  have hmantissa : (n : ℚ) / unit * 10 = n / d := by
    have hne : (d : ℚ) ≠ 0 := Nat.cast_ne_zero.mpr hd.ne'
    rw [hunit]
    field_simp
  have hnonneg : 0 ≤ tenths := htenths ▸ Int.ediv_nonneg (by omega) (by omega)
  obtain ⟨k, rfl⟩ := Int.eq_ofNat_of_zero_le hnonneg
  rw [hmantissa, roundHalfAway_div hn hd, htenths, Int.cast_natCast]
  exact read_description_append hsuffix k

/-- What is read off a shortened count, by its size. -/
theorem read_shorten (hn : 0 ≤ n) : read (shorten n) =
    if 1000000 ≤ n then ⟨((n + 50000) / 100000 : Int) / 10, 1 / 10, 1000000⟩
    else if 1000 ≤ n then ⟨((n + 50) / 100 : Int) / 10, 1 / 10, 1000⟩
    else ⟨n, 1, 1⟩ := by
  have hmillion : (n : ℚ) / 1000000 ≥ 1 ↔ 1000000 ≤ n := by
    rw [ge_iff_le, one_le_div (by norm_num)]
    exact_mod_cast Iff.rfl
  have hthousand : (n : ℚ) / 1000 ≥ 1 ↔ 1000 ≤ n := by
    rw [ge_iff_le, one_le_div (by norm_num)]
    exact_mod_cast Iff.rfl
  simp only [shorten, hmillion, hthousand]
  by_cases h : 1000000 ≤ n
  · have htenths : (2 * n + (100000 : Nat)) / (2 * (100000 : Nat)) = (n + 50000) / 100000 := by
      omega
    have hread := @read_rounded n 'M' 1000000 100000 _ hn (by decide) rfl (by norm_num) htenths
    rw [if_pos h, if_pos h, ← hread]
    rfl
  rw [if_neg h, if_neg h]
  by_cases h' : 1000 ≤ n
  · have htenths : (2 * n + (100 : Nat)) / (2 * (100 : Nat)) = (n + 50) / 100 := by omega
    have hread := @read_rounded n 'K' 1000 100 _ hn (by decide) rfl (by norm_num) htenths
    rw [if_pos h', if_pos h', ← hread]
    rfl
  · obtain ⟨k, rfl⟩ := Int.eq_ofNat_of_zero_le hn
    rw [if_neg h', if_neg h']
    exact read_toString k

/-- The count that is shown: the number, rounded to its last digit shown. -/
def shownNumber (n : Int) : Int :=
  if 1000000 ≤ n then (n + 50000) / 100000 * 100000
  else if 1000 ≤ n then (n + 50) / 100 * 100
  else n

/-- The value of the last digit shown. -/
def shownResolution (n : Int) : Int :=
  if 1000000 ≤ n then 100000 else if 1000 ≤ n then 100 else 1

theorem number_read_shorten (hn : 0 ≤ n) :
    (read (shorten n)).number = shownNumber n ∧
      (read (shorten n)).resolution = shownResolution n := by
  rw [read_shorten hn, shownNumber, shownResolution]
  by_cases h : 1000000 ≤ n
  · simp only [if_pos h, number, resolution]
    push_cast
    constructor <;> ring
  by_cases h' : 1000 ≤ n
  · simp only [if_neg h, if_pos h', number, resolution]
    push_cast
    constructor <;> ring
  · simp only [if_neg h, if_neg h', number, resolution]
    push_cast
    constructor <;> ring

/-- The shown count is off by half of its last digit at most. -/
theorem abs_shownNumber_sub_le (n : Int) : 2 * |shownNumber n - n| ≤ shownResolution n := by
  rw [shownNumber, shownResolution, ← Int.natCast_natAbs]
  split_ifs <;> omega

/-- A larger count is never shown as a smaller one. -/
theorem shownNumber_mono (h : n ≤ m) : shownNumber n ≤ shownNumber m := by
  rw [shownNumber, shownNumber]
  split_ifs <;> omega

/-- Thousands have the form that they should have when they are not rounded up to a million. -/
theorem thousands_canonical_iff (h : 1000 ≤ n) :
    (1 : ℚ) ≤ ((n + 50) / 100 : Int) / 10 ∧ (((n + 50) / 100 : Int) : ℚ) / 10 < 1000 ↔
      n < 999950 := by
  have hlow : (1 : ℚ) ≤ ((n + 50) / 100 : Int) / 10 := by
    have htenths : 10 ≤ (n + 50) / 100 := by omega
    rw [le_div_iff₀ (by norm_num)]
    exact_mod_cast htenths
  have hhigh : (n + 50) / 100 < 10000 ↔ n < 999950 := by omega
  have hmul : (1000 * 10 : ℚ) = (10000 : Int) := by norm_num
  rw [and_iff_right hlow, div_lt_iff₀ (by norm_num), hmul, Int.cast_lt, hhigh]

/-- A shown count is off by half of its last digit at most and never overtakes that of a larger
number. Its thousands have the form that they should have exactly when they are not rounded up to
a million. -/
theorem shorten_canonical_iff {n : Int} (hn : 0 ≤ n) :
    (|(read (shorten n)).number - n| ≤ (read (shorten n)).resolution / 2 ∧
      ((read (shorten n)).unit = 1000 →
        1 ≤ (read (shorten n)).mantissa ∧ (read (shorten n)).mantissa < 1000) ∧
      ∀ m, n ≤ m → (read (shorten n)).number ≤ (read (shorten m)).number) ↔
    ¬ (999950 ≤ n ∧ n < 1000000) := by
  obtain ⟨hnumber, hresolution⟩ := number_read_shorten hn
  have herror : |(read (shorten n)).number - n| ≤ (read (shorten n)).resolution / 2 := by
    rw [hnumber, hresolution, le_div_iff₀ (by norm_num), mul_comm]
    exact_mod_cast abs_shownNumber_sub_le n
  have hmono : ∀ m, n ≤ m → (read (shorten n)).number ≤ (read (shorten m)).number := by
    intro m hm
    rw [hnumber, (number_read_shorten (hn.trans hm)).1]
    exact_mod_cast shownNumber_mono hm
  rw [and_iff_right herror, and_iff_left hmono, read_shorten hn]
  by_cases h : 1000000 ≤ n
  · rw [if_pos h]
    refine iff_of_true (fun hunit => ?_) fun hbelow => hbelow.2.not_ge h
    norm_num at hunit
  rw [if_neg h]
  by_cases h' : 1000 ≤ n
  · rw [if_pos h']
    have hcanonical := thousands_canonical_iff h'
    refine (forall_prop_of_true rfl).trans (hcanonical.trans ⟨fun hlt hbelow => ?_, fun hnot => ?_⟩)
    · exact hlt.not_ge hbelow.1
    · omega
  · rw [if_neg h']
    refine iff_of_true (fun hunit => ?_) fun hbelow => ?_
    · norm_num at hunit
    · omega

theorem shorten_canonical_iff_largest : shorten 999949 = "999.9K" ∧
    (read (shorten 999949)).mantissa < 1000 := by
  have hshown : shorten 999949 = "999.9K" := by decide +kernel
  obtain ⟨_, hcanonical, _⟩ := (@shorten_canonical_iff 999949 (by decide)).mpr (by decide)
  have hunit : (read (shorten 999949)).unit = 1000 := by
    rw [hshown]
    rfl
  exact ⟨hshown, (hcanonical hunit).2⟩

/-- The number is below a million, and its thousands are rounded up to one. -/
theorem shorten_thousand_thousands : shorten 999950 = "1000.0K" ∧
    (read (shorten 999950)).unit = 1000 ∧ ¬ (read (shorten 999950)).mantissa < 1000 := by
  have hshown : shorten 999950 = "1000.0K" := by decide +kernel
  rw [hshown]
  exact ⟨rfl, rfl, by decide +kernel⟩

end TiktokClone
