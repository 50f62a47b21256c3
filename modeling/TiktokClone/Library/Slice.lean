import Mathlib.Data.List.Basic

/-!
# Slices of a growing buffer

A slice `l.extract i j` holds the positions `i ..< j`. Slices that end inside a
buffer do not change when it grows, and consecutive slices concatenate.
-/

namespace TiktokClone.Library

variable {α : Type*}

/-- Growing a buffer leaves every slice that ends inside it unchanged. -/
theorem extract_append_of_le (l m : List α) {i j : Nat} (hj : j ≤ l.length) :
    (l ++ m).extract i j = l.extract i j := by
  rw [List.extract_eq_take_drop, List.extract_eq_take_drop]
  by_cases hi : i ≤ l.length
  · rw [List.drop_append_of_le_length hi, List.take_append_of_le_length]
    rw [List.length_drop]
    omega
  · rw [show j - i = 0 by omega, List.take_zero, List.take_zero]

/-- A slice followed by the slice that starts where it ends. -/
theorem extract_append_extract (l : List α) {i j k : Nat} (hij : i ≤ j) (hjk : j ≤ k) :
    l.extract i j ++ l.extract j k = l.extract i k := by
  simp only [List.extract_eq_take_drop]
  rw [show k - i = (j - i) + (k - j) by omega, List.take_add, List.drop_drop,
    show i + (j - i) = j by omega]

theorem extract_self (l : List α) (i : Nat) : l.extract i i = [] := by
  rw [List.extract_eq_take_drop, Nat.sub_self, List.take_zero]

theorem length_extract_of_le (l : List α) {i j : Nat} (hj : j ≤ l.length) :
    (l.extract i j).length = j - i := by
  rw [List.extract_eq_take_drop, List.length_take, List.length_drop]
  omega

end TiktokClone.Library
