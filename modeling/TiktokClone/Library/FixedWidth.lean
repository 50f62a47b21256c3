import Mathlib.Data.List.Basic

/-!
# Fixed-width codes

Joining code words of one positive width loses nothing, so a code that is
injective on letters is injective on words.
-/

namespace TiktokClone.Library

variable {α β : Type*} {code : α → List β} {width : Nat}

theorem length_flatMap_of_width (hwidth : ∀ a, (code a).length = width) (as : List α) :
    (as.flatMap code).length = as.length * width := by
  induction as with
  | nil => simp
  | cons a as ih =>
    rw [List.flatMap_cons, List.length_append, hwidth, ih, List.length_cons, Nat.succ_mul,
      Nat.add_comm]

/-- Words over an injective code of positive width are read off uniquely. -/
theorem flatMap_injective_of_width (hwidth : ∀ a, (code a).length = width) (hpos : 0 < width)
    (hcode : Function.Injective code) : Function.Injective fun as : List α => as.flatMap code := by
  intro as bs h
  have hlen : as.length = bs.length := by
    have := congrArg List.length h
    simp only [length_flatMap_of_width hwidth] at this
    exact Nat.eq_of_mul_eq_mul_right hpos this
  induction as generalizing bs with
  | nil => exact (List.length_eq_zero_iff.mp hlen.symm).symm
  | cons a as ih =>
    cases bs with
    | nil => cases hlen
    | cons b bs =>
      obtain ⟨hhead, htail⟩ := List.append_inj h ((hwidth a).trans (hwidth b).symm)
      rw [hcode hhead, ih htail (Nat.succ.inj hlen)]

end TiktokClone.Library
