import Mathlib.Data.List.Infix

/-!
# Replacing every occurrence of a word

The search runs from left to right and goes on behind each occurrence that it replaces,
so occurrences that overlap a replaced one stay. Replacing by nothing leaves a sublist,
which is the whole list exactly when the word does not occur.

A word appended to a list is not always what the removal takes away: it also takes the
occurrences inside the list, and one that straddles the join comes first. Theorem
`removeOccurrences_append_iff` says when the list is left.
-/

namespace TiktokClone.Library

variable {α : Type*} [DecidableEq α]

/-- Replace the occurrences after the next `skip` elements. -/
def replaceFrom (target replacement : List α) : Nat → List α → List α
  | _, [] => []
  | skip + 1, _ :: l => replaceFrom target replacement skip l
  | 0, a :: l =>
    if target <+: a :: l then replacement ++ replaceFrom target replacement (target.length - 1) l
    else a :: replaceFrom target replacement 0 l

/-- Replace every occurrence of a word; the empty word is not looked for. -/
def replaceOccurrences (target replacement l : List α) : List α :=
  if target = [] then l else replaceFrom target replacement 0 l

variable {target replacement l : List α}

theorem replaceFrom_eq_drop (skip : Nat) :
    replaceFrom target replacement skip l = replaceFrom target replacement 0 (l.drop skip) := by
  induction l generalizing skip with
  | nil => cases skip <;> rfl
  | cons a l ih =>
    cases skip with
    | zero => rfl
    | succ skip => exact ih skip

/-- An occurrence at the front is replaced, and the search goes on behind it. -/
theorem replaceFrom_of_begins (htarget : target ≠ []) (h : target <+: l) :
    replaceFrom target replacement 0 l =
      replacement ++ replaceFrom target replacement 0 (l.drop target.length) := by
  cases l with
  | nil => exact absurd (List.prefix_nil.mp h) htarget
  | cons a l =>
    have hlength : target.length = target.length - 1 + 1 :=
      (Nat.sub_add_cancel (List.length_pos_iff.mpr htarget)).symm
    rw [replaceFrom, if_pos h, replaceFrom_eq_drop, hlength, List.drop_succ_cons,
      Nat.add_sub_cancel]

theorem replaceFrom_of_not_begins {a : α} (h : ¬ target <+: a :: l) :
    replaceFrom target replacement 0 (a :: l) = a :: replaceFrom target replacement 0 l := by
  rw [replaceFrom, if_neg h]

/-! ## Removing the occurrences -/

theorem removeFrom_sublist (skip : Nat) : (replaceFrom target [] skip l).Sublist l := by
  induction l generalizing skip with
  | nil => cases skip <;> exact List.Sublist.slnil
  | cons a l ih =>
    cases skip with
    | succ skip => exact (ih skip).cons a
    | zero =>
      by_cases h : target <+: a :: l
      · rw [replaceFrom, if_pos h]
        exact (ih _).cons a
      · rw [replaceFrom_of_not_begins h]
        exact (ih 0).cons_cons a

/-- A word that does not occur is not removed, and only such a word. -/
theorem removeFrom_eq_self_iff (htarget : target ≠ []) :
    replaceFrom target [] 0 l = l ↔ ¬ target <:+: l := by
  induction l with
  | nil => exact iff_of_true rfl fun h => htarget (List.infix_nil.mp h)
  | cons a l ih =>
    rw [List.infix_cons_iff]
    by_cases h : target <+: a :: l
    · have hshorter : (replaceFrom target [] 0 (a :: l)).length < (a :: l).length := by
        rw [replaceFrom, if_pos h, List.nil_append]
        exact Nat.lt_succ_of_le (removeFrom_sublist _).length_le
      refine iff_of_false (fun heq => ?_) fun hnot => hnot (Or.inl h)
      rw [heq] at hshorter
      exact lt_irrefl _ hshorter
    · rw [replaceFrom_of_not_begins h, List.cons_inj_right, ih, or_iff_right h]

/-- The word begins the list with the word appended: the removal leaves the list exactly when
the list is a shorter end of the word. -/
theorem removeFrom_append_of_begins (htarget : target ≠ []) (h : target <+: l ++ target) :
    replaceFrom target [] 0 (l ++ target) = l ↔ ¬ target <:+: l ∧ l <:+ target := by
  obtain ⟨rest, hrest⟩ := h
  have hlength : rest.length = l.length := by
    have hsum := congrArg List.length hrest
    rw [List.length_append, List.length_append] at hsum
    omega
  have hremoved : replaceFrom target [] 0 (l ++ target) = replaceFrom target [] 0 rest := by
    rw [← hrest, replaceFrom_of_begins htarget (List.prefix_append target rest),
      List.drop_left, List.nil_append]
  rw [hremoved]
  constructor
  · intro heq
    have hall : replaceFrom target [] 0 rest = rest :=
      (removeFrom_sublist 0).eq_of_length (by rw [heq, hlength])
    obtain rfl : rest = l := hall.symm.trans heq
    have hnot : ¬ target <:+: rest := (removeFrom_eq_self_iff htarget).mp hall
    have hends : rest <:+ rest ++ target := hrest ▸ List.suffix_append target rest
    refine ⟨hnot, ?_⟩
    rcases le_total rest.length target.length with hle | hle
    · exact List.suffix_of_suffix_length_le hends (List.suffix_append rest target) hle
    · have hbegins : target <+: rest ++ target := hrest ▸ List.prefix_append target rest
      exact absurd (List.prefix_of_prefix_length_le hbegins
        (List.prefix_append rest target) hle).isInfix hnot
  · rintro ⟨hnot, front, rfl⟩
    have hsplit : (front ++ l) ++ rest = (l ++ front) ++ l := by
      rw [hrest, List.append_assoc]
    have hcomm : (front ++ l).length = (l ++ front).length := by
      rw [List.length_append, List.length_append, Nat.add_comm]
    obtain ⟨_, rfl⟩ := List.append_inj hsplit hcomm
    exact (removeFrom_eq_self_iff htarget).mpr hnot

/-- Removing a word from a list to which it was appended leaves the list exactly when the word
does not occur in the list, and every end of the list from which the word begins is an end
of the word as well. -/
theorem removeOccurrences_append_iff (htarget : target ≠ []) :
    replaceOccurrences target [] (l ++ target) = l ↔
      ¬ target <:+: l ∧ ∀ w, w <:+ l → target <+: w ++ target → w <:+ target := by
  rw [replaceOccurrences, if_neg htarget]
  induction l with
  | nil =>
    have hempty : ∀ w : List α, w <:+ [] → target <+: w ++ target → w <:+ target := by
      intro w hw _
      rw [List.suffix_nil.mp hw]
      exact List.nil_suffix
    have hbegins : target <+: [] ++ target := List.prefix_refl target
    rw [removeFrom_append_of_begins htarget hbegins]
    exact and_congr_right fun _ => iff_of_true List.nil_suffix hempty
  | cons a l ih =>
    by_cases h : target <+: (a :: l) ++ target
    · rw [removeFrom_append_of_begins htarget h]
      refine and_congr_right fun _ => ⟨fun hends w hw _ => hw.trans hends, fun hall => ?_⟩
      exact hall _ (List.suffix_refl _) h
    · have hfront : ¬ target <+: a :: l := fun hbegins =>
        h (hbegins.trans (List.prefix_append _ _))
      rw [List.cons_append] at h ⊢
      rw [replaceFrom_of_not_begins h, List.cons_inj_right, ih, List.infix_cons_iff,
        or_iff_right hfront]
      refine and_congr_right fun _ => ⟨fun hall w hw hbegins => ?_, fun hall w hw => ?_⟩
      · rcases List.suffix_cons_iff.mp hw with rfl | hw
        · exact absurd hbegins h
        · exact hall w hw hbegins
      · exact hall w (hw.trans (List.suffix_cons a l))

end TiktokClone.Library
