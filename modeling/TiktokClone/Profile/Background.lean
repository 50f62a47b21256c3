import Mathlib.Algebra.Order.Ring.Unbundled.Rat
import Mathlib.Algebra.Ring.Rat
import Mathlib.Data.List.Induction
import Mathlib.Tactic.NormNum

/-!
# The background of the profile

Pulling the profile below its top stretches the background image by a scale that depends
on the content offset, and moves it by a share of its frame's height. The frame already
has the scale of the previous call, so the movement depends on the previous offset as well.

Lengths are exact numbers.
-/

namespace TiktokClone

/-- The matrix with the rows `(a, b, 0)`, `(c, d, 0)` and `(tx, ty, 1)`. -/
structure CGAffineTransform where
  a : ℚ
  b : ℚ
  c : ℚ
  d : ℚ
  tx : ℚ
  ty : ℚ
  deriving DecidableEq

namespace CGAffineTransform

def identity : CGAffineTransform := ⟨1, 0, 0, 1, 0, 0⟩

def translation (translationX y : ℚ) : CGAffineTransform := ⟨1, 0, 0, 1, translationX, y⟩

def scale (scaleX y : ℚ) : CGAffineTransform := ⟨scaleX, 0, 0, y, 0, 0⟩

/-- The matrix product: first the one transform, then the other. -/
def concatenating (t1 t2 : CGAffineTransform) : CGAffineTransform where
  a := t1.a * t2.a + t1.b * t2.c
  b := t1.a * t2.b + t1.b * t2.d
  c := t1.c * t2.a + t1.d * t2.c
  d := t1.c * t2.b + t1.d * t2.d
  tx := t1.tx * t2.a + t1.ty * t2.c + t2.tx
  ty := t1.tx * t2.b + t1.ty * t2.d + t2.ty

end CGAffineTransform

structure UIImageView where
  /-- The height without the transform. -/
  height : ℚ
  transform : CGAffineTransform
  deriving DecidableEq

/-- `frame.height` under a transform that does not rotate. -/
def UIImageView.frameHeight (view : UIImageView) : ℚ := view.height * view.transform.d

namespace ProfileViewController

/-- Stretch Profile Background Image when scroll up -/
def stretchProfileBackgroundWhenScroll (profileBackgroundImgView : UIImageView) (offsetY : ℚ) :
    UIImageView :=
  let scaleRatio := |offsetY| / 500
  let scaledHeight := scaleRatio * profileBackgroundImgView.frameHeight
  { profileBackgroundImgView with
    transform := (CGAffineTransform.scale (scaleRatio + 1) (scaleRatio + 1)).concatenating
      (.translation 0 scaledHeight) }

def scrollViewDidScroll (profileBackgroundImgView : UIImageView) (offsetY : ℚ) : UIImageView :=
  if offsetY < 0 then stretchProfileBackgroundWhenScroll profileBackgroundImgView offsetY
  else { profileBackgroundImgView with transform := .translation 0 (-offsetY) }

/-- The background after calls at the given offsets. -/
def scrolled (height : ℚ) (offsets : List ℚ) : UIImageView :=
  offsets.foldl scrollViewDidScroll ⟨height, .identity⟩

/-- How far the last call found the profile pulled below its top. -/
def overscroll (offsets : List ℚ) : ℚ := max 0 (-(offsets.getLast?.getD 0))

variable {height offset : ℚ} {view : UIImageView} {offsets : List ℚ}

theorem scrolled_concat : scrolled height (offsets ++ [offset]) =
    scrollViewDidScroll (scrolled height offsets) offset := by
  rw [scrolled, List.foldl_append]
  rfl

theorem overscroll_concat : overscroll (offsets ++ [offset]) = max 0 (-offset) := by
  rw [overscroll, List.getLast?_concat, Option.getD_some]

theorem overscroll_nil : overscroll [] = 0 := by
  rw [overscroll, List.getLast?_nil, Option.getD_none, neg_zero, max_self]

/-- The scale depends on the offset only, the movement on the frame as well. -/
theorem scrollViewDidScroll_of_neg (h : offset < 0) : scrollViewDidScroll view offset =
    ⟨view.height, ⟨-offset / 500 + 1, 0, 0, -offset / 500 + 1, 0,
      -offset / 500 * (view.height * view.transform.d)⟩⟩ := by
  rw [scrollViewDidScroll, if_pos h, stretchProfileBackgroundWhenScroll, abs_of_neg h]
  simp [CGAffineTransform.concatenating, CGAffineTransform.scale, CGAffineTransform.translation,
    UIImageView.frameHeight]

theorem scrollViewDidScroll_of_nonneg (h : 0 ≤ offset) : scrollViewDidScroll view offset =
    ⟨view.height, .translation 0 (-offset)⟩ := by
  rw [scrollViewDidScroll, if_neg (not_lt.mpr h)]

/-- The calls leave the height alone, and the last one alone decides the scale. -/
theorem scrolled_scale : (scrolled height offsets).height = height ∧
    (scrolled height offsets).transform.d = overscroll offsets / 500 + 1 := by
  induction offsets using List.reverseRecOn with
  | nil =>
    rw [overscroll_nil, zero_div, zero_add]
    exact ⟨rfl, rfl⟩
  | append_singleton offsets offset ih =>
    rw [scrolled_concat, overscroll_concat]
    by_cases h : offset < 0
    · rw [scrollViewDidScroll_of_neg h, max_eq_right (neg_nonneg.mpr h.le)]
      exact ⟨ih.1, rfl⟩
    · have hoffset : 0 ≤ offset := not_lt.mp h
      rw [scrollViewDidScroll_of_nonneg hoffset, max_eq_left (neg_nonpos.mpr hoffset), zero_div,
        zero_add]
      exact ⟨ih.1, rfl⟩

/-- Two histories that end at the same offset leave the same transform exactly when the
profile is not pulled down, or the calls before had found it pulled down equally far. -/
theorem background_of_offset_iff {height offset : ℚ} {offsets offsets' : List ℚ} :
    (scrolled height (offsets ++ [offset])).transform =
        (scrolled height (offsets' ++ [offset])).transform ↔
      0 ≤ offset ∨ height = 0 ∨ overscroll offsets = overscroll offsets' := by
  rw [scrolled_concat, scrolled_concat]
  by_cases h : offset < 0
  · have hscale : ∀ offsets : List ℚ, (scrolled height offsets).height *
        (scrolled height offsets).transform.d = height * (overscroll offsets / 500 + 1) := by
      intro offsets
      rw [scrolled_scale.1, scrolled_scale.2]
    have hratio : -offset / 500 ≠ 0 := div_ne_zero (neg_pos.mpr h).ne' (by norm_num)
    have hmoved : -offset / 500 * (height * (overscroll offsets / 500 + 1)) =
        -offset / 500 * (height * (overscroll offsets' / 500 + 1)) ↔
        height = 0 ∨ overscroll offsets = overscroll offsets' := by
      rw [mul_right_inj' hratio, mul_eq_mul_left_iff, add_left_inj, or_comm,
        div_left_inj' (by norm_num)]
    rw [scrollViewDidScroll_of_neg h, scrollViewDidScroll_of_neg h, hscale, hscale]
    simp [hmoved, not_le.mpr h]
  · have hoffset : 0 ≤ offset := not_lt.mp h
    rw [scrollViewDidScroll_of_nonneg hoffset, scrollViewDidScroll_of_nonneg hoffset]
    exact iff_of_true rfl (Or.inl hoffset)

/-- A second call at the same offset moves the stretched background further down. -/
theorem repeated_call_moves_background :
    (scrolled 150 [-500]).transform ≠ (scrolled 150 [-500, -500]).transform := by
  decide +kernel

end ProfileViewController

end TiktokClone
