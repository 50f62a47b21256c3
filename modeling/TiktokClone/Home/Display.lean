import TiktokClone.Home.Gestures

/-!
# What a cell shows

The music label, the pause sign and the like button of a cell follow its flags. The
label does in every state; the sign does as long as nothing starts the cell while the
sign shows; and the button does as long as the cell is reused unliked only, because
reuse whitens the button and keeps the flag, and the next tap then takes a like away
that the new post never had.
-/

namespace TiktokClone

open Library

/-- With no animation on its way, the label is held exactly while the cell is paused, the pause
sign shows only then, and the like button is red exactly when the cell is liked. -/
def Coherent (c : AnimatedCell) : Prop :=
  c.animations = [] → (c.holdScrolling = true ↔ c.isPlaying = false) ∧
    (c.pauseAlpha ≠ 0 → c.isPlaying = false) ∧ (c.tintColor = .red ↔ c.liked = true)

/-- The two ways to tap a like. -/
inductive LikeTap
  | like
  | handleLikeGesture

def HomeTableViewCell.tap (c : HomeTableViewCell) : LikeTap → HomeTableViewCell
  | .like => c.like
  | .handleLikeGesture => c.handleLikeGesture

/-- All further taps do to the like button what they do on a fresh cell. -/
def LikesAsFresh (c : HomeTableViewCell) : Prop :=
  ∀ taps : List LikeTap,
    (taps.foldl .tap c).tintColor = (taps.foldl .tap HomeTableViewCell.awakeFromNib).tintColor

/-- A cell that is prepared for reuse and configured for a post takes likes as a fresh one. -/
def ReusesAsFresh (c : AnimatedCell) : GestureEvent → Prop
  | .cell .prepareForReuse => ∀ post data, LikesAsFresh (c.prepareForReuse.configure post data)
  | _ => True

/-- The cell is prepared for reuse only while it is not liked. -/
def ReusesUnliked (c : AnimatedCell) : GestureEvent → Prop
  | .cell .prepareForReuse => c.liked = false
  | _ => True

/-- With no animation on its way, or with the last one ending, the cell is started only while
the pause sign is hidden. -/
def StartsWithoutSign (c : AnimatedCell) : GestureEvent → Prop
  | .cell .play | .cell .replay => c.animations = [] → c.isPlaying = false → c.pauseAlpha = 0
  | .finishAnimation _ => c.animations = [.starting] → c.pauseAlpha = 0
  | _ => True

/-! ### The like button of a reused cell -/

namespace HomeTableViewCell

variable {c d : HomeTableViewCell}

/-- A tap acts on the button and its flag alone. -/
theorem tap_congr (hliked : c.liked = d.liked) (htint : c.tintColor = d.tintColor)
    (tap : LikeTap) :
    (c.tap tap).liked = (d.tap tap).liked ∧ (c.tap tap).tintColor = (d.tap tap).tintColor := by
  cases tap with
  | like => cases h : d.liked <;> simp [HomeTableViewCell.tap, like, likeVideo, hliked, h]
  | handleLikeGesture =>
    cases h : d.liked <;>
      simp [HomeTableViewCell.tap, handleLikeGesture, likeVideo, hliked, h, htint]

theorem foldl_tap_congr (hliked : c.liked = d.liked) (htint : c.tintColor = d.tintColor)
    (taps : List LikeTap) : (taps.foldl tap c).tintColor = (taps.foldl tap d).tintColor := by
  induction taps generalizing c d with
  | nil => exact htint
  | cons tap taps ih =>
    obtain ⟨hliked', htint'⟩ := tap_congr hliked htint tap
    exact ih hliked' htint'

end HomeTableViewCell

/-- Reuse whitens the button, so the flag alone decides what the next taps do. -/
theorem likesAsFresh_reused_iff (c : HomeTableViewCell) (post : Post) (data : Option String) :
    LikesAsFresh (c.prepareForReuse.configure post data) ↔ c.liked = false := by
  constructor
  · intro h
    cases hliked : c.liked with
    | false => rfl
    | true =>
      have hfirst : (c.prepareForReuse.configure post data).like.tintColor = .red := h [.like]
      have hwhite : (c.prepareForReuse.configure post data).like.tintColor = .white := by
        have hkept : (c.prepareForReuse.configure post data).liked = true := hliked
        simp [HomeTableViewCell.like, hkept]
      cases hfirst.symm.trans hwhite
  · exact fun h => HomeTableViewCell.foldl_tap_congr h rfl

theorem reusesAsFresh_iff (c : AnimatedCell) (e : GestureEvent) :
    ReusesAsFresh c e ↔ ReusesUnliked c e := by
  cases e with
  | cell e =>
    cases e with
    | prepareForReuse =>
      constructor
      · intro h
        exact (likesAsFresh_reused_iff c.toHomeTableViewCell (.ofDictionary .plain ∅) none).mp
          (h _ _)
      · exact fun h post data => (likesAsFresh_reused_iff _ post data).mpr h
    | configure | play | replay | pause | runConfigureBlock | runCancelBlock => exact Iff.rfl
  | handlePause | finishAnimation | like | handleLikeGesture => exact Iff.rfl

/-! ### The label, the sign and the button -/

/-- The invariant of runs that keep the display. -/
structure Displayed (c : AnimatedCell) : Prop where
  label : c.holdScrolling = true ↔ c.isPlaying = false
  sign : c.animations = [] → c.pauseAlpha ≠ 0 → c.isPlaying = false
  button : c.tintColor = .red ↔ c.liked = true

theorem Displayed.coherent {c : AnimatedCell} (h : Displayed c) : Coherent c :=
  fun hidle => ⟨h.label, h.sign hidle, h.button⟩

theorem displayed_awakeFromNib : Displayed .awakeFromNib where
  label := iff_of_true rfl rfl
  sign := fun _ _ => rfl
  button := iff_of_false (by decide) (by decide)

namespace HomeTableViewCell

variable (c : HomeTableViewCell)

theorem play_frame : c.play.pauseAlpha = c.pauseAlpha ∧ c.play.tintColor = c.tintColor ∧
    c.play.liked = c.liked := by
  cases h : c.isPlaying <;> simp [play, h]

theorem pause_frame : c.pause.pauseAlpha = c.pauseAlpha ∧ c.pause.tintColor = c.tintColor ∧
    c.pause.liked = c.liked := by
  cases h : c.isPlaying <;> simp [pause, h]

theorem play_holdScrolling (h : c.holdScrolling = true ↔ c.isPlaying = false) :
    c.play.holdScrolling = true ↔ c.play.isPlaying = false := by
  cases hp : c.isPlaying with
  | true => rw [play_of_isPlaying hp, h]
  | false => simp [play_of_not_isPlaying hp]

theorem pause_holdScrolling (h : c.holdScrolling = true ↔ c.isPlaying = false) :
    c.pause.holdScrolling = true ↔ c.pause.isPlaying = false := by
  cases hp : c.isPlaying with
  | true => simp [pause_of_isPlaying hp]
  | false => rw [pause_of_not_isPlaying hp, h]

theorem likeVideo_tintColor (h : c.tintColor = .red ↔ c.liked = true) :
    c.likeVideo.tintColor = .red ↔ c.likeVideo.liked = true := by
  cases hl : c.liked with
  | true => simpa [likeVideo, hl] using h
  | false => simp [likeVideo, hl]

theorem like_tintColor : c.like.tintColor = .red ↔ c.like.liked = true := by
  cases hl : c.liked <;> simp [like, likeVideo, hl]

end HomeTableViewCell

namespace Displayed

variable {c : AnimatedCell}

/-- A cell is started beside any animations that are still on their way, or without its sign. -/
theorem play (h : Displayed c) (animations : List PauseAnimation) (pauseScale : Rat)
    (hsign : animations = [] → c.pauseAlpha = 0) : Displayed ⟨c.play, pauseScale, animations⟩ := by
  obtain ⟨halpha, htint, hliked⟩ := c.play_frame
  refine ⟨c.play_holdScrolling h.label, fun hidle hshown => ?_, ?_⟩
  · exact absurd (halpha.trans (hsign hidle)) hshown
  · rw [htint, hliked]
    exact h.button

theorem pause (h : Displayed c) (animations : List PauseAnimation) (pauseScale : Rat) :
    Displayed ⟨c.pause, pauseScale, animations⟩ := by
  obtain ⟨_, htint, hliked⟩ := c.pause_frame
  refine ⟨c.pause_holdScrolling h.label, fun _ _ => c.pause_isPlaying, ?_⟩
  rw [htint, hliked]
  exact h.button

/-- Steps that touch nothing of the display. -/
theorem congr (h : Displayed c) {d : HomeTableViewCell} (hflag : d.isPlaying = c.isPlaying)
    (hhold : d.holdScrolling = c.holdScrolling) (halpha : d.pauseAlpha = c.pauseAlpha)
    (htint : d.tintColor = c.tintColor) (hliked : d.liked = c.liked) :
    Displayed ⟨d, c.pauseScale, c.animations⟩ where
  label := by
    rw [hflag, hhold]
    exact h.label
  sign := by
    rw [hflag, halpha]
    exact h.sign
  button := by
    rw [htint, hliked]
    exact h.button

/-- A cell step keeps the display when it reuses the cell unliked and starts it without its
sign. -/
theorem cell_next {f : Foundation} {d : HomeTableViewCell} {e : CellEvent} (h : Displayed c)
    (hunliked : ReusesUnliked c (.cell e)) (hsign : StartsWithoutSign c (.cell e))
    (hd : (cell f).next c.toHomeTableViewCell e = some d) :
    Displayed ⟨d, c.pauseScale, c.animations⟩ := by
  have hplay : (c.animations = [] → c.isPlaying = false → c.pauseAlpha = 0) →
      Displayed ⟨c.play, c.pauseScale, c.animations⟩ := by
    intro hsign
    cases hp : c.isPlaying with
    | true =>
      rw [HomeTableViewCell.play_of_isPlaying hp]
      exact h
    | false => exact h.play _ _ fun hidle => hsign hidle hp
  cases e with
  | configure post data =>
    obtain rfl := Option.some.inj hd
    exact h.congr rfl rfl rfl rfl rfl
  | prepareForReuse =>
    obtain rfl := Option.some.inj hd
    refine ⟨h.label, fun _ hshown => absurd rfl hshown, iff_of_false (fun hred => ?_) ?_⟩
    · cases hred
    · exact Bool.eq_false_iff.mp hunliked
  | play =>
    obtain rfl := Option.some.inj hd
    exact hplay hsign
  | replay =>
    obtain rfl := Option.some.inj hd
    rw [HomeTableViewCell.replay_eq_play]
    exact hplay hsign
  | pause =>
    obtain rfl := Option.some.inj hd
    exact h.pause _ _
  | runConfigureBlock =>
    obtain ⟨block, blocks, _, rfl⟩ := HomeTableViewCell.runConfigureBlock_eq_some_iff.mp hd
    exact h.congr rfl rfl rfl rfl rfl
  | runCancelBlock =>
    obtain ⟨blocks, _, rfl⟩ := HomeTableViewCell.runCancelBlock_eq_some hd
    exact h.congr rfl rfl rfl rfl rfl

theorem next {f : Foundation} {c d : AnimatedCell} {e : GestureEvent} (h : Displayed c)
    (hunliked : ReusesUnliked c e) (hsign : StartsWithoutSign c e)
    (hn : (gestures f).next c e = some d) : Displayed d := by
  cases e with
  | cell e =>
    obtain ⟨d, hd, rfl⟩ := Option.map_eq_some_iff.mp hn
    exact h.cell_next hunliked hsign hd
  | handlePause =>
    obtain rfl := Option.some.inj hn
    rw [AnimatedCell.handlePause]
    split <;> exact ⟨h.label, fun hidle => absurd hidle (by simp), h.button⟩
  | finishAnimation i =>
    obtain ⟨animation, hi, rfl⟩ := Option.map_eq_some_iff.mp hn
    cases animation with
    | pausing => exact h.pause _ _
    | starting =>
      refine h.play _ _ fun hidle => hsign ?_
      have hlast : c.animations.length = 1 := by
        have hlt := (List.getElem?_eq_some_iff.mp hi).1
        have hlength := congrArg List.length hidle
        rw [List.length_eraseIdx_of_lt hlt, List.length_nil] at hlength
        omega
      obtain ⟨animation, hone⟩ := List.length_eq_one_iff.mp hlast
      rw [hone, List.getElem?_singleton, Option.ite_none_right_eq_some] at hi
      rw [hone, Option.some.inj hi.2]
  | like =>
    obtain rfl := Option.some.inj hn
    refine ⟨?_, ?_, c.like_tintColor⟩
    · cases hl : c.liked <;> simpa [HomeTableViewCell.like, HomeTableViewCell.likeVideo, hl]
        using h.label
    · cases hl : c.liked <;> simpa [HomeTableViewCell.like, HomeTableViewCell.likeVideo, hl]
        using h.sign
  | handleLikeGesture =>
    obtain rfl := Option.some.inj hn
    refine ⟨?_, ?_, c.likeVideo_tintColor h.button⟩
    · cases hl : c.liked <;> simpa [HomeTableViewCell.handleLikeGesture,
        HomeTableViewCell.likeVideo, hl] using h.label
    · cases hl : c.liked <;> simpa [HomeTableViewCell.handleLikeGesture,
        HomeTableViewCell.likeVideo, hl] using h.sign

end Displayed

/-- A step into a coherent state starts the cell without its sign. -/
theorem Coherent.startsWithoutSign {f : Foundation} {c d : AnimatedCell} {e : GestureEvent}
    (hn : (gestures f).next c e = some d) (h : Coherent d) : StartsWithoutSign c e := by
  have hplay : ∀ (cell : HomeTableViewCell), cell = c.play →
      d = ⟨cell, c.pauseScale, c.animations⟩ →
      c.animations = [] → c.isPlaying = false → c.pauseAlpha = 0 := by
    rintro _ rfl rfl hidle _
    by_contra hshown
    have hpaused := (h hidle).2.1 (by rwa [c.play_frame.1])
    rw [c.play_isPlaying] at hpaused
    cases hpaused
  cases e with
  | cell e =>
    cases e with
    | play => exact hplay _ rfl (Option.some.inj hn).symm
    | replay => exact hplay _ c.replay_eq_play (Option.some.inj hn).symm
    | configure | prepareForReuse | pause | runConfigureBlock | runCancelBlock => trivial
  | finishAnimation i =>
    intro hone
    obtain ⟨animation, hi, rfl⟩ := Option.map_eq_some_iff.mp hn
    rw [hone, List.getElem?_singleton, Option.ite_none_right_eq_some] at hi
    obtain ⟨rfl, hanimation⟩ := hi
    obtain rfl := Option.some.inj hanimation
    by_contra hshown
    have hidle : c.animations.eraseIdx 0 = [] := by rw [hone, List.eraseIdx_cons_zero]
    have halpha : c.play.pauseAlpha = c.pauseAlpha := c.play_frame.1
    have hplays : c.play.isPlaying = true := c.play_isPlaying
    have hpaused := (h hidle).2.1 fun hzero => hshown (halpha.symm.trans hzero)
    cases hplays.symm.trans hpaused
  | handlePause | like | handleLikeGesture => trivial

/-- The display is coherent in every state of a run, and every reuse makes the like button act
as on a fresh cell, if and only if the cell is reused unliked only and is started without its
sign only. -/
theorem display_coherent_iff {f : Foundation} {events : List GestureEvent} {c : AnimatedCell}
    (h : (gestures f).Run events c) :
    (gestures f).AllStates Coherent events ∧ (gestures f).AllSteps ReusesAsFresh events ↔
      (gestures f).AllSteps (fun c e => ReusesUnliked c e ∧ StartsWithoutSign c e) events := by
  rw [Machine.allSteps_congr (fun c e _ => reusesAsFresh_iff c e), Machine.allSteps_and, and_comm]
  refine and_congr_right fun hunliked => ⟨?_, fun hsign => ?_⟩
  · exact h.allSteps_of_allStates fun _ _ _ hn hc => hc.startsWithoutSign hn
  · have hboth := Machine.allSteps_and.mpr ⟨hunliked, hsign⟩
    have hdisplayed := Machine.allStates_of_allSteps displayed_awakeFromNib
      (fun _ _ _ hc hstep hn => hc.next hstep.1 hstep.2 hn) hboth
    exact fun before hp s hs => (hdisplayed before hp s hs).coherent

/-- A liked cell is reused for another post. -/
def reusedLiked : List GestureEvent :=
  [.like, .cell .prepareForReuse, .cell (.configure (postAt "http:b") none)]

theorem display_coherent_iff_reusedLiked :
    (gestures .plain).AllStates Coherent reusedLiked ∧
        (gestures .plain).AllSteps ReusesAsFresh reusedLiked ↔
      (gestures .plain).AllSteps (fun c e => ReusesUnliked c e ∧ StartsWithoutSign c e)
        reusedLiked :=
  display_coherent_iff (Machine.run_iff_exec.mpr rfl)

/-- A reused cell whose last post was liked shows a white button and counts as liked, so that
the first tap on it does not turn it red; and a cell that a tap has paused shows the pause sign
while it plays again. -/
theorem reused_cell_stays_liked :
    (∃ c, (gestures .plain).Run reusedLiked c ∧ c.liked = true ∧ c.tintColor = .white ∧
      ¬ Coherent c ∧ ¬ LikesAsFresh c.toHomeTableViewCell) ∧
    ∃ c, (gestures .plain).Run (tappedOnce ++ [.cell .replay]) c ∧ c.isPlaying = true ∧
      c.pauseAlpha = 35 / 100 ∧ ¬ Coherent c := by
  have hshown : (35 / 100 : Rat) ≠ 0 := by decide +kernel
  refine ⟨⟨_, Machine.run_iff_exec.mpr rfl, rfl, rfl, fun h => ?_, fun h => ?_⟩,
    _, Machine.run_iff_exec.mpr rfl, rfl, rfl, fun h => ?_⟩
  · exact absurd ((h rfl).2.2.mpr rfl) (by decide)
  · exact absurd (h [.like]) (by decide)
  · exact absurd ((h rfl).2.1 hshown) (by decide)

end TiktokClone
