import Mathlib.Algebra.Order.Ring.Unbundled.Rat
import TiktokClone.Home.OwnPost

/-!
# Taps on a cell

A tap on a cell animates its pause sign, and only the completion of the animation
pauses or plays. The cell's own flag tells whether its player plays as long as
nothing starts the cell before the deferred block of `configure` has made a player:
playing an absent player sets the flag all the same.
-/

namespace TiktokClone

open Library

/-- An animation of `handlePause` whose completion has not run. -/
inductive PauseAnimation
  /-- It shows the pause sign; its completion pauses. -/
  | pausing
  /-- It hides the pause sign; its completion plays. -/
  | starting
  deriving DecidableEq, Repr

/-- A cell with its pause sign and the animations on their way. -/
structure AnimatedCell extends HomeTableViewCell where
  /-- The scale of `pauseImgView.transform` -/
  pauseScale : Rat
  animations : List PauseAnimation

namespace AnimatedCell

/-- The cell after `awakeFromNib`. -/
def awakeFromNib : AnimatedCell := ⟨.awakeFromNib, 1, []⟩

def handlePause (c : AnimatedCell) : AnimatedCell :=
  if c.isPlaying then
    -- Pause video and show pause sign
    { c with pauseAlpha := 35 / 100, pauseScale := 45 / 100,
             animations := c.animations ++ [.pausing] }
  else
    -- Start video and remove pause sign
    { c with pauseAlpha := 0, animations := c.animations ++ [.starting] }

/-- The completion of an animation. -/
def complete (c : AnimatedCell) : PauseAnimation → AnimatedCell
  | .pausing => ⟨c.pause, c.pauseScale, c.animations⟩
  | .starting => ⟨c.play, 1, c.animations⟩

/-- One of the animations ends and its completion runs. -/
def finishAnimation (c : AnimatedCell) (i : Nat) : Option AnimatedCell :=
  (c.animations[i]?).map fun animation =>
    complete { c with animations := c.animations.eraseIdx i } animation

end AnimatedCell

/-- The steps of a cell together with the taps on it. -/
inductive GestureEvent
  | cell (e : CellEvent)
  | handlePause
  | finishAnimation (i : Nat)
  | like
  | handleLikeGesture

/-- A cell of the feed and the taps on it, from its nib on. -/
def gestures (f : Foundation) : Machine AnimatedCell GestureEvent where
  start := .awakeFromNib
  next c
    | .cell e => ((cell f).next c.toHomeTableViewCell e).map fun d =>
        ⟨d, c.pauseScale, c.animations⟩
    | .handlePause => some c.handlePause
    | .finishAnimation i => c.finishAnimation i
    | .like => some ⟨c.like, c.pauseScale, c.animations⟩
    | .handleLikeGesture => some ⟨c.handleLikeGesture, c.pauseScale, c.animations⟩

/-- The flag says whether there is a player that plays. -/
def Truthful (c : HomeTableViewCell) : Prop := c.isPlaying = true ↔ c.playerView.Plays

/-- What starts a paused cell finds a player: the methods of the cell and the completions. -/
def StartsPlayer (c : AnimatedCell) : GestureEvent → Prop
  | .cell .play | .cell .replay => c.isPlaying = false → c.playerView.queuePlayer ≠ none
  | .finishAnimation i => c.animations[i]? = some .starting → c.isPlaying = false →
      c.playerView.queuePlayer ≠ none
  | _ => True

namespace Truthful

variable {c d : HomeTableViewCell}

theorem awakeFromNib : Truthful .awakeFromNib := by
  refine iff_of_false Bool.false_ne_true ?_
  rintro ⟨q, hq, _⟩
  cases hq

/-- Steps that change neither the flag nor whether the player plays. -/
theorem congr (h : Truthful c) (hflag : d.isPlaying = c.isPlaying)
    (hplays : d.playerView.Plays ↔ c.playerView.Plays) : Truthful d := by
  rw [Truthful, hflag, hplays]
  exact h

/-- Playing keeps the flag truthful exactly when a paused cell has a player. -/
theorem play_iff (h : Truthful c) :
    Truthful c.play ↔ (c.isPlaying = false → c.playerView.queuePlayer ≠ none) := by
  cases hp : c.isPlaying with
  | true =>
    rw [HomeTableViewCell.play_of_isPlaying hp]
    refine iff_of_true h fun hfalse => ?_
    cases hfalse
  | false =>
    rw [HomeTableViewCell.play_of_not_isPlaying hp, Truthful, Player.play_plays_iff]
    simp

theorem pause (h : Truthful c) : Truthful c.pause := by
  cases hp : c.isPlaying with
  | true =>
    rw [HomeTableViewCell.pause_of_isPlaying hp]
    exact iff_of_false Bool.false_ne_true c.playerView.not_pause_plays
  | false =>
    rw [HomeTableViewCell.pause_of_not_isPlaying hp]
    exact h

theorem runConfigureBlock {f : Foundation} (h : Truthful c) (hd : c.runConfigureBlock f = some d) :
    Truthful d := by
  obtain ⟨block, blocks, _, rfl⟩ := HomeTableViewCell.runConfigureBlock_eq_some_iff.mp hd
  exact h.congr rfl (Player.runConfigureBlock_plays_iff ..)

theorem runCancelBlock (h : Truthful c) (hd : c.runCancelBlock = some d) : Truthful d := by
  obtain ⟨blocks, _, rfl⟩ := HomeTableViewCell.runCancelBlock_eq_some hd
  exact h.congr rfl Iff.rfl

/-- A step of the cell itself. -/
theorem cell_next_iff {f : Foundation} {e : CellEvent} (h : Truthful c)
    (hd : (TiktokClone.cell f).next c e = some d) (pauseScale : Rat)
    (animations : List PauseAnimation) :
    Truthful d ↔ StartsPlayer ⟨c, pauseScale, animations⟩ (.cell e) := by
  cases e with
  | configure post data =>
    obtain rfl := Option.some.inj hd
    exact iff_of_true (h.congr rfl (Player.configure_plays_iff _ _ _ _)) trivial
  | prepareForReuse =>
    obtain rfl := Option.some.inj hd
    exact iff_of_true (h.congr rfl Iff.rfl) trivial
  | play =>
    obtain rfl := Option.some.inj hd
    exact h.play_iff
  | replay =>
    obtain rfl := Option.some.inj hd
    rw [HomeTableViewCell.replay_eq_play]
    exact h.play_iff
  | pause =>
    obtain rfl := Option.some.inj hd
    exact iff_of_true h.pause trivial
  | runConfigureBlock => exact iff_of_true (h.runConfigureBlock hd) trivial
  | runCancelBlock => exact iff_of_true (h.runCancelBlock hd) trivial

end Truthful

/-- A like changes the button and what it stands for. -/
theorem HomeTableViewCell.likeVideo_frame (c : HomeTableViewCell) :
    c.likeVideo.isPlaying = c.isPlaying ∧ c.likeVideo.playerView = c.playerView := by
  cases h : c.liked <;> simp [likeVideo, h]

theorem HomeTableViewCell.like_frame (c : HomeTableViewCell) :
    c.like.isPlaying = c.isPlaying ∧ c.like.playerView = c.playerView := by
  cases h : c.liked <;> simp [like, likeVideo, h]

/-- A step leads from a truthful flag to a truthful flag exactly when a cell that it starts has
a player. -/
theorem truthful_next {f : Foundation} {c d : AnimatedCell} {e : GestureEvent}
    (h : Truthful c.toHomeTableViewCell) (hn : (gestures f).next c e = some d) :
    Truthful d.toHomeTableViewCell ↔ StartsPlayer c e := by
  cases e with
  | cell e =>
    obtain ⟨d, hd, rfl⟩ := Option.map_eq_some_iff.mp hn
    exact h.cell_next_iff hd c.pauseScale c.animations
  | handlePause =>
    obtain rfl := Option.some.inj hn
    refine iff_of_true ?_ trivial
    rw [AnimatedCell.handlePause]
    split <;> exact h.congr rfl Iff.rfl
  | finishAnimation i =>
    obtain ⟨animation, hi, rfl⟩ := Option.map_eq_some_iff.mp hn
    cases animation with
    | pausing =>
      refine iff_of_true (h.congr rfl Iff.rfl).pause fun hstarting => ?_
      cases hi.symm.trans hstarting
    | starting =>
      have hplay : Truthful c.play ↔ _ := h.play_iff
      exact hplay.trans ⟨fun hplayer _ => hplayer, fun hplayer => hplayer hi⟩
  | like =>
    obtain rfl := Option.some.inj hn
    obtain ⟨hflag, hplayer⟩ := c.like_frame
    exact iff_of_true (h.congr hflag (by rw [hplayer])) trivial
  | handleLikeGesture =>
    obtain rfl := Option.some.inj hn
    obtain ⟨hflag, hplayer⟩ := c.likeVideo_frame
    exact iff_of_true (h.congr hflag (by rw [HomeTableViewCell.handleLikeGesture, hplayer])) trivial

/-- In every state of a run the flag is true exactly when there is a player that plays, if and
only if whatever starts a paused cell in that run finds a player. -/
theorem is_playing_truthful_iff {f : Foundation} {events : List GestureEvent} {c : AnimatedCell}
    (h : (gestures f).Run events c) :
    (gestures f).AllStates (fun c => Truthful c.toHomeTableViewCell) events ↔
      (gestures f).AllSteps StartsPlayer events :=
  h.allStates_iff_allSteps Truthful.awakeFromNib fun _ _ _ _ hs hn => truthful_next hs hn

/-- A cell plays its video, and a tap pauses it. -/
def tappedOnce : List GestureEvent :=
  [.cell (.configure (postAt "http:a") none), .cell .runConfigureBlock, .cell .play, .handlePause,
    .finishAnimation 0]

theorem is_playing_truthful_iff_tappedOnce :
    (gestures .plain).AllStates (fun c => Truthful c.toHomeTableViewCell) tappedOnce ↔
      (gestures .plain).AllSteps StartsPlayer tappedOnce :=
  is_playing_truthful_iff (Machine.run_iff_exec.mpr rfl)

/-- A cell that is played before the deferred block of `configure` has run counts as playing,
and its player stays paused when later told to play. -/
theorem played_before_block : ∃ c, (gestures .plain).Run
    [.cell (.configure (postAt "http:a") none), .cell .play, .cell .runConfigureBlock,
      .cell .play] c ∧
    c.isPlaying = true ∧ c.playerView.queuePlayer.map AVQueuePlayer.isPlaying = some false ∧
    ¬ Truthful c.toHomeTableViewCell := by
  refine ⟨_, Machine.run_iff_exec.mpr rfl, rfl, rfl, fun h => ?_⟩
  obtain ⟨q, hq, hplays⟩ := h.mp rfl
  cases hq
  cases hplays

end TiktokClone
