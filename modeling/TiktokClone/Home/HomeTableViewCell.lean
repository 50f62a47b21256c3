import TiktokClone.Player.VideoPlayerView
import TiktokClone.Post.Post

/-!
# The cell of the home feed

The cell's own state, the player view in it and the methods that the table and the
feed call. The texts of the labels are shown and read by nothing else, so they are
left out.
-/

namespace TiktokClone

inductive TintColor
  | white
  | red
  deriving DecidableEq, Repr

structure HomeTableViewCell where
  playerView : Player
  isPlaying : Bool
  liked : Bool
  post : Option Post
  /-- `musicLbl.holdScrolling` -/
  holdScrolling : Bool
  /-- `likeBtn.tintColor` -/
  tintColor : TintColor
  /-- `pauseImgView.alpha` -/
  pauseAlpha : Rat

namespace HomeTableViewCell

/-- The cell after `awakeFromNib`. -/
def awakeFromNib : HomeTableViewCell where
  playerView := .initial
  isPlaying := false
  liked := false
  post := none
  holdScrolling := true
  tintColor := .white
  pauseAlpha := 0

def resetViewsForReuse (c : HomeTableViewCell) : HomeTableViewCell :=
  { c with tintColor := .white, pauseAlpha := 0 }

def prepareForReuse (c : HomeTableViewCell) : HomeTableViewCell :=
  resetViewsForReuse { c with playerView := c.playerView.cancelAllLoadingRequest }

/-- `configure(post:)`; `data` is what the cache query answers. -/
def configure (c : HomeTableViewCell) (post : Post) (data : Option String) : HomeTableViewCell :=
  { c with
    post := some post
    playerView := c.playerView.configure post.videoURL post.videoFileExtension data }

def play (c : HomeTableViewCell) : HomeTableViewCell :=
  if !c.isPlaying then
    { c with playerView := c.playerView.play, holdScrolling := false, isPlaying := true }
  else c

def replay (c : HomeTableViewCell) : HomeTableViewCell :=
  if !c.isPlaying then play { c with playerView := c.playerView.replay } else c

def pause (c : HomeTableViewCell) : HomeTableViewCell :=
  if c.isPlaying then
    { c with playerView := c.playerView.pause, holdScrolling := true, isPlaying := false }
  else c

def likeVideo (c : HomeTableViewCell) : HomeTableViewCell :=
  if !c.liked then { c with liked := true, tintColor := .red } else c

def like (c : HomeTableViewCell) : HomeTableViewCell :=
  if !c.liked then c.likeVideo else { c with liked := false, tintColor := .white }

/-- `handleLikeGesture(sender:)`; the heart that it lets fly touches no field. -/
def handleLikeGesture (c : HomeTableViewCell) : HomeTableViewCell := c.likeVideo

/-- The next block of the main queue. -/
def runConfigureBlock (f : Foundation) (c : HomeTableViewCell) : Option HomeTableViewCell :=
  match c.playerView.mainQueue with
  | [] => none
  | block :: blocks =>
    some { c with
      playerView := { c.playerView with mainQueue := blocks }.runConfigureBlock f block }

/-- The next block of the cleanup queue. -/
def runCancelBlock (c : HomeTableViewCell) : Option HomeTableViewCell :=
  match c.playerView.cancelLoadingQueue with
  | 0 => none
  | blocks + 1 =>
    some { c with playerView := { c.playerView with cancelLoadingQueue := blocks }.runCancelBlock }

/-- The URL of the post given to the last `configure`. -/
def lastURL (c : HomeTableViewCell) : Option URL := c.post.bind Post.videoURL

theorem play_of_isPlaying {c : HomeTableViewCell} (h : c.isPlaying = true) : c.play = c := by
  rw [play, h]
  rfl

theorem play_of_not_isPlaying {c : HomeTableViewCell} (h : c.isPlaying = false) :
    c.play = { c with
      playerView := c.playerView.play, holdScrolling := false, isPlaying := true } := by
  rw [play, h]
  rfl

/-- Seeking apart, a replay is a play. -/
theorem replay_eq_play (c : HomeTableViewCell) : c.replay = c.play := by
  cases h : c.isPlaying with
  | true =>
    rw [replay, h, play_of_isPlaying h]
    rfl
  | false =>
    have htwice : c.playerView.replay.play = c.playerView.play := by
      simp only [Player.replay, Player.play, Option.map_map, Function.comp_def]
    rw [replay, h, play_of_not_isPlaying h, play]
    simp only [Bool.not_false, if_true, htwice]

theorem pause_of_isPlaying {c : HomeTableViewCell} (h : c.isPlaying = true) :
    c.pause = { c with
      playerView := c.playerView.pause, holdScrolling := true, isPlaying := false } := by
  rw [pause, h]
  rfl

theorem pause_of_not_isPlaying {c : HomeTableViewCell} (h : c.isPlaying = false) :
    c.pause = c := by
  rw [pause, h]
  rfl

@[simp] theorem play_isPlaying (c : HomeTableViewCell) : c.play.isPlaying = true := by
  cases h : c.isPlaying with
  | true => rw [play_of_isPlaying h, h]
  | false => rw [play_of_not_isPlaying h]

@[simp] theorem replay_isPlaying (c : HomeTableViewCell) : c.replay.isPlaying = true := by
  rw [replay_eq_play, play_isPlaying]

@[simp] theorem pause_isPlaying (c : HomeTableViewCell) : c.pause.isPlaying = false := by
  cases h : c.isPlaying with
  | true => rw [pause_of_isPlaying h]
  | false => rw [pause_of_not_isPlaying h, h]

end HomeTableViewCell

end TiktokClone
