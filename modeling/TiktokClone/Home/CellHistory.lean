import TiktokClone.Library.Machine
import TiktokClone.Home.HomeTableViewCell

/-!
# The history of a cell

A cell is configured for one post after another while the blocks of its player view
wait on the main queue. What it is about is read off its history: the last post
configured, the last block that made its asset, and whether the cell has been reused or
started since. Every reachable cell is as its history says.
-/

namespace TiktokClone

open Library

/-- The steps of a cell of the feed. -/
inductive CellEvent
  | configure (post : Post) (data : Option String)
  | prepareForReuse
  | play
  | replay
  | pause
  | runConfigureBlock
  | runCancelBlock

/-- A cell of the feed from its nib on. -/
def cell (f : Foundation) : Machine HomeTableViewCell CellEvent where
  start := .awakeFromNib
  next c
    | .configure post data => some (c.configure post data)
    | .prepareForReuse => some c.prepareForReuse
    | .play => some c.play
    | .replay => some c.replay
    | .pause => some c.pause
    | .runConfigureBlock => c.runConfigureBlock f
    | .runCancelBlock => c.runCancelBlock

/-- The URL that the player's current item was built for. -/
def Player.itemURL (p : Player) : Option URL :=
  p.queuePlayer.bind fun q => q.currentItem.map AVPlayerItem.source

/-- The player has been told to play and not to pause since. -/
def Player.Plays (p : Player) : Prop := ∃ q, p.queuePlayer = some q ∧ q.isPlaying = true

/-- A player that plays belongs to a cell that knows it. -/
def HomeTableViewCell.KnowsItPlays (c : HomeTableViewCell) : Prop :=
  c.playerView.Plays → c.isPlaying = true

/-! ### What the history tells -/

namespace CellEvent

/-- The block that a configuration leaves on the main queue. -/
def block : CellEvent → Option ConfigureBlock
  | configure post data => post.videoURL.map fun url => ⟨url, data⟩
  | _ => none

def runsBlock : CellEvent → Bool
  | runConfigureBlock => true
  | _ => false

/-- The URL of the last post after a step. -/
def configures (url : Option URL) : CellEvent → Option URL
  | configure post _ => post.videoURL
  | _ => url

/-- The URL of the asset that a step makes, by the blocks that wait. -/
def builds (f : Foundation) (blocks : List ConfigureBlock) : CellEvent → Option URL
  | runConfigureBlock => ConfigureBlock.presents f blocks
  | _ => none

/-- The URL in `originalURL` after a step. -/
def presents (f : Foundation) (blocks : List ConfigureBlock) (url : Option URL) :
    CellEvent → Option URL
  | runConfigureBlock => (ConfigureBlock.presents f blocks).or url
  | prepareForReuse => none
  | _ => url

/-- The cell counts as playing after a step. -/
def flags (playing : Bool) : CellEvent → Bool
  | play | replay => true
  | pause => false
  | _ => playing

/-- The player plays after a step: only a cell that did not count as playing starts it. -/
def starts (playing : Bool) (built : Option URL) (started : Bool) : CellEvent → Bool
  | play | replay => if playing then started else built.isSome
  | pause => false
  | _ => started

/-- The blocks of the configurations so far that have not run, in their order. -/
def mainQueue (events : List CellEvent) : List ConfigureBlock := pending block runsBlock events

/-- The URL of the last post configured. -/
def configuredURL (events : List CellEvent) : Option URL := events.foldl configures none

/-- The URL of the last block that made its asset. -/
def builtURL (f : Foundation) (events : List CellEvent) : Option URL :=
  recollect (fun before url e => (e.builds f (mainQueue before)).or url) none events

/-- The URL of the last block that made its asset, if the cell has not been reused since. -/
def presentedURL (f : Foundation) (events : List CellEvent) : Option URL :=
  recollect (fun before url e => e.presents f (mainQueue before) url) none events

/-- The cell was told to play or replay later than to pause. -/
def playing (events : List CellEvent) : Bool := events.foldl flags false

/-- A block had made its asset when the cell was first told to play or replay since it was
last told to pause. -/
def started (f : Foundation) (events : List CellEvent) : Bool :=
  recollect (fun before started e => e.starts (playing before) (builtURL f before) started) false
    events

section Concat

variable (f : Foundation) (events : List CellEvent) (e : CellEvent)

theorem mainQueue_concat : mainQueue (events ++ [e]) =
    if e.runsBlock then (mainQueue events).tail else mainQueue events ++ e.block.toList :=
  pending_concat

theorem configuredURL_concat :
    configuredURL (events ++ [e]) = e.configures (configuredURL events) := by
  rw [configuredURL, List.foldl_append]
  rfl

theorem builtURL_concat :
    builtURL f (events ++ [e]) = (e.builds f (mainQueue events)).or (builtURL f events) :=
  recollect_concat

theorem presentedURL_concat : presentedURL f (events ++ [e]) =
    e.presents f (mainQueue events) (presentedURL f events) := recollect_concat

theorem playing_concat : playing (events ++ [e]) = e.flags (playing events) := by
  rw [playing, List.foldl_append]
  rfl

theorem started_concat : started f (events ++ [e]) =
    e.starts (playing events) (builtURL f events) (started f events) := recollect_concat

end Concat

/-- What the view presents was built. -/
theorem builtURL_of_presentedURL {f : Foundation} {events : List CellEvent} {url : URL}
    (h : presentedURL f events = some url) : builtURL f events = some url := by
  induction events using List.reverseRecOn with
  | nil => cases h
  | append_singleton events e ih =>
    rw [presentedURL_concat] at h
    rw [builtURL_concat]
    cases e with
    | prepareForReuse => cases h
    | runConfigureBlock =>
      rw [presents] at h
      rw [builds]
      cases hblock : ConfigureBlock.presents f (mainQueue events) with
      | none =>
        rw [hblock, Option.none_or] at h
        exact ih h
      | some built => rwa [hblock] at h
    | _ => exact ih h

/-- The block at the end of the main queue is the last post's, if that post has a URL. -/
theorem configuredURL_of_getLast? {events : List CellEvent} {block : ConfigureBlock} {url : URL}
    (hblock : (mainQueue events).getLast? = some block) (hurl : configuredURL events = some url) :
    url = block.url := by
  induction events using List.reverseRecOn with
  | nil => cases hblock
  | append_singleton events e ih =>
    rw [mainQueue_concat] at hblock
    rw [configuredURL_concat] at hurl
    cases e with
    | configure post data =>
      have hpost : post.videoURL = some url := hurl
      have hlast : (mainQueue events ++ [(⟨url, data⟩ : ConfigureBlock)]).getLast? =
          some block := by
        simpa only [runsBlock, CellEvent.block, hpost, Option.map_some, Option.toList_some,
          Bool.false_eq_true, if_false] using hblock
      rw [List.getLast?_concat, Option.some.injEq] at hlast
      rw [← hlast]
    | runConfigureBlock =>
      have htail : (mainQueue events).tail.getLast? = some block := hblock
      cases hqueue : mainQueue events with
      | nil =>
        rw [hqueue] at htail
        cases htail
      | cons head blocks =>
        rw [hqueue] at htail ih
        refine ih ?_ hurl
        rw [List.getLast?_cons, show blocks.getLast? = some block from htail, Option.getD_some]
    | _ =>
      have hsame : (mainQueue events ++ []).getLast? = some block := hblock
      rw [List.append_nil] at hsame
      exact ih hsame hurl

end CellEvent

/-! ### What a step does -/

open CellEvent

namespace Player

variable (p : Player)

theorem present_itemURL (videoURL url : URL) : (p.present videoURL url).itemURL = some url := by
  cases h : p.queuePlayer <;> simp [present, itemURL, h, AVQueuePlayer.ofItem]

/-- The player keeps its rate when its item is replaced; a new player is paused. -/
theorem present_plays_iff (videoURL url : URL) : (p.present videoURL url).Plays ↔ p.Plays := by
  cases h : p.queuePlayer <;> simp [present, Plays, h, AVQueuePlayer.ofItem]

/-- A block that makes its asset puts an item for its URL into the player. -/
theorem runConfigureBlock_itemURL (f : Foundation) (block : ConfigureBlock)
    (blocks : List ConfigureBlock) : (p.runConfigureBlock f block).itemURL =
      (ConfigureBlock.presents f (block :: blocks)).or p.itemURL := by
  rw [runConfigureBlock_eq, ConfigureBlock.presents]
  cases block.videoURL f with
  | none => rw [Option.map_none, Option.none_or]
  | some videoURL => exact present_itemURL ..

/-- No block starts the player or stops it. -/
theorem runConfigureBlock_plays_iff (f : Foundation) (block : ConfigureBlock) :
    (p.runConfigureBlock f block).Plays ↔ p.Plays := by
  rw [runConfigureBlock_eq]
  split
  · exact Iff.rfl
  · exact present_plays_iff ..

theorem play_itemURL : p.play.itemURL = p.itemURL := by
  cases h : p.queuePlayer <;> simp [play, itemURL, h]

theorem play_plays_iff : p.play.Plays ↔ p.queuePlayer ≠ none := by
  cases h : p.queuePlayer <;> simp [play, Plays, h]

theorem pause_itemURL : p.pause.itemURL = p.itemURL := by
  cases h : p.queuePlayer <;> simp [pause, itemURL, h]

theorem not_pause_plays : ¬ p.pause.Plays := by
  cases h : p.queuePlayer <;> simp [pause, Plays, h]

theorem configure_queuePlayer (url : Option URL) (fileExtension data : Option String) :
    (p.configure url fileExtension data).queuePlayer = p.queuePlayer := by
  cases url <;> rfl

theorem configure_itemURL (url : Option URL) (fileExtension data : Option String) :
    (p.configure url fileExtension data).itemURL = p.itemURL := by
  rw [itemURL, configure_queuePlayer, itemURL]

theorem configure_plays_iff (url : Option URL) (fileExtension data : Option String) :
    (p.configure url fileExtension data).Plays ↔ p.Plays := by
  rw [Plays, configure_queuePlayer, Plays]

end Player

theorem Player.present_item (p : Player) (videoURL url : URL) (q : AVQueuePlayer)
    (hq : (p.present videoURL url).queuePlayer = some q) : q.currentItem ≠ none := by
  cases h : p.queuePlayer <;> simp only [present, h, Option.some.injEq] at hq <;> rw [← hq] <;>
    exact Option.some_ne_none _

theorem HomeTableViewCell.runConfigureBlock_eq_some_iff {f : Foundation} {c d : HomeTableViewCell} :
    c.runConfigureBlock f = some d ↔ ∃ block blocks,
      c.playerView.mainQueue = block :: blocks ∧
      d = { c with
        playerView := { c.playerView with mainQueue := blocks }.runConfigureBlock f block } := by
  rw [runConfigureBlock]
  split
  · rename_i h
    simp [h]
  · rename_i block blocks h
    simp only [h, Option.some.injEq, List.cons.injEq]
    constructor
    · rintro rfl
      exact ⟨block, blocks, ⟨rfl, rfl⟩, rfl⟩
    · rintro ⟨_, _, ⟨rfl, rfl⟩, rfl⟩
      rfl

theorem HomeTableViewCell.runCancelBlock_eq_some {c d : HomeTableViewCell}
    (h : c.runCancelBlock = some d) : ∃ blocks, c.playerView.cancelLoadingQueue = blocks + 1 ∧
      d = { c with
        playerView := { c.playerView with cancelLoadingQueue := blocks }.runCancelBlock } := by
  rw [runCancelBlock] at h
  split at h
  · cases h
  · rename_i blocks hblocks
    exact ⟨blocks, hblocks, (Option.some.inj h).symm⟩

namespace HomeTableViewCell

variable {c : HomeTableViewCell}

/-- A cell without a playing player, or with the flag set. -/
theorem KnowsItPlays.congr {d : HomeTableViewCell} (h : c.KnowsItPlays)
    (hplays : d.playerView.Plays ↔ c.playerView.Plays) (hflag : d.isPlaying = c.isPlaying) :
    d.KnowsItPlays := by
  intro hd
  rw [hflag]
  exact h (hplays.mp hd)

/-- After a pause nothing plays. -/
theorem KnowsItPlays.not_plays_pause (h : c.KnowsItPlays) : ¬ c.pause.playerView.Plays := by
  cases hp : c.isPlaying with
  | true =>
    rw [pause_of_isPlaying hp]
    exact c.playerView.not_pause_plays
  | false =>
    rw [pause_of_not_isPlaying hp]
    intro hplays
    rw [h hplays] at hp
    cases hp

theorem KnowsItPlays.pause (h : c.KnowsItPlays) : c.pause.KnowsItPlays :=
  fun hplays => absurd hplays h.not_plays_pause

theorem knowsItPlays_play (c : HomeTableViewCell) : c.play.KnowsItPlays :=
  fun _ => c.play_isPlaying

end HomeTableViewCell

/-- A player has an item, and a cell that plays knows it. -/
structure Equipped (c : HomeTableViewCell) : Prop where
  item : ∀ q, c.playerView.queuePlayer = some q → q.currentItem ≠ none
  knows : c.KnowsItPlays

theorem equipped_awakeFromNib : Equipped .awakeFromNib where
  item := fun _ h => nomatch h
  knows := fun ⟨_, h, _⟩ => nomatch h

/-- Telling the player to play or to pause leaves its item in place. -/
theorem item_of_map {p : Player} (h : ∀ q, p.queuePlayer = some q → q.currentItem ≠ none)
    {isPlaying : Bool} (q : AVQueuePlayer)
    (hq : p.queuePlayer.map (fun q => { q with isPlaying := isPlaying }) = some q) :
    q.currentItem ≠ none := by
  obtain ⟨old, hold, rfl⟩ := Option.map_eq_some_iff.mp hq
  exact h old hold

theorem Equipped.play {c : HomeTableViewCell} (h : Equipped c) : Equipped c.play := by
  refine ⟨?_, c.knowsItPlays_play⟩
  cases hp : c.isPlaying with
  | true =>
    rw [HomeTableViewCell.play_of_isPlaying hp]
    exact h.item
  | false =>
    rw [HomeTableViewCell.play_of_not_isPlaying hp]
    exact item_of_map h.item

theorem Equipped.pause {c : HomeTableViewCell} (h : Equipped c) : Equipped c.pause := by
  refine ⟨?_, h.knows.pause⟩
  cases hp : c.isPlaying with
  | false =>
    rw [HomeTableViewCell.pause_of_not_isPlaying hp]
    exact h.item
  | true =>
    rw [HomeTableViewCell.pause_of_isPlaying hp]
    exact item_of_map h.item

theorem Equipped.next {f : Foundation} {c d : HomeTableViewCell} {e : CellEvent} (hc : Equipped c)
    (h : (cell f).next c e = some d) : Equipped d := by
  cases e with
  | configure post data =>
    obtain rfl := Option.some.inj h
    refine ⟨?_, hc.knows.congr (Player.configure_plays_iff _ _ _ _) rfl⟩
    simp only [HomeTableViewCell.configure, Player.configure_queuePlayer]
    exact hc.item
  | prepareForReuse =>
    obtain rfl := Option.some.inj h
    exact ⟨hc.item, hc.knows⟩
  | play =>
    obtain rfl := Option.some.inj h
    exact hc.play
  | replay =>
    obtain rfl := Option.some.inj h
    exact c.replay_eq_play ▸ hc.play
  | pause =>
    obtain rfl := Option.some.inj h
    exact hc.pause
  | runConfigureBlock =>
    obtain ⟨block, blocks, _, rfl⟩ := HomeTableViewCell.runConfigureBlock_eq_some_iff.mp h
    refine ⟨?_, hc.knows.congr (Player.runConfigureBlock_plays_iff ..) rfl⟩
    rw [Player.runConfigureBlock_eq]
    split
    · exact hc.item
    · exact Player.present_item _ _ _
  | runCancelBlock =>
    obtain ⟨blocks, _, rfl⟩ := HomeTableViewCell.runCancelBlock_eq_some h
    exact ⟨hc.item, hc.knows⟩

theorem Equipped.of_reachable {f : Foundation} {c : HomeTableViewCell}
    (h : (cell f).Reachable c) : Equipped c := by
  obtain ⟨_, hr⟩ := h
  exact hr.invariant equipped_awakeFromNib fun _ _ _ hc hn => hc.next hn

/-- A player was made when it got its item. -/
theorem Equipped.itemURL_isSome {c : HomeTableViewCell} (h : Equipped c) :
    c.playerView.itemURL.isSome = true ↔ c.playerView.queuePlayer ≠ none := by
  cases hq : c.playerView.queuePlayer with
  | none => simp [Player.itemURL, hq]
  | some q =>
    obtain ⟨item, hitem⟩ := Option.ne_none_iff_exists'.mp (h.item q hq)
    simp [Player.itemURL, hq, hitem]

/-- What a step does to the fields that tell whose post the cell plays. -/
structure HistoryStep (f : Foundation) (c : HomeTableViewCell) (e : CellEvent)
    (d : HomeTableViewCell) : Prop where
  mainQueue : d.playerView.mainQueue =
    if e.runsBlock then c.playerView.mainQueue.tail
    else c.playerView.mainQueue ++ e.block.toList
  lastURL : d.lastURL = e.configures c.lastURL
  itemURL : d.playerView.itemURL =
    (e.builds f c.playerView.mainQueue).or c.playerView.itemURL
  originalURL : d.playerView.originalURL =
    e.presents f c.playerView.mainQueue c.playerView.originalURL
  isPlaying : d.isPlaying = e.flags c.isPlaying
  plays : ∀ started, (c.playerView.Plays ↔ started = true) →
    (d.playerView.Plays ↔ e.starts c.isPlaying c.playerView.itemURL started = true)

section Step

variable {f : Foundation} {events : List CellEvent} {c d : HomeTableViewCell} {e : CellEvent}

theorem historyStep_configure (post : Post) (data : Option String) :
    HistoryStep f c (.configure post data) (c.configure post data) where
  mainQueue := by
    rw [HomeTableViewCell.configure, CellEvent.block]
    cases post.videoURL with
    | none => exact (List.append_nil _).symm
    | some url => rfl
  lastURL := rfl
  itemURL := Player.configure_itemURL _ _ _ _
  originalURL := by
    rw [HomeTableViewCell.configure]
    cases post.videoURL <;> rfl
  isPlaying := rfl
  plays := fun _ h => (Player.configure_plays_iff _ _ _ _).trans h

theorem Equipped.historyStep_play (h : Equipped c) : HistoryStep f c .play c.play := by
  cases hp : c.isPlaying with
  | true =>
    rw [HomeTableViewCell.play_of_isPlaying hp]
    exact ⟨(List.append_nil _).symm, rfl, rfl, rfl, hp, fun _ hs => by rw [starts, if_pos hp, hs]⟩
  | false =>
    rw [HomeTableViewCell.play_of_not_isPlaying hp]
    refine ⟨(List.append_nil _).symm, rfl, Player.play_itemURL _, rfl, rfl, fun _ _ => ?_⟩
    rw [Player.play_plays_iff, starts, if_neg (ne_true_of_eq_false hp), h.itemURL_isSome]

theorem Equipped.historyStep_pause (h : Equipped c) : HistoryStep f c .pause c.pause := by
  have hsilent : ∀ started, (c.playerView.Plays ↔ started = true) →
      (c.pause.playerView.Plays ↔ CellEvent.pause.starts c.isPlaying c.playerView.itemURL
        started = true) :=
    fun _ _ => iff_of_false h.knows.not_plays_pause Bool.false_ne_true
  cases hp : c.isPlaying with
  | true =>
    refine ⟨?_, ?_, ?_, ?_, ?_, hsilent⟩ <;> rw [HomeTableViewCell.pause_of_isPlaying hp]
    · exact (List.append_nil _).symm
    · rfl
    · exact Player.pause_itemURL _
    · rfl
    · rfl
  | false =>
    refine ⟨?_, ?_, ?_, ?_, ?_, hsilent⟩ <;> rw [HomeTableViewCell.pause_of_not_isPlaying hp]
    · exact (List.append_nil _).symm
    · rfl
    · rfl
    · rfl
    · exact hp

theorem historyStep_runConfigureBlock (h : c.runConfigureBlock f = some d) :
    HistoryStep f c .runConfigureBlock d := by
  obtain ⟨block, blocks, hqueue, rfl⟩ := HomeTableViewCell.runConfigureBlock_eq_some_iff.mp h
  refine ⟨?_, rfl, ?_, ?_, rfl, fun _ hs => (Player.runConfigureBlock_plays_iff ..).trans hs⟩
  · rw [Player.runConfigureBlock_mainQueue, hqueue]
    rfl
  · rw [builds, hqueue, Player.runConfigureBlock_itemURL _ f block blocks]
    rfl
  · rw [presents, hqueue, Player.runConfigureBlock_originalURL f _ block blocks]

theorem Equipped.historyStep_of_next (hc : Equipped c) (h : (cell f).next c e = some d) :
    HistoryStep f c e d := by
  cases e with
  | configure post data =>
    obtain rfl := Option.some.inj h
    exact historyStep_configure post data
  | prepareForReuse =>
    obtain rfl := Option.some.inj h
    exact ⟨(List.append_nil _).symm, rfl, rfl, rfl, rfl, fun _ hs => hs⟩
  | play =>
    obtain rfl := Option.some.inj h
    exact hc.historyStep_play
  | replay =>
    obtain rfl := Option.some.inj h
    obtain ⟨hq, hl, hi, ho, hp, hs⟩ := hc.historyStep_play (f := f)
    rw [c.replay_eq_play]
    exact ⟨hq, hl, hi, ho, hp, hs⟩
  | pause =>
    obtain rfl := Option.some.inj h
    exact hc.historyStep_pause
  | runConfigureBlock => exact historyStep_runConfigureBlock h
  | runCancelBlock =>
    obtain ⟨blocks, _, rfl⟩ := HomeTableViewCell.runCancelBlock_eq_some h
    exact ⟨(List.append_nil _).symm, rfl, rfl, rfl, rfl, fun _ hs => hs⟩

/-- The fields of the cell, by its history. -/
structure CellHistory (f : Foundation) (events : List CellEvent) (c : HomeTableViewCell) :
    Prop where
  mainQueue : c.playerView.mainQueue = CellEvent.mainQueue events
  lastURL : c.lastURL = configuredURL events
  itemURL : c.playerView.itemURL = builtURL f events
  originalURL : c.playerView.originalURL = presentedURL f events
  isPlaying : c.isPlaying = playing events
  plays : c.playerView.Plays ↔ started f events = true

theorem CellHistory.concat (h : CellHistory f events c) (hs : HistoryStep f c e d) :
    CellHistory f (events ++ [e]) d where
  mainQueue := by rw [hs.mainQueue, mainQueue_concat, h.mainQueue]
  lastURL := by rw [hs.lastURL, configuredURL_concat, h.lastURL]
  itemURL := by rw [hs.itemURL, builtURL_concat, h.mainQueue, h.itemURL]
  originalURL := by rw [hs.originalURL, presentedURL_concat, h.mainQueue, h.originalURL]
  isPlaying := by rw [hs.isPlaying, playing_concat, h.isPlaying]
  plays := by rw [hs.plays _ h.plays, started_concat, h.isPlaying, h.itemURL]

theorem CellHistory.of_run (h : (cell f).Run events c) : CellHistory f events c := by
  induction h with
  | nil => exact ⟨rfl, rfl, rfl, rfl, rfl, iff_of_false (fun ⟨_, hq, _⟩ => nomatch hq)
      Bool.false_ne_true⟩
  | snoc hr hn ih => exact ih.concat ((Equipped.of_reachable ⟨_, hr⟩).historyStep_of_next hn)

end Step

end TiktokClone
