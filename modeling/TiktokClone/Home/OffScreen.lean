import TiktokClone.Home.VisiblePosts

/-!
# Cells off the screen

A row that leaves the screen is paused, but the animation of a tap may still be on its way, and
its completion plays the cell wherever it is by then. A video goes on off the screen exactly
when such a completion finds a player in a cell that waits to be reused.
-/

namespace TiktokClone

open Library

/-- No cell that waits to be reused plays its video. -/
def SilentOffScreen (s : FetchedFeed) : Prop :=
  ∀ c ∈ s.controller.mainTableView.reusable, ¬ c.playerView.Plays

/-- A cell that waits to be reused is started only if it has no player. -/
def StartsOnScreen (s : FetchedFeed) : FetchedFeedEvent → Prop
  | .reusable i .play => ∀ c, s.controller.mainTableView.reusable[i]? = some c →
      c.isPlaying = false → c.playerView.queuePlayer = none
  | _ => True

/-- Every cell of the table knows when it plays. -/
structure Knowing (s : FetchedFeed) : Prop where
  visible : ∀ entry ∈ s.entries, entry.2.KnowsItPlays
  reusable : ∀ c ∈ s.controller.mainTableView.reusable, c.KnowsItPlays

namespace HomeTableViewCell

variable {c : HomeTableViewCell}

/-- What a cell does without being played or paused leaves its player's rate alone. -/
theorem step_plays_iff (f : Foundation) {e : CellStep} (hplay : e ≠ .play) (hpause : e ≠ .pause) :
    ((c.step f e).playerView.Plays ↔ c.playerView.Plays) ∧
      (c.step f e).isPlaying = c.isPlaying := by
  cases e with
  | play => exact absurd rfl hplay
  | pause => exact absurd rfl hpause
  | tap tap =>
    have hframe : (c.tap tap).isPlaying = c.isPlaying ∧
        (c.tap tap).playerView = c.playerView := by
      cases tap with
      | like => exact c.like_frame
      | handleLikeGesture => exact c.likeVideo_frame
    exact ⟨by rw [step, hframe.2], hframe.1⟩
  | runConfigureBlock =>
    rw [step]
    cases hrun : c.runConfigureBlock f with
    | none => exact ⟨Iff.rfl, rfl⟩
    | some d =>
      obtain ⟨block, blocks, _, rfl⟩ := runConfigureBlock_eq_some_iff.mp hrun
      exact ⟨Player.runConfigureBlock_plays_iff .., rfl⟩
  | runCancelBlock =>
    rw [step]
    cases hrun : c.runCancelBlock with
    | none => exact ⟨Iff.rfl, rfl⟩
    | some d =>
      obtain ⟨blocks, _, rfl⟩ := runCancelBlock_eq_some hrun
      exact ⟨Iff.rfl, rfl⟩

theorem KnowsItPlays.step (h : c.KnowsItPlays) (f : Foundation) (e : CellStep) :
    (c.step f e).KnowsItPlays := by
  by_cases hplay : e = .play
  · rw [hplay]
    exact c.knowsItPlays_play
  · by_cases hpause : e = .pause
    · rw [hpause]
      exact h.pause
    · obtain ⟨hplays, hflag⟩ := c.step_plays_iff f hplay hpause
      exact h.congr hplays hflag

end HomeTableViewCell

section Step

variable {f : Foundation} {s t : FetchedFeed} {e : FetchedFeedEvent}

theorem Knowing.next (h : Knowing s) (hn : (fetchedFeed f).next s e = some t) : Knowing t := by
  have hstep := step_of_next hn
  refine ⟨fun entry hm => ?_, fun c hc => ?_⟩
  · cases hstep.shown entry hm with
    | kept hold => exact h.visible entry hold
    | played old _ hcell => exact hcell ▸ old.knowsItPlays_play
    | stepped old hold e hcell => exact hcell ▸ (h.visible _ hold).step f e
    | laidOut old post cached hold _ hcell =>
      rw [hcell]
      refine HomeTableViewCell.KnowsItPlays.pause ?_
      rcases hold with rfl | ⟨waiting, hwaiting, rfl⟩
      · -- A new cell has no player, and `configure` makes none.
        rintro ⟨q, hq, _⟩
        rw [HomeTableViewCell.configure, Player.configure_queuePlayer] at hq
        cases hq
      · exact (h.reusable waiting hwaiting).congr (Player.configure_plays_iff _ _ _ _) rfl
  · cases hstep.waiting c hc with
    | kept hold => exact h.reusable c hold
    | left entry hentry hcell => exact hcell ▸ (h.visible entry hentry).pause
    | stepped i old e _ hold hcell =>
      exact hcell ▸ (h.reusable old (List.mem_of_getElem? hold)).step f e

theorem knowing_of_reachable (h : (fetchedFeed f).Reachable s) : Knowing s := by
  obtain ⟨_, hrun⟩ := h
  exact hrun.invariant ⟨fun _ hm => absurd hm List.not_mem_nil,
    fun _ hm => absurd hm List.not_mem_nil⟩ fun _ _ _ hs hn => hs.next hn

/-- A silent cell that is played stays silent exactly if it has no player to start. -/
theorem HomeTableViewCell.silent_play_iff {c : HomeTableViewCell} (h : ¬ c.playerView.Plays) :
    ¬ c.play.playerView.Plays ↔ (c.isPlaying = false → c.playerView.queuePlayer = none) := by
  cases hflag : c.isPlaying with
  | true =>
    rw [play_of_isPlaying hflag]
    exact iff_of_true h fun hfalse => by cases hfalse
  | false =>
    rw [play_of_not_isPlaying hflag]
    simp only [Player.play_plays_iff, not_not, forall_const]

/-- A step leaves a silent feed silent, unless it starts a cell that has a player. -/
theorem SilentOffScreen.next_iff (hs : SilentOffScreen s) (hknowing : Knowing s)
    (hn : (fetchedFeed f).next s e = some t) : SilentOffScreen t ↔ StartsOnScreen s e := by
  constructor
  · intro ht
    unfold StartsOnScreen
    split
    · rename_i i
      intro old hold
      obtain rfl := Option.some.inj hn
      refine (HomeTableViewCell.silent_play_iff (hs old (List.mem_of_getElem? hold))).mp
        (ht old.play (List.mem_iff_getElem?.mpr ⟨i, ?_⟩))
      rw [List.getElem?_modify_eq, hold]
      rfl
    · trivial
  · intro hstarts c hc
    cases (step_of_next hn).waiting c hc with
    | kept hold => exact hs c hold
    | left entry hentry hcell => exact hcell ▸ (hknowing.visible entry hentry).not_plays_pause
    | stepped i old e he hold hcell =>
      subst he hcell
      have hsilent := hs old (List.mem_of_getElem? hold)
      cases e with
      | play => exact (HomeTableViewCell.silent_play_iff hsilent).mpr (hstarts old hold)
      | pause => exact (hknowing.reusable old (List.mem_of_getElem? hold)).not_plays_pause
      | tap | runConfigureBlock | runCancelBlock =>
        rw [(old.step_plays_iff f (by simp) (by simp)).1]
        exact hsilent

/-- No sound from nowhere. In every run of the feed, with whatever is fetched, scrolled, reused
and tapped, all cells off the screen are silent in every state if and only if no completion of
a tap's animation starts a cell off the screen that has a player. -/
theorem silent_off_screen_iff {events : List FetchedFeedEvent}
    (h : (fetchedFeed f).Run events s) :
    (fetchedFeed f).AllStates SilentOffScreen events ↔
      (fetchedFeed f).AllSteps StartsOnScreen events := by
  have hstart : SilentOffScreen (fetchedFeed f).start := fun _ hc => absurd hc List.not_mem_nil
  exact h.allStates_iff_allSteps hstart fun _ _ _ hr hs hn =>
    hs.next_iff (knowing_of_reachable hr) hn

end Step

/-- A cell leaves the screen before the completion of a tap starts it. -/
def lateCompletion : List FetchedFeedEvent :=
  firstRowShown ++ secondPageShown ++ [.hideRow 0, .reusable 0 .play]

theorem silent_off_screen_iff_lateCompletion : ∃ s : FetchedFeed,
    s.controller.mainTableView.reusable.any (fun c =>
        c.playerView.queuePlayer.any AVQueuePlayer.isPlaying) = true ∧
      ((fetchedFeed .plain).AllStates SilentOffScreen lateCompletion ↔
        (fetchedFeed .plain).AllSteps StartsOnScreen lateCompletion) := by
  obtain ⟨s, hs, hplays⟩ : ∃ s, (fetchedFeed .plain).Run lateCompletion s ∧
      s.controller.mainTableView.reusable.any (fun c =>
        c.playerView.queuePlayer.any AVQueuePlayer.isPlaying) = true :=
    ⟨_, Machine.run_iff_exec.mpr rfl, rfl⟩
  exact ⟨s, hplays, silent_off_screen_iff hs⟩

end TiktokClone
