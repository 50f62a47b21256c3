import Mathlib.Data.List.Count
import TiktokClone.Library.Machine
import TiktokClone.Home.HomeViewController

/-!
# How many cells of the feed play

Rows enter and leave the screen in any order, the finger lifts at any time, and the
view appears and disappears. The finger's lift starts the row that appeared last and
stops no other, so the feed keeps to one playing cell exactly as long as the cells that
share the screen with the one being started are paused.
-/

namespace TiktokClone

open Library

/-- What the table and the scrolling call on the controller. -/
inductive FeedEvent
  /-- A row enters the screen; `reuse` is the cell taken for it and `cached` what the cache
  answers for its post. -/
  | showRow (row : Nat) (reuse : Option Nat) (cached : Option String)
  | hideRow (row : Nat)
  | scrollViewDidEndDragging
  | viewWillAppear
  | viewWillDisappear

/-- The feed from a given state of its controller on. -/
def feed (start : HomeViewController) : Machine HomeViewController FeedEvent where
  start := start
  next c
    | .showRow row reuse cached => c.showRow row reuse cached
    | .hideRow row => c.hideRow row
    | .scrollViewDidEndDragging => some c.scrollViewDidEndDragging
    | .viewWillAppear => some c.viewWillAppear
    | .viewWillDisappear => some c.viewWillDisappear

/-- At most one cell of the table plays. -/
def PlaysAtMostOne (c : HomeViewController) : Prop :=
  c.mainTableView.cells.countP (·.isPlaying) ≤ 1

instance (c : HomeViewController) : Decidable (PlaysAtMostOne c) :=
  inferInstanceAs (Decidable (_ ≤ 1))

/-- A cell is started only while the others on the screen are paused: at the finger's lift the
cell of the current row, if that row is on the screen, and when the view appears the first. -/
def StartsAlone (c : HomeViewController) : FeedEvent → Prop
  | .scrollViewDidEndDragging =>
    c.currentIndex ∈ c.mainTableView.visibleRows.entries.map Prod.fst →
      ∀ entry ∈ c.mainTableView.visibleRows.entries, entry.1 ≠ c.currentIndex →
        entry.2.isPlaying = false
  | .viewWillAppear =>
    ∀ entry ∈ c.mainTableView.visibleRows.entries.tail, entry.2.isPlaying = false
  | _ => True

namespace VisibleRows

/-- How many cells on the screen play. -/
def playing (v : VisibleRows) : Nat := v.entries.countP (·.2.isPlaying)

theorem playing_insert {v w : VisibleRows} {i : Nat} {cell : HomeTableViewCell}
    (hcell : cell.isPlaying = false) (h : v.insert i cell = some w) : w.playing = v.playing := by
  cases v with
  | none =>
    obtain ⟨_, rfl⟩ := Option.ite_some_none_eq_some.mp h
    simp [playing, entries, hcell]
  | one row old =>
    rw [insert] at h
    split at h
    · obtain rfl := Option.some.inj h
      simp [playing, entries, List.countP_cons, hcell]
    · obtain ⟨_, rfl⟩ := Option.ite_some_none_eq_some.mp h
      simp [playing, entries, List.countP_cons, hcell]
  | two row upper lower => cases h

theorem playing_remove {v w : VisibleRows} {i : Nat} {cell : HomeTableViewCell}
    (h : v.remove i = some (cell, w)) : w.playing ≤ v.playing := by
  cases v with
  | none => cases h
  | one row old => cases h
  | two row upper lower =>
    have hlower := Nat.zero_le (if lower.isPlaying = true then 1 else 0)
    have hupper := Nat.zero_le (if upper.isPlaying = true then 1 else 0)
    rw [remove] at h
    split at h
    · obtain ⟨rfl, rfl⟩ := Prod.mk.inj (Option.some.inj h)
      simp only [playing, entries, List.countP_cons, List.countP_nil]
      omega
    · obtain ⟨_, hw⟩ := Option.ite_none_right_eq_some.mp h
      obtain ⟨rfl, rfl⟩ := Prod.mk.inj (Option.some.inj hw)
      simp only [playing, entries, List.countP_cons, List.countP_nil]
      omega

theorem playing_modifyFirst_pause (v : VisibleRows) :
    (v.modifyFirst .pause).playing ≤ v.playing := by
  cases v with
  | none => exact Nat.le_refl _
  | one row cell => simp [playing, entries, modifyFirst]
  | two row upper lower => simp [playing, entries, modifyFirst, List.countP_cons]

/-- Starting the first cell leaves one playing cell when the others are paused. -/
theorem playing_modifyFirst_play (v : VisibleRows) :
    (v.modifyFirst .play).playing ≤ 1 ↔
      ∀ entry ∈ v.entries.tail, entry.2.isPlaying = false := by
  cases v with
  | none => simp [playing, entries, modifyFirst]
  | one row cell => simp [playing, entries, modifyFirst]
  | two row upper lower =>
    cases hlower : lower.isPlaying <;>
      simp [playing, entries, modifyFirst, hlower]

/-- Starting the cell of a row does the same to the other row, if the row is on the screen. -/
theorem playing_modify_replay {v : VisibleRows} (hone : v.playing ≤ 1) (i : Nat) :
    (v.modify i .replay).playing ≤ 1 ↔
      (i ∈ v.entries.map Prod.fst → ∀ entry ∈ v.entries, entry.1 ≠ i →
        entry.2.isPlaying = false) := by
  cases v with
  | none => simp [playing, entries, modify]
  | one row cell =>
    refine iff_of_true ?_ ?_
    · exact List.countP_le_length
    · intro hi entry hentry hne
      obtain rfl := List.mem_singleton.mp hentry
      exact absurd (List.mem_singleton.mp hi).symm hne
  | two row upper lower =>
    by_cases hupper : i = row
    · subst hupper
      cases hlower : lower.isPlaying <;>
        simp [playing, entries, modify, hlower]
    · by_cases hlower : i = row + 1
      · subst hlower
        cases hplays : upper.isPlaying <;>
          simp [playing, entries, modify, hplays]
      · have hsame : (two row upper lower).modify i .replay = two row upper lower := by
          rw [modify, if_neg hupper, if_neg hlower]
        rw [hsame]
        refine iff_of_true hone fun hi => ?_
        simp [entries, hupper, hlower] at hi

end VisibleRows

/-- The cells waiting to be reused are paused. -/
def ReusablePaused (c : HomeViewController) : Prop :=
  ∀ cell ∈ c.mainTableView.reusable, cell.isPlaying = false

theorem ReusablePaused.next {start c d : HomeViewController} {e : FeedEvent}
    (h : ReusablePaused c) (hn : (feed start).next c e = some d) : ReusablePaused d := by
  cases e with
  | showRow row reuse cached =>
    obtain ⟨_, _, _, hreusable, _⟩ := HomeViewController.showRow_eq_some hn
    exact fun cell hcell => h cell (hreusable hcell)
  | hideRow row =>
    obtain ⟨old, _, hreusable, _⟩ := HomeViewController.hideRow_eq_some hn
    intro cell hcell
    rw [hreusable, List.mem_append, List.mem_singleton] at hcell
    rcases hcell with hcell | rfl
    · exact h cell hcell
    · exact old.pause_isPlaying
  | scrollViewDidEndDragging | viewWillAppear | viewWillDisappear =>
    obtain rfl := Option.some.inj hn
    exact h

theorem ReusablePaused.of_reachable {start c : HomeViewController} (h : ReusablePaused start)
    (hr : (feed start).Reachable c) : ReusablePaused c := by
  obtain ⟨_, hrun⟩ := hr
  exact hrun.invariant h fun _ _ _ hc hn => hc.next hn

/-- Only the cells on the screen count. -/
theorem ReusablePaused.playsAtMostOne_iff {c : HomeViewController} (h : ReusablePaused c) :
    PlaysAtMostOne c ↔ c.mainTableView.visibleRows.playing ≤ 1 := by
  have hzero : c.mainTableView.reusable.countP (·.isPlaying) = 0 := by
    rw [List.countP_eq_zero]
    exact fun cell hcell => Bool.eq_false_iff.mp (h cell hcell)
  rw [PlaysAtMostOne, UITableView.cells, List.countP_append, hzero, List.countP_map]
  rfl

/-- A step leads from one playing cell to more exactly when it starts a cell beside it. -/
theorem playsAtMostOne_next {start c d : HomeViewController} {e : FeedEvent}
    (hpaused : ReusablePaused c) (hone : PlaysAtMostOne c)
    (hn : (feed start).next c e = some d) : PlaysAtMostOne d ↔ StartsAlone c e := by
  have hvisible := hpaused.playsAtMostOne_iff.mp hone
  rw [(hpaused.next hn).playsAtMostOne_iff]
  cases e with
  | showRow row reuse cached =>
    obtain ⟨cell, hcell, hinsert, _⟩ := HomeViewController.showRow_eq_some hn
    exact iff_of_true (VisibleRows.playing_insert hcell hinsert ▸ hvisible) trivial
  | hideRow row =>
    obtain ⟨cell, hremove, _⟩ := HomeViewController.hideRow_eq_some hn
    exact iff_of_true ((VisibleRows.playing_remove hremove).trans hvisible) trivial
  | scrollViewDidEndDragging =>
    obtain rfl := Option.some.inj hn
    exact VisibleRows.playing_modify_replay hvisible c.currentIndex
  | viewWillAppear =>
    obtain rfl := Option.some.inj hn
    exact VisibleRows.playing_modifyFirst_play c.mainTableView.visibleRows
  | viewWillDisappear =>
    obtain rfl := Option.some.inj hn
    exact iff_of_true ((VisibleRows.playing_modifyFirst_pause _).trans hvisible) trivial

/-- At most one cell plays in every state of a run that starts with none playing, if and only
if every step starts a cell only while the others on the screen are paused. -/
theorem feed_plays_at_most_one_iff (start : HomeViewController)
    (hpaused : ∀ cell ∈ start.mainTableView.cells, cell.isPlaying = false)
    (events : List FeedEvent) (c : HomeViewController) (h : (feed start).Run events c) :
    (feed start).AllStates PlaysAtMostOne events ↔ (feed start).AllSteps StartsAlone events := by
  have hreusable : ReusablePaused start :=
    fun cell hcell => hpaused cell (List.mem_append_right _ hcell)
  have hstart : PlaysAtMostOne (feed start).start := by
    have hzero : start.mainTableView.cells.countP (·.isPlaying) = 0 := by
      rw [List.countP_eq_zero]
      exact fun cell hcell => Bool.eq_false_iff.mp (hpaused cell hcell)
    exact hzero.trans_le (Nat.zero_le 1)
  refine h.allStates_iff_allSteps hstart fun s e t hs hone hn => ?_
  exact playsAtMostOne_next (hreusable.of_reachable hs) hone hn

/-- The controller of posts that its table has not laid out yet. -/
def HomeViewController.loaded (data : List Post) : HomeViewController where
  mainTableView := ⟨.none, []⟩
  currentIndex := 0
  oldAndNewIndices := (0, 0)
  data := data

/-- Posts as decoded from empty documents. -/
def emptyPosts (n : Nat) : List Post := List.replicate n (.ofDictionary .plain ∅)

/-- The first row plays, and the second one slides in. -/
def slideIn : List FeedEvent := [.showRow 0 none none, .viewWillAppear, .showRow 1 none none]

theorem feed_plays_at_most_one_iff_slideIn :
    (feed (.loaded (emptyPosts 2))).AllStates PlaysAtMostOne slideIn ↔
      (feed (.loaded (emptyPosts 2))).AllSteps StartsAlone slideIn :=
  feed_plays_at_most_one_iff _ (by simp [HomeViewController.loaded, UITableView.cells,
    VisibleRows.entries]) slideIn _ (Machine.run_iff_exec.mpr rfl)

/-- When the finger lifts while both rows are on the screen, both play. -/
theorem feed_plays_both_rows : ∃ c,
    (feed (.loaded (emptyPosts 2))).Run (slideIn ++ [.scrollViewDidEndDragging]) c ∧
      ¬ PlaysAtMostOne c :=
  ⟨_, Machine.run_iff_exec.mpr rfl, by decide⟩

end TiktokClone
