import TiktokClone.Home.Feed

/-!
# The feed at rest

The finger drags the table, lifts, and catches it again while it decelerates; rows
enter and leave the screen in between, until the table rests on one row. The current
row is the last one that appeared and only the finger's lift starts it, so the order of
appearances and lifts decides whether the row that stays is the one that plays.
-/

namespace TiktokClone

open Library

inductive ScrollPhase
  | resting
  | dragging
  | decelerating
  deriving DecidableEq, Repr

/-- The controller together with what its table is doing. -/
structure ScrollingFeed extends HomeViewController where
  phase : ScrollPhase

inductive DragEvent
  | beginDragging
  /-- A row enters the screen; `reuse` is the cell taken for it and `cached` what the cache
  answers for its post. -/
  | showRow (row : Nat) (reuse : Option Nat) (cached : Option String)
  | hideRow (row : Nat)
  | endDragging (willDecelerate : Bool)
  | endDecelerating

/-- The table comes to rest with one row on the screen only. -/
def ScrollingFeed.rest (s : ScrollingFeed) : Option ScrollingFeed :=
  match s.mainTableView.visibleRows with
  | .one _ _ => some { s with phase := .resting }
  | .none | .two _ _ _ => none

/-- The drags of the feed from a given state of its controller at rest on. -/
def drags (start : HomeViewController) : Machine ScrollingFeed DragEvent where
  start := ⟨start, .resting⟩
  next s
    | .beginDragging => if s.phase = .dragging then none else some { s with phase := .dragging }
    | .showRow row reuse cached =>
      if s.phase = .resting then none
      else (s.showRow row reuse cached).map fun c => ⟨c, s.phase⟩
    | .hideRow row =>
      if s.phase = .resting then none else (s.hideRow row).map fun c => ⟨c, s.phase⟩
    | .endDragging willDecelerate =>
      if s.phase = .dragging then
        if willDecelerate then some ⟨s.scrollViewDidEndDragging, .decelerating⟩
        else ScrollingFeed.rest ⟨s.scrollViewDidEndDragging, .dragging⟩
      else none
    | .endDecelerating => if s.phase = .decelerating then s.rest else none

/-- The table rests on one row, shown in a cell. -/
def ScrollingFeed.RestsOn (s : ScrollingFeed) (row : Nat) (cell : HomeTableViewCell) : Prop :=
  s.phase = .resting ∧ s.mainTableView.visibleRows = .one row cell

/-- Where the table rests, it rests on the current row and that row plays. -/
def PlaysAtRest (s : ScrollingFeed) : Prop :=
  ∀ row cell, s.RestsOn row cell → s.currentIndex = row ∧ cell.isPlaying = true

/-- The row that appeared last, which is `row` when none has. -/
def lastShown (row : Nat) (events : List DragEvent) : Nat :=
  events.foldl (fun row e => match e with
    | .showRow shown _ _ => shown
    | _ => row) row

/-- The finger has lifted since the last row appeared, or none has appeared. -/
def liftedSinceShown (events : List DragEvent) : Bool :=
  events.foldl (fun lifted e => match e with
    | .showRow _ _ _ => false
    | .endDragging _ => true
    | _ => lifted) true

namespace VisibleRows

variable {v w : VisibleRows} {i : Nat} {cell new : HomeTableViewCell}

/-- The cell of a row that has just entered the screen is the one put there. -/
theorem eq_of_mem_insert (h : v.insert i new = some w) (hm : (i, cell) ∈ w.entries) :
    cell = new := by
  cases v with
  | none =>
    obtain ⟨_, rfl⟩ := Option.ite_some_none_eq_some.mp h
    exact (Prod.mk.inj (List.mem_singleton.mp hm)).2
  | one row old =>
    rw [insert] at h
    split at h
    · rename_i hi
      obtain rfl := Option.some.inj h
      simp only [entries, List.mem_cons, Prod.mk.injEq, List.not_mem_nil, or_false] at hm
      rcases hm with ⟨hrow, _⟩ | ⟨_, hnew⟩
      · omega
      · exact hnew
    · obtain ⟨hi, rfl⟩ := Option.ite_some_none_eq_some.mp h
      simp only [entries, List.mem_cons, Prod.mk.injEq, List.not_mem_nil, or_false] at hm
      rcases hm with ⟨_, hnew⟩ | ⟨hrow, _⟩
      · exact hnew
      · omega
  | two row upper lower => cases h

/-- What stays on the screen was there before. -/
theorem entries_remove (h : v.remove i = some (cell, w)) : w.entries ⊆ v.entries := by
  cases v with
  | none => cases h
  | one row old => cases h
  | two row upper lower =>
    rw [remove] at h
    split at h
    · obtain ⟨-, rfl⟩ := Prod.mk.inj (Option.some.inj h)
      exact List.subset_cons_self _ _
    · obtain ⟨_, hw⟩ := Option.ite_none_right_eq_some.mp h
      obtain ⟨-, rfl⟩ := Prod.mk.inj (Option.some.inj hw)
      exact List.cons_subset_cons _ (List.nil_subset _)

/-- A method applied to a row has been applied to whatever cell that row shows. -/
theorem exists_of_mem_modify {method : HomeTableViewCell → HomeTableViewCell}
    (hm : (i, cell) ∈ (v.modify i method).entries) : ∃ old, cell = method old := by
  cases v with
  | none => cases hm
  | one row old =>
    obtain ⟨rfl, hcell⟩ := Prod.mk.inj (List.mem_singleton.mp hm)
    exact ⟨old, hcell.trans (if_pos rfl)⟩
  | two row upper lower =>
    simp only [modify, entries, List.mem_cons, Prod.mk.injEq, List.not_mem_nil, or_false] at hm
    rcases hm with ⟨hi, hcell⟩ | ⟨hi, hcell⟩
    · exact ⟨upper, hcell.trans (if_pos hi)⟩
    · exact ⟨lower, hcell.trans (if_pos hi)⟩

end VisibleRows

/-- The current row is the last one that appeared; while it is on the screen it plays as soon
as the finger has lifted. -/
structure Followed (row : Nat) (events : List DragEvent) (s : ScrollingFeed) : Prop where
  current : s.currentIndex = lastShown row events
  plays : ∀ cell, (s.currentIndex, cell) ∈ s.mainTableView.visibleRows.entries →
    cell.isPlaying = liftedSinceShown events

@[simp] theorem lastShown_concat (row : Nat) (events : List DragEvent) (e : DragEvent) :
    lastShown row (events ++ [e]) = match e with
      | .showRow shown _ _ => shown
      | _ => lastShown row events := by
  simp only [lastShown, List.foldl_append, List.foldl_cons, List.foldl_nil]

@[simp] theorem liftedSinceShown_concat (events : List DragEvent) (e : DragEvent) :
    liftedSinceShown (events ++ [e]) = match e with
      | .showRow _ _ _ => false
      | .endDragging _ => true
      | _ => liftedSinceShown events := by
  simp only [liftedSinceShown, List.foldl_append, List.foldl_cons, List.foldl_nil]

/-- Coming to rest changes the phase only. -/
theorem ScrollingFeed.rest_eq_some {s t : ScrollingFeed} (h : s.rest = some t) :
    t = { s with phase := .resting } := by
  rw [rest] at h
  split at h
  · exact (Option.some.inj h).symm
  · cases h
  · cases h

theorem Followed.next {start : HomeViewController} {row : Nat} {events : List DragEvent}
    {s t : ScrollingFeed} {e : DragEvent} (hs : Followed row events s)
    (hn : (drags start).next s e = some t) : Followed row (events ++ [e]) t := by
  cases e with
  | beginDragging =>
    obtain ⟨_, ht⟩ := Option.ite_none_left_eq_some.mp hn
    obtain rfl := Option.some.inj ht
    exact ⟨by simpa using hs.current, by simpa using hs.plays⟩
  | showRow shown reuse cached =>
    obtain ⟨_, ht⟩ := Option.ite_none_left_eq_some.mp hn
    obtain ⟨c, hc, rfl⟩ := Option.map_eq_some_iff.mp ht
    obtain ⟨new, hnew, hinsert, _, hcurrent⟩ := HomeViewController.showRow_eq_some hc
    refine ⟨by simpa using hcurrent, fun cell hm => ?_⟩
    have hm' : (shown, cell) ∈ c.mainTableView.visibleRows.entries := hcurrent ▸ hm
    rw [VisibleRows.eq_of_mem_insert hinsert hm', liftedSinceShown_concat, hnew]
  | hideRow hidden =>
    obtain ⟨_, ht⟩ := Option.ite_none_left_eq_some.mp hn
    obtain ⟨c, hc, rfl⟩ := Option.map_eq_some_iff.mp ht
    obtain ⟨old, hremove, _, hcurrent⟩ := HomeViewController.hideRow_eq_some hc
    refine ⟨by simpa using hcurrent.trans hs.current, fun cell hm => ?_⟩
    have hm' : (s.currentIndex, cell) ∈ s.mainTableView.visibleRows.entries :=
      VisibleRows.entries_remove hremove (hcurrent ▸ hm)
    rw [liftedSinceShown_concat, hs.plays cell hm']
  | endDragging willDecelerate =>
    obtain ⟨_, ht⟩ := Option.ite_none_right_eq_some.mp hn
    have hlift : t.toHomeViewController = s.scrollViewDidEndDragging := by
      split at ht
      · rw [← Option.some.inj ht]
      · rw [ScrollingFeed.rest_eq_some ht]
    refine ⟨?_, fun cell hm => ?_⟩
    · rw [hlift, lastShown_concat]
      exact hs.current
    · rw [hlift] at hm
      obtain ⟨old, rfl⟩ := VisibleRows.exists_of_mem_modify hm
      rw [liftedSinceShown_concat, old.replay_isPlaying]
  | endDecelerating =>
    obtain ⟨_, ht⟩ := Option.ite_none_right_eq_some.mp hn
    obtain rfl := ScrollingFeed.rest_eq_some ht
    exact ⟨by simpa using hs.current, by simpa using hs.plays⟩

section Run

variable {start : HomeViewController} {cell : HomeTableViewCell} {events : List DragEvent}
  {s : ScrollingFeed}

theorem followed_of_run (hrow : start.mainTableView.visibleRows = .one start.currentIndex cell)
    (hplays : cell.isPlaying = true) (h : (drags start).Run events s) :
    Followed start.currentIndex events s := by
  induction h with
  | nil =>
    refine ⟨rfl, fun shown hm => ?_⟩
    have hm' : (start.currentIndex, shown) ∈ start.mainTableView.visibleRows.entries := hm
    rw [hrow] at hm'
    obtain ⟨-, rfl⟩ := Prod.mk.inj (List.mem_singleton.mp hm')
    exact hplays
  | snoc _ hn ih => exact ih.next hn

/-- The row that the feed rests on plays exactly when it appeared last and was started. -/
theorem Followed.restsOn_iff {row : Nat} (h : Followed start.currentIndex events s)
    (hrest : s.RestsOn row cell) : s.currentIndex = row ∧ cell.isPlaying = true ↔
      lastShown start.currentIndex events = row ∧ liftedSinceShown events = true := by
  rw [← h.current]
  refine and_congr_right fun hcurrent => ?_
  have hm : (s.currentIndex, cell) ∈ s.mainTableView.visibleRows.entries := by
    rw [hrest.2, hcurrent]
    exact List.mem_singleton.mpr rfl
  rw [h.plays cell hm]

end Run

/-- A run of drags that starts at rest on the current row, playing: wherever the feed comes to
rest it rests on the current row and that row plays, if and only if wherever it comes to rest
it is on the row that appeared last and the finger has lifted since then. -/
theorem drags_play_at_rest_iff (start : HomeViewController) (cell : HomeTableViewCell)
    (hrow : start.mainTableView.visibleRows = .one start.currentIndex cell)
    (hplays : cell.isPlaying = true) (events : List DragEvent) :
    (drags start).AllStates PlaysAtRest events ↔
      ∀ before, before <+: events → ∀ s, (drags start).Run before s →
        ∀ row shown, s.RestsOn row shown →
          lastShown start.currentIndex before = row ∧ liftedSinceShown before = true := by
  refine forall₄_congr fun before _ s hs => ?_
  refine forall₃_congr fun row shown hrest => ?_
  exact (followed_of_run hrow hplays hs).restsOn_iff hrest

/-- The controller of two posts at rest on the first, which plays. -/
def HomeViewController.firstRowPlays : HomeViewController :=
  { HomeViewController.loaded (emptyPosts 2) with
    mainTableView := ⟨.one 0 HomeTableViewCell.awakeFromNib.play, []⟩ }

/-- A drag pulls the second row in a little and lets it slide out again. -/
def abandonedDrag : List DragEvent :=
  [.beginDragging, .showRow 1 none none, .endDragging true, .hideRow 1, .endDecelerating]

theorem drags_play_at_rest_iff_abandonedDrag :
    (drags .firstRowPlays).AllStates PlaysAtRest abandonedDrag ↔
      ∀ before, before <+: abandonedDrag → ∀ s, (drags .firstRowPlays).Run before s →
        ∀ row shown, s.RestsOn row shown →
          lastShown 0 before = row ∧ liftedSinceShown before = true :=
  drags_play_at_rest_iff .firstRowPlays _ rfl rfl abandonedDrag

/-- After an abandoned drag the first row plays, but the current row is the second; and a row
that appears after the finger has lifted is not started. -/
theorem abandoned_drag_leaves_current_row :
    (∃ s cell, (drags .firstRowPlays).Run abandonedDrag s ∧ s.RestsOn 0 cell ∧
      s.currentIndex = 1 ∧ ¬ PlaysAtRest s) ∧
    ∃ s cell, (drags .firstRowPlays).Run
        [.beginDragging, .endDragging true, .showRow 1 none none, .hideRow 0, .endDecelerating] s ∧
      s.RestsOn 1 cell ∧ cell.isPlaying = false ∧ ¬ PlaysAtRest s := by
  refine ⟨⟨_, _, Machine.run_iff_exec.mpr rfl, ⟨rfl, rfl⟩, rfl, fun h => ?_⟩,
    _, _, Machine.run_iff_exec.mpr rfl, ⟨rfl, rfl⟩, rfl, fun h => ?_⟩
  · exact absurd (h 0 _ ⟨rfl, rfl⟩).1 (by decide)
  · exact absurd (h 1 _ ⟨rfl, rfl⟩).2 (by decide)

end TiktokClone
