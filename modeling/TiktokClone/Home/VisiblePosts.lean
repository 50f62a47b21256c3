import TiktokClone.Home.Accumulation
import TiktokClone.Home.Display
import TiktokClone.Home.FeedAtRest

/-!
# The posts on the screen

New data reach the controller while rows are on the screen; the table learns of them at its
next layout and takes all its cells anew. In between it shows the cells of the old data, and
cells are reused for other rows all the time. Since the data only grow, each cell on the screen
is always configured for the post of its row.
-/

namespace TiktokClone

open Library

/-- What a cell does between the calls of its table; the completions of a tap's animations play
and pause it. -/
inductive CellStep
  | play
  | pause
  | tap (tap : LikeTap)
  | runConfigureBlock
  | runCancelBlock

/-- A step that the cell cannot make changes nothing. -/
def HomeTableViewCell.step (f : Foundation) (c : HomeTableViewCell) :
    CellStep → HomeTableViewCell
  | .play => c.play
  | .pause => c.pause
  | .tap tap => c.tap tap
  | .runConfigureBlock => (c.runConfigureBlock f).getD c
  | .runCancelBlock => c.runCancelBlock.getD c

/-- A row enters the screen; a table without cells starts at any row. -/
def VisibleRows.enter (i : Nat) (new : HomeTableViewCell) : VisibleRows → Option VisibleRows
  | none => some (one i new)
  | one row cell => (one row cell).insert i new
  | two row upper lower => (two row upper lower).insert i new

namespace HomeViewController

/-- The layout after `reloadData` takes every cell off the screen. -/
def takeOff (c : HomeViewController) : HomeViewController :=
  { c with mainTableView := ⟨.none, c.mainTableView.reusable ++
      c.mainTableView.visibleRows.entries.map fun entry => didEndDisplaying entry.2⟩ }

/-- The table fetches the cell of a row, announces it and lays it out. -/
def layOutRow (c : HomeViewController) (row : Nat) (reuse : Option Nat)
    (cached : Option String) : Option HomeViewController :=
  match c.cellForRowAt row reuse cached with
  | none => none
  | some (cell, c) =>
    let (cell, c) := c.willDisplay cell row
    (c.mainTableView.visibleRows.enter row cell).map fun rows =>
      { c with mainTableView := { c.mainTableView with visibleRows := rows } }

end HomeViewController

/-- The feed with its table and with what fetches its posts. -/
structure FetchedFeed where
  fetching : Fetching
  controller : HomeViewController
  /-- What `tableView(_:numberOfRowsInSection:)` has answered last. -/
  numberOfRows : Nat
  /-- `reloadData` has been called since. -/
  needsReload : Bool

inductive FetchedFeedEvent
  | fetch (e : FetchEvent)
  /-- The table's layout after `reloadData`. -/
  | reload
  /-- A row enters the screen; `reuse` is the cell taken for it and `cached` what the cache
  answers for its post. -/
  | showRow (row : Nat) (reuse : Option Nat) (cached : Option String)
  | hideRow (row : Nat)
  | scrollViewDidEndDragging
  | viewWillAppear
  | viewWillDisappear
  /-- The cell of a row makes a step. -/
  | visible (row : Nat) (e : CellStep)
  /-- The cell at a position of those that wait to be reused makes a step. -/
  | reusable (i : Nat) (e : CellStep)

/-- The feed from the initializers on. A table that has to reload shows and hides no row. -/
def fetchedFeed (f : Foundation) : Machine FetchedFeed FetchedFeedEvent where
  start := ⟨(fetching f).start, ⟨⟨.none, []⟩, 0, (0, 0), []⟩, 0, false⟩
  next s
    | .fetch e => ((fetching f).next s.fetching e).map fun fetched => { s with
        fetching := fetched
        controller := { s.controller with data := fetched.controller.data }
        needsReload := s.needsReload ||
          decide (s.fetching.controller.reloads < fetched.controller.reloads) }
    | .reload =>
      if s.needsReload then some { s with
        controller := s.controller.takeOff
        numberOfRows := s.controller.data.length
        needsReload := false }
      else none
    | .showRow row reuse cached =>
      if s.needsReload = false ∧ row < s.numberOfRows then
        (s.controller.layOutRow row reuse cached).map fun c => { s with controller := c }
      else none
    | .hideRow row =>
      if s.needsReload = false then
        (s.controller.hideRow row).map fun c => { s with controller := c }
      else none
    | .scrollViewDidEndDragging =>
      some { s with controller := s.controller.scrollViewDidEndDragging }
    | .viewWillAppear => some { s with controller := s.controller.viewWillAppear }
    | .viewWillDisappear => some { s with controller := s.controller.viewWillDisappear }
    | .visible row e => some { s with controller := { s.controller with
        mainTableView := { s.controller.mainTableView with
          visibleRows := s.controller.mainTableView.visibleRows.modify row (·.step f e) } } }
    | .reusable i e => some { s with controller := { s.controller with
        mainTableView := { s.controller.mainTableView with
          reusable := s.controller.mainTableView.reusable.modify i (·.step f e) } } }

/-- The rows on the screen with their cells. -/
def FetchedFeed.entries (s : FetchedFeed) : List (Nat × HomeTableViewCell) :=
  s.controller.mainTableView.visibleRows.entries

/-- The data are those fetched, the table knows no more rows than they have, and each cell on
the screen is configured for the post of its row. -/
structure OwnRows (s : FetchedFeed) : Prop where
  data : s.controller.data = s.fetching.controller.data
  rows : s.numberOfRows ≤ s.controller.data.length
  posts : ∀ entry ∈ s.entries, ∃ post, s.controller.data[entry.1]? = some post ∧
    entry.2.post = some post

/-! ### What keeps the post of a cell -/

namespace HomeTableViewCell

variable (c : HomeTableViewCell)

@[simp] theorem play_post : c.play.post = c.post := by
  cases h : c.isPlaying <;> simp [play, h]

@[simp] theorem pause_post : c.pause.post = c.post := by
  cases h : c.isPlaying <;> simp [pause, h]

@[simp] theorem step_post (f : Foundation) (e : CellStep) : (c.step f e).post = c.post := by
  cases e with
  | play => exact c.play_post
  | pause => exact c.pause_post
  | tap tap =>
    cases tap <;> cases h : c.liked <;>
      simp [step, HomeTableViewCell.tap, like, handleLikeGesture, likeVideo, h]
  | runConfigureBlock =>
    unfold step runConfigureBlock
    cases c.playerView.mainQueue <;> rfl
  | runCancelBlock =>
    unfold step runCancelBlock
    cases c.playerView.cancelLoadingQueue <;> rfl

end HomeTableViewCell

namespace VisibleRows

variable {v w : VisibleRows} {entry : Nat × HomeTableViewCell}

/-- A row that enters the screen leaves the others as they are. -/
theorem mem_enter {i : Nat} {new : HomeTableViewCell} (h : v.enter i new = some w)
    (hm : entry ∈ w.entries) : entry = (i, new) ∨ entry ∈ v.entries := by
  cases v with
  | none =>
    obtain rfl := Option.some.inj h
    exact Or.inl (List.mem_singleton.mp hm)
  | one row cell =>
    rw [enter, insert] at h
    split at h
    · rename_i hi
      obtain rfl := Option.some.inj h
      rcases List.mem_cons.mp hm with rfl | hnew
      · exact Or.inr (List.mem_singleton_self _)
      · rw [hi]
        exact Or.inl (List.mem_singleton.mp hnew)
    · obtain ⟨hi, rfl⟩ := Option.ite_some_none_eq_some.mp h
      rcases List.mem_cons.mp hm with rfl | hold
      · exact Or.inl rfl
      · rw [hi] at hold
        exact Or.inr hold
  | two row upper lower => cases h

theorem mem_modify {i : Nat} {method : HomeTableViewCell → HomeTableViewCell}
    (hm : entry ∈ (v.modify i method).entries) :
    ∃ old, (entry.1, old) ∈ v.entries ∧ (entry.2 = old ∨ entry.2 = method old) := by
  cases v with
  | none => cases hm
  | one row cell =>
    obtain rfl := List.mem_singleton.mp hm
    exact ⟨cell, List.mem_singleton_self _, (ite_eq_or_eq _ _ _).symm⟩
  | two row upper lower =>
    rcases List.mem_cons.mp hm with rfl | hlower
    · exact ⟨upper, List.mem_cons_self, (ite_eq_or_eq _ _ _).symm⟩
    · obtain rfl := List.mem_singleton.mp hlower
      exact ⟨lower, List.mem_cons_of_mem _ (List.mem_singleton_self _),
        (ite_eq_or_eq _ _ _).symm⟩

theorem mem_modifyFirst {method : HomeTableViewCell → HomeTableViewCell}
    (hm : entry ∈ (v.modifyFirst method).entries) :
    ∃ old, (entry.1, old) ∈ v.entries ∧ (entry.2 = old ∨ entry.2 = method old) := by
  cases v with
  | none => cases hm
  | one row cell =>
    obtain rfl := List.mem_singleton.mp hm
    exact ⟨cell, List.mem_singleton_self _, Or.inr rfl⟩
  | two row upper lower =>
    rcases List.mem_cons.mp hm with rfl | hlower
    · exact ⟨upper, List.mem_cons_self, Or.inr rfl⟩
    · exact ⟨entry.2, List.mem_cons_of_mem _ hlower, Or.inl rfl⟩

/-- The row that leaves the screen was on it. -/
theorem mem_of_remove {i : Nat} {cell : HomeTableViewCell}
    (h : v.remove i = some (cell, w)) : (i, cell) ∈ v.entries := by
  cases v with
  | none => cases h
  | one row old => cases h
  | two row upper lower =>
    rw [remove] at h
    split at h
    · rename_i hi
      obtain ⟨rfl, -⟩ := Prod.mk.inj (Option.some.inj h)
      rw [hi]
      exact List.mem_cons_self
    · obtain ⟨hi, hw⟩ := Option.ite_none_right_eq_some.mp h
      obtain ⟨rfl, -⟩ := Prod.mk.inj (Option.some.inj hw)
      rw [hi]
      exact List.mem_cons_of_mem _ (List.mem_singleton_self _)

end VisibleRows

section Step

variable {f : Foundation} {s t : FetchedFeed} {e : FetchedFeedEvent}

/-- A row gets a new or a reused cell, configured for its post and paused. -/
theorem HomeViewController.layOutRow_eq_some {c d : HomeViewController} {row : Nat}
    {reuse : Option Nat} {cached : Option String} (h : c.layOutRow row reuse cached = some d) :
    ∃ old post, (old = .awakeFromNib ∨ ∃ waiting ∈ c.mainTableView.reusable,
        old = waiting.prepareForReuse) ∧
      c.data[row]? = some post ∧
      c.mainTableView.visibleRows.enter row (old.configure post cached).pause =
        some d.mainTableView.visibleRows ∧
      d.mainTableView.reusable ⊆ c.mainTableView.reusable ∧ d.data = c.data := by
  rw [layOutRow] at h
  split at h
  · cases h
  · rename_i cell e hcell
    obtain ⟨rows, hrows, rfl⟩ := Option.map_eq_some_iff.mp h
    rw [cellForRowAt] at hcell
    split at hcell
    · rename_i old table post htable hpost
      obtain ⟨rfl, rfl⟩ := Prod.mk.inj (Option.some.inj hcell)
      cases reuse with
      | none =>
        obtain ⟨rfl, rfl⟩ := Prod.mk.inj (Option.some.inj htable)
        exact ⟨_, post, Or.inl rfl, hpost, hrows, List.Subset.refl _, rfl⟩
      | some i =>
        obtain ⟨waiting, hwaiting, hi⟩ := Option.map_eq_some_iff.mp htable
        obtain ⟨rfl, rfl⟩ := Prod.mk.inj hi
        exact ⟨_, post, Or.inr ⟨waiting, List.mem_of_getElem? hwaiting, rfl⟩, hpost, hrows,
          (List.eraseIdx_sublist _ i).subset, rfl⟩
    · cases hcell

/-- Where a cell on the screen comes from. -/
inductive Shown (f : Foundation) (s : FetchedFeed) (entry : Nat × HomeTableViewCell) : Prop
  | kept (h : entry ∈ s.entries)
  | played (old : HomeTableViewCell) (h : (entry.1, old) ∈ s.entries) (cell : entry.2 = old.play)
  | stepped (old : HomeTableViewCell) (h : (entry.1, old) ∈ s.entries) (e : CellStep)
      (cell : entry.2 = old.step f e)
  | laidOut (old : HomeTableViewCell) (post : Post) (cached : Option String)
      (h : old = .awakeFromNib ∨ ∃ waiting ∈ s.controller.mainTableView.reusable,
        old = waiting.prepareForReuse)
      (data : s.controller.data[entry.1]? = some post)
      (cell : entry.2 = (old.configure post cached).pause)

/-- Where a cell that waits to be reused comes from. -/
inductive Waiting (f : Foundation) (s : FetchedFeed) (e : FetchedFeedEvent)
    (c : HomeTableViewCell) : Prop
  | kept (h : c ∈ s.controller.mainTableView.reusable)
  | left (entry : Nat × HomeTableViewCell) (h : entry ∈ s.entries) (cell : c = entry.2.pause)
  | stepped (i : Nat) (old : HomeTableViewCell) (step : CellStep) (event : e = .reusable i step)
      (h : s.controller.mainTableView.reusable[i]? = some old) (cell : c = old.step f step)

/-- What a step of the feed can do. -/
structure FetchedFeedStep (f : Foundation) (s t : FetchedFeed) (e : FetchedFeedEvent) : Prop where
  data : t.fetching = s.fetching ∧ t.controller.data = s.controller.data ∨
    ∃ e', (fetching f).next s.fetching e' = some t.fetching ∧
      t.controller.data = t.fetching.controller.data
  rows : t.numberOfRows = s.numberOfRows ∨ t.numberOfRows = s.controller.data.length
  shown : ∀ entry ∈ t.entries, Shown f s entry
  waiting : ∀ c ∈ t.controller.mainTableView.reusable, Waiting f s e c

theorem step_of_next (hn : (fetchedFeed f).next s e = some t) : FetchedFeedStep f s t e := by
  cases e with
  | fetch e =>
    obtain ⟨fetched, hfetched, rfl⟩ := Option.map_eq_some_iff.mp hn
    exact ⟨Or.inr ⟨e, hfetched, rfl⟩, Or.inl rfl, fun _ hm => .kept hm, fun _ hc => .kept hc⟩
  | reload =>
    obtain ⟨_, rfl⟩ := Option.ite_some_none_eq_some.mp hn
    refine ⟨Or.inl ⟨rfl, rfl⟩, Or.inr rfl, fun _ hm => absurd hm List.not_mem_nil, fun c hc => ?_⟩
    rcases List.mem_append.mp hc with hold | hnew
    · exact .kept hold
    · obtain ⟨entry, hentry, rfl⟩ := List.mem_map.mp hnew
      exact .left entry hentry rfl
  | showRow row reuse cached =>
    obtain ⟨_, hn⟩ := Option.ite_none_right_eq_some.mp hn
    obtain ⟨c, hc, rfl⟩ := Option.map_eq_some_iff.mp hn
    obtain ⟨old, post, hold, hpost, henter, hreusable, hdata⟩ :=
      HomeViewController.layOutRow_eq_some hc
    refine ⟨Or.inl ⟨rfl, hdata⟩, Or.inl rfl, fun entry hm => ?_, fun c hc => .kept (hreusable hc)⟩
    rcases VisibleRows.mem_enter henter hm with rfl | hbefore
    · exact .laidOut old post cached hold hpost rfl
    · exact .kept hbefore
  | hideRow row =>
    obtain ⟨_, hn⟩ := Option.ite_none_right_eq_some.mp hn
    obtain ⟨c, hc, rfl⟩ := Option.map_eq_some_iff.mp hn
    obtain ⟨⟨cell, rows⟩, hremove, rfl⟩ := Option.map_eq_some_iff.mp hc
    refine ⟨Or.inl ⟨rfl, rfl⟩, Or.inl rfl,
      fun entry hm => .kept (VisibleRows.entries_remove hremove hm), fun c hc => ?_⟩
    rcases List.mem_append.mp hc with hold | hnew
    · exact .kept hold
    · exact .left _ (VisibleRows.mem_of_remove hremove) (List.mem_singleton.mp hnew)
  | scrollViewDidEndDragging =>
    obtain rfl := Option.some.inj hn
    refine ⟨Or.inl ⟨rfl, rfl⟩, Or.inl rfl, fun entry hm => ?_, fun _ hc => .kept hc⟩
    obtain ⟨old, hold, he | he⟩ := VisibleRows.mem_modify hm
    · exact .kept (by rwa [← he] at hold)
    · exact .played old hold (he.trans old.replay_eq_play)
  | viewWillAppear =>
    obtain rfl := Option.some.inj hn
    refine ⟨Or.inl ⟨rfl, rfl⟩, Or.inl rfl, fun entry hm => ?_, fun _ hc => .kept hc⟩
    obtain ⟨old, hold, he | he⟩ := VisibleRows.mem_modifyFirst hm
    · exact .kept (by rwa [← he] at hold)
    · exact .played old hold he
  | viewWillDisappear =>
    obtain rfl := Option.some.inj hn
    refine ⟨Or.inl ⟨rfl, rfl⟩, Or.inl rfl, fun entry hm => ?_, fun _ hc => .kept hc⟩
    obtain ⟨old, hold, he | he⟩ := VisibleRows.mem_modifyFirst hm
    · exact .kept (by rwa [← he] at hold)
    · exact .stepped old hold .pause he
  | visible row e =>
    obtain rfl := Option.some.inj hn
    refine ⟨Or.inl ⟨rfl, rfl⟩, Or.inl rfl, fun entry hm => ?_, fun _ hc => .kept hc⟩
    obtain ⟨old, hold, he | he⟩ := VisibleRows.mem_modify hm
    · exact .kept (by rwa [← he] at hold)
    · exact .stepped old hold e he
  | reusable i e =>
    obtain rfl := Option.some.inj hn
    refine ⟨Or.inl ⟨rfl, rfl⟩, Or.inl rfl, fun _ hm => .kept hm, fun c hc => ?_⟩
    obtain ⟨j, hj⟩ := List.mem_iff_getElem?.mp hc
    rw [List.getElem?_modify] at hj
    obtain ⟨old, hold, hcell⟩ := Option.map_eq_some_iff.mp hj
    by_cases hi : i = j
    · rw [if_pos hi] at hcell
      exact .stepped i old e rfl (hi ▸ hold) hcell.symm
    · rw [if_neg hi] at hcell
      exact .kept (List.mem_of_getElem? (hcell ▸ hold))

theorem OwnRows.next (h : OwnRows s) (hs : Accumulates s.fetching)
    (hn : (fetchedFeed f).next s e = some t) :
    OwnRows t ∧ s.controller.data <+: t.controller.data := by
  have hstep := step_of_next hn
  have hdata : t.controller.data = t.fetching.controller.data ∧
      s.controller.data <+: t.controller.data := by
    rcases hstep.data with ⟨hfetching, hdata⟩ | ⟨e', hnext, hdata⟩
    · exact ⟨by rw [hdata, hfetching, h.data], hdata ▸ List.prefix_refl _⟩
    · refine ⟨hdata, ?_⟩
      rw [hdata, h.data]
      exact (hs.next hnext).2
  refine ⟨⟨hdata.1, ?_, fun entry hm => ?_⟩, hdata.2⟩
  · rcases hstep.rows with hrows | hrows
    · exact hrows ▸ h.rows.trans hdata.2.length_le
    · exact hrows ▸ hdata.2.length_le
  · obtain ⟨post, hpost, hcell⟩ : ∃ post, s.controller.data[entry.1]? = some post ∧
        entry.2.post = some post := by
      cases hstep.shown entry hm with
      | kept hold => exact h.posts entry hold
      | played old hold hcell =>
        obtain ⟨post, hpost, hown⟩ := h.posts _ hold
        exact ⟨post, hpost, by rw [hcell, old.play_post, hown]⟩
      | stepped old hold e hcell =>
        obtain ⟨post, hpost, hown⟩ := h.posts _ hold
        exact ⟨post, hpost, by rw [hcell, old.step_post, hown]⟩
      | laidOut old post cached _ hpost hcell =>
        exact ⟨post, hpost,
          by rw [hcell, HomeTableViewCell.pause_post, HomeTableViewCell.configure]⟩
    obtain ⟨hrow, hget⟩ := List.getElem?_eq_some_iff.mp hpost
    exact ⟨post, (List.prefix_iff_getElem?.mp hdata.2 _ hrow).trans (congrArg some hget), hcell⟩

theorem fetching_of_next (h : (fetching f).Reachable s.fetching)
    (hn : (fetchedFeed f).next s e = some t) : (fetching f).Reachable t.fetching := by
  rcases (step_of_next hn).data with ⟨hsame, _⟩ | ⟨e', hnext, _⟩
  · exact hsame ▸ h
  · exact h.next hnext

theorem ownRows_of_run (hs : OwnRows s ∧ (fetching f).Reachable s.fetching)
    {events : List FetchedFeedEvent} (hrun : ((fetchedFeed f).startAt s).Run events t) :
    (OwnRows t ∧ (fetching f).Reachable t.fetching) ∧
      s.controller.data <+: t.controller.data := by
  refine hrun.invariant (I := fun t => (OwnRows t ∧ (fetching f).Reachable t.fetching) ∧
    s.controller.data <+: t.controller.data) ⟨hs, List.prefix_refl _⟩ fun t e u ht hn => ?_
  obtain ⟨⟨hown, hfetching⟩, hgrows⟩ := ht
  obtain ⟨hnext, hgrows'⟩ := hown.next (.of_reachable hfetching) hn
  exact ⟨⟨hnext, fetching_of_next hfetching hn⟩, hgrows.trans hgrows'⟩

/-- Rows and posts. Whatever is fetched, scrolled and reused, each cell on the screen is
configured for the post that the data have at its row, also while new data wait for the table's
reload; the data have a post for every row that the table knows, so `cellForRowAt` never traps;
and a row that was on the screen before shows the same post when it is on the screen again. -/
theorem visible_rows_show_their_posts (h : (fetchedFeed f).Reachable s)
    {events : List FetchedFeedEvent} (hrun : ((fetchedFeed f).startAt s).Run events t) :
    (∀ entry ∈ t.entries, ∃ post, t.controller.data[entry.1]? = some post ∧
      entry.2.post = some post) ∧
    (∀ row < t.numberOfRows, ∀ reuse cached,
      (t.controller.mainTableView.dequeueReusableCell reuse).isSome = true →
        (t.controller.cellForRowAt row reuse cached).isSome = true) ∧
    ∀ row cell cell', (row, cell) ∈ s.entries → (row, cell') ∈ t.entries →
      cell'.post = cell.post := by
  have hstart : OwnRows (fetchedFeed f).start ∧
      (fetching f).Reachable (fetchedFeed f).start.fetching :=
    ⟨⟨rfl, le_refl 0, fun _ hm => absurd hm List.not_mem_nil⟩, [], .nil⟩
  obtain ⟨before, hbefore⟩ := h
  have hs := (ownRows_of_run hstart hbefore).1
  obtain ⟨⟨ht, _⟩, hgrows⟩ := ownRows_of_run hs hrun
  refine ⟨ht.posts, fun row hrow reuse cached hcell => ?_, fun row cell cell' hcell hcell' => ?_⟩
  · obtain ⟨⟨cell, table⟩, hdequeued⟩ := Option.isSome_iff_exists.mp hcell
    obtain ⟨post, hpost⟩ : ∃ post, t.controller.data[row]? = some post :=
      ⟨_, List.getElem?_eq_getElem (hrow.trans_le ht.rows)⟩
    rw [HomeViewController.cellForRowAt, hdequeued, hpost]
    rfl
  · obtain ⟨post, hpost, hown⟩ := hs.1.posts _ hcell
    obtain ⟨post', hpost', hown'⟩ := ht.posts _ hcell'
    obtain ⟨hlt, hget⟩ := List.getElem?_eq_some_iff.mp hpost
    have hsame : t.controller.data[row]? = some post :=
      (List.prefix_iff_getElem?.mp hgrows _ hlt).trans (congrArg some hget)
    rw [hown, hown', ← hpost', ← hsame]

end Step

/-- The first post arrives and is shown. -/
def firstRowShown : List FetchedFeedEvent :=
  (openedFeed ++ firstPosts).map .fetch ++ [.reload, .showRow 0 none none]

/-- A second page arrives, and the table lays its rows out again with the cell that it has. -/
def secondPageShown : List FetchedFeedEvent :=
  [.visible 0 .runConfigureBlock, .scrollViewDidEndDragging, .fetch (.getPosts 2 10),
    .fetch (.answered 0
      (some [⟨"e", VideoPostRequest.publishedData samplePost ⟨"https://a/w"⟩⟩]) none),
    .fetch .runMain, .fetch .runMain, .reload, .showRow 0 (some 0) none, .showRow 1 none none]

theorem visible_rows_show_their_posts_secondPageShown : ∃ s t : FetchedFeed,
    s.entries.map Prod.fst = [0] ∧ t.entries.map Prod.fst = [0, 1] ∧
    (∀ entry ∈ t.entries, ∃ post, t.controller.data[entry.1]? = some post ∧
      entry.2.post = some post) ∧
    (∀ row < t.numberOfRows, ∀ reuse cached,
      (t.controller.mainTableView.dequeueReusableCell reuse).isSome = true →
        (t.controller.cellForRowAt row reuse cached).isSome = true) ∧
    ∀ row cell cell', (row, cell) ∈ s.entries → (row, cell') ∈ t.entries →
      cell'.post = cell.post := by
  obtain ⟨s, hs, hfirst⟩ : ∃ s, (fetchedFeed .plain).Run firstRowShown s ∧
      s.entries.map Prod.fst = [0] := ⟨_, Machine.run_iff_exec.mpr rfl, rfl⟩
  obtain ⟨t, ht, hsecond⟩ : ∃ t, (fetchedFeed .plain).Run (firstRowShown ++ secondPageShown) t ∧
      t.entries.map Prod.fst = [0, 1] := ⟨_, Machine.run_iff_exec.mpr rfl, rfl⟩
  obtain ⟨u, hu, hrun⟩ := Machine.run_append_iff.mp ht
  obtain rfl := hs.unique hu
  exact ⟨s, t, hfirst, hsecond, visible_rows_show_their_posts ⟨_, hs⟩ hrun⟩

end TiktokClone
