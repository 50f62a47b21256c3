import TiktokClone.Home.HomeTableViewCell

/-!
# The controller of the home feed

The table of the feed, with the cells on the screen and the cells waiting to be
reused, and the methods of its controller that start and stop the cells. Every row
is as high as the table, so one row or two adjacent rows are on the screen once the
table has been laid out.
-/

namespace TiktokClone

/-- The rows on the screen from the top, with their cells. -/
inductive VisibleRows
  /-- The table shows no row before its first layout. -/
  | none
  | one (row : Nat) (cell : HomeTableViewCell)
  /-- The rows `row` and `row + 1`. -/
  | two (row : Nat) (upper lower : HomeTableViewCell)

namespace VisibleRows

/-- The cells on the screen with their rows, from the top. -/
def entries : VisibleRows → List (Nat × HomeTableViewCell)
  | none => []
  | one row cell => [(row, cell)]
  | two row upper lower => [(row, upper), (row + 1, lower)]

/-- A row of the screen is entered by the first layout or by scrolling to a neighbour. -/
def insert (i : Nat) (new : HomeTableViewCell) : VisibleRows → Option VisibleRows
  | none => if i = 0 then some (one i new) else .none
  | one row cell =>
    if i = row + 1 then some (two row cell new)
    else if i + 1 = row then some (two i new cell)
    else .none
  | two _ _ _ => .none

/-- A row leaves the screen while its neighbour stays; the result is its cell and the rest. -/
def remove (i : Nat) : VisibleRows → Option (HomeTableViewCell × VisibleRows)
  | two row upper lower =>
    if i = row then some (upper, one (row + 1) lower)
    else if i = row + 1 then some (lower, one row upper)
    else .none
  | none | one _ _ => .none

/-- Apply a method to the cell of one row, if the row is on the screen. -/
def modify (i : Nat) (method : HomeTableViewCell → HomeTableViewCell) : VisibleRows → VisibleRows
  | none => none
  | one row cell => one row (if i = row then method cell else cell)
  | two row upper lower =>
    two row (if i = row then method upper else upper) (if i = row + 1 then method lower else lower)

/-- Apply a method to the first of the cells on the screen. -/
def modifyFirst (method : HomeTableViewCell → HomeTableViewCell) : VisibleRows → VisibleRows
  | none => none
  | one row cell => one row (method cell)
  | two row upper lower => two row (method upper) lower

end VisibleRows

structure UITableView where
  visibleRows : VisibleRows
  /-- The cells that have left the screen. -/
  reusable : List HomeTableViewCell

namespace UITableView

/-- Every cell of the table. -/
def cells (t : UITableView) : List HomeTableViewCell :=
  t.visibleRows.entries.map Prod.snd ++ t.reusable

/-- `dequeueReusableCell(withIdentifier:for:)`: a waiting cell, given by its position, or a
new one. -/
def dequeueReusableCell (t : UITableView) :
    Option Nat → Option (HomeTableViewCell × UITableView)
  | none => some (.awakeFromNib, t)
  | some i => (t.reusable[i]?).map fun cell =>
    (cell.prepareForReuse, { t with reusable := t.reusable.eraseIdx i })

end UITableView

/-- The fields that the table and the scrolling read and write. -/
structure HomeViewController where
  mainTableView : UITableView
  currentIndex : Nat
  oldAndNewIndices : Nat × Nat
  data : List Post

namespace HomeViewController

/-- `tableView(_:cellForRowAt:)`; `reuse` is the cell that the table hands over and `cached`
what the cache query of `configure` answers. -/
def cellForRowAt (c : HomeViewController) (row : Nat) (reuse : Option Nat)
    (cached : Option String) : Option (HomeTableViewCell × HomeViewController) :=
  match c.mainTableView.dequeueReusableCell reuse, c.data[row]? with
  | some (cell, table), some post =>
    some (cell.configure post cached, { c with mainTableView := table })
  | _, _ => none

/-- `tableView(_:willDisplay:forRowAt:)` -/
def willDisplay (c : HomeViewController) (cell : HomeTableViewCell) (row : Nat) :
    HomeTableViewCell × HomeViewController :=
  (cell.pause, { c with
    oldAndNewIndices := (c.oldAndNewIndices.1, row)
    currentIndex := row })

/-- `tableView(_:didEndDisplaying:forRowAt:)` -/
def didEndDisplaying (cell : HomeTableViewCell) : HomeTableViewCell := cell.pause

/-- The table fetches the cell of a row, announces it and puts it on the screen. -/
def showRow (c : HomeViewController) (row : Nat) (reuse : Option Nat) (cached : Option String) :
    Option HomeViewController :=
  match c.cellForRowAt row reuse cached with
  | none => none
  | some (cell, c) =>
    let (cell, c) := c.willDisplay cell row
    (c.mainTableView.visibleRows.insert row cell).map fun rows =>
      { c with mainTableView := { c.mainTableView with visibleRows := rows } }

/-- The table takes a row off the screen and keeps its cell for reuse. -/
def hideRow (c : HomeViewController) (row : Nat) : Option HomeViewController :=
  (c.mainTableView.visibleRows.remove row).map fun (cell, rows) =>
    { c with mainTableView := ⟨rows, c.mainTableView.reusable ++ [didEndDisplaying cell]⟩ }

/-- `scrollViewDidEndDragging(_:willDecelerate:)` -/
def scrollViewDidEndDragging (c : HomeViewController) : HomeViewController :=
  { c with mainTableView := { c.mainTableView with
      visibleRows := c.mainTableView.visibleRows.modify c.currentIndex .replay } }

def viewWillAppear (c : HomeViewController) : HomeViewController :=
  { c with mainTableView := { c.mainTableView with
      visibleRows := c.mainTableView.visibleRows.modifyFirst .play } }

def viewWillDisappear (c : HomeViewController) : HomeViewController :=
  { c with mainTableView := { c.mainTableView with
      visibleRows := c.mainTableView.visibleRows.modifyFirst .pause } }

/-- A row that enters the screen is paused, and it is the current row. -/
theorem showRow_eq_some {c d : HomeViewController} {row : Nat} {reuse : Option Nat}
    {cached : Option String} (h : c.showRow row reuse cached = some d) :
    ∃ cell, cell.isPlaying = false ∧
      c.mainTableView.visibleRows.insert row cell = some d.mainTableView.visibleRows ∧
      d.mainTableView.reusable ⊆ c.mainTableView.reusable ∧ d.currentIndex = row := by
  rw [showRow] at h
  split at h
  · cases h
  · rename_i cell e hcell
    obtain ⟨rows, hrows, rfl⟩ := Option.map_eq_some_iff.mp h
    have he : e.mainTableView.visibleRows = c.mainTableView.visibleRows ∧
        e.mainTableView.reusable ⊆ c.mainTableView.reusable := by
      rw [cellForRowAt] at hcell
      split at hcell
      · rename_i old table post htable hpost
        obtain ⟨-, rfl⟩ := Prod.mk.inj (Option.some.inj hcell)
        cases reuse with
        | none =>
          obtain ⟨-, rfl⟩ := Prod.mk.inj (Option.some.inj htable)
          exact ⟨rfl, List.Subset.refl _⟩
        | some i =>
          obtain ⟨_, _, hi⟩ := Option.map_eq_some_iff.mp htable
          obtain ⟨-, rfl⟩ := Prod.mk.inj hi
          exact ⟨rfl, (List.eraseIdx_sublist _ i).subset⟩
      · cases hcell
    exact ⟨cell.pause, cell.pause_isPlaying, he.1 ▸ hrows, he.2, rfl⟩

/-- A row that leaves the screen is paused. -/
theorem hideRow_eq_some {c d : HomeViewController} {row : Nat} (h : c.hideRow row = some d) :
    ∃ cell, c.mainTableView.visibleRows.remove row = some (cell, d.mainTableView.visibleRows) ∧
      d.mainTableView.reusable = c.mainTableView.reusable ++ [cell.pause] ∧
      d.currentIndex = c.currentIndex := by
  obtain ⟨⟨cell, rows⟩, hremove, rfl⟩ := Option.map_eq_some_iff.mp h
  exact ⟨cell, hremove, rfl, rfl⟩

end HomeViewController

end TiktokClone
