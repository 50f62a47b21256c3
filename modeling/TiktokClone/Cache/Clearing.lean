import Mathlib.Algebra.BigOperators.Group.List.Basic
import Mathlib.Algebra.Order.Ring.Unbundled.Rat
import Mathlib.Algebra.Ring.Rat
import Mathlib.Data.List.TakeWhile
import TiktokClone.Cache.DiskPath

/-!
# Clearing the disk cache

When no file operation throws, the loop of `clearDiskCache` removes every item of
the directory and adds up their sizes, unless it meets a size that the forced cast
to `Float` cannot represent.
-/

namespace TiktokClone

/-- The path of a listed item. -/
def itemPath (directory name : String) : String := directory ++ "/" ++ name

theorem itemPath_injective (directory : String) : Function.Injective (itemPath directory) :=
  fun _ _ h => (String.append_right_inj (directory ++ "/")).mp h

namespace FileManager

/-- Remove all these items of a directory. -/
def removeItems (m : FileManager) (directory : String) (names : List String) : FileManager :=
  ⟨names.foldl (fun files name => files.erase (itemPath directory name)) m.files⟩

/-- The size of a file, zero if there is none. -/
def size (m : FileManager) (path : String) : Nat := ((m.contents path).map List.length).getD 0

/-- The forced cast succeeds on the size of the file. -/
def ReadableSize (m : FileManager) (path : String) : Prop :=
  (forcedFloat (m.size path)).isSome = true

instance (m : FileManager) (path : String) : Decidable (m.ReadableSize path) :=
  inferInstanceAs (Decidable (_ = true))

/-- The sizes of all these items. -/
def folderSize (m : FileManager) (directory : String) (names : List String) : ℚ :=
  (names.map fun name => (m.size (itemPath directory name) : ℚ)).sum

theorem contents_erase_of_ne {m : FileManager} {path path' : String} (h : path' ≠ path) :
    (⟨m.files.erase path⟩ : FileManager).contents path' = m.contents path' :=
  AList.lookup_erase_ne h

theorem fileExists_erase_iff {m : FileManager} {path path' : String} :
    (⟨m.files.erase path⟩ : FileManager).fileExists path' = true ↔
      path' ≠ path ∧ m.fileExists path' = true := by
  rw [fileExists, fileExists, AList.lookup_isSome, AList.lookup_isSome, AList.mem_erase]

theorem contents_removeItems (m : FileManager) (directory : String) (names : List String)
    (path : String) : (m.removeItems directory names).contents path =
      if path ∈ names.map (itemPath directory) then none else m.contents path := by
  induction names generalizing m with
  | nil => rfl
  | cons name names ih =>
    have hstep : m.removeItems directory (name :: names) =
        (⟨m.files.erase (itemPath directory name)⟩ : FileManager).removeItems directory names := rfl
    rw [hstep, ih, List.map_cons]
    by_cases hpath : path = itemPath directory name
    · subst hpath
      rw [if_pos (List.mem_cons_self), contents, AList.lookup_erase]
      exact ite_self none
    · simp only [List.mem_cons, hpath, false_or, contents_erase_of_ne hpath]

theorem contentsOfDirectory_eq_some {m : FileManager} {faults : FileFaults} {directory : String}
    {names : List String} (h : m.contentsOfDirectory faults directory = some names) :
    m.files.keys.filterMap (itemName directory) = names := by
  rw [contentsOfDirectory, Option.ite_none_left_eq_some] at h
  exact Option.some.inj h.2

/-- The items of a directory are listed once each. -/
theorem nodup_contentsOfDirectory {m : FileManager} {faults : FileFaults} {directory : String}
    {names : List String} (h : m.contentsOfDirectory faults directory = some names) :
    names.Nodup := by
  obtain rfl := contentsOfDirectory_eq_some h
  refine m.files.keys_nodup.filterMap fun path path' name hp hp' => ?_
  rw [Option.mem_def, itemName_eq_some_iff] at hp hp'
  rw [hp, hp']

/-- A directory lists the files below it. -/
theorem mem_contentsOfDirectory {m : FileManager} {faults : FileFaults} {directory : String}
    {names : List String} (h : m.contentsOfDirectory faults directory = some names)
    {name : String} : name ∈ names ↔ m.fileExists (itemPath directory name) = true := by
  obtain rfl := contentsOfDirectory_eq_some h
  rw [List.mem_filterMap, fileExists, AList.lookup_isSome, AList.mem_keys]
  simp only [itemName_eq_some_iff, itemPath]
  exact ⟨fun ⟨path, hmem, hpath⟩ => hpath ▸ hmem, fun hmem => ⟨_, hmem, rfl⟩⟩

theorem attributesOfItem_of_exists {m : FileManager} {path : String} (faults : FileFaults)
    (h : m.fileExists path = true) : m.attributesOfItem faults path =
      if faults.attributesOfItem path then none else some (m.size path) := by
  obtain ⟨data, hdata⟩ := Option.isSome_iff_exists.mp h
  simp [attributesOfItem, size, contents, hdata]

theorem removeItem_of_exists {m : FileManager} {path : String} (faults : FileFaults)
    (h : m.fileExists path = true) : m.removeItem faults path =
      if faults.removeItem path then none else some ⟨m.files.erase path⟩ := by
  simp [removeItem, h]

theorem attributesOfItem_none {m : FileManager} {path : String} (h : m.fileExists path = true) :
    m.attributesOfItem .none path = some (m.size path) := attributesOfItem_of_exists .none h

theorem removeItem_none {m : FileManager} {path : String} (h : m.fileExists path = true) :
    m.removeItem .none path = some ⟨m.files.erase path⟩ := removeItem_of_exists .none h

theorem forcedFloat_eq_some {size : Nat} {x : ℚ} (h : forcedFloat size = some x) : x = size := by
  rw [forcedFloat, Option.ite_none_right_eq_some, Option.some.injEq] at h
  exact h.2.symm

/-- The loop of `clearDiskCache` gets past an item: neither operation throws on it, and the
forced cast succeeds on its size. -/
def passes (m : FileManager) (faults : FileFaults) (directory name : String) : Bool :=
  let path := itemPath directory name
  !faults.attributesOfItem path && decide (m.ReadableSize path) && !faults.removeItem path

/-- One round of the loop on a file that exists. -/
theorem clearContents_cons {m : FileManager} {directory name : String} (faults : FileFaults)
    (names : List String) (h : m.fileExists (itemPath directory name) = true) (total : ℚ) :
    m.clearContents faults directory (name :: names) total =
      if faults.attributesOfItem (itemPath directory name) = true then .thrown m
      else if m.ReadableSize (itemPath directory name) then
        if faults.removeItem (itemPath directory name) = true then .thrown m
        else FileManager.clearContents faults directory names
          (total + m.size (itemPath directory name)) ⟨m.files.erase (itemPath directory name)⟩
      else .trapped := by
  have hattributes := attributesOfItem_of_exists faults h
  have hremove := removeItem_of_exists faults h
  have hpath : itemPath directory name = directory ++ "/" ++ name := rfl
  rw [clearContents, ← hpath, hattributes, hremove]
  by_cases hthrows : faults.attributesOfItem (itemPath directory name) = true
  · rw [if_pos hthrows, if_pos hthrows]
  rw [if_neg hthrows, if_neg hthrows]
  rcases hcast : forcedFloat (m.size (itemPath directory name)) with _ | x
  · have hunreadable : ¬ m.ReadableSize (itemPath directory name) := by simp [ReadableSize, hcast]
    simp only [hcast, if_neg hunreadable]
  · have hreadable : m.ReadableSize (itemPath directory name) := by simp [ReadableSize, hcast]
    obtain rfl := forcedFloat_eq_some hcast
    by_cases hfails : faults.removeItem (itemPath directory name) = true
    · simp only [hcast, if_pos hreadable, if_pos hfails]
    · simp only [hcast, if_pos hreadable, if_neg hfails]

/-- The loop removes the items before the first that it does not get past, and adds up their
sizes. It leaves the others alone, so their sizes stay those of the files `m₀` of the start. -/
theorem clearContents_eq {m₀ m : FileManager} (faults : FileFaults) (directory : String)
    {names : List String} (hnodup : names.Nodup)
    (hexists : ∀ name ∈ names, m.fileExists (itemPath directory name) = true)
    (hsize : ∀ name ∈ names,
      m.size (itemPath directory name) = m₀.size (itemPath directory name)) (total : ℚ) :
    m.clearContents faults directory names total =
      match names.dropWhile (m₀.passes faults directory) with
      | [] =>
        .cleared (m.removeItems directory (names.takeWhile (m₀.passes faults directory)))
          (total + m₀.folderSize directory (names.takeWhile (m₀.passes faults directory)))
      | name :: _ =>
        if faults.attributesOfItem (itemPath directory name) = true ∨
            m₀.ReadableSize (itemPath directory name) then
          .thrown (m.removeItems directory (names.takeWhile (m₀.passes faults directory)))
        else .trapped := by
  induction names generalizing m total with
  | nil => simp [clearContents, removeItems, folderSize]
  | cons name names ih =>
    obtain ⟨hnotin, hnodup⟩ := List.nodup_cons.mp hnodup
    have hne : ∀ other ∈ names, itemPath directory other ≠ itemPath directory name :=
      fun other hother he => hnotin (itemPath_injective directory he ▸ hother)
    -- The rest of the loop works on the files without the removed one.
    have hrest := ih (m := ⟨m.files.erase (itemPath directory name)⟩) hnodup
      (fun other hother => fileExists_erase_iff.mpr
        ⟨hne other hother, hexists other (List.mem_cons_of_mem _ hother)⟩)
      (fun other hother => by
        rw [size, contents_erase_of_ne (hne other hother), ← size]
        exact hsize other (List.mem_cons_of_mem _ hother))
    have hhead : m.size (itemPath directory name) = m₀.size (itemPath directory name) :=
      hsize name List.mem_cons_self
    have hreadable : m.ReadableSize (itemPath directory name) ↔
        m₀.ReadableSize (itemPath directory name) := by rw [ReadableSize, ReadableSize, hhead]
    rw [clearContents_cons faults names (hexists name List.mem_cons_self)]
    -- The first of the three operations that does not go through ends the loop.
    by_cases hthrows : faults.attributesOfItem (itemPath directory name) = true
    · have hstops : m₀.passes faults directory name = false := by simp [passes, hthrows]
      simp [hstops, hthrows, removeItems]
    by_cases hcast : m₀.ReadableSize (itemPath directory name)
    · by_cases hfails : faults.removeItem (itemPath directory name) = true
      · have hstops : m₀.passes faults directory name = false := by simp [passes, hfails]
        simp [hstops, hthrows, hreadable, hcast, hfails, removeItems]
      · have hgoes : m₀.passes faults directory name = true := by
          simp [passes, hthrows, hcast, hfails]
        have htotal : total + m.size (itemPath directory name) +
            m₀.folderSize directory (names.takeWhile (m₀.passes faults directory)) =
            total + m₀.folderSize directory
              (name :: names.takeWhile (m₀.passes faults directory)) := by
          rw [folderSize, folderSize, List.map_cons, List.sum_cons, hhead, add_assoc]
        rw [if_neg hthrows, if_pos (hreadable.mpr hcast), if_neg hfails, hrest,
          List.takeWhile_cons_of_pos hgoes, List.dropWhile_cons_of_pos hgoes, htotal]
        rfl
    · have hstops : m₀.passes faults directory name = false := by simp [passes, hcast]
      simp [hstops, hthrows, hreadable, hcast]

/-- Without faults the loop removes all items and adds up their sizes, or it meets a
size that it cannot cast. -/
theorem clearContents_none {m : FileManager} {directory : String} {names : List String}
    (h : m.contentsOfDirectory .none directory = some names) :
    m.clearContents .none directory names 0 =
      if ∀ name ∈ names, m.ReadableSize (itemPath directory name) then
        .cleared (m.removeItems directory names) (m.folderSize directory names)
      else .trapped := by
  have hpasses : ∀ name,
      m.passes .none directory name = decide (m.ReadableSize (itemPath directory name)) := by
    intro name
    rw [passes, FileFaults.none, Bool.not_false, Bool.true_and, Bool.and_true]
  rw [clearContents_eq .none directory (nodup_contentsOfDirectory h)
    (fun name => (mem_contentsOfDirectory h).mp) fun _ _ => rfl, zero_add]
  by_cases hall : ∀ name ∈ names, m.ReadableSize (itemPath directory name)
  · have hgoes : ∀ name ∈ names, m.passes .none directory name = true := fun name hname => by
      rw [hpasses, decide_eq_true (hall name hname)]
    rw [if_pos hall, List.takeWhile_eq_self_iff.mpr hgoes, List.dropWhile_eq_nil_iff.mpr hgoes]
  · rw [if_neg hall]
    cases hstop : names.dropWhile (m.passes .none directory) with
    | nil =>
      have hgoes := List.dropWhile_eq_nil_iff.mp hstop
      exact absurd (fun name hname => of_decide_eq_true (hpasses name ▸ hgoes name hname)) hall
    | cons name rest =>
      have hstops := names.head?_dropWhile_not (m.passes .none directory)
      rw [hstop] at hstops
      change m.passes .none directory name = false at hstops
      rw [hpasses, decide_eq_false_iff_not] at hstops
      simp [hstops, FileFaults.none]

end FileManager

/-- Every path of the cache is an item of its directory. -/
theorem CacheSystem.diskCachePathForKey_eq_itemPath (sys : CacheSystem) (key : String)
    (fileExtension : Option String) : sys.diskCachePathForKey key fileExtension =
      itemPath sys.diskDirectory (sys.pathSuffix key fileExtension) :=
  sys.diskCachePathForKey_eq key fileExtension

namespace VideoCacheManager

/-- The forced cast accepts the sizes of all files of the cache's directory. -/
def ReadableSizes (sys : CacheSystem) (m : VideoCacheManager) : Prop :=
  ∀ name, m.diskCache.ReadableSize (itemPath sys.diskDirectory name)

/-- Without faults clearing the disk cache empties the directory or traps on a size. -/
theorem clearDiskCache_none (sys : CacheSystem) (m : VideoCacheManager) :
    ∃ names, m.diskCache.contentsOfDirectory .none sys.diskDirectory = some names ∧
      m.clearDiskCache sys .none =
        if ∀ name ∈ names, m.diskCache.ReadableSize (itemPath sys.diskDirectory name) then
          some ({ m with diskCache := m.diskCache.removeItems sys.diskDirectory names },
            (sys.format (m.diskCache.folderSize sys.diskDirectory names / 1024 / 1024)).getD "0")
        else none := by
  obtain ⟨names, hnames⟩ : ∃ names,
      m.diskCache.contentsOfDirectory .none sys.diskDirectory = some names := ⟨_, rfl⟩
  have hloop := FileManager.clearContents_none hnames
  refine ⟨names, hnames, ?_⟩
  simp only [clearDiskCache, hnames, hloop]
  by_cases hreadable : ∀ name ∈ names, m.diskCache.ReadableSize (itemPath sys.diskDirectory name)
  · simp only [if_pos hreadable]
  · simp only [if_neg hreadable]

/-- A clearing that returns has emptied the cache's directory. -/
theorem clearDiskCache_spec {sys : CacheSystem} {m m' : VideoCacheManager} {size : String}
    (h : m.clearDiskCache sys .none = some (m', size)) :
    m'.memoryCache = m.memoryCache ∧ ∀ name,
      m'.diskCache.contents (itemPath sys.diskDirectory name) = none := by
  obtain ⟨names, hnames, heq⟩ := m.clearDiskCache_none sys
  rw [heq, Option.ite_none_right_eq_some] at h
  obtain ⟨_, he⟩ := h
  cases he
  refine ⟨rfl, fun name => ?_⟩
  rw [FileManager.contents_removeItems]
  by_cases hname : name ∈ names
  · rw [if_pos (List.mem_map_of_mem hname)]
  · rw [FileManager.mem_contentsOfDirectory hnames, FileManager.fileExists,
      Bool.not_eq_true, Option.isSome_eq_false_iff, Option.isNone_iff_eq_none] at hname
    rw [FileManager.contents, hname, ite_self]

/-- A clearing returns when it can cast all sizes. -/
theorem clearDiskCache_isSome {sys : CacheSystem} {m : VideoCacheManager}
    (h : m.ReadableSizes sys) : (m.clearDiskCache sys .none).isSome = true := by
  obtain ⟨names, _, heq⟩ := m.clearDiskCache_none sys
  rw [heq, if_pos fun name _ => h name]
  rfl

end VideoCacheManager

end TiktokClone
