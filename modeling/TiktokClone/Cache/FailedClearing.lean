import Mathlib.Tactic.NormNum
import TiktokClone.Cache.Clearing

/-!
# Clearing the disk cache when a file operation throws

The loop of `clearDiskCache` removes the items before the one on which an operation
throws and leaves the others. The sizes that it has added up until then are lost: the
result is "0", whatever has been removed.
-/

namespace TiktokClone

namespace FileFaults

/-- One of the operations of the loop throws on the item. -/
def throwsOn (faults : FileFaults) (directory name : String) : Bool :=
  faults.attributesOfItem (itemPath directory name) || faults.removeItem (itemPath directory name)

/-- The listed items before the first on which an operation throws. -/
def beforeFailure (faults : FileFaults) (directory : String) (names : List String) : List String :=
  names.takeWhile fun name => !faults.throwsOn directory name

end FileFaults

/-- A formatted number has its fraction digit, so none is written as "0". -/
def CacheSystem.WritesFraction (sys : CacheSystem) : Prop :=
  ∀ decimal, (sys.format decimal).getD "0" ≠ "0"

namespace VideoCacheManager

/-- The formatted total size of items of the disk cache, in MB. -/
def formattedSize (sys : CacheSystem) (m : VideoCacheManager) (names : List String) : String :=
  (sys.format (m.diskCache.folderSize sys.diskDirectory names / 1024 / 1024)).getD "0"

variable {sys : CacheSystem} {faults : FileFaults} {m : VideoCacheManager} {names : List String}

/-- The loop gets past the items on which no operation throws. -/
theorem passes_eq (hreadable : m.ReadableSizes sys) :
    m.diskCache.passes faults sys.diskDirectory =
      fun name => !faults.throwsOn sys.diskDirectory name := by
  funext name
  rw [FileManager.passes, FileFaults.throwsOn, decide_eq_true (hreadable name), Bool.and_true,
    Bool.not_or]

/-- The items before the failure are removed. The size is that of all items, or "0". -/
theorem clearDiskCache_eq (hreadable : m.ReadableSizes sys)
    (hnames : m.diskCache.contentsOfDirectory faults sys.diskDirectory = some names) :
    m.clearDiskCache sys faults = some
      ({ m with
          diskCache := m.diskCache.removeItems sys.diskDirectory
            (faults.beforeFailure sys.diskDirectory names) },
        if ∀ name ∈ names, faults.throwsOn sys.diskDirectory name = false then
          m.formattedSize sys names
        else "0") := by
  have hloop := m.diskCache.clearContents_eq faults sys.diskDirectory
    (FileManager.nodup_contentsOfDirectory hnames)
    (fun name => (FileManager.mem_contentsOfDirectory hnames).mp) (fun _ _ => rfl) 0
  rw [passes_eq hreadable, zero_add] at hloop
  cases hstop : names.dropWhile fun name => !faults.throwsOn sys.diskDirectory name with
  | nil =>
    have hpassed := List.dropWhile_eq_nil_iff.mp hstop
    have hall : ∀ name ∈ names, faults.throwsOn sys.diskDirectory name = false :=
      fun name hname => by simpa using hpassed name hname
    rw [hstop, List.takeWhile_eq_self_iff.mpr hpassed] at hloop
    rw [if_pos hall, FileFaults.beforeFailure, List.takeWhile_eq_self_iff.mpr hpassed]
    simp only [clearDiskCache, hnames, hloop, formattedSize]
  | cons name rest =>
    have hstops := names.head?_dropWhile_not fun name => !faults.throwsOn sys.diskDirectory name
    rw [hstop] at hstops
    have hname : name ∈ names :=
      (List.dropWhile_sublist _).subset (hstop ▸ List.mem_cons_self)
    have hsome : ¬ ∀ name ∈ names, faults.throwsOn sys.diskDirectory name = false := fun hall => by
      simp [hall name hname] at hstops
    rw [hstop] at hloop
    simp only [if_pos (Or.inr (hreadable name))] at hloop
    simp only [clearDiskCache, hnames, hloop, if_neg hsome, FileFaults.beforeFailure]

/-- Clearing the disk cache removes exactly the items before the one on which an operation
throws. It reports their total size exactly when no operation throws. -/
theorem clearDiskCache_reports_iff {sys : CacheSystem} {faults : FileFaults}
    {m : VideoCacheManager} {names : List String} (hformat : sys.WritesFraction)
    (hreadable : m.ReadableSizes sys)
    (hnames : m.diskCache.contentsOfDirectory faults sys.diskDirectory = some names) :
    ∃ m' size, m.clearDiskCache sys faults = some (m', size) ∧
      m'.memoryCache = m.memoryCache ∧
      (∀ path, m'.diskCache.contents path =
        if path ∈ (faults.beforeFailure sys.diskDirectory names).map (itemPath sys.diskDirectory)
        then none else m.diskCache.contents path) ∧
      (size = m.formattedSize sys (faults.beforeFailure sys.diskDirectory names) ↔
        ∀ name ∈ names, faults.throwsOn sys.diskDirectory name = false) := by
  refine ⟨_, _, clearDiskCache_eq hreadable hnames, rfl,
    FileManager.contents_removeItems _ _ _, ?_⟩
  by_cases hall : ∀ name ∈ names, faults.throwsOn sys.diskDirectory name = false
  · have hremoved : faults.beforeFailure sys.diskDirectory names = names :=
      List.takeWhile_eq_self_iff.mpr fun name hname => by rw [hall name hname]; rfl
    rw [if_pos hall, hremoved]
    exact iff_of_true rfl hall
  · rw [if_neg hall]
    exact iff_of_false (fun heq => hformat _ heq.symm) hall

/-! ## A listing of two files -/

/-- A formatter that writes one fraction digit, and no zero before the point. -/
def oneFractionDigit (decimal : ℚ) : String :=
  let tenths := (decimal * 10 + 1 / 2).floor.toNat
  (if tenths < 10 then "" else toString (tenths / 10)) ++ "." ++ toString (tenths % 10)

def formattingDevice : CacheSystem :=
  { CacheSystem.twoKeys with
    numberFormatter := fun _ _ decimal => some (oneFractionDigit decimal) }

theorem formattingDevice_writesFraction : formattingDevice.WritesFraction := by
  intro decimal hzero
  have hpoint : '.' ∈ (oneFractionDigit decimal).toList := by
    simp [oneFractionDigit]
  have hdigits : oneFractionDigit decimal = "0" := hzero
  rw [hdigits] at hpoint
  exact absurd hpoint (by decide)

/-- Two files of one mebibyte each. -/
def twoFiles : VideoCacheManager :=
  ⟨∅, ⟨AList.insert (itemPath formattingDevice.diskDirectory "a") (List.replicate (2 ^ 20) 0)
    (AList.insert (itemPath formattingDevice.diskDirectory "b") (List.replicate (2 ^ 20) 0) ∅)⟩⟩

/-- The second file cannot be removed. -/
def secondLocked : FileFaults :=
  { FileFaults.none with
    removeItem := fun path => path == itemPath formattingDevice.diskDirectory "b" }

theorem twoFiles_listed : twoFiles.diskCache.contentsOfDirectory secondLocked
    formattingDevice.diskDirectory = some ["a", "b"] := by
  decide

theorem twoFiles_size (path : String) :
    twoFiles.diskCache.size path = 0 ∨ twoFiles.diskCache.size path = 2 ^ 20 := by
  rw [FileManager.size, FileManager.contents, twoFiles]
  by_cases ha : path = itemPath formattingDevice.diskDirectory "a"
  · rw [ha, AList.lookup_insert, Option.map_some, Option.getD_some, List.length_replicate]
    exact Or.inr rfl
  rw [AList.lookup_insert_ne ha]
  by_cases hb : path = itemPath formattingDevice.diskDirectory "b"
  · rw [hb, AList.lookup_insert, Option.map_some, Option.getD_some, List.length_replicate]
    exact Or.inr rfl
  rw [AList.lookup_insert_ne hb]
  exact Or.inl rfl

theorem twoFiles_readable : twoFiles.ReadableSizes formattingDevice := by
  intro name
  rw [FileManager.ReadableSize]
  rcases twoFiles_size (itemPath formattingDevice.diskDirectory name) with h | h
  · rw [h]
    rfl
  · rw [h]
    decide +kernel

theorem clearDiskCache_reports_iff_twoFiles : ∃ m' size,
    twoFiles.clearDiskCache formattingDevice secondLocked = some (m', size) ∧
      (size = twoFiles.formattedSize formattingDevice
          (secondLocked.beforeFailure formattingDevice.diskDirectory ["a", "b"]) ↔
        ∀ name ∈ ["a", "b"],
          secondLocked.throwsOn formattingDevice.diskDirectory name = false) := by
  obtain ⟨m', size, hclear, _, _, hreports⟩ :=
    clearDiskCache_reports_iff formattingDevice_writesFraction twoFiles_readable twoFiles_listed
  exact ⟨m', size, hclear, hreports⟩

/-- One mebibyte has been removed when the second file turns out to be locked, and "0" is
reported. -/
theorem failed_clearing_reports_nothing : ∃ m',
    twoFiles.clearDiskCache formattingDevice secondLocked = some (m', "0") ∧
      m'.diskCache.fileExists (itemPath formattingDevice.diskDirectory "a") = false ∧
      twoFiles.formattedSize formattingDevice ["a"] = "1.0" := by
  have hremoved :
      secondLocked.beforeFailure formattingDevice.diskDirectory ["a", "b"] = ["a"] := by decide
  have hlocked : ¬ ∀ name ∈ ["a", "b"],
      secondLocked.throwsOn formattingDevice.diskDirectory name = false := by decide
  have hclear := clearDiskCache_eq twoFiles_readable twoFiles_listed
  rw [if_neg hlocked, hremoved] at hclear
  refine ⟨_, hclear, ?_, ?_⟩
  · exact (Bool.not_eq_true _).mp fun hexists =>
      (FileManager.fileExists_erase_iff.mp hexists).1 rfl
  · have hsize :
        twoFiles.diskCache.size (itemPath formattingDevice.diskDirectory "a") = 2 ^ 20 := by
      rw [FileManager.size, FileManager.contents, twoFiles, AList.lookup_insert, Option.map_some,
        Option.getD_some, List.length_replicate]
    have htotal : twoFiles.diskCache.folderSize formattingDevice.diskDirectory ["a"] / 1024 / 1024 =
        1 := by
      rw [FileManager.folderSize, List.map_singleton, List.sum_singleton, hsize]
      norm_num
    rw [formattedSize, htotal]
    decide +kernel

end VideoCacheManager

end TiktokClone
