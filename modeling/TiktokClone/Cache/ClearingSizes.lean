import TiktokClone.Library.Significand
import TiktokClone.Cache.Clearing

/-!
# The sizes that clearing the disk cache survives

The forced cast of the loop is not an error that its `do` block could catch. The loop
reaches its end, with the directory empty and the total formatted, for exactly the
directories whose files all have a size with a significand of 24 bits.
-/

namespace TiktokClone

open Library

/-- The cast succeeds on the numbers with a significand of 24 bits. -/
theorem forcedFloat_isSome_iff (size : Nat) :
    (forcedFloat size).isSome = true ↔ FitsSignificand 24 size := by
  rw [fitsSignificand_succ_iff, forcedFloat]
  split
  · rename_i h
    exact iff_of_true rfl h
  · rename_i h
    exact iff_of_false Bool.false_ne_true h

namespace FileManager

variable {m : FileManager} {directory : String}

/-- The listed sizes are the sizes of the files below the directory. -/
theorem readableSizes_iff {names : List String}
    (h : m.contentsOfDirectory .none directory = some names) :
    (∀ name ∈ names, m.ReadableSize (itemPath directory name)) ↔
      ∀ name data, m.contents (itemPath directory name) = some data →
        FitsSignificand 24 data.length := by
  have hsize : ∀ name data, m.contents (itemPath directory name) = some data →
      (m.ReadableSize (itemPath directory name) ↔ FitsSignificand 24 data.length) := by
    intro name data hdata
    rw [ReadableSize, forcedFloat_isSome_iff, size, hdata, Option.map_some, Option.getD_some]
  constructor
  · intro hreadable name data hdata
    have hname : name ∈ names := (mem_contentsOfDirectory h).mpr (by
      rw [fileExists, ← contents, hdata, Option.isSome_some])
    exact (hsize name data hdata).mp (hreadable name hname)
  · intro hfits name hname
    obtain ⟨data, hdata⟩ := Option.isSome_iff_exists.mp ((mem_contentsOfDirectory h).mp hname)
    exact (hsize name data hdata).mpr (hfits name data hdata)

theorem contentsOfDirectory_eq_nil (h : ∀ name, m.contents (itemPath directory name) = none) :
    m.contentsOfDirectory .none directory = some [] := by
  obtain ⟨names, hnames⟩ : ∃ names, m.contentsOfDirectory .none directory = some names :=
    ⟨_, rfl⟩
  have hempty : names = [] := List.eq_nil_iff_forall_not_mem.mpr fun name hname => by
    have hexists := (mem_contentsOfDirectory hnames).mp hname
    rw [fileExists, ← contents, h name] at hexists
    cases hexists
  rw [hnames, hempty]

end FileManager

namespace VideoCacheManager

/-- Without faults the loop runs to its end: no trap, an empty directory, and the formatted
total of the listed sizes. -/
def ClearsDirectory (sys : CacheSystem) (m : VideoCacheManager) : Prop :=
  ∃ names m' size, m.diskCache.contentsOfDirectory .none sys.diskDirectory = some names ∧
    m.clearDiskCache sys .none = some (m', size) ∧
    m'.diskCache.contentsOfDirectory .none sys.diskDirectory = some [] ∧
    size = (sys.format (m.diskCache.folderSize sys.diskDirectory names / 1024 / 1024)).getD "0"

theorem clearsDirectory_iff_readable {sys : CacheSystem} {m : VideoCacheManager}
    {names : List String}
    (h : m.diskCache.contentsOfDirectory .none sys.diskDirectory = some names) :
    m.ClearsDirectory sys ↔
      ∀ name ∈ names, m.diskCache.ReadableSize (itemPath sys.diskDirectory name) := by
  obtain ⟨listed, hlisted, heq⟩ := m.clearDiskCache_none sys
  obtain rfl : listed = names := Option.some.inj (hlisted.symm.trans h)
  constructor
  · rintro ⟨_, m', size, _, hclear, _, _⟩
    rw [heq, Option.ite_none_right_eq_some] at hclear
    exact hclear.1
  · intro hreadable
    rw [if_pos hreadable] at heq
    have hempty := FileManager.contentsOfDirectory_eq_nil (clearDiskCache_spec heq).2
    exact ⟨listed, _, _, hlisted, heq, hempty, rfl⟩

/-- Files below sixteen mebibytes are never in the way. -/
theorem clearsDirectory_of_lt {sys : CacheSystem} {m : VideoCacheManager}
    (h : ∀ name data, m.diskCache.contents (itemPath sys.diskDirectory name) = some data →
      data.length < 2 ^ 24) : m.ClearsDirectory sys := by
  obtain ⟨names, hnames, _⟩ := m.clearDiskCache_none sys
  rw [clearsDirectory_iff_readable hnames, FileManager.readableSizes_iff hnames]
  exact fun name data hdata => fitsSignificand_of_lt (h name data hdata)

/-- Clearing the disk cache runs to its end exactly when every file below the directory has a
size with a significand of 24 bits. -/
theorem clearDiskCache_clears_iff (sys : CacheSystem) (m : VideoCacheManager) :
    m.ClearsDirectory sys ↔
      ∀ name data, m.diskCache.contents (itemPath sys.diskDirectory name) = some data →
        FitsSignificand 24 data.length := by
  obtain ⟨names, hnames, _⟩ := m.clearDiskCache_none sys
  rw [clearsDirectory_iff_readable hnames, FileManager.readableSizes_iff hnames]

/-- A file of one byte more than sixteen mebibytes makes the cast trap. -/
theorem clearDiskCache_traps : ∃ m : VideoCacheManager,
    m.diskCache.contents (itemPath CacheSystem.twoKeys.diskDirectory "v.mp4") =
      some (List.replicate (2 ^ 24 + 1) 0) ∧
    m.clearDiskCache .twoKeys .none = none ∧ ¬ m.ClearsDirectory .twoKeys := by
  let path := itemPath CacheSystem.twoKeys.diskDirectory "v.mp4"
  let m : VideoCacheManager := ⟨∅, ⟨AList.insert path (List.replicate (2 ^ 24 + 1) 0) ∅⟩⟩
  have hfile : m.diskCache.contents path = some (List.replicate (2 ^ 24 + 1) 0) :=
    AList.lookup_insert _
  obtain ⟨names, hnames, heq⟩ := m.clearDiskCache_none .twoKeys
  have hunreadable : ¬ ∀ name ∈ names,
      m.diskCache.ReadableSize (itemPath CacheSystem.twoKeys.diskDirectory name) := by
    rw [FileManager.readableSizes_iff hnames]
    intro hfits
    have hlength := hfits "v.mp4" _ hfile
    rw [List.length_replicate] at hlength
    exact not_fitsSignificand_two_pow_succ (by decide) hlength
  refine ⟨m, hfile, ?_, ?_⟩
  · rw [heq, if_neg hunreadable]
  · rwa [clearsDirectory_iff_readable hnames]

end VideoCacheManager

end TiktokClone
