import Mathlib.Data.List.AList
import Mathlib.Data.List.Infix
import TiktokClone.Foundation.Basic

/-!
# Files

The files that the cache's file manager sees, by path, with the few operations
that the cache calls. A directory lists the names of the paths that it prefixes.
Operations that can throw have no result when they do.
-/

namespace TiktokClone

/-- The files on disk. -/
structure FileManager where
  files : AList fun _ : String => Data

/-- The operations of the file manager that throw, by the path they are given. -/
structure FileFaults where
  contentsOfDirectory : String → Bool
  attributesOfItem : String → Bool
  removeItem : String → Bool

/-- No file operation throws. -/
def FileFaults.none : FileFaults := ⟨fun _ => false, fun _ => false, fun _ => false⟩

/-- The name under which a directory lists a path. -/
def itemName (directory path : String) : Option String :=
  if (directory ++ "/").toList <+: path.toList then
    some (.ofList (path.toList.drop (directory ++ "/").length))
  else Option.none

namespace FileManager

/-- `fileExists(atPath:)` -/
def fileExists (m : FileManager) (path : String) : Bool := (m.files.lookup path).isSome

/-- `createFile(atPath:contents:attributes:)`; absent contents make an empty file. -/
def createFile (m : FileManager) (path : String) (contents : Option Data) : FileManager :=
  ⟨m.files.insert path (contents.getD [])⟩

/-- `Data(contentsOf: URL(fileURLWithPath: path))` -/
def contents (m : FileManager) (path : String) : Option Data := m.files.lookup path

/-- `contentsOfDirectory(atPath:)` -/
def contentsOfDirectory (m : FileManager) (faults : FileFaults) (path : String) :
    Option (List String) :=
  if faults.contentsOfDirectory path then none else some (m.files.keys.filterMap (itemName path))

/-- The size in `attributesOfItem(atPath:)`. -/
def attributesOfItem (m : FileManager) (faults : FileFaults) (path : String) : Option Nat :=
  if faults.attributesOfItem path then none else (m.files.lookup path).map List.length

/-- `removeItem(atPath:)` -/
def removeItem (m : FileManager) (faults : FileFaults) (path : String) : Option FileManager :=
  if faults.removeItem path || !m.fileExists path then none else some ⟨m.files.erase path⟩

/-- A file that has been created holds the data, and the others are as before. -/
theorem contents_createFile {m : FileManager} {created path : String} {contents : Option Data}
    {data : Data} (h : (m.createFile created contents).contents path = some data) :
    path = created ∧ data = contents.getD [] ∨ m.contents path = some data := by
  by_cases hpath : path = created
  · rw [hpath, FileManager.contents, createFile, AList.lookup_insert] at h
    exact Or.inl ⟨hpath, (Option.some.inj h).symm⟩
  · rw [FileManager.contents, createFile, AList.lookup_insert_ne hpath] at h
    exact Or.inr h

/-- A file that is there after a removal was there before it. -/
theorem contents_removeItem {m m' : FileManager} {faults : FileFaults} {removed path : String}
    {data : Data} (h : m.removeItem faults removed = some m')
    (hd : m'.contents path = some data) : m.contents path = some data := by
  obtain ⟨_, hm⟩ := Option.ite_none_left_eq_some.mp h
  obtain rfl := Option.some.inj hm
  by_cases hpath : path = removed
  · rw [contents, hpath, AList.lookup_erase] at hd
    cases hd
  · exact (AList.lookup_erase_ne hpath).symm.trans hd

end FileManager

/-- A directory lists exactly the paths below it. -/
theorem itemName_eq_some_iff {directory path name : String} :
    itemName directory path = some name ↔ path = directory ++ "/" ++ name := by
  rw [itemName, Option.ite_none_right_eq_some, Option.some.injEq]
  constructor
  · rintro ⟨⟨rest, hrest⟩, rfl⟩
    rw [← hrest, ← String.length_toList, List.drop_left, ← String.toList_inj,
      String.toList_append, String.toList_ofList, hrest]
  · rintro rfl
    have htoList : (directory ++ "/" ++ name).toList = (directory ++ "/").toList ++ name.toList :=
      String.toList_append
    rw [htoList]
    refine ⟨List.prefix_append _ _, ?_⟩
    rw [← String.length_toList, List.drop_left, String.ofList_toList]

end TiktokClone
