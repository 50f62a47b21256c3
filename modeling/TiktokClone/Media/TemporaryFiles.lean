import Mathlib.Data.List.Perm.Subperm
import TiktokClone.Foundation.FileManager
import TiktokClone.Library.Machine
import TiktokClone.Media.MediaViewController
import TiktokClone.Post.Posting

/-!
# Temporary recordings

Every camera screen queues a clean-up of the temporary directory when it opens. The
block empties the string that holds the directory's path and touches no file, so every
recording of the app's life stays. The directory is tidy exactly as long as all earlier
recordings happen to be read by uploads whenever a screen is cleaned up, and the uploads
of these do not end.
-/

namespace TiktokClone

open Library

namespace CameraManager

/-- `tempFilePath`, by the description of the current date. The path of the temporary directory
ends in a slash. -/
def tempFilePath (temporaryDirectory date : String) : String :=
  temporaryDirectory ++ "tempMovie" ++ date ++ "." ++ VIDEO_FILE_EXTENSION

/-- The block that `removeAllTempFiles` leaves on `sessionQueue`: `directory.removeAll()` on the
captured string. -/
def removeAllTempFilesBlock (_directory : String) (files : FileManager) : String × FileManager :=
  ("", files)

/-- A recording makes its file, unless there is one at the path: then it fails. -/
def recordTo (files : FileManager) (path : String) (data : Data) : Option FileManager :=
  if files.fileExists path then none else some (files.createFile path (some data))

end CameraManager

/-- A recording and the camera screen that made it. -/
structure TempRecording where
  path : String
  screen : Nat
  deriving DecidableEq, Repr

/-- The temporary directory with the camera screens, numbered from one, and the uploads. -/
structure TemporaryFiles where
  files : FileManager
  /-- The number of the current camera screen. -/
  opened : Nat
  /-- The screens whose clean-up waits on their `sessionQueue`. -/
  cleanUps : List Nat
  /-- All recordings made so far. -/
  recordings : List TempRecording
  /-- The files that the uploads in flight read. -/
  uploads : List String

inductive TempFileEvent
  /-- Another camera screen opens. -/
  | viewDidLoad
  /-- The clean-up block of a screen runs. -/
  | runCleanUp (screen : Nat)
  /-- The current screen records; the date is that of the start. -/
  | record (date : String) (data : Data)
  /-- The upload of a recording starts. -/
  | publish (path : String)
  | uploadEnded (path : String)
  deriving DecidableEq, Repr

/-- The life of the app, which finds the temporary directory empty. -/
def temporaryFiles (temporaryDirectory : String) : Machine TemporaryFiles TempFileEvent where
  start := ⟨⟨∅⟩, 0, [], [], []⟩
  next s
    | .viewDidLoad =>
      some { s with opened := s.opened + 1, cleanUps := s.cleanUps ++ [s.opened + 1] }
    | .runCleanUp screen =>
      if screen ∈ s.cleanUps then
        some { s with
          cleanUps := s.cleanUps.erase screen
          files := (CameraManager.removeAllTempFilesBlock temporaryDirectory s.files).2 }
      else none
    | .record date data =>
      if s.opened = 0 then none
      else
        let path := CameraManager.tempFilePath temporaryDirectory date
        match CameraManager.recordTo s.files path data with
        | none => some s
        | some files =>
          some { s with files := files, recordings := s.recordings ++ [⟨path, s.opened⟩] }
    | .publish path =>
      if s.files.fileExists path then some { s with uploads := s.uploads ++ [path] } else none
    | .uploadEnded path =>
      if path ∈ s.uploads then some { s with uploads := s.uploads.erase path } else none

namespace TemporaryFiles

/-- The clean-up of the current screen has run. -/
def Cleaned (s : TemporaryFiles) : Prop := s.opened ∉ s.cleanUps

/-- The recordings whose files are there. -/
def kept (s : TemporaryFiles) : List TempRecording :=
  s.recordings.filter fun recording => s.files.fileExists recording.path

/-- Of the earlier screens' recordings only those are left that an upload reads, so that the
recordings are bounded; and no upload has lost its file. -/
structure Tidy (s : TemporaryFiles) : Prop where
  noLeftover : s.Cleaned → ∀ recording ∈ s.kept, recording.screen < s.opened →
    recording.path ∈ s.uploads
  readable : ∀ path ∈ s.uploads, s.files.fileExists path = true
  bounded : s.Cleaned → s.kept.length ≤
    (s.kept.filter fun recording => recording.screen = s.opened).length + s.uploads.length

/-- When the current screen is cleaned up, every earlier recording is being uploaded, and from
then on no upload of an earlier recording is the last of its file to end. -/
def UploadsOutlast (s : TemporaryFiles) : TempFileEvent → Prop
  | .runCleanUp screen => screen = s.opened → ∀ recording ∈ s.recordings,
      recording.screen < s.opened → recording.path ∈ s.uploads
  | .uploadEnded path => s.Cleaned → ∀ recording ∈ s.recordings,
      recording.path = path → recording.screen < s.opened → path ∈ s.uploads.erase path
  | _ => True

/-- What holds in every state: no recording is ever removed. -/
structure Piled (s : TemporaryFiles) : Prop where
  exists_of_mem : ∀ recording ∈ s.recordings, s.files.fileExists recording.path = true
  paths : (s.recordings.map TempRecording.path).Nodup
  screen_le : ∀ recording ∈ s.recordings, recording.screen ≤ s.opened
  cleanUp_le : ∀ screen ∈ s.cleanUps, screen ≤ s.opened
  cleanUps : s.cleanUps.Nodup
  readable : ∀ path ∈ s.uploads, s.files.fileExists path = true

variable {temporaryDirectory : String} {s t : TemporaryFiles} {e : TempFileEvent}

theorem Piled.kept_eq (h : Piled s) : s.kept = s.recordings :=
  List.filter_eq_self.mpr h.exists_of_mem

/-- A file that is made leaves the others where they are. -/
theorem fileExists_recordTo {files files' : FileManager} {path : String} {data : Data}
    (h : CameraManager.recordTo files path data = some files') :
    files.fileExists path = false ∧
      ∀ other, files'.fileExists other = true ↔ other = path ∨ files.fileExists other = true := by
  rw [CameraManager.recordTo, Option.ite_none_left_eq_some, Bool.not_eq_true] at h
  obtain ⟨hnew, hfiles⟩ := h
  obtain rfl := Option.some.inj hfiles
  refine ⟨hnew, fun other => ?_⟩
  rw [FileManager.createFile, FileManager.fileExists, FileManager.fileExists, AList.lookup_isSome,
    AList.lookup_isSome, AList.mem_insert]

/-- A recording is made under a new path, or nothing happens. -/
theorem record_cases {date : String} {data : Data}
    (hn : (temporaryFiles temporaryDirectory).next s (.record date data) = some t) :
    t = s ∨ ∃ path files, CameraManager.recordTo s.files path data = some files ∧
      t = { s with files := files, recordings := s.recordings ++ [⟨path, s.opened⟩] } := by
  obtain ⟨_, hn⟩ := Option.ite_none_left_eq_some.mp hn
  cases hrecord : CameraManager.recordTo s.files
      (CameraManager.tempFilePath temporaryDirectory date) data with
  | none =>
    simp only [hrecord] at hn
    exact Or.inl (Option.some.inj hn).symm
  | some files =>
    simp only [hrecord] at hn
    exact Or.inr ⟨_, files, hrecord, (Option.some.inj hn).symm⟩

/-- A new recording has a path of its own. -/
theorem Piled.recorded (h : Piled s) {path : String} {data : Data} {files : FileManager}
    (hrecord : CameraManager.recordTo s.files path data = some files) :
    Piled { s with files := files, recordings := s.recordings ++ [⟨path, s.opened⟩] } := by
  obtain ⟨hnew, hfiles⟩ := fileExists_recordTo hrecord
  have hfresh : path ∉ s.recordings.map TempRecording.path := by
    intro hmem
    obtain ⟨recording, hr, rfl⟩ := List.mem_map.mp hmem
    rw [h.exists_of_mem recording hr] at hnew
    cases hnew
  refine ⟨fun recording hr => ?_, ?_, fun recording hr => ?_, h.cleanUp_le, h.cleanUps,
    fun path hpath => (hfiles path).mpr (Or.inr (h.readable path hpath))⟩
  · rcases List.mem_append.mp hr with hold | hlast
    · exact (hfiles _).mpr (Or.inr (h.exists_of_mem recording hold))
    · obtain rfl := List.mem_singleton.mp hlast
      exact (hfiles _).mpr (Or.inl rfl)
  · rw [List.map_append]
    exact h.paths.append (List.nodup_singleton _) (List.disjoint_singleton.mpr hfresh)
  · rcases List.mem_append.mp hr with hold | hlast
    · exact h.screen_le recording hold
    · obtain rfl := List.mem_singleton.mp hlast
      exact le_refl _

theorem Piled.next (h : Piled s) (hn : (temporaryFiles temporaryDirectory).next s e = some t) :
    Piled t := by
  cases e with
  | viewDidLoad =>
    obtain rfl := Option.some.inj hn
    have hnew : s.opened + 1 ∉ s.cleanUps := fun hmem => by
      have hle := h.cleanUp_le _ hmem
      omega
    refine ⟨h.exists_of_mem, h.paths, fun recording hr => (h.screen_le recording hr).trans
      (Nat.le_succ _), fun screen hscreen => ?_, ?_, h.readable⟩
    · rcases List.mem_append.mp hscreen with hold | hlast
      · exact (h.cleanUp_le screen hold).trans (Nat.le_succ _)
      · exact (List.mem_singleton.mp hlast).le
    · exact h.cleanUps.append (List.nodup_singleton _) (List.disjoint_singleton.mpr hnew)
  | runCleanUp screen =>
    obtain ⟨_, rfl⟩ := Option.ite_some_none_eq_some.mp hn
    exact ⟨h.exists_of_mem, h.paths, h.screen_le,
      fun other hother => h.cleanUp_le other (List.mem_of_mem_erase hother),
      h.cleanUps.erase screen, h.readable⟩
  | record date data =>
    rcases record_cases hn with rfl | ⟨path, files, hrecord, rfl⟩
    · exact h
    exact h.recorded hrecord
  | publish path =>
    obtain ⟨hexists, rfl⟩ := Option.ite_some_none_eq_some.mp hn
    refine ⟨h.exists_of_mem, h.paths, h.screen_le, h.cleanUp_le, h.cleanUps, fun other hother => ?_⟩
    rcases List.mem_append.mp hother with hold | hlast
    · exact h.readable other hold
    · exact List.mem_singleton.mp hlast ▸ hexists
  | uploadEnded path =>
    obtain ⟨_, rfl⟩ := Option.ite_some_none_eq_some.mp hn
    exact ⟨h.exists_of_mem, h.paths, h.screen_le, h.cleanUp_le, h.cleanUps,
      fun other hother => h.readable other (List.mem_of_mem_erase hother)⟩

theorem Piled.of_reachable (h : (temporaryFiles temporaryDirectory).Reachable s) : Piled s := by
  obtain ⟨events, hrun⟩ := h
  have hstart : Piled (temporaryFiles temporaryDirectory).start := by
    refine ⟨?_, List.nodup_nil, ?_, ?_, List.nodup_nil, ?_⟩
    all_goals exact fun _ hmem => absurd hmem List.not_mem_nil
  exact hrun.invariant hstart fun _ _ _ hs hn => hs.next hn

/-- The earlier recordings are read by uploads, once the current screen is cleaned up. -/
def NoLeftover (s : TemporaryFiles) : Prop :=
  s.Cleaned → ∀ recording ∈ s.recordings, recording.screen < s.opened →
    recording.path ∈ s.uploads

/-- The bound follows: the earlier recordings are different files that uploads read. -/
theorem Piled.tidy_iff (h : Piled s) : Tidy s ↔ s.NoLeftover := by
  constructor
  · intro htidy hcleaned recording hr
    exact htidy.noLeftover hcleaned recording (h.kept_eq ▸ hr)
  · intro hno
    refine ⟨fun hcleaned recording hr => hno hcleaned recording (h.kept_eq ▸ hr), h.readable,
      fun hcleaned => ?_⟩
    let current := fun recording : TempRecording => decide (recording.screen = s.opened)
    have hsplit : s.recordings.length = (s.recordings.filter current).length +
        (s.recordings.filter fun recording => !current recording).length :=
      List.length_eq_length_filter_add current
    have hearlier : (s.recordings.filter fun recording => !current recording).length ≤
        s.uploads.length := by
      rw [← List.length_map TempRecording.path]
      refine (List.subperm_of_subset (h.paths.sublist (List.filter_sublist.map _)) ?_).length_le
      intro path hpath
      obtain ⟨recording, hr, rfl⟩ := List.mem_map.mp hpath
      obtain ⟨hr, hother⟩ := List.mem_filter.mp hr
      have hne : recording.screen ≠ s.opened := by simpa [current] using hother
      exact hno hcleaned recording hr (lt_of_le_of_ne (h.screen_le recording hr) hne)
    rw [h.kept_eq, hsplit]
    exact Nat.add_le_add_left hearlier _

/-- A step from a tidy state is tidy exactly when it meets the condition. -/
theorem Piled.noLeftover_next_iff (h : Piled s) (hs : s.NoLeftover)
    (hn : (temporaryFiles temporaryDirectory).next s e = some t) :
    t.NoLeftover ↔ s.UploadsOutlast e := by
  cases e with
  | viewDidLoad =>
    obtain rfl := Option.some.inj hn
    refine iff_of_true (fun hcleaned => absurd ?_ hcleaned) trivial
    exact List.mem_append_right _ (List.mem_singleton_self _)
  | runCleanUp screen =>
    obtain ⟨_, rfl⟩ := Option.ite_some_none_eq_some.mp hn
    by_cases hscreen : screen = s.opened
    · have hcleaned : s.opened ∉ s.cleanUps.erase screen := hscreen ▸ h.cleanUps.not_mem_erase
      exact ⟨fun hno _ => hno hcleaned, fun hall _ => hall hscreen⟩
    · refine iff_of_true (fun hcleaned => hs fun hmem => hcleaned ?_) fun heq => absurd heq hscreen
      exact (List.mem_erase_of_ne (Ne.symm hscreen)).mpr hmem
  | record date data =>
    refine iff_of_true ?_ trivial
    rcases record_cases hn with rfl | ⟨path, files, _, rfl⟩
    · exact hs
    intro hcleaned recording hr hearlier
    rcases List.mem_append.mp hr with hold | hlast
    · exact hs hcleaned recording hold hearlier
    · obtain rfl := List.mem_singleton.mp hlast
      exact absurd hearlier (lt_irrefl _)
  | publish path =>
    obtain ⟨_, rfl⟩ := Option.ite_some_none_eq_some.mp hn
    exact iff_of_true (fun hcleaned recording hr hearlier =>
      List.mem_append_left _ (hs hcleaned recording hr hearlier)) trivial
  | uploadEnded path =>
    obtain ⟨_, rfl⟩ := Option.ite_some_none_eq_some.mp hn
    constructor
    · rintro hno hcleaned recording hr rfl hearlier
      exact hno hcleaned recording hr hearlier
    · intro hlast hcleaned recording hr hearlier
      by_cases hpath : recording.path = path
      · exact hpath ▸ hlast hcleaned recording hr hpath hearlier
      · exact (List.mem_erase_of_ne hpath).mpr (hs hcleaned recording hr hearlier)

end TemporaryFiles

/-- The temporary directory stays tidy exactly in the runs in which uploads of all the earlier
recordings are in flight whenever the current screen is cleaned up and from then on. -/
theorem temporary_files_tidy_iff {temporaryDirectory : String} {events : List TempFileEvent}
    {s : TemporaryFiles} (hrun : (temporaryFiles temporaryDirectory).Run events s) :
    (temporaryFiles temporaryDirectory).AllStates TemporaryFiles.Tidy events ↔
      (temporaryFiles temporaryDirectory).AllSteps TemporaryFiles.UploadsOutlast events := by
  have hstart : (temporaryFiles temporaryDirectory).start.Tidy := by
    refine (TemporaryFiles.Piled.of_reachable ⟨[], .nil⟩).tidy_iff.mpr fun _ recording hr => ?_
    exact absurd hr List.not_mem_nil
  refine hrun.allStates_iff_allSteps hstart fun s e t hs htidy hn => ?_
  have hpiled := TemporaryFiles.Piled.of_reachable hs
  rw [(hpiled.next hn).tidy_iff]
  exact hpiled.noLeftover_next_iff (hpiled.tidy_iff.mp htidy) hn

/-- The recording of the first screen is uploaded while the second screen opens. -/
def uploadedMeanwhile : List TempFileEvent :=
  [.viewDidLoad, .runCleanUp 1, .record "2020-10-01 12:00:00 +0000" [0],
    .publish "/tmp/tempMovie2020-10-01 12:00:00 +0000.mp4", .viewDidLoad, .runCleanUp 2]

theorem temporary_files_tidy_iff_uploadedMeanwhile :
    (temporaryFiles "/tmp/").AllStates TemporaryFiles.Tidy uploadedMeanwhile ↔
      (temporaryFiles "/tmp/").AllSteps TemporaryFiles.UploadsOutlast uploadedMeanwhile := by
  have hrun : ((temporaryFiles "/tmp/").exec uploadedMeanwhile).isSome = true := by decide
  obtain ⟨s, hs⟩ := Option.isSome_iff_exists.mp hrun
  exact temporary_files_tidy_iff (Machine.run_iff_exec.mpr hs)

/-- The clean-up of the second screen leaves the unpublished recording of the first one. -/
theorem unpublished_recording_stays : ∃ s,
    (temporaryFiles "/tmp/").Run [.viewDidLoad, .runCleanUp 1,
      .record "2020-10-01 12:00:00 +0000" [0], .viewDidLoad, .runCleanUp 2] s ∧
    s.uploads = [] ∧
    s.kept = [⟨"/tmp/tempMovie2020-10-01 12:00:00 +0000.mp4", 1⟩] ∧ ¬ s.Tidy := by
  refine ⟨_, Machine.run_iff_exec.mpr rfl, rfl, ?_, fun htidy => ?_⟩
  · decide
  · have hcleaned : 2 ∉ ([] : List Nat) := List.not_mem_nil
    exact List.not_mem_nil (htidy.noLeftover hcleaned
      ⟨"/tmp/tempMovie2020-10-01 12:00:00 +0000.mp4", 1⟩ (by decide) (by decide))

end TiktokClone
