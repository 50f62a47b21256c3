import TiktokClone.Media.Recording
import TiktokClone.Post.Firebase

/-!
# The captured video

From the recording the user goes on to posting as often as he likes, and each time the video
is also saved to the photo library: at once, or after the user has been asked for access. The
answers, the saves on the session queue and the library's own changes come in any order, and
the camera manager may be gone by then. A screen that is opened with both permissions granted
is set up once, so it captures one video at most, and every step of it onwards is accounted for.
-/

namespace TiktokClone

open Library

/-- The camera screen with the posting screens that it has pushed and with what it has asked
of the photo library. -/
structure CaptureScreen extends RecordingScreen where
  /-- The posting screens, as they were pushed. -/
  posting : List MediaPostingViewController
  /-- The videos whose access requests wait for the user. -/
  requests : List URL
  /-- The saves that wait on `sessionQueue`. -/
  saves : List URL
  /-- The changes that the photo library performs. -/
  changes : List URL
  library : List URL
  /-- The videos that were refused, dropped or failed to be saved. -/
  unsaved : List URL
  /-- The camera manager exists. -/
  isAlive : Bool

namespace CaptureScreen

/-- `saveToLibrary(videoURL:)`, by the authorization status. -/
def saveToLibrary (s : CaptureScreen) (videoURL : URL) (authorized : Bool) : CaptureScreen :=
  if authorized then { s with saves := s.saves ++ [videoURL] }
  else { s with requests := s.requests ++ [videoURL] }

def navigateToPosting (s : CaptureScreen) (authorized : Bool) : CaptureScreen :=
  match s.videoURL with
  | none => s
  | some videoURL =>
    let s := s.saveToLibrary videoURL authorized
    { s with posting := s.posting ++ [⟨some videoURL, true, [], 0⟩] }

end CaptureScreen

inductive CaptureEvent
  | recording (e : RecordingEvent)
  /-- A tap on the next button. -/
  | navigateToPosting (authorized : Bool)
  /-- The user answers the access request at a position. -/
  | requestAnswered (i : Nat) (authorized : Bool)
  /-- The session queue runs its first save. -/
  | runSave
  /-- The photo library has performed the change at a position. -/
  | changesPerformed (i : Nat) (error : Option String)
  /-- The dismissed screen and its camera manager are released. -/
  | release

/-- The screen from its opening on. A button without opacity gets no taps; an open access
request keeps the camera manager. -/
def capture (devices : Bool) : Machine CaptureScreen CaptureEvent where
  start := ⟨(recorder devices).start, [], [], [], [], [], [], true⟩
  next s
    | .recording e =>
      if s.isAlive then ((recorder devices).next s.toRecordingScreen e).map fun screen =>
        { s with toRecordingScreen := screen }
      else none
    | .navigateToPosting authorized =>
      if s.isAlive ∧ s.nextBtnAlpha ≠ 0 then some (s.navigateToPosting authorized) else none
    | .requestAnswered i authorized =>
      s.requests[i]?.map fun videoURL =>
        let s := { s with requests := s.requests.eraseIdx i }
        if authorized then { s with saves := s.saves ++ [videoURL] }
        else { s with unsaved := s.unsaved ++ [videoURL] }
    | .runSave =>
      match s.saves with
      | [] => none
      | videoURL :: saves =>
        let s := { s with saves := saves }
        some (if s.isAlive then { s with changes := s.changes ++ [videoURL] }
          else { s with unsaved := s.unsaved ++ [videoURL] })
    | .changesPerformed i error =>
      s.changes[i]?.map fun videoURL =>
        let s := { s with changes := s.changes.eraseIdx i }
        match error with
        | none => { s with library := s.library ++ [videoURL] }
        | some _ => { s with unsaved := s.unsaved ++ [videoURL] }
    | .release => if s.requests = [] then some { s with isAlive := false } else none

/-! ### One video -/

/-- The screen has no video, or its recording is over and the video stays. -/
inductive Captured (s : RecordingScreen) : Prop
  | nothing (video : s.videoURL = none) (button : s.nextBtnAlpha = 0)
  | captured (url : URL) (video : s.videoURL = some url) (button : s.nextBtnAlpha = 1)
      (recordView : s.recordViewIsHidden = true) (reports : s.reports = 0)
      (recording : s.cameraManager.isRecording = false)

section Captured

variable {devices : Bool} {s t : RecordingScreen} {e : RecordingEvent}

/-- Before there is a video, only a report without an error makes one. -/
theorem Captured.next_of_none (hvideo : s.videoURL = none) (hbutton : s.nextBtnAlpha = 0)
    (hs : Stage s) (hset : SetUpOnce s) (hn : (recorder devices).next s e = some t) :
    Captured t := by
  cases e with
  | runSetupBlock =>
    obtain ⟨_, _, _, _, ht⟩ := hset.runSetupBlock hn
    rw [ht]
    exact .nothing hvideo hbutton
  | began =>
    obtain ⟨_, rfl⟩ := Option.ite_some_none_eq_some.mp hn
    exact .nothing hvideo hbutton
  | changed =>
    obtain ⟨_, rfl⟩ := Option.ite_some_none_eq_some.mp hn
    exact .nothing hvideo hbutton
  | ended =>
    obtain ⟨_, rfl⟩ := Option.ite_some_none_eq_some.mp hn
    exact .nothing hvideo hbutton
  | recordingEnds =>
    obtain ⟨_, rfl⟩ := Option.ite_some_none_eq_some.mp hn
    exact .nothing hvideo hbutton
  | fileOutput outputFileURL error =>
    simp only [recorder] at hn
    split at hn
    · cases hn
    · rename_i reports hreports
      obtain rfl := Option.some.inj hn
      cases error with
      | some error => exact .nothing hvideo hbutton
      | none =>
        cases hs with
        | reporting _ _ _ hone hrecording =>
          have hzero : reports = 0 := by omega
          exact .captured outputFileURL rfl rfl rfl hzero hrecording
        | untouched _ _ _ hzero | recording _ _ _ hzero | stuck _ _ hzero | finished _ _ hzero =>
          omega
  | startFailed outputFileURL error =>
    obtain rfl := Option.some.inj hn
    exact .nothing hvideo hbutton

/-- The video stays, and nothing is recorded any more. -/
theorem Captured.next_of_one {url : URL} (hvideo : s.videoURL = some url)
    (hbutton : s.nextBtnAlpha = 1) (hview : s.recordViewIsHidden = true) (hreports : s.reports = 0)
    (hrecording : s.cameraManager.isRecording = false) (hset : SetUpOnce s)
    (hn : (recorder devices).next s e = some t) : Captured t ∧ t.videoURL = some url := by
  cases e with
  | runSetupBlock =>
    obtain ⟨_, _, _, hidle, ht⟩ := hset.runSetupBlock hn
    rw [ht]
    exact ⟨.captured url hvideo hbutton hview hreports hidle, hvideo⟩
  | began =>
    obtain ⟨⟨_, hvisible, _⟩, _⟩ := Option.ite_some_none_eq_some.mp hn
    rw [hview] at hvisible
    cases hvisible
  | changed =>
    obtain ⟨_, rfl⟩ := Option.ite_some_none_eq_some.mp hn
    exact ⟨.captured url hvideo hbutton hview hreports hrecording, hvideo⟩
  | ended =>
    obtain ⟨_, rfl⟩ := Option.ite_some_none_eq_some.mp hn
    have hsame : s.ended.reports = 0 := by
      rw [RecordingScreen.ended, hrecording]
      exact hreports
    exact ⟨.captured url hvideo hbutton hview hsame
      s.cameraManager.stopRecording_isRecording, hvideo⟩
  | recordingEnds =>
    obtain ⟨hbusy, _⟩ := Option.ite_some_none_eq_some.mp hn
    rw [hrecording] at hbusy
    cases hbusy
  | fileOutput outputFileURL error =>
    simp only [recorder, hreports] at hn
    cases hn
  | startFailed outputFileURL error =>
    obtain rfl := Option.some.inj hn
    exact ⟨.captured url hvideo hbutton hview hreports hrecording, hvideo⟩

end Captured

/-! ### What becomes of it -/

/-- The videos that were to be saved, wherever they are by now. -/
def CaptureScreen.toSave (s : CaptureScreen) : List URL :=
  s.requests ++ s.saves ++ s.changes ++ s.library ++ s.unsaved

/-- Every tap has pushed one posting screen and asked once for the video to be saved, and all
of this is about the one video of the screen. -/
structure Accounted (s : CaptureScreen) : Prop where
  captured : Captured s.toRecordingScreen
  screens : ∀ c ∈ s.posting, c.videoURL = s.videoURL
  videos : ∀ url ∈ s.toSave, s.videoURL = some url
  length : s.posting.length = s.toSave.length

section Accounted

variable {devices : Bool} {s t : CaptureScreen} {e : CaptureEvent}

theorem recorder_of_next (hn : (capture devices).next s e = some t) :
    t.toRecordingScreen = s.toRecordingScreen ∨
      ∃ e', (recorder devices).next s.toRecordingScreen e' = some t.toRecordingScreen := by
  cases e with
  | recording e =>
    obtain ⟨_, hn⟩ := Option.ite_none_right_eq_some.mp hn
    obtain ⟨screen, hscreen, rfl⟩ := Option.map_eq_some_iff.mp hn
    exact Or.inr ⟨e, hscreen⟩
  | navigateToPosting authorized =>
    obtain ⟨_, rfl⟩ := Option.ite_some_none_eq_some.mp hn
    refine Or.inl ?_
    rw [CaptureScreen.navigateToPosting]
    split
    · rfl
    · cases authorized <;> rfl
  | requestAnswered i authorized =>
    obtain ⟨url, _, rfl⟩ := Option.map_eq_some_iff.mp hn
    cases authorized <;> exact Or.inl rfl
  | runSave =>
    simp only [capture] at hn
    split at hn
    · cases hn
    · obtain rfl := Option.some.inj hn
      split <;> exact Or.inl rfl
  | changesPerformed i error =>
    obtain ⟨url, _, rfl⟩ := Option.map_eq_some_iff.mp hn
    cases error <;> exact Or.inl rfl
  | release =>
    obtain ⟨_, rfl⟩ := Option.ite_some_none_eq_some.mp hn
    exact Or.inl rfl

theorem recorder_of_reachable (h : (capture devices).Reachable s) :
    (recorder devices).Reachable s.toRecordingScreen := by
  obtain ⟨_, hrun⟩ := h
  refine hrun.invariant (I := fun s => (recorder devices).Reachable s.toRecordingScreen)
    ⟨[], .nil⟩ fun s e t hs hn => ?_
  rcases recorder_of_next hn with he | ⟨e', hnext⟩
  · exact he ▸ hs
  · exact hs.next hnext

/-- Without a video nothing was to be saved, so no screen was pushed. -/
theorem Accounted.of_none (h : Accounted s) (hvideo : s.videoURL = none) :
    s.toSave = [] ∧ s.posting = [] := by
  have hsave : s.toSave = [] := List.eq_nil_iff_forall_not_mem.mpr fun url hm => by
    have hurl := h.videos url hm
    rw [hvideo] at hurl
    cases hurl
  have hlength := h.length
  rw [hsave, List.length_nil, List.length_eq_zero_iff] at hlength
  exact ⟨hsave, hlength⟩

/-- A step of the recording changes nothing of what has become of the video. -/
theorem Accounted.recording (h : Accounted s)
    (hr : (recorder devices).Reachable s.toRecordingScreen)
    {e : RecordingEvent} {screen : RecordingScreen}
    (hn : (recorder devices).next s.toRecordingScreen e = some screen) :
    Accounted { s with toRecordingScreen := screen } := by
  obtain ⟨hstage, hset⟩ := stage_of_reachable hr
  cases h.captured with
  | nothing hvideo hbutton =>
    obtain ⟨hsave, hpushed⟩ := h.of_none hvideo
    refine ⟨Captured.next_of_none hvideo hbutton hstage hset hn, fun c hc => ?_,
      fun url hm => ?_, h.length⟩
    · have hc' : c ∈ s.posting := hc
      rw [hpushed] at hc'
      cases hc'
    · have hm' : url ∈ s.toSave := hm
      rw [hsave] at hm'
      cases hm'
  | captured url hvideo hbutton hview hreports hrecording =>
    obtain ⟨hcaptured, hsame⟩ :=
      Captured.next_of_one hvideo hbutton hview hreports hrecording hset hn
    refine ⟨hcaptured, fun c hc => ?_, fun other hm => ?_, h.length⟩
    · rw [h.screens c hc, hvideo]
      exact hsame.symm
    · have hother := h.videos other hm
      rw [hvideo] at hother
      exact hsame.trans hother

/-- The videos to save are the same, if every place together holds as many of them. -/
theorem CaptureScreen.toSave_perm {saved : List URL}
    (h : ∀ url, t.requests.count url + t.saves.count url + t.changes.count url +
      t.library.count url + t.unsaved.count url = saved.count url) : t.toSave.Perm saved := by
  refine List.perm_iff_count.mpr fun url => ?_
  rw [← h, CaptureScreen.toSave]
  simp only [List.count_append]

theorem CaptureScreen.count_toSave (s : CaptureScreen) (url : URL) :
    s.toSave.count url = s.requests.count url + s.saves.count url + s.changes.count url +
      s.library.count url + s.unsaved.count url := by
  simp only [CaptureScreen.toSave, List.count_append]

/-- A video moves on from one place to another. -/
theorem Accounted.move (h : Accounted s) (hscreen : t.toRecordingScreen = s.toRecordingScreen)
    (hposting : t.posting = s.posting) (hperm : t.toSave.Perm s.toSave) : Accounted t where
  captured := hscreen ▸ h.captured
  screens := by
    rw [hposting, hscreen]
    exact h.screens
  videos url hm := by
    rw [hscreen]
    exact h.videos url (hperm.mem_iff.mp hm)
  length := by rw [hposting, h.length, hperm.length_eq]

/-- A tap pushes a posting screen, and the video is to be saved once more. -/
theorem Accounted.push (h : Accounted s) {url : URL} (hvideo : s.videoURL = some url)
    (hscreen : t.toRecordingScreen = s.toRecordingScreen)
    (hposting : t.posting = s.posting ++ [⟨some url, true, [], 0⟩])
    (hperm : t.toSave.Perm (url :: s.toSave)) : Accounted t where
  captured := hscreen ▸ h.captured
  screens c hc := by
    rw [hposting, List.mem_append, List.mem_singleton] at hc
    rw [hscreen]
    rcases hc with hold | rfl
    · exact h.screens c hold
    · exact hvideo.symm
  videos other hm := by
    rw [hscreen]
    rcases List.mem_cons.mp (hperm.mem_iff.mp hm) with rfl | hold
    · exact hvideo
    · exact h.videos other hold
  length := by
    rw [hposting, hperm.length_eq, List.length_append, List.length_cons, h.length]
    rfl

theorem Accounted.next (h : Accounted s) (hr : (capture devices).Reachable s)
    (hn : (capture devices).next s e = some t) : Accounted t := by
  cases e with
  | recording e =>
    obtain ⟨_, hn⟩ := Option.ite_none_right_eq_some.mp hn
    obtain ⟨screen, hscreen, rfl⟩ := Option.map_eq_some_iff.mp hn
    exact h.recording (recorder_of_reachable hr) hscreen
  | navigateToPosting authorized =>
    obtain ⟨_, rfl⟩ := Option.ite_some_none_eq_some.mp hn
    rw [CaptureScreen.navigateToPosting]
    split
    · exact h
    · rename_i videoURL hvideo
      refine h.push hvideo ?_ ?_ (CaptureScreen.toSave_perm fun a => ?_)
      · cases authorized <;> rfl
      · cases authorized <;> rfl
      · rw [List.count_cons, s.count_toSave]
        cases authorized <;>
          simp only [CaptureScreen.saveToLibrary, if_true, Bool.false_eq_true, if_false,
            List.count_append, List.count_singleton] <;> omega
  | requestAnswered i authorized =>
    obtain ⟨url, hi, rfl⟩ := Option.map_eq_some_iff.mp hn
    refine h.move ?_ ?_ (CaptureScreen.toSave_perm fun a => ?_)
    · cases authorized <;> rfl
    · cases authorized <;> rfl
    · have hcount := (perm_of_getElem? hi).count_eq a
      rw [List.count_cons] at hcount
      rw [s.count_toSave]
      cases authorized <;>
        simp only [if_true, Bool.false_eq_true, if_false, List.count_append,
          List.count_singleton] <;> omega
  | runSave =>
    simp only [capture] at hn
    split at hn
    · cases hn
    · rename_i url saves hsaves
      obtain rfl := Option.some.inj hn
      split
      · refine h.move rfl rfl (CaptureScreen.toSave_perm fun a => ?_)
        rw [s.count_toSave, hsaves, List.count_cons]
        simp only [List.count_append, List.count_singleton]
        omega
      · refine h.move rfl rfl (CaptureScreen.toSave_perm fun a => ?_)
        rw [s.count_toSave, hsaves, List.count_cons]
        simp only [List.count_append, List.count_singleton]
        omega
  | changesPerformed i error =>
    obtain ⟨url, hi, rfl⟩ := Option.map_eq_some_iff.mp hn
    refine h.move ?_ ?_ (CaptureScreen.toSave_perm fun a => ?_)
    · cases error <;> rfl
    · cases error <;> rfl
    · have hcount := (perm_of_getElem? hi).count_eq a
      rw [List.count_cons] at hcount
      rw [s.count_toSave]
      cases error <;> simp only [List.count_append, List.count_singleton] <;> omega
  | release =>
    obtain ⟨_, rfl⟩ := Option.ite_some_none_eq_some.mp hn
    exact ⟨h.captured, h.screens, h.videos, h.length⟩

theorem Accounted.of_reachable (h : (capture devices).Reachable s) : Accounted s := by
  obtain ⟨_, hrun⟩ := h
  induction hrun with
  | nil =>
    refine ⟨?_, fun _ hc => absurd hc List.not_mem_nil, fun _ hm => absurd hm List.not_mem_nil, rfl⟩
    cases devices <;> exact .nothing rfl rfl
  | snoc hr hn ih => exact ih.next ⟨_, hr⟩ hn

def CaptureEvent.isNavigation : CaptureEvent → Bool
  | navigateToPosting _ => true
  | recording _ | requestAnswered _ _ | runSave | changesPerformed _ _ | release => false

/-- The posting screens are pushed by taps alone, one by each. -/
theorem posting_length_next (h : Accounted s) (hn : (capture devices).next s e = some t) :
    t.posting.length = s.posting.length + if e.isNavigation then 1 else 0 := by
  cases e with
  | recording e =>
    obtain ⟨_, hn⟩ := Option.ite_none_right_eq_some.mp hn
    obtain ⟨screen, _, rfl⟩ := Option.map_eq_some_iff.mp hn
    rfl
  | navigateToPosting authorized =>
    obtain ⟨⟨_, hbutton⟩, rfl⟩ := Option.ite_some_none_eq_some.mp hn
    cases h.captured with
    | nothing _ hnone => exact absurd hnone hbutton
    | captured url hvideo =>
      simp only [CaptureScreen.navigateToPosting, hvideo]
      cases authorized <;> exact List.length_append
  | requestAnswered i authorized =>
    obtain ⟨url, _, rfl⟩ := Option.map_eq_some_iff.mp hn
    cases authorized <;> rfl
  | runSave =>
    simp only [capture] at hn
    split at hn
    · cases hn
    · obtain rfl := Option.some.inj hn
      split <;> rfl
  | changesPerformed i error =>
    obtain ⟨url, _, rfl⟩ := Option.map_eq_some_iff.mp hn
    cases error <;> rfl
  | release =>
    obtain ⟨_, rfl⟩ := Option.ite_some_none_eq_some.mp hn
    rfl

/-- The captured video is accounted for. In every run of a camera screen that is opened with
both permissions granted, the taps on the next button have pushed one posting screen each, all
with the one video that the screen captured; and that video alone is to be saved, once for every
tap: each time it waits for the user's permission, waits on the session queue, is being saved, is
in the photo library or was not saved. -/
theorem captured_video_accounted {events : List CaptureEvent} (h : (capture devices).Run events s) :
    s.posting.length = events.countP CaptureEvent.isNavigation ∧
      (∀ c ∈ s.posting, ∃ url, c.videoURL = some url ∧ s.videoURL = some url) ∧
      (∀ url ∈ s.requests ++ s.saves ++ s.changes ++ s.library ++ s.unsaved,
        s.videoURL = some url) ∧
      s.posting.length = s.requests.length + s.saves.length + s.changes.length +
        s.library.length + s.unsaved.length := by
  have hs := Accounted.of_reachable ⟨_, h⟩
  have hlength := hs.length
  simp only [CaptureScreen.toSave, List.length_append] at hlength
  refine ⟨?_, fun c hc => ?_, hs.videos, hlength⟩
  · clear hs hlength
    induction h with
    | nil => rfl
    | snoc hr hn ih =>
      rw [posting_length_next (.of_reachable ⟨_, hr⟩) hn, ih, List.countP_append,
        List.countP_singleton]
  · have hvideo := hs.screens c hc
    cases hs.captured with
    | nothing hnone =>
      rw [(hs.of_none hnone).2] at hc
      cases hc
    | captured url hurl => exact ⟨url, hvideo.trans hurl, hurl⟩

end Accounted

/-- A video is captured and posted twice; the user refuses the first access request. -/
def postedTwice : List CaptureEvent :=
  [.recording .runSetupBlock, .recording .began, .recording .ended,
    .recording (.fileOutput ⟨"file:v"⟩ none), .navigateToPosting false, .requestAnswered 0 false,
    .navigateToPosting true, .runSave, .changesPerformed 0 none]

theorem captured_video_accounted_postedTwice : ∃ s : CaptureScreen, s.library = [⟨"file:v"⟩] ∧
    s.posting.length = postedTwice.countP CaptureEvent.isNavigation ∧
      (∀ c ∈ s.posting, ∃ url, c.videoURL = some url ∧ s.videoURL = some url) ∧
      (∀ url ∈ s.requests ++ s.saves ++ s.changes ++ s.library ++ s.unsaved,
        s.videoURL = some url) ∧
      s.posting.length = s.requests.length + s.saves.length + s.changes.length +
        s.library.length + s.unsaved.length := by
  obtain ⟨s, hs, hlibrary⟩ : ∃ s, (capture true).Run postedTwice s ∧ s.library = [⟨"file:v"⟩] :=
    ⟨_, Machine.run_iff_exec.mpr rfl, rfl⟩
  exact ⟨s, hlibrary, captured_video_accounted hs⟩

end TiktokClone
