import TiktokClone.Library.Machine
import TiktokClone.Media.MediaViewController

/-!
# Recording a video

The set-up of the camera, the long presses on the record button and the reports of the
movie output come in any order. A press hides the controls and only a report without an
error shows them again, so the screen stays usable exactly when every press that finds
nothing going on comes after the set-up and no report has an error.
-/

namespace TiktokClone

open Library

/-- The screen with its long press and with what the movie output owes to it. -/
structure RecordingScreen extends MediaViewController where
  /-- A long press is in progress. -/
  pressing : Bool
  /-- The recordings that have ended and whose end has not been reported. -/
  reports : Nat

inductive RecordingEvent
  | runSetupBlock
  | began
  | changed
  /-- The press is ended or cancelled. -/
  | ended
  /-- The output ends a recording by itself. -/
  | recordingEnds
  /-- The output reports the end of a recording. -/
  | fileOutput (outputFileURL : URL) (error : Option String)
  /-- The output reports that it did not start to record. -/
  | startFailed (outputFileURL : URL) (error : String)

namespace RecordingScreen

/-- `recordBtnPressed(sender:)` with a press that began. -/
def began (s : RecordingScreen) : RecordingScreen :=
  { s with toMediaViewController := s.startRecording, pressing := true }

/-- `recordBtnPressed(sender:)` with a press that ended or was cancelled. -/
def ended (s : RecordingScreen) : RecordingScreen :=
  { s with
    toMediaViewController := s.stopRecording
    pressing := false
    reports := if s.cameraManager.isRecording then s.reports + 1 else s.reports }

/-- A recording ends while its press goes on. -/
def recordingEnds (s : RecordingScreen) : RecordingScreen :=
  { s with
    toMediaViewController := { s.toMediaViewController with
      cameraManager := { s.cameraManager with movieOutput := some ⟨false⟩ } }
    reports := s.reports + 1 }

end RecordingScreen

/-- The screen with both permissions granted; `devices` tells whether camera and microphone
can be opened. A press begins on a visible button only. -/
def recorder (devices : Bool) : Machine RecordingScreen RecordingEvent where
  start := ⟨(MediaViewController.initial fun _ => true).setupView devices, false, 0⟩
  next s
    | .runSetupBlock =>
      match s.cameraManager.sessionQueue with
      | 0 => none
      | blocks + 1 => some { s with
          cameraManager := { s.cameraManager with sessionQueue := blocks }.runSetupBlock }
    | .began =>
      if s.pressing = false ∧ s.recordViewIsHidden = false ∧ 0 < s.recordGestures then
        some s.began
      else none
    | .changed => if s.pressing then some s else none
    | .ended => if s.pressing then some s.ended else none
    | .recordingEnds => if s.cameraManager.isRecording then some s.recordingEnds else none
    | .fileOutput outputFileURL error =>
      match s.reports with
      | 0 => none
      | reports + 1 => some { s with
          toMediaViewController := s.fileOutput outputFileURL error, reports := reports }
    | .startFailed outputFileURL error => some { s with
        toMediaViewController := s.fileOutput outputFileURL (some error) }

/-- Nothing is being recorded and no report is outstanding. -/
def Idle (s : RecordingScreen) : Prop := s.cameraManager.isRecording = false ∧ s.reports = 0

/-- A recorded video is ready. -/
def VideoReady (s : RecordingScreen) : Prop := s.videoURL.isSome = true ∧ s.nextBtnAlpha = 1

/-- A new press can start a recording as soon as the set-up has completed. -/
def CanRecord (s : RecordingScreen) : Prop :=
  s.recordViewIsHidden = false ∧ 0 < s.recordGestures ∧
    (s.cameraManager.movieOutput.isSome = true →
      s.cameraManager.startRecording.isRecording = true)

/-- Where nothing is going on, the user can leave, and go on with a video or record one. -/
def Untrapped (s : RecordingScreen) : Prop :=
  Idle s → s.exitBtnIsHidden = false ∧ (VideoReady s ∨ CanRecord s)

/-- A press begins only after the set-up has completed, and a recording ends without an error. -/
def RecordsInOrder (s : RecordingScreen) : RecordingEvent → Prop
  | .began => s.cameraManager.movieOutput.isSome = true
  | .fileOutput _ error => error = none
  | _ => True

/-- The stages of the screen. -/
inductive Stage (s : RecordingScreen) : Prop
  /-- No press has begun. -/
  | untouched (exit : s.exitBtnIsHidden = false) (button : s.recordViewIsHidden = false)
      (pressing : s.pressing = false) (reports : s.reports = 0)
      (recording : s.cameraManager.isRecording = false)
      (running : s.cameraManager.movieOutput.isSome = true → s.cameraManager.isRunning = true)
  /-- A press is being recorded. -/
  | recording (exit : s.exitBtnIsHidden = true) (button : s.recordViewIsHidden = false)
      (pressing : s.pressing = true) (reports : s.reports = 0)
      (recording : s.cameraManager.isRecording = true)
  /-- The one recording has ended and its report is outstanding. -/
  | reporting (exit : s.exitBtnIsHidden = true) (button : s.recordViewIsHidden = false)
      (stopped : s.pressing = true ∨ s.cameraManager.isRunning = false) (reports : s.reports = 1)
      (recording : s.cameraManager.isRecording = false)
      (output : s.cameraManager.movieOutput.isSome = true)
  /-- The controls were hidden and nothing will show them. -/
  | stuck (exit : s.exitBtnIsHidden = true) (button : s.recordViewIsHidden = false)
      (reports : s.reports = 0) (recording : s.cameraManager.isRecording = false)
  /-- The recording has been reported. -/
  | finished (exit : s.exitBtnIsHidden = false) (button : s.recordViewIsHidden = true)
      (reports : s.reports = 0) (recording : s.cameraManager.isRecording = false)
      (video : VideoReady s)

/-- The set-up block runs once and finds the capture session. -/
structure SetUpOnce (s : RecordingScreen) : Prop where
  once : s.cameraManager.sessionQueue ≤ 1
  done : s.cameraManager.movieOutput.isSome = true → s.cameraManager.sessionQueue = 0
  session : s.cameraManager.captureSession.isSome = true
  gesture : 0 < s.recordGestures

section Step

variable {devices : Bool} {s t : RecordingScreen} {e : RecordingEvent}

/-- Only the exit button tells whether the user is trapped. -/
theorem Stage.untrapped_iff (h : Stage s) (hs : SetUpOnce s) :
    Untrapped s ↔ (Idle s → s.exitBtnIsHidden = false) := by
  refine ⟨fun hu hidle => (hu hidle).1, fun hexit hidle => ⟨hexit hidle, ?_⟩⟩
  cases h with
  | untouched _ button _ _ _ running =>
    refine Or.inr ⟨button, hs.gesture, fun houtput => ?_⟩
    rw [CameraManager.startRecording_isRecording, houtput, running houtput]
    exact Bool.or_true _
  | recording exit | reporting exit | stuck exit => cases exit.symm.trans (hexit hidle)
  | finished _ _ _ _ video => exact Or.inl video

theorem setUpOnce_start : SetUpOnce (recorder devices).start := by
  cases devices
  · exact ⟨Nat.zero_le 1, fun h => absurd h Bool.false_ne_true, rfl, Nat.one_pos⟩
  · exact ⟨Nat.le_refl 1, fun h => absurd h Bool.false_ne_true, rfl, Nat.one_pos⟩

theorem stage_start : Stage (recorder devices).start := by
  cases devices <;>
    exact .untouched rfl rfl rfl rfl rfl fun h => absurd h Bool.false_ne_true

/-- The block that completes the set-up. -/
theorem SetUpOnce.runSetupBlock (hs : SetUpOnce s)
    (hn : (recorder devices).next s .runSetupBlock = some t) :
    s.cameraManager.movieOutput.isSome = false ∧ SetUpOnce t ∧
      t.cameraManager.isRunning = true ∧ t.cameraManager.isRecording = false ∧
      t = { s with cameraManager := t.cameraManager } := by
  simp only [recorder] at hn
  split at hn
  · cases hn
  · rename_i blocks hblocks
    obtain rfl := Option.some.inj hn
    obtain ⟨session, hsession⟩ := Option.isSome_iff_exists.mp hs.session
    have hone := hs.once
    have hnone : s.cameraManager.movieOutput.isSome = false := by
      refine Bool.eq_false_iff.mpr fun hsome => ?_
      have := hs.done hsome
      omega
    refine ⟨hnone, ⟨?_, fun _ => ?_, ?_, hs.gesture⟩, ?_, ?_, rfl⟩ <;>
      simp only [CameraManager.runSetupBlock, hsession]
    · omega
    · omega
    · rfl
    · rfl
    · rfl

/-- The user can leave where nothing is going on. -/
def Exits (s : RecordingScreen) : Prop := Idle s → s.exitBtnIsHidden = false

theorem not_exits (hidle : Idle s) (hexit : s.exitBtnIsHidden = true) : ¬ Exits s := by
  intro h
  cases hexit.symm.trans (h hidle)

theorem Stage.runSetupBlock (h : Stage s) (hs : SetUpOnce s)
    (hn : (recorder devices).next s .runSetupBlock = some t) :
    Stage t ∧ (Exits s → Exits t) := by
  obtain ⟨hnone, _, hrunning, hidle, ht⟩ := hs.runSetupBlock hn
  rw [ht]
  cases h with
  | untouched exit button pressing reports =>
    exact ⟨.untouched exit button pressing reports hidle fun _ => hrunning, fun _ _ => exit⟩
  | recording _ _ _ _ hrec =>
    cases hnone.symm.trans (CameraManager.movieOutput_isSome_of_isRecording hrec)
  | reporting _ _ _ _ _ output => cases hnone.symm.trans output
  | stuck exit button reports hrec =>
    exact ⟨.stuck exit button reports hidle, fun he => absurd he (not_exits ⟨hrec, reports⟩ exit)⟩
  | finished exit button reports _ video =>
    exact ⟨.finished exit button reports hidle video, fun _ _ => exit⟩

/-- A press that finds nothing going on is recorded after the set-up only. -/
theorem Stage.began (h : Stage s) (hpressing : s.pressing = false)
    (hbutton : s.recordViewIsHidden = false) : Stage s.began ∧
      (Exits s → (Exits s.began ↔ s.cameraManager.movieOutput.isSome = true)) := by
  have hrecording : s.began.cameraManager.isRecording = (s.cameraManager.isRecording ||
      (s.cameraManager.movieOutput.isSome && s.cameraManager.isRunning)) :=
    s.cameraManager.startRecording_isRecording
  cases h with
  | untouched _ _ _ reports hrec running =>
    cases houtput : s.cameraManager.movieOutput.isSome with
    | true =>
      rw [hrec, houtput, running houtput] at hrecording
      refine ⟨.recording rfl hbutton rfl reports hrecording, fun _ => iff_of_true ?_ rfl⟩
      exact fun hidle => absurd hidle.1 (by simp [hrecording])
    | false =>
      rw [hrec, houtput] at hrecording
      refine ⟨.stuck rfl hbutton reports hrecording, fun _ => iff_of_false ?_ Bool.false_ne_true⟩
      exact not_exits ⟨hrecording, reports⟩ rfl
  | recording _ _ pressing => cases pressing.symm.trans hpressing
  | reporting _ _ stopped reports hrec output =>
    have hstopped := stopped.resolve_left (by simp [hpressing])
    rw [hrec, hstopped, Bool.and_false] at hrecording
    refine ⟨.reporting rfl hbutton (Or.inl rfl) reports hrecording ?_, fun _ => ?_⟩
    · exact s.cameraManager.startRecording_movieOutput_isSome.trans output
    · refine iff_of_true (fun hidle => ?_) output
      cases reports.symm.trans hidle.2
  | stuck exit _ reports hrec =>
    refine ⟨?_, fun he => absurd he (not_exits ⟨hrec, reports⟩ exit)⟩
    cases hr : s.began.cameraManager.isRecording with
    | true => exact .recording rfl hbutton rfl reports hr
    | false => exact .stuck rfl hbutton reports hr
  | finished _ button => cases button.symm.trans hbutton

theorem Stage.ended (h : Stage s) (hpressing : s.pressing = true) :
    Stage s.ended ∧ (Exits s → Exits s.ended) := by
  have hrecording : s.ended.cameraManager.isRecording = false :=
    s.cameraManager.stopRecording_isRecording
  have hrunning : s.ended.cameraManager.isRunning = false := s.cameraManager.stopRecording_isRunning
  have houtput : s.ended.cameraManager.movieOutput.isSome = s.cameraManager.movieOutput.isSome :=
    s.cameraManager.stopRecording_movieOutput_isSome
  have hreports : s.ended.reports =
      if s.cameraManager.isRecording then s.reports + 1 else s.reports := rfl
  cases h with
  | untouched _ _ pressing => cases pressing.symm.trans hpressing
  | recording exit button _ reports hrec =>
    rw [hrec, if_pos rfl, reports] at hreports
    refine ⟨.reporting exit button (Or.inr hrunning) hreports hrecording ?_, fun _ hidle => ?_⟩
    · exact houtput.trans (CameraManager.movieOutput_isSome_of_isRecording hrec)
    · cases hreports.symm.trans hidle.2
  | reporting exit button _ reports hrec output =>
    rw [hrec, if_neg Bool.false_ne_true, reports] at hreports
    refine ⟨.reporting exit button (Or.inr hrunning) hreports hrecording (houtput.trans output),
      fun _ hidle => ?_⟩
    cases hreports.symm.trans hidle.2
  | stuck exit button reports hrec =>
    rw [hrec, if_neg Bool.false_ne_true, reports] at hreports
    exact ⟨.stuck exit button hreports hrecording,
      fun he => absurd he (not_exits ⟨hrec, reports⟩ exit)⟩
  | finished exit button reports hrec video =>
    rw [hrec, if_neg Bool.false_ne_true, reports] at hreports
    exact ⟨.finished exit button hreports hrecording video, fun _ _ => exit⟩

theorem Stage.recordingEnds (h : Stage s) (hrecording : s.cameraManager.isRecording = true) :
    Stage s.recordingEnds ∧ Exits s.recordingEnds := by
  cases h with
  | recording exit button pressing reports =>
    have hone : s.recordingEnds.reports = 1 := congrArg (· + 1) reports
    refine ⟨.reporting exit button (Or.inl pressing) hone rfl rfl, fun hidle => ?_⟩
    cases hone.symm.trans hidle.2
  | untouched _ _ _ _ hrec | reporting _ _ _ _ hrec | stuck _ _ _ hrec | finished _ _ _ hrec =>
    cases hrec.symm.trans hrecording

/-- The screen after the report of the recording. -/
theorem Stage.fileOutput (h : Stage s) {reports : Nat} (hreports : s.reports = reports + 1)
    (outputFileURL : URL) (error : Option String)
    (ht : t = { s with
      toMediaViewController := s.fileOutput outputFileURL error, reports := reports }) :
    Stage t ∧ (Exits t ↔ error = none) := by
  cases h with
  | reporting exit button _ hone hrec =>
    obtain rfl : reports = 0 := by omega
    subst ht
    cases error with
    | none => exact ⟨.finished rfl rfl rfl hrec ⟨rfl, rfl⟩, iff_of_true (fun _ => rfl) rfl⟩
    | some error =>
      refine ⟨.stuck exit button rfl hrec, iff_of_false (not_exits ⟨hrec, rfl⟩ exit) ?_⟩
      exact Option.some_ne_none error
  | untouched _ _ _ hzero | recording _ _ _ hzero | stuck _ _ hzero | finished _ _ hzero =>
    cases hzero.symm.trans hreports

/-- Every step leads from stage to stage, and traps the user exactly when it is out of order. -/
theorem Stage.next (h : Stage s) (hs : SetUpOnce s) (hn : (recorder devices).next s e = some t) :
    (Stage t ∧ SetUpOnce t) ∧ (Exits s → (Exits t ↔ RecordsInOrder s e)) := by
  cases e with
  | runSetupBlock =>
    obtain ⟨_, hsetup, _⟩ := hs.runSetupBlock hn
    obtain ⟨hstage, hexits⟩ := h.runSetupBlock hs hn
    exact ⟨⟨hstage, hsetup⟩, fun he => iff_of_true (hexits he) trivial⟩
  | began =>
    obtain ⟨⟨hpressing, hbutton, _⟩, rfl⟩ := Option.ite_some_none_eq_some.mp hn
    obtain ⟨hstage, hexits⟩ := h.began hpressing hbutton
    refine ⟨⟨hstage, hs.once, fun houtput => hs.done ?_, hs.session, hs.gesture⟩, hexits⟩
    exact s.cameraManager.startRecording_movieOutput_isSome.symm.trans houtput
  | changed =>
    obtain ⟨_, rfl⟩ := Option.ite_some_none_eq_some.mp hn
    exact ⟨⟨h, hs⟩, fun he => iff_of_true he trivial⟩
  | ended =>
    obtain ⟨hpressing, rfl⟩ := Option.ite_some_none_eq_some.mp hn
    obtain ⟨hstage, hexits⟩ := h.ended hpressing
    refine ⟨⟨hstage, hs.once, fun houtput => hs.done ?_, ?_, hs.gesture⟩,
      fun he => iff_of_true (hexits he) trivial⟩
    · exact s.cameraManager.stopRecording_movieOutput_isSome.symm.trans houtput
    · exact Option.isSome_map.trans hs.session
  | recordingEnds =>
    obtain ⟨hrecording, rfl⟩ := Option.ite_some_none_eq_some.mp hn
    obtain ⟨hstage, hexits⟩ := h.recordingEnds hrecording
    refine ⟨⟨hstage, hs.once, fun _ => hs.done ?_, hs.session, hs.gesture⟩,
      fun _ => iff_of_true hexits trivial⟩
    exact CameraManager.movieOutput_isSome_of_isRecording hrecording
  | fileOutput outputFileURL error =>
    simp only [recorder] at hn
    split at hn
    · cases hn
    · rename_i reports hreports
      obtain ⟨hstage, hexits⟩ := h.fileOutput hreports outputFileURL error
        (Option.some.inj hn).symm
      refine ⟨⟨hstage, ?_⟩, fun _ => hexits⟩
      obtain rfl := Option.some.inj hn
      cases error <;> exact ⟨hs.once, hs.done, hs.session, hs.gesture⟩
  | startFailed outputFileURL error =>
    obtain rfl := Option.some.inj hn
    exact ⟨⟨h, hs⟩, fun he => iff_of_true he trivial⟩

theorem stage_of_reachable (h : (recorder devices).Reachable s) : Stage s ∧ SetUpOnce s := by
  obtain ⟨_, hr⟩ := h
  induction hr with
  | nil => exact ⟨stage_start, setUpOnce_start⟩
  | snoc _ hn ih => exact (ih.1.next ih.2 hn).1

end Step

/-- In every state of a run where nothing is going on the user can leave, and has a video or can
record one, if and only if in that run presses begin after the set-up only and recordings end
without an error only. -/
theorem recording_untrapped_iff {devices : Bool} {events : List RecordingEvent}
    {s : RecordingScreen} (h : (recorder devices).Run events s) :
    (recorder devices).AllStates Untrapped events ↔
      (recorder devices).AllSteps RecordsInOrder events := by
  have hstart : Untrapped (recorder devices).start := by
    rw [stage_start.untrapped_iff setUpOnce_start]
    cases devices <;> exact fun _ => rfl
  refine h.allStates_iff_allSteps hstart fun t e u ht huntrapped hn => ?_
  obtain ⟨hstage, hsetup⟩ := stage_of_reachable ht
  obtain ⟨⟨hstage', hsetup'⟩, hexits⟩ := hstage.next hsetup hn
  rw [hstage'.untrapped_iff hsetup']
  exact hexits ((hstage.untrapped_iff hsetup).mp huntrapped)

/-- A video is recorded. -/
def recordedOnce : List RecordingEvent :=
  [.runSetupBlock, .began, .changed, .ended, .fileOutput ⟨"file:v"⟩ none]

theorem recording_untrapped_iff_recordedOnce :
    (recorder true).AllStates Untrapped recordedOnce ↔
      (recorder true).AllSteps RecordsInOrder recordedOnce :=
  recording_untrapped_iff (Machine.run_iff_exec.mpr rfl)

/-- After a recording that ended with an error, and after a press that came before the set-up,
nothing is going on and the exit button is hidden. -/
theorem failed_recording_traps :
    (∃ s, (recorder true).Run
        [.runSetupBlock, .began, .ended, .fileOutput ⟨"file:v"⟩ (some "disk full")] s ∧
      Idle s ∧ s.exitBtnIsHidden = true ∧ s.videoURL = none ∧ ¬ Untrapped s) ∧
    ∃ s, (recorder true).Run [.began, .ended, .runSetupBlock] s ∧
      Idle s ∧ s.exitBtnIsHidden = true ∧ ¬ Untrapped s := by
  refine ⟨⟨_, Machine.run_iff_exec.mpr rfl, ⟨rfl, rfl⟩, rfl, rfl, fun h => ?_⟩,
    _, Machine.run_iff_exec.mpr rfl, ⟨rfl, rfl⟩, rfl, fun h => ?_⟩
  · exact absurd (h ⟨rfl, rfl⟩).1 (by decide)
  · exact absurd (h ⟨rfl, rfl⟩).1 (by decide)

end TiktokClone
