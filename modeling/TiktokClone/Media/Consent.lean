import TiktokClone.Media.Permissions
import TiktokClone.Media.Recording

/-!
# The camera and the user's consent

The permission view and the recording share one screen: completions of access requests set the
session up while presses, set-up blocks and reports of the movie output go on. Whatever their
order, nothing of the camera is touched before both media are authorized.
-/

namespace TiktokClone

open Library

/-- The camera screen with its access requests. -/
structure CameraScreen extends RecordingScreen where
  authorized : AVMediaType → Bool
  /-- The number of access requests whose callback has not run. -/
  requests : AVMediaType → Nat
  /-- The completions that wait on the main queue. -/
  mainQueue : List (AVMediaType × Bool)

namespace CameraScreen

def toPermissionScreen (s : CameraScreen) : PermissionScreen :=
  ⟨s.toMediaViewController, s.authorized, s.requests, s.mainQueue⟩

/-- The screen after a step of the permissions. -/
def withPermissions (s : CameraScreen) (p : PermissionScreen) : CameraScreen :=
  ⟨⟨p.toMediaViewController, s.pressing, s.reports⟩, p.authorized, p.requests, p.mainQueue⟩

end CameraScreen

inductive CameraEvent
  | permission (e : PermissionEvent)
  | recording (e : RecordingEvent)

/-- The camera screen from `viewDidLoad` on. A set-up that replaces a recording output ends its
recording. -/
def camera (authorized : AVMediaType → Bool) (devices : Bool) :
    Machine CameraScreen CameraEvent where
  start := ⟨⟨(MediaViewController.initial authorized).setupView devices, false, 0⟩, authorized,
    fun _ => 0, []⟩
  next s
    | .permission e =>
      ((permissions authorized devices).next s.toPermissionScreen e).map s.withPermissions
    | .recording e => ((recorder devices).next s.toRecordingScreen e).map fun screen =>
      match e with
      | .runSetupBlock => { s with toRecordingScreen := { screen with
          reports := if s.cameraManager.isRecording then s.reports + 1 else s.reports } }
      | _ => { s with toRecordingScreen := screen }

/-- The camera has not been opened, and nothing has been or can be recorded. -/
structure Untouched (s : RecordingScreen) : Prop where
  recordGestures : s.recordGestures = 0
  captureSession : s.cameraManager.captureSession = none
  sessionQueue : s.cameraManager.sessionQueue = 0
  movieOutput : s.cameraManager.movieOutput = none
  pressing : s.pressing = false
  reports : s.reports = 0
  videoURL : s.videoURL = none
  playerView : s.playerView = none

/-- What is known is true, and before it is known nothing is touched. -/
structure Consented (s : CameraScreen) : Prop where
  authorized : Known s.toPermissionScreen → BothAuthorized s.toPermissionScreen
  untouched : ¬ Known s.toPermissionScreen → Untouched s.toRecordingScreen

section Step

variable {authorized : AVMediaType → Bool} {devices : Bool} {s t : CameraScreen} {e : CameraEvent}

/-- A recording changes nothing of the permission. -/
theorem recorder_permitted {r r' : RecordingScreen} {e : RecordingEvent}
    (hn : (recorder devices).next r e = some r') :
    r'.cameraManager.cameraAndAudioAccessPermitted =
      r.cameraManager.cameraAndAudioAccessPermitted := by
  cases e with
  | runSetupBlock =>
    simp only [recorder] at hn
    split at hn
    · cases hn
    · obtain rfl := Option.some.inj hn
      simp only [CameraManager.runSetupBlock]
      split <;> rfl
  | began | changed | ended | recordingEnds =>
    obtain ⟨_, rfl⟩ := Option.ite_some_none_eq_some.mp hn
    rfl
  | fileOutput outputFileURL error =>
    simp only [recorder] at hn
    split at hn
    · cases hn
    · obtain rfl := Option.some.inj hn
      cases error <;> rfl
  | startFailed outputFileURL error =>
    obtain rfl := Option.some.inj hn
    rfl

/-- An untouched screen offers nothing to press, and no report comes but a failure. -/
theorem Untouched.recorder_next {r r' : RecordingScreen} {e : RecordingEvent} (h : Untouched r)
    (hn : (recorder devices).next r e = some r') : r' = r := by
  cases e with
  | runSetupBlock =>
    simp only [recorder, h.sessionQueue] at hn
    cases hn
  | began =>
    obtain ⟨⟨_, _, hgestures⟩, _⟩ := Option.ite_some_none_eq_some.mp hn
    rw [h.recordGestures] at hgestures
    cases hgestures
  | changed =>
    obtain ⟨hpressing, _⟩ := Option.ite_some_none_eq_some.mp hn
    rw [h.pressing] at hpressing
    cases hpressing
  | ended =>
    obtain ⟨hpressing, _⟩ := Option.ite_some_none_eq_some.mp hn
    rw [h.pressing] at hpressing
    cases hpressing
  | recordingEnds =>
    obtain ⟨hrecording, _⟩ := Option.ite_some_none_eq_some.mp hn
    rw [CameraManager.isRecording, h.movieOutput] at hrecording
    cases hrecording
  | fileOutput outputFileURL error =>
    simp only [recorder, h.reports] at hn
    cases hn
  | startFailed outputFileURL error =>
    obtain rfl := Option.some.inj hn
    rfl

/-- A step of the permissions that does not make them known leaves the camera untouched. -/
theorem Untouched.permission_next {p : PermissionScreen} {e : PermissionEvent}
    (h : Untouched s.toRecordingScreen)
    (hn : (permissions authorized devices).next s.toPermissionScreen e = some p)
    (hunknown : ¬ Known s.toPermissionScreen) :
    Untouched (s.withPermissions p).toRecordingScreen := by
  cases e with
  | tap medium | authorize medium =>
    obtain ⟨_, rfl⟩ := Option.ite_some_none_eq_some.mp hn
    exact ⟨h.recordGestures, h.captureSession, h.sessionQueue, h.movieOutput, h.pressing,
      h.reports, h.videoURL, h.playerView⟩
  | callback medium =>
    obtain ⟨_, rfl⟩ := Option.ite_some_none_eq_some.mp hn
    have hsame : ∀ m : CameraManager, ∀ authorized : AVMediaType → Bool,
        (m.checkIfBothPermissionGranted authorized).captureSession = m.captureSession ∧
        (m.checkIfBothPermissionGranted authorized).sessionQueue = m.sessionQueue ∧
        (m.checkIfBothPermissionGranted authorized).movieOutput = m.movieOutput := by
      intro m authorized
      unfold CameraManager.checkIfBothPermissionGranted
      split <;> exact ⟨rfl, rfl, rfl⟩
    obtain ⟨hsession, hqueue, houtput⟩ := hsame s.cameraManager s.authorized
    exact ⟨h.recordGestures, hsession.trans h.captureSession, hqueue.trans h.sessionQueue,
      houtput.trans h.movieOutput, h.pressing, h.reports, h.videoURL, h.playerView⟩
  | completion medium access =>
    obtain ⟨rest, _, rfl⟩ := completion_eq_some hn
    rw [Known, Bool.not_eq_true] at hunknown
    have hpermitted : s.cameraManager.cameraAndAudioAccessPermitted = false := hunknown
    cases access with
    | true =>
      -- Without the permission the completion grays its button out and goes no further.
      have hgray : s.toMediaViewController.accessCompletion medium devices true =
          { s.toMediaViewController with
            permissionView := s.permissionView.accessPermitted medium } := by
        simp only [MediaViewController.accessCompletion, if_true, hpermitted,
          Bool.false_eq_true, if_false]
      simp only [CameraScreen.withPermissions, CameraScreen.toPermissionScreen, hgray]
      exact ⟨h.recordGestures, h.captureSession, h.sessionQueue, h.movieOutput, h.pressing,
        h.reports, h.videoURL, h.playerView⟩
    | false =>
      exact ⟨h.recordGestures, h.captureSession, h.sessionQueue, h.movieOutput, h.pressing,
        h.reports, h.videoURL, h.playerView⟩

theorem Consented.next (h : Consented s)
    (hn : (camera authorized devices).next s e = some t) : Consented t := by
  cases e with
  | permission e =>
    obtain ⟨p, hp, rfl⟩ := Option.map_eq_some_iff.mp hn
    constructor
    · intro hknown
      rcases (next_known hp).mp hknown with hknown | ⟨_, hboth⟩
      · exact (h.authorized hknown).next hp
      · exact hboth.next hp
    · intro hunknown
      have hbefore : ¬ Known s.toPermissionScreen := fun hknown =>
        hunknown ((next_known hp).mpr (Or.inl hknown))
      exact (h.untouched hbefore).permission_next hp hbefore
  | recording e =>
    obtain ⟨screen, hscreen, ht⟩ := Option.map_eq_some_iff.mp hn
    have hsame : t.authorized = s.authorized ∧
        t.cameraManager.cameraAndAudioAccessPermitted =
          screen.cameraManager.cameraAndAudioAccessPermitted ∧
        (t.toRecordingScreen = screen ∨ e = .runSetupBlock) := by
      subst ht
      cases e with
      | runSetupBlock => exact ⟨rfl, rfl, Or.inr rfl⟩
      | _ => exact ⟨rfl, rfl, Or.inl rfl⟩
    obtain ⟨hauthorized, hpermitted, hscreen'⟩ := hsame
    have hknown : Known t.toPermissionScreen ↔ Known s.toPermissionScreen :=
      iff_of_eq (congrArg (· = true) (hpermitted.trans (recorder_permitted hscreen)))
    constructor
    · intro hk medium
      have hboth := h.authorized (hknown.mp hk) medium
      exact (congrFun hauthorized medium).trans hboth
    · intro hunknown
      have hs := h.untouched fun hk => hunknown (hknown.mpr hk)
      rcases hscreen' with he | rfl
      · rw [he, hs.recorder_next hscreen]
        exact hs
      · simp only [recorder, hs.sessionQueue] at hscreen
        cases hscreen

theorem consented_start : Consented (camera authorized devices).start := by
  have hknown : Known (camera authorized devices).start.toPermissionScreen ↔
      (authorized .video && authorized .audio) = true :=
    iff_of_eq (congrArg (· = true) (MediaViewController.setupView_permitted _ devices))
  constructor
  · intro hk
    exact bothAuthorized_iff.mpr (hknown.mp hk)
  · intro hunknown
    have hnot : (authorized .video && authorized .audio) = false :=
      Bool.eq_false_of_not_eq_true fun hboth => hunknown (hknown.mpr hboth)
    have hview : (MediaViewController.initial authorized).setupView devices =
        { MediaViewController.initial authorized with asksPermission := true } := by
      unfold MediaViewController.setupView
      exact if_neg (by simp [MediaViewController.initial, CameraManager.initial, hnot])
    simp only [camera, hview]
    exact ⟨rfl, rfl, rfl, rfl, rfl, rfl, rfl, rfl⟩

theorem Consented.of_reachable (h : (camera authorized devices).Reachable s) : Consented s := by
  obtain ⟨_, hrun⟩ := h
  exact hrun.invariant consented_start fun _ _ _ hs hn => hs.next hn

/-- The video of the screen changes with a report without an error only. -/
theorem videoURL_next (hn : (camera authorized devices).next s e = some t) :
    t.videoURL = s.videoURL ∨
      ∃ url, e = .recording (.fileOutput url none) ∧ t.videoURL = some url := by
  cases e with
  | permission e =>
    obtain ⟨p, hp, rfl⟩ := Option.map_eq_some_iff.mp hn
    refine Or.inl ?_
    cases e with
    | tap medium | authorize medium | callback medium =>
      obtain ⟨_, rfl⟩ := Option.ite_some_none_eq_some.mp hp
      rfl
    | completion medium access =>
      obtain ⟨rest, _, rfl⟩ := completion_eq_some hp
      change (s.toMediaViewController.accessCompletion medium devices access).videoURL = _
      cases access with
      | true =>
        simp only [MediaViewController.accessCompletion, if_true]
        split <;> rfl
      | false => rfl
  | recording e =>
    obtain ⟨screen, hscreen, rfl⟩ := Option.map_eq_some_iff.mp hn
    cases e with
    | runSetupBlock =>
      simp only [recorder] at hscreen
      split at hscreen
      · cases hscreen
      · obtain rfl := Option.some.inj hscreen
        exact Or.inl rfl
    | began | changed | ended | recordingEnds =>
      obtain ⟨_, rfl⟩ := Option.ite_some_none_eq_some.mp hscreen
      exact Or.inl rfl
    | fileOutput outputFileURL error =>
      simp only [recorder] at hscreen
      split at hscreen
      · cases hscreen
      · obtain rfl := Option.some.inj hscreen
        cases error with
        | none => exact Or.inr ⟨outputFileURL, rfl, rfl⟩
        | some error => exact Or.inl rfl
    | startFailed outputFileURL error =>
      obtain rfl := Option.some.inj hscreen
      exact Or.inl rfl

/-- No recording is reported before both media are authorized. -/
theorem Consented.of_fileOutput (h : Consented s) {url : URL}
    (hn : (camera authorized devices).next s (.recording (.fileOutput url none)) = some t) :
    ∀ medium, s.authorized medium = true := by
  by_cases hknown : Known s.toPermissionScreen
  · exact h.authorized hknown
  · have hreports := (h.untouched hknown).reports
    simp only [camera, recorder, hreports, Option.map_none] at hn
    cases hn

/-- Nothing is recorded without consent. In every state of the camera screen, whatever the order
of taps, answers, callbacks, completions, set-ups, presses and reports, either the user has
authorized both the camera and the microphone, or no session and no movie output exist, no press
can begin, and there is neither a recording nor a video. -/
theorem camera_needs_consent (h : (camera authorized devices).Reachable s) :
    (∀ medium, s.authorized medium = true) ∨
    s.cameraManager.captureSession = none ∧ s.cameraManager.movieOutput = none ∧
      s.recordGestures = 0 ∧ s.pressing = false ∧ s.cameraManager.isRecording = false ∧
      s.reports = 0 ∧ s.videoURL = none := by
  have hs := Consented.of_reachable h
  by_cases hknown : Known s.toPermissionScreen
  · exact Or.inl (hs.authorized hknown)
  · have h := hs.untouched hknown
    refine Or.inr ⟨h.captureSession, h.movieOutput, h.recordGestures, h.pressing, ?_, h.reports,
      h.videoURL⟩
    rw [CameraManager.isRecording, h.movieOutput]
    rfl

end Step

/-- The user authorizes the microphone, then the camera, and records at once. -/
def authorizedAndRecorded : List CameraEvent :=
  [.permission (.tap .audio), .permission (.authorize .audio), .permission (.callback .audio),
    .permission (.completion .audio true), .permission (.tap .video),
    .permission (.authorize .video), .permission (.callback .video),
    .permission (.completion .video true), .recording .runSetupBlock, .recording .began,
    .recording .ended, .recording (.fileOutput ⟨"file:v"⟩ none)]

theorem camera_needs_consent_authorizedAndRecorded : ∃ s : CameraScreen,
    s.videoURL = some ⟨"file:v"⟩ ∧ ((∀ medium, s.authorized medium = true) ∨
      s.cameraManager.captureSession = none ∧ s.cameraManager.movieOutput = none ∧
        s.recordGestures = 0 ∧ s.pressing = false ∧ s.cameraManager.isRecording = false ∧
        s.reports = 0 ∧ s.videoURL = none) := by
  obtain ⟨s, hs, hvideo⟩ : ∃ s, (camera (fun _ => false) true).Run authorizedAndRecorded s ∧
      s.videoURL = some ⟨"file:v"⟩ := ⟨_, Machine.run_iff_exec.mpr rfl, rfl⟩
  exact ⟨s, hvideo, camera_needs_consent ⟨_, hs⟩⟩

end TiktokClone
