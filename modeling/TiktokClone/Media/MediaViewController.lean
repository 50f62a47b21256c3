import Mathlib.Algebra.Order.Ring.Unbundled.Rat
import TiktokClone.Foundation.Basic

/-!
# The recording screen

The camera manager with its session and its movie output, and the controller of the
screen with the controls that recording hides and shows. Blocks dispatched to the
session queue wait there; what an access request calls back is given to the
controller by its medium.

Layers, layout and animations touch no other field and are left out. The session can
take the inputs and the output that the set-up adds.
-/

namespace TiktokClone

/-- `AVCaptureSession` -/
structure AVCaptureSession where
  isRunning : Bool
  deriving DecidableEq, Repr

/-- `AVCaptureMovieFileOutput` -/
structure AVCaptureMovieFileOutput where
  isRecording : Bool
  deriving DecidableEq, Repr

/-- `AVMediaType` -/
inductive AVMediaType
  | video
  | audio
  deriving DecidableEq, Repr

structure CameraManager where
  cameraAndAudioAccessPermitted : Bool
  captureSession : Option AVCaptureSession
  movieOutput : Option AVCaptureMovieFileOutput
  /-- The number of set-up blocks waiting on `sessionQueue`. -/
  sessionQueue : Nat

namespace CameraManager

/-- The initializer, by the authorization status of both media. -/
def initial (authorized : AVMediaType → Bool) : CameraManager where
  cameraAndAudioAccessPermitted := authorized .video && authorized .audio
  captureSession := none
  movieOutput := none
  sessionQueue := 0

/-- `setupCamera`; without both devices, or when one of them gives no input, nothing is queued. -/
def setupCamera (m : CameraManager) (devices : Bool) : CameraManager :=
  { m with
    captureSession := some ⟨false⟩
    sessionQueue := if devices then m.sessionQueue + 1 else m.sessionQueue }

/-- The block that `setupCamera` leaves on `sessionQueue`. -/
def runSetupBlock (m : CameraManager) : CameraManager :=
  match m.captureSession with
  | none => m
  | some _ => { m with movieOutput := some ⟨false⟩, captureSession := some ⟨true⟩ }

def addPreviewLayerToView (m : CameraManager) (devices : Bool) : CameraManager :=
  if m.cameraAndAudioAccessPermitted then m.setupCamera devices else m

/-- The capture session is running. -/
def isRunning (m : CameraManager) : Bool := m.captureSession.any AVCaptureSession.isRunning

/-- The movie output is recording. -/
def isRecording (m : CameraManager) : Bool := m.movieOutput.any AVCaptureMovieFileOutput.isRecording

/-- An output starts to record only while its session runs. -/
def startRecording (m : CameraManager) : CameraManager :=
  { m with movieOutput := m.movieOutput.map fun output => if m.isRunning then ⟨true⟩ else output }

def stopRecording (m : CameraManager) : CameraManager :=
  { m with
    captureSession := m.captureSession.map fun _ => ⟨false⟩
    movieOutput := m.movieOutput.map fun output => if output.isRecording then ⟨false⟩ else output }

/-- `checkIfBothPermissionGranted` -/
def checkIfBothPermissionGranted (m : CameraManager) (authorized : AVMediaType → Bool) :
    CameraManager :=
  if authorized .video && authorized .audio then { m with cameraAndAudioAccessPermitted := true }
  else m

theorem checkIfBothPermissionGranted_permitted (m : CameraManager)
    (authorized : AVMediaType → Bool) :
    (m.checkIfBothPermissionGranted authorized).cameraAndAudioAccessPermitted =
      (m.cameraAndAudioAccessPermitted || (authorized .video && authorized .audio)) := by
  rw [checkIfBothPermissionGranted]
  split <;> rename_i h
  · rw [h, Bool.or_true]
  · rw [Bool.not_eq_true _ |>.mp h, Bool.or_false]

/-- A recording goes on, or it begins when there is an output and the session runs. -/
theorem startRecording_isRecording (m : CameraManager) :
    m.startRecording.isRecording = (m.isRecording || (m.movieOutput.isSome && m.isRunning)) := by
  rw [isRecording, startRecording, isRecording]
  cases m.movieOutput with
  | none => rfl
  | some output => cases m.isRunning <;> simp

@[simp] theorem startRecording_movieOutput_isSome (m : CameraManager) :
    m.startRecording.movieOutput.isSome = m.movieOutput.isSome := Option.isSome_map

@[simp] theorem stopRecording_isRecording (m : CameraManager) :
    m.stopRecording.isRecording = false := by
  rw [isRecording, stopRecording]
  cases m.movieOutput with
  | none => rfl
  | some output => cases hr : output.isRecording <;> simp [hr]

@[simp] theorem stopRecording_isRunning (m : CameraManager) :
    m.stopRecording.isRunning = false := by
  rw [isRunning, stopRecording]
  cases m.captureSession <;> rfl

@[simp] theorem stopRecording_movieOutput_isSome (m : CameraManager) :
    m.stopRecording.movieOutput.isSome = m.movieOutput.isSome := Option.isSome_map

/-- Only an output records. -/
theorem movieOutput_isSome_of_isRecording {m : CameraManager} (h : m.isRecording = true) :
    m.movieOutput.isSome = true := by
  obtain ⟨output, houtput, _⟩ := (Option.any_eq_true _ _).mp h
  exact Option.isSome_of_mem houtput

end CameraManager

/-- Which of its two buttons still take taps. -/
structure AccessPermissionView where
  isEnabled : AVMediaType → Bool

namespace AccessPermissionView

/-- Gray out the button of a medium. -/
def accessPermitted (v : AccessPermissionView) (medium : AVMediaType) : AccessPermissionView :=
  ⟨fun m => if m = medium then false else v.isEnabled m⟩

def cameraAccessPermitted (v : AccessPermissionView) : AccessPermissionView :=
  v.accessPermitted .video

def microphoneAccessPermitted (v : AccessPermissionView) : AccessPermissionView :=
  v.accessPermitted .audio

end AccessPermissionView

structure MediaViewController where
  cameraManager : CameraManager
  permissionView : AccessPermissionView
  /-- The permission view is on the screen. -/
  asksPermission : Bool
  exitBtnIsHidden : Bool
  /-- `isHidden` of the other views that `hideLabelsAndImages` hides. -/
  labelsAndImagesAreHidden : Bool
  recordViewIsHidden : Bool
  /-- The number of long-press recognizers on `recordView`. -/
  recordGestures : Nat
  nextBtnAlpha : Rat
  /-- `alpha` of the other views that `finishRecording` shows. -/
  editingAlpha : Rat
  /-- The video that `playerView` plays. -/
  playerView : Option URL
  videoURL : Option URL
  /-- The messages of the alerts shown. -/
  alerts : List String

namespace MediaViewController

/-- The controller as the storyboard makes it. -/
def initial (authorized : AVMediaType → Bool) : MediaViewController where
  cameraManager := .initial authorized
  permissionView := ⟨fun _ => true⟩
  asksPermission := false
  exitBtnIsHidden := false
  labelsAndImagesAreHidden := false
  recordViewIsHidden := false
  recordGestures := 0
  nextBtnAlpha := 0
  editingAlpha := 0
  playerView := none
  videoURL := none
  alerts := []

def setupRecognizers (c : MediaViewController) : MediaViewController :=
  { c with recordGestures := c.recordGestures + 1 }

def setUpSession (c : MediaViewController) (devices : Bool) : MediaViewController :=
  { c.setupRecognizers with
    asksPermission := false
    cameraManager := c.cameraManager.addPreviewLayerToView devices }

/-- `viewDidLoad` and `setupView` -/
def setupView (c : MediaViewController) (devices : Bool) : MediaViewController :=
  if c.cameraManager.cameraAndAudioAccessPermitted then c.setUpSession devices
  else { c with asksPermission := true }

def hideLabelsAndImages (c : MediaViewController) (isHidden : Bool) : MediaViewController :=
  { c with exitBtnIsHidden := isHidden, labelsAndImagesAreHidden := isHidden }

def startRecording (c : MediaViewController) : MediaViewController :=
  { c.hideLabelsAndImages true with cameraManager := c.cameraManager.startRecording }

def stopRecording (c : MediaViewController) : MediaViewController :=
  { c with cameraManager := c.cameraManager.stopRecording }

def presentPlayerView (c : MediaViewController) : MediaViewController :=
  match c.videoURL with
  | some url => { c with playerView := some url }
  | none => c

def finishRecording (c : MediaViewController) (videoURL : Option URL) (err : Option String) :
    MediaViewController :=
  let c := { c with
    recordViewIsHidden := true
    exitBtnIsHidden := false
    nextBtnAlpha := 1
    editingAlpha := 1 }
  presentPlayerView (match err with
    | some error => { c with alerts := c.alerts ++ [error] }
    | none => { c with videoURL := videoURL })

/-- `fileOutput(_:didFinishRecordingTo:from:error:)` of the camera manager; an error is only
printed. -/
def fileOutput (c : MediaViewController) (outputFileURL : URL) (error : Option String) :
    MediaViewController :=
  match error with
  | some _ => c
  | none => c.finishRecording (some outputFileURL) none

def alertCameraAccessNeeded (c : MediaViewController) : MediaViewController :=
  { c with alerts := c.alerts ++
      ["Camera access is required to make full use of this function."] }

/-- The completion that a request for access to a medium passes on to the main queue. -/
def accessCompletion (c : MediaViewController) (medium : AVMediaType) (devices access : Bool) :
    MediaViewController :=
  if access then
    let c := { c with permissionView := c.permissionView.accessPermitted medium }
    if c.cameraManager.cameraAndAudioAccessPermitted then c.setUpSession devices else c
  else c.alertCameraAccessNeeded

/-- The completion in `askForCameraAccess`. -/
def askForCameraAccess (c : MediaViewController) (devices access : Bool) : MediaViewController :=
  c.accessCompletion .video devices access

/-- The completion in `askForMicrophoneAccess`. -/
def askForMicrophoneAccess (c : MediaViewController) (devices access : Bool) :
    MediaViewController :=
  c.accessCompletion .audio devices access

/-- Setting up the session leaves the permission as it is. -/
theorem setUpSession_permitted (c : MediaViewController) (devices : Bool) :
    (c.setUpSession devices).cameraManager.cameraAndAudioAccessPermitted =
      c.cameraManager.cameraAndAudioAccessPermitted := by
  simp only [setUpSession, CameraManager.addPreviewLayerToView]
  split <;> rfl

theorem accessCompletion_permitted (c : MediaViewController) (medium : AVMediaType)
    (devices access : Bool) :
    (c.accessCompletion medium devices access).cameraManager.cameraAndAudioAccessPermitted =
      c.cameraManager.cameraAndAudioAccessPermitted := by
  cases access with
  | false => rfl
  | true =>
    simp only [accessCompletion, if_true]
    split
    · exact setUpSession_permitted _ devices
    · rfl

theorem setupView_permitted (c : MediaViewController) (devices : Bool) :
    (c.setupView devices).cameraManager.cameraAndAudioAccessPermitted =
      c.cameraManager.cameraAndAudioAccessPermitted := by
  rw [setupView]
  split
  · exact setUpSession_permitted c devices
  · rfl

/-- The screen asks for permission unless it sets the session up at once. -/
theorem setupView_asksPermission (c : MediaViewController) (devices : Bool) :
    (c.setupView devices).asksPermission = !c.cameraManager.cameraAndAudioAccessPermitted := by
  cases h : c.cameraManager.cameraAndAudioAccessPermitted <;> simp [setupView, h, setUpSession]

theorem setupView_recordGestures (c : MediaViewController) (devices : Bool) :
    (c.setupView devices).recordGestures =
      c.recordGestures + if c.cameraManager.cameraAndAudioAccessPermitted then 1 else 0 := by
  cases h : c.cameraManager.cameraAndAudioAccessPermitted <;>
    simp [setupView, h, setUpSession, setupRecognizers]

/-- A completion sets the session up when it is granted and both permissions are known. -/
theorem accessCompletion_recordGestures (c : MediaViewController) (medium : AVMediaType)
    (devices access : Bool) : (c.accessCompletion medium devices access).recordGestures =
      c.recordGestures +
        if access && c.cameraManager.cameraAndAudioAccessPermitted then 1 else 0 := by
  cases access with
  | false => rfl
  | true => cases h : c.cameraManager.cameraAndAudioAccessPermitted <;>
      simp [accessCompletion, h, setUpSession, setupRecognizers]

end MediaViewController

end TiktokClone
