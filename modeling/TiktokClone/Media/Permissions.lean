import Mathlib.Data.List.Count
import Mathlib.Data.List.Infix
import Mathlib.Logic.Function.Basic
import TiktokClone.Library.Machine
import TiktokClone.Media.MediaViewController

/-!
# Asking for both permissions

Taps on the two buttons of the permission view, the answers of the system, the
background callbacks and the completions on the main queue interleave in any order. A
callback that finds both media authorized makes the permission known, and every granted
completion executed from then on sets the session up, so the session is set up once
exactly when one such completion is left.
-/

namespace TiktokClone

open Library

/-- The screen with what the system and the queues hold for it. -/
structure PermissionScreen extends MediaViewController where
  /-- `AVCaptureDevice.authorizationStatus(for:)` is `authorized`. -/
  authorized : AVMediaType → Bool
  /-- The number of access requests whose callback has not run. -/
  requests : AVMediaType → Nat
  /-- The completions that wait on the main queue. -/
  mainQueue : List (AVMediaType × Bool)

inductive PermissionEvent
  /-- A tap on the button of a medium. -/
  | tap (medium : AVMediaType)
  /-- The system authorizes a medium that a request asks for. -/
  | authorize (medium : AVMediaType)
  /-- The background callback of a request. -/
  | callback (medium : AVMediaType)
  /-- The main queue executes the completion of a request. -/
  | completion (medium : AVMediaType) (access : Bool)
  deriving DecidableEq

/-- The event is a granted completion. -/
def PermissionEvent.isGrant : PermissionEvent → Bool
  | completion _ access => access
  | _ => false

/-- The screen from `viewDidLoad` on, with the authorizations of that time. -/
def permissions (authorized : AVMediaType → Bool) (devices : Bool) :
    Machine PermissionScreen PermissionEvent where
  start := ⟨(MediaViewController.initial authorized).setupView devices, authorized, fun _ => 0, []⟩
  next s
    | .tap medium =>
      if s.asksPermission = true ∧ s.permissionView.isEnabled medium = true then
        some { s with requests := Function.update s.requests medium (s.requests medium + 1) }
      else none
    | .authorize medium =>
      if 0 < s.requests medium then
        some { s with authorized := Function.update s.authorized medium true }
      else none
    | .callback medium =>
      if 0 < s.requests medium then
        some { s with
          cameraManager := s.cameraManager.checkIfBothPermissionGranted s.authorized
          requests := Function.update s.requests medium (s.requests medium - 1)
          mainQueue := s.mainQueue ++ [(medium, s.authorized medium)] }
      else none
    | .completion medium access =>
      match s.mainQueue with
      | [] => none
      | head :: rest =>
        if head = (medium, access) then
          some { s with
            toMediaViewController := s.accessCompletion medium devices access
            mainQueue := rest }
        else none

/-- Both media are authorized. -/
def BothAuthorized (s : PermissionScreen) : Prop := ∀ medium, s.authorized medium = true

/-- Every run of `setUpSession` installs a record gesture: it has run for authorized media only,
once at most, and once if both are authorized and no request is left. -/
structure SetsUpOnce (s : PermissionScreen) : Prop where
  authorized : 0 < s.recordGestures → BothAuthorized s
  atMostOnce : s.recordGestures ≤ 1
  done : BothAuthorized s → (∀ medium, s.requests medium = 0) → s.mainQueue = [] →
    0 < s.recordGestures

/-- After a callback that runs with both media authorized one granted completion is executed at
most. -/
def GrantsOnce (authorized : AVMediaType → Bool) (events : List PermissionEvent) : Prop :=
  ∀ before medium after, events = before ++ .callback medium :: after →
    (∀ m, authorized m = true ∨ .authorize m ∈ before) →
    after.countP PermissionEvent.isGrant ≤ 1

/-- The permission is known to the camera manager. -/
def Known (s : PermissionScreen) : Prop := s.cameraManager.cameraAndAudioAccessPermitted = true

/-- What every run keeps. -/
structure Asked (authorized : AVMediaType → Bool) (events : List PermissionEvent)
    (s : PermissionScreen) : Prop where
  authorized : ∀ m, s.authorized m = true ↔ authorized m = true ∨ .authorize m ∈ events
  known : Known s → BothAuthorized s
  gestures : 0 < s.recordGestures → Known s
  /-- Once both are authorized, the session is set up or something is left that will do it. -/
  left : BothAuthorized s → 0 < s.recordGestures ∨
    (Known s ∧ ∃ medium, (medium, true) ∈ s.mainQueue) ∨ ∃ medium, 0 < s.requests medium

/-- How often the session has been set up. -/
inductive Counted (authorized : AVMediaType → Bool) (events : List PermissionEvent)
    (s : PermissionScreen) : Prop
  /-- Both media were authorized from the beginning, and nothing is asked. -/
  | started (gestures : s.recordGestures = 1) (view : s.asksPermission = false)
      (requests : ∀ medium, s.requests medium = 0) (mainQueue : s.mainQueue = [])
  | unknown (known : ¬ Known s) (gestures : s.recordGestures = 0)
  | known (before : List PermissionEvent) (medium : AVMediaType) (after : List PermissionEvent)
      (split : events = before ++ .callback medium :: after)
      (both : ∀ m, authorized m = true ∨ .authorize m ∈ before) (known : Known s)
      (gestures : s.recordGestures = after.countP PermissionEvent.isGrant)

section Step

variable {authorized : AVMediaType → Bool} {devices : Bool} {events after : List PermissionEvent}
  {s t u : PermissionScreen} {e : PermissionEvent}

theorem bothAuthorized_iff :
    BothAuthorized s ↔ (s.authorized .video && s.authorized .audio) = true := by
  rw [Bool.and_eq_true]
  refine ⟨fun h => ⟨h .video, h .audio⟩, fun h medium => ?_⟩
  cases medium
  · exact h.1
  · exact h.2

/-- The main queue executes its first completion. -/
theorem completion_eq_some {medium : AVMediaType} {access : Bool}
    (hn : (permissions authorized devices).next s (.completion medium access) = some t) :
    ∃ rest, s.mainQueue = (medium, access) :: rest ∧ t = { s with
      toMediaViewController := s.accessCompletion medium devices access
      mainQueue := rest } := by
  simp only [permissions] at hn
  split at hn
  · cases hn
  · rename_i head rest hqueue
    obtain ⟨hhead, ht⟩ := Option.ite_none_right_eq_some.mp hn
    exact ⟨rest, hhead ▸ hqueue, (Option.some.inj ht).symm⟩

/-- A granted completion sets the session up exactly when the permission is known. -/
theorem next_recordGestures (hn : (permissions authorized devices).next s e = some t) :
    t.recordGestures = s.recordGestures +
      if e.isGrant && s.cameraManager.cameraAndAudioAccessPermitted then 1 else 0 := by
  cases e with
  | tap _ | authorize _ | callback _ =>
    obtain ⟨_, rfl⟩ := Option.ite_some_none_eq_some.mp hn
    rfl
  | completion medium access =>
    obtain ⟨rest, _, rfl⟩ := completion_eq_some hn
    exact s.accessCompletion_recordGestures medium devices access

/-- The permission becomes known in a callback that finds both media authorized. -/
theorem next_known (hn : (permissions authorized devices).next s e = some t) :
    Known t ↔ Known s ∨ (∃ medium, e = .callback medium) ∧ BothAuthorized s := by
  cases e with
  | tap _ | authorize _ =>
    obtain ⟨_, rfl⟩ := Option.ite_some_none_eq_some.mp hn
    simp [Known]
  | callback medium =>
    obtain ⟨_, rfl⟩ := Option.ite_some_none_eq_some.mp hn
    rw [Known, CameraManager.checkIfBothPermissionGranted_permitted, Bool.or_eq_true,
      bothAuthorized_iff]
    simp [Known]
  | completion medium access =>
    obtain ⟨rest, _, rfl⟩ := completion_eq_some hn
    rw [Known, MediaViewController.accessCompletion_permitted]
    simp [Known]

theorem next_authorized (hn : (permissions authorized devices).next s e = some t)
    (medium : AVMediaType) :
    t.authorized medium = true ↔ s.authorized medium = true ∨ e = .authorize medium := by
  cases e with
  | tap _ | callback _ =>
    obtain ⟨_, rfl⟩ := Option.ite_some_none_eq_some.mp hn
    simp
  | authorize granted =>
    obtain ⟨_, rfl⟩ := Option.ite_some_none_eq_some.mp hn
    by_cases h : medium = granted
    · simp [h]
    · simp [Function.update_of_ne h, Ne.symm h]
  | completion _ _ =>
    obtain ⟨rest, _, rfl⟩ := completion_eq_some hn
    simp

theorem BothAuthorized.next (h : BothAuthorized s)
    (hn : (permissions authorized devices).next s e = some t) : BothAuthorized t :=
  fun medium => (next_authorized hn medium).mpr (Or.inl (h medium))

/-- As long as the session is not set up, something is left that will do it. -/
theorem Asked.left_next (h : Asked authorized events s)
    (hn : (permissions authorized devices).next s e = some t) (hboth : BothAuthorized t) :
    0 < t.recordGestures ∨
      (Known t ∧ ∃ medium, (medium, true) ∈ t.mainQueue) ∨ ∃ medium, 0 < t.requests medium := by
  cases e with
  | tap medium =>
    obtain ⟨_, rfl⟩ := Option.ite_some_none_eq_some.mp hn
    refine Or.inr (Or.inr ⟨medium, ?_⟩)
    simp
  | authorize medium =>
    obtain ⟨hrequest, rfl⟩ := Option.ite_some_none_eq_some.mp hn
    exact Or.inr (Or.inr ⟨medium, hrequest⟩)
  | callback medium =>
    -- both are authorized, so this callback finds them and leaves a granted completion
    obtain ⟨_, rfl⟩ := Option.ite_some_none_eq_some.mp hn
    have hknown := (next_known hn).mpr (Or.inr ⟨⟨medium, rfl⟩, hboth⟩)
    refine Or.inr (Or.inl ⟨hknown, medium, List.mem_append.mpr (Or.inr ?_)⟩)
    exact List.mem_singleton.mpr (congrArg (Prod.mk medium) (hboth medium).symm)
  | completion medium access =>
    obtain ⟨rest, hqueue, ht⟩ := completion_eq_some hn
    have hboth' : BothAuthorized s := fun m =>
      ((next_authorized hn m).mp (hboth m)).resolve_right (by simp)
    have hgestures := next_recordGestures hn
    rcases h.left hboth' with hset | ⟨hknown, m, hm⟩ | ⟨m, hm⟩
    · exact Or.inl (by omega)
    · rw [hqueue, List.mem_cons] at hm
      rcases hm with hhead | hrest
      · obtain ⟨rfl, rfl⟩ := Prod.mk.inj hhead
        rw [show s.cameraManager.cameraAndAudioAccessPermitted = true from hknown] at hgestures
        exact Or.inl (hgestures ▸ Nat.succ_pos _)
      · refine Or.inr (Or.inl ⟨(next_known hn).mpr (Or.inl hknown), m, ?_⟩)
        rw [ht]
        exact hrest
    · refine Or.inr (Or.inr ⟨m, ?_⟩)
      rw [ht]
      exact hm

theorem start_known : Known (permissions authorized devices).start ↔
    BothAuthorized (permissions authorized devices).start := by
  rw [bothAuthorized_iff]
  exact iff_of_eq (congrArg (· = true) (MediaViewController.setupView_permitted _ devices))

theorem start_recordGestures : (permissions authorized devices).start.recordGestures =
    if authorized .video && authorized .audio then 1 else 0 :=
  (MediaViewController.setupView_recordGestures _ devices).trans (Nat.zero_add _)

theorem asked_start : Asked authorized [] (permissions authorized devices).start := by
  have hset : BothAuthorized (permissions authorized devices).start ↔
      0 < (permissions authorized devices).start.recordGestures := by
    rw [bothAuthorized_iff, start_recordGestures]
    change (authorized .video && authorized .audio) = true ↔ _
    cases authorized .video && authorized .audio <;> simp
  exact ⟨fun m => by simp [permissions], start_known.mp, fun h => start_known.mpr (hset.mpr h),
    fun h => Or.inl (hset.mp h)⟩

theorem Asked.next (h : Asked authorized events s)
    (hn : (permissions authorized devices).next s e = some t) :
    Asked authorized (events ++ [e]) t where
  authorized m := by
    rw [next_authorized hn, h.authorized, List.mem_append, List.mem_singleton, or_assoc,
      @eq_comm _ e]
  known hknown := by
    rcases (next_known hn).mp hknown with hknown | ⟨_, hboth⟩
    · exact (h.known hknown).next hn
    · exact hboth.next hn
  gestures hset := by
    rw [next_recordGestures hn] at hset
    refine (next_known hn).mpr (Or.inl ?_)
    by_cases hknown : Known s
    · exact hknown
    · refine h.gestures ?_
      rw [Known, Bool.not_eq_true] at hknown
      simpa [hknown] using hset
  left := h.left_next hn

theorem counted_start : Counted authorized [] (permissions authorized devices).start := by
  have hboth := bothAuthorized_iff (s := (permissions authorized devices).start)
  have hgestures : (permissions authorized devices).start.recordGestures =
      if authorized .video && authorized .audio then 1 else 0 := start_recordGestures
  by_cases h : (authorized .video && authorized .audio) = true
  · rw [if_pos h] at hgestures
    refine .started hgestures ?_ (fun _ => rfl) rfl
    exact (MediaViewController.setupView_asksPermission _ devices).trans (congrArg not h)
  · rw [if_neg h] at hgestures
    exact .unknown (fun hknown => h (hboth.mp (start_known.mp hknown))) hgestures

/-- A screen that has been set up at the start asks for nothing. -/
theorem next_started (hview : s.asksPermission = false)
    (hrequests : ∀ medium, s.requests medium = 0) (hqueue : s.mainQueue = []) :
    (permissions authorized devices).next s e = none := by
  cases e with
  | tap _ => exact if_neg fun h => absurd h.1 (by simp [hview])
  | authorize medium | callback medium => exact if_neg (by simp [hrequests medium])
  | completion _ _ => simp only [permissions, hqueue]

theorem Counted.next (h : Counted authorized events s) (ha : Asked authorized events s)
    (hn : (permissions authorized devices).next s e = some t) :
    Counted authorized (events ++ [e]) t := by
  have hgestures' := next_recordGestures hn
  cases h with
  | started _ hview hrequests hqueue =>
    cases (next_started hview hrequests hqueue).symm.trans hn
  | unknown hknown hgestures =>
    rw [Known, Bool.not_eq_true] at hknown
    rw [hknown, hgestures, Bool.and_false] at hgestures'
    by_cases hknown' : Known t
    · obtain ⟨⟨medium, rfl⟩, hboth⟩ :=
        ((next_known hn).mp hknown').resolve_left (by simp [Known, hknown])
      exact .known events medium [] rfl (fun m => (ha.authorized m).mp (hboth m)) hknown' hgestures'
    · exact .unknown hknown' hgestures'
  | known before medium after hsplit hboth hknown hgestures =>
    refine .known before medium (after ++ [e]) (by simp [hsplit]) hboth
      ((next_known hn).mpr (Or.inl hknown)) ?_
    rw [Known] at hknown
    rw [hgestures', hgestures, hknown, Bool.and_true, List.countP_append, List.countP_singleton]

theorem asked_counted_of_run (h : (permissions authorized devices).Run events s) :
    Asked authorized events s ∧ Counted authorized events s := by
  induction h with
  | nil => exact ⟨asked_start, counted_start⟩
  | snoc _ hn ih => exact ⟨ih.1.next hn, ih.2.next ih.1 hn⟩

/-- Once the permission is known every granted completion sets the session up. -/
theorem recordGestures_of_known (hknown : Known u)
    (h : ((permissions authorized devices).startAt u).Run after s) :
    Known s ∧ s.recordGestures = u.recordGestures + after.countP PermissionEvent.isGrant := by
  induction h with
  | nil => exact ⟨hknown, rfl⟩
  | @snoc as v a w _ hn ih =>
    obtain ⟨hknown', hgestures⟩ := ih
    have hn : (permissions authorized devices).next v a = some w := hn
    refine ⟨(next_known hn).mpr (Or.inl hknown'), ?_⟩
    rw [Known] at hknown'
    rw [next_recordGestures hn, hgestures, hknown', Bool.and_true, List.countP_append,
      List.countP_singleton, Nat.add_assoc]

end Step

theorem GrantsOnce.of_prefix {authorized : AVMediaType → Bool}
    {events before : List PermissionEvent} (h : GrantsOnce authorized events)
    (hp : before <+: events) : GrantsOnce authorized before := by
  obtain ⟨rest, rfl⟩ := hp
  rintro first medium after rfl hboth
  have hafter := h first medium (after ++ rest) (by simp) hboth
  rw [List.countP_append] at hafter
  omega

/-- In every state of a run the session has been set up for authorized media only, at most once,
and once where nothing is left to do, if and only if in that run at most one granted completion
comes after a callback that finds both media authorized. -/
theorem setUpSession_once_iff {authorized : AVMediaType → Bool} {devices : Bool}
    {events : List PermissionEvent} {s : PermissionScreen}
    (h : (permissions authorized devices).Run events s) :
    (permissions authorized devices).AllStates SetsUpOnce events ↔
      GrantsOnce authorized events := by
  constructor
  · rintro hall before medium after rfl hboth
    have hlast := (hall _ (List.prefix_refl _) s h).atMostOnce
    rw [← List.singleton_append, ← List.append_assoc] at h
    obtain ⟨v, hv, hafter⟩ := Machine.run_append_iff.mp h
    obtain ⟨u, hu, hn⟩ := Machine.run_concat_iff.mp hv
    have hasked := (asked_counted_of_run hu).1
    have hknown : Known v :=
      (next_known hn).mpr (Or.inr ⟨⟨medium, rfl⟩, fun m => (hasked.authorized m).mpr (hboth m)⟩)
    have hgestures := (recordGestures_of_known hknown hafter).2
    omega
  · intro hgrants before hp t ht
    obtain ⟨hasked, hcounted⟩ := asked_counted_of_run ht
    refine ⟨fun hset => hasked.known (hasked.gestures hset), ?_, fun hboth hrequests hqueue => ?_⟩
    · cases hcounted with
      | started hgestures => exact hgestures.le
      | unknown _ hgestures => omega
      | known first medium after hsplit hboth _ hgestures =>
        exact hgestures ▸ hgrants.of_prefix hp first medium after hsplit hboth
    · rcases hasked.left hboth with hset | ⟨_, m, hm⟩ | ⟨m, hm⟩
      · exact hset
      · simp [hqueue] at hm
      · simp [hrequests m] at hm

/-- The camera is authorized, and the microphone is asked for. -/
def askedForMicrophone : List PermissionEvent :=
  [.tap .audio, .authorize .audio, .callback .audio, .completion .audio true]

theorem setUpSession_once_iff_askedForMicrophone :
    (permissions (· = .video) true).AllStates SetsUpOnce askedForMicrophone ↔
      GrantsOnce (· = .video) askedForMicrophone :=
  setUpSession_once_iff (Machine.run_iff_exec.mpr rfl)

/-- Both media are authorized before the first of the two callbacks runs. -/
theorem setUpSession_runs_twice :
    ∃ s, (permissions (fun _ => false) true).Run
        [.tap .video, .tap .audio, .authorize .video, .authorize .audio, .callback .video,
          .callback .audio, .completion .video true, .completion .audio true] s ∧
      s.recordGestures = 2 ∧ ¬ SetsUpOnce s := by
  refine ⟨_, Machine.run_iff_exec.mpr rfl, rfl, fun h => ?_⟩
  exact absurd h.atMostOnce (by decide)

end TiktokClone
