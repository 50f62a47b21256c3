import TiktokClone.Media.Consent
import TiktokClone.Home.PublishedFeed

/-!
# From the camera to the feed

Camera screens are opened at any time. Their next buttons push posting screens, which publish
to the collection that the feed queries. So every video of the feed comes from a camera, and
from one whose user had authorized it before anything was recorded.
-/

namespace TiktokClone

open Library

/-- A camera screen is opened with the authorizations of that time; `devices` tells whether
camera and microphone can be opened. -/
structure CameraOpening where
  authorized : AVMediaType → Bool
  devices : Bool

/-- A step of a camera screen, or a tap on its next button. -/
inductive CaptureStep
  | camera (e : CameraEvent)
  | navigateToPosting

/-- The camera screen with its next button. A button without opacity gets no taps. -/
def cameraWithNext (o : CameraOpening) : Machine CameraScreen CaptureStep where
  start := (camera o.authorized o.devices).start
  next s
    | .camera e => (camera o.authorized o.devices).next s e
    | .navigateToPosting => if s.nextBtnAlpha ≠ 0 then some s else none

/-- `navigateToPosting`: the video goes on to a new posting screen. -/
def App.navigateToPosting (f : Foundation) (s : App) (videoURL : Option URL) : App :=
  match videoURL with
  | none => s
  | some videoURL => { s with screens := { s.screens with
      members := s.screens.members ++ [(some videoURL, (posting f (some videoURL)).start)] } }

/-- The camera screens around the app. Posting screens are pushed by camera screens only. -/
def capturing (f : Foundation) :
    Sharing CameraOpening CameraScreen CaptureStep App AppEvent where
  component := cameraWithNext
  start := (app f).start
  allowed _ _ _ _ := true
  effect r _ s e _ :=
    match e with
    | .camera _ => r
    | .navigateToPosting => r.navigateToPosting f s.videoURL
  step r e :=
    match e with
    | .screens (.make _) => none
    | .screens e => (app f).next r (.screens e)
    | .feed e => (app f).next r (.feed e)
    | .queried i n => (app f).next r (.queried i n)

abbrev Cameras := Family CameraOpening CameraScreen App

abbrev CamerasEvent := FamilyEvent CameraOpening CaptureStep AppEvent

/-- The movie output of a camera screen reports a recording without an error. -/
def recordedBy (k : Nat) (file : URL) : CamerasEvent :=
  .member k (.camera (.recording (.fileOutput file none)))

/-- The camera screen has recorded the file, and by then the user had authorized both media. -/
def RecordedWithConsent (f : Foundation) (events : List CamerasEvent) (k : Nat) (file : URL) :
    Prop :=
  ∃ before after, events = before ++ recordedBy k file :: after ∧
    ∃ s : Cameras, ∃ o c, (capturing f).machine.Run before s ∧ s.members[k]? = some (o, c) ∧
      ∀ medium, c.authorized medium = true

/-- The videos of the camera screens and of the posting screens have been recorded with
consent. -/
structure Recorded (f : Foundation) (events : List CamerasEvent) (s : Cameras) : Prop where
  app : (TiktokClone.app f).Reachable s.resource
  cameras : ∀ k o c file, s.members[k]? = some (o, c) → c.videoURL = some file →
    RecordedWithConsent f events k file
  screens : ∀ i ∈ s.resource.screens.members.map Prod.fst, ∀ file, i = some file →
    ∃ k, RecordedWithConsent f events k file

section Cameras

variable {f : Foundation} {events : List CamerasEvent} {s t : Cameras} {e : CamerasEvent}

theorem RecordedWithConsent.concat {k : Nat} {file : URL}
    (h : RecordedWithConsent f events k file) (e : CamerasEvent) :
    RecordedWithConsent f (events ++ [e]) k file := by
  obtain ⟨before, after, rfl, hs⟩ := h
  exact ⟨before, after ++ [e], by rw [List.append_assoc, List.cons_append], hs⟩

/-- A camera screen keeps to the user's consent, and a new one has no video. -/
theorem consented_member (h : (capturing f).machine.Reachable s) {k : Nat} {o : CameraOpening}
    {c : CameraScreen} (hk : s.members[k]? = some (o, c)) : Consented c := by
  refine (Sharing.member_invariant (R := fun _ c => Consented c) (fun _ => consented_start) ?_ h
    hk).2
  intro _ _ o p a q _ hp _ hn
  cases a with
  | camera e => exact hp.next hn
  | navigateToPosting =>
    obtain ⟨_, rfl⟩ := Option.ite_some_none_eq_some.mp hn
    exact hp

theorem start_videoURL (o : CameraOpening) : (cameraWithNext o).start.videoURL = none := by
  change ((MediaViewController.initial o.authorized).setupView o.devices).videoURL = none
  rw [MediaViewController.setupView]
  split <;> rfl

/-- A step of the app makes no posting screen. -/
theorem makings_of_step {r r' : App} {b : AppEvent} (h : (capturing f).step r b = some r') :
    (app f).next r b = some r' ∧
      r'.screens.members.map Prod.fst = r.screens.members.map Prod.fst := by
  cases b with
  | screens e =>
    cases e with
    | make i => cases h
    | member k e | resource e =>
      refine ⟨h, ?_⟩
      obtain ⟨screens, hn, rfl⟩ := Option.map_eq_some_iff.mp h
      rcases Sharing.makings_next hn with hsame | ⟨i, hmake, _⟩
      · exact hsame
      · cases hmake
  | feed e =>
    refine ⟨h, ?_⟩
    obtain ⟨_, h⟩ := Option.ite_none_left_eq_some.mp h
    obtain ⟨feed, _, rfl⟩ := Option.map_eq_some_iff.mp h
    rfl
  | queried i n =>
    refine ⟨h, ?_⟩
    simp only [capturing, app] at h
    split at h
    · cases h
    · obtain ⟨feed, _, rfl⟩ := Option.map_eq_some_iff.mp h
      rfl

/-- What has been recorded with consent stays so. -/
theorem Recorded.cameras_concat (h : Recorded f events s) {k : Nat} {o : CameraOpening}
    {c : CameraScreen} {file : URL} (hk : s.members[k]? = some (o, c))
    (hvideo : c.videoURL = some file) (e : CamerasEvent) :
    RecordedWithConsent f (events ++ [e]) k file := (h.cameras k o c file hk hvideo).concat e

/-- A camera screen that takes a step keeps its video, or it records one with consent. -/
theorem Recorded.cameras_set (h : Recorded f events s) {j : Nat} {o : CameraOpening}
    {p q : CameraScreen} (hj : s.members[j]? = some (o, p)) (e : CamerasEvent)
    (hvideo : ∀ file, q.videoURL = some file → p.videoURL = some file ∨
      RecordedWithConsent f (events ++ [e]) j file) (k : Nat) (o' : CameraOpening)
    (c : CameraScreen) (file : URL) (hk : (s.members.set j (o, q))[k]? = some (o', c))
    (hfile : c.videoURL = some file) : RecordedWithConsent f (events ++ [e]) k file := by
  rcases Sharing.getElem?_members_set hk with ⟨rfl, hnew⟩ | ⟨_, hold⟩
  · obtain ⟨rfl, rfl⟩ := Prod.mk.inj hnew
    rcases hvideo file hfile with hsame | hrecorded
    · exact h.cameras_concat hj hsame e
    · exact hrecorded
  · exact h.cameras_concat hold hfile e

theorem Recorded.screens_concat (h : Recorded f events s) {i : Option URL}
    (hi : i ∈ s.resource.screens.members.map Prod.fst) {file : URL} (hfile : i = some file)
    (e : CamerasEvent) : ∃ k, RecordedWithConsent f (events ++ [e]) k file :=
  (h.screens i hi file hfile).imp fun _ hk => hk.concat e

theorem Recorded.next (h : Recorded f events s) (hrun : (capturing f).machine.Run events s)
    (hn : (capturing f).machine.next s e = some t) : Recorded f (events ++ [e]) t := by
  cases e with
  | make o =>
    obtain rfl := Option.some.inj hn
    refine ⟨h.app, fun k o' c file hk hvideo => ?_, fun i hi file hfile =>
      h.screens_concat hi hfile _⟩
    rcases Sharing.getElem?_members_concat hk with hold | ⟨_, hnew⟩
    · exact h.cameras_concat hold hvideo _
    · obtain ⟨rfl, rfl⟩ := Prod.mk.inj hnew
      change (cameraWithNext o').start.videoURL = some file at hvideo
      rw [start_videoURL] at hvideo
      cases hvideo
  | member j a =>
    obtain ⟨o, p, q, hj, _, hnext, rfl⟩ := Sharing.next_member hn
    cases a with
    | camera e =>
      refine ⟨h.app, h.cameras_set hj _ fun file hfile => ?_, fun i hi file hfile =>
        h.screens_concat hi hfile _⟩
      rcases videoURL_next hnext with hsame | ⟨url, rfl, hurl⟩
      · exact Or.inl (hsame.symm.trans hfile)
      · -- The report that makes the video is the last event, and consent came before it.
        obtain rfl := Option.some.inj (hurl.symm.trans hfile)
        have hreport : (camera o.authorized o.devices).next p
          (.recording (.fileOutput url none)) = some q := hnext
        exact Or.inr ⟨events, [], rfl, s, o, p, hrun, hj,
          (consented_member ⟨_, hrun⟩ hj).of_fileOutput hreport⟩
    | navigateToPosting =>
      obtain ⟨_, rfl⟩ := Option.ite_some_none_eq_some.mp hnext
      have hmembers := h.cameras_set hj (.member j .navigateToPosting) fun _ hfile =>
        Or.inl hfile
      cases hvideo : p.videoURL with
      | none =>
        refine ⟨?_, hmembers, fun i hi file hfile => ?_⟩
        · simp only [capturing, App.navigateToPosting, hvideo]
          exact h.app
        · simp only [capturing, App.navigateToPosting, hvideo] at hi
          exact h.screens_concat hi hfile _
      | some url =>
        refine ⟨?_, hmembers, fun i hi file hfile => ?_⟩
        · simp only [capturing, App.navigateToPosting, hvideo]
          exact h.app.next (a := .screens (.make (some url))) rfl
        · simp only [capturing, App.navigateToPosting, hvideo, List.map_append, List.mem_append,
            List.map_singleton, List.mem_singleton] at hi
          rcases hi with hold | rfl
          · exact h.screens_concat hold hfile _
          · obtain rfl := Option.some.inj hfile
            exact ⟨j, h.cameras_concat hj hvideo _⟩
  | resource b =>
    obtain ⟨r, hr, rfl⟩ := Sharing.next_resource hn
    obtain ⟨hstep, hmakings⟩ := makings_of_step hr
    exact ⟨h.app.next hstep, fun k o c file hk hvideo => h.cameras_concat hk hvideo _,
      fun i hi file hfile => h.screens_concat (hmakings ▸ hi) hfile _⟩

theorem recorded_of_run (h : (capturing f).machine.Run events s) : Recorded f events s := by
  induction h with
  | nil =>
    refine ⟨⟨[], .nil⟩, ?_, ?_⟩
    · rintro _ _ _ _ ⟨⟩
    · rintro _ ⟨⟩
  | snoc hr hn ih => exact ih.next hr hn

/-- Every video of the feed was recorded with consent. Whatever any number of camera screens,
posting screens, the server and the feed do, a post that the feed shows is the post of a
publish, with the identifier of its document and the download URL that this publish was given
for its file; the file was uploaded under the publish's name, and it is one that the movie output
of a camera screen has reported without an error, when the user had already authorized camera
and microphone. -/
theorem feed_shows_recorded_videos (h : (capturing f).machine.Run events s) {post : Post}
    (hm : post ∈ s.resource.feed.controller.data) :
    ∃ write ∈ s.resource.screens.resource.collection, ∃ publish file, ∃ u : URL, ∃ k,
      s.resource.screens.publish write.publish = some (some file, publish) ∧
        publish.downloadURL = some u ∧
        ⟨write.publish, "Videos/" ++ publish.post.video, file⟩ ∈
          s.resource.screens.resource.objects ∧
        post = { publish.post with
          videoURL := f.url u.absoluteString, id := write.document.documentID } ∧
        RecordedWithConsent f events k file := by
  have hs := recorded_of_run h
  obtain ⟨hscreens, hfeed⟩ := app_reachable hs.app
  have hbegins := (Accumulates.of_reachable hfeed).docs _ List.mem_cons_self
  obtain ⟨write, hwrite, rfl⟩ := docs_subset hs.app post (hbegins.subset hm)
  obtain ⟨publish, file, u, hpublish, hu, hupload, hpost⟩ :=
    (Integrity.of_reachable hscreens).post_document hwrite
  obtain ⟨m, hmember, hmade⟩ := Option.bind_eq_some_iff.mp hpublish
  obtain ⟨_, _, hpair⟩ := Option.map_eq_some_iff.mp hmade
  have hmaking : m.1 ∈ s.resource.screens.members.map Prod.fst :=
    List.mem_map_of_mem (List.mem_of_getElem? hmember)
  obtain ⟨k, hrecorded⟩ := hs.screens _ hmaking file (Prod.mk.inj hpair).1
  exact ⟨write, hwrite, publish, file, u, k, hpublish, hu, hupload, hpost, hrecorded⟩

end Cameras

/-- The user authorizes both media, records a video and publishes it; then the feed is queried. -/
def recordedAndPublished : List CamerasEvent :=
  [.make ⟨fun _ => false, true⟩] ++
    authorizedAndRecorded.map (fun e => .member 0 (.camera e)) ++
    .member 0 .navigateToPosting ::
      ([.feed (.subscribe .posts), .screens (.member 0 (.tap none "a" 1000 2000)),
        .screens (.resource (.putFile 0)),
        .screens (.member 0 (.putFileAnswered 0 (some ⟨1⟩) none)),
        .screens (.member 0 (.downloadURLAnswered 0 (some ⟨"https://a"⟩) none "1")),
        .screens (.resource (.setData 0)), .queried 0 1, .feed .runMain] : List AppEvent).map
          .resource

theorem feed_shows_recorded_videos_recordedAndPublished : ∃ (s : Cameras) (post : Post),
    post ∈ s.resource.feed.controller.data ∧
      ∃ write ∈ s.resource.screens.resource.collection, ∃ publish file, ∃ u : URL, ∃ k,
        s.resource.screens.publish write.publish = some (some file, publish) ∧
          publish.downloadURL = some u ∧
          ⟨write.publish, "Videos/" ++ publish.post.video, file⟩ ∈
            s.resource.screens.resource.objects ∧
          post = { publish.post with
            videoURL := Foundation.plain.url u.absoluteString
            id := write.document.documentID } ∧
          RecordedWithConsent .plain recordedAndPublished k file := by
  obtain ⟨s, post, hs, hm⟩ : ∃ (s : Cameras) (post : Post),
      (capturing .plain).machine.Run recordedAndPublished s ∧
        post ∈ s.resource.feed.controller.data :=
    ⟨_, _, Machine.run_iff_exec.mpr rfl, List.mem_cons_self⟩
  exact ⟨s, post, hm, feed_shows_recorded_videos hs hm⟩

end TiktokClone
