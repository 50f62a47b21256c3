import Mathlib.Data.List.Perm.Basic
import Mathlib.Logic.Function.Basic
import TiktokClone.Library.Family
import TiktokClone.Post.PublishingProtocol

/-!
# The posting screens and Firebase

Any number of posting screens publish to one storage and one collection. A call reaches the
server at any time after it was made, before a successful answer and possibly after a failed
one. A document never refers to a file that was not uploaded. Whether the file under its name
is still its own depends on the names that the publishes draw.
-/

namespace TiktokClone

open Library

/-- A publish, by its screen and its position there. -/
abbrev PublishID := Nat × Nat

/-- A file on its way to the storage, or in it. -/
structure Upload where
  publish : PublishID
  path : String
  file : URL
  deriving DecidableEq, Repr

/-- A document on its way to the collection, or in it. -/
structure DocumentWrite where
  publish : PublishID
  document : Document

/-- What the server has executed and what is still on its way, both in order. -/
structure Firebase where
  uploading : List Upload
  objects : List Upload
  writing : List DocumentWrite
  collection : List DocumentWrite

/-- The server executes one of the calls on its way. -/
inductive FirebaseEvent
  | putFile (n : Nat)
  | setData (n : Nat)

namespace Firebase

/-- The storage holds the latest file that was put under a path. -/
def object (r : Firebase) (path : String) : Option URL :=
  (r.objects.reverse.find? fun upload => upload.path = path).map Upload.file

/-- A successful answer comes after the server has executed the call. -/
def answers (r : Firebase) (k : Nat) : PostingEvent → Bool
  | .putFileAnswered id (some _) none => decide ((k, id) ∈ r.objects.map Upload.publish)
  | .setDataAnswered id none => decide ((k, id) ∈ r.collection.map DocumentWrite.publish)
  | .tap .. | .putFileAnswered .. | .downloadURLAnswered .. | .setDataAnswered .. => true

/-- The calls that a step of a screen makes. -/
def calls (r : Firebase) (k : Nat) (p : Posting) (e : PostingEvent) (q : Posting) : Firebase :=
  match e with
  | .tap .. =>
    match q.awaiting p.publishes.length with
    | some (_, .putFile path file) =>
      { r with uploading := r.uploading ++ [⟨(k, p.publishes.length), path, file⟩] }
    | _ => r
  | .downloadURLAnswered id _ _ _ =>
    match q.awaiting id with
    | some (_, .setData document) => { r with writing := r.writing ++ [⟨(k, id), document⟩] }
    | _ => r
  | .putFileAnswered .. | .setDataAnswered .. => r

def execute (r : Firebase) : FirebaseEvent → Option Firebase
  | .putFile n => r.uploading[n]?.map fun upload =>
    { r with uploading := r.uploading.eraseIdx n, objects := r.objects ++ [upload] }
  | .setData n => r.writing[n]?.map fun write =>
    { r with writing := r.writing.eraseIdx n, collection := r.collection ++ [write] }

end Firebase

/-- The screens, each made with its video, around Firebase. -/
def publishing (f : Foundation) :
    Sharing (Option URL) Posting PostingEvent Firebase FirebaseEvent where
  component := posting f
  start := ⟨[], [], [], []⟩
  allowed r k _ e := r.answers k e
  effect := Firebase.calls
  step := Firebase.execute

abbrev Screens := Family (Option URL) Posting Firebase

/-- A publish together with the video of its screen. -/
def Screens.publish (s : Screens) (id : PublishID) : Option (Option URL × Publish) :=
  s.members[id.1]?.bind fun m => m.2.publishes[id.2]?.map fun publish => (m.1, publish)

/-! ### The steps of one screen -/

/-- What an answer makes of the publish that waits for it, and the call that it makes next. -/
inductive Continues (e : PostingEvent) (id : Nat) (publish next : Publish) : Prop
  | uploaded (metadata : StorageMetadata) (path : String) (file : URL)
      (event : e = .putFileAnswered id (some metadata) none)
      (awaited : publish.pending = some (.putFile path file))
      (result : next = { publish with pending := some (.downloadURL path) })
  | located (u : URL) (error : Option String) (documentID path : String)
      (event : e = .downloadURLAnswered id (some u) error documentID)
      (awaited : publish.pending = some (.downloadURL path))
      (result : next = { publish with
        pending := some (.setData ⟨documentID, VideoPostRequest.publishedData publish.post u⟩)
        downloadURL := some u })
  | stopped (silent : ∀ r k p q, q.awaiting id = none → Firebase.calls r k p e q = r)
      (pending : next.pending = none) (post : next.post = publish.post)
      (downloadURL : next.downloadURL = publish.downloadURL)

/-- Everything that a step can do to the publishes of a screen. -/
inductive PublishStep (f : Foundation) (p : Posting) (e : PostingEvent) (q : Posting) : Prop
  | tapped (caption : Option String) (videoName : String) (likeCount shareCount : Int)
      (file : URL) (event : e = .tap caption videoName likeCount shareCount)
      (video : p.controller.videoURL = some file)
      (publishes : q.publishes = p.publishes ++ [MediaViewModel.postVideo f file
        (caption.getD "") videoName likeCount shareCount])
  | blocked (caption : Option String) (videoName : String) (likeCount shareCount : Int)
      (event : e = .tap caption videoName likeCount shareCount)
      (publishes : q.publishes = p.publishes)
  | answered (id : Nat) (publish next : Publish) (stands : p.publishes[id]? = some publish)
      (publishes : q.publishes = p.publishes.set id next)
      (continues : Continues e id publish next)

section Screen

variable {f : Foundation} {videoURL : Option URL} {p q : Posting} {e : PostingEvent}

/-- The handlers do not touch the video of the screen. -/
theorem handle_videoURL (c : MediaPostingViewController) (call : HandlerCall String) :
    (c.handle call).videoURL = c.videoURL := by
  cases call <;> rfl

theorem resume_eq_some {id : Nat} {next : Publish} {call : Option (HandlerCall AnyValue)}
    (h : p.resume id (next, call) = some q) :
    (q.publishes = p.publishes.set id
      { next with calls := next.calls ++ call.toList }) ∧
      q.controller.videoURL = p.controller.videoURL := by
  cases call with
  | none =>
    obtain rfl := Option.some.inj h
    exact ⟨by simp, rfl⟩
  | some call =>
    simp only [Posting.resume] at h
    split at h
    · cases h
    · obtain rfl := Option.some.inj h
      exact ⟨rfl, handle_videoURL _ _⟩

theorem publishStep_of_next (h : (posting f videoURL).next p e = some q) :
    PublishStep f p e q ∧ q.controller.videoURL = p.controller.videoURL := by
  cases e with
  | tap caption videoName likeCount shareCount =>
    obtain ⟨_, rfl⟩ := Option.ite_some_none_eq_some.mp h
    cases hurl : p.controller.videoURL with
    | none =>
      refine ⟨.blocked caption videoName likeCount shareCount rfl ?_, ?_⟩
      · simp only [Posting.publishPost, hurl]
      · simp only [Posting.publishPost, hurl]
    | some file =>
      refine ⟨.tapped caption videoName likeCount shareCount file rfl hurl ?_, ?_⟩
      · simp only [Posting.publishPost, hurl]
      · simp only [Posting.publishPost, hurl]
  | putFileAnswered id metadata error =>
    simp only [posting] at h
    split at h
    · rename_i publish path file hawaits
      obtain ⟨hstands, hpending⟩ := Posting.awaiting_eq_some_iff.mp hawaits
      obtain ⟨hpublishes, hvideo⟩ := resume_eq_some h
      refine ⟨.answered id publish _ hstands hpublishes ?_, hvideo⟩
      cases error with
      | some error => exact .stopped (fun _ _ _ _ _ => rfl) rfl rfl rfl
      | none =>
        cases metadata with
        | none => exact .stopped (fun _ _ _ _ _ => rfl) rfl rfl rfl
        | some metadata =>
          refine .uploaded metadata path file rfl hpending ?_
          simp
    · cases h
  | downloadURLAnswered id url error documentID =>
    simp only [posting] at h
    split at h
    · rename_i publish path hawaits
      obtain ⟨hstands, hpending⟩ := Posting.awaiting_eq_some_iff.mp hawaits
      cases url with
      | none =>
        obtain ⟨hpublishes, hvideo⟩ := resume_eq_some h
        refine ⟨.answered id publish _ hstands hpublishes ?_, hvideo⟩
        refine .stopped (fun r k p q hq => ?_) rfl rfl rfl
        simp only [Firebase.calls, hq]
      | some u =>
        obtain ⟨hpublishes, hvideo⟩ := resume_eq_some h
        refine ⟨.answered id publish _ hstands hpublishes ?_, hvideo⟩
        refine .located u error documentID path rfl hpending ?_
        simp
    · cases h
  | setDataAnswered id error =>
    simp only [posting] at h
    split at h
    · rename_i publish document hawaits
      obtain ⟨hstands, _⟩ := Posting.awaiting_eq_some_iff.mp hawaits
      obtain ⟨hpublishes, hvideo⟩ := resume_eq_some h
      have hstored : (p.store id document error).publishes = p.publishes ∧
          (p.store id document error).controller = p.controller := by
        cases error <;> exact ⟨rfl, rfl⟩
      rw [hstored.1] at hpublishes
      rw [hstored.2] at hvideo
      refine ⟨.answered id publish _ hstands hpublishes ?_, hvideo⟩
      cases error <;> exact .stopped (fun _ _ _ _ _ => rfl) rfl rfl rfl
    · cases h

theorem controller_videoURL (h : (posting f videoURL).Reachable p) :
    p.controller.videoURL = videoURL := by
  obtain ⟨_, hrun⟩ := h
  exact hrun.invariant (I := fun p => p.controller.videoURL = videoURL) rfl
    fun _ _ _ hp hn => (publishStep_of_next hn).2.trans hp

end Screen

/-! ### The steps of all screens with Firebase -/

namespace Screens

variable {f : Foundation} {s t : Screens} {k : Nat} {i : Option URL} {p q : Posting}

theorem publish_eq_some_iff {id : PublishID} {publish : Publish} :
    s.publish id = some (i, publish) ↔
      ∃ p, s.members[id.1]? = some (i, p) ∧ p.publishes[id.2]? = some publish := by
  rw [Screens.publish, Option.bind_eq_some_iff]
  constructor
  · rintro ⟨m, hm, h⟩
    obtain ⟨_, hpublish, he⟩ := Option.map_eq_some_iff.mp h
    obtain ⟨rfl, rfl⟩ := Prod.mk.inj he
    exact ⟨m.2, hm, hpublish⟩
  · rintro ⟨p, hm, hpublish⟩
    exact ⟨(i, p), hm, by rw [hpublish]; rfl⟩

/-- A step of one screen changes its own publishes only. -/
theorem publish_set (hk : s.members[k]? = some (i, p)) (id : PublishID) (r : Firebase) :
    Screens.publish ⟨s.members.set k (i, q), r⟩ id =
      if id.1 = k then q.publishes[id.2]?.map fun publish => (i, publish) else s.publish id := by
  rw [Screens.publish]
  split
  · rename_i hid
    rw [hid, List.getElem?_set_self (List.getElem?_eq_some_iff.mp hk).1, Option.bind_some]
  · rename_i hid
    rw [List.getElem?_set_ne (Ne.symm hid), Screens.publish]

/-- The publishes of one screen. -/
theorem publish_of_member (hk : s.members[k]? = some (i, p)) (n : Nat) :
    s.publish (k, n) = p.publishes[n]?.map fun publish => (i, publish) := by
  rw [Screens.publish, hk, Option.bind_some]

theorem publish_set_same (hk : s.members[k]? = some (i, p)) (r : Firebase)
    (h : q.publishes = p.publishes) :
    Screens.publish ⟨s.members.set k (i, q), r⟩ = s.publish := by
  funext id
  rw [publish_set hk]
  split
  · rename_i hid
    obtain ⟨k', n⟩ := id
    obtain rfl : k' = k := hid
    rw [publish_of_member hk, h]
  · rfl

theorem publish_set_set (hk : s.members[k]? = some (i, p)) (r : Firebase) {n : Nat}
    {publish next : Publish} (hn : p.publishes[n]? = some publish)
    (h : q.publishes = p.publishes.set n next) :
    Screens.publish ⟨s.members.set k (i, q), r⟩ =
      Function.update s.publish (k, n) (some (i, next)) := by
  funext ⟨k', n'⟩
  rw [publish_set hk, Function.update_apply]
  by_cases hk' : k' = k
  · subst hk'
    rw [if_pos rfl, publish_of_member hk, h]
    by_cases hn' : n' = n
    · subst hn'
      rw [List.getElem?_set_self (List.getElem?_eq_some_iff.mp hn).1, if_pos rfl, Option.map_some]
    · rw [List.getElem?_set_ne (Ne.symm hn'), if_neg fun he => hn' (congrArg Prod.snd he)]
  · rw [if_neg hk', if_neg fun he => hk' (congrArg Prod.fst he)]

theorem publish_set_concat (hk : s.members[k]? = some (i, p)) (r : Firebase) {publish : Publish}
    (h : q.publishes = p.publishes ++ [publish]) :
    Screens.publish ⟨s.members.set k (i, q), r⟩ =
      Function.update s.publish (k, p.publishes.length) (some (i, publish)) := by
  funext ⟨k', n'⟩
  rw [publish_set hk, Function.update_apply]
  by_cases hk' : k' = k
  · subst hk'
    rw [if_pos rfl, publish_of_member hk, h]
    by_cases hn' : n' = p.publishes.length
    · subst hn'
      rw [List.getElem?_concat_length, if_pos rfl, Option.map_some]
    · rw [if_neg fun he => hn' (congrArg Prod.snd he), List.getElem?_append]
      split
      · rfl
      · rename_i hlt
        rw [List.getElem?_eq_none (l := p.publishes) (by omega), List.getElem?_eq_none]
        rw [List.length_singleton]
        omega
  · rw [if_neg hk', if_neg fun he => hk' (congrArg Prod.fst he)]

/-- A new screen has published nothing. -/
theorem publish_make (s : Screens) (i : Option URL) :
    Screens.publish { s with members := s.members ++ [(i, (posting f i).start)] } =
      s.publish := by
  funext ⟨k, n⟩
  simp only [Screens.publish]
  rw [List.getElem?_append]
  split
  · rfl
  · rename_i hk
    rw [List.getElem?_eq_none (l := s.members) (by omega), List.getElem?_singleton]
    split <;> rfl

end Screens

/-- What an answer does to Firebase and to the publish that waits for it. -/
inductive Answer (r r' : Firebase) (id : PublishID) (publish next : Publish) : Prop
  | uploaded (path : String) (file : URL) (awaited : publish.pending = some (.putFile path file))
      (executed : id ∈ r.objects.map Upload.publish)
      (result : next = { publish with pending := some (.downloadURL path) })
      (firebase : r' = r)
  | located (u : URL) (path documentID : String)
      (awaited : publish.pending = some (.downloadURL path))
      (result : next = { publish with
        pending := some (.setData ⟨documentID, VideoPostRequest.publishedData publish.post u⟩)
        downloadURL := some u })
      (firebase : r' = { r with writing := r.writing ++
        [⟨id, documentID, VideoPostRequest.publishedData publish.post u⟩] })
  | stopped (pending : next.pending = none) (post : next.post = publish.post)
      (downloadURL : next.downloadURL = publish.downloadURL) (firebase : r' = r)

/-- Everything that a step can do to the publishes and to Firebase. -/
inductive FirebaseStep (f : Foundation) (s t : Screens) : Prop
  | same (publishes : t.publish = s.publish) (firebase : t.resource = s.resource)
  | tapped (id : PublishID) (file : URL) (publish : Publish) (fresh : s.publish id = none)
      (built : publish.post.Built f) (unlocated : publish.downloadURL = none)
      (pending : publish.pending = some (.putFile ("Videos/" ++ publish.post.video) file))
      (publishes : t.publish = Function.update s.publish id (some (some file, publish)))
      (firebase : t.resource = { s.resource with
        uploading := s.resource.uploading ++ [⟨id, "Videos/" ++ publish.post.video, file⟩] })
  | answered (id : PublishID) (i : Option URL) (publish next : Publish)
      (stands : s.publish id = some (i, publish))
      (publishes : t.publish = Function.update s.publish id (some (i, next)))
      (answer : Answer s.resource t.resource id publish next)
  | executed (b : FirebaseEvent) (publishes : t.publish = s.publish)
      (firebase : s.resource.execute b = some t.resource)

theorem firebaseStep_of_member {f : Foundation} {s t : Screens} {k : Nat} {e : PostingEvent}
    (hr : (publishing f).machine.Reachable s)
    (hn : (publishing f).machine.next s (.member k e) = some t) : FirebaseStep f s t := by
  obtain ⟨i, p, q, hk, hallowed, hnext, rfl⟩ := Sharing.next_member hn
  have hreach : (posting f i).Reachable p := Sharing.member_reachable hr hk
  obtain ⟨hstep, _⟩ := publishStep_of_next hnext
  cases hstep with
  | tapped caption videoName likeCount shareCount file he hvideo hpublishes =>
    obtain rfl : i = some file := (controller_videoURL hreach).symm.trans hvideo
    refine .tapped (k, p.publishes.length) file _ ?_ (.ofFields ..) rfl rfl
      (Screens.publish_set_concat hk _ hpublishes) ?_
    · rw [Screens.publish_of_member hk, List.getElem?_eq_none (le_refl _), Option.map_none]
    · have hawaiting : q.awaiting p.publishes.length = some (MediaViewModel.postVideo f file
          (caption.getD "") videoName likeCount shareCount,
          .putFile ("Videos/" ++ (videoName ++ "." ++ VIDEO_FILE_EXTENSION)) file) := by
        rw [Posting.awaiting_concat hpublishes, if_pos rfl]
        rfl
      subst he
      simp only [publishing, Firebase.calls, hawaiting]
      rfl
  | blocked caption videoName likeCount shareCount he hpublishes =>
    refine .same (Screens.publish_set_same hk _ hpublishes) ?_
    have hawaiting : q.awaiting p.publishes.length = none := by
      rw [Posting.awaiting, hpublishes, List.getElem?_eq_none (le_refl _), Option.bind_none]
    subst he
    simp only [publishing, Firebase.calls, hawaiting]
  | answered n publish next hstands hpublishes hcontinues =>
    refine .answered (k, n) i publish next ?_ (Screens.publish_set_set hk _ hstands hpublishes) ?_
    · rw [Screens.publish_of_member hk, hstands, Option.map_some]
    have hlt : n < p.publishes.length := (List.getElem?_eq_some_iff.mp hstands).1
    have hafter : q.awaiting n = next.pending.map fun call => (next, call) := by
      rw [Posting.awaiting, hpublishes, List.getElem?_set_self hlt, Option.bind_some]
    cases hcontinues with
    | uploaded metadata path file he hawaited hnext' =>
      subst he
      exact .uploaded path file hawaited (of_decide_eq_true hallowed) hnext' rfl
    | located u error documentID path he hawaited hnext' =>
      subst he hnext'
      refine .located u path documentID hawaited rfl ?_
      simp only [publishing, Firebase.calls, hafter, Option.map_some]
    | stopped hsilent hpending hpost hdownload =>
      rw [hpending, Option.map_none] at hafter
      exact .stopped hpending hpost hdownload (hsilent _ _ _ _ hafter)

theorem firebaseStep_of_next {f : Foundation} {s t : Screens}
    {e : FamilyEvent (Option URL) PostingEvent FirebaseEvent}
    (hr : (publishing f).machine.Reachable s)
    (hn : (publishing f).machine.next s e = some t) : FirebaseStep f s t := by
  cases e with
  | make i =>
    obtain rfl := Option.some.inj hn
    exact .same (s.publish_make i) rfl
  | member k e => exact firebaseStep_of_member hr hn
  | resource b =>
    obtain ⟨r, hr, rfl⟩ := Sharing.next_resource hn
    exact .executed b rfl hr

/-- A file under a path is the video of a screen, one of whose publishes drew that name. -/
def Upload.Agrees (upload : Upload) (s : Screens) : Prop :=
  ∃ publish, s.publish upload.publish = some (some upload.file, publish) ∧
    upload.path = "Videos/" ++ publish.post.video

/-- A document is the post of a publish, with the download URL that it was given. -/
def DocumentWrite.Agrees (write : DocumentWrite) (s : Screens) : Prop :=
  ∃ i publish u, s.publish write.publish = some (i, publish) ∧ publish.downloadURL = some u ∧
    write.document.data = VideoPostRequest.publishedData publish.post u

/-- Taking an element out of a list and putting it first. -/
theorem perm_of_getElem? {α : Type*} {l : List α} {n : Nat} {a : α} (h : l[n]? = some a) :
    (a :: l.eraseIdx n).Perm l := by
  obtain ⟨hlt, rfl⟩ := List.getElem?_eq_some_iff.mp h
  exact List.getElem_cons_eraseIdx_perm hlt

/-- What the publishes have sent to the server agrees with them. -/
structure Integrity (f : Foundation) (s : Screens) : Prop where
  built : ∀ id i publish, s.publish id = some (i, publish) → publish.post.Built f
  upload : ∀ upload ∈ s.resource.objects ++ s.resource.uploading, upload.Agrees s
  write : ∀ write ∈ s.resource.collection ++ s.resource.writing, write.Agrees s
  uploaded : ∀ write ∈ s.resource.collection ++ s.resource.writing,
    write.publish ∈ s.resource.objects.map Upload.publish
  once : ((s.resource.collection ++ s.resource.writing).map DocumentWrite.publish).Nodup
  /-- A publish that waits for its upload or its URL has no download URL yet. -/
  putFile : ∀ id i publish path file, s.publish id = some (i, publish) →
    publish.pending = some (.putFile path file) → publish.downloadURL = none
  downloadURL : ∀ id i publish path, s.publish id = some (i, publish) →
    publish.pending = some (.downloadURL path) →
      publish.downloadURL = none ∧ id ∈ s.resource.objects.map Upload.publish

/-- The publishes stand where they stood, with their posts and the URLs they were given. -/
def Keeps (s t : Screens) : Prop :=
  ∀ id i publish, s.publish id = some (i, publish) → ∃ kept, t.publish id = some (i, kept) ∧
    kept.post = publish.post ∧ ∀ u, publish.downloadURL = some u → kept.downloadURL = some u

section Keeps

variable {s t : Screens}

/-- When one publish is new or has changed, any other is found where it was. -/
theorem Screens.publish_update {id other : PublishID} {a b : Option URL × Publish}
    (ht : t.publish = Function.update s.publish id (some a)) (h : t.publish other = some b) :
    other = id ∧ b = a ∨ s.publish other = some b := by
  rw [ht, Function.update_apply] at h
  split at h
  · rename_i he
    exact Or.inl ⟨he, (Option.some.inj h).symm⟩
  · exact Or.inr h

theorem Keeps.of_fresh {id : PublishID} {new : Option URL × Publish} (h : s.publish id = none)
    (ht : t.publish = Function.update s.publish id (some new)) : Keeps s t := by
  intro other i publish hother
  have hne : other ≠ id := by
    rintro rfl
    rw [h] at hother
    cases hother
  refine ⟨publish, ?_, rfl, fun _ hu => hu⟩
  rw [ht, Function.update_of_ne hne, hother]

theorem Keeps.of_update {id : PublishID} {i : Option URL} {publish next : Publish}
    (h : s.publish id = some (i, publish))
    (ht : t.publish = Function.update s.publish id (some (i, next)))
    (hpost : next.post = publish.post)
    (hurl : ∀ u, publish.downloadURL = some u → next.downloadURL = some u) : Keeps s t := by
  intro other j old hother
  by_cases he : other = id
  · subst he
    obtain ⟨rfl, rfl⟩ := Prod.mk.inj (Option.some.inj (h.symm.trans hother))
    exact ⟨next, by rw [ht, Function.update_self], hpost, hurl⟩
  · exact ⟨old, by rw [ht, Function.update_of_ne he, hother], rfl, fun _ hu => hu⟩

theorem Upload.Agrees.keeps {upload : Upload} (h : upload.Agrees s) (hk : Keeps s t) :
    upload.Agrees t := by
  obtain ⟨publish, hpublish, hpath⟩ := h
  obtain ⟨kept, hkept, hpost, _⟩ := hk _ _ _ hpublish
  exact ⟨kept, hkept, by rw [hpath, hpost]⟩

theorem DocumentWrite.Agrees.keeps {write : DocumentWrite} (h : write.Agrees s)
    (hk : Keeps s t) : write.Agrees t := by
  obtain ⟨i, publish, u, hpublish, hu, hdata⟩ := h
  obtain ⟨kept, hkept, hpost, hurl⟩ := hk _ _ _ hpublish
  exact ⟨i, kept, u, hkept, hurl u hu, by rw [hdata, hpost]⟩

end Keeps

namespace Integrity

variable {f : Foundation} {s t : Screens}

/-- A publish without a download URL has not written a document. -/
theorem unwritten (h : Integrity f s) {id : PublishID} {i : Option URL} {publish : Publish}
    (hid : s.publish id = some (i, publish)) (hnone : publish.downloadURL = none) :
    id ∉ (s.resource.collection ++ s.resource.writing).map DocumentWrite.publish := by
  intro hm
  obtain ⟨write, hwrite, rfl⟩ := List.mem_map.mp hm
  obtain ⟨_, _, u, hpublish, hu, _⟩ := h.write write hwrite
  obtain ⟨_, rfl⟩ := Prod.mk.inj (Option.some.inj (hid.symm.trans hpublish))
  rw [hnone] at hu
  cases hu

theorem initial : Integrity f (publishing f).machine.start where
  built := fun _ _ _ h => nomatch h
  upload := fun _ h => absurd h List.not_mem_nil
  write := fun _ h => absurd h List.not_mem_nil
  uploaded := fun _ h => absurd h List.not_mem_nil
  once := List.nodup_nil
  putFile := fun _ _ _ _ _ h => nomatch h
  downloadURL := fun _ _ _ _ h => nomatch h

/-- The server executes a call that is on its way: the lists keep what they have together. -/
theorem executed (h : Integrity f s) (hp : t.publish = s.publish)
    (huploads : (t.resource.objects ++ t.resource.uploading).Perm
      (s.resource.objects ++ s.resource.uploading))
    (hobjects : s.resource.objects ⊆ t.resource.objects)
    (hwrites : (t.resource.collection ++ t.resource.writing).Perm
      (s.resource.collection ++ s.resource.writing)) : Integrity f t where
  built := hp ▸ h.built
  upload upload hm := by
    obtain ⟨publish, hpublish, hpath⟩ := h.upload upload (huploads.mem_iff.mp hm)
    exact ⟨publish, hp ▸ hpublish, hpath⟩
  write write hm := by
    obtain ⟨i, publish, u, hpublish, hu, hdata⟩ := h.write write (hwrites.mem_iff.mp hm)
    exact ⟨i, publish, u, hp ▸ hpublish, hu, hdata⟩
  uploaded write hm := List.map_subset _ hobjects (h.uploaded write (hwrites.mem_iff.mp hm))
  once := (hwrites.map _).nodup_iff.mpr h.once
  putFile := hp ▸ h.putFile
  downloadURL id i publish path hid hpending := by
    obtain ⟨hnone, hm⟩ := h.downloadURL id i publish path (hp ▸ hid) hpending
    exact ⟨hnone, List.map_subset _ hobjects hm⟩

theorem tapped (h : Integrity f s) {id : PublishID} {file : URL} {publish : Publish}
    (fresh : s.publish id = none) (built : publish.post.Built f)
    (unlocated : publish.downloadURL = none)
    (pending : publish.pending = some (.putFile ("Videos/" ++ publish.post.video) file))
    (publishes : t.publish = Function.update s.publish id (some (some file, publish)))
    (firebase : t.resource = { s.resource with
      uploading := s.resource.uploading ++ [⟨id, "Videos/" ++ publish.post.video, file⟩] }) :
    Integrity f t := by
  have hkeeps : Keeps s t := .of_fresh fresh publishes
  have hnew : t.publish id = some (some file, publish) := by
    rw [publishes, Function.update_self]
  refine ⟨fun other i p hother => ?_, fun upload hm => ?_, fun write hm => ?_, ?_, ?_,
    fun other i p path file' hother hp => ?_, fun other i p path hother hp => ?_⟩
  · rcases Screens.publish_update publishes hother with ⟨_, he⟩ | hold
    · obtain ⟨_, rfl⟩ := Prod.mk.inj he
      exact built
    · exact h.built other i p hold
  · rw [firebase, ← List.append_assoc, List.mem_append, List.mem_singleton] at hm
    rcases hm with hm | rfl
    · exact (h.upload upload hm).keeps hkeeps
    · exact ⟨publish, hnew, rfl⟩
  · rw [firebase] at hm
    exact (h.write write hm).keeps hkeeps
  · rw [firebase]
    exact h.uploaded
  · rw [firebase]
    exact h.once
  · rcases Screens.publish_update publishes hother with ⟨_, he⟩ | hold
    · obtain ⟨_, rfl⟩ := Prod.mk.inj he
      exact unlocated
    · exact h.putFile other i p path file' hold hp
  · rcases Screens.publish_update publishes hother with ⟨_, he⟩ | hold
    · obtain ⟨_, rfl⟩ := Prod.mk.inj he
      rw [pending] at hp
      cases hp
    · rw [firebase]
      exact h.downloadURL other i p path hold hp

/-- One publish changes, and what it sends to the server is its document. -/
theorem updated (h : Integrity f s) {id : PublishID} {i : Option URL} {publish next : Publish}
    (stands : s.publish id = some (i, publish))
    (publishes : t.publish = Function.update s.publish id (some (i, next)))
    (post : next.post = publish.post)
    (url : ∀ u, publish.downloadURL = some u → next.downloadURL = some u)
    (objects : t.resource.objects = s.resource.objects)
    (uploading : t.resource.uploading = s.resource.uploading)
    (writes : ∀ write ∈ t.resource.collection ++ t.resource.writing,
      write ∈ s.resource.collection ++ s.resource.writing ∨
        write.Agrees t ∧ write.publish ∈ s.resource.objects.map Upload.publish)
    (once : ((t.resource.collection ++ t.resource.writing).map DocumentWrite.publish).Nodup)
    (putFile : ∀ path file, next.pending = some (.putFile path file) → next.downloadURL = none)
    (downloadURL : ∀ path, next.pending = some (.downloadURL path) →
      next.downloadURL = none ∧ id ∈ s.resource.objects.map Upload.publish) :
    Integrity f t := by
  have hkeeps : Keeps s t := .of_update stands publishes post url
  have hlookup : ∀ other j p, t.publish other = some (j, p) →
      other = id ∧ p = next ∨ s.publish other = some (j, p) := by
    intro other j p hother
    exact (Screens.publish_update publishes hother).imp_left
      fun ⟨he, hp⟩ => ⟨he, (Prod.mk.inj hp).2⟩
  refine ⟨fun other j p hother => ?_, fun upload hm => ?_, fun write hm => ?_, fun write hm => ?_,
    once, fun other j p path file hother hp => ?_, fun other j p path hother hp => ?_⟩
  · rcases hlookup other j p hother with ⟨_, rfl⟩ | hold
    · exact post ▸ h.built id i publish stands
    · exact h.built other j p hold
  · rw [objects, uploading] at hm
    exact (h.upload upload hm).keeps hkeeps
  · rcases writes write hm with hold | ⟨hnew, _⟩
    · exact (h.write write hold).keeps hkeeps
    · exact hnew
  · rw [objects]
    rcases writes write hm with hold | ⟨_, hnew⟩
    · exact h.uploaded write hold
    · exact hnew
  · rcases hlookup other j p hother with ⟨_, rfl⟩ | hold
    · exact putFile path file hp
    · exact h.putFile other j p path file hold hp
  · rw [objects]
    rcases hlookup other j p hother with ⟨rfl, rfl⟩ | hold
    · exact downloadURL path hp
    · exact h.downloadURL other j p path hold hp

/-- A publish goes on after an answer. -/
theorem answered (h : Integrity f s) {id : PublishID} {i : Option URL} {publish next : Publish}
    (stands : s.publish id = some (i, publish))
    (publishes : t.publish = Function.update s.publish id (some (i, next)))
    (answer : Answer s.resource t.resource id publish next) : Integrity f t := by
  cases answer with
  | uploaded path file hawaited hexecuted hresult hr =>
    have hnone := h.putFile id i publish path file stands hawaited
    subst hresult
    refine h.updated stands publishes rfl (fun _ hu => hu) (by rw [hr]) (by rw [hr])
      (fun write hm => Or.inl (hr ▸ hm)) (hr ▸ h.once) (fun _ _ _ => hnone) fun _ _ => ?_
    exact ⟨hnone, hexecuted⟩
  | located u path documentID hawaited hresult hr =>
    obtain ⟨hnone, hexecuted⟩ := h.downloadURL id i publish path stands hawaited
    have hlist : t.resource.collection ++ t.resource.writing =
        (s.resource.collection ++ s.resource.writing) ++
          [⟨id, documentID, VideoPostRequest.publishedData publish.post u⟩] := by
      rw [hr, List.append_assoc]
    have hnew : t.publish id = some (i, next) := by rw [publishes, Function.update_self]
    subst hresult
    refine h.updated stands publishes rfl (fun v hv => ?_) (by rw [hr]) (by rw [hr])
      (fun write hm => ?_) ?_ nofun nofun
    · rw [hnone] at hv
      cases hv
    · rw [hlist, List.mem_append, List.mem_singleton] at hm
      refine hm.imp_right ?_
      rintro rfl
      exact ⟨⟨i, _, u, hnew, rfl, rfl⟩, hexecuted⟩
    · rw [hlist, List.map_append]
      refine h.once.append (List.nodup_singleton _) (List.disjoint_singleton.mpr ?_)
      exact h.unwritten stands hnone
  | stopped hpending hpost hurl hr =>
    refine h.updated stands publishes hpost (fun _ hu => hurl.trans hu) (by rw [hr]) (by rw [hr])
      (fun write hm => Or.inl (hr ▸ hm)) (hr ▸ h.once) (fun _ _ hp => ?_) fun _ hp => ?_
    · rw [hpending] at hp
      cases hp
    · rw [hpending] at hp
      cases hp

theorem next (h : Integrity f s) (hstep : FirebaseStep f s t) : Integrity f t := by
  cases hstep with
  | same hp hr => exact h.executed hp (by rw [hr]) (by rw [hr]; exact fun _ hm => hm) (by rw [hr])
  | tapped id file publish hfresh hbuilt hunlocated hpending hp hr =>
    exact h.tapped hfresh hbuilt hunlocated hpending hp hr
  | answered id i publish next hstands hp hanswer => exact h.answered hstands hp hanswer
  | executed b hp hr =>
    cases b with
    | putFile n =>
      obtain ⟨upload, hn, hr⟩ := Option.map_eq_some_iff.mp hr
      refine h.executed hp ?_ ?_ ?_
      · rw [← hr, List.append_assoc]
        exact (perm_of_getElem? hn).append_left _
      · rw [← hr]
        exact List.subset_append_left _ _
      · rw [← hr]
    | setData n =>
      obtain ⟨write, hn, hr⟩ := Option.map_eq_some_iff.mp hr
      refine h.executed hp ?_ ?_ ?_
      · rw [← hr]
      · rw [← hr]
        exact fun _ hm => hm
      · rw [← hr, List.append_assoc]
        exact (perm_of_getElem? hn).append_left _

theorem of_reachable (h : (publishing f).machine.Reachable s) : Integrity f s := by
  obtain ⟨events, hrun⟩ := h
  induction hrun with
  | nil => exact initial
  | snoc hr hn ih => exact ih.next (firebaseStep_of_next ⟨_, hr⟩ hn)

end Integrity

section Documents

variable {f : Foundation} {s : Screens}

/-- The publishes of all screens, each with the video of its screen. -/
def Screens.publishes (s : Screens) : List (Option URL × Publish) :=
  s.members.flatMap fun m => m.2.publishes.map fun publish => (m.1, publish)

theorem Screens.mem_publishes {id : PublishID} {a : Option URL × Publish}
    (h : s.publish id = some a) : a ∈ s.publishes := by
  obtain ⟨p, hm, hpublish⟩ := Screens.publish_eq_some_iff.mp h
  refine List.mem_flatMap.mpr ⟨_, List.mem_of_getElem? hm, ?_⟩
  exact List.mem_map.mpr ⟨a.2, List.mem_of_getElem? hpublish, rfl⟩

/-- The document and the file of one publish. -/
theorem Integrity.document (h : Integrity f s) {write : DocumentWrite}
    (hm : write ∈ s.resource.collection) : ∃ publish file u,
      s.publish write.publish = some (some file, publish) ∧ publish.downloadURL = some u ∧
        write.document.data = VideoPostRequest.publishedData publish.post u ∧
        ⟨write.publish, "Videos/" ++ publish.post.video, file⟩ ∈ s.resource.objects := by
  have hsent : write ∈ s.resource.collection ++ s.resource.writing := List.mem_append_left _ hm
  obtain ⟨i, publish, u, hpublish, hu, hdata⟩ := h.write write hsent
  obtain ⟨upload, hupload, hid⟩ := List.mem_map.mp (h.uploaded write hsent)
  obtain ⟨publish', hpublish', hpath⟩ := h.upload upload (List.mem_append_left _ hupload)
  rw [hid] at hpublish'
  obtain ⟨rfl, rfl⟩ := Prod.mk.inj (Option.some.inj (hpublish'.symm.trans hpublish))
  refine ⟨publish', upload.file, u, hpublish', hu, hdata, ?_⟩
  rw [← hpath, ← hid]
  exact hupload

/-- Referential integrity. Whatever the screens and the server do in between, every publish has
written one document at most, and each document of the collection is the post of its publish,
with the download URL that it was given, and a file was uploaded under its name from the video
of its own screen. -/
theorem documents_refer_to_uploads (h : (publishing f).machine.Reachable s) :
    (s.resource.collection.map DocumentWrite.publish).Nodup ∧
      ∀ write ∈ s.resource.collection, ∃ publish file u,
        s.publish write.publish = some (some file, publish) ∧ publish.downloadURL = some u ∧
          write.document.data = VideoPostRequest.publishedData publish.post u ∧
          ⟨write.publish, "Videos/" ++ publish.post.video, file⟩ ∈ s.resource.objects := by
  have hs := Integrity.of_reachable h
  refine ⟨?_, fun write hm => hs.document hm⟩
  exact hs.once.sublist ((List.sublist_append_left _ _).map _)

/-- No document shows the video of another screen, as long as the names that were drawn more
than once were drawn for one video: the storage then holds under each document's name the
video of the screen that published it. -/
theorem documents_show_own_videos (h : (publishing f).machine.Reachable s)
    (hnames : ∀ a ∈ s.publishes, ∀ b ∈ s.publishes, a.2.post.video = b.2.post.video → a.1 = b.1)
    {write : DocumentWrite} (hm : write ∈ s.resource.collection) :
    ∃ publish file, s.publish write.publish = some (some file, publish) ∧
      s.resource.object ("Videos/" ++ publish.post.video) = some file := by
  have hs := Integrity.of_reachable h
  obtain ⟨publish, file, _, hpublish, _, _, hupload⟩ := hs.document hm
  refine ⟨publish, file, hpublish, ?_⟩
  cases hfind : s.resource.objects.reverse.find?
      fun upload => upload.path = "Videos/" ++ publish.post.video with
  | none =>
    have hnone := List.find?_eq_none.mp hfind _ (List.mem_reverse.mpr hupload)
    exact absurd (decide_eq_true rfl) hnone
  | some latest =>
    have hpath := List.find?_some hfind
    rw [decide_eq_true_eq] at hpath
    have hlatest : latest ∈ s.resource.objects :=
      List.mem_reverse.mp (List.mem_of_find?_eq_some hfind)
    obtain ⟨other, hother, hotherPath⟩ := hs.upload latest (List.mem_append_left _ hlatest)
    have hvideo : other.post.video = publish.post.video := by
      rw [hotherPath] at hpath
      exact String.append_right_inj _ |>.mp hpath
    have hsame := hnames _ (Screens.mem_publishes hother) _ (Screens.mem_publishes hpublish) hvideo
    rw [Firebase.object, hfind, Option.map_some]
    exact hsame

end Documents

/-- Two screens publish; the second one's answers come before the first one's. -/
def publishedTwice : List (FamilyEvent (Option URL) PostingEvent FirebaseEvent) :=
  [.make (some ⟨"file:a"⟩), .make (some ⟨"file:b"⟩), .member 0 (.tap none "a" 1000 2000),
    .member 1 (.tap none "b" 1000 2000), .resource (.putFile 1), .resource (.putFile 0),
    .member 1 (.putFileAnswered 0 (some ⟨1⟩) none),
    .member 1 (.downloadURLAnswered 0 (some ⟨"https://b"⟩) none "2"), .resource (.setData 0),
    .member 0 (.putFileAnswered 0 (some ⟨1⟩) none),
    .member 0 (.downloadURLAnswered 0 (some ⟨"https://a"⟩) none "1"), .resource (.setData 0)]

theorem documents_refer_to_uploads_publishedTwice : ∃ s : Screens,
    s.resource.collection.length = 2 ∧
      (s.resource.collection.map DocumentWrite.publish).Nodup ∧
      ∀ write ∈ s.resource.collection, ∃ publish file u,
        s.publish write.publish = some (some file, publish) ∧ publish.downloadURL = some u ∧
          write.document.data = VideoPostRequest.publishedData publish.post u ∧
          ⟨write.publish, "Videos/" ++ publish.post.video, file⟩ ∈ s.resource.objects := by
  obtain ⟨s, hs, hlength⟩ : ∃ s, (publishing .plain).machine.Run publishedTwice s ∧
      s.resource.collection.length = 2 := ⟨_, Machine.run_iff_exec.mpr rfl, rfl⟩
  exact ⟨s, hlength, documents_refer_to_uploads ⟨_, hs⟩⟩

theorem documents_show_own_videos_publishedTwice : ∃ (s : Screens) (write : DocumentWrite),
    write ∈ s.resource.collection ∧
      ∃ publish file, s.publish write.publish = some (some file, publish) ∧
        s.resource.object ("Videos/" ++ publish.post.video) = some file := by
  obtain ⟨s, write, hs, hm, hnames⟩ : ∃ (s : Screens) (write : DocumentWrite),
      (publishing .plain).machine.Run publishedTwice s ∧ write ∈ s.resource.collection ∧
        ∀ a ∈ s.publishes, ∀ b ∈ s.publishes, a.2.post.video = b.2.post.video → a.1 = b.1 :=
    ⟨_, _, Machine.run_iff_exec.mpr rfl, List.mem_cons_self, by decide⟩
  exact ⟨s, write, hm, documents_show_own_videos ⟨_, hs⟩ hnames hm⟩

end TiktokClone
