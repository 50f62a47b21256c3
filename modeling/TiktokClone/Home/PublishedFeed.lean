import TiktokClone.Home.Accumulation
import TiktokClone.Post.Firebase

/-!
# From the posting screens to the feed

The feed queries the collection that the posting screens write to. A query is answered with
the documents that the server had executed at some moment, which may be long past when the
answer arrives. The feed shows nothing but posts that were published, and it shows all those
that an answered query found.
-/

namespace TiktokClone

open Library

/-- The posting screens with Firebase, and the feed. -/
structure App where
  screens : Screens
  feed : Fetching

inductive AppEvent
  | screens (e : FamilyEvent (Option URL) PostingEvent FirebaseEvent)
  /-- Anything that happens to the feed but an answer with documents. -/
  | feed (e : FetchEvent)
  /-- The request at a position is answered with what the first documents of the collection
  contain for it. -/
  | queried (i n : Nat)

namespace App

/-- The answer to a request from the first documents of the collection. -/
def snapshot (s : App) (n : Nat) (request : Int × Int) : List Document :=
  PostsRequest.getPostsByPages ((s.screens.resource.collection.take n).map DocumentWrite.document)
    request.1 request.2

end App

/-- The app from its start on. -/
def app (f : Foundation) : Machine App AppEvent where
  start := ⟨(publishing f).machine.start, (fetching f).start⟩
  next s
    | .screens e => ((publishing f).machine.next s.screens e).map fun t => { s with screens := t }
    | .feed e =>
      if e.documents.isSome then none
      else ((fetching f).next s.feed e).map fun t => { s with feed := t }
    | .queried i n =>
      match s.feed.requests[i]? with
      | none => none
      | some request =>
        ((fetching f).next s.feed (.answered i (some (s.snapshot n request)) none)).map fun t =>
          { s with feed := t }

section App

variable {f : Foundation} {s t : App} {e : AppEvent}

/-- A step of the app is one of the screens, or of the feed; an answer to the feed holds
documents of the collection. -/
inductive AppStep (f : Foundation) (s t : App) : Prop
  | screens (e : FamilyEvent (Option URL) PostingEvent FirebaseEvent)
      (next : (publishing f).machine.next s.screens e = some t.screens) (feed : t.feed = s.feed)
  | feed (e : FetchEvent) (next : (fetching f).next s.feed e = some t.feed)
      (screens : t.screens = s.screens)
      (found : ∀ document ∈ e.documents.getD [],
        ∃ write ∈ s.screens.resource.collection, write.document = document)

theorem appStep_of_next (hn : (app f).next s e = some t) : AppStep f s t := by
  cases e with
  | screens e =>
    obtain ⟨u, hu, rfl⟩ := Option.map_eq_some_iff.mp hn
    exact .screens e hu rfl
  | feed e =>
    obtain ⟨hnone, hn⟩ := Option.ite_none_left_eq_some.mp hn
    obtain ⟨u, hu, rfl⟩ := Option.map_eq_some_iff.mp hn
    refine .feed e hu rfl fun document hm => ?_
    rw [Option.not_isSome_iff_eq_none.mp hnone] at hm
    cases hm
  | queried i n =>
    simp only [app] at hn
    split at hn
    · cases hn
    · rename_i request hrequest
      obtain ⟨u, hu, rfl⟩ := Option.map_eq_some_iff.mp hn
      refine .feed _ hu rfl fun document hm => ?_
      have hfound : document ∈ (s.screens.resource.collection.take n).map
          DocumentWrite.document := (List.mem_filter.mp hm).1
      obtain ⟨write, hwrite, hd⟩ := List.mem_map.mp hfound
      exact ⟨write, List.mem_of_mem_take hwrite, hd⟩

/-- Both halves of the app are in states that they reach alone. -/
theorem app_reachable (h : (app f).Reachable s) :
    (publishing f).machine.Reachable s.screens ∧ (fetching f).Reachable s.feed := by
  obtain ⟨_, hrun⟩ := h
  refine hrun.invariant (I := fun s => (publishing f).machine.Reachable s.screens ∧
    (fetching f).Reachable s.feed) ⟨⟨[], .nil⟩, ⟨[], .nil⟩⟩ fun s e t hs hn => ?_
  cases appStep_of_next hn with
  | screens e hnext hfeed => exact ⟨hs.1.next hnext, hfeed ▸ hs.2⟩
  | feed e hnext hscreens => exact ⟨hscreens ▸ hs.1, hs.2.next hnext⟩

/-- The collection keeps what it has. -/
theorem FirebaseStep.collection_subset {s t : Screens} (h : FirebaseStep f s t) :
    s.resource.collection ⊆ t.resource.collection := by
  cases h with
  | same _ hr => rw [hr]; exact fun _ hm => hm
  | tapped id file publish _ _ _ _ _ hr => rw [hr]; exact fun _ hm => hm
  | answered id i publish next _ _ hanswer =>
    cases hanswer with
    | uploaded path file _ _ _ hr => rw [hr]; exact fun _ hm => hm
    | located u path documentID _ _ hr => rw [hr]; exact fun _ hm => hm
    | stopped _ _ _ hr => rw [hr]; exact fun _ hm => hm
  | executed b _ hr =>
    cases b with
    | putFile n =>
      obtain ⟨upload, _, hr⟩ := Option.map_eq_some_iff.mp hr
      rw [← hr]
      exact fun _ hm => hm
    | setData n =>
      obtain ⟨write, _, hr⟩ := Option.map_eq_some_iff.mp hr
      rw [← hr]
      exact List.subset_append_left _ _

/-- What the home view model makes of a published document. -/
theorem post_publishedData {p : Post} (hbuilt : p.Built f) (u : URL) (documentID : String) :
    HomeViewModel.post f ⟨documentID, VideoPostRequest.publishedData p u⟩ =
      { p with videoURL := f.url u.absoluteString, id := documentID } := by
  obtain ⟨e, hextension⟩ := hbuilt.videoFileExtension
  have hdecoded := Post.ofDictionary_eq (f := f) fun key hkey =>
    VideoPostRequest.lookup_documentData { p with videoURL := some u } hkey
  rw [HomeViewModel.post, VideoPostRequest.publishedData, hdecoded]
  simp only [Option.map_some, Option.getD_some, hextension]

/-- The post that the feed makes of a document of the collection. -/
theorem Integrity.post_document {s : Screens} (h : Integrity f s) {write : DocumentWrite}
    (hm : write ∈ s.resource.collection) : ∃ publish file u,
      s.publish write.publish = some (some file, publish) ∧ publish.downloadURL = some u ∧
        ⟨write.publish, "Videos/" ++ publish.post.video, file⟩ ∈ s.resource.objects ∧
        HomeViewModel.post f write.document = { publish.post with
          videoURL := f.url u.absoluteString, id := write.document.documentID } := by
  obtain ⟨publish, file, u, hpublish, hu, hdata, hupload⟩ := h.document hm
  refine ⟨publish, file, u, hpublish, hu, hupload, ?_⟩
  rw [← post_publishedData (h.built _ _ _ hpublish), ← hdata]

/-- What the view model has accumulated was in the collection. -/
theorem docs_subset (h : (app f).Reachable s) : ∀ post ∈ s.feed.viewModel.docs,
    ∃ write ∈ s.screens.resource.collection, HomeViewModel.post f write.document = post := by
  obtain ⟨_, hrun⟩ := h
  induction hrun with
  | nil => exact fun _ hm => absurd hm List.not_mem_nil
  | snoc hr hn ih =>
    cases appStep_of_next hn with
    | screens e hnext hfeed =>
      have hsubset := (firebaseStep_of_next (app_reachable ⟨_, hr⟩).1 hnext).collection_subset
      rw [hfeed]
      exact fun post hm => (ih post hm).imp fun _ hw => ⟨hsubset hw.1, hw.2⟩
    | feed e hnext hscreens hfound =>
      intro post hm
      rw [(fetchStep_of_next hnext).docs, List.mem_append, List.mem_map] at hm
      rw [hscreens]
      rcases hm with hold | ⟨document, hdocument, rfl⟩
      · exact ih post hold
      · obtain ⟨write, hwrite, rfl⟩ := hfound document hdocument
        exact ⟨write, hwrite, rfl⟩

/-- Nothing out of thin air. In every state of the app, whatever the order of the steps of the
screens, the server and the feed, a post that the feed shows is the post of a publish, with the
identifier of its document and the download URL of a file that was uploaded for it. -/
theorem feed_shows_published_posts (h : (app f).Reachable s) {post : Post}
    (hm : post ∈ s.feed.controller.data) :
    ∃ write ∈ s.screens.resource.collection, ∃ publish file u,
      s.screens.publish write.publish = some (some file, publish) ∧
        publish.downloadURL = some u ∧
        ⟨write.publish, "Videos/" ++ publish.post.video, file⟩ ∈ s.screens.resource.objects ∧
        post = { publish.post with
          videoURL := f.url u.absoluteString, id := write.document.documentID } := by
  obtain ⟨hscreens, hfeed⟩ := app_reachable h
  have hbegins := (Accumulates.of_reachable hfeed).docs _ List.mem_cons_self
  obtain ⟨write, hwrite, rfl⟩ := docs_subset h post (hbegins.subset hm)
  obtain ⟨publish, file, u, hpublish, hu, hupload, hpost⟩ :=
    (Integrity.of_reachable hscreens).post_document hwrite
  exact ⟨write, hwrite, publish, file, u, hpublish, hu, hupload, hpost⟩

/-! ### What a query finds is shown -/

/-- The controller shows the post, or is given it once the waiting signals are executed. -/
structure WillShow (s : Fetching) (post : Post) : Prop where
  docs : post ∈ s.viewModel.docs
  data : post ∈ s.eventual.data

theorem WillShow.next {s t : Fetching} {e : FetchEvent} {post : Post} (h : WillShow s post)
    (hn : (fetching f).next s e = some t) : WillShow t post := by
  have hstep := fetchStep_of_next hn
  have hdocs : post ∈ t.viewModel.docs := by
    rw [hstep.docs]
    exact List.mem_append_left _ h.docs
  refine ⟨hdocs, ?_⟩
  rw [hstep.data]
  split
  · exact hdocs
  · exact h.data

/-- An answer with documents reaches a controller that observes the posts. -/
theorem willShow_of_answered {s t : Fetching} {i : Nat} {documents : List Document}
    (ho : s.observed .posts = true)
    (hn : (fetching f).next s (.answered i (some documents) none) = some t)
    {document : Document} (hm : document ∈ documents) :
    WillShow t (HomeViewModel.post f document) := by
  have hstep := fetchStep_of_next hn
  have hdocs : HomeViewModel.post f document ∈ t.viewModel.docs := by
    rw [hstep.docs]
    exact List.mem_append_right _ (List.mem_map_of_mem hm)
  refine ⟨hdocs, ?_⟩
  rw [hstep.data, ho]
  exact hdocs

/-- Published posts arrive. When a query for the fifth page is answered after the server has
executed a document, and the controller observes the posts by then, the published post is in
the feed in every later state in which the main scheduler has nothing to do. -/
theorem published_post_is_shown (hs : (app f).Reachable s) {write : DocumentWrite} {i n : Nat}
    {request : Int × Int} (hwrite : write ∈ s.screens.resource.collection.take n)
    (hrequest : s.feed.requests[i]? = some request)
    (hpage : request.1 ≤ 5 ∧ 5 < request.1 + request.2)
    (hobserved : s.feed.observed .posts = true)
    (hanswer : (app f).next s (.queried i n) = some t) {events : List AppEvent} {u : App}
    (hrun : ((app f).startAt t).Run events u) (hmain : u.feed.mainScheduler = []) :
    ∃ publish file v, s.screens.publish write.publish = some (some file, publish) ∧
      publish.downloadURL = some v ∧
      { publish.post with videoURL := f.url v.absoluteString, id := write.document.documentID } ∈
        u.feed.controller.data := by
  have hintegrity := Integrity.of_reachable (app_reachable hs).1
  obtain ⟨publish, file, v, hpublish, hv, _, hpost⟩ :=
    hintegrity.post_document (List.mem_of_mem_take hwrite)
  have hfound : write.document ∈ s.snapshot n request := by
    refine List.mem_filter.mpr ⟨List.mem_map_of_mem hwrite, ?_⟩
    obtain ⟨_, _, w, _, _, hdata, _⟩ := hintegrity.document (List.mem_of_mem_take hwrite)
    rw [PostsRequest.matchesPage, hdata, VideoPostRequest.publishedData,
      VideoPostRequest.lookup_pageNumber]
    simp only [hpage.1, hpage.2, decide_true, Bool.and_self]
  have ht : WillShow t.feed (HomeViewModel.post f write.document) := by
    simp only [app, hrequest] at hanswer
    obtain ⟨fed, hfed, rfl⟩ := Option.map_eq_some_iff.mp hanswer
    exact willShow_of_answered hobserved hfed hfound
  have hu : WillShow u.feed (HomeViewModel.post f write.document) :=
    hrun.invariant (I := fun u => WillShow u.feed (HomeViewModel.post f write.document)) ht
      fun _ _ _ hI hn => by
        cases appStep_of_next hn with
        | screens _ _ hfeed => exact hfeed ▸ hI
        | feed _ hnext => exact hI.next hnext
  refine ⟨publish, file, v, hpublish, hv, ?_⟩
  have hdata := hu.data
  rw [Fetching.eventual, hmain, List.foldl_nil, hpost] at hdata
  exact hdata

end App

/-- A post is published while the feed waits for its first answer. -/
def publishedFirst : List AppEvent :=
  [.feed (.subscribe .posts), .screens (.make (some ⟨"file:a"⟩)),
    .screens (.member 0 (.tap none "a" 1000 2000)), .screens (.resource (.putFile 0)),
    .screens (.member 0 (.putFileAnswered 0 (some ⟨1⟩) none)),
    .screens (.member 0 (.downloadURLAnswered 0 (some ⟨"https://a"⟩) none "1")),
    .screens (.resource (.setData 0))]

theorem feed_shows_published_posts_publishedFirst : ∃ (s : App) (post : Post),
    post ∈ s.feed.controller.data ∧
      ∃ write ∈ s.screens.resource.collection, ∃ publish file u,
        s.screens.publish write.publish = some (some file, publish) ∧
          publish.downloadURL = some u ∧
          ⟨write.publish, "Videos/" ++ publish.post.video, file⟩ ∈ s.screens.resource.objects ∧
          post = { publish.post with
            videoURL := Foundation.plain.url u.absoluteString
            id := write.document.documentID } := by
  obtain ⟨s, post, hs, hm⟩ : ∃ (s : App) (post : Post),
      (app .plain).Run (publishedFirst ++ [.queried 0 1, .feed .runMain]) s ∧
        post ∈ s.feed.controller.data :=
    ⟨_, _, Machine.run_iff_exec.mpr rfl, List.mem_cons_self⟩
  exact ⟨s, post, hm, feed_shows_published_posts ⟨_, hs⟩ hm⟩

theorem published_post_is_shown_publishedFirst : ∃ (s u : App) (write : DocumentWrite),
    write ∈ s.screens.resource.collection.take 1 ∧
      ∃ publish file v, s.screens.publish write.publish = some (some file, publish) ∧
        publish.downloadURL = some v ∧
        { publish.post with
          videoURL := Foundation.plain.url v.absoluteString
          id := write.document.documentID } ∈ u.feed.controller.data := by
  obtain ⟨s, write, hs, hwrite, hrequest, ho⟩ : ∃ (s : App) (write : DocumentWrite),
      (app .plain).Run publishedFirst s ∧ write ∈ s.screens.resource.collection.take 1 ∧
        s.feed.requests[0]? = some (1, 10) ∧ s.feed.observed .posts = true :=
    ⟨_, _, Machine.run_iff_exec.mpr rfl, List.mem_cons_self, rfl, rfl⟩
  obtain ⟨u, hu, hmain⟩ : ∃ u : App,
      (app .plain).Run (publishedFirst ++ [.queried 0 1] ++ [.feed .runMain]) u ∧
        u.feed.mainScheduler = [] := ⟨_, Machine.run_iff_exec.mpr rfl, rfl⟩
  obtain ⟨t, ht, hrun⟩ := Machine.run_append_iff.mp hu
  obtain ⟨s', hs', hanswer⟩ := Machine.run_concat_iff.mp ht
  obtain rfl := hs.unique hs'
  exact ⟨s, u, write, hwrite,
    published_post_is_shown ⟨_, hs⟩ hwrite hrequest (by decide) ho hanswer hrun hmain⟩

end TiktokClone
