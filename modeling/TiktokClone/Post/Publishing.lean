import TiktokClone.Post.Post

/-!
# Publishing and fetching posts

The collection of the database, the document that `publishPost` writes, the page
query and the home view model that decodes its answers. What the view model makes
of a published document is the published post.
-/

namespace TiktokClone

/-- A document of the database. -/
structure Document where
  documentID : String
  data : Dictionary

/-- The documents of the collection `Post`. -/
abbrev Collection := List Document

namespace VideoPostRequest

/-- `_publishPostToDatabase`: the data of the new document. -/
def documentData (post : Post) : Dictionary :=
  let dictionaryData := post.dictionary
  -- Remove ID
  let dictionaryData := dictionaryData.erase "id"
  dictionaryData.insert "pageNumber" (.int 5)

/-- The document data once the download URL of the uploaded file is known. -/
def publishedData (post : Post) (downloadURL : URL) : Dictionary :=
  let tempPost := { post with videoURL := some downloadURL }
  documentData tempPost

/-- The edits reach only the keys `id` and `pageNumber`. -/
theorem lookup_documentData (post : Post) {key : Post.CodingKeys} (hkey : key ≠ .id) :
    (documentData post).lookup key.rawValue = post.encoded key := by
  have hpage : key.rawValue ≠ "pageNumber" := by cases key <;> decide
  have hid : key.rawValue ≠ "id" := fun h => hkey (Post.CodingKeys.rawValue_injective
    (h.trans rfl : key.rawValue = Post.CodingKeys.id.rawValue))
  rw [documentData, AList.lookup_insert_ne hpage, AList.lookup_erase_ne hid, Post.lookup_dictionary]

theorem lookup_pageNumber (post : Post) :
    (documentData post).lookup "pageNumber" = some (.int 5) := AList.lookup_insert _

end VideoPostRequest

namespace PostsRequest

/-- `pageNumber + size`, which traps if the sum is no `Int`. -/
def rangeEnd (pageNumber size : Int64) : Option Int :=
  let sum := pageNumber.toInt + size.toInt
  if Int64.minValue.toInt ≤ sum ∧ sum ≤ Int64.maxValue.toInt then some sum else none

/-- The filter on the field `pageNumber`, once the end of the range is computed. -/
def matchesPage (pageNumber size : Int) (data : Dictionary) : Bool :=
  match data.lookup "pageNumber" with
  | some (.int n) => decide (pageNumber ≤ n) && decide (n < pageNumber + size)
  | _ => false

/-- Get Posts within range **pageNumber..<pageNumber + size** -/
def getPostsByPages (collection : Collection) (pageNumber size : Int) : List Document :=
  collection.filter fun document => matchesPage pageNumber size document.data

end PostsRequest

/-- What the subjects of the home view model are given, in order. -/
inductive HomeSignal
  | isLoading (value : Bool)
  | posts (posts : List Post)
  | error (error : String)
  deriving DecidableEq, Repr

structure HomeViewModel where
  docs : List Post
  signals : List HomeSignal

namespace HomeViewModel

/-- Convert data into Post Entity -/
def post (f : Foundation) (document : Document) : Post :=
  { Post.ofDictionary f document.data with id := document.documentID }

/-- `getPosts(pageNumber:size:)` up to its request. -/
def getPosts (vm : HomeViewModel) : HomeViewModel :=
  { vm with signals := vm.signals ++ [.isLoading true] }

/-- The success handler of `getPosts`. -/
def getPostsSuccess (f : Foundation) (vm : HomeViewModel) (documents : List Document) :
    HomeViewModel :=
  let docs := vm.docs ++ documents.map (post f)
  { docs := docs, signals := vm.signals ++ [.posts docs, .isLoading false] }

/-- The failure handler of `getPosts`. -/
def getPostsFailure (vm : HomeViewModel) (error : String) : HomeViewModel :=
  { vm with signals := vm.signals ++ [.isLoading false, .error error] }

/-- The view model after its initializer, which asks for the posts at start-up. -/
def initial : HomeViewModel := getPosts ⟨[], [.isLoading true]⟩

/-- Every document of an answer is among the accumulated posts, decoded. -/
theorem post_mem_getPostsSuccess {f : Foundation} {documents : List Document} {document : Document}
    (h : document ∈ documents) (vm : HomeViewModel) :
    post f document ∈ (vm.getPostsSuccess f documents).docs :=
  List.mem_append_right _ (List.mem_map_of_mem h)

end HomeViewModel

/-- Publish, then fetch: the document written for a post that an initializer built is
decoded to that post with the download URL and the document's identifier; the request
at start-up asks for its page, so the post is among those it yields. -/
theorem publish_then_fetch {f : Foundation} {p : Post} {u : URL} (hbuilt : p.Built f)
    (hurl : f.url u.absoluteString = some u) (d : String) :
    HomeViewModel.post f ⟨d, VideoPostRequest.publishedData p u⟩ =
        { p with videoURL := some u, id := d } ∧
      PostsRequest.matchesPage 1 10 (VideoPostRequest.publishedData p u) = true ∧
      ∀ collection : Collection, ⟨d, VideoPostRequest.publishedData p u⟩ ∈ collection →
        { p with videoURL := some u, id := d } ∈
          (HomeViewModel.initial.getPostsSuccess f
            (PostsRequest.getPostsByPages collection 1 10)).docs := by
  have hpost : HomeViewModel.post f ⟨d, VideoPostRequest.publishedData p u⟩ =
      { p with videoURL := some u, id := d } := by
    obtain ⟨e, hextension⟩ := hbuilt.videoFileExtension
    have hdecoded := Post.ofDictionary_eq (f := f) fun key hkey =>
      VideoPostRequest.lookup_documentData { p with videoURL := some u } hkey
    rw [HomeViewModel.post, VideoPostRequest.publishedData, hdecoded]
    simp only [Option.map_some, Option.getD_some, hurl, hextension]
  have hpage : PostsRequest.matchesPage 1 10 (VideoPostRequest.publishedData p u) = true := by
    rw [PostsRequest.matchesPage, VideoPostRequest.publishedData,
      VideoPostRequest.lookup_pageNumber]
    decide
  refine ⟨hpost, hpage, fun collection hmem => ?_⟩
  rw [← hpost]
  exact HomeViewModel.post_mem_getPostsSuccess (List.mem_filter.mpr ⟨hmem, hpage⟩) _

/-- A post as the posting screen builds it. -/
def samplePost : Post :=
  .ofFields .plain "REMOVE" "v.mp4" (some ⟨"file:///tmp/v.mp4"⟩) (some "mp4") 1800 900 "n96kixJq"
    "Sam" "caption" "Random Music Name" 1000 2000 "random"

theorem publish_then_fetch_samplePost :
    HomeViewModel.post .plain ⟨"d", VideoPostRequest.publishedData samplePost ⟨"https://a/v"⟩⟩ =
        { samplePost with videoURL := some ⟨"https://a/v"⟩, id := "d" } ∧
      PostsRequest.matchesPage 1 10
        (VideoPostRequest.publishedData samplePost ⟨"https://a/v"⟩) = true ∧
      ∀ collection : Collection,
        ⟨"d", VideoPostRequest.publishedData samplePost ⟨"https://a/v"⟩⟩ ∈ collection →
        { samplePost with videoURL := some ⟨"https://a/v"⟩, id := "d" } ∈
          (HomeViewModel.initial.getPostsSuccess .plain
            (PostsRequest.getPostsByPages collection 1 10)).docs :=
  publish_then_fetch (.ofFields ..) (by decide) "d"

end TiktokClone
