import TiktokClone.Library.Machine
import TiktokClone.Post.Publishing

/-!
# Posting a video

The posting screen, the view model and the request, with the three Firebase calls of
a publish and the handlers that its answers reach. Taps on the post button and
answers come in any order; a call of Firebase that has been made waits for its one
answer.
-/

namespace TiktokClone

open Library

/-- What a pair of success and failure handlers is called with. -/
inductive HandlerCall (α : Type*)
  | success (data : α)
  | failure (error : String)
  deriving DecidableEq, Repr

def HandlerCall.isSuccess {α : Type*} : HandlerCall α → Bool
  | success _ => true
  | failure _ => false

/-- What a completed upload reports; its size is only printed. -/
structure StorageMetadata where
  size : Int
  deriving DecidableEq, Repr

/-- A Firebase call whose answer is awaited. -/
inductive FirebaseCall
  | putFile (path : String) (videoURL : URL)
  | downloadURL (path : String)
  | setData (document : Document)

/-- One call of `VideoPostRequest.publishPost`. -/
structure Publish where
  post : Post
  pending : Option FirebaseCall
  /-- The download URL of the uploaded file, once Firebase has given it. -/
  downloadURL : Option URL
  /-- The calls of the request's two handlers so far. -/
  calls : List (HandlerCall AnyValue)

namespace VideoPostRequest

/-- `publishPost(post:videoURL:success:failure:)` up to its upload. -/
def publishPost (post : Post) (videoURL : URL) : Publish where
  post := post
  pending := some (.putFile ("Videos/" ++ post.video) videoURL)
  downloadURL := none
  calls := []

/-- The completion of `putFile`, with the call that it makes of a handler. -/
def putFileCompletion (publish : Publish) (path : String) (metadata : Option StorageMetadata)
    (error : Option String) : Publish × Option (HandlerCall AnyValue) :=
  match error with
  | some error => ({ publish with pending := none }, some (.failure error))
  | none =>
    match metadata with
    | none => ({ publish with pending := none }, none)
    | some _ => ({ publish with pending := some (.downloadURL path) }, none)

/-- The completion of `downloadURL`, which does not look at the error. The new
document's identifier is drawn by the client. -/
def downloadURLCompletion (publish : Publish) (url : Option URL) (_error : Option String)
    (documentID : String) : Publish × Option (HandlerCall AnyValue) :=
  match url with
  | none => ({ publish with pending := none }, none)
  | some downloadURL =>
    ({ publish with
        pending := some (.setData ⟨documentID, publishedData publish.post downloadURL⟩)
        downloadURL := some downloadURL }, none)

/-- The completion of `setData`. -/
def setDataCompletion (publish : Publish) (error : Option String) :
    Publish × Option (HandlerCall AnyValue) :=
  match error with
  | some error => ({ publish with pending := none }, some (.failure error))
  | none => ({ publish with pending := none },
      some (.success (.string "Successfully published your video to database")))

theorem lookup_videoURL_publishedData (post : Post) (u : URL) :
    (publishedData post u).lookup "videoURL" = some (.string u.absoluteString) :=
  have hkey : Post.CodingKeys.videoURL ≠ .id := nofun
  lookup_documentData { post with videoURL := some u } hkey

end VideoPostRequest

def VIDEO_FILE_EXTENSION : String := "mp4"

namespace MediaViewModel

/-- `postVideo(videoURL:caption:success:failure:)`; the name of the file and the two
counts are drawn at random. -/
def postVideo (f : Foundation) (videoURL : URL) (caption videoName : String)
    (likeCount shareCount : Int) : Publish :=
  let post := Post.ofFields f "REMOVE" (videoName ++ "." ++ VIDEO_FILE_EXTENSION) (some videoURL)
    (some VIDEO_FILE_EXTENSION) 1800 900 "n96kixJqddGqZpMqL8t8" "Sam" caption
    "Random Music Name" likeCount shareCount "random"
  VideoPostRequest.publishPost post videoURL

/-- The handlers that `postVideo` gives to the request: the success data is cast to a
string and unwrapped. -/
def relay : HandlerCall AnyValue → Option (HandlerCall String)
  | .success (.string str) => some (.success str)
  | .success (.int _) => none
  | .failure error => some (.failure error)

end MediaViewModel

structure MediaPostingViewController where
  videoURL : Option URL
  /-- `postBtn.isUserInteractionEnabled` -/
  isUserInteractionEnabled : Bool
  /-- The messages shown by `showAlert`. -/
  alerts : List String
  /-- How often the screen has been dismissed. -/
  dismissals : Nat

/-- The handlers that `publishPost` gives to the view model. -/
def MediaPostingViewController.handle (c : MediaPostingViewController) :
    HandlerCall String → MediaPostingViewController
  | .success _ => { c with isUserInteractionEnabled := true, dismissals := c.dismissals + 1 }
  | .failure error => { c with alerts := c.alerts ++ [error] }

/-- The screen, the publishes that its taps have started and the documents that the
database has been given, each with the publish that wrote it. -/
structure Posting where
  controller : MediaPostingViewController
  publishes : List Publish
  documents : List (Nat × Document)

namespace Posting

/-- A tap on the post button. -/
def publishPost (f : Foundation) (s : Posting) (caption : Option String) (videoName : String)
    (likeCount shareCount : Int) : Posting :=
  -- Disable the buttion to prevent duplicate posts
  let s := { s with controller := { s.controller with isUserInteractionEnabled := false } }
  match s.controller.videoURL with
  | none => s
  | some url =>
    let caption := caption.getD ""
    { s with publishes :=
        s.publishes ++ [MediaViewModel.postVideo f url caption videoName likeCount shareCount] }

/-- The publish at a position together with the call that it waits for. -/
def awaiting (s : Posting) (id : Nat) : Option (Publish × FirebaseCall) :=
  s.publishes[id]?.bind fun publish => publish.pending.map fun call => (publish, call)

/-- What a completion leaves of its publish, with the handler call taken through the
view model to the screen. -/
def resume (s : Posting) (id : Nat) :
    Publish × Option (HandlerCall AnyValue) → Option Posting
  | (publish, none) => some { s with publishes := s.publishes.set id publish }
  | (publish, some call) =>
    match MediaViewModel.relay call with
    | none => none
    | some relayed =>
      some { s with
        controller := s.controller.handle relayed
        publishes := s.publishes.set id { publish with calls := publish.calls ++ [call] } }

/-- The database stores the document of a `setData` call that ends without an error. -/
def store (s : Posting) (id : Nat) (document : Document) (error : Option String) : Posting :=
  match error with
  | some _ => s
  | none => { s with documents := s.documents ++ [(id, document)] }

end Posting

/-- Taps of the user and answers of Firebase. -/
inductive PostingEvent
  | tap (caption : Option String) (videoName : String) (likeCount shareCount : Int)
  | putFileAnswered (id : Nat) (metadata : Option StorageMetadata) (error : Option String)
  | downloadURLAnswered (id : Nat) (url : Option URL) (error : Option String)
      (documentID : String)
  | setDataAnswered (id : Nat) (error : Option String)

/-- A tap arrives while the button is enabled; an answer arrives for a call that waits. -/
def posting (f : Foundation) (videoURL : Option URL) : Machine Posting PostingEvent where
  start := ⟨⟨videoURL, true, [], 0⟩, [], []⟩
  next s
    | .tap caption videoName likeCount shareCount =>
      if s.controller.isUserInteractionEnabled then
        some (s.publishPost f caption videoName likeCount shareCount)
      else none
    | .putFileAnswered id metadata error =>
      match s.awaiting id with
      | some (publish, .putFile path _) =>
        s.resume id (VideoPostRequest.putFileCompletion publish path metadata error)
      | _ => none
    | .downloadURLAnswered id url error documentID =>
      match s.awaiting id with
      | some (publish, .downloadURL _) =>
        s.resume id (VideoPostRequest.downloadURLCompletion publish url error documentID)
      | _ => none
    | .setDataAnswered id error =>
      match s.awaiting id with
      | some (publish, .setData document) =>
        (s.store id document error).resume id (VideoPostRequest.setDataCompletion publish error)
      | _ => none

end TiktokClone
