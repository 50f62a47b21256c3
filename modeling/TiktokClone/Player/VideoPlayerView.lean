import TiktokClone.Foundation.Basic
import TiktokClone.Player.LoadingRequest

/-!
# The video player view

The view's fields, the system objects they refer to and the view's methods. The
loading requests, data tasks and sessions are objects with identity: they live in
lists of their own and the view holds their positions. Blocks that a method
dispatches to another queue wait in that queue's list. A trap of the Swift code
has no result.

Video gravity, layers, the status observer and printing touch no other field and
are left out.
-/

namespace TiktokClone

/-- `AVURLAsset` -/
structure AVURLAsset where
  url : URL
  deriving DecidableEq, Repr

/-- `AVPlayerItem`; `source` records the URL that the block building it was given. -/
structure AVPlayerItem where
  asset : AVURLAsset
  source : URL
  deriving DecidableEq, Repr

/-- `AVQueuePlayer`: the item it would play and whether it is playing. -/
structure AVQueuePlayer where
  currentItem : Option AVPlayerItem
  isPlaying : Bool
  deriving DecidableEq, Repr

/-- A new player holds its item and is paused. -/
def AVQueuePlayer.ofItem (item : Option AVPlayerItem) : AVQueuePlayer := ⟨item, false⟩

/-- `URLSession` -/
structure URLSession where
  isInvalidated : Bool
  deriving DecidableEq, Repr

/-- `URLSessionDataTask`, with the session that made it, the configuration of the
view it was made for and the bytes it has delivered. -/
structure URLSessionDataTask where
  url : URL
  session : Nat
  configuration : Nat
  received : Data
  isCompleted : Bool
  deriving DecidableEq, Repr

/-- The block that `configure` leaves on the main queue. -/
structure ConfigureBlock where
  url : URL
  /-- What the cache query passed to its completion. -/
  data : Option String
  deriving DecidableEq, Repr

/-- The URL of the asset that a block would make. -/
def ConfigureBlock.videoURL (f : Foundation) (block : ConfigureBlock) : Option URL :=
  match block.data with
  | some path => some (f.fileURL path)
  | none => block.url.convertToRedirectURL f "streaming"

/-- The post that the first of the waiting blocks presents, if it can make its asset. -/
def ConfigureBlock.presents (f : Foundation) : List ConfigureBlock → Option URL
  | [] => none
  | block :: _ => (block.videoURL f).map fun _ => block.url

/-- The arguments of one `storeDataToCache` call. -/
structure StoreDataToCache where
  data : Option Data
  key : String
  fileExtension : Option String
  deriving DecidableEq, Repr

/-- The fields of the view. Requests, tasks and sessions are held by position. -/
structure VideoPlayerView where
  videoURL : Option URL
  originalURL : Option URL
  asset : Option AVURLAsset
  playerItem : Option AVPlayerItem
  playerLooper : Option AVPlayerItem
  queuePlayer : Option AVQueuePlayer
  session : Option Nat
  loadingRequests : List Nat
  task : Option Nat
  infoResponse : Option URLResponse
  videoData : Option Data
  fileExtension : Option String

/-- The view together with the objects and queues it works with. -/
structure Player extends VideoPlayerView where
  /-- Every loading request that the resource loader has handed over. -/
  requests : List AVAssetResourceLoadingRequest
  /-- Every data task made so far. -/
  tasks : List URLSessionDataTask
  /-- Every session made so far. -/
  sessions : List URLSession
  mainQueue : List ConfigureBlock
  /-- The number of cleanup blocks waiting on `cancelLoadingQueue`. -/
  cancelLoadingQueue : Nat
  /-- How many deferred blocks have configured the view. -/
  configurations : Nat
  stores : List StoreDataToCache

namespace VideoPlayerView

def isInfo (request : AVAssetResourceLoadingRequest) : Bool :=
  request.contentInformationRequest.isSome

def fillInfoRequest (request : AVAssetResourceLoadingRequest) (response : URLResponse) :
    AVAssetResourceLoadingRequest :=
  { request with
    contentInformationRequest := request.contentInformationRequest.map fun info =>
      { info with
        isByteRangeAccessSupported := true
        contentType := response.mimeType
        contentLength := response.expectedContentLength } }

/-- `subdata(in: Range(NSMakeRange(location, length))!)`; a range with a negative
bound, or one that ends outside the data, traps. -/
def subdata (data : Data) (location length : Int) : Option Data :=
  if 0 ≤ location ∧ 0 ≤ length ∧ location + length ≤ data.length then
    some (data.extract location.toNat (location + length).toNat)
  else none

/-- Respond with the downloaded part of the range; the Boolean is the answer whether
the request is complete, decided by the offset read before responding. -/
def checkAndRespond (videoData : Option Data) (dataRequest : AVAssetResourceLoadingDataRequest) :
    Option (AVAssetResourceLoadingDataRequest × Bool) :=
  match videoData with
  | none => some (dataRequest, false)
  | some downloadedData =>
    let downloadedDataLength : Int := downloadedData.length
    let requestRequestedOffset := dataRequest.requestedOffset
    let requestRequestedLength := dataRequest.requestedLength
    let requestCurrentOffset := dataRequest.currentOffset
    if downloadedDataLength < requestCurrentOffset then some (dataRequest, false)
    else
      let downloadedUnreadDataLength := downloadedDataLength - requestCurrentOffset
      let requestUnreadDataLength :=
        requestRequestedOffset + requestRequestedLength - requestCurrentOffset
      let respondDataLength := min requestUnreadDataLength downloadedUnreadDataLength
      match subdata downloadedData requestCurrentOffset respondDataLength with
      | none => none
      | some data =>
        let requestEndOffset := requestRequestedOffset + requestRequestedLength
        some (dataRequest.respond data, decide (requestEndOffset ≤ requestCurrentOffset))

/-- Answer the content information part of a request once a response is known. -/
def informRequest (infoResponse : Option URLResponse) (request : AVAssetResourceLoadingRequest) :
    AVAssetResourceLoadingRequest :=
  match isInfo request, infoResponse with
  | true, some response => fillInfoRequest request response
  | _, _ => request

/-- The body of the loop over the loading requests; the Boolean tells whether the
request joins `finishedRequests`. -/
def processRequest (infoResponse : Option URLResponse) (videoData : Option Data)
    (request : AVAssetResourceLoadingRequest) : Option (AVAssetResourceLoadingRequest × Bool) :=
  let request := informRequest infoResponse request
  match request.dataRequest with
  | none => some (request, false)
  | some dataRequest =>
    match checkAndRespond videoData dataRequest with
    | none => none
    | some (dataRequest, complete) =>
      let request := { request with dataRequest := some dataRequest }
      some (if complete then request.finishLoading else request, complete)

/-- The loop over the loading requests, with the finished requests it collects. -/
def processRequests (infoResponse : Option URLResponse) (videoData : Option Data) :
    List Nat → List AVAssetResourceLoadingRequest →
      Option (List AVAssetResourceLoadingRequest × List Nat)
  | [], requests => some (requests, [])
  | id :: ids, requests =>
    match requests[id]? with
    | none => none
    | some request =>
      match processRequest infoResponse videoData request with
      | none => none
      | some (request, complete) =>
        match processRequests infoResponse videoData ids (requests.set id request) with
        | none => none
        | some (requests, finishedRequests) =>
          some (requests, if complete then id :: finishedRequests else finishedRequests)

@[simp] theorem informRequest_dataRequest (infoResponse : Option URLResponse)
    (request : AVAssetResourceLoadingRequest) :
    (informRequest infoResponse request).dataRequest = request.dataRequest := by
  unfold informRequest
  split <;> rfl

@[simp] theorem informRequest_isCancelled (infoResponse : Option URLResponse)
    (request : AVAssetResourceLoadingRequest) :
    (informRequest infoResponse request).isCancelled = request.isCancelled := by
  unfold informRequest
  split <;> rfl

@[simp] theorem informRequest_finishCount (infoResponse : Option URLResponse)
    (request : AVAssetResourceLoadingRequest) :
    (informRequest infoResponse request).finishCount = request.finishCount := by
  unfold informRequest
  split <;> rfl

end VideoPlayerView

namespace Player

open VideoPlayerView

/-- The view before `setupView`: every field is unset. -/
def blank : Player where
  videoURL := none
  originalURL := none
  asset := none
  playerItem := none
  playerLooper := none
  queuePlayer := none
  session := none
  loadingRequests := []
  task := none
  infoResponse := none
  videoData := none
  fileExtension := none
  requests := []
  tasks := []
  sessions := []
  mainQueue := []
  cancelLoadingQueue := 0
  configurations := 0
  stores := []

def setupView (p : Player) : Player :=
  { p with
    session := some p.sessions.length
    sessions := p.sessions ++ [⟨false⟩]
    videoData := some [] }

/-- The view after its initializer. -/
def initial : Player := setupView blank

/-- `configure(url:fileExtension:size:)`; `data` is what the cache query answers. -/
def configure (p : Player) (url : Option URL) (fileExtension : Option String)
    (data : Option String) : Player :=
  match url with
  | none => p
  | some url =>
    { p with fileExtension := fileExtension, mainQueue := p.mainQueue ++ [⟨url, data⟩] }

/-- The part of the deferred block that follows the choice of the video URL. -/
def present (p : Player) (videoURL url : URL) : Player :=
  let asset : AVURLAsset := ⟨videoURL⟩
  let playerItem : AVPlayerItem := ⟨asset, url⟩
  let queuePlayer : AVQueuePlayer := match p.queuePlayer with
    | some queuePlayer => { queuePlayer with currentItem := some playerItem }
    | none => .ofItem (some playerItem)
  { p with
    videoURL := some videoURL
    originalURL := some url
    asset := some asset
    playerItem := some playerItem
    queuePlayer := some queuePlayer
    playerLooper := queuePlayer.currentItem
    configurations := p.configurations + 1 }

/-- The deferred block of `configure`. -/
def runConfigureBlock (f : Foundation) (p : Player) (block : ConfigureBlock) : Player :=
  match block.data with
  | some path => p.present (f.fileURL path) block.url
  | none =>
    match block.url.convertToRedirectURL f "streaming" with
    | none => p
    | some redirectUrl => p.present redirectUrl block.url

/-- Clear all remote or local request: the part that runs at once. -/
def cancelAllLoadingRequest (p : Player) : Player :=
  { p with
    videoURL := none
    originalURL := none
    asset := none
    playerItem := none
    playerLooper := none
    cancelLoadingQueue := p.cancelLoadingQueue + 1 }

/-- Clear all remote or local request: the block on `cancelLoadingQueue`. -/
def runCancelBlock (p : Player) : Player :=
  { p with
    sessions := match p.session with
      | some session => p.sessions.modify session fun _ => ⟨true⟩
      | none => p.sessions
    session := none
    task := none
    videoData := none
    requests := p.loadingRequests.foldl
      (fun requests id => requests.modify id .finishLoading) p.requests
    loadingRequests := [] }

/-- Seeking moves the playback position only. -/
def play (p : Player) : Player :=
  { p with queuePlayer := p.queuePlayer.map fun q => { q with isPlaying := true } }

def replay (p : Player) : Player := p.play

def pause (p : Player) : Player :=
  { p with queuePlayer := p.queuePlayer.map fun q => { q with isPlaying := false } }

def processLoadingRequest (p : Player) : Option Player :=
  match processRequests p.infoResponse p.videoData p.loadingRequests p.requests with
  | none => none
  | some (requests, finishedRequests) =>
    some { p with
      requests := requests
      loadingRequests := p.loadingRequests.filter fun id => !finishedRequests.contains id }

/-- `urlSession(_:dataTask:didReceive: response)` -/
def didReceiveResponse (p : Player) (response : URLResponse) : Option Player :=
  processLoadingRequest { p with infoResponse := some response }

/-- `urlSession(_:dataTask:didReceive: data)` -/
def didReceiveData (p : Player) (data : Data) : Option Player :=
  processLoadingRequest { p with videoData := p.videoData.map fun videoData => videoData ++ data }

/-- `urlSession(_:task:didCompleteWithError:)`; unwrapping an absent `originalURL` traps. -/
def didCompleteWithError (p : Player) (error : Option String) : Option Player :=
  match error with
  | some _ => some p
  | none =>
    match p.originalURL with
    | none => none
    | some originalURL =>
      some { p with
        stores := p.stores ++ [⟨p.videoData, originalURL.absoluteString, p.fileExtension⟩] }

/-- The data task that the view makes for a URL, if it has a session. -/
def dataTask (p : Player) (url : URL) : Option URLSessionDataTask :=
  p.session.map fun session => ⟨url, session, p.configurations, [], false⟩

/-- Start a download when none has been started and the view has a URL. -/
def startTask (p : Player) : Player :=
  match p.task, p.originalURL with
  | none, some url =>
    match p.dataTask url with
    | none => p
    | some task => { p with tasks := p.tasks ++ [task], task := some p.tasks.length }
  | _, _ => p

/-- `resourceLoader(_:shouldWaitForLoadingOfRequestedResource:)` with a new request;
it always accepts. -/
def shouldWaitForLoading (p : Player) (loadingRequest : AVAssetResourceLoadingRequest) : Player :=
  let p := p.startTask
  { p with
    requests := p.requests ++ [loadingRequest]
    loadingRequests := p.loadingRequests ++ [p.requests.length] }

/-- `resourceLoader(_:didCancel:)` -/
def didCancel (p : Player) (id : Nat) : Player :=
  { p with
    requests := p.requests.modify id .cancel
    loadingRequests := match p.loadingRequests.idxOf? id with
      | some index => p.loadingRequests.eraseIdx index
      | none => p.loadingRequests }

/-- A block either leaves the view alone or presents the asset that it makes. -/
theorem runConfigureBlock_eq (f : Foundation) (p : Player) (block : ConfigureBlock) :
    p.runConfigureBlock f block = match block.videoURL f with
      | none => p
      | some videoURL => p.present videoURL block.url := by
  rw [runConfigureBlock, ConfigureBlock.videoURL]
  cases block.data with
  | some path => rfl
  | none => rfl

theorem runConfigureBlock_mainQueue (f : Foundation) (p : Player) (block : ConfigureBlock) :
    (p.runConfigureBlock f block).mainQueue = p.mainQueue := by
  rw [runConfigureBlock_eq]
  split <;> rfl

/-- A block that makes its asset leaves its URL in the view. -/
theorem runConfigureBlock_originalURL (f : Foundation) (p : Player) (block : ConfigureBlock)
    (blocks : List ConfigureBlock) : (p.runConfigureBlock f block).originalURL =
      (ConfigureBlock.presents f (block :: blocks)).or p.originalURL := by
  rw [runConfigureBlock_eq, ConfigureBlock.presents]
  cases block.videoURL f <;> rfl

/-- A deferred block changes only what the view presents. -/
theorem runConfigureBlock_frame (f : Foundation) (p : Player) (block : ConfigureBlock) :
    (p.runConfigureBlock f block).session = p.session ∧
      (p.runConfigureBlock f block).tasks = p.tasks ∧
      (p.runConfigureBlock f block).loadingRequests = p.loadingRequests ∧
      (p.runConfigureBlock f block).requests = p.requests ∧
      (p.runConfigureBlock f block).fileExtension = p.fileExtension ∧
      (p.runConfigureBlock f block).stores = p.stores := by
  rw [runConfigureBlock_eq]
  split <;> exact ⟨rfl, rfl, rfl, rfl, rfl, rfl⟩

/-- A pass changes requests only. -/
theorem processLoadingRequest_frame {p q : Player} (h : p.processLoadingRequest = some q) :
    ∃ requests loadingRequests,
      q = { p with requests := requests, loadingRequests := loadingRequests } := by
  rw [processLoadingRequest] at h
  split at h
  · cases h
  · cases h
    exact ⟨_, _, rfl⟩

theorem startTask_cases (p : Player) :
    p.startTask = p ∨ ∃ url task, p.task = none ∧ p.originalURL = some url ∧
      p.dataTask url = some task ∧
      p.startTask = { p with tasks := p.tasks ++ [task], task := some p.tasks.length } := by
  unfold startTask
  split
  · rename_i url htask hurl
    cases h : p.dataTask url with
    | none => exact Or.inl rfl
    | some task => exact Or.inr ⟨url, task, htask, hurl, h, rfl⟩
  · exact Or.inl rfl

/-- A view with a URL and a session has a task afterwards. -/
theorem startTask_task {p : Player} (hurl : p.originalURL.isSome = true) (hs : p.session ≠ none) :
    p.startTask.task ≠ none := by
  obtain ⟨url, hurl⟩ := Option.isSome_iff_exists.mp hurl
  obtain ⟨session, hs⟩ := Option.ne_none_iff_exists'.mp hs
  cases htask : p.task with
  | none => simp [startTask, htask, hurl, dataTask, hs]
  | some id => simp [startTask, htask]

/-- A view that has a task, or no session, starts no other one. -/
theorem startTask_eq_self {p : Player} (h : p.task ≠ none ∨ p.session = none) :
    p.startTask = p := by
  rcases p.startTask_cases with he | ⟨url, task, htask, _, hd, _⟩
  · exact he
  · rcases h with h | h
    · exact absurd htask h
    · rw [dataTask, h] at hd
      cases hd

@[simp] theorem startTask_requests (p : Player) : p.startTask.requests = p.requests := by
  rcases p.startTask_cases with h | ⟨url, task, _, _, _, h⟩ <;> rw [h]

@[simp] theorem startTask_loadingRequests (p : Player) :
    p.startTask.loadingRequests = p.loadingRequests := by
  rcases p.startTask_cases with h | ⟨url, task, _, _, _, h⟩ <;> rw [h]

@[simp] theorem startTask_videoData (p : Player) : p.startTask.videoData = p.videoData := by
  rcases p.startTask_cases with h | ⟨url, task, _, _, _, h⟩ <;> rw [h]

@[simp] theorem shouldWaitForLoading_requests (p : Player) (r : AVAssetResourceLoadingRequest) :
    (p.shouldWaitForLoading r).requests = p.requests ++ [r] := by
  simp [shouldWaitForLoading]

@[simp] theorem shouldWaitForLoading_loadingRequests (p : Player)
    (r : AVAssetResourceLoadingRequest) :
    (p.shouldWaitForLoading r).loadingRequests = p.loadingRequests ++ [p.requests.length] := by
  simp [shouldWaitForLoading]

@[simp] theorem shouldWaitForLoading_videoData (p : Player) (r : AVAssetResourceLoadingRequest) :
    (p.shouldWaitForLoading r).videoData = p.videoData := by
  simp [shouldWaitForLoading]

/-- Removing the first occurrence by its index is `List.erase`. -/
theorem didCancel_loadingRequests (p : Player) (id : Nat) :
    (p.didCancel id).loadingRequests = p.loadingRequests.erase id := by
  rw [List.erase_eq_eraseIdx]
  unfold didCancel
  cases p.loadingRequests.idxOf? id <;> rfl

end Player

end TiktokClone
