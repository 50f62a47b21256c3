import Mathlib.Data.List.Nodup
import TiktokClone.Library.Machine
import TiktokClone.Player.Response

/-!
# The streaming loader

The callbacks of the resource loader and of the URL session between the first
configuration of a view and its first cancellation, each of them one step. The
loop over the pending requests is shown to act on every request by itself; one
invariant then says that each request ever handed over has received exactly a
slice of the downloaded bytes, and no callback traps.
-/

namespace TiktokClone

open Library VideoPlayerView

/-- A request after the loop body of `processLoadingRequest`. -/
def processed (infoResponse : Option URLResponse) (downloaded : Data)
    (request : AVAssetResourceLoadingRequest) : AVAssetResourceLoadingRequest :=
  match request.dataRequest with
  | none => informRequest infoResponse request
  | some r =>
    let request := { informRequest infoResponse request with
      dataRequest := some (responded downloaded r) }
    if isComplete downloaded r then request.finishLoading else request

/-- The loop body finishes the request. -/
def completes (downloaded : Data) (request : AVAssetResourceLoadingRequest) : Bool :=
  match request.dataRequest with
  | none => false
  | some r => isComplete downloaded r

/-- Every data request among the requests has received a slice of the download. -/
def RequestsServed (downloaded : Data) (requests : List AVAssetResourceLoadingRequest) : Prop :=
  ∀ request ∈ requests, ∀ r, request.dataRequest = some r → ServedFrom downloaded r

theorem processed_dataRequest (infoResponse : Option URLResponse) (downloaded : Data)
    (request : AVAssetResourceLoadingRequest) :
    (processed infoResponse downloaded request).dataRequest =
      request.dataRequest.map (responded downloaded) := by
  unfold processed
  cases hr : request.dataRequest with
  | none => rw [informRequest_dataRequest, hr]; rfl
  | some r =>
    dsimp only
    split <;> rfl

theorem processed_isCancelled (infoResponse : Option URLResponse) (downloaded : Data)
    (request : AVAssetResourceLoadingRequest) :
    (processed infoResponse downloaded request).isCancelled = request.isCancelled := by
  unfold processed
  split
  · exact informRequest_isCancelled infoResponse request
  · dsimp only
    split <;> exact informRequest_isCancelled infoResponse request

/-- The loop body calls `finishLoading` at most once, when the request completes. -/
theorem processed_finishCount (infoResponse : Option URLResponse) (downloaded : Data)
    (request : AVAssetResourceLoadingRequest) :
    (processed infoResponse downloaded request).finishCount =
      request.finishCount + if completes downloaded request then 1 else 0 := by
  unfold processed completes
  cases hr : request.dataRequest with
  | none => exact informRequest_finishCount infoResponse request
  | some r =>
    dsimp only
    split
    · exact congrArg (· + 1) (informRequest_finishCount infoResponse request)
    · exact informRequest_finishCount infoResponse request

theorem RequestsServed.append {downloaded : Data} {requests : List AVAssetResourceLoadingRequest}
    (h : RequestsServed downloaded requests) (chunk : Data) :
    RequestsServed (downloaded ++ chunk) requests :=
  fun request hm r hr => (h request hm r hr).append chunk

theorem processed_served {downloaded : Data} {request : AVAssetResourceLoadingRequest}
    (h : ∀ r, request.dataRequest = some r → ServedFrom downloaded r)
    (infoResponse : Option URLResponse) (r : AVAssetResourceLoadingDataRequest)
    (hr : (processed infoResponse downloaded request).dataRequest = some r) :
    ServedFrom downloaded r := by
  rw [processed_dataRequest, Option.map_eq_some_iff] at hr
  obtain ⟨r', hr', rfl⟩ := hr
  exact responded_servedFrom (h r' hr')

/-- The loop body never traps on a served request. -/
theorem processRequest_eq {downloaded : Data} {request : AVAssetResourceLoadingRequest}
    (h : ∀ r, request.dataRequest = some r → ServedFrom downloaded r)
    (infoResponse : Option URLResponse) :
    processRequest infoResponse (some downloaded) request =
      some (processed infoResponse downloaded request, completes downloaded request) := by
  unfold processRequest processed completes
  simp only [informRequest_dataRequest]
  cases hr : request.dataRequest with
  | none => rfl
  | some r => simp only [checkAndRespond_eq (h r hr)]

section Loop

variable {infoResponse : Option URLResponse} {videoData : Option Data}
  {I : AVAssetResourceLoadingRequest → Prop}
  {body : AVAssetResourceLoadingRequest → AVAssetResourceLoadingRequest}
  {complete : AVAssetResourceLoadingRequest → Bool}

/-- A loop whose body never traps on good requests acts on each listed request by itself and
collects the complete ones. -/
theorem processRequests_of_body
    (hbody : ∀ r, I r → processRequest infoResponse videoData r = some (body r, complete r))
    (hkeep : ∀ r, I r → I (body r)) {ids : List Nat}
    {requests : List AVAssetResourceLoadingRequest} (hn : ids.Nodup)
    (hb : ∀ id ∈ ids, id < requests.length) (hI : ∀ r ∈ requests, I r) :
    processRequests infoResponse videoData ids requests =
      some (requests.mapIdx fun i r => if i ∈ ids then body r else r,
        ids.filter fun id => (requests[id]?).any complete) := by
  induction ids generalizing requests with
  | nil =>
    rw [processRequests]
    congr 2
    exact List.ext_getElem? fun i => by simp [List.getElem?_mapIdx]
  | cons id ids ih =>
    have hlt : id < requests.length := hb id (List.mem_cons_self ..)
    obtain ⟨hfresh, hnodup⟩ := List.nodup_cons.mp hn
    have hgood := hI _ (List.getElem_mem hlt)
    have hnext : ∀ r ∈ requests.set id (body requests[id]), I r := by
      intro r hm
      rcases List.mem_or_eq_of_mem_set hm with hm | rfl
      · exact hI r hm
      · exact hkeep _ hgood
    have hrest := ih hnodup (fun i hi => by
      rw [List.length_set]
      exact hb i (List.mem_cons_of_mem _ hi)) hnext
    rw [processRequests, List.getElem?_eq_getElem hlt]
    simp only [hbody _ hgood, hrest]
    congr 2
    · apply List.ext_getElem?
      intro i
      simp only [List.getElem?_mapIdx, List.mem_cons]
      by_cases hi : i = id
      · subst hi
        simp [hlt, hfresh]
      · rw [List.getElem?_set_ne (Ne.symm hi)]
        simp [hi]
    · have hsame : ids.filter (fun i => ((requests.set id (body requests[id]))[i]?).any complete) =
          ids.filter fun i => (requests[i]?).any complete := by
        apply List.filter_congr
        intro i hi
        have hne : id ≠ i := fun he => hfresh (he ▸ hi)
        rw [List.getElem?_set_ne hne]
      rw [hsame, List.filter_cons, List.getElem?_eq_getElem hlt, Option.any_some]

end Loop

/-- The loop over served requests. -/
theorem processRequests_eq {downloaded : Data} (infoResponse : Option URLResponse) {ids : List Nat}
    {requests : List AVAssetResourceLoadingRequest} (hn : ids.Nodup)
    (hb : ∀ id ∈ ids, id < requests.length) (hs : RequestsServed downloaded requests) :
    processRequests infoResponse (some downloaded) ids requests =
      some (requests.mapIdx fun i request =>
          if i ∈ ids then processed infoResponse downloaded request else request,
        ids.filter fun id => (requests[id]?).any (completes downloaded)) :=
  processRequests_of_body (fun _ h => processRequest_eq h infoResponse)
    (fun _ h => processed_served h infoResponse) hn hb hs

/-- The invariant of the loader. -/
structure Served (downloaded : Data) (p : Player) : Prop where
  videoData : p.videoData = some downloaded
  nodup : p.loadingRequests.Nodup
  bound : ∀ id ∈ p.loadingRequests, id < p.requests.length
  requests : RequestsServed downloaded p.requests

/-- One pass of `processLoadingRequest` over the pending requests. -/
def Player.pass (p : Player) (downloaded : Data) : Player :=
  { p with
    requests := p.requests.mapIdx fun i request =>
      if i ∈ p.loadingRequests then processed p.infoResponse downloaded request else request
    loadingRequests := p.loadingRequests.filter fun id =>
      !(p.requests[id]?).any (completes downloaded) }

theorem Served.processLoadingRequest_eq {downloaded : Data} {p : Player}
    (h : Served downloaded p) : p.processLoadingRequest = some (p.pass downloaded) := by
  unfold Player.processLoadingRequest
  rw [h.videoData, processRequests_eq p.infoResponse h.nodup h.bound h.requests]
  have hfilter : (p.loadingRequests.filter fun id =>
      !(p.loadingRequests.filter fun id =>
        (p.requests[id]?).any (completes downloaded)).contains id) =
      p.loadingRequests.filter fun id => !(p.requests[id]?).any (completes downloaded) := by
    refine List.filter_congr fun id hid => ?_
    simp [List.contains_eq_mem, List.mem_filter, hid]
  simp only [hfilter, Player.pass, h.videoData]

theorem Player.pass_getElem? (p : Player) (downloaded : Data) (i : Nat) :
    (p.pass downloaded).requests[i]? = (p.requests[i]?).map fun request =>
      if i ∈ p.loadingRequests then processed p.infoResponse downloaded request else request := by
  simp only [Player.pass, List.getElem?_mapIdx]

theorem Served.pass {downloaded : Data} {p : Player} (h : Served downloaded p) :
    Served downloaded (p.pass downloaded) where
  videoData := h.videoData
  nodup := h.nodup.filter _
  bound := fun id hid => by
    have := h.bound id (List.mem_of_mem_filter hid)
    simpa only [Player.pass, List.length_mapIdx] using this
  requests := by
    intro request hm
    obtain ⟨i, hi, rfl⟩ := List.mem_mapIdx.mp hm
    split
    · exact processed_served (h.requests _ (List.getElem_mem hi)) p.infoResponse
    · exact h.requests _ (List.getElem_mem hi)

/-- Every request that stays pending has caught up with the download. -/
theorem Served.pass_caughtUp {downloaded : Data} {p : Player} (h : Served downloaded p)
    {id : Nat} (hid : id ∈ (p.pass downloaded).loadingRequests)
    {request : AVAssetResourceLoadingRequest}
    (hq : (p.pass downloaded).requests[id]? = some request)
    {r : AVAssetResourceLoadingDataRequest} (hr : request.dataRequest = some r) :
    CaughtUp downloaded r := by
  have hpending : id ∈ p.loadingRequests := List.mem_of_mem_filter hid
  rw [Player.pass_getElem?, Option.map_eq_some_iff] at hq
  obtain ⟨old, hold, rfl⟩ := hq
  rw [if_pos hpending, processed_dataRequest, Option.map_eq_some_iff] at hr
  obtain ⟨r', hr', rfl⟩ := hr
  exact responded_caughtUp (h.requests old (List.mem_of_getElem? hold) r' hr')

/-- The callbacks of one configured view. -/
inductive LoaderEvent
  | shouldWaitForLoading (info : Option AVAssetResourceLoadingContentInformationRequest)
      (range : Option ByteRange)
  | didCancel (id : Nat)
  | didReceiveResponse (response : URLResponse)
  | didReceiveData (chunk : Data)
  | runConfigureBlock

namespace LoaderEvent

/-- The bytes that a callback adds to the download. -/
def bytes : LoaderEvent → Data
  | didReceiveData chunk => chunk
  | shouldWaitForLoading _ _ | didCancel _ | didReceiveResponse _ | runConfigureBlock => []

/-- The callback ends with `processLoadingRequest`. -/
def isPass : LoaderEvent → Bool
  | didReceiveResponse _ | didReceiveData _ => true
  | _ => false

end LoaderEvent

/-- The concatenation of all chunks received. -/
def downloaded (events : List LoaderEvent) : Data := events.flatMap LoaderEvent.bytes

@[simp] theorem downloaded_concat (events : List LoaderEvent) (e : LoaderEvent) :
    downloaded (events ++ [e]) = downloaded events ++ e.bytes := by
  simp [downloaded]

/-- Run the next deferred block of the main queue, if one is waiting. -/
def Player.runMainQueue (f : Foundation) (p : Player) : Player :=
  match p.mainQueue with
  | [] => p
  | block :: blocks => { p with mainQueue := blocks }.runConfigureBlock f block

/-- The loader as a machine that is started in a given player. -/
def loader (f : Foundation) (start : Player) : Machine Player LoaderEvent where
  start := start
  next p
    | .shouldWaitForLoading info range => some (p.shouldWaitForLoading (.create info range))
    | .didCancel id => some (p.didCancel id)
    | .didReceiveResponse response => p.didReceiveResponse response
    | .didReceiveData chunk => p.didReceiveData chunk
    | .runConfigureBlock => some (p.runMainQueue f)

/-- The objects and the buffer that the loader's invariant speaks of. -/
theorem Served.congr {downloaded : Data} {p q : Player} (h : Served downloaded p)
    (hv : q.videoData = p.videoData) (hl : q.loadingRequests = p.loadingRequests)
    (hr : q.requests = p.requests) : Served downloaded q where
  videoData := hv.trans h.videoData
  nodup := hl ▸ h.nodup
  bound := by
    rw [hl, hr]
    exact h.bound
  requests := hr ▸ h.requests

/-- A deferred block either presents its URL or leaves the view as it is. -/
theorem Player.runMainQueue_cases (f : Foundation) (p : Player) :
    p.runMainQueue f = p ∨ ∃ block blocks, p.mainQueue = block :: blocks ∧
      (p.runMainQueue f = { p with mainQueue := blocks } ∨
        ∃ videoURL, p.runMainQueue f =
          { p with mainQueue := blocks }.present videoURL block.url) := by
  unfold Player.runMainQueue
  split
  · exact Or.inl rfl
  · rename_i block blocks hq
    refine Or.inr ⟨block, blocks, hq, ?_⟩
    rw [Player.runConfigureBlock_eq]
    split
    · exact Or.inl rfl
    · exact Or.inr ⟨_, rfl⟩

@[simp] theorem Player.runMainQueue_requests (f : Foundation) (p : Player) :
    (p.runMainQueue f).requests = p.requests := by
  rcases p.runMainQueue_cases f with h | ⟨_, _, _, h | ⟨_, h⟩⟩ <;> simp [h, Player.present]

@[simp] theorem Player.runMainQueue_loadingRequests (f : Foundation) (p : Player) :
    (p.runMainQueue f).loadingRequests = p.loadingRequests := by
  rcases p.runMainQueue_cases f with h | ⟨_, _, _, h | ⟨_, h⟩⟩ <;> simp [h, Player.present]

@[simp] theorem Player.runMainQueue_videoData (f : Foundation) (p : Player) :
    (p.runMainQueue f).videoData = p.videoData := by
  rcases p.runMainQueue_cases f with h | ⟨_, _, _, h | ⟨_, h⟩⟩ <;> simp [h, Player.present]

/-- Presenting a video leaves the loader's objects alone. -/
theorem Served.runMainQueue {downloaded : Data} {p : Player} (h : Served downloaded p)
    (f : Foundation) : Served downloaded (p.runMainQueue f) :=
  h.congr (p.runMainQueue_videoData f) (p.runMainQueue_loadingRequests f)
    (p.runMainQueue_requests f)

/-- A new request is pending under its own position. -/
theorem Player.lt_length_shouldWaitForLoading {p : Player}
    (h : ∀ id ∈ p.loadingRequests, id < p.requests.length) (r : AVAssetResourceLoadingRequest) :
    ∀ id ∈ (p.shouldWaitForLoading r).loadingRequests,
      id < (p.shouldWaitForLoading r).requests.length := by
  intro id hid
  rw [shouldWaitForLoading_loadingRequests, List.mem_append, List.mem_singleton] at hid
  rw [shouldWaitForLoading_requests, List.length_append, List.length_singleton]
  rcases hid with hid | rfl
  · exact Nat.lt_succ_of_lt (h id hid)
  · exact Nat.lt_succ_self _

theorem Player.lt_length_didCancel {p : Player}
    (h : ∀ id ∈ p.loadingRequests, id < p.requests.length) (cancelled : Nat) :
    ∀ id ∈ (p.didCancel cancelled).loadingRequests,
      id < (p.didCancel cancelled).requests.length := by
  intro id hid
  rw [didCancel_loadingRequests] at hid
  simpa only [didCancel, List.length_modify] using h id (List.mem_of_mem_erase hid)

theorem Served.shouldWaitForLoading {downloaded : Data} {p : Player} (h : Served downloaded p)
    (info : Option AVAssetResourceLoadingContentInformationRequest) (range : Option ByteRange) :
    Served downloaded (p.shouldWaitForLoading (.create info range)) where
  videoData := (p.shouldWaitForLoading_videoData _).trans h.videoData
  nodup := by
    rw [Player.shouldWaitForLoading_loadingRequests]
    refine List.Nodup.append h.nodup (List.nodup_singleton _)
      (List.disjoint_singleton.mpr fun hm => ?_)
    exact absurd (h.bound _ hm) (lt_irrefl _)
  bound := Player.lt_length_shouldWaitForLoading h.bound _
  requests := by
    intro request hm r hr
    rw [Player.shouldWaitForLoading_requests, List.mem_append, List.mem_singleton] at hm
    rcases hm with hm | rfl
    · exact h.requests request hm r hr
    · obtain ⟨range, _, rfl⟩ := Option.map_eq_some_iff.mp hr
      exact servedFrom_ofRange downloaded range

theorem Served.didCancel {downloaded : Data} {p : Player} (h : Served downloaded p) (id : Nat) :
    Served downloaded (p.didCancel id) where
  videoData := h.videoData
  nodup := by
    rw [Player.didCancel_loadingRequests]
    exact h.nodup.erase id
  bound := Player.lt_length_didCancel h.bound id
  requests := by
    intro request hm r hr
    obtain ⟨i, hi⟩ := List.mem_iff_getElem?.mp hm
    simp only [Player.didCancel, List.getElem?_modify] at hi
    obtain ⟨old, hold, rfl⟩ := Option.map_eq_some_iff.mp hi
    refine h.requests old (List.mem_of_getElem? hold) r ?_
    split at hr <;> exact hr

theorem Served.append {downloaded : Data} {p : Player} (h : Served downloaded p) (chunk : Data) :
    Served (downloaded ++ chunk)
      { p with videoData := p.videoData.map fun videoData => videoData ++ chunk } where
  videoData := by simp only [h.videoData, Option.map_some]
  nodup := h.nodup
  bound := h.bound
  requests := h.requests.append chunk

/-- No callback traps, and each of them keeps every request a slice of the download. -/
theorem Served.next {received : Data} {p : Player} (h : Served received p)
    (f : Foundation) (start : Player) (e : LoaderEvent) :
    ∃ q, (loader f start).next p e = some q ∧ Served (received ++ e.bytes) q := by
  cases e with
  | shouldWaitForLoading info range =>
    exact ⟨_, rfl, by simpa only [LoaderEvent.bytes, List.append_nil] using
      h.shouldWaitForLoading info range⟩
  | didCancel id =>
    exact ⟨_, rfl, by simpa only [LoaderEvent.bytes, List.append_nil] using h.didCancel id⟩
  | didReceiveResponse response =>
    have hi : Served received { p with infoResponse := some response } := h.congr rfl rfl rfl
    exact ⟨_, hi.processLoadingRequest_eq, by
      simpa only [LoaderEvent.bytes, List.append_nil] using hi.pass⟩
  | didReceiveData chunk =>
    exact ⟨_, (h.append chunk).processLoadingRequest_eq, (h.append chunk).pass⟩
  | runConfigureBlock =>
    exact ⟨_, rfl, by simpa only [LoaderEvent.bytes, List.append_nil] using h.runMainQueue f⟩

/-- Every list of callbacks runs to its end from a served player. -/
theorem Served.exists_run {received : Data} {start : Player} (h : Served received start)
    (f : Foundation) (events : List LoaderEvent) :
    ∃ p, (loader f start).Run events p ∧ Served (received ++ downloaded events) p :=
  Machine.exists_run (m := loader f start)
    (I := fun events p => Served (received ++ downloaded events) p)
    ((List.append_nil received).symm ▸ h)
    (fun events p e hp => by
      rw [downloaded_concat, ← List.append_assoc]
      exact hp.next f start e) events

theorem Served.of_run {received : Data} {start : Player} (h : Served received start)
    {f : Foundation} {events : List LoaderEvent} {p : Player}
    (hr : (loader f start).Run events p) : Served (received ++ downloaded events) p := by
  obtain ⟨q, hq, hs⟩ := h.exists_run f events
  exact hq.unique hr ▸ hs

theorem served_initial : Served [] Player.initial where
  videoData := rfl
  nodup := List.nodup_nil
  bound := fun _ hid => absurd hid (List.not_mem_nil)
  requests := fun _ hm => absurd hm (List.not_mem_nil)

theorem Served.configure {downloaded : Data} {p : Player} (h : Served downloaded p)
    (url : Option URL) (fileExtension data : Option String) :
    Served downloaded (p.configure url fileExtension data) := by
  cases url with
  | none => exact h
  | some url => exact h.congr rfl rfl rfl

/-- A callback that ends with a pass leaves every pending request caught up. -/
theorem Served.next_caughtUp {received : Data} {p q : Player} (h : Served received p)
    {f : Foundation} {start : Player} {e : LoaderEvent} (hpass : e.isPass = true)
    (hn : (loader f start).next p e = some q) {id : Nat} (hid : id ∈ q.loadingRequests)
    {request : AVAssetResourceLoadingRequest} (hq : q.requests[id]? = some request)
    {r : AVAssetResourceLoadingDataRequest} (hr : request.dataRequest = some r) :
    CaughtUp (received ++ e.bytes) r := by
  cases e with
  | didReceiveResponse response =>
    have hi : Served received { p with infoResponse := some response } := h.congr rfl rfl rfl
    obtain rfl := Option.some.inj (hi.processLoadingRequest_eq.symm.trans hn)
    simpa only [LoaderEvent.bytes, List.append_nil] using hi.pass_caughtUp hid hq hr
  | didReceiveData chunk =>
    obtain rfl := Option.some.inj ((h.append chunk).processLoadingRequest_eq.symm.trans hn)
    exact (h.append chunk).pass_caughtUp hid hq hr
  | shouldWaitForLoading | didCancel | runConfigureBlock => cases hpass

/-- Byte delivery. From its first configuration on, whatever callbacks occur in
whatever order, none of them traps; every data request has been given exactly the
downloaded bytes between its requested and its current offset and never more than
its range; and after a pass each pending request has all downloaded bytes of its
range, or none when the download has not reached its offset. -/
theorem loader_delivers_slices (f : Foundation) (url : Option URL)
    (fileExtension data : Option String) (events : List LoaderEvent) :
    ∃ p, (loader f (Player.initial.configure url fileExtension data)).Run events p ∧
      (∀ request ∈ p.requests, ∀ r, request.dataRequest = some r →
        (r.delivered =
            (downloaded events).extract r.requestedOffset.toNat r.currentOffset.toNat ∧
          r.requestedOffset ≤ r.currentOffset ∧
          (r.currentOffset = r.requestedOffset ∨
            r.currentOffset ≤ (downloaded events).length)) ∧
        r.currentOffset ≤ r.requestedOffset + r.requestedLength) ∧
      (∀ e, events.getLast? = some e → e.isPass = true →
        ∀ id ∈ p.loadingRequests, ∀ request, p.requests[id]? = some request →
        ∀ r, request.dataRequest = some r →
          (r.requestedOffset ≤ (downloaded events).length →
            r.currentOffset =
              min (r.requestedOffset + r.requestedLength) (downloaded events).length) ∧
          ((downloaded events).length < r.requestedOffset →
            r.currentOffset = r.requestedOffset)) := by
  have hstart := served_initial.configure url fileExtension data
  obtain ⟨p, hp, hserved⟩ := hstart.exists_run f events
  refine ⟨p, hp, ?_, ?_⟩
  · intro request hm r hr
    have hs := hserved.requests request hm r hr
    exact ⟨⟨hs.delivered, hs.offset_le, hs.le_downloaded⟩, hs.le_stop⟩
  · intro e he hpass id hid request hq r hr
    obtain ⟨before, rfl⟩ := List.getLast?_eq_some_iff.mp he
    obtain ⟨q, hq', hn⟩ := Machine.run_concat_iff.mp hp
    have hc := (hstart.of_run hq').next_caughtUp hpass hn hid hq hr
    rw [List.nil_append, ← downloaded_concat] at hc
    have hle := r.range.offset_le_stop
    simp only [CaughtUp, ByteRange.stop] at hc hle
    simp only [AVAssetResourceLoadingDataRequest.requestedOffset,
      AVAssetResourceLoadingDataRequest.requestedLength]
    constructor <;> intro ho <;> omega

end TiktokClone
