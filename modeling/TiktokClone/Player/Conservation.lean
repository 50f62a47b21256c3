import TiktokClone.Library.History
import TiktokClone.Player.Loader

/-!
# Conservation of loading requests

The resource loader appends to the list of pending requests and removes from it, a
pass filters it and a cleanup empties it. Every step either adds one request, takes
one cancelled request away or finishes some of the pending ones once each, so each
request ever accepted is in exactly one place: pending, cancelled or finished.
-/

namespace TiktokClone

open Library VideoPlayerView

/-- Everything that happens to a view: its own methods with the blocks that they defer, the
callbacks of the resource loader and those of the session. -/
inductive ViewEvent
  | configure (url : Option URL) (fileExtension data : Option String)
  | runConfigureBlock
  | cancelAllLoadingRequest
  | runCancelBlock
  | shouldWaitForLoading (info : Option AVAssetResourceLoadingContentInformationRequest)
      (range : Option ByteRange)
  | didCancel (id : Nat)
  | didReceiveResponse (response : URLResponse)
  | didReceiveData (chunk : Data)
  | didCompleteWithError (error : Option String)

/-- The event ends with `processLoadingRequest`. -/
def ViewEvent.isPass : ViewEvent → Bool
  | didReceiveResponse _ | didReceiveData _ => true
  | _ => false

/-- A view from its initializer on; its callbacks come in any order. -/
def callbacks (f : Foundation) : Machine Player ViewEvent where
  start := .initial
  next p
    | .configure url fileExtension data => some (p.configure url fileExtension data)
    | .runConfigureBlock => some (p.runMainQueue f)
    | .cancelAllLoadingRequest => some p.cancelAllLoadingRequest
    | .runCancelBlock =>
      match p.cancelLoadingQueue with
      | 0 => none
      | blocks + 1 => some { p with cancelLoadingQueue := blocks }.runCancelBlock
    | .shouldWaitForLoading info range => some (p.shouldWaitForLoading (.create info range))
    | .didCancel id => some (p.didCancel id)
    | .didReceiveResponse response => p.didReceiveResponse response
    | .didReceiveData chunk => p.didReceiveData chunk
    | .didCompleteWithError error => p.didCompleteWithError error

/-- How often the request was finished, if it was accepted. -/
def Player.finishCount (p : Player) (id : Nat) : Option Nat :=
  (p.requests[id]?).map AVAssetResourceLoadingRequest.finishCount

/-- The request has been given every byte of its range. -/
def Player.HasWholeRange (p : Player) (id : Nat) : Prop :=
  ∃ request r videoData, p.requests[id]? = some request ∧ request.dataRequest = some r ∧
    p.videoData = some videoData ∧ r.requestedOffset + r.requestedLength ≤ videoData.length ∧
    r.delivered = videoData.extract r.requestedOffset.toNat
      (r.requestedOffset + r.requestedLength).toNat

/-- The request was pending when the loader cancelled it. -/
def RemovedByCancel (f : Foundation) (events : List ViewEvent) (id : Nat) : Prop :=
  Since (fun before e => e = .didCancel id ∧
    ∃ p, (callbacks f).Run before p ∧ id ∈ p.loadingRequests) (fun _ => True) events

/-- The pending requests are in order of arrival, and while the view has a buffer all requests
are served from it. -/
structure Listed (p : Player) : Prop where
  ordered : p.loadingRequests.Pairwise (· < ·)
  bound : ∀ id ∈ p.loadingRequests, id < p.requests.length
  served : ∀ downloaded, p.videoData = some downloaded → RequestsServed downloaded p.requests

/-- A step finishes the chosen ones of the pending requests, once each, and no other. -/
structure Finishes (p q : Player) (chosen : Nat → Bool) : Prop where
  pending : q.loadingRequests = p.loadingRequests.filter fun id => !chosen id
  counts : ∀ id, q.finishCount id = (p.finishCount id).map fun n =>
    if id ∈ p.loadingRequests ∧ chosen id = true then n + 1 else n

theorem Listed.toServed {p : Player} (h : Listed p) {downloaded : Data}
    (hv : p.videoData = some downloaded) : Served downloaded p :=
  ⟨hv, h.ordered.imp Nat.ne_of_lt, h.bound, h.served downloaded hv⟩

theorem Listed.congr {p q : Player} (h : Listed p) (hl : q.loadingRequests = p.loadingRequests)
    (hr : q.requests = p.requests) (hv : q.videoData = p.videoData) : Listed q where
  ordered := hl ▸ h.ordered
  bound := by
    rw [hl, hr]
    exact h.bound
  served := by
    rw [hv, hr]
    exact h.served

/-- Steps that touch no request finish none. -/
theorem Finishes.of_eq {p q : Player} (hl : q.loadingRequests = p.loadingRequests)
    (hr : q.requests = p.requests) : Finishes p q fun _ => false where
  pending := by simp [hl]
  counts := fun id => by simp [Player.finishCount, hr, Function.comp_def]

/-! ### One pass -/

/-- A request that completes in a pass has its whole range. -/
theorem completes_hasWholeRange {downloaded : Data} {p : Player} (h : Served downloaded p)
    {id : Nat} (hid : id ∈ p.loadingRequests)
    (hc : (p.requests[id]?).any (completes downloaded) = true) :
    (p.pass downloaded).HasWholeRange id := by
  obtain ⟨request, hlookup, hcomplete⟩ := (Option.any_eq_true _ _).mp hc
  rw [completes] at hcomplete
  split at hcomplete
  · cases hcomplete
  · rename_i r hr
    have hserved := h.requests request (List.mem_of_getElem? hlookup) r hr
    have hcaught := responded_caughtUp hserved
    have hserved' := responded_servedFrom hserved
    have hle := r.range.offset_le_stop
    rw [isComplete, decide_eq_true_eq] at hcomplete
    rw [CaughtUp, responded_range] at hcaught
    have hstop : (responded downloaded r).currentOffset = r.range.stop := by omega
    refine ⟨processed p.infoResponse downloaded request, responded downloaded r, downloaded,
      ?_, ?_, h.videoData, ?_, ?_⟩
    · rw [Player.pass_getElem?, hlookup, Option.map_some, if_pos hid]
    · rw [processed_dataRequest, hr, Option.map_some]
    · simp only [AVAssetResourceLoadingDataRequest.requestedOffset,
        AVAssetResourceLoadingDataRequest.requestedLength, responded_range]
      exact hcomplete.2.trans hcomplete.1
    · rw [hserved'.delivered, hstop, responded_range]
      simp only [AVAssetResourceLoadingDataRequest.requestedOffset,
        AVAssetResourceLoadingDataRequest.requestedLength, responded_range]
      rfl

/-- Without a buffer the loop body answers the content information at most. -/
theorem processRequest_of_no_buffer (infoResponse : Option URLResponse)
    (request : AVAssetResourceLoadingRequest) :
    processRequest infoResponse none request =
      some (informRequest infoResponse request, false) := by
  unfold processRequest
  cases hr : (informRequest infoResponse request).dataRequest with
  | none => simp only [hr]
  | some r =>
    simp only [hr, checkAndRespond, Bool.false_eq_true, if_false]
    rw [← hr]

/-- A pass never traps; it finishes some of the pending requests, all of which have been given
their whole range. -/
theorem Listed.pass {p : Player} (h : Listed p) : ∃ q chosen, p.processLoadingRequest = some q ∧
    Listed q ∧ q.requests.length = p.requests.length ∧ Finishes p q chosen ∧
    ∀ id ∈ p.loadingRequests, chosen id = true → q.HasWholeRange id := by
  cases hv : p.videoData with
  | none =>
    have hloop := processRequests_of_body (I := fun _ => True)
      (fun r _ => processRequest_of_no_buffer p.infoResponse r) (fun _ _ => trivial)
      (h.ordered.imp Nat.ne_of_lt) h.bound (fun _ _ => trivial)
    refine ⟨_, fun _ => false, by rw [Player.processLoadingRequest, hv, hloop], ⟨?_, ?_, ?_⟩, ?_,
      ⟨?_, ?_⟩, ?_⟩
    · exact h.ordered.filter _
    · intro id hid
      simpa only [List.length_mapIdx] using h.bound id (List.mem_of_mem_filter hid)
    · intro downloaded hd
      cases hd
    · exact List.length_mapIdx
    · simp
    · intro id
      simp only [Player.finishCount, List.getElem?_mapIdx, Option.map_map]
      refine Option.map_congr fun request _ => ?_
      by_cases hid : id ∈ p.loadingRequests <;> simp [hid]
    · exact fun _ _ hc => absurd hc Bool.false_ne_true
  | some downloaded =>
    have hs := h.toServed hv
    refine ⟨p.pass downloaded, fun id => (p.requests[id]?).any (completes downloaded),
      hs.processLoadingRequest_eq, ⟨?_, hs.pass.bound, ?_⟩, ?_, ⟨rfl, ?_⟩, ?_⟩
    · exact h.ordered.filter _
    · intro other hother
      obtain rfl : downloaded = other := Option.some.inj (hs.pass.videoData.symm.trans hother)
      exact hs.pass.requests
    · exact List.length_mapIdx
    · intro id
      rw [Player.finishCount, Player.pass_getElem?, Player.finishCount, Option.map_map,
        Option.map_map]
      refine Option.map_congr fun request hlookup => ?_
      rw [Function.comp_apply, Function.comp_apply, Option.mem_def.mp hlookup, Option.any_some]
      by_cases hid : id ∈ p.loadingRequests
      · rw [if_pos hid, processed_finishCount]
        simp only [hid, true_and]
        split <;> rfl
      · rw [if_neg hid, if_neg fun hc => hid hc.1]
    · exact fun id hid hc => completes_hasWholeRange hs hid hc

/-! ### One step -/

/-- A cleanup finishes all pending requests. -/
theorem foldl_finishLoading {ids : List Nat} (hn : ids.Nodup)
    (requests : List AVAssetResourceLoadingRequest) :
    ids.foldl (fun requests id => requests.modify id .finishLoading) requests =
      requests.mapIdx fun i r => if i ∈ ids then r.finishLoading else r := by
  induction ids generalizing requests with
  | nil => exact List.ext_getElem? fun i => by simp [List.getElem?_mapIdx]
  | cons id ids ih =>
    obtain ⟨hfresh, hnodup⟩ := List.nodup_cons.mp hn
    rw [List.foldl_cons, ih hnodup]
    apply List.ext_getElem?
    intro i
    simp only [List.getElem?_mapIdx, List.getElem?_modify, List.mem_cons, Option.map_eq_map,
      Option.map_map]
    refine Option.map_congr fun r _ => ?_
    by_cases hi : i = id
    · subst hi
      simp [hfresh]
    · simp [hi, Ne.symm hi]

theorem Listed.runCancelBlock {p : Player} (h : Listed p) : Listed p.runCancelBlock ∧
    p.runCancelBlock.requests.length = p.requests.length ∧
    Finishes p p.runCancelBlock fun _ => true := by
  have hloop := foldl_finishLoading (h.ordered.imp Nat.ne_of_lt) p.requests
  refine ⟨⟨.nil, ?_, ?_⟩, ?_, ⟨?_, ?_⟩⟩
  · exact fun id hid => absurd hid List.not_mem_nil
  · intro downloaded hd
    cases hd
  · rw [Player.runCancelBlock, hloop, List.length_mapIdx]
  · simp [Player.runCancelBlock]
  · intro id
    simp only [Player.finishCount, Player.runCancelBlock, hloop, List.getElem?_mapIdx,
      Option.map_map]
    refine Option.map_congr fun r _ => ?_
    by_cases hid : id ∈ p.loadingRequests
    · simp [hid, AVAssetResourceLoadingRequest.finishLoading]
    · simp [hid]

theorem Listed.shouldWaitForLoading {p : Player} (h : Listed p)
    (info : Option AVAssetResourceLoadingContentInformationRequest) (range : Option ByteRange) :
    Listed (p.shouldWaitForLoading (.create info range)) where
  ordered := by
    rw [Player.shouldWaitForLoading_loadingRequests, List.pairwise_append]
    refine ⟨h.ordered, List.pairwise_singleton _ _, fun id hid new hnew => ?_⟩
    rw [List.mem_singleton.mp hnew]
    exact h.bound id hid
  bound := Player.lt_length_shouldWaitForLoading h.bound _
  served := by
    intro downloaded hd
    rw [Player.shouldWaitForLoading_videoData] at hd
    exact ((h.toServed hd).shouldWaitForLoading info range).requests

theorem Listed.didCancel {p : Player} (h : Listed p) (id : Nat) : Listed (p.didCancel id) where
  ordered := by
    rw [Player.didCancel_loadingRequests]
    exact h.ordered.sublist List.erase_sublist
  bound := Player.lt_length_didCancel h.bound id
  served := fun _ hd => ((h.toServed hd).didCancel id).requests

/-- What a step without a new or a cancelled request may do: finish nothing, or the pending
requests in a cleanup, or in a pass some that have been given their whole range. -/
structure FinishesRightly (p : Player) (e : ViewEvent) (q : Player) : Prop where
  listed : Listed q
  length : q.requests.length = p.requests.length
  finishes : ∃ chosen, Finishes p q chosen ∧ ∀ id ∈ p.loadingRequests, chosen id = true →
    e = .runCancelBlock ∨ e.isPass = true ∧ q.HasWholeRange id

theorem Listed.frame {p q : Player} (h : Listed p) (e : ViewEvent)
    (hl : q.loadingRequests = p.loadingRequests) (hr : q.requests = p.requests)
    (hv : q.videoData = p.videoData) : FinishesRightly p e q where
  listed := h.congr hl hr hv
  length := congrArg List.length hr
  finishes := ⟨_, .of_eq hl hr, fun _ _ hc => absurd hc Bool.false_ne_true⟩

/-- A pass after a step that touches neither the requests nor the list of the pending ones. -/
theorem Listed.framed_pass {p r q : Player} (h : Listed r) {e : ViewEvent} (he : e.isPass = true)
    (hl : r.loadingRequests = p.loadingRequests) (hr : r.requests = p.requests)
    (hq : r.processLoadingRequest = some q) : FinishesRightly p e q := by
  obtain ⟨q', chosen, hq', hlisted, hlength, hfinishes, hwhole⟩ := h.pass
  obtain rfl : q' = q := Option.some.inj (hq'.symm.trans hq)
  refine ⟨hlisted, hr ▸ hlength, chosen, ⟨hl ▸ hfinishes.pending, fun id => ?_⟩,
    fun id hid hc => Or.inr ⟨he, hwhole id (hl ▸ hid) hc⟩⟩
  rw [hfinishes.counts, hl, Player.finishCount, Player.finishCount, hr]

/-- A chunk that reaches the buffer leaves all requests served. -/
theorem Listed.receiveData {p : Player} (h : Listed p) (chunk : Data) :
    Listed { p with videoData := p.videoData.map fun videoData => videoData ++ chunk } := by
  refine ⟨h.ordered, h.bound, fun downloaded hd => ?_⟩
  obtain ⟨old, hold, rfl⟩ := Option.map_eq_some_iff.mp hd
  exact (h.served old hold).append chunk

/-- A step accepts a new request, takes a cancelled one away, or finishes what it may. -/
theorem Listed.next_cases {f : Foundation} {p q : Player} {e : ViewEvent} (h : Listed p)
    (hn : (callbacks f).next p e = some q) :
    (∃ info range, e = .shouldWaitForLoading info range ∧
      q = p.shouldWaitForLoading (.create info range)) ∨
    (∃ id, e = .didCancel id ∧ q = p.didCancel id) ∨
    (FinishesRightly p e q ∧ ∀ id, e ≠ .didCancel id) := by
  cases e with
  | configure url fileExtension data =>
    obtain rfl := Option.some.inj hn
    refine Or.inr (Or.inr ⟨?_, by simp⟩)
    cases url with
    | none => exact h.frame _ rfl rfl rfl
    | some url => exact h.frame _ rfl rfl rfl
  | runConfigureBlock =>
    obtain rfl := Option.some.inj hn
    exact Or.inr (Or.inr ⟨h.frame _ (p.runMainQueue_loadingRequests f)
      (p.runMainQueue_requests f) (p.runMainQueue_videoData f), by simp⟩)
  | cancelAllLoadingRequest =>
    obtain rfl := Option.some.inj hn
    exact Or.inr (Or.inr ⟨h.frame _ rfl rfl rfl, by simp⟩)
  | runCancelBlock =>
    simp only [callbacks] at hn
    split at hn
    · cases hn
    · rename_i blocks _
      obtain rfl := Option.some.inj hn
      have hlisted : Listed { p with cancelLoadingQueue := blocks } := h.congr rfl rfl rfl
      obtain ⟨hq, hlength, hfinishes⟩ := hlisted.runCancelBlock
      refine Or.inr (Or.inr ⟨⟨hq, hlength, _, ⟨hfinishes.pending, hfinishes.counts⟩, ?_⟩, by simp⟩)
      exact fun _ _ _ => Or.inl rfl
  | shouldWaitForLoading info range => exact Or.inl ⟨info, range, rfl, (Option.some.inj hn).symm⟩
  | didCancel id => exact Or.inr (Or.inl ⟨id, rfl, (Option.some.inj hn).symm⟩)
  | didReceiveResponse response =>
    have hlisted : Listed { p with infoResponse := some response } := h.congr rfl rfl rfl
    exact Or.inr (Or.inr ⟨hlisted.framed_pass rfl rfl rfl hn, by simp⟩)
  | didReceiveData chunk =>
    exact Or.inr (Or.inr ⟨(h.receiveData chunk).framed_pass rfl rfl rfl hn, by simp⟩)
  | didCompleteWithError error =>
    refine Or.inr (Or.inr ⟨?_, by simp⟩)
    cases error with
    | some error =>
      obtain rfl := Option.some.inj hn
      exact h.frame _ rfl rfl rfl
    | none =>
      simp only [callbacks, Player.didCompleteWithError] at hn
      split at hn
      · cases hn
      · obtain rfl := Option.some.inj hn
        exact h.frame _ rfl rfl rfl

/-- No pass traps. -/
theorem Listed.next_isSome {f : Foundation} {p : Player} {e : ViewEvent} (h : Listed p)
    (he : e.isPass = true) : ((callbacks f).next p e).isSome = true := by
  cases e with
  | didReceiveResponse response =>
    have hlisted : Listed { p with infoResponse := some response } := h.congr rfl rfl rfl
    obtain ⟨q, _, hq, _⟩ := hlisted.pass
    exact Option.isSome_of_mem hq
  | didReceiveData chunk =>
    obtain ⟨q, _, hq, _⟩ := (h.receiveData chunk).pass
    exact Option.isSome_of_mem hq
  | configure | runConfigureBlock | cancelAllLoadingRequest | runCancelBlock
  | shouldWaitForLoading | didCancel | didCompleteWithError => cases he

/-! ### Every request in one place -/

/-- Where a request that was finished `n` times is after a history: the three cases exclude one
another. -/
inductive Place (f : Foundation) (events : List ViewEvent) (p : Player) (id n : Nat) : Prop
  | pending (listed : id ∈ p.loadingRequests) (unfinished : n = 0)
      (kept : ¬ RemovedByCancel f events id)
  | cancelled (unlisted : id ∉ p.loadingRequests) (unfinished : n = 0)
      (removed : RemovedByCancel f events id)
  | finished (unlisted : id ∉ p.loadingRequests) (once : n = 1)
      (kept : ¬ RemovedByCancel f events id)

/-- The invariant of a history and the state it reaches. -/
structure Conserved (f : Foundation) (events : List ViewEvent) (p : Player) : Prop where
  listed : Listed p
  accepted : ∀ id, RemovedByCancel f events id → id < p.requests.length
  place : ∀ id n, p.finishCount id = some n → Place f events p id n

section Step

variable {f : Foundation} {events : List ViewEvent} {p q : Player} {e : ViewEvent}

theorem removedByCancel_concat (hr : (callbacks f).Run events p) (e : ViewEvent) (id : Nat) :
    RemovedByCancel f (events ++ [e]) id ↔
      e = .didCancel id ∧ id ∈ p.loadingRequests ∨ RemovedByCancel f events id := by
  rw [RemovedByCancel, since_concat, RemovedByCancel]
  refine or_congr (and_congr_right fun _ => ?_) (and_iff_right trivial)
  exact ⟨fun ⟨_, hr', hid⟩ => hr'.unique hr ▸ hid, fun hid => ⟨p, hr, hid⟩⟩

/-- Only a cancellation removes. -/
theorem removedByCancel_of_ne (hr : (callbacks f).Run events p) (he : ∀ id, e ≠ .didCancel id)
    (id : Nat) : RemovedByCancel f (events ++ [e]) id ↔ RemovedByCancel f events id := by
  rw [removedByCancel_concat hr]
  exact or_iff_right fun h => he id h.1

theorem Player.lt_length_of_finishCount {id n : Nat} (h : p.finishCount id = some n) :
    id < p.requests.length := by
  obtain ⟨request, hlookup, _⟩ := Option.map_eq_some_iff.mp h
  exact (List.getElem?_eq_some_iff.mp hlookup).1

theorem Conserved.shouldWaitForLoading (h : Conserved f events p) (hr : (callbacks f).Run events p)
    (info : Option AVAssetResourceLoadingContentInformationRequest) (range : Option ByteRange) :
    Conserved f (events ++ [.shouldWaitForLoading info range])
      (p.shouldWaitForLoading (.create info range)) where
  listed := h.listed.shouldWaitForLoading info range
  accepted := by
    intro id hremoved
    rw [removedByCancel_of_ne hr (by simp)] at hremoved
    rw [Player.shouldWaitForLoading_requests, List.length_append]
    exact Nat.lt_add_right 1 (h.accepted id hremoved)
  place := by
    intro id n hn
    have hremoved := removedByCancel_of_ne (e := .shouldWaitForLoading info range) hr (by simp) id
    rw [Player.finishCount, Player.shouldWaitForLoading_requests] at hn
    by_cases hid : id < p.requests.length
    · rw [List.getElem?_append_left hid] at hn
      have hlisted : id ∈ (p.shouldWaitForLoading (.create info range)).loadingRequests ↔
          id ∈ p.loadingRequests := by
        rw [Player.shouldWaitForLoading_loadingRequests, List.mem_append, List.mem_singleton]
        exact or_iff_left (Nat.ne_of_lt hid)
      cases h.place id n hn with
      | pending hm hzero hkept => exact .pending (hlisted.mpr hm) hzero (hremoved.not.mpr hkept)
      | cancelled hm hzero hr => exact .cancelled (hlisted.not.mpr hm) hzero (hremoved.mpr hr)
      | finished hm hone hkept => exact .finished (hlisted.not.mpr hm) hone (hremoved.not.mpr hkept)
    · obtain ⟨request, hlookup, rfl⟩ := Option.map_eq_some_iff.mp hn
      rw [List.getElem?_append_right (not_lt.mp hid), List.getElem?_singleton,
        Option.ite_none_right_eq_some, Option.some.injEq] at hlookup
      obtain ⟨hzero, rfl⟩ := hlookup
      obtain rfl : id = p.requests.length := by omega
      refine .pending ?_ rfl fun hr => ?_
      · rw [Player.shouldWaitForLoading_loadingRequests]
        exact List.mem_append_right _ (List.mem_singleton_self _)
      · exact absurd (h.accepted _ (hremoved.mp hr)) (lt_irrefl _)

theorem Player.didCancel_finishCount (p : Player) (i id : Nat) :
    (p.didCancel i).finishCount id = p.finishCount id := by
  simp only [finishCount, didCancel, List.getElem?_modify, Option.map_eq_map, Option.map_map]
  refine Option.map_congr fun request _ => ?_
  rw [Function.comp_apply]
  split <;> rfl

theorem Conserved.didCancel (h : Conserved f events p) (hr : (callbacks f).Run events p)
    (i : Nat) : Conserved f (events ++ [.didCancel i]) (p.didCancel i) where
  listed := h.listed.didCancel i
  accepted := by
    intro id hremoved
    rw [Player.didCancel, List.length_modify]
    rcases (removedByCancel_concat hr _ id).mp hremoved with ⟨_, hid⟩ | hremoved
    · exact h.listed.bound id hid
    · exact h.accepted id hremoved
  place := by
    intro id n hn
    rw [Player.didCancel_finishCount] at hn
    have hremoved := removedByCancel_concat hr (.didCancel i) id
    have hlisted : id ∈ (p.didCancel i).loadingRequests ↔ id ≠ i ∧ id ∈ p.loadingRequests := by
      have hnodup : p.loadingRequests.Nodup := h.listed.ordered.imp Nat.ne_of_lt
      rw [Player.didCancel_loadingRequests]
      exact hnodup.mem_erase_iff
    cases h.place id n hn with
    | pending hm hzero hkept =>
      by_cases hid : id = i
      · exact .cancelled (fun hc => (hlisted.mp hc).1 hid) hzero
          (hremoved.mpr (Or.inl ⟨by rw [hid], hm⟩))
      · refine .pending (hlisted.mpr ⟨hid, hm⟩) hzero fun hc => ?_
        rcases hremoved.mp hc with ⟨he, _⟩ | hc
        · exact hid (ViewEvent.didCancel.inj he).symm
        · exact hkept hc
    | cancelled hm hzero hc =>
      exact .cancelled (fun hc' => hm (hlisted.mp hc').2) hzero (hremoved.mpr (Or.inr hc))
    | finished hm hone hkept =>
      refine .finished (fun hc => hm (hlisted.mp hc).2) hone fun hc => ?_
      rcases hremoved.mp hc with ⟨_, hc⟩ | hc
      · exact hm hc
      · exact hkept hc

theorem Conserved.finishesRightly (h : Conserved f events p) (hr : (callbacks f).Run events p)
    (hq : FinishesRightly p e q) (he : ∀ id, e ≠ .didCancel id) :
    Conserved f (events ++ [e]) q where
  listed := hq.listed
  accepted := by
    intro id hremoved
    rw [hq.length]
    exact h.accepted id ((removedByCancel_of_ne hr he id).mp hremoved)
  place := by
    intro id n hn
    obtain ⟨chosen, hfinishes, _⟩ := hq.finishes
    rw [hfinishes.counts] at hn
    obtain ⟨old, hold, rfl⟩ := Option.map_eq_some_iff.mp hn
    have hremoved := removedByCancel_of_ne hr he id
    have hlisted : id ∈ q.loadingRequests ↔ id ∈ p.loadingRequests ∧ chosen id = false := by
      rw [hfinishes.pending, List.mem_filter, Bool.not_eq_true']
    cases h.place id old hold with
    | pending hm hzero hkept =>
      cases hc : chosen id with
      | true =>
        refine .finished (fun hl => ?_) ?_ (hremoved.not.mpr hkept)
        · exact absurd (hlisted.mp hl).2 (by simp [hc])
        · rw [if_pos ⟨hm, rfl⟩, hzero]
      | false =>
        refine .pending (hlisted.mpr ⟨hm, hc⟩) ?_ (hremoved.not.mpr hkept)
        rw [if_neg (by simp), hzero]
    | cancelled hm hzero hc =>
      refine .cancelled (fun hl => hm (hlisted.mp hl).1) ?_ (hremoved.mpr hc)
      rw [if_neg fun hl => hm hl.1, hzero]
    | finished hm hone hkept =>
      refine .finished (fun hl => hm (hlisted.mp hl).1) ?_ (hremoved.not.mpr hkept)
      rw [if_neg fun hl => hm hl.1, hone]

theorem Conserved.next (h : Conserved f events p) (hr : (callbacks f).Run events p)
    (hn : (callbacks f).next p e = some q) : Conserved f (events ++ [e]) q := by
  rcases h.listed.next_cases hn with ⟨info, range, rfl, rfl⟩ | ⟨id, rfl, rfl⟩ | ⟨hq, he⟩
  · exact h.shouldWaitForLoading hr info range
  · exact h.didCancel hr id
  · exact h.finishesRightly hr hq he

theorem conserved_of_run (hr : (callbacks f).Run events p) : Conserved f events p := by
  induction hr with
  | nil =>
    refine ⟨⟨.nil, ?_, ?_⟩, ?_, ?_⟩
    · exact fun id hid => absurd hid List.not_mem_nil
    · exact fun _ _ r hm => absurd hm List.not_mem_nil
    · exact fun id hc => absurd hc not_since_nil
    · exact fun id n hn => absurd hn (by simp [Player.finishCount, callbacks, Player.initial,
        Player.setupView, Player.blank])
  | snoc hr hn ih => exact ih.next hr hn

/-- A step that finishes a request is the cleanup, or a pass that has given the request its
whole range; the request was pending. -/
theorem Listed.finished_in (h : Listed p) (hn : (callbacks f).next p e = some q) {id n m : Nat}
    (hp : p.finishCount id = some n) (hq : q.finishCount id = some m) (hlt : n < m) :
    id ∈ p.loadingRequests ∧ (e = .runCancelBlock ∨ e.isPass = true ∧ q.HasWholeRange id) := by
  rcases h.next_cases hn with ⟨info, range, rfl, rfl⟩ | ⟨i, rfl, rfl⟩ | ⟨hright, _⟩
  · have hid := Player.lt_length_of_finishCount hp
    rw [Player.finishCount, Player.shouldWaitForLoading_requests, List.getElem?_append_left hid,
      ← Player.finishCount, hp] at hq
    exact absurd (Option.some.inj hq) (Nat.ne_of_lt hlt)
  · rw [Player.didCancel_finishCount, hp] at hq
    exact absurd (Option.some.inj hq) (Nat.ne_of_lt hlt)
  · obtain ⟨chosen, hfinishes, hmay⟩ := hright.finishes
    rw [hfinishes.counts, hp, Option.map_some, Option.some.injEq] at hq
    split at hq
    · rename_i hc
      exact ⟨hc.1, hmay id hc.1 hc.2⟩
    · omega

end Step

/-- Loading requests are conserved. After every history each accepted request is in one place:
pending, taken away by a cancellation and never finished, or finished once; the pending ones
are in order of arrival. No pass traps, and a step that finishes a request is the cleanup, or a
pass that has given the request every byte of its range. -/
theorem loading_requests_conserved (f : Foundation) (events : List ViewEvent) (p : Player)
    (h : (callbacks f).Run events p) :
    p.loadingRequests.Pairwise (· < ·) ∧
      (∀ id n, p.finishCount id = some n → Place f events p id n) ∧
      (∀ e, e.isPass = true → ((callbacks f).next p e).isSome = true) ∧
      ∀ e q, (callbacks f).next p e = some q → ∀ id n m, p.finishCount id = some n →
        q.finishCount id = some m → n < m →
          id ∈ p.loadingRequests ∧
            (e = .runCancelBlock ∨ e.isPass = true ∧ q.HasWholeRange id) := by
  have hc := conserved_of_run h
  exact ⟨hc.listed.ordered, hc.place, fun e he => hc.listed.next_isSome he,
    fun e q hn id n m hp hq hlt => hc.listed.finished_in hn hp hq hlt⟩

/-- Of three requests one is cancelled, one is finished by the second pass over its byte, and
one is cleaned up. -/
def cancelledAndCleaned : List ViewEvent :=
  [.shouldWaitForLoading none none, .shouldWaitForLoading none none, .didCancel 1,
    .shouldWaitForLoading none (some .firstByte), .didReceiveData [7], .didReceiveData [8],
    .cancelAllLoadingRequest, .runCancelBlock]

theorem loading_requests_conserved_cancelledAndCleaned : ∃ p,
    (callbacks .plain).Run cancelledAndCleaned p ∧ p.finishCount 0 = some 1 ∧
      p.finishCount 1 = some 0 ∧ p.finishCount 2 = some 1 ∧
      p.loadingRequests.Pairwise (· < ·) ∧
      ∀ id n, p.finishCount id = some n → Place .plain cancelledAndCleaned p id n := by
  have hrun : (callbacks .plain).Run cancelledAndCleaned _ := Machine.run_iff_exec.mpr rfl
  have hconserved := loading_requests_conserved .plain cancelledAndCleaned _ hrun
  exact ⟨_, hrun, rfl, rfl, rfl, hconserved.1, hconserved.2.1⟩

end TiktokClone
