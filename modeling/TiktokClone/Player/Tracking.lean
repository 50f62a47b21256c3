import TiktokClone.Player.Loader

/-!
# The passes over a request

A pass finishes a request only when its current offset had reached the end of
its range before the pass responded. So one pass that covers the range is not
enough for a nonempty range. Counting the covering passes that follow the
registration of a request decides its fate.
-/

namespace TiktokClone

open Library VideoPlayerView

namespace LoaderEvent

/-- The byte range, if any, of a newly registered request. -/
def registers : LoaderEvent → Option (Option ByteRange)
  | shouldWaitForLoading _ range => some range
  | didCancel _ | didReceiveResponse _ | didReceiveData _ | runConfigureBlock => none

/-- The loader cancels the request at this position. -/
def cancels (id : Nat) : LoaderEvent → Bool
  | didCancel i => i == id
  | shouldWaitForLoading _ _ | didReceiveResponse _ | didReceiveData _ | runConfigureBlock => false

/-- The callback ends with a pass that finds the buffer at or past a position. -/
def covers (stop : Int) (received : Nat) (e : LoaderEvent) : Bool :=
  e.isPass && decide (stop ≤ (received + e.bytes.length : Nat))

end LoaderEvent

theorem LoaderEvent.covers_of_isPass {e : LoaderEvent} (h : e.isPass = true) (stop : Int)
    (received : Data) : e.covers stop received.length =
      decide (stop ≤ ((received ++ e.bytes).length : Nat)) := by
  rw [covers, h, Bool.true_and, List.length_append]

/-- The number of covering passes among the events, the first of which finds
`received` bytes in the buffer. -/
def coveringPasses (stop : Int) : Nat → List LoaderEvent → Nat
  | _, [] => 0
  | received, e :: events =>
    (e.covers stop received).toNat + coveringPasses stop (received + e.bytes.length) events

/-- Passes that must cover a range before the request for it is finished: the one
that responds with its last byte, and one more. -/
def ByteRange.passesNeeded (range : ByteRange) : Nat := if range.length = 0 then 1 else 2

theorem ByteRange.passesNeeded_pos (range : ByteRange) : 0 < range.passesNeeded := by
  unfold passesNeeded
  split <;> decide

theorem coveringPasses_concat (stop : Int) (received : Nat) (events : List LoaderEvent)
    (e : LoaderEvent) :
    coveringPasses stop received (events ++ [e]) = coveringPasses stop received events +
      (e.covers stop (received + (downloaded events).length)).toNat := by
  induction events generalizing received with
  | nil => simp [coveringPasses, downloaded]
  | cons a events ih =>
    have hlen : received + a.bytes.length + (downloaded events).length =
        received + (downloaded (a :: events)).length := by
      rw [downloaded, downloaded, List.flatMap_cons, List.length_append, Nat.add_assoc]
    rw [List.cons_append, coveringPasses, coveringPasses, ih, hlen, Nat.add_assoc]

/-- The byte ranges of the requests registered so far, by position. -/
def registered (events : List LoaderEvent) : List (Option ByteRange) :=
  events.filterMap LoaderEvent.registers

theorem registered_concat (events : List LoaderEvent) (e : LoaderEvent) :
    registered (events ++ [e]) = registered events ++ e.registers.toList := by
  unfold registered
  rw [List.filterMap_append]
  cases h : e.registers <;> simp [h]

/-- Every registered position stems from one event of the history. -/
theorem exists_registration {events : List LoaderEvent} {id : Nat} {range : Option ByteRange}
    (h : (registered events)[id]? = some range) :
    ∃ before info after, (registered before).length = id ∧
      events = before ++ .shouldWaitForLoading info range :: after := by
  induction events using List.reverseRecOn with
  | nil => exact absurd h (by simp [registered])
  | append_singleton events e ih =>
    by_cases hid : id < (registered events).length
    · rw [registered_concat, List.getElem?_append_left hid] at h
      obtain ⟨before, info, after, hb, rfl⟩ := ih h
      exact ⟨before, info, after ++ [e], hb, by simp⟩
    · rw [registered_concat, List.getElem?_append_right (not_lt.mp hid)] at h
      cases e with
      | shouldWaitForLoading info range' =>
        rw [LoaderEvent.registers, Option.toList_some, List.getElem?_singleton,
          Option.ite_none_right_eq_some, Option.some.injEq] at h
        obtain ⟨hz, rfl⟩ := h
        exact ⟨events, info, [], by omega, rfl⟩
      | didCancel | didReceiveResponse | didReceiveData | runConfigureBlock => cases h

/-- The byte ranges of the requests that a player holds, by position. -/
def Player.ranges (p : Player) : List (Option ByteRange) :=
  p.requests.map fun request => request.dataRequest.map (·.range)

/-- What the covering passes since its registration have done to one request. -/
structure Tracked (p : Player) (received : Data) (id passes : Nat)
    (request : AVAssetResourceLoadingRequest) (r : AVAssetResourceLoadingDataRequest) : Prop where
  lookup : p.requests[id]? = some request
  data : request.dataRequest = some r
  pending_iff : id ∈ p.loadingRequests ↔
    request.isCancelled = false ∧ passes < r.range.passesNeeded
  covered : 0 < passes → r.range.stop ≤ received.length
  waiting : request.isCancelled = false → passes = 0 → 0 < r.range.length →
    r.currentOffset < r.range.stop
  full : request.isCancelled = false → 0 < passes → r.currentOffset = r.range.stop
  finished : request.isCancelled = false → r.range.passesNeeded ≤ passes →
    0 < request.finishCount

theorem Tracked.lt_length {p : Player} {received : Data} {id passes : Nat}
    {request : AVAssetResourceLoadingRequest} {r : AVAssetResourceLoadingDataRequest}
    (h : Tracked p received id passes request r) : id < p.requests.length :=
  (List.getElem?_eq_some_iff.mp h.lookup).1

/-- Callbacks that touch neither the request nor its place in the list. -/
theorem Tracked.congr {p q : Player} {received : Data} {id passes : Nat}
    {request : AVAssetResourceLoadingRequest} {r : AVAssetResourceLoadingDataRequest}
    (h : Tracked p received id passes request r) (hq : q.requests[id]? = p.requests[id]?)
    (hl : id ∈ q.loadingRequests ↔ id ∈ p.loadingRequests) :
    Tracked q received id passes request r where
  lookup := hq.trans h.lookup
  data := h.data
  pending_iff := hl.trans h.pending_iff
  covered := h.covered
  waiting := h.waiting
  full := h.full
  finished := h.finished

/-- A new request is pending and has seen no pass. -/
theorem tracked_new (p : Player) (received : Data)
    (info : Option AVAssetResourceLoadingContentInformationRequest) (range : ByteRange) :
    Tracked (p.shouldWaitForLoading (.create info (some range))) received p.requests.length 0
      (.create info (some range)) (.ofRange range) where
  lookup := by
    rw [Player.shouldWaitForLoading_requests]
    exact List.getElem?_concat_length
  data := rfl
  pending_iff := by
    rw [Player.shouldWaitForLoading_loadingRequests]
    exact iff_of_true (List.mem_append_right _ (List.mem_singleton.mpr rfl))
      ⟨rfl, range.passesNeeded_pos⟩
  covered := fun h => absurd h (lt_irrefl 0)
  waiting := fun _ _ hl => by
    change range.offset < range.offset + range.length
    change 0 < range.length at hl
    omega
  full := fun _ h => absurd h (lt_irrefl 0)
  finished := fun _ h => absurd (lt_of_lt_of_le range.passesNeeded_pos h) (lt_irrefl 0)

/-- A pass over a request that is no longer pending leaves it alone. -/
theorem Tracked.pass_of_not_pending {p : Player} {received : Data} {id passes : Nat}
    {request : AVAssetResourceLoadingRequest} {r : AVAssetResourceLoadingDataRequest}
    (h : Tracked p received id passes request r) (hp : id ∉ p.loadingRequests)
    (covering : Bool) (hcover : covering = true → r.range.stop ≤ received.length) :
    Tracked (p.pass received) received id (passes + covering.toNat) request r := by
  have hdone : request.isCancelled = false → r.range.passesNeeded ≤ passes := fun hc =>
    not_lt.mp fun hlt => hp (h.pending_iff.mpr ⟨hc, hlt⟩)
  refine ⟨?_, h.data, ?_, ?_, ?_, ?_, ?_⟩
  · rw [Player.pass_getElem?, h.lookup, Option.map_some, if_neg hp]
  · refine iff_of_false (fun hm => hp (List.mem_of_mem_filter hm)) ?_
    rintro ⟨hc, hlt⟩
    have := hdone hc
    omega
  · cases covering with
    | false => exact h.covered
    | true => exact fun _ => hcover rfl
  · intro hc hz
    have hneed := r.range.passesNeeded_pos
    have := hdone hc
    omega
  · intro hc _
    exact h.full hc (lt_of_lt_of_le r.range.passesNeeded_pos (hdone hc))
  · exact fun hc _ => h.finished hc (hdone hc)

/-- The answer of a pass over a pending request, in terms of the passes counted so far. -/
theorem Tracked.isComplete_iff {p : Player} {received : Data} {id passes : Nat}
    {request : AVAssetResourceLoadingRequest} {r : AVAssetResourceLoadingDataRequest}
    (h : Tracked p received id passes request r) (hs : ServedFrom received r)
    (hp : id ∈ p.loadingRequests) : isComplete received r = true ↔
      r.range.passesNeeded ≤ passes + (decide (r.range.stop ≤ received.length)).toNat := by
  obtain ⟨hc, hlt⟩ := h.pending_iff.mp hp
  have hlow := hs.offset_le
  have hhigh := hs.le_stop
  have hwaiting := h.waiting hc
  have hfull := h.full hc
  have hstop : r.range.stop = r.range.offset + r.range.length := rfl
  unfold isComplete ByteRange.passesNeeded
  unfold ByteRange.passesNeeded at hlt
  by_cases hcov : r.range.stop ≤ received.length
  · simp only [decide_eq_true_eq, hcov, decide_true, Bool.toNat_true]
    split at hlt <;> rename_i hzero
    · rw [if_pos hzero]
      omega
    · rw [if_neg hzero]
      omega
  · simp only [decide_eq_true_eq, hcov, decide_false, Bool.toNat_false]
    split at hlt <;> rename_i hzero
    · rw [if_pos hzero]
      omega
    · rw [if_neg hzero]
      omega

/-- A pass over a pending request counts when it covers the range, and finishes
the request when enough passes have. -/
theorem Tracked.pass_of_pending {p : Player} {received : Data} {id passes : Nat}
    {request : AVAssetResourceLoadingRequest} {r : AVAssetResourceLoadingDataRequest}
    (h : Tracked p received id passes request r) (hs : ServedFrom received r)
    (hp : id ∈ p.loadingRequests) :
    Tracked (p.pass received) received id
      (passes + (decide (r.range.stop ≤ received.length)).toNat)
      (processed p.infoResponse received request) (responded received r) := by
  obtain ⟨hc, hlt⟩ := h.pending_iff.mp hp
  have hcaught := responded_caughtUp hs
  have hcovered := h.covered
  have hlen := r.range.length_nonneg
  have hstop : r.range.stop = r.range.offset + r.range.length := rfl
  have hdone : completes received request = isComplete received r := by
    simp only [completes, h.data]
  have hcomplete := h.isComplete_iff hs hp
  rw [CaughtUp, responded_range] at hcaught
  refine ⟨?_, ?_, ?_, ?_, ?_, ?_, ?_⟩
  · rw [Player.pass_getElem?, h.lookup, Option.map_some, if_pos hp]
  · rw [processed_dataRequest, h.data, Option.map_some]
  · rw [processed_isCancelled, responded_range, Player.pass, List.mem_filter, h.lookup,
      Option.any_some, hdone, Bool.not_eq_true', ← Bool.not_eq_true, hcomplete, not_le]
    exact ⟨fun hm => ⟨hc, hm.2⟩, fun hm => ⟨hp, hm.2⟩⟩
  · rw [responded_range]
    by_cases hcov : r.range.stop ≤ received.length
    · exact fun _ => hcov
    · simpa only [hcov, decide_false, Bool.toNat_false, Nat.add_zero] using hcovered
  · rw [responded_range]
    intro _ hz hl
    by_cases hcov : r.range.stop ≤ received.length
    · simp only [hcov, decide_true, Bool.toNat_true] at hz
      omega
    · omega
  · rw [responded_range]
    intro _ hpos
    by_cases hcov : r.range.stop ≤ received.length
    · omega
    · simp only [hcov, decide_false, Bool.toNat_false, Nat.add_zero] at hpos
      omega
  · rw [processed_finishCount, responded_range, hdone]
    intro _ hneed
    rw [hcomplete.mpr hneed]
    simp

/-- One pass over a tracked request, pending or not. -/
theorem Tracked.pass {p : Player} {received : Data} {id passes : Nat}
    {request : AVAssetResourceLoadingRequest} {r : AVAssetResourceLoadingDataRequest}
    (h : Tracked p received id passes request r) (hs : Served received p) :
    ∃ request' r', Tracked (p.pass received) received id
        (passes + (decide (r.range.stop ≤ received.length)).toNat) request' r' ∧
      r'.range = r.range ∧ request'.isCancelled = request.isCancelled := by
  by_cases hp : id ∈ p.loadingRequests
  · have hserved := hs.requests request (List.mem_of_getElem? h.lookup) r h.data
    exact ⟨_, _, h.pass_of_pending hserved hp, responded_range received r,
      processed_isCancelled p.infoResponse received request⟩
  · exact ⟨request, r, h.pass_of_not_pending hp _ of_decide_eq_true, rfl, rfl⟩

theorem Tracked.append {p : Player} {received : Data} {id passes : Nat}
    {request : AVAssetResourceLoadingRequest} {r : AVAssetResourceLoadingDataRequest}
    (h : Tracked p received id passes request r) (chunk : Data) :
    Tracked p (received ++ chunk) id passes request r where
  lookup := h.lookup
  data := h.data
  pending_iff := h.pending_iff
  covered := fun hpos => by
    have := h.covered hpos
    rw [List.length_append]
    omega
  waiting := h.waiting
  full := h.full
  finished := h.finished

/-- A cancelled request leaves the list and is never looked at again. -/
theorem Tracked.didCancel_self {p : Player} {received : Data} {id passes : Nat}
    {request : AVAssetResourceLoadingRequest} {r : AVAssetResourceLoadingDataRequest}
    (h : Tracked p received id passes request r) (hs : Served received p) :
    Tracked (p.didCancel id) received id passes request.cancel r where
  lookup := by
    simp only [Player.didCancel, List.getElem?_modify_eq, h.lookup]
    rfl
  data := h.data
  pending_iff := by
    rw [Player.didCancel_loadingRequests]
    exact iff_of_false hs.nodup.not_mem_erase fun hc => Bool.noConfusion hc.1
  covered := h.covered
  waiting := fun hc => Bool.noConfusion hc
  full := fun hc => Bool.noConfusion hc
  finished := fun hc => Bool.noConfusion hc

/-- Every callback advances a tracked request by the passes that it covers. -/
theorem Tracked.next {p q : Player} {received : Data} {id passes : Nat}
    {request : AVAssetResourceLoadingRequest} {r : AVAssetResourceLoadingDataRequest}
    (h : Tracked p received id passes request r) (hs : Served received p)
    {f : Foundation} {start : Player} {e : LoaderEvent}
    (hn : (loader f start).next p e = some q) :
    ∃ request' r', Tracked q (received ++ e.bytes) id
        (passes + (e.covers r.range.stop received.length).toNat) request' r' ∧
      r'.range = r.range ∧ request'.isCancelled = (request.isCancelled || e.cancels id) := by
  cases e with
  | shouldWaitForLoading info range =>
    obtain rfl := Option.some.inj hn
    refine ⟨request, r, ?_, rfl, by simp [LoaderEvent.cancels]⟩
    rw [LoaderEvent.bytes, List.append_nil]
    refine h.congr ?_ ?_
    · rw [Player.shouldWaitForLoading_requests, List.getElem?_append_left h.lt_length]
    · rw [Player.shouldWaitForLoading_loadingRequests, List.mem_append, List.mem_singleton]
      exact or_iff_left h.lt_length.ne
  | didCancel i =>
    obtain rfl := Option.some.inj hn
    rw [LoaderEvent.bytes, List.append_nil]
    by_cases hi : i = id
    · subst hi
      exact ⟨request.cancel, r, h.didCancel_self hs, rfl, by
        simp [LoaderEvent.cancels, AVAssetResourceLoadingRequest.cancel]⟩
    · refine ⟨request, r, h.congr ?_ ?_, rfl, by simp [LoaderEvent.cancels, hi]⟩
      · simp only [Player.didCancel, List.getElem?_modify_ne _ _ hi]
      · rw [Player.didCancel_loadingRequests, List.mem_erase_of_ne (Ne.symm hi)]
  | didReceiveResponse response =>
    have hi : Served received { p with infoResponse := some response } := hs.congr rfl rfl rfl
    have ht : Tracked { p with infoResponse := some response } received id passes request r :=
      h.congr rfl Iff.rfl
    obtain rfl := Option.some.inj (hi.processLoadingRequest_eq.symm.trans hn)
    rw [LoaderEvent.covers_of_isPass rfl, LoaderEvent.bytes, List.append_nil]
    simpa only [LoaderEvent.cancels, Bool.or_false] using ht.pass hi
  | didReceiveData chunk =>
    have hi := hs.append chunk
    have ht : Tracked { p with
        videoData := p.videoData.map fun videoData => videoData ++ chunk }
        (received ++ chunk) id passes request r := (h.append chunk).congr rfl Iff.rfl
    obtain rfl := Option.some.inj (hi.processLoadingRequest_eq.symm.trans hn)
    rw [LoaderEvent.covers_of_isPass rfl, LoaderEvent.bytes]
    simpa only [LoaderEvent.cancels, Bool.or_false] using ht.pass hi
  | runConfigureBlock =>
    obtain rfl := Option.some.inj hn
    refine ⟨request, r, ?_, rfl, by simp [LoaderEvent.cancels]⟩
    rw [LoaderEvent.bytes, List.append_nil]
    refine h.congr ?_ ?_
    · rw [Player.runMainQueue_requests]
    · rw [Player.runMainQueue_loadingRequests]

/-- A tracked request along any list of callbacks. -/
theorem Tracked.run {p q : Player} {received : Data} {id passes : Nat}
    {request : AVAssetResourceLoadingRequest} {r : AVAssetResourceLoadingDataRequest}
    (h : Tracked p received id passes request r) (hs : Served received p) {f : Foundation}
    {events : List LoaderEvent} (hr : (loader f p).Run events q) :
    ∃ request' r', Tracked q (received ++ downloaded events) id
        (passes + coveringPasses r.range.stop received.length events) request' r' ∧
      r'.range = r.range ∧
      request'.isCancelled = (request.isCancelled || events.any (LoaderEvent.cancels id)) := by
  induction hr with
  | nil =>
    refine ⟨request, r, ?_, rfl, by simp⟩
    exact (List.append_nil received).symm ▸ h
  | @snoc events s e q hr hn ih =>
    obtain ⟨request', r', ht, hrange, hc⟩ := ih
    obtain ⟨request'', r'', ht', hrange', hc'⟩ := ht.next (hs.of_run hr) hn
    refine ⟨request'', r'', ?_, hrange'.trans hrange, ?_⟩
    · rw [downloaded_concat, ← List.append_assoc, coveringPasses_concat, ← List.length_append,
        ← Nat.add_assoc, ← hrange]
      exact hrange ▸ ht'
    · rw [hc', hc, List.any_append, List.any_cons, List.any_nil, Bool.or_false, Bool.or_assoc]

theorem Player.pass_ranges (p : Player) (received : Data) :
    (p.pass received).ranges = p.ranges := by
  apply List.ext_getElem?
  intro i
  simp only [ranges, List.getElem?_map, Player.pass_getElem?, Option.map_map]
  cases p.requests[i]? with
  | none => rfl
  | some request =>
    simp only [Option.map_some, Function.comp_apply]
    split
    · rw [processed_dataRequest, Option.map_map]
      simp only [Function.comp_def, responded_range]
    · rfl

/-- A callback adds the range that it registers and changes no other. -/
theorem Served.next_ranges {p q : Player} {received : Data} (hs : Served received p)
    {f : Foundation} {start : Player} {e : LoaderEvent}
    (hn : (loader f start).next p e = some q) : q.ranges = p.ranges ++ e.registers.toList := by
  cases e with
  | shouldWaitForLoading info range =>
    obtain rfl := Option.some.inj hn
    rw [Player.ranges, Player.shouldWaitForLoading_requests, List.map_append]
    cases range <;> rfl
  | didCancel i =>
    obtain rfl := Option.some.inj hn
    rw [LoaderEvent.registers, Option.toList_none, List.append_nil]
    apply List.ext_getElem?
    intro j
    simp only [Player.ranges, Player.didCancel, List.getElem?_map, List.getElem?_modify]
    cases p.requests[j]? with
    | none => rfl
    | some request =>
      simp only [Option.map_eq_map, Option.map_some]
      split <;> rfl
  | didReceiveResponse response =>
    have hi : Served received { p with infoResponse := some response } := hs.congr rfl rfl rfl
    obtain rfl := Option.some.inj (hi.processLoadingRequest_eq.symm.trans hn)
    rw [Player.pass_ranges]
    exact (List.append_nil _).symm
  | didReceiveData chunk =>
    obtain rfl := Option.some.inj ((hs.append chunk).processLoadingRequest_eq.symm.trans hn)
    rw [Player.pass_ranges]
    exact (List.append_nil _).symm
  | runConfigureBlock =>
    obtain rfl := Option.some.inj hn
    rw [Player.ranges, Player.runMainQueue_requests]
    exact (List.append_nil _).symm

theorem Served.run_ranges {start p : Player} {received : Data} (hs : Served received start)
    {f : Foundation} {events : List LoaderEvent} (hr : (loader f start).Run events p) :
    p.ranges = start.ranges ++ registered events := by
  induction hr with
  | nil => exact (List.append_nil _).symm
  | snoc hr hn ih =>
    rw [(hs.of_run hr).next_ranges hn, ih, registered_concat, List.append_assoc]

end TiktokClone
