import TiktokClone.Player.Tracking

/-!
# Requests after a completed download

A request registered after the download is never looked at again, and one that too
few passes have covered is left pending. The number of covering passes gives the exact
condition under which a completed download leaves no request of the downloaded bytes
pending.
-/

namespace TiktokClone

open Library VideoPlayerView

/-- A view whose deferred block has presented a URL. -/
def Player.configured (videoURL url : URL) (fileExtension : Option String) : Player :=
  { Player.initial with fileExtension := fileExtension }.present videoURL url

theorem served_configured (videoURL url : URL) (fileExtension : Option String) :
    Served [] (Player.configured videoURL url fileExtension) :=
  served_initial.congr rfl rfl rfl

/-- No callback of the loader takes the original URL away. -/
theorem Served.next_originalURL {p q : Player} {received : Data} (hs : Served received p)
    {f : Foundation} {start : Player} {e : LoaderEvent} (hp : p.originalURL.isSome = true)
    (hn : (loader f start).next p e = some q) : q.originalURL.isSome = true := by
  cases e with
  | shouldWaitForLoading info range =>
    obtain rfl := Option.some.inj hn
    unfold Player.shouldWaitForLoading
    rcases p.startTask_cases with h | ⟨_, _, _, _, _, h⟩ <;> simpa only [h] using hp
  | didCancel i =>
    obtain rfl := Option.some.inj hn
    exact hp
  | didReceiveResponse response =>
    have hi : Served received { p with infoResponse := some response } := hs.congr rfl rfl rfl
    obtain rfl := Option.some.inj (hi.processLoadingRequest_eq.symm.trans hn)
    exact hp
  | didReceiveData chunk =>
    obtain rfl := Option.some.inj ((hs.append chunk).processLoadingRequest_eq.symm.trans hn)
    exact hp
  | runConfigureBlock =>
    obtain rfl := Option.some.inj hn
    rcases p.runMainQueue_cases f with h | ⟨_, _, _, h | ⟨_, h⟩⟩ <;> rw [h]
    · exact hp
    · exact hp
    · rfl

theorem Served.run_originalURL {start p : Player} {received : Data} (hs : Served received start)
    {f : Foundation} {events : List LoaderEvent} (h0 : start.originalURL.isSome = true)
    (hr : (loader f start).Run events p) : p.originalURL.isSome = true := by
  induction hr with
  | nil => exact h0
  | snoc hr hn ih => exact (hs.of_run hr).next_originalURL ih hn

/-- No request for downloaded bytes is pending, and each of them that was not
cancelled has been given its whole range and was finished. -/
def Settled (body : Data) (p : Player) : Prop :=
  ∀ (id : Nat) (request : AVAssetResourceLoadingRequest) (r : AVAssetResourceLoadingDataRequest),
    p.requests[id]? = some request → request.dataRequest = some r →
    r.requestedOffset + r.requestedLength ≤ body.length →
    id ∉ p.loadingRequests ∧ (request.isCancelled = false →
      r.delivered = body.extract r.requestedOffset.toNat
        (r.requestedOffset + r.requestedLength).toNat ∧
      0 < request.finishCount)

/-- Every request for bytes of the download is registered before the download ends,
and early enough: enough covering passes follow, or the loader cancels it. -/
structure ServedInTime (before after : List LoaderEvent) : Prop where
  early : ∀ first info (range : ByteRange) rest,
    before = first ++ .shouldWaitForLoading info (some range) :: rest →
    range.stop ≤ (downloaded before).length →
    range.passesNeeded ≤ coveringPasses range.stop (downloaded first).length rest ∨
      rest.any (LoaderEvent.cancels (registered first).length) = true
  late : ∀ info (range : ByteRange), LoaderEvent.shouldWaitForLoading info (some range) ∈ after →
    (downloaded before).length < range.stop

/-- A tracked request of the downloaded bytes is settled exactly when it was
cancelled or enough passes have covered it. -/
theorem Tracked.not_pending_iff {p : Player} {received : Data} {id passes : Nat}
    {request : AVAssetResourceLoadingRequest} {r : AVAssetResourceLoadingDataRequest}
    (h : Tracked p received id passes request r) :
    id ∉ p.loadingRequests ↔
      r.range.passesNeeded ≤ passes ∨ request.isCancelled = true := by
  rw [h.pending_iff, not_and_or, not_lt, Bool.not_eq_false, or_comm]

/-- Callbacks without a pass add no covering pass and no byte. -/
theorem coveringPasses_eq_zero {events : List LoaderEvent}
    (h : ∀ e ∈ events, e.isPass = false) (stop : Int) (received : Nat) :
    coveringPasses stop received events = 0 := by
  induction events generalizing received with
  | nil => rfl
  | cons e events ih =>
    rw [coveringPasses, ih fun e he => h e (List.mem_cons_of_mem _ he), LoaderEvent.covers,
      h e (List.mem_cons_self ..)]
    rfl

theorem downloaded_eq_nil {events : List LoaderEvent} (h : ∀ e ∈ events, e.isPass = false) :
    downloaded events = [] := by
  refine List.flatMap_eq_nil_iff.mpr fun e he => ?_
  have := h e he
  cases e <;> first | rfl | cases this

section Completed

variable {f : Foundation} {start p : Player} {before : List LoaderEvent}

/-- The registration event of a request and what has happened to it since. -/
theorem exists_tracked (h0 : Served [] start) (hempty : start.requests = [])
    (hr : (loader f start).Run before p) {first rest : List LoaderEvent}
    {info : Option AVAssetResourceLoadingContentInformationRequest} {range : ByteRange}
    (hb : before = first ++ .shouldWaitForLoading info (some range) :: rest) :
    ∃ request r, Tracked p (downloaded before) (registered first).length
        (coveringPasses range.stop (downloaded first).length rest) request r ∧
      r.range = range ∧
      request.isCancelled = rest.any (LoaderEvent.cancels (registered first).length) := by
  subst hb
  rw [List.append_cons] at hr
  obtain ⟨q, hq, hrest⟩ := Machine.run_append_iff.mp hr
  obtain ⟨s, hs, hn⟩ := Machine.run_concat_iff.mp hq
  obtain rfl := Option.some.inj hn
  have hserved := (h0.of_run hs).shouldWaitForLoading info (some range)
  have hlen : s.requests.length = (registered first).length := by
    have := congrArg List.length (h0.run_ranges hs)
    simpa [Player.ranges, hempty] using this
  have hdown : downloaded (first ++ .shouldWaitForLoading info (some range) :: rest) =
      downloaded first ++ downloaded rest := by
    simp [downloaded, LoaderEvent.bytes]
  obtain ⟨request, r, ht, hrange, hc⟩ :=
    (tracked_new s (downloaded first) info range).run hserved hrest
  refine ⟨request, r, ?_, hrange, ?_⟩
  · rw [hdown, ← hlen]
    simpa only [Nat.zero_add, AVAssetResourceLoadingDataRequest.ofRange] using ht
  · rw [hc, hlen]
    exact Bool.false_or _

/-- A request of the downloaded bytes that is not cancelled holds its range. -/
theorem Tracked.settled {received : Data} {id passes : Nat}
    {request : AVAssetResourceLoadingRequest} {r : AVAssetResourceLoadingDataRequest}
    (h : Tracked p received id passes request r) (hs : ServedFrom received r)
    (hneed : r.range.passesNeeded ≤ passes) (hc : request.isCancelled = false) :
    r.delivered = received.extract r.requestedOffset.toNat
        (r.requestedOffset + r.requestedLength).toNat ∧ 0 < request.finishCount := by
  have hfull := h.full hc (lt_of_lt_of_le r.range.passesNeeded_pos hneed)
  refine ⟨?_, h.finished hc hneed⟩
  rw [hs.delivered, hfull]
  rfl

/-- After the end of the download the condition settles every request. -/
theorem settled_of_servedInTime (h0 : Served [] start) (hempty : start.requests = [])
    (hr : (loader f start).Run before p) {p' : Player} (hrequests : p'.requests = p.requests)
    (hloading : p'.loadingRequests = p.loadingRequests) (hserved : Served (downloaded before) p')
    {after : List LoaderEvent} (hend : ∀ e ∈ after, e.isPass = false) {q : Player}
    (hq : (loader f p').Run after q) (h : ServedInTime before after) :
    Settled (downloaded before) q := by
  intro id request r hlookup hdata hinside
  have hq' := hserved.of_run hq
  rw [downloaded_eq_nil hend, List.append_nil] at hq'
  have hrange : q.ranges[id]? = some (some r.range) := by
    rw [Player.ranges, List.getElem?_map, hlookup, Option.map_some, hdata, Option.map_some]
  have hprevious : p'.ranges = registered before := by
    rw [Player.ranges, hrequests, ← Player.ranges, h0.run_ranges hr, Player.ranges, hempty]
    rfl
  rw [hserved.run_ranges hq, hprevious] at hrange
  by_cases hid : id < (registered before).length
  · rw [List.getElem?_append_left hid] at hrange
    obtain ⟨first, info, rest, hfirst, hb⟩ := exists_registration hrange
    have hearly := h.early first info r.range rest hb hinside
    obtain ⟨request₁, r₁, ht, hr₁, hc₁⟩ := exists_tracked h0 hempty hr hb
    rw [hfirst] at ht hc₁ hearly
    have ht' : Tracked p' (downloaded before) id _ request₁ r₁ :=
      ht.congr (by rw [hrequests]) (by rw [hloading])
    obtain ⟨request₂, r₂, ht₂, hr₂, hc₂⟩ := ht'.run hserved hq
    rw [coveringPasses_eq_zero hend, Nat.add_zero, downloaded_eq_nil hend, List.append_nil] at ht₂
    obtain rfl : request₂ = request := Option.some.inj (ht₂.lookup.symm.trans hlookup)
    obtain rfl : r₂ = r := Option.some.inj (ht₂.data.symm.trans hdata)
    have hdone : r₂.range.passesNeeded ≤ coveringPasses r₂.range.stop
        (downloaded first).length rest ∨ request₂.isCancelled = true := by
      refine hearly.imp_right fun hcancel => ?_
      rw [hc₂, hc₁, hcancel, Bool.true_or]
    refine ⟨ht₂.not_pending_iff.mpr hdone, fun hc => ?_⟩
    have hs := hq'.requests request₂ (List.mem_of_getElem? hlookup) r₂ hdata
    exact ht₂.settled hs (hdone.resolve_right (by simp [hc])) hc
  · rw [List.getElem?_append_right (not_lt.mp hid)] at hrange
    obtain ⟨first, info, rest, _, hafter⟩ := exists_registration hrange
    have hlate := h.late info r.range (by simp [hafter])
    exact absurd hinside (not_le.mpr hlate)

/-- If every state after the end of the download is settled, the condition holds. -/
theorem servedInTime_of_settled (h0 : Served [] start) (hempty : start.requests = [])
    (hr : (loader f start).Run before p) {p' : Player} (hrequests : p'.requests = p.requests)
    (hloading : p'.loadingRequests = p.loadingRequests) {after : List LoaderEvent} {q : Player}
    (hq : (loader f p').Run after q)
    (h : (loader f p').AllStates (Settled (downloaded before)) after) :
    ServedInTime before after where
  early := by
    intro first info range rest hb hinside
    obtain ⟨request, r, ht, rfl, hc⟩ := exists_tracked h0 hempty hr hb
    have ht' : Tracked p' (downloaded before) (registered first).length _ request r :=
      ht.congr (by rw [hrequests]) (by rw [hloading])
    have hsettled := h [] (List.nil_prefix) p' .nil
    have hgone := (hsettled _ request r ht'.lookup ht'.data hinside).1
    exact (ht'.not_pending_iff.mp hgone).imp_right fun hcancel => hc ▸ hcancel
  late := by
    intro info range hm
    by_contra hinside
    obtain ⟨mid, last, rfl⟩ := List.append_of_mem hm
    obtain ⟨s, hs⟩ := hq.of_prefix (List.prefix_append mid (_ :: last))
    have ht := tracked_new s (downloaded before) info range
    have hpending := ht.pending_iff.mpr ⟨rfl, range.passesNeeded_pos⟩
    have hsettled := h (mid ++ [.shouldWaitForLoading info (some range)])
      ⟨last, by simp⟩ _ (.snoc hs rfl)
    exact (hsettled _ _ _ ht.lookup ht.data (not_lt.mp hinside)).1 hpending

end Completed

/-- No stuck request. A configured view whose download completes never traps, and
every state from then on is settled if and only if every request for downloaded
bytes was registered in time: before the end, and followed by enough passes that
cover its range unless the loader cancelled it. -/
theorem completed_settled_iff (f : Foundation) (videoURL url : URL)
    (fileExtension : Option String) (before after : List LoaderEvent)
    (hend : ∀ e ∈ after, e.isPass = false) :
    ∃ p p' q, (loader f (.configured videoURL url fileExtension)).Run before p ∧
      p.didCompleteWithError none = some p' ∧ (loader f p').Run after q ∧
      ((loader f p').AllStates (Settled (downloaded before)) after ↔
        ServedInTime before after) := by
  have h0 := served_configured videoURL url fileExtension
  obtain ⟨p, hp, hs⟩ := h0.exists_run f before
  obtain ⟨u, hu⟩ := Option.isSome_iff_exists.mp (h0.run_originalURL rfl hp)
  obtain ⟨p', hcomplete, hv, hl, hq⟩ : ∃ p', p.didCompleteWithError none = some p' ∧
      p'.videoData = p.videoData ∧ p'.loadingRequests = p.loadingRequests ∧
      p'.requests = p.requests := by
    unfold Player.didCompleteWithError
    rw [hu]
    exact ⟨_, rfl, rfl, rfl, rfl⟩
  have hs' : Served (downloaded before) p' := hs.congr hv hl hq
  obtain ⟨q, hrun, _⟩ := hs'.exists_run f after
  refine ⟨p, p', q, hp, hcomplete, hrun, ?_⟩
  constructor
  · exact servedInTime_of_settled h0 rfl hp hq hl hrun
  · intro h mid hmid t ht
    obtain ⟨last, rfl⟩ := hmid
    have hmem : ∀ e ∈ mid, e.isPass = false := fun e he => hend e (List.mem_append_left last he)
    exact settled_of_servedInTime h0 rfl hp hq hl hs' hmem ht
      ⟨h.early, fun info range hm => h.late info range (List.mem_append_left last hm)⟩

/-- A request and a cancellation that arrive after the download has ended. -/
theorem completed_settled_iff_late_request :
    ∃ p p' q, (loader .plain (.configured ⟨"httpsstreaming:v"⟩ ⟨"https:v"⟩ (some "mp4"))).Run
        [.shouldWaitForLoading none (some ⟨0, 1, by decide, by decide, by decide⟩),
          .didReceiveData [7]] p ∧
      p.didCompleteWithError none = some p' ∧
      (loader .plain p').Run [.shouldWaitForLoading none none, .didCancel 0] q ∧
      ((loader .plain p').AllStates
          (Settled (downloaded
            [.shouldWaitForLoading none (some ⟨0, 1, by decide, by decide, by decide⟩),
              .didReceiveData [7]]))
          [.shouldWaitForLoading none none, .didCancel 0] ↔
        ServedInTime
          [.shouldWaitForLoading none (some ⟨0, 1, by decide, by decide, by decide⟩),
            .didReceiveData [7]]
          [.shouldWaitForLoading none none, .didCancel 0]) :=
  completed_settled_iff .plain _ _ _ _ _ (by simp [LoaderEvent.isPass])

/-- A request for the one byte of the download is still pending, and was never
finished, after the download of that byte has completed. -/
theorem completed_request_stuck :
    ∃ p p', (loader .plain (.configured ⟨"httpsstreaming:v"⟩ ⟨"https:v"⟩ (some "mp4"))).Run
        [.shouldWaitForLoading none (some ⟨0, 1, by decide, by decide, by decide⟩),
          .didReceiveData [7]] p ∧
      p.didCompleteWithError none = some p' ∧ 0 ∈ p'.loadingRequests ∧
      ¬Settled [7] p' := by
  refine ⟨_, _, Machine.run_iff_exec.mpr rfl, rfl, by decide, fun h => ?_⟩
  exact absurd (h 0 _ _ rfl rfl (by decide)).1 (by decide)

end TiktokClone
