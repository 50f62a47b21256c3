import TiktokClone.Player.VideoPlayerView

/-!
# Responding to one loading request

What `checkAndRespond` does to a data request whose delivered bytes are a slice
of the downloaded ones. The slice's two bounds are exactly what keeps the
response length nonnegative and inside the buffer, so the computation never
traps, and the request catches up with the download as far as its range allows.
-/

namespace TiktokClone

open Library VideoPlayerView

/-- The data request has received precisely the downloaded bytes from its
requested offset to its current offset. -/
structure ServedFrom (downloaded : Data) (r : AVAssetResourceLoadingDataRequest) : Prop where
  offset_le : r.range.offset ≤ r.currentOffset
  le_stop : r.currentOffset ≤ r.range.stop
  le_downloaded : r.currentOffset = r.range.offset ∨ r.currentOffset ≤ downloaded.length
  delivered : r.delivered = downloaded.extract r.range.offset.toNat r.currentOffset.toNat

/-- The data request holds every downloaded byte of its range. -/
def CaughtUp (downloaded : Data) (r : AVAssetResourceLoadingDataRequest) : Prop :=
  r.currentOffset = max r.range.offset (min r.range.stop downloaded.length)

/-- A new data request has received the empty slice at its offset. -/
theorem servedFrom_ofRange (downloaded : Data) (range : ByteRange) :
    ServedFrom downloaded (.ofRange range) where
  offset_le := le_refl range.offset
  le_stop := range.offset_le_stop
  le_downloaded := Or.inl rfl
  delivered := (extract_self downloaded range.offset.toNat).symm

/-- Later chunks do not change the slice that a request has received. -/
theorem ServedFrom.append {downloaded : Data} {r : AVAssetResourceLoadingDataRequest}
    (h : ServedFrom downloaded r) (chunk : Data) : ServedFrom (downloaded ++ chunk) r where
  offset_le := h.offset_le
  le_stop := h.le_stop
  le_downloaded := by
    have := h.le_downloaded
    rw [List.length_append]
    omega
  delivered := by
    rw [h.delivered]
    rcases h.le_downloaded with he | hle
    · rw [he, extract_self, extract_self]
    · exact (extract_append_of_le downloaded chunk (by omega)).symm

/-- The data request after `checkAndRespond`. -/
def responded (downloaded : Data) (r : AVAssetResourceLoadingDataRequest) :
    AVAssetResourceLoadingDataRequest :=
  if (downloaded.length : Int) < r.currentOffset then r
  else r.respond (downloaded.extract r.currentOffset.toNat
    (min r.range.stop downloaded.length).toNat)

/-- The answer of `checkAndRespond`: the download has reached the current offset,
and that offset was the end of the range before the response. -/
def isComplete (downloaded : Data) (r : AVAssetResourceLoadingDataRequest) : Bool :=
  decide (r.currentOffset ≤ downloaded.length ∧ r.range.stop ≤ r.currentOffset)

@[simp] theorem responded_range (downloaded : Data) (r : AVAssetResourceLoadingDataRequest) :
    (responded downloaded r).range = r.range := by
  unfold responded
  split <;> rfl

/-- The two bounds of the served slice rule the trap out. -/
theorem checkAndRespond_eq {downloaded : Data} {r : AVAssetResourceLoadingDataRequest}
    (h : ServedFrom downloaded r) :
    checkAndRespond (some downloaded) r =
      some (responded downloaded r, isComplete downloaded r) := by
  have hlow := h.offset_le
  have hhigh := h.le_stop
  have hzero := r.range.offset_nonneg
  have hstop : r.requestedOffset + r.requestedLength = r.range.stop := rfl
  simp only [checkAndRespond, responded, isComplete, hstop]
  by_cases hd : (downloaded.length : Int) < r.currentOffset
  · rw [if_pos hd, if_pos hd, decide_eq_false (by omega)]
  · have hlen : r.currentOffset + min (r.range.stop - r.currentOffset)
        (downloaded.length - r.currentOffset) = min r.range.stop downloaded.length := by omega
    rw [if_neg hd, if_neg hd, subdata, if_pos (by omega), hlen]
    simp only [not_lt.mp hd, true_and]

/-- The current offset after a response is the end of the range or of the download. -/
theorem responded_caughtUp {downloaded : Data} {r : AVAssetResourceLoadingDataRequest}
    (h : ServedFrom downloaded r) : CaughtUp downloaded (responded downloaded r) := by
  have hlow := h.offset_le
  have hhigh := h.le_stop
  have hreach := h.le_downloaded
  have hzero := r.range.offset_nonneg
  unfold CaughtUp
  rw [responded_range]
  unfold responded
  split
  · omega
  · rw [AVAssetResourceLoadingDataRequest.respond_currentOffset,
      length_extract_of_le downloaded (by omega)]
    omega

/-- Responding extends the served slice without a gap or an overlap. -/
theorem responded_servedFrom {downloaded : Data} {r : AVAssetResourceLoadingDataRequest}
    (h : ServedFrom downloaded r) : ServedFrom downloaded (responded downloaded r) := by
  have hlow := h.offset_le
  have hhigh := h.le_stop
  have hzero := r.range.offset_nonneg
  have hcaught := responded_caughtUp h
  have hle := r.range.offset_le_stop
  rw [CaughtUp, responded_range] at hcaught
  refine ⟨?_, ?_, ?_, ?_⟩
  · rw [responded_range]
    omega
  · rw [responded_range]
    omega
  · rw [responded_range]
    omega
  · rw [hcaught, responded_range]
    unfold responded
    split
    · rw [h.delivered]
      rcases h.le_downloaded with he | hle
      · rw [he, show max r.range.offset (min r.range.stop ↑downloaded.length) = r.range.offset by
          omega]
      · omega
    · rw [AVAssetResourceLoadingDataRequest.delivered_respond, h.delivered,
        extract_append_extract downloaded (by omega) (by omega),
        show max r.range.offset (min r.range.stop ↑downloaded.length) =
          min r.range.stop ↑downloaded.length by omega]

end TiktokClone
