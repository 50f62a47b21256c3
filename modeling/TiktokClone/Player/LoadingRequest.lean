import Mathlib.Algebra.Ring.Int.Defs
import TiktokClone.Library.Slice
import TiktokClone.Foundation.Basic

/-!
# Loading requests of the asset resource loader

The objects that the resource loader hands to its delegate. A data request
carries the byte range it was created for; the range's arithmetic facts are
fields, so every later offset computation can rely on them. A request records
the responses and the `finishLoading` calls that its delegate made.
-/

namespace TiktokClone

/-- A requested byte range whose end does not overflow `Int64`. -/
structure ByteRange where
  offset : Int
  length : Int
  offset_nonneg : 0 ≤ offset
  length_nonneg : 0 ≤ length
  fits : offset + length < 2 ^ 63

/-- The range of the first byte. -/
def ByteRange.firstByte : ByteRange := ⟨0, 1, by decide, by decide, by decide⟩

/-- The position just after the range. -/
def ByteRange.stop (range : ByteRange) : Int := range.offset + range.length

theorem ByteRange.offset_le_stop (range : ByteRange) : range.offset ≤ range.stop := by
  have := range.length_nonneg
  unfold ByteRange.stop
  omega

/-- `AVAssetResourceLoadingDataRequest`, with the responses given to it in order. -/
structure AVAssetResourceLoadingDataRequest where
  range : ByteRange
  currentOffset : Int
  responses : List Data

namespace AVAssetResourceLoadingDataRequest

/-- A new data request starts at the beginning of its range. -/
def ofRange (range : ByteRange) : AVAssetResourceLoadingDataRequest where
  range := range
  currentOffset := range.offset
  responses := []

def requestedOffset (r : AVAssetResourceLoadingDataRequest) : Int := r.range.offset

def requestedLength (r : AVAssetResourceLoadingDataRequest) : Int := r.range.length

/-- `respond(with:)` hands over the bytes and advances the current offset by their number. -/
def respond (r : AVAssetResourceLoadingDataRequest) (data : Data) :
    AVAssetResourceLoadingDataRequest :=
  { r with currentOffset := r.currentOffset + data.length, responses := r.responses ++ [data] }

/-- The bytes handed over so far, in order. -/
def delivered (r : AVAssetResourceLoadingDataRequest) : Data := r.responses.flatten

@[simp] theorem respond_currentOffset (r : AVAssetResourceLoadingDataRequest) (data : Data) :
    (r.respond data).currentOffset = r.currentOffset + data.length := rfl

@[simp] theorem delivered_respond (r : AVAssetResourceLoadingDataRequest) (data : Data) :
    (r.respond data).delivered = r.delivered ++ data := by
  simp [delivered, respond]

end AVAssetResourceLoadingDataRequest

/-- `AVAssetResourceLoadingContentInformationRequest` -/
structure AVAssetResourceLoadingContentInformationRequest where
  isByteRangeAccessSupported : Bool
  contentType : Option String
  contentLength : Int
  deriving DecidableEq, Repr

/-- `URLResponse` -/
structure URLResponse where
  mimeType : Option String
  expectedContentLength : Int
  deriving DecidableEq, Repr

/-- `AVAssetResourceLoadingRequest`, with what the delegate was told and did about it. -/
structure AVAssetResourceLoadingRequest where
  contentInformationRequest : Option AVAssetResourceLoadingContentInformationRequest
  dataRequest : Option AVAssetResourceLoadingDataRequest
  /-- How often `finishLoading` was called on the request. -/
  finishCount : Nat
  /-- The loader has reported the request as cancelled. -/
  isCancelled : Bool

namespace AVAssetResourceLoadingRequest

/-- A request as the loader creates it: it may ask for content information and
for a range of bytes. -/
def create (info : Option AVAssetResourceLoadingContentInformationRequest)
    (range : Option ByteRange) : AVAssetResourceLoadingRequest where
  contentInformationRequest := info
  dataRequest := range.map .ofRange
  finishCount := 0
  isCancelled := false

def finishLoading (r : AVAssetResourceLoadingRequest) : AVAssetResourceLoadingRequest :=
  { r with finishCount := r.finishCount + 1 }

def cancel (r : AVAssetResourceLoadingRequest) : AVAssetResourceLoadingRequest :=
  { r with isCancelled := true }

end AVAssetResourceLoadingRequest

end TiktokClone
