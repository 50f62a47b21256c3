import Mathlib.Data.String.Basic

/-!
# Bytes, URLs and the redirect form of a URL

A URL is known by its absolute string. Parsing a string, taking a URL apart and
putting it together again belong to the Foundation library, so they are
parameters here; the redirect conversion is the repository's own.
-/

namespace TiktokClone

/-- The bytes of a buffer, a file or a received chunk. -/
abbrev Data := List UInt8

/-- A URL, identified by its `absoluteString`. -/
@[ext]
structure URL where
  absoluteString : String
  deriving DecidableEq, Repr

/-- The components of a URL that the conversions look at. -/
structure URLComponents where
  scheme : Option String
  /-- Everything after the scheme. -/
  rest : String
  deriving DecidableEq, Repr

/-- The functions of the Foundation library that the sources call on URLs. -/
structure Foundation where
  /-- `URL(string:)` -/
  url : String → Option URL
  /-- `URL(fileURLWithPath:)` -/
  fileURL : String → URL
  /-- `URLComponents(url:resolvingAgainstBaseURL:)` -/
  components : URL → Option URLComponents
  /-- `URLComponents.url` -/
  ofComponents : URLComponents → Option URL

/-- URLs of the plain form `scheme:rest`, on which the library functions are simple. -/
def Foundation.plain : Foundation where
  url string := if string = "" then none else some ⟨string⟩
  fileURL path := ⟨"file://" ++ path⟩
  components u :=
    let scheme := u.absoluteString.toList.takeWhile (· ≠ ':')
    let rest := (u.absoluteString.toList.dropWhile (· ≠ ':')).drop 1
    some ⟨some (.ofList scheme), .ofList rest⟩
  ofComponents
    | ⟨some scheme, rest⟩ => some ⟨scheme ++ ":" ++ rest⟩
    | ⟨none, rest⟩ => some ⟨rest⟩

/-- Adds the scheme prefix to a copy of the receiver. -/
def URL.convertToRedirectURL (f : Foundation) (u : URL) (scheme : String) : Option URL :=
  match f.components u with
  | none => none
  | some components =>
    let schemeCopy := components.scheme.getD ""
    f.ofComponents { components with scheme := some (schemeCopy ++ scheme) }

example : URL.convertToRedirectURL .plain ⟨"https://a/v.mp4"⟩ "streaming" =
    some ⟨"httpsstreaming://a/v.mp4"⟩ := by decide

end TiktokClone
