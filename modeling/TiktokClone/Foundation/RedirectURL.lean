import Mathlib.Data.List.Infix
import TiktokClone.Foundation.Basic
import TiktokClone.Library.Occurrences

/-!
# Decoding redirect URLs

The redirect conversion appends a tag to the scheme of a URL. The conversion back removes
every occurrence of the tag from the scheme, wherever the search from the left finds one,
and not the appended tag alone.
-/

namespace TiktokClone

open Library

/-- `replacingOccurrences(of:with:)` on strings without combining characters -/
def replacingOccurrences (string target replacement : String) : String :=
  .ofList (replaceOccurrences target.toList replacement.toList string.toList)

/-- Removes the scheme prefix from a copy of the receiver. -/
def URL.convertFromRedirectURL (f : Foundation) (u : URL) (schemePrefix : String) : Option URL :=
  match f.components u with
  | none => none
  | some comps =>
    match comps.scheme with
    | none => none
    | some scheme =>
      f.ofComponents { comps with scheme := some (replacingOccurrences scheme schemePrefix "") }

example : URL.convertFromRedirectURL .plain ⟨"httpsstreaming://a/v.mp4"⟩ "streaming" =
    some ⟨"https://a/v.mp4"⟩ := by decide

/-! ## Schemes -/

/-- The characters of a scheme. -/
def isSchemeChar (c : Char) : Bool := c.isAlphanum || c == '+' || c == '-' || c == '.'

/-- A scheme begins with a letter. -/
def isLegalScheme (scheme : String) : Bool :=
  match scheme.toList with
  | [] => false
  | c :: rest => c.isAlpha && rest.all isSchemeChar

theorem isLegalScheme_append {scheme tag : String} (hscheme : isLegalScheme scheme = true)
    (htag : tag.toList.all isSchemeChar = true) : isLegalScheme (scheme ++ tag) = true := by
  unfold isLegalScheme at hscheme ⊢
  rw [String.toList_append]
  cases hlist : scheme.toList with
  | nil => simp [hlist] at hscheme
  | cons c rest =>
    simp only [hlist, Bool.and_eq_true] at hscheme
    simp only [List.cons_append, List.all_append, Bool.and_eq_true]
    exact ⟨hscheme.1, hscheme.2, htag⟩

/-- What the conversions rely on: the scheme of a URL is legal, and another legal scheme
changes nothing else. Nothing is said about the URL, if any, that gets an illegal scheme,
except that it has no scheme then. -/
structure Foundation.ChangesScheme (f : Foundation) : Prop where
  legal : ∀ u comps scheme, f.components u = some comps → comps.scheme = some scheme →
    isLegalScheme scheme = true
  restores : ∀ u comps, f.components u = some comps → f.ofComponents comps = some u
  changes : ∀ u comps scheme, f.components u = some comps → comps.scheme.isSome = true →
    isLegalScheme scheme = true →
      ∃ u', f.ofComponents { comps with scheme := some scheme } = some u' ∧
        f.components u' = some { comps with scheme := some scheme }
  illegal : ∀ u comps scheme u' comps', f.components u = some comps →
    isLegalScheme scheme = false → f.ofComponents { comps with scheme := some scheme } = some u' →
      f.components u' = some comps' → comps'.scheme = none

namespace URL

variable {f : Foundation} {u : URL} {comps : URLComponents} {scheme tag : String}

/-- A URL decodes to another one by its scheme alone. -/
theorem ofComponents_eq_iff (hf : f.ChangesScheme) (hcomps : f.components u = some comps)
    (hscheme : comps.scheme = some scheme) (other : String) :
    f.ofComponents { comps with scheme := some other } = some u ↔ other = scheme := by
  have hself : comps = { comps with scheme := some scheme } := by rw [← hscheme]
  constructor
  · intro hu
    cases hlegal : isLegalScheme other with
    | false =>
      have hnone := hf.illegal u comps other u comps hcomps hlegal hu hcomps
      rw [hscheme] at hnone
      cases hnone
    | true =>
      obtain ⟨u', hu', hcomps'⟩ := hf.changes u comps other hcomps (by rw [hscheme]; rfl) hlegal
      obtain rfl := Option.some.inj (hu'.symm.trans hu)
      have hsame := congrArg (Option.bind · URLComponents.scheme) (hcomps'.symm.trans hcomps)
      rw [Option.bind_some, Option.bind_some, hscheme] at hsame
      exact Option.some.inj hsame
  · rintro rfl
    rw [← hself]
    exact hf.restores u comps hcomps

/-- On schemes, the decoding takes the appended tag away and nothing else exactly when the tag
does not occur in the scheme, and the part of the scheme in an occurrence that straddles the
join is an end of the tag. -/
theorem replacingOccurrences_append_iff (htag : tag ≠ "") :
    replacingOccurrences (scheme ++ tag) tag "" = scheme ↔
      ¬ tag.toList <:+: scheme.toList ∧
        ∀ w, w <:+ scheme.toList → tag.toList <+: w ++ tag.toList → w <:+ tag.toList := by
  have htag' : tag.toList ≠ [] := fun h =>
    htag (String.toList_inj.mp (h.trans String.toList_empty.symm))
  rw [← removeOccurrences_append_iff htag', ← String.toList_inj, replacingOccurrences,
    String.toList_ofList, String.toList_append, String.toList_empty]

end URL

/-- The redirect URL has the tag behind the scheme and is otherwise unchanged. It decodes back
exactly when the tag does not occur in the scheme, and every end of the scheme from which the
tag begins across the join is an end of the tag too. -/
theorem redirectURL_decodes_iff {f : Foundation} {u : URL} {comps : URLComponents}
    {scheme tag : String} (hf : f.ChangesScheme) (hcomps : f.components u = some comps)
    (hscheme : comps.scheme = some scheme) (htag : tag ≠ "")
    (hlegal : tag.toList.all isSchemeChar = true) :
    ∃ redirectUrl, u.convertToRedirectURL f tag = some redirectUrl ∧
      f.components redirectUrl = some { comps with scheme := some (scheme ++ tag) } ∧
      (redirectUrl.convertFromRedirectURL f tag = some u ↔
        ¬ tag.toList <:+: scheme.toList ∧
          ∀ w, w <:+ scheme.toList → tag.toList <+: w ++ tag.toList → w <:+ tag.toList) := by
  have htagged : isLegalScheme (scheme ++ tag) = true :=
    isLegalScheme_append (hf.legal u comps scheme hcomps hscheme) hlegal
  obtain ⟨redirectUrl, hredirect, hcomps'⟩ :=
    hf.changes u comps (scheme ++ tag) hcomps (by rw [hscheme]; rfl) htagged
  refine ⟨redirectUrl, ?_, hcomps', ?_⟩
  · rw [URL.convertToRedirectURL, hcomps]
    simp only [hscheme, Option.getD_some]
    exact hredirect
  · rw [URL.convertFromRedirectURL, hcomps', ← URL.replacingOccurrences_append_iff htag]
    exact URL.ofComponents_eq_iff hf hcomps hscheme _

/-! ## URLs as strings -/

namespace Foundation

/-- URLs of the form `scheme:rest` with a legal scheme; other strings have no scheme. -/
def schemed : Foundation where
  url string := if string = "" then none else some ⟨string⟩
  fileURL path := ⟨"file://" ++ path⟩
  components u :=
    let string := u.absoluteString.toList
    let scheme := String.ofList (string.takeWhile (· != ':'))
    if string.contains ':' && isLegalScheme scheme then
      some ⟨some scheme, .ofList ((string.dropWhile (· != ':')).drop 1)⟩
    else some ⟨none, u.absoluteString⟩
  ofComponents
    | ⟨some scheme, rest⟩ => if isLegalScheme scheme then some ⟨scheme ++ ":" ++ rest⟩ else none
    | ⟨none, rest⟩ => some ⟨rest⟩

variable {u : URL} {comps : URLComponents}

theorem ne_colon_of_isLegalScheme {scheme : String} (h : isLegalScheme scheme = true) :
    ∀ c ∈ scheme.toList, (c != ':') = true := by
  have hcolon : isSchemeChar ':' = false := by decide
  have hletter : ∀ c : Char, c.isAlpha = true → isSchemeChar c = true := fun c hc => by
    simp [isSchemeChar, Char.isAlphanum, hc]
  have hall : scheme.toList.all isSchemeChar = true := by
    unfold isLegalScheme at h
    cases hlist : scheme.toList with
    | nil => rfl
    | cons c rest =>
      simp only [hlist, Bool.and_eq_true] at h
      rw [List.all_cons, hletter c h.1, h.2]
      rfl
  intro c hc
  have hchar : isSchemeChar c = true := List.all_eq_true.mp hall c hc
  refine bne_iff_ne.mpr fun heq => ?_
  rw [heq, hcolon] at hchar
  cases hchar

theorem components_schemed {scheme : String} (h : isLegalScheme scheme = true) (rest : String) :
    schemed.components ⟨scheme ++ ":" ++ rest⟩ = some ⟨some scheme, rest⟩ := by
  have hne := ne_colon_of_isLegalScheme h
  have hstring : (scheme ++ ":" ++ rest).toList = scheme.toList ++ ':' :: rest.toList := by
    simp [String.toList_append]
  have htake : (scheme.toList ++ ':' :: rest.toList).takeWhile (· != ':') = scheme.toList := by
    rw [List.takeWhile_append_of_pos hne]
    simp
  have hdrop : (scheme.toList ++ ':' :: rest.toList).dropWhile (· != ':') = ':' :: rest.toList := by
    rw [List.dropWhile_append_of_pos hne]
    simp
  simp [schemed, hstring, htake, hdrop, h]

/-- A colon separates what stands before the first one from the rest. -/
theorem takeWhile_colon_append {string : List Char} (h : string.contains ':' = true) :
    string.takeWhile (· != ':') ++ ':' :: (string.dropWhile (· != ':')).drop 1 = string := by
  induction string with
  | nil => cases h
  | cons c string ih =>
    by_cases hc : c = ':'
    · simp [hc]
    · have hrest : string.contains ':' = true := by simpa [Ne.symm hc] using h
      have hne : (c != ':') = true := bne_iff_ne.mpr hc
      simp only [List.takeWhile_cons, List.dropWhile_cons, hne, if_true, List.cons_append, ih hrest]

/-- A URL has no scheme, or is put together from its scheme and the rest. -/
theorem components_schemed_cases (h : schemed.components u = some comps) :
    comps = ⟨none, u.absoluteString⟩ ∨ ∃ scheme rest, comps = ⟨some scheme, rest⟩ ∧
      isLegalScheme scheme = true ∧ u = ⟨scheme ++ ":" ++ rest⟩ := by
  simp only [schemed] at h
  split at h
  · rename_i hscheme
    obtain ⟨hcolon, hlegal⟩ := Bool.and_eq_true_iff.mp hscheme
    obtain rfl := Option.some.inj h
    refine Or.inr ⟨_, _, rfl, hlegal, URL.ext (String.toList_inj.mp ?_)⟩
    simp only [String.toList_append, String.toList_ofList]
    rw [List.append_assoc]
    exact (takeWhile_colon_append hcolon).symm
  · exact Or.inl (Option.some.inj h).symm

theorem changesScheme_schemed : schemed.ChangesScheme where
  legal u comps scheme hcomps hscheme := by
    rcases components_schemed_cases hcomps with rfl | ⟨scheme', rest, rfl, hlegal, _⟩
    · cases hscheme
    · exact Option.some.inj hscheme ▸ hlegal
  restores u comps hcomps := by
    rcases components_schemed_cases hcomps with rfl | ⟨scheme, rest, rfl, hlegal, rfl⟩
    · rfl
    · exact if_pos hlegal
  changes u comps scheme hcomps _ hlegal :=
    ⟨_, if_pos hlegal, components_schemed hlegal comps.rest⟩
  illegal u comps scheme u' comps' _ hlegal hu' _ := by
    have hnone : schemed.ofComponents { comps with scheme := some scheme } = none :=
      if_neg (by rw [hlegal]; exact Bool.false_ne_true)
    rw [hnone] at hu'
    cases hu'

end Foundation

theorem redirectURL_decodes_iff_streaming :
    ((URL.mk "https://a/v.mp4").convertToRedirectURL .schemed "streaming").bind
        (·.convertFromRedirectURL .schemed "streaming") = some ⟨"https://a/v.mp4"⟩ := by
  have hcomps : Foundation.schemed.components ⟨"https://a/v.mp4"⟩ =
      some ⟨some "https", "//a/v.mp4"⟩ := by decide
  obtain ⟨redirectUrl, hredirect, _, hdecodes⟩ := redirectURL_decodes_iff
    Foundation.changesScheme_schemed hcomps rfl (show "streaming" ≠ "" by decide) (by decide)
  have hends : ∀ w ∈ "https".toList.tails,
      "streaming".toList <+: w ++ "streaming".toList → w <:+ "streaming".toList := by decide
  rw [hredirect]
  exact hdecodes.mpr ⟨by decide, fun w hw => hends w ((List.mem_tails w _).mpr hw)⟩

/-- The tag occurs in the scheme: the decoded scheme has lost a letter. -/
theorem redirectURL_loses_letter :
    ((URL.mk "http://a/v.mp4").convertToRedirectURL .schemed "t").bind
        (·.convertFromRedirectURL .schemed "t") ≠ some ⟨"http://a/v.mp4"⟩ := by
  decide

end TiktokClone
