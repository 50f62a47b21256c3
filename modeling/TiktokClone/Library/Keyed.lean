import Mathlib.Data.List.AList

/-!
# Keyed encodings

A record is encoded field by field into a dictionary under the raw names of its
coding keys; a field without a value is left out. When no two keys share a raw name
the dictionary gives every field back.
-/

namespace TiktokClone.Library

variable {K N V : Type*} [DecidableEq N]

/-- The dictionary of the fields that have a value, under their raw names. -/
def encodeKeyed (rawValue : K → N) (value : K → Option V) (keys : List K) : AList fun _ : N => V :=
  keys.foldr (fun key dictionary =>
    match value key with
    | some v => dictionary.insert (rawValue key) v
    | none => dictionary) ∅

variable {rawValue : K → N} {value : K → Option V} {keys : List K}

theorem encodeKeyed_cons (key : K) : encodeKeyed rawValue value (key :: keys) =
    match value key with
    | some v => (encodeKeyed rawValue value keys).insert (rawValue key) v
    | none => encodeKeyed rawValue value keys := rfl

/-- A field without a value has no entry. -/
theorem lookup_encodeKeyed_eq_none (hinj : Function.Injective rawValue) {key : K}
    (hvalue : value key = none) :
    (encodeKeyed rawValue value keys).lookup (rawValue key) = none := by
  induction keys with
  | nil => rfl
  | cons other keys ih =>
    rw [encodeKeyed_cons]
    cases hother : value other with
    | none => exact ih
    | some v =>
      have hne : rawValue key ≠ rawValue other := fun he => by
        rw [hinj he, hother] at hvalue
        cases hvalue
      exact (AList.lookup_insert_ne hne).trans ih

/-- Every coding key finds its field again. -/
theorem lookup_encodeKeyed (hinj : Function.Injective rawValue) {key : K} (hkey : key ∈ keys) :
    (encodeKeyed rawValue value keys).lookup (rawValue key) = value key := by
  cases hvalue : value key with
  | none => exact lookup_encodeKeyed_eq_none hinj hvalue
  | some v =>
    induction keys with
    | nil => cases hkey
    | cons other keys ih =>
      rw [encodeKeyed_cons]
      by_cases he : other = key
      · subst he
        rw [hvalue]
        exact AList.lookup_insert _
      · have hrest := ih ((List.mem_cons.mp hkey).resolve_left (Ne.symm he))
        cases hother : value other with
        | none => exact hrest
        | some w => exact (AList.lookup_insert_ne (hinj.ne (Ne.symm he))).trans hrest

end TiktokClone.Library
