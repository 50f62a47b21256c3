import Mathlib.Algebra.GroupWithZero.Nat
import Mathlib.Data.List.Dedup
import Mathlib.Logic.Function.Basic
import TiktokClone.Library.History

/-!
# Maps that are written and cleared

The meaning of a history of stores and clears: a key holds the value of the last
write that touches it, if that write is a store.
-/

namespace TiktokClone.Library

variable {K V : Type*}

/-- One change of a map. -/
inductive Write (K V : Type*)
  | store (k : K) (v : V)
  | clear

namespace Write

/-- The write changes what the key holds. -/
def Touches (k : K) : Write K V → Prop
  | store k' _ => k' = k
  | clear => True

/-- The last write that touches the key is a store of the value. -/
def LastStores (ws : List (Write K V)) (k : K) (v : V) : Prop :=
  Since (fun _ w => w = store k v) (fun w => ¬ w.Touches k) ws

variable [DecidableEq K]

/-- The map after one write. -/
def apply (m : K → Option V) : Write K V → K → Option V
  | store k v => Function.update m k (some v)
  | clear => fun _ => none

/-- The map after a history of writes that starts empty. -/
def latest (ws : List (Write K V)) : K → Option V := ws.foldl apply fun _ => none

@[simp] theorem latest_nil : latest ([] : List (Write K V)) = fun _ => none := rfl

theorem latest_concat (ws : List (Write K V)) (w : Write K V) :
    latest (ws ++ [w]) = w.apply (latest ws) := by
  rw [latest, List.foldl_append]
  rfl

@[simp] theorem latest_concat_clear (ws : List (Write K V)) :
    latest (ws ++ [clear]) = fun _ => none := latest_concat ws clear

@[simp] theorem latest_concat_store (ws : List (Write K V)) (k : K) (v : V) :
    latest (ws ++ [store k v]) = Function.update (latest ws) k (some v) :=
  latest_concat ws (store k v)

/-- Looking a key up finds the value of its last store, unless a clear came later. -/
theorem latest_eq_some_iff {ws : List (Write K V)} {k : K} {v : V} :
    latest ws k = some v ↔ LastStores ws k v := by
  induction ws using List.reverseRecOn with
  | nil => exact iff_of_false (by simp) not_since_nil
  | append_singleton ws w ih =>
    rw [latest_concat, LastStores, since_concat, ← LastStores, ← ih]
    cases w with
    | store k' v' =>
      by_cases hk : k' = k
      · subst hk
        simp [apply, Touches]
      · simp [apply, Touches, hk, Function.update_of_ne (Ne.symm hk)]
    | clear => simp [apply, Touches]

/-- The keys of the stores, each once. -/
def storedKeys (ws : List (Write K V)) : List K :=
  (ws.filterMap fun
    | store k _ => some k
    | clear => none).dedup

/-- The sizes of all values that the map holds after the history. -/
def total (size : V → Nat) (ws : List (Write K V)) : Nat :=
  ((storedKeys ws).map fun k => ((latest ws k).map size).getD 0).sum

theorem mem_storedKeys {ws : List (Write K V)} {k : K} {v : V} (h : latest ws k = some v) :
    k ∈ storedKeys ws := by
  obtain ⟨before, w, after, rfl, rfl, _⟩ := latest_eq_some_iff.mp h
  refine List.mem_dedup.mpr (List.mem_filterMap.mpr ⟨store k v, ?_, rfl⟩)
  exact List.mem_append_right _ List.mem_cons_self

/-- A listing that has one name for each key that holds a value adds up to the total. -/
theorem sum_listing_eq_total {N : Type*} {ws : List (Write K V)} {size : V → Nat} {names : List N}
    (name : K → N) {weight : N → Nat} (hnodup : names.Nodup)
    (hinj : ∀ k k' v v', latest ws k = some v → latest ws k' = some v' → name k = name k' → k = k')
    (hmem : ∀ n, n ∈ names ↔ ∃ k v, latest ws k = some v ∧ name k = n)
    (hweight : ∀ k v, latest ws k = some v → weight (name k) = size v) :
    (names.map weight).sum = total size ws := by
  let held := (storedKeys ws).filter fun k => (latest ws k).isSome
  have hheld : ∀ k, k ∈ held ↔ ∃ v, latest ws k = some v := by
    intro k
    rw [List.mem_filter, Option.isSome_iff_exists]
    exact ⟨fun h => h.2, fun ⟨v, hv⟩ => ⟨mem_storedKeys hv, v, hv⟩⟩
  have hnames : (held.map name).Nodup := by
    refine List.Nodup.map_on (fun k hk k' hk' he => ?_) ((List.nodup_dedup _).filter _)
    obtain ⟨v, hv⟩ := (hheld k).mp hk
    obtain ⟨v', hv'⟩ := (hheld k').mp hk'
    exact hinj k k' v v' hv hv' he
  have hperm : names.Perm (held.map name) := by
    refine (List.perm_ext_iff_of_nodup hnodup hnames).mpr fun n => ?_
    rw [hmem, List.mem_map]
    simp only [hheld]
    constructor
    · rintro ⟨k, v, hv, rfl⟩
      exact ⟨k, ⟨v, hv⟩, rfl⟩
    · rintro ⟨k, ⟨v, hv⟩, rfl⟩
      exact ⟨k, v, hv, rfl⟩
  -- A key that holds nothing adds nothing.
  have hskip : ∀ ks : List K, ((ks.filter fun k => (latest ws k).isSome).map
      (weight ∘ name)).sum = (ks.map fun k => ((latest ws k).map size).getD 0).sum := by
    intro ks
    induction ks with
    | nil => rfl
    | cons k ks ih =>
      cases hk : latest ws k with
      | none => simp [hk, ih]
      | some v => simp [hk, ih, hweight k v hk]
  rw [(hperm.map weight).sum_nat, List.map_map, total, ← hskip]

end Write

end TiktokClone.Library
