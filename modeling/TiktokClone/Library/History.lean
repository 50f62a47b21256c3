import Mathlib.Data.List.Induction

/-!
# Past-time properties of histories

Two operators of past-time temporal logic on finite histories. `Since`: something
happened, and every entry after it has kept a property. `Always`: every entry has
been as the entries before it demand. What a history leaves behind is read off it by
`recollect`, a fold whose steps look back at the entries before them, and by `pending`,
the queue of what has been put and not taken. All have a rule for one more entry.
-/

namespace TiktokClone.Library

variable {α : Type*}

/-- An entry with `P` in view of the entries before it, followed by entries with `Q` only. -/
def Since (P : List α → α → Prop) (Q : α → Prop) (as : List α) : Prop :=
  ∃ before a after, as = before ++ a :: after ∧ P before a ∧ ∀ x ∈ after, Q x

variable {P P' : List α → α → Prop} {Q : α → Prop} {as : List α} {a : α}

@[simp] theorem not_since_nil : ¬ Since P Q [] := by
  rintro ⟨before, a, after, h, _⟩
  exact List.append_ne_nil_of_right_ne_nil before (List.cons_ne_nil a after) h.symm

/-- It happens now, or it has happened and is kept. -/
theorem since_concat : Since P Q (as ++ [a]) ↔ P as a ∨ Q a ∧ Since P Q as := by
  constructor
  · rintro ⟨before, b, after, h, hb, hafter⟩
    cases after using List.reverseRecOn with
    | nil =>
      obtain ⟨rfl, hlast⟩ := List.append_inj' h rfl
      exact Or.inl (List.singleton_inj.mp hlast ▸ hb)
    | append_singleton after last =>
      rw [← List.cons_append, ← List.append_assoc] at h
      obtain ⟨rfl, hlast⟩ := List.append_inj' h rfl
      obtain rfl := List.singleton_inj.mp hlast
      exact Or.inr ⟨hafter a (by simp), before, b, after, rfl, hb,
        fun x hx => hafter x (List.mem_append_left _ hx)⟩
  · rintro (ha | ⟨ha, before, b, after, rfl, hb, hafter⟩)
    · exact ⟨as, a, [], rfl, ha, by simp⟩
    · refine ⟨before, b, after ++ [a], by simp, hb, fun x hx => ?_⟩
      rcases List.mem_append.mp hx with hx | hx
      · exact hafter x hx
      · exact List.mem_singleton.mp hx ▸ ha

/-- What holds when something happens and is kept by the later entries holds since. -/
theorem Since.imp (h : Since P Q as) (hP : ∀ bs b, P bs b → Since P' Q (bs ++ [b])) :
    Since P' Q as := by
  induction as using List.reverseRecOn with
  | nil => exact absurd h not_since_nil
  | append_singleton as a ih =>
    rcases since_concat.mp h with ha | ⟨ha, h⟩
    · exact hP as a ha
    · exact since_concat.mpr (Or.inr ⟨ha, ih h⟩)

/-- Every entry is as the entries before it demand. -/
def Always (P : List α → α → Prop) (as : List α) : Prop :=
  ∀ before a after, as = before ++ a :: after → P before a

@[simp] theorem always_nil : Always P [] :=
  fun before a after h => absurd h.symm (List.append_ne_nil_of_right_ne_nil before
    (List.cons_ne_nil a after))

theorem always_concat : Always P (as ++ [a]) ↔ Always P as ∧ P as a := by
  constructor
  · refine fun h => ⟨fun before b after he => ?_, h as a [] rfl⟩
    exact h before b (after ++ [a]) (by simp [he])
  · rintro ⟨hall, hlast⟩ before b after he
    cases after using List.reverseRecOn with
    | nil =>
      obtain ⟨rfl, hb⟩ := List.append_inj' he rfl
      exact List.singleton_inj.mp hb ▸ hlast
    | append_singleton after last =>
      rw [← List.cons_append, ← List.append_assoc] at he
      obtain ⟨rfl, _⟩ := List.append_inj' he rfl
      exact hall before b after rfl

theorem always_and :
    Always (fun as a => P as a ∧ P' as a) as ↔ Always P as ∧ Always P' as := by
  simp only [Always, forall_and]

/-- Conditions that agree at every entry agree on the history. -/
theorem always_congr (h : ∀ as a, P as a ↔ P' as a) (as : List α) : Always P as ↔ Always P' as :=
  forall₃_congr fun before a _ => imp_congr_right fun _ => h before a

variable {β : Type*}

/-- Read a value off a history, from the entries `before` on. -/
def recollectFrom (step : List α → β → α → β) (before : List α) (b : β) : List α → β
  | [] => b
  | a :: as => recollectFrom step (before ++ [a]) (step before b a) as

/-- Read a value off a history: each entry changes it in view of the entries before it. -/
def recollect (step : List α → β → α → β) (b : β) (as : List α) : β := recollectFrom step [] b as

variable {step : List α → β → α → β} {b : β}

theorem recollectFrom_concat (before : List α) (b : β) (as : List α) (a : α) :
    recollectFrom step before b (as ++ [a]) =
      step (before ++ as) (recollectFrom step before b as) a := by
  induction as generalizing before b with
  | nil => rw [List.append_nil, List.nil_append, recollectFrom, recollectFrom, recollectFrom]
  | cons x as ih => rw [List.cons_append, recollectFrom, recollectFrom, ih, List.append_assoc,
      List.singleton_append]

theorem recollect_concat : recollect step b (as ++ [a]) = step as (recollect step b as) a :=
  recollectFrom_concat [] b as a

/-- What entries have put into a queue and later entries have not taken from its head. -/
def pending (put : α → Option β) (take : α → Bool) (as : List α) : List β :=
  as.foldl (fun queue a => if take a then queue.tail else queue ++ (put a).toList) []

variable {put : α → Option β} {take : α → Bool}

theorem pending_concat : pending put take (as ++ [a]) =
    if take a then (pending put take as).tail else pending put take as ++ (put a).toList := by
  rw [pending, List.foldl_append]
  rfl

end TiktokClone.Library
