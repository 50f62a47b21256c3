import Mathlib.Data.List.Infix

/-!
# Publish subjects

A publish subject passes every value on to the observers it has at that time. For the
one observer of a subject a history splits at its subscription: what is published
before is lost on it, and what is published later it receives.
-/

namespace TiktokClone.Library

/-- The entries of a history that subscribe the observer, and those that give the subject a
value. -/
structure PublishSubject (ε α : Type*) where
  subscribes : ε → Bool
  onNext : ε → Option α
  /-- No entry does both. -/
  disjoint : ∀ e, subscribes e = true → onNext e = none

namespace PublishSubject

variable {ε α : Type*} (p : PublishSubject ε α)

/-- Every value that the subject is given, in order. -/
def published (events : List ε) : List α := events.filterMap p.onNext

/-- The observer has subscribed. -/
def observed (events : List ε) : Bool := events.any p.subscribes

/-- The values that the observer is given, in order. -/
def received : List ε → List α
  | [] => []
  | e :: events => if p.subscribes e then p.published events else received events

variable {p} {events : List ε} {e : ε}

theorem published_append (before after : List ε) :
    p.published (before ++ after) = p.published before ++ p.published after :=
  List.filterMap_append

theorem published_eq_nil_iff : p.published events = [] ↔ ∀ e ∈ events, p.onNext e = none :=
  List.filterMap_eq_nil_iff

theorem published_ne_nil_iff :
    p.published events ≠ [] ↔ ∃ e ∈ events, (p.onNext e).isSome = true := by
  simp only [Ne, published_eq_nil_iff, not_forall, ← Option.isSome_iff_ne_none, exists_prop]

theorem published_concat :
    p.published (events ++ [e]) = p.published events ++ (p.onNext e).toList := by
  rw [published_append, published, published, List.filterMap_cons, List.filterMap_nil]
  cases p.onNext e <;> rfl

/-- A subscription publishes nothing itself. -/
theorem published_split {before after : List ε} (he : p.subscribes e = true) :
    p.published (before ++ e :: after) = p.published before ++ p.published after := by
  rw [published_append]
  exact congrArg (p.published before ++ ·) (List.filterMap_cons_none (p.disjoint e he))

/-- A value is received exactly when the observer has subscribed before. -/
theorem received_concat : p.received (events ++ [e]) =
    p.received events ++ if p.observed events then (p.onNext e).toList else [] := by
  induction events with
  | nil => cases h : p.subscribes e <;> simp [received, observed, published]
  | cons a events ih =>
    cases h : p.subscribes a with
    | true => simp [received, observed, h, published_concat]
    | false => simpa [received, observed, h] using ih

/-- The history from the first subscription on is what the observer receives. -/
theorem exists_split (h : p.observed events = true) :
    ∃ before e after, events = before ++ e :: after ∧ p.subscribes e = true ∧
      p.received events = p.published after := by
  induction events with
  | nil => cases h
  | cons a events ih =>
    cases ha : p.subscribes a with
    | true => exact ⟨[], a, events, rfl, ha, by simp [received, ha]⟩
    | false =>
      rw [observed, List.any_cons, ha, Bool.false_or] at h
      obtain ⟨before, e, after, rfl, he, hreceived⟩ := ih h
      exact ⟨a :: before, e, after, rfl, he, by simp [received, ha, hreceived]⟩

theorem received_eq_nil (h : p.observed events = false) : p.received events = [] := by
  induction events with
  | nil => rfl
  | cons a events ih =>
    rw [observed, List.any_cons, Bool.or_eq_false_iff] at h
    rw [received, if_neg (by simp [h.1])]
    exact ih h.2

/-- What comes after any subscription is received. -/
theorem published_suffix_received {before after : List ε} (he : p.subscribes e = true) :
    p.published after <:+ p.received (before ++ e :: after) := by
  induction before with
  | nil => simp [received, he]
  | cons a before ih =>
    rw [List.cons_append, received]
    split
    · rw [published_split he]
      exact List.suffix_append _ _
    · exact ih

/-- The observer receives the last of the published values. -/
theorem received_suffix : p.received events <:+ p.published events := by
  cases h : p.observed events with
  | true =>
    obtain ⟨before, e, after, rfl, he, hreceived⟩ := exists_split h
    rw [hreceived, published_split he]
    exact List.suffix_append _ _
  | false =>
    rw [received_eq_nil h]
    exact List.nil_suffix

/-- Something is received exactly when something is published after a subscription. -/
theorem received_ne_nil_iff : p.received events ≠ [] ↔
    ∃ before e after, events = before ++ e :: after ∧ p.subscribes e = true ∧
      p.published after ≠ [] := by
  constructor
  · intro hne
    have hobserved : p.observed events = true := by
      by_contra h
      exact hne (received_eq_nil ((Bool.not_eq_true _).mp h))
    obtain ⟨before, e, after, rfl, he, hreceived⟩ := exists_split hobserved
    exact ⟨before, e, after, rfl, he, hreceived ▸ hne⟩
  · rintro ⟨before, e, after, rfl, he, hne⟩ hnil
    exact hne (List.suffix_nil.mp (hnil ▸ published_suffix_received he))

/-- Everything is received exactly when the observer subscribes before anything is published. -/
theorem received_eq_published_iff (hobserved : p.observed events = true) :
    p.received events = p.published events ↔
      ∃ before e after, events = before ++ e :: after ∧ p.subscribes e = true ∧
        p.published before = [] := by
  constructor
  · intro h
    obtain ⟨before, e, after, rfl, he, hreceived⟩ := exists_split hobserved
    rw [hreceived, published_split he] at h
    exact ⟨before, e, after, rfl, he, List.self_eq_append_left.mp h⟩
  · rintro ⟨before, e, after, rfl, he, hnil⟩
    have hall : p.published (before ++ e :: after) = p.published after := by
      rw [published_split he, hnil, List.nil_append]
    exact received_suffix.eq_of_length_le (by
      rw [hall]
      exact (published_suffix_received he).length_le)

end PublishSubject

end TiktokClone.Library
