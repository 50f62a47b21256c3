import Mathlib.Data.List.Induction
import Mathlib.Data.List.Infix
import TiktokClone.Library.History

/-!
# Deterministic labelled machines

A machine reads labels one at a time; a label that cannot occur in a state has
no successor there. Histories grow at their end, so an invariant of the reached
state is proved by one base case and one step. Conditions on the steps of a
history are kept apart from properties of the states it passes through, and
`Run.allStates_iff_allSteps` exchanges the two for an exact step condition.
`Run.allStates_iff_always` does so for a condition on the labels alone.
-/

namespace TiktokClone.Library

/-- A start state and a partial successor for each label. -/
structure Machine (σ α : Type*) where
  /-- The state before any label is read. -/
  start : σ
  /-- The successor under one label, absent when the label cannot occur. -/
  next : σ → α → Option σ

namespace Machine

variable {σ α : Type*} (m : Machine σ α)

/-- Execute a list of labels from a given state. -/
def execFrom (s : σ) : List α → Option σ
  | [] => some s
  | a :: as => (m.next s a).bind fun t => execFrom t as

/-- Execute a list of labels from the start state. -/
def exec (as : List α) : Option σ := m.execFrom m.start as

/-- The histories of the machine, with the state each of them reaches. -/
inductive Run : List α → σ → Prop
  | nil : Run [] m.start
  | snoc {as s a t} : Run as s → m.next s a = some t → Run (as ++ [a]) t

/-- A state reached by some history. -/
def Reachable (s : σ) : Prop := ∃ as, m.Run as s

variable {m}

theorem execFrom_cons (s : σ) (a : α) (as : List α) :
    m.execFrom s (a :: as) = (m.next s a).bind fun t => m.execFrom t as := rfl

theorem execFrom_append (s : σ) (as bs : List α) :
    m.execFrom s (as ++ bs) = (m.execFrom s as).bind fun t => m.execFrom t bs := by
  induction as generalizing s with
  | nil => rfl
  | cons a as ih =>
    rw [List.cons_append, execFrom, execFrom]
    cases m.next s a with
    | none => rfl
    | some t => exact ih t

theorem exec_concat (as : List α) (a : α) :
    m.exec (as ++ [a]) = (m.exec as).bind fun s => m.next s a := by
  rw [exec, execFrom_append]
  congr 1
  funext s
  cases h : m.next s a <;> simp [execFrom, h]

/-- Execution computes exactly the histories. -/
theorem run_iff_exec {as : List α} {s : σ} : m.Run as s ↔ m.exec as = some s := by
  constructor
  · intro h
    induction h with
    | nil => rfl
    | snoc _ hn ih => rw [exec_concat, ih, Option.bind_some, hn]
  · intro h
    induction as using List.reverseRecOn generalizing s with
    | nil =>
      obtain rfl : m.start = s := Option.some.inj h
      exact .nil
    | append_singleton as a ih =>
      rw [exec_concat] at h
      obtain ⟨t, ht, hn⟩ := Option.bind_eq_some_iff.mp h
      exact .snoc (ih ht) hn

/-- A history reaches one state only. -/
theorem Run.unique {as : List α} {s t : σ} (hs : m.Run as s) (ht : m.Run as t) : s = t := by
  rw [run_iff_exec] at hs ht
  exact Option.some.inj (hs.symm.trans ht)

theorem run_nil_iff {s : σ} : m.Run [] s ↔ s = m.start := by
  rw [run_iff_exec]
  exact ⟨fun h => (Option.some.inj h).symm, fun h => congrArg some h.symm⟩

theorem run_concat_iff {as : List α} {a : α} {t : σ} :
    m.Run (as ++ [a]) t ↔ ∃ s, m.Run as s ∧ m.next s a = some t := by
  simp only [run_iff_exec, exec_concat, Option.bind_eq_some_iff]

variable (m) in
/-- The same machine started in another state. -/
def startAt (s : σ) : Machine σ α := { m with start := s }

theorem execFrom_startAt (s t : σ) (as : List α) :
    (m.startAt s).execFrom t as = m.execFrom t as := by
  induction as generalizing t with
  | nil => rfl
  | cons a as ih =>
    change (m.next t a).bind (fun u => (m.startAt s).execFrom u as) = _
    simp only [ih]
    rfl

/-- A history splits at every point into two histories. -/
theorem run_append_iff {as bs : List α} {t : σ} :
    m.Run (as ++ bs) t ↔ ∃ s, m.Run as s ∧ (m.startAt s).Run bs t := by
  simp only [run_iff_exec, exec, execFrom_append, execFrom_startAt, Option.bind_eq_some_iff]
  rfl

/-- Every history passes through a state at each of its prefixes. -/
theorem Run.of_prefix {as before : List α} {t : σ} (h : m.Run as t) (hp : before <+: as) :
    ∃ s, m.Run before s := by
  obtain ⟨after, rfl⟩ := hp
  obtain ⟨s, hs, _⟩ := run_append_iff.mp h
  exact ⟨s, hs⟩

/-- A step leads from a reachable state to a reachable one. -/
theorem Reachable.next {s t : σ} {a : α} (h : m.Reachable s) (hn : m.next s a = some t) :
    m.Reachable t := by
  obtain ⟨as, hr⟩ := h
  exact ⟨as ++ [a], .snoc hr hn⟩

/-- A predicate that holds at the start and survives every step is an invariant. -/
theorem Run.invariant {I : σ → Prop} (start : I m.start)
    (next : ∀ s a t, I s → m.next s a = some t → I t)
    {as : List α} {s : σ} (h : m.Run as s) : I s := by
  induction h with
  | nil => exact start
  | snoc _ hn ih => exact next _ _ _ ih hn

/-- A machine whose labels never get stuck executes every list of labels. The
invariant may speak of the labels read so far. -/
theorem exists_run {I : List α → σ → Prop} (start : I [] m.start)
    (next : ∀ as s a, I as s → ∃ t, m.next s a = some t ∧ I (as ++ [a]) t) (as : List α) :
    ∃ s, m.Run as s ∧ I as s := by
  induction as using List.reverseRecOn with
  | nil => exact ⟨m.start, .nil, start⟩
  | append_singleton as a ih =>
    obtain ⟨s, hs, hi⟩ := ih
    obtain ⟨t, hn, ht⟩ := next as s a hi
    exact ⟨t, .snoc hs hn, ht⟩

/-- Simulation with stuttering: another machine answers each step with some of its own steps
or none. The relation may speak of the labels read so far. -/
theorem Run.simulate {τ β : Type*} {n : Machine τ β} {P : α → Prop}
    {R : List α → σ → List β → τ → Prop} (start : R [] m.start [] n.start)
    (next : ∀ as s bs t a s', R as s bs t → P a → m.next s a = some s' →
      ∃ cs t', n.execFrom t cs = some t' ∧ R (as ++ [a]) s' (bs ++ cs) t')
    {as : List α} {s : σ} (h : m.Run as s) (hP : ∀ a ∈ as, P a) :
    ∃ bs t, n.Run bs t ∧ R as s bs t := by
  induction h with
  | nil => exact ⟨[], n.start, .nil, start⟩
  | @snoc as s a s' _ hn ih =>
    obtain ⟨bs, t, hrun, hr⟩ := ih fun b hb => hP b (List.mem_append_left _ hb)
    obtain ⟨cs, t', hexec, hr'⟩ :=
      next as s bs t a s' hr (hP a (List.mem_append_right _ (List.mem_singleton_self a))) hn
    refine ⟨bs ++ cs, t', run_iff_exec.mpr ?_, hr'⟩
    rw [exec, execFrom_append]
    exact Option.bind_eq_some_iff.mpr ⟨t, run_iff_exec.mp hrun, hexec⟩

variable (m)

/-- Every state that the history passes through has the property. -/
def AllStates (P : σ → Prop) (as : List α) : Prop :=
  ∀ before, before <+: as → ∀ s, m.Run before s → P s

/-- Every step of the history meets the condition in the state before it. -/
def AllSteps (C : σ → α → Prop) (as : List α) : Prop :=
  ∀ before a, before ++ [a] <+: as → ∀ s, m.Run before s → C s a

variable {m}

theorem allStates_and {P Q : σ → Prop} {as : List α} :
    m.AllStates (fun s => P s ∧ Q s) as ↔ m.AllStates P as ∧ m.AllStates Q as := by
  simp only [AllStates, forall_and]

theorem allSteps_and {C D : σ → α → Prop} {as : List α} :
    m.AllSteps (fun s a => C s a ∧ D s a) as ↔ m.AllSteps C as ∧ m.AllSteps D as := by
  simp only [AllSteps, forall_and]

theorem allStates_nil {P : σ → Prop} : m.AllStates P [] ↔ P m.start := by
  constructor
  · exact fun h => h [] (List.prefix_refl []) _ .nil
  · intro h before hp s hs
    obtain rfl := List.prefix_nil.mp hp
    exact run_nil_iff.mp hs ▸ h

theorem allStates_concat {P : σ → Prop} {as : List α} {a : α} :
    m.AllStates P (as ++ [a]) ↔ m.AllStates P as ∧ ∀ t, m.Run (as ++ [a]) t → P t := by
  constructor
  · exact fun h => ⟨fun before hp => h before (hp.trans (List.prefix_append as [a])),
      h _ (List.prefix_refl _)⟩
  · rintro ⟨hall, hlast⟩ before hp
    rcases List.prefix_concat_iff.mp hp with rfl | hp
    · exact hlast
    · exact hall before hp

theorem allSteps_nil {C : σ → α → Prop} : m.AllSteps C [] :=
  fun _ _ hp => absurd (List.prefix_nil.mp hp) (by simp)

theorem allSteps_concat {C : σ → α → Prop} {as : List α} {a : α} :
    m.AllSteps C (as ++ [a]) ↔ m.AllSteps C as ∧ ∀ s, m.Run as s → C s a := by
  constructor
  · exact fun h => ⟨fun before b hp => h before b (hp.trans (List.prefix_append as [a])),
      h as a (List.prefix_refl _)⟩
  · rintro ⟨hall, hlast⟩ before b hp
    rcases List.prefix_concat_iff.mp hp with he | hp
    · obtain ⟨rfl, hb⟩ := List.append_inj' he rfl
      exact List.singleton_inj.mp hb ▸ hlast
    · exact hall before b hp

/-- Conditions that agree at every reachable step agree on every history. -/
theorem allSteps_congr {C D : σ → α → Prop}
    (h : ∀ s a, m.Reachable s → (C s a ↔ D s a)) (as : List α) :
    m.AllSteps C as ↔ m.AllSteps D as :=
  forall₄_congr fun before a _ s => forall_congr' fun hs => h s a ⟨before, hs⟩

/-- An invariant that only the steps meeting a condition preserve holds along
every history made of such steps. -/
theorem Run.invariant_of_allSteps {I : σ → Prop} {C : σ → α → Prop} (start : I m.start)
    (next : ∀ s a t, I s → C s a → m.next s a = some t → I t)
    {as : List α} {s : σ} (h : m.Run as s) (hc : m.AllSteps C as) : I s := by
  induction h with
  | nil => exact start
  | snoc hr hn ih =>
    obtain ⟨hall, hlast⟩ := allSteps_concat.mp hc
    exact next _ _ _ (ih hall) (hlast _ hr) hn

/-- A condition on the steps of a history is one on the steps of its beginnings. -/
theorem AllSteps.of_prefix {C : σ → α → Prop} {as before : List α} (h : m.AllSteps C as)
    (hp : before <+: as) : m.AllSteps C before :=
  fun first a hfirst => h first a (hfirst.trans hp)

/-- What the steps meeting a condition preserve holds in every state of a history of them. -/
theorem allStates_of_allSteps {I : σ → Prop} {C : σ → α → Prop} (start : I m.start)
    (next : ∀ s a t, I s → C s a → m.next s a = some t → I t)
    {as : List α} (hc : m.AllSteps C as) : m.AllStates I as :=
  fun _ hp _ hs => hs.invariant_of_allSteps start next (hc.of_prefix hp)

/-- What the state after a step says about the step holds of all steps between such states. -/
theorem Run.allSteps_of_allStates {P : σ → Prop} {C : σ → α → Prop}
    (next : ∀ s a t, m.next s a = some t → P t → C s a) {as : List α} {s : σ} (h : m.Run as s)
    (hall : m.AllStates P as) : m.AllSteps C as := by
  intro before a hp t ht
  obtain ⟨u, hu⟩ := h.of_prefix hp
  obtain ⟨t', ht', hn⟩ := run_concat_iff.mp hu
  rw [ht.unique ht']
  exact next t' a u hn (hall _ hp u hu)

/-- A step condition that is exact for a property of states turns the property
of all the states of a history into the condition on all of its steps. -/
theorem Run.allStates_iff_allSteps {P : σ → Prop} {C : σ → α → Prop} (start : P m.start)
    (exact_next : ∀ s a t, m.Reachable s → P s → m.next s a = some t → (P t ↔ C s a))
    {as : List α} {s : σ} (h : m.Run as s) : m.AllStates P as ↔ m.AllSteps C as := by
  induction h with
  | nil => exact iff_of_true (allStates_nil.mpr start) allSteps_nil
  | @snoc as s a t hr hn ih =>
    rw [allStates_concat, allSteps_concat, ih]
    refine and_congr_right fun hall => ?_
    have hs : P s := (ih.mpr hall) as (List.prefix_refl as) s hr
    have he := exact_next s a t ⟨as, hr⟩ hs hn
    constructor
    · intro h s' hs'
      exact hs'.unique hr ▸ he.mp (h t (.snoc hr hn))
    · intro h t' ht'
      exact ht'.unique (.snoc hr hn) ▸ he.mpr (h s hr)

/-- A condition on the steps is one on the labels, in the states that the labels reach. -/
theorem allSteps_iff_always {C : σ → α → Prop} {as : List α} :
    m.AllSteps C as ↔ Always (fun before a => ∀ s, m.Run before s → C s a) as := by
  constructor
  · rintro h before a after rfl
    exact h before a ⟨after, by rw [List.append_assoc, List.singleton_append]⟩
  · rintro h before a ⟨after, rfl⟩
    exact h before a after (by rw [List.append_assoc, List.singleton_append])

/-- A condition on the history that is exact for a property of states turns the property of
all the states of a run into the condition on its labels. -/
theorem Run.allStates_iff_always {P : σ → Prop} {C : List α → α → Prop} (start : P m.start)
    (exact_next : ∀ as s a t, m.Run as s → P s → m.next s a = some t → (P t ↔ C as a))
    {as : List α} {s : σ} (h : m.Run as s) : m.AllStates P as ↔ Always C as := by
  induction h with
  | nil => exact iff_of_true (allStates_nil.mpr start) always_nil
  | @snoc as s a t hr hn ih =>
    rw [allStates_concat, always_concat, ih]
    refine and_congr_right fun hall => ?_
    have hs : P s := (ih.mpr hall) as (List.prefix_refl as) s hr
    rw [← exact_next as s a t hr hs hn]
    exact ⟨fun h => h t (.snoc hr hn), fun h t' ht' => ht'.unique (.snoc hr hn) ▸ h⟩

end Machine

end TiktokClone.Library
