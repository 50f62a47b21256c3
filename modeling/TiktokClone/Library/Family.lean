import TiktokClone.Library.Machine

/-!
# Families of machines around a shared resource

Any number of machines of one kind are made while a run goes on. Each of them takes its
own steps; whether it may take one can depend on the resource that they share, and the step
may change the resource. Every member is where its own steps lead its machine alone, so what
is invariant for one machine holds of all the members; what the resource says about them
needs a rule of its own.
-/

namespace TiktokClone.Library

/-- The members made so far, each with what it was made from, and their resource. -/
structure Family (ι σ ρ : Type*) where
  members : List (ι × σ)
  resource : ρ

/-- A member is made, the member at a position takes a step, or the resource does. -/
inductive FamilyEvent (ι α β : Type*)
  | make (i : ι)
  | member (k : Nat) (a : α)
  | resource (b : β)

/-- The machines of the members, and how they and the resource act on each other. -/
structure Sharing (ι σ α ρ β : Type*) where
  component : ι → Machine σ α
  start : ρ
  /-- The resource lets the member at a position take this step. -/
  allowed : ρ → Nat → σ → α → Bool
  /-- What the step of the member at a position, from one state to another, does to the
  resource. -/
  effect : ρ → Nat → σ → α → σ → ρ
  /-- The steps of the resource itself. -/
  step : ρ → β → Option ρ

namespace Sharing

variable {ι σ α ρ β : Type*} (sharing : Sharing ι σ α ρ β)

/-- The family as a machine; it starts without members. -/
def machine : Machine (Family ι σ ρ) (FamilyEvent ι α β) where
  start := ⟨[], sharing.start⟩
  next s
    | .make i => some { s with members := s.members ++ [(i, (sharing.component i).start)] }
    | .member k a =>
      match s.members[k]? with
      | none => none
      | some (i, p) =>
        if sharing.allowed s.resource k p a then
          match (sharing.component i).next p a with
          | none => none
          | some q => some ⟨s.members.set k (i, q), sharing.effect s.resource k p a q⟩
        else none
    | .resource b => (sharing.step s.resource b).map fun r => { s with resource := r }

variable {sharing} {s t : Family ι σ ρ}

theorem next_member {k : Nat} {a : α} (h : sharing.machine.next s (.member k a) = some t) :
    ∃ i p q, s.members[k]? = some (i, p) ∧ sharing.allowed s.resource k p a = true ∧
      (sharing.component i).next p a = some q ∧
      t = ⟨s.members.set k (i, q), sharing.effect s.resource k p a q⟩ := by
  simp only [machine] at h
  split at h
  · cases h
  · rename_i i p hmember
    obtain ⟨hallowed, h⟩ := Option.ite_none_right_eq_some.mp h
    split at h
    · cases h
    · rename_i q hnext
      exact ⟨i, p, q, hmember, hallowed, hnext, (Option.some.inj h).symm⟩

theorem next_resource {b : β} (h : sharing.machine.next s (.resource b) = some t) :
    ∃ r, sharing.step s.resource b = some r ∧ t = { s with resource := r } := by
  obtain ⟨r, hr, ht⟩ := Option.map_eq_some_iff.mp h
  exact ⟨r, hr, ht.symm⟩

/-- What the members were made from only grows by what is made. -/
theorem makings_next {e : FamilyEvent ι α β} (h : sharing.machine.next s e = some t) :
    t.members.map Prod.fst = s.members.map Prod.fst ∨
      ∃ i, e = .make i ∧ t.members.map Prod.fst = s.members.map Prod.fst ++ [i] := by
  cases e with
  | make i =>
    obtain rfl := Option.some.inj h
    exact Or.inr ⟨i, rfl, List.map_append⟩
  | member k a =>
    obtain ⟨i, p, q, hmember, _, _, rfl⟩ := next_member h
    refine Or.inl (List.ext_getElem? fun j => ?_)
    rw [List.getElem?_map, List.getElem?_map, List.getElem?_set]
    split
    · rename_i hj
      subst hj
      obtain ⟨hlt, hp⟩ := List.getElem?_eq_some_iff.mp hmember
      rw [if_pos hlt, hmember]
      rfl
    · rfl
  | resource b =>
    obtain ⟨r, _, rfl⟩ := next_resource h
    exact Or.inl rfl

/-- The members after one of them has taken a step. -/
theorem getElem?_members_set {members : List (ι × σ)} {k j : Nat} {m new : ι × σ}
    (h : (members.set k new)[j]? = some m) : j = k ∧ m = new ∨ j ≠ k ∧ members[j]? = some m := by
  by_cases hj : j = k
  · subst hj
    obtain ⟨hlt, hm⟩ := List.getElem?_eq_some_iff.mp h
    rw [List.getElem_set_self] at hm
    exact Or.inl ⟨rfl, hm.symm⟩
  · rw [List.getElem?_set_ne (Ne.symm hj)] at h
    exact Or.inr ⟨hj, h⟩

/-- The members after another one has been made. -/
theorem getElem?_members_concat {members : List (ι × σ)} {j : Nat} {m new : ι × σ}
    (h : (members ++ [new])[j]? = some m) :
    members[j]? = some m ∨ j = members.length ∧ m = new := by
  rw [List.getElem?_append] at h
  split at h
  · exact Or.inl h
  · rename_i hj
    rw [List.getElem?_singleton, Option.ite_none_right_eq_some] at h
    exact Or.inr ⟨by omega, (Option.some.inj h.2).symm⟩

/-- What holds of a new member and survives the steps that the resource allows holds of
every member; the member's state can be taken as one that its machine reaches. -/
theorem member_invariant {R : ι → σ → Prop} (start : ∀ i, R i (sharing.component i).start)
    (next : ∀ r k i p a q, (sharing.component i).Reachable p → R i p →
      sharing.allowed r k p a = true → (sharing.component i).next p a = some q → R i q)
    (h : sharing.machine.Reachable s) {k : Nat} {i : ι} {p : σ}
    (hk : s.members[k]? = some (i, p)) : (sharing.component i).Reachable p ∧ R i p := by
  obtain ⟨events, hrun⟩ := h
  refine hrun.invariant (I := fun s => ∀ k i p, s.members[k]? = some (i, p) →
    (sharing.component i).Reachable p ∧ R i p) ?_ ?_ k i p hk
  · intro k i p hk
    cases hk
  · intro s e t hs hn k i p hk
    cases e with
    | make new =>
      obtain rfl := Option.some.inj hn
      rcases getElem?_members_concat hk with hold | ⟨_, hnew⟩
      · exact hs k i p hold
      · obtain ⟨rfl, rfl⟩ := Prod.mk.inj hnew
        exact ⟨⟨[], .nil⟩, start i⟩
    | member j a =>
      obtain ⟨i', p', q, hj, hallowed, hnext, rfl⟩ := next_member hn
      rcases getElem?_members_set hk with ⟨_, hnew⟩ | ⟨_, hold⟩
      · obtain ⟨rfl, rfl⟩ := Prod.mk.inj hnew
        obtain ⟨hreachable, hR⟩ := hs j _ _ hj
        exact ⟨hreachable.next hnext, next _ _ _ _ _ _ hreachable hR hallowed hnext⟩
      · exact hs k i p hold
    | resource b =>
      obtain ⟨r, _, rfl⟩ := next_resource hn
      exact hs k i p hk

/-- Every member is in a state that its machine reaches. -/
theorem member_reachable (h : sharing.machine.Reachable s) {k : Nat} {i : ι} {p : σ}
    (hk : s.members[k]? = some (i, p)) : (sharing.component i).Reachable p :=
  (member_invariant (R := fun _ _ => True) (fun _ => trivial)
    (fun _ _ _ _ _ _ _ _ _ _ => trivial) h hk).1

section Steps

variable (k : Nat) (events : List (FamilyEvent ι α β))

end Steps

end Sharing

end TiktokClone.Library
