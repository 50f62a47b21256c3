import TiktokClone.Library.Writes

/-!
# Two-level caches

A slow level holds a value for each key, a fast level one for each tag, and the
tag of a key may be shared with other keys. Stores and clears reach both levels,
a query that misses the fast level copies its slow answer there, and the fast
level may lose any entry at any time. The key that last filled a tag is a function
of the history alone, and a query answers with the latest value of that key.
-/

namespace TiktokClone.Library

/-- The two levels. -/
structure TwoLevel (K T V : Type*) where
  fast : T → Option V
  slow : K → Option V

namespace TwoLevel

variable {K T V : Type*}

/-- One operation on a two-level cache. -/
inductive Op (K T V : Type*)
  | store (k : K) (v : V)
  | clear
  | query (k : K)
  | evict (t : T)

/-- The changes that the operations make to the stored contents. -/
def Op.write : Op K T V → Option (Write K V)
  | store k v => some (.store k v)
  | clear => some .clear
  | query _ | evict _ => none

/-- The stores and clears of a history. -/
def writes (ops : List (Op K T V)) : List (Write K V) := ops.filterMap Op.write

/-- Both levels are empty. -/
def empty : TwoLevel K T V := ⟨fun _ => none, fun _ => none⟩

/-- What a query answers. -/
def answer (tag : K → T) (s : TwoLevel K T V) (k : K) : Option V := (s.fast (tag k)).or (s.slow k)

/-- What a history says about a cache: the contents it should have, and the key
whose store or query last filled each tag. -/
structure Account (K T V : Type*) where
  contents : K → Option V
  filledBy : T → Option K

/-- A filled tag belongs to the key that filled it, and this key has a value. -/
def Account.Tagged (tag : K → T) (a : Account K T V) : Prop :=
  ∀ t k, a.filledBy t = some k → tag k = t ∧ (a.contents k).isSome = true

/-- How the levels of a cache follow from its account. -/
structure Accounted (tag : K → T) (a : Account K T V) (s : TwoLevel K T V) : Prop where
  slow : s.slow = a.contents
  fast : ∀ t, s.fast t = (a.filledBy t).bind a.contents
  tagged : a.Tagged tag

/-- The account of an empty cache. -/
def Account.empty : Account K T V := ⟨fun _ => none, fun _ => none⟩

theorem accounted_empty (tag : K → T) : Accounted tag (Account.empty : Account K T V) empty where
  slow := rfl
  fast := fun _ => rfl
  tagged := fun _ _ h => nomatch h

/-- A query answers with the value of the key that filled its tag. -/
theorem Accounted.answer {tag : K → T} {a : Account K T V} {s : TwoLevel K T V}
    (h : Accounted tag a s) (k : K) :
    s.answer tag k = a.contents ((a.filledBy (tag k)).getD k) := by
  rw [TwoLevel.answer, h.fast, h.slow]
  cases hf : a.filledBy (tag k) with
  | none => rfl
  | some k' =>
    obtain ⟨v, hv⟩ := Option.isSome_iff_exists.mp (h.tagged _ _ hf).2
    simp [hv]

variable [DecidableEq K] [DecidableEq T] (tag : K → T)

/-- The effect of one operation. -/
def apply (s : TwoLevel K T V) : Op K T V → TwoLevel K T V
  | .store k v => ⟨Function.update s.fast (tag k) (some v), Function.update s.slow k (some v)⟩
  | .clear => empty
  | .query k => ⟨Function.update s.fast (tag k) (s.answer tag k), s.slow⟩
  | .evict t => ⟨Function.update s.fast t none, s.slow⟩

/-- The cache after a history that starts with empty levels. -/
def run (ops : List (Op K T V)) : TwoLevel K T V := ops.foldl (apply tag) empty

/-- The account after one more operation. -/
def Account.apply (a : Account K T V) : Op K T V → Account K T V
  | .store k v =>
    ⟨Function.update a.contents k (some v), Function.update a.filledBy (tag k) (some k)⟩
  | .clear => empty
  | .query k =>
    ⟨a.contents, Function.update a.filledBy (tag k)
      ((a.filledBy (tag k)).or ((a.contents k).map fun _ => k))⟩
  | .evict t => ⟨a.contents, Function.update a.filledBy t none⟩

/-- The account of a history. -/
def account (ops : List (Op K T V)) : Account K T V := ops.foldl (Account.apply tag) .empty

theorem run_concat (ops : List (Op K T V)) (op : Op K T V) :
    run tag (ops ++ [op]) = (run tag ops).apply tag op := by
  rw [run, List.foldl_append]
  rfl

theorem account_concat (ops : List (Op K T V)) (op : Op K T V) :
    account tag (ops ++ [op]) = (account tag ops).apply tag op := by
  rw [account, List.foldl_append]
  rfl

theorem account_contents (ops : List (Op K T V)) :
    (account tag ops).contents = Write.latest (writes ops) := by
  induction ops using List.reverseRecOn with
  | nil => rfl
  | append_singleton ops op ih =>
    rw [account_concat, writes, List.filterMap_append]
    cases op with
    | store k v =>
      change Function.update (account tag ops).contents k (some v) = _
      rw [ih]
      exact (Write.latest_concat_store _ k v).symm
    | clear => exact (Write.latest_concat_clear _).symm
    | query k => exact ih.trans (congrArg Write.latest (List.append_nil _).symm)
    | evict t => exact ih.trans (congrArg Write.latest (List.append_nil _).symm)

variable {tag}

theorem Account.Tagged.apply {a : Account K T V} (h : a.Tagged tag) (op : Op K T V) :
    (a.apply tag op).Tagged tag := by
  intro t k' hf
  cases op with
  | store k v =>
    by_cases ht : t = tag k
    · subst ht
      simp only [Account.apply, Function.update_self, Option.some.injEq] at hf
      subst hf
      exact ⟨rfl, by simp [Account.apply]⟩
    · simp only [Account.apply, Function.update_of_ne ht] at hf
      obtain ⟨rfl, hsome⟩ := h t k' hf
      refine ⟨rfl, ?_⟩
      have hk : k' ≠ k := fun hk => ht (congrArg tag hk)
      simpa only [Account.apply, Function.update_of_ne hk] using hsome
  | clear => cases hf
  | query k =>
    by_cases ht : t = tag k
    · subst ht
      simp only [Account.apply, Function.update_self, Option.or_eq_some_iff,
        Option.map_eq_some_iff] at hf
      rcases hf with hf | ⟨_, v, hv, rfl⟩
      · exact h _ _ hf
      · exact ⟨rfl, Option.isSome_iff_exists.mpr ⟨v, hv⟩⟩
    · simp only [Account.apply, Function.update_of_ne ht] at hf
      exact h t k' hf
  | evict t' =>
    by_cases ht : t = t'
    · subst ht
      simp only [Account.apply, Function.update_self] at hf
      cases hf
    · simp only [Account.apply, Function.update_of_ne ht] at hf
      exact h t k' hf

/-- Every operation keeps the levels as the account says. -/
theorem Accounted.apply {a : Account K T V} {s : TwoLevel K T V} (h : Accounted tag a s)
    (op : Op K T V) : Accounted tag (a.apply tag op) (s.apply tag op) := by
  refine ⟨?_, fun t => ?_, h.tagged.apply op⟩
  · cases op with
    | store k v => rw [TwoLevel.apply, Account.apply, h.slow]
    | clear => rfl
    | query k => exact h.slow
    | evict t => exact h.slow
  cases op with
  | store k v =>
    by_cases ht : t = tag k
    · subst ht
      simp [TwoLevel.apply, Account.apply]
    · simp only [TwoLevel.apply, Account.apply, Function.update_of_ne ht, h.fast]
      refine Option.bind_congr fun k' hf => ?_
      have hk : k' ≠ k := fun hk => ht ((h.tagged t k' hf).1.symm.trans (congrArg tag hk))
      rw [Function.update_of_ne hk]
  | clear => rfl
  | query k =>
    by_cases ht : t = tag k
    · subst ht
      simp only [TwoLevel.apply, Account.apply, Function.update_self, h.answer]
      cases hf : a.filledBy (tag k) with
      | none => cases hv : a.contents k <;> simp [hv]
      | some k' => rfl
    · simp only [TwoLevel.apply, Account.apply, Function.update_of_ne ht, h.fast]
  | evict t' =>
    by_cases ht : t = t'
    · subst ht
      simp [TwoLevel.apply, Account.apply]
    · simp only [TwoLevel.apply, Account.apply, Function.update_of_ne ht, h.fast]

/-- The cache is always as the account of its history says. -/
theorem accounted_run (ops : List (Op K T V)) : Accounted tag (account tag ops) (run tag ops) := by
  induction ops using List.reverseRecOn with
  | nil => exact accounted_empty tag
  | append_singleton ops op ih =>
    rw [account_concat, run_concat]
    exact ih.apply op

variable (tag) in
/-- A query is answered with the latest value of its own key exactly when the key
that filled its tag has the same latest value. -/
theorem answer_run_eq_latest_iff (ops : List (Op K T V)) (k : K) :
    (run tag ops).answer tag k = Write.latest (writes ops) k ↔
      Write.latest (writes ops) (((account tag ops).filledBy (tag k)).getD k) =
        Write.latest (writes ops) k := by
  rw [(accounted_run ops).answer k, account_contents]

end TwoLevel

end TiktokClone.Library
