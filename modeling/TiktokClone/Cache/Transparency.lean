import TiktokClone.Library.Machine
import TiktokClone.Library.TwoLevel
import TiktokClone.Cache.Contents

/-!
# Eviction transparency

The cache manager is a two-level cache whose slow level has pairs of a key and an
extension for keys and whose fast level has the key alone for tag. Its answers
depend on the evictions wherever one key is used with two extensions that hold
different data.
-/

namespace TiktokClone

open Library

/-- The completed operations on the cache. -/
inductive CacheOperation
  | storeDataToCache (data : Data) (key : String) (fileExtension : Option String)
  | clearCache
  | queryDataFromCache (key : String) (fileExtension : Option String)
  | evict (key : String)
  deriving DecidableEq, Repr

namespace CacheOperation

/-- The operation on the abstract two-level cache. -/
def abstract : CacheOperation → TwoLevel.Op (String × Option String) String Data
  | storeDataToCache data key fileExtension => .store (key, fileExtension) data
  | clearCache => .clear
  | queryDataFromCache key fileExtension => .query (key, fileExtension)
  | evict key => .evict key

/-- The key whose path the operation uses. -/
def key : CacheOperation → Option String
  | storeDataToCache _ key _ | queryDataFromCache key _ => some key
  | clearCache | evict _ => none

end CacheOperation

/-- The cache manager as a machine; an operation that traps has no result. -/
def cacheOperations (sys : CacheSystem) : Machine VideoCacheManager CacheOperation where
  start := .empty
  next m
    | .storeDataToCache data key fileExtension =>
      some (m.storeDataToCache sys (some data) key fileExtension)
    | .clearCache => (m.clearCache sys .none).map Prod.fst
    | .queryDataFromCache key fileExtension => some (m.queryDataFromCache sys key fileExtension).1
    | .evict key => some { m with memoryCache := m.memoryCache.erase key }

/-- The data of the latest store for this pair since the last clear. -/
def latestData (operations : List CacheOperation) (pair : String × Option String) : Option Data :=
  Write.latest (TwoLevel.writes (operations.map CacheOperation.abstract)) pair

/-- The pair whose store or query last filled the memory entry of this pair's key,
or the pair itself when the entry is empty. -/
def filledBy (operations : List CacheOperation) (pair : String × Option String) :
    String × Option String :=
  ((TwoLevel.account Prod.fst (operations.map CacheOperation.abstract)).filledBy pair.1).getD pair

/-- The cache manager refines the abstract two-level cache on the given keys. -/
structure Refines (sys : CacheSystem) (keys : Set String) (m : VideoCacheManager)
    (s : TwoLevel (String × Option String) String Data) : Prop where
  memory : ∀ key, m.memoryCache.lookup key = (s.fast key).map some
  disk : Holds sys keys m s.slow

namespace Refines

variable {sys : CacheSystem} {keys : Set String} {m m' : VideoCacheManager}
  {s : TwoLevel (String × Option String) String Data}

theorem dataFromMemoryCache (h : Refines sys keys m s) (key : String) :
    m.dataFromMemoryCache key = s.fast key := by
  rw [VideoCacheManager.dataFromMemoryCache, h.memory]
  cases s.fast key <;> rfl

/-- Setting an entry of the memory cache updates the fast level. -/
theorem lookup_insert (h : Refines sys keys m s) (key : String) (data : Data) (key' : String) :
    (m.memoryCache.insert key (some data)).lookup key' =
      (Function.update s.fast key (some data) key').map some := by
  by_cases hkey : key' = key
  · subst hkey
    rw [AList.lookup_insert, Function.update_self, Option.map_some]
  · rw [AList.lookup_insert_ne hkey, Function.update_of_ne hkey, h.memory]

/-- The completion handler is called once, with the abstract answer. -/
theorem queryDataFromCache (h : Refines sys keys m s) {key : String} (hkey : key ∈ keys)
    (fileExtension : Option String) :
    (m.queryDataFromCache sys key fileExtension).2 = [s.answer Prod.fst (key, fileExtension)] ∧
      Refines sys keys (m.queryDataFromCache sys key fileExtension).1
        (s.apply Prod.fst (.query (key, fileExtension))) := by
  rw [VideoCacheManager.queryDataFromCache, h.dataFromMemoryCache, h.disk key hkey,
    TwoLevel.apply, TwoLevel.answer]
  cases hfast : s.fast key with
  | some data =>
    refine ⟨rfl, fun key' => ?_, h.disk⟩
    rw [h.memory, Option.some_or, ← hfast, Function.update_eq_self]
  | none =>
    cases hslow : s.slow (key, fileExtension) with
    | some data => exact ⟨rfl, h.lookup_insert key data, h.disk.congr rfl⟩
    | none =>
      refine ⟨rfl, fun key' => ?_, h.disk⟩
      rw [h.memory, Option.none_or, ← hfast, Function.update_eq_self]

/-- Every operation that completes is the abstract operation. -/
theorem next (h : Refines sys keys m s) (hfree : sys.CollisionFree keys)
    {operation : CacheOperation} (hkey : ∀ key, operation.key = some key → key ∈ keys)
    (hn : (cacheOperations sys).next m operation = some m') :
    Refines sys keys m' (s.apply Prod.fst operation.abstract) := by
  cases operation with
  | storeDataToCache data key fileExtension =>
    cases hn
    exact ⟨h.lookup_insert key data, h.disk.storeDataToCache hfree (hkey key rfl) data _⟩
  | clearCache =>
    obtain ⟨⟨_, size⟩, hclear, rfl⟩ := Option.map_eq_some_iff.mp hn
    obtain ⟨hmemory, hdisk⟩ := VideoCacheManager.clearCache_spec hclear
    refine ⟨fun key => ?_, hdisk⟩
    rw [hmemory]
    rfl
  | queryDataFromCache key fileExtension =>
    cases hn
    exact (h.queryDataFromCache (hkey key rfl) fileExtension).2
  | evict key =>
    cases hn
    refine ⟨fun key' => ?_, h.disk.congr rfl⟩
    by_cases hkey' : key' = key
    · subst hkey'
      simp [TwoLevel.apply, CacheOperation.abstract]
    · simp only [TwoLevel.apply, CacheOperation.abstract, AList.lookup_erase_ne hkey',
        Function.update_of_ne hkey', h.memory]

end Refines

/-- The keys whose paths a history uses. -/
def usedKeys (operations : List CacheOperation) : Set String :=
  {key | ∃ operation ∈ operations, operation.key = some key}

/-- The cache manager simulates the abstract cache along every history. -/
theorem refines_of_run {sys : CacheSystem} {keys : Set String} (hfree : sys.CollisionFree keys)
    {operations : List CacheOperation} {m : VideoCacheManager}
    (h : (cacheOperations sys).Run operations m) (hkeys : usedKeys operations ⊆ keys) :
    Refines sys keys m (TwoLevel.run Prod.fst (operations.map CacheOperation.abstract)) := by
  induction h with
  | nil => exact ⟨fun _ => rfl, holds_empty sys keys⟩
  | @snoc operations m operation m' _ hn ih =>
    rw [List.map_append, List.map_singleton, TwoLevel.run_concat]
    refine (ih fun key hkey => hkeys ?_).next hfree (fun key hkey => hkeys ?_) hn
    · obtain ⟨o, ho, he⟩ := hkey
      exact ⟨o, List.mem_append_left _ ho, he⟩
    · exact ⟨operation, List.mem_append_right _ (List.mem_singleton_self _), hkey⟩

/-- Every query of the history is answered with the latest data of its pair. -/
def AnswersLatest (sys : CacheSystem) (operations : List CacheOperation) : Prop :=
  ∀ before key fileExtension,
    before ++ [.queryDataFromCache key fileExtension] <+: operations →
    ∀ m, (cacheOperations sys).Run before m →
      (m.queryDataFromCache sys key fileExtension).2 = [latestData before (key, fileExtension)]

/-- At every query the pair that filled the memory entry of its key has the same
latest data as the pair that is asked for. -/
def FilledAlike (operations : List CacheOperation) : Prop :=
  ∀ before key fileExtension,
    before ++ [.queryDataFromCache key fileExtension] <+: operations →
      latestData before (filledBy before (key, fileExtension)) =
        latestData before (key, fileExtension)

/-- Eviction transparency. The queries of a completed history are answered with the
latest data of their pairs if and only if no query finds the memory entry of its key
filled by a pair with other data. -/
theorem queries_answer_latest_iff {sys : CacheSystem} {operations : List CacheOperation}
    {m : VideoCacheManager} (hfree : sys.CollisionFree (usedKeys operations))
    (hrun : (cacheOperations sys).Run operations m) :
    AnswersLatest sys operations ↔ FilledAlike operations := by
  refine forall₄_congr fun before key fileExtension hprefix => ?_
  obtain ⟨n, hn⟩ := hrun.of_prefix (List.IsPrefix.trans (List.prefix_append _ _) hprefix)
  have hkeys : usedKeys (before ++ [.queryDataFromCache key fileExtension]) ⊆
      usedKeys operations := fun _ ⟨o, ho, he⟩ => ⟨o, hprefix.subset ho, he⟩
  have hrefines := refines_of_run hfree hn fun _ ⟨o, ho, he⟩ =>
    hkeys ⟨o, List.mem_append_left _ ho, he⟩
  have hkey : key ∈ usedKeys operations :=
    hkeys ⟨_, List.mem_append_right _ (List.mem_singleton_self _), rfl⟩
  have hanswer := (hrefines.queryDataFromCache hkey fileExtension).1
  have hiff := TwoLevel.answer_run_eq_latest_iff Prod.fst
    (before.map CacheOperation.abstract) (key, fileExtension)
  constructor
  · intro h
    have := h n hn
    rw [hanswer, List.singleton_inj] at this
    exact hiff.mp this
  · intro h n' hn'
    obtain rfl := hn'.unique hn
    rw [hanswer, List.singleton_inj]
    exact hiff.mpr h

/-- One key with two extensions; the query comes after the memory entry is evicted. -/
def evictedPair : List CacheOperation :=
  [.storeDataToCache [1] "a" (some "mp4"), .storeDataToCache [2] "a" (some "mov"), .evict "a",
    .queryDataFromCache "a" (some "mp4")]

theorem queries_answer_latest_iff_evicted_pair :
    AnswersLatest .twoKeys evictedPair ↔ FilledAlike evictedPair := by
  refine queries_answer_latest_iff (fun key hkey key' hkey' _ => ?_)
    (Machine.run_iff_exec.mpr rfl)
  have honly : ∀ key ∈ usedKeys evictedPair, key = "a" := by
    rintro key ⟨o, ho, he⟩
    simp only [evictedPair, List.mem_cons, List.not_mem_nil, or_false] at ho
    rcases ho with rfl | rfl | rfl | rfl <;> cases he <;> rfl
  rw [honly key hkey, honly key' hkey']

/-- Without the eviction the query for `mp4` is answered with the data of `mov`. -/
theorem query_answers_other_extension :
    ¬ AnswersLatest .twoKeys [.storeDataToCache [1] "a" (some "mp4"),
      .storeDataToCache [2] "a" (some "mov"), .queryDataFromCache "a" (some "mp4")] := by
  intro h
  have := h [.storeDataToCache [1] "a" (some "mp4"), .storeDataToCache [2] "a" (some "mov")]
    "a" (some "mp4") (List.prefix_refl _) _ (Machine.run_iff_exec.mpr rfl)
  exact absurd this (by decide)

end TiktokClone
