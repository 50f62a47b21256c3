import TiktokClone.Cache.Interleaving

/-!
# Where cached data come from

Stores, clears, evictions and queries interleave step by step, and file operations may throw.
If the cache was empty at first, whatever is in memory, on disk or in the hands of a query was
stored for its key, as long as the digests of the keys in use do not collide.
-/

namespace TiktokClone

open Library

/-- The key of a call of the clients. -/
def CacheEvent.key : CacheEvent → Option String
  | storeDataToCache _ key _ | queryURLFromCache key _ | queryDataFromCache key _ => some key
  | clearCache | queueStep _ | queryStep _ _ | completionStep | evict _ => none

/-- A client has stored these data for the pair; absent data make an empty file. -/
def StoredAs (events : List CacheEvent) (key : String) (fileExtension : Option String)
    (data : Data) : Prop :=
  ∃ contents, .storeDataToCache contents key fileExtension ∈ events ∧ contents.getD [] = data

/-- A client has stored these data for the key, under some extension. -/
def StoredFor (events : List CacheEvent) (key : String) (data : Data) : Prop :=
  ∃ fileExtension, StoredAs events key fileExtension data

/-- What a query hands to its completion by its next step, with the key it was asked for. -/
def QueryStep.answer (m : VideoCacheManager) : QueryStep → Option (String × Data)
  | dataFromMemoryCache key _ => (m.dataFromMemoryCache key).map fun data => (key, data)
  | dataFromDiskCache _ _ => none
  | storeDataToMemoryCache data key => some (key, data)

/-- A query asks for one of the keys, and what it has read was stored for its key. -/
def QueryStep.Stems (keys : Set String) (events : List CacheEvent) : QueryStep → Prop
  | dataFromMemoryCache key _ | dataFromDiskCache key _ => key ∈ keys
  | storeDataToMemoryCache data key => StoredFor events key data

/-- The call of a store that a running job stems from. -/
def RunningJob.storing : RunningJob → Option CacheEvent
  | storeDataToMemoryCache data key fileExtension | storeDataToDiskCache data key fileExtension =>
    some (.storeDataToCache data key fileExtension)
  | clearMemoryCache _ | contentsOfDirectory _ | attributesOfItem _ _ _ | removeItem _ _ _ _
  | dispatchCompletion _ _ | queryURLFromCache _ _ _ => none

/-- Everything in the cache and on its way stems from a store for its key. -/
structure Stems (sys : CacheSystem) (keys : Set String) (events : List CacheEvent)
    (s : CacheThreads) : Prop where
  queue : ∀ data key fileExtension, .storeDataToCache data key fileExtension ∈ s.queue →
    .storeDataToCache data key fileExtension ∈ events
  running : ∀ job call, s.running = some job → job.storing = some call → call ∈ events
  memory : ∀ key data, s.cache.memoryCache.lookup key = some (some data) →
    StoredFor events key data
  disk : ∀ key ∈ keys, ∀ fileExtension data,
    s.cache.dataFromDiskCache sys key fileExtension = some data →
      StoredAs events key fileExtension data
  queries : ∀ id step, s.queries id = some step → step.Stems keys events

section Stems

variable {sys : CacheSystem} {keys : Set String} {events : List CacheEvent} {s t : CacheThreads}
  {e : CacheEvent}

theorem StoredAs.concat {key : String} {fileExtension : Option String} {data : Data}
    (h : StoredAs events key fileExtension data) (e : CacheEvent) :
    StoredAs (events ++ [e]) key fileExtension data :=
  h.imp fun _ hc => ⟨List.mem_append_left _ hc.1, hc.2⟩

theorem StoredFor.concat {key : String} {data : Data} (h : StoredFor events key data)
    (e : CacheEvent) : StoredFor (events ++ [e]) key data :=
  h.imp fun _ hs => hs.concat e

/-- One more label of the history. -/
theorem Stems.concat (h : Stems sys keys events s) (e : CacheEvent) :
    Stems sys keys (events ++ [e]) s where
  queue data key fileExtension hm := List.mem_append_left _ (h.queue data key fileExtension hm)
  running job call hr hc := List.mem_append_left _ (h.running job call hr hc)
  memory key data hl := (h.memory key data hl).concat e
  disk key hkey fileExtension data hd := (h.disk key hkey fileExtension data hd).concat e
  queries id step hq := by
    have hstep := h.queries id step hq
    cases step with
    | dataFromMemoryCache key fileExtension => exact hstep
    | dataFromDiskCache key fileExtension => exact hstep
    | storeDataToMemoryCache data key => exact StoredFor.concat hstep e

theorem stems_idle (sys : CacheSystem) (keys : Set String) :
    Stems sys keys [] (.idle .empty) where
  queue _ _ _ hm := absurd hm List.not_mem_nil
  running _ _ hr := nomatch hr
  memory _ _ hl := nomatch hl
  disk _ _ _ _ hd := nomatch hd
  queries _ _ hq := nomatch hq

/-- A store in memory is for the key of its call. -/
theorem Stems.memory_insert (h : Stems sys keys events s) {key : String} {contents : Option Data}
    (hstored : ∀ data, contents = some data → StoredFor events key data) (key' : String)
    (data : Data)
    (hl : (s.cache.storeDataToMemoryCache contents key).memoryCache.lookup key' =
      some (some data)) : StoredFor events key' data := by
  rw [VideoCacheManager.storeDataToMemoryCache] at hl
  by_cases he : key' = key
  · subst he
    rw [AList.lookup_insert, Option.some.injEq] at hl
    exact hstored data hl
  · rw [AList.lookup_insert_ne he] at hl
    exact h.memory key' data hl

/-- A file on disk is for the pair of its call. -/
theorem Stems.disk_createFile (h : Stems sys keys events s) (hfree : sys.CollisionFree keys)
    {key : String} (hkey : key ∈ keys) {fileExtension : Option String} {contents : Option Data}
    (hcall : .storeDataToCache contents key fileExtension ∈ events) {key' : String}
    (hkey' : key' ∈ keys) {fileExtension' : Option String} {data : Data}
    (hd : (s.cache.storeDataToDiskCache sys contents key fileExtension).dataFromDiskCache sys key'
      fileExtension' = some data) : StoredAs events key' fileExtension' data := by
  rcases FileManager.contents_createFile hd with ⟨hpath, rfl⟩ | hold
  · obtain ⟨rfl, rfl⟩ := Prod.mk.inj ((hfree.path_inj hkey' hkey).mp hpath)
    exact ⟨contents, hcall, rfl⟩
  · exact h.disk key' hkey' fileExtension' data hold

/-- A job waits behind the others. -/
theorem Stems.enqueue (h : Stems sys keys events s) {job : QueueJob}
    (hjob : ∀ data key fileExtension, job = .storeDataToCache data key fileExtension →
      CacheEvent.storeDataToCache data key fileExtension ∈ events)
    (hqueue : t.queue = s.queue ++ [job]) (hrunning : t.running = s.running)
    (hcache : t.cache = s.cache) (hqueries : t.queries = s.queries) :
    Stems sys keys events t where
  queue data key fileExtension hm := by
    rw [hqueue, List.mem_append, List.mem_singleton] at hm
    rcases hm with hold | hnew
    · exact h.queue data key fileExtension hold
    · exact hjob data key fileExtension hnew.symm
  running := hrunning ▸ h.running
  memory := hcache ▸ h.memory
  disk := hcache ▸ h.disk
  queries := hqueries ▸ h.queries

/-- A step that changes the running job at most, to one that stores nothing. -/
theorem Stems.congr (h : Stems sys keys events s) (hqueue : t.queue = s.queue)
    (hqueries : t.queries = s.queries)
    (hrunning : ∀ job call, t.running = some job → job.storing = some call → call ∈ events)
    (hmemory : t.cache.memoryCache = s.cache.memoryCache)
    (hdisk : ∀ path data, t.cache.diskCache.contents path = some data →
      s.cache.diskCache.contents path = some data) : Stems sys keys events t where
  queue := hqueue ▸ h.queue
  running := hrunning
  memory := hmemory ▸ h.memory
  disk key hkey fileExtension data hd := h.disk key hkey fileExtension data (hdisk _ _ hd)
  queries := hqueries ▸ h.queries

theorem Stems.jobStep (h : Stems sys keys events s) (hfree : sys.CollisionFree keys)
    (hkeys : ∀ e ∈ events, ∀ key, e.key = some key → key ∈ keys) {throws : Bool}
    {job : RunningJob} (hrunning : s.running = some job)
    (ht : s.jobStep sys throws job = some t) : Stems sys keys events t := by
  cases job with
  | storeDataToMemoryCache data key fileExtension =>
    have hcall := h.running _ _ hrunning rfl
    obtain rfl := Option.some.inj ht
    refine ⟨h.queue, ?_, h.memory_insert ?_, h.disk, h.queries⟩
    · rintro _ _ ⟨⟩ ⟨⟩
      exact hcall
    · rintro data rfl
      exact ⟨fileExtension, _, hcall, rfl⟩
  | storeDataToDiskCache data key fileExtension =>
    have hcall := h.running _ _ hrunning rfl
    obtain rfl := Option.some.inj ht
    cases throws with
    | true => exact h.congr rfl rfl (fun _ _ hr => by cases hr) rfl fun _ _ hd => hd
    | false =>
      refine ⟨h.queue, by rintro _ _ ⟨⟩, h.memory, fun key' hkey' fileExtension' data' hd => ?_,
        h.queries⟩
      exact h.disk_createFile hfree (hkeys _ hcall _ rfl) hcall hkey' hd
  | clearMemoryCache clear =>
    obtain rfl := Option.some.inj ht
    refine ⟨h.queue, ?_, by rintro _ _ ⟨⟩, h.disk, h.queries⟩
    rintro _ _ ⟨⟩ ⟨⟩
  | contentsOfDirectory clear =>
    simp only [CacheThreads.jobStep] at ht
    split at ht <;> obtain rfl := Option.some.inj ht
    all_goals refine h.congr rfl rfl ?_ rfl fun _ _ hd => hd
    all_goals rintro _ _ ⟨⟩ ⟨⟩
  | attributesOfItem clear names folderSize =>
    have hnext : ∀ next : RunningJob, next.storing = none →
        Stems sys keys events { s with running := some next } := by
      intro next hnone
      refine h.congr rfl rfl ?_ rfl fun _ _ hd => hd
      rintro _ _ ⟨⟩ hc
      rw [hnone] at hc
      cases hc
    cases names with
    | nil =>
      obtain rfl := Option.some.inj ht
      exact hnext _ rfl
    | cons name names =>
      simp only [CacheThreads.jobStep] at ht
      split at ht
      · obtain rfl := Option.some.inj ht
        exact hnext _ rfl
      · split at ht
        · cases ht
        · obtain rfl := Option.some.inj ht
          exact hnext _ rfl
  | removeItem clear name names folderSize =>
    simp only [CacheThreads.jobStep] at ht
    split at ht
    · obtain rfl := Option.some.inj ht
      refine h.congr rfl rfl ?_ rfl fun _ _ hd => hd
      rintro _ _ ⟨⟩ ⟨⟩
    · rename_i diskCache hremove
      obtain rfl := Option.some.inj ht
      refine h.congr rfl rfl ?_ rfl fun _ _ hd => FileManager.contents_removeItem hremove hd
      rintro _ _ ⟨⟩ ⟨⟩
  | dispatchCompletion clear size =>
    obtain rfl := Option.some.inj ht
    exact h.congr rfl rfl (fun _ _ hr => by cases hr) rfl fun _ _ hd => hd
  | queryURLFromCache id key fileExtension =>
    obtain rfl := Option.some.inj ht
    exact h.congr rfl rfl (fun _ _ hr => by cases hr) rfl fun _ _ hd => hd

/-- One query goes on or ends. -/
theorem Stems.update (h : Stems sys keys events s) {id : Nat} {step : Option QueryStep}
    (hstep : ∀ next, step = some next → next.Stems keys events)
    (hqueries : t.queries = Function.update s.queries id step) (hqueue : t.queue = s.queue)
    (hrunning : t.running = s.running) (hdisk : t.cache.diskCache = s.cache.diskCache)
    (hmemory : ∀ key data, t.cache.memoryCache.lookup key = some (some data) →
      StoredFor events key data) : Stems sys keys events t where
  queue := hqueue ▸ h.queue
  running := hrunning ▸ h.running
  memory := hmemory
  disk key hkey fileExtension data hd := by
    rw [VideoCacheManager.dataFromDiskCache, hdisk] at hd
    exact h.disk key hkey fileExtension data hd
  queries id' next hq := by
    rw [hqueries, Function.update_apply] at hq
    split at hq
    · exact hstep next hq
    · exact h.queries id' next hq

theorem Stems.queryStep (h : Stems sys keys events s) {throws : Bool} {id : Nat}
    {step : QueryStep} (hstep : s.queries id = some step) :
    Stems sys keys events (s.queryStep sys throws id step) := by
  have hstems := h.queries id step hstep
  cases step with
  | dataFromMemoryCache key fileExtension =>
    rw [CacheThreads.queryStep]
    split
    · exact h.update (by rintro _ ⟨⟩) rfl rfl rfl rfl h.memory
    · refine h.update ?_ rfl rfl rfl rfl h.memory
      rintro _ ⟨⟩
      exact hstems
  | dataFromDiskCache key fileExtension =>
    rw [CacheThreads.queryStep]
    split
    · rename_i data hread
      have hd : s.cache.dataFromDiskCache sys key fileExtension = some data := by
        cases throws with
        | true => cases hread
        | false => exact hread
      refine h.update ?_ rfl rfl rfl rfl h.memory
      rintro _ ⟨⟩
      exact ⟨fileExtension, h.disk key hstems fileExtension data hd⟩
    · exact h.update (by rintro _ ⟨⟩) rfl rfl rfl rfl h.memory
  | storeDataToMemoryCache data key =>
    refine h.update (by rintro _ ⟨⟩) rfl rfl rfl rfl (h.memory_insert ?_)
    rintro _ ⟨⟩
    exact hstems

theorem Stems.next (h : Stems sys keys events s) (hfree : sys.CollisionFree keys)
    (hkeys : ∀ e' ∈ events ++ [e], ∀ key, e'.key = some key → key ∈ keys)
    (hn : (cacheThreads sys .empty).next s e = some t) : Stems sys keys (events ++ [e]) t := by
  have hs := h.concat e
  have hlast : ∀ key, e.key = some key → key ∈ keys :=
    hkeys e (List.mem_append_right _ (List.mem_singleton_self e))
  cases e with
  | storeDataToCache data key fileExtension =>
    obtain rfl := Option.some.inj hn
    refine hs.enqueue (fun data' key' fileExtension' he => ?_) rfl rfl rfl rfl
    cases he
    exact List.mem_append_right _ (List.mem_singleton_self _)
  | clearCache =>
    obtain rfl := Option.some.inj hn
    exact hs.enqueue (fun _ _ _ he => by cases he) rfl rfl rfl rfl
  | queryURLFromCache key fileExtension =>
    obtain rfl := Option.some.inj hn
    exact hs.enqueue (fun _ _ _ he => by cases he) rfl rfl rfl rfl
  | queryDataFromCache key fileExtension =>
    obtain rfl := Option.some.inj hn
    refine hs.update ?_ rfl rfl rfl rfl hs.memory
    rintro _ ⟨⟩
    exact hlast key rfl
  | queueStep throws =>
    simp only [cacheThreads] at hn
    split at hn
    · rename_i job hrunning
      exact hs.jobStep hfree hkeys hrunning hn
    · rename_i job jobs _ hqueue
      obtain rfl := Option.some.inj hn
      have hrest : ∀ data key fileExtension, .storeDataToCache data key fileExtension ∈ jobs →
          CacheEvent.storeDataToCache data key fileExtension ∈ events ++ [.queueStep throws] :=
        fun data key fileExtension hm =>
          hs.queue data key fileExtension (hqueue ▸ List.mem_cons_of_mem _ hm)
      cases job with
      | storeDataToCache data key fileExtension =>
        refine ⟨hrest, ?_, hs.memory, hs.disk, hs.queries⟩
        rintro _ _ ⟨⟩ ⟨⟩
        exact hs.queue data key fileExtension (hqueue ▸ List.mem_cons_self)
      | clearCache =>
        refine ⟨hrest, ?_, hs.memory, hs.disk, hs.queries⟩
        rintro _ _ ⟨⟩ ⟨⟩
      | queryURLFromCache id key fileExtension =>
        refine ⟨hrest, ?_, hs.memory, hs.disk, hs.queries⟩
        rintro _ _ ⟨⟩ ⟨⟩
    · cases hn
  | queryStep id throws =>
    simp only [cacheThreads] at hn
    split at hn
    · cases hn
    · rename_i step hstep
      obtain rfl := Option.some.inj hn
      exact hs.queryStep hstep
  | completionStep =>
    simp only [cacheThreads] at hn
    split at hn
    · cases hn
    · obtain rfl := Option.some.inj hn
      exact ⟨hs.queue, hs.running, hs.memory, hs.disk, hs.queries⟩
  | evict key =>
    obtain rfl := Option.some.inj hn
    refine ⟨hs.queue, hs.running, fun key' data hl => ?_, hs.disk, hs.queries⟩
    by_cases he : key' = key
    · subst he
      rw [AList.lookup_erase] at hl
      cases hl
    · rw [AList.lookup_erase_ne he] at hl
      exact hs.memory key' data hl

theorem stems_of_run (hfree : sys.CollisionFree keys) (h : (cacheThreads sys .empty).Run events s)
    (hkeys : ∀ e ∈ events, ∀ key, e.key = some key → key ∈ keys) : Stems sys keys events s := by
  induction h with
  | nil => exact stems_idle sys keys
  | snoc _ hn ih =>
    exact (ih fun e hm => hkeys e (List.mem_append_left _ hm)).next hfree hkeys hn

/-- No answer out of thin air. In every interleaving of stores, clears, evictions and queries
from an empty cache, with any file operation throwing, what a query hands to its completion
was stored for the key that it asked for, what is in memory under a key was stored for it, and
a file was stored for its pair, as long as the digests of the keys in use do not collide. -/
theorem answers_were_stored (hfree : sys.CollisionFree keys)
    (h : (cacheThreads sys .empty).Run events s)
    (hkeys : ∀ e ∈ events, ∀ key, e.key = some key → key ∈ keys) :
    (∀ id step key data, s.queries id = some step → step.answer s.cache = some (key, data) →
      StoredFor events key data) ∧
    (∀ key data, s.cache.dataFromMemoryCache key = some data → StoredFor events key data) ∧
    ∀ key ∈ keys, ∀ fileExtension data,
      s.cache.dataFromDiskCache sys key fileExtension = some data →
        StoredAs events key fileExtension data := by
  have hs := stems_of_run hfree h hkeys
  have hmemory : ∀ key data, s.cache.dataFromMemoryCache key = some data →
      StoredFor events key data :=
    fun key data hd => hs.memory key data (Option.join_eq_some_iff.mp hd)
  refine ⟨fun id step key data hstep hanswer => ?_, hmemory, hs.disk⟩
  cases step with
  | dataFromMemoryCache key' fileExtension =>
    obtain ⟨data', hdata, he⟩ := Option.map_eq_some_iff.mp hanswer
    obtain ⟨rfl, rfl⟩ := Prod.mk.inj he
    exact hmemory _ _ hdata
  | dataFromDiskCache key' fileExtension => cases hanswer
  | storeDataToMemoryCache data' key' =>
    obtain ⟨rfl, rfl⟩ := Prod.mk.inj (Option.some.inj hanswer)
    exact hs.queries id _ hstep

end Stems

/-- A video is stored and evicted from memory; a query reads it back from disk. -/
def readBack : List CacheEvent :=
  [.storeDataToCache (some [1]) "a" none, .queueStep false, .queueStep false, .queueStep false,
    .evict "a", .queryDataFromCache "a" none, .queryStep 0 false, .queryStep 0 false]

theorem answers_were_stored_readBack : ∃ s : CacheThreads,
    s.queries 0 = some (.storeDataToMemoryCache [1] "a") ∧ StoredFor readBack "a" [1] := by
  obtain ⟨s, hs, hquery⟩ : ∃ s, (cacheThreads .twoKeys .empty).Run readBack s ∧
      s.queries 0 = some (.storeDataToMemoryCache [1] "a") :=
    ⟨_, Machine.run_iff_exec.mpr rfl, rfl⟩
  have hfree : CacheSystem.twoKeys.CollisionFree {"a"} := by
    rintro _ rfl _ rfl _
    rfl
  have hkeys : ∀ e ∈ readBack, ∀ key, e.key = some key → key ∈ ({"a"} : Set String) := by
    intro e hm key hkey
    have hall : ∀ e ∈ readBack, e.key = none ∨ e.key = some "a" := by decide
    rcases hall e hm with he | he
    · rw [he] at hkey
      cases hkey
    · rw [he] at hkey
      exact (Option.some.inj hkey).symm
  exact ⟨s, hquery, (answers_were_stored hfree hs hkeys).1 0 _ "a" [1] hquery rfl⟩

end TiktokClone
