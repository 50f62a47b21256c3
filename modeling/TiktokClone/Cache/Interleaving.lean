import TiktokClone.Library.Machine
import TiktokClone.Cache.Clearing

/-!
# Queries beside the queue

Stores, clears and URL queries are jobs on the serial queue, data queries run on
any other thread, and each single operation on the memory cache or on a file is one
step. Every file operation may throw. The log records what the clients can observe,
and when a job first changes the memory cache.
-/

namespace TiktokClone

open Library

/-- The jobs waiting on the queue; clears and queries are numbered. -/
inductive QueueJob
  | storeDataToCache (data : Option Data) (key : String) (fileExtension : Option String)
  | clearCache
  | queryURLFromCache (id : Nat) (key : String) (fileExtension : Option String)
  deriving DecidableEq, Repr

/-- The next step of the job that the queue is running. -/
inductive RunningJob
  | storeDataToMemoryCache (data : Option Data) (key : String) (fileExtension : Option String)
  | storeDataToDiskCache (data : Option Data) (key : String) (fileExtension : Option String)
  | clearMemoryCache (clear : Nat)
  | contentsOfDirectory (clear : Nat)
  | attributesOfItem (clear : Nat) (contents : List String) (folderSize : ℚ)
  | removeItem (clear : Nat) (name : String) (contents : List String) (folderSize : ℚ)
  | dispatchCompletion (clear : Nat) (size : String)
  | queryURLFromCache (id : Nat) (key : String) (fileExtension : Option String)

/-- The next step of a data query. -/
inductive QueryStep
  | dataFromMemoryCache (key : String) (fileExtension : Option String)
  | dataFromDiskCache (key : String) (fileExtension : Option String)
  | storeDataToMemoryCache (data : Data) (key : String)
  deriving DecidableEq, Repr

/-- The entries of the log. -/
inductive CacheLog
  | storeRan
  | memoryCleared (clear : Nat)
  | clearCompleted (clear : Nat)
  | queryStarted (id : Nat)
  /-- A query called its completion, with data or a path if `found`. -/
  | answered (id : Nat) (found : Bool)
  deriving DecidableEq, Repr

/-- The cache with its queue, its queries and the completions on the main queue. -/
structure CacheThreads where
  cache : VideoCacheManager
  queue : List QueueJob
  running : Option RunningJob
  mainQueue : List (Nat × String)
  queries : Nat → Option QueryStep
  /-- How many clears have begun. -/
  clears : Nat
  /-- How many queries have started. -/
  started : Nat
  log : List CacheLog

/-- Calls of the clients, and steps of the queue, of a query, of the main queue and
of the memory cache, which may evict any entry. -/
inductive CacheEvent
  | storeDataToCache (data : Option Data) (key : String) (fileExtension : Option String)
  | clearCache
  | queryURLFromCache (key : String) (fileExtension : Option String)
  | queryDataFromCache (key : String) (fileExtension : Option String)
  | queueStep (throws : Bool)
  | queryStep (id : Nat) (throws : Bool)
  | completionStep
  | evict (key : String)
  deriving DecidableEq, Repr

/-- Either all operations on files throw or none. -/
def FileFaults.all (throws : Bool) : FileFaults :=
  ⟨fun _ => throws, fun _ => throws, fun _ => throws⟩

@[simp] theorem FileFaults.all_false : FileFaults.all false = .none := rfl

namespace CacheThreads

/-- Any cache, with no job and no query. -/
def idle (cache : VideoCacheManager) : CacheThreads where
  cache := cache
  queue := []
  running := none
  mainQueue := []
  queries _ := none
  clears := 0
  started := 0
  log := []

def submit (s : CacheThreads) (job : QueueJob) : CacheThreads :=
  { s with queue := s.queue ++ [job] }

/-- The completion of a query is called and the query ends. -/
def answer (s : CacheThreads) (id : Nat) (found : Bool) : CacheThreads :=
  { s with queries := Function.update s.queries id none, log := s.log ++ [.answered id found] }

/-- The queue takes its next job. -/
def beginJob (s : CacheThreads) : QueueJob → CacheThreads
  | .storeDataToCache data key fileExtension =>
    { s with running := some (.storeDataToMemoryCache data key fileExtension) }
  | .clearCache =>
    { s with running := some (.clearMemoryCache s.clears), clears := s.clears + 1 }
  | .queryURLFromCache id key fileExtension =>
    { s with running := some (.queryURLFromCache id key fileExtension) }

/-- One step of the running job. -/
def jobStep (sys : CacheSystem) (throws : Bool) (s : CacheThreads) :
    RunningJob → Option CacheThreads
  | .storeDataToMemoryCache data key fileExtension =>
    some { s with
      cache := s.cache.storeDataToMemoryCache data key
      running := some (.storeDataToDiskCache data key fileExtension)
      log := s.log ++ [.storeRan] }
  | .storeDataToDiskCache data key fileExtension =>
    some { s with
      cache := if throws then s.cache else s.cache.storeDataToDiskCache sys data key fileExtension
      running := none }
  | .clearMemoryCache clear =>
    some { s with
      cache := s.cache.clearMemoryCache
      running := some (.contentsOfDirectory clear)
      log := s.log ++ [.memoryCleared clear] }
  | .contentsOfDirectory clear =>
    match s.cache.diskCache.contentsOfDirectory (.all throws) sys.diskDirectory with
    | none => some { s with running := some (.dispatchCompletion clear "0") }
    | some contents => some { s with running := some (.attributesOfItem clear contents 0) }
  | .attributesOfItem clear [] folderSize =>
    some { s with
      running := some (.dispatchCompletion clear
        ((sys.format (folderSize / 1024 / 1024)).getD "0")) }
  | .attributesOfItem clear (name :: contents) folderSize =>
    match s.cache.diskCache.attributesOfItem (.all throws) (itemPath sys.diskDirectory name) with
    | none => some { s with running := some (.dispatchCompletion clear "0") }
    | some size =>
      match forcedFloat size with
      | none => none
      | some size =>
        some { s with running := some (.removeItem clear name contents (folderSize + size)) }
  | .removeItem clear name contents folderSize =>
    match s.cache.diskCache.removeItem (.all throws) (itemPath sys.diskDirectory name) with
    | none => some { s with running := some (.dispatchCompletion clear "0") }
    | some diskCache =>
      some { s with
        cache := { s.cache with diskCache := diskCache }
        running := some (.attributesOfItem clear contents folderSize) }
  | .dispatchCompletion clear size =>
    some { s with running := none, mainQueue := s.mainQueue ++ [(clear, size)] }
  | .queryURLFromCache id key fileExtension =>
    some { s with
      running := none
      log := s.log ++ (s.cache.queryURLFromCache sys key fileExtension).map fun path =>
        .answered id path.isSome }

/-- One step of a data query. -/
def queryStep (sys : CacheSystem) (throws : Bool) (s : CacheThreads) (id : Nat) :
    QueryStep → CacheThreads
  | .dataFromMemoryCache key fileExtension =>
    match s.cache.dataFromMemoryCache key with
    | some _ => s.answer id true
    | none =>
      { s with
        queries := Function.update s.queries id (some (.dataFromDiskCache key fileExtension)) }
  | .dataFromDiskCache key fileExtension =>
    match if throws then none else s.cache.dataFromDiskCache sys key fileExtension with
    | some data =>
      { s with queries := Function.update s.queries id (some (.storeDataToMemoryCache data key)) }
    | none => s.answer id false
  | .storeDataToMemoryCache data key =>
    { s with cache := s.cache.storeDataToMemoryCache (some data) key }.answer id true

end CacheThreads

/-- All interleavings, from any contents of the cache. -/
def cacheThreads (sys : CacheSystem) (cache : VideoCacheManager) :
    Machine CacheThreads CacheEvent where
  start := .idle cache
  next s
    | .storeDataToCache data key fileExtension =>
      some (s.submit (.storeDataToCache data key fileExtension))
    | .clearCache => some (s.submit .clearCache)
    | .queryURLFromCache key fileExtension =>
      some { s.submit (.queryURLFromCache s.started key fileExtension) with
        started := s.started + 1
        log := s.log ++ [.queryStarted s.started] }
    | .queryDataFromCache key fileExtension =>
      some { s with
        queries :=
          Function.update s.queries s.started (some (.dataFromMemoryCache key fileExtension))
        started := s.started + 1
        log := s.log ++ [.queryStarted s.started] }
    | .queueStep throws =>
      match s.running, s.queue with
      | some job, _ => s.jobStep sys throws job
      | none, job :: jobs => some ({ s with queue := jobs }.beginJob job)
      | none, [] => none
    | .queryStep id throws =>
      match s.queries id with
      | none => none
      | some step => some (s.queryStep sys throws id step)
    | .completionStep =>
      match s.mainQueue with
      | [] => none
      | (clear, _) :: mainQueue =>
        some { s with mainQueue := mainQueue, log := s.log ++ [.clearCompleted clear] }
    | .evict key =>
      some { s with cache := { s.cache with memoryCache := s.cache.memoryCache.erase key } }

/-! ### Steps without interleaving -/

section Alone

variable {sys : CacheSystem} {cache : VideoCacheManager} {s : CacheThreads}

/-- The two steps of a store amount to `storeDataToCache`. -/
theorem storeDataToCache_alone {data : Option Data} {key : String} {fileExtension : Option String}
    (hrunning : s.running = some (.storeDataToMemoryCache data key fileExtension)) :
    (cacheThreads sys cache).execFrom s [.queueStep false, .queueStep false] =
      some { s with
        cache := s.cache.storeDataToCache sys data key fileExtension
        running := none
        log := s.log ++ [.storeRan] } := by
  simp only [Machine.execFrom, cacheThreads, hrunning, CacheThreads.jobStep, Option.bind_some]
  rfl

/-- The steps of the loop amount to `clearContents`. -/
theorem clearContents_alone {clear : Nat} {names : List String} {total folderSize : ℚ}
    {diskCache : FileManager}
    (hrunning : s.running = some (.attributesOfItem clear names total))
    (hcleared : s.cache.diskCache.clearContents .none sys.diskDirectory names total =
      .cleared diskCache folderSize) :
    (cacheThreads sys cache).execFrom s (.replicate (2 * names.length + 1) (.queueStep false)) =
      some { s with
        cache := { s.cache with diskCache := diskCache }
        running := some (.dispatchCompletion clear
          ((sys.format (folderSize / 1024 / 1024)).getD "0")) } := by
  induction names generalizing s total with
  | nil =>
    cases hcleared
    simp only [List.length_nil, List.replicate, Machine.execFrom, cacheThreads, hrunning,
      CacheThreads.jobStep, Option.bind_some]
  | cons name names ih =>
    rw [FileManager.clearContents] at hcleared
    split at hcleared
    · cases hcleared
    · rename_i size hsize
      split at hcleared
      · cases hcleared
      · rename_i x hcast
        split at hcleared
        · cases hcleared
        · rename_i removed hremove
          have hsize' : s.cache.diskCache.attributesOfItem (.all false)
            (itemPath sys.diskDirectory name) = some size := hsize
          have hremove' : s.cache.diskCache.removeItem (.all false)
            (itemPath sys.diskDirectory name) = some removed := hremove
          have hrest := ih (s := { s with
            cache := { s.cache with diskCache := removed }
            running := some (.attributesOfItem clear names (total + x)) }) rfl hcleared
          have hlength : 2 * (name :: names).length + 1 = 2 * names.length + 1 + 1 + 1 := by
            rw [List.length_cons]
            omega
          rw [hlength, List.replicate_succ, List.replicate_succ]
          simp only [Machine.execFrom_cons, cacheThreads, hrunning, CacheThreads.jobStep, hsize',
            hcast, hremove', Option.bind_some]
          exact hrest

/-- The steps of a clear amount to `clearCache`. -/
theorem clearCache_alone {clear : Nat} {m : VideoCacheManager} {size : String}
    (hrunning : s.running = some (.clearMemoryCache clear))
    (hcleared : s.cache.clearCache sys .none = some (m, size)) :
    ∃ n, (cacheThreads sys cache).execFrom s (.replicate n (.queueStep false)) =
      some { s with
        cache := m
        running := some (.dispatchCompletion clear size)
        log := s.log ++ [.memoryCleared clear] } := by
  obtain ⟨names, hnames⟩ : ∃ names, s.cache.diskCache.contentsOfDirectory .none
    sys.diskDirectory = some names := ⟨_, rfl⟩
  have hnames' : s.cache.clearMemoryCache.diskCache.contentsOfDirectory (.all false)
    sys.diskDirectory = some names := hnames
  rw [VideoCacheManager.clearCache, VideoCacheManager.clearDiskCache] at hcleared
  simp only [VideoCacheManager.clearMemoryCache, hnames] at hcleared
  split at hcleared
  · cases hcleared
  · rename_i diskCache hloop
    have hnone := FileManager.clearContents_none hnames
    rw [hloop] at hnone
    split at hnone <;> cases hnone
  · rename_i diskCache folderSize hloop
    cases hcleared
    refine ⟨2 * names.length + 1 + 1 + 1, ?_⟩
    rw [List.replicate_succ, List.replicate_succ]
    simp only [Machine.execFrom_cons, cacheThreads, hrunning, CacheThreads.jobStep, hnames',
      Option.bind_some]
    exact clearContents_alone rfl hloop

/-- The steps of a data query amount to `queryDataFromCache`. -/
theorem queryDataFromCache_alone {id : Nat} {key : String} {fileExtension : Option String}
    (hquery : s.queries id = some (.dataFromMemoryCache key fileExtension)) :
    ∃ n, ((cacheThreads sys cache).execFrom s (.replicate n (.queryStep id false))).map
        (fun t => (t.cache, t.log)) =
      some ((s.cache.queryDataFromCache sys key fileExtension).1,
        s.log ++ (s.cache.queryDataFromCache sys key fileExtension).2.map fun data =>
          .answered id data.isSome) := by
  rw [VideoCacheManager.queryDataFromCache]
  cases hmemory : s.cache.dataFromMemoryCache key with
  | some data =>
    refine ⟨1, ?_⟩
    simp only [List.replicate, Machine.execFrom, cacheThreads, hquery, CacheThreads.queryStep,
      hmemory, Option.bind_some]
    rfl
  | none =>
    cases hdisk : s.cache.dataFromDiskCache sys key fileExtension with
    | some data =>
      refine ⟨3, ?_⟩
      simp only [List.replicate, Machine.execFrom, cacheThreads, hquery, CacheThreads.queryStep,
        hmemory, hdisk, Function.update_self, Option.bind_some, Bool.false_eq_true, if_false]
      rfl
    | none =>
      refine ⟨2, ?_⟩
      simp only [List.replicate, Machine.execFrom, cacheThreads, hquery, CacheThreads.queryStep,
        hmemory, hdisk, Function.update_self, Option.bind_some, Bool.false_eq_true, if_false]
      rfl

end Alone

end TiktokClone
