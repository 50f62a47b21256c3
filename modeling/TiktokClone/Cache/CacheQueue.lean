import TiktokClone.Library.SerialQueue
import TiktokClone.Cache.Contents

/-!
# The cache's serial queue

Stores, clears and URL queries of any number of clients are jobs on one serial
queue. The files on disk are the fold of the jobs that have run, so a URL query
finds a path exactly when the last store or clear of its pair is a store.
-/

namespace TiktokClone

open Library

/-- The jobs that the clients submit. -/
inductive CacheJob
  | storeDataToCache (data : Data) (key : String) (fileExtension : Option String)
  | clearCache
  | queryURLFromCache (key : String) (fileExtension : Option String)
  deriving DecidableEq, Repr

/-- What a job hands back: the completion calls of a query, the size of a clear. -/
inductive CacheResult
  | stored
  | cleared (size : String)
  | completions (calls : List (Option String))
  deriving DecidableEq, Repr

namespace CacheJob

/-- The change that the job makes to the stored contents. -/
def write : CacheJob → Option (Write (String × Option String) Data)
  | storeDataToCache data key fileExtension => some (.store (key, fileExtension) data)
  | clearCache => some .clear
  | queryURLFromCache _ _ => none

/-- The stores and clears among the jobs. -/
def writes (jobs : List CacheJob) : List (Write (String × Option String) Data) :=
  jobs.filterMap write

/-- The job uses the path of this key. -/
def Uses (key : String) : CacheJob → Prop
  | storeDataToCache _ key' _ | queryURLFromCache key' _ => key' = key
  | clearCache => False

/-- The keys that the jobs use. -/
def usedKeys (jobs : List CacheJob) : Set String := {key | ∃ job ∈ jobs, job.Uses key}

theorem usedKeys_mono {jobs jobs' : List CacheJob} (h : jobs ⊆ jobs') :
    usedKeys jobs ⊆ usedKeys jobs' := fun _ ⟨job, hjob, huses⟩ => ⟨job, h hjob, huses⟩

/-- A stored file gets a size that `clearDiskCache` can read. -/
def Readable : CacheJob → Prop
  | storeDataToCache data _ _ => (forcedFloat data.length).isSome = true
  | clearCache | queryURLFromCache _ _ => True

/-- Run one job on the queue. -/
def execute (sys : CacheSystem) (m : VideoCacheManager) :
    CacheJob → Option (VideoCacheManager × CacheResult)
  | storeDataToCache data key fileExtension =>
    some (m.storeDataToCache sys (some data) key fileExtension, .stored)
  | clearCache =>
    match m.clearCache sys .none with
    | none => none
    | some (m, size) => some (m, .cleared size)
  | queryURLFromCache key fileExtension =>
    some (m, .completions (m.queryURLFromCache sys key fileExtension))

end CacheJob

/-- The serial queue of the cache of a new installation. -/
def cacheQueue (sys : CacheSystem) :
    Machine (SerialQueue VideoCacheManager CacheJob CacheResult) (SerialQueue.Event CacheJob) :=
  SerialQueue.machine .empty (CacheJob.execute sys)

/-- The jobs executed one after another. -/
def cacheJobs (sys : CacheSystem) : Machine VideoCacheManager CacheJob :=
  SerialQueue.sequential .empty (CacheJob.execute sys)

namespace VideoCacheManager

variable {sys : CacheSystem} {m m' : VideoCacheManager}

theorem readableSizes_empty (sys : CacheSystem) : ReadableSizes sys .empty := by
  intro name
  rw [FileManager.ReadableSize]
  rfl

/-- A store of a readable file keeps all sizes readable. -/
theorem ReadableSizes.storeDataToCache (h : m.ReadableSizes sys) {data : Data}
    (hdata : (forcedFloat data.length).isSome = true) (key : String)
    (fileExtension : Option String) :
    (m.storeDataToCache sys (some data) key fileExtension).ReadableSizes sys := by
  intro name
  have hstored : (m.storeDataToCache sys (some data) key fileExtension).diskCache.contents
      (itemPath sys.diskDirectory name) = AList.lookup (itemPath sys.diskDirectory name)
        (m.diskCache.files.insert (sys.diskCachePathForKey key fileExtension) data) := rfl
  rw [FileManager.ReadableSize, FileManager.size, hstored]
  by_cases hpath : itemPath sys.diskDirectory name = sys.diskCachePathForKey key fileExtension
  · rw [hpath, AList.lookup_insert]
    exact hdata
  · rw [AList.lookup_insert_ne hpath]
    exact h name

theorem ReadableSizes.clearCache {size : String}
    (h : m.clearCache sys .none = some (m', size)) : m'.ReadableSizes sys := by
  intro name
  rw [FileManager.ReadableSize, FileManager.size, (clearDiskCache_spec h).2]
  rfl

end VideoCacheManager

/-- What holds after a sequence of jobs: the files are the latest stores, and a
clear can read their sizes. -/
structure Filed (sys : CacheSystem) (keys : Set String) (jobs : List CacheJob)
    (m : VideoCacheManager) : Prop where
  holds : Holds sys keys m (Write.latest (CacheJob.writes jobs))
  readable : m.ReadableSizes sys

namespace Filed

variable {sys : CacheSystem} {keys : Set String} {jobs : List CacheJob} {m m' : VideoCacheManager}

theorem writes_concat (jobs : List CacheJob) (job : CacheJob) :
    CacheJob.writes (jobs ++ [job]) = CacheJob.writes jobs ++ job.write.toList := by
  rw [CacheJob.writes, List.filterMap_append]
  cases h : job.write <;> simp [h, CacheJob.writes]

/-- Every job runs, and keeps the files as the jobs so far say. -/
theorem execute (h : Filed sys keys jobs m) (hfree : sys.CollisionFree keys) {job : CacheJob}
    (hkeys : ∀ key, job.Uses key → key ∈ keys) (hreadable : job.Readable) :
    ∃ m' result, job.execute sys m = some (m', result) ∧ Filed sys keys (jobs ++ [job]) m' := by
  cases job with
  | storeDataToCache data key fileExtension =>
    refine ⟨_, _, rfl, ?_, h.readable.storeDataToCache hreadable key fileExtension⟩
    rw [writes_concat, CacheJob.write, Option.toList_some, Write.latest_concat_store]
    exact h.holds.storeDataToCache hfree (hkeys key rfl) data fileExtension
  | clearCache =>
    have hclears : (m.clearCache sys .none).isSome = true :=
      VideoCacheManager.clearDiskCache_isSome h.readable
    obtain ⟨⟨m', size⟩, hclear⟩ := Option.isSome_iff_exists.mp hclears
    refine ⟨m', .cleared size, by simp only [CacheJob.execute, hclear], ?_,
      VideoCacheManager.ReadableSizes.clearCache hclear⟩
    rw [writes_concat, CacheJob.write, Option.toList_some, Write.latest_concat_clear]
    exact (VideoCacheManager.clearCache_spec hclear).2
  | queryURLFromCache key fileExtension =>
    refine ⟨_, _, rfl, ?_, h.readable⟩
    rw [writes_concat, CacheJob.write, Option.toList_none, List.append_nil]
    exact h.holds

/-- A query's completion is called once, with the path if a store is the last word. -/
theorem queryURLFromCache (h : Filed sys keys jobs m) {key : String} (hkey : key ∈ keys)
    (fileExtension : Option String) :
    (∃ data, Write.LastStores (CacheJob.writes jobs) (key, fileExtension) data ∧
      m.queryURLFromCache sys key fileExtension =
        [some (sys.diskCachePathForKey key fileExtension)] ∧
      m.diskCache.contents (sys.diskCachePathForKey key fileExtension) = some data) ∨
    (∀ data, ¬ Write.LastStores (CacheJob.writes jobs) (key, fileExtension) data) ∧
      m.queryURLFromCache sys key fileExtension = [none] := by
  have hfile : m.diskCache.contents (sys.diskCachePathForKey key fileExtension) = _ :=
    h.holds key hkey fileExtension
  have hexists : m.diskCache.fileExists (sys.diskCachePathForKey key fileExtension) =
      (Write.latest (CacheJob.writes jobs) (key, fileExtension)).isSome :=
    congrArg Option.isSome hfile
  simp only [← Write.latest_eq_some_iff, VideoCacheManager.queryURLFromCache, hexists, hfile]
  cases Write.latest (CacheJob.writes jobs) (key, fileExtension) with
  | none => exact Or.inr ⟨fun _ hd => (by cases hd), rfl⟩
  | some data => exact Or.inl ⟨data, rfl, rfl, rfl⟩

end Filed

/-- Sequential jobs keep the files as they say. -/
theorem filed_of_run {sys : CacheSystem} {keys : Set String} (hfree : sys.CollisionFree keys)
    {jobs : List CacheJob} {m : VideoCacheManager} (h : (cacheJobs sys).Run jobs m)
    (hkeys : CacheJob.usedKeys jobs ⊆ keys) (hreadable : ∀ job ∈ jobs, job.Readable) :
    Filed sys keys jobs m := by
  induction h with
  | nil => exact ⟨holds_empty sys keys, VideoCacheManager.readableSizes_empty sys⟩
  | @snoc jobs m job m' _ hn ih =>
    have hfiled := ih (fun key ⟨j, hj, hu⟩ => hkeys ⟨j, List.mem_append_left _ hj, hu⟩)
      fun j hj => hreadable j (List.mem_append_left _ hj)
    have hlast : job ∈ jobs ++ [job] := List.mem_append_right _ (List.mem_singleton_self _)
    obtain ⟨m'', result, hexec, hnext⟩ := hfiled.execute hfree
      (fun key hu => hkeys ⟨job, hlast, hu⟩) (hreadable job hlast)
    obtain ⟨⟨m₁, result'⟩, hexec', rfl⟩ := Option.map_eq_some_iff.mp hn
    rw [hexec, Option.some.injEq, Prod.mk.injEq] at hexec'
    exact hexec'.1 ▸ hnext

section Queue

variable {sys : CacheSystem} {events : List (SerialQueue.Event CacheJob)}
  {q : SerialQueue VideoCacheManager CacheJob CacheResult}

/-- The files are always as the finished jobs say. -/
theorem filed_of_serialized {keys : Set String} (hfree : sys.CollisionFree keys)
    (h : SerialQueue.Serialized .empty (CacheJob.execute sys) events q)
    (hkeys : CacheJob.usedKeys (SerialQueue.submitted events) ⊆ keys)
    (hreadable : ∀ job ∈ SerialQueue.submitted events, job.Readable)
    {jobs : List CacheJob} (hjobs : jobs <+: q.finished.map Prod.fst) {m : VideoCacheManager}
    (hm : (cacheJobs sys).Run jobs m) : Filed sys keys jobs m := by
  have hsub : jobs ⊆ SerialQueue.submitted events := by
    rw [h.order]
    exact (hjobs.trans (List.prefix_append _ _)).subset
  exact filed_of_run hfree hm (fun _ hkey => hkeys (CacheJob.usedKeys_mono hsub hkey))
    fun job hjob => hreadable job (hsub hjob)

/-- The next job of the queue never traps. -/
theorem cacheQueue_next_isSome
    (hfree : sys.CollisionFree (CacheJob.usedKeys (SerialQueue.submitted events)))
    (hreadable : ∀ job ∈ SerialQueue.submitted events, job.Readable)
    (hrun : (cacheQueue sys).Run events q) (hpending : q.pending ≠ []) :
    ((cacheQueue sys).next q .run).isSome = true := by
  have hserial := SerialQueue.serialized_of_run hrun
  obtain ⟨job, jobs, hjobs⟩ := List.exists_cons_of_ne_nil hpending
  have hjob : job ∈ SerialQueue.submitted events := by
    rw [hserial.order, hjobs]
    exact List.mem_append_right _ List.mem_cons_self
  have hfiled := filed_of_serialized hfree hserial (fun _ hkey => hkey) hreadable
    (List.prefix_refl _) hserial.contents
  obtain ⟨_, _, hexec, _⟩ := hfiled.execute hfree (fun key hu => ⟨job, hjob, hu⟩)
    (hreadable job hjob)
  exact SerialQueue.next_run_isSome hjobs (by rw [hexec]; rfl)

/-- Disk lookups are exact. Whatever jobs the clients submit, each of them runs once,
in its turn and without a trap; and the completion of a URL query is called once, with
the path of its pair, whose file holds the data of the last store, if no clear came
after that store, and without a path otherwise. A path has 64 digits between the
directory and the extension, and belongs to one pair only. -/
theorem queryURLFromCache_exact
    (hfree : sys.CollisionFree (CacheJob.usedKeys (SerialQueue.submitted events)))
    (hreadable : ∀ job ∈ SerialQueue.submitted events, job.Readable)
    (hrun : (cacheQueue sys).Run events q) :
    (SerialQueue.submitted events = q.finished.map Prod.fst ++ q.pending ∧
      (q.pending ≠ [] → ((cacheQueue sys).next q .run).isSome = true)) ∧
    (∀ before key fileExtension result after,
      q.finished = before ++ (.queryURLFromCache key fileExtension, result) :: after →
      ∃ m, (cacheJobs sys).Run (before.map Prod.fst) m ∧
        ((∃ data, Write.LastStores (CacheJob.writes (before.map Prod.fst))
            (key, fileExtension) data ∧
          result = .completions [some (sys.diskCachePathForKey key fileExtension)] ∧
          m.diskCache.contents (sys.diskCachePathForKey key fileExtension) = some data) ∨
        (∀ data, ¬ Write.LastStores (CacheJob.writes (before.map Prod.fst))
            (key, fileExtension) data) ∧
          result = .completions [none])) ∧
    (∀ key, ∃ digits : String, digits.length = 64 ∧
      (∀ c ∈ digits.toList, c ∈ "0123456789abcdef".toList) ∧
      ∀ fileExtension, sys.diskCachePathForKey key fileExtension =
        sys.diskDirectory ++ "/" ++ digits ++ fileExtension.elim "" fun e => "." ++ e) ∧
    ∀ key ∈ CacheJob.usedKeys (SerialQueue.submitted events),
      ∀ key' ∈ CacheJob.usedKeys (SerialQueue.submitted events), ∀ fileExtension fileExtension',
        sys.diskCachePathForKey key fileExtension =
          sys.diskCachePathForKey key' fileExtension' →
        (key, fileExtension) = (key', fileExtension') := by
  have hserial := SerialQueue.serialized_of_run hrun
  refine ⟨⟨hserial.order, cacheQueue_next_isSome hfree hreadable hrun⟩, ?_,
    fun key => ⟨sys.sha2 key, (sys.sha2_digits key).1, (sys.sha2_digits key).2, fun e => ?_⟩,
    fun _ hkey _ hkey' _ _ => (hfree.path_inj hkey hkey').mp⟩
  · intro before key fileExtension result after hfinished
    obtain ⟨m, m', hm, hexec⟩ := hserial.result _ _ _ _ hfinished
    cases hexec
    have hprefix : before.map Prod.fst <+: q.finished.map Prod.fst := by
      rw [hfinished, List.map_append]
      exact List.prefix_append _ _
    have hfiled := filed_of_serialized hfree hserial (fun _ hkey => hkey) hreadable hprefix hm
    have hkey : key ∈ CacheJob.usedKeys (SerialQueue.submitted events) := by
      refine ⟨.queryURLFromCache key fileExtension, ?_, rfl⟩
      rw [hserial.order, hfinished]
      simp
    refine ⟨m, hm, ?_⟩
    rcases hfiled.queryURLFromCache hkey fileExtension with
      ⟨data, hlast, hcalls, hfile⟩ | ⟨hlast, hcalls⟩
    · exact Or.inl ⟨data, hlast, congrArg _ hcalls, hfile⟩
    · exact Or.inr ⟨hlast, congrArg _ hcalls⟩
  · cases e with
    | none => simp [CacheSystem.diskCachePathForKey]
    | some e => simp [CacheSystem.diskCachePathForKey, String.append_assoc]

end Queue

/-- One client stores data for two keys, another one asks for the second key. -/
def twoClients : List (SerialQueue.Event CacheJob) :=
  [.submit (.storeDataToCache [1] "a" (some "mp4")), .submit (.storeDataToCache [2] "b" none),
    .run, .submit (.queryURLFromCache "b" none), .run, .run]

theorem queryURLFromCache_exact_two_clients :
    ∃ m, (cacheJobs .twoKeys).Run
        [.storeDataToCache [1] "a" (some "mp4"), .storeDataToCache [2] "b" none] m ∧
      m.diskCache.contents ("/Documents/VideoCache/" ++
        "3e23e8160039594a33894f6564e1b1348bbd7a0088d42c4acb73eeaed59c009d") = some [2] := by
  have hjobs : SerialQueue.submitted twoClients =
    [.storeDataToCache [1] "a" (some "mp4"), .storeDataToCache [2] "b" none,
      .queryURLFromCache "b" none] := rfl
  have hused : ∀ key ∈ CacheJob.usedKeys (SerialQueue.submitted twoClients),
      key = "a" ∨ key = "b" := by
    rintro key ⟨job, hjob, huses⟩
    simp only [hjobs, List.mem_cons, List.not_mem_nil, or_false] at hjob
    rcases hjob with rfl | rfl | rfl
    · exact Or.inl huses.symm
    · exact Or.inr huses.symm
    · exact Or.inr huses.symm
  have hfree : CacheSystem.twoKeys.CollisionFree
      (CacheJob.usedKeys (SerialQueue.submitted twoClients)) := by
    intro key hkey key' hkey' hdigest
    rcases hused key hkey with rfl | rfl <;> rcases hused key' hkey' with rfl | rfl
    · rfl
    · exact absurd hdigest (by decide)
    · exact absurd hdigest (by decide)
    · rfl
  have hreadable : ∀ job ∈ SerialQueue.submitted twoClients, job.Readable := by
    intro job hjob
    simp only [hjobs, List.mem_cons, List.not_mem_nil, or_false] at hjob
    rcases hjob with rfl | rfl | rfl
    · rfl
    · rfl
    · exact trivial
  have hexact := queryURLFromCache_exact hfree hreadable (Machine.run_iff_exec.mpr rfl)
  obtain ⟨m, hm, hfound | hlost⟩ := hexact.2.1
    [(.storeDataToCache [1] "a" (some "mp4"), .stored), (.storeDataToCache [2] "b" none, .stored)]
    "b" none _ [] rfl
  · obtain ⟨data, hlast, _, hfile⟩ := hfound
    rw [← Write.latest_eq_some_iff] at hlast
    cases hlast
    exact ⟨m, hm, hfile⟩
  · exact absurd hlost.2 (by decide)

end TiktokClone
