import Mathlib.Algebra.BigOperators.Ring.Finset
import TiktokClone.Cache.CacheQueue

/-!
# The sizes that clears report

Clients store and clear in any order. What a clear reports is what they have stored since the
clear before it: the data of the last store of each pair, every pair once. The sizes of the
files are added exactly, where the code rounds to a `Float` at every addition.
-/

namespace TiktokClone

open Library

variable {sys : CacheSystem} {keys : Set String} {m m' : VideoCacheManager} {jobs : List CacheJob}

/-- The directory has no other files than those of the cache. -/
def OnlyCacheFiles (sys : CacheSystem) (keys : Set String) (m : VideoCacheManager) : Prop :=
  ∀ name data, m.diskCache.contents (itemPath sys.diskDirectory name) = some data →
    ∃ key ∈ keys, ∃ fileExtension, sys.pathSuffix key fileExtension = name

theorem OnlyCacheFiles.storeDataToCache (h : OnlyCacheFiles sys keys m) {key : String}
    (hkey : key ∈ keys) (data : Data) (fileExtension : Option String) :
    OnlyCacheFiles sys keys (m.storeDataToCache sys (some data) key fileExtension) := by
  intro name stored hstored
  rcases FileManager.contents_createFile hstored with ⟨hpath, _⟩ | hold
  · rw [sys.diskCachePathForKey_eq_itemPath] at hpath
    exact ⟨key, hkey, fileExtension, (itemPath_injective _ hpath).symm⟩
  · exact h name stored hold

/-- Every job keeps the directory to the cache. -/
theorem OnlyCacheFiles.execute (h : OnlyCacheFiles sys keys m) {job : CacheJob}
    {result : CacheResult} (hkeys : ∀ key, job.Uses key → key ∈ keys)
    (hexec : job.execute sys m = some (m', result)) : OnlyCacheFiles sys keys m' := by
  cases job with
  | storeDataToCache data key fileExtension =>
    cases hexec
    exact h.storeDataToCache (hkeys key rfl) data fileExtension
  | clearCache =>
    simp only [CacheJob.execute] at hexec
    split at hexec
    · cases hexec
    · rename_i cleared size hclear
      cases hexec
      intro name data hdata
      rw [(VideoCacheManager.clearDiskCache_spec hclear).2 name] at hdata
      cases hdata
  | queryURLFromCache key fileExtension =>
    cases hexec
    exact h

theorem onlyCacheFiles_of_run (h : (cacheJobs sys).Run jobs m)
    (hkeys : CacheJob.usedKeys jobs ⊆ keys) : OnlyCacheFiles sys keys m := by
  induction h with
  | nil =>
    intro name data hdata
    cases hdata
  | @snoc jobs m job m' _ hn ih =>
    obtain ⟨⟨m₁, result⟩, hexec, rfl⟩ := Option.map_eq_some_iff.mp hn
    refine (ih fun key ⟨j, hj, hu⟩ => hkeys ⟨j, List.mem_append_left _ hj, hu⟩).execute ?_ hexec
    exact fun key hu => hkeys ⟨job, List.mem_append_right _ (List.mem_singleton_self _), hu⟩

/-- A pair that holds data is one of a store among the jobs. -/
theorem usedKeys_of_latest {pair : String × Option String} {data : Data}
    (h : Write.latest (CacheJob.writes jobs) pair = some data) :
    pair.1 ∈ CacheJob.usedKeys jobs := by
  obtain ⟨before, w, after, hwrites, rfl, _⟩ := Write.latest_eq_some_iff.mp h
  have hmem : Write.store pair data ∈ CacheJob.writes jobs := by
    rw [hwrites]
    exact List.mem_append_right _ List.mem_cons_self
  obtain ⟨job, hjob, hwrite⟩ := List.mem_filterMap.mp hmem
  cases job with
  | storeDataToCache stored key fileExtension =>
    cases hwrite
    exact ⟨_, hjob, rfl⟩
  | clearCache => cases hwrite
  | queryURLFromCache key fileExtension => cases hwrite

/-- The listed sizes add up to the data of the last stores. -/
theorem Filed.folderSize_eq (h : Filed sys keys jobs m) (honly : OnlyCacheFiles sys keys m)
    (hfree : sys.CollisionFree keys) (hkeys : CacheJob.usedKeys jobs ⊆ keys) {names : List String}
    (hnames : m.diskCache.contentsOfDirectory .none sys.diskDirectory = some names) :
    m.diskCache.folderSize sys.diskDirectory names =
      (Write.total List.length (CacheJob.writes jobs) : ℚ) := by
  have hfile : ∀ pair : String × Option String, pair.1 ∈ keys →
      m.diskCache.contents (itemPath sys.diskDirectory (sys.pathSuffix pair.1 pair.2)) =
        Write.latest (CacheJob.writes jobs) pair := by
    intro pair hkey
    rw [← sys.diskCachePathForKey_eq_itemPath]
    exact h.holds pair.1 hkey pair.2
  have hheld : ∀ pair data, Write.latest (CacheJob.writes jobs) pair = some data →
      pair.1 ∈ keys := fun pair data hl => hkeys (usedKeys_of_latest hl)
  have hsum : (names.map fun name =>
      m.diskCache.size (itemPath sys.diskDirectory name)).sum =
        Write.total List.length (CacheJob.writes jobs) := by
    refine Write.sum_listing_eq_total (fun pair => sys.pathSuffix pair.1 pair.2)
      (FileManager.nodup_contentsOfDirectory hnames) ?_ ?_ ?_
    · intro pair pair' data data' hl hl' he
      refine (hfree.path_inj (hheld _ _ hl) (hheld _ _ hl')).mp ?_
      rw [sys.diskCachePathForKey_eq_itemPath, sys.diskCachePathForKey_eq_itemPath, he]
    · intro name
      rw [FileManager.mem_contentsOfDirectory hnames, FileManager.fileExists,
        Option.isSome_iff_exists]
      constructor
      · rintro ⟨data, hdata⟩
        obtain ⟨key, hkey, fileExtension, rfl⟩ := honly name data hdata
        exact ⟨(key, fileExtension), data, (hfile _ hkey).symm.trans hdata, rfl⟩
      · rintro ⟨pair, data, hl, rfl⟩
        exact ⟨data, (hfile pair (hheld _ _ hl)).trans hl⟩
    · intro pair data hl
      rw [FileManager.size, hfile pair (hheld _ _ hl), hl]
      rfl
  rw [FileManager.folderSize, ← hsum, Nat.cast_list_sum, List.map_map]
  rfl

/-- The size that a clear reports after other jobs: the formatted total of the data that the
last stores among them have left. -/
def CacheSystem.clearedSize (sys : CacheSystem) (before : List CacheJob) : String :=
  (sys.format ((Write.total List.length (CacheJob.writes before) : ℚ) / 1024 / 1024)).getD "0"

theorem cleared_of_serialized {events : List (SerialQueue.Event CacheJob)}
    {q : SerialQueue VideoCacheManager CacheJob CacheResult}
    (hfree : sys.CollisionFree (CacheJob.usedKeys (SerialQueue.submitted events)))
    (hreadable : ∀ job ∈ SerialQueue.submitted events, job.Readable)
    (hserial : SerialQueue.Serialized .empty (CacheJob.execute sys) events q)
    {before after : List (CacheJob × CacheResult)} {result : CacheResult}
    (hsplit : q.finished = before ++ (.clearCache, result) :: after) :
    result = .cleared (sys.clearedSize (before.map Prod.fst)) := by
  obtain ⟨m, m', hm, hexec⟩ := hserial.result _ _ _ _ hsplit
  have hbegins : before.map Prod.fst <+: q.finished.map Prod.fst := by
    rw [hsplit, List.map_append]
    exact List.prefix_append _ _
  have hused : CacheJob.usedKeys (before.map Prod.fst) ⊆
      CacheJob.usedKeys (SerialQueue.submitted events) := by
    refine CacheJob.usedKeys_mono ?_
    rw [hserial.order]
    exact (hbegins.trans (List.prefix_append _ _)).subset
  have hfiled := filed_of_serialized hfree hserial (fun _ hkey => hkey) hreadable hbegins hm
  have honly := onlyCacheFiles_of_run hm hused
  obtain ⟨names, hnames, heq⟩ := m.clearMemoryCache.clearDiskCache_none sys
  simp only [CacheJob.execute, VideoCacheManager.clearCache, heq] at hexec
  split at hexec
  · cases hexec
  · rename_i cleared size hclear
    cases hexec
    obtain ⟨_, he⟩ := Option.ite_none_right_eq_some.mp hclear
    cases he
    have hsize := hfiled.folderSize_eq honly hfree hused hnames
    rw [CacheSystem.clearedSize, ← hsize]
    rfl

/-- Clears report what was stored. Whatever jobs the clients submit to an empty cache, if no file
operation throws and sizes are added exactly, the completion of each clear is given the formatted
size, in megabytes, of the data that the last stores before it, one for each pair, have put into
the cache since the clear before. -/
theorem clears_report_stored_sizes {events : List (SerialQueue.Event CacheJob)}
    {q : SerialQueue VideoCacheManager CacheJob CacheResult}
    (hfree : sys.CollisionFree (CacheJob.usedKeys (SerialQueue.submitted events)))
    (hreadable : ∀ job ∈ SerialQueue.submitted events, job.Readable)
    (hrun : (cacheQueue sys).Run events q) {before after : List (CacheJob × CacheResult)}
    {result : CacheResult} (hsplit : q.finished = before ++ (.clearCache, result) :: after) :
    result = .cleared ((sys.format
      ((Write.total List.length (CacheJob.writes (before.map Prod.fst)) : ℚ) / 1024 / 1024)).getD
        "0") :=
  cleared_of_serialized hfree hreadable (SerialQueue.serialized_of_run hrun) hsplit

/-- A pair is stored twice, another extension of its key once, and all is cleared. -/
def storedThenCleared : List (SerialQueue.Event CacheJob) :=
  [.submit (.storeDataToCache [1, 2, 3] "a" (some "mp4")),
    .submit (.storeDataToCache [1, 2] "a" (some "mp4")), .submit (.storeDataToCache [4] "a" none),
    .submit .clearCache, .run, .run, .run, .run]

theorem clears_report_stored_sizes_storedThenCleared :
    ∃ q : SerialQueue VideoCacheManager CacheJob CacheResult, ∃ before result,
      q.finished = before ++ [(.clearCache, result)] ∧
        Write.total List.length (CacheJob.writes (before.map Prod.fst)) = 3 ∧
        result = .cleared ((CacheSystem.twoKeys.format
          ((Write.total List.length (CacheJob.writes (before.map Prod.fst)) : ℚ) / 1024 /
            1024)).getD "0") := by
  have hjobs : ∀ job ∈ SerialQueue.submitted storedThenCleared,
      (∀ key, job.Uses key → key = "a") ∧ job.Readable := by
    intro job hjob
    simp only [storedThenCleared, SerialQueue.submitted, List.filterMap_cons, List.filterMap_nil,
      List.mem_cons, List.not_mem_nil, or_false] at hjob
    rcases hjob with rfl | rfl | rfl | rfl
    · exact ⟨fun _ h => h.symm, rfl⟩
    · exact ⟨fun _ h => h.symm, rfl⟩
    · exact ⟨fun _ h => h.symm, rfl⟩
    · exact ⟨fun _ h => h.elim, trivial⟩
  have hfree : CacheSystem.twoKeys.CollisionFree
      (CacheJob.usedKeys (SerialQueue.submitted storedThenCleared)) := by
    rintro key ⟨job, hjob, huses⟩ key' ⟨job', hjob', huses'⟩ _
    rw [(hjobs job hjob).1 key huses, (hjobs job' hjob').1 key' huses']
  obtain ⟨q, before, result, hrun, hsplit, htotal⟩ : ∃ q before result,
      (cacheQueue .twoKeys).Run storedThenCleared q ∧
        q.finished = before ++ [(.clearCache, result)] ∧
        Write.total List.length (CacheJob.writes (before.map Prod.fst)) = 3 :=
    ⟨_, [_, _, _], _, Machine.run_iff_exec.mpr rfl, rfl, by decide⟩
  exact ⟨q, before, result, hsplit, htotal,
    clears_report_stored_sizes hfree (fun job hjob => (hjobs job hjob).2) hrun hsplit⟩

end TiktokClone
