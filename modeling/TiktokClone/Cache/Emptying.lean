import TiktokClone.Library.History
import TiktokClone.Cache.Interleaving

/-!
# What a clear has emptied

After a clear and before the next store the memory cache is empty, unless a query
writes back data that it read from disk before the clear removed the file; and the
directory is empty once the clear has run to its end, unless a file operation of the
clear throws.
-/

namespace TiktokClone

open Library

/-- This clear has emptied the memory cache and no store has run since. -/
def Cleared (clear : Nat) : List CacheLog → Prop :=
  Since (fun _ entry => entry = .memoryCleared clear) (· ≠ .storeRan)

/-- Only a clear of the memory cache and a store bear on what is cleared. -/
theorem cleared_concat_of_ne {clear : Nat} {log : List CacheLog} {entry : CacheLog}
    (hclear : entry ≠ .memoryCleared clear) (hstore : entry ≠ .storeRan) :
    Cleared clear (log ++ [entry]) ↔ Cleared clear log := by
  rw [Cleared, since_concat, ← Cleared]
  simp [hclear, hstore]

/-- The clear that a running job belongs to. -/
def RunningJob.clear : RunningJob → Option Nat
  | clearMemoryCache clear | contentsOfDirectory clear | attributesOfItem clear _ _
  | removeItem clear _ _ _ | dispatchCompletion clear _ => some clear
  | storeDataToMemoryCache _ _ _ | storeDataToDiskCache _ _ _ | queryURLFromCache _ _ _ => none

/-- The clear and the listed items that the loop of a running job has yet to remove. -/
def RunningJob.remaining : RunningJob → Option (Nat × List String)
  | attributesOfItem clear contents _ => some (clear, contents)
  | removeItem clear name contents _ => some (clear, name :: contents)
  | storeDataToMemoryCache _ _ _ | storeDataToDiskCache _ _ _ | clearMemoryCache _
  | contentsOfDirectory _ | dispatchCompletion _ _ | queryURLFromCache _ _ _ => none

/-- The next step is an operation of a clear on the directory. -/
def RunningJob.OnDirectory (job : RunningJob) : Prop :=
  (∃ clear, job = contentsOfDirectory clear) ∨ job.remaining.isSome = true

/-- No query writes data back after a clear has emptied the memory cache and before
the next store runs, and no operation of a clear on the directory throws. -/
def SafeStep (s : CacheThreads) : CacheEvent → Prop
  | .queryStep id _ => ∀ data key, s.queries id = some (.storeDataToMemoryCache data key) →
      ∀ clear, ¬ Cleared clear s.log
  | .queueStep throws => ∀ job, s.running = some job → job.OnDirectory → throws = false
  | _ => True

/-- The cache has no file. -/
def NoFile (sys : CacheSystem) (m : VideoCacheManager) : Prop :=
  ∀ name, m.diskCache.fileExists (itemPath sys.diskDirectory name) = false

/-- The completion of this clear waits on the main queue or has been called. -/
def CacheThreads.Done (s : CacheThreads) (clear : Nat) : Prop :=
  clear ∈ s.mainQueue.map Prod.fst ∨ .clearCompleted clear ∈ s.log

/-- Clears are numbered as they begin, and a running clear is not done. -/
structure Numbered (s : CacheThreads) : Prop where
  done : ∀ clear, s.Done clear → clear < s.clears
  running : ∀ job clear, s.running = some job → job.clear = some clear →
    clear < s.clears ∧ ¬ s.Done clear

/-- This clear is at work on the directory, and its list has all files that are left. -/
def BeingCleared (sys : CacheSystem) (s : CacheThreads) (clear : Nat) : Prop :=
  s.running = some (.contentsOfDirectory clear) ∨
  ∃ job names, s.running = some job ∧ job.remaining = some (clear, names) ∧
    ∀ name, s.cache.diskCache.fileExists (itemPath sys.diskDirectory name) = true → name ∈ names

/-- What a clear has emptied stays empty until the next store. -/
structure Emptied (sys : CacheSystem) (s : CacheThreads) : Prop where
  memory : ∀ clear, Cleared clear s.log → s.cache.memoryCache = ∅
  disk : ∀ clear, Cleared clear s.log → NoFile sys s.cache ∨ BeingCleared sys s clear
  listed : ∀ job clear names, s.running = some job → job.remaining = some (clear, names) →
    names.Nodup ∧
      ∀ name ∈ names, s.cache.diskCache.fileExists (itemPath sys.diskDirectory name) = true
  storing : ∀ data key fileExtension,
    s.running = some (.storeDataToDiskCache data key fileExtension) →
      ∀ clear, ¬ Cleared clear s.log

variable {sys : CacheSystem} {s t : CacheThreads}

/-! ### Numbering -/

theorem numbered_idle (cache : VideoCacheManager) : Numbered (.idle cache) where
  done := fun clear hdone => by simp [CacheThreads.Done, CacheThreads.idle] at hdone
  running := fun _ _ hrunning => nomatch hrunning

/-- A step numbers clears correctly when a clear is done only after it has run, and
when only a new clear starts running. -/
theorem Numbered.of_frame (h : Numbered s) (hclears : s.clears ≤ t.clears)
    (hdone : ∀ clear, t.Done clear → s.Done clear ∨
      t.running = none ∧ ∃ job, s.running = some job ∧ job.clear = some clear)
    (hrunning : ∀ job clear, t.running = some job → job.clear = some clear →
      (∃ job', s.running = some job' ∧ job'.clear = some clear) ∨
        clear = s.clears ∧ clear < t.clears) : Numbered t where
  done := by
    intro clear hc
    rcases hdone clear hc with hs | ⟨_, job, hr, hj⟩
    · exact lt_of_lt_of_le (h.done clear hs) hclears
    · exact lt_of_lt_of_le (h.running job clear hr hj).1 hclears
  running := by
    intro job clear hr hc
    have hnot : ¬ s.Done clear → ¬ t.Done clear := fun hs ht => by
      rcases hdone clear ht with hs' | ⟨hnone, _⟩
      · exact hs hs'
      · rw [hnone] at hr
        cases hr
    rcases hrunning job clear hr hc with ⟨job', hr', hc'⟩ | ⟨rfl, hlt⟩
    · obtain ⟨hlt, hs⟩ := h.running job' clear hr' hc'
      exact ⟨lt_of_lt_of_le hlt hclears, hnot hs⟩
    · exact ⟨hlt, hnot fun hs => lt_irrefl _ (h.done _ hs)⟩

/-- A URL query calls its completion once. -/
theorem VideoCacheManager.queryURLFromCache_eq (m : VideoCacheManager) (sys : CacheSystem)
    (key : String) (fileExtension : Option String) :
    ∃ answer, m.queryURLFromCache sys key fileExtension = [answer] ∧
      answer.isSome = m.diskCache.fileExists (sys.diskCachePathForKey key fileExtension) := by
  rw [queryURLFromCache]
  split <;> rename_i hexists
  · exact ⟨_, rfl, hexists.symm⟩
  · exact ⟨_, rfl, (Bool.eq_false_of_not_eq_true hexists).symm⟩

/-- What a step of the running job does to the numbers, the queries and the log. -/
structure CacheThreads.JobFrame (sys : CacheSystem) (s t : CacheThreads) (job : RunningJob) :
    Prop where
  clears : t.clears = s.clears
  queries : t.queries = s.queries
  started : t.started = s.started
  done : ∀ clear, t.Done clear → s.Done clear ∨ t.running = none ∧ job.clear = some clear
  running : ∀ job' clear, t.running = some job' → job'.clear = some clear → job.clear = some clear
  log : t.log = s.log ∨ ∃ entry, t.log = s.log ++ [entry] ∧ (∀ id, entry ≠ .queryStarted id) ∧
    ∀ id found, entry = .answered id found → ∃ key fileExtension,
      found = s.cache.diskCache.fileExists (sys.diskCachePathForKey key fileExtension)

/-- A job that goes on for the same clear and logs nothing. -/
theorem CacheThreads.JobFrame.of_next {job next : RunningJob} (hclear : next.clear = job.clear)
    (m : VideoCacheManager) : JobFrame sys s { s with cache := m, running := some next } job where
  clears := rfl
  queries := rfl
  started := rfl
  done := fun _ hdone => Or.inl hdone
  running := by
    rintro _ clear ⟨⟩ h
    exact hclear ▸ h
  log := Or.inl rfl

theorem CacheThreads.jobStep_frame {throws : Bool} {job : RunningJob}
    (ht : s.jobStep sys throws job = some t) : JobFrame sys s t job := by
  cases job with
  | storeDataToMemoryCache data key fileExtension =>
    cases ht
    refine ⟨rfl, rfl, rfl, fun clear hd => Or.inl ?_, ?_, Or.inr ⟨_, rfl, ?_, ?_⟩⟩
    · simpa [Done] using hd
    · rintro _ _ ⟨⟩ ⟨⟩
    · rintro _ ⟨⟩
    · rintro _ _ ⟨⟩
  | storeDataToDiskCache data key fileExtension =>
    cases ht
    refine ⟨rfl, rfl, rfl, fun _ hd => Or.inl hd, ?_, Or.inl rfl⟩
    rintro _ _ ⟨⟩
  | clearMemoryCache clear =>
    cases ht
    refine ⟨rfl, rfl, rfl, fun clear hd => Or.inl ?_, ?_, Or.inr ⟨_, rfl, ?_, ?_⟩⟩
    · simpa [Done] using hd
    · rintro _ _ ⟨⟩ ⟨⟩
      rfl
    · rintro _ ⟨⟩
    · rintro _ _ ⟨⟩
  | contentsOfDirectory clear =>
    simp only [jobStep] at ht
    split at ht <;> cases ht
    all_goals exact .of_next (by rfl) s.cache
  | attributesOfItem clear contents folderSize =>
    cases contents with
    | nil =>
      cases ht
      exact .of_next (by rfl) s.cache
    | cons name contents =>
      simp only [jobStep] at ht
      split at ht
      · cases ht
        exact .of_next (by rfl) s.cache
      · split at ht <;> cases ht
        exact .of_next (by rfl) s.cache
  | removeItem clear name contents folderSize =>
    simp only [jobStep] at ht
    split at ht <;> cases ht
    all_goals exact .of_next (by rfl) _
  | dispatchCompletion clear size =>
    cases ht
    refine ⟨rfl, rfl, rfl, fun clear' hd => ?_, ?_, Or.inl rfl⟩
    · rcases hd with hd | hd
      · rw [List.map_append, List.mem_append, List.map_singleton, List.mem_singleton] at hd
        rcases hd with hd | rfl
        · exact Or.inl (Or.inl hd)
        · exact Or.inr ⟨rfl, rfl⟩
      · exact Or.inl (Or.inr hd)
    · rintro _ _ ⟨⟩
  | queryURLFromCache id key fileExtension =>
    obtain ⟨answer, hcalls, hanswer⟩ := s.cache.queryURLFromCache_eq sys key fileExtension
    rw [jobStep, hcalls] at ht
    cases ht
    refine ⟨rfl, rfl, rfl, fun clear hd => Or.inl ?_, ?_, Or.inr ⟨_, rfl, ?_, ?_⟩⟩
    · simpa [Done] using hd
    · rintro _ _ ⟨⟩
    · rintro _ ⟨⟩
    · rintro _ _ ⟨⟩
      exact ⟨key, fileExtension, hanswer⟩

theorem Numbered.jobStep (h : Numbered s) {throws : Bool} {job : RunningJob}
    (hrunning : s.running = some job) (ht : s.jobStep sys throws job = some t) : Numbered t := by
  obtain ⟨hclears, _, _, hdone, hclear, _⟩ := CacheThreads.jobStep_frame ht
  refine h.of_frame hclears.ge (fun clear hd => ?_) fun job' clear hr hc => ?_
  · rcases hdone clear hd with hs | ⟨hnone, hc⟩
    · exact Or.inl hs
    · exact Or.inr ⟨hnone, job, hrunning, hc⟩
  · exact Or.inl ⟨job, hrunning, hclear job' clear hr hc⟩

/-- What a step of a data query leaves alone, and what it may log. -/
theorem CacheThreads.queryStep_frame (sys : CacheSystem) (s : CacheThreads) (throws : Bool)
    (id : Nat) (step : QueryStep) :
    (s.queryStep sys throws id step).running = s.running ∧
      (s.queryStep sys throws id step).mainQueue = s.mainQueue ∧
      (s.queryStep sys throws id step).clears = s.clears ∧
      (s.queryStep sys throws id step).started = s.started ∧
      (s.queryStep sys throws id step).cache.diskCache = s.cache.diskCache ∧
      ((s.queryStep sys throws id step).cache = s.cache ∨
        ∃ data key, step = .storeDataToMemoryCache data key) ∧
      ((s.queryStep sys throws id step).log = s.log ∨
        ∃ found, (s.queryStep sys throws id step).log = s.log ++ [.answered id found]) := by
  cases step with
  | dataFromMemoryCache key fileExtension =>
    rw [queryStep]
    split
    · exact ⟨rfl, rfl, rfl, rfl, rfl, Or.inl rfl, Or.inr ⟨_, rfl⟩⟩
    · exact ⟨rfl, rfl, rfl, rfl, rfl, Or.inl rfl, Or.inl rfl⟩
  | dataFromDiskCache key fileExtension =>
    rw [queryStep]
    split
    · exact ⟨rfl, rfl, rfl, rfl, rfl, Or.inl rfl, Or.inl rfl⟩
    · exact ⟨rfl, rfl, rfl, rfl, rfl, Or.inl rfl, Or.inr ⟨_, rfl⟩⟩
  | storeDataToMemoryCache data key =>
    exact ⟨rfl, rfl, rfl, rfl, rfl, Or.inr ⟨data, key, rfl⟩, Or.inr ⟨_, rfl⟩⟩

theorem Numbered.next {cache : VideoCacheManager} {e : CacheEvent} (h : Numbered s)
    (ht : (cacheThreads sys cache).next s e = some t) : Numbered t := by
  cases e with
  | storeDataToCache | clearCache | evict =>
    cases ht
    exact ⟨h.done, h.running⟩
  | queryURLFromCache | queryDataFromCache =>
    cases ht
    refine h.of_frame le_rfl (fun clear hd => Or.inl ?_) fun job _ hr hc => Or.inl ⟨job, hr, hc⟩
    simpa [CacheThreads.Done, CacheThreads.submit] using hd
  | queueStep throws =>
    simp only [cacheThreads] at ht
    split at ht
    · rename_i job hrunning
      exact h.jobStep hrunning ht
    · rename_i job jobs hrunning hqueue
      cases ht
      cases job with
      | storeDataToCache | queryURLFromCache =>
        refine ⟨h.done, fun job clear hr hc => ?_⟩
        cases hr
        cases hc
      | clearCache =>
        refine h.of_frame (Nat.le_succ _) (fun _ hd => Or.inl hd) fun job clear hr hc => ?_
        cases hr
        cases hc
        exact Or.inr ⟨rfl, Nat.lt_succ_self _⟩
    · cases ht
  | queryStep id throws =>
    simp only [cacheThreads] at ht
    split at ht
    · cases ht
    · rename_i step hstep
      cases ht
      obtain ⟨hrunning, hmain, hclears, _, _, _, hlog⟩ :=
        s.queryStep_frame sys throws id step
      refine h.of_frame hclears.ge (fun clear hd => Or.inl ?_) fun job clear hr hc =>
        Or.inl ⟨job, hrunning ▸ hr, hc⟩
      rw [CacheThreads.Done, hmain] at hd
      rcases hlog with hlog | ⟨found, hlog⟩
      · rwa [hlog] at hd
      · simpa [hlog, CacheThreads.Done] using hd
  | completionStep =>
    simp only [cacheThreads] at ht
    split at ht
    · cases ht
    · rename_i clear size mainQueue hmain
      cases ht
      refine h.of_frame le_rfl (fun clear' hd => Or.inl ?_) fun job _ hr hc => Or.inl ⟨job, hr, hc⟩
      simp only [CacheThreads.Done, List.mem_append, CacheLog.clearCompleted.injEq, hmain,
        List.map_cons, List.mem_cons] at hd ⊢
      tauto

/-! ### Emptiness -/

/-- When no operation of a clear is at work on the directory it is empty. -/
theorem Emptied.noFile (h : Emptied sys s) {clear : Nat} (hcleared : Cleared clear s.log)
    (hidle : ∀ job, s.running = some job → ¬ job.OnDirectory) : NoFile sys s.cache := by
  rcases h.disk clear hcleared with hempty | hrunning | ⟨job, names, hrunning, hjob, _⟩
  · exact hempty
  · exact absurd (Or.inl ⟨clear, rfl⟩) (hidle _ hrunning)
  · exact absurd (Or.inr (by rw [hjob]; rfl)) (hidle job hrunning)

/-- Steps that leave the files and the running job alone. -/
theorem Emptied.of_frame (h : Emptied sys s) (hdisk : t.cache.diskCache = s.cache.diskCache)
    (hrunning : t.running = s.running)
    (hcleared : ∀ clear, Cleared clear t.log ↔ Cleared clear s.log)
    (hmemory : ∀ clear, Cleared clear s.log → t.cache.memoryCache = ∅) : Emptied sys t where
  memory := fun clear hc => hmemory clear ((hcleared clear).mp hc)
  disk := by
    intro clear hc
    rw [NoFile, BeingCleared, hdisk, hrunning]
    exact h.disk clear ((hcleared clear).mp hc)
  listed := by
    rw [hdisk, hrunning]
    exact h.listed
  storing := by
    rw [hrunning]
    exact fun data key fileExtension hr clear hc =>
      h.storing data key fileExtension hr clear ((hcleared clear).mp hc)

/-- Outside the loop of a clear the files must be gone. -/
theorem Emptied.of_noFile (hmemory : ∀ clear, Cleared clear t.log → t.cache.memoryCache = ∅)
    (hdisk : ∀ clear, Cleared clear t.log → NoFile sys t.cache)
    (hremaining : ∀ job, t.running = some job → job.remaining = none)
    (hstoring : ∀ data key fileExtension,
      t.running = some (.storeDataToDiskCache data key fileExtension) →
        ∀ clear, ¬ Cleared clear t.log) : Emptied sys t where
  memory := hmemory
  disk := fun clear hc => Or.inl (hdisk clear hc)
  listed := fun job clear names hr hj => by
    rw [hremaining job hr] at hj
    cases hj
  storing := hstoring

/-- Answers do not bear on what is cleared. -/
theorem cleared_answered {clear : Nat} {log : List CacheLog} {id : Nat} {found : Bool} :
    Cleared clear (log ++ [.answered id found]) ↔ Cleared clear log :=
  cleared_concat_of_ne (by simp) (by simp)

theorem not_cleared_storeRan {clear : Nat} {log : List CacheLog} :
    ¬ Cleared clear (log ++ [.storeRan]) := by
  rw [Cleared, since_concat]
  simp

/-- While the loop of a clear runs, the files left in a cleared cache are on its list. -/
theorem Emptied.left_of_remaining (h : Emptied sys s) {job : RunningJob} {clear clear' : Nat}
    {names : List String} (hrunning : s.running = some job)
    (hjob : job.remaining = some (clear, names)) (hc : Cleared clear' s.log) :
    NoFile sys s.cache ∨ clear' = clear ∧ ∀ name,
      s.cache.diskCache.fileExists (itemPath sys.diskDirectory name) = true → name ∈ names := by
  rcases h.disk clear' hc with hempty | hr | ⟨job', names', hr, hj, hleft⟩
  · exact Or.inl hempty
  · rw [hrunning, Option.some.injEq] at hr
    rw [hr] at hjob
    cases hjob
  · rw [hrunning, Option.some.injEq] at hr
    rw [← hr, hjob, Option.some.injEq, Prod.mk.injEq] at hj
    obtain ⟨rfl, rfl⟩ := hj
    exact Or.inr ⟨rfl, hleft⟩

/-- The listing of a clear has every file. -/
theorem Emptied.contentsOfDirectory (h : Emptied sys s) {clear : Nat}
    (hrunning : s.running = some (.contentsOfDirectory clear))
    (ht : s.jobStep sys false (.contentsOfDirectory clear) = some t) : Emptied sys t := by
  obtain ⟨names, hnames⟩ : ∃ names, s.cache.diskCache.contentsOfDirectory (.all false)
    sys.diskDirectory = some names := ⟨_, rfl⟩
  simp only [CacheThreads.jobStep, hnames] at ht
  cases ht
  refine ⟨h.memory, fun clear' hc => ?_, ?_, ?_⟩
  · rcases h.disk clear' hc with hempty | hr | ⟨job, _, hr, hj, _⟩
    · exact Or.inl hempty
    · rw [hrunning] at hr
      cases hr
      exact Or.inr (Or.inr ⟨_, names, rfl, rfl,
        fun name => (FileManager.mem_contentsOfDirectory hnames).mpr⟩)
    · rw [hrunning] at hr
      cases hr
      cases hj
  · rintro _ _ _ ⟨⟩ ⟨⟩
    exact ⟨FileManager.nodup_contentsOfDirectory hnames,
      fun name => (FileManager.mem_contentsOfDirectory hnames).mp⟩
  · rintro _ _ _ ⟨⟩

/-- The size of the next item is read, or the list has come to its end. -/
theorem Emptied.attributesOfItem (h : Emptied sys s) {clear : Nat} {contents : List String}
    {folderSize : ℚ} (hrunning : s.running = some (.attributesOfItem clear contents folderSize))
    (ht : s.jobStep sys false (.attributesOfItem clear contents folderSize) = some t) :
    Emptied sys t := by
  cases contents with
  | nil =>
    cases ht
    refine .of_noFile h.memory (fun clear' hc => ?_) ?_ ?_
    · rcases h.left_of_remaining hrunning rfl hc with hempty | ⟨_, hleft⟩
      · exact hempty
      · exact fun name => Bool.eq_false_of_not_eq_true fun he => List.not_mem_nil (hleft name he)
    · rintro _ ⟨⟩
      rfl
    · rintro _ _ _ ⟨⟩
  | cons name contents =>
    obtain ⟨hnodup, hexists⟩ := h.listed _ clear _ hrunning rfl
    have hsize := FileManager.attributesOfItem_none (hexists name List.mem_cons_self)
    simp only [CacheThreads.jobStep, FileFaults.all_false, hsize] at ht
    split at ht
    · cases ht
    · cases ht
      refine ⟨h.memory, fun clear' hc => ?_, ?_, ?_⟩
      · rcases h.left_of_remaining hrunning rfl hc with hempty | ⟨rfl, hleft⟩
        · exact Or.inl hempty
        · exact Or.inr (Or.inr ⟨_, _, rfl, rfl, hleft⟩)
      · rintro _ _ _ ⟨⟩ ⟨⟩
        exact ⟨hnodup, hexists⟩
      · rintro _ _ _ ⟨⟩

/-- The next item goes from the directory and from the list. -/
theorem Emptied.removeItem (h : Emptied sys s) {clear : Nat} {name : String}
    {contents : List String} {folderSize : ℚ}
    (hrunning : s.running = some (.removeItem clear name contents folderSize))
    (ht : s.jobStep sys false (.removeItem clear name contents folderSize) = some t) :
    Emptied sys t := by
  obtain ⟨hnodup, hexists⟩ := h.listed _ clear _ hrunning rfl
  have hremove := FileManager.removeItem_none (hexists name List.mem_cons_self)
  simp only [CacheThreads.jobStep, FileFaults.all_false, hremove] at ht
  cases ht
  refine ⟨h.memory, fun clear' hc => ?_, ?_, ?_⟩
  · rcases h.left_of_remaining hrunning rfl hc with hempty | ⟨rfl, hleft⟩
    · refine Or.inl fun other => Bool.eq_false_of_not_eq_true fun he => ?_
      rw [FileManager.fileExists_erase_iff, hempty other] at he
      cases he.2
    · refine Or.inr (Or.inr ⟨_, contents, rfl, rfl, fun other he => ?_⟩)
      obtain ⟨hne, he⟩ := FileManager.fileExists_erase_iff.mp he
      refine (List.mem_cons.mp (hleft other he)).resolve_left ?_
      rintro rfl
      exact hne rfl
  · rintro _ _ _ ⟨⟩ ⟨⟩
    obtain ⟨hnotin, hnodup⟩ := List.nodup_cons.mp hnodup
    refine ⟨hnodup, fun other hother => FileManager.fileExists_erase_iff.mpr ⟨fun hpath => ?_,
      hexists other (List.mem_cons_of_mem _ hother)⟩⟩
    exact hnotin (itemPath_injective _ hpath ▸ hother)
  · rintro _ _ _ ⟨⟩

/-- Every step of a job keeps empty what a clear has emptied, unless it is a file
operation of a clear that throws. -/
theorem Emptied.jobStep (h : Emptied sys s) {throws : Bool} {job : RunningJob}
    (hrunning : s.running = some job) (hsafe : job.OnDirectory → throws = false)
    (ht : s.jobStep sys throws job = some t) : Emptied sys t := by
  have hidle : ¬ job.OnDirectory → ∀ clear, Cleared clear s.log → NoFile sys s.cache :=
    fun hjob clear hc => h.noFile hc fun job' hr => by
      rw [hrunning, Option.some.injEq] at hr
      exact hr ▸ hjob
  have hoff : ∀ {P : Prop}, job.remaining = none → (∀ clear, job ≠ .contentsOfDirectory clear) →
      (job.OnDirectory → P) := fun hnone hne hj => by
    rcases hj with ⟨clear, hj⟩ | hj
    · exact absurd hj (hne clear)
    · rw [hnone] at hj
      cases hj
  cases job with
  | storeDataToMemoryCache data key fileExtension =>
    cases ht
    refine .of_noFile (fun _ hc => absurd hc not_cleared_storeRan)
      (fun _ hc => absurd hc not_cleared_storeRan) ?_ fun _ _ _ _ _ => not_cleared_storeRan
    rintro _ ⟨⟩
    rfl
  | storeDataToDiskCache data key fileExtension =>
    cases ht
    have hnot := h.storing data key fileExtension hrunning
    refine .of_noFile (fun clear hc => absurd hc (hnot clear))
      (fun clear hc => absurd hc (hnot clear)) ?_ ?_
    · rintro _ ⟨⟩
    · rintro _ _ _ ⟨⟩
  | clearMemoryCache clear =>
    cases ht
    refine ⟨fun _ _ => rfl, fun clear' hc => ?_, ?_, ?_⟩
    · by_cases hempty : NoFile sys s.cache
      · exact Or.inl hempty
      · have hnot : ∀ c, ¬ Cleared c s.log := fun c hc =>
          hempty (hidle (hoff rfl (by rintro _ ⟨⟩)) c hc)
        rw [Cleared, since_concat] at hc
        rcases hc with hc | ⟨_, hc⟩
        · cases hc
          exact Or.inr (Or.inl rfl)
        · exact absurd hc (hnot clear')
    · rintro _ _ _ ⟨⟩ ⟨⟩
    · rintro _ _ _ ⟨⟩
  | contentsOfDirectory clear =>
    obtain rfl := hsafe (Or.inl ⟨clear, rfl⟩)
    exact h.contentsOfDirectory hrunning ht
  | attributesOfItem clear contents folderSize =>
    obtain rfl := hsafe (Or.inr rfl)
    exact h.attributesOfItem hrunning ht
  | removeItem clear name contents folderSize =>
    obtain rfl := hsafe (Or.inr rfl)
    exact h.removeItem hrunning ht
  | dispatchCompletion clear size =>
    cases ht
    refine .of_noFile h.memory (hidle (hoff rfl (by rintro _ ⟨⟩))) ?_ ?_
    · rintro _ ⟨⟩
    · rintro _ _ _ ⟨⟩
  | queryURLFromCache id key fileExtension =>
    obtain ⟨answer, hcalls, _⟩ := s.cache.queryURLFromCache_eq sys key fileExtension
    rw [CacheThreads.jobStep, hcalls] at ht
    cases ht
    refine .of_noFile (fun clear hc => h.memory clear (cleared_answered.mp hc))
      (fun clear hc => hidle (hoff rfl (by rintro _ ⟨⟩)) clear (cleared_answered.mp hc)) ?_ ?_
    · rintro _ ⟨⟩
    · rintro _ _ _ ⟨⟩

theorem Emptied.beginJob (h : Emptied sys s) (hrunning : s.running = none) (job : QueueJob) :
    Emptied sys (s.beginJob job) := by
  have hnone : ∀ clear, Cleared clear s.log → NoFile sys s.cache := fun clear hc =>
    h.noFile hc fun job hr => by rw [hrunning] at hr; cases hr
  cases job <;>
  · refine .of_noFile h.memory hnone ?_ ?_
    · rintro _ ⟨⟩
      rfl
    · rintro _ _ _ ⟨⟩

/-- Every safe step keeps empty what a clear has emptied. -/
theorem Emptied.next {cache : VideoCacheManager} {e : CacheEvent} (h : Emptied sys s)
    (hsafe : SafeStep s e) (ht : (cacheThreads sys cache).next s e = some t) : Emptied sys t := by
  cases e with
  | storeDataToCache | clearCache =>
    cases ht
    exact h.of_frame rfl rfl (fun _ => Iff.rfl) h.memory
  | queryURLFromCache | queryDataFromCache =>
    cases ht
    exact h.of_frame rfl rfl (fun _ => cleared_concat_of_ne (by simp) (by simp)) h.memory
  | queueStep throws =>
    simp only [cacheThreads] at ht
    split at ht
    · rename_i job hrunning
      exact h.jobStep hrunning (hsafe job hrunning) ht
    · rename_i job jobs hrunning _
      cases ht
      have hq : Emptied sys { s with queue := jobs } :=
        h.of_frame rfl rfl (fun _ => Iff.rfl) h.memory
      exact hq.beginJob hrunning job
    · cases ht
  | queryStep id throws =>
    simp only [cacheThreads] at ht
    split at ht
    · cases ht
    · rename_i step hstep
      cases ht
      obtain ⟨hrunning, _, _, _, hdisk, hcache, hlog⟩ := s.queryStep_frame sys throws id step
      refine h.of_frame hdisk hrunning (fun clear => ?_) fun clear hc => ?_
      · rcases hlog with hlog | ⟨found, hlog⟩
        · rw [hlog]
        · rw [hlog, cleared_answered]
      · rcases hcache with hcache | ⟨data, key, rfl⟩
        · rw [hcache]
          exact h.memory clear hc
        · exact absurd hc (hsafe data key hstep clear)
  | completionStep =>
    simp only [cacheThreads] at ht
    split at ht
    · cases ht
    · cases ht
      exact h.of_frame rfl rfl (fun _ => cleared_concat_of_ne (by simp) (by simp)) h.memory
  | evict key =>
    cases ht
    refine h.of_frame rfl rfl (fun _ => Iff.rfl) fun clear hc => ?_
    rw [h.memory clear hc]
    rfl

end TiktokClone
