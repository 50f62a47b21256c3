import TiktokClone.Cache.Emptying
import TiktokClone.Cache.Provenance

/-!
# The queue comes to rest

Stores, clears and URL queries wait on one serial queue, and a clear loops over whatever files
it finds. From an empty cache on the queue never hangs, whichever operations throw, as long as
the sizes of what is stored can be read; and the number of its steps is bounded by the calls
alone.
-/

namespace TiktokClone

open Library

/-- The number of files on disk. -/
def FileManager.count (m : FileManager) : Nat := m.files.keys.length

theorem FileManager.count_createFile_le (m : FileManager) (path : String)
    (contents : Option Data) : (m.createFile path contents).count ≤ m.count + 1 := by
  have hkeys : (m.createFile path contents).files.keys = path :: m.files.keys.erase path :=
    AList.keys_insert ..
  rw [count, hkeys, List.length_cons]
  exact Nat.succ_le_succ List.length_erase_le

theorem FileManager.count_of_removeItem {m m' : FileManager} {faults : FileFaults} {path : String}
    (h : m.removeItem faults path = some m') : m'.count ≤ m.count := by
  obtain ⟨_, hm⟩ := Option.ite_none_left_eq_some.mp h
  obtain rfl := Option.some.inj hm
  have hkeys : (m.files.erase path).keys = m.files.keys.erase path := AList.keys_erase ..
  rw [count, hkeys]
  exact List.length_erase_le

theorem FileManager.length_contentsOfDirectory {m : FileManager} {faults : FileFaults}
    {directory : String} {names : List String}
    (h : m.contentsOfDirectory faults directory = some names) : names.length ≤ m.count := by
  rw [← FileManager.contentsOfDirectory_eq_some h]
  exact List.length_filterMap_le _ _

/-! ### The work that is left -/

/-- The files that there are at most after a job, with this many before it. -/
def QueueJob.filesAfter (files : Nat) : QueueJob → Nat
  | storeDataToCache _ _ _ => files + 1
  | clearCache | queryURLFromCache _ _ _ => files

/-- The steps that a job takes at most. A clear takes two for each file. -/
def QueueJob.work (files : Nat) : QueueJob → Nat
  | storeDataToCache _ _ _ => 3
  | clearCache => 2 * files + 5
  | queryURLFromCache _ _ _ => 2

def RunningJob.filesAfter (files : Nat) : RunningJob → Nat
  | storeDataToMemoryCache _ _ _ | storeDataToDiskCache _ _ _ => files + 1
  | clearMemoryCache _ | contentsOfDirectory _ | attributesOfItem _ _ _ | removeItem _ _ _ _
  | dispatchCompletion _ _ | queryURLFromCache _ _ _ => files

def RunningJob.work (files : Nat) : RunningJob → Nat
  | storeDataToMemoryCache _ _ _ => 2
  | storeDataToDiskCache _ _ _ => 1
  | clearMemoryCache _ => 2 * files + 4
  | contentsOfDirectory _ => 2 * files + 3
  | attributesOfItem _ contents _ => 2 * contents.length + 2
  | removeItem _ _ contents _ => 2 * contents.length + 3
  | dispatchCompletion _ _ => 1
  | queryURLFromCache _ _ _ => 1

/-- The steps of jobs one after another. -/
def queueWork : Nat → List QueueJob → Nat
  | _, [] => 0
  | files, job :: jobs => job.work files + queueWork (job.filesAfter files) jobs

theorem QueueJob.filesAfter_mono {files files' : Nat} (h : files ≤ files') (job : QueueJob) :
    job.filesAfter files ≤ job.filesAfter files' := by
  cases job with
  | storeDataToCache data key fileExtension => exact Nat.succ_le_succ h
  | clearCache => exact h
  | queryURLFromCache id key fileExtension => exact h

theorem QueueJob.work_mono {files files' : Nat} (h : files ≤ files') (job : QueueJob) :
    job.work files ≤ job.work files' := by
  cases job with
  | storeDataToCache data key fileExtension => exact le_rfl
  | clearCache =>
    simp only [work]
    omega
  | queryURLFromCache id key fileExtension => exact le_rfl

theorem queueWork_mono {files files' : Nat} (h : files ≤ files') (jobs : List QueueJob) :
    queueWork files jobs ≤ queueWork files' jobs := by
  induction jobs generalizing files files' with
  | nil => exact le_rfl
  | cons job jobs ih => exact Nat.add_le_add (job.work_mono h) (ih (job.filesAfter_mono h))

theorem foldl_filesAfter_mono {files files' : Nat} (h : files ≤ files') (jobs : List QueueJob) :
    jobs.foldl QueueJob.filesAfter files ≤ jobs.foldl QueueJob.filesAfter files' := by
  induction jobs generalizing files files' with
  | nil => exact h
  | cons job jobs ih => exact ih (job.filesAfter_mono h)

theorem queueWork_concat (files : Nat) (jobs : List QueueJob) (job : QueueJob) :
    queueWork files (jobs ++ [job]) =
      queueWork files jobs + job.work (jobs.foldl QueueJob.filesAfter files) := by
  induction jobs generalizing files with
  | nil => simp [queueWork]
  | cons first jobs ih =>
    rw [List.cons_append, queueWork, ih, queueWork, List.foldl_cons, Nat.add_assoc]

namespace CacheThreads

/-- The steps that the running job still takes at most. -/
def runningWork (s : CacheThreads) : Nat :=
  (s.running.map (RunningJob.work s.cache.diskCache.count)).getD 0

/-- The files that there are at most when the running job is done. -/
def filesLeft (s : CacheThreads) : Nat :=
  (s.running.map (RunningJob.filesAfter s.cache.diskCache.count)).getD s.cache.diskCache.count

/-- The steps of the queue that are left at most. -/
def work (s : CacheThreads) : Nat := s.runningWork + queueWork s.filesLeft s.queue

/-- The files that there are at most when the queue is empty. -/
def finalFiles (s : CacheThreads) : Nat := s.queue.foldl QueueJob.filesAfter s.filesLeft

/-- The clears whose completions have been called. -/
def completed (s : CacheThreads) : List Nat := s.log.filterMap fun
  | .clearCompleted clear => some clear
  | .storeRan | .memoryCleared _ | .queryStarted _ | .answered _ _ => none

/-- The clears that have begun: with completions called, or waiting, or still running. -/
def begun (s : CacheThreads) : List Nat :=
  s.completed ++ (s.mainQueue.map Prod.fst ++ (s.running.bind RunningJob.clear).toList)

/-- What a step of the running job does to the files and to what is left to do. -/
structure JobProgress (s t : CacheThreads) (job : RunningJob) : Prop where
  queue : t.queue = s.queue
  clears : t.clears = s.clears
  work : t.runningWork < job.work s.cache.diskCache.count
  files : t.filesLeft ≤ job.filesAfter s.cache.diskCache.count
  begun : t.begun = s.completed ++ (s.mainQueue.map Prod.fst ++ job.clear.toList)
  storing : ∀ next call, t.running = some next → next.storing = some call →
    job.storing = some call
  disk : ∀ path data, t.cache.diskCache.contents path = some data →
    s.cache.diskCache.contents path = some data ∨ ∃ contents key fileExtension,
      job.storing = some (.storeDataToCache contents key fileExtension) ∧ data = contents.getD []

/-- A step of a clear that goes on and creates no file. -/
theorem JobProgress.of_next {s : CacheThreads} {job next : RunningJob} {m : VideoCacheManager}
    (hcount : m.diskCache.count ≤ s.cache.diskCache.count)
    (hwork : next.work m.diskCache.count < job.work s.cache.diskCache.count)
    (hnext : next.storing = none ∧ next.filesAfter m.diskCache.count = m.diskCache.count)
    (hjob : job.filesAfter s.cache.diskCache.count = s.cache.diskCache.count)
    (hclear : next.clear = job.clear)
    (hdisk : ∀ path data, m.diskCache.contents path = some data →
      s.cache.diskCache.contents path = some data) :
    JobProgress s { s with cache := m, running := some next } job where
  queue := rfl
  clears := rfl
  work := hwork
  files := by
    rw [hjob]
    exact hnext.2.le.trans hcount
  begun := by rw [← hclear]; rfl
  storing := by
    rintro _ call ⟨⟩ hcall
    rw [hnext.1] at hcall
    cases hcall
  disk path data hd := Or.inl (hdisk path data hd)

theorem jobStep_progress {sys : CacheSystem} {s t : CacheThreads} {throws : Bool}
    {job : RunningJob} (ht : s.jobStep sys throws job = some t) : JobProgress s t job := by
  cases job with
  | storeDataToMemoryCache data key fileExtension =>
    obtain rfl := Option.some.inj ht
    refine ⟨rfl, rfl, Nat.lt_succ_self 1, le_rfl, ?_, ?_, fun _ _ hd => Or.inl hd⟩
    · simp [begun, completed, RunningJob.clear]
    · rintro _ call ⟨⟩ hcall
      exact hcall
  | storeDataToDiskCache data key fileExtension =>
    obtain rfl := Option.some.inj ht
    refine ⟨rfl, rfl, Nat.zero_lt_one, ?_, rfl, by rintro _ _ ⟨⟩, fun path contents hd => ?_⟩
    · cases throws with
      | true => exact Nat.le_succ _
      | false => exact FileManager.count_createFile_le _ _ data
    · cases throws with
      | true => exact Or.inl hd
      | false =>
        rcases FileManager.contents_createFile hd with ⟨_, hcontents⟩ | hold
        · exact Or.inr ⟨data, key, fileExtension, rfl, hcontents⟩
        · exact Or.inl hold
  | clearMemoryCache clear =>
    obtain rfl := Option.some.inj ht
    refine ⟨rfl, rfl, Nat.lt_succ_self _, le_rfl, ?_, ?_, fun _ _ hd => Or.inl hd⟩
    · simp [begun, completed, RunningJob.clear]
    · rintro _ _ ⟨⟩ ⟨⟩
  | contentsOfDirectory clear =>
    simp only [jobStep] at ht
    split at ht
    · obtain rfl := Option.some.inj ht
      refine .of_next le_rfl ?_ ⟨rfl, rfl⟩ rfl rfl fun _ _ hd => hd
      simp only [RunningJob.work]
      omega
    · rename_i contents hcontents
      obtain rfl := Option.some.inj ht
      have hlength := FileManager.length_contentsOfDirectory hcontents
      refine .of_next le_rfl ?_ ⟨rfl, rfl⟩ rfl rfl fun _ _ hd => hd
      simp only [RunningJob.work]
      omega
  | attributesOfItem clear contents folderSize =>
    cases contents with
    | nil =>
      obtain rfl := Option.some.inj ht
      exact .of_next le_rfl (Nat.lt_succ_self 1) ⟨rfl, rfl⟩ rfl rfl fun _ _ hd => hd
    | cons name contents =>
      simp only [jobStep] at ht
      split at ht
      · obtain rfl := Option.some.inj ht
        refine .of_next le_rfl ?_ ⟨rfl, rfl⟩ rfl rfl fun _ _ hd => hd
        simp only [RunningJob.work]
        omega
      · split at ht
        · cases ht
        · obtain rfl := Option.some.inj ht
          refine .of_next le_rfl ?_ ⟨rfl, rfl⟩ rfl rfl fun _ _ hd => hd
          simp only [RunningJob.work, List.length_cons]
          omega
  | removeItem clear name contents folderSize =>
    simp only [jobStep] at ht
    split at ht
    · obtain rfl := Option.some.inj ht
      refine .of_next le_rfl ?_ ⟨rfl, rfl⟩ rfl rfl fun _ _ hd => hd
      simp only [RunningJob.work]
      omega
    · rename_i diskCache hremove
      obtain rfl := Option.some.inj ht
      exact .of_next (FileManager.count_of_removeItem hremove) (Nat.lt_succ_self _) ⟨rfl, rfl⟩ rfl
        rfl fun _ _ hd => FileManager.contents_removeItem hremove hd
  | dispatchCompletion clear size =>
    obtain rfl := Option.some.inj ht
    refine ⟨rfl, rfl, Nat.zero_lt_one, le_rfl, ?_, by rintro _ _ ⟨⟩, fun _ _ hd => Or.inl hd⟩
    simp [begun, completed, RunningJob.clear]
  | queryURLFromCache id key fileExtension =>
    obtain rfl := Option.some.inj ht
    refine ⟨rfl, rfl, Nat.zero_lt_one, le_rfl, ?_, by rintro _ _ ⟨⟩, fun _ _ hd => Or.inl hd⟩
    obtain ⟨answer, hanswer, _⟩ := s.cache.queryURLFromCache_eq sys key fileExtension
    simp [begun, completed, RunningJob.clear, hanswer]

/-- A step of a data query has nothing to do with the queue. -/
theorem queryStep_queue (sys : CacheSystem) (s : CacheThreads) (throws : Bool) (id : Nat)
    (step : QueryStep) : (s.queryStep sys throws id step).queue = s.queue := by
  cases step with
  | dataFromMemoryCache key fileExtension =>
    rw [queryStep]
    split <;> rfl
  | dataFromDiskCache key fileExtension =>
    rw [queryStep]
    split <;> rfl
  | storeDataToMemoryCache data key => rfl

end CacheThreads

/-- The job that a call submits when so many queries have started. -/
def CacheEvent.queueJob (started : Nat) : CacheEvent → Option QueueJob
  | storeDataToCache data key fileExtension => some (.storeDataToCache data key fileExtension)
  | clearCache => some .clearCache
  | queryURLFromCache key fileExtension => some (.queryURLFromCache started key fileExtension)
  | queryDataFromCache _ _ | queueStep _ | queryStep _ _ | completionStep | evict _ => none

def CacheEvent.isQueueStep : CacheEvent → Bool
  | queueStep _ => true
  | _ => false

/-- What a step can do to the queue, the files and the begun clears. -/
inductive DrainStep (s t : CacheThreads) (e : CacheEvent) : Prop
  | submitted (job : QueueJob) (queue : t.queue = s.queue ++ [job])
      (event : e.queueJob s.started = some job)
      (running : t.running = s.running) (disk : t.cache.diskCache = s.cache.diskCache)
      (clears : t.clears = s.clears) (begun : t.begun = s.begun)
  | started (job : QueueJob) (throws : Bool) (event : e = .queueStep throws)
      (idle : s.running = none) (queue : s.queue = job :: t.queue)
      (result : t = { s with queue := t.queue }.beginJob job)
  | ran (job : RunningJob) (throws : Bool) (event : e = .queueStep throws)
      (running : s.running = some job) (progress : CacheThreads.JobProgress s t job)
  | beside (event : e.queueJob s.started = none ∧ e.isQueueStep = false)
      (queue : t.queue = s.queue)
      (running : t.running = s.running) (disk : t.cache.diskCache = s.cache.diskCache)
      (clears : t.clears = s.clears) (begun : t.begun = s.begun)

theorem drainStep_of_next {sys : CacheSystem} {cache : VideoCacheManager} {s t : CacheThreads}
    {e : CacheEvent} (hn : (cacheThreads sys cache).next s e = some t) : DrainStep s t e := by
  cases e with
  | storeDataToCache data key fileExtension =>
    obtain rfl := Option.some.inj hn
    exact .submitted _ rfl rfl rfl rfl rfl rfl
  | clearCache =>
    obtain rfl := Option.some.inj hn
    exact .submitted _ rfl rfl rfl rfl rfl rfl
  | queryURLFromCache key fileExtension =>
    obtain rfl := Option.some.inj hn
    refine .submitted (.queryURLFromCache s.started key fileExtension) rfl rfl rfl rfl rfl ?_
    simp [CacheThreads.begun, CacheThreads.completed, CacheThreads.submit]
  | queryDataFromCache key fileExtension =>
    obtain rfl := Option.some.inj hn
    refine .beside ⟨rfl, rfl⟩ rfl rfl rfl rfl ?_
    simp [CacheThreads.begun, CacheThreads.completed]
  | queueStep throws =>
    simp only [cacheThreads] at hn
    split at hn
    · rename_i job hrunning
      exact .ran job throws rfl hrunning (CacheThreads.jobStep_progress hn)
    · rename_i job jobs hidle hqueue
      obtain rfl := Option.some.inj hn
      have hsame : ({ s with queue := jobs }.beginJob job).queue = jobs := by
        cases job <;> rfl
      refine .started job throws rfl hidle ?_ ?_
      · rw [hsame, hqueue]
      · rw [hsame]
    · cases hn
  | queryStep id throws =>
    simp only [cacheThreads] at hn
    split at hn
    · cases hn
    · rename_i step _
      obtain rfl := Option.some.inj hn
      obtain ⟨hrunning, hmain, hclears, _, hdisk, _, hlog⟩ := s.queryStep_frame sys throws id step
      refine .beside ⟨rfl, rfl⟩ (s.queryStep_queue sys throws id step) hrunning hdisk hclears ?_
      rw [CacheThreads.begun, CacheThreads.begun, CacheThreads.completed, hmain, hrunning]
      rcases hlog with hlog | ⟨found, hlog⟩
      · rw [hlog, CacheThreads.completed]
      · simp [hlog, CacheThreads.completed]
  | completionStep =>
    simp only [cacheThreads] at hn
    split at hn
    · cases hn
    · rename_i clear size mainQueue hmain
      obtain rfl := Option.some.inj hn
      refine .beside ⟨rfl, rfl⟩ rfl rfl rfl rfl ?_
      simp [CacheThreads.begun, CacheThreads.completed, hmain]
  | evict key =>
    obtain rfl := Option.some.inj hn
    exact .beside ⟨rfl, rfl⟩ rfl rfl rfl rfl rfl

/-! ### No step hangs -/

/-- A clear can read the size of what this call stores. -/
def CacheEvent.Readable : CacheEvent → Prop
  | storeDataToCache data _ _ => (forcedFloat (data.getD []).length).isSome = true
  | clearCache | queryURLFromCache _ _ | queryDataFromCache _ _ | queueStep _ | queryStep _ _
  | completionStep | evict _ => True

/-- The sizes of all files can be read, also of those still to be stored. -/
structure ReadableThreads (s : CacheThreads) : Prop where
  queue : ∀ data key fileExtension, .storeDataToCache data key fileExtension ∈ s.queue →
    (CacheEvent.storeDataToCache data key fileExtension).Readable
  running : ∀ job call, s.running = some job → job.storing = some call → call.Readable
  disk : ∀ path data, s.cache.diskCache.contents path = some data →
    (forcedFloat data.length).isSome = true

section Drain

variable {sys : CacheSystem} {cache : VideoCacheManager} {s t : CacheThreads} {e : CacheEvent}
  {events : List CacheEvent}

theorem ReadableThreads.next (h : ReadableThreads s) (he : e.Readable)
    (hstep : DrainStep s t e) : ReadableThreads t := by
  cases hstep with
  | submitted job hqueue hevent hrunning hdisk =>
    refine ⟨fun data key fileExtension hm => ?_, hrunning ▸ h.running, hdisk ▸ h.disk⟩
    rw [hqueue, List.mem_append, List.mem_singleton] at hm
    rcases hm with hold | rfl
    · exact h.queue data key fileExtension hold
    · cases e with
      | storeDataToCache =>
        cases hevent
        exact he
      | clearCache | queryURLFromCache | queryDataFromCache | queueStep | queryStep
      | completionStep | evict => cases hevent
  | started job throws _ hidle hqueue ht =>
    have hrest : ∀ data key fileExtension, .storeDataToCache data key fileExtension ∈ t.queue →
        (CacheEvent.storeDataToCache data key fileExtension).Readable :=
      fun data key fileExtension hm =>
        h.queue data key fileExtension (hqueue ▸ List.mem_cons_of_mem _ hm)
    refine ⟨hrest, fun running call hr hc => ?_, ?_⟩
    · rw [ht] at hr
      cases job with
      | storeDataToCache data key fileExtension =>
        cases hr
        cases hc
        exact h.queue data key fileExtension (hqueue ▸ List.mem_cons_self)
      | clearCache =>
        cases hr
        cases hc
      | queryURLFromCache id key fileExtension =>
        cases hr
        cases hc
    · have hsame : t.cache = s.cache := by
        rw [ht]
        cases job <;> rfl
      rw [hsame]
      exact h.disk
  | ran job throws _ hrunning hprogress =>
    refine ⟨hprogress.queue ▸ h.queue, fun next call hr hc => ?_, fun path data hd => ?_⟩
    · exact h.running job call hrunning (hprogress.storing next call hr hc)
    · rcases hprogress.disk path data hd with hold | ⟨contents, key, fileExtension, hcall, rfl⟩
      · exact h.disk path data hold
      · exact h.running job _ hrunning hcall
  | beside _ hqueue hrunning hdisk =>
    exact ⟨hqueue ▸ h.queue, hrunning ▸ h.running, hdisk ▸ h.disk⟩

/-- Only the forced cast of a size could trap. -/
theorem CacheThreads.exists_jobStep (h : ReadableThreads s) (throws : Bool) (job : RunningJob) :
    ∃ t, s.jobStep sys throws job = some t := by
  cases job with
  | contentsOfDirectory clear =>
    rw [jobStep]
    split
    · exact ⟨_, rfl⟩
    · exact ⟨_, rfl⟩
  | attributesOfItem clear contents folderSize =>
    cases contents with
    | nil => exact ⟨_, rfl⟩
    | cons name contents =>
      rw [jobStep]
      split
      · exact ⟨_, rfl⟩
      · rename_i size hsize
        obtain ⟨_, hlookup⟩ := Option.ite_none_left_eq_some.mp hsize
        obtain ⟨data, hdata, rfl⟩ := Option.map_eq_some_iff.mp hlookup
        obtain ⟨x, hx⟩ := Option.isSome_iff_exists.mp (h.disk _ data hdata)
        exact ⟨_, by rw [hx]⟩
  | removeItem clear name contents folderSize =>
    rw [jobStep]
    split
    · exact ⟨_, rfl⟩
    · exact ⟨_, rfl⟩
  | storeDataToMemoryCache | storeDataToDiskCache | clearMemoryCache | dispatchCompletion
  | queryURLFromCache => exact ⟨_, rfl⟩

/-- The queue can go on exactly when it has something to do. -/
theorem exists_queueStep_iff (h : ReadableThreads s) (throws : Bool) :
    (∃ t, (cacheThreads sys cache).next s (.queueStep throws) = some t) ↔
      s.running ≠ none ∨ s.queue ≠ [] := by
  simp only [cacheThreads]
  cases hrunning : s.running with
  | some job =>
    exact iff_of_true (CacheThreads.exists_jobStep h throws job) (Or.inl (Option.some_ne_none _))
  | none =>
    cases hqueue : s.queue with
    | cons job jobs => exact iff_of_true ⟨_, rfl⟩ (Or.inr (List.cons_ne_nil _ _))
    | nil =>
      refine iff_of_false ?_ (by simp)
      rintro ⟨_, hn⟩
      cases hn

/-! ### The steps are bounded by the calls -/

def CacheEvent.isStore : CacheEvent → Bool
  | storeDataToCache _ _ _ => true
  | _ => false

def CacheEvent.isURLQuery : CacheEvent → Bool
  | queryURLFromCache _ _ => true
  | _ => false

/-- The steps that the queue takes at most for so many calls. Each clear may find a file of
every store. -/
def stepBound (stores queries clears : Nat) : Nat :=
  3 * stores + 2 * queries + clears * (2 * stores + 5)

theorem stepBound_store (stores queries clears : Nat) :
    stepBound stores queries clears + 3 ≤ stepBound (stores + 1) queries clears := by
  have hmore : clears * (2 * stores + 5) ≤ clears * (2 * (stores + 1) + 5) :=
    Nat.mul_le_mul_left clears (by omega)
  simp only [stepBound]
  omega

theorem stepBound_urlQuery (stores queries clears : Nat) :
    stepBound stores queries clears + 2 ≤ stepBound stores (queries + 1) clears := by
  simp only [stepBound]
  omega

theorem stepBound_clear {files stores : Nat} (h : files ≤ stores) (queries clears : Nat) :
    stepBound stores queries clears + (2 * files + 5) ≤ stepBound stores queries (clears + 1) := by
  simp only [stepBound, Nat.succ_mul]
  omega

/-- The steps taken and left are within the bound, and clears begin and end in order. -/
structure Draining (events : List CacheEvent) (s : CacheThreads) : Prop where
  files : s.finalFiles ≤ events.countP CacheEvent.isStore
  work : events.countP CacheEvent.isQueueStep + s.work ≤
    stepBound (events.countP CacheEvent.isStore) (events.countP CacheEvent.isURLQuery)
      (events.count .clearCache)
  begun : s.begun = List.range s.clears
  clears : s.clears + s.queue.count .clearCache = events.count .clearCache

theorem draining_idle : Draining [] (.idle .empty) where
  files := Nat.zero_le _
  work := le_rfl
  begun := rfl
  clears := rfl

theorem countP_concat (events : List CacheEvent) (e : CacheEvent) (p : CacheEvent → Bool) :
    (events ++ [e]).countP p = events.countP p + if p e = true then 1 else 0 := by
  rw [List.countP_append, List.countP_singleton]

theorem count_concat (events : List CacheEvent) (e : CacheEvent) :
    (events ++ [e]).count .clearCache =
      events.count .clearCache + if e = .clearCache then 1 else 0 := by
  rw [List.count_append, List.count_singleton]
  simp only [beq_iff_eq]

/-- Another call brings as many steps as its job takes at most. -/
theorem Draining.submit (h : Draining events s) {job : QueueJob}
    (hevent : e.queueJob s.started = some job) (hqueue : t.queue = s.queue ++ [job])
    (hrunning : t.running = s.running)
    (hdisk : t.cache.diskCache = s.cache.diskCache) (hclears : t.clears = s.clears)
    (hbegun : t.begun = s.begun) : Draining (events ++ [e]) t := by
  have hleft : t.filesLeft = s.filesLeft := by
    rw [CacheThreads.filesLeft, CacheThreads.filesLeft, hrunning, hdisk]
  have hfiles : t.finalFiles = job.filesAfter s.finalFiles := by
    rw [CacheThreads.finalFiles, CacheThreads.finalFiles, hqueue, hleft, List.foldl_append,
      List.foldl_cons, List.foldl_nil]
  have hwork : t.work = s.work + job.work s.finalFiles := by
    have hsame : t.runningWork = s.runningWork := by
      rw [CacheThreads.runningWork, CacheThreads.runningWork, hrunning, hdisk]
    rw [CacheThreads.work, CacheThreads.work, hsame, hqueue, hleft, queueWork_concat,
      CacheThreads.finalFiles, Nat.add_assoc]
  have hbegun' : t.begun = List.range t.clears := by rw [hbegun, hclears, h.begun]
  have hqueued : t.clears + t.queue.count .clearCache =
      events.count .clearCache + if job = .clearCache then 1 else 0 := by
    rw [hclears, hqueue, List.count_append, ← Nat.add_assoc, h.clears, List.count_singleton]
    simp only [beq_iff_eq]
  have hold := h.work
  have hfound := h.files
  cases e with
  | clearCache =>
    cases hevent
    refine ⟨?_, ?_, hbegun', ?_⟩
    · rw [hfiles, countP_concat]
      exact hfound
    · rw [hwork, ← Nat.add_assoc, countP_concat, countP_concat, countP_concat, count_concat]
      exact (Nat.add_le_add_right hold _).trans (stepBound_clear hfound _ _)
    · rw [hqueued, count_concat]
      rfl
  | storeDataToCache data key fileExtension =>
    cases hevent
    refine ⟨?_, ?_, hbegun', ?_⟩
    · rw [hfiles, countP_concat]
      exact Nat.succ_le_succ hfound
    · rw [hwork, ← Nat.add_assoc, countP_concat, countP_concat, countP_concat, count_concat]
      exact (Nat.add_le_add_right hold _).trans (stepBound_store _ _ _)
    · rw [hqueued, count_concat]
      rfl
  | queryURLFromCache key fileExtension =>
    cases hevent
    refine ⟨?_, ?_, hbegun', ?_⟩
    · rw [hfiles, countP_concat]
      exact hfound
    · rw [hwork, ← Nat.add_assoc, countP_concat, countP_concat, countP_concat, count_concat]
      exact (Nat.add_le_add_right hold _).trans (stepBound_urlQuery _ _ _)
    · rw [hqueued, count_concat]
      rfl
  | queryDataFromCache | queueStep | queryStep | completionStep | evict => cases hevent

/-- The queue takes its next job, the first of the steps that were counted for it. -/
theorem CacheThreads.work_beginJob {jobs : List QueueJob} {job : QueueJob}
    (hidle : s.running = none) (hqueue : s.queue = job :: jobs) :
    ({ s with queue := jobs }.beginJob job).work + 1 = s.work ∧
      ({ s with queue := jobs }.beginJob job).finalFiles = s.finalFiles := by
  have hwork : s.work = job.work s.cache.diskCache.count +
      queueWork (job.filesAfter s.cache.diskCache.count) jobs := by
    rw [work, runningWork, filesLeft, hidle, hqueue]
    exact Nat.zero_add _
  have hfiles : s.finalFiles =
      jobs.foldl QueueJob.filesAfter (job.filesAfter s.cache.diskCache.count) := by
    rw [finalFiles, filesLeft, hidle, hqueue]
    rfl
  rw [hwork, hfiles]
  cases job with
  | storeDataToCache data key fileExtension =>
    refine ⟨?_, rfl⟩
    change 2 + queueWork (s.cache.diskCache.count + 1) jobs + 1 =
      3 + queueWork (s.cache.diskCache.count + 1) jobs
    omega
  | clearCache =>
    refine ⟨?_, rfl⟩
    change 2 * s.cache.diskCache.count + 4 + queueWork s.cache.diskCache.count jobs + 1 =
      2 * s.cache.diskCache.count + 5 + queueWork s.cache.diskCache.count jobs
    omega
  | queryURLFromCache id key fileExtension =>
    refine ⟨?_, rfl⟩
    change 1 + queueWork s.cache.diskCache.count jobs + 1 =
      2 + queueWork s.cache.diskCache.count jobs
    omega

/-- A step of the running job uses up at least one of the steps that were counted. -/
theorem CacheThreads.JobProgress.work_lt {job : RunningJob} (h : CacheThreads.JobProgress s t job)
    (hrunning : s.running = some job) : t.work < s.work ∧ t.finalFiles ≤ s.finalFiles := by
  have hleft : s.filesLeft = job.filesAfter s.cache.diskCache.count := by
    rw [CacheThreads.filesLeft, hrunning]
    rfl
  have hrun : s.runningWork = job.work s.cache.diskCache.count := by
    rw [CacheThreads.runningWork, hrunning]
    rfl
  rw [CacheThreads.work, CacheThreads.work, CacheThreads.finalFiles, CacheThreads.finalFiles,
    h.queue, hleft, hrun]
  exact ⟨Nat.add_lt_add_of_lt_of_le h.work (queueWork_mono h.files _),
    foldl_filesAfter_mono h.files _⟩

/-- A step of the queue is paid for by the work that it does. -/
theorem Draining.queueStep (h : Draining events s) (throws : Bool) (hwork : t.work < s.work)
    (hfiles : t.finalFiles ≤ s.finalFiles) (hbegun : t.begun = List.range t.clears)
    (hclears : t.clears + t.queue.count .clearCache = s.clears + s.queue.count .clearCache) :
    Draining (events ++ [.queueStep throws]) t where
  files := by
    rw [countP_concat]
    exact hfiles.trans h.files
  work := by
    rw [countP_concat, countP_concat, countP_concat, count_concat]
    have hpaid : events.countP CacheEvent.isQueueStep + 1 + t.work ≤
        events.countP CacheEvent.isQueueStep + s.work := by omega
    exact hpaid.trans h.work
  begun := hbegun
  clears := by
    rw [hclears, h.clears, count_concat]
    rfl

theorem Draining.next (h : Draining events s) (hstep : DrainStep s t e) :
    Draining (events ++ [e]) t := by
  cases hstep with
  | submitted job hqueue hevent hrunning hdisk hclears hbegun =>
    exact h.submit hevent hqueue hrunning hdisk hclears hbegun
  | started job throws he hidle hqueue ht =>
    obtain ⟨hwork, hfiles⟩ := CacheThreads.work_beginJob hidle hqueue
    rw [← ht] at hwork hfiles
    subst he
    refine h.queueStep throws (by omega) hfiles.le ?_ ?_
    · have hbegun := h.begun
      rw [CacheThreads.begun, hidle] at hbegun
      rw [ht]
      cases job with
      | storeDataToCache data key fileExtension => exact hbegun
      | queryURLFromCache id key fileExtension => exact hbegun
      | clearCache =>
        rw [Option.bind_none, Option.toList_none, List.append_nil] at hbegun
        change s.completed ++ (s.mainQueue.map Prod.fst ++ [s.clears]) = List.range (s.clears + 1)
        rw [← List.append_assoc, hbegun, List.range_succ]
    · have hclears : t.clears = s.clears + if job = .clearCache then 1 else 0 := by
        rw [ht]
        cases job <;> rfl
      rw [hclears, hqueue, List.count_cons]
      simp only [beq_iff_eq]
      omega
  | ran job throws he hrunning hprogress =>
    obtain ⟨hwork, hfiles⟩ := hprogress.work_lt hrunning
    subst he
    refine h.queueStep throws hwork hfiles ?_ ?_
    · rw [hprogress.clears, ← h.begun, hprogress.begun, CacheThreads.begun, hrunning]
      rfl
    · rw [hprogress.clears, hprogress.queue]
  | beside he hqueue hrunning hdisk hclears hbegun =>
    obtain ⟨hjob, hstep⟩ := he
    obtain ⟨hstore, hquery, hclear⟩ :
        e.isStore = false ∧ e.isURLQuery = false ∧ e ≠ .clearCache := by
      cases e with
      | storeDataToCache | clearCache | queryURLFromCache => cases hjob
      | queryDataFromCache | queueStep | queryStep | completionStep | evict =>
        exact ⟨rfl, rfl, by simp⟩
    have hwork : t.work = s.work ∧ t.finalFiles = s.finalFiles := by
      simp only [CacheThreads.work, CacheThreads.finalFiles, CacheThreads.runningWork,
        CacheThreads.filesLeft, hqueue, hrunning, hdisk, and_self]
    refine ⟨?_, ?_, by rw [hbegun, hclears, h.begun], ?_⟩
    · rw [hwork.2, countP_concat, hstore]
      exact h.files
    · rw [hwork.1, countP_concat, countP_concat, countP_concat, count_concat, hstep, hstore,
        hquery, if_neg hclear]
      exact h.work
    · rw [hclears, hqueue, h.clears, count_concat, if_neg hclear, Nat.add_zero]

theorem draining_of_run (h : (cacheThreads sys .empty).Run events s) : Draining events s := by
  induction h with
  | nil => exact draining_idle
  | snoc _ hn ih => exact ih.next (drainStep_of_next hn)

theorem readable_of_run (h : (cacheThreads sys .empty).Run events s)
    (hreadable : ∀ e ∈ events, e.Readable) : ReadableThreads s := by
  induction h with
  | nil =>
    refine ⟨fun _ _ _ hm => absurd hm List.not_mem_nil, fun _ _ hr => ?_, fun _ _ hd => ?_⟩
    · cases hr
    · cases hd
  | @snoc events s e t _ hn ih =>
    have hs := ih fun e' hm => hreadable e' (List.mem_append_left _ hm)
    exact hs.next (hreadable e (List.mem_append_right _ (List.mem_singleton_self e)))
      (drainStep_of_next hn)

/-- The queue gets everything done. In every interleaving of calls, queries, completions and
evictions from an empty cache, with any file operation throwing, as long as a clear can read the
sizes of what is stored: the queue can take a step exactly when it has something to do; a run has
no more of its steps than the calls allow; and once it is idle, every clear that was called has
its completion called or waiting on the main queue, once and in the order of the calls. -/
theorem queue_comes_to_rest (h : (cacheThreads sys .empty).Run events s)
    (hreadable : ∀ e ∈ events, e.Readable) :
    (∀ throws, (∃ t, (cacheThreads sys .empty).next s (.queueStep throws) = some t) ↔
      s.running ≠ none ∨ s.queue ≠ []) ∧
    events.countP CacheEvent.isQueueStep ≤
      stepBound (events.countP CacheEvent.isStore) (events.countP CacheEvent.isURLQuery)
        (events.count .clearCache) ∧
    (s.running = none → s.queue = [] →
      s.completed ++ s.mainQueue.map Prod.fst = List.range (events.count .clearCache)) := by
  have hs := draining_of_run h
  refine ⟨exists_queueStep_iff (readable_of_run h hreadable), ?_, fun hidle hqueue => ?_⟩
  · exact (Nat.le_add_right _ _).trans hs.work
  · have hbegun := hs.begun
    have hclears := hs.clears
    rw [CacheThreads.begun, hidle, Option.bind_none, Option.toList_none, List.append_nil] at hbegun
    rw [hqueue, List.count_nil, Nat.add_zero] at hclears
    rw [hbegun, hclears]

end Drain

/-- Two clears around a store, the second of which cannot remove the file. -/
def storedBetweenClears : List CacheEvent :=
  [.clearCache, .storeDataToCache (some [1]) "a" none, .clearCache] ++
    .replicate 5 (.queueStep false) ++ .replicate 3 (.queueStep false) ++ [.completionStep] ++
    .replicate 4 (.queueStep false) ++ [.queueStep true, .queueStep false]

theorem queue_comes_to_rest_storedBetweenClears : ∃ s : CacheThreads,
    s.completed ++ s.mainQueue.map Prod.fst = [0, 1] ∧
      storedBetweenClears.countP CacheEvent.isQueueStep ≤ stepBound 1 0 2 := by
  obtain ⟨s, hs, hidle, hqueue⟩ : ∃ s,
      (cacheThreads .twoKeys .empty).Run storedBetweenClears s ∧ s.running = none ∧
        s.queue = [] := ⟨_, Machine.run_iff_exec.mpr rfl, rfl, rfl⟩
  have hreadable : ∀ e ∈ storedBetweenClears, e.Readable := by
    intro e hm
    cases e with
    | storeDataToCache data key fileExtension =>
      have hstored : ∀ e ∈ storedBetweenClears, e.isStore = true →
          e = .storeDataToCache (some [1]) "a" none := by decide
      cases hstored _ hm rfl
      rfl
    | clearCache | queryURLFromCache | queryDataFromCache | queueStep | queryStep
    | completionStep | evict => trivial
  obtain ⟨_, hsteps, hdone⟩ := queue_comes_to_rest hs hreadable
  exact ⟨s, hdone hidle hqueue, hsteps⟩

end TiktokClone
