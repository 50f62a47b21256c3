import TiktokClone.Cache.Draining
import TiktokClone.Cache.ReportedSizes

/-!
# The steps refine the jobs

The cache is modelled twice: with whole jobs on a serial queue, and with single operations
that queries and evictions interleave with. As long as no operation of the queue throws, the
second refines the first. A job takes effect with its last step, and until then what is
left of it does to the files what the whole job does to the files that it began with.
-/

namespace TiktokClone

open Library

/-- The job whose steps these are. -/
def RunningJob.job : RunningJob → QueueJob
  | storeDataToMemoryCache data key fileExtension | storeDataToDiskCache data key fileExtension =>
    .storeDataToCache data key fileExtension
  | clearMemoryCache _ | contentsOfDirectory _ | attributesOfItem _ _ _ | removeItem _ _ _ _
  | dispatchCompletion _ _ => .clearCache
  | queryURLFromCache id key fileExtension => .queryURLFromCache id key fileExtension

/-- The job for the clients, without the number of a query. Absent data make an empty file. -/
def QueueJob.call : QueueJob → CacheJob
  | storeDataToCache data key fileExtension => .storeDataToCache (data.getD []) key fileExtension
  | clearCache => .clearCache
  | queryURLFromCache _ key fileExtension => .queryURLFromCache key fileExtension

/-- The serial queue with numbered queries. -/
def numberedQueue (sys : CacheSystem) :
    Machine (SerialQueue VideoCacheManager QueueJob CacheResult) (SerialQueue.Event QueueJob) :=
  SerialQueue.machine .empty fun m job => job.call.execute sys m

/-! ### What is left of a job -/

/-- The files after the loop of a clear, and the size for its completion. -/
def DiskClearing.outcome (sys : CacheSystem) : DiskClearing → Option (FileManager × CacheResult)
  | trapped => none
  | thrown diskCache => some (diskCache, .cleared "0")
  | cleared diskCache folderSize =>
    some (diskCache, .cleared ((sys.format (folderSize / 1024 / 1024)).getD "0"))

/-- What the steps that are left of a job do to the files, and what the job hands back. -/
def RunningJob.outcome (sys : CacheSystem) (m : FileManager) :
    RunningJob → Option (FileManager × CacheResult)
  | storeDataToMemoryCache data key fileExtension | storeDataToDiskCache data key fileExtension =>
    some (m.createFile (sys.diskCachePathForKey key fileExtension) data, .stored)
  | clearMemoryCache _ | contentsOfDirectory _ =>
    match m.contentsOfDirectory .none sys.diskDirectory with
    | none => some (m, .cleared "0")
    | some contents => (m.clearContents .none sys.diskDirectory contents 0).outcome sys
  | attributesOfItem _ contents folderSize =>
    (m.clearContents .none sys.diskDirectory contents folderSize).outcome sys
  | removeItem _ name contents folderSize =>
    match m.removeItem .none (itemPath sys.diskDirectory name) with
    | none => some (m, .cleared "0")
    | some m => (m.clearContents .none sys.diskDirectory contents folderSize).outcome sys
  | dispatchCompletion _ size => some (m, .cleared size)
  | queryURLFromCache _ key fileExtension =>
    some (m, .completions
      (VideoCacheManager.queryURLFromCache sys ⟨∅, m⟩ key fileExtension))

/-- The first step of a job; clears are numbered as they begin. -/
def QueueJob.first (clears : Nat) : QueueJob → RunningJob
  | storeDataToCache data key fileExtension => .storeDataToMemoryCache data key fileExtension
  | clearCache => .clearMemoryCache clears
  | queryURLFromCache id key fileExtension => .queryURLFromCache id key fileExtension

theorem CacheThreads.beginJob_eq (s : CacheThreads) (job : QueueJob) :
    s.beginJob job = { s with
      running := some (job.first s.clears)
      clears := s.clears + if job = .clearCache then 1 else 0 } := by
  cases job <;> rfl

/-- A job's first step has the whole job before it. -/
theorem QueueJob.outcome_first (sys : CacheSystem) (m : VideoCacheManager) (clears : Nat)
    (job : QueueJob) : (job.first clears).outcome sys m.diskCache =
      (job.call.execute sys m).map fun r => (r.1.diskCache, r.2) := by
  cases job with
  | storeDataToCache data key fileExtension => cases data <;> rfl
  | clearCache =>
    simp only [first, RunningJob.outcome, call, CacheJob.execute, VideoCacheManager.clearCache,
      VideoCacheManager.clearDiskCache, VideoCacheManager.clearMemoryCache]
    cases m.diskCache.contentsOfDirectory .none sys.diskDirectory with
    | none => rfl
    | some contents =>
      cases hloop : m.diskCache.clearContents .none sys.diskDirectory contents 0 with
      | trapped => simp [hloop, DiskClearing.outcome]
      | thrown diskCache => simp [hloop, DiskClearing.outcome]
      | cleared diskCache folderSize => simp [hloop, DiskClearing.outcome]
  | queryURLFromCache id key fileExtension => rfl

/-- A round of the loop begins with the size of the item. -/
theorem RunningJob.outcome_attributesOfItem (sys : CacheSystem) (m : FileManager) (clear : Nat)
    (name : String) (contents : List String) (folderSize : ℚ) :
    (attributesOfItem clear (name :: contents) folderSize).outcome sys m =
      match m.attributesOfItem .none (itemPath sys.diskDirectory name) with
      | none => some (m, .cleared "0")
      | some size =>
        match forcedFloat size with
        | none => none
        | some size => (removeItem clear name contents (folderSize + size)).outcome sys m := by
  simp only [outcome, FileManager.clearContents, itemPath]
  cases m.attributesOfItem .none (sys.diskDirectory ++ "/" ++ name) with
  | none => rfl
  | some size =>
    cases hcast : forcedFloat size with
    | none => simp only [hcast, DiskClearing.outcome]
    | some x =>
      cases m.removeItem .none (sys.diskDirectory ++ "/" ++ name) with
      | none => simp only [hcast, DiskClearing.outcome]
      | some m => simp only [hcast]

/-! ### What the clients observe -/

/-- The answer that an entry gives to the query with this number. -/
def CacheLog.answer (id : Nat) : CacheLog → Option Bool
  | answered id' found => if id' = id then some found else none
  | storeRan | memoryCleared _ | clearCompleted _ | queryStarted _ => none

/-- The answers that a query has got. -/
def CacheThreads.answers (s : CacheThreads) (id : Nat) : List Bool :=
  s.log.filterMap (CacheLog.answer id)

theorem CacheThreads.answers_concat {s t : CacheThreads} {entry : CacheLog}
    (h : t.log = s.log ++ [entry]) (id : Nat) :
    t.answers id = s.answers id ++ (entry.answer id).toList := by
  rw [answers, answers, h, List.filterMap_append]
  cases hanswer : entry.answer id with
  | none => simp [hanswer]
  | some found => simp [hanswer]

/-- An entry that answers nobody changes no answers. -/
theorem CacheThreads.answers_silent {s t : CacheThreads} {entry : CacheLog}
    (h : t.log = s.log ++ [entry]) (hsilent : ∀ id, entry.answer id = none) (id : Nat) :
    t.answers id = s.answers id := by
  rw [answers_concat h, hsilent, Option.toList_none, List.append_nil]

/-- The size that a clear hands back. -/
def CacheResult.sizeOfClear : CacheResult → Option String
  | cleared size => some size
  | stored | completions _ => none

/-- The sizes that the finished clears have handed back. -/
def clearedSizes (finished : List (QueueJob × CacheResult)) : List String :=
  finished.filterMap fun job => job.2.sizeOfClear

/-- What a job with this result tells the query with this number. -/
def QueueJob.answers (id : Nat) : QueueJob → CacheResult → List Bool
  | queryURLFromCache id' _ _, .completions calls =>
    if id' = id then calls.map Option.isSome else []
  | _, _ => []

/-- What clients observe of the steps is what the finished jobs have handed back. -/
structure Observes (s : CacheThreads)
    (q : SerialQueue VideoCacheManager QueueJob CacheResult) : Prop where
  pending : q.pending = (s.running.map RunningJob.job).toList ++ s.queue
  files : s.running = none → s.cache.diskCache = q.contents.diskCache
  sizes : ∀ clear size, (clear, size) ∈ s.mainQueue →
    (clearedSizes q.finished)[clear]? = some size
  answers : ∀ id key fileExtension,
    .queryURLFromCache id key fileExtension ∈ q.finished.map Prod.fst ++ q.pending →
      s.answers id = q.finished.flatMap fun job => job.1.answers id job.2

/-! ### One step of a job -/

/-- A step of a job leaves the outcome as it is, or it is the last and brings it about. -/
inductive OutcomeStep (sys : CacheSystem) (s t : CacheThreads) (job : RunningJob) : Prop
  | goesOn (next : RunningJob) (running : t.running = some next) (same : next.job = job.job)
      (clear : next.clear = job.clear)
      (outcome : next.outcome sys t.cache.diskCache = job.outcome sys s.cache.diskCache)
      (mainQueue : t.mainQueue = s.mainQueue) (answers : ∀ id, t.answers id = s.answers id)
  | ends (result : CacheResult) (running : t.running = none)
      (outcome : job.outcome sys s.cache.diskCache = some (t.cache.diskCache, result))
      (mainQueue : ∀ clear size, (clear, size) ∈ t.mainQueue →
        (clear, size) ∈ s.mainQueue ∨ job.clear = some clear ∧ result.sizeOfClear = some size)
      (size : result.sizeOfClear.isSome = job.clear.isSome)
      (answers : ∀ id, t.answers id = s.answers id ++ job.job.answers id result)

theorem OutcomeStep.of_next {sys : CacheSystem} {s : CacheThreads} {job next : RunningJob}
    {m : VideoCacheManager} (hsame : next.job = job.job) (hclear : next.clear = job.clear)
    (houtcome : next.outcome sys m.diskCache = job.outcome sys s.cache.diskCache) :
    OutcomeStep sys s { s with cache := m, running := some next } job :=
  .goesOn next rfl hsame hclear houtcome rfl fun _ => rfl

/-- Each operation of a job that does not throw takes its part of the outcome. -/
theorem outcomeStep_of_jobStep {sys : CacheSystem} {s t : CacheThreads} {job : RunningJob}
    (ht : s.jobStep sys false job = some t) : OutcomeStep sys s t job := by
  cases job with
  | storeDataToMemoryCache data key fileExtension =>
    obtain rfl := Option.some.inj ht
    exact .goesOn _ rfl rfl rfl rfl rfl (CacheThreads.answers_silent rfl fun _ => rfl)
  | storeDataToDiskCache data key fileExtension =>
    obtain rfl := Option.some.inj ht
    refine .ends .stored rfl rfl (fun _ _ hm => Or.inl hm) rfl fun id => ?_
    exact (List.append_nil _).symm
  | clearMemoryCache clear =>
    obtain rfl := Option.some.inj ht
    exact .goesOn _ rfl rfl rfl rfl rfl (CacheThreads.answers_silent rfl fun _ => rfl)
  | contentsOfDirectory clear =>
    simp only [CacheThreads.jobStep, FileFaults.all_false] at ht
    split at ht
    · rename_i hcontents
      obtain rfl := Option.some.inj ht
      refine .of_next rfl rfl ?_
      simp only [RunningJob.outcome, hcontents]
    · rename_i contents hcontents
      obtain rfl := Option.some.inj ht
      refine .of_next rfl rfl ?_
      simp only [RunningJob.outcome, hcontents]
  | attributesOfItem clear contents folderSize =>
    cases contents with
    | nil =>
      obtain rfl := Option.some.inj ht
      exact .of_next rfl rfl rfl
    | cons name contents =>
      simp only [CacheThreads.jobStep, FileFaults.all_false] at ht
      split at ht
      · rename_i hsize
        obtain rfl := Option.some.inj ht
        refine .of_next rfl rfl ?_
        simp only [RunningJob.outcome_attributesOfItem, hsize]
        rfl
      · rename_i size hsize
        split at ht
        · cases ht
        · rename_i x hcast
          obtain rfl := Option.some.inj ht
          refine .of_next rfl rfl ?_
          simp only [RunningJob.outcome_attributesOfItem, hsize, hcast]
  | removeItem clear name contents folderSize =>
    simp only [CacheThreads.jobStep, FileFaults.all_false] at ht
    split at ht
    · rename_i hremove
      obtain rfl := Option.some.inj ht
      refine .of_next rfl rfl ?_
      simp only [RunningJob.outcome, hremove]
    · rename_i diskCache hremove
      obtain rfl := Option.some.inj ht
      refine .of_next rfl rfl ?_
      simp only [RunningJob.outcome, hremove]
  | dispatchCompletion clear size =>
    obtain rfl := Option.some.inj ht
    refine .ends (.cleared size) rfl rfl (fun clear' size' hm => ?_) rfl fun id => ?_
    · rcases List.mem_append.mp hm with hold | hnew
      · exact Or.inl hold
      · obtain ⟨rfl, rfl⟩ := Prod.mk.inj (List.mem_singleton.mp hnew)
        exact Or.inr ⟨rfl, rfl⟩
    · exact (List.append_nil _).symm
  | queryURLFromCache id key fileExtension =>
    obtain rfl := Option.some.inj ht
    refine .ends _ rfl rfl (fun _ _ hm => Or.inl hm) rfl fun id' => ?_
    obtain ⟨answer, hanswer, _⟩ := s.cache.queryURLFromCache_eq sys key fileExtension
    have hanswer' : VideoCacheManager.queryURLFromCache sys ⟨∅, s.cache.diskCache⟩ key
      fileExtension = [answer] := hanswer
    have hconcat : s.log ++ (s.cache.queryURLFromCache sys key fileExtension).map (fun path =>
        .answered id path.isSome) = s.log ++ [.answered id answer.isSome] := by
      rw [hanswer, List.map_singleton]
    have hlog : (CacheLog.answered id answer.isSome).answer id' =
        if id = id' then some answer.isSome else none := rfl
    refine (CacheThreads.answers_concat hconcat id').trans ?_
    rw [hanswer', RunningJob.job, QueueJob.answers, hlog]
    by_cases hid : id = id'
    · rw [if_pos hid, if_pos hid]
      rfl
    · rw [if_neg hid, if_neg hid]
      rfl

/-! ### The simulation -/

/-- The relation between the steps and the jobs. The running job is still pending, and what is
left of it does to the files what all of it does. -/
structure Simulates (sys : CacheSystem) (s : CacheThreads)
    (q : SerialQueue VideoCacheManager QueueJob CacheResult) : Prop extends Observes s q where
  outcome : ∀ job, s.running = some job → job.outcome sys s.cache.diskCache =
    (job.job.call.execute sys q.contents).map fun r => (r.1.diskCache, r.2)
  clears : s.clears =
    (clearedSizes q.finished).length + (s.running.bind RunningJob.clear).toList.length
  number : ∀ job clear, s.running = some job → job.clear = some clear →
    clear = (clearedSizes q.finished).length
  ids : ∀ id key fileExtension,
    .queryURLFromCache id key fileExtension ∈ q.finished.map Prod.fst ++ q.pending →
      id < s.started ∧ s.queries id = none
  fresh : ∀ id, s.started ≤ id → s.answers id = [] ∧ s.queries id = none

theorem simulates_idle (sys : CacheSystem) : Simulates sys (.idle .empty) (numberedQueue sys).start
    where
  pending := rfl
  files _ := rfl
  sizes _ _ hm := absurd hm List.not_mem_nil
  answers _ _ _ _ := rfl
  outcome := by rintro _ ⟨⟩
  clears := rfl
  number := by rintro _ _ ⟨⟩
  ids _ _ _ hm := absurd hm List.not_mem_nil
  fresh _ _ := ⟨rfl, rfl⟩

section Simulate

variable {sys : CacheSystem} {s t : CacheThreads}
  {q : SerialQueue VideoCacheManager QueueJob CacheResult}

/-- The finished jobs tell a query nothing that is not among them. -/
theorem flatMap_answers_eq_nil {finished : List (QueueJob × CacheResult)} {id : Nat}
    (h : ∀ key fileExtension,
      .queryURLFromCache id key fileExtension ∉ finished.map Prod.fst) :
    finished.flatMap (fun job => job.1.answers id job.2) = [] := by
  refine List.flatMap_eq_nil_iff.mpr fun ⟨job, result⟩ hm => ?_
  have hjob : job ∈ finished.map Prod.fst := List.mem_map_of_mem hm
  cases job with
  | storeDataToCache data key fileExtension => rfl
  | clearCache => rfl
  | queryURLFromCache id' key fileExtension =>
    have hid : id' ≠ id := fun he => h key fileExtension (he ▸ hjob)
    cases result with
    | completions calls => exact if_neg hid
    | stored | cleared => rfl

/-- A call adds its job to those that are pending, a query with a new number. -/
theorem Simulates.submit (h : Simulates sys s q) {job : QueueJob}
    (hqueue : t.queue = s.queue ++ [job]) (hrunning : t.running = s.running)
    (hcache : t.cache = s.cache) (hmain : t.mainQueue = s.mainQueue)
    (hclears : t.clears = s.clears) (hqueries : t.queries = s.queries)
    (hstarted : s.started ≤ t.started) (hanswers : ∀ id, t.answers id = s.answers id)
    (hjob : ∀ id key fileExtension, job = .queryURLFromCache id key fileExtension →
      s.started ≤ id ∧ id < t.started) :
    Simulates sys t { q with pending := q.pending ++ [job] } := by
  have hmem : ∀ id key fileExtension, QueueJob.queryURLFromCache id key fileExtension ∈
      q.finished.map Prod.fst ++ (q.pending ++ [job]) →
      .queryURLFromCache id key fileExtension ∈ q.finished.map Prod.fst ++ q.pending ∨
        s.started ≤ id ∧ id < t.started := by
    intro id key fileExtension hm
    rw [← List.append_assoc, List.mem_append, List.mem_singleton] at hm
    exact hm.imp_right fun he => hjob id key fileExtension he.symm
  refine ⟨⟨?_, ?_, ?_, fun id key fileExtension hm => ?_⟩, ?_, ?_, ?_,
    fun id key fileExtension hm => ?_, fun id hid => ?_⟩
  · rw [hrunning, hqueue, h.pending, List.append_assoc]
  · rw [hrunning, hcache]
    exact h.files
  · rw [hmain]
    exact h.sizes
  · rw [hanswers]
    rcases hmem id key fileExtension hm with hold | ⟨hnew, _⟩
    · exact h.answers id key fileExtension hold
    · rw [(h.fresh id hnew).1, flatMap_answers_eq_nil]
      intro key fileExtension hfinished
      exact absurd (h.ids id key fileExtension (List.mem_append_left _ hfinished)).1 hnew.not_gt
  · rw [hrunning, hcache]
    exact h.outcome
  · rw [hrunning, hclears]
    exact h.clears
  · rw [hrunning]
    exact h.number
  · rw [hqueries]
    rcases hmem id key fileExtension hm with hold | ⟨hnew, hlt⟩
    · obtain ⟨hid, hnone⟩ := h.ids id key fileExtension hold
      exact ⟨hid.trans_le hstarted, hnone⟩
    · exact ⟨hlt, (h.fresh id hnew).2⟩
  · rw [hanswers, hqueries]
    exact h.fresh id (hstarted.trans hid)

/-- What goes on beside the queue answers other queries only. -/
theorem Simulates.beside (h : Simulates sys s q) (hqueue : t.queue = s.queue)
    (hrunning : t.running = s.running) (hdisk : t.cache.diskCache = s.cache.diskCache)
    (hmain : t.mainQueue ⊆ s.mainQueue) (hclears : t.clears = s.clears)
    (hstarted : s.started ≤ t.started)
    (hqueries : ∀ id < s.started, s.queries id = none →
      t.queries id = none ∧ t.answers id = s.answers id)
    (hfresh : ∀ id, t.started ≤ id → t.answers id = s.answers id ∧ t.queries id = s.queries id) :
    Simulates sys t q where
  pending := by rw [hrunning, hqueue, h.pending]
  files := by
    rw [hrunning, hdisk]
    exact h.files
  sizes clear size hm := h.sizes clear size (hmain hm)
  answers id key fileExtension hm := by
    obtain ⟨hid, hnone⟩ := h.ids id key fileExtension hm
    rw [(hqueries id hid hnone).2]
    exact h.answers id key fileExtension hm
  outcome := by
    rw [hrunning, hdisk]
    exact h.outcome
  clears := by
    rw [hrunning, hclears]
    exact h.clears
  number := by
    rw [hrunning]
    exact h.number
  ids id key fileExtension hm := by
    obtain ⟨hid, hnone⟩ := h.ids id key fileExtension hm
    exact ⟨hid.trans_le hstarted, (hqueries id hid hnone).1⟩
  fresh id hid := by
    rw [(hfresh id hid).1, (hfresh id hid).2]
    exact h.fresh id (hstarted.trans hid)

/-- The queue takes its next job, all of which is left. -/
theorem Simulates.beginJob (h : Simulates sys s q) (hidle : s.running = none) {job : QueueJob}
    {jobs : List QueueJob} (hqueue : s.queue = job :: jobs) :
    Simulates sys ({ s with queue := jobs }.beginJob job) q := by
  have hpending : q.pending = job :: jobs := by
    rw [h.pending, hidle, hqueue]
    rfl
  have hclears : s.clears = (clearedSizes q.finished).length := by
    rw [h.clears, hidle]
    rfl
  have hsame : (job.first s.clears).job = job := by cases job <;> rfl
  rw [CacheThreads.beginJob_eq]
  refine ⟨⟨?_, nofun, h.sizes, h.answers⟩, ?_, ?_, ?_, h.ids, h.fresh⟩
  · rw [hpending, Option.map_some, hsame]
    rfl
  · rintro _ ⟨⟩
    rw [hsame, h.files hidle]
    exact job.outcome_first sys q.contents s.clears
  · change s.clears + _ = _
    rw [hclears]
    cases job <;> rfl
  · rintro _ clear ⟨⟩ hclear
    cases job with
    | clearCache =>
      cases hclear
      exact hclears
    | storeDataToCache data key fileExtension => cases hclear
    | queryURLFromCache id key fileExtension => cases hclear

/-- The running job goes on, with the same outcome. -/
theorem Simulates.goOn (h : Simulates sys s q) {job next : RunningJob}
    (hrunning : s.running = some job) (hframe : CacheThreads.JobFrame sys s t job)
    (hqueue : t.queue = s.queue) (hnext : t.running = some next) (hsame : next.job = job.job)
    (hclear : next.clear = job.clear)
    (houtcome : next.outcome sys t.cache.diskCache = job.outcome sys s.cache.diskCache)
    (hmain : t.mainQueue = s.mainQueue) (hanswers : ∀ id, t.answers id = s.answers id) :
    Simulates sys t q := by
  refine ⟨⟨?_, ?_, ?_, fun id key fileExtension hm => ?_⟩, ?_, ?_, ?_,
    fun id key fileExtension hm => ?_, fun id hid => ?_⟩
  · rw [h.pending, hrunning, hnext, hqueue, Option.map_some, Option.map_some, hsame]
  · rw [hnext]
    rintro ⟨⟩
  · rw [hmain]
    exact h.sizes
  · rw [hanswers]
    exact h.answers id key fileExtension hm
  · rw [hnext]
    rintro _ ⟨⟩
    rw [houtcome, hsame]
    exact h.outcome job hrunning
  · rw [hframe.clears, h.clears, hrunning, hnext, Option.bind_some, Option.bind_some, hclear]
  · rw [hnext]
    rintro _ clear ⟨⟩ hc
    exact h.number job clear hrunning (hclear ▸ hc)
  · rw [hframe.started, hframe.queries]
    exact h.ids id key fileExtension hm
  · rw [hanswers, hframe.queries]
    exact h.fresh id (hframe.started ▸ hid)

/-- The running job ends, and the first of the pending jobs has this result. -/
theorem Simulates.finish (h : Simulates sys s q) {job : RunningJob} {result : CacheResult}
    (hrunning : s.running = some job) (hframe : CacheThreads.JobFrame sys s t job)
    (hqueue : t.queue = s.queue) (hnone : t.running = none)
    (houtcome : job.outcome sys s.cache.diskCache = some (t.cache.diskCache, result))
    (hmain : ∀ clear size, (clear, size) ∈ t.mainQueue →
      (clear, size) ∈ s.mainQueue ∨ job.clear = some clear ∧ result.sizeOfClear = some size)
    (hsize : result.sizeOfClear.isSome = job.clear.isSome)
    (hanswers : ∀ id, t.answers id = s.answers id ++ job.job.answers id result) :
    ∃ r, (numberedQueue sys).next q .run = some r ∧ Simulates sys t r := by
  have hpending : q.pending = job.job :: s.queue := by
    rw [h.pending, hrunning]
    rfl
  obtain ⟨m, hexec, hdisk⟩ : ∃ m, job.job.call.execute sys q.contents = some (m, result) ∧
      m.diskCache = t.cache.diskCache := by
    have hall := h.outcome job hrunning
    rw [houtcome] at hall
    obtain ⟨⟨m, result'⟩, hexec, hresult⟩ := Option.map_eq_some_iff.mp hall.symm
    obtain ⟨hdisk, rfl⟩ := Prod.mk.inj hresult
    exact ⟨m, hexec, hdisk⟩
  have hnext : (numberedQueue sys).next q .run =
      some ⟨m, s.queue, q.finished ++ [(job.job, result)]⟩ := by
    simp only [numberedQueue, SerialQueue.machine]
    rw [hpending]
    simp only [hexec]
  have hsizes : clearedSizes (q.finished ++ [(job.job, result)]) =
      clearedSizes q.finished ++ result.sizeOfClear.toList := by
    rw [clearedSizes, List.filterMap_append]
    cases result <;> rfl
  have hjobs : (q.finished ++ [(job.job, result)]).map Prod.fst ++ s.queue =
      q.finished.map Prod.fst ++ q.pending := by
    rw [hpending, List.map_append, List.append_assoc]
    rfl
  refine ⟨_, hnext, ⟨?_, fun _ => hdisk.symm, ?_, fun id key fileExtension hm => ?_⟩, ?_, ?_, ?_,
    fun id key fileExtension hm => ?_, fun id hid => ?_⟩
  · rw [hnone, hqueue]
    rfl
  · intro clear size hm
    rw [hsizes]
    rcases hmain clear size hm with hold | ⟨hclear, hnew⟩
    · have hget := h.sizes clear size hold
      rw [List.getElem?_append_left (List.getElem?_eq_some_iff.mp hget).1]
      exact hget
    · rw [h.number job clear hrunning hclear, hnew]
      exact List.getElem?_concat_length
  · rw [hjobs] at hm
    rw [hanswers, h.answers id key fileExtension hm, List.flatMap_append, List.flatMap_singleton]
  · rw [hnone]
    rintro _ ⟨⟩
  · have hlength : result.sizeOfClear.toList.length = job.clear.toList.length := by
      rw [Option.length_toList, Option.length_toList, hsize]
    rw [hframe.clears, h.clears, hrunning, Option.bind_some, hsizes, List.length_append, hnone,
      hlength]
    rfl
  · rw [hnone]
    rintro _ _ ⟨⟩
  · rw [hjobs] at hm
    rw [hframe.started, hframe.queries]
    exact h.ids id key fileExtension hm
  · rw [hframe.started] at hid
    obtain ⟨hnothing, hquery⟩ := h.fresh id hid
    have hother : [(job.job, result)].flatMap (fun job => job.1.answers id job.2) = [] := by
      refine flatMap_answers_eq_nil fun key fileExtension hm => ?_
      rw [List.map_singleton, List.mem_singleton] at hm
      have hlt := (h.ids id key fileExtension (List.mem_append_right _ (by
        rw [hpending, hm]
        exact List.mem_cons_self))).1
      exact absurd hlt hid.not_gt
    rw [List.flatMap_singleton] at hother
    rw [hanswers, hnothing, hframe.queries, hother]
    exact ⟨rfl, hquery⟩

/-- One step of a data query answers this query only. -/
theorem Simulates.queryStep (h : Simulates sys s q) {id : Nat} {step : QueryStep}
    (hstep : s.queries id = some step) (throws : Bool) :
    Simulates sys (s.queryStep sys throws id step) q := by
  obtain ⟨hrunning, hmain, hclears, hstarted, hdisk, _, hlog⟩ :=
    s.queryStep_frame sys throws id step
  have hid : id < s.started := by
    by_contra hle
    rw [(h.fresh id (not_lt.mp hle)).2] at hstep
    cases hstep
  have hother : ∀ other ≠ id, (s.queryStep sys throws id step).queries other = s.queries other ∧
      (s.queryStep sys throws id step).answers other = s.answers other := by
    intro other hne
    refine ⟨?_, ?_⟩
    · cases step with
      | dataFromMemoryCache key fileExtension =>
        rw [CacheThreads.queryStep]
        split <;> exact Function.update_of_ne hne ..
      | dataFromDiskCache key fileExtension =>
        rw [CacheThreads.queryStep]
        split <;> exact Function.update_of_ne hne ..
      | storeDataToMemoryCache data key => exact Function.update_of_ne hne ..
    · rcases hlog with hlog | ⟨found, hlog⟩
      · rw [CacheThreads.answers, hlog, CacheThreads.answers]
      · rw [CacheThreads.answers_concat hlog, CacheLog.answer, if_neg hne.symm]
        exact List.append_nil _
  refine h.beside (s.queryStep_queue sys throws id step) hrunning hdisk (hmain ▸ List.Subset.refl _)
    hclears hstarted.ge (fun other _ hnone => ?_) fun other hle => ?_
  · have hne : other ≠ id := by
      rintro rfl
      rw [hnone] at hstep
      cases hstep
    obtain ⟨hqueries, hanswers⟩ := hother other hne
    exact ⟨hqueries.trans hnone, hanswers⟩
  · have hne : other ≠ id := by
      rintro rfl
      exact absurd hid (hstarted ▸ hle).not_gt
    exact (hother other hne).symm

end Simulate

/-! ### Calls and jobs -/

/-- A query, of data or of a URL. Queries are numbered in their order. -/
def CacheEvent.isQuery : CacheEvent → Bool
  | queryURLFromCache _ _ | queryDataFromCache _ _ => true
  | _ => false

/-- The jobs that the calls submit. -/
def queueJobs : Nat → List CacheEvent → List QueueJob
  | _, [] => []
  | started, e :: events =>
    (e.queueJob started).toList ++ queueJobs (started + if e.isQuery then 1 else 0) events

/-- The jobs without the numbers of the queries. -/
def cacheCalls (events : List CacheEvent) : List CacheJob :=
  (queueJobs 0 events).map QueueJob.call

theorem queueJobs_append (started : Nat) (events events' : List CacheEvent) :
    queueJobs started (events ++ events') = queueJobs started events ++
      queueJobs (started + events.countP CacheEvent.isQuery) events' := by
  induction events generalizing started with
  | nil => rfl
  | cons e events ih =>
    rw [List.cons_append, queueJobs, ih, queueJobs, List.append_assoc, List.countP_cons,
      Nat.add_assoc, Nat.add_comm (List.countP _ _)]

section Refine

variable {sys : CacheSystem} {s t : CacheThreads} {e : CacheEvent} {events : List CacheEvent}
  {q : SerialQueue VideoCacheManager QueueJob CacheResult}

/-- Each step is answered by a submission, by a whole job or by nothing. -/
theorem Simulates.next {cache : VideoCacheManager} (h : Simulates sys s q)
    (he : e ≠ .queueStep true) (hn : (cacheThreads sys cache).next s e = some t) :
    t.started = s.started + (if e.isQuery then 1 else 0) ∧
    ∃ steps r, (numberedQueue sys).execFrom q steps = some r ∧
      SerialQueue.submitted steps = (e.queueJob s.started).toList ∧ Simulates sys t r := by
  cases e with
  | storeDataToCache data key fileExtension =>
    obtain rfl := Option.some.inj hn
    refine ⟨rfl, [.submit _], _, rfl, rfl, ?_⟩
    exact h.submit rfl rfl rfl rfl rfl rfl le_rfl (fun _ => rfl) (by rintro _ _ _ ⟨⟩)
  | clearCache =>
    obtain rfl := Option.some.inj hn
    refine ⟨rfl, [.submit _], _, rfl, rfl, ?_⟩
    exact h.submit rfl rfl rfl rfl rfl rfl le_rfl (fun _ => rfl) (by rintro _ _ _ ⟨⟩)
  | queryURLFromCache key fileExtension =>
    obtain rfl := Option.some.inj hn
    refine ⟨rfl, [.submit _], _, rfl, rfl, ?_⟩
    refine h.submit rfl rfl rfl rfl rfl rfl (Nat.le_succ _)
      (CacheThreads.answers_silent rfl fun _ => rfl) ?_
    rintro _ _ _ ⟨⟩
    exact ⟨le_rfl, Nat.lt_succ_self _⟩
  | queryDataFromCache key fileExtension =>
    obtain rfl := Option.some.inj hn
    refine ⟨rfl, [], q, rfl, rfl, ?_⟩
    refine h.beside rfl rfl rfl (List.Subset.refl _) rfl (Nat.le_succ _)
      (fun id hid hnone => ⟨?_, CacheThreads.answers_silent rfl (fun _ => rfl) id⟩)
      fun id hle => ⟨CacheThreads.answers_silent rfl (fun _ => rfl) id, ?_⟩
    · exact (Function.update_of_ne hid.ne ..).trans hnone
    · exact Function.update_of_ne (Nat.lt_of_succ_le hle).ne' ..
  | queueStep throws =>
    cases throws with
    | true => exact absurd rfl he
    | false =>
      simp only [cacheThreads] at hn
      split at hn
      · rename_i job hrunning
        have hframe := CacheThreads.jobStep_frame hn
        have hqueue := (CacheThreads.jobStep_progress hn).queue
        refine ⟨hframe.started, ?_⟩
        cases outcomeStep_of_jobStep hn with
        | goesOn next hnext hsame hclear houtcome hmain hanswers =>
          exact ⟨[], q, rfl, rfl, h.goOn hrunning hframe hqueue hnext hsame hclear houtcome hmain
            hanswers⟩
        | ends result hnone houtcome hmain hsize hanswers =>
          obtain ⟨r, hnext, hr⟩ :=
            h.finish hrunning hframe hqueue hnone houtcome hmain hsize hanswers
          exact ⟨[.run], r, by rw [Machine.execFrom_cons, hnext]; rfl, rfl, hr⟩
      · rename_i job jobs hidle hqueue
        obtain rfl := Option.some.inj hn
        refine ⟨?_, [], q, rfl, rfl, h.beginJob hidle hqueue⟩
        cases job <;> rfl
      · cases hn
  | queryStep id throws =>
    simp only [cacheThreads] at hn
    split at hn
    · cases hn
    · rename_i step hstep
      obtain rfl := Option.some.inj hn
      exact ⟨(s.queryStep_frame sys throws id step).2.2.2.1, [], q, rfl, rfl,
        h.queryStep hstep throws⟩
  | completionStep =>
    simp only [cacheThreads] at hn
    split at hn
    · cases hn
    · rename_i clear size mainQueue hmain
      obtain rfl := Option.some.inj hn
      refine ⟨rfl, [], q, rfl, rfl, h.beside rfl rfl rfl (hmain ▸ List.subset_cons_self _ _) rfl
        le_rfl (fun id _ hnone => ⟨hnone, ?_⟩) fun id _ => ⟨?_, rfl⟩⟩
      · exact CacheThreads.answers_silent rfl (fun _ => rfl) id
      · exact CacheThreads.answers_silent rfl (fun _ => rfl) id
  | evict key =>
    obtain rfl := Option.some.inj hn
    exact ⟨rfl, [], q, rfl, rfl, h.beside rfl rfl rfl (List.Subset.refl _) rfl le_rfl
      (fun _ _ hnone => ⟨hnone, rfl⟩) fun _ _ => ⟨rfl, rfl⟩⟩

/-- Every run of the steps is one of the jobs, with the calls in the same order. -/
theorem simulates_of_run (h : (cacheThreads sys .empty).Run events s)
    (hthrows : .queueStep true ∉ events) : ∃ steps q, (numberedQueue sys).Run steps q ∧
      SerialQueue.submitted steps = queueJobs 0 events ∧
      s.started = events.countP CacheEvent.isQuery ∧ Simulates sys s q := by
  refine h.simulate (n := numberedQueue sys) (P := fun e => e ≠ .queueStep true)
    (R := fun events s steps q => SerialQueue.submitted steps = queueJobs 0 events ∧
      s.started = events.countP CacheEvent.isQuery ∧ Simulates sys s q)
    ⟨rfl, rfl, simulates_idle sys⟩ ?_ fun e hm he => hthrows (he ▸ hm)
  rintro events s steps q e t ⟨hsubmitted, hstarted, hs⟩ he hn
  obtain ⟨hnumber, more, r, hexec, hmore, hr⟩ := hs.next he hn
  refine ⟨more, r, hexec, ?_, ?_, hr⟩
  · rw [SerialQueue.submitted, List.filterMap_append]
    change SerialQueue.submitted steps ++ SerialQueue.submitted more = _
    rw [hsubmitted, hmore, queueJobs_append, Nat.zero_add, ← hstarted]
    exact congrArg _ (List.append_nil _).symm
  · rw [hnumber, countP_concat, hstarted]

/-- The steps refine the jobs. In every interleaving of calls, data queries, completions and
evictions from an empty cache in which no operation of the queue throws, there is a run of the
serial queue with whole jobs that are submitted in the order of the calls: the jobs that wait or
run are its pending jobs, whenever no job runs the files are those of its jobs, the completion of
each clear waits with the size that this clear has handed back, and each URL query is told what
its job has. -/
theorem cacheThreads_refine_cacheQueue (h : (cacheThreads sys .empty).Run events s)
    (hthrows : .queueStep true ∉ events) :
    ∃ steps, ∃ q : SerialQueue VideoCacheManager QueueJob CacheResult,
      (cacheQueue sys).Run (steps.map (SerialQueue.Event.map QueueJob.call))
        (q.map QueueJob.call) ∧
      SerialQueue.submitted steps = queueJobs 0 events ∧ Observes s q := by
  obtain ⟨steps, q, hrun, hsubmitted, _, hs⟩ := simulates_of_run h hthrows
  exact ⟨steps, q, SerialQueue.run_map hrun, hsubmitted, hs.toObserves⟩

end Refine

/-- A store, a data query and a URL query, and a clear. The data query finds nothing in memory
before the store, and the entry is evicted while the store writes the file. -/
def storedQueriedCleared : List CacheEvent :=
  [.storeDataToCache (some [1, 2, 3]) "a" none, .queryDataFromCache "a" none,
    .queryURLFromCache "a" none, .clearCache, .queueStep false, .queryStep 0 false,
    .queueStep false, .evict "a", .queueStep false, .queryStep 0 false] ++
    .replicate 9 (.queueStep false) ++ [.queryStep 0 true]

theorem cacheThreads_refine_cacheQueue_storedQueriedCleared :
    ∃ s steps, ∃ q : SerialQueue VideoCacheManager QueueJob CacheResult,
      (cacheQueue .twoKeys).Run (steps.map (SerialQueue.Event.map QueueJob.call))
        (q.map QueueJob.call) ∧
      SerialQueue.submitted steps =
        [.storeDataToCache (some [1, 2, 3]) "a" none, .queryURLFromCache 1 "a" none,
          .clearCache] ∧
      Observes s q ∧ s.answers 1 = [true] ∧ s.mainQueue.map Prod.fst = [0] := by
  obtain ⟨s, hs, hanswers, hmain⟩ : ∃ s,
      (cacheThreads .twoKeys .empty).Run storedQueriedCleared s ∧ s.answers 1 = [true] ∧
        s.mainQueue.map Prod.fst = [0] := ⟨_, Machine.run_iff_exec.mpr rfl, rfl, rfl⟩
  obtain ⟨steps, q, hrun, hsubmitted, hobserves⟩ :=
    cacheThreads_refine_cacheQueue hs (by decide)
  exact ⟨s, steps, q, hrun, hsubmitted, hobserves, hanswers, hmain⟩

end TiktokClone
