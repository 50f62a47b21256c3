import TiktokClone.Cache.Refinement

/-!
# Clients observe their calls in order

What the queue tells its clients follows from their calls alone. A clear reports the size, and
a URL query is told the presence, of what the calls before it have left in the cache, however
the single operations interleave with queries and evictions.
-/

namespace TiktokClone

open Library

/-! ### Where a call's job stands -/

theorem queueJobs_count_clear (started : Nat) (events : List CacheEvent) :
    (queueJobs started events).count .clearCache = events.count .clearCache := by
  induction events generalizing started with
  | nil => rfl
  | cons e events ih =>
    rw [queueJobs, List.count_append, ih, List.count_cons, Nat.add_comm]
    cases e <;> rfl

/-- The queries among the jobs have the numbers of the calls. -/
theorem number_of_mem_queueJobs {started id : Nat} {events : List CacheEvent} {key : String}
    {fileExtension : Option String}
    (h : .queryURLFromCache id key fileExtension ∈ queueJobs started events) :
    started ≤ id ∧ id < started + events.countP CacheEvent.isQuery := by
  induction events generalizing started with
  | nil => cases h
  | cons e events ih =>
    rw [List.countP_cons]
    rcases List.mem_append.mp h with hfirst | hrest
    · cases e with
      | queryURLFromCache key' fileExtension' =>
        cases List.mem_singleton.mp hfirst
        exact ⟨le_rfl, by simp [CacheEvent.isQuery]⟩
      | storeDataToCache | clearCache => cases List.mem_singleton.mp hfirst
      | queryDataFromCache | queueStep | queryStep | completionStep | evict => cases hfirst
    · obtain ⟨hle, hlt⟩ := ih hrest
      exact ⟨(Nat.le_add_right _ _).trans hle, by omega⟩

/-- The jobs of the calls before and after a call that submits one. -/
theorem queueJobs_split {before after : List CacheEvent} {e : CacheEvent} {job : QueueJob}
    (h : e.queueJob (before.countP CacheEvent.isQuery) = some job) :
    queueJobs 0 (before ++ e :: after) = queueJobs 0 before ++ job ::
      queueJobs (before.countP CacheEvent.isQuery + if e.isQuery then 1 else 0) after := by
  rw [queueJobs_append, Nat.zero_add, queueJobs, h]
  rfl

/-- A clear hands back a size, and nothing else does. -/
theorem CacheJob.size_of_execute {sys : CacheSystem} {m m' : VideoCacheManager} {job : QueueJob}
    {result : CacheResult} (h : job.call.execute sys m = some (m', result)) :
    result.sizeOfClear.isSome = decide (job = .clearCache) := by
  cases job with
  | storeDataToCache data key fileExtension =>
    cases h
    rfl
  | clearCache =>
    simp only [QueueJob.call, execute] at h
    split at h
    · cases h
    · cases h
      rfl
  | queryURLFromCache id key fileExtension =>
    cases h
    rfl

section CallOrder

variable {sys : CacheSystem} {s : CacheThreads} {events before after : List CacheEvent}
  {steps : List (SerialQueue.Event QueueJob)}
  {q : SerialQueue VideoCacheManager QueueJob CacheResult}

/-- As many sizes as clears have been handed back. -/
theorem length_clearedSizes (hrun : (numberedQueue sys).Run steps q)
    {finished : List (QueueJob × CacheResult)} (hbegins : finished <+: q.finished) :
    (clearedSizes finished).length = (finished.map Prod.fst).count .clearCache := by
  have hresults : ∀ job ∈ finished, job.2.sizeOfClear.isSome = decide (job.1 = .clearCache) := by
    rintro ⟨job, result⟩ hm
    obtain ⟨done, more, hsplit⟩ := List.append_of_mem (hbegins.subset hm)
    obtain ⟨m, m', _, hexec⟩ := (SerialQueue.serialized_of_run hrun).result _ _ _ _ hsplit
    exact CacheJob.size_of_execute hexec
  rw [clearedSizes, List.length_filterMap_eq_countP, List.count, List.countP_map]
  refine List.countP_congr fun job hm => ?_
  rw [hresults job hm, Function.comp, decide_eq_true_iff, beq_iff_eq]

/-- The queue without numbers executes the calls. -/
theorem submitted_call (hsubmitted : SerialQueue.submitted steps = queueJobs 0 events) :
    SerialQueue.submitted (steps.map (SerialQueue.Event.map QueueJob.call)) =
      cacheCalls events := by
  rw [SerialQueue.submitted_map, hsubmitted, cacheCalls]

/-- A finished job of the queue without numbers. -/
theorem finished_call {done more : List (QueueJob × CacheResult)} {job : QueueJob}
    {result : CacheResult} (h : q.finished = done ++ (job, result) :: more)
    (hdone : done.map Prod.fst = queueJobs 0 before) :
    ∃ done' more', (q.map QueueJob.call).finished = done' ++ (job.call, result) :: more' ∧
      done'.map Prod.fst = cacheCalls before := by
  refine ⟨done.map fun job => (job.1.call, job.2), more.map fun job => (job.1.call, job.2),
    ?_, ?_⟩
  · rw [SerialQueue.map, h, List.map_append, List.map_cons]
  · rw [cacheCalls, ← hdone, List.map_map, List.map_map]
    rfl

/-- The size that waits for a clear's completion is that of the calls before the clear. -/
theorem size_of_clear (hrun : (numberedQueue sys).Run steps q)
    (hsubmitted : SerialQueue.submitted steps = queueJobs 0 events)
    (hfree : sys.CollisionFree (CacheJob.usedKeys (cacheCalls events)))
    (hreadable : ∀ job ∈ cacheCalls events, job.Readable)
    (hevents : events = before ++ .clearCache :: after) {size : String}
    (hsize : (clearedSizes q.finished)[before.count .clearCache]? = some size) :
    size = sys.clearedSize (cacheCalls before) := by
  have hjobs : SerialQueue.submitted steps =
      queueJobs 0 before ++ .clearCache :: queueJobs _ after :=
    hsubmitted.trans (hevents ▸ queueJobs_split rfl)
  rcases (SerialQueue.serialized_of_run hrun).waits_or_finished hjobs with
    ⟨more, hbefore, _⟩ | ⟨done, result, more, hfinished, hdone, _⟩
  · -- The clear still waits: no size is that far.
    have hlength := length_clearedSizes hrun (List.prefix_refl _)
    have hcount := queueJobs_count_clear 0 before
    rw [hbefore, List.count_append, ← hlength] at hcount
    have hlt := (List.getElem?_eq_some_iff.mp hsize).1
    omega
  · have hlength : (clearedSizes done).length = before.count .clearCache := by
      rw [length_clearedSizes hrun ⟨_, hfinished.symm⟩, hdone, queueJobs_count_clear]
    obtain ⟨done', more', hfinished', hdone'⟩ := finished_call hfinished hdone
    have hserial := SerialQueue.serialized_of_run (SerialQueue.run_map hrun)
    have hcalls := submitted_call hsubmitted
    have hresult := cleared_of_serialized (hcalls ▸ hfree) (hcalls ▸ hreadable) hserial hfinished'
    rw [hdone'] at hresult
    have hsizes : clearedSizes q.finished =
        clearedSizes done ++ sys.clearedSize (cacheCalls before) :: clearedSizes more := by
      rw [hfinished, hresult, clearedSizes, List.filterMap_append]
      rfl
    rw [hsizes, ← hlength, List.getElem?_append_right le_rfl, Nat.sub_self] at hsize
    exact (Option.some.inj hsize).symm

/-- A URL query is told nothing while its job waits, and then whether the calls before it have
left its file. -/
theorem answers_of_query (hrun : (numberedQueue sys).Run steps q)
    (hsubmitted : SerialQueue.submitted steps = queueJobs 0 events) (hs : Observes s q)
    (hfree : sys.CollisionFree (CacheJob.usedKeys (cacheCalls events)))
    (hreadable : ∀ job ∈ cacheCalls events, job.Readable) {key : String}
    {fileExtension : Option String}
    (hevents : events = before ++ .queryURLFromCache key fileExtension :: after) :
    s.answers (before.countP CacheEvent.isQuery) =
      if .queryURLFromCache (before.countP CacheEvent.isQuery) key fileExtension ∈
          (s.running.map RunningJob.job).toList ++ s.queue then []
      else [(Write.latest (CacheJob.writes (cacheCalls before)) (key, fileExtension)).isSome] := by
  have hserial := SerialQueue.serialized_of_run hrun
  have hjobs : SerialQueue.submitted steps = queueJobs 0 before ++
      .queryURLFromCache (before.countP CacheEvent.isQuery) key fileExtension ::
        queueJobs (before.countP CacheEvent.isQuery + 1) after :=
    hsubmitted.trans (hevents ▸ queueJobs_split rfl)
  have hanswers := hs.answers (before.countP CacheEvent.isQuery) key fileExtension (by
    rw [← hserial.order, hjobs]
    exact List.mem_append_right _ List.mem_cons_self)
  -- No job of another call has this number.
  have hbefore : ∀ key' fileExtension', .queryURLFromCache (before.countP CacheEvent.isQuery) key'
      fileExtension' ∉ queueJobs 0 before := fun _ _ hm =>
    absurd (number_of_mem_queueJobs hm).2 (by omega)
  have hafter : ∀ key' fileExtension', .queryURLFromCache (before.countP CacheEvent.isQuery) key'
      fileExtension' ∉ queueJobs (before.countP CacheEvent.isQuery + 1) after := fun _ _ hm =>
    absurd (number_of_mem_queueJobs hm).1 (by omega)
  rw [← hs.pending, hanswers]
  rcases hserial.waits_or_finished hjobs with
    ⟨more, hwaits, hpending⟩ | ⟨done, result, more, hfinished, hdone, hleft⟩
  · rw [if_pos (hpending ▸ List.mem_append_right _ List.mem_cons_self)]
    refine flatMap_answers_eq_nil fun key' fileExtension' hm => hbefore key' fileExtension' ?_
    rw [hwaits]
    exact List.mem_append_left _ hm
  · have hgone : .queryURLFromCache (before.countP CacheEvent.isQuery) key fileExtension ∉
        q.pending := fun hm =>
      hafter key fileExtension (hleft ▸ List.mem_append_right _ hm)
    rw [if_neg hgone, hfinished, List.flatMap_append, List.flatMap_cons,
      flatMap_answers_eq_nil (hdone ▸ hbefore), flatMap_answers_eq_nil (fun key' ext' hm =>
        hafter key' ext' (hleft ▸ List.mem_append_left _ hm)), List.nil_append, List.append_nil]
    obtain ⟨done', more', hfinished', hdone'⟩ := finished_call hfinished hdone
    have hserial' := SerialQueue.serialized_of_run (SerialQueue.run_map hrun)
    have hcalls := submitted_call hsubmitted
    obtain ⟨m, m', hm, hexec⟩ := hserial'.result _ _ _ _ hfinished'
    have hbegins : done'.map Prod.fst <+: (q.map QueueJob.call).finished.map Prod.fst := by
      rw [hfinished', List.map_append]
      exact List.prefix_append _ _
    have hfiled : Filed sys (CacheJob.usedKeys (cacheCalls events)) (done'.map Prod.fst) m :=
      filed_of_serialized hfree hserial' (by rw [hcalls]) (hcalls ▸ hreadable) hbegins hm
    have hkey : key ∈ CacheJob.usedKeys (cacheCalls events) := by
      refine ⟨.queryURLFromCache key fileExtension, ?_, rfl⟩
      rw [cacheCalls, ← hsubmitted, hjobs, List.map_append]
      exact List.mem_append_right _ List.mem_cons_self
    have hfile : m.dataFromDiskCache sys key fileExtension = _ :=
      hfiled.holds key hkey fileExtension
    obtain ⟨answer, hcall, hanswer⟩ := m.queryURLFromCache_eq sys key fileExtension
    cases hexec
    rw [QueueJob.answers, if_pos rfl, hcall, List.map_singleton, hanswer, ← hdone', ← hfile]
    rfl

/-- When no job runs or waits the files are those that the calls have left. -/
theorem files_of_calls (hrun : (numberedQueue sys).Run steps q)
    (hsubmitted : SerialQueue.submitted steps = queueJobs 0 events) (hs : Observes s q)
    (hfree : sys.CollisionFree (CacheJob.usedKeys (cacheCalls events)))
    (hreadable : ∀ job ∈ cacheCalls events, job.Readable) (hidle : s.running = none)
    (hqueue : s.queue = []) {key : String} (hkey : key ∈ CacheJob.usedKeys (cacheCalls events))
    (fileExtension : Option String) :
    s.cache.diskCache.contents (sys.diskCachePathForKey key fileExtension) =
      Write.latest (CacheJob.writes (cacheCalls events)) (key, fileExtension) := by
  have hserial := SerialQueue.serialized_of_run (SerialQueue.run_map hrun)
  have hcalls := submitted_call hsubmitted
  have hfinished : (q.map QueueJob.call).finished.map Prod.fst = cacheCalls events := by
    have horder := hserial.order
    have hpending : (q.map QueueJob.call).pending = [] := by
      rw [SerialQueue.map, hs.pending, hidle, hqueue]
      rfl
    rw [hcalls, hpending, List.append_nil] at horder
    exact horder.symm
  have hfiled : Filed sys (CacheJob.usedKeys (cacheCalls events)) _ q.contents :=
    filed_of_serialized hfree hserial (by rw [hcalls]) (hcalls ▸ hreadable) (List.prefix_refl _)
      hserial.contents
  rw [hs.files hidle, ← hfinished]
  exact hfiled.holds key hkey fileExtension

/-- Clients observe their calls in order. In every interleaving of calls, data queries,
completions and evictions from an empty cache in which no operation of the queue throws: the
size that waits for a clear's completion is that of what the calls before this clear have left
in the cache, the sizes of the files being added exactly; a
URL query is told nothing while its job waits, and then once, whether the calls before it have
left a file for its pair; and when no job runs or waits the files are those that all calls
have left. -/
theorem calls_observed_in_order (h : (cacheThreads sys .empty).Run events s)
    (hthrows : .queueStep true ∉ events)
    (hfree : sys.CollisionFree (CacheJob.usedKeys (cacheCalls events)))
    (hreadable : ∀ job ∈ cacheCalls events, job.Readable) :
    (∀ before after size, events = before ++ .clearCache :: after →
      (before.count .clearCache, size) ∈ s.mainQueue →
        size = sys.clearedSize (cacheCalls before)) ∧
    (∀ before key fileExtension after,
      events = before ++ .queryURLFromCache key fileExtension :: after →
      s.answers (before.countP CacheEvent.isQuery) =
        if .queryURLFromCache (before.countP CacheEvent.isQuery) key fileExtension ∈
            (s.running.map RunningJob.job).toList ++ s.queue then []
        else
          [(Write.latest (CacheJob.writes (cacheCalls before)) (key, fileExtension)).isSome]) ∧
    (s.running = none → s.queue = [] →
      ∀ key ∈ CacheJob.usedKeys (cacheCalls events), ∀ fileExtension,
        s.cache.diskCache.contents (sys.diskCachePathForKey key fileExtension) =
          Write.latest (CacheJob.writes (cacheCalls events)) (key, fileExtension)) := by
  obtain ⟨steps, q, hrun, hsubmitted, _, hs⟩ := simulates_of_run h hthrows
  refine ⟨fun before after size hevents hm => ?_, fun before key fileExtension after hevents => ?_,
    fun hidle hqueue key hkey fileExtension => ?_⟩
  · exact size_of_clear hrun hsubmitted hfree hreadable hevents (hs.sizes _ _ hm)
  · exact answers_of_query hrun hsubmitted hs.toObserves hfree hreadable hevents
  · exact files_of_calls hrun hsubmitted hs.toObserves hfree hreadable hidle hqueue hkey
      fileExtension

end CallOrder

theorem calls_observed_in_order_storedQueriedCleared : ∃ s : CacheThreads,
    s.answers 1 = [true] ∧ ∃ size, s.mainQueue = [(0, size)] ∧
      size = CacheSystem.twoKeys.clearedSize
        [.storeDataToCache [1, 2, 3] "a" none, .queryURLFromCache "a" none] := by
  have hcalls : cacheCalls storedQueriedCleared =
      [.storeDataToCache [1, 2, 3] "a" none, .queryURLFromCache "a" none, .clearCache] := rfl
  have hjobs : ∀ job ∈ cacheCalls storedQueriedCleared,
      (∀ key, job.Uses key → key = "a") ∧ job.Readable := by
    intro job hjob
    simp only [hcalls, List.mem_cons, List.not_mem_nil, or_false] at hjob
    rcases hjob with rfl | rfl | rfl
    · exact ⟨fun _ h => h.symm, rfl⟩
    · exact ⟨fun _ h => h.symm, trivial⟩
    · exact ⟨fun _ h => h.elim, trivial⟩
  have hfree : CacheSystem.twoKeys.CollisionFree
      (CacheJob.usedKeys (cacheCalls storedQueriedCleared)) := by
    rintro key ⟨job, hjob, huses⟩ key' ⟨job', hjob', huses'⟩ _
    rw [(hjobs job hjob).1 key huses, (hjobs job' hjob').1 key' huses']
  obtain ⟨s, size, hs, hmain, hidle, hqueue⟩ : ∃ s size,
      (cacheThreads .twoKeys .empty).Run storedQueriedCleared s ∧ s.mainQueue = [(0, size)] ∧
        s.running = none ∧ s.queue = [] := ⟨_, _, Machine.run_iff_exec.mpr rfl, rfl, rfl, rfl⟩
  obtain ⟨hsize, hanswers, _⟩ := calls_observed_in_order hs (by decide) hfree
    fun job hjob => (hjobs job hjob).2
  refine ⟨s, ?_, size, hmain, ?_⟩
  · have hanswer := hanswers [.storeDataToCache (some [1, 2, 3]) "a" none,
      .queryDataFromCache "a" none] "a" none _ rfl
    have hstored : (Write.latest (CacheJob.writes (cacheCalls
        [.storeDataToCache (some [1, 2, 3]) "a" none, .queryDataFromCache "a" none]))
          ("a", none)).isSome = true := by decide
    rw [hidle, hqueue, Option.map_none, Option.toList_none, List.append_nil,
      if_neg List.not_mem_nil, hstored] at hanswer
    exact hanswer
  · have hbefore : cacheCalls [.storeDataToCache (some [1, 2, 3]) "a" none,
        .queryDataFromCache "a" none, .queryURLFromCache "a" none] =
      [.storeDataToCache [1, 2, 3] "a" none, .queryURLFromCache "a" none] := rfl
    rw [← hbefore]
    refine hsize _ _ size rfl ?_
    rw [hmain]
    exact List.mem_singleton_self _

end TiktokClone
