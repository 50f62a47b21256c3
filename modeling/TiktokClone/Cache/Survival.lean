import TiktokClone.Cache.Emptying

/-!
# What survives a clear

A query that starts after the completion of a clear finds nothing as long as no store
has run, when no query writes back what it has read before and no clear is cut short.
-/

namespace TiktokClone

open Library

/-- A clear has called its completion and no store has run since that clear. -/
def Quiet : List CacheLog → Prop :=
  Since (fun before entry => ∃ clear, entry = .clearCompleted clear ∧ Cleared clear before)
    (· ≠ .storeRan)

/-- The query started after the completion of a clear, and no store has run since
that clear. -/
def StartedQuiet (id : Nat) : List CacheLog → Prop :=
  Since (fun before entry => entry = .queryStarted id ∧ Quiet before) (· ≠ .storeRan)

/-- Every such query has been answered with nothing. -/
def NothingSurvives : List CacheLog → Prop :=
  Always fun before entry => ∀ id found, entry = .answered id found →
    StartedQuiet id before → found = false

theorem Quiet.cleared {log : List CacheLog} (h : Quiet log) :
    ∃ clear, .clearCompleted clear ∈ log ∧ Cleared clear log := by
  induction log using List.reverseRecOn with
  | nil => exact absurd h not_since_nil
  | append_singleton log entry ih =>
    rcases since_concat.mp h with ⟨clear, rfl, hcleared⟩ | ⟨hentry, h⟩
    · exact ⟨clear, by simp, since_concat.mpr (Or.inr ⟨by simp, hcleared⟩)⟩
    · obtain ⟨clear, hmem, hcleared⟩ := ih h
      exact ⟨clear, List.mem_append_left _ hmem, since_concat.mpr (Or.inr ⟨hentry, hcleared⟩)⟩

theorem StartedQuiet.quiet {id : Nat} {log : List CacheLog} (h : StartedQuiet id log) :
    Quiet log := by
  refine h.imp fun before entry hstart => ?_
  obtain ⟨rfl, hquiet⟩ := hstart
  exact since_concat.mpr (Or.inr ⟨by simp, hquiet⟩)

/-- No query that started quietly has found anything. -/
structure Answered (s : CacheThreads) : Prop where
  fresh : ∀ id, s.started ≤ id → s.queries id = none
  queries : ∀ id data key, s.queries id = some (.storeDataToMemoryCache data key) →
    ¬ StartedQuiet id s.log
  answers : NothingSurvives s.log

variable {sys : CacheSystem} {s t : CacheThreads}

/-- When it is quiet the cache is empty. -/
theorem Emptied.of_quiet (h : Emptied sys s) (hn : Numbered s) (hquiet : Quiet s.log) :
    s.cache.memoryCache = ∅ ∧ NoFile sys s.cache := by
  obtain ⟨clear, hdone, hcleared⟩ := hquiet.cleared
  refine ⟨h.memory clear hcleared, ?_⟩
  rcases h.disk clear hcleared with hempty | hrunning | ⟨job, names, hrunning, hjob, _⟩
  · exact hempty
  · exact absurd (Or.inr hdone) (hn.running _ clear hrunning rfl).2
  · have hclear : job.clear = some clear := by
      cases job <;> cases hjob <;> rfl
    exact absurd (Or.inr hdone) (hn.running _ clear hrunning hclear).2

/-! ### Answers -/

theorem startedQuiet_concat {id : Nat} {log : List CacheLog} {entry : CacheLog}
    (h : StartedQuiet id (log ++ [entry])) : entry = .queryStarted id ∨ StartedQuiet id log := by
  rcases since_concat.mp h with ⟨hentry, _⟩ | ⟨_, h⟩
  · exact Or.inl hentry
  · exact Or.inr h

theorem Answered.congr (h : Answered s) (hqueries : t.queries = s.queries)
    (hstarted : t.started = s.started) (hlog : t.log = s.log) : Answered t where
  fresh := by
    rw [hqueries, hstarted]
    exact h.fresh
  queries := by
    rw [hqueries, hlog]
    exact h.queries
  answers := hlog ▸ h.answers

/-- One more entry, which is no answer or one that the property allows. -/
theorem Answered.log (h : Answered s) {entry : CacheLog} (hstarted : s.started ≤ t.started)
    (hqueries : ∀ id, t.queries id = s.queries id ∨ t.queries id = none ∧ id < s.started ∨
      ∃ key fileExtension, id = s.started ∧ id < t.started ∧
        t.queries id = some (.dataFromMemoryCache key fileExtension))
    (hlog : t.log = s.log ++ [entry]) (hentry : ∀ id, entry = .queryStarted id → s.started ≤ id)
    (hanswer : ∀ id found, entry = .answered id found → StartedQuiet id s.log → found = false) :
    Answered t where
  fresh := by
    intro id hid
    rcases hqueries id with he | ⟨he, _⟩ | ⟨_, _, _, hlt, _⟩
    · exact he.trans (h.fresh id (hstarted.trans hid))
    · exact he
    · exact absurd hid (not_le.mpr hlt)
  queries := by
    intro id data key hq hquiet
    rcases hqueries id with he | ⟨he, _⟩ | ⟨_, _, _, _, he⟩
    · rw [he] at hq
      rw [hlog] at hquiet
      rcases startedQuiet_concat hquiet with hstart | hquiet
      · rw [h.fresh id (hentry id hstart)] at hq
        cases hq
      · exact h.queries id data key hq hquiet
    · rw [he] at hq
      cases hq
    · rw [he] at hq
      cases hq
  answers := by
    rw [hlog]
    exact always_concat.mpr ⟨h.answers, hanswer⟩

theorem Answered.answer (h : Answered s) {id : Nat} (hid : id < s.started)
    (cache : VideoCacheManager) {found : Bool} (hfound : StartedQuiet id s.log → found = false) :
    Answered ({ s with cache := cache }.answer id found) := by
  refine h.log le_rfl (fun id' => ?_) rfl nofun ?_
  · by_cases he : id' = id
    · subst he
      exact Or.inr (Or.inl ⟨Function.update_self .., hid⟩)
    · exact Or.inl (Function.update_of_ne he ..)
  · rintro _ _ ⟨⟩ hquiet
    exact hfound hquiet

/-- A query goes on to a step that it may take. -/
theorem Answered.goOn (h : Answered s) {id : Nat} (hid : id < s.started) {step : QueryStep}
    (hstep : ∀ data key, step = .storeDataToMemoryCache data key → ¬ StartedQuiet id s.log) :
    Answered { s with queries := Function.update s.queries id (some step) } where
  fresh := fun id' hle =>
    (Function.update_of_ne (lt_of_lt_of_le hid hle).ne' ..).trans (h.fresh id' hle)
  queries := fun id' data key hq => by
    by_cases he : id' = id
    · subst he
      simp only [Function.update_self, Option.some.injEq] at hq
      exact hstep data key hq
    · simp only [Function.update_of_ne he] at hq
      exact h.queries id' data key hq
  answers := h.answers

/-- A query that starts quietly finds neither an entry in memory nor a file. -/
theorem Answered.queryStep (h : Answered s) (hn : Numbered s) (he : Emptied sys s) {id : Nat}
    {step : QueryStep} (hstep : s.queries id = some step) (throws : Bool) :
    Answered (s.queryStep sys throws id step) := by
  have hid : id < s.started := by
    by_contra hle
    rw [h.fresh id (not_lt.mp hle)] at hstep
    cases hstep
  have hempty : StartedQuiet id s.log → s.cache.memoryCache = ∅ ∧ NoFile sys s.cache :=
    fun hquiet => he.of_quiet hn hquiet.quiet
  cases step with
  | dataFromMemoryCache key fileExtension =>
    rw [CacheThreads.queryStep]
    split
    · rename_i data hdata
      refine h.answer hid s.cache fun hquiet => ?_
      rw [VideoCacheManager.dataFromMemoryCache, (hempty hquiet).1] at hdata
      cases hdata
    · refine h.goOn hid ?_
      rintro _ _ ⟨⟩
  | dataFromDiskCache key fileExtension =>
    rw [CacheThreads.queryStep]
    split
    · rename_i data hdata
      refine h.goOn hid fun _ _ _ hquiet => ?_
      have hfile : s.cache.dataFromDiskCache sys key fileExtension = some data := by
        cases throws with
        | true => cases hdata
        | false => exact hdata
      have hnofile := (hempty hquiet).2 (sys.pathSuffix key fileExtension)
      rw [← sys.diskCachePathForKey_eq_itemPath, FileManager.fileExists] at hnofile
      rw [VideoCacheManager.dataFromDiskCache, FileManager.contents] at hfile
      rw [hfile] at hnofile
      cases hnofile
    · exact h.answer hid s.cache fun _ => rfl
  | storeDataToMemoryCache data key =>
    exact h.answer hid _ fun hquiet => absurd hquiet (h.queries id data key hstep)

/-- Every step answers the queries that started quietly with nothing. -/
theorem Answered.next {cache : VideoCacheManager} {e : CacheEvent} (h : Answered s)
    (hn : Numbered s) (he : Emptied sys s)
    (ht : (cacheThreads sys cache).next s e = some t) : Answered t := by
  cases e with
  | storeDataToCache | clearCache | evict =>
    cases ht
    exact h.congr rfl rfl rfl
  | queryURLFromCache key fileExtension =>
    cases ht
    refine h.log (Nat.le_succ _) (fun _ => Or.inl rfl) rfl ?_ ?_
    · rintro _ ⟨⟩
      exact le_rfl
    · rintro _ _ ⟨⟩
  | queryDataFromCache key fileExtension =>
    cases ht
    refine h.log (Nat.le_succ _) (fun id => ?_) rfl ?_ ?_
    · by_cases hid : id = s.started
      · subst hid
        exact Or.inr (Or.inr ⟨key, fileExtension, rfl, Nat.lt_succ_self _, Function.update_self ..⟩)
      · exact Or.inl (Function.update_of_ne hid ..)
    · rintro _ ⟨⟩
      exact le_rfl
    · rintro _ _ ⟨⟩
  | queueStep throws =>
    simp only [cacheThreads] at ht
    split at ht
    · rename_i job hrunning
      obtain ⟨_, hqueries, hstarted, _, _, hlog⟩ := CacheThreads.jobStep_frame ht
      rcases hlog with hlog | ⟨entry, hlog, hstart, hanswer⟩
      · exact h.congr hqueries hstarted hlog
      · refine h.log hstarted.ge (fun id => Or.inl (congrFun hqueries id)) hlog
          (fun id hid => absurd hid (hstart id)) fun id found hentry hquiet => ?_
        obtain ⟨key, fileExtension, rfl⟩ := hanswer id found hentry
        rw [sys.diskCachePathForKey_eq_itemPath]
        exact (he.of_quiet hn hquiet.quiet).2 _
    · rename_i job jobs _ _
      cases ht
      cases job <;> exact h.congr rfl rfl rfl
    · cases ht
  | queryStep id throws =>
    simp only [cacheThreads] at ht
    split at ht
    · cases ht
    · rename_i step hstep
      cases ht
      exact h.queryStep hn he hstep throws
  | completionStep =>
    simp only [cacheThreads] at ht
    split at ht
    · cases ht
    · cases ht
      refine h.log le_rfl (fun _ => Or.inl rfl) rfl ?_ ?_
      · rintro _ ⟨⟩
      · rintro _ _ ⟨⟩

/-- Nothing survives a clear. In every interleaving, from any contents of the cache,
whose queries write nothing back between a clear of the memory cache and the next
store, and whose clears meet no file operation that throws: a query that starts
after a clear has called its completion is answered with nothing, as long as no
store has run since that clear. -/
theorem nothing_survives_clear {sys : CacheSystem} {cache : VideoCacheManager}
    {events : List CacheEvent} {s : CacheThreads} (hrun : (cacheThreads sys cache).Run events s)
    (hsafe : (cacheThreads sys cache).AllSteps SafeStep events) : NothingSurvives s.log := by
  have hinvariant : Numbered s ∧ Emptied sys s ∧ Answered s := by
    refine hrun.invariant_of_allSteps (I := fun s => Numbered s ∧ Emptied sys s ∧ Answered s)
      ⟨numbered_idle cache, ?_, ?_⟩ ?_ hsafe
    · exact .of_noFile (fun _ hc => absurd hc not_since_nil) (fun _ hc => absurd hc not_since_nil)
        nofun nofun
    · exact ⟨fun _ _ => rfl, nofun, always_nil⟩
    · rintro s e t ⟨hn, he, ha⟩ hstep ht
      exact ⟨hn.next ht, he.next hstep ht, ha.next hn he ht⟩
  exact hinvariant.2.2.answers

/-- One file, left by an earlier run of the app. -/
def oneFile : VideoCacheManager :=
  VideoCacheManager.empty.storeDataToDiskCache .twoKeys (some [1]) "a" none

/-- The file is cleared, and a URL query starts when the clear has completed. -/
def clearedFile : List CacheEvent :=
  [.clearCache, .queueStep false, .queueStep false, .queueStep false, .queueStep false,
    .queueStep false, .queueStep false, .queueStep false, .completionStep,
    .queryURLFromCache "a" none, .queueStep false, .queueStep false]

theorem nothing_survives_clear_one_file :
    ∃ s, (cacheThreads .twoKeys oneFile).Run clearedFile s ∧
      s.log = [.memoryCleared 0, .clearCompleted 0, .queryStarted 0, .answered 0 false] ∧
      NothingSurvives s.log := by
  obtain ⟨s, hrun, hlog⟩ : ∃ s, (cacheThreads .twoKeys oneFile).Run clearedFile s ∧
      s.log = [.memoryCleared 0, .clearCompleted 0, .queryStarted 0, .answered 0 false] :=
    ⟨_, Machine.run_iff_exec.mpr rfl, rfl⟩
  refine ⟨s, hrun, hlog, nothing_survives_clear hrun fun before e hprefix s _ => ?_⟩
  have hmem : e ∈ clearedFile :=
    hprefix.subset (List.mem_append_right _ (List.mem_singleton_self e))
  simp only [clearedFile, List.mem_cons, List.not_mem_nil, or_false] at hmem
  cases e with
  | queueStep throws =>
    obtain rfl : throws = false := by simpa using hmem
    exact fun _ _ _ => rfl
  | queryStep id throws => simp at hmem
  | _ => trivial

/-- A query misses the memory cache, reads the file, and writes it back after a clear
has begun; a second query starts when the clear has completed. -/
def writeBackRace : List CacheEvent :=
  [.queryDataFromCache "a" none, .queryStep 0 false, .queryStep 0 false, .clearCache,
    .queueStep false, .queueStep false, .queueStep false, .queueStep false, .queueStep false,
    .queueStep false, .queueStep false, .queryStep 0 false, .completionStep,
    .queryDataFromCache "a" none, .queryStep 1 false]

/-- The second query finds the data that the first one has written back. -/
theorem write_back_survives_clear :
    ∃ s, (cacheThreads .twoKeys oneFile).Run writeBackRace s ∧ ¬ NothingSurvives s.log := by
  obtain ⟨s, hrun, hlog⟩ : ∃ s, (cacheThreads .twoKeys oneFile).Run writeBackRace s ∧
      s.log = [.queryStarted 0, .memoryCleared 0, .answered 0 true, .clearCompleted 0,
        .queryStarted 1, .answered 1 true] := ⟨_, Machine.run_iff_exec.mpr rfl, rfl⟩
  refine ⟨s, hrun, fun h => ?_⟩
  rw [hlog] at h
  have hcleared : Cleared 0 [.queryStarted 0, .memoryCleared 0, .answered 0 true] :=
    ⟨[.queryStarted 0], _, [.answered 0 true], rfl, rfl, by simp⟩
  have hquiet : Quiet [.queryStarted 0, .memoryCleared 0, .answered 0 true, .clearCompleted 0] :=
    ⟨[.queryStarted 0, .memoryCleared 0, .answered 0 true], _, [], rfl, ⟨0, rfl, hcleared⟩, by simp⟩
  have hstarted : StartedQuiet 1 [.queryStarted 0, .memoryCleared 0, .answered 0 true,
      .clearCompleted 0, .queryStarted 1] :=
    ⟨[.queryStarted 0, .memoryCleared 0, .answered 0 true, .clearCompleted 0], _, [], rfl,
      ⟨rfl, hquiet⟩, by simp⟩
  exact Bool.noConfusion (h [.queryStarted 0, .memoryCleared 0, .answered 0 true,
    .clearCompleted 0, .queryStarted 1] _ [] rfl 1 true rfl hstarted)

end TiktokClone
