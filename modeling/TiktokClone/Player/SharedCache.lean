import TiktokClone.Cache.Contents
import TiktokClone.Library.Family
import TiktokClone.Player.CacheIntegrity
import TiktokClone.Player.Lifetime

/-!
# The videos in the shared cache

All cells of the feed stream into one cache and play from it. Their completions submit
stores to its queue, clears come in between, and a cell that is configured asks the queue
for a file. However the cells are reused, a file is never a part of a video; it can only be
filed under the name of another post, and it is so exactly when a completion finds its view
configured for that post. A view whose session was invalidated is taken to get no more
callbacks with data or with success.
-/

namespace TiktokClone

open Library

/-- The jobs on the queue of the cache. -/
inductive SharedJob
  | storeDataToCache (store : StoreDataToCache)
  | clearCache

/-- The cache manager with the jobs on its `dispatchQueue`. -/
structure SharedCache where
  manager : VideoCacheManager
  dispatchQueue : List SharedJob

/-- The button that clears the cache, the queue, and the memory cache, which may evict. -/
inductive SharedCacheEvent
  | clearCache
  /-- The next job runs; each of its file operations may fail. -/
  | runJob (faults : FileFaults) (creates : Bool)
  | evict (key : String)

namespace SharedCache

def submit (c : SharedCache) (jobs : List SharedJob) : SharedCache :=
  { c with dispatchQueue := c.dispatchQueue ++ jobs }

/-- A store whose file cannot be created reaches the memory cache only. -/
def runJob (sys : CacheSystem) (faults : FileFaults) (creates : Bool) (c : SharedCache) :
    Option SharedCache :=
  match c.dispatchQueue with
  | [] => none
  | .storeDataToCache store :: jobs =>
    some ⟨if creates then
        c.manager.storeDataToCache sys store.data store.key store.fileExtension
      else c.manager.storeDataToMemoryCache store.data store.key, jobs⟩
  | .clearCache :: jobs =>
    (c.manager.clearCache sys faults).map fun (manager, _) => ⟨manager, jobs⟩

/-- `NSCache` may drop an entry at any time. -/
def evict (c : SharedCache) (key : String) : SharedCache :=
  { c with manager := { c.manager with memoryCache := c.manager.memoryCache.erase key } }

/-- `configure` waits until its query has run on the queue, after all jobs before it. -/
def answers (sys : CacheSystem) (c : SharedCache) (url : URL) (fileExtension : Option String)
    (data : Option String) : Bool :=
  c.dispatchQueue.isEmpty &&
    decide (c.manager.queryURLFromCache sys url.absoluteString fileExtension = [data])

end SharedCache

/-- The cells of the feed, each with its player view, around the one cache. The URLs are those
of the posts. -/
def sharedCache (f : Foundation) (remote : Remote) (sys : CacheSystem) (urls : List URL) :
    Sharing Unit Player ReuseEvent SharedCache SharedCacheEvent where
  component _ := reuse f remote
  start := ⟨.empty, []⟩
  allowed c _ _
    | .configure (some url) data =>
      decide (url ∈ urls) && c.answers sys url (remote.fileExtension url) data
    | _ => true
  effect c _ p _ q := c.submit ((q.stores.drop p.stores.length).map .storeDataToCache)
  step c
    | .clearCache => some (c.submit [.clearCache])
    | .runJob faults creates => c.runJob sys faults creates
    | .evict key => some (c.evict key)

/-- The cells with their cache. -/
abbrev SharedPlayers := Family Unit Player SharedCache

/-! ### The steps of one cell -/

/-- Everything that a step can do to the post that a view is about, to what it plays and to
what it stores. -/
inductive ReuseStep (f : Foundation) (remote : Remote) (p q : Player) (e : ReuseEvent) : Prop
  | configured (url : URL) (data : Option String) (event : e = .configure (some url) data)
      (result : q = p.configure (some url) (remote.fileExtension url) data)
  | presented (block : ConfigureBlock) (blocks : List ConfigureBlock)
      (event : e = .runConfigureBlock) (queue : p.mainQueue = block :: blocks)
      (result : q = { p with mainQueue := blocks }.runConfigureBlock f block)
  | cancelled (event : e = .cancelAllLoadingRequest) (result : q = p.cancelAllLoadingRequest)
  | completed (id : Nat) (task : URLSessionDataTask) (event : e = .didCompleteWithError id none)
      (whole : p.wholeTask remote id = some task)
      (result : (p.completeTask id).didCompleteWithError none = some q)
  | served (event : ∀ id, e ≠ .didCompleteWithError id none)
      (originalURL : q.originalURL = p.originalURL) (mainQueue : q.mainQueue = p.mainQueue)
      (queuePlayer : q.queuePlayer = p.queuePlayer) (stores : q.stores = p.stores)

theorem reuseStep_of_next {f : Foundation} {remote : Remote} {p q : Player} {e : ReuseEvent}
    (hn : (reuse f remote).next p e = some q) : ReuseStep f remote p q e := by
  cases e with
  | configure url data =>
    cases hn
    cases url with
    | none => exact .served (fun _ he => by cases he) rfl rfl rfl rfl
    | some url => exact .configured url data rfl rfl
  | runConfigureBlock =>
    simp only [reuse] at hn
    split at hn
    · cases hn
    · rename_i block blocks hqueue
      cases hn
      exact .presented block blocks rfl hqueue rfl
  | cancelAllLoadingRequest =>
    cases hn
    exact .cancelled rfl rfl
  | runCancelBlock =>
    simp only [reuse] at hn
    split at hn
    · cases hn
    · cases hn
      exact .served (fun _ he => by cases he) rfl rfl rfl rfl
  | shouldWaitForLoading info range =>
    cases hn
    refine .served (fun _ he => by cases he) ?_ ?_ ?_ ?_
    all_goals
      rw [Player.shouldWaitForLoading]
      rcases p.startTask_cases with he | ⟨url, task, _, _, _, he⟩ <;> rw [he]
  | didCancel id =>
    cases hn
    exact .served (fun _ he => by cases he) rfl rfl rfl rfl
  | didReceiveResponse id response =>
    simp only [reuse] at hn
    split at hn
    · cases hn
    · obtain ⟨requests, loadingRequests, rfl⟩ := Player.processLoadingRequest_frame hn
      exact .served (fun _ he => by cases he) rfl rfl rfl rfl
  | didReceiveData id chunk =>
    simp only [reuse, Player.deliver] at hn
    split at hn
    · cases hn
    · obtain ⟨_, hn⟩ := Option.ite_none_right_eq_some.mp hn
      obtain ⟨requests, loadingRequests, rfl⟩ := Player.processLoadingRequest_frame hn
      exact .served (fun _ he => by cases he) rfl rfl rfl rfl
  | didCompleteWithError id error =>
    cases error with
    | some error =>
      cases hn
      exact .served (fun _ he => by cases he) rfl rfl rfl rfl
    | none =>
      simp only [reuse] at hn
      split at hn
      · cases hn
      · rename_i task hwhole
        exact .completed id task rfl hwhole hn

/-- A completion stores the whole body of its task, under the name of the post that the view
is configured for then. -/
theorem Linked.stores_next {f : Foundation} {remote : Remote} {p q : Player} {e : ReuseEvent}
    (h : Linked p) (hn : (reuse f remote).next p e = some q) :
    q.stores = p.stores ∧ (∀ id, e ≠ .didCompleteWithError id none) ∨
    ∃ id task url, e = .didCompleteWithError id none ∧
      p.wholeTask remote id = some task ∧ p.originalURL = some url ∧
      q.tasks = (p.completeTask id).tasks ∧
      q.stores = p.stores ++
        [⟨some (remote.body task.url), url.absoluteString, p.fileExtension⟩] := by
  cases reuseStep_of_next hn with
  | configured url data he hq =>
    subst he hq
    exact Or.inl ⟨rfl, fun _ he => by cases he⟩
  | presented block blocks he _ hq =>
    subst he hq
    refine Or.inl ⟨?_, fun _ he => by cases he⟩
    exact (Player.runConfigureBlock_frame f { p with mainQueue := blocks } block).2.2.2.2.2
  | cancelled he hq =>
    subst he hq
    exact Or.inl ⟨rfl, fun _ he => by cases he⟩
  | served he _ _ _ hstores => exact Or.inl ⟨hstores, he⟩
  | completed id task he hwhole hq =>
    obtain ⟨hlive, hbody⟩ := Option.filter_eq_some_iff.mp hwhole
    obtain ⟨_, _, _, _, _, hdata⟩ := h.live hlive
    rw [eq_of_beq hbody] at hdata
    cases hurl : p.originalURL with
    | none => simp [Player.didCompleteWithError, Player.completeTask, hurl] at hq
    | some url =>
      simp only [Player.didCompleteWithError, Player.completeTask, hurl, hdata] at hq
      cases hq
      exact Or.inr ⟨id, task, url, he, hwhole, rfl, rfl, rfl⟩

/-- A completed task is kept as it is. -/
theorem tasks_next_of_isCompleted {f : Foundation} {remote : Remote} {p q : Player}
    {e : ReuseEvent} (hn : (reuse f remote).next p e = some q) {task : URLSessionDataTask}
    (hmem : task ∈ p.tasks) (hc : task.isCompleted = true) : task ∈ q.tasks := by
  have hcomplete : ∀ id, task ∈ (p.completeTask id).tasks := by
    intro id
    obtain ⟨j, hj⟩ := List.mem_iff_getElem?.mp hmem
    refine List.mem_iff_getElem?.mpr ⟨j, ?_⟩
    rw [Player.completeTask, List.getElem?_modify, hj, Option.map_eq_map, Option.map_some]
    split
    · rw [← hc]
    · rfl
  cases taskStep_of_next hn with
  | kept htasks => exact htasks ▸ hmem
  | made new _ _ _ htasks => exact htasks ▸ List.mem_append_left _ hmem
  | delivered id live chunk hlive _ htasks =>
    obtain ⟨hlookup, hrunning, _⟩ := p.liveTask_spec hlive
    obtain ⟨j, hj⟩ := List.mem_iff_getElem?.mp hmem
    have hne : id ≠ j := by
      rintro rfl
      obtain rfl := Option.some.inj (hlookup.symm.trans hj)
      rw [hc] at hrunning
      cases hrunning
    rw [htasks]
    exact List.mem_iff_getElem?.mpr ⟨j, (List.getElem?_set_ne hne).trans hj⟩
  | completed id htasks => exact htasks ▸ hcomplete id

/-! ### Whole videos -/

/-- A task of one of the cells has completed, and this is the whole body that it received. -/
def SharedPlayers.Downloaded (remote : Remote) (s : SharedPlayers) (data : Data) : Prop :=
  ∃ m ∈ s.members, ∃ task ∈ m.2.tasks, task.isCompleted = true ∧
    task.received = remote.body task.url ∧ data = remote.body task.url

/-- Every video in the cache, or on its way there, is a downloaded one. -/
structure WholeVideos (remote : Remote) (s : SharedPlayers) : Prop where
  files : ∀ path data, s.resource.manager.diskCache.contents path = some data →
    s.Downloaded remote data
  memory : ∀ key entry, s.resource.manager.memoryCache.lookup key = some entry →
    ∃ data, entry = some data ∧ s.Downloaded remote data
  queued : ∀ store, .storeDataToCache store ∈ s.resource.dispatchQueue →
    ∃ data, store.data = some data ∧ s.Downloaded remote data

/-- The loop of a clear creates no file, however it ends. -/
theorem FileManager.contents_of_clearContents {m m' : FileManager} {faults : FileFaults}
    {directory : String} {names : List String} {total : ℚ}
    (h : m.clearContents faults directory names total = .thrown m' ∨
      ∃ size, m.clearContents faults directory names total = .cleared m' size)
    {path : String} {data : Data} (hdata : m'.contents path = some data) :
    m.contents path = some data := by
  induction names generalizing m total with
  | nil =>
    rcases h with h | ⟨size, h⟩
    · cases h
    · cases h
      exact hdata
  | cons name names ih =>
    rw [clearContents] at h
    split at h
    · rcases h with h | ⟨_, h⟩
      · cases h
        exact hdata
      · cases h
    · split at h
      · rcases h with h | ⟨_, h⟩ <;> cases h
      · split at h
        · rcases h with h | ⟨_, h⟩
          · cases h
            exact hdata
          · cases h
        · rename_i rest hremove
          exact contents_removeItem hremove (ih h)

/-- A clear empties the memory cache and creates no file, whatever operation throws. -/
theorem VideoCacheManager.clearCache_shrinks {sys : CacheSystem} {faults : FileFaults}
    {m m' : VideoCacheManager} {size : String} (h : m.clearCache sys faults = some (m', size)) :
    m'.memoryCache = ∅ ∧ ∀ path data, m'.diskCache.contents path = some data →
      m.diskCache.contents path = some data := by
  rw [clearCache, clearDiskCache] at h
  split at h
  · cases h
    exact ⟨rfl, fun _ _ hdata => hdata⟩
  · split at h
    · cases h
    · rename_i hthrown
      cases h
      exact ⟨rfl, fun _ _ => FileManager.contents_of_clearContents (Or.inl hthrown)⟩
    · rename_i hcleared
      cases h
      exact ⟨rfl, fun _ _ => FileManager.contents_of_clearContents (Or.inr ⟨_, hcleared⟩)⟩

/-- What a job can put into the cache. -/
theorem SharedCache.runJob_cases {sys : CacheSystem} {faults : FileFaults} {creates : Bool}
    {c d : SharedCache} (h : c.runJob sys faults creates = some d) :
    (∀ job ∈ d.dispatchQueue, job ∈ c.dispatchQueue) ∧
    ((∃ store, .storeDataToCache store ∈ c.dispatchQueue ∧
        d.manager.memoryCache = c.manager.memoryCache.insert store.key store.data ∧
        (d.manager.diskCache = c.manager.diskCache ∨
          d.manager.diskCache = c.manager.diskCache.createFile
            (sys.diskCachePathForKey store.key store.fileExtension) store.data)) ∨
      d.manager.memoryCache = ∅ ∧ ∀ path data, d.manager.diskCache.contents path = some data →
        c.manager.diskCache.contents path = some data) := by
  rw [runJob] at h
  split at h
  · cases h
  · rename_i store jobs hqueue
    have hjobs : ∀ job ∈ jobs, job ∈ c.dispatchQueue :=
      fun job hjob => hqueue ▸ List.mem_cons_of_mem _ hjob
    have hstore : .storeDataToCache store ∈ c.dispatchQueue := hqueue ▸ List.mem_cons_self
    obtain rfl := Option.some.inj h
    refine ⟨hjobs, Or.inl ⟨store, hstore, ?_, ?_⟩⟩
    · cases creates <;> rfl
    · cases creates
      · exact Or.inl rfl
      · exact Or.inr rfl
  · rename_i jobs hqueue
    obtain ⟨⟨manager, size⟩, hclear, rfl⟩ := Option.map_eq_some_iff.mp h
    refine ⟨fun job hjob => hqueue ▸ List.mem_cons_of_mem _ hjob, Or.inr ?_⟩
    exact VideoCacheManager.clearCache_shrinks hclear

section Whole

variable {f : Foundation} {remote : Remote} {sys : CacheSystem} {urls : List URL}
  {s t : SharedPlayers}

/-- What has been downloaded stays so. -/
theorem SharedPlayers.Downloaded.next
    {e : FamilyEvent Unit ReuseEvent SharedCacheEvent}
    (hn : (sharedCache f remote sys urls).machine.next s e = some t) {data : Data}
    (h : s.Downloaded remote data) : t.Downloaded remote data := by
  obtain ⟨m, hm, task, htask, hcompleted, hreceived, rfl⟩ := h
  cases e with
  | make _ =>
    obtain rfl := Option.some.inj hn
    exact ⟨m, List.mem_append_left _ hm, task, htask, hcompleted, hreceived, rfl⟩
  | resource b =>
    obtain ⟨r, _, rfl⟩ := Sharing.next_resource hn
    exact ⟨m, hm, task, htask, hcompleted, hreceived, rfl⟩
  | member k e =>
    obtain ⟨i, p, q, hk, _, hnext, rfl⟩ := Sharing.next_member hn
    obtain ⟨j, hj⟩ := List.mem_iff_getElem?.mp hm
    by_cases hjk : k = j
    · subst hjk
      obtain rfl := Option.some.inj (hk.symm.trans hj)
      refine ⟨(i, q), ?_, task, tasks_next_of_isCompleted hnext htask hcompleted, hcompleted,
        hreceived, rfl⟩
      exact List.mem_set (List.getElem?_eq_some_iff.mp hk).1 _
    · refine ⟨m, List.mem_iff_getElem?.mpr ⟨j, ?_⟩, task, htask, hcompleted, hreceived, rfl⟩
      exact (List.getElem?_set_ne hjk).trans hj

/-- The task of a successful completion has received its whole body. -/
theorem downloaded_of_wholeTask {p q : Player} {id : Nat} {task : URLSessionDataTask}
    (hwhole : p.wholeTask remote id = some task) (htasks : q.tasks = (p.completeTask id).tasks) :
    ∃ done ∈ q.tasks, done.isCompleted = true ∧ done.received = remote.body done.url ∧
      remote.body task.url = remote.body done.url := by
  obtain ⟨hlive, hbody⟩ := Option.filter_eq_some_iff.mp hwhole
  obtain ⟨hlookup, _, _⟩ := p.liveTask_spec hlive
  refine ⟨{ task with isCompleted := true }, ?_, rfl, eq_of_beq hbody, rfl⟩
  rw [htasks]
  refine List.mem_iff_getElem?.mpr ⟨id, ?_⟩
  rw [Player.completeTask, List.getElem?_modify, hlookup, Option.map_eq_map, Option.map_some,
    if_pos rfl]

theorem WholeVideos.next (h : WholeVideos remote s)
    (hr : (sharedCache f remote sys urls).machine.Reachable s)
    {e : FamilyEvent Unit ReuseEvent SharedCacheEvent}
    (hn : (sharedCache f remote sys urls).machine.next s e = some t) : WholeVideos remote t := by
  have hkeep : ∀ {data}, s.Downloaded remote data → t.Downloaded remote data :=
    fun hd => hd.next hn
  cases e with
  | make _ =>
    obtain rfl := Option.some.inj hn
    exact ⟨fun path data hd => hkeep (h.files path data hd),
      fun key entry hl => (h.memory key entry hl).imp fun _ hd => ⟨hd.1, hkeep hd.2⟩,
      fun store hs => (h.queued store hs).imp fun _ hd => ⟨hd.1, hkeep hd.2⟩⟩
  | member k e =>
    obtain ⟨i, p, q, hk, _, hnext, rfl⟩ := Sharing.next_member hn
    refine ⟨fun path data hd => hkeep (h.files path data hd),
      fun key entry hl => (h.memory key entry hl).imp fun _ hd => ⟨hd.1, hkeep hd.2⟩,
      fun store hs => ?_⟩
    rcases List.mem_append.mp hs with hold | hnew
    · exact (h.queued store hold).imp fun _ hd => ⟨hd.1, hkeep hd.2⟩
    have hlinked : Linked p := Linked.of_reachable (Sharing.member_reachable hr hk)
    rcases hlinked.stores_next hnext with
      ⟨hsame, _⟩ | ⟨id, task, url, _, hwhole, _, htasks, hstores⟩
    · rw [hsame, List.drop_length] at hnew
      cases hnew
    · rw [hstores, List.drop_left, List.map_singleton, List.mem_singleton] at hnew
      cases hnew
      obtain ⟨done, hdone, hcompleted, hreceived, hbody⟩ := downloaded_of_wholeTask hwhole htasks
      refine ⟨remote.body task.url, rfl, (i, q), ?_, done, hdone, hcompleted, hreceived, hbody⟩
      exact List.mem_set (List.getElem?_eq_some_iff.mp hk).1 _
  | resource b =>
    obtain ⟨r, hstep, rfl⟩ := Sharing.next_resource hn
    cases b with
    | clearCache =>
      obtain rfl := Option.some.inj hstep
      refine ⟨h.files, h.memory, fun store hs => ?_⟩
      rcases List.mem_append.mp hs with hold | hnew
      · exact h.queued store hold
      · cases List.mem_singleton.mp hnew
    | evict key =>
      obtain rfl := Option.some.inj hstep
      refine ⟨h.files, fun other entry hl => ?_, h.queued⟩
      by_cases hkey : other = key
      · rw [hkey, SharedCache.evict, AList.lookup_erase] at hl
        cases hl
      · exact h.memory other entry ((AList.lookup_erase_ne hkey).symm.trans hl)
    | runJob faults creates =>
      obtain ⟨hjobs, ⟨store, hstore, hmemory, hdisk⟩ | ⟨hmemory, hdisk⟩⟩ :=
        SharedCache.runJob_cases hstep
      · obtain ⟨video, hvideo, hdownloaded⟩ := h.queued store hstore
        refine ⟨fun path data hd => ?_, fun key entry hl => ?_,
          fun other hother => h.queued other (hjobs _ hother)⟩
        · rcases hdisk with hdisk | hdisk
          · exact h.files path data (by rwa [hdisk] at hd)
          · rw [hdisk] at hd
            rcases FileManager.contents_createFile hd with ⟨_, rfl⟩ | hold
            · rw [hvideo]
              exact hdownloaded
            · exact h.files path data hold
        · rw [hmemory] at hl
          by_cases hkey : key = store.key
          · rw [hkey, AList.lookup_insert, hvideo] at hl
            exact ⟨video, (Option.some.inj hl).symm, hdownloaded⟩
          · rw [AList.lookup_insert_ne hkey] at hl
            exact h.memory key entry hl
      · refine ⟨fun path data hd => h.files path data (hdisk path data hd), fun key entry hl => ?_,
          fun other hother => h.queued other (hjobs _ hother)⟩
        rw [hmemory] at hl
        cases hl

/-- No part of a video is ever kept. However the cells are reused and whatever the queues and
the file system do, every file and every entry of the cache is the whole body of a URL that one
of the cells has downloaded; this rests on no success being delivered for a session that was
invalidated, whose view has dropped its buffer. -/
theorem cached_videos_are_whole
    (h : (sharedCache f remote sys urls).machine.Reachable s) : WholeVideos remote s := by
  obtain ⟨events, hrun⟩ := h
  induction hrun with
  | nil => exact ⟨nofun, nofun, nofun⟩
  | snoc hr hn ih => exact ih.next ⟨_, hr⟩ hn

end Whole

/-! ### Videos under their own names -/

/-- What a player item plays: the file of its post in the cache, or the redirect URL, whose
bytes the view streams. -/
def AVPlayerItem.PlaysFrom (f : Foundation) (remote : Remote) (sys : CacheSystem)
    (item : AVPlayerItem) : Prop :=
  item.asset.url = f.fileURL (sys.diskCachePathForKey item.source.absoluteString
    (remote.fileExtension item.source)) ∨
  item.source.convertToRedirectURL f "streaming" = some item.asset.url

/-- The player of a view has this item. -/
def Player.HasItem (p : Player) (item : AVPlayerItem) : Prop :=
  ∃ queuePlayer, p.queuePlayer = some queuePlayer ∧ queuePlayer.currentItem = some item

/-- The view is about posts of the feed, and it knows the file of a post by its own path. -/
structure Named (f : Foundation) (remote : Remote) (sys : CacheSystem) (urls : List URL)
    (p : Player) : Prop where
  originalURL : ∀ url, p.originalURL = some url → url ∈ urls
  block : ∀ block ∈ p.mainQueue, block.url ∈ urls ∧ ∀ path, block.data = some path →
    path = sys.diskCachePathForKey block.url.absoluteString (remote.fileExtension block.url)
  item : ∀ item, p.HasItem item → item.source ∈ urls ∧ item.PlaysFrom f remote sys

/-- The store has the whole body of a post, under its own name. -/
def OwnVideo (remote : Remote) (urls : List URL) (store : StoreDataToCache) : Prop :=
  ∃ url ∈ urls, store =
    ⟨some (remote.body url), url.absoluteString, remote.fileExtension url⟩

/-- Every file of a post holds the post's own video, and so do the waiting stores; what a cell
plays from disk is the whole video of its post, unless a clear has removed the file. -/
structure OwnVideos (f : Foundation) (remote : Remote) (sys : CacheSystem) (urls : List URL)
    (s : SharedPlayers) : Prop where
  files : ∀ url ∈ urls, ∀ fileExtension data,
    s.resource.manager.dataFromDiskCache sys url.absoluteString fileExtension = some data →
      fileExtension = remote.fileExtension url ∧ data = remote.body url
  queued : ∀ store, .storeDataToCache store ∈ s.resource.dispatchQueue →
    OwnVideo remote urls store
  played : ∀ m ∈ s.members, ∀ item, m.2.HasItem item → item.source ∈ urls ∧
    (item.source.convertToRedirectURL f "streaming" = some item.asset.url ∨
      ∃ path, item.asset.url = f.fileURL path ∧
        ∀ data, s.resource.manager.diskCache.contents path = some data →
          data = remote.body item.source)

/-- A completion finds its view configured for the post whose body its task has received. -/
def CompletesConfigured (remote : Remote) (s : SharedPlayers) :
    FamilyEvent Unit ReuseEvent SharedCacheEvent → Prop
  | .member k e => ∀ i p, s.members[k]? = some (i, p) → StillConfigured remote p e
  | .make _ | .resource _ => True

section Own

variable {f : Foundation} {remote : Remote} {sys : CacheSystem} {urls : List URL}
  {s t : SharedPlayers}

/-- A step that leaves the URL, the blocks and the player alone. -/
theorem Named.congr {p q : Player} (h : Named f remote sys urls p)
    (hu : q.originalURL = p.originalURL) (hm : q.mainQueue = p.mainQueue)
    (hq : q.queuePlayer = p.queuePlayer) : Named f remote sys urls q where
  originalURL := hu ▸ h.originalURL
  block := hm ▸ h.block
  item := by
    unfold Player.HasItem
    rw [hq]
    exact h.item

theorem Named.present {p : Player} (h : Named f remote sys urls p) {url videoURL : URL}
    (hurl : url ∈ urls) (hitem : (⟨⟨videoURL⟩, url⟩ : AVPlayerItem).PlaysFrom f remote sys) :
    Named f remote sys urls (p.present videoURL url) where
  originalURL := by
    rintro other ⟨⟩
    exact hurl
  block := h.block
  item := by
    rintro item ⟨queuePlayer, hplayer, hcurrent⟩
    have hnew : item = ⟨⟨videoURL⟩, url⟩ := by
      rw [Player.present] at hplayer
      cases hold : p.queuePlayer <;> rw [hold] at hplayer <;> cases hplayer <;>
        exact (Option.some.inj hcurrent).symm
    rw [hnew]
    exact ⟨hurl, hitem⟩

/-- A block presents the file of its post or the redirect URL, or it does nothing. -/
theorem Named.runConfigureBlock {p : Player} {block : ConfigureBlock} {blocks : List ConfigureBlock}
    (h : Named f remote sys urls p) (hqueue : p.mainQueue = block :: blocks) :
    Named f remote sys urls ({ p with mainQueue := blocks }.runConfigureBlock f block) := by
  have hrest : Named f remote sys urls { p with mainQueue := blocks } :=
    ⟨h.originalURL, fun other hother => h.block other (hqueue ▸ List.mem_cons_of_mem _ hother),
      h.item⟩
  obtain ⟨hurl, hpath⟩ := h.block block (hqueue ▸ List.mem_cons_self)
  rw [Player.runConfigureBlock]
  split
  · rename_i path hdata
    refine hrest.present hurl (Or.inl ?_)
    rw [hpath path hdata]
  · split
    · exact hrest
    · rename_i redirectUrl hredirect
      exact hrest.present hurl (Or.inr hredirect)

/-- The query of `configure` finds nothing or the path of its post. -/
theorem SharedCache.path_of_answers {c : SharedCache} {url : URL} {fileExtension : Option String}
    {path : String} (h : c.answers sys url fileExtension (some path) = true) :
    path = sys.diskCachePathForKey url.absoluteString fileExtension := by
  rw [answers, Bool.and_eq_true, decide_eq_true_eq, VideoCacheManager.queryURLFromCache] at h
  obtain ⟨_, hanswer⟩ := h
  split at hanswer
  · exact (Option.some.inj (List.singleton_inj.mp hanswer)).symm
  · cases hanswer

theorem Named.next {c : SharedCache} {k : Nat} {p q : Player} {e : ReuseEvent}
    (h : Named f remote sys urls p)
    (hallowed : (sharedCache f remote sys urls).allowed c k p e = true)
    (hn : (reuse f remote).next p e = some q) : Named f remote sys urls q := by
  cases reuseStep_of_next hn with
  | configured url data he hq =>
    subst he hq
    obtain ⟨hurl, hanswers⟩ := Bool.and_eq_true_iff.mp hallowed
    refine ⟨h.originalURL, fun block hblock => ?_, h.item⟩
    rcases List.mem_append.mp hblock with hold | hnew
    · exact h.block block hold
    · obtain rfl := List.mem_singleton.mp hnew
      refine ⟨of_decide_eq_true hurl, fun path hpath => ?_⟩
      obtain rfl : data = some path := hpath
      exact SharedCache.path_of_answers hanswers
  | presented block blocks _ hqueue hq => exact hq ▸ h.runConfigureBlock hqueue
  | cancelled _ hq =>
    subst hq
    exact ⟨fun _ hu => (by cases hu), h.block, h.item⟩
  | completed id task _ _ hq =>
    rw [Player.didCompleteWithError] at hq
    split at hq
    · cases hq
    · cases hq
      exact h.congr rfl rfl rfl
  | served _ hurl hqueue hplayer => exact h.congr hurl hqueue hplayer

theorem named_initial : Named f remote sys urls .initial where
  originalURL := fun _ hu => nomatch hu
  block := fun _ hb => absurd hb List.not_mem_nil
  item := fun _ ⟨_, hplayer, _⟩ => nomatch hplayer

/-- Every cell is linked to its task and about posts of the feed. -/
theorem named_of_reachable (h : (sharedCache f remote sys urls).machine.Reachable s) {k : Nat}
    {p : Player} (hk : s.members[k]? = some ((), p)) :
    Linked p ∧ Named f remote sys urls p := by
  have hinvariant := Sharing.member_invariant (R := fun _ p => Named f remote sys urls p)
    (fun _ => named_initial) (fun _ _ _ _ _ _ _ hR hallowed hn => Named.next hR hallowed hn) h hk
  exact ⟨Linked.of_reachable hinvariant.1, hinvariant.2⟩

/-- What the cells play follows from the files: an item knows its file by its path. -/
theorem OwnVideos.of_stored (hr : (sharedCache f remote sys urls).machine.Reachable s)
    (files : ∀ url ∈ urls, ∀ fileExtension data,
      s.resource.manager.dataFromDiskCache sys url.absoluteString fileExtension = some data →
        fileExtension = remote.fileExtension url ∧ data = remote.body url)
    (queued : ∀ store, .storeDataToCache store ∈ s.resource.dispatchQueue →
      OwnVideo remote urls store) : OwnVideos f remote sys urls s where
  files := files
  queued := queued
  played := by
    rintro ⟨⟨⟩, p⟩ hm item hitem
    obtain ⟨k, hk⟩ := List.mem_iff_getElem?.mp hm
    obtain ⟨hurl, hfile | hredirect⟩ := (named_of_reachable hr hk).2.item item hitem
    · exact ⟨hurl, Or.inr ⟨_, hfile, fun data hdata => (files _ hurl _ data hdata).2⟩⟩
    · exact ⟨hurl, Or.inl hredirect⟩

/-- The queue's own steps put every video where its store says. -/
theorem OwnVideos.files_runJob (h : OwnVideos f remote sys urls s)
    (hfree : sys.CollisionFree {key | ∃ url ∈ urls, url.absoluteString = key})
    {faults : FileFaults} {creates : Bool} {c : SharedCache}
    (hrun : s.resource.runJob sys faults creates = some c) :
    (∀ url ∈ urls, ∀ fileExtension data,
      c.manager.dataFromDiskCache sys url.absoluteString fileExtension = some data →
        fileExtension = remote.fileExtension url ∧ data = remote.body url) ∧
    ∀ job ∈ c.dispatchQueue, job ∈ s.resource.dispatchQueue := by
  obtain ⟨hjobs, ⟨store, hstore, _, hdisk⟩ | ⟨_, hdisk⟩⟩ := SharedCache.runJob_cases hrun
  · refine ⟨fun url hurl fileExtension data hdata => ?_, hjobs⟩
    rw [VideoCacheManager.dataFromDiskCache] at hdata
    rcases hdisk with hdisk | hdisk <;> rw [hdisk] at hdata
    · exact h.files url hurl fileExtension data hdata
    rcases FileManager.contents_createFile hdata with ⟨hpath, rfl⟩ | hold
    · obtain ⟨other, hother, rfl⟩ := h.queued store hstore
      have hpair := (hfree.path_inj ⟨url, hurl, rfl⟩ ⟨other, hother, rfl⟩).mp hpath
      obtain ⟨hkey, rfl⟩ := Prod.mk.inj hpair
      obtain rfl := URL.ext hkey
      exact ⟨rfl, rfl⟩
    · exact h.files url hurl fileExtension data hold
  · exact ⟨fun url hurl fileExtension data hdata =>
      h.files url hurl fileExtension data (hdisk _ _ hdata), hjobs⟩

/-- A store has a post's own video exactly when the view is configured for that post. -/
theorem Named.ownVideo_iff {p : Player} (h : Named f remote sys urls p) {id : Nat}
    {task : URLSessionDataTask} (hwhole : p.wholeTask remote id = some task) {url : URL}
    (hurl : p.originalURL = some url) :
    OwnVideo remote urls ⟨some (remote.body task.url), url.absoluteString, p.fileExtension⟩ ↔
      StillConfigured remote p (.didCompleteWithError id none) := by
  constructor
  · rintro ⟨other, _, hstore⟩ task' htask'
    rw [StoreDataToCache.mk.injEq, Option.some.injEq] at hstore
    obtain ⟨hbody, hkey, hextension⟩ := hstore
    obtain rfl := URL.ext hkey
    obtain rfl := Option.some.inj (hwhole.symm.trans htask')
    exact ⟨url, hurl, hbody.symm, hextension⟩
  · intro hconfigured
    obtain ⟨other, hother, hbody, hextension⟩ := hconfigured task hwhole
    obtain rfl := Option.some.inj (hurl.symm.trans hother)
    exact ⟨url, h.originalURL url hurl, by rw [hbody, hextension]⟩

/-- A step from a state with all videos in place keeps them there exactly when its completion
finds the view configured. -/
theorem OwnVideos.next_iff
    (hfree : sys.CollisionFree {key | ∃ url ∈ urls, url.absoluteString = key})
    (hr : (sharedCache f remote sys urls).machine.Reachable s)
    (h : OwnVideos f remote sys urls s) {e : FamilyEvent Unit ReuseEvent SharedCacheEvent}
    (hn : (sharedCache f remote sys urls).machine.next s e = some t) :
    OwnVideos f remote sys urls t ↔ CompletesConfigured remote s e := by
  have hrt := hr.next hn
  cases e with
  | make _ =>
    obtain rfl := Option.some.inj hn
    exact iff_of_true (.of_stored hrt h.files h.queued) trivial
  | resource b =>
    obtain ⟨r, hstep, rfl⟩ := Sharing.next_resource hn
    refine iff_of_true ?_ trivial
    cases b with
    | clearCache =>
      obtain rfl := Option.some.inj hstep
      refine .of_stored hrt h.files fun store hstore => ?_
      rcases List.mem_append.mp hstore with hold | hnew
      · exact h.queued store hold
      · cases List.mem_singleton.mp hnew
    | evict key =>
      obtain rfl := Option.some.inj hstep
      exact .of_stored hrt h.files h.queued
    | runJob faults creates =>
      obtain ⟨hfiles, hjobs⟩ := h.files_runJob hfree hstep
      exact .of_stored hrt hfiles fun store hstore => h.queued store (hjobs _ hstore)
  | member k e =>
    obtain ⟨⟨⟩, p, q, hk, _, hnext, rfl⟩ := Sharing.next_member hn
    obtain ⟨hlinked, hnamed⟩ := named_of_reachable hr hk
    have hcondition : CompletesConfigured remote s (.member k e) ↔ StillConfigured remote p e := by
      refine ⟨fun hall => hall () p hk, fun hp i p' hk' => ?_⟩
      obtain ⟨-, rfl⟩ := Prod.mk.inj (Option.some.inj (hk.symm.trans hk'))
      exact hp
    rw [hcondition]
    rcases hlinked.stores_next hnext with
      ⟨hsame, hother⟩ | ⟨id, task, url, rfl, hwhole, hurl, _, hstores⟩
    · refine iff_of_true (.of_stored hrt h.files fun store hstore => ?_) ?_
      · rcases List.mem_append.mp hstore with hold | hnew
        · exact h.queued store hold
        · rw [hsame, List.drop_length] at hnew
          cases hnew
      · unfold StillConfigured
        split
        · exact absurd rfl (hother _)
        · trivial
    · rw [← hnamed.ownVideo_iff hwhole hurl]
      have hqueue : ((q.stores.drop p.stores.length).map SharedJob.storeDataToCache) =
          [.storeDataToCache
            ⟨some (remote.body task.url), url.absoluteString, p.fileExtension⟩] := by
        rw [hstores, List.drop_left, List.map_singleton]
      constructor
      · intro ht
        refine ht.queued _ (List.mem_append_right _ ?_)
        rw [hqueue]
        exact List.mem_singleton_self _
      · intro hown
        refine .of_stored hrt h.files fun store hstore => ?_
        rcases List.mem_append.mp hstore with hold | hnew
        · exact h.queued store hold
        · rw [hqueue, List.mem_singleton] at hnew
          cases hnew
          exact hown

end Own

/-- A post with one byte of body. -/
def oneByte : Remote where
  body _ := [7]
  fileExtension _ := some "mp4"

/-- One cell streams the video of a post and stores it; another cell plays it from disk. -/
def streamedThenPlayed : List (FamilyEvent Unit ReuseEvent SharedCacheEvent) :=
  [.make (), .member 0 (.configure (some ⟨"a"⟩) none), .member 0 .runConfigureBlock,
    .member 0 (.shouldWaitForLoading none none), .member 0 (.didReceiveData 0 [7]),
    .member 0 (.didCompleteWithError 0 none), .resource (.runJob .none true), .make (),
    .member 1 (.configure (some ⟨"a"⟩)
      (some (CacheSystem.twoKeys.diskCachePathForKey "a" (some "mp4")))),
    .member 1 .runConfigureBlock]

theorem cached_videos_are_whole_streamedThenPlayed : ∃ s : SharedPlayers,
    s.resource.manager.diskCache.contents
        (CacheSystem.twoKeys.diskCachePathForKey "a" (some "mp4")) = some [7] ∧
      WholeVideos oneByte s := by
  obtain ⟨s, hs, hfile⟩ : ∃ s,
      (sharedCache .plain oneByte .twoKeys [⟨"a"⟩]).machine.Run streamedThenPlayed s ∧
        s.resource.manager.diskCache.contents
          (CacheSystem.twoKeys.diskCachePathForKey "a" (some "mp4")) = some [7] :=
    ⟨_, Machine.run_iff_exec.mpr rfl, by decide⟩
  exact ⟨s, hfile, cached_videos_are_whole ⟨_, hs⟩⟩

end TiktokClone
