import TiktokClone.Cache.ReportedSizes

/-!
# The message after a clear

A tap in the header of a profile page clears the cache. The size goes from the cache's queue to
the main queue, where the message is made and published, and from there to every profile page
that has loaded by then. Several clears can be on their way at once, and pages load in between.
-/

namespace TiktokClone

open Library

/-- What the completion of the header's `clearCache` makes of the size. -/
def ProfileHeaderView.message (size : String) : String := "Remove Cache Size: " ++ size ++ "MB"

/-- A profile page that has loaded; its subscription keeps it from being released. -/
structure ProfileViewController where
  /-- The messages that wait for the page on the main scheduler. -/
  mainScheduler : List String
  /-- The messages that `showAlert` has been called with. -/
  messages : List String
  /-- The message of the alert that the page presents. -/
  presentedAlert : Option String
  /-- The page's view is in the hierarchy of the window. -/
  isInWindow : Bool

namespace ProfileViewController

/-- `showAlert(_:)`; a page that is not in the window cannot present. -/
def showAlert (c : ProfileViewController) (message : String) : ProfileViewController :=
  -- Check if one has already presented
  match c.presentedAlert with
  | some _ => { c with presentedAlert := some message }
  | none => if c.isInWindow then { c with presentedAlert := some message } else c

/-- The subject passes a message on to the page's observer. -/
def offer (c : ProfileViewController) (message : String) : ProfileViewController :=
  { c with mainScheduler := c.mainScheduler ++ [message] }

/-- The closure of `setupBindings`. -/
def onNext (c : ProfileViewController) (message : String) : ProfileViewController :=
  showAlert { c with messages := c.messages ++ [message] } message

inductive Event
  /-- The main scheduler executes the first action of the page. -/
  | runMain
  /-- A tap on the button of the alert. -/
  | dismissAlert
  | viewDidAppear
  | viewDidDisappear

def next (c : ProfileViewController) : Event → Option ProfileViewController
  | .runMain =>
    match c.mainScheduler with
    | [] => none
    | message :: rest => some (onNext { c with mainScheduler := rest } message)
  | .dismissAlert => some { c with presentedAlert := none }
  | .viewDidAppear => some { c with isInWindow := true }
  | .viewDidDisappear => some { c with isInWindow := false }

end ProfileViewController

/-- The cache, the view model's subject and the profile pages. -/
structure ProfileScreens where
  cache : SerialQueue VideoCacheManager CacheJob CacheResult
  /-- The sizes whose completions wait on the main queue. -/
  mainQueue : List String
  /-- What `displayAlertMessage` has been given. -/
  displayAlertMessage : List String
  pages : List ProfileViewController

inductive ProfileEvent
  /-- A client submits a job to the cache, or the cache's queue runs one. -/
  | cache (e : SerialQueue.Event CacheJob)
  /-- The main queue runs the completion of the first clear on it. -/
  | runCompletion
  /-- Another profile page loads and subscribes. -/
  | viewDidLoad
  | page (i : Nat) (e : ProfileViewController.Event)

/-- The size that a finished clear hands to its completion. -/
def CacheResult.size : CacheJob × CacheResult → Option String
  | (.clearCache, .cleared size) => some size
  | _ => none

/-- The profile pages over the cache of a new installation. -/
def profile (sys : CacheSystem) : Machine ProfileScreens ProfileEvent where
  start := ⟨(cacheQueue sys).start, [], [], []⟩
  next s
    | .cache e => ((cacheQueue sys).next s.cache e).map fun cache => { s with
        cache := cache
        mainQueue := s.mainQueue ++
          (cache.finished.drop s.cache.finished.length).filterMap CacheResult.size }
    | .runCompletion =>
      match s.mainQueue with
      | [] => none
      | size :: sizes =>
        let message := ProfileHeaderView.message size
        some { s with
          mainQueue := sizes
          displayAlertMessage := s.displayAlertMessage ++ [message]
          pages := s.pages.map (·.offer message) }
    | .viewDidLoad => some { s with pages := s.pages ++ [⟨[], [], none, false⟩] }
    | .page i e =>
      match s.pages[i]? with
      | none => none
      | some page => (page.next e).map fun page => { s with pages := s.pages.set i page }

/-- The steps of the cache in a history. -/
def cacheSteps (events : List ProfileEvent) : List (SerialQueue.Event CacheJob) :=
  events.filterMap fun
    | .cache e => some e
    | .runCompletion | .viewDidLoad | .page _ _ => none

/-- The messages that the clears among some jobs should lead to, after the jobs before. -/
def clearMessages (sys : CacheSystem) (before : List CacheJob) : List CacheJob → List String
  | [] => []
  | job :: jobs =>
    (if job = .clearCache then [ProfileHeaderView.message (sys.clearedSize before)] else []) ++
      clearMessages sys (before ++ [job]) jobs

variable {sys : CacheSystem}

theorem clearMessages_concat (before jobs : List CacheJob) (job : CacheJob) :
    clearMessages sys before (jobs ++ [job]) = clearMessages sys before jobs ++
      if job = .clearCache then
        [ProfileHeaderView.message (sys.clearedSize (before ++ jobs))]
      else [] := by
  induction jobs generalizing before with
  | nil => simp [clearMessages]
  | cons first jobs ih => simp [clearMessages, ih]

/-- Results as the clears should have them lead to the messages of the clears. -/
theorem map_size_eq_clearMessages {finished : List (CacheJob × CacheResult)}
    (h : ∀ before result after, finished = before ++ (.clearCache, result) :: after →
      result = .cleared (sys.clearedSize (before.map Prod.fst))) :
    (finished.filterMap CacheResult.size).map ProfileHeaderView.message =
      clearMessages sys [] (finished.map Prod.fst) := by
  induction finished using List.reverseRecOn with
  | nil => rfl
  | append_singleton finished last ih =>
    obtain ⟨job, result⟩ := last
    have hbefore := ih fun before result' after hsplit =>
      h before result' (after ++ [(job, result)]) (by simp [hsplit])
    rw [List.map_append, List.map_singleton, clearMessages_concat, ← hbefore,
      List.filterMap_append, List.map_append, List.nil_append]
    refine congrArg _ ?_
    by_cases hjob : job = .clearCache
    · subst hjob
      obtain rfl := h finished result [] rfl
      rw [if_pos rfl]
      rfl
    · rw [if_neg hjob]
      cases job with
      | clearCache => exact absurd rfl hjob
      | storeDataToCache data key fileExtension => rfl
      | queryURLFromCache key fileExtension => rfl

/-! ### From the clears to the pages -/

/-- What the main queue has run and what waits on it are the sizes of the finished clears. -/
structure Announced (s : ProfileScreens) : Prop where
  sizes : s.displayAlertMessage ++ s.mainQueue.map ProfileHeaderView.message =
    (s.cache.finished.filterMap CacheResult.size).map ProfileHeaderView.message

/-- The page has been told all messages since it loaded, or they wait for it. An alert tells
the last one. -/
structure Told (missed : List String) (s : ProfileScreens) (page : ProfileViewController) :
    Prop where
  messages : missed ++ (page.messages ++ page.mainScheduler) = s.displayAlertMessage
  alert : ∀ message, page.presentedAlert = some message → page.messages.getLast? = some message

section Step

variable {s t : ProfileScreens} {e : ProfileEvent}

/-- The completion of a clear sends its message to all subscribed pages. -/
theorem completion_of_next (hn : (profile sys).next s .runCompletion = some t) :
    ∃ size sizes, s.mainQueue = size :: sizes ∧ t = { s with
      mainQueue := sizes
      displayAlertMessage := s.displayAlertMessage ++ [ProfileHeaderView.message size]
      pages := s.pages.map (·.offer (ProfileHeaderView.message size)) } := by
  simp only [profile] at hn
  split at hn
  · cases hn
  · rename_i size sizes hqueue
    exact ⟨size, sizes, hqueue, (Option.some.inj hn).symm⟩

/-- A page's own step changes that page only. -/
theorem page_of_next {i : Nat} {e : ProfileViewController.Event}
    (hn : (profile sys).next s (.page i e) = some t) : ∃ old new, s.pages[i]? = some old ∧
      old.next e = some new ∧ t = { s with pages := s.pages.set i new } := by
  simp only [profile] at hn
  split at hn
  · cases hn
  · rename_i old hold
    obtain ⟨new, hnew, rfl⟩ := Option.map_eq_some_iff.mp hn
    exact ⟨old, new, hold, hnew, rfl⟩

theorem cache_finished_next {q r : SerialQueue VideoCacheManager CacheJob CacheResult}
    {e : SerialQueue.Event CacheJob} (h : (cacheQueue sys).next q e = some r) :
    q.finished <+: r.finished := by
  cases e with
  | submit job =>
    obtain rfl := Option.some.inj h
    exact List.prefix_refl _
  | run =>
    simp only [cacheQueue, SerialQueue.machine] at h
    split at h
    · cases h
    · split at h
      · cases h
      · obtain rfl := Option.some.inj h
        exact List.prefix_append _ _

theorem Announced.next (h : Announced s) (hn : (profile sys).next s e = some t) :
    Announced t := by
  cases e with
  | cache e =>
    obtain ⟨cache, hcache, rfl⟩ := Option.map_eq_some_iff.mp hn
    obtain ⟨later, hlater⟩ := cache_finished_next hcache
    refine ⟨?_⟩
    rw [← hlater, List.drop_left, List.filterMap_append, List.map_append, List.map_append,
      ← h.sizes, List.append_assoc]
  | runCompletion =>
    obtain ⟨size, sizes, hqueue, rfl⟩ := completion_of_next hn
    refine ⟨?_⟩
    rw [← h.sizes, hqueue, List.map_cons, List.append_assoc]
    rfl
  | viewDidLoad =>
    obtain rfl := Option.some.inj hn
    exact ⟨h.sizes⟩
  | page i e =>
    obtain ⟨_, _, _, _, rfl⟩ := page_of_next hn
    exact ⟨h.sizes⟩

theorem ProfileViewController.showAlert_frame (c : ProfileViewController) (message : String) :
    (c.showAlert message).messages = c.messages ∧
      (c.showAlert message).mainScheduler = c.mainScheduler ∧
      ((c.showAlert message).presentedAlert = none ∨
        (c.showAlert message).presentedAlert = some message) := by
  unfold showAlert
  split
  · exact ⟨rfl, rfl, Or.inr rfl⟩
  · rename_i hnone
    split
    · exact ⟨rfl, rfl, Or.inr rfl⟩
    · exact ⟨rfl, rfl, Or.inl hnone⟩

/-- A page's own steps move its messages on, and an alert tells the last of them. -/
theorem Told.page_next {missed : List String} {page next : ProfileViewController}
    {e : ProfileViewController.Event} (h : Told missed s page)
    (hn : page.next e = some next) : Told missed s next := by
  cases e with
  | runMain =>
    simp only [ProfileViewController.next] at hn
    split at hn
    · cases hn
    · rename_i message rest hqueue
      obtain rfl := Option.some.inj hn
      obtain ⟨hmessages, hscheduler, halert⟩ := ProfileViewController.showAlert_frame
        { page with mainScheduler := rest, messages := page.messages ++ [message] } message
      rw [ProfileViewController.onNext]
      refine ⟨?_, fun told htold => ?_⟩
      · rw [hmessages, hscheduler, ← h.messages, hqueue, List.append_assoc]
        rfl
      · rcases halert with hnone | hshown
        · rw [hnone] at htold
          cases htold
        · rw [hshown] at htold
          rw [hmessages, ← htold, List.getLast?_append]
          rfl
  | dismissAlert =>
    obtain rfl := Option.some.inj hn
    exact ⟨h.messages, fun _ hnone => by cases hnone⟩
  | viewDidAppear =>
    obtain rfl := Option.some.inj hn
    exact ⟨h.messages, h.alert⟩
  | viewDidDisappear =>
    obtain rfl := Option.some.inj hn
    exact ⟨h.messages, h.alert⟩

/-- A page that has loaded stays, and is told whatever is published. -/
theorem Told.next {missed : List String} {k : Nat}
    (h : ∃ page, s.pages[k]? = some page ∧ Told missed s page)
    (hn : (profile sys).next s e = some t) :
    ∃ page, t.pages[k]? = some page ∧ Told missed t page := by
  obtain ⟨page, hk, htold⟩ := h
  cases e with
  | cache e =>
    obtain ⟨cache, _, rfl⟩ := Option.map_eq_some_iff.mp hn
    exact ⟨page, hk, htold.messages, htold.alert⟩
  | runCompletion =>
    obtain ⟨size, sizes, hqueue, rfl⟩ := completion_of_next hn
    refine ⟨page.offer (ProfileHeaderView.message size), ?_, ?_, htold.alert⟩
    · rw [List.getElem?_map, hk]
      rfl
    · rw [← htold.messages]
      simp only [ProfileViewController.offer, List.append_assoc]
  | viewDidLoad =>
    obtain rfl := Option.some.inj hn
    have hlt := (List.getElem?_eq_some_iff.mp hk).1
    exact ⟨page, by rw [List.getElem?_append_left hlt, hk], htold.messages, htold.alert⟩
  | page i e =>
    obtain ⟨old, new, hold, hnew, rfl⟩ := page_of_next hn
    by_cases hi : i = k
    · subst hi
      obtain rfl := Option.some.inj (hold.symm.trans hk)
      have hlt := (List.getElem?_eq_some_iff.mp hk).1
      obtain ⟨hmessages, halert⟩ := htold.page_next hnew
      exact ⟨new, List.getElem?_set_self hlt, hmessages, halert⟩
    · exact ⟨page, by rw [List.getElem?_set_ne hi, hk], htold.messages, htold.alert⟩

theorem cache_next (hn : (profile sys).next s e = some t) :
    match e with
    | .cache e => (cacheQueue sys).next s.cache e = some t.cache
    | .runCompletion | .viewDidLoad | .page _ _ => t.cache = s.cache := by
  cases e with
  | cache e =>
    obtain ⟨cache, hcache, rfl⟩ := Option.map_eq_some_iff.mp hn
    exact hcache
  | runCompletion =>
    obtain ⟨_, _, _, rfl⟩ := completion_of_next hn
    rfl
  | viewDidLoad =>
    obtain rfl := Option.some.inj hn
    rfl
  | page i e =>
    obtain ⟨_, _, _, _, rfl⟩ := page_of_next hn
    rfl

theorem cache_run {events : List ProfileEvent} (h : (profile sys).Run events s) :
    (cacheQueue sys).Run (cacheSteps events) s.cache := by
  induction h with
  | nil => exact .nil
  | @snoc events s e t _ hn ih =>
    have hcache := cache_next hn
    rw [cacheSteps, List.filterMap_append]
    cases e with
    | cache e => exact .snoc ih hcache
    | runCompletion | viewDidLoad | page =>
      rw [hcache]
      change (cacheQueue sys).Run (cacheSteps events ++ []) s.cache
      rwa [List.append_nil]

/-- Clears are announced truthfully. Whatever clients store in an empty cache and clear and
whenever profile pages load, if no file operation throws and sizes are added exactly, the
messages published so far and those still to come from the main queue are one for every clear
that has finished, in their order, each with the size that the clear has removed. A page is told
every message that is published after it has loaded, once and in order, and its alert shows the
last one it was told. -/
theorem clears_are_announced {before after : List ProfileEvent}
    (hfree : sys.CollisionFree (CacheJob.usedKeys (SerialQueue.submitted
      (cacheSteps (before ++ [.viewDidLoad] ++ after)))))
    (hreadable : ∀ job ∈ SerialQueue.submitted (cacheSteps (before ++ [.viewDidLoad] ++ after)),
      job.Readable)
    (hs : (profile sys).Run before s)
    (hrun : (profile sys).Run (before ++ [.viewDidLoad] ++ after) t) :
    t.displayAlertMessage ++ t.mainQueue.map ProfileHeaderView.message =
        clearMessages sys [] (t.cache.finished.map Prod.fst) ∧
      ∃ page, t.pages[s.pages.length]? = some page ∧
        s.displayAlertMessage ++ (page.messages ++ page.mainScheduler) = t.displayAlertMessage ∧
        ∀ message, page.presentedAlert = some message →
          page.messages.getLast? = some message := by
  have hserial := SerialQueue.serialized_of_run (cache_run hrun)
  have hannounced : Announced t :=
    hrun.invariant ⟨rfl⟩ fun _ _ _ hs hn => hs.next hn
  refine ⟨?_, ?_⟩
  · rw [hannounced.sizes]
    exact map_size_eq_clearMessages fun _ _ _ hsplit =>
      cleared_of_serialized hfree hreadable hserial hsplit
  · obtain ⟨loaded, hloaded, hafter⟩ := Machine.run_append_iff.mp hrun
    obtain ⟨s', hs', hn⟩ := Machine.run_concat_iff.mp hloaded
    obtain rfl := hs.unique hs'
    obtain rfl := Option.some.inj hn
    have hnew : ∃ page, (s.pages ++ [⟨[], [], none, false⟩])[s.pages.length]? = some page ∧
        Told s.displayAlertMessage
          { s with pages := s.pages ++ [⟨[], [], none, false⟩] } page :=
      ⟨_, List.getElem?_concat_length, List.append_nil _, fun _ hnone => by cases hnone⟩
    obtain ⟨page, hpage, htold⟩ : ∃ page, t.pages[s.pages.length]? = some page ∧
        Told s.displayAlertMessage t page := by
      refine hafter.invariant (I := fun t => ∃ page, t.pages[s.pages.length]? = some page ∧
        Told s.displayAlertMessage t page) hnew fun _ _ _ ht hn => ?_
      exact Told.next ht hn
    exact ⟨page, hpage, htold.messages, htold.alert⟩

end Step

/-- A page is on the screen while a stored file is cleared, and the alert comes up. -/
def clearedOnScreen : List ProfileEvent :=
  [.page 0 .viewDidAppear, .cache (.submit (.storeDataToCache [1, 2, 3] "a" none)),
    .cache (.submit .clearCache), .cache .run, .cache .run, .runCompletion, .page 0 .runMain]

theorem clears_are_announced_clearedOnScreen : ∃ s : ProfileScreens,
    s.cache.finished.map Prod.fst = [.storeDataToCache [1, 2, 3] "a" none, .clearCache] ∧
      s.displayAlertMessage ++ s.mainQueue.map ProfileHeaderView.message =
        clearMessages .twoKeys [] (s.cache.finished.map Prod.fst) ∧
      ∃ page, s.pages[0]? = some page ∧
        [] ++ (page.messages ++ page.mainScheduler) = s.displayAlertMessage ∧
        ∀ message, page.presentedAlert = some message →
          page.messages.getLast? = some message := by
  obtain ⟨s, hs, hfinished⟩ : ∃ s,
      (profile .twoKeys).Run ([] ++ [.viewDidLoad] ++ clearedOnScreen) s ∧
        s.cache.finished.map Prod.fst = [.storeDataToCache [1, 2, 3] "a" none, .clearCache] :=
    ⟨_, Machine.run_iff_exec.mpr rfl, rfl⟩
  have hjobs : ∀ job ∈ SerialQueue.submitted (cacheSteps ([] ++ [.viewDidLoad] ++ clearedOnScreen)),
      (∀ key, job.Uses key → key = "a") ∧ job.Readable := by
    intro job hjob
    simp only [clearedOnScreen, cacheSteps, SerialQueue.submitted, List.nil_append,
      List.cons_append, List.filterMap_cons, List.filterMap_nil, List.mem_cons, List.not_mem_nil,
      or_false] at hjob
    rcases hjob with rfl | rfl
    · exact ⟨fun _ h => h.symm, rfl⟩
    · exact ⟨fun _ h => h.elim, trivial⟩
  refine ⟨s, hfinished, clears_are_announced ?_ (fun job hjob => (hjobs job hjob).2) .nil hs⟩
  rintro key ⟨job, hjob, huses⟩ key' ⟨job', hjob', huses'⟩ _
  rw [(hjobs job hjob).1 key huses, (hjobs job' hjob').1 key' huses']

end TiktokClone
