import TiktokClone.Library.History
import TiktokClone.Player.Reuse

/-!
# Cache integrity

The completion handler reads `originalURL` and `fileExtension` when it runs. What they
are by then is read off the history of the three queues: the last block that made its
asset and the last cancellation decide the one, the last configuration decides the other,
and the first request decides whose body the task downloads. So the order of the steps
tells which completions file whole bodies under the keys of their own posts.
-/

namespace TiktokClone

open Library

/-- A successful completion files the whole body of the URL that it names as the
key, with the extension of the post that has this URL. -/
def FilesWholeBody (remote : Remote) (p : Player) : ReuseEvent → Prop
  | .didCompleteWithError id none => ∀ task, p.wholeTask remote id = some task →
      ∃ q url, (p.completeTask id).didCompleteWithError none = some q ∧
        q.stores = p.stores ++
          [⟨some (remote.body url), url.absoluteString, remote.fileExtension url⟩]
  | _ => True

/-- At a successful completion the view still has the URL of a post whose body is
that of the task, and the extension of that post. -/
def StillConfigured (remote : Remote) (p : Player) : ReuseEvent → Prop
  | .didCompleteWithError id none => ∀ task, p.wholeTask remote id = some task →
      ∃ url, p.originalURL = some url ∧ remote.body url = remote.body task.url ∧
        p.fileExtension = remote.fileExtension url
  | _ => True

/-- The buffer is whole at a successful completion, so only the names can be wrong. -/
theorem Linked.filesWholeBody_iff {remote : Remote} {p : Player} (h : Linked p)
    (e : ReuseEvent) : FilesWholeBody remote p e ↔ StillConfigured remote p e := by
  cases e with
  | didCompleteWithError id error =>
    cases error with
    | some error => exact Iff.rfl
    | none =>
      refine forall₂_congr fun task ht => ?_
      obtain ⟨hlive, hwhole⟩ := Option.filter_eq_some_iff.mp ht
      obtain ⟨_, _, _, _, _, hdata⟩ := h.live hlive
      rw [eq_of_beq hwhole] at hdata
      cases hurl : p.originalURL with
      | none => simp [Player.didCompleteWithError, Player.completeTask, hurl]
      | some url =>
        simp only [Player.didCompleteWithError, Player.completeTask, hurl, hdata]
        constructor
        · rintro ⟨q, url', hq, hstores⟩
          cases hq
          have hstore := List.singleton_inj.mp (List.append_cancel_left hstores)
          rw [StoreDataToCache.mk.injEq, Option.some.injEq] at hstore
          obtain ⟨hbody, hkey, hextension⟩ := hstore
          obtain rfl := URL.ext hkey
          exact ⟨url, rfl, hbody.symm, hextension⟩
        · rintro ⟨url', hurl', hbody, hextension⟩
          obtain rfl := Option.some.inj hurl'
          refine ⟨_, url, rfl, ?_⟩
          rw [hbody, hextension]
  | _ => exact Iff.rfl

/-! ### What the history tells -/

namespace ReuseEvent

/-- The block that a configuration leaves on the main queue. -/
def block : ReuseEvent → Option ConfigureBlock
  | configure url data => url.map fun url => ⟨url, data⟩
  | _ => none

def runsBlock : ReuseEvent → Bool
  | runConfigureBlock => true
  | _ => false

def cleansUp : ReuseEvent → Bool
  | runCancelBlock => true
  | _ => false

/-- The URL in `originalURL` after a step, by the blocks that wait and the URL before it. -/
def presents (f : Foundation) (blocks : List ConfigureBlock) (url : Option URL) :
    ReuseEvent → Option URL
  | runConfigureBlock => (ConfigureBlock.presents f blocks).or url
  | cancelAllLoadingRequest => none
  | _ => url

/-- The URL that a request finds. -/
def finds (url : Option URL) : ReuseEvent → Option URL
  | shouldWaitForLoading _ _ => url
  | _ => none

/-- The blocks of the configurations so far that have not run, in their order. -/
def mainQueue (events : List ReuseEvent) : List ConfigureBlock := pending block runsBlock events

/-- The URL of the last configuration that has one. -/
def configuredURL (events : List ReuseEvent) : Option URL :=
  events.foldl (fun url e => (e.block.map ConfigureBlock.url).or url) none

/-- The URL of the last block that made its asset, if nothing has been cancelled since. -/
def presentedURL (f : Foundation) (events : List ReuseEvent) : Option URL :=
  recollect (fun before url e => e.presents f (mainQueue before) url) none events

/-- A cleanup has run. -/
def cleanedUp (events : List ReuseEvent) : Bool := events.any cleansUp

/-- The URL that the first request finds, if no cleanup has run before it: the one that the
view downloads. -/
def downloadURL (f : Foundation) (events : List ReuseEvent) : Option URL :=
  recollect (fun before url e =>
    url.or (e.finds (if cleanedUp before then none else presentedURL f before))) none events

section Concat

variable (f : Foundation) (events : List ReuseEvent) (e : ReuseEvent)

theorem mainQueue_concat : mainQueue (events ++ [e]) =
    if e.runsBlock then (mainQueue events).tail else mainQueue events ++ e.block.toList :=
  pending_concat

theorem configuredURL_concat : configuredURL (events ++ [e]) =
    (e.block.map ConfigureBlock.url).or (configuredURL events) := by
  rw [configuredURL, List.foldl_append]
  rfl

theorem presentedURL_concat : presentedURL f (events ++ [e]) =
    e.presents f (mainQueue events) (presentedURL f events) := recollect_concat

theorem cleanedUp_concat : cleanedUp (events ++ [e]) = (cleanedUp events || e.cleansUp) := by
  rw [cleanedUp, List.any_append, List.any_cons, List.any_nil, Bool.or_false, cleanedUp]

theorem downloadURL_concat : downloadURL f (events ++ [e]) = (downloadURL f events).or
    (e.finds (if cleanedUp events then none else presentedURL f events)) := recollect_concat

end Concat

end ReuseEvent

open ReuseEvent

/-- What a step does to the fields that a completion reads. -/
structure FieldStep (f : Foundation) (remote : Remote) (p : Player) (e : ReuseEvent) (q : Player) :
    Prop where
  mainQueue : q.mainQueue =
    if e.runsBlock then p.mainQueue.tail else p.mainQueue ++ e.block.toList
  originalURL : q.originalURL = e.presents f p.mainQueue p.originalURL
  fileExtension : q.fileExtension =
    e.block.elim p.fileExtension fun block => remote.fileExtension block.url
  session : q.session = if e.cleansUp then none else p.session
  task : q.tasks.head?.map URLSessionDataTask.url =
    (p.tasks.head?.map URLSessionDataTask.url).or
      (e.finds (if p.session = none then none else p.originalURL))

/-- The fields of a reused view, by its history. -/
structure Recounted (f : Foundation) (remote : Remote) (events : List ReuseEvent) (p : Player) :
    Prop where
  mainQueue : p.mainQueue = ReuseEvent.mainQueue events
  originalURL : p.originalURL = presentedURL f events
  fileExtension : p.fileExtension = (configuredURL events).bind remote.fileExtension
  session : p.session = none ↔ cleanedUp events = true
  task : p.tasks.head?.map URLSessionDataTask.url = downloadURL f events

section Step

variable {f : Foundation} {remote : Remote} {events : List ReuseEvent} {p q : Player}
  {e : ReuseEvent}

theorem recounted_initial : Recounted f remote [] .initial where
  mainQueue := rfl
  originalURL := rfl
  fileExtension := rfl
  session := by simp [Player.initial, Player.setupView, cleanedUp]
  task := rfl

theorem Recounted.concat (h : Recounted f remote events p) (hs : FieldStep f remote p e q) :
    Recounted f remote (events ++ [e]) q where
  mainQueue := by rw [hs.mainQueue, mainQueue_concat, h.mainQueue]
  originalURL := by rw [hs.originalURL, presentedURL_concat, h.mainQueue, h.originalURL]
  fileExtension := by
    rw [hs.fileExtension, configuredURL_concat, h.fileExtension]
    cases e.block <;> rfl
  session := by
    rw [hs.session, cleanedUp_concat, Bool.or_eq_true, ← h.session]
    cases e.cleansUp <;> simp
  task := by
    rw [hs.task, downloadURL_concat, h.task, h.originalURL]
    simp only [h.session]

/-- Steps that leave the queue, the URL and the session alone. -/
theorem fieldStep_of_silent (hb : e.runsBlock = false) (hq : e.block = none)
    (hp : e.presents f p.mainQueue p.originalURL = p.originalURL) (hc : e.cleansUp = false)
    (hf : ∀ url, e.finds url = none) (hm : q.mainQueue = p.mainQueue)
    (hu : q.originalURL = p.originalURL) (hx : q.fileExtension = p.fileExtension)
    (hs : q.session = p.session)
    (ht : q.tasks.head?.map URLSessionDataTask.url = p.tasks.head?.map URLSessionDataTask.url) :
    FieldStep f remote p e q where
  mainQueue := by simp [hm, hb, hq]
  originalURL := hu.trans hp.symm
  fileExtension := by rw [hx, hq, Option.elim_none]
  session := by simp [hs, hc]
  task := by rw [ht, hf, Option.or_none]

theorem fieldStep_runConfigureBlock (block : ConfigureBlock) (blocks : List ConfigureBlock)
    (hqueue : p.mainQueue = block :: blocks) : FieldStep f remote p .runConfigureBlock
      ({ p with mainQueue := blocks }.runConfigureBlock f block) := by
  obtain ⟨hsession, htasks, _, _, hextension, _⟩ :=
    Player.runConfigureBlock_frame f { p with mainQueue := blocks } block
  refine ⟨?_, ?_, hextension, hsession, ?_⟩
  · rw [Player.runConfigureBlock_mainQueue, hqueue]
    rfl
  · rw [presents, hqueue, Player.runConfigureBlock_originalURL f _ block blocks]
  · rw [htasks]
    exact (Option.or_none ..).symm

/-- The one task is started by the first request that finds a URL and a session. -/
theorem Linked.fieldStep_shouldWaitForLoading (h : Linked p)
    (info : Option AVAssetResourceLoadingContentInformationRequest) (range : Option ByteRange) :
    FieldStep f remote p (.shouldWaitForLoading info range)
      (p.shouldWaitForLoading (.create info range)) := by
  rw [Player.shouldWaitForLoading]
  have hstart : p.startTask.tasks.head?.map URLSessionDataTask.url =
      (p.tasks.head?.map URLSessionDataTask.url).or
        (if p.session = none then none else p.originalURL) := by
    cases h.phase with
    | idle hs _ htasks htask =>
      cases hurl : p.originalURL with
      | none => simp [Player.startTask, htask, hurl, htasks]
      | some url => simp [Player.startTask_of_idle htask hurl hs, htasks, hs]
    | loading t hs _ htasks htask =>
      rw [Player.startTask_eq_self (Or.inl (by simp [htask])), htasks]
      rfl
    | closed hs => rw [Player.startTask_eq_self (Or.inr hs), if_pos hs, Option.or_none]
  rcases p.startTask_cases with he | ⟨url, task, _, _, _, he⟩
  · rw [he] at hstart ⊢
    exact ⟨(List.append_nil _).symm, rfl, rfl, rfl, hstart⟩
  · rw [he] at hstart ⊢
    exact ⟨(List.append_nil _).symm, rfl, rfl, rfl, hstart⟩

theorem Player.completeTask_head_url (p : Player) (id : Nat) :
    (p.completeTask id).tasks.head?.map URLSessionDataTask.url =
      p.tasks.head?.map URLSessionDataTask.url := by
  rw [Player.completeTask]
  cases p.tasks with
  | nil => rw [List.modify_nil]
  | cons task tasks => cases id <;> simp

theorem Linked.fieldStep_of_next (h : Linked p) (hn : (reuse f remote).next p e = some q) :
    FieldStep f remote p e q := by
  cases e with
  | configure url data =>
    cases hn
    cases url with
    | none =>
      exact fieldStep_of_silent rfl rfl rfl rfl (fun _ => rfl) rfl rfl rfl rfl rfl
    | some url => exact ⟨rfl, rfl, rfl, rfl, (Option.or_none ..).symm⟩
  | runConfigureBlock =>
    simp only [reuse] at hn
    split at hn
    · cases hn
    · rename_i block blocks hqueue
      cases hn
      exact fieldStep_runConfigureBlock block blocks hqueue
  | cancelAllLoadingRequest =>
    cases hn
    exact ⟨(List.append_nil _).symm, rfl, rfl, rfl, (Option.or_none ..).symm⟩
  | runCancelBlock =>
    simp only [reuse] at hn
    split at hn
    · cases hn
    · cases hn
      exact ⟨(List.append_nil _).symm, rfl, rfl, rfl, (Option.or_none ..).symm⟩
  | shouldWaitForLoading info range =>
    cases hn
    exact h.fieldStep_shouldWaitForLoading info range
  | didCancel id =>
    cases hn
    exact fieldStep_of_silent rfl rfl rfl rfl (fun _ => rfl) rfl rfl rfl rfl rfl
  | didReceiveResponse id response =>
    simp only [reuse] at hn
    split at hn
    · cases hn
    · obtain ⟨requests, loadingRequests, rfl⟩ := Player.processLoadingRequest_frame hn
      exact fieldStep_of_silent rfl rfl rfl rfl (fun _ => rfl) rfl rfl rfl rfl rfl
  | didReceiveData id chunk =>
    rw [show (reuse f remote).next p (.didReceiveData id chunk) = p.deliver remote id chunk from
      rfl, Player.deliver] at hn
    split at hn
    · cases hn
    · rename_i task hlive
      obtain ⟨rfl, htasks, _⟩ := h.live hlive
      split at hn
      · obtain ⟨requests, loadingRequests, rfl⟩ := Player.processLoadingRequest_frame hn
        refine fieldStep_of_silent rfl rfl rfl rfl (fun _ => rfl) rfl rfl rfl rfl ?_
        simp only [htasks, List.set_cons_zero, List.head?_cons, Option.map_some]
      · cases hn
  | didCompleteWithError id error =>
    have hq : ∃ stores, q = { p.completeTask id with stores := stores } := by
      cases error with
      | some error =>
        cases hn
        exact ⟨_, rfl⟩
      | none =>
        simp only [reuse] at hn
        split at hn
        · cases hn
        · rw [Player.didCompleteWithError] at hn
          split at hn
          · cases hn
          · cases hn
            exact ⟨_, rfl⟩
    obtain ⟨stores, rfl⟩ := hq
    exact fieldStep_of_silent rfl rfl rfl rfl (fun _ => rfl) rfl rfl rfl rfl
      (p.completeTask_head_url id)

theorem Recounted.of_run (h : (reuse f remote).Run events p) : Recounted f remote events p := by
  induction h with
  | nil => exact recounted_initial
  | snoc hr hn ih => exact ih.concat ((Linked.of_reachable ⟨_, hr⟩).fieldStep_of_next hn)

end Step

/-! ### The completions in order -/

/-- The task has received its whole body in this run, and its successful completion may come. -/
def CompletionDue (f : Foundation) (remote : Remote) (events : List ReuseEvent) (id : Nat) : Prop :=
  ∃ p task, (reuse f remote).Run events p ∧ p.wholeTask remote id = some task

/-- A successful completion comes in order when the last block that made its asset, with nothing
cancelled since, was for a URL with the body of the one that the view downloads, and the last
configuration is of a post with the extension of that URL's post. -/
def CompletesInOrder (f : Foundation) (remote : Remote) (before : List ReuseEvent) :
    ReuseEvent → Prop
  | .didCompleteWithError id none => CompletionDue f remote before id →
      ∃ url source, presentedURL f before = some url ∧ downloadURL f before = some source ∧
        remote.body url = remote.body source ∧
        (configuredURL before).bind remote.fileExtension = remote.fileExtension url
  | _ => True

/-- A view is still configured for its download exactly when the history is in order. -/
theorem stillConfigured_iff {f : Foundation} {remote : Remote} (before : List ReuseEvent)
    (e : ReuseEvent) : (∀ p, (reuse f remote).Run before p → StillConfigured remote p e) ↔
      CompletesInOrder f remote before e := by
  cases e with
  | didCompleteWithError id error =>
    cases error with
    | some error => exact iff_of_true (fun _ _ => trivial) trivial
    | none =>
      have hsource : ∀ p task, (reuse f remote).Run before p →
          p.wholeTask remote id = some task → downloadURL f before = some task.url := by
        intro p task hr ht
        obtain ⟨_, htasks, _⟩ :=
          (Linked.of_reachable ⟨_, hr⟩).live (Option.filter_eq_some_iff.mp ht).1
        rw [← (Recounted.of_run hr).task, htasks]
        rfl
      constructor
      · rintro h ⟨p, task, hr, ht⟩
        obtain ⟨url, hurl, hbody, hextension⟩ := h p hr task ht
        have hp := Recounted.of_run hr
        rw [hp.originalURL] at hurl
        rw [hp.fileExtension] at hextension
        exact ⟨url, task.url, hurl, hsource p task hr ht, hbody, hextension⟩
      · intro h p hr task ht
        obtain ⟨url, source, hurl, hdownload, hbody, hextension⟩ := h ⟨p, task, hr, ht⟩
        obtain rfl := Option.some.inj (hdownload.symm.trans (hsource p task hr ht))
        have hp := Recounted.of_run hr
        exact ⟨url, hp.originalURL.trans hurl, hbody, hp.fileExtension.trans hextension⟩
  | _ => exact iff_of_true (fun _ _ => trivial) trivial

/-- Cache integrity. However the steps of the three queues interleave, all the successful
completions file whole bodies under the keys and extensions of their own posts if and only if
each of them comes in order. -/
theorem completions_file_whole_bodies_iff (f : Foundation) (remote : Remote)
    (events : List ReuseEvent) :
    (reuse f remote).AllSteps (FilesWholeBody remote) events ↔
      Always (CompletesInOrder f remote) events := by
  have hstill : (reuse f remote).AllSteps (FilesWholeBody remote) events ↔
      (reuse f remote).AllSteps (StillConfigured remote) events :=
    Machine.allSteps_congr (fun _ e hp => (Linked.of_reachable hp).filesWholeBody_iff e) events
  rw [hstill, Machine.allSteps_iff_always]
  exact always_congr stillConfigured_iff events

/-- The cell shows the first post, is reused and configured for the second one
while the download of the first is still running. -/
def reusedCell : List ReuseEvent :=
  [.configure (some ⟨"http:a"⟩) none, .runConfigureBlock,
    .shouldWaitForLoading none (some .firstByte),
    .cancelAllLoadingRequest, .configure (some ⟨"http:b"⟩) none, .didReceiveData 0 [1],
    .runConfigureBlock]

example : presentedURL .plain reusedCell = some ⟨"http:b"⟩ ∧
    downloadURL .plain reusedCell = some ⟨"http:a"⟩ := ⟨rfl, rfl⟩

/-- The completion of the first post's task stores its byte under the second key. -/
theorem completion_misfiles_reused_cell :
    (∃ p, (reuse .plain twoPosts).Run (reusedCell ++ [.didCompleteWithError 0 none]) p ∧
      p.stores = [⟨some [1], "http:b", some "mp4"⟩]) ∧
    ¬ (reuse .plain twoPosts).AllSteps (FilesWholeBody twoPosts)
      (reusedCell ++ [.didCompleteWithError 0 none]) := by
  refine ⟨⟨_, Machine.run_iff_exec.mpr rfl, rfl⟩, fun h => ?_⟩
  obtain ⟨q, url, hq, hstores⟩ := h reusedCell _ (List.prefix_refl _) _
    (Machine.run_iff_exec.mpr rfl) _ rfl
  cases hq
  have hstore := List.singleton_inj.mp hstores
  rw [StoreDataToCache.mk.injEq] at hstore
  obtain ⟨hbody, hkey, _⟩ := hstore
  obtain rfl : url = ⟨"http:b"⟩ := URL.ext hkey.symm
  exact absurd hbody (by decide)

end TiktokClone
