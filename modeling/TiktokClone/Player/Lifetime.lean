import TiktokClone.Player.Conservation
import TiktokClone.Player.Reuse

/-!
# The life of a player view

A view makes one session, and its first cleanup invalidates it for good. So a view downloads
one video in its life, whatever posts it is reused for: every request that it ever accepts is
given a slice of that one body, and after the first cleanup none is given a byte, as long as
the system delivers neither data nor a success for a session that was invalidated.
-/

namespace TiktokClone

open Library

/-- The bytes that the data tasks of the view have delivered to it. -/
def Player.received (p : Player) : Data := p.tasks.flatMap URLSessionDataTask.received

/-- The view has made one task at most, and its requests have been served from it. -/
structure OneDownload (p : Player) : Prop where
  linked : Linked p
  one : p.tasks.length ≤ 1
  nodup : p.loadingRequests.Nodup
  bound : ∀ id ∈ p.loadingRequests, id < p.requests.length
  served : RequestsServed p.received p.requests

/-- While the session is open the buffer holds what the task has delivered. -/
theorem OneDownload.toServed {p : Player} (h : OneDownload p) (hopen : p.session ≠ none) :
    Served p.received p where
  videoData := by
    cases h.linked.phase with
    | idle _ _ htasks _ hdata => rw [hdata, Player.received, htasks, List.flatMap_nil]
    | loading t _ _ htasks _ hdata => rw [hdata, Player.received, htasks, List.flatMap_singleton]
    | closed hs => exact absurd hs hopen
  nodup := h.nodup
  bound := h.bound
  requests := h.served

/-- A step that touches neither tasks nor requests. -/
theorem OneDownload.congr {p q : Player} (h : OneDownload p) (hlinked : Linked q)
    (ht : q.tasks = p.tasks) (hl : q.loadingRequests = p.loadingRequests)
    (hr : q.requests = p.requests) : OneDownload q where
  linked := hlinked
  one := ht ▸ h.one
  nodup := hl ▸ h.nodup
  bound := by
    rw [hl, hr]
    exact h.bound
  served := by
    rw [Player.received, ht, hr]
    exact h.served

/-- A callback of the task that ends with a pass over the pending requests. -/
theorem OneDownload.of_served {p q : Player} {downloaded : Data} (hs : Served downloaded p)
    (hlinked : Linked q) (hone : p.tasks.length ≤ 1) (hreceived : p.received = downloaded)
    (hq : p.processLoadingRequest = some q) : OneDownload q := by
  rw [hs.processLoadingRequest_eq] at hq
  obtain rfl := Option.some.inj hq
  refine ⟨hlinked, hone, hs.pass.nodup, hs.pass.bound, ?_⟩
  have hsame : (p.pass downloaded).received = downloaded := hreceived
  rw [hsame]
  exact hs.pass.requests

theorem Player.startTask_received {p : Player} : p.startTask.received = p.received := by
  rcases p.startTask_cases with h | ⟨url, task, _, _, hd, h⟩
  · rw [h]
  · obtain ⟨session, _, rfl⟩ := Option.map_eq_some_iff.mp hd
    rw [h, received, received, List.flatMap_append, List.flatMap_singleton, List.append_nil]

/-- Another task is made only when there has been none. -/
theorem OneDownload.startTask_length {p : Player} (h : OneDownload p) :
    p.startTask.tasks.length ≤ 1 := by
  rcases p.startTask_cases with he | ⟨url, task, htask, _, hd, he⟩
  · rw [he]
    exact h.one
  · rw [he, List.length_append, List.length_singleton]
    cases h.linked.phase with
    | idle _ _ htasks => rw [htasks, List.length_nil]
    | loading _ _ _ _ ht => rw [htask] at ht; cases ht
    | closed hs => rw [Player.dataTask, hs] at hd; cases hd

/-- A new request has been given nothing. -/
theorem OneDownload.shouldWaitForLoading {p : Player} (h : OneDownload p)
    (info : Option AVAssetResourceLoadingContentInformationRequest) (range : Option ByteRange) :
    OneDownload (p.shouldWaitForLoading (.create info range)) where
  linked := h.linked.shouldWaitForLoading _
  one := h.startTask_length
  nodup := by
    rw [Player.shouldWaitForLoading_loadingRequests]
    refine h.nodup.append (List.nodup_singleton _) (List.disjoint_singleton.mpr fun hm => ?_)
    exact absurd (h.bound _ hm) (lt_irrefl _)
  bound := Player.lt_length_shouldWaitForLoading h.bound _
  served := by
    have hreceived : (p.shouldWaitForLoading (.create info range)).received = p.received :=
      Player.startTask_received
    rw [hreceived, Player.shouldWaitForLoading_requests]
    intro request hm r hr
    rcases List.mem_append.mp hm with hold | hnew
    · exact h.served request hold r hr
    · rw [List.mem_singleton.mp hnew] at hr
      obtain ⟨range, _, rfl⟩ := Option.map_eq_some_iff.mp hr
      exact servedFrom_ofRange _ range

/-- What the requests have been given, in the order of their arrival. -/
def givenData (requests : List AVAssetResourceLoadingRequest) :
    List (Option AVAssetResourceLoadingDataRequest) :=
  requests.map AVAssetResourceLoadingRequest.dataRequest

theorem givenData_modify {method : AVAssetResourceLoadingRequest → AVAssetResourceLoadingRequest}
    (hmethod : ∀ request, (method request).dataRequest = request.dataRequest)
    (requests : List AVAssetResourceLoadingRequest) (id : Nat) :
    givenData (requests.modify id method) = givenData requests := by
  refine List.ext_getElem? fun i => ?_
  rw [givenData, givenData, List.getElem?_map, List.getElem?_map, List.getElem?_modify]
  cases requests[i]? with
  | none => rfl
  | some request =>
    refine congrArg some ?_
    split
    · exact hmethod request
    · rfl

@[simp] theorem givenData_didCancel (p : Player) (id : Nat) :
    givenData (p.didCancel id).requests = givenData p.requests := by
  have hcancel : ∀ request : AVAssetResourceLoadingRequest,
      request.cancel.dataRequest = request.dataRequest := fun _ => rfl
  exact givenData_modify hcancel p.requests id

/-- The cleanup finishes requests and gives them nothing. -/
@[simp] theorem givenData_runCancelBlock (p : Player) :
    givenData p.runCancelBlock.requests = givenData p.requests := by
  have hfinish : ∀ request : AVAssetResourceLoadingRequest,
      request.finishLoading.dataRequest = request.dataRequest := fun _ => rfl
  suffices ∀ ids requests, givenData (List.foldl
      (fun requests id => requests.modify id AVAssetResourceLoadingRequest.finishLoading)
      requests ids) = givenData requests from this p.loadingRequests p.requests
  intro ids
  induction ids with
  | nil => exact fun _ => rfl
  | cons id ids ih =>
    exact fun requests => (ih _).trans (givenData_modify hfinish requests id)

/-- Marking requests leaves what they have been given. -/
theorem RequestsServed.of_givenData {downloaded : Data}
    {requests marked : List AVAssetResourceLoadingRequest} (h : RequestsServed downloaded requests)
    (hsame : givenData marked = givenData requests) : RequestsServed downloaded marked := by
  intro request hm r hr
  have hgiven : some r ∈ givenData marked := List.mem_map.mpr ⟨request, hm, hr⟩
  rw [hsame] at hgiven
  obtain ⟨old, hold, hr'⟩ := List.mem_map.mp hgiven
  exact h old hold r hr'

theorem OneDownload.didCancel {p : Player} (h : OneDownload p) (id : Nat) :
    OneDownload (p.didCancel id) where
  linked := h.linked.congr rfl rfl rfl rfl rfl rfl rfl
  one := h.one
  nodup := by
    rw [Player.didCancel_loadingRequests]
    exact h.nodup.erase id
  bound := Player.lt_length_didCancel h.bound id
  served := h.served.of_givenData (givenData_didCancel p id)

theorem OneDownload.runCancelBlock {p : Player} (h : OneDownload p) :
    OneDownload p.runCancelBlock where
  linked := h.linked.runCancelBlock
  one := h.one
  nodup := List.nodup_nil
  bound := fun _ hid => absurd hid List.not_mem_nil
  served := h.served.of_givenData (givenData_runCancelBlock p)

/-- A chunk of the live task extends what the view has received and reaches the requests. -/
theorem OneDownload.deliver {remote : Remote} {p q : Player} (h : OneDownload p) {id : Nat}
    {chunk : Data} (hq : p.deliver remote id chunk = some q) : OneDownload q := by
  have hlinked := h.linked.deliver hq
  rw [Player.deliver] at hq
  split at hq
  · cases hq
  · rename_i task hlive
    obtain ⟨_, hq⟩ := Option.ite_none_right_eq_some.mp hq
    obtain ⟨rfl, htasks, hs, _⟩ := h.linked.live hlive
    have hopen : p.session ≠ none := by simp [hs]
    have hserved : Served (p.received ++ chunk) { p with
        tasks := p.tasks.set 0 { task with received := task.received ++ chunk }
        videoData := p.videoData.map fun videoData => videoData ++ chunk } :=
      ((h.toServed hopen).append chunk).congr rfl rfl rfl
    refine OneDownload.of_served hserved hlinked ?_ ?_ hq
    · rw [List.length_set]
      exact h.one
    · simp [Player.received, htasks]

/-- Completion marks a task and keeps its bytes. -/
theorem Player.completeTask_received (p : Player) (id : Nat) :
    (p.completeTask id).received = p.received := by
  have hsame : (p.completeTask id).tasks.map URLSessionDataTask.received =
      p.tasks.map URLSessionDataTask.received := by
    refine List.ext_getElem? fun i => ?_
    rw [completeTask, List.getElem?_map, List.getElem?_map, List.getElem?_modify]
    cases p.tasks[i]? with
    | none => rfl
    | some task =>
      change some _ = some _
      split <;> rfl
  rw [received, received, List.flatMap_def, List.flatMap_def, hsame]

theorem OneDownload.next {f : Foundation} {remote : Remote} {p q : Player} {e : ReuseEvent}
    (h : OneDownload p) (hn : (reuse f remote).next p e = some q) : OneDownload q := by
  have hlinked := h.linked.next hn
  cases e with
  | configure url data =>
    cases hn
    cases url <;> exact h.congr hlinked rfl rfl rfl
  | runConfigureBlock =>
    simp only [reuse] at hn
    split at hn
    · cases hn
    · rename_i block blocks _
      cases hn
      obtain ⟨_, ht, hl, hr, _⟩ :=
        Player.runConfigureBlock_frame f { p with mainQueue := blocks } block
      exact h.congr hlinked ht hl hr
  | cancelAllLoadingRequest =>
    cases hn
    exact h.congr hlinked rfl rfl rfl
  | runCancelBlock =>
    simp only [reuse] at hn
    split at hn
    · cases hn
    · rename_i blocks _
      cases hn
      have hb : OneDownload { p with cancelLoadingQueue := blocks } :=
        h.congr (h.linked.congr rfl rfl rfl rfl rfl rfl rfl) rfl rfl rfl
      exact hb.runCancelBlock
  | shouldWaitForLoading info range =>
    cases hn
    exact h.shouldWaitForLoading info range
  | didCancel id =>
    cases hn
    exact h.didCancel id
  | didReceiveResponse id response =>
    simp only [reuse] at hn
    split at hn
    · cases hn
    · rename_i task hlive
      obtain ⟨_, _, hs, _⟩ := h.linked.live hlive
      have hopen : p.session ≠ none := by simp [hs]
      have hserved : Served p.received { p with infoResponse := some response } :=
        (h.toServed hopen).congr rfl rfl rfl
      exact OneDownload.of_served hserved hlinked h.one rfl hn
  | didReceiveData id chunk => exact h.deliver hn
  | didCompleteWithError id error =>
    have hcompleted := p.completeTask_received id
    have hlength : (p.completeTask id).tasks.length = p.tasks.length := List.length_modify ..
    have hq : q.tasks = (p.completeTask id).tasks ∧ q.loadingRequests = p.loadingRequests ∧
        q.requests = p.requests := by
      cases error with
      | some error =>
        cases hn
        exact ⟨rfl, rfl, rfl⟩
      | none =>
        simp only [reuse] at hn
        split at hn
        · cases hn
        · rw [Player.didCompleteWithError] at hn
          split at hn
          · cases hn
          · cases hn
            exact ⟨rfl, rfl, rfl⟩
    obtain ⟨ht, hl, hr⟩ := hq
    refine ⟨hlinked, by rw [ht, hlength]; exact h.one, hl ▸ h.nodup, ?_, ?_⟩
    · rw [hl, hr]
      exact h.bound
    · have hreceived : q.received = p.received := by rw [← hcompleted, Player.received, ht]; rfl
      rw [hreceived, hr]
      exact h.served

theorem oneDownload_initial : OneDownload .initial where
  linked := linked_initial
  one := Nat.zero_le 1
  nodup := List.nodup_nil
  bound := fun _ hid => absurd hid List.not_mem_nil
  served := fun _ hm => absurd hm List.not_mem_nil

theorem OneDownload.of_reachable {f : Foundation} {remote : Remote} {p : Player}
    (h : (reuse f remote).Reachable p) : OneDownload p := by
  obtain ⟨events, hrun⟩ := h
  exact hrun.invariant oneDownload_initial fun _ _ _ hp hn => hp.next hn

/-- Everything that a step can do to the data tasks. -/
inductive TaskStep (remote : Remote) (p q : Player) : Prop
  | kept (tasks : q.tasks = p.tasks)
  | made (task : URLSessionDataTask) (session : p.session.isSome = true)
      (received : task.received = []) (running : task.isCompleted = false)
      (tasks : q.tasks = p.tasks ++ [task])
  | delivered (id : Nat) (task : URLSessionDataTask) (chunk : Data)
      (live : p.liveTask id = some task)
      (within : task.received ++ chunk <+: remote.body task.url)
      (tasks : q.tasks = p.tasks.set id { task with received := task.received ++ chunk })
  | completed (id : Nat) (tasks : q.tasks = (p.completeTask id).tasks)

theorem taskStep_of_next {f : Foundation} {remote : Remote} {p q : Player} {e : ReuseEvent}
    (hn : (reuse f remote).next p e = some q) : TaskStep remote p q := by
  cases e with
  | configure url data =>
    cases hn
    cases url <;> exact .kept rfl
  | runConfigureBlock =>
    simp only [reuse] at hn
    split at hn
    · cases hn
    · cases hn
      exact .kept (Player.runConfigureBlock_frame f _ _).2.1
  | cancelAllLoadingRequest =>
    cases hn
    exact .kept rfl
  | runCancelBlock =>
    simp only [reuse] at hn
    split at hn
    · cases hn
    · cases hn
      exact .kept rfl
  | shouldWaitForLoading info range =>
    cases hn
    rcases p.startTask_cases with he | ⟨url, task, _, _, hd, he⟩
    · exact .kept (show p.startTask.tasks = p.tasks by rw [he])
    · obtain ⟨session, hs, rfl⟩ := Option.map_eq_some_iff.mp hd
      exact .made _ (Option.isSome_of_eq_some hs) rfl rfl (congrArg Player.tasks he :)
  | didCancel id =>
    cases hn
    exact .kept rfl
  | didReceiveResponse id response =>
    simp only [reuse] at hn
    split at hn
    · cases hn
    · obtain ⟨requests, loadingRequests, rfl⟩ := Player.processLoadingRequest_frame hn
      exact .kept rfl
  | didReceiveData id chunk =>
    simp only [reuse, Player.deliver] at hn
    split at hn
    · cases hn
    · rename_i task hlive
      obtain ⟨hwithin, hn⟩ := Option.ite_none_right_eq_some.mp hn
      obtain ⟨requests, loadingRequests, rfl⟩ := Player.processLoadingRequest_frame hn
      exact .delivered id task chunk hlive hwithin rfl
  | didCompleteWithError id error =>
    cases error with
    | some error =>
      cases hn
      exact .completed id rfl
    | none =>
      simp only [reuse] at hn
      split at hn
      · cases hn
      · rw [Player.didCompleteWithError] at hn
        split at hn
        · cases hn
        · cases hn
          exact .completed id rfl

/-- Completing a task changes nothing else about the tasks. -/
theorem Player.exists_of_mem_completeTask {p : Player} {id : Nat} {task : URLSessionDataTask}
    (h : task ∈ (p.completeTask id).tasks) : ∃ old ∈ p.tasks, task.url = old.url ∧
      task.received = old.received := by
  obtain ⟨i, hi⟩ := List.mem_iff_getElem?.mp h
  rw [completeTask, List.getElem?_modify] at hi
  obtain ⟨old, hold, rfl⟩ := Option.map_eq_some_iff.mp hi
  refine ⟨old, List.mem_of_getElem? hold, ?_⟩
  split <;> exact ⟨rfl, rfl⟩

/-- A task has received a beginning of the body of its URL. -/
theorem received_prefix {f : Foundation} {remote : Remote} {p : Player}
    (h : (reuse f remote).Reachable p) :
    ∀ task ∈ p.tasks, task.received <+: remote.body task.url := by
  obtain ⟨events, hrun⟩ := h
  refine hrun.invariant (I := fun p => ∀ task ∈ p.tasks, task.received <+: remote.body task.url)
    (fun _ hm => absurd hm List.not_mem_nil) fun p e q hp hn task hm => ?_
  cases taskStep_of_next hn with
  | kept htasks => exact hp task (htasks ▸ hm)
  | made new _ hreceived _ htasks =>
    rw [htasks, List.mem_append, List.mem_singleton] at hm
    rcases hm with hold | rfl
    · exact hp task hold
    · rw [hreceived]
      exact List.nil_prefix
  | delivered id old chunk _ hwithin htasks =>
    rw [htasks] at hm
    rcases List.mem_or_eq_of_mem_set hm with hold | rfl
    · exact hp task hold
    · exact hwithin
  | completed id htasks =>
    obtain ⟨old, hold, hurl, hreceived⟩ := Player.exists_of_mem_completeTask (htasks ▸ hm)
    rw [hurl, hreceived]
    exact hp old hold

/-- One view, one download. However often a view is reused, it has made one data task at most,
and what any of its requests has been given, whichever post it was for, is a slice of the bytes
of this task, which begin the body of the task's URL. -/
theorem view_downloads_one_body {f : Foundation} {remote : Remote} {p : Player}
    (h : (reuse f remote).Reachable p) :
    (p.tasks = [] ∧ ∀ request ∈ p.requests, ∀ r, request.dataRequest = some r →
      r.delivered = []) ∨
    ∃ task, p.tasks = [task] ∧ task.received <+: remote.body task.url ∧
      ∀ request ∈ p.requests, ∀ r, request.dataRequest = some r →
        r.delivered = task.received.extract r.requestedOffset.toNat r.currentOffset.toNat ∧
        r.requestedOffset ≤ r.currentOffset ∧
        r.currentOffset ≤ r.requestedOffset + r.requestedLength := by
  have hone := OneDownload.of_reachable h
  have hserved := hone.served
  match htasks : p.tasks, hone.one with
  | [], _ =>
    refine Or.inl ⟨rfl, fun request hm r hr => ?_⟩
    have hs := hserved request hm r hr
    rw [hs.delivered, Player.received, htasks, List.flatMap_nil]
    simp
  | [task], _ =>
    refine Or.inr ⟨task, rfl, received_prefix h task (htasks ▸ List.mem_singleton_self task),
      fun request hm r hr => ?_⟩
    have hs := hserved request hm r hr
    have hreceived : p.received = task.received := by
      rw [Player.received, htasks, List.flatMap_singleton]
    exact ⟨hreceived ▸ hs.delivered, hs.offset_le, hs.le_stop⟩

/-- A view streams the first byte of its post. -/
def firstByteStreamed (firstByte : ByteRange) : List ReuseEvent :=
  [.configure (some ⟨"http:a"⟩) none, .runConfigureBlock,
    .shouldWaitForLoading none (some firstByte), .didReceiveData 0 [1]]

theorem view_downloads_one_body_firstByteStreamed : ∃ p : Player, p.requests.length = 1 ∧
    ∃ task, p.tasks = [task] ∧ task.received <+: twoPosts.body task.url ∧
      ∀ request ∈ p.requests, ∀ r, request.dataRequest = some r →
        r.delivered = task.received.extract r.requestedOffset.toNat r.currentOffset.toNat ∧
        r.requestedOffset ≤ r.currentOffset ∧
        r.currentOffset ≤ r.requestedOffset + r.requestedLength := by
  obtain ⟨p, hp, hlength, htasks⟩ : ∃ p, (reuse .plain twoPosts).Run
        (firstByteStreamed ⟨0, 1, by decide, by decide, by decide⟩) p ∧
      p.requests.length = 1 ∧ p.tasks ≠ [] :=
    ⟨_, Machine.run_iff_exec.mpr rfl, rfl, List.cons_ne_nil _ _⟩
  refine ⟨p, hlength, ?_⟩
  exact (view_downloads_one_body ⟨_, hp⟩).resolve_left fun h => htasks h.1

/-! ### After the first cleanup -/

/-- The view is closed. Since the earlier state nothing has been stored or received; the
requests of that state have been given what they had, and the later ones nothing. -/
structure GivesNothing (closed p : Player) : Prop where
  linked : Linked p
  session : p.session = none
  stores : p.stores = closed.stores
  received : p.received = closed.received
  tasks : p.tasks.length = closed.tasks.length
  given : ∃ later, givenData p.requests = givenData closed.requests ++ later ∧
    ∀ r, some r ∈ later → r.delivered = []

/-- A closed view hears nothing of its task. -/
theorem Linked.liveTask_of_closed {p : Player} (h : Linked p) (hs : p.session = none) (id : Nat) :
    p.liveTask id = none := by
  cases hlive : p.liveTask id with
  | none => rfl
  | some task =>
    obtain ⟨_, _, hopen, _⟩ := h.live hlive
    rw [hs] at hopen
    cases hopen

/-- A step of a closed view that gives no request anything. -/
theorem GivesNothing.congr {closed p q : Player} (h : GivesNothing closed p) (hlinked : Linked q)
    (hsession : q.session = none) (hstores : q.stores = p.stores)
    (hreceived : q.received = p.received) (htasks : q.tasks.length = p.tasks.length)
    (hgiven : givenData q.requests = givenData p.requests) : GivesNothing closed q where
  linked := hlinked
  session := hsession
  stores := hstores.trans h.stores
  received := hreceived.trans h.received
  tasks := htasks.trans h.tasks
  given := h.given.imp fun _ hlater => ⟨hgiven.trans hlater.1, hlater.2⟩

/-- A closed view starts no task for a new request and gives it nothing. -/
theorem GivesNothing.shouldWaitForLoading {closed p : Player} (h : GivesNothing closed p)
    (info : Option AVAssetResourceLoadingContentInformationRequest) (range : Option ByteRange) :
    GivesNothing closed (p.shouldWaitForLoading (.create info range)) := by
  have hsame : p.shouldWaitForLoading (.create info range) = { p with
      requests := p.requests ++ [.create info range]
      loadingRequests := p.loadingRequests ++ [p.requests.length] } := by
    rw [Player.shouldWaitForLoading, Player.startTask_eq_self (Or.inr h.session)]
  obtain ⟨later, hgiven, hnothing⟩ := h.given
  rw [hsame]
  refine ⟨h.linked.congr rfl rfl rfl rfl rfl rfl rfl, h.session, h.stores, h.received, h.tasks,
    later ++ [range.map .ofRange], ?_, fun r hr => ?_⟩
  · rw [givenData, List.map_append, ← givenData, hgiven, List.append_assoc]
    rfl
  · rcases List.mem_append.mp hr with hold | hnew
    · exact hnothing r hold
    · obtain ⟨range, _, rfl⟩ := Option.map_eq_some_iff.mp (List.mem_singleton.mp hnew).symm
      rfl

theorem GivesNothing.next {f : Foundation} {remote : Remote} {closed p q : Player}
    {e : ReuseEvent} (h : GivesNothing closed p) (hn : (reuse f remote).next p e = some q) :
    GivesNothing closed q := by
  have hlinked := h.linked.next hn
  have hdead := h.linked.liveTask_of_closed h.session
  cases e with
  | configure url data =>
    cases hn
    cases url <;> exact h.congr hlinked h.session rfl rfl rfl rfl
  | runConfigureBlock =>
    simp only [reuse] at hn
    split at hn
    · cases hn
    · rename_i block blocks _
      cases hn
      obtain ⟨hs, ht, _, hr, _, hst⟩ :=
        Player.runConfigureBlock_frame f { p with mainQueue := blocks } block
      exact h.congr hlinked (hs.trans h.session) hst (congrArg (List.flatMap _) ht)
        (congrArg List.length ht) (congrArg givenData hr)
  | cancelAllLoadingRequest =>
    cases hn
    exact h.congr hlinked h.session rfl rfl rfl rfl
  | runCancelBlock =>
    simp only [reuse] at hn
    split at hn
    · cases hn
    · cases hn
      exact h.congr hlinked rfl rfl rfl rfl (givenData_runCancelBlock _)
  | shouldWaitForLoading info range =>
    cases hn
    exact h.shouldWaitForLoading info range
  | didCancel id =>
    cases hn
    exact h.congr hlinked h.session rfl rfl rfl (givenData_didCancel p id)
  | didReceiveResponse id response =>
    simp only [reuse, hdead id] at hn
    cases hn
  | didReceiveData id chunk =>
    simp only [reuse, Player.deliver, hdead id] at hn
    cases hn
  | didCompleteWithError id error =>
    cases error with
    | some error =>
      cases hn
      exact h.congr hlinked h.session rfl (p.completeTask_received id) (List.length_modify ..) rfl
    | none =>
      simp only [reuse, Player.wholeTask, hdead id, Option.filter_none] at hn
      cases hn

/-- A view that has been cleaned up never streams again. Whatever happens after the cleanup of
its first reuse, it makes no task, receives and stores nothing, and the requests that it
accepts for all later posts are given no byte. No callback with data or with success is taken
to come once the cleanup has invalidated the session. -/
theorem cleaned_view_gives_nothing {f : Foundation} {remote : Remote} {p closed q : Player}
    (hp : (reuse f remote).Reachable p)
    (hcleanup : (reuse f remote).next p .runCancelBlock = some closed)
    {events : List ReuseEvent} (hrun : ((reuse f remote).startAt closed).Run events q) :
    q.tasks.length = closed.tasks.length ∧ q.received = closed.received ∧
      q.stores = closed.stores ∧
      ∃ later, givenData q.requests = givenData closed.requests ++ later ∧
        ∀ r, some r ∈ later → r.delivered = [] := by
  have hlinked : Linked closed := (Linked.of_reachable hp).next hcleanup
  have hclosed : closed.session = none := by
    simp only [reuse] at hcleanup
    split at hcleanup
    · cases hcleanup
    · cases hcleanup
      rfl
  have hstart : GivesNothing closed closed :=
    ⟨hlinked, hclosed, rfl, rfl, rfl, [], (List.append_nil _).symm,
      fun _ hr => absurd hr List.not_mem_nil⟩
  have hq : GivesNothing closed q := hrun.invariant hstart fun _ _ _ h hn => h.next hn
  exact ⟨hq.tasks, hq.received, hq.stores, hq.given⟩

/-- A cell shows its first post and is cleaned up for reuse. -/
def firstPost : List ReuseEvent :=
  [.configure (some ⟨"http:a"⟩) none, .runConfigureBlock, .cancelAllLoadingRequest]

/-- The second post of the cell asks for its first byte. -/
def secondPost (firstByte : ByteRange) : List ReuseEvent :=
  [.configure (some ⟨"http:b"⟩) none, .runConfigureBlock,
    .shouldWaitForLoading none (some firstByte)]

theorem cleaned_view_gives_nothing_secondPost : ∃ firstByte : ByteRange, ∃ closed q : Player,
    ((reuse .plain twoPosts).startAt closed).Run (secondPost firstByte) q ∧
      q.requests.length = 1 ∧
      q.tasks.length = closed.tasks.length ∧ q.received = closed.received ∧
      q.stores = closed.stores ∧
      ∃ later, givenData q.requests = givenData closed.requests ++ later ∧
        ∀ r, some r ∈ later → r.delivered = [] := by
  let firstByte : ByteRange := ⟨0, 1, by decide, by decide, by decide⟩
  obtain ⟨q, hrun, hlength⟩ : ∃ q,
      (reuse .plain twoPosts).Run (firstPost ++ [.runCancelBlock] ++ secondPost firstByte) q ∧
        q.requests.length = 1 := ⟨_, Machine.run_iff_exec.mpr rfl, rfl⟩
  obtain ⟨closed, hclosed, hq⟩ := Machine.run_append_iff.mp hrun
  obtain ⟨p, hp, hcleanup⟩ := Machine.run_concat_iff.mp hclosed
  exact ⟨firstByte, closed, q, hq, hlength,
    cleaned_view_gives_nothing ⟨_, hp⟩ hcleanup hq⟩

end TiktokClone
