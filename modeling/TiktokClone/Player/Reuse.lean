import TiktokClone.Library.Machine
import TiktokClone.Player.VideoPlayerView

/-!
# Reuse of one player

The main queue, the cleanup queue and the delegate queue of the session take steps
in any order while the view is configured for one post after another. A view makes
one session in its life, and the first cleanup invalidates it, so it makes at most
one task; the fields that the completion handler and the resource loader read may
by then belong to another post.
-/

namespace TiktokClone

open Library VideoPlayerView

/-- What the network and the posts say about a URL. -/
structure Remote where
  /-- The complete response body. -/
  body : URL → Data
  /-- The file extension of the post with this URL. -/
  fileExtension : URL → Option String

/-- A task whose delegate callbacks may still be delivered. Once its session is invalidated the
system is taken to deliver neither data nor a success. -/
def Player.liveTask (p : Player) (id : Nat) : Option URLSessionDataTask :=
  (p.tasks[id]?).filter fun task =>
    !task.isCompleted && p.sessions[task.session]? == some ⟨false⟩

/-- A live task that has delivered the whole body of its URL. -/
def Player.wholeTask (remote : Remote) (p : Player) (id : Nat) : Option URLSessionDataTask :=
  (p.liveTask id).filter fun task => task.received == remote.body task.url

/-- The system hands a chunk of a task's body to the view. -/
def Player.deliver (remote : Remote) (p : Player) (id : Nat) (chunk : Data) : Option Player :=
  match p.liveTask id with
  | none => none
  | some task =>
    if task.received ++ chunk <+: remote.body task.url then
      { p with tasks := p.tasks.set id { task with received := task.received ++ chunk } }
        |>.didReceiveData chunk
    else none

/-- The task has ended; its completion callback is the last one. -/
def Player.completeTask (p : Player) (id : Nat) : Player :=
  { p with tasks := p.tasks.modify id fun task => { task with isCompleted := true } }

/-- The steps of the three queues. -/
inductive ReuseEvent
  | configure (url : Option URL) (data : Option String)
  | runConfigureBlock
  | cancelAllLoadingRequest
  | runCancelBlock
  | shouldWaitForLoading (info : Option AVAssetResourceLoadingContentInformationRequest)
      (range : Option ByteRange)
  | didCancel (id : Nat)
  | didReceiveResponse (id : Nat) (response : URLResponse)
  | didReceiveData (id : Nat) (chunk : Data)
  | didCompleteWithError (id : Nat) (error : Option String)

/-- A reused view: blocks run once they are queued, delegate callbacks arrive for a
live task, and a task completes without an error once its whole body has arrived. An
error may arrive at any time, also after the session was invalidated. -/
def reuse (f : Foundation) (remote : Remote) : Machine Player ReuseEvent where
  start := .initial
  next p
    | .configure url data => some (p.configure url (url.bind remote.fileExtension) data)
    | .runConfigureBlock =>
      match p.mainQueue with
      | [] => none
      | block :: blocks => some ({ p with mainQueue := blocks }.runConfigureBlock f block)
    | .cancelAllLoadingRequest => some p.cancelAllLoadingRequest
    | .runCancelBlock =>
      match p.cancelLoadingQueue with
      | 0 => none
      | blocks + 1 => some { p with cancelLoadingQueue := blocks }.runCancelBlock
    | .shouldWaitForLoading info range => some (p.shouldWaitForLoading (.create info range))
    | .didCancel id => some (p.didCancel id)
    | .didReceiveResponse id response =>
      match p.liveTask id with
      | none => none
      | some _ => p.didReceiveResponse response
    | .didReceiveData id chunk => p.deliver remote id chunk
    | .didCompleteWithError id (some error) =>
      (p.completeTask id).didCompleteWithError (some error)
    | .didCompleteWithError id none =>
      match p.wholeTask remote id with
      | none => none
      | some _ => (p.completeTask id).didCompleteWithError none

/-- The life of the view's one session and of its one task. -/
inductive SessionPhase (p : Player) : Prop
  | idle (session : p.session = some 0) (sessions : p.sessions = [⟨false⟩])
      (tasks : p.tasks = []) (task : p.task = none) (videoData : p.videoData = some [])
  | loading (t : URLSessionDataTask) (session : p.session = some 0)
      (sessions : p.sessions = [⟨false⟩]) (tasks : p.tasks = [t]) (task : p.task = some 0)
      (videoData : p.videoData = some t.received)
  | closed (session : p.session = none) (sessions : p.sessions = [⟨true⟩])
      (task : p.task = none) (videoData : p.videoData = none)

/-- How the task is tied to the view's session and to its configurations. -/
structure Linked (p : Player) : Prop where
  phase : SessionPhase p
  session : ∀ task ∈ p.tasks, task.session = 0
  configuration : ∀ task ∈ p.tasks, task.configuration ≤ p.configurations
  url : ∀ task ∈ p.tasks, task.configuration = p.configurations →
    ∀ url, p.originalURL = some url → url = task.url

theorem Player.liveTask_spec {p : Player} {id : Nat} {task : URLSessionDataTask}
    (h : p.liveTask id = some task) : p.tasks[id]? = some task ∧
      task.isCompleted = false ∧ p.sessions[task.session]? = some ⟨false⟩ := by
  obtain ⟨hlookup, hlive⟩ := Option.filter_eq_some_iff.mp h
  simp only [Bool.and_eq_true, Bool.not_eq_true', beq_iff_eq] at hlive
  exact ⟨hlookup, hlive⟩

/-- A live task is the only one, and the buffer holds what it has delivered. -/
theorem Linked.live {p : Player} (h : Linked p) {id : Nat} {task : URLSessionDataTask}
    (ht : p.liveTask id = some task) : id = 0 ∧ p.tasks = [task] ∧ p.session = some 0 ∧
      p.sessions = [⟨false⟩] ∧ p.task = some 0 ∧ p.videoData = some task.received := by
  obtain ⟨hlookup, _, hsession⟩ := p.liveTask_spec ht
  cases h.phase with
  | idle _ _ htasks => rw [htasks] at hlookup; cases hlookup
  | loading t hs hss htasks htask hdata =>
    rw [htasks, List.getElem?_singleton, Option.ite_none_right_eq_some, Option.some.injEq]
      at hlookup
    obtain ⟨rfl, rfl⟩ := hlookup
    exact ⟨rfl, htasks, hs, hss, htask, hdata⟩
  | closed _ hss =>
    rw [h.session task (List.mem_of_getElem? hlookup), hss] at hsession
    cases hsession

/-- Steps that leave the session, the tasks, the buffer and the URL alone. -/
theorem Linked.congr {p q : Player} (h : Linked p) (hs : q.session = p.session)
    (hss : q.sessions = p.sessions) (hts : q.tasks = p.tasks) (ht : q.task = p.task)
    (hv : q.videoData = p.videoData) (hc : q.configurations = p.configurations)
    (hu : q.originalURL = p.originalURL) : Linked q where
  phase := by
    cases h.phase with
    | idle a b c d e =>
      exact .idle (hs.trans a) (hss.trans b) (hts.trans c) (ht.trans d) (hv.trans e)
    | loading t a b c d e =>
      exact .loading t (hs.trans a) (hss.trans b) (hts.trans c) (ht.trans d) (hv.trans e)
    | closed a b c d => exact .closed (hs.trans a) (hss.trans b) (ht.trans c) (hv.trans d)
  session := hts ▸ h.session
  configuration := by
    rw [hts, hc]
    exact h.configuration
  url := by
    rw [hts, hc, hu]
    exact h.url

theorem linked_initial : Linked Player.initial where
  phase := .idle rfl rfl rfl rfl rfl
  session := fun _ hm => absurd hm List.not_mem_nil
  configuration := fun _ hm => absurd hm List.not_mem_nil
  url := fun _ hm => absurd hm List.not_mem_nil

theorem Linked.processLoadingRequest {p q : Player} (h : Linked p)
    (hq : p.processLoadingRequest = some q) : Linked q := by
  obtain ⟨requests, loadingRequests, rfl⟩ := Player.processLoadingRequest_frame hq
  exact h.congr rfl rfl rfl rfl rfl rfl rfl

theorem Linked.configure {p : Player} (h : Linked p) (url : Option URL)
    (fileExtension data : Option String) : Linked (p.configure url fileExtension data) := by
  cases url with
  | none => exact h
  | some url => exact h.congr rfl rfl rfl rfl rfl rfl rfl

/-- A new configuration: every task so far belongs to an older one. -/
theorem Linked.present {p : Player} (h : Linked p) (videoURL url : URL) :
    Linked (p.present videoURL url) where
  phase := by
    cases h.phase with
    | idle a b c d e => exact .idle a b c d e
    | loading t a b c d e => exact .loading t a b c d e
    | closed a b c d => exact .closed a b c d
  session := h.session
  configuration := fun task hm => Nat.le_succ_of_le (h.configuration task hm)
  url := fun task hm he => absurd (h.configuration task hm) (he ▸ Nat.not_succ_le_self _)

theorem Linked.runConfigureBlock {p : Player} (h : Linked p) (f : Foundation)
    (block : ConfigureBlock) : Linked (p.runConfigureBlock f block) := by
  rw [Player.runConfigureBlock_eq]
  split
  · exact h
  · exact h.present _ _

theorem Linked.cancelAllLoadingRequest {p : Player} (h : Linked p) :
    Linked p.cancelAllLoadingRequest where
  phase := by
    cases h.phase with
    | idle a b c d e => exact .idle a b c d e
    | loading t a b c d e => exact .loading t a b c d e
    | closed a b c d => exact .closed a b c d
  session := h.session
  configuration := h.configuration
  url := fun _ _ _ _ hu => nomatch hu

/-- The first cleanup closes the session for good. -/
theorem Linked.runCancelBlock {p : Player} (h : Linked p) : Linked p.runCancelBlock where
  phase := by
    refine .closed rfl ?_ rfl rfl
    cases h.phase with
    | idle hs hss => simp [Player.runCancelBlock, hs, hss]
    | loading _ hs hss => simp [Player.runCancelBlock, hs, hss]
    | closed hs hss => simp only [Player.runCancelBlock, hs, hss]
  session := h.session
  configuration := h.configuration
  url := h.url

theorem Linked.startTask {p : Player} (h : Linked p) : Linked p.startTask := by
  rcases p.startTask_cases with he | ⟨url, task, htask, hurl, hd, he⟩
  · rw [he]
    exact h
  rw [he]
  cases h.phase with
  | idle hs hss htasks _ hdata =>
    rw [Player.dataTask, hs, Option.map_some, Option.some.injEq] at hd
    have hm : ∀ t ∈ p.tasks ++ [task], t = task := by simp [htasks]
    refine ⟨.loading task hs hss ?_ ?_ ?_, ?_, ?_, ?_⟩
    · rw [htasks, List.nil_append]
    · rw [htasks, List.length_nil]
    · rw [hdata, ← hd]
    · intro t ht
      rw [hm t ht, ← hd]
    · intro t ht
      rw [hm t ht, ← hd]
    · intro t ht _ u hu
      rw [hm t ht, ← hd]
      exact Option.some.inj (hu.symm.trans hurl)
  | loading _ _ _ _ ht => rw [ht] at htask; cases htask
  | closed hs => rw [Player.dataTask, hs] at hd; cases hd

theorem Linked.shouldWaitForLoading {p : Player} (h : Linked p)
    (request : AVAssetResourceLoadingRequest) : Linked (p.shouldWaitForLoading request) := by
  have hs := h.startTask
  exact hs.congr rfl rfl rfl rfl rfl rfl rfl

/-- A chunk reaches the task and the buffer together. -/
theorem Linked.deliver {remote : Remote} {p q : Player} (h : Linked p) {id : Nat} {chunk : Data}
    (hq : p.deliver remote id chunk = some q) : Linked q := by
  rw [Player.deliver] at hq
  split at hq
  · cases hq
  · rename_i task hlive
    obtain ⟨rfl, htasks, hs, hss, ht, hdata⟩ := h.live hlive
    have hmem : task ∈ p.tasks := by
      rw [htasks]
      exact List.mem_singleton_self task
    split at hq
    · refine Linked.processLoadingRequest ⟨?_, ?_, ?_, ?_⟩ hq
      · refine .loading { task with received := task.received ++ chunk } hs hss ?_ ht ?_
        · simp only [htasks, List.set_cons_zero]
        · simp only [hdata, Option.map_some]
      all_goals
        simp only [htasks, List.set_cons_zero, List.mem_singleton, forall_eq]
      · exact h.session task hmem
      · exact h.configuration task hmem
      · exact h.url task hmem
    · cases hq

/-- Completion marks a task and changes nothing that ties it to the view. -/
theorem Linked.completeTask {p : Player} (h : Linked p) (id : Nat) :
    Linked (p.completeTask id) := by
  have hmem : ∀ task ∈ (p.completeTask id).tasks, ∃ t ∈ p.tasks, task.url = t.url ∧
      task.session = t.session ∧ task.configuration = t.configuration := by
    intro task hm
    obtain ⟨i, hi⟩ := List.mem_iff_getElem?.mp hm
    simp only [Player.completeTask, List.getElem?_modify] at hi
    obtain ⟨t, ht, rfl⟩ := Option.map_eq_some_iff.mp hi
    refine ⟨t, List.mem_of_getElem? ht, ?_⟩
    split <;> exact ⟨rfl, rfl, rfl⟩
  refine ⟨?_, ?_, ?_, ?_⟩
  · cases h.phase with
    | idle hs hss htasks ht hdata =>
      refine .idle hs hss ?_ ht hdata
      rw [Player.completeTask, htasks, List.modify_nil]
    | loading t hs hss htasks ht hdata =>
      cases id with
      | zero =>
        refine .loading { t with isCompleted := true } hs hss ?_ ht hdata
        simp [Player.completeTask, htasks]
      | succ id =>
        refine .loading t hs hss ?_ ht hdata
        simp [Player.completeTask, htasks]
    | closed hs hss ht hdata => exact .closed hs hss ht hdata
  · intro task hm
    obtain ⟨t, ht, _, he, _⟩ := hmem task hm
    exact he.trans (h.session t ht)
  · intro task hm
    obtain ⟨t, ht, _, _, he⟩ := hmem task hm
    exact he ▸ h.configuration t ht
  · intro task hm hc url hurl
    obtain ⟨t, ht, hu, _, he⟩ := hmem task hm
    rw [hu]
    exact h.url t ht (he ▸ hc) url hurl

theorem Linked.didCompleteWithError {p q : Player} (h : Linked p) {error : Option String}
    (hq : p.didCompleteWithError error = some q) : Linked q := by
  cases error with
  | some error =>
    cases hq
    exact h
  | none =>
    rw [Player.didCompleteWithError] at hq
    split at hq
    · cases hq
    · cases hq
      exact h.congr rfl rfl rfl rfl rfl rfl rfl

/-- Every step of every queue keeps the task tied to the view. -/
theorem Linked.next {f : Foundation} {remote : Remote} {p q : Player} {e : ReuseEvent}
    (h : Linked p) (hn : (reuse f remote).next p e = some q) : Linked q := by
  cases e with
  | configure url data =>
    cases hn
    exact h.configure url _ data
  | runConfigureBlock =>
    simp only [reuse] at hn
    split at hn
    · cases hn
    · rename_i block blocks _
      cases hn
      have hb : Linked { p with mainQueue := blocks } := h.congr rfl rfl rfl rfl rfl rfl rfl
      exact hb.runConfigureBlock f block
  | cancelAllLoadingRequest =>
    cases hn
    exact h.cancelAllLoadingRequest
  | runCancelBlock =>
    simp only [reuse] at hn
    split at hn
    · cases hn
    · rename_i blocks _
      cases hn
      have hb : Linked { p with cancelLoadingQueue := blocks } :=
        h.congr rfl rfl rfl rfl rfl rfl rfl
      exact hb.runCancelBlock
  | shouldWaitForLoading info range =>
    cases hn
    exact h.shouldWaitForLoading _
  | didCancel id =>
    cases hn
    exact h.congr rfl rfl rfl rfl rfl rfl rfl
  | didReceiveResponse id response =>
    simp only [reuse] at hn
    split at hn
    · cases hn
    · have hi : Linked { p with infoResponse := some response } :=
        h.congr rfl rfl rfl rfl rfl rfl rfl
      exact hi.processLoadingRequest hn
  | didReceiveData id chunk => exact h.deliver hn
  | didCompleteWithError id error =>
    cases error with
    | some error =>
      simp only [reuse] at hn
      exact (h.completeTask id).didCompleteWithError hn
    | none =>
      simp only [reuse] at hn
      split at hn
      · cases hn
      · exact (h.completeTask id).didCompleteWithError hn

theorem Linked.of_reachable {f : Foundation} {remote : Remote} {p : Player}
    (h : (reuse f remote).Reachable p) : Linked p := by
  obtain ⟨events, hr⟩ := h
  exact hr.invariant linked_initial fun _ _ _ hp hn => hp.next hn

/-! ### Streaming -/

/-- An accepted loading request finds a task for the view's URL, made for the present
configuration on an open session, and a buffer of bytes from this task. -/
def CanStream (p : Player) : ReuseEvent → Prop
  | .shouldWaitForLoading info range => ∀ url, p.originalURL = some url →
      let q := p.shouldWaitForLoading (.create info range)
      ∃ task ∈ q.tasks, task.url = url ∧ task.configuration = q.configurations ∧
        q.sessions[task.session]? = some ⟨false⟩ ∧
        ∃ videoData, q.videoData = some videoData ∧ videoData <+: task.received
  | _ => True

/-- When a request arrives for a URL, no cleanup has run and the task, if there is
one, is of the present configuration. -/
def FreshSession (p : Player) : ReuseEvent → Prop
  | .shouldWaitForLoading _ _ => p.originalURL.isSome = true → p.session.isSome = true ∧
      ∀ id task, p.task = some id → p.tasks[id]? = some task →
        task.configuration = p.configurations
  | _ => True

/-- The first request after the configuration starts the task. -/
theorem Player.startTask_of_idle {p : Player} {url : URL} {session : Nat} (htask : p.task = none)
    (hurl : p.originalURL = some url) (hs : p.session = some session) :
    p.startTask = { p with
      tasks := p.tasks ++ [⟨url, session, p.configurations, [], false⟩]
      task := some p.tasks.length } := by
  simp only [startTask, htask, hurl, dataTask, hs, Option.map_some]

/-- The phase of the session decides what an accepted request finds. -/
theorem Linked.canStream_iff {p : Player} (h : Linked p) (e : ReuseEvent) :
    CanStream p e ↔ FreshSession p e := by
  cases e with
  | shouldWaitForLoading info range =>
    simp only [CanStream, FreshSession]
    cases hurl : p.originalURL with
    | none => simp
    | some url =>
      simp only [Option.some.injEq, forall_eq', Option.isSome_some, forall_const,
        Player.shouldWaitForLoading]
      cases h.phase with
      | idle hs hss htasks htask hdata =>
        rw [Player.startTask_of_idle htask hurl hs]
        refine iff_of_true ⟨_, List.mem_append_right _ (List.mem_singleton_self _), rfl, rfl,
          by simp [hss], [], hdata, List.prefix_refl []⟩ ⟨by simp [hs], ?_⟩
        intro id task hid
        rw [htask] at hid
        cases hid
      | loading t hs hss htasks htask hdata =>
        have ht : t ∈ p.tasks := htasks ▸ List.mem_singleton_self t
        rw [Player.startTask_eq_self (Or.inl (by simp [htask]))]
        constructor
        · rintro ⟨task, hm, _, hc, _⟩
          refine ⟨by simp [hs], fun id task' hid hlookup => ?_⟩
          rw [htasks, List.mem_singleton] at hm
          rw [htasks] at hlookup
          rw [List.mem_singleton.mp (List.mem_of_getElem? hlookup), ← hm]
          exact hc
        · rintro ⟨_, hcurrent⟩
          have hc := hcurrent 0 t htask (by simp [htasks])
          exact ⟨t, ht, (h.url t ht hc url hurl).symm, hc, by simp [h.session t ht, hss],
            t.received, hdata, List.prefix_refl _⟩
      | closed hs hss htask hdata =>
        rw [Player.startTask_eq_self (Or.inr hs)]
        refine iff_of_false ?_ ?_
        · rintro ⟨_, _, _, _, _, videoData, hv, _⟩
          rw [hdata] at hv
          cases hv
        · rintro ⟨hsome, _⟩
          rw [hs] at hsome
          cases hsome
  | _ => exact Iff.rfl

/-- A reused player. However configurations, cancellations and their deferred blocks
interleave, every accepted request finds a task and a buffer of its own post if and
only if no cleanup has run before it and no task of an earlier post is left. -/
theorem accepted_requests_stream_iff (f : Foundation) (remote : Remote)
    (events : List ReuseEvent) :
    (reuse f remote).AllSteps CanStream events ↔ (reuse f remote).AllSteps FreshSession events :=
  Machine.allSteps_congr (fun _ e hp => (Linked.of_reachable hp).canStream_iff e) events

/-- Two posts with one byte of body each. -/
def twoPosts : Remote where
  body u := if u.absoluteString = "http:a" then [1] else [2]
  fileExtension _ := some "mp4"

/-- The cell is reused, its cleanup runs and the next post is presented. -/
def cleanedCell : List ReuseEvent :=
  [.configure (some ⟨"http:a"⟩) none, .runConfigureBlock, .cancelAllLoadingRequest,
    .runCancelBlock, .configure (some ⟨"http:b"⟩) none, .runConfigureBlock]

/-- The first request of the second post finds no session and gets no task. -/
theorem cleaned_cell_cannot_stream :
    ¬ (reuse .plain twoPosts).AllSteps CanStream
      (cleanedCell ++ [.shouldWaitForLoading none none]) := by
  intro h
  obtain ⟨_, _, _, _, _, videoData, hv, _⟩ := h cleanedCell _ (List.prefix_refl _) _
    (Machine.run_iff_exec.mpr rfl) ⟨"http:b"⟩ rfl
  cases hv

end TiktokClone
