import TiktokClone.Player.Completion

/-!
# A download that fails

The end of a download with an error is only printed: the view keeps its task, the
partial buffer and the pending requests. The task is what keeps the resource loader
from starting another download, so the view never starts one again.
-/

namespace TiktokClone

open Library VideoPlayerView

/-- Every request that was pending has been finished and no longer waits. -/
def FinishesPending (p p' : Player) : Prop :=
  ∀ id ∈ p.loadingRequests, id ∉ p'.loadingRequests ∧
    ∀ request, p'.requests[id]? = some request → 0 < request.finishCount

/-- Accepting a request starts a task, with an empty buffer to fill. -/
def StartsDownload (q r : Player) : Prop :=
  ∃ task, r.tasks = q.tasks ++ [task] ∧ r.task = some q.tasks.length ∧ r.videoData = some []

/-- The callback accepts a request. -/
def LoaderEvent.isRequest : LoaderEvent → Bool
  | shouldWaitForLoading _ _ => true
  | _ => false

/-- The failure has left a state from which the download can be repeated: nothing is stored, no
request waits, and the next one accepted for the same URL starts afresh. -/
structure RetryableAfter (f : Foundation) (p p' : Player) : Prop where
  stores : p'.stores = p.stores
  finished : FinishesPending p p'
  retry : ∀ quiet q, (∀ e ∈ quiet, e.isRequest = false) → (loader f p').Run quiet q →
    q.originalURL = p.originalURL → ∀ info range,
      StartsDownload q (q.shouldWaitForLoading (.create info range))

/-- Every step keeps the session; a view that has a task makes no other one. -/
theorem next_tasks {f : Foundation} {start p q : Player} {e : LoaderEvent}
    (hn : (loader f start).next p e = some q) :
    q.session = p.session ∧ (p.task ≠ none → q.tasks = p.tasks ∧ q.task = p.task) := by
  cases e with
  | shouldWaitForLoading info range =>
    obtain rfl := Option.some.inj hn
    refine ⟨?_, fun h => ?_⟩
    · rcases p.startTask_cases with he | ⟨_, _, _, _, _, he⟩ <;>
        rw [Player.shouldWaitForLoading, he]
    · rw [Player.shouldWaitForLoading, Player.startTask_eq_self (Or.inl h)]
      exact ⟨rfl, rfl⟩
  | didCancel id =>
    obtain rfl := Option.some.inj hn
    exact ⟨rfl, fun _ => ⟨rfl, rfl⟩⟩
  | didReceiveResponse response =>
    obtain ⟨_, _, rfl⟩ := Player.processLoadingRequest_frame hn
    exact ⟨rfl, fun _ => ⟨rfl, rfl⟩⟩
  | didReceiveData chunk =>
    obtain ⟨_, _, rfl⟩ := Player.processLoadingRequest_frame hn
    exact ⟨rfl, fun _ => ⟨rfl, rfl⟩⟩
  | runConfigureBlock =>
    obtain rfl := Option.some.inj hn
    rcases p.runMainQueue_cases f with he | ⟨_, _, _, he | ⟨_, he⟩⟩ <;> rw [he] <;>
      exact ⟨rfl, fun _ => ⟨rfl, rfl⟩⟩

theorem run_tasks {f : Foundation} {p q : Player} {events : List LoaderEvent} (h : p.task ≠ none)
    (hr : (loader f p).Run events q) : q.tasks = p.tasks ∧ q.task = p.task := by
  induction hr with
  | nil => exact ⟨rfl, rfl⟩
  | snoc _ hn ih =>
    obtain ⟨htasks, htask⟩ := (next_tasks hn).2 (ih.2 ▸ h)
    exact ⟨htasks.trans ih.1, htask.trans ih.2⟩

theorem run_session {f : Foundation} {p q : Player} {events : List LoaderEvent}
    (hr : (loader f p).Run events q) : q.session = p.session := by
  induction hr with
  | nil => rfl
  | snoc _ hn ih => exact (next_tasks hn).1.trans ih

/-- The first request that a configured view accepts makes its task. -/
theorem task_of_request {f : Foundation} {videoURL url : URL} {fileExtension : Option String}
    {events : List LoaderEvent} {p : Player}
    (hr : (loader f (.configured videoURL url fileExtension)).Run events p)
    (hrequest : ∃ e ∈ events, e.isRequest = true) : p.task ≠ none := by
  induction hr with
  | nil =>
    obtain ⟨e, he, _⟩ := hrequest
    exact absurd he List.not_mem_nil
  | @snoc events q e p hr hn ih =>
    by_cases htask : q.task = none
    · obtain ⟨e', he', hrequest⟩ := hrequest
      rcases List.mem_append.mp he' with hm | hm
      · exact absurd htask (ih ⟨e', hm, hrequest⟩)
      · obtain rfl := List.mem_singleton.mp hm
        cases e' with
        | shouldWaitForLoading info range =>
          obtain rfl := Option.some.inj hn
          have hurl := (served_configured videoURL url fileExtension).run_originalURL rfl hr
          have hsession : q.session ≠ none := (run_session hr).trans_ne (Option.some_ne_none 0)
          exact Player.startTask_task hurl hsession
        | didCancel | didReceiveResponse | didReceiveData | runConfigureBlock => cases hrequest
    · exact ((next_tasks hn).2 htask).2.trans_ne htask

/-- A failed download. When the download that a configured view has started for some request
ends with an error, nothing is stored and the buffer keeps the part received; the pending
requests are finished only if there are none; the view never makes another task, so it is never
left in a retryable state. -/
theorem failed_download_not_retryable (f : Foundation) (videoURL url : URL)
    (fileExtension : Option String) (before : List LoaderEvent) (p : Player)
    (hr : (loader f (.configured videoURL url fileExtension)).Run before p)
    (hrequest : ∃ e ∈ before, e.isRequest = true) (error : String) :
    ∃ p', p.didCompleteWithError (some error) = some p' ∧ p'.stores = p.stores ∧
      p'.videoData = some (downloaded before) ∧
      (FinishesPending p p' ↔ p.loadingRequests = []) ∧
      (∀ after q, (loader f p').Run after q → q.tasks = p.tasks ∧ q.task = p.task) ∧
      ¬ RetryableAfter f p p' := by
  have htask := task_of_request hr hrequest
  have hserved := (served_configured videoURL url fileExtension).of_run hr
  refine ⟨p, rfl, rfl, hserved.videoData, ?_, fun after q => run_tasks htask, fun h => ?_⟩
  · constructor
    · exact fun h => List.eq_nil_iff_forall_not_mem.mpr fun id hid => (h id hid).1 hid
    · intro h id hid
      rw [h] at hid
      cases hid
  · obtain ⟨task, htasks, _⟩ := h.retry [] p (by simp) .nil rfl none none
    rw [Player.shouldWaitForLoading, Player.startTask_eq_self (Or.inl htask)] at htasks
    exact absurd (congrArg List.length htasks) (by simp)

/-- A request for two bytes, of which one arrives. -/
theorem failed_download_not_retryable_oneOfTwoBytes : ∃ p p',
    (loader .plain (.configured ⟨"httpsstreaming:v"⟩ ⟨"https:v"⟩ (some "mp4"))).Run
        [.shouldWaitForLoading none (some ⟨0, 2, by decide, by decide, by decide⟩),
          .didReceiveData [7]] p ∧
      p.didCompleteWithError (some "timed out") = some p' ∧ p'.videoData = some [7] ∧
      ¬ RetryableAfter .plain p p' := by
  have hrun : (loader .plain (.configured ⟨"httpsstreaming:v"⟩ ⟨"https:v"⟩ (some "mp4"))).Run
      [.shouldWaitForLoading none (some ⟨0, 2, by decide, by decide, by decide⟩),
        .didReceiveData [7]] _ := Machine.run_iff_exec.mpr rfl
  obtain ⟨p', hp', _, hdata, _, _, hretry⟩ := failed_download_not_retryable .plain _ _ _ _ _ hrun
    ⟨_, List.mem_cons_self, rfl⟩ "timed out"
  exact ⟨_, p', hrun, hp', hdata, hretry⟩

/-- After the failure the request still waits, and the next request starts no task. -/
theorem failed_download_hangs : ∃ p p',
    (loader .plain (.configured ⟨"httpsstreaming:v"⟩ ⟨"https:v"⟩ (some "mp4"))).Run
        [.shouldWaitForLoading none (some ⟨0, 2, by decide, by decide, by decide⟩),
          .didReceiveData [7]] p ∧
      p.didCompleteWithError (some "timed out") = some p' ∧ p'.loadingRequests = [0] ∧
      (p'.shouldWaitForLoading (.create none none)).tasks = p'.tasks ∧
      ¬ RetryableAfter .plain p p' := by
  refine ⟨_, _, Machine.run_iff_exec.mpr rfl, rfl, rfl, rfl, fun h => ?_⟩
  exact absurd (h.finished 0 (by decide)).1 (by decide)

end TiktokClone
