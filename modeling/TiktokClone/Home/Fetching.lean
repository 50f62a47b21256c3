import Mathlib.Algebra.Order.Ring.Unbundled.Rat
import Mathlib.Logic.Function.Basic
import TiktokClone.Library.Machine
import TiktokClone.Library.PublishSubject
import TiktokClone.Post.Publishing

/-!
# Fetching the posts of the feed

The view model asks for posts from its initializer on, the answers come in any order, and
the controller subscribes to the three subjects in between. What a subject passes on waits
for the main scheduler. The posts and the errors are published to the observers present
only, so it depends on the order of answers and subscriptions whether they arrive.
-/

namespace TiktokClone

open Library

/-- The subjects of the home view model. -/
inductive HomeSubject
  | posts
  | isLoading
  | error
  deriving DecidableEq, Repr

/-- The subject that is given a signal. -/
def HomeSignal.subject : HomeSignal → HomeSubject
  | isLoading _ => .isLoading
  | posts _ => .posts
  | error _ => .error

/-- The value of the behavior subject after a signal. -/
def HomeSignal.loading (value : Bool) : HomeSignal → Bool
  | isLoading next => next
  | posts _ | error _ => value

namespace HomeViewModel

/-- The latest value of the behavior subject `isLoading`. -/
def isLoading (vm : HomeViewModel) : Bool := vm.signals.foldl HomeSignal.loading true

/-- What a new observer is given at once: a publish subject keeps nothing for it. -/
def replay (vm : HomeViewModel) : HomeSubject → List HomeSignal
  | .isLoading => [.isLoading vm.isLoading]
  | .posts | .error => []

/-- The completion of the query that `getPosts` makes. -/
def getPostsByPagesCompletion (f : Foundation) (vm : HomeViewModel)
    (snapshot : Option (List Document)) (error : Option String) : HomeViewModel :=
  match error, snapshot with
  | some error, _ => vm.getPostsFailure error
  | none, some documents => vm.getPostsSuccess f documents
  | none, none => vm

/-- A completion only adds signals. -/
theorem completion_signals (f : Foundation) (vm : HomeViewModel)
    (snapshot : Option (List Document)) (error : Option String) :
    ∃ signals, (vm.getPostsByPagesCompletion f snapshot error).signals = vm.signals ++ signals := by
  cases error with
  | some error => exact ⟨_, rfl⟩
  | none =>
    cases snapshot with
    | some documents => exact ⟨_, rfl⟩
    | none => exact ⟨[], (List.append_nil _).symm⟩

end HomeViewModel

structure AnimationView where
  alpha : Rat
  isPlaying : Bool

/-- The fields of the controller that the subscriptions of `setupBinding` write. -/
structure HomeBinding where
  data : List Post
  /-- The number of calls of `mainTableView.reloadData`. -/
  reloads : Nat
  loadingAnimation : AnimationView
  /-- The messages of the alerts shown. -/
  alerts : List String

/-- The closures of `setupBinding`. -/
def HomeBinding.onNext (c : HomeBinding) : HomeSignal → HomeBinding
  | .posts posts => { c with data := posts, reloads := c.reloads + 1 }
  | .isLoading isLoading =>
    if isLoading then { c with loadingAnimation := ⟨1, true⟩ }
    else { c with loadingAnimation := ⟨0, false⟩ }
  | .error err => { c with alerts := c.alerts ++ [err] }

/-- The view model, its open requests, and the controller with what waits for it. -/
structure Fetching where
  viewModel : HomeViewModel
  /-- Page number and size of every request without an answer. -/
  requests : List (Int × Int)
  /-- The subjects that the controller has subscribed to. -/
  observed : HomeSubject → Bool
  /-- The signals that wait on the main scheduler. -/
  mainScheduler : List HomeSignal
  controller : HomeBinding

inductive FetchEvent
  | getPosts (pageNumber size : Int)
  /-- The database answers the request at a position. -/
  | answered (i : Nat) (snapshot : Option (List Document)) (error : Option String)
  /-- One of the subscriptions of `setupBinding`. -/
  | subscribe (subject : HomeSubject)
  /-- The main scheduler executes its first action. -/
  | runMain

namespace Fetching

/-- The view model gives its subjects new signals, which reach the observers present. -/
def emit (s : Fetching) (vm : HomeViewModel) : Fetching :=
  { s with
    viewModel := vm
    mainScheduler := s.mainScheduler ++
      (vm.signals.drop s.viewModel.signals.length).filter fun signal => s.observed signal.subject }

def subscribe (s : Fetching) (subject : HomeSubject) : Fetching :=
  { s with
    observed := Function.update s.observed subject true
    mainScheduler := s.mainScheduler ++ s.viewModel.replay subject }

end Fetching

/-- The feed from the initializers on. An answer holds documents of the requested pages only. -/
def fetching (f : Foundation) : Machine Fetching FetchEvent where
  start := ⟨.initial, [(1, 10)], fun _ => false, [], ⟨[], 0, ⟨1, false⟩, []⟩⟩
  next s
    | .getPosts pageNumber size => some { s.emit s.viewModel.getPosts with
        requests := s.requests ++ [(pageNumber, size)] }
    | .answered i snapshot error =>
      match s.requests[i]? with
      | none => none
      | some (pageNumber, size) =>
        if snapshot.all (·.all fun d => PostsRequest.matchesPage pageNumber size d.data) then
          some { s.emit (s.viewModel.getPostsByPagesCompletion f snapshot error) with
            requests := s.requests.eraseIdx i }
        else none
    | .subscribe subject => if s.observed subject then none else some (s.subscribe subject)
    | .runMain =>
      match s.mainScheduler with
      | [] => none
      | signal :: rest => some { s with
          controller := s.controller.onNext signal, mainScheduler := rest }

namespace FetchEvent

def subscribesTo (subject : HomeSubject) : FetchEvent → Bool
  | subscribe other => decide (other = subject)
  | getPosts .. | answered .. | runMain => false

/-- The documents of a successful answer. -/
def documents : FetchEvent → Option (List Document)
  | answered _ snapshot none => snapshot
  | answered _ _ (some _) | getPosts .. | subscribe _ | runMain => none

/-- The error of a failed answer. -/
def failure : FetchEvent → Option String
  | answered _ _ error => error
  | getPosts .. | subscribe _ | runMain => none

end FetchEvent

/-- The controller has subscribed and every answer has been delivered. -/
structure Delivered (s : Fetching) : Prop where
  observed : ∀ subject, s.observed subject = true
  requests : s.requests = []
  mainScheduler : s.mainScheduler = []

/-- The controller shows the posts that the view model has accumulated, and it has been given
every error once. -/
structure NothingLost (events : List FetchEvent) (s : Fetching) : Prop where
  posts : s.controller.data = s.viewModel.docs
  errors : s.controller.alerts = events.filterMap FetchEvent.failure

/-- A successful answer comes after the subscription to the posts, or none has documents. -/
def PostsInTime (events : List FetchEvent) : Prop :=
  (∃ before after, events = before ++ .subscribe .posts :: after ∧
    ∃ e ∈ after, e.documents.isSome = true) ∨
  ∀ e ∈ events, ∀ documents, e.documents = some documents → documents = []

/-- The subscription to the errors comes before every failed answer. -/
def ErrorsInTime (events : List FetchEvent) : Prop :=
  ∃ before after, events = before ++ .subscribe .error :: after ∧ ∀ e ∈ before, e.failure = none

/-- The subject of the posts, by the documents of the answers. -/
def postsSubject : PublishSubject FetchEvent (List Document) where
  subscribes := FetchEvent.subscribesTo .posts
  onNext := FetchEvent.documents
  disjoint e h := by
    cases e with
    | subscribe _ => rfl
    | getPosts _ _ | answered _ _ _ | runMain => cases h

def errorSubject : PublishSubject FetchEvent String where
  subscribes := FetchEvent.subscribesTo .error
  onNext := FetchEvent.failure
  disjoint e h := by
    cases e with
    | subscribe _ => rfl
    | getPosts _ _ | answered _ _ _ | runMain => cases h

/-- A signal reaches the controller if it has subscribed. -/
def HomeBinding.offer (observed : HomeSubject → Bool) (c : HomeBinding) (signal : HomeSignal) :
    HomeBinding :=
  if observed signal.subject then c.onNext signal else c

section Offer

variable (observed : HomeSubject → Bool) (c : HomeBinding) (posts : List Post) (isLoading : Bool)
  (err : String)

@[simp] theorem HomeBinding.offer_posts_data :
    (c.offer observed (.posts posts)).data = if observed .posts then posts else c.data := by
  rw [offer, HomeSignal.subject]
  split <;> rfl

@[simp] theorem HomeBinding.offer_isLoading_data :
    (c.offer observed (.isLoading isLoading)).data = c.data := by
  cases isLoading <;> rw [offer] <;> split <;> rfl

@[simp] theorem HomeBinding.offer_error_data : (c.offer observed (.error err)).data = c.data := by
  rw [offer]
  split <;> rfl

@[simp] theorem HomeBinding.offer_posts_alerts :
    (c.offer observed (.posts posts)).alerts = c.alerts := by
  rw [offer]
  split <;> rfl

@[simp] theorem HomeBinding.offer_isLoading_alerts :
    (c.offer observed (.isLoading isLoading)).alerts = c.alerts := by
  cases isLoading <;> rw [offer] <;> split <;> rfl

@[simp] theorem HomeBinding.offer_error_alerts : (c.offer observed (.error err)).alerts =
    c.alerts ++ if observed .error then [err] else [] := by
  rw [offer, HomeSignal.subject]
  split
  · rfl
  · exact (List.append_nil _).symm

end Offer

namespace Fetching

/-- The controller once everything that waits for it has been executed. -/
def eventual (s : Fetching) : HomeBinding := s.mainScheduler.foldl HomeBinding.onNext s.controller

theorem emit_eventual {s : Fetching} {vm : HomeViewModel} {signals : List HomeSignal}
    (h : vm.signals = s.viewModel.signals ++ signals) :
    (s.emit vm).eventual = signals.foldl (HomeBinding.offer s.observed) s.eventual := by
  rw [eventual, emit, h, List.drop_left, List.foldl_append, List.foldl_filter]
  rfl

/-- Only the loading flag is replayed to a new observer. -/
theorem subscribe_eventual (s : Fetching) (subject : HomeSubject) :
    (s.subscribe subject).eventual.data = s.eventual.data ∧
      (s.subscribe subject).eventual.alerts = s.eventual.alerts := by
  rw [eventual, subscribe, List.foldl_append]
  cases subject with
  | posts | error => exact ⟨rfl, rfl⟩
  | isLoading =>
    rw [HomeViewModel.replay, List.foldl_cons, List.foldl_nil, HomeBinding.onNext]
    split <;> exact ⟨rfl, rfl⟩

end Fetching

/-- What a step does to the observers, the accumulated posts and the controller. -/
structure FetchStep (f : Foundation) (s : Fetching) (e : FetchEvent) (t : Fetching) : Prop where
  observed : ∀ subject, t.observed subject = (s.observed subject || e.subscribesTo subject)
  docs : t.viewModel.docs = s.viewModel.docs ++ (e.documents.getD []).map (HomeViewModel.post f)
  data : t.eventual.data =
    if s.observed .posts && e.documents.isSome then t.viewModel.docs else s.eventual.data
  alerts : t.eventual.alerts =
    s.eventual.alerts ++ if s.observed .error then e.failure.toList else []

/-- The posts that the history has accumulated, and what the controller has got of it. -/
structure Fetched (f : Foundation) (events : List FetchEvent) (s : Fetching) : Prop where
  observed : ∀ subject, s.observed subject = events.any (FetchEvent.subscribesTo subject)
  docs : s.viewModel.docs =
    (postsSubject.published events).flatten.map (HomeViewModel.post f)
  data : s.eventual.data =
    if postsSubject.received events = [] then [] else s.viewModel.docs
  alerts : s.eventual.alerts = errorSubject.received events

section Step

variable {f : Foundation} {events : List FetchEvent} {s t : Fetching} {e : FetchEvent}

/-- The view model hears an answer, and its request is closed. -/
theorem answered_eq_some {i : Nat} {snapshot : Option (List Document)} {error : Option String}
    (hn : (fetching f).next s (.answered i snapshot error) = some t) :
    ∃ requests, t = { s.emit (s.viewModel.getPostsByPagesCompletion f snapshot error) with
      requests := requests } := by
  simp only [fetching] at hn
  split at hn
  · cases hn
  · obtain ⟨_, ht⟩ := Option.ite_none_right_eq_some.mp hn
    exact ⟨_, (Option.some.inj ht).symm⟩

/-- The first of the waiting signals is executed. -/
theorem runMain_eq_some (hn : (fetching f).next s .runMain = some t) :
    t.observed = s.observed ∧ t.viewModel = s.viewModel ∧ t.eventual = s.eventual := by
  simp only [fetching] at hn
  split at hn
  · cases hn
  · rename_i signal rest hqueue
    obtain rfl := Option.some.inj hn
    refine ⟨rfl, rfl, ?_⟩
    rw [Fetching.eventual, Fetching.eventual, hqueue, List.foldl_cons]

theorem fetchStep_answered {i : Nat} {snapshot : Option (List Document)} {error : Option String}
    (hn : (fetching f).next s (.answered i snapshot error) = some t) :
    FetchStep f s (.answered i snapshot error) t := by
  obtain ⟨requests, rfl⟩ := answered_eq_some hn
  have hsame : ∀ subject, s.observed subject =
      (s.observed subject || FetchEvent.subscribesTo subject (.answered i snapshot error)) :=
    fun subject => (Bool.or_false _).symm
  cases error with
  | some error =>
    have hsignals : (s.viewModel.getPostsFailure error).signals =
        s.viewModel.signals ++ [.isLoading false, .error error] := rfl
    have heventual := Fetching.emit_eventual hsignals
    refine ⟨hsame, (List.append_nil _).symm, ?_, ?_⟩
    · exact (congrArg HomeBinding.data heventual).trans (by simp [FetchEvent.documents])
    · exact (congrArg HomeBinding.alerts heventual).trans (by simp [FetchEvent.failure])
  | none =>
    cases snapshot with
    | some documents =>
      have hsignals : (s.viewModel.getPostsSuccess f documents).signals = s.viewModel.signals ++
          [.posts (s.viewModel.getPostsSuccess f documents).docs, .isLoading false] := rfl
      have heventual := Fetching.emit_eventual hsignals
      refine ⟨hsame, rfl, ?_, ?_⟩
      · refine (congrArg HomeBinding.data heventual).trans ?_
        rw [FetchEvent.documents, Option.isSome_some, Bool.and_true, List.foldl_cons,
          List.foldl_cons, List.foldl_nil, HomeBinding.offer_isLoading_data,
          HomeBinding.offer_posts_data]
        rfl
      · exact (congrArg HomeBinding.alerts heventual).trans (by simp [FetchEvent.failure])
    | none =>
      have hsignals : s.viewModel.signals = s.viewModel.signals ++ [] := (List.append_nil _).symm
      have heventual := Fetching.emit_eventual hsignals
      refine ⟨hsame, (List.append_nil _).symm, ?_, ?_⟩
      · exact (congrArg HomeBinding.data heventual).trans (by simp [FetchEvent.documents])
      · exact (congrArg HomeBinding.alerts heventual).trans (by simp [FetchEvent.failure])

/-- A step that answers nothing. -/
theorem fetchStep_of_silent (hdocuments : e.documents = none) (hfailure : e.failure = none)
    (hobserved : ∀ subject, t.observed subject = (s.observed subject || e.subscribesTo subject))
    (hdocs : t.viewModel.docs = s.viewModel.docs) (hdata : t.eventual.data = s.eventual.data)
    (halerts : t.eventual.alerts = s.eventual.alerts) : FetchStep f s e t where
  observed := hobserved
  docs := by simp [hdocuments, hdocs]
  data := by simp [hdocuments, hdata]
  alerts := by simp [hfailure, halerts]

theorem fetchStep_of_next (hn : (fetching f).next s e = some t) : FetchStep f s e t := by
  cases e with
  | getPosts pageNumber size =>
    obtain rfl := Option.some.inj hn
    have hsignals : s.viewModel.getPosts.signals = s.viewModel.signals ++ [.isLoading true] := rfl
    have heventual := Fetching.emit_eventual hsignals
    refine fetchStep_of_silent rfl rfl (fun _ => (Bool.or_false _).symm) rfl ?_ ?_
    · exact (congrArg HomeBinding.data heventual).trans (HomeBinding.offer_isLoading_data _ _ _)
    · exact (congrArg HomeBinding.alerts heventual).trans (HomeBinding.offer_isLoading_alerts _ _ _)
  | answered i snapshot error => exact fetchStep_answered hn
  | subscribe subject =>
    obtain ⟨_, ht⟩ := Option.ite_none_left_eq_some.mp hn
    obtain rfl := Option.some.inj ht
    obtain ⟨hdata, halerts⟩ := s.subscribe_eventual subject
    refine fetchStep_of_silent rfl rfl (fun other => ?_) rfl hdata halerts
    rw [Fetching.subscribe, FetchEvent.subscribesTo]
    by_cases h : subject = other
    · simp [h]
    · simp [h, Function.update_of_ne (Ne.symm h)]
  | runMain =>
    obtain ⟨hobserved, hviewModel, heventual⟩ := runMain_eq_some hn
    refine fetchStep_of_silent rfl rfl (fun subject => ?_) (congrArg _ hviewModel)
      (congrArg _ heventual) (congrArg _ heventual)
    rw [hobserved, FetchEvent.subscribesTo, Bool.or_false]

theorem fetched_start : Fetched f [] (fetching f).start :=
  ⟨fun _ => rfl, rfl, rfl, rfl⟩

theorem Fetched.next (h : Fetched f events s) (hstep : FetchStep f s e t) :
    Fetched f (events ++ [e]) t where
  observed subject := by
    rw [hstep.observed, h.observed, List.any_append, List.any_cons, List.any_nil, Bool.or_false]
  docs := by
    rw [hstep.docs, h.docs, PublishSubject.published_concat, List.flatten_append, List.map_append]
    change _ = _ ++ e.documents.toList.flatten.map _
    cases e.documents <;> simp
  data := by
    rw [hstep.data, h.data, PublishSubject.received_concat]
    change _ = if _ ++ (if events.any (FetchEvent.subscribesTo .posts) then
      e.documents.toList else []) = [] then _ else _
    rw [← h.observed]
    cases hobserved : s.observed .posts with
    | false =>
      have hnil : postsSubject.received events = [] :=
        PublishSubject.received_eq_nil ((h.observed .posts).symm.trans hobserved)
      simp [hnil]
    | true =>
      have hdocs := hstep.docs
      cases hdocuments : e.documents with
      | none =>
        rw [hdocuments, Option.getD_none, List.map_nil, List.append_nil] at hdocs
        simp [hdocs]
      | some documents => simp
  alerts := by
    rw [hstep.alerts, h.alerts, PublishSubject.received_concat, h.observed]
    rfl

theorem fetched_of_run (h : (fetching f).Run events s) : Fetched f events s := by
  induction h with
  | nil => exact fetched_start
  | snoc _ hn ih => exact ih.next (fetchStep_of_next hn)

/-- A controller that observes the loading flag shows its value. -/
def LoadingShown (s : Fetching) : Prop :=
  s.observed .isLoading = true → s.eventual.loadingAnimation.isPlaying = s.viewModel.isLoading

theorem offer_loading {observed : HomeSubject → Bool} (ho : observed .isLoading = true)
    (signals : List HomeSignal) {c : HomeBinding} {value : Bool}
    (hc : c.loadingAnimation.isPlaying = value) :
    (signals.foldl (HomeBinding.offer observed) c).loadingAnimation.isPlaying =
      signals.foldl HomeSignal.loading value := by
  induction signals generalizing c value with
  | nil => exact hc
  | cons signal signals ih =>
    refine ih ?_
    cases signal with
    | isLoading next => cases next <;> simp [HomeBinding.offer, HomeSignal.subject, ho] <;> rfl
    | posts _ | error _ =>
      rw [HomeBinding.offer]
      split <;> exact hc

theorem LoadingShown.emit (h : LoadingShown s) {vm : HomeViewModel} {signals : List HomeSignal}
    (hsignals : vm.signals = s.viewModel.signals ++ signals) : LoadingShown (s.emit vm) := by
  intro ho
  have hvm : (s.emit vm).viewModel.isLoading =
      signals.foldl HomeSignal.loading s.viewModel.isLoading := by
    change vm.signals.foldl HomeSignal.loading true = _
    rw [hsignals, List.foldl_append]
    rfl
  rw [Fetching.emit_eventual hsignals, hvm]
  exact offer_loading ho signals (h ho)

theorem LoadingShown.subscribe (h : LoadingShown s) (subject : HomeSubject) :
    LoadingShown (s.subscribe subject) := by
  intro ho
  rw [Fetching.eventual, Fetching.subscribe, List.foldl_append]
  cases subject with
  | posts | error => exact h (by simpa [Fetching.subscribe] using ho)
  | isLoading =>
    rw [HomeViewModel.replay, List.foldl_cons, List.foldl_nil, HomeBinding.onNext]
    cases s.viewModel.isLoading <;> rfl

/-- The loading flag arrives whatever the order: a new observer is given its latest value. -/
theorem loadingShown_of_run (h : (fetching f).Run events s) : LoadingShown s := by
  refine h.invariant (fun ho => absurd ho Bool.false_ne_true) fun s e t hs hn => ?_
  cases e with
  | getPosts pageNumber size =>
    obtain rfl := Option.some.inj hn
    have hsignals : s.viewModel.getPosts.signals = s.viewModel.signals ++ [.isLoading true] := rfl
    exact hs.emit hsignals
  | answered i snapshot error =>
    obtain ⟨requests, rfl⟩ := answered_eq_some hn
    obtain ⟨signals, hsignals⟩ := s.viewModel.completion_signals f snapshot error
    exact hs.emit hsignals
  | subscribe subject =>
    obtain ⟨_, ht⟩ := Option.ite_none_left_eq_some.mp hn
    obtain rfl := Option.some.inj ht
    exact hs.subscribe subject
  | runMain =>
    obtain ⟨hobserved, hviewModel, heventual⟩ := runMain_eq_some hn
    rw [LoadingShown, hobserved, hviewModel, heventual]
    exact hs

end Step

theorem FetchEvent.subscribesTo_iff {subject : HomeSubject} {e : FetchEvent} :
    e.subscribesTo subject = true ↔ e = .subscribe subject := by
  cases e <;> simp [subscribesTo]

/-- All errors are received exactly when the subscription is in time. -/
theorem errorsInTime_iff {events : List FetchEvent} (h : errorSubject.observed events = true) :
    ErrorsInTime events ↔ errorSubject.received events = errorSubject.published events := by
  rw [PublishSubject.received_eq_published_iff h]
  constructor
  · rintro ⟨before, after, rfl, hbefore⟩
    exact ⟨before, _, after, rfl, rfl, PublishSubject.published_eq_nil_iff.mpr hbefore⟩
  · rintro ⟨before, e, after, rfl, he, hbefore⟩
    obtain rfl := FetchEvent.subscribesTo_iff.mp he
    exact ⟨before, after, rfl, PublishSubject.published_eq_nil_iff.mp hbefore⟩

theorem postsInTime_iff {events : List FetchEvent} : PostsInTime events ↔
    postsSubject.received events ≠ [] ∨ (postsSubject.published events).flatten = [] := by
  refine or_congr ?_ ?_
  · rw [PublishSubject.received_ne_nil_iff]
    constructor
    · rintro ⟨before, after, hsplit, hafter⟩
      exact ⟨before, _, after, hsplit, rfl, PublishSubject.published_ne_nil_iff.mpr hafter⟩
    · rintro ⟨before, e, after, hsplit, he, hafter⟩
      obtain rfl := FetchEvent.subscribesTo_iff.mp he
      exact ⟨before, after, hsplit, PublishSubject.published_ne_nil_iff.mp hafter⟩
  · rw [List.flatten_eq_nil_iff]
    constructor
    · intro h documents hdocuments
      obtain ⟨e, he, honNext⟩ := List.mem_filterMap.mp hdocuments
      exact h e he documents honNext
    · intro h e he documents honNext
      exact h documents (List.mem_filterMap.mpr ⟨e, he, honNext⟩)

/-- Where the controller has subscribed and every answer has been delivered, no posts and no
error are lost if and only if the subscriptions came in time for them. -/
theorem no_fetched_posts_lost_iff {f : Foundation} {events : List FetchEvent} {s : Fetching}
    (h : (fetching f).Run events s) (hdelivered : Delivered s) :
    NothingLost events s ↔ PostsInTime events ∧ ErrorsInTime events := by
  have hfetched := fetched_of_run h
  have heventual : s.eventual = s.controller := by
    rw [Fetching.eventual, hdelivered.mainScheduler, List.foldl_nil]
  have hobserved : errorSubject.observed events = true :=
    (hfetched.observed .error).symm.trans (hdelivered.observed .error)
  have hposts : s.controller.data = s.viewModel.docs ↔ PostsInTime events := by
    rw [postsInTime_iff, ← heventual, hfetched.data, hfetched.docs]
    by_cases hnil : postsSubject.received events = []
    · rw [if_pos hnil, or_iff_right (not_not_intro hnil), eq_comm, List.map_eq_nil_iff]
    · exact iff_of_true (if_neg hnil) (Or.inl hnil)
  have herrors : s.controller.alerts = events.filterMap FetchEvent.failure ↔
      ErrorsInTime events := by
    rw [errorsInTime_iff hobserved, ← heventual, hfetched.alerts]
    rfl
  rw [← hposts, ← herrors]
  exact ⟨fun h => ⟨h.posts, h.errors⟩, fun h => ⟨h.1, h.2⟩⟩

/-- The controller subscribes before the first answer comes. -/
def subscribedAtOnce : List FetchEvent :=
  [.subscribe .posts, .subscribe .isLoading, .subscribe .error, .runMain,
    .answered 0 (some [⟨"d", VideoPostRequest.publishedData samplePost ⟨"https://a/v"⟩⟩]) none,
    .runMain, .runMain]

theorem no_fetched_posts_lost_iff_subscribedAtOnce :
    ∃ s, (fetching .plain).Run subscribedAtOnce s ∧
      (NothingLost subscribedAtOnce s ↔
        PostsInTime subscribedAtOnce ∧ ErrorsInTime subscribedAtOnce) := by
  obtain ⟨s, hs, hdelivered⟩ : ∃ s, (fetching .plain).Run subscribedAtOnce s ∧ Delivered s :=
    ⟨_, Machine.run_iff_exec.mpr rfl, fun subject => by cases subject <;> rfl, rfl, rfl⟩
  exact ⟨s, hs, no_fetched_posts_lost_iff hs hdelivered⟩

/-- The answer to the request of the initializer comes before the controller subscribes. -/
def answeredFirst (snapshot : Option (List Document)) (error : Option String) : List FetchEvent :=
  [.answered 0 snapshot error, .subscribe .posts, .subscribe .isLoading, .subscribe .error,
    .runMain]

/-- An answer that comes first is lost, be it posts or an error. -/
theorem early_answer_lost :
    (∃ s, (fetching .plain).Run (answeredFirst
        (some [⟨"d", VideoPostRequest.publishedData samplePost ⟨"https://a/v"⟩⟩]) none) s ∧
      Delivered s ∧ s.controller.data = [] ∧ s.viewModel.docs.length = 1) ∧
    ∃ s, (fetching .plain).Run (answeredFirst none (some "offline")) s ∧
      Delivered s ∧ s.controller.alerts = [] ∧
      ¬ NothingLost (answeredFirst none (some "offline")) s := by
  refine ⟨⟨_, Machine.run_iff_exec.mpr rfl, ⟨fun subject => ?_, rfl, rfl⟩, rfl, rfl⟩,
    _, Machine.run_iff_exec.mpr rfl, ⟨fun subject => ?_, rfl, rfl⟩, rfl, fun h => ?_⟩
  · cases subject <;> rfl
  · cases subject <;> rfl
  · exact absurd h.errors (by decide)

end TiktokClone
