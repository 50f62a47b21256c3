import TiktokClone.Home.Fetching

/-!
# The feed while it fetches

Every answer with posts publishes all that the view model has accumulated. So what the
controller shows is only ever appended to, even though its data are replaced each time and
arrive late: a row keeps its post. The loading animation tells whether a request is open only
as long as requests do not overlap.
-/

namespace TiktokClone

open Library

/-- The posts that a signal publishes. -/
def HomeSignal.published : HomeSignal → Option (List Post)
  | .posts shown => some shown
  | .isLoading _ | .error _ => none

namespace Fetching

/-- What the controller shows now and will be given by the waiting signals, in order. -/
def stages (s : Fetching) : List (List Post) :=
  s.controller.data :: s.mainScheduler.filterMap HomeSignal.published

end Fetching

/-- Each stage of the data extends the one before, up to what the view model has. -/
structure Accumulates (s : Fetching) : Prop where
  chain : s.stages.Pairwise fun earlier later => earlier <+: later
  docs : ∀ stage ∈ s.stages, stage <+: s.viewModel.docs

section Step

variable {f : Foundation} {s t : Fetching} {e : FetchEvent}

/-- New signals publish nothing, or all that the view model has by then. -/
theorem Accumulates.emit (h : Accumulates s) {vm : HomeViewModel} {signals : List HomeSignal}
    (hsignals : vm.signals = s.viewModel.signals ++ signals)
    (hdocs : s.viewModel.docs <+: vm.docs)
    (hpublished : signals.filterMap HomeSignal.published = [] ∨
      signals.filterMap HomeSignal.published = [vm.docs]) : Accumulates (s.emit vm) := by
  have hstages : (s.emit vm).stages = s.stages ∨
      (s.emit vm).stages = s.stages ++ [vm.docs] := by
    have hsub : ((signals.filter fun signal => s.observed signal.subject).filterMap
        HomeSignal.published).Sublist [vm.docs] := by
      refine (List.filter_sublist.filterMap _).trans ?_
      rcases hpublished with he | he
      · rw [he]
        exact List.nil_sublist _
      · rw [he]
    rw [Fetching.stages, Fetching.stages, Fetching.emit, hsignals, List.drop_left,
      List.filterMap_append, ← List.cons_append]
    rcases List.sublist_singleton.mp hsub with he | he
    · exact Or.inl (by rw [he, List.append_nil])
    · exact Or.inr (by rw [he])
  have hold : ∀ stage ∈ s.stages, stage <+: vm.docs := fun stage hm => (h.docs stage hm).trans hdocs
  rcases hstages with he | he
  · exact ⟨he ▸ h.chain, he ▸ hold⟩
  · refine ⟨?_, fun stage hm => ?_⟩
    · rw [he, List.pairwise_append]
      refine ⟨h.chain, List.pairwise_singleton _ _, fun stage hm last hlast => ?_⟩
      rw [List.mem_singleton.mp hlast]
      exact hold stage hm
    · rw [he, List.mem_append, List.mem_singleton] at hm
      rcases hm with hm | rfl
      · exact hold stage hm
      · exact List.prefix_refl _

/-- Executing the first waiting signal moves to the next stage, or stays. -/
theorem stages_runMain (hn : (fetching f).next s .runMain = some t) :
    s.stages = t.stages ∨ s.stages = s.controller.data :: t.stages := by
  simp only [fetching] at hn
  split at hn
  · cases hn
  · rename_i signal rest hqueue
    obtain rfl := Option.some.inj hn
    rw [Fetching.stages, hqueue]
    cases signal with
    | posts posts => exact Or.inr rfl
    | isLoading value => cases value <;> exact Or.inl rfl
    | error err => exact Or.inl rfl

/-- A subscription replays the loading flag at most. -/
theorem stages_subscribe (s : Fetching) (subject : HomeSubject) :
    (s.subscribe subject).stages = s.stages := by
  rw [Fetching.stages, Fetching.subscribe, List.filterMap_append]
  cases subject <;> simp [HomeViewModel.replay, HomeSignal.published, Fetching.stages]

theorem Accumulates.next (h : Accumulates s) (hn : (fetching f).next s e = some t) :
    Accumulates t ∧ s.controller.data <+: t.controller.data := by
  cases e with
  | getPosts pageNumber size =>
    obtain rfl := Option.some.inj hn
    have hsignals : s.viewModel.getPosts.signals = s.viewModel.signals ++ [.isLoading true] := rfl
    have ht := h.emit hsignals (List.prefix_refl _) (Or.inl rfl)
    exact ⟨⟨ht.chain, ht.docs⟩, List.prefix_refl _⟩
  | answered i snapshot error =>
    obtain ⟨requests, rfl⟩ := answered_eq_some hn
    suffices ht : Accumulates (s.emit (s.viewModel.getPostsByPagesCompletion f snapshot error)) from
      ⟨⟨ht.chain, ht.docs⟩, List.prefix_refl _⟩
    cases error with
    | some error =>
      have hsignals : (s.viewModel.getPostsFailure error).signals =
          s.viewModel.signals ++ [.isLoading false, .error error] := rfl
      exact h.emit hsignals (List.prefix_refl _) (Or.inl rfl)
    | none =>
      cases snapshot with
      | some documents =>
        have hsignals : (s.viewModel.getPostsSuccess f documents).signals = s.viewModel.signals ++
            [.posts (s.viewModel.getPostsSuccess f documents).docs, .isLoading false] := rfl
        exact h.emit hsignals (List.prefix_append _ _) (Or.inr rfl)
      | none =>
        have hsignals : s.viewModel.signals = s.viewModel.signals ++ [] :=
          (List.append_nil _).symm
        exact h.emit hsignals (List.prefix_refl _) (Or.inl rfl)
  | subscribe subject =>
    obtain ⟨_, ht⟩ := Option.ite_none_left_eq_some.mp hn
    obtain rfl := Option.some.inj ht
    refine ⟨⟨?_, ?_⟩, List.prefix_refl _⟩
    · rw [stages_subscribe]
      exact h.chain
    · rw [stages_subscribe]
      exact h.docs
  | runMain =>
    obtain ⟨_, hviewModel, _⟩ := runMain_eq_some hn
    rcases stages_runMain hn with he | he
    · have hdata := (List.cons.inj he).1
      refine ⟨⟨he ▸ h.chain, ?_⟩, hdata ▸ List.prefix_refl _⟩
      rw [hviewModel, ← he]
      exact h.docs
    · have hchain := h.chain
      rw [he, List.pairwise_cons] at hchain
      refine ⟨⟨hchain.2, fun stage hm => ?_⟩, hchain.1 _ List.mem_cons_self⟩
      rw [hviewModel]
      exact h.docs stage (he ▸ List.mem_cons_of_mem _ hm)

theorem accumulates_start : Accumulates (fetching f).start where
  chain := List.pairwise_singleton _ _
  docs stage hm := by
    rw [List.mem_singleton.mp hm]
    exact List.nil_prefix

theorem Accumulates.of_reachable (h : (fetching f).Reachable s) : Accumulates s := by
  obtain ⟨_, hrun⟩ := h
  exact hrun.invariant accumulates_start fun _ _ _ hs hn => (hs.next hn).1

/-- Rows keep their posts. From any state of the feed on, whatever requests, answers and
subscriptions follow and however late the main scheduler is, what the controller shows is only
appended to, and it is always a beginning of what the view model has accumulated. -/
theorem shown_posts_only_grow (h : (fetching f).Reachable s) {events : List FetchEvent}
    (hrun : ((fetching f).startAt s).Run events t) :
    s.controller.data <+: t.controller.data ∧ t.controller.data <+: t.viewModel.docs := by
  have hs := Accumulates.of_reachable h
  have ht : Accumulates t ∧ s.controller.data <+: t.controller.data :=
    hrun.invariant (I := fun t => Accumulates t ∧ s.controller.data <+: t.controller.data)
      ⟨hs, List.prefix_refl _⟩ fun _ _ _ hI hn => by
        obtain ⟨hnext, hgrow⟩ := hI.1.next hn
        exact ⟨hnext, hI.2.trans hgrow⟩
  exact ⟨ht.2, ht.1.docs _ List.mem_cons_self⟩

/-- The controller observes everything before the first answer arrives. -/
def openedFeed : List FetchEvent :=
  [.subscribe .posts, .subscribe .isLoading, .subscribe .error, .runMain]

/-- One post arrives. -/
def firstPosts : List FetchEvent :=
  [.answered 0 (some [⟨"d", VideoPostRequest.publishedData samplePost ⟨"https://a/v"⟩⟩]) none,
    .runMain, .runMain]

theorem shown_posts_only_grow_firstPosts : ∃ s t : Fetching, s.controller.data.length = 0 ∧
    t.controller.data.length = 1 ∧
      s.controller.data <+: t.controller.data ∧ t.controller.data <+: t.viewModel.docs := by
  obtain ⟨s, hs, hbefore⟩ : ∃ s, (fetching .plain).Run openedFeed s ∧
      s.controller.data.length = 0 := ⟨_, Machine.run_iff_exec.mpr rfl, rfl⟩
  obtain ⟨t, ht, hafter⟩ : ∃ t, (fetching .plain).Run (openedFeed ++ firstPosts) t ∧
      t.controller.data.length = 1 := ⟨_, Machine.run_iff_exec.mpr rfl, rfl⟩
  obtain ⟨u, hu, hrun⟩ := Machine.run_append_iff.mp ht
  obtain rfl := hs.unique hu
  exact ⟨s, t, hbefore, hafter, shown_posts_only_grow ⟨_, hs⟩ hrun⟩

/-! ### The loading animation -/

/-- The loading flag tells whether a request is open. -/
def LoadingTruthful (s : Fetching) : Prop := s.viewModel.isLoading = true ↔ s.requests ≠ []

/-- An answer with posts or an error is to the only open request; an answer with neither, which
the view model does not hear of, leaves another request open. -/
def ToOnlyRequest (s : Fetching) : FetchEvent → Prop
  | .answered _ none none => 2 ≤ s.requests.length
  | .answered .. => s.requests.length = 1
  | .getPosts .. | .subscribe _ | .runMain => True

/-- The flag after a completion of the query. -/
theorem isLoading_completion (f : Foundation) (vm : HomeViewModel)
    (snapshot : Option (List Document)) (error : Option String) :
    (vm.getPostsByPagesCompletion f snapshot error).isLoading =
      if snapshot = none ∧ error = none then vm.isLoading else false := by
  rw [HomeViewModel.isLoading]
  cases error with
  | some error => simp [HomeViewModel.getPostsByPagesCompletion, HomeViewModel.getPostsFailure,
      HomeSignal.loading]
  | none =>
    cases snapshot with
    | some documents => simp [HomeViewModel.getPostsByPagesCompletion,
        HomeViewModel.getPostsSuccess, HomeSignal.loading]
    | none => simp [HomeViewModel.getPostsByPagesCompletion, HomeViewModel.isLoading]

theorem LoadingTruthful.answered_iff (h : LoadingTruthful s) {i : Nat}
    {snapshot : Option (List Document)} {error : Option String}
    (hn : (fetching f).next s (.answered i snapshot error) = some t) :
    LoadingTruthful t ↔ ToOnlyRequest s (.answered i snapshot error) := by
  simp only [fetching] at hn
  split at hn
  · cases hn
  · rename_i pageNumber size hrequest
    obtain ⟨_, ht⟩ := Option.ite_none_right_eq_some.mp hn
    obtain rfl := Option.some.inj ht
    have hlt : i < s.requests.length := (List.getElem?_eq_some_iff.mp hrequest).1
    have hloading : s.viewModel.isLoading = true :=
      h.mpr (List.ne_nil_of_length_pos (Nat.zero_lt_of_lt hlt))
    have hlength := List.length_eraseIdx_of_lt hlt
    change ((s.viewModel.getPostsByPagesCompletion f snapshot error).isLoading = true ↔
      s.requests.eraseIdx i ≠ []) ↔ _
    rw [isLoading_completion, ← List.length_pos_iff, hlength]
    cases error with
    | some error => cases snapshot <;> simp [ToOnlyRequest] <;> omega
    | none =>
      cases snapshot with
      | some documents => simp [ToOnlyRequest]; omega
      | none => simp [ToOnlyRequest, hloading]; omega

theorem LoadingTruthful.next_iff (h : LoadingTruthful s) (hn : (fetching f).next s e = some t) :
    LoadingTruthful t ↔ ToOnlyRequest s e := by
  cases e with
  | getPosts pageNumber size =>
    obtain rfl := Option.some.inj hn
    refine iff_of_true (iff_of_true ?_ (List.append_ne_nil_of_right_ne_nil _ nofun)) trivial
    change (s.viewModel.signals ++ [HomeSignal.isLoading true]).foldl HomeSignal.loading true = true
    rw [List.foldl_append]
    rfl
  | answered i snapshot error => exact h.answered_iff hn
  | subscribe subject =>
    obtain ⟨_, ht⟩ := Option.ite_none_left_eq_some.mp hn
    obtain rfl := Option.some.inj ht
    exact iff_of_true h trivial
  | runMain =>
    simp only [fetching] at hn
    split at hn
    · cases hn
    · obtain rfl := Option.some.inj hn
      exact iff_of_true h trivial

/-- The loading animation. In all states of a run the loading flag tells whether a request is
open if and only if no two requests are open when one of them is answered, save for answers
with neither posts nor error, which are only harmless then. The animation of a controller that
observes the flag shows it as soon as nothing waits on the main scheduler. -/
theorem loading_truthful_iff {events : List FetchEvent} (h : (fetching f).Run events s) :
    ((fetching f).AllStates LoadingTruthful events ↔
        (fetching f).AllSteps ToOnlyRequest events) ∧
      (s.observed .isLoading = true → s.mainScheduler = [] →
        s.controller.loadingAnimation.isPlaying = s.viewModel.isLoading) := by
  have hstart : LoadingTruthful (fetching f).start := iff_of_true rfl (List.cons_ne_nil _ _)
  refine ⟨h.allStates_iff_allSteps hstart fun _ _ _ _ hs hn => hs.next_iff hn,
    fun ho hqueue => ?_⟩
  have hshown := loadingShown_of_run h ho
  rwa [Fetching.eventual, hqueue] at hshown

end Step

theorem loading_truthful_iff_firstPosts : ∃ s : Fetching,
    ((fetching .plain).AllStates LoadingTruthful (openedFeed ++ firstPosts) ↔
        (fetching .plain).AllSteps ToOnlyRequest (openedFeed ++ firstPosts)) ∧
      s.viewModel.isLoading = false ∧ s.controller.loadingAnimation.isPlaying = false := by
  obtain ⟨s, hs, ho, hqueue, hloading⟩ : ∃ s,
      (fetching .plain).Run (openedFeed ++ firstPosts) s ∧ s.observed .isLoading = true ∧
        s.mainScheduler = [] ∧ s.viewModel.isLoading = false :=
    ⟨_, Machine.run_iff_exec.mpr rfl, rfl, rfl, rfl⟩
  obtain ⟨htruthful, hanimation⟩ := loading_truthful_iff hs
  exact ⟨s, htruthful, hloading, (hanimation ho hqueue).trans hloading⟩

end TiktokClone
