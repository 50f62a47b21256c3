import Mathlib.Data.List.Perm.Basic
import TiktokClone.Library.Filter
import TiktokClone.Library.Machine
import TiktokClone.Post.Publishing

/-!
# Fetching the posts by pages

Calls of `getPosts` with any page numbers and sizes are answered in any order, and every
answer is appended to the accumulated posts. The window of a call runs over page
numbers, not over posts, so two windows overlap easily; what they share is listed twice.
The end of a window is computed when the call is made, and a sum that is no `Int` traps.
-/

namespace TiktokClone

open Library

/-- The arguments of a call of `getPosts`. -/
structure PageCall where
  pageNumber : Int64
  size : Int64
  deriving DecidableEq, Repr

/-- The document lies in the window of the call. -/
def PageCall.matched (call : PageCall) (document : Document) : Bool :=
  PostsRequest.matchesPage call.pageNumber.toInt call.size.toInt document.data

/-- The end of the window of the call is an `Int`. -/
abbrev PageCall.Fits (call : PageCall) : Prop :=
  (PostsRequest.rangeEnd call.pageNumber call.size).isSome = true

/-- The lists that the subject `posts` has been given. -/
def HomeViewModel.emitted (vm : HomeViewModel) : List (List Post) :=
  vm.signals.filterMap fun
    | .posts posts => some posts
    | .isLoading _ | .error _ => none

/-- The view model with its calls that have no answer yet. -/
structure Paging where
  viewModel : HomeViewModel
  requests : List PageCall
  /-- A call has trapped. -/
  trapped : Bool

inductive PagingEvent
  | getPosts (call : PageCall)
  /-- The database answers one such call. -/
  | answered (call : PageCall)
  deriving DecidableEq

namespace Paging

/-- `getPosts(pageNumber:size:)`: the subject `isLoading` has its value before the end of the
range is computed. -/
def getPosts (s : Paging) (call : PageCall) : Paging :=
  match PostsRequest.rangeEnd call.pageNumber call.size with
  | none => { s with viewModel := s.viewModel.getPosts, trapped := true }
  | some _ => { s with viewModel := s.viewModel.getPosts, requests := s.requests ++ [call] }

/-- The database answers one of the open calls. -/
def answered (f : Foundation) (collection : Collection) (s : Paging) (call : PageCall) : Paging :=
  { s with
    viewModel := s.viewModel.getPostsSuccess f
      (PostsRequest.getPostsByPages collection call.pageNumber.toInt call.size.toInt)
    requests := s.requests.erase call }

end Paging

/-- A view model over a collection; `first` is the call that its initializer makes. After a
trap nothing happens. -/
def paging (f : Foundation) (collection : Collection) (first : PageCall) :
    Machine Paging PagingEvent where
  start := Paging.getPosts ⟨⟨[], [.isLoading true]⟩, [], false⟩ first
  next s
    | .getPosts call => if s.trapped then none else some (s.getPosts call)
    | .answered call =>
      if s.trapped = false ∧ call ∈ s.requests then some (s.answered f collection call) else none

/-- The calls made so far, with that of the initializer. -/
def madeCalls (first : PageCall) (events : List PagingEvent) : List PageCall :=
  first :: events.filterMap fun
    | .getPosts call => some call
    | .answered _ => none

/-- The calls answered so far, in the order of their answers. -/
def answeredCalls (events : List PagingEvent) : List PageCall :=
  events.filterMap fun
    | .answered call => some call
    | .getPosts _ => none

/-- The list holds exactly the posts of the documents that one of the calls matches. -/
def ListsMatched (f : Foundation) (collection : Collection) (calls : List PageCall)
    (posts : List Post) : Prop :=
  ∀ post, post ∈ posts ↔ ∃ document ∈ collection,
    (∃ call ∈ calls, call.matched document = true) ∧ HomeViewModel.post f document = post

/-- No call has trapped, every emitted list has each post once, and the last one has all of
them after all answers. -/
structure LoadsOnce (f : Foundation) (collection : Collection) (first : PageCall)
    (events : List PagingEvent) (s : Paging) : Prop where
  untrapped : s.trapped = false
  once : ∀ posts ∈ s.viewModel.emitted, (posts.map Post.id).Nodup
  complete : s.requests = [] → ∃ posts, s.viewModel.emitted.getLast? = some posts ∧
    ListsMatched f collection (madeCalls first events) posts

/-- No document lies in the windows of two of the calls. -/
def DisjointWindows (collection : Collection) (calls : List PageCall) : Prop :=
  calls.Pairwise fun call other =>
    ∀ document ∈ collection, ¬ (call.matched document = true ∧ other.matched document = true)

/-- The view model by the answers so far. -/
structure Paged (f : Foundation) (collection : Collection) (first : PageCall)
    (events : List PagingEvent) (s : Paging) : Prop where
  docs : s.viewModel.docs = (answeredCalls events).flatMap fun call =>
    (collection.filter call.matched).map (HomeViewModel.post f)
  fits : s.trapped = false ↔ ∀ call ∈ madeCalls first events, call.Fits
  calls : s.trapped = false →
    (madeCalls first events).Perm (answeredCalls events ++ s.requests)
  pre : ∀ posts ∈ s.viewModel.emitted, posts <+: s.viewModel.docs
  last : answeredCalls events ≠ [] → s.viewModel.emitted.getLast? = some s.viewModel.docs

namespace HomeViewModel

theorem getPosts_emitted (vm : HomeViewModel) : vm.getPosts.emitted = vm.emitted := by
  rw [emitted, getPosts, List.filterMap_append]
  exact List.append_nil _

theorem getPostsSuccess_emitted (f : Foundation) (vm : HomeViewModel)
    (documents : List Document) : (vm.getPostsSuccess f documents).emitted =
      vm.emitted ++ [vm.docs ++ documents.map (post f)] := by
  rw [emitted, getPostsSuccess, List.filterMap_append]
  rfl

end HomeViewModel

section Step

variable {f : Foundation} {collection : Collection} {first : PageCall}
  {events : List PagingEvent} {s t : Paging} {e : PagingEvent}

/-- A call is made, and it traps if the end of its window is no `Int`. -/
theorem Paging.getPosts_spec (s : Paging) (call : PageCall) :
    (s.getPosts call).viewModel = s.viewModel.getPosts ∧
      (call.Fits ∧ (s.getPosts call).trapped = s.trapped ∧
          (s.getPosts call).requests = s.requests ++ [call] ∨
        ¬ call.Fits ∧ (s.getPosts call).trapped = true) := by
  rw [Paging.getPosts, PageCall.Fits]
  cases PostsRequest.rangeEnd call.pageNumber call.size with
  | none => exact ⟨rfl, Or.inr ⟨by simp, rfl⟩⟩
  | some sum => exact ⟨rfl, Or.inl ⟨rfl, rfl, rfl⟩⟩

theorem paged_start : Paged f collection first [] (paging f collection first).start := by
  have hmade : madeCalls first [] = [first] := rfl
  have hanswered : answeredCalls [] = [] := rfl
  obtain ⟨hvm, hcall⟩ := Paging.getPosts_spec ⟨⟨[], [.isLoading true]⟩, [], false⟩ first
  change Paged f collection first [] (Paging.getPosts ⟨⟨[], [.isLoading true]⟩, [], false⟩ first)
  refine ⟨?_, ?_, fun hfits => ?_, ?_, fun h => absurd hanswered h⟩
  · rw [hvm, hanswered]
    rfl
  · rw [hmade, List.forall_mem_singleton]
    rcases hcall with ⟨hfits, htrapped, _⟩ | ⟨hfits, htrapped⟩
    · exact iff_of_true htrapped hfits
    · exact iff_of_false (by simp [htrapped]) hfits
  · rcases hcall with ⟨_, _, hrequests⟩ | ⟨_, htrapped⟩
    · rw [hmade, hanswered, hrequests]
      exact List.Perm.refl _
    · cases hfits.symm.trans htrapped
  · rw [hvm]
    exact fun _ h => absurd h List.not_mem_nil

theorem Paged.getPosts (h : Paged f collection first events s) (hs : s.trapped = false)
    (call : PageCall) :
    Paged f collection first (events ++ [.getPosts call]) (s.getPosts call) := by
  have hanswered : answeredCalls (events ++ [.getPosts call]) = answeredCalls events := by
    rw [answeredCalls, List.filterMap_append]
    exact List.append_nil _
  have hmade : madeCalls first (events ++ [.getPosts call]) = madeCalls first events ++ [call] := by
    rw [madeCalls, List.filterMap_append]
    rfl
  obtain ⟨hvm, hcall⟩ := s.getPosts_spec call
  refine ⟨?_, ?_, fun htrapped => ?_, ?_, ?_⟩
  · rw [hanswered, hvm]
    exact h.docs
  · have hold := h.fits.mp hs
    rw [hmade, List.forall_mem_append, List.forall_mem_singleton]
    rcases hcall with ⟨hfits, htrapped, _⟩ | ⟨hfits, htrapped⟩
    · exact iff_of_true (htrapped.trans hs) ⟨hold, hfits⟩
    · exact iff_of_false (by simp [htrapped]) fun hall => hfits hall.2
  · rcases hcall with ⟨_, _, hrequests⟩ | ⟨_, htrap⟩
    · rw [hanswered, hmade, hrequests, ← List.append_assoc]
      exact (h.calls hs).append_right [call]
    · cases htrapped.symm.trans htrap
  · rw [hvm, HomeViewModel.getPosts_emitted]
    exact h.pre
  · rw [hanswered, hvm, HomeViewModel.getPosts_emitted]
    exact h.last

theorem Paged.answered (h : Paged f collection first events s) {call : PageCall}
    (hcall : call ∈ s.requests) :
    Paged f collection first (events ++ [.answered call]) (s.answered f collection call) := by
  have hanswered : answeredCalls (events ++ [.answered call]) = answeredCalls events ++ [call] := by
    rw [answeredCalls, List.filterMap_append]
    rfl
  have hmade : madeCalls first (events ++ [.answered call]) = madeCalls first events := by
    rw [madeCalls, List.filterMap_append]
    exact congrArg (first :: ·) (List.append_nil _)
  have hdocs : (s.answered f collection call).viewModel.docs =
      s.viewModel.docs ++ (collection.filter call.matched).map (HomeViewModel.post f) := rfl
  have hemitted : (s.answered f collection call).viewModel.emitted =
      s.viewModel.emitted ++ [(s.answered f collection call).viewModel.docs] :=
    s.viewModel.getPostsSuccess_emitted f _
  refine ⟨?_, ?_, fun htrapped => ?_, fun posts hposts => ?_, fun _ => ?_⟩
  · rw [hanswered, hdocs, h.docs, List.flatMap_append, List.flatMap_singleton]
  · rw [hmade]
    exact h.fits
  · rw [hanswered, hmade, List.append_assoc, List.singleton_append]
    exact (h.calls htrapped).trans ((List.perm_cons_erase hcall).append_left _)
  · rw [hemitted, List.mem_append, List.mem_singleton] at hposts
    rcases hposts with hposts | rfl
    · rw [hdocs]
      exact (h.pre posts hposts).trans (List.prefix_append _ _)
    · exact List.prefix_refl _
  · rw [hemitted, List.getLast?_concat]

theorem paged_of_run (h : (paging f collection first).Run events s) :
    Paged f collection first events s := by
  induction h with
  | nil => exact paged_start
  | @snoc events s e t _ hn ih =>
    cases e with
    | getPosts call =>
      obtain ⟨hs, ht⟩ := Option.ite_none_left_eq_some.mp hn
      obtain rfl := Option.some.inj ht
      exact ih.getPosts (Bool.eq_false_of_not_eq_true hs) call
    | answered call =>
      obtain ⟨⟨_, hcall⟩, rfl⟩ := Option.ite_some_none_eq_some.mp hn
      exact ih.answered hcall

/-- The identifiers of the accumulated posts are those of the documents. -/
theorem Paged.docs_ids (h : Paged f collection first events s) :
    s.viewModel.docs.map Post.id = (answeredCalls events).flatMap fun call =>
      (collection.filter call.matched).map Document.documentID := by
  rw [h.docs, List.map_flatMap]
  simp only [List.map_map]
  rfl

/-- Posts are repeated exactly when windows of answered calls share a document. -/
theorem Paged.once_iff (h : Paged f collection first events s)
    (hids : (collection.map Document.documentID).Nodup) :
    (∀ posts ∈ s.viewModel.emitted, (posts.map Post.id).Nodup) ↔
      DisjointWindows collection (answeredCalls events) := by
  have hdocs : (s.viewModel.docs.map Post.id).Nodup ↔
      DisjointWindows collection (answeredCalls events) := by
    rw [h.docs_ids]
    exact nodup_flatMap_filter_iff hids PageCall.matched _
  rw [← hdocs]
  constructor
  · intro hall
    by_cases hnone : answeredCalls events = []
    · rw [h.docs_ids, hnone]
      exact List.nodup_nil
    · exact hall _ (List.mem_of_getLast? (h.last hnone))
  · intro hnodup posts hposts
    exact hnodup.sublist ((h.pre posts hposts).sublist.map Post.id)

/-- After all answers the last list is complete. -/
theorem Paged.complete (h : Paged f collection first events s) (hs : s.trapped = false)
    (hrequests : s.requests = []) :
    ∃ posts, s.viewModel.emitted.getLast? = some posts ∧
      ListsMatched f collection (madeCalls first events) posts := by
  have hcalls := h.calls hs
  rw [hrequests, List.append_nil] at hcalls
  have hne : answeredCalls events ≠ [] := by
    intro hnil
    rw [hnil] at hcalls
    exact List.cons_ne_nil _ _ (List.perm_nil.mp hcalls)
  refine ⟨_, h.last hne, fun post => ?_⟩
  rw [h.docs]
  simp only [List.mem_flatMap, List.mem_map, List.mem_filter]
  constructor
  · rintro ⟨call, hcall, document, ⟨hdocument, hmatched⟩, hpost⟩
    exact ⟨document, hdocument, ⟨call, hcalls.mem_iff.mpr hcall, hmatched⟩, hpost⟩
  · rintro ⟨document, hdocument, ⟨call, hcall, hmatched⟩, hpost⟩
    exact ⟨call, hcalls.mem_iff.mp hcall, document, ⟨hdocument, hmatched⟩, hpost⟩

end Step

/-- No call traps, every emitted list has each post once and the last one is complete, if and
only if the end of every window is an `Int` and no document lies in the windows of two of the
answered calls. -/
theorem pages_load_once_iff {f : Foundation} {collection : Collection} {first : PageCall}
    {events : List PagingEvent} {s : Paging}
    (hids : (collection.map Document.documentID).Nodup)
    (h : (paging f collection first).Run events s) :
    LoadsOnce f collection first events s ↔
      (∀ call ∈ madeCalls first events, call.Fits) ∧
        DisjointWindows collection (answeredCalls events) := by
  have hpaged := paged_of_run h
  rw [← hpaged.once_iff hids, ← hpaged.fits]
  exact ⟨fun hloads => ⟨hloads.untrapped, hloads.once⟩,
    fun ⟨hs, honce⟩ => ⟨hs, honce, hpaged.complete hs⟩⟩

example : ¬ (⟨Int64.maxValue, 10⟩ : PageCall).Fits := by decide

/-- A collection with one published post. -/
def onePost : Collection :=
  [⟨"d", VideoPostRequest.publishedData samplePost ⟨"https://a/v"⟩⟩]

theorem pages_load_once_iff_swapped :
    ∃ s, (paging .plain onePost ⟨1, 10⟩).Run
        [.getPosts ⟨11, 10⟩, .answered ⟨11, 10⟩, .answered ⟨1, 10⟩] s ∧
      (LoadsOnce .plain onePost ⟨1, 10⟩
          [.getPosts ⟨11, 10⟩, .answered ⟨11, 10⟩, .answered ⟨1, 10⟩] s ↔
        (∀ call ∈ [(⟨1, 10⟩ : PageCall), ⟨11, 10⟩], call.Fits) ∧
          DisjointWindows onePost [⟨11, 10⟩, ⟨1, 10⟩]) := by
  obtain ⟨s, hs⟩ : ∃ s, (paging .plain onePost ⟨1, 10⟩).Run
      [.getPosts ⟨11, 10⟩, .answered ⟨11, 10⟩, .answered ⟨1, 10⟩] s :=
    ⟨_, Machine.run_iff_exec.mpr rfl⟩
  exact ⟨s, hs, pages_load_once_iff (List.nodup_singleton "d") hs⟩

/-- The second page of ten shares nine page numbers with the first one. -/
theorem second_page_repeats_post :
    ∃ s, (paging .plain onePost ⟨1, 10⟩).Run
        [.getPosts ⟨2, 10⟩, .answered ⟨1, 10⟩, .answered ⟨2, 10⟩] s ∧
      s.viewModel.docs.map Post.id = ["d", "d"] ∧
      ¬ LoadsOnce .plain onePost ⟨1, 10⟩
        [.getPosts ⟨2, 10⟩, .answered ⟨1, 10⟩, .answered ⟨2, 10⟩] s := by
  obtain ⟨s, hs⟩ : ∃ s, (paging .plain onePost ⟨1, 10⟩).Run
      [.getPosts ⟨2, 10⟩, .answered ⟨1, 10⟩, .answered ⟨2, 10⟩] s :=
    ⟨_, Machine.run_iff_exec.mpr rfl⟩
  have hpaged := paged_of_run hs
  have hids : s.viewModel.docs.map Post.id = ["d", "d"] := by
    rw [hpaged.docs_ids]
    rfl
  refine ⟨s, hs, hids, fun hloads => ?_⟩
  have hlast := hpaged.last (List.cons_ne_nil _ _)
  have hnodup := hloads.once _ (List.mem_of_getLast? hlast)
  rw [hids] at hnodup
  exact absurd hnodup (by decide)

end TiktokClone
