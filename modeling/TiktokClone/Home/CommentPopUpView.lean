import Mathlib.Algebra.Order.Ring.Unbundled.Rat
import Mathlib.Algebra.Ring.Rat
import TiktokClone.Library.Machine

/-!
# Dragging the comments

A pan on the pop-up moves it down with the finger and back up to its top at most. A
movement that the pop-up cannot follow stays in the recogniser's translation and counts
when the next one comes. At the end of the gesture the pop-up slides back by the distance
that it has slid, or is dismissed.

Lengths are exact numbers. An animation gives the view its final frame at once.
-/

namespace TiktokClone

open Library

inductive UIGestureRecognizer.State
  | possible
  | began
  | changed
  | ended
  | cancelled
  | failed
  deriving DecidableEq, Repr

/-- The vertical parts of what the recogniser tells about the pan. -/
structure UIPanGestureRecognizer where
  state : UIGestureRecognizer.State
  /-- `translation(in: popUpView)` -/
  translation : ℚ
  /-- `velocity(in: popUpView)` -/
  velocity : ℚ
  deriving DecidableEq

structure CommentPopUpView where
  screenHeight : ℚ
  /-- `frame.origin.y` -/
  originY : ℚ
  /-- Sliding Distance for pop up comment view: - Default *0.0* -/
  totalSlidingDistance : ℚ
  /-- `commentTableView.isUserInteractionEnabled` -/
  commentsInteract : Bool
  /-- The completion that removes the view from its superview is on its way. -/
  dismissing : Bool
  deriving DecidableEq

namespace CommentPopUpView

/-- The view after `init`, below the screen. -/
def initial (screenHeight : ℚ) : CommentPopUpView := ⟨screenHeight, screenHeight, 0, true, false⟩

/-- `show()` with a window scene -/
def «show» (view : CommentPopUpView) : CommentPopUpView := { view with originY := 0 }

def dismiss (view : CommentPopUpView) : CommentPopUpView :=
  { view with originY := view.screenHeight, dismissing := true }

/-- The view slides back by the distance that it has slid. -/
def slideBack (view : CommentPopUpView) : CommentPopUpView :=
  { view with originY := view.originY - view.totalSlidingDistance }

/-- The handler of the pan. It may set the recogniser's translation. -/
def animatePopUpView (view : CommentPopUpView) (sender : UIPanGestureRecognizer) :
    CommentPopUpView × UIPanGestureRecognizer :=
  let transition := sender.translation
  match sender.state with
  | .began | .changed =>
    -- Only allow swipe down or up to the minY of PopupView
    if view.totalSlidingDistance ≤ 0 ∧ transition < 0 then (view, sender)
    else if view.originY + transition ≥ 0 then
      ({ view with
          originY := view.originY + transition
          totalSlidingDistance := view.totalSlidingDistance + transition },
        { sender with translation := 0 })
    else (view, sender)
  | .ended =>
    -- Pan gesture ended
    let view :=
      if sender.velocity > 300 then view.dismiss
      else if view.totalSlidingDistance ≥ 0 then view.slideBack
      else view
    ({ view with commentsInteract := true, totalSlidingDistance := 0 }, sender)
  | _ => ({ view.slideBack with commentsInteract := true, totalSlidingDistance := 0 }, sender)

def scrollViewDidScroll (view : CommentPopUpView) (contentOffsetY : ℚ) (isDragging : Bool) :
    CommentPopUpView :=
  { view with commentsInteract := !(decide (contentOffsetY ≤ 0) && !isDragging) }

end CommentPopUpView

/-- The pop-up with its recogniser and the finger on it. -/
structure PopUpPan where
  view : CommentPopUpView
  panGesture : UIPanGestureRecognizer
  /-- The finger's net movement since the last gesture began. -/
  moved : ℚ
  deriving DecidableEq

namespace PopUpPan

/-- A gesture has begun and neither ended nor been cancelled. -/
def inProgress (s : PopUpPan) : Prop :=
  s.panGesture.state = .began ∨ s.panGesture.state = .changed

instance (s : PopUpPan) : Decidable s.inProgress := inferInstanceAs (Decidable (_ ∨ _))

/-- The recogniser enters a state and calls the handler. -/
def send (s : PopUpPan) (panGesture : UIPanGestureRecognizer) (moved : ℚ) : PopUpPan :=
  ⟨(s.view.animatePopUpView panGesture).1, (s.view.animatePopUpView panGesture).2, moved⟩

end PopUpPan

/-- What happens to a shown pop-up; movements point down. -/
inductive PopUpEvent
  | began (movement : ℚ)
  | changed (movement : ℚ)
  | ended (velocity : ℚ)
  | cancelled
  | scrollViewDidScroll (contentOffsetY : ℚ) (isDragging : Bool)
  /-- A tap on the button or the background. -/
  | dismiss
  deriving DecidableEq

/-- A shown pop-up, up to its first dismissal. A new gesture starts with its own movement as
its translation. -/
def popUpPans (screenHeight : ℚ) : Machine PopUpPan PopUpEvent where
  start := ⟨(CommentPopUpView.initial screenHeight).show, ⟨.possible, 0, 0⟩, 0⟩
  next s e :=
    if s.view.dismissing then none
    else match e with
      | .began movement =>
        if s.inProgress then none else some (s.send ⟨.began, movement, 0⟩ movement)
      | .changed movement =>
        if s.inProgress then
          some (s.send ⟨.changed, s.panGesture.translation + movement, 0⟩ (s.moved + movement))
        else none
      | .ended velocity =>
        if s.inProgress then some (s.send ⟨.ended, s.panGesture.translation, velocity⟩ s.moved)
        else none
      | .cancelled =>
        if s.inProgress then some (s.send ⟨.cancelled, s.panGesture.translation, 0⟩ s.moved)
        else none
      | .scrollViewDidScroll contentOffsetY isDragging =>
        some { s with view := s.view.scrollViewDidScroll contentOffsetY isDragging }
      | .dismiss => some { s with view := s.view.dismiss }

/-- The pop-up has slid exactly as far down as the handler counts. Position and pending
translation add up to the finger's movement, and without a finger it is back at the top. -/
structure FollowsFinger (s : PopUpPan) : Prop where
  slid : s.view.originY = s.view.totalSlidingDistance
  nonneg : 0 ≤ s.view.totalSlidingDistance
  follows : s.inProgress → s.view.originY + s.panGesture.translation = s.moved
  back : ¬ s.inProgress → s.view.originY = 0

namespace PopUpPan

variable {s : PopUpPan} {sender : UIPanGestureRecognizer} {moved : ℚ}

/-- A movement is consumed as a whole or stays pending as a whole. -/
theorem followsFinger_slide (hstate : sender.state = .began ∨ sender.state = .changed)
    (hslid : s.view.originY = s.view.totalSlidingDistance)
    (hnonneg : 0 ≤ s.view.totalSlidingDistance)
    (hmoved : s.view.originY + sender.translation = moved) :
    FollowsFinger (s.send sender moved) := by
  have hslides : s.view.animatePopUpView sender =
      if s.view.totalSlidingDistance ≤ 0 ∧ sender.translation < 0 then (s.view, sender)
      else if s.view.originY + sender.translation ≥ 0 then
        ({ s.view with
            originY := s.view.originY + sender.translation
            totalSlidingDistance := s.view.totalSlidingDistance + sender.translation },
          { sender with translation := 0 })
      else (s.view, sender) := by
    rcases hstate with h | h <;> simp only [CommentPopUpView.animatePopUpView, h]
  have hpending : FollowsFinger ⟨s.view, sender, moved⟩ :=
    ⟨hslid, hnonneg, fun _ => hmoved, fun hrest => absurd hstate hrest⟩
  rw [send, hslides]
  by_cases hup : s.view.totalSlidingDistance ≤ 0 ∧ sender.translation < 0
  · rw [if_pos hup]
    exact hpending
  · rw [if_neg hup]
    by_cases hbelow : s.view.originY + sender.translation ≥ 0
    · rw [if_pos hbelow]
      have hslid' : s.view.originY + sender.translation =
          s.view.totalSlidingDistance + sender.translation := by rw [hslid]
      exact ⟨hslid', hslid' ▸ hbelow, fun _ => (add_zero _).trans hmoved,
        fun hrest => absurd hstate hrest⟩
    · rw [if_neg hbelow]
      exact hpending

/-- The end of a gesture that dismisses nothing takes the pop-up back to the top. -/
theorem followsFinger_slideBack (hstate : sender.state = .ended ∨ sender.state = .cancelled)
    (hs : FollowsFinger s) (hshown : (s.send sender moved).view.dismissing = false) :
    FollowsFinger (s.send sender moved) := by
  have hback : s.view.originY - s.view.totalSlidingDistance = 0 := sub_eq_zero.mpr hs.slid
  have hslidesBack : s.view.animatePopUpView sender =
      ({ s.view.slideBack with commentsInteract := true, totalSlidingDistance := 0 }, sender) := by
    rcases hstate with h | h
    · by_cases hfast : sender.velocity > 300
      · simp [send, CommentPopUpView.animatePopUpView, h, hfast, CommentPopUpView.dismiss] at hshown
      · simp [CommentPopUpView.animatePopUpView, h, hfast, hs.nonneg]
    · simp only [CommentPopUpView.animatePopUpView, h]
  have hrest : ¬ (s.send sender moved).inProgress := by
    rw [inProgress, send, hslidesBack]
    rcases hstate with h | h <;> simp [h]
  rw [send, hslidesBack] at hrest ⊢
  exact ⟨hback, le_refl 0, fun hgoes => absurd hgoes hrest, fun _ => hback⟩

end PopUpPan

theorem followsFinger_next {screenHeight : ℚ} {s t : PopUpPan} {e : PopUpEvent}
    (hs : s.view.dismissing = false → FollowsFinger s)
    (hn : (popUpPans screenHeight).next s e = some t) (hshown : t.view.dismissing = false) :
    FollowsFinger t := by
  obtain ⟨hs', hn⟩ := Option.ite_none_left_eq_some.mp hn
  have hs := hs (Bool.eq_false_of_not_eq_true hs')
  cases e with
  | began movement =>
    obtain ⟨hidle, hn⟩ := Option.ite_none_left_eq_some.mp hn
    obtain rfl := Option.some.inj hn
    have hmoved : s.view.originY + movement = movement := by rw [hs.back hidle, zero_add]
    exact PopUpPan.followsFinger_slide (Or.inl rfl) hs.slid hs.nonneg hmoved
  | changed movement =>
    obtain ⟨hgoes, rfl⟩ := Option.ite_some_none_eq_some.mp hn
    have hmoved : s.view.originY + (s.panGesture.translation + movement) = s.moved + movement := by
      rw [← add_assoc, hs.follows hgoes]
    exact PopUpPan.followsFinger_slide (Or.inr rfl) hs.slid hs.nonneg hmoved
  | ended velocity =>
    obtain ⟨hgoes, rfl⟩ := Option.ite_some_none_eq_some.mp hn
    exact PopUpPan.followsFinger_slideBack (Or.inl rfl) hs hshown
  | cancelled =>
    obtain ⟨hgoes, rfl⟩ := Option.ite_some_none_eq_some.mp hn
    exact PopUpPan.followsFinger_slideBack (Or.inr rfl) hs hshown
  | scrollViewDidScroll contentOffsetY isDragging =>
    obtain rfl := Option.some.inj hn
    exact ⟨hs.slid, hs.nonneg, hs.follows, hs.back⟩
  | dismiss =>
    obtain rfl := Option.some.inj hn
    cases hshown

/-- While the pop-up is shown it is as far down as the sliding distance says. During a gesture
its position and the pending translation add up to the finger's net movement, and between
gestures it is back at the top. -/
theorem popUp_follows_finger {screenHeight : ℚ} {events : List PopUpEvent} {s : PopUpPan}
    (hrun : (popUpPans screenHeight).Run events s) (hshown : s.view.dismissing = false) :
    s.view.originY = s.view.totalSlidingDistance ∧ 0 ≤ s.view.totalSlidingDistance ∧
      (s.inProgress → s.view.originY + s.panGesture.translation = s.moved) ∧
      (¬ s.inProgress → s.view.originY = 0 ∧ s.view.totalSlidingDistance = 0) := by
  have hidle : ¬ (popUpPans screenHeight).start.inProgress := by
    rintro (h | h) <;> cases h
  have hstart : FollowsFinger (popUpPans screenHeight).start :=
    ⟨rfl, le_refl 0, fun hgoes => absurd hgoes hidle, fun _ => rfl⟩
  have hs : FollowsFinger s :=
    hrun.invariant (I := fun s => s.view.dismissing = false → FollowsFinger s) (fun _ => hstart)
      (fun _ _ _ hs hn hshown => followsFinger_next hs hn hshown) hshown
  refine ⟨hs.slid, hs.nonneg, hs.follows, fun hrest => ?_⟩
  have hback : s.view.originY = 0 := hs.back hrest
  exact ⟨hback, hs.slid ▸ hback⟩

/-- The finger has gone 40 down and then 70 up, past the top. -/
def draggedPastTheTop : PopUpPan := ⟨⟨812, 40, 40, true, false⟩, ⟨.changed, -70, 0⟩, -30⟩

theorem popUp_follows_finger_draggedPastTheTop :
    (popUpPans 812).Run [.began 10, .changed 30, .changed (-70)] draggedPastTheTop ∧
      draggedPastTheTop.view.originY + draggedPastTheTop.panGesture.translation =
        draggedPastTheTop.moved := by
  have hrun : (popUpPans 812).Run [.began 10, .changed 30, .changed (-70)] draggedPastTheTop :=
    Machine.run_iff_exec.mpr (by decide +kernel)
  have hgoes : draggedPastTheTop.inProgress := Or.inr rfl
  obtain ⟨_, _, hfollows, _⟩ := popUp_follows_finger hrun rfl
  exact ⟨hrun, hfollows hgoes⟩

end TiktokClone
