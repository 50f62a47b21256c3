import TiktokClone.Home.CellHistory

/-!
# Whose post a cell plays

The player keeps its item through reuse, and a block that was queued for an earlier post
still makes its asset, so what a cell plays and what it holds can belong to an earlier
post. The order of configurations, blocks, reuse and playing decides both.
-/

namespace TiktokClone

open Library CellEvent

/-- A playing player plays the last post. -/
def PlaysOwnPost (c : HomeTableViewCell) : Prop :=
  ∀ q, c.playerView.queuePlayer = some q → q.isPlaying = true →
    ∃ url item, c.lastURL = some url ∧ q.currentItem = some item ∧ item.source = url

/-- With no block pending, the view and its player belong to the last post. -/
def HoldsOwnPost (c : HomeTableViewCell) : Prop :=
  c.playerView.mainQueue = [] →
    c.playerView.originalURL = c.lastURL ∧ c.playerView.itemURL = c.lastURL

/-- While the player plays, a cell is configured for the URL of the last block that made its
asset only, and a block that makes its asset is the last post's. The cell starts the player only
while the last block that made its asset is the last post's. -/
def PlaysInOrder (f : Foundation) (before : List CellEvent) : CellEvent → Prop
  | .configure post _ => started f before = true → builtURL f before = post.videoURL
  | .play | .replay => playing before = false → builtURL f before ≠ none →
      builtURL f before = configuredURL before
  | .runConfigureBlock => ∀ url, ConfigureBlock.presents f (mainQueue before) = some url →
      started f before = true → configuredURL before = some url
  | _ => True

/-- With no block waiting, a post without a URL is configured and the cell is reused only as long
as no block has made its asset. The only block waiting makes its asset and the last post has
a URL; or it makes none, and no other block has, or the last to do so was the last post's
and the cell has not been reused since. -/
def HoldsInOrder (f : Foundation) (before : List CellEvent) : CellEvent → Prop
  | .configure post _ => mainQueue before = [] → post.videoURL = none → builtURL f before = none
  | .prepareForReuse => mainQueue before = [] → builtURL f before = none
  | .runConfigureBlock => ∀ block, mainQueue before = [block] →
      match block.videoURL f, configuredURL before with
      | some _, url => url ≠ none
      | none, none => builtURL f before = none
      | none, some url => presentedURL f before = some url
  | _ => True

/-! ### What the player plays -/

section Plays

variable {f : Foundation} {events : List CellEvent} {c : HomeTableViewCell}

theorem Equipped.playsOwnPost_iff (hc : Equipped c) :
    PlaysOwnPost c ↔ (c.playerView.Plays → c.playerView.itemURL = c.lastURL) := by
  constructor
  · rintro h ⟨q, hq, hplaying⟩
    obtain ⟨url, item, hurl, hitem, rfl⟩ := h q hq hplaying
    rw [Player.itemURL, hq, Option.bind_some, hitem, hurl, Option.map_some]
  · intro h q hq hplaying
    obtain ⟨item, hitem⟩ := Option.ne_none_iff_exists'.mp (hc.item q hq)
    have hurl := h ⟨q, hq, hplaying⟩
    rw [Player.itemURL, hq, Option.bind_some, hitem, Option.map_some] at hurl
    exact ⟨item.source, item, hurl.symm, hitem, rfl⟩

/-- A playing player plays the last post, by the history. -/
theorem playsOwnPost_iff (h : (cell f).Run events c) : PlaysOwnPost c ↔
    (started f events = true → builtURL f events = configuredURL events) := by
  have hc := CellHistory.of_run h
  rw [(Equipped.of_reachable ⟨_, h⟩).playsOwnPost_iff, hc.plays, hc.itemURL, hc.lastURL]

/-- One more step leaves the player on the last post exactly if it is in order. -/
theorem playsInOrder_iff (e : CellEvent)
    (hp : started f events = true → builtURL f events = configuredURL events) :
    (started f (events ++ [e]) = true →
        builtURL f (events ++ [e]) = configuredURL (events ++ [e])) ↔
      PlaysInOrder f events e := by
  rw [started_concat, builtURL_concat, configuredURL_concat]
  have hplay : ((if playing events then started f events else (builtURL f events).isSome) = true →
      builtURL f events = configuredURL events) ↔
        (playing events = false → builtURL f events ≠ none →
          builtURL f events = configuredURL events) := by
    cases hplaying : playing events with
    | true => exact iff_of_true hp fun hfalse => absurd hfalse.symm Bool.false_ne_true
    | false =>
      simp only [Bool.false_eq_true, if_false, Option.isSome_iff_ne_none, forall_const]
  cases e with
  | configure post data => exact Iff.rfl
  | prepareForReuse => exact iff_of_true hp trivial
  | play => exact hplay
  | replay => exact hplay
  | pause => exact iff_of_true (fun hfalse => absurd hfalse Bool.false_ne_true) trivial
  | runConfigureBlock =>
    simp only [builds, starts, configures, PlaysInOrder]
    cases hblock : ConfigureBlock.presents f (CellEvent.mainQueue events) with
    | none => exact iff_of_true hp fun url hnone => absurd hnone.symm (Option.some_ne_none url)
    | some url => simp only [Option.some_or, Option.some.injEq, forall_eq', eq_comm]
  | runCancelBlock => exact iff_of_true hp trivial

/-- However configurations, reuse, playing and the deferred blocks follow each other, the player
plays the last post only, if and only if every step is in order for it. -/
theorem plays_own_post_iff (h : (cell f).Run events c) :
    (cell f).AllStates PlaysOwnPost events ↔ Always (PlaysInOrder f) events := by
  refine h.allStates_iff_always (fun _ hq => nomatch hq) fun as s e t hr hs hn => ?_
  rw [playsOwnPost_iff (.snoc hr hn)]
  exact playsInOrder_iff e ((playsOwnPost_iff hr).mp hs)

end Plays

/-! ### What the view holds -/

section Holds

variable {f : Foundation} {events : List CellEvent} {c : HomeTableViewCell}

/-- With no block waiting, the view and its player belong to the last post, by the history. -/
theorem holdsOwnPost_iff (h : (cell f).Run events c) : HoldsOwnPost c ↔
    (mainQueue events = [] →
      presentedURL f events = configuredURL events ∧ builtURL f events = configuredURL events) := by
  have hc := CellHistory.of_run h
  rw [HoldsOwnPost, hc.mainQueue, hc.originalURL, hc.itemURL, hc.lastURL]

/-- Where the last post has no URL, the view is up to date if nothing was built. -/
theorem presents_none_iff : presentedURL f events = none ∧ builtURL f events = none ↔
    builtURL f events = none := by
  refine and_iff_right_of_imp fun hbuilt => ?_
  cases hurl : presentedURL f events with
  | none => rfl
  | some url => exact (builtURL_of_presentedURL hurl).symm.trans hbuilt

/-- Where it has one, the view is up to date if it presents it. -/
theorem presents_some_iff {url : URL} : presentedURL f events = some url ∧
    builtURL f events = some url ↔ presentedURL f events = some url :=
  and_iff_left_of_imp builtURL_of_presentedURL

theorem holdsInOrder_runConfigureBlock_iff
    (hp : mainQueue events = [] →
      presentedURL f events = configuredURL events ∧ builtURL f events = configuredURL events) :
    ((mainQueue events).tail = [] →
      presents f (mainQueue events) (presentedURL f events) .runConfigureBlock =
          configuredURL events ∧
        (ConfigureBlock.presents f (mainQueue events)).or (builtURL f events) =
          configuredURL events) ↔
      HoldsInOrder f events .runConfigureBlock := by
  rw [HoldsInOrder, presents]
  cases hqueue : mainQueue events with
  | nil => exact iff_of_true (fun _ => hp hqueue) fun block hnil =>
      absurd hnil.symm (List.cons_ne_nil block [])
  | cons block blocks =>
    cases blocks with
    | cons next blocks =>
      refine iff_of_true (fun hnil => absurd hnil (List.cons_ne_nil next blocks)) ?_
      exact fun _ hone => absurd (List.cons.inj hone).2 (List.cons_ne_nil next blocks)
    | nil =>
      simp only [List.cons.injEq, and_true, forall_eq', List.tail_cons, forall_const,
        ConfigureBlock.presents]
      cases hvideo : block.videoURL f with
      | none =>
        simp only [Option.map_none, Option.none_or]
        cases hurl : configuredURL events with
        | none => exact presents_none_iff
        | some url => exact presents_some_iff
      | some videoURL =>
        simp only [Option.map_some, Option.some_or, and_self]
        constructor
        · intro hurl
          rw [← hurl]
          exact Option.some_ne_none _
        · intro hurl
          obtain ⟨url, hurl⟩ := Option.ne_none_iff_exists'.mp hurl
          have hlast : (mainQueue events).getLast? = some block := by rw [hqueue]; rfl
          rw [hurl, configuredURL_of_getLast? hlast hurl]

/-- One more step leaves the view with the last post exactly if it is in order. -/
theorem holdsInOrder_iff (e : CellEvent)
    (hp : mainQueue events = [] →
      presentedURL f events = configuredURL events ∧ builtURL f events = configuredURL events) :
    (mainQueue (events ++ [e]) = [] →
        presentedURL f (events ++ [e]) = configuredURL (events ++ [e]) ∧
          builtURL f (events ++ [e]) = configuredURL (events ++ [e])) ↔
      HoldsInOrder f events e := by
  rw [mainQueue_concat, presentedURL_concat, builtURL_concat, configuredURL_concat]
  have hsame : (mainQueue events ++ [] = [] → presentedURL f events = configuredURL events ∧
      builtURL f events = configuredURL events) := by rwa [List.append_nil]
  cases e with
  | configure post data =>
    simp only [HoldsInOrder]
    cases hurl : post.videoURL with
    | none =>
      simp only [runsBlock, CellEvent.block, hurl, Option.map_none, Option.toList_none,
        List.append_nil, Bool.false_eq_true, if_false, presents, configures, builds,
        Option.none_or, forall_const, presents_none_iff]
    | some url =>
      simp [runsBlock, CellEvent.block, hurl]
  | prepareForReuse =>
    simp only [runsBlock, CellEvent.block, Option.toList_none, List.append_nil,
      Bool.false_eq_true, if_false, presents, configures, builds, Option.none_or, HoldsInOrder]
    refine forall_congr' fun hqueue => ?_
    rw [(hp hqueue).2]
    exact ⟨fun hd => hd.1.symm, fun hnone => ⟨hnone.symm, rfl⟩⟩
  | runConfigureBlock => exact holdsInOrder_runConfigureBlock_iff hp
  | play | replay | pause | runCancelBlock => exact iff_of_true hsame trivial

/-- With no block waiting the view holds the last post, if and only if every step is in order
for it. -/
theorem holds_own_post_iff (h : (cell f).Run events c) :
    (cell f).AllStates HoldsOwnPost events ↔ Always (HoldsInOrder f) events := by
  refine h.allStates_iff_always (fun _ => ⟨rfl, rfl⟩) fun as s e t hr hs hn => ?_
  rw [holdsOwnPost_iff (.snoc hr hn)]
  exact holdsInOrder_iff e ((holdsOwnPost_iff hr).mp hs)

end Holds

/-- A reused cell. However configurations, reuse, playing and the deferred blocks follow
each other, the player plays the last post only, and with no block waiting the view holds
this post, in all states of the run, if and only if every step is in order for both. -/
theorem cell_keeps_to_its_post_iff {f : Foundation} {events : List CellEvent}
    {c : HomeTableViewCell} (h : (cell f).Run events c) :
    (cell f).AllStates (fun d => PlaysOwnPost d ∧ HoldsOwnPost d) events ↔
      Always (fun before e => PlaysInOrder f before e ∧ HoldsInOrder f before e) events := by
  rw [Machine.allStates_and, always_and, plays_own_post_iff h, holds_own_post_iff h]

/-- The post decoded from a document that has a URL only. -/
def postAt (url : String) : Post :=
  .ofDictionary .plain (AList.insert "videoURL" (.string url) ∅)

/-- A cell shows a post and is paused. -/
def shownOnce : List CellEvent :=
  [.configure (postAt "http:a") none, .runConfigureBlock, .play, .pause]

theorem cell_keeps_to_its_post_iff_shownOnce :
    (cell .plain).AllStates (fun d => PlaysOwnPost d ∧ HoldsOwnPost d) shownOnce ↔
      Always (fun before e => PlaysInOrder .plain before e ∧ HoldsInOrder .plain before e)
        shownOnce :=
  cell_keeps_to_its_post_iff (Machine.run_iff_exec.mpr rfl)

/-- After reuse the cell plays the earlier post until the block of the next one has run,
and for as long as it shows a post without a URL. -/
theorem reused_cell_plays_earlier_post :
    (∃ c, (cell .plain).Run (shownOnce ++
        [.prepareForReuse, .configure (postAt "http:b") none, .replay]) c ∧
      c.lastURL = some ⟨"http:b"⟩ ∧ c.playerView.itemURL = some ⟨"http:a"⟩ ∧ ¬ PlaysOwnPost c) ∧
    ∃ c, (cell .plain).Run (shownOnce ++
        [.prepareForReuse, .configure (postAt "") none, .replay]) c ∧
      c.lastURL = none ∧ c.playerView.itemURL = some ⟨"http:a"⟩ ∧ ¬ PlaysOwnPost c ∧
        ¬ HoldsOwnPost c := by
  refine ⟨⟨_, Machine.run_iff_exec.mpr rfl, rfl, rfl, fun hplays => ?_⟩,
    _, Machine.run_iff_exec.mpr rfl, rfl, rfl, fun hplays => ?_, fun hholds => ?_⟩
  · obtain ⟨url, item, hurl, hitem, hsource⟩ := hplays _ rfl rfl
    cases hurl
    cases hitem
    exact absurd hsource (by decide)
  · obtain ⟨url, item, hurl, _⟩ := hplays _ rfl rfl
    cases hurl
  · cases (hholds rfl).2

end TiktokClone
