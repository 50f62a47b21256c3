import TiktokClone.Post.Posting

/-!
# The publishing protocol

At most one publish is ever in flight. That each publish calls one handler once and
gives the button back holds as long as no answer brings an error or nothing; every
other answer, and a tap without a video, breaks it for good.
-/

namespace TiktokClone

open Library

namespace Posting

/-- The publish has made a Firebase call that has not answered. -/
def InFlight (s : Posting) (id : Nat) : Prop := (s.awaiting id).isSome = true

/-- The publish has written a document with the download URL of its file. -/
def Wrote (s : Posting) (id : Nat) (publish : Publish) : Prop :=
  ∃ url document, publish.downloadURL = some url ∧ (id, document) ∈ s.documents ∧
    document.data.lookup "videoURL" = some (.string url.absoluteString)

/-- One handler has been called once, and it tells whether the document was written. -/
def Settled (s : Posting) (id : Nat) (publish : Publish) : Prop :=
  ∃ call, publish.calls = [call] ∧ (call.isSuccess = true ↔ s.Wrote id publish)

/-- What the protocol promises in every state. -/
structure Protocol (s : Posting) : Prop where
  one : ∀ i j, s.InFlight i → s.InFlight j → i = j
  settled : ∀ id publish, s.publishes[id]? = some publish → publish.pending = none →
    s.Settled id publish
  button : s.controller.isUserInteractionEnabled = true ↔ ∀ id, ¬ s.InFlight id

/-- The screen has a video, and an answer brings no error and what was asked for. -/
def Unfailing (s : Posting) : PostingEvent → Prop
  | .tap .. => s.controller.videoURL.isSome = true
  | .putFileAnswered _ metadata error => error = none ∧ metadata.isSome = true
  | .downloadURLAnswered _ url _ _ => url.isSome = true
  | .setDataAnswered _ error => error = none

/-- A waiting publish has called no handler, and the document that it writes has the
download URL that it was given. -/
structure Ready (publish : Publish) (call : FirebaseCall) : Prop where
  calls : publish.calls = []
  document : ∀ document, call = .setData document → ∃ url, publish.downloadURL = some url ∧
    document.data.lookup "videoURL" = some (.string url.absoluteString)

/-- Everything that a step can do to the button, the publishes and the documents. -/
inductive StepCase (s t : Posting) (unfailing : Prop) : Prop
  | started (publish : Publish) (call : FirebaseCall) (smooth : unfailing)
      (enabled : s.controller.isUserInteractionEnabled = true)
      (publishes : t.publishes = s.publishes ++ [publish])
      (button : t.controller.isUserInteractionEnabled = false)
      (documents : t.documents = s.documents)
      (pending : publish.pending = some call) (ready : Ready publish call)
  | blocked (failing : ¬ unfailing) (enabled : s.controller.isUserInteractionEnabled = true)
      (publishes : t.publishes = s.publishes)
      (button : t.controller.isUserInteractionEnabled = false)
  | continued (id : Nat) (publish : Publish × FirebaseCall) (next : Publish)
      (call : FirebaseCall) (smooth : unfailing) (awaits : s.awaiting id = some publish)
      (publishes : t.publishes = s.publishes.set id next)
      (button : t.controller.isUserInteractionEnabled = s.controller.isUserInteractionEnabled)
      (documents : t.documents = s.documents)
      (pending : next.pending = some call) (ready : Ready publish.1 publish.2 → Ready next call)
  | succeeded (id : Nat) (publish next : Publish) (document : Document) (data : AnyValue)
      (smooth : unfailing) (awaits : s.awaiting id = some (publish, .setData document))
      (publishes : t.publishes = s.publishes.set id next)
      (button : t.controller.isUserInteractionEnabled = true)
      (documents : t.documents = s.documents ++ [(id, document)])
      (pending : next.pending = none) (calls : next.calls = publish.calls ++ [.success data])
      (downloadURL : next.downloadURL = publish.downloadURL)
  | stopped (id : Nat) (publish : Publish × FirebaseCall) (next : Publish)
      (failing : ¬ unfailing) (awaits : s.awaiting id = some publish)
      (publishes : t.publishes = s.publishes.set id next)
      (button : t.controller.isUserInteractionEnabled = s.controller.isUserInteractionEnabled)
      (pending : next.pending = none)

theorem stepCase_tap {f : Foundation} {videoURL : Option URL} {s t : Posting}
    {caption : Option String} {videoName : String} {likeCount shareCount : Int}
    (h : (posting f videoURL).next s (.tap caption videoName likeCount shareCount) = some t) :
    StepCase s t (s.Unfailing (.tap caption videoName likeCount shareCount)) := by
  obtain ⟨henabled, rfl⟩ := Option.ite_some_none_eq_some.mp h
  cases hurl : s.controller.videoURL with
  | none =>
    refine .blocked ?_ henabled ?_ ?_
    · simp only [Unfailing, hurl, Option.isSome_none, Bool.false_eq_true, not_false_eq_true]
    · simp only [publishPost, hurl]
    · simp only [publishPost, hurl]
  | some url =>
    refine .started (MediaViewModel.postVideo f url (caption.getD "") videoName likeCount
      shareCount) _ ?_ henabled ?_ ?_ ?_ rfl ⟨rfl, nofun⟩
    · simp only [Unfailing, hurl, Option.isSome_some]
    all_goals simp only [publishPost, hurl]

theorem stepCase_putFile {f : Foundation} {videoURL : Option URL} {s t : Posting} {id : Nat}
    {metadata : Option StorageMetadata} {error : Option String}
    (h : (posting f videoURL).next s (.putFileAnswered id metadata error) = some t) :
    StepCase s t (s.Unfailing (.putFileAnswered id metadata error)) := by
  simp only [posting] at h
  split at h
  · rename_i publish path url hawaits
    cases error with
    | some error =>
      obtain rfl := Option.some.inj h
      exact .stopped id _ _ nofun hawaits rfl rfl rfl
    | none =>
      cases metadata with
      | none =>
        obtain rfl := Option.some.inj h
        exact .stopped id _ _ nofun hawaits rfl rfl rfl
      | some metadata =>
        obtain rfl := Option.some.inj h
        exact .continued id _ _ _ ⟨rfl, rfl⟩ hawaits rfl rfl rfl rfl fun hr => ⟨hr.calls, nofun⟩
  · cases h

theorem stepCase_downloadURL {f : Foundation} {videoURL : Option URL} {s t : Posting} {id : Nat}
    {url : Option URL} {error : Option String} {documentID : String}
    (h : (posting f videoURL).next s (.downloadURLAnswered id url error documentID) = some t) :
    StepCase s t (s.Unfailing (.downloadURLAnswered id url error documentID)) := by
  simp only [posting] at h
  split at h
  · rename_i publish path hawaits
    cases url with
    | none =>
      obtain rfl := Option.some.inj h
      exact .stopped id _ _ nofun hawaits rfl rfl rfl
    | some url =>
      obtain rfl := Option.some.inj h
      refine .continued id _ _ _ rfl hawaits rfl rfl rfl rfl fun hr => ⟨hr.calls, ?_⟩
      rintro document ⟨⟩
      exact ⟨url, rfl, VideoPostRequest.lookup_videoURL_publishedData _ _⟩
  · cases h

theorem stepCase_setData {f : Foundation} {videoURL : Option URL} {s t : Posting} {id : Nat}
    {error : Option String}
    (h : (posting f videoURL).next s (.setDataAnswered id error) = some t) :
    StepCase s t (s.Unfailing (.setDataAnswered id error)) := by
  simp only [posting] at h
  split at h
  · rename_i publish document hawaits
    cases error with
    | some error =>
      obtain rfl := Option.some.inj h
      exact .stopped id _ _ nofun hawaits rfl rfl rfl
    | none =>
      obtain rfl := Option.some.inj h
      exact .succeeded id publish _ document _ rfl hawaits rfl rfl rfl rfl rfl rfl
  · cases h

theorem stepCase {f : Foundation} {videoURL : Option URL} {s t : Posting} {e : PostingEvent}
    (h : (posting f videoURL).next s e = some t) : StepCase s t (s.Unfailing e) := by
  cases e with
  | tap => exact stepCase_tap h
  | putFileAnswered => exact stepCase_putFile h
  | downloadURLAnswered => exact stepCase_downloadURL h
  | setDataAnswered => exact stepCase_setData h

/-- The part of the protocol that no answer can break. -/
structure Sound (s : Posting) : Prop where
  ready : ∀ id publish call, s.awaiting id = some (publish, call) → Ready publish call
  one : ∀ i j, s.InFlight i → s.InFlight j → i = j
  idle : s.controller.isUserInteractionEnabled = true → ∀ id, ¬ s.InFlight id

section Awaiting

variable {s t : Posting} {id : Nat} {publish next : Publish} {call : FirebaseCall}

theorem awaiting_eq_some_iff : s.awaiting id = some (publish, call) ↔
    s.publishes[id]? = some publish ∧ publish.pending = some call := by
  simp only [awaiting, Option.bind_eq_some_iff, Option.map_eq_some_iff, Prod.mk.injEq]
  constructor
  · rintro ⟨_, hlookup, _, hpending, rfl, rfl⟩
    exact ⟨hlookup, hpending⟩
  · rintro ⟨hlookup, hpending⟩
    exact ⟨publish, hlookup, call, hpending, rfl, rfl⟩

theorem InFlight.of_awaiting {publish : Publish × FirebaseCall}
    (h : s.awaiting id = some publish) : s.InFlight id := by
  rw [InFlight, h]
  rfl

/-- A new publish stands after the old ones. -/
theorem awaiting_concat (h : t.publishes = s.publishes ++ [next]) (i : Nat) :
    t.awaiting i = if i = s.publishes.length then next.pending.map fun call => (next, call)
      else s.awaiting i := by
  rw [awaiting, h]
  split
  · rename_i hi
    rw [hi, List.getElem?_concat_length, Option.bind_some]
  · rename_i hi
    rcases Nat.lt_or_gt_of_ne hi with hlt | hgt
    · rw [List.getElem?_append_left hlt, awaiting]
    · have hold : s.publishes[i]? = none := List.getElem?_eq_none (by omega)
      have hnew : (s.publishes ++ [next])[i]? = none := List.getElem?_eq_none (by simp; omega)
      rw [awaiting, hold, hnew]

/-- An answer changes its own publish only. -/
theorem awaiting_set {publish : Publish × FirebaseCall} (hid : s.awaiting id = some publish)
    (h : t.publishes = s.publishes.set id next) (i : Nat) :
    t.awaiting i = if i = id then next.pending.map fun call => (next, call)
      else s.awaiting i := by
  obtain ⟨hlookup, _⟩ := awaiting_eq_some_iff.mp hid
  obtain ⟨hlt, _⟩ := List.getElem?_eq_some_iff.mp hlookup
  rw [awaiting, h]
  split
  · rename_i hi
    rw [hi, List.getElem?_set_self hlt, Option.bind_some]
  · rename_i hi
    rw [List.getElem?_set_ne (Ne.symm hi), awaiting]

end Awaiting

theorem Sound.inFlight_concat {s t : Posting} {next : Publish} {call : FirebaseCall}
    (hs : s.Sound) (henabled : s.controller.isUserInteractionEnabled = true)
    (h : t.publishes = s.publishes ++ [next]) (hpending : next.pending = some call) (i : Nat) :
    t.InFlight i ↔ i = s.publishes.length := by
  have hidle := hs.idle henabled i
  rw [InFlight, awaiting_concat h, hpending]
  split
  · rename_i hi
    exact iff_of_true rfl hi
  · rename_i hi
    exact iff_of_false hidle hi

theorem Sound.inFlight_set {s t : Posting} {id : Nat} {publish : Publish × FirebaseCall}
    {next : Publish} (hs : s.Sound) (hid : s.awaiting id = some publish)
    (h : t.publishes = s.publishes.set id next) (i : Nat) :
    t.InFlight i ↔ i = id ∧ next.pending.isSome = true := by
  rw [InFlight, awaiting_set hid h]
  split
  · rename_i hi
    rw [Option.isSome_map]
    exact ⟨fun hp => ⟨hi, hp⟩, fun hp => hp.2⟩
  · rename_i hi
    exact iff_of_false (fun hf => hi (hs.one i id hf (.of_awaiting hid))) fun hp => hi hp.1

theorem Sound.inFlight_set_none {s t : Posting} {id : Nat} {publish : Publish × FirebaseCall}
    {next : Publish} (hs : s.Sound) (hid : s.awaiting id = some publish)
    (h : t.publishes = s.publishes.set id next) (hpending : next.pending = none) (i : Nat) :
    ¬ t.InFlight i := by
  rw [hs.inFlight_set hid h i, hpending]
  exact fun hf => Bool.noConfusion hf.2

theorem sound_start (f : Foundation) (videoURL : Option URL) :
    (posting f videoURL).start.Sound where
  ready := fun _ _ _ h => nomatch h
  one := fun _ _ h => nomatch h
  idle := fun _ _ h => nomatch h

theorem Sound.ready_set {s t : Posting} {id : Nat} {publish : Publish × FirebaseCall}
    {next : Publish} (hs : s.Sound) (hid : s.awaiting id = some publish)
    (h : t.publishes = s.publishes.set id next)
    (hnext : ∀ call, next.pending = some call → Ready next call) (i : Nat) (p : Publish)
    (call : FirebaseCall) (hp : t.awaiting i = some (p, call)) : Ready p call := by
  rw [awaiting_set hid h] at hp
  split at hp
  · obtain ⟨_, hpending, heq⟩ := Option.map_eq_some_iff.mp hp
    obtain ⟨rfl, rfl⟩ := Prod.mk.inj heq
    exact hnext _ hpending
  · exact hs.ready i p call hp

/-- A publish that waits for nothing any more leaves none in flight. -/
theorem Sound.set_none {s t : Posting} {id : Nat} {publish : Publish × FirebaseCall}
    {next : Publish} (hs : s.Sound) (hid : s.awaiting id = some publish)
    (h : t.publishes = s.publishes.set id next) (hpending : next.pending = none) : t.Sound := by
  have hflight := hs.inFlight_set_none hid h hpending
  refine ⟨hs.ready_set hid h fun c hc => ?_, fun i _ hi => absurd hi (hflight i), fun _ => hflight⟩
  rw [hpending] at hc
  cases hc

theorem Sound.next {s t : Posting} {unfailing : Prop} (hs : s.Sound)
    (h : StepCase s t unfailing) : t.Sound := by
  cases h with
  | started publish call _ henabled hpublishes hbutton _ hpending hready =>
    have hflight := hs.inFlight_concat henabled hpublishes hpending
    refine ⟨fun i p c hp => ?_, fun i j hi hj => ?_, fun hb => ?_⟩
    · rw [awaiting_concat hpublishes] at hp
      split at hp
      · rw [hpending, Option.map_some, Option.some.injEq, Prod.mk.injEq] at hp
        exact hp.1 ▸ hp.2 ▸ hready
      · exact hs.ready i p c hp
    · exact ((hflight i).mp hi).trans ((hflight j).mp hj).symm
    · rw [hbutton] at hb
      cases hb
  | blocked _ _ hpublishes hbutton =>
    have hawaiting : t.awaiting = s.awaiting := by
      funext i
      rw [awaiting, hpublishes, awaiting]
    refine ⟨?_, ?_, fun hb => ?_⟩
    · exact hawaiting ▸ hs.ready
    · simp only [InFlight, hawaiting]
      exact hs.one
    · rw [hbutton] at hb
      cases hb
  | continued id publish next call _ hawaits hpublishes hbutton _ hpending hready =>
    have hflight := hs.inFlight_set hawaits hpublishes
    refine ⟨hs.ready_set hawaits hpublishes fun c hc => ?_, fun i j hi hj => ?_, fun hb => ?_⟩
    · rw [hpending, Option.some.injEq] at hc
      exact hc ▸ hready (hs.ready id _ _ hawaits)
    · exact ((hflight i).mp hi).1.trans ((hflight j).mp hj).1.symm
    · exact absurd (InFlight.of_awaiting hawaits) (hs.idle (hbutton ▸ hb) id)
  | succeeded id publish next document data _ hawaits hpublishes _ _ hpending =>
    exact hs.set_none hawaits hpublishes hpending
  | stopped id publish next _ hawaits hpublishes _ hpending =>
    exact hs.set_none hawaits hpublishes hpending

theorem Sound.of_reachable {f : Foundation} {videoURL : Option URL} {s : Posting}
    (h : (posting f videoURL).Reachable s) : s.Sound := by
  obtain ⟨_, hr⟩ := h
  exact hr.invariant (sound_start f videoURL) fun _ _ _ hs hn => hs.next (stepCase hn)

/-- A settled publish stays settled while its own documents are the same. -/
theorem Settled.of_documents {s t : Posting} {id : Nat} {publish : Publish}
    (h : s.Settled id publish)
    (hd : ∀ document, (id, document) ∈ t.documents ↔ (id, document) ∈ s.documents) :
    t.Settled id publish := by
  obtain ⟨call, hcalls, hsuccess⟩ := h
  refine ⟨call, hcalls, hsuccess.trans ?_⟩
  simp only [Wrote, hd]

theorem Protocol.settled_set {s t : Posting} {id : Nat} {publish : Publish × FirebaseCall}
    {next : Publish} (hp : s.Protocol) (hid : s.awaiting id = some publish)
    (h : t.publishes = s.publishes.set id next)
    (hd : ∀ i document, i ≠ id → ((i, document) ∈ t.documents ↔ (i, document) ∈ s.documents))
    (hnext : next.pending = none → t.Settled id next) (i : Nat) (p : Publish)
    (hlookup : t.publishes[i]? = some p) (hpending : p.pending = none) : t.Settled i p := by
  obtain ⟨hold, _⟩ := awaiting_eq_some_iff.mp hid
  obtain ⟨hlt, _⟩ := List.getElem?_eq_some_iff.mp hold
  rw [h] at hlookup
  by_cases hi : i = id
  · subst hi
    rw [List.getElem?_set_self hlt, Option.some.injEq] at hlookup
    subst hlookup
    exact hnext hpending
  · rw [List.getElem?_set_ne (Ne.symm hi)] at hlookup
    exact (hp.settled i p hlookup hpending).of_documents fun document => hd i document hi

/-- A button that is disabled while nothing is in flight breaks the protocol. -/
theorem not_protocol_of_stuck {s : Posting}
    (hbutton : s.controller.isUserInteractionEnabled = false) (hidle : ∀ id, ¬ s.InFlight id) :
    ¬ s.Protocol := by
  intro hp
  have henabled := hp.button.mpr hidle
  rw [hbutton] at henabled
  cases henabled

/-- While a publish is in flight the button is disabled. -/
theorem Sound.disabled {s : Posting} {id : Nat} (hs : s.Sound) (h : s.InFlight id) :
    s.controller.isUserInteractionEnabled = false := by
  rw [← Bool.not_eq_true]
  exact fun henabled => hs.idle henabled id h

theorem Protocol.started {s t : Posting} {publish : Publish} {call : FirebaseCall}
    (hs : s.Sound) (ht : t.Sound) (hp : s.Protocol)
    (henabled : s.controller.isUserInteractionEnabled = true)
    (hpublishes : t.publishes = s.publishes ++ [publish])
    (hbutton : t.controller.isUserInteractionEnabled = false)
    (hdocuments : t.documents = s.documents) (hpending : publish.pending = some call) :
    t.Protocol where
  one := ht.one
  settled := by
    intro i p hlookup hnone
    rw [hpublishes, List.getElem?_append] at hlookup
    split at hlookup
    · exact (hp.settled i p hlookup hnone).of_documents fun document => by rw [hdocuments]
    · have hmem := List.mem_of_getElem? hlookup
      rw [List.mem_singleton.mp hmem, hpending] at hnone
      cases hnone
  button := by
    rw [hbutton]
    refine iff_of_false Bool.false_ne_true fun hidle => ?_
    exact hidle _ ((hs.inFlight_concat henabled hpublishes hpending _).mpr rfl)

theorem Protocol.continued {s t : Posting} {id : Nat} {publish : Publish × FirebaseCall}
    {next : Publish} {call : FirebaseCall} (hs : s.Sound) (ht : t.Sound) (hp : s.Protocol)
    (hawaits : s.awaiting id = some publish) (hpublishes : t.publishes = s.publishes.set id next)
    (hdocuments : t.documents = s.documents) (hpending : next.pending = some call) :
    t.Protocol where
  one := ht.one
  settled := by
    refine hp.settled_set hawaits hpublishes (fun _ _ _ => by rw [hdocuments]) fun hnone => ?_
    rw [hpending] at hnone
    cases hnone
  button := by
    have hflight : t.InFlight id := by
      rw [hs.inFlight_set hawaits hpublishes, hpending]
      exact ⟨rfl, rfl⟩
    rw [ht.disabled hflight]
    exact iff_of_false Bool.false_ne_true fun hidle => hidle id hflight

theorem Protocol.succeeded {s t : Posting} {id : Nat} {publish next : Publish}
    {document : Document} {data : AnyValue} (hs : s.Sound) (ht : t.Sound) (hp : s.Protocol)
    (hawaits : s.awaiting id = some (publish, .setData document))
    (hpublishes : t.publishes = s.publishes.set id next)
    (hbutton : t.controller.isUserInteractionEnabled = true)
    (hdocuments : t.documents = s.documents ++ [(id, document)])
    (hpending : next.pending = none) (hcalls : next.calls = publish.calls ++ [.success data])
    (hurl : next.downloadURL = publish.downloadURL) : t.Protocol where
  one := ht.one
  settled := by
    refine hp.settled_set hawaits hpublishes (fun i d hi => ?_) fun _ => ?_
    · rw [hdocuments, List.mem_append, List.mem_singleton, Prod.mk.injEq]
      exact or_iff_left fun he => hi he.1
    · have hready := hs.ready id publish _ hawaits
      obtain ⟨url, hdownload, hlookup⟩ := hready.document document rfl
      have hmem : (id, document) ∈ t.documents := by
        rw [hdocuments]
        exact List.mem_append_right _ (List.mem_singleton_self _)
      refine ⟨.success data, ?_, iff_of_true rfl ⟨url, document, ?_, hmem, hlookup⟩⟩
      · rw [hcalls, hready.calls, List.nil_append]
      · rw [hurl, hdownload]
  button := iff_of_true hbutton (hs.inFlight_set_none hawaits hpublishes hpending)

/-- A step keeps the protocol if and only if it is unfailing. -/
theorem Protocol.next_iff {s t : Posting} {unfailing : Prop} (hs : s.Sound) (hp : s.Protocol)
    (h : StepCase s t unfailing) : t.Protocol ↔ unfailing := by
  have ht := hs.next h
  cases h with
  | started publish call smooth henabled hpublishes hbutton hdocuments hpending _ =>
    exact iff_of_true
      (.started hs ht hp henabled hpublishes hbutton hdocuments hpending) smooth
  | blocked failing henabled hpublishes hbutton =>
    refine iff_of_false (not_protocol_of_stuck hbutton fun i hf => hs.idle henabled i ?_) failing
    rwa [InFlight, awaiting, hpublishes] at hf
  | continued id publish next call smooth hawaits hpublishes _ hdocuments hpending _ =>
    exact iff_of_true (.continued hs ht hp hawaits hpublishes hdocuments hpending) smooth
  | succeeded id publish next document data smooth hawaits hpublishes hbutton hdocuments hpending
      hcalls hurl =>
    exact iff_of_true (.succeeded hs ht hp hawaits hpublishes hbutton hdocuments hpending hcalls
      hurl) smooth
  | stopped id publish next failing hawaits hpublishes hbutton hpending =>
    have hdisabled := hbutton.trans (hs.disabled (.of_awaiting hawaits))
    exact iff_of_false (not_protocol_of_stuck hdisabled
      (hs.inFlight_set_none hawaits hpublishes hpending)) failing

theorem protocol_start (f : Foundation) (videoURL : Option URL) :
    (posting f videoURL).start.Protocol where
  one := fun _ _ h => nomatch h
  settled := fun _ _ h => nomatch h
  button := iff_of_true rfl fun _ h => nomatch h

end Posting

/-- The publishing protocol. In every run at most one publish is in flight; every publish
whose calls have all answered has called one handler once, telling whether its document
was written, and the button is enabled exactly while nothing is in flight, in all states of
the run, if and only if every tap finds a video and no answer brings an error or nothing. -/
theorem publishing_protocol_iff {f : Foundation} {videoURL : Option URL}
    {events : List PostingEvent} {s : Posting} (h : (posting f videoURL).Run events s) :
    ((posting f videoURL).AllStates fun t => ∀ i j, t.InFlight i → t.InFlight j → i = j) events ∧
      ((posting f videoURL).AllStates Posting.Protocol events ↔
        (posting f videoURL).AllSteps Posting.Unfailing events) := by
  constructor
  · intro before _ t ht
    exact (Posting.Sound.of_reachable ⟨before, ht⟩).one
  · exact h.allStates_iff_allSteps (Posting.protocol_start f videoURL) fun _ _ _ hr hp hn =>
      Posting.Protocol.next_iff (.of_reachable hr) hp (Posting.stepCase hn)

/-- A publish that succeeds. -/
def publishedOnce : List PostingEvent :=
  [.tap (some "caption") "v" 1000 2000, .putFileAnswered 0 (some ⟨1048576⟩) none,
    .downloadURLAnswered 0 (some ⟨"https://a/v"⟩) none "d", .setDataAnswered 0 none]

theorem publishing_protocol_iff_publishedOnce :
    ((posting .plain (some ⟨"file:v"⟩)).AllStates
        fun t => ∀ i j, t.InFlight i → t.InFlight j → i = j) publishedOnce ∧
      ((posting .plain (some ⟨"file:v"⟩)).AllStates Posting.Protocol publishedOnce ↔
        (posting .plain (some ⟨"file:v"⟩)).AllSteps Posting.Unfailing publishedOnce) :=
  publishing_protocol_iff (Machine.run_iff_exec.mpr rfl)

/-- After a failed upload nothing is in flight and the button stays disabled; without a
download URL no handler is called at all. -/
theorem failed_publish_disables_button :
    (∃ s, (posting .plain (some ⟨"file:v"⟩)).Run
        [.tap none "v" 1000 2000, .putFileAnswered 0 none (some "offline")] s ∧
      s.controller.isUserInteractionEnabled = false ∧ (∀ id, ¬ s.InFlight id) ∧ ¬ s.Protocol) ∧
    ∃ s publish, (posting .plain (some ⟨"file:v"⟩)).Run
        [.tap none "v" 1000 2000, .putFileAnswered 0 (some ⟨1048576⟩) none,
          .downloadURLAnswered 0 none (some "offline") "d"] s ∧
      s.publishes = [publish] ∧ publish.pending = none ∧ publish.calls = [] ∧ ¬ s.Protocol := by
  constructor
  · have hidle : ∀ id, ¬ Posting.InFlight ⟨⟨some ⟨"file:v"⟩, false, ["offline"], 0⟩,
        [{ MediaViewModel.postVideo .plain ⟨"file:v"⟩ "" "v" 1000 2000 with
          pending := none, calls := [.failure "offline"] }], []⟩ id := by
      intro id
      cases id <;> nofun
    exact ⟨_, Machine.run_iff_exec.mpr rfl, rfl, hidle, Posting.not_protocol_of_stuck rfl hidle⟩
  · refine ⟨_, _, Machine.run_iff_exec.mpr rfl, rfl, rfl, rfl, fun hp => ?_⟩
    obtain ⟨call, hcalls, _⟩ := hp.settled 0 _ rfl rfl
    cases hcalls

end TiktokClone
