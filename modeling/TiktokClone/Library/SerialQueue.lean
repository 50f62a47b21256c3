import TiktokClone.Library.Machine

/-!
# Serial queues

Clients submit jobs at any time; the queue runs one job after another on contents
that only its jobs touch. A run of the queue is a sequential execution of the jobs
in the order of their submission, so what a job returns can be computed from the
jobs before it.
-/

namespace TiktokClone.Library

/-- A serial queue with its contents and what its finished jobs returned. -/
structure SerialQueue (σ J R : Type*) where
  contents : σ
  pending : List J
  finished : List (J × R)

namespace SerialQueue

variable {σ J R : Type*}

/-- A client submits a job, or the queue runs the next one. -/
inductive Event (J : Type*)
  | submit (job : J)
  | run

/-- The jobs submitted in a history, in their order. -/
def submitted (events : List (Event J)) : List J :=
  events.filterMap fun
    | .submit job => some job
    | .run => none

variable (start : σ) (execute : σ → J → Option (σ × R))

/-- The queue as a machine; a job without a result stops it. -/
def machine : Machine (SerialQueue σ J R) (Event J) where
  start := ⟨start, [], []⟩
  next q
    | .submit job => some { q with pending := q.pending ++ [job] }
    | .run =>
      match q.pending with
      | [] => none
      | job :: jobs =>
        match execute q.contents job with
        | none => none
        | some (contents, result) => some ⟨contents, jobs, q.finished ++ [(job, result)]⟩

/-- The jobs alone, executed in sequence. -/
def sequential : Machine σ J where
  start := start
  next s job := (execute s job).map Prod.fst

/-- What holds between a history of the queue and its state. -/
structure Serialized (events : List (Event J)) (q : SerialQueue σ J R) : Prop where
  order : submitted events = q.finished.map Prod.fst ++ q.pending
  contents : (sequential start execute).Run (q.finished.map Prod.fst) q.contents
  result : ∀ before job result after, q.finished = before ++ (job, result) :: after →
    ∃ s t, (sequential start execute).Run (before.map Prod.fst) s ∧
      execute s job = some (t, result)

variable {start execute}

theorem submitted_concat (events : List (Event J)) (e : Event J) :
    submitted (events ++ [e]) = submitted events ++ submitted [e] := by
  rw [submitted, List.filterMap_append]
  rfl

theorem Serialized.next {events : List (Event J)} {q r : SerialQueue σ J R} {e : Event J}
    (h : Serialized start execute events q)
    (hn : (machine start execute).next q e = some r) :
    Serialized start execute (events ++ [e]) r := by
  cases e with
  | submit job =>
    cases hn
    refine ⟨?_, h.contents, h.result⟩
    rw [submitted_concat, h.order, List.append_assoc]
    rfl
  | run =>
    simp only [machine] at hn
    split at hn
    · cases hn
    · rename_i job jobs hpending
      split at hn
      · cases hn
      · rename_i contents result hexec
        cases hn
        refine ⟨?_, ?_, ?_⟩
        · rw [submitted_concat, h.order, hpending]
          simp [submitted]
        · rw [List.map_append]
          exact .snoc h.contents (congrArg (Option.map Prod.fst) hexec)
        · intro before job' result' after hsplit
          cases after using List.reverseRecOn with
          | nil =>
            obtain ⟨rfl, hlast⟩ := List.append_inj' hsplit rfl
            cases List.singleton_inj.mp hlast
            exact ⟨_, _, h.contents, hexec⟩
          | append_singleton after last =>
            rw [← List.cons_append, ← List.append_assoc] at hsplit
            obtain ⟨hfinished, _⟩ := List.append_inj' hsplit rfl
            exact h.result _ _ _ _ hfinished

/-- Every run of the queue executes the submitted jobs in their order. -/
theorem serialized_of_run {events : List (Event J)} {q : SerialQueue σ J R}
    (h : (machine start execute).Run events q) : Serialized start execute events q := by
  induction h with
  | nil => exact ⟨rfl, .nil, fun before _ _ _ hsplit => absurd hsplit.symm (by simp [machine])⟩
  | snoc _ hn ih => exact ih.next hn

/-- A submitted job still waits, behind the same jobs, or it has been executed after them. -/
theorem Serialized.waits_or_finished {events : List (Event J)} {q : SerialQueue σ J R}
    (h : Serialized start execute events q) {before after : List J} {job : J}
    (hsubmitted : submitted events = before ++ job :: after) :
    (∃ more, before = q.finished.map Prod.fst ++ more ∧ q.pending = more ++ job :: after) ∨
      ∃ done result more, q.finished = done ++ (job, result) :: more ∧
        done.map Prod.fst = before ∧ after = more.map Prod.fst ++ q.pending := by
  rw [h.order] at hsubmitted
  rcases List.append_eq_append_iff.mp hsubmitted with
    ⟨more, hbefore, hpending⟩ | ⟨rest, hfinished, hafter⟩
  · exact Or.inl ⟨more, hbefore, hpending⟩
  · obtain ⟨done, tail, hsplit, hdone, htail⟩ := List.map_eq_append_iff.mp hfinished
    cases tail with
    | nil =>
      obtain rfl : [] = rest := htail
      refine Or.inl ⟨[], ?_, hafter.symm⟩
      rw [hsplit, List.append_nil, List.append_nil, hdone]
    | cons first more =>
      obtain ⟨job', result⟩ := first
      subst htail
      obtain ⟨rfl, rfl⟩ := List.cons.inj hafter
      exact Or.inr ⟨done, result, more, hsplit, hdone, rfl⟩

/-- The queue can run its next job unless this job has no result. -/
theorem next_run_isSome {q : SerialQueue σ J R} {job : J} {jobs : List J}
    (hpending : q.pending = job :: jobs) (h : (execute q.contents job).isSome = true) :
    ((machine start execute).next q .run).isSome = true := by
  obtain ⟨⟨contents, result⟩, hexec⟩ := Option.isSome_iff_exists.mp h
  simp only [machine, hpending, hexec, Option.isSome_some]

/-! ### Jobs under other names -/

variable {K : Type*}

/-- The event for the job under its other name. -/
def Event.map (f : J → K) : Event J → Event K
  | submit job => submit (f job)
  | run => run

/-- The queue with the other names of its jobs. -/
def map (f : J → K) (q : SerialQueue σ J R) : SerialQueue σ K R :=
  ⟨q.contents, q.pending.map f, q.finished.map fun job => (f job.1, job.2)⟩

theorem submitted_map (f : J → K) (events : List (Event J)) :
    submitted (events.map (Event.map f)) = (submitted events).map f := by
  induction events with
  | nil => rfl
  | cons e events ih =>
    cases e with
    | submit job => exact congrArg (f job :: ·) ih
    | run => exact ih

/-- Jobs that are executed by their other names may as well be submitted by them. -/
theorem run_map {execute : σ → K → Option (σ × R)} {f : J → K} {events : List (Event J)}
    {q : SerialQueue σ J R}
    (h : (machine start fun s job => execute s (f job)).Run events q) :
    (machine start execute).Run (events.map (Event.map f)) (q.map f) := by
  induction h with
  | nil => exact .nil
  | @snoc events q e r _ hn ih =>
    rw [List.map_append]
    refine .snoc ih ?_
    cases e with
    | submit job =>
      cases hn
      exact congrArg some (by simp [map])
    | run =>
      simp only [machine] at hn
      split at hn
      · cases hn
      · rename_i job jobs hpending
        split at hn
        · cases hn
        · rename_i contents result hexec
          cases hn
          have hexec' : execute (q.map f).contents (f job) = some (contents, result) := hexec
          have hpending' : (q.map f).pending = f job :: jobs.map f := by
            rw [map, hpending, List.map_cons]
          simp only [Event.map, machine, hpending', hexec']
          simp [map]

end SerialQueue

end TiktokClone.Library
