import CallNet.Engine.WriteQueue
import Mathlib.Data.List.Nodup

/-!
# Durability of the write queue

A job whose push reached the list should leave the system only when its handler has
returned, or after `MAX_ATTEMPTS` failures.  Between the pop and the end of its
handler a job exists only in the memory of the process, and a failed requeue is
ignored, so this does not hold of every run.  `durable_throughout_iff` says of which
runs it does.

`State.pending` is the abstract queue: the jobs in the order in which they will be
handled, the one the worker holds first.  `State.move` says once what a step does to
it; the invariants of the queue are derived from that.
-/

namespace CallNet.WriteQueue

open Machine (Meets Throughout)

variable {π ω : Type} {on : Handlers π ω}

/-! ## The abstract queue -/

/-- The job the worker has popped and not finished. -/
def Worker.job : Worker π → Option (QueuedJob π)
  | .handling job => some job
  | .requeueing job => some job
  | _ => none

/-- The jobs of the system in the order in which they will be handled. -/
def State.pending (s : State π ω) : List (QueuedJob π) := s.worker.job.toList ++ s.list.reverse

/-- The conditions under which a step loses no job: the worker never dies and never fails
    to push back while it holds a job, a popped job reaches it, and has a handler. -/
def Keeps (on : Handlers π ω) (s : State π ω) : Event π → Prop
  | .pop .done => s.worker = .polling → ∀ job, s.list.getLast? = some job → on job.type ≠ none
  | .pop .unacknowledged => s.worker = .polling → s.list = []
  | .requeue .fails => ∀ job, s.worker ≠ .requeueing job
  | .crash => s.worker.job = none
  | _ => True

/-- What a step that loses no job does. -/
inductive Move (on : Handlers π ω) (s s' : State π ω) : Event π → Prop where
  | idle {e : Event π} (hp : s'.pending = s.pending) (ha : s'.accepted = s.accepted)
      (hr : s'.results = s.results) (hw : s'.world = s.world) : Move on s s' e
  | push {reply : Reply} (type : String) (payload : π)
      (hp : s'.pending = s.pending ++
        [{ type, payload, attempts := 0, ticket := s.accepted.length }])
      (ha : s'.accepted = s.accepted ++ [(type, payload)])
      (hr : s'.results = s.results) (hw : s'.world = s.world) :
      Move on s s' (.enqueue type payload reply)
  | returns {now : String} (job : QueuedJob π) (rest : List (QueuedJob π))
      (hp : s.pending = job :: rest) (hp' : s'.pending = rest) (ha : s'.accepted = s.accepted)
      (hr : s'.results = s.results ++ [(job.ticket, true)])
      (hw : (on job.type).bind (fun f => f now job.payload s.world) = some s'.world) :
      Move on s s' (.handler now .returns)
  | fails {now : String} {outcome : HandlerOutcome} (job : QueuedJob π)
      (rest : List (QueuedJob π)) (hk : s.worker = .handling job) (ho : outcome ≠ .returns)
      (hp : s.pending = job :: rest)
      (hp' : s'.pending = if job.attempts + 1 < MAX_ATTEMPTS
        then { job with attempts := job.attempts + 1 } :: rest else rest)
      (ha : s'.accepted = s.accepted) (hr : s'.results = s.results ++ [(job.ticket, false)])
      (hw : s'.world = s.world ∨
        (on job.type).bind (fun f => f now job.payload s.world) = some s'.world) :
      Move on s s' (.handler now outcome)
  | requeue {reply : Reply} (job : QueuedJob π) (rest : List (QueuedJob π))
      (hk : s.worker = .requeueing job) (hp : s.pending = job :: rest)
      (hp' : s'.pending = rest ++ [job]) (ha : s'.accepted = s.accepted)
      (hr : s'.results = s.results) (hw : s'.world = s.world) : Move on s s' (.requeue reply)

/-- What a step that loses a job does: the first one of the queue is gone. -/
structure Loses (s s' : State π ω) : Prop where
  pending : ∃ job, s.pending = job :: s'.pending
  accepted : s'.accepted = s.accepted
  results : s'.results = s.results
  world : s'.world = s.world

@[simp] theorem job_next (s : State π ω) : s.next.job = none := by
  unfold State.next; split <;> rfl

theorem pending_of_idle {s : State π ω} (h : s.worker.job = none) :
    s.pending = s.list.reverse := by
  simp only [State.pending, h, Option.toList_none, List.nil_append]

theorem pending_of_job {s : State π ω} {job : QueuedJob π} (h : s.worker.job = some job) :
    s.pending = job :: s.list.reverse := by
  simp only [State.pending, h, Option.toList_some, List.cons_append, List.nil_append]

/-- The last element of the list is the next to be handled. -/
theorem reverse_of_getLast? {l : List (QueuedJob π)} {job : QueuedJob π}
    (h : l.getLast? = some job) : l.reverse = job :: l.dropLast.reverse := by
  obtain ⟨init, rfl⟩ := List.getLast?_eq_some_iff.mp h
  rw [List.dropLast_concat, List.reverse_append]; rfl

theorem pending_dispatch_none {s : State π ω} {job : QueuedJob π} (h : on job.type = none) :
    (s.dispatch on job).pending = s.list.reverse := by
  unfold State.dispatch
  rw [h]
  exact pending_of_idle (job_next s)

theorem pending_dispatch_some {s : State π ω} {job : QueuedJob π} (h : on job.type ≠ none) :
    (s.dispatch on job).pending = job :: s.list.reverse := by
  obtain ⟨f, hf⟩ := Option.ne_none_iff_exists'.mp h
  unfold State.dispatch
  rw [hf]
  exact pending_of_job rfl

theorem dispatch_frame (on : Handlers π ω) (s : State π ω) (job : QueuedJob π) :
    (s.dispatch on job).accepted = s.accepted ∧ (s.dispatch on job).results = s.results ∧
      (s.dispatch on job).world = s.world := by
  unfold State.dispatch; split <;> exact ⟨rfl, rfl, rfl⟩

/-- The inversion lemma: a step moves the queue, or loses its first job. -/
theorem State.move {s s' : State π ω} {e : Event π} (h : s.step on e = some s') :
    (Keeps on s e ∧ Move on s s' e) ∨ (¬ Keeps on s e ∧ Loses s s') := by
  cases e with
  | enqueue type payload reply =>
    left
    cases reply with
    | fails => cases h; exact ⟨trivial, .idle rfl rfl rfl rfl⟩
    | done | unacknowledged =>
      cases h
      refine ⟨trivial, .push type payload ?_ rfl rfl rfl⟩
      simp only [State.pending, State.push, List.reverse_cons, List.append_assoc]
  | start =>
    left
    simp only [State.step] at h
    split at h
    · rename_i hw
      cases h
      exact ⟨trivial, .idle (by simp [State.pending, hw, Worker.job]) rfl rfl rfl⟩
    · cases h
  | stop => left; cases h; exact ⟨trivial, .idle rfl rfl rfl rfl⟩
  | pop reply =>
    simp only [State.step] at h
    split at h
    · rename_i hw
      have hidle : s.worker.job = none := by rw [hw]; rfl
      have hpend := pending_of_idle hidle
      cases reply with
      | fails =>
        left
        cases h
        refine ⟨trivial, .idle ?_ rfl rfl rfl⟩
        rw [hpend, pending_of_idle (job_next s)]
      | unacknowledged =>
        -- the server has taken the job off, and the worker never gets it
        cases h
        have hpend' : State.pending { s with list := s.list.dropLast, worker := s.next } =
            s.list.dropLast.reverse := pending_of_idle (job_next s)
        cases hl : s.list.getLast? with
        | none =>
          have hnil := List.getLast?_eq_none_iff.mp hl
          refine .inl ⟨fun _ => hnil, .idle ?_ rfl rfl rfl⟩
          rw [hpend', hpend, hnil]; rfl
        | some job =>
          refine .inr ⟨fun hk => ?_, ⟨job, ?_⟩, rfl, rfl, rfl⟩
          · rw [hk hw] at hl; cases hl
          · rw [hpend', hpend, reverse_of_getLast? hl]
      | done =>
        dsimp only at h
        cases hl : s.list.getLast? with
        | none =>
          rw [hl] at h
          cases h
          refine .inl ⟨fun _ job hjob => ?_, .idle ?_ rfl rfl rfl⟩
          · rw [hl] at hjob; cases hjob
          · rw [hpend, pending_of_idle (job_next s)]
        | some job =>
          rw [hl] at h
          cases h
          obtain ⟨ha, hr, hworld⟩ := dispatch_frame on { s with list := s.list.dropLast } job
          -- a job nobody handles is dropped
          by_cases hon : on job.type = none
          · refine .inr ⟨fun hk => hk hw job hl hon, ⟨job, ?_⟩, ha, hr, hworld⟩
            rw [hpend, reverse_of_getLast? hl, pending_dispatch_none hon]
          · refine .inl ⟨fun _ job' hjob => ?_, .idle ?_ ha hr hworld⟩
            · rw [hl] at hjob; cases hjob; exact hon
            · rw [hpend, reverse_of_getLast? hl, pending_dispatch_some hon]
    · cases h
  | handler now outcome =>
    left
    simp only [State.step] at h
    split at h
    · rename_i job hw
      have hpend : s.pending = job :: s.list.reverse := pending_of_job (by rw [hw]; rfl)
      have hfailed : ∀ w : ω, outcome ≠ .returns → (w = s.world ∨
          (on job.type).bind (fun f => f now job.payload s.world) = some w) →
          Move on s (State.failed { s with world := w } job) (.handler now outcome) := by
        intro w ho hw'
        refine .fails job s.list.reverse hw ho hpend ?_ ?_ ?_ ?_ <;> unfold State.failed <;> dsimp only <;>
          split
        · exact pending_of_job rfl
        · exact pending_of_idle (job_next _)
        all_goals first | rfl | exact hw'
      cases outcome with
      | returns =>
        simp only [Option.map_eq_some_iff] at h
        obtain ⟨w, hwritten, rfl⟩ := h
        exact ⟨trivial, .returns job _ hpend (pending_of_idle (job_next s)) rfl rfl hwritten⟩
      | throws => cases h; exact ⟨trivial, hfailed s.world (fun h => nomatch h) (.inl rfl)⟩
      | throwsApplied =>
        simp only [Option.map_eq_some_iff] at h
        obtain ⟨w, hwritten, rfl⟩ := h
        exact ⟨trivial, hfailed w (fun h => nomatch h) (.inr hwritten)⟩
    · cases h
  | requeue reply =>
    simp only [State.step] at h
    split at h
    · rename_i job hw
      have hpend : s.pending = job :: s.list.reverse := pending_of_job (by rw [hw]; rfl)
      cases reply with
      | fails =>
        cases h
        refine .inr ⟨fun hk => hk job hw, ⟨job, ?_⟩, rfl, rfl, rfl⟩
        rw [hpend, pending_of_idle (job_next s)]
      | done | unacknowledged =>
        cases h
        refine .inl ⟨trivial, .requeue job _ hw hpend ?_ rfl rfl rfl⟩
        rw [pending_of_idle (job_next s), List.reverse_cons]
    · cases h
  | crash =>
    cases h
    cases hj : s.worker.job with
    | none =>
      refine .inl ⟨hj, .idle ?_ rfl rfl rfl⟩
      rw [pending_of_idle hj]; rfl
    | some job =>
      refine .inr ⟨fun hk => ?_, ⟨job, ?_⟩, rfl, rfl, rfl⟩
      · rw [show s.worker.job = none from hk] at hj; cases hj
      · rw [pending_of_job hj]; rfl

/-! ## The property -/

/-- Where an accepted job may be: still in the system with the content that was pushed,
    done, or failed as often as it may. -/
def State.Accounted (s : State π ω) (n : Nat) : Prop :=
  (∃ job ∈ s.pending, job.ticket = n ∧ s.accepted[n]? = some (job.type, job.payload)) ∨
    (n, true) ∈ s.results ∨ MAX_ATTEMPTS ≤ s.results.count (n, false)

/-- No accepted job has left the system otherwise. -/
def State.Durable (s : State π ω) : Prop := ∀ n, n < s.accepted.length → s.Accounted n

/-- A pending job is the one that was pushed, has not succeeded, and has counted its
    failures. -/
structure State.JobOk (s : State π ω) (job : QueuedJob π) : Prop where
  content : s.accepted[job.ticket]? = some (job.type, job.payload)
  unfinished : (job.ticket, true) ∉ s.results
  counted : s.results.count (job.ticket, false) = job.attempts
  below : job.attempts < MAX_ATTEMPTS

structure State.Inv (s : State π ω) : Prop where
  durable : s.Durable
  distinct : (s.pending.map QueuedJob.ticket).Nodup
  jobs : ∀ job ∈ s.pending, s.JobOk job

/-- A pending job is not affected by the results of other jobs. -/
theorem State.JobOk.of_other {s s' : State π ω} {job : QueuedJob π} {n : Nat} {b : Bool}
    (h : s.JobOk job) (ha : s'.accepted = s.accepted) (hr : s'.results = s.results ++ [(n, b)])
    (hne : job.ticket ≠ n) : s'.JobOk job := by
  refine ⟨ha ▸ h.content, ?_, ?_, h.below⟩
  · rw [hr, List.mem_append, List.mem_singleton, Prod.mk.injEq]
    exact fun hmem => hmem.elim h.unfinished fun he => hne he.1
  · have hzero : [(n, b)].count (job.ticket, false) = 0 :=
      List.count_eq_zero.mpr fun hmem => hne (Prod.mk.inj (List.mem_singleton.mp hmem)).1
    rw [hr, List.count_append, hzero, h.counted, Nat.add_zero]

/-- Results only grow, so a finished or exhausted job stays accounted for. -/
theorem State.Accounted.of_results {s s' : State π ω} {n : Nat} {rs : List (Nat × Bool)}
    (h : (n, true) ∈ s.results ∨ MAX_ATTEMPTS ≤ s.results.count (n, false))
    (hr : s'.results = s.results ++ rs) : s'.Accounted n := by
  rcases h with h | h
  · exact .inr (.inl (hr ▸ List.mem_append_left _ h))
  · refine .inr (.inr ?_)
    rw [hr, List.count_append]
    omega

/-- Only the first job of the queue has the ticket of the first job. -/
theorem State.Inv.head_ne {s : State π ω} (h : s.Inv) {job : QueuedJob π}
    {rest : List (QueuedJob π)} (hp : s.pending = job :: rest) :
    ∀ j ∈ rest, j.ticket ≠ job.ticket := by
  have hnodup := h.distinct
  rw [hp, List.map_cons, List.nodup_cons] at hnodup
  exact fun j hj he => hnodup.1 (List.mem_map.mpr ⟨j, hj, he⟩)

/-- The head of the queue finishes: its result is recorded and it leaves. -/
theorem State.Inv.of_finish {s s' : State π ω} (h : s.Inv) {job : QueuedJob π}
    {rest : List (QueuedJob π)} {b : Bool} (hp : s.pending = job :: rest)
    (hp' : s'.pending = rest) (ha : s'.accepted = s.accepted)
    (hr : s'.results = s.results ++ [(job.ticket, b)])
    (hdone : b = true ∨ MAX_ATTEMPTS ≤ job.attempts + 1) : s'.Inv := by
  have hne := h.head_ne hp
  refine ⟨fun n hn => ?_, ?_, fun j hj => ?_⟩
  · rw [ha] at hn
    rcases h.durable n hn with ⟨j, hj, rfl, hc⟩ | hrest
    · rw [hp, List.mem_cons] at hj
      rcases hj with rfl | hj
      · rcases hdone with rfl | hmax
        · exact .inr (.inl (hr ▸ List.mem_append_right _ (List.mem_singleton_self _)))
        · cases b with
          | true => exact .inr (.inl (hr ▸ List.mem_append_right _ (List.mem_singleton_self _)))
          | false =>
            refine .inr (.inr ?_)
            have hcount := (h.jobs j (by rw [hp]; exact List.mem_cons_self)).counted
            rw [hr, List.count_append, hcount, List.count_singleton_self]
            exact hmax
      · exact .inl ⟨j, hp' ▸ hj, rfl, ha ▸ hc⟩
    · exact .of_results hrest hr
  · have hnodup := h.distinct
    rw [hp, List.map_cons, List.nodup_cons] at hnodup
    exact hp' ▸ hnodup.2
  · rw [hp'] at hj
    exact (h.jobs j (by rw [hp]; exact List.mem_cons_of_mem _ hj)).of_other ha hr (hne j hj)

/-- The head of the queue fails and is kept with one more attempt. -/
theorem State.Inv.of_retry {s s' : State π ω} (h : s.Inv) {job : QueuedJob π}
    {rest : List (QueuedJob π)} (hp : s.pending = job :: rest)
    (hp' : s'.pending = { job with attempts := job.attempts + 1 } :: rest)
    (ha : s'.accepted = s.accepted) (hr : s'.results = s.results ++ [(job.ticket, false)])
    (hlt : job.attempts + 1 < MAX_ATTEMPTS) : s'.Inv := by
  have hne := h.head_ne hp
  refine ⟨fun n hn => ?_, ?_, fun j hj => ?_⟩
  · rw [ha] at hn
    rcases h.durable n hn with ⟨j, hj, rfl, hc⟩ | hrest
    · rw [hp, List.mem_cons] at hj
      rcases hj with rfl | hj
      · refine .inl ⟨{ j with attempts := j.attempts + 1 }, ?_, rfl, ha ▸ hc⟩
        rw [hp']; exact List.mem_cons_self
      · exact .inl ⟨j, hp' ▸ List.mem_cons_of_mem _ hj, rfl, ha ▸ hc⟩
    · exact .of_results hrest hr
  · have hnodup := h.distinct
    rw [hp] at hnodup
    exact hp' ▸ hnodup
  · rw [hp', List.mem_cons] at hj
    rcases hj with rfl | hj
    · have hjob := h.jobs job (by rw [hp]; exact List.mem_cons_self)
      refine ⟨ha ▸ hjob.content, ?_, ?_, hlt⟩
      · rw [hr, List.mem_append, List.mem_singleton, Prod.mk.injEq]
        exact fun hmem => hmem.elim hjob.unfinished fun he => nomatch he.2
      · rw [hr, List.count_append, hjob.counted, List.count_singleton_self]
    · exact (h.jobs j (by rw [hp]; exact List.mem_cons_of_mem _ hj)).of_other ha hr (hne j hj)

/-- Reordering the queue changes nothing that the invariant speaks of. -/
theorem State.Inv.of_perm {s s' : State π ω} (h : s.Inv) (hp : s'.pending.Perm s.pending)
    (ha : s'.accepted = s.accepted) (hr : s'.results = s.results) : s'.Inv := by
  refine ⟨fun n hn => ?_, ?_, fun j hj => ?_⟩
  · rw [ha] at hn
    rcases h.durable n hn with ⟨j, hj, hn, hc⟩ | hrest
    · exact .inl ⟨j, hp.mem_iff.mpr hj, hn, ha ▸ hc⟩
    · exact .inr (hr ▸ hrest)
  · exact ((hp.map _).nodup_iff).mpr h.distinct
  · have hjob := h.jobs j (hp.mem_iff.mp hj)
    exact ⟨ha ▸ hjob.content, hr ▸ hjob.unfinished, hr ▸ hjob.counted, hjob.below⟩

/-- A push adds a job with a fresh ticket. -/
theorem State.Inv.of_push {s s' : State π ω} (h : s.Inv) (hfresh : ∀ n b, (n, b) ∈ s.results →
    n < s.accepted.length) {type : String} {payload : π}
    (hp : s'.pending = s.pending ++
      [{ type, payload, attempts := 0, ticket := s.accepted.length }])
    (ha : s'.accepted = s.accepted ++ [(type, payload)]) (hr : s'.results = s.results) :
    s'.Inv := by
  have hlt : ∀ j ∈ s.pending, j.ticket < s.accepted.length := fun j hj =>
    (List.getElem?_eq_some_iff.mp (h.jobs j hj).content).1
  have hold : ∀ {n : Nat} {x : String × π}, s.accepted[n]? = some x → s'.accepted[n]? = some x := by
    intro n x hx
    rw [ha, List.getElem?_append_left (List.getElem?_eq_some_iff.mp hx).1, hx]
  have hnew : s'.accepted[s.accepted.length]? = some (type, payload) := by
    rw [ha, List.getElem?_concat_length]
  refine ⟨fun n hn => ?_, ?_, fun j hj => ?_⟩
  · rw [ha, List.length_append, List.length_singleton] at hn
    by_cases hlast : n = s.accepted.length
    · subst hlast
      refine .inl ⟨{ type, payload, attempts := 0, ticket := s.accepted.length }, ?_, rfl, hnew⟩
      rw [hp]; exact List.mem_append_right _ (List.mem_singleton_self _)
    · rcases h.durable n (by omega) with ⟨j, hj, hn, hc⟩ | hrest
      · exact .inl ⟨j, hp ▸ List.mem_append_left _ hj, hn, hold hc⟩
      · exact .inr (hr ▸ hrest)
  · rw [hp, List.map_append, List.nodup_append]
    refine ⟨h.distinct, List.nodup_singleton _, ?_⟩
    rintro n hn m hm rfl
    obtain ⟨j, hj, rfl⟩ := List.mem_map.mp hn
    have hj' := hlt j hj
    have heq : j.ticket = s.accepted.length := List.mem_singleton.mp hm
    omega
  · rw [hp, List.mem_append, List.mem_singleton] at hj
    rcases hj with hj | rfl
    · have hjob := h.jobs j hj
      exact ⟨hold hjob.content, hr ▸ hjob.unfinished, hr ▸ hjob.counted, hjob.below⟩
    · refine ⟨hnew, fun hmem => ?_, ?_, Nat.zero_lt_succ 4⟩
      · exact absurd (hfresh _ _ (hr ▸ hmem)) (Nat.lt_irrefl _)
      · exact List.count_eq_zero.mpr fun hmem =>
          absurd (hfresh _ _ (hr ▸ hmem)) (Nat.lt_irrefl _)

/-! ## Steps and runs -/

/-- Every recorded result belongs to an accepted job. -/
def State.ResultsOk (s : State π ω) : Prop := ∀ n b, (n, b) ∈ s.results → n < s.accepted.length

theorem State.ResultsOk.of_head {s s' : State π ω} (h : s.ResultsOk) (hi : s.Inv)
    {job : QueuedJob π} {rest : List (QueuedJob π)} {b : Bool} (hp : s.pending = job :: rest)
    (ha : s'.accepted = s.accepted) (hr : s'.results = s.results ++ [(job.ticket, b)]) :
    s'.ResultsOk := by
  intro n b' hmem
  rw [hr, List.mem_append, List.mem_singleton, Prod.mk.injEq] at hmem
  rw [ha]
  rcases hmem with hmem | ⟨rfl, -⟩
  · exact h n b' hmem
  · have hjob := hi.jobs job (by rw [hp]; exact List.mem_cons_self)
    exact (List.getElem?_eq_some_iff.mp hjob.content).1

theorem State.Inv.move {s s' : State π ω} {e : Event π} (h : s.Inv) (hr : s.ResultsOk)
    (hm : Move on s s' e) : s'.Inv ∧ s'.ResultsOk := by
  cases hm with
  | idle hp ha hres hw =>
    exact ⟨h.of_perm (hp ▸ .refl _) ha hres, fun n b hmem => ha ▸ hr n b (hres ▸ hmem)⟩
  | push type payload hp ha hres hw =>
    refine ⟨h.of_push hr hp ha hres, fun n b hmem => ?_⟩
    rw [ha, List.length_append]
    exact Nat.lt_add_right _ (hr n b (hres ▸ hmem))
  | returns job rest hp hp' ha hres hw =>
    exact ⟨h.of_finish hp hp' ha hres (.inl rfl), hr.of_head h hp ha hres⟩
  | fails job rest _ _ hp hp' ha hres hw =>
    refine ⟨?_, hr.of_head h hp ha hres⟩
    by_cases hlt : job.attempts + 1 < MAX_ATTEMPTS
    · exact h.of_retry hp (hp'.trans (if_pos hlt)) ha hres hlt
    · exact h.of_finish hp (hp'.trans (if_neg hlt)) ha hres (.inr (by omega))
  | requeue job rest hk hp hp' ha hres hw =>
    refine ⟨h.of_perm ?_ ha hres, fun n b hmem => ha ▸ hr n b (hres ▸ hmem)⟩
    rw [hp, hp']
    exact List.perm_append_singleton job rest

/-- A step that loses a job breaks durability: the job is nowhere, and has neither
    succeeded nor failed often enough. -/
theorem State.Inv.not_durable_of_loses {s s' : State π ω} (h : s.Inv) (hl : Loses s s') :
    ¬ s'.Durable := by
  obtain ⟨job, hp⟩ := hl.pending
  have hjob := h.jobs job (by rw [hp]; exact List.mem_cons_self)
  intro hd
  have hlt : job.ticket < s'.accepted.length := by
    rw [hl.accepted]; exact (List.getElem?_eq_some_iff.mp hjob.content).1
  rcases hd job.ticket hlt with ⟨j, hj, hn, -⟩ | hdone | hmax
  · exact h.head_ne hp j hj hn
  · exact hjob.unfinished (hl.results ▸ hdone)
  · rw [hl.results, hjob.counted] at hmax
    exact absurd hjob.below (Nat.not_lt.mpr hmax)

/-- An event that cannot happen loses nothing. -/
theorem keeps_of_none {s : State π ω} {e : Event π} (h : s.step on e = none) : Keeps on s e := by
  cases e with
  | pop reply =>
    cases reply with
    | fails => trivial
    | done =>
      intro hw
      simp only [State.step, hw] at h
      split at h <;> cases h
    | unacknowledged =>
      intro hw
      simp only [State.step, hw] at h
      cases h
  | requeue reply =>
    cases reply with
    | fails =>
      intro job hw
      simp only [State.step, hw] at h
      cases h
    | _ => trivial
  | crash => cases h
  | _ => trivial

/-- A run from an empty queue is durable in every state it visits exactly when none of its
    steps loses a job. -/
theorem durable_throughout_iff (on : Handlers π ω) (world : ω) (trace : List (Event π)) :
    Throughout (State.step on) State.Durable (.init world) trace ↔
      Meets (State.step on) (Keeps on) (.init world) trace := by
  refine Machine.throughout_iff_meets (I := fun s => s.Inv ∧ s.ResultsOk)
    (P := fun _ _ => True) (fun s h => h.1.durable) ?_ ?_ (fun s e h => keeps_of_none h) ?_
    (Machine.meets_of_mem (H := fun _ => True) fun _ _ => trivial)
  · intro s e s' h _ hk hs
    rcases State.move hs with ⟨-, hm⟩ | ⟨hnk, -⟩
    · exact h.1.move h.2 hm
    · exact absurd hk hnk
  · intro s e s' h _ hs hd
    rcases State.move hs with ⟨hk, -⟩ | ⟨-, hl⟩
    · exact hk
    · exact absurd hd (h.1.not_durable_of_loses hl)
  · refine ⟨⟨fun n hn => absurd hn (Nat.not_lt_zero n), List.nodup_nil, fun j hj => ?_⟩,
      fun n b hmem => ?_⟩
    · cases hj
    · cases hmem

/-- A debit job fails once and Redis refuses the push that would put it back. -/
def failedRequeue : List (Event Payload) :=
  [.enqueue BALANCE_DEBIT (.other "debit of call c1") .done, .start, .pop .done,
   .handler "" .throws, .requeue .fails]

/-- The job has failed once and is gone. -/
theorem durable_fails_failedRequeue :
    ¬ Throughout (State.step (handlers fun _ => none)) State.Durable (.init fun _ => none)
      failedRequeue := by
  intro h
  have hrun : Machine.run (State.step (handlers fun _ => none)) (.init fun _ => none)
      failedRequeue = some ⟨[], .polling, true, fun _ => none,
        [(BALANCE_DEBIT, .other "debit of call c1")], [(0, false)]⟩ := rfl
  have hd := h.last hrun
  rcases hd 0 (by decide) with ⟨j, hj, -⟩ | hdone | hmax
  · cases hj
  · cases hdone with
    | tail _ h => cases h
  · exact absurd hmax (by decide)

end CallNet.WriteQueue
