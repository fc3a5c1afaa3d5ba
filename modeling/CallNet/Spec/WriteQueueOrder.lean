import CallNet.Spec.WriteQueueDurability

/-!
# Order of call-record upserts

Call records are emitted in the order of their states and `upsertCall` overwrites, so a
drained queue should leave in each row what the last state of its call wrote.  A failed
job is pushed back behind the jobs that came after it, and then overwrites what a newer
job of the same call has written (`last_write_wins_fails_staleRetry`).  The last write
wins in every run in which a failed upsert is put back only while no newer job of its
call is in the list (`last_write_wins`).
-/

namespace CallNet.WriteQueue

open Machine (Meets Throughout)

variable {parseDate : String → Option Int}

abbrev CallState := State Payload CallRecords
abbrev CallJob := QueuedJob Payload

/-! ## The property and the condition -/

/-- The call state that a job of this type and payload writes to the row of `id`. -/
def upsertOf (id type : String) : Payload → Option CallLog
  | .call call => if type = CALL_UPSERT ∧ call.id = id then some call else none
  | .other _ => none

/-- The same for a queued job. -/
def jobUpsert (id : String) (job : CallJob) : Option CallLog := upsertOf id job.type job.payload

/-- The call a job is an upsert of. -/
def jobCall (job : CallJob) : Option String :=
  match job.payload with
  | .call call => if job.type = CALL_UPSERT then some call.id else none
  | .other _ => none

/-- The last state emitted for a call. -/
def State.lastEmitted (s : CallState) (id : String) : Option CallLog :=
  (s.accepted.filterMap fun x => upsertOf id x.1 x.2).getLast?

/-- The row holds what the upsert of this state overwrites. -/
structure Carries (parseDate : String → Option Int) (row : CallRecord) (call : CallLog) : Prop where
  status : row.status = call.status
  duration : durationSeconds parseDate call = some row.duration
  endedAt : row.endedAt = call.endTime
  cost : row.cost = call.cost.getD 0
  currency : row.currency = call.currency
  ratePrefix : row.ratePrefix = call.ratePrefix
  billedSecs : row.billedSecs = call.billedSecs.getD 0

/-- Once the queue has drained, the row of each call carries the last state emitted. -/
def State.LastWriteWins (parseDate : String → Option Int) (s : CallState) : Prop :=
  s.pending = [] → ∀ id call, s.lastEmitted id = some call →
    ∃ row, s.world id = some row ∧ Carries parseDate row call

/-- Handlers may fail, each job fewer than `MAX_ATTEMPTS` times; nothing else goes wrong. -/
def HandlerFailuresOnly (s : CallState) : Event Payload → Prop
  | .enqueue _ _ reply => reply = .done
  | .pop reply => reply ≠ .unacknowledged
  | .handler _ outcome => outcome = .returns ∨
      match s.worker with
      | .handling job => job.attempts + 1 < MAX_ATTEMPTS
      | _ => True
  | .requeue reply => reply = .done
  | .crash => False
  | _ => True

instance (s : CallState) (e : Event Payload) : Decidable (HandlerFailuresOnly s e) := by
  unfold HandlerFailuresOnly
  split
  case h_3 => split <;> infer_instance
  all_goals infer_instance

/-- A failed upsert is put back only while the list holds no other job of its call. -/
def NoNewerBehind (s : CallState) : Event Payload → Prop
  | .requeue _ =>
    match s.worker with
    | .requeueing job => jobCall job = none ∨ ∀ job' ∈ s.list, jobCall job' ≠ jobCall job
    | _ => True
  | _ => True

instance (s : CallState) (e : Event Payload) : Decidable (NoNewerBehind s e) := by
  unfold NoNewerBehind
  split
  · split <;> infer_instance
  · infer_instance

theorem jobUpsert_ne_none {id : String} {job : CallJob} :
    jobUpsert id job ≠ none ↔ jobCall job = some id := by
  unfold jobUpsert jobCall
  cases job.payload with
  | other json => simp [upsertOf]
  | call call => by_cases ht : job.type = CALL_UPSERT <;> simp [upsertOf, ht]

/-! ## What a handler writes -/

theorem carries_record {now : String} {call : CallLog} {row : CallRecord}
    (h : call.record parseDate now = some row) : Carries parseDate row call := by
  simp only [CallLog.record, Option.map_eq_some_iff] at h
  obtain ⟨d, hd, rfl⟩ := h
  exact ⟨rfl, hd, rfl, rfl, rfl, rfl, rfl⟩

theorem Carries.update {old row : CallRecord} {call : CallLog} (h : Carries parseDate row call) :
    Carries parseDate (old.update row) call :=
  ⟨h.status, h.duration, h.endedAt, h.cost, h.currency, h.ratePrefix, h.billedSecs⟩

/-- A handler writes the row of the call its job is an upsert of, and no other row. -/
theorem world_of_handler {now : String} {job : CallJob} {records records' : CallRecords}
    (h : (handlers parseDate job.type).bind (fun f => f now job.payload records) = some records')
    (id : String) :
    (∀ call, jobUpsert id job = some call →
      ∃ row, records' id = some row ∧ Carries parseDate row call) ∧
    (jobUpsert id job = none → records' id = records id) := by
  obtain ⟨type, payload, attempts, ticket⟩ := job
  simp only [jobUpsert] at h ⊢
  by_cases htype : type = CALL_UPSERT
  · cases payload with
    | other json => simp [handlers, htype] at h
    | call call =>
      simp only [handlers, htype, if_true, Option.bind_some, upsertCall,
        Option.map_eq_some_iff] at h
      obtain ⟨row, hrow, rfl⟩ := h
      have hcarries := carries_record hrow
      by_cases hid : call.id = id
      · subst hid
        simp only [upsertOf, htype, and_self, if_true, Option.some.injEq, reduceCtorEq,
          false_implies, and_true]
        rintro _ rfl
        cases records call.id with
        | none => exact ⟨row, rfl, hcarries⟩
        | some old => exact ⟨_, rfl, hcarries.update⟩
      · simp only [upsertOf, hid, and_false, if_false, reduceCtorEq, false_implies, implies_true,
          true_and, Ne.symm hid]
  · have hnone : upsertOf id type payload = none := by
      cases payload with
      | call call => simp [upsertOf, htype]
      | other json => rfl
    simp only [handlers, htype, if_false] at h
    split at h
    · simp only [Option.bind_some, Option.some.injEq] at h
      subst h
      exact ⟨fun call hc => (by rw [hnone] at hc; cases hc), fun _ => rfl⟩
    · cases h

/-! ## The invariant -/

/-- The upserts of one call that are still to be handled, in that order. -/
def State.upserts (s : CallState) (id : String) : List CallLog :=
  s.pending.filterMap (jobUpsert id)

/-- The last upsert still to be handled is the last state emitted; when there is none, the
    row already carries that state. -/
structure State.InOrder (parseDate : String → Option Int) (s : CallState) : Prop where
  last : ∀ id call, (s.upserts id).getLast? = some call → s.lastEmitted id = some call
  row : ∀ id, s.upserts id = [] → ∀ call, s.lastEmitted id = some call →
    ∃ row, s.world id = some row ∧ Carries parseDate row call

theorem State.InOrder.lastWriteWins {s : CallState} (h : s.InOrder parseDate) :
    s.LastWriteWins parseDate := by
  intro hp id call hlast
  exact h.row id (by rw [State.upserts, hp]; rfl) call hlast

theorem upserts_of_cons {s : CallState} {job : CallJob} {rest : List CallJob} (id : String)
    (hp : s.pending = job :: rest) :
    s.upserts id = (jobUpsert id job).toList ++ rest.filterMap (jobUpsert id) := by
  rw [State.upserts, hp, List.filterMap_cons]
  cases jobUpsert id job <;> rfl

theorem lastEmitted_congr {s s' : CallState} (h : s'.accepted = s.accepted) (id : String) :
    s'.lastEmitted id = s.lastEmitted id := by
  rw [State.lastEmitted, State.lastEmitted, h]

/-- Nothing about a call's upserts, its emissions and its row has changed. -/
theorem State.InOrder.of_same {s s' : CallState} (h : s.InOrder parseDate)
    (hu : ∀ id, s'.upserts id = s.upserts id) (ha : s'.accepted = s.accepted)
    (hw : ∀ id, s.upserts id = [] → s'.world id = s.world id) : s'.InOrder parseDate := by
  refine ⟨fun id call hl => ?_, fun id he call hl => ?_⟩
  · rw [lastEmitted_congr ha]
    exact h.last id call (hu id ▸ hl)
  · rw [hu] at he
    rw [lastEmitted_congr ha] at hl
    rw [hw id he]
    exact h.row id he call hl

/-- An emission is the last one, and its job is the last to be handled. -/
theorem State.InOrder.of_push {s s' : CallState} (h : s.InOrder parseDate) {type : String}
    {payload : Payload} {job : CallJob} (hjob : ∀ id, jobUpsert id job = upsertOf id type payload)
    (hp : s'.pending = s.pending ++ [job])
    (ha : s'.accepted = s.accepted ++ [(type, payload)]) (hw : s'.world = s.world) :
    s'.InOrder parseDate := by
  have hu : ∀ id, s'.upserts id = s.upserts id ++ (upsertOf id type payload).toList := by
    intro id
    rw [State.upserts, hp, List.filterMap_append, ← hjob]
    cases hj : jobUpsert id job <;> simp [State.upserts, hj]
  have hlast : ∀ id, s'.lastEmitted id =
      ((s.accepted.filterMap fun x => upsertOf id x.1 x.2) ++
        (upsertOf id type payload).toList).getLast? := by
    intro id
    rw [State.lastEmitted, ha, List.filterMap_append]
    cases hj : upsertOf id type payload <;> simp [hj]
  refine ⟨fun id call hl => ?_, fun id he call hl => ?_⟩
  · rw [hu] at hl
    rw [hlast]
    cases hj : upsertOf id type payload with
    | none =>
      simp only [hj, Option.toList_none, List.append_nil] at hl ⊢
      exact h.last id call hl
    | some c =>
      simp only [hj, Option.toList_some, List.getLast?_concat] at hl ⊢
      exact hl
  · rw [hu, List.append_eq_nil_iff] at he
    obtain ⟨he, hnone⟩ := he
    rw [hlast, hnone, List.append_nil] at hl
    rw [hw]
    exact h.row id he call hl

/-- A finished upsert has written the row, unless newer ones of its call are to follow. -/
theorem State.InOrder.of_returns {s s' : CallState} (h : s.InOrder parseDate) {now : String}
    {job : CallJob} {rest : List CallJob} (hp : s.pending = job :: rest)
    (hp' : s'.pending = rest) (ha : s'.accepted = s.accepted)
    (hw : (handlers parseDate job.type).bind (fun f => f now job.payload s.world) =
      some s'.world) : s'.InOrder parseDate := by
  have hu : ∀ id, s.upserts id = (jobUpsert id job).toList ++ s'.upserts id := by
    intro id
    rw [upserts_of_cons id hp, State.upserts, hp']
  refine ⟨fun id call hl => ?_, fun id he call hl => ?_⟩
  · rw [lastEmitted_congr ha]
    refine h.last id call ?_
    rw [hu, List.getLast?_append, hl, Option.some_or]
  · rw [lastEmitted_congr ha] at hl
    obtain ⟨hwrites, hkeeps⟩ := world_of_handler hw id
    cases hj : jobUpsert id job with
    | none =>
      rw [hkeeps hj]
      exact h.row id (by rw [hu, hj, he]; rfl) call hl
    | some c =>
      have hc : s.lastEmitted id = some c := h.last id c (by rw [hu, hj, he]; rfl)
      rw [hc] at hl
      cases hl
      exact hwrites call hj

/-- A failed upsert that stays first in the queue may have written its row; the row of a
    call without pending upserts is untouched. -/
theorem State.InOrder.of_retry {s s' : CallState} (h : s.InOrder parseDate) {now : String}
    {job : CallJob} {rest : List CallJob} (hp : s.pending = job :: rest)
    (hp' : s'.pending = { job with attempts := job.attempts + 1 } :: rest)
    (ha : s'.accepted = s.accepted) (hw : s'.world = s.world ∨
      (handlers parseDate job.type).bind (fun f => f now job.payload s.world) = some s'.world) :
    s'.InOrder parseDate := by
  refine h.of_same (fun id => ?_) ha fun id he => ?_
  · rw [upserts_of_cons id hp, upserts_of_cons id hp']; rfl
  · rcases hw with hw | hw
    · rw [hw]
    · rw [upserts_of_cons id hp, List.append_eq_nil_iff] at he
      refine (world_of_handler hw id).2 ?_
      cases hj : jobUpsert id job with
      | none => rfl
      | some c => rw [hj] at he; cases he.1

/-- An upsert put back behind the queue keeps the order when it is the only one of its call. -/
theorem State.InOrder.of_requeue {s s' : CallState} (h : s.InOrder parseDate) {job : CallJob}
    {rest : List CallJob} (hp : s.pending = job :: rest) (hp' : s'.pending = rest ++ [job])
    (ha : s'.accepted = s.accepted) (hw : s'.world = s.world)
    (hG : ∀ id, jobUpsert id job ≠ none → ∀ job' ∈ rest, jobUpsert id job' = none) :
    s'.InOrder parseDate := by
  refine h.of_same (fun id => ?_) ha fun id _ => by rw [hw]
  rw [upserts_of_cons id hp, State.upserts, hp', List.filterMap_append]
  cases hj : jobUpsert id job with
  | none => simp [hj]
  | some c =>
    have hrest : rest.filterMap (jobUpsert id) = [] :=
      List.filterMap_eq_nil_iff.mpr (hG id (by rw [hj]; exact fun h => nomatch h))
    simp [hrest, hj]

/-- A job without a handler is no upsert. -/
theorem jobUpsert_of_no_handler {job : CallJob} (h : handlers parseDate job.type = none)
    (id : String) : jobUpsert id job = none := by
  have htype : job.type ≠ CALL_UPSERT := fun ht => by simp [handlers, ht] at h
  unfold jobUpsert
  cases job.payload with
  | call call => simp [upsertOf, htype]
  | other json => rfl

theorem State.InOrder.step {s s' : CallState} {e : Event Payload} (h : s.InOrder parseDate)
    (hP : HandlerFailuresOnly s e) (hG : NoNewerBehind s e)
    (hs : s.step (handlers parseDate) e = some s') : s'.InOrder parseDate := by
  rcases State.move hs with ⟨-, hm⟩ | ⟨hnk, hl⟩
  · cases hm with
    | idle hp ha hr hw =>
      exact h.of_same (fun id => by rw [State.upserts, State.upserts, hp]) ha
        fun id _ => by rw [hw]
    | push type payload hp ha hr hw => exact h.of_push (fun id => rfl) hp ha hw
    | returns job rest hp hp' ha hr hw => exact h.of_returns hp hp' ha hw
    | fails job rest hk ho hp hp' ha hr hw =>
      have hlt : job.attempts + 1 < MAX_ATTEMPTS := by
        simp only [HandlerFailuresOnly, hk] at hP
        exact hP.resolve_left ho
      exact h.of_retry hp (hp'.trans (if_pos hlt)) ha hw
    | requeue job rest hk hp hp' ha hr hw =>
      refine h.of_requeue hp hp' ha hw fun id hj job' hmem => ?_
      have hrest : rest = s.list.reverse := by
        rw [pending_of_job (by rw [hk]; rfl)] at hp
        exact (List.cons.inj hp).2.symm
      simp only [NoNewerBehind, hk] at hG
      have hcall := jobUpsert_ne_none.mp hj
      have hother := hG.resolve_left (by rw [hcall]; exact fun h => nomatch h) job'
        (List.mem_reverse.mp (hrest ▸ hmem))
      by_contra hne
      exact hother ((jobUpsert_ne_none.mp hne).trans hcall.symm)
  · -- the only loss left is a popped job without a handler
    have hdrop : ∃ job rest, handlers parseDate job.type = none ∧ s.pending = job :: rest := by
      cases e with
      | pop reply =>
        cases reply with
        | done =>
          simp only [Keeps, Classical.not_imp, not_forall, not_not] at hnk
          obtain ⟨hw, job, hlast, hon⟩ := hnk
          exact ⟨job, s.list.dropLast.reverse, hon,
            (pending_of_idle (by rw [hw]; rfl)).trans (reverse_of_getLast? hlast)⟩
        | fails => exact absurd trivial hnk
        | unacknowledged => exact absurd rfl hP
      | requeue reply => cases hP; exact absurd trivial hnk
      | crash => exact hP.elim
      | _ => exact absurd trivial hnk
    obtain ⟨job, rest, hon, hp⟩ := hdrop
    obtain ⟨job', hp'⟩ := hl.pending
    rw [hp'] at hp
    obtain ⟨rfl, rfl⟩ := List.cons.inj hp
    refine h.of_same (fun id => ?_) hl.accepted fun id _ => by rw [hl.world]
    rw [upserts_of_cons id hp', jobUpsert_of_no_handler hon id]
    rfl

/-- In every run in which handlers fail, each job fewer than `MAX_ATTEMPTS` times, and a
    failed upsert is put back only while no other job of its call is in the list, the last
    write wins in every state. -/
theorem last_write_wins (parseDate : String → Option Int) (records : CallRecords)
    {trace : List (Event Payload)}
    (hP : Meets (State.step (handlers parseDate)) HandlerFailuresOnly (.init records) trace)
    (hG : Meets (State.step (handlers parseDate)) NoNewerBehind (.init records) trace) :
    Throughout (State.step (handlers parseDate)) (State.LastWriteWins parseDate) (.init records)
      trace := by
  have hinit : State.InOrder parseDate (.init records) :=
    ⟨fun id call hl => (nomatch hl), fun id _ call hl => (nomatch hl)⟩
  have hrun := Machine.throughout_of_meets (I := State.InOrder parseDate)
    (G := fun s e => HandlerFailuresOnly s e ∧ NoNewerBehind s e)
    (fun s e s' h hG hs => h.step hG.1 hG.2 hs) hinit (hP.and hG)
  exact hrun.mono fun s h => h.lastWriteWins

/-- A call as `logCall` emits it, and as it ends. -/
def ringingCall : CallLog :=
  { id := "c1", fromLeg := "1001", toLeg := "1002", fromName := "Alice", status := .ringing,
    direction := .outbound, startTime := "t0" }

def endedCall : CallLog := { ringingCall with status := .ended, duration := some 42 }

/-- The first upsert fails and is put back before the second state is emitted. -/
def promptRetry : List (Event Payload) :=
  [.start, .enqueue CALL_UPSERT (.call ringingCall) .done, .pop .done, .handler "" .throws,
   .requeue .done, .enqueue CALL_UPSERT (.call endedCall) .done,
   .pop .done, .handler "" .returns, .pop .done, .handler "" .returns]

theorem last_write_wins_promptRetry :
    Throughout (State.step (handlers fun _ => none)) (State.LastWriteWins fun _ => none)
      (.init fun _ => none) promptRetry :=
  last_write_wins (fun _ => none) (fun _ => none) (by decide) (by decide)

/-- Both states are emitted before the first upsert fails. -/
def staleRetry : List (Event Payload) :=
  [.start, .enqueue CALL_UPSERT (.call ringingCall) .done,
   .enqueue CALL_UPSERT (.call endedCall) .done, .pop .done, .handler "" .throws,
   .requeue .done, .pop .done, .handler "" .returns, .pop .done, .handler "" .returns]

/-- The queue has drained and the row of the ended call says that it is ringing. -/
theorem last_write_wins_fails_staleRetry :
    Meets (State.step (handlers fun _ => none)) HandlerFailuresOnly (.init fun _ => none)
      staleRetry ∧
    ¬ Throughout (State.step (handlers fun _ => none)) (State.LastWriteWins fun _ => none)
      (.init fun _ => none) staleRetry := by
  refine ⟨by decide, fun h => ?_⟩
  have hlast : ((Machine.run (State.step (handlers fun _ => none)) (.init fun _ => none)
      staleRetry).map fun s => (s.pending.isEmpty, s.lastEmitted "c1",
        (s.world "c1").map CallRecord.status)) =
      some (true, some endedCall, some .ringing) := by decide
  obtain ⟨s, hs, heq⟩ := Option.map_eq_some_iff.mp hlast
  simp only [Prod.mk.injEq, List.isEmpty_iff] at heq
  obtain ⟨hp, hemitted, hstatus⟩ := heq
  obtain ⟨row, hrow, hcarries⟩ := h.last hs hp "c1" endedCall hemitted
  rw [hrow, Option.map_some, Option.some.injEq, hcarries.status] at hstatus
  cases hstatus

end CallNet.WriteQueue
