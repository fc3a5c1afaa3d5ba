import CallNet.Spec.DebitEmission
import CallNet.Spec.WriteQueueOrder

/-!
# The stored row of a call

`logCall` inserts the row of a call and every `updateCall` upserts it again.  The conflict
clause of the upsert overwrites the columns that carry a call's progress and leaves seven
others as they were inserted, while an update may change any field of the record in memory.
So after all upserts the row mirrors the record, and is read back as it, exactly when the
updates leave these seven fields with their logged values.
-/

namespace CallNet

/-! ## What the row should be -/

/-- Every column equals the field it is written from.  A record without a cost or billed
    time has 0 there, and one without a duration has the time between its stamps. -/
structure Mirrors (parseDate : String → Option Int) (row : CallRecord) (call : CallLog) :
    Prop where
  fromLeg : row.fromLeg = call.fromLeg
  toLeg : row.toLeg = call.toLeg
  fromName : row.fromName = call.fromName
  direction : row.direction = call.direction
  status : row.status = call.status
  duration : durationSeconds parseDate call = some row.duration
  startedAt : row.startedAt = call.startTime
  endedAt : row.endedAt = call.endTime
  fromExt : row.fromExt = call.fromExt
  toExt : row.toExt = call.toExt
  cost : row.cost = call.cost.getD 0
  currency : row.currency = call.currency
  ratePrefix : row.ratePrefix = call.ratePrefix
  billedSecs : row.billedSecs = call.billedSecs.getD 0

/-- The record with the numbers its row holds where it has none itself. -/
def CallLog.stored (parseDate : String → Option Int) (call : CallLog) : CallLog :=
  { call with
    duration := durationSeconds parseDate call
    cost := some (call.cost.getD 0)
    billedSecs := some (call.billedSecs.getD 0) }

/-- The row and the record agree, and the row is read back as the record. -/
def Persisted (parseDate : String → Option Int) (toIso : String → String) (row : CallRecord)
    (call : CallLog) : Prop :=
  Mirrors parseDate row call ∧ row.toCallLog toIso call.id = call.stored parseDate

/-! ## The updates of one call -/

/-- The updates of a call, each with the environment it runs in. -/
abbrev Updates := List (CallEnv × CallUpdate)

/-- A call is logged and then updated. -/
def callOps (env : CallEnv) (data : CallLog) (us : Updates) : List (CallEnv × CallOp) :=
  (env, .logCall data) :: us.map fun u => (u.1, .updateCall data.id u.2)

/-- The value of a field after the updates: the last one given, or else the old one. -/
def lastGiven (g : CallUpdate → Option α) (us : Updates) (old : α) : α :=
  us.foldl (fun v u => (g u.2).getD v) old

/-- The last update that gives the field, if any, gives the value it had. -/
def Restores (g : CallUpdate → Option α) (us : Updates) (old : α) : Prop :=
  lastGiven g us old = old

/-- The updates leave the fields that the upsert never overwrites as they were logged. -/
structure KeepsInserted (logged : CallLog) (us : Updates) : Prop where
  fromLeg : Restores CallUpdate.fromLeg us logged.fromLeg
  toLeg : Restores CallUpdate.toLeg us logged.toLeg
  fromName : Restores CallUpdate.fromName us logged.fromName
  direction : Restores CallUpdate.direction us logged.direction
  startTime : Restores CallUpdate.startTime us logged.startTime
  fromExt : Restores CallUpdate.fromExt us logged.fromExt
  toExt : Restores CallUpdate.toExt us logged.toExt

/-- The record after the updates. -/
def applyUpdates (call : CallLog) (us : Updates) : CallLog :=
  us.foldl (fun c u => c.assign (pricedUpdates u.1 c u.2)) call

/-- The states a record passes through, newest last. -/
def statesAfter (call : CallLog) : Updates → List CallLog
  | [] => []
  | u :: us =>
    let call' := call.assign (pricedUpdates u.1 call u.2)
    call' :: statesAfter call' us

/-- The states whose upserts are queued. -/
def upsertsOf (emitted : List DbEvent) : List CallLog :=
  emitted.filterMap fun
    | .callUpserted call => some call
    | .balanceDebit _ => none

/-- The upserts of a list of states, each at its time, one after the other. -/
def upsertAll (parseDate : String → Option Int) :
    List (String × CallLog) → WriteQueue.CallRecords → Option WriteQueue.CallRecords
  | [], records => some records
  | (now, call) :: jobs, records =>
    (WriteQueue.upsertCall parseDate now call records).bind (upsertAll parseDate jobs)

theorem pricedUpdates_eq (env : CallEnv) (call : CallLog) (updates : CallUpdate) :
    ∃ cost currency ratePrefix billedSecs,
      pricedUpdates env call updates = { updates with cost, currency, ratePrefix, billedSecs } := by
  have hsame : updates = { updates with } := rfl
  simp only [pricedUpdates]
  split
  · split
    · -- the rater merges the billing fields and nothing else
      simp only [RatingService.applyToEndedCall]
      split
      · exact ⟨_, _, _, _, hsame⟩
      · split
        · exact ⟨_, _, _, _, hsame⟩
        · exact ⟨_, _, _, _, rfl⟩
    · exact ⟨_, _, _, _, hsame⟩
  · exact ⟨_, _, _, _, hsame⟩

/-- A field that is assigned from one property of the updates, which pricing leaves alone. -/
theorem field_applyUpdates {f : CallLog → α} {g : CallUpdate → Option α}
    (hassign : ∀ env call updates,
      f (call.assign (pricedUpdates env call updates)) = (g updates).getD (f call))
    (call : CallLog) (us : Updates) : f (applyUpdates call us) = lastGiven g us (f call) := by
  induction us generalizing call with
  | nil => rfl
  | cons u us ih =>
    have hhead := hassign u.1 call u.2
    have htail := ih (call.assign (pricedUpdates u.1 call u.2))
    simp only [applyUpdates, lastGiven, List.foldl_cons] at htail ⊢
    rw [htail, hhead]

/-- The fields the upsert leaves alone end as they were logged. -/
theorem keepsInserted_iff (logged : CallLog) (us : Updates) :
    KeepsInserted logged us ↔
      (applyUpdates logged us).fromLeg = logged.fromLeg ∧
      (applyUpdates logged us).toLeg = logged.toLeg ∧
      (applyUpdates logged us).fromName = logged.fromName ∧
      (applyUpdates logged us).direction = logged.direction ∧
      (applyUpdates logged us).startTime = logged.startTime ∧
      (applyUpdates logged us).fromExt = logged.fromExt ∧
      (applyUpdates logged us).toExt = logged.toExt := by
  have hpriced := pricedUpdates_eq
  rw [field_applyUpdates (f := CallLog.fromLeg) (g := CallUpdate.fromLeg),
    field_applyUpdates (f := CallLog.toLeg) (g := CallUpdate.toLeg),
    field_applyUpdates (f := CallLog.fromName) (g := CallUpdate.fromName),
    field_applyUpdates (f := CallLog.direction) (g := CallUpdate.direction),
    field_applyUpdates (f := CallLog.startTime) (g := CallUpdate.startTime),
    field_applyUpdates (f := CallLog.fromExt) (g := CallUpdate.fromExt),
    field_applyUpdates (f := CallLog.toExt) (g := CallUpdate.toExt)]
  · exact ⟨fun h => ⟨h.1, h.2, h.3, h.4, h.5, h.6, h.7⟩,
      fun ⟨h1, h2, h3, h4, h5, h6, h7⟩ => ⟨h1, h2, h3, h4, h5, h6, h7⟩⟩
  all_goals
    intro env call updates
    obtain ⟨cost, currency, ratePrefix, billedSecs, heq⟩ := hpriced env call updates
    rw [heq]
    rfl

/-! ## What the log emits for a call -/

theorem getCall_logCall_self (s : CallStore) (env : CallEnv) (data : CallLog) :
    (s.logCall env data).getCall data.id = some (env.dir.resolveLegs data) := by
  simp only [CallStore.getCall, CallStore.logCall, unshiftLog]
  split
  · rename_i hlong
    cases hlogs : s.callLogs with
    | nil => simp [hlogs] at hlong
    | cons c cs => simp [Directory.resolveLegs]
  · simp [Directory.resolveLegs]

theorem upsertsOf_append (evs evs' : List DbEvent) :
    upsertsOf (evs ++ evs') = upsertsOf evs ++ upsertsOf evs' := by
  simp only [upsertsOf, List.filterMap_append]

theorem upsertsOf_debits (jobs : List BalanceDebitJob) :
    upsertsOf (jobs.map .balanceDebit) = [] := by
  simp [upsertsOf, List.filterMap_map]

/-- An update of a record in the log emits its new state. -/
theorem emitted_updateCall {s : CallStore} {callId : String} {call : CallLog}
    (hget : s.getCall callId = some call) (env : CallEnv) (updates : CallUpdate) :
    ∃ evs, (s.updateCall env callId updates).emitted = s.emitted ++ evs ∧
      upsertsOf evs = [call.assign (pricedUpdates env call updates)] := by
  refine ⟨(debitOf env call updates).toList.map .balanceDebit ++
    [.callUpserted (call.assign (pricedUpdates env call updates))], ?_, ?_⟩
  · simp only [CallStore.updateCall, hget, List.append_assoc]
  · rw [upsertsOf_append, upsertsOf_debits]
    rfl

/-- The updates of a call leave the record with all of them applied, and emit the states it
    passes through. -/
theorem run_updates {s s' : CallStore} {id : String} {call : CallLog} {us : Updates}
    (hget : s.getCall id = some call) (hids : ∀ u ∈ us, u.2.id = none)
    (h : Machine.run CallStore.step s (us.map fun u => (u.1, .updateCall id u.2)) = some s') :
    s'.getCall id = some (applyUpdates call us) ∧
      ∃ evs, s'.emitted = s.emitted ++ evs ∧ upsertsOf evs = statesAfter call us := by
  induction us generalizing s call with
  | nil =>
    simp only [List.map_nil, Machine.run, Option.some.injEq] at h
    exact ⟨h ▸ hget, [], by rw [h, List.append_nil], rfl⟩
  | cons u us ih =>
    simp only [List.map_cons] at h
    obtain ⟨t, ht, hrest⟩ := Machine.run_cons.mp h
    simp only [CallStore.step, Option.some.injEq] at ht
    -- the first update
    have hu : u.2.id = none := hids u List.mem_cons_self
    obtain ⟨evs, hevs, hups⟩ := emitted_updateCall hget u.1 u.2
    have hget' : t.getCall id = some (call.assign (pricedUpdates u.1 call u.2)) := by
      rw [← ht, getCall_updateCall hu, if_pos rfl, hget]
      rfl
    -- and the others
    obtain ⟨hlast, evs', hevs', hups'⟩ :=
      ih hget' (fun u' hu' => hids u' (List.mem_cons_of_mem _ hu')) hrest
    refine ⟨hlast, evs ++ evs', ?_, ?_⟩
    · rw [hevs', ← ht, hevs, List.append_assoc]
    · rw [upsertsOf_append, hups, hups']
      rfl

theorem run_callOps {s s' : CallStore} {env : CallEnv} {data : CallLog} {us : Updates}
    (hids : ∀ u ∈ us, u.2.id = none)
    (h : Machine.run CallStore.step s (callOps env data us) = some s') :
    let logged := env.dir.resolveLegs data
    s'.getCall data.id = some (applyUpdates logged us) ∧
      ∃ evs, s'.emitted = s.emitted ++ evs ∧ upsertsOf evs = logged :: statesAfter logged us := by
  obtain ⟨t, ht, hrest⟩ := Machine.run_cons.mp h
  simp only [CallStore.step, Option.some.injEq] at ht
  have hget : t.getCall data.id = some (env.dir.resolveLegs data) := by
    rw [← ht, getCall_logCall_self]
  obtain ⟨hlast, evs, hevs, hups⟩ := run_updates hget hids hrest
  refine ⟨hlast, .callUpserted (env.dir.resolveLegs data) :: evs, ?_, ?_⟩
  · rw [hevs, ← ht]
    simp only [CallStore.logCall, List.append_assoc, List.singleton_append]
  · simp only [upsertsOf, List.filterMap_cons] at hups ⊢
    rw [hups]

/-! ## What the upserts leave in the row -/

/-- The row of a call after the upserts of its states: the columns of progress come from the
    last state, the others from the first. -/
structure RowOf (parseDate : String → Option Int) (row : CallRecord) (first last : CallLog) :
    Prop where
  carries : WriteQueue.Carries parseDate row last
  fromLeg : row.fromLeg = first.fromLeg
  toLeg : row.toLeg = first.toLeg
  fromName : row.fromName = first.fromName
  direction : row.direction = first.direction
  startedAt : row.startedAt = first.startTime
  fromExt : row.fromExt = first.fromExt
  toExt : row.toExt = first.toExt

theorem rowOf_record {parseDate : String → Option Int} {now : String} {call : CallLog}
    {row : CallRecord} (h : call.record parseDate now = some row) :
    RowOf parseDate row call call := by
  have hcarries := WriteQueue.carries_record h
  simp only [CallLog.record, Option.map_eq_some_iff] at h
  obtain ⟨d, hd, rfl⟩ := h
  exact ⟨hcarries, rfl, rfl, rfl, rfl, rfl, rfl, rfl⟩

theorem RowOf.update {parseDate : String → Option Int} {now : String} {old row : CallRecord}
    {first last call : CallLog} (hold : RowOf parseDate old first last)
    (h : call.record parseDate now = some row) : RowOf parseDate (old.update row) first call :=
  ⟨(WriteQueue.carries_record h).update, hold.fromLeg, hold.toLeg, hold.fromName,
    hold.direction, hold.startedAt, hold.fromExt, hold.toExt⟩

theorem upsertAll_rowOf {parseDate : String → Option Int} {jobs : List (String × CallLog)}
    {records records' : WriteQueue.CallRecords} {row : CallRecord} {first last : CallLog}
    {us : Updates} {id : String} (hjobs : jobs.map Prod.snd = statesAfter last us)
    (hid : last.id = id) (hids : ∀ u ∈ us, u.2.id = none) (hrow : records id = some row)
    (hof : RowOf parseDate row first last) (h : upsertAll parseDate jobs records = some records') :
    ∃ row', records' id = some row' ∧ RowOf parseDate row' first (applyUpdates last us) := by
  induction us generalizing jobs records row last with
  | nil =>
    have hnil : jobs = [] := List.map_eq_nil_iff.mp hjobs
    rw [hnil] at h
    simp only [upsertAll, Option.some.injEq] at h
    exact ⟨row, h ▸ hrow, hof⟩
  | cons u us ih =>
    obtain ⟨job, rest, rfl, hcall, htail⟩ := List.map_eq_cons_iff.mp hjobs
    obtain ⟨now, call⟩ := job
    simp only at hcall
    have hu : u.2.id = none := hids u List.mem_cons_self
    have hid' : call.id = id := by
      rw [hcall, CallLog.assign, pricedUpdates_id, hu]
      exact hid
    simp only [upsertAll, WriteQueue.upsertCall, Option.bind_eq_some_iff,
      Option.map_eq_some_iff] at h
    obtain ⟨records₁, ⟨excluded, hexcluded, hrecords⟩, hrest⟩ := h
    have hrow' : records₁ id = some (row.update excluded) := by
      rw [← hrecords]
      dsimp only
      rw [if_pos hid'.symm, hrow]
    have hof' := hof.update hexcluded
    rw [hcall] at hof' hid'
    exact ih htail hid' (fun u' hu' => hids u' (List.mem_cons_of_mem _ hu')) hrow' hof' hrest

/-- The row of a fresh call after the upserts of all its states. -/
theorem upsertAll_fresh {parseDate : String → Option Int} {jobs : List (String × CallLog)}
    {records records' : WriteQueue.CallRecords} {logged : CallLog} {us : Updates}
    (hjobs : jobs.map Prod.snd = logged :: statesAfter logged us)
    (hids : ∀ u ∈ us, u.2.id = none) (hfresh : records logged.id = none)
    (h : upsertAll parseDate jobs records = some records') :
    ∃ row, records' logged.id = some row ∧
      RowOf parseDate row logged (applyUpdates logged us) := by
  obtain ⟨job, rest, rfl, hcall, htail⟩ := List.map_eq_cons_iff.mp hjobs
  obtain ⟨now, call⟩ := job
  simp only at hcall
  subst hcall
  simp only [upsertAll, WriteQueue.upsertCall, Option.bind_eq_some_iff,
    Option.map_eq_some_iff] at h
  obtain ⟨records₁, ⟨row, hrow, rfl⟩, hrest⟩ := h
  refine upsertAll_rowOf htail rfl hids ?_ (rowOf_record hrow) hrest
  rw [if_pos rfl, hfresh]

/-! ## The row against the record -/

/-- The times of a call are written as `toISOString` writes them. -/
structure Stamped (toIso : String → String) (data : CallLog) (us : Updates) : Prop where
  start : toIso data.startTime = data.startTime
  logged : ∀ t, data.endTime = some t → toIso t = t
  given : ∀ u ∈ us, ∀ t, u.2.endTime = some (some t) → toIso t = t

/-- The record has the numbers of its own that the row never lacks. -/
structure CallLog.Filled (call : CallLog) : Prop where
  duration : call.duration ≠ none
  cost : call.cost ≠ none
  billedSecs : call.billedSecs ≠ none

theorem CallLog.Filled.stored {parseDate : String → Option Int} {call : CallLog}
    (h : call.Filled) : call.stored parseDate = call := by
  obtain ⟨duration, hduration⟩ := Option.ne_none_iff_exists'.mp h.duration
  obtain ⟨cost, hcost⟩ := Option.ne_none_iff_exists'.mp h.cost
  obtain ⟨billedSecs, hbilled⟩ := Option.ne_none_iff_exists'.mp h.billedSecs
  have hseconds : durationSeconds parseDate call = call.duration := by
    simp only [durationSeconds, hduration]
  have hcost' : some (call.cost.getD 0) = call.cost := by rw [hcost]; rfl
  have hbilled' : some (call.billedSecs.getD 0) = call.billedSecs := by rw [hbilled]; rfl
  rw [CallLog.stored, hseconds, hcost', hbilled']

/-- A property of the value a field ends with. -/
theorem lastGiven_induct {P : α → Prop} {g : CallUpdate → Option α} {us : Updates} {old : α}
    (hold : P old) (hgiven : ∀ u ∈ us, ∀ v, g u.2 = some v → P v) : P (lastGiven g us old) := by
  induction us generalizing old with
  | nil => exact hold
  | cons u us ih =>
    have htail : ∀ u' ∈ us, ∀ v, g u'.2 = some v → P v :=
      fun u' hu' => hgiven u' (List.mem_cons_of_mem _ hu')
    have hhead : P ((g u.2).getD old) := by
      cases hg : g u.2 with
      | none => exact hold
      | some v => exact hgiven u List.mem_cons_self v hg
    exact ih hhead htail

theorem Stamped.endTime {toIso : String → String} {data : CallLog} {us : Updates}
    (h : Stamped toIso data us) (env : CallEnv) {t : String}
    (ht : (applyUpdates (env.dir.resolveLegs data) us).endTime = some t) : toIso t = t := by
  have hlast : (applyUpdates (env.dir.resolveLegs data) us).endTime =
      lastGiven CallUpdate.endTime us data.endTime := by
    rw [field_applyUpdates (f := CallLog.endTime) (g := CallUpdate.endTime)]
    · rfl
    · intro env call updates
      obtain ⟨cost, currency, ratePrefix, billedSecs, heq⟩ := pricedUpdates_eq env call updates
      rw [heq]
      rfl
  rw [hlast] at ht
  have hall : ∀ t, lastGiven CallUpdate.endTime us data.endTime = some t → toIso t = t :=
    lastGiven_induct (P := fun v => ∀ t, v = some t → toIso t = t) h.logged
      (fun u hu v hv t hvt => h.given u hu t (hvt ▸ hv))
  exact hall t ht

theorem RowOf.mirrors {parseDate : String → Option Int} {row : CallRecord} {logged : CallLog}
    {us : Updates} (h : RowOf parseDate row logged (applyUpdates logged us))
    (hkeeps : KeepsInserted logged us) : Mirrors parseDate row (applyUpdates logged us) := by
  obtain ⟨h1, h2, h3, h4, h5, h6, h7⟩ := (keepsInserted_iff logged us).mp hkeeps
  exact
    { fromLeg := h.fromLeg.trans h1.symm
      toLeg := h.toLeg.trans h2.symm
      fromName := h.fromName.trans h3.symm
      direction := h.direction.trans h4.symm
      status := h.carries.status
      duration := h.carries.duration
      startedAt := h.startedAt.trans h5.symm
      endedAt := h.carries.endedAt
      fromExt := h.fromExt.trans h6.symm
      toExt := h.toExt.trans h7.symm
      cost := h.carries.cost
      currency := h.carries.currency
      ratePrefix := h.carries.ratePrefix
      billedSecs := h.carries.billedSecs }

theorem RowOf.keepsInserted {parseDate : String → Option Int} {row : CallRecord}
    {logged : CallLog} {us : Updates} (h : RowOf parseDate row logged (applyUpdates logged us))
    (hm : Mirrors parseDate row (applyUpdates logged us)) : KeepsInserted logged us :=
  (keepsInserted_iff logged us).mpr
    ⟨hm.fromLeg.symm.trans h.fromLeg, hm.toLeg.symm.trans h.toLeg,
      hm.fromName.symm.trans h.fromName, hm.direction.symm.trans h.direction,
      hm.startedAt.symm.trans h.startedAt, hm.fromExt.symm.trans h.fromExt,
      hm.toExt.symm.trans h.toExt⟩

/-- A row that mirrors a record with well-formed times is read back as the record. -/
theorem Mirrors.toCallLog {parseDate : String → Option Int} {toIso : String → String}
    {row : CallRecord} {call : CallLog} (h : Mirrors parseDate row call)
    (hstart : toIso row.startedAt = row.startedAt)
    (hend : ∀ t, call.endTime = some t → toIso t = t) :
    row.toCallLog toIso call.id = call.stored parseDate := by
  have hended : row.endedAt.map toIso = call.endTime := by
    rw [h.endedAt]
    cases hcall : call.endTime with
    | none => rfl
    | some t => rw [Option.map_some, hend t hcall]
  have hstarted : toIso row.startedAt = call.startTime := hstart.trans h.startedAt
  simp only [CallRecord.toCallLog, CallLog.stored, CallLog.mk.injEq]
  exact ⟨trivial, h.fromLeg, h.toLeg, h.fromName, h.status, h.direction, hstarted, hended,
    h.duration.symm, h.fromExt, h.toExt, congrArg some h.cost, h.currency, h.ratePrefix,
    congrArg some h.billedSecs⟩

theorem RowOf.of_toCallLog {parseDate : String → Option Int} {toIso : String → String}
    {row : CallRecord} {logged : CallLog} {us : Updates} {id : String}
    (h : RowOf parseDate row logged (applyUpdates logged us))
    (hstart : toIso logged.startTime = logged.startTime)
    (heq : row.toCallLog toIso id = applyUpdates logged us) :
    KeepsInserted logged us ∧ (applyUpdates logged us).Filled := by
  rw [keepsInserted_iff]
  have hstarted : toIso row.startedAt = logged.startTime := by rw [h.startedAt, hstart]
  rw [← heq]
  exact ⟨⟨h.fromLeg, h.toLeg, h.fromName, h.direction, hstarted, h.fromExt, h.toExt⟩,
    ⟨nofun, nofun, nofun⟩⟩

/-- A call is logged, updated and upserted after each step: its row mirrors the record and
    is read back as it exactly when the updates leave the inserted columns' fields as they
    were.  It is read back to the letter exactly when, besides, the record has a duration, a
    cost and a billed time of its own. -/
theorem persisted_iff {parseDate : String → Option Int} {toIso : String → String}
    {s s' : CallStore} {env : CallEnv} {data : CallLog} {us : Updates}
    {jobs : List (String × CallLog)} {records records' : WriteQueue.CallRecords}
    (hids : ∀ u ∈ us, u.2.id = none) (htimes : Stamped toIso data us)
    (hrun : Machine.run CallStore.step s (callOps env data us) = some s')
    (hjobs : jobs.map Prod.snd = upsertsOf (s'.emitted.drop s.emitted.length))
    (hfresh : records data.id = none) (hupserts : upsertAll parseDate jobs records = some records') :
    ∃ row call, records' data.id = some row ∧ s'.getCall data.id = some call ∧
      (Persisted parseDate toIso row call ↔ KeepsInserted (env.dir.resolveLegs data) us) ∧
      (row.toCallLog toIso call.id = call ↔
        KeepsInserted (env.dir.resolveLegs data) us ∧ call.Filled) := by
  obtain ⟨hget, evs, hevs, hups⟩ := run_callOps hids hrun
  have hdrop : s'.emitted.drop s.emitted.length = evs := by rw [hevs, List.drop_left]
  rw [hdrop, hups] at hjobs
  obtain ⟨row, hrow, hof⟩ := upsertAll_fresh hjobs hids hfresh hupserts
  have hstart : toIso row.startedAt = row.startedAt := by
    rw [hof.startedAt]
    exact htimes.start
  -- with the inserted columns' fields unchanged the row is read back as stored
  have hback : KeepsInserted (env.dir.resolveLegs data) us →
      row.toCallLog toIso (applyUpdates (env.dir.resolveLegs data) us).id =
        (applyUpdates (env.dir.resolveLegs data) us).stored parseDate :=
    fun hkeeps => (hof.mirrors hkeeps).toCallLog hstart fun t ht => htimes.endTime env ht
  refine ⟨row, _, hrow, hget, ?_, ?_⟩
  · exact ⟨fun h => hof.keepsInserted h.1, fun hkeeps => ⟨hof.mirrors hkeeps, hback hkeeps⟩⟩
  · constructor
    · exact hof.of_toCallLog htimes.start
    · rintro ⟨hkeeps, hfilled⟩
      rw [hback hkeeps, hfilled.stored]

/-! ## A call that is put through elsewhere -/

/-- A call to a meeting's number. -/
def meetingCall : CallLog where
  id := "call"
  fromLeg := "1001"
  toLeg := "1002"
  fromName := "Ann"
  status := .ringing
  direction := .inbound
  startTime := "2024-01-01T00:00:00.000Z"

/-- An environment without users and rates. -/
def plainEnv : CallEnv where
  dir := .empty
  rater := none
  billing := { prepaidEnabled := false, currency := "USD" }
  parseDate := fun _ => none

/-- A call without updates of its number and direction. -/
def answeredUpdates : Updates := [(plainEnv, { status := some .answered })]

/-- The updates of a call that joins a meeting. -/
def meetingUpdates : Updates :=
  [(plainEnv, { toLeg := some "teams:42", direction := some .outbound }),
    (plainEnv, { status := some .answered })]

/-- The upserts a store has queued, all at one time. -/
def queuedUpserts (s : CallStore) : List (String × CallLog) :=
  (upsertsOf s.emitted).map fun call => ("2024-01-01T00:01:00.000Z", call)

theorem persisted_iff_answered :
    ∃ s records row call,
      Machine.run CallStore.step .init (callOps plainEnv meetingCall answeredUpdates) = some s ∧
      upsertAll (fun _ => none) (queuedUpserts s) (fun _ => none) = some records ∧
      records "call" = some row ∧ s.getCall "call" = some call ∧
      Persisted (fun _ => none) id row call := by
  obtain ⟨s, hs⟩ : ∃ s, Machine.run CallStore.step .init
    (callOps plainEnv meetingCall answeredUpdates) = some s := ⟨_, rfl⟩
  obtain ⟨records, hrecords⟩ : ∃ records,
      upsertAll (fun _ => none) (queuedUpserts s) (fun _ => none) = some records := by
    cases hs
    exact ⟨_, rfl⟩
  have hkeeps : KeepsInserted (plainEnv.dir.resolveLegs meetingCall) answeredUpdates :=
    ⟨rfl, rfl, rfl, rfl, rfl, rfl, rfl⟩
  have htimes : Stamped id meetingCall answeredUpdates := ⟨rfl, fun _ _ => rfl, fun _ _ _ _ => rfl⟩
  have hids : ∀ u ∈ answeredUpdates, u.2.id = none := by simp [answeredUpdates]
  have hjobs : (queuedUpserts s).map Prod.snd =
      upsertsOf (s.emitted.drop CallStore.init.emitted.length) := by
    rw [queuedUpserts, List.map_map]
    exact List.map_id _
  obtain ⟨row, call, hrow, hget, hiff, _⟩ := persisted_iff hids htimes hs hjobs rfl hrecords
  exact ⟨s, records, row, call, hs, hrecords, hrow, hget, hiff.mpr hkeeps⟩

/-- The row of a call that joined a meeting keeps the dialed number and the direction of the
    caller's leg. -/
theorem not_persisted_meeting :
    ∃ s records row call,
      Machine.run CallStore.step .init (callOps plainEnv meetingCall meetingUpdates) = some s ∧
      upsertAll (fun _ => none) (queuedUpserts s) (fun _ => none) = some records ∧
      records "call" = some row ∧ s.getCall "call" = some call ∧
      row.toLeg = "1002" ∧ call.toLeg = "teams:42" ∧
      row.direction = .inbound ∧ call.direction = .outbound ∧
      ¬ Persisted (fun _ => none) id row call := by
  refine ⟨_, _, _, _, rfl, rfl, rfl, rfl, rfl, rfl, rfl, rfl, ?_⟩
  intro h
  have hto : "1002" = "teams:42" := h.1.toLeg
  exact absurd hto (by decide)

end CallNet
