import CallNet.Engine.Database
import CallNet.ForStd.Machine

/-!
# Eviction from the call log

The call log is a buffer of the 500 newest records.  `history` is the log it would be
without the bound, and the log is always its first 500 records (`callLogs_eq_take`).
An update looks its record up in the log, so it takes effect exactly while fewer than 500
calls have been logged after the call, whatever state the call is in.
-/

namespace CallNet

/-! ## The unbounded log -/

/-- Every call that was logged, newest first, after one more invocation. -/
def extendHistory (logged : List CallLog) (e : CallEnv × CallOp) : List CallLog :=
  match e.2 with
  | .logCall data => e.1.dir.resolveLegs data :: logged
  | .updateCall callId updates =>
    updateFirst (fun c => c.id = callId)
      (fun call => call.assign (pricedUpdates e.1 call updates)) logged

/-- Every call that was logged, newest first, with all updates applied. -/
def history (es : List (CallEnv × CallOp)) : List CallLog := es.foldl extendHistory []

/-- The update reaches the record `call` of `s`: the record changes in place, and its debit
    and its new state are emitted. -/
def CallStore.TakesEffect (s : CallStore) (env : CallEnv) (callId : String)
    (updates : CallUpdate) (call : CallLog) : Prop :=
  let s' := s.updateCall env callId updates
  let call' := call.assign (pricedUpdates env call updates)
  (∃ newer older, s.callLogs = newer ++ call :: older ∧ (∀ c ∈ newer, c.id ≠ callId) ∧
    s'.callLogs = newer ++ call' :: older) ∧
  s'.emitted = s.emitted ++ (debitOf env call updates).toList.map .balanceDebit ++
    [.callUpserted call']

/-! ## Lists -/

theorem updateFirst_append {p : CallLog → Bool} {f : CallLog → CallLog} {newer older : List CallLog}
    {c : CallLog} (hnewer : ∀ b ∈ newer, p b = false) (hc : p c = true) :
    updateFirst p f (newer ++ c :: older) = newer ++ f c :: older := by
  induction newer with
  | nil => simp only [List.nil_append, updateFirst, hc, if_true]
  | cons b newer ih =>
    have hb : p b = false := hnewer b List.mem_cons_self
    have htail := ih fun b' hb' => hnewer b' (List.mem_cons_of_mem _ hb')
    simp only [List.cons_append, updateFirst, hb, htail]
    rfl

theorem updateFirst_of_find?_eq_none {p : CallLog → Bool} {f : CallLog → CallLog}
    {cs : List CallLog} (h : cs.find? p = none) : updateFirst p f cs = cs := by
  induction cs with
  | nil => rfl
  | cons c cs ih =>
    simp only [List.find?_cons] at h
    split at h
    · cases h
    · rename_i hc
      simp only [updateFirst, hc, ih h]
      rfl

/-- Only the first match counts, so an update commutes with cutting the list off. -/
theorem take_updateFirst (p : CallLog → Bool) (f : CallLog → CallLog) (cs : List CallLog)
    (n : Nat) : (updateFirst p f cs).take n = updateFirst p f (cs.take n) := by
  induction cs generalizing n with
  | nil => simp [updateFirst]
  | cons c cs ih =>
    cases n with
    | zero => simp [updateFirst]
    | succ n =>
      simp only [updateFirst, List.take_succ_cons]
      split
      · rfl
      · rw [List.take_succ_cons, ih]

theorem updateFirst_congr {p : CallLog → Bool} {f g : CallLog → CallLog} {cs : List CallLog}
    (h : ∀ c, cs.find? p = some c → f c = g c) : updateFirst p f cs = updateFirst p g cs := by
  induction cs with
  | nil => rfl
  | cons c cs ih =>
    simp only [updateFirst]
    split
    · rename_i hc
      rw [h c (by simp [hc])]
    · rename_i hc
      rw [ih fun c' hc' => h c' (by simpa [List.find?_cons, hc] using hc')]

/-- What is found within the first `n` elements is found there before everything else. -/
theorem find?_take (p : CallLog → Bool) (cs : List CallLog) (n : Nat) :
    (cs.take n).find? p = if cs.findIdx p < n then cs.find? p else none := by
  induction cs generalizing n with
  | nil => simp only [List.take_nil, List.find?_nil, ite_self]
  | cons c cs ih =>
    cases n with
    | zero => simp
    | succ n =>
      simp only [List.take_succ_cons, List.find?_cons, List.findIdx_cons]
      cases p c with
      | true => simp
      | false => simp [ih]

/-! ## The log is the newest part of the history -/

theorem unshiftLog_take (data : CallLog) (cs : List CallLog) :
    unshiftLog data (cs.take 500) = (data :: cs).take 500 := by
  have hlen : (data :: cs.take 500).length = min 500 cs.length + 1 := by simp
  by_cases hfull : 500 ≤ cs.length
  · -- the log was full, and its oldest record drops out
    have hmin : min 500 cs.length = 500 := by omega
    have hlt : 500 < (data :: cs.take 500).length := by omega
    simp only [unshiftLog, hlt, if_true]
    rw [List.dropLast_eq_take, hlen, hmin]
    simp [List.take_take]
  · have hnot : ¬ 500 < (data :: cs.take 500).length := by omega
    simp only [unshiftLog, hnot, if_false]
    rw [List.take_of_length_le (by omega : cs.length ≤ 500),
      List.take_of_length_le (by simp only [List.length_cons]; omega)]

theorem callLogs_logCall (s : CallStore) (env : CallEnv) (data : CallLog) :
    (s.logCall env data).callLogs = unshiftLog (env.dir.resolveLegs data) s.callLogs := rfl

theorem callLogs_updateCall (s : CallStore) (env : CallEnv) (callId : String)
    (updates : CallUpdate) :
    (s.updateCall env callId updates).callLogs = updateFirst (fun c => c.id = callId)
      (fun call => call.assign (pricedUpdates env call updates)) s.callLogs := by
  cases hget : s.getCall callId with
  | none =>
    simp only [CallStore.updateCall, hget]
    exact (updateFirst_of_find?_eq_none hget).symm
  | some call =>
    simp only [CallStore.updateCall, hget]
    apply updateFirst_congr
    intro c hc
    have hcall : some c = some call := hc.symm.trans hget
    rw [Option.some.inj hcall]

theorem callLogs_step {s s' : CallStore} {e : CallEnv × CallOp} {logged : List CallLog}
    (hs : s.callLogs = logged.take 500) (h : s.step e = some s') :
    s'.callLogs = (extendHistory logged e).take 500 := by
  obtain ⟨env, op⟩ := e
  cases op with
  | logCall data =>
    simp only [CallStore.step, Option.some.injEq] at h
    rw [← h, callLogs_logCall, hs, unshiftLog_take]
    rfl
  | updateCall callId updates =>
    simp only [CallStore.step, Option.some.injEq] at h
    rw [← h, callLogs_updateCall, hs, ← take_updateFirst]
    rfl

theorem callLogs_run {s s' : CallStore} {es : List (CallEnv × CallOp)} {logged : List CallLog}
    (hs : s.callLogs = logged.take 500) (h : Machine.run CallStore.step s es = some s') :
    s'.callLogs = (es.foldl extendHistory logged).take 500 := by
  induction es generalizing s logged with
  | nil =>
    simp only [Machine.run, Option.some.injEq] at h
    rw [← h, hs]
    rfl
  | cons e es ih =>
    obtain ⟨t, ht, hrest⟩ := Machine.run_cons.mp h
    exact ih (callLogs_step hs ht) hrest

/-- In every run the log is the newest 500 records of its history. -/
theorem callLogs_eq_take {s : CallStore} {es : List (CallEnv × CallOp)}
    (h : Machine.run CallStore.step .init es = some s) : s.callLogs = (history es).take 500 :=
  callLogs_run (by simp [CallStore.init]) h

/-! ## Updates -/

theorem getCall_of_run {s : CallStore} {es : List (CallEnv × CallOp)}
    (h : Machine.run CallStore.step .init es = some s) (callId : String) :
    s.getCall callId =
      if (history es).findIdx (fun c => c.id = callId) < 500 then
        (history es).find? fun c => c.id = callId
      else none := by
  rw [CallStore.getCall, callLogs_eq_take h, find?_take]

theorem CallStore.takesEffect_of_getCall {s : CallStore} {env : CallEnv} {callId : String}
    {updates : CallUpdate} {call : CallLog} (hget : s.getCall callId = some call) :
    s.TakesEffect env callId updates call := by
  obtain ⟨hid, newer, older, hsplit, hnewer⟩ := List.find?_eq_some_iff_append.mp hget
  have hlogs : (s.updateCall env callId updates).callLogs =
      newer ++ call.assign (pricedUpdates env call updates) :: older := by
    rw [callLogs_updateCall, hsplit]
    exact updateFirst_append (fun b hb => by simpa using hnewer b hb) hid
  refine ⟨⟨newer, older, hsplit, fun c hc => by simpa using hnewer c hc, hlogs⟩, ?_⟩
  simp only [CallStore.updateCall, hget]

theorem CallStore.not_takesEffect_of_getCall {s : CallStore} {env : CallEnv} {callId : String}
    {updates : CallUpdate} {call : CallLog} (hget : s.getCall callId = none) :
    ¬ s.TakesEffect env callId updates call := by
  intro h
  -- a dropped update emits nothing
  have hemitted := h.2
  simp only [CallStore.updateCall, hget] at hemitted
  have hlen := congrArg List.length hemitted
  simp only [List.length_append, List.length_singleton] at hlen
  omega

/-- An update of a logged call takes effect exactly while the record is among the 500
    newest ones. -/
theorem update_takesEffect_iff {es : List (CallEnv × CallOp)} {s : CallStore} {env : CallEnv}
    {callId : String} {updates : CallUpdate} {call : CallLog}
    (hrun : Machine.run CallStore.step .init es = some s)
    (hlogged : (history es).find? (fun c => c.id = callId) = some call) :
    s.TakesEffect env callId updates call ↔
      (history es).findIdx (fun c => c.id = callId) < 500 := by
  have hget := getCall_of_run hrun callId
  by_cases hlt : (history es).findIdx (fun c => c.id = callId) < 500
  · rw [if_pos hlt, hlogged] at hget
    exact ⟨fun _ => hlt, fun _ => CallStore.takesEffect_of_getCall hget⟩
  · rw [if_neg hlt] at hget
    exact ⟨fun h => absurd h (CallStore.not_takesEffect_of_getCall hget), fun h => absurd h hlt⟩

/-! ## A call outlived by the log -/

theorem CallStore.exists_run (s : CallStore) (es : List (CallEnv × CallOp)) :
    ∃ s', Machine.run CallStore.step s es = some s' := by
  induction es generalizing s with
  | nil => exact ⟨s, rfl⟩
  | cons e es ih =>
    obtain ⟨env, op⟩ := e
    cases op with
    | logCall data =>
      obtain ⟨s', hs'⟩ := ih (s.logCall env data)
      exact ⟨s', Machine.run_cons.mpr ⟨_, rfl, hs'⟩⟩
    | updateCall callId updates =>
      obtain ⟨s', hs'⟩ := ih (s.updateCall env callId updates)
      exact ⟨s', Machine.run_cons.mpr ⟨_, rfl, hs'⟩⟩

/-- A database without users and rates. -/
def bareEnv : CallEnv where
  dir := .empty
  rater := none
  billing := { prepaidEnabled := false, currency := "USD" }
  parseDate := fun _ => none

/-- A call that has just been logged. -/
def ringingCall (id : String) : CallLog where
  id
  fromLeg := "1001"
  toLeg := "1002"
  fromName := "Ann"
  status := .ringing
  direction := .outbound
  startTime := "2024-01-01T00:00:00.000Z"

/-- One call, and `n` other calls logged after it. -/
def busyHour (n : Nat) : List (CallEnv × CallOp) :=
  (bareEnv, .logCall (ringingCall "long")) ::
    List.replicate n (bareEnv, .logCall (ringingCall "other"))

theorem update_takesEffect_iff_busyHour :
    ∃ s, Machine.run CallStore.step .init (busyHour 2) = some s ∧
      s.TakesEffect bareEnv "long" { status := some .ended } (ringingCall "long") := by
  obtain ⟨s, hs⟩ := CallStore.exists_run .init (busyHour 2)
  exact ⟨s, hs, (update_takesEffect_iff hs (by decide +kernel)).mpr (by decide +kernel)⟩

/-- The end of a call that 500 others were logged after is dropped. -/
theorem not_takesEffect_evicted :
    ∃ s, Machine.run CallStore.step .init (busyHour 500) = some s ∧
      (history (busyHour 500)).find? (fun c => c.id = "long") = some (ringingCall "long") ∧
      (ringingCall "long").status = .ringing ∧
      ¬ s.TakesEffect bareEnv "long" { status := some .ended } (ringingCall "long") := by
  obtain ⟨s, hs⟩ := CallStore.exists_run .init (busyHour 500)
  have hidx : (history (busyHour 500)).findIdx (fun c => c.id = "long") = 500 := by
    decide +kernel
  have hget : s.getCall "long" = none := by
    rw [getCall_of_run hs, hidx]
    rfl
  exact ⟨s, hs, by decide +kernel, rfl, CallStore.not_takesEffect_of_getCall hget⟩

end CallNet
