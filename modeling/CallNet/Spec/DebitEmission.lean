import CallNet.ForStd.Machine
import CallNet.Engine.Database

/-!
# Emission of wallet debits

`updateCall` prices a call when an update ends it, stamps the cost on the record and
emits the debit.  For any sequence of `logCall` and `updateCall`, with repeated and
contradictory updates, each call id gets at most one debit, for the cost that is stamped
and stays stamped (`debit_emitted_once`).

Records are found by their `id`, which an update may overwrite.  Renaming a second record
to an id that was charged before gets that id a second debit (`debited_twice_renamed`), so
the updates considered leave the `id` alone.
-/

namespace CallNet

open Machine (Meets Throughout)

/-! ## The property -/

/-- The debit an event carries. -/
def DbEvent.debit? : DbEvent → Option BalanceDebitJob
  | .balanceDebit job => some job
  | .callUpserted _ => none

/-- Every debit emitted so far. -/
def CallStore.debits (s : CallStore) : List BalanceDebitJob := s.emitted.filterMap DbEvent.debit?

/-- The debits emitted for a call id. -/
def CallStore.debitsOf (s : CallStore) (c : String) : List BalanceDebitJob :=
  s.debits.filter fun job => job.callId = c

/-- The store with the call ids whose record has received an `ended` update. -/
structure Tracked where
  store : CallStore
  ended : List String

def Tracked.step (t : Tracked) (e : CallEnv × CallOp) : Option Tracked :=
  (t.store.step e).map fun store =>
    { store
      ended := match e.2 with
        | .updateCall callId updates =>
          if updates.status = some .ended ∧ (t.store.getCall callId).isSome then callId :: t.ended
          else t.ended
        | .logCall _ => t.ended }

def Tracked.init : Tracked := ⟨.init, []⟩

/-- The updates carry no cost fields of their own. -/
def CallUpdate.NoCost (u : CallUpdate) : Prop :=
  u.cost = none ∧ u.currency = none ∧ u.ratePrefix = none ∧ u.billedSecs = none

instance (u : CallUpdate) : Decidable u.NoCost := inferInstanceAs (Decidable (_ ∧ _))

/-- A call is not logged again once it has ended, and updates carry no cost fields. -/
def NotRelogged (t : Tracked) (e : CallEnv × CallOp) : Prop :=
  match e.2 with
  | .logCall data => data.id ∉ t.ended
  | .updateCall _ updates => updates.NoCost

instance (t : Tracked) (e : CallEnv × CallOp) : Decidable (NotRelogged t e) := by
  unfold NotRelogged; split <;> infer_instance

/-- The invocation does not rename a record. -/
def KeepsId (e : CallEnv × CallOp) : Prop :=
  match e.2 with
  | .logCall _ => True
  | .updateCall _ updates => updates.id = none

/-- Each call id has at most one debit, for the cost stamped on its record. -/
structure DebitsOk (s : CallStore) : Prop where
  once : ∀ c, (s.debitsOf c).length ≤ 1
  stamped : ∀ job ∈ s.debits, ∀ call, s.getCall job.callId = some call →
    call.cost = some job.amount

/-- What a step may do with debits and stamped costs. -/
structure EmitsOk (s s' : CallStore) (e : CallEnv × CallOp) : Prop where
  /-- A debit is emitted only by an `ended` update of a call that is rated, at a positive
      cost, with that amount, and the cost is stamped on the record. -/
  emits : s'.debits = s.debits ∨ ∃ callId updates call rater cost job call',
    e.2 = .updateCall callId updates ∧ updates.status = some .ended ∧
    s.getCall callId = some call ∧ call.cost = none ∧ e.1.rater = some rater ∧
    (rater.applyToEndedCall e.1.parseDate call updates
      ((callerOf e.1 call).bind SipUser.ratePlanId)).cost = some (some cost) ∧ 0 < cost ∧
    s'.debits = s.debits ++ [job] ∧ job.callId = callId ∧ job.amount = cost ∧
    s'.getCall callId = some call' ∧ call'.cost = some cost
  /-- An update of a call with a stamped cost keeps the cost and emits no debit. -/
  keeps : ∀ callId updates call cost, e.2 = .updateCall callId updates →
    s.getCall callId = some call → call.cost = some cost →
    s'.debits = s.debits ∧ ∃ call', s'.getCall callId = some call' ∧ call'.cost = some cost

/-! ## Each invocation -/

theorem debits_logCall (s : CallStore) (env : CallEnv) (data : CallLog) :
    (s.logCall env data).debits = s.debits := by
  simp only [CallStore.debits, CallStore.logCall, List.filterMap_append]
  exact List.append_nil _

/-- What is found in the log with a new record was the new record or found before. -/
theorem find?_unshiftLog {data : CallLog} {l : List CallLog} {p : CallLog → Bool} {call : CallLog}
    (h : (unshiftLog data l).find? p = some call) :
    (p data ∧ call = data) ∨ l.find? p = some call := by
  have hfull : (data :: l).find? p = some call := by
    unfold unshiftLog at h
    dsimp only at h
    split at h
    · -- the oldest record is dropped, and what is still found is found first
      exact (List.dropLast_prefix _).find?_eq_some h
    · exact h
  by_cases hp : p data
  · rw [List.find?_cons_of_pos hp, Option.some.injEq] at hfull
    exact .inl ⟨hp, hfull.symm⟩
  · rw [List.find?_cons_of_neg hp] at hfull
    exact .inr hfull

/-- After `logCall` an id finds the new record or what it found before. -/
theorem getCall_logCall {s : CallStore} {env : CallEnv} {data call : CallLog} {c : String}
    (h : (s.logCall env data).getCall c = some call) :
    (data.id = c ∧ call = env.dir.resolveLegs data) ∨ s.getCall c = some call := by
  rcases find?_unshiftLog h with ⟨hp, rfl⟩ | h
  · exact .inl ⟨of_decide_eq_true hp, rfl⟩
  · exact .inr h

theorem getCall_id {s : CallStore} {c : String} {call : CallLog} (h : s.getCall c = some call) :
    call.id = c := by
  have hp := List.find?_some (p := fun x : CallLog => x.id = c) h
  exact of_decide_eq_true hp

/-- Changing the first record of an id, keeping its id, changes what that id finds only. -/
theorem find?_updateFirst {c c' : String} {call' : CallLog} (hid : call'.id = c)
    (l : List CallLog) :
    (updateFirst (fun x => x.id = c) (fun _ => call') l).find? (fun x => x.id = c') =
      if c' = c then (l.find? fun x => x.id = c).map fun _ => call'
      else l.find? fun x => x.id = c' := by
  induction l with
  | nil => simp [updateFirst]
  | cons x xs ih =>
    by_cases hx : x.id = c
    · by_cases hc : c' = c
      · subst hc; simp [updateFirst, hx, hid]
      · have hne : ¬ c = c' := fun h => hc h.symm
        simp [updateFirst, hx, hid, hc, hne]
    · by_cases hc : c' = c
      · subst hc; simpa [updateFirst, hx] using ih
      · by_cases hx' : x.id = c'
        · subst hx'; simp [updateFirst, hx]
        · simpa [updateFirst, hx, hx', hc] using ih

theorem pricedUpdates_id (env : CallEnv) (call : CallLog) (u : CallUpdate) :
    (pricedUpdates env call u).id = u.id := by
  unfold pricedUpdates
  split
  · split
    · unfold RatingService.applyToEndedCall
      split
      · rfl
      · split <;> rfl
    · rfl
  · rfl

/-- An update without an id changes only what its own call id finds. -/
theorem getCall_updateCall {s : CallStore} {env : CallEnv} {callId : String} {u : CallUpdate}
    (hu : u.id = none) (c : String) :
    (s.updateCall env callId u).getCall c =
      if c = callId then (s.getCall callId).map fun call => call.assign (pricedUpdates env call u)
      else s.getCall c := by
  cases hg : s.getCall callId with
  | none =>
    simp only [CallStore.updateCall, hg, Option.map_none]
    split
    · rename_i h; rw [h, hg]
    · rfl
  | some call =>
    have hid : (call.assign (pricedUpdates env call u)).id = callId := by
      simp only [CallLog.assign, pricedUpdates_id, hu, Option.getD_none, getCall_id hg]
    have hfind : s.callLogs.find? (fun x => x.id = callId) = some call := hg
    simp only [CallStore.updateCall, hg]
    rw [CallStore.getCall, find?_updateFirst hid, hfind, Option.map_some, Option.map_some,
      CallStore.getCall]

theorem debits_updateCall (s : CallStore) (env : CallEnv) (callId : String) (u : CallUpdate) :
    (s.updateCall env callId u).debits =
      s.debits ++ ((s.getCall callId).bind fun call => debitOf env call u).toList := by
  cases hg : s.getCall callId with
  | none => simp [CallStore.updateCall, hg]
  | some call =>
    simp only [CallStore.updateCall, hg, CallStore.debits, List.filterMap_append,
      Option.bind_some, List.append_assoc]
    cases debitOf env call u <;> simp [DbEvent.debit?]

/-! ## Pricing -/

/-- When a debit is emitted, and for what. -/
theorem debitOf_eq_some {env : CallEnv} {call : CallLog} {u : CallUpdate} {job : BalanceDebitJob}
    (h : debitOf env call u = some job) :
    u.status = some .ended ∧ call.cost = none ∧ job.callId = call.id ∧ 0 < job.amount ∧
      (pricedUpdates env call u).cost = some (some job.amount) ∧
      ∃ rater, env.rater = some rater ∧ pricedUpdates env call u =
        rater.applyToEndedCall env.parseDate call u ((callerOf env call).bind SipUser.ratePlanId) := by
  unfold debitOf at h
  split at h
  · rename_i hcond
    obtain ⟨hrater, hended, hcost⟩ := hcond
    obtain ⟨rater, hrater⟩ := Option.isSome_iff_exists.mp hrater
    dsimp only at h
    split at h
    · rename_i caller cost hcaller hnext
      split at h
      · rename_i hpos
        cases h
        refine ⟨hended, hcost, rfl, hpos.2, hnext, rater, hrater, ?_⟩
        simp only [pricedUpdates, hrater, hended, hcost, and_self, if_true]
      · cases h
    · cases h
  · cases h

/-- A stamped record is not priced again. -/
theorem pricedUpdates_of_stamped {env : CallEnv} {call : CallLog} {u : CallUpdate} {cost : Rat}
    (h : call.cost = some cost) : pricedUpdates env call u = u := by
  unfold pricedUpdates
  split
  · rw [if_neg]
    rintro ⟨-, hnone⟩
    rw [h] at hnone; cases hnone
  · rfl

theorem debitOf_of_stamped {env : CallEnv} {call : CallLog} {u : CallUpdate} {cost : Rat}
    (h : call.cost = some cost) : debitOf env call u = none := by
  cases hd : debitOf env call u with
  | none => rfl
  | some job =>
    have := (debitOf_eq_some hd).2.1
    rw [h] at this; cases this

theorem assign_cost (call : CallLog) (u : CallUpdate) :
    (call.assign u).cost = u.cost.getD call.cost := rfl

/-! ## Steps and runs -/

/-- The invariant: the debits are in order, and only ended calls have one. -/
structure Tracked.Inv (t : Tracked) : Prop where
  ok : DebitsOk t.store
  ended : ∀ job ∈ t.store.debits, job.callId ∈ t.ended

/-- A log entry changes no debit and no charged record. -/
theorem Tracked.Inv.logCall {t : Tracked} (h : t.Inv) {env : CallEnv} {data : CallLog}
    (hnew : data.id ∉ t.ended) : Tracked.Inv ⟨t.store.logCall env data, t.ended⟩ := by
  refine ⟨⟨fun c => ?_, fun job hjob call hget => ?_⟩, fun job hjob => ?_⟩
  · simp only [CallStore.debitsOf, debits_logCall]
    exact h.ok.once c
  · rw [debits_logCall] at hjob
    rcases getCall_logCall hget with ⟨hid, -⟩ | hget
    · exact absurd (h.ended job hjob) (hid ▸ hnew)
    · exact h.ok.stamped job hjob call hget
  · rw [debits_logCall] at hjob
    exact h.ended job hjob

/-- An update emits a debit only for a call that has none. -/
theorem no_debit_of_unstamped {t : Tracked} (h : t.Inv) {call : CallLog} {callId : String}
    (hget : t.store.getCall callId = some call) (hcost : call.cost = none) :
    t.store.debitsOf callId = [] := by
  simp only [CallStore.debitsOf, List.filter_eq_nil_iff, decide_eq_true_eq]
  rintro job hjob rfl
  have := h.ok.stamped job hjob call hget
  rw [hcost] at this; cases this

theorem Tracked.Inv.updateCall {t : Tracked} (h : t.Inv) {env : CallEnv} {callId : String}
    {u : CallUpdate} (hcost : u.NoCost) (hid : u.id = none) {ended : List String}
    (hended : ∀ c ∈ t.ended, c ∈ ended)
    (hnow : u.status = some .ended → (t.store.getCall callId).isSome → callId ∈ ended) :
    Tracked.Inv ⟨t.store.updateCall env callId u, ended⟩ := by
  have hdebits := debits_updateCall t.store env callId u
  cases hg : t.store.getCall callId with
  | none =>
    have hsame : t.store.updateCall env callId u = t.store := by
      simp only [CallStore.updateCall, hg]
    rw [hsame]
    exact ⟨h.ok, fun job hjob => hended _ (h.ended job hjob)⟩
  | some call =>
    rw [hg, Option.bind_some] at hdebits
    have hfind := @getCall_updateCall t.store env callId _ hid
    -- the debits there were keep their records' cost
    have hold : ∀ job ∈ t.store.debits, ∀ call',
        (t.store.updateCall env callId u).getCall job.callId = some call' →
        call'.cost = some job.amount := by
      intro job hjob call' hget
      rw [hfind] at hget
      split at hget
      · rename_i hc
        rw [hg, Option.map_some, Option.some.injEq] at hget
        have hstamp := h.ok.stamped job hjob call (hc ▸ hg)
        rw [← hget, assign_cost, pricedUpdates_of_stamped hstamp, hcost.1, Option.getD_none, hstamp]
      · exact h.ok.stamped job hjob call' hget
    cases hd : debitOf env call u with
    | none =>
      rw [hd, Option.toList_none, List.append_nil] at hdebits
      refine ⟨⟨fun c => ?_, fun job hjob => ?_⟩, fun job hjob => ?_⟩
      · simp only [CallStore.debitsOf, hdebits]
        exact h.ok.once c
      · exact hold job (hdebits ▸ hjob)
      · exact hended _ (h.ended job (hdebits ▸ hjob))
    | some job =>
      rw [hd, Option.toList_some] at hdebits
      obtain ⟨hend, hnone, hcall, -, hpriced, -⟩ := debitOf_eq_some hd
      have hcallId : job.callId = callId := hcall.trans (getCall_id hg)
      refine ⟨⟨fun c => ?_, fun job' hjob' => ?_⟩, fun job' hjob' => ?_⟩
      · simp only [CallStore.debitsOf, hdebits, List.filter_append]
        by_cases hc : callId = c
        · have hempty := no_debit_of_unstamped h hg hnone
          simp only [CallStore.debitsOf, hc] at hempty
          rw [hempty, List.nil_append]
          exact List.length_filter_le _ _
        · have hne : ¬ job.callId = c := fun h => hc (hcallId ▸ h)
          simpa [List.filter_cons, hne, CallStore.debitsOf] using h.ok.once c
      · rw [hdebits, List.mem_append, List.mem_singleton] at hjob'
        rcases hjob' with hjob' | rfl
        · exact hold job' hjob'
        · intro call' hget
          rw [hfind, if_pos hcallId, hg, Option.map_some, Option.some.injEq] at hget
          rw [← hget, assign_cost, hpriced, Option.getD_some]
      · rw [hdebits, List.mem_append, List.mem_singleton] at hjob'
        rcases hjob' with hjob' | rfl
        · exact hended _ (h.ended job' hjob')
        · rw [hcallId]
          exact hnow hend (by rw [hg]; rfl)

theorem Tracked.Inv.step {t t' : Tracked} {e : CallEnv × CallOp} (h : t.Inv)
    (hP : NotRelogged t e) (hid : KeepsId e) (hs : t.step e = some t') : t'.Inv := by
  obtain ⟨env, op⟩ := e
  cases op with
  | logCall data => cases hs; exact h.logCall hP
  | updateCall callId u =>
    cases hs
    refine h.updateCall hP hid (fun c hc => ?_) fun hend hsome => ?_
    · dsimp only
      split
      · exact List.mem_cons_of_mem _ hc
      · exact hc
    · dsimp only
      rw [if_pos ⟨hend, hsome⟩]
      exact List.mem_cons_self

theorem emitsOk_step {t t' : Tracked} {e : CallEnv × CallOp} (hP : NotRelogged t e)
    (hid : KeepsId e) (hs : t.step e = some t') : EmitsOk t.store t'.store e := by
  obtain ⟨env, op⟩ := e
  cases op with
  | logCall data =>
    cases hs
    exact ⟨.inl (debits_logCall ..), fun _ _ _ _ he => nomatch he⟩
  | updateCall callId u =>
    cases hs
    have hcost : u.NoCost := hP
    have hdebits := debits_updateCall t.store env callId u
    refine ⟨?_, fun c u' call cost he hget hstamp => ?_⟩
    · cases hg : t.store.getCall callId with
      | none =>
        rw [hg, Option.bind_none, Option.toList_none, List.append_nil] at hdebits
        exact .inl hdebits
      | some call =>
        rw [hg, Option.bind_some] at hdebits
        cases hd : debitOf env call u with
        | none =>
          rw [hd, Option.toList_none, List.append_nil] at hdebits
          exact .inl hdebits
        | some job =>
          rw [hd, Option.toList_some] at hdebits
          obtain ⟨hend, hnone, hcall, hpos, hpriced, rater, hrater, heq⟩ := debitOf_eq_some hd
          refine .inr ⟨callId, u, call, rater, job.amount, job,
            call.assign (pricedUpdates env call u), rfl, hend, hg, hnone, hrater, heq ▸ hpriced,
            hpos, hdebits, hcall.trans (getCall_id hg), rfl, ?_, ?_⟩
          · rw [getCall_updateCall hid, if_pos rfl, hg, Option.map_some]
          · rw [assign_cost, hpriced, Option.getD_some]
    · cases he
      rw [hget, Option.bind_some, debitOf_of_stamped hstamp, Option.toList_none,
        List.append_nil] at hdebits
      refine ⟨hdebits, call.assign (pricedUpdates env call u), ?_, ?_⟩
      · rw [getCall_updateCall hid, if_pos rfl, hget, Option.map_some]
      · rw [assign_cost, pricedUpdates_of_stamped hstamp, hcost.1, Option.getD_none, hstamp]

/-- In every run that logs no call again after its end, and whose updates carry neither
    cost fields nor an id, each call id has at most one debit in every state, for the cost
    stamped on its record; a debit is emitted only by an `ended` update of a call rated at a
    positive cost; and no later update changes the stamped cost or emits again. -/
theorem debit_emitted_once {trace : List (CallEnv × CallOp)}
    (hP : Meets Tracked.step NotRelogged .init trace) (hid : ∀ e ∈ trace, KeepsId e) :
    Throughout Tracked.step (fun t => DebitsOk t.store) .init trace ∧
      Meets Tracked.step
        (fun t e => ∀ t', t.step e = some t' → EmitsOk t.store t'.store e) .init trace := by
  have hinit : Tracked.init.Inv :=
    ⟨⟨fun c => Nat.zero_le 1, fun job hjob => nomatch hjob⟩, fun job hjob => nomatch hjob⟩
  have hboth := hP.and (Machine.meets_of_mem hid)
  refine ⟨?_, ?_⟩
  · exact (Machine.throughout_of_meets (I := Tracked.Inv)
      (fun t e t' h hP hs => h.step hP.1 hP.2 hs) hinit hboth).mono fun t h => h.ok
  · exact .of_invariant (I := Tracked.Inv) (fun t e t' h hP hs => h.step hP.1 hP.2 hs)
      (fun t e _ hP t' hs => emitsOk_step hP.1 hP.2 hs) hinit hboth

/-- User 1001, a plan that charges 6 a minute to +91, and prepaid billing. -/
def prepaidEnv : CallEnv :=
  { dir := Directory.empty.upsertUser "1001" "alice" "Alice" "+911111111111"
    rater := some (.ofRows [{ id := 1, currency := "USD", isDefault := true, rates :=
      [{ ratePrefix := "91", sellPerMin := 6, setupFee := 0, incrementSecs := 60, minSecs := 0 }] }])
    billing := { prepaidEnabled := true, currency := "USD" }
    parseDate := fun _ => none }

/-- An outbound call of user 1001 as it is logged. -/
def pstnCall (id : String) : CallLog :=
  { id, fromLeg := "1001", toLeg := "+919876543210", fromName := "Alice", status := .ringing,
    direction := .outbound, startTime := "t0" }

def endedAfter (secs : Rat) : CallUpdate := { status := some .ended, duration := some (some secs) }

/-- A call that is ended twice, the second time with another duration. -/
def endedTwice : List (CallEnv × CallOp) :=
  [(prepaidEnv, .logCall (pstnCall "c1")), (prepaidEnv, .updateCall "c1" (endedAfter 60)),
   (prepaidEnv, .updateCall "c1" (endedAfter 600))]

theorem debit_emitted_once_endedTwice :
    ((Machine.run Tracked.step .init endedTwice).map fun t =>
      t.store.debits.map BalanceDebitJob.amount) = some [6] ∧
    (Throughout Tracked.step (fun t => DebitsOk t.store) .init endedTwice ∧
      Meets Tracked.step
        (fun t e => ∀ t', t.step e = some t' → EmitsOk t.store t'.store e) .init endedTwice) :=
  ⟨by decide +kernel,
    debit_emitted_once (by decide +kernel) (by simp [endedTwice, KeepsId, endedAfter])⟩

/-- The first call is charged; the second record takes its id and ends too. -/
def renamed : List (CallEnv × CallOp) :=
  [(prepaidEnv, .logCall (pstnCall "c1")), (prepaidEnv, .logCall (pstnCall "c2")),
   (prepaidEnv, .updateCall "c1" (endedAfter 60)),
   (prepaidEnv, .updateCall "c2" { id := some "c1" }),
   (prepaidEnv, .updateCall "c1" (endedAfter 60))]

theorem debited_twice_renamed :
    Meets Tracked.step NotRelogged .init renamed ∧
      ¬ Throughout Tracked.step (fun t => DebitsOk t.store) .init renamed := by
  refine ⟨by decide +kernel, fun h => ?_⟩
  have hlast : ((Machine.run Tracked.step .init renamed).map fun t =>
      (t.store.debitsOf "c1").length) = some 2 := by decide +kernel
  obtain ⟨t, ht, hlen⟩ := Option.map_eq_some_iff.mp hlast
  have hone := (h.last ht).once "c1"
  omega

end CallNet
