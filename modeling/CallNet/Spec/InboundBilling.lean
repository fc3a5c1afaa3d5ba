import CallNet.Spec.TrunkBilling

/-!
# Charges for calls that never left through the trunk

`applyToEndedCall` takes a call for local, and free, when its `to` was resolved to an
extension as it was logged.  That lookup compares whole numbers, while the trunk handler
that rings the user of a DID compares the last ten digits, so an inbound call can be
answered and still be rated.  `charges_only_trunk_iff` says exactly when no run charges
a call that did not leave through the trunk: when each call that ends was resolved or has
nothing to rate.
-/

namespace CallNet

open Machine (Meets Throughout)

/-! ## The property -/

/-- A session of the call originated a leg through the trunk. -/
def CallSystem.LeftThroughTrunk (cfg : Config) (s : CallSystem) (c : String) : Prop :=
  ∃ session ∈ s.sessions, c ∈ callIds session.history ∧ ∃ number localSdp callerId answer,
    Effect.event (.createUAC (cfg.trunk.invite number localSdp callerId)) answer ∈ session.history

/-- Every other call has no cost and caused no debit. -/
structure CallSystem.ChargesOnlyTrunk (cfg : Config) (s : CallSystem) : Prop where
  cost : ∀ call ∈ s.store.callLogs, ¬ s.LeftThroughTrunk cfg call.id → call.cost = none
  debit : ∀ job ∈ s.store.debits, s.LeftThroughTrunk cfg job.callId

/-- What the handler of a destroyed leg changes on the record of its call. -/
def endUpdate (now : String) : CallUpdate :=
  { status := some .ended, endTime := some (some now) }

/-- The record's `to` has a rate under the plan of its caller, for the time until `now`. -/
def Ratable (env : CallEnv) (call : CallLog) (now : String) : Prop :=
  ∃ rater, env.rater = some rater ∧
    (rater.rate call.toLeg (derivedDuration env.parseDate call.startTime (some now))
      ((callerOf env call).bind SipUser.ratePlanId)).isSome

/-- A record that was resolved to a local extension, or has nothing to rate. -/
def Unpriced (env : CallEnv) (call : CallLog) (now : String) : Prop :=
  truthy call.toExt = true ∨ ¬ Ratable env call now

/-- A teardown finds the calls it ends unpriced. -/
def EndsUnpriced (s : CallSystem) : CallAct → Prop
  | .teardown i n env now => ∀ session, s.sessions[i]? = some session →
      ∀ acts, session.handler n = some acts → ∀ c ∈ endings acts,
        ∀ call, s.store.getCall c = some call → Unpriced env call now
  | _ => True

/-! ## Pricing at the end -/

theorem pricedUpdates_cost_of_unpriced {env : CallEnv} {call : CallLog} {now : String}
    (h : Unpriced env call now) : (pricedUpdates env call (endUpdate now)).cost = none := by
  unfold pricedUpdates
  split
  · rename_i rater hrater
    split
    · unfold RatingService.applyToEndedCall
      split
      · rfl
      · rename_i hext
        cases hrate : rater.rate call.toLeg (talkSeconds env.parseDate call (endUpdate now))
            ((callerOf env call).bind SipUser.ratePlanId) with
        | none => rfl
        | some result =>
          -- the record would have been ratable
          have hratable : Ratable env call now := by
            refine ⟨rater, hrater, ?_⟩
            have htalk : talkSeconds env.parseDate call (endUpdate now) =
              derivedDuration env.parseDate call.startTime (some now) := rfl
            rw [← htalk, hrate]
            rfl
          exact absurd hratable (h.resolve_left hext)
    · rfl
  · rfl

theorem pricedUpdates_cost_of_ratable {env : CallEnv} {call : CallLog} {now : String}
    (hcost : call.cost = none) (h : ¬ Unpriced env call now) :
    ∃ cost, (pricedUpdates env call (endUpdate now)).cost = some (some cost) := by
  rw [Unpriced, not_or, not_not] at h
  obtain ⟨hext, rater, hrater, hrate⟩ := h
  obtain ⟨result, hresult⟩ := Option.isSome_iff_exists.mp hrate
  refine ⟨result.cost, ?_⟩
  have htalk : talkSeconds env.parseDate call (endUpdate now) =
    derivedDuration env.parseDate call.startTime (some now) := rfl
  have hended : (endUpdate now).status = some .ended ∧ call.cost = none := ⟨rfl, hcost⟩
  simp only [pricedUpdates, hrater, if_pos hended, RatingService.applyToEndedCall, if_neg hext,
    htalk, hresult]

/-! ## The call log -/

/-- The calls a handler ends, one after the other. -/
theorem foldl_onDestroy (env : CallEnv) (now : String) (acts : List DestroyAct) (s : CallStore) :
    acts.foldl (fun store act => store.onDestroy env now act) s =
      (endings acts).foldl (fun store c => store.updateCall env c (endUpdate now)) s := by
  induction acts generalizing s with
  | nil => rfl
  | cons act acts ih => cases act <;> exact ih _

/-- No record has a cost, and nothing was debited. -/
structure CallStore.Free (s : CallStore) : Prop where
  cost : ∀ call ∈ s.callLogs, call.cost = none
  debits : s.debits = []

section Free

variable {s : CallStore} {env : CallEnv}

theorem CallStore.Free.logCall (h : s.Free) {data : CallLog} (hcost : data.cost = none) :
    (s.logCall env data).Free := by
  refine ⟨fun call hcall => ?_, by rw [debits_logCall]; exact h.debits⟩
  have hmem : call ∈ env.dir.resolveLegs data :: s.callLogs := by
    simp only [CallStore.logCall, unshiftLog] at hcall
    split at hcall
    · exact List.dropLast_subset _ hcall
    · exact hcall
  rcases List.mem_cons.mp hmem with rfl | hmem
  · exact hcost
  · exact h.cost call hmem

/-- An update that stamps no cost. -/
theorem CallStore.Free.updateCall (h : s.Free) {c : String} {u : CallUpdate}
    (hu : ∀ call, s.getCall c = some call → (pricedUpdates env call u).cost = none) :
    (s.updateCall env c u).Free := by
  refine ⟨fun call hcall => ?_, ?_⟩
  · rcases mem_callLogs_updateCall hcall with hcall | ⟨old, hget, rfl⟩
    · exact h.cost call hcall
    · rw [assign_cost, hu old hget, Option.getD_none]
      exact h.cost old (getCall_mem hget)
  · rw [debits_updateCall, h.debits, List.nil_append]
    cases hget : s.getCall c with
    | none => rfl
    | some call =>
      rw [Option.bind_some]
      cases hd : debitOf env call u with
      | none => rfl
      | some job =>
        have hpriced := (debitOf_eq_some hd).2.2.2.2.1
        rw [hu call hget] at hpriced; cases hpriced

theorem CallStore.Free.perform (h : s.Free) {cfg : Config} {rt : Runtime} {req : Request}
    {hist : History} {e : Effect} (he : Allowed cfg rt req hist e) : (s.perform env e).Free := by
  cases e <;> try exact h
  case logCall data => exact h.logCall he.2.2
  case updateCall c u =>
    refine h.updateCall fun call _ => ?_
    rw [pricedUpdates_of_not_ended he.2.2.2]
    exact he.2.1.1

end Free

/-! ## Steps and runs -/

/-- The invariant, with the property in its strong form. -/
structure CallSystem.Unbilled (cfg : Config) (rt : Runtime) (s : CallSystem) : Prop where
  inv : s.Inv cfg rt
  free : s.store.Free

section Runs

variable {cfg : Config} {rt : Runtime} {s s' : CallSystem} {act : CallAct}

/-- A call that left through the trunk is ended by no session. -/
theorem CallSystem.LeftThroughTrunk.not_ends {c : String} (hinv : s.Inv cfg rt)
    (h : s.LeftThroughTrunk cfg c) : ¬ s.Ends c := by
  obtain ⟨session, hs, hc, number, localSdp, callerId, answer, hleg⟩ := h
  exact hinv.not_ends hs hleg hc

theorem CallSystem.Unbilled.chargesOnlyTrunk (h : s.Unbilled cfg rt) : s.ChargesOnlyTrunk cfg where
  cost call hcall _ := h.free.cost call hcall
  debit job hjob := by rw [h.free.debits] at hjob; cases hjob

theorem CallSystem.Unbilled.step (h : s.Unbilled cfg rt) (hends : EndsUnpriced s act)
    (hs : s.step cfg rt act = some s') : s'.Unbilled cfg rt := by
  refine ⟨h.inv.step hs, ?_⟩
  cases act with
  | invite req =>
    simp only [CallSystem.step, Option.some.injEq] at hs
    rw [← hs]
    exact h.free
  | proceed i env answers =>
    obtain ⟨session, hi, hs⟩ := Option.bind_eq_some_iff.mp hs
    obtain ⟨⟨e, session'⟩, hp, hs⟩ := Option.bind_eq_some_iff.mp hs
    dsimp only at hs
    split at hs
    · cases hs
    · cases hs
      exact h.free.perform ((h.inv.sessions session (List.mem_of_getElem? hi)).proceed hp).1
  | teardown i n env now =>
    obtain ⟨session, hi, hs⟩ := Option.bind_eq_some_iff.mp hs
    obtain ⟨acts, hacts, hs⟩ := Option.map_eq_some_iff.mp hs
    subst hs
    show (acts.foldl (fun store act => store.onDestroy env now act) s.store).Free
    rw [foldl_onDestroy]
    have hfree : ∀ c ∈ endings acts, (s.store.updateCall env c (endUpdate now)).Free := by
      intro c hc
      refine h.free.updateCall fun call hget => ?_
      exact pricedUpdates_cost_of_unpriced (hends session hi acts hacts c hc call hget)
    -- a handler ends at most one call
    cases hlist : endings acts with
    | nil => exact h.free
    | cons c rest =>
      have hc : c ∈ endings acts := by rw [hlist]; exact List.mem_cons_self
      obtain ⟨leg, hmem⟩ := Session.handler_eq_some hacts
      have hone := ((h.inv.sessions session (List.mem_of_getElem? hi)).endings_eq hmem hc).1
      rw [hlist] at hone
      rw [hone]
      exact hfree c hc

/-- A teardown that prices a call charges one that never left through the trunk. -/
theorem CallSystem.Unbilled.endsUnpriced (h : s.Unbilled cfg rt)
    (hs : s.step cfg rt act = some s') (hcharges : s'.ChargesOnlyTrunk cfg) :
    EndsUnpriced s act := by
  cases act with
  | invite req => trivial
  | proceed i env answers => trivial
  | teardown i n env now =>
    intro session hi acts hacts c hc call hget
    by_contra hpriced
    have hinv' := h.inv.step hs
    simp only [CallSystem.step, hi, Option.bind_some, hacts, Option.map_some,
      Option.some.injEq] at hs
    obtain ⟨leg, hmem⟩ := Session.handler_eq_some hacts
    have hone := ((h.inv.sessions session (List.mem_of_getElem? hi)).endings_eq hmem hc).1
    obtain ⟨cost, hcost⟩ := pricedUpdates_cost_of_ratable (h.free.cost call (getCall_mem hget)) hpriced
    -- the record after the update
    have hafter : s'.store.getCall c =
        some (call.assign (pricedUpdates env call (endUpdate now))) := by
      rw [← hs]
      show CallStore.getCall (acts.foldl _ s.store) c = _
      rw [foldl_onDestroy, hone, List.foldl_cons, List.foldl_nil, getCall_updateCall rfl,
        if_pos rfl, hget, Option.map_some]
    have hends : s'.Ends c := by
      rw [← hs]
      refine ⟨{ session with fired := n :: session.fired }, ?_, leg, acts, hmem, hc⟩
      exact List.mem_set (List.getElem?_eq_some_iff.mp hi).1 _
    have hnone := hcharges.cost _ (getCall_mem hafter) fun hleft => by
      rw [getCall_id hafter] at hleft
      exact hleft.not_ends hinv' hends
    rw [assign_cost, hcost] at hnone
    cases hnone

end Runs

/-- In a run, of any number of calls and in any order: no call that did not leave through
    the trunk is given a cost or causes a debit if and only if every teardown finds the
    calls it ends resolved to a local extension, or with nothing to rate. -/
theorem charges_only_trunk_iff (cfg : Config) (rt : Runtime) (acts : List CallAct) :
    Throughout (CallSystem.step cfg rt) (CallSystem.ChargesOnlyTrunk cfg) .init acts ↔
      Meets (CallSystem.step cfg rt) EndsUnpriced .init acts := by
  refine Machine.throughout_iff_meets (I := CallSystem.Unbilled cfg rt) (P := fun _ _ => True)
    (fun s h => h.chargesOnlyTrunk) (fun s act s' h _ hends hs => h.step hends hs)
    (fun s act s' h _ hs hcharges => h.endsUnpriced hs hcharges) (fun s act hnone => ?_)
    ⟨CallSystem.inv_init, ⟨fun call hcall => absurd hcall List.not_mem_nil, rfl⟩⟩
    (Machine.meets_of_mem (H := fun _ => True) fun _ _ => trivial)
  cases act with
  | invite req => trivial
  | proceed i env answers => trivial
  | teardown i n env now =>
    intro session hi acts hacts
    simp only [CallSystem.step, hi, Option.bind_some, hacts, Option.map_some] at hnone
    cases hnone

/-! ## A DID in two spellings -/

/-- User 1001 takes the calls to a mobile stored without the country code; user 1002 calls
    from the mobile stored for 1002. -/
def didUsers : Directory :=
  { Directory.empty with
    users := (OrdMap.empty.set "1001"
      { extension := "1001", username := "alice", name := "Alice", mobile := some "4155550123"
        pstnForwardToBrowser := true }).set "1002"
      { extension := "1002", username := "bob", name := "Bob", mobile := some "+14155550199"
        balance := some 100 }
    phoneIndex := (OrdMap.empty.set "4155550123" "1001").set "14155550199" "1002"
    registrations := OrdMap.empty.set "1001" "<sip:1001@192.0.2.10:5060>" }

/-- The trunk delivers a call to the DID, the user answers and a minute later a leg is gone. -/
def inboundDidCall : List CallAct :=
  .invite (inviteFrom "198.51.100.1" "+14155550199" "+14155550123") :: proceedAll didUsers 20 ++
    [.teardown 0 17 (minuteEnv didUsers) "t1"]

/-- The caller is debited for the inbound call, and no leg was originated for it. -/
theorem not_chargesOnlyTrunk_inboundDid :
    ¬ Throughout (CallSystem.step trunkOnly bareRuntime) (CallSystem.ChargesOnlyTrunk trunkOnly)
      .init inboundDidCall := by
  intro hthrough
  have hdebits : (Machine.run (CallSystem.step trunkOnly bareRuntime) .init inboundDidCall).map
      (fun s => s.store.debits) =
      some [{ extension := "1002", callId := "call-1", amount := 6, currency := "USD" }] := by
    decide +kernel
  have hlegs : (Machine.run (CallSystem.step trunkOnly bareRuntime) .init inboundDidCall).map
      (fun s => s.sessions.map fun session => dialedUris session.history) = some [[]] := by
    decide +kernel
  obtain ⟨s, hr, hjobs⟩ := Option.map_eq_some_iff.mp hdebits
  rw [hr, Option.map_some, Option.some.injEq] at hlegs
  obtain ⟨one, hsessions, hnone⟩ := List.map_eq_singleton_iff.mp hlegs
  have hjob := (hthrough.last hr).debit _ (hjobs ▸ List.mem_cons_self)
  obtain ⟨session, hs, -, number, localSdp, callerId, answer, hleg⟩ := hjob
  rw [hsessions, List.mem_singleton] at hs
  have hdialed : (trunkOnly.trunk.invite number localSdp callerId).uri ∈
      dialedUris session.history := List.mem_filterMap.mpr ⟨_, hleg, rfl⟩
  rw [hs, hnone] at hdialed
  cases hdialed

end CallNet
