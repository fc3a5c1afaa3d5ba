import CallNet.Spec.SessionDiscipline
import CallNet.Spec.TollFraud

/-!
# Billing of outbound trunk calls

A call is priced by the update that ends it.  The handlers that end a call are installed
by the paths that ring an extension (`endWith`), and a session that originates a leg
installs none; `connectOutboundLeg` only ties the two legs together.  So a call through
the trunk is never ended, priced or debited, in whatever order it is answered and torn
down (`trunk_call_never_billed`).
-/

namespace CallNet

/-! ## The property -/

/-- The legs that were originated and answered by the far end. -/
def originated (h : History) : List (OutboundInvite × Leg) :=
  h.filterMap fun
    | ⟨.createUAC invite, .ok uac⟩ => some (invite, uac)
    | _ => none

/-- The 200 OKs to the caller, with the dialogs they established. -/
def answered (h : History) : List (String × Leg) :=
  h.filterMap fun
    | ⟨.createUAS localSdp, .ok uas⟩ => some (localSdp, uas)
    | _ => none

/-- The legs whose teardown ran a handler. -/
def Session.tornDown (session : Session) : List Leg :=
  session.fired.filterMap fun n =>
    (session.history[n]?).bind fun
      | ⟨.onDestroy leg _, _⟩ => some leg
      | _ => none

/-- A call that was sent out through the trunk, answered and torn down by either side. -/
structure Session.TrunkCall (cfg : Config) (session : Session) (uac uas : Leg) : Prop where
  placed : ∃ number localSdp callerId,
    (cfg.trunk.invite number localSdp callerId, uac) ∈ originated session.history
  answered : (uac.remoteSdp.getD "", uas) ∈ answered session.history
  tornDown : uac ∈ session.tornDown ∨ uas ∈ session.tornDown

/-- The records of a call as they were written with the status `ended`. -/
def CallStore.endingsOf (s : CallStore) (c : String) : List CallLog :=
  s.emitted.filterMap fun
    | .callUpserted call => if call.id = c ∧ call.status = .ended then some call else none
    | .balanceDebit _ => none

/-- The call was ended once, with its talk time, and its charge was debited once. -/
structure CallStore.BilledOnce (s : CallStore) (c : String) (talkSecs : Rat) : Prop where
  ended : (s.endingsOf c).length = 1
  timed : ∀ call ∈ s.endingsOf c, call.duration = some talkSecs
  debited : (s.debitsOf c).length = 1

/-! ## No ending -/

theorem mem_originated {h : History} {invite : OutboundInvite} {uac : Leg}
    (hmem : (invite, uac) ∈ originated h) : Effect.event (.createUAC invite) (.ok uac) ∈ h := by
  obtain ⟨⟨e, x⟩, he, heq⟩ := List.mem_filterMap.mp hmem
  split at heq
  · rename_i heq'
    cases heq
    rw [heq'] at he
    exact he
  · cases heq

theorem endingsOf_eq_nil {P : String → Prop} {s : CallStore} (h : s.EndedOnly P) {c : String}
    (hc : ¬ P c) : s.endingsOf c = [] := by
  refine List.filterMap_eq_nil_iff.mpr fun event hevent => ?_
  cases event with
  | balanceDebit job => rfl
  | callUpserted call =>
    refine if_neg fun hcall => hc ?_
    rw [← hcall.1]
    exact h.upserts call hevent hcall.2

theorem debitsOf_eq_nil {P : String → Prop} {s : CallStore} (h : s.EndedOnly P) {c : String}
    (hc : ¬ P c) : s.debitsOf c = [] := by
  refine List.filter_eq_nil_iff.mpr fun job hjob heq => hc ?_
  obtain ⟨event, hevent, hdebit⟩ := List.mem_filterMap.mp hjob
  cases event with
  | callUpserted call => cases hdebit
  | balanceDebit job' =>
    cases hdebit
    rw [← of_decide_eq_true heq]
    exact h.debits job hevent

/-- In every state of every run: an answered trunk call that was torn down is not billed.
    Its record was never ended and carries no cost, and nothing was debited for it. -/
theorem trunk_call_never_billed {cfg : Config} {rt : Runtime} {acts : List CallAct}
    {s : CallSystem} (hr : Machine.run (CallSystem.step cfg rt) .init acts = some s)
    {session : Session} (hs : session ∈ s.sessions) {uac uas : Leg}
    (hcall : session.TrunkCall cfg uac uas) {c : String} (hc : c ∈ callIds session.history) :
    (∀ talkSecs, ¬ s.store.BilledOnce c talkSecs) ∧ s.store.endingsOf c = [] ∧ s.store.debitsOf c = [] ∧
      ∀ call, s.store.getCall c = some call → call.status ≠ .ended ∧ call.cost = none := by
  have hinv := CallSystem.inv_run hr
  obtain ⟨number, localSdp, callerId, hplaced⟩ := hcall.placed
  have hends : ¬ s.Ends c := hinv.not_ends hs (mem_originated hplaced) hc
  have hendings := endingsOf_eq_nil hinv.ended hends
  refine ⟨fun talkSecs hbilled => ?_, hendings, debitsOf_eq_nil hinv.ended hends, fun call hget => ?_⟩
  · have hone := hbilled.ended
    rw [hendings] at hone; cases hone
  · have hlog := hinv.ended.log call (getCall_mem hget)
    rw [getCall_id hget] at hlog
    refine ⟨fun hend => hends (hlog (.inl hend)), ?_⟩
    by_contra hcost
    exact hends (hlog (.inr hcost))

/-! ## A registered caller -/

/-- User 1001, registered and with credit. -/
def office : Directory :=
  { Directory.empty with
    users := OrdMap.empty.set "1001"
      { extension := "1001", username := "alice", name := "Alice", balance := some 100 }
    registrations := OrdMap.empty.set "1001" "<sip:1001@192.0.2.10:5060>" }

/-- A plan that charges 6 a minute to +1. -/
def flatRate : RatingService :=
  .ofRows [{ id := 1, currency := "USD", isDefault := true, rates :=
    [{ ratePrefix := "1", sellPerMin := 6, setupFee := 0, incrementSecs := 60, minSecs := 0 }] }]

/-- Calls start at `t0`; every other timestamp is a minute later. -/
def minuteEnv (dir : Directory) : CallEnv where
  dir
  rater := some flatRate
  billing := trunkOnly.billing
  parseDate s := if s = "t0" then some 0 else some 60000

/-- The first session performs `n` effects, and every request of it succeeds. -/
def proceedAll (dir : Directory) (n : Nat) : List CallAct :=
  (List.range n).map fun k => .proceed 0 (minuteEnv dir) fun e =>
    calmWorld dir (some flatRate) (List.replicate k (Effect.event .isConnected true)) e

/-- User 1001 calls a number, is answered, and both legs are torn down. -/
def answeredTrunkCall : List CallAct :=
  .invite (inviteFrom "192.0.2.10" "1001" "+14155550123") :: proceedAll office 18 ++
    [.teardown 0 15 (minuteEnv office) "t1", .teardown 0 16 (minuteEnv office) "t1"]

/-- The legs and the ids of a session. -/
structure Summary where
  placed : List (OutboundInvite × Leg)
  answered : List (String × Leg)
  tornDown : List Leg
  ids : List String
deriving DecidableEq

def Session.summary (session : Session) : Summary :=
  ⟨originated session.history, CallNet.answered session.history, session.tornDown,
    callIds session.history⟩

theorem answeredTrunkCall_run : ∃ s session,
    Machine.run (CallSystem.step trunkOnly bareRuntime) .init answeredTrunkCall = some s ∧
      session ∈ s.sessions ∧ session.TrunkCall trunkOnly { key := 13 } { key := 14 } ∧
      "call-1" ∈ callIds session.history ∧ s.store.endingsOf "call-1" = [] := by
  have hstore : (Machine.run (CallSystem.step trunkOnly bareRuntime) .init answeredTrunkCall).map
      (fun s => s.store.endingsOf "call-1") = some [] := by decide +kernel
  have hsession : (Machine.run (CallSystem.step trunkOnly bareRuntime) .init answeredTrunkCall).map
      (fun s => s.sessions.map Session.summary) =
      some [⟨[(trunkOnly.trunk.invite "+14155550123" "offer" none, { key := 13 })],
        [("", { key := 14 })], [{ key := 14 }, { key := 13 }], ["call-1"]⟩] := by decide +kernel
  obtain ⟨s, hs, hendings⟩ := Option.map_eq_some_iff.mp hstore
  rw [hs, Option.map_some, Option.some.injEq] at hsession
  obtain ⟨session, hsessions, hsummary⟩ := List.map_eq_singleton_iff.mp hsession
  simp only [Session.summary, Summary.mk.injEq] at hsummary
  obtain ⟨horig, hanswered, htorn, hids⟩ := hsummary
  refine ⟨s, session, hs, ?_, ⟨⟨"+14155550123", "offer", none, ?_⟩, ?_, .inl ?_⟩,
    ?_, hendings⟩
  · rw [hsessions]; exact List.mem_cons_self
  · rw [horig]; exact List.mem_cons_self
  · rw [hanswered]; exact List.mem_cons_self
  · rw [htorn]; exact List.mem_cons_of_mem _ List.mem_cons_self
  · rw [hids]; exact List.mem_cons_self

theorem trunk_call_never_billed_registeredCaller : ∃ s session,
    Machine.run (CallSystem.step trunkOnly bareRuntime) .init answeredTrunkCall = some s ∧
      session ∈ s.sessions ∧ (∀ talkSecs, ¬ s.store.BilledOnce "call-1" talkSecs) ∧
      s.store.endingsOf "call-1" = [] ∧ s.store.debitsOf "call-1" = [] ∧
      ∀ call, s.store.getCall "call-1" = some call → call.status ≠ .ended ∧ call.cost = none := by
  obtain ⟨s, session, hr, hs, hcall, hc, -⟩ := answeredTrunkCall_run
  exact ⟨s, session, hr, hs, trunk_call_never_billed hr hs hcall hc⟩

/-- Every answered trunk call of the run that was torn down is billed once. -/
def BillsTrunkCalls (cfg : Config) (rt : Runtime) (acts : List CallAct) : Prop :=
  ∀ s, Machine.run (CallSystem.step cfg rt) .init acts = some s → ∀ session ∈ s.sessions,
    ∀ uac uas, session.TrunkCall cfg uac uas → ∀ c ∈ callIds session.history,
      ∃ talkSecs, s.store.BilledOnce c talkSecs

theorem not_billsTrunkCalls_registeredCaller :
    ¬ BillsTrunkCalls trunkOnly bareRuntime answeredTrunkCall := by
  intro hbills
  obtain ⟨s, session, hr, hs, hcall, hc, hnone⟩ := answeredTrunkCall_run
  obtain ⟨talkSecs, hbilled⟩ := hbills s hr session hs _ _ hcall _ hc
  have hone := hbilled.ended
  rw [hnone] at hone
  exact absurd hone (by decide)

end CallNet
