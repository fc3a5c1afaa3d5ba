import CallNet.Engine.RoutedCall
import CallNet.ForStd.Machine
import CallNet.Spec.TollFraud

/-!
# Orphaned legs of a routed call

`routeCall` ties the PSTN leg and the caller's leg together in its last turn, and never destroys
a leg itself.  So neither leg outlives the other exactly when nobody hangs up before that turn:
the caller does not cancel while the trunk is called, the answer of the caller does not fail
while the PSTN leg is up, and no end that arrives between two awaits leaves a leg up.
-/

namespace CallNet

open EventLoop (Task turn)
open Machine (Meets Throughout)

/-! ## The turns of `routeCall` -/

/-- The caller is refused. -/
def refuseRouted : CallProg Bool := do
  send 503
  pure false

/-- `routeCall` from the trunk's answer on. -/
def routedUAC (x : Except SipError Leg) : CallProg Bool :=
  (((ofExcept x).bind fun uac => pure (some uac)).bind fun
    | none => refuseRouted
    | some uac => connectOutboundLeg uac).tryCatch fun _ => refuseRouted

/-- `routeCall` from the caller's answer on. -/
def routedUAS (uac : Leg) (x : Except SipError Leg) : CallProg Bool :=
  ((ofExcept x).bind fun uas => do
    ask (.onDestroy uac [.destroy uas])
    ask (.onDestroy uas [.destroy uac])
    pure true).tryCatch fun _ => refuseRouted

theorem routeCall_disabled {cfg : Config} (henabled : cfg.trunk.enabled = false) (req : Request)
    (number : String) (callerId : Option String) :
    routeCall cfg req number callerId = refuseRouted := by
  unfold routeCall
  rw [henabled]
  rfl

theorem routeCall_enabled {cfg : Config} (henabled : cfg.trunk.enabled = true) (req : Request)
    (number : String) (callerId : Option String) :
    routeCall cfg req number callerId =
      .op (.createUAC (cfg.trunk.invite number req.body callerId)) routedUAC := by
  unfold routeCall createOutboundLeg
  rw [henabled]
  rfl

theorem turn_refuseRouted (s : Legs) :
    turn Legs.world refuseRouted s = (.returned (.ok false), s.respond 503) := rfl

namespace RoutedCall

/-! ## The property and its condition -/

/-- Neither leg outlives the other. -/
structure NoOrphan (s : RoutedCall) : Prop where
  released : s.legs.caller = .gone ∨ s.task = .returned (.ok false) → s.legs.pstn.live = false
  ended : s.legs.pstn = .gone → ∀ uas, s.legs.caller ≠ .up uas

def Returned (s : RoutedCall) : Prop := ∃ r, s.task = .returned r

/-- The step leaves no leg behind. -/
def Covered (s : RoutedCall) : LegEvent → Prop
  | .callerCancels => s.legs.caller = .inviting → s.legs.pstn.live = false
  | .callerAnswered _ =>
    (∃ localSdp k, s.task = .awaiting (.createUAS localSdp) k) → s.legs.pstn ≠ .gone
  | .resume => ∀ localSdp err k,
      s.task = .settled (.createUAS localSdp) (.error err) k → s.legs.pstn.live = false
  | .callerHangsUp => ∀ uas, s.legs.caller = .up uas → s.Returned ∨ s.legs.pstn.live = false
  | .trunkHangsUp => ∀ uac, s.legs.pstn = .up uac → s.Returned ∨ ∀ uas, s.legs.caller ≠ .up uas
  | .trunkAnswers _ | .trunkFails _ | .callerFails _ => True

/-- The caller has no leg yet. -/
def Unanswered (s : Legs) : Prop := s.caller = .inviting ∨ s.caller = .gone

/-- Between the two answers: the caller waits for its leg, or the PSTN leg is gone. -/
def Waiting (uac : Leg) (s : Legs) : Prop :=
  s.listeners = [] ∧
    (s.pstn = .up uac ∧ s.caller = .inviting ∨ s.pstn = .gone ∧ Unanswered s)

/-- How far `routeCall` is, and what the legs are then. -/
inductive Stage : RoutedCall → Prop
  | calling (invite : OutboundInvite) :
    Stage ⟨.awaiting (.createUAC invite) routedUAC, ⟨.inviting, .inviting, []⟩⟩
  | answered (invite : OutboundInvite) {uac : Leg} {s : Legs} (h : Waiting uac s) :
    Stage ⟨.settled (.createUAC invite) (.ok uac) routedUAC, s⟩
  | failed (invite : OutboundInvite) (err : SipError) {s : Legs} (hpstn : s.pstn = .gone)
    (hcaller : Unanswered s) : Stage ⟨.settled (.createUAC invite) (.error err) routedUAC, s⟩
  | answering (localSdp : String) {uac : Leg} {s : Legs} (h : Waiting uac s) :
    Stage ⟨.awaiting (.createUAS localSdp) (routedUAS uac), s⟩
  | connected (localSdp : String) {uac uas : Leg} (hne : uac ≠ uas) :
    Stage ⟨.settled (.createUAS localSdp) (.ok uas) (routedUAS uac), ⟨.up uac, .up uas, []⟩⟩
  | unanswered (localSdp : String) (err : SipError) {uac : Leg} {s : Legs} (h : Waiting uac s) :
    Stage ⟨.settled (.createUAS localSdp) (.error err) (routedUAS uac), s⟩
  | tied {uac uas : Leg} (hne : uac ≠ uas) :
    Stage ⟨.returned (.ok true),
      ⟨.up uac, .up uas, [(uac, [.destroy uas]), (uas, [.destroy uac])]⟩⟩
  | ended {s : Legs} (hpstn : s.pstn = .gone) (hcaller : s.caller = .gone) :
    Stage ⟨.returned (.ok true), s⟩
  | refused {s : Legs} (hpstn : s.pstn.live = false) (hcaller : s.caller = .gone) :
    Stage ⟨.returned (.ok false), s⟩

/-! ## Stages have no orphans -/

theorem Waiting.noOrphan {uac : Leg} {s : Legs} (h : Waiting uac s)
    {task : Task effects SipError Bool} (htask : task ≠ .returned (.ok false)) :
    NoOrphan ⟨task, s⟩ := by
  obtain ⟨-, ⟨hpstn, hcaller⟩ | ⟨hpstn, hcaller⟩⟩ := h
  · -- the caller is there
    refine ⟨fun hgone => ?_, fun hgone => ?_⟩
    · rcases hgone with hgone | hgone
      · rw [hcaller] at hgone
        cases hgone
      · exact absurd hgone htask
    · rw [hpstn] at hgone
      cases hgone
  · refine ⟨fun _ => by rw [hpstn]; rfl, fun _ uas hup => ?_⟩
    rcases hcaller with hcaller | hcaller <;> (rw [hcaller] at hup; cases hup)

theorem Stage.noOrphan {s : RoutedCall} (h : s.Stage) : s.NoOrphan := by
  cases h with
  | calling invite =>
    refine ⟨fun hgone => ?_, nofun⟩
    rcases hgone with hgone | hgone <;> cases hgone
  | answered invite h => exact h.noOrphan nofun
  | failed invite err hpstn hcaller =>
    refine ⟨fun _ => by rw [hpstn]; rfl, fun _ uas hup => ?_⟩
    rcases hcaller with hcaller | hcaller <;> (rw [hcaller] at hup; cases hup)
  | answering localSdp h => exact h.noOrphan nofun
  | connected localSdp hne =>
    refine ⟨fun hgone => ?_, nofun⟩
    rcases hgone with hgone | hgone <;> cases hgone
  | unanswered localSdp err h => exact h.noOrphan nofun
  | tied hne =>
    refine ⟨fun hgone => ?_, nofun⟩
    rcases hgone with hgone | hgone <;> cases hgone
  | ended hpstn hcaller =>
    refine ⟨fun _ => by rw [hpstn]; rfl, fun _ uas hup => ?_⟩
    rw [hcaller] at hup
    cases hup
  | refused hpstn hcaller =>
    refine ⟨fun _ => hpstn, fun _ uas hup => ?_⟩
    rw [hcaller] at hup
    cases hup

/-! ## Steps -/

theorem respond_of_unanswered {s : Legs} (h : Unanswered s) :
    (s.respond 503).pstn = s.pstn ∧ (s.respond 503).caller = .gone := by
  unfold Legs.respond
  rcases h with hcaller | hcaller
  · rw [if_pos ⟨by decide, hcaller⟩]
    exact ⟨rfl, rfl⟩
  · rw [if_neg (by rw [hcaller]; nofun)]
    exact ⟨rfl, hcaller⟩

theorem Waiting.unanswered {uac : Leg} {s : Legs} (h : Waiting uac s) : Unanswered s := by
  obtain ⟨-, ⟨-, hcaller⟩ | ⟨-, hcaller⟩⟩ := h
  · exact .inl hcaller
  · exact hcaller

theorem Stage.trunkAnswers {s s' : RoutedCall} {uac : Leg} (h : s.Stage)
    (hstep : s.step (.trunkAnswers uac) = some s') : s'.Stage := by
  cases h with
  | calling invite =>
    cases hstep
    exact .answered invite ⟨rfl, .inl ⟨rfl, rfl⟩⟩
  | _ => cases hstep

theorem Stage.trunkFails {s s' : RoutedCall} {err : SipError} (h : s.Stage)
    (hstep : s.step (.trunkFails err) = some s') : s'.Stage := by
  cases h with
  | calling invite =>
    cases hstep
    exact .failed invite err rfl (.inl rfl)
  | _ => cases hstep

theorem Stage.callerAnswered {s s' : RoutedCall} {uas : Leg} (h : s.Stage)
    (hcovered : s.Covered (.callerAnswered uas))
    (hstep : s.step (.callerAnswered uas) = some s') : s'.Stage := by
  cases h with
  | @answering localSdp uac legs h =>
    obtain ⟨hlisteners, ⟨hpstn, hcaller⟩ | ⟨hpstn, -⟩⟩ := h
    · obtain ⟨pstn, caller, listeners⟩ := legs
      simp only at hlisteners hpstn hcaller
      subst hlisteners hpstn hcaller
      simp only [RoutedCall.step] at hstep
      split at hstep
      · cases hstep
      · rename_i hne
        cases hstep
        exact .connected localSdp fun heq => hne (heq ▸ rfl)
    · -- nobody is left to talk to
      exact absurd hpstn (hcovered ⟨localSdp, _, rfl⟩)
  | _ => cases hstep

theorem Stage.callerFails {s s' : RoutedCall} {err : SipError} (h : s.Stage)
    (hstep : s.step (.callerFails err) = some s') : s'.Stage := by
  cases h with
  | answering localSdp h =>
    cases hstep
    exact .unanswered localSdp err h
  | _ => cases hstep

/-- A refusal leaves no leg when the PSTN leg is gone. -/
theorem stage_refused {s : Legs} (hpstn : s.pstn.live = false) (hcaller : Unanswered s) :
    Stage ⟨.returned (.ok false), s.respond 503⟩ := by
  obtain ⟨hp, hc⟩ := respond_of_unanswered hcaller
  exact .refused (by rw [hp]; exact hpstn) hc

theorem Stage.resume {s s' : RoutedCall} (h : s.Stage) (hcovered : s.Covered .resume)
    (hstep : s.step .resume = some s') : s'.Stage := by
  cases h with
  | answered invite h =>
    cases hstep
    exact .answering _ h
  | failed invite err hpstn hcaller =>
    cases hstep
    exact stage_refused (by rw [hpstn]; rfl) hcaller
  | connected localSdp hne =>
    cases hstep
    exact .tied hne
  | unanswered localSdp err h =>
    cases hstep
    exact stage_refused (hcovered localSdp err _ rfl) h.unanswered
  | _ => cases hstep

/-- A cancelled caller is gone, and nothing is left when no PSTN leg was up. -/
theorem Stage.callerCancels {s s' : RoutedCall} (h : s.Stage) (hcovered : s.Covered .callerCancels)
    (hstep : s.step .callerCancels = some s') : s'.Stage := by
  have hcancel : ∀ {task legs}, s = ⟨task, legs⟩ →
      legs.caller = .inviting ∧ legs.pstn.live = false ∧
        s' = ⟨task, { legs with caller := .gone }⟩ := by
    rintro task legs rfl
    simp only [RoutedCall.step] at hstep
    split at hstep
    · rename_i hcaller
      cases hstep
      exact ⟨hcaller, hcovered hcaller, rfl⟩
    · cases hstep
  have hwaiting : ∀ {uac legs}, Waiting uac legs → legs.pstn.live = false →
      Waiting uac { legs with caller := .gone } := by
    intro uac legs h hpstn
    obtain ⟨hlisteners, ⟨hup, -⟩ | ⟨hgone, -⟩⟩ := h
    · rw [hup] at hpstn
      cases hpstn
    · exact ⟨hlisteners, .inr ⟨hgone, .inr rfl⟩⟩
  cases h with
  | calling invite =>
    obtain ⟨-, hpstn, -⟩ := hcancel rfl
    cases hpstn
  | answered invite h =>
    obtain ⟨-, hpstn, rfl⟩ := hcancel rfl
    exact .answered invite (hwaiting h hpstn)
  | failed invite err hpstn hcaller =>
    obtain ⟨-, -, rfl⟩ := hcancel rfl
    exact .failed invite err hpstn (.inr rfl)
  | answering localSdp h =>
    obtain ⟨-, hpstn, rfl⟩ := hcancel rfl
    exact .answering localSdp (hwaiting h hpstn)
  | unanswered localSdp err h =>
    obtain ⟨-, hpstn, rfl⟩ := hcancel rfl
    exact .unanswered localSdp err (hwaiting h hpstn)
  | connected localSdp hne => cases hstep
  | tied hne => cases hstep
  | ended hpstn hcaller =>
    obtain ⟨hinviting, -⟩ := hcancel rfl
    rw [hcaller] at hinviting
    cases hinviting
  | refused hpstn hcaller =>
    obtain ⟨hinviting, -⟩ := hcancel rfl
    rw [hcaller] at hinviting
    cases hinviting

/-- When either end of a tied call hangs up, both legs are gone. -/
theorem hangUp_tied {uac uas leg : Leg} (hne : uac ≠ uas) (hleg : leg = uac ∨ leg = uas) :
    (Legs.hangUp ⟨.up uac, .up uas, [(uac, [.destroy uas]), (uas, [.destroy uac])]⟩ leg).pstn =
        .gone ∧
      (Legs.hangUp ⟨.up uac, .up uas, [(uac, [.destroy uas]), (uas, [.destroy uac])]⟩ leg).caller =
        .gone := by
  rcases hleg with rfl | rfl
  · have hne' : uas ≠ leg := hne.symm
    simp [Legs.hangUp, Legs.perform, Legs.destroy, LegState.destroy, hne']
  · simp [Legs.hangUp, Legs.perform, Legs.destroy, LegState.destroy, hne]

theorem Stage.callerHangsUp {s s' : RoutedCall} (h : s.Stage) (hcovered : s.Covered .callerHangsUp)
    (hstep : s.step .callerHangsUp = some s') : s'.Stage := by
  have hup : ∀ {task legs}, s = ⟨task, legs⟩ → ¬ Unanswered legs := by
    rintro task legs rfl (hcaller | hcaller)
    · simp only [RoutedCall.step, hcaller] at hstep
      cases hstep
    · simp only [RoutedCall.step, hcaller] at hstep
      cases hstep
  cases h with
  | calling invite => cases hstep
  | answered invite h => exact absurd h.unanswered (hup rfl)
  | failed invite err hpstn hcaller => exact absurd hcaller (hup rfl)
  | answering localSdp h => exact absurd h.unanswered (hup rfl)
  | connected localSdp hne =>
    -- no listener is installed yet
    rcases hcovered _ rfl with ⟨r, hreturned⟩ | hpstn
    · cases hreturned
    · cases hpstn
  | unanswered localSdp err h => exact absurd h.unanswered (hup rfl)
  | tied hne =>
    cases hstep
    obtain ⟨hpstn, hcaller⟩ := hangUp_tied hne (.inr rfl)
    exact .ended hpstn hcaller
  | ended hpstn hcaller => exact absurd (.inr hcaller) (hup rfl)
  | refused hpstn hcaller => exact absurd (.inr hcaller) (hup rfl)

/-- The trunk hangs up while the caller waits for its leg. -/
theorem Waiting.hangUp {uac : Leg} {s : Legs} (h : Waiting uac s) {leg : Leg}
    (hpstn : s.pstn = .up leg) : Waiting uac (s.hangUp leg) := by
  obtain ⟨hlisteners, ⟨-, hcaller⟩ | ⟨hgone, -⟩⟩ := h
  · have hhang : s.hangUp leg = s.destroy leg := by
      unfold Legs.hangUp
      rw [hlisteners]
      rfl
    rw [hhang]
    refine ⟨hlisteners, .inr ⟨?_, .inl ?_⟩⟩
    · simp only [Legs.destroy, LegState.destroy, hpstn, if_true]
    · simp only [Legs.destroy, LegState.destroy, hcaller]
      exact if_neg nofun
  · rw [hgone] at hpstn
    cases hpstn

theorem Stage.trunkHangsUp {s s' : RoutedCall} (h : s.Stage) (hcovered : s.Covered .trunkHangsUp)
    (hstep : s.step .trunkHangsUp = some s') : s'.Stage := by
  have hup : ∀ {task legs}, s = ⟨task, legs⟩ →
      ∃ uac, legs.pstn = .up uac ∧ s' = ⟨task, legs.hangUp uac⟩ := by
    rintro task legs rfl
    simp only [RoutedCall.step] at hstep
    split at hstep
    · rename_i uac hpstn
      cases hstep
      exact ⟨uac, hpstn, rfl⟩
    · cases hstep
  obtain ⟨task, legs⟩ := s
  obtain ⟨uac, hpstn, rfl⟩ := hup rfl
  cases h with
  | calling invite => cases hpstn
  | answered invite h => exact .answered invite (h.hangUp hpstn)
  | failed invite err hgone hcaller =>
    rw [hgone] at hpstn
    cases hpstn
  | answering localSdp h => exact .answering localSdp (h.hangUp hpstn)
  | connected localSdp hne =>
    -- no listener is installed yet
    rcases hcovered _ rfl with ⟨r, hreturned⟩ | hcaller
    · cases hreturned
    · exact absurd rfl (hcaller _)
  | unanswered localSdp err h => exact .unanswered localSdp err (h.hangUp hpstn)
  | tied hne =>
    cases hpstn
    obtain ⟨hpstn, hcaller⟩ := hangUp_tied hne (.inl rfl)
    exact .ended hpstn hcaller
  | ended hgone hcaller =>
    rw [hgone] at hpstn
    cases hpstn
  | refused hdead hcaller =>
    rw [hpstn] at hdead
    cases hdead

theorem Stage.step {s s' : RoutedCall} {e : LegEvent} (h : s.Stage) (hcovered : s.Covered e)
    (hstep : s.step e = some s') : s'.Stage := by
  cases e with
  | trunkAnswers uac => exact h.trunkAnswers hstep
  | trunkFails err => exact h.trunkFails hstep
  | callerAnswered uas => exact h.callerAnswered hcovered hstep
  | callerFails err => exact h.callerFails hstep
  | resume => exact h.resume hcovered hstep
  | callerCancels => exact h.callerCancels hcovered hstep
  | callerHangsUp => exact h.callerHangsUp hcovered hstep
  | trunkHangsUp => exact h.trunkHangsUp hcovered hstep

/-- Both legs are up, and nothing ties them yet. -/
def Untied (s : RoutedCall) : Prop :=
  ∃ localSdp uac uas, uac ≠ uas ∧
    s = ⟨.settled (.createUAS localSdp) (.ok uas) (routedUAS uac), ⟨.up uac, .up uas, []⟩⟩

/-- The caller's leg is up in the last turn of `routeCall`, or after it. -/
theorem Stage.returned_of_up {s : RoutedCall} (h : s.Stage) (hcon : ¬ s.Untied) {uas : Leg}
    (hcaller : s.legs.caller = .up uas) : s.Returned := by
  have hwaits : ¬ Unanswered s.legs := by
    rintro (hwaits | hwaits) <;> (rw [hcaller] at hwaits; cases hwaits)
  cases h with
  | calling invite => exact absurd (.inl rfl) hwaits
  | answered invite h => exact absurd h.unanswered hwaits
  | failed invite err hpstn hnone => exact absurd hnone hwaits
  | answering localSdp h => exact absurd h.unanswered hwaits
  | connected localSdp hne => exact absurd ⟨localSdp, _, _, hne, rfl⟩ hcon
  | unanswered localSdp err h => exact absurd h.unanswered hwaits
  | tied hne => exact ⟨_, rfl⟩
  | ended hpstn hcaller => exact ⟨_, rfl⟩
  | refused hpstn hcaller => exact ⟨_, rfl⟩

/-- A step after which there is no orphan is a covered one. -/
theorem Stage.covered {s s' : RoutedCall} {e : LegEvent} (h : s.Stage)
    (hstep : s.step e = some s') (hno : s'.NoOrphan) : s.Covered e := by
  cases e with
  | trunkAnswers uac => trivial
  | trunkFails err => trivial
  | callerFails err => trivial
  | callerAnswered uas =>
    rintro ⟨localSdp, k, htask⟩ hpstn
    obtain ⟨task, legs⟩ := s
    obtain rfl : task = _ := htask
    simp only [RoutedCall.step] at hstep
    split at hstep
    · cases hstep
    · cases hstep
      exact hno.ended hpstn uas rfl
  | resume =>
    intro localSdp err k htask
    cases h with
    | unanswered localSdp err h =>
      cases hstep
      have hdead := hno.released (.inr rfl)
      rw [(respond_of_unanswered h.unanswered).1] at hdead
      exact hdead
    | _ => cases htask
  | callerCancels =>
    intro hcaller
    simp only [RoutedCall.step, hcaller] at hstep
    cases hstep
    exact hno.released (.inl rfl)
  | callerHangsUp =>
    intro uas hcaller
    by_cases hcon : Untied s
    · obtain ⟨localSdp, uac, uas', hne, rfl⟩ := hcon
      cases hstep
      -- the PSTN leg stays up
      have hdead := hno.released (.inl (if_pos rfl))
      rw [show (Legs.hangUp ⟨.up uac, .up uas', []⟩ uas').pstn = .up uac from
        if_neg fun heq => hne (LegState.up.inj heq)] at hdead
      cases hdead
    · exact .inl (h.returned_of_up hcon hcaller)
  | trunkHangsUp =>
    intro uac hpstn
    by_cases hcon : Untied s
    · obtain ⟨localSdp, uac', uas, hne, rfl⟩ := hcon
      cases hstep
      -- the caller's leg stays up
      have hdown := hno.ended (if_pos rfl) uas
      exact absurd (if_neg fun heq => hne (LegState.up.inj heq).symm) hdown
    · by_cases hup : ∃ uas, s.legs.caller = .up uas
      · obtain ⟨uas, hcaller⟩ := hup
        exact .inl (h.returned_of_up hcon hcaller)
      · exact .inr fun uas hcaller => hup ⟨uas, hcaller⟩

/-! ## Runs -/

theorem covered_of_stuck {s : RoutedCall} {e : LegEvent} (hstep : s.step e = none) :
    s.Covered e := by
  cases e with
  | trunkAnswers uac => trivial
  | trunkFails err => trivial
  | callerFails err => trivial
  | callerAnswered uas =>
    rintro ⟨localSdp, k, htask⟩ hpstn
    simp [RoutedCall.step, htask, hpstn] at hstep
  | resume =>
    intro localSdp err k htask
    simp [RoutedCall.step, htask] at hstep
  | callerCancels =>
    intro hcaller
    simp [RoutedCall.step, hcaller] at hstep
  | callerHangsUp =>
    intro uas hcaller
    simp [RoutedCall.step, hcaller] at hstep
  | trunkHangsUp =>
    intro uac hpstn
    simp [RoutedCall.step, hpstn] at hstep

theorem stage_start (cfg : Config) (req : Request) (number : String) (callerId : Option String) :
    (start cfg req number callerId).Stage := by
  unfold start
  cases henabled : cfg.trunk.enabled with
  | false =>
    rw [routeCall_disabled henabled, turn_refuseRouted]
    exact stage_refused rfl (.inl rfl)
  | true =>
    rw [routeCall_enabled henabled]
    exact .calling _

/-- Along any order of the trunk's and the caller's answers, of hanging up, and of the turns of
    `routeCall`, neither leg outlives the other exactly when every step is a covered one. -/
theorem noOrphan_throughout_iff (cfg : Config) (req : Request) (number : String)
    (callerId : Option String) (es : List LegEvent) :
    Throughout step NoOrphan (start cfg req number callerId) es ↔
      Meets step Covered (start cfg req number callerId) es := by
  apply Machine.throughout_iff_meets (I := Stage) (P := fun _ _ => True)
  · exact fun s h => h.noOrphan
  · exact fun s e s' h _ hcovered hstep => h.step hcovered hstep
  · exact fun s e s' h _ hstep hno => h.covered hstep hno
  · exact fun s e hstep => covered_of_stuck hstep
  · exact stage_start cfg req number callerId
  · exact Machine.meets_of_mem fun _ _ => trivial

/-- A call of user 1001 to the PSTN. -/
def outboundCall : RoutedCall :=
  start trunkOnly (inviteFrom "203.0.113.7" "1001" "+14155550111") "+14155550111" none

/-- The trunk answers and the caller cannot be answered any more: `routeCall` returns `false`,
    and the PSTN leg stays up. -/
theorem not_noOrphan_callerFails :
    ∃ s, Machine.run step outboundCall
        [.trunkAnswers ⟨1, none, none⟩, .resume, .callerFails ⟨some 487, "cancelled"⟩, .resume] =
          some s ∧
      s.task = .returned (.ok false) ∧ s.legs.pstn = .up ⟨1, none, none⟩ ∧ ¬ s.NoOrphan := by
  refine ⟨_, rfl, rfl, rfl, fun hno => ?_⟩
  have hdead := hno.released (.inr rfl)
  cases hdead

/-- A caller that cancels while the trunk is called leaves the PSTN leg ringing. -/
example : ¬ Throughout step NoOrphan outboundCall [.callerCancels] := by
  rintro ⟨-, hno⟩
  have hdead := hno.released (.inl rfl)
  cases hdead

end RoutedCall

end CallNet
