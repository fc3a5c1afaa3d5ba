import CallNet.Spec.DialNormalization
import CallNet.Spec.EmergencyCalls
import CallNet.Spec.LegSources

/-!
# The number the trunk is asked for

The dial plan puts an external number into international form, and the trunk does the same to
every number it is given.  Of an external number nothing is changed any more; an emergency
number gets a plus sign, unless it is configured with one (`number_sent_iff`).
-/

namespace CallNet

/-! ## The Request-URI -/

/-- The Request-URI to the trunk with this user part. -/
def TrunkConfig.uriTo (trunk : TrunkConfig) (user : String) : String :=
  "sip:" ++ user ++ "@" ++ trunk.host ++ ":" ++ toString trunk.port

/-- A plus sign, and then digits and plus signs only. -/
def PlusNumber (number : String) : Prop :=
  ∃ cs, number.toList = '+' :: cs ∧ ∀ c ∈ cs, c = '+' ∨ isDigit c = true

theorem formatOutboundUri_eq_iff (trunk : TrunkConfig) (number : String) :
    trunk.formatOutboundUri number = trunk.uriTo (trunk.dialPrefix ++ number) ↔
      internationalForm number = number := by
  unfold TrunkConfig.formatOutboundUri TrunkConfig.uriTo
  constructor
  · intro h
    rw [← String.toList_inj] at h ⊢
    simpa only [String.toList_append, List.append_assoc, List.append_cancel_left_eq,
      List.append_cancel_right_eq] using h
  · intro h
    rw [h]
    simp only [String.append_assoc]

/-- The international form begins with a plus sign and has digits and plus signs only. -/
theorem plusNumber_internationalForm (number : String) : PlusNumber (internationalForm number) := by
  have hkeep : ∀ c ∈ (keepNumber number).toList, c = '+' ∨ isDigit c = true := by
    intro c hc
    rw [keepNumber, String.toList_ofList] at hc
    exact of_decide_eq_true (List.mem_filter.mp hc).2
  have hcoded (code : List Char) (hcode : code.all isDigit = true) :
      PlusNumber (String.ofList ('+' :: code) ++ keepNumber number) := by
    refine ⟨code ++ (keepNumber number).toList, ?_, fun c hc => ?_⟩
    · rw [String.toList_append, String.toList_ofList, List.cons_append]
    · rcases List.mem_append.mp hc with hc | hc
      · exact .inr (List.all_eq_true.mp hcode c hc)
      · exact hkeep c hc
  unfold internationalForm
  dsimp only
  split
  · -- dialed with its plus sign
    rename_i cs hcs
    exact ⟨cs, hcs, fun c hc => hkeep c (hcs ▸ List.mem_cons_of_mem _ hc)⟩
  · split
    · exact hcoded ['9', '1'] (by decide)
    · split
      · exact hcoded ['1'] (by decide)
      · exact hcoded [] rfl

/-- The trunk leaves exactly these numbers as they are. -/
theorem internationalForm_eq_iff (number : String) :
    internationalForm number = number ↔ PlusNumber number := by
  constructor
  · intro h
    rw [← h]
    exact plusNumber_internationalForm number
  · rintro ⟨cs, hcs, hall⟩
    have hkeep : keepNumber number = number := by
      refine keepNumber_of_forall fun c hc => ?_
      rw [hcs] at hc
      exact (List.mem_cons.mp hc).elim .inl (hall c)
    unfold internationalForm
    simp only [hkeep, hcs]

/-- An external route is to a number in international form. -/
theorem external_of_resolve {emergencyNumbers : List String} {dialed : String}
    (h : (resolve emergencyNumbers dialed).type = .external) :
    (resolve emergencyNumbers dialed).target = internationalForm (cleanDialed dialed) ∧
      (resolve emergencyNumbers dialed).normalizedNumber =
        (resolve emergencyNumbers dialed).target := by
  unfold resolve at h ⊢
  generalize cleanDialed dialed = cleaned at h ⊢
  dsimp only at h ⊢
  repeat' split at h
  -- the other branches are other routes
  all_goals cases h
  simp only [*, Bool.false_eq_true, if_false, if_true]
  exact ⟨rfl, trivial⟩

/-! ## The handlers -/

/-- Every INVITE to the trunk has the prefix and the resolved number as its user part. -/
def SendsNumber (cfg : Config) (route : DialResult) : Effect → Prop
  | .createUAC invite => invite.uri = cfg.trunk.uriTo (cfg.trunk.dialPrefix ++ route.target)
  | _ => True

section Handlers

variable {cfg : Config} {ctx : CallContext} {route : DialResult}

/-- The trunk is asked for a number that it leaves as it is. -/
theorem sendsNumber_of_dialsOnly {α : Type} {p : CallProg α}
    (hp : Performs (Effect.DialsOnly cfg route.target) p)
    (hsame : cfg.trunk.enabled = true → internationalForm route.target = route.target) :
    Performs (SendsNumber cfg route) p := by
  refine hp.mono fun e he => ?_
  cases e with
  | createUAC invite =>
    obtain ⟨henabled, localSdp, callerId, rfl⟩ := he
    exact (formatOutboundUri_eq_iff cfg.trunk route.target).mpr (hsame henabled)
  | _ => trivial

theorem EmergencyHandler_dialsOnly (cfg : Config) (ctx : CallContext) (route : DialResult) :
    Performs (Effect.DialsOnly cfg route.target) (EmergencyHandler cfg ctx (some route)) := by
  unfold EmergencyHandler
  split
  · exact performs_pure _
  · rename_i r hr
    obtain ⟨hsome, -⟩ := routeOf_eq_some hr
    cases hsome
    refine performs_then trivial fun _ => performs_ite (fun _ => ?_) fun _ => ?_
    · refine performs_bind (routeCall_dialsOnly _ _) fun ok => ?_
      exact performs_then trivial fun _ => performs_pure _
    · exact performs_then trivial fun _ => performs_then trivial fun _ => performs_pure _

theorem dialExternal_dialsOnly (number : String) :
    Performs (Effect.DialsOnly cfg number) (dialExternal cfg ctx number) :=
  performs_bind (performs_directory trivial) fun _ =>
    performs_bind (routeCall_dialsOnly _ _) fun _ => performs_then trivial fun _ => performs_pure _

theorem ExternalHandler_dialsOnly (hnumber : route.type = .external →
    route.normalizedNumber = route.target) :
    Performs (Effect.DialsOnly cfg route.target) (ExternalHandler cfg ctx (some route)) := by
  unfold ExternalHandler
  split
  · exact performs_pure _
  · rename_i r hr
    obtain ⟨hsome, htype⟩ := routeOf_eq_some hr
    cases hsome
    rw [hnumber htype]
    refine performs_ite (fun _ => performs_pure _) fun _ => ?_
    -- a caller who is not registered, and one whom billing stops, are refused without a leg
    refine performs_bind (performs_directory trivial) fun dir => ?_
    refine performs_ite (fun _ => (refuseUnregistered_answering _ _).dialsOnly id id _) fun _ => ?_
    refine performs_then trivial fun snap => performs_ite (fun _ => ?_) fun _ => ?_
    · exact (refuseBilling_answering _ _ _).dialsOnly id id _
    · dsimp only
      split
      · exact (refuseBilling_answering _ _ _).dialsOnly id id _
      · exact dialExternal_dialsOnly _

/-- The trunk is asked for the emergency number. -/
theorem sendsNumber_emergency (htype : route.type = .emergency)
    (henabled : cfg.trunk.enabled = true)
    (h : Performs (SendsNumber cfg route) (EmergencyHandler cfg ctx (some route))) :
    cfg.trunk.formatOutboundUri route.target =
      cfg.trunk.uriTo (cfg.trunk.dialPrefix ++ route.target) := by
  have hroute : routeOf .emergency (some route) = some route := routeOf_self htype
  unfold EmergencyHandler routeCall createOutboundLeg at h
  simp only [hroute, henabled, Bool.not_true, Bool.false_eq_true, if_false, if_true] at h
  -- the audit entry comes first
  have hrest := h.only.2 ()
  exact hrest.1

end Handlers

/-- The handlers of emergency and external routes ask the trunk for the resolved number and for
    no other. -/
def SentUnchanged (cfg : Config) (ctx : CallContext) (route : DialResult) : Prop :=
  Performs (SendsNumber cfg route) (EmergencyHandler cfg ctx (some route)) ∧
    Performs (SendsNumber cfg route) (ExternalHandler cfg ctx (some route))

/-- For every configuration, call and dialed string: the resolved number reaches the trunk
    unchanged, if and only if the trunk is disabled, the route is no emergency, or the emergency
    number begins with a plus sign and has digits and plus signs only.  And an external number
    that is dialed with a plus sign is resolved to itself. -/
theorem number_sent_iff (cfg : Config) (ctx : CallContext) (dialed : String) :
    (SentUnchanged cfg ctx (resolve cfg.emergencyNumbers dialed) ↔
        cfg.trunk.enabled = false ∨ (resolve cfg.emergencyNumbers dialed).type ≠ .emergency ∨
          PlusNumber (resolve cfg.emergencyNumbers dialed).target) ∧
      ∀ ds, (cleanDialed dialed).toList = '+' :: ds → (∀ c ∈ ds, isDigit c = true) →
        (resolve cfg.emergencyNumbers dialed).type = .external →
        (resolve cfg.emergencyNumbers dialed).target = cleanDialed dialed := by
  refine ⟨?_, fun ds hds hdigits htype => ?_⟩
  · have hexternal (htype : (resolve cfg.emergencyNumbers dialed).type = .external) :=
      external_of_resolve htype
    generalize resolve cfg.emergencyNumbers dialed = route at hexternal ⊢
    have hsame : route.type = .external → internationalForm route.target = route.target := by
      intro htype
      rw [internationalForm_eq_iff, (hexternal htype).1]
      exact plusNumber_internationalForm _
    constructor
    · -- an emergency number that is sent unchanged has its plus sign
      rintro ⟨hemergency, -⟩
      cases henabled : cfg.trunk.enabled with
      | false => exact .inl rfl
      | true =>
        by_cases htype : route.type = .emergency
        · refine .inr (.inr ?_)
          rw [← internationalForm_eq_iff, ← formatOutboundUri_eq_iff cfg.trunk]
          exact sendsNumber_emergency htype henabled hemergency
        · exact .inr (.inl htype)
    · intro h
      constructor
      · by_cases htype : route.type = .emergency
        · refine sendsNumber_of_dialsOnly (EmergencyHandler_dialsOnly cfg ctx route) fun henabled => ?_
          rcases h with hdisabled | hother | hplus
          · rw [henabled] at hdisabled
            cases hdisabled
          · exact absurd htype hother
          · exact (internationalForm_eq_iff _).mpr hplus
        · unfold EmergencyHandler
          rw [routeOf_ne htype]
          exact performs_pure _
      · by_cases htype : route.type = .external
        · -- the dial plan's own form, which the trunk leaves as it is
          refine sendsNumber_of_dialsOnly ?_ fun _ => hsame htype
          exact ExternalHandler_dialsOnly fun htype => (hexternal htype).2
        · unfold ExternalHandler
          rw [routeOf_ne htype]
          exact performs_pure _
  · rw [(external_of_resolve htype).1]
    exact internationalForm_of_plus hds hdigits

/-- An international number with separators. -/
theorem number_sent_international :
    SentUnchanged trunkOnly ((inviteFrom "203.0.113.9" "1001" "+1 415-555-0101").context none "call")
        (resolve trunkOnly.emergencyNumbers "+1 415-555-0101") ∧
      (resolve trunkOnly.emergencyNumbers "+1 415-555-0101").target = "+14155550101" := by
  have h := number_sent_iff trunkOnly
    ((inviteFrom "203.0.113.9" "1001" "+1 415-555-0101").context none "call") "+1 415-555-0101"
  have htype : (resolve trunkOnly.emergencyNumbers "+1 415-555-0101").type = .external := by
    decide +kernel
  have hclean : cleanDialed "+1 415-555-0101" = "+14155550101" := by decide +kernel
  refine ⟨h.1.mpr (.inr (.inl (by rw [htype]; decide))), ?_⟩
  rw [← hclean]
  exact h.2 "14155550101".toList (by rw [hclean]; rfl) (List.all_eq_true.mp (by decide)) htype

/-- The trunk is asked for `+911`. -/
theorem not_sentUnchanged_911 :
    ¬∀ (cfg : Config) (ctx : CallContext) (dialed : String),
      (resolve cfg.emergencyNumbers dialed).type = .external ∨
        (resolve cfg.emergencyNumbers dialed).type = .emergency →
      SentUnchanged cfg ctx (resolve cfg.emergencyNumbers dialed) := by
  intro h
  have htype : (resolve trunkOnly.emergencyNumbers "911").type = .emergency := by decide +kernel
  have hsent := h trunkOnly ((inviteFrom "203.0.113.9" "1001" "911").context none "call") "911"
    (.inr htype)
  have huri := sendsNumber_emergency htype rfl hsent.1
  revert huri
  decide +kernel

end CallNet
