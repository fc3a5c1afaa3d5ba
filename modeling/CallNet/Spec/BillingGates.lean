import Mathlib.Tactic.IntervalCases
import CallNet.Spec.Calm
import CallNet.Spec.PrefixMatch

/-!
# Billing gates

`ExternalHandler` checks the destination and the balance of a registered caller; the meeting
handler and the widget handler send legs to the trunk without.  So the gates cover every
number a caller chooses only where neither can be led to one that a gate would stop
(`gates_cover_iff`).
-/

namespace CallNet

/-! ## Numbers -/

theorem toDigits_keepNumber (number : String) : toDigits (keepNumber number) = toDigits number := by
  unfold toDigits keepNumber
  rw [String.toList_ofList, List.filter_filter]
  refine List.filter_congr fun c _ => ?_
  unfold isDigit
  by_cases hc : '0' ≤ c ∧ c ≤ '9' <;> simp [hc]

theorem toDigits_append (a b : String) : toDigits (a ++ b) = toDigits a ++ toDigits b := by
  unfold toDigits
  rw [String.toList_append, List.filter_append]

theorem toDigits_ne_nil {s : String} {c : Char} {cs : List Char} (hcs : s.toList = c :: cs)
    (hdigit : isDigit c = true) : toDigits s ≠ [] := by
  intro h
  have hfilter : (c :: cs).filter isDigit = [] := by
    rw [← hcs]
    exact h
  rw [List.filter_cons_of_pos hdigit] at hfilter
  cases hfilter

/-- A number has digits when its international form has. -/
theorem toDigits_internationalForm_eq_nil {number : String} :
    toDigits (internationalForm number) = [] ↔ toDigits number = [] := by
  rw [← toDigits_keepNumber number]
  unfold internationalForm
  generalize hclean : keepNumber number = clean
  have hkept : clean.toList = number.toList.filter fun c => c = '+' ∨ isDigit c := by
    rw [← hclean, keepNumber, String.toList_ofList]
  dsimp only
  split
  · rfl
  · rename_i hplus
    -- a prefix goes in front of ten digits, the first of which is one
    have hcoded (code : String) (hten : clean.toList.length = 10) :
        toDigits (code ++ clean) = [] ↔ toDigits clean = [] := by
      rw [toDigits_append, List.append_eq_nil_iff]
      refine ⟨fun h => h.2, fun h => ?_⟩
      cases hcs : clean.toList with
      | nil => rw [hcs] at hten; cases hten
      | cons c cs =>
        have hmem : c ∈ number.toList.filter fun c => c = '+' ∨ isDigit c := by
          rw [← hkept, hcs]
          exact List.mem_cons_self
        have hsign := of_decide_eq_true (List.mem_filter.mp hmem).2
        have hdigit : isDigit c = true := hsign.resolve_left fun hc => hplus cs (by rw [hcs, hc])
        exact absurd h (toDigits_ne_nil hcs hdigit)
    split
    · rename_i hten
      exact hcoded _ hten.1
    · split
      · rename_i hten
        exact hcoded _ hten
      · rw [toDigits_append]
        rfl

/-- A number written with `n + 1` signs in front of its digits. -/
def paddedNumber (n : Nat) (number : String) : String :=
  String.ofList (List.replicate (n + 1) '+' ++ toDigits number)

theorem toDigits_paddedNumber (n : Nat) (number : String) :
    toDigits (paddedNumber n number) = toDigits number := by
  unfold paddedNumber toDigits
  rw [String.toList_ofList, List.filter_append, List.filter_filter]
  rw [List.filter_eq_nil_iff.mpr, List.nil_append]
  · exact List.filter_congr fun c _ => Bool.and_self _
  · intro c hc
    rw [(List.mem_replicate.mp hc).2]
    decide

theorem keepNumber_paddedNumber (n : Nat) (number : String) :
    keepNumber (paddedNumber n number) = paddedNumber n number := by
  unfold keepNumber paddedNumber
  rw [String.toList_ofList, List.filter_eq_self.mpr]
  intro c hc
  rcases List.mem_append.mp hc with hc | hc
  · exact decide_eq_true (.inl (List.mem_replicate.mp hc).2)
  · exact decide_eq_true (.inr (List.mem_filter.mp hc).2)

/-- Signs are kept. -/
theorem internationalForm_paddedNumber (n : Nat) (number : String) :
    internationalForm (paddedNumber n number) = paddedNumber n number := by
  unfold internationalForm
  rw [keepNumber_paddedNumber]
  have hsign : (paddedNumber n number).toList =
      '+' :: (List.replicate n '+' ++ toDigits number) := by
    unfold paddedNumber
    rw [String.toList_ofList]
    rfl
  dsimp only
  rw [hsign]
  rfl

theorem length_paddedNumber (n : Nat) (number : String) :
    (paddedNumber n number).length = n + 1 + (toDigits number).length := by
  unfold paddedNumber
  rw [String.length_ofList, List.length_append, List.length_replicate]

/-- A leg depends on its number in international form only. -/
theorem invite_congr (trunk : TrunkConfig) {a b : String}
    (h : internationalForm a = internationalForm b) (localSdp : String) (callerId : Option String) :
    trunk.invite a localSdp callerId = trunk.invite b localSdp callerId := by
  unfold TrunkConfig.invite TrunkConfig.formatOutboundUri
  rw [h]

theorem internationalForm_of_invite {trunk : TrunkConfig} {a b localSdp localSdp' : String}
    {callerId callerId' : Option String}
    (h : trunk.invite a localSdp callerId = trunk.invite b localSdp' callerId') :
    internationalForm a = internationalForm b :=
  formatOutboundUri_inj trunk (congrArg OutboundInvite.uri h)

/-! ## What the gates cover -/

/-- The caller did not choose the number, or the gates let exactly that number pass. -/
inductive Covered (cfg : Config) (req : Request) (claims : Option WidgetTokenClaims) (h : History)
    (number : String) : Prop
  /-- An emergency number, the target of a rule or the mobile of a called user. -/
  | granted (granted : Granted cfg req h number)
  /-- The configured dial-in of meetings. -/
  | configured (eq : number = trim cfg.teamsDefaultDialIn)
  /-- The destination of the widget token. -/
  | token {c : WidgetTokenClaims} (by_token : claims = some c) (eq : number = c.destination)
  | gated {snap : Snapshot} (mem : Effect.event .snapshot snap ∈ h)
      (pass : GatesPass cfg snap number (callerIdentity req claims))

/-- The leg of an own call to an approved peer. -/
def ToPeer (cfg : Config) (req : Request) (claims : Option WidgetTokenClaims)
    (invite : OutboundInvite) : Prop :=
  ¬ TrunkToken claims ∧ ∃ peer ∈ cfg.sipPeers, ∃ dir caller user,
    invite = peer.invite cfg dir caller user req.body

/-- Every leg that is sent to the trunk is to a number that is covered when it is sent. -/
def GatesCover (cfg : Config) (req : Request) (t : History) : Prop :=
  ∀ claims, TokenClaims t claims → ∀ pre invite x post,
    t = pre ++ Effect.event (.createUAC invite) x :: post → ¬ ToPeer cfg req claims invite →
      ∃ number localSdp callerId, invite = cfg.trunk.invite number localSdp callerId ∧
        Covered cfg req claims pre number

/-- The caller is registered whenever the users are looked at. -/
def FromRegistered (req : Request) (t : History) : Prop :=
  ∀ claims snap, TokenClaims t claims → Effect.event .snapshot snap ∈ t →
    snap.dir.isRegistered (callerIdentity req claims) = true

/-- No gate stops the number, or the trunk dials an emergency number or the configured dial-in
    for it. -/
def Harmless (cfg : Config) (number : String) : Prop :=
  toDigits number = [] ∨
    (∃ emergency ∈ cfg.emergencyNumbers, internationalForm emergency = internationalForm number) ∨
    internationalForm (trim cfg.teamsDefaultDialIn) = internationalForm number

/-- No gate is on, or what the meeting headers and a widget token can be made to dial needs
    none. -/
def NothingToGate (cfg : Config) (rt : Runtime) (req : Request) : Prop :=
  cfg.billing.blockUnrated = true ∨ cfg.billing.prepaidEnabled = true →
    (JoinsMeeting cfg req → Harmless cfg (req.dialIn cfg)) ∧
    (cfg.trunk.enabled = true → req.widgetToken ≠ "" → Harmless cfg (normalizedDialed cfg rt req))

section Gates

variable {cfg : Config} {rt : Runtime} {req : Request} {claims : Option WidgetTokenClaims}
  {h : History} {snap : Snapshot} {number caller : String}

theorem gatesPass_off (hoff : ¬ (cfg.billing.blockUnrated = true ∨ cfg.billing.prepaidEnabled = true)) :
    GatesPass cfg snap number caller where
  rated hblock := absurd (.inl hblock) hoff
  covered hprepaid := absurd (.inr hprepaid) hoff

/-- A number without digits has no rate and no price. -/
theorem gatesPass_of_no_digits (hnil : toDigits number = []) :
    GatesPass cfg snap number caller where
  rated _ := by
    unfold Directory.isUnratedDestination RatingService.isUnrated
    cases snap.rater with
    | none => rfl
    | some r =>
      dsimp only
      rw [hnil]
      repeat' split
      all_goals first | rfl | exact absurd rfl ‹_›
  covered _ required currency hestimate := by
    unfold Directory.estimateMinCharge RatingService.estimateMinCharge at hestimate
    obtain ⟨r, -, hprice⟩ := Option.bind_eq_some_iff.mp hestimate
    dsimp only at hprice
    split at hprice
    · cases hprice
    · rw [if_pos hnil] at hprice
      cases hprice

/-- A harmless number, or any number while the gates are off, is covered as the trunk dials it. -/
theorem covered_of_harmless (hmem : Effect.event .snapshot snap ∈ h)
    (hn : (cfg.billing.blockUnrated = true ∨ cfg.billing.prepaidEnabled = true) →
      Harmless cfg number) :
    ∃ number', internationalForm number' = internationalForm number ∧
      Covered cfg req claims h number' := by
  by_cases hon : cfg.billing.blockUnrated = true ∨ cfg.billing.prepaidEnabled = true
  · rcases hn hon with hnil | ⟨emergency, hemergency, hform⟩ | hform
    · exact ⟨number, rfl, .gated hmem (gatesPass_of_no_digits hnil)⟩
    · exact ⟨emergency, hform, .granted (.emergency hemergency)⟩
    · exact ⟨_, hform, .configured rfl⟩
  · exact ⟨number, rfl, .gated hmem (gatesPass_off hon)⟩

/-- What the origin of a leg says of its number. -/
theorem LegSource.covered {invite : OutboundInvite} (hs : LegSource cfg rt req claims h invite)
    (hmem : Effect.event .snapshot snap ∈ h) (htoken : claims ≠ none → req.widgetToken ≠ "")
    (hg : NothingToGate cfg rt req) (hpeer : ¬ ToPeer cfg req claims invite) :
    ∃ number localSdp callerId, invite = cfg.trunk.invite number localSdp callerId ∧
      Covered cfg req claims h number := by
  -- a number that the gates need not stop, as the trunk dials it
  have hfree (number localSdp : String) (callerId : Option String)
      (hn : (cfg.billing.blockUnrated = true ∨ cfg.billing.prepaidEnabled = true) →
        Harmless cfg number) : ∃ number' localSdp' callerId',
      cfg.trunk.invite number localSdp callerId = cfg.trunk.invite number' localSdp' callerId' ∧
        Covered cfg req claims h number' := by
    obtain ⟨number', hform, hcovered⟩ := covered_of_harmless hmem hn
    exact ⟨number', localSdp, callerId, invite_congr _ hform.symm _ _, hcovered⟩
  cases hs with
  | peer mem own => exact absurd ⟨own, _, mem, _, _, _, rfl⟩ hpeer
  | granted hgranted => exact ⟨_, _, _, rfl, .granted hgranted⟩
  | meeting joins => exact hfree _ _ _ fun hon => (hg hon).1 joins
  | widget enabled by_token dials =>
    rcases dials.2 with heq | ⟨rfl, -⟩
    · exact ⟨_, _, _, rfl, .token by_token heq⟩
    · exact hfree _ _ _ fun hon => (hg hon).2 enabled (htoken (by rw [by_token]; nofun))
  | gated mem pass => exact ⟨_, _, _, rfl, .gated mem pass⟩

theorem snapshot_mem_trace (a : Admission) : Effect.event .snapshot a.snap ∈ a.trace cfg req :=
  List.mem_cons_of_mem _ (List.mem_cons_of_mem _ (List.mem_cons_of_mem _ (List.mem_cons_of_mem _
    (List.mem_append_right _ List.mem_cons_self))))

/-- Where there is nothing to gate, every leg of every run is covered. -/
theorem NothingToGate.covers (hg : NothingToGate cfg rt req)
    (hsource : cfg.trunk.isFromTrunk rt req.sourceAddress = false) {t : History}
    {r : Except SipError Unit} (hr : Prog.Run (handleInvite cfg rt req) t r) :
    GatesCover cfg req t := by
  intro claims hclaims pre invite x post ht hpeer
  obtain ⟨a, ha, mid, rfl, hrouted⟩ := leg_admitted hr ht
  have hsame : claims = a.claims := by
    refine hclaims.unique ?_
    rw [ht, List.append_assoc]
    exact ha.tokenClaims hrouted
  subst hsame
  refine (leg_source hsource hrouted).covered (List.mem_append_left _ (snapshot_mem_trace a))
    (fun hsome hempty => hsome (ha.claims hempty)) hg hpeer

/-! ## A caller whom every gate stops -/

/-- A rate for each first digit, that charges 1 for the setup. -/
def setupRates : List RateRow :=
  "0123456789".toList.map fun c =>
    { ratePrefix := String.ofList [c], sellPerMin := 0, setupFee := 1, incrementSecs := 60
      minSecs := 0 }

/-- A rate book that rates nothing where unrated destinations are blocked, and charges for
    everything otherwise. -/
def strictBook (cfg : Config) : RatingService :=
  .ofRows [{ id := 1, currency := "USD", isDefault := true
             rates := if cfg.billing.blockUnrated then [] else setupRates }]

/-- A registered caller with an empty wallet, and a user to call. -/
def strictSnapshot (cfg : Config) (target caller : String) : Snapshot where
  dir :=
    { users := OrdMap.empty.set target { extension := target, username := target, name := target }
      phoneIndex := .empty
      registrations := OrdMap.empty.set caller "sip:caller@203.0.113.9"
      ivrFlowExtensions := [] }
  rater := some (strictBook cfg)

theorem mem_digits {c : Char} (h : '0' ≤ c ∧ c ≤ '9') : c ∈ "0123456789".toList := by
  have hlow : 48 ≤ c.toNat := h.1
  have hhigh : c.toNat ≤ 57 := h.2
  rw [← Char.ofNat_toNat c]
  generalize c.toNat = n at hlow hhigh
  interval_cases n <;> decide

theorem strictBook_plan (cfg : Config) :
    (strictBook cfg).resolvePlan none = some
      { id := 1, currency := "USD", isDefault := true
        rates := if cfg.billing.blockUnrated then [] else setupRates } := rfl

theorem strictSnapshot_user {target caller ext : String} {user : SipUser}
    (h : (strictSnapshot cfg target caller).dir.users.get? ext = some user) :
    user = { extension := target, username := target, name := target } := by
  unfold strictSnapshot at h
  rw [OrdMap.get?_set] at h
  split at h
  · cases h
    rfl
  · cases h

theorem strictSnapshot_plan (target caller ext : String) :
    (if ext = "" then none else
      ((strictSnapshot cfg target caller).dir.users.get? ext).bind SipUser.ratePlanId) = none := by
  split
  · rfl
  · cases huser : (strictSnapshot cfg target caller).dir.users.get? ext with
    | none => rfl
    | some user =>
      rw [strictSnapshot_user huser]
      rfl

/-- The caller is priced for every number with digits. -/
theorem setupRates_price {digits : List Char} (hdigits : ∀ c ∈ digits, '0' ≤ c ∧ c ≤ '9')
    (hne : digits ≠ []) : ∃ rate, longestPrefixMatch setupRates digits = some rate ∧
      round5 (rate.setupFee + rate.sellPerMin * billableSeconds 1 rate.incrementSecs rate.minSecs /
        60) = 1 := by
  cases digits with
  | nil => exact absurd rfl hne
  | cons d ds =>
    have hmem := List.mem_map_of_mem (f := fun c : Char =>
      ({ ratePrefix := String.ofList [c], sellPerMin := 0, setupFee := 1, incrementSecs := 60
         minSecs := 0 } : RateRow)) (mem_digits (hdigits d List.mem_cons_self))
    have hsome : (longestPrefixMatch setupRates (d :: ds)).isSome = true := by
      refine longestPrefixMatch_isSome hmem ?_ ?_
      · exact fun hempty => List.cons_ne_nil _ _ (String.ofList_eq_empty_iff.mp hempty)
      · rw [String.toList_ofList]
        simp
    obtain ⟨rate, hrate⟩ := Option.isSome_iff_exists.mp hsome
    refine ⟨rate, hrate, ?_⟩
    obtain ⟨c, -, rfl⟩ := List.mem_map.mp (longestPrefixMatch_mem hrate)
    dsimp only
    decide +kernel

/-- The wallet is empty. -/
theorem strictSnapshot_balance (target caller ext : String) :
    (((strictSnapshot cfg target caller).dir.getUser ext).bind SipUser.balance).getD 0 = 0 := by
  cases huser : (strictSnapshot cfg target caller).dir.getUser ext with
  | none => rfl
  | some user =>
    rw [strictSnapshot_user huser]
    rfl

theorem strictSnapshot_registered (target caller : String) :
    (strictSnapshot cfg target caller).dir.isRegistered caller = true := by
  unfold Directory.isRegistered OrdMap.has strictSnapshot
  rw [OrdMap.get?_set_self]
  rfl

/-- One of the gates that are on stops every number with digits. -/
theorem strictSnapshot_stops {target caller' : String}
    (hon : cfg.billing.blockUnrated = true ∨ cfg.billing.prepaidEnabled = true)
    (hdigits : toDigits number ≠ []) :
    ¬ GatesPass cfg (strictSnapshot cfg target caller) number caller' := by
  intro hpass
  by_cases hblock : cfg.billing.blockUnrated = true
  · -- no rate matches
    have hunrated : (strictSnapshot cfg target caller).dir.isUnratedDestination
        (some (strictBook cfg)) number caller' = true := by
      have hsize : (strictBook cfg).plans.size = 1 := rfl
      unfold Directory.isUnratedDestination RatingService.isUnrated
      dsimp only
      rw [strictSnapshot_plan, strictBook_plan, hsize, if_neg nofun]
      dsimp only
      rw [if_neg hdigits, if_pos hblock]
      rfl
    have hrated := hpass.rated hblock
    rw [show (strictSnapshot cfg target caller).rater = some (strictBook cfg) from rfl,
      hunrated] at hrated
    cases hrated
  · -- the price is 1 and the wallet is empty
    have hprepaid := hon.resolve_left hblock
    have hall : ∀ c ∈ toDigits number, '0' ≤ c ∧ c ≤ '9' := fun c hc =>
      of_decide_eq_true (List.mem_filter.mp hc).2
    obtain ⟨rate, hmatch, hprice⟩ := setupRates_price hall hdigits
    have hestimate : (strictSnapshot cfg target caller).dir.estimateMinCharge
        (some (strictBook cfg)) number caller' = some (1, "USD") := by
      unfold Directory.estimateMinCharge RatingService.estimateMinCharge
      rw [Option.bind_some, strictSnapshot_plan, strictBook_plan]
      dsimp only
      rw [if_neg hdigits, if_neg hblock, hmatch]
      dsimp only
      rw [hprice]
    have hcovered := hpass.covered hprepaid 1 "USD" hestimate (by decide)
    rw [strictSnapshot_balance] at hcovered
    revert hcovered
    decide

/-! ## Legs that no gate saw -/

/-- The route of the dialed URI, before flows are looked up. -/
theorem inviteRoute_eq {dir : Directory} (hflows : dir.ivrFlowExtensions = []) :
    inviteRoute cfg rt dir req = (resolveExternalSip rt.parseUri cfg.sipPeers (req.uri.getD "")).getD
      (resolve cfg.emergencyNumbers req.called) := by
  unfold inviteRoute
  refine if_neg fun h => ?_
  have hflow := h.2.2
  unfold Directory.isIvrFlowExtension at hflow
  rw [hflows] at hflow
  cases hflow

/-- Calls of the caller are admitted: it is registered, and the extension it dials exists. -/
theorem strictSnapshot_routable (claims : Option WidgetTokenClaims) {target : String}
    (htarget : target = ((resolveExternalSip rt.parseUri cfg.sipPeers (req.uri.getD "")).getD
      (resolve cfg.emergencyNumbers req.called)).target) :
    req.routable cfg rt claims
      (strictSnapshot cfg target (callerIdentity req claims)).dir := by
  rintro ⟨-, -, hbad⟩
  have hreg : (strictSnapshot cfg target (callerIdentity req claims)).dir.isRegistered
      (callerIdentity req claims) = true := strictSnapshot_registered _ _
  have huser : ((strictSnapshot cfg target (callerIdentity req claims)).dir.getUser
      target).isSome = true := by
    unfold Directory.getUser strictSnapshot
    rw [OrdMap.get?_set_self]
    rfl
  rw [Bool.not_eq_true', inviteRoute_eq rfl] at hbad
  unfold isInviteLegitimate at hbad
  split at hbad
  · rw [← htarget, huser] at hbad
    cases hbad
  any_goals
    rw [hreg] at hbad
    cases hbad
  any_goals cases hbad
  -- nothing is resolved to a blocked route
  rename_i hblocked
  cases hpeer : resolveExternalSip rt.parseUri cfg.sipPeers (req.uri.getD "") with
  | none =>
    rw [hpeer, Option.getD_none] at hblocked
    exact resolve_ne_blocked cfg.emergencyNumbers req.called hblocked
  | some route =>
    rw [hpeer, Option.getD_some] at hblocked
    cases (resolveExternalSip_type hpeer).symm.trans hblocked

/-- A number that is not harmless is not covered when a calm call dials it. -/
theorem not_covered_of_calm {pre : History} {target number' : String}
    (hon : cfg.billing.blockUnrated = true ∨ cfg.billing.prepaidEnabled = true)
    (hn : ¬ Harmless cfg number) (hform : internationalForm number' = internationalForm number)
    (htoken : ∀ c, claims = some c → internationalForm c.destination ≠ internationalForm number)
    (hcalm : ∀ ev ∈ pre, Calm (strictSnapshot cfg target caller) ev) :
    ¬ Covered cfg req claims pre number' := by
  obtain ⟨hdigits, hemergency, hdefault⟩ := not_or.mp hn |>.imp_right not_or.mp
  intro hcovered
  cases hcovered with
  | granted hgranted =>
    cases hgranted with
    | emergency mem => exact hemergency ⟨_, mem, hform⟩
    | rule mem type => cases hcalm _ mem
    | mobile called mem user_eq mobile_eq =>
      obtain rfl := hcalm _ mem
      rw [strictSnapshot_user user_eq] at mobile_eq
      cases mobile_eq
  | configured heq => exact hdefault (heq ▸ hform)
  | token by_token heq => exact htoken _ by_token (heq ▸ hform)
  | gated mem pass =>
    obtain rfl := hcalm _ mem
    refine strictSnapshot_stops hon (fun hnil => hdigits ?_) pass
    rwa [← toDigits_internationalForm_eq_nil, ← hform, toDigits_internationalForm_eq_nil]

/-- A call of the strict deployment's caller that may dial a number that is not harmless has a
    run that no gate covers. -/
theorem exists_uncovered {a : Admission} (ha : a.Ok cfg rt req) {target number localSdp : String}
    {callerId : Option String}
    (hsnap : a.snap = strictSnapshot cfg target (callerIdentity req a.claims))
    (hon : cfg.billing.blockUnrated = true ∨ cfg.billing.prepaidEnabled = true)
    (hn : ¬ Harmless cfg number)
    (htoken : ∀ c, a.claims = some c → internationalForm c.destination ≠ internationalForm number)
    (hpeer : ¬ ToPeer cfg req a.claims (cfg.trunk.invite number localSdp callerId))
    (hmay : May a.snap (.createUAC (cfg.trunk.invite number localSdp callerId))
      (routeAdmitted cfg rt (a.ctx req) (a.route cfg rt req))) :
    ∃ t r, Prog.Run (handleInvite cfg rt req) t r ∧ FromRegistered req t ∧
      ¬ GatesCover cfg req t := by
  obtain ⟨pre, x, post, r, hr, hclaims, hcalm⟩ := ha.run_may hmay
  refine ⟨_, r, hr, fun claims snap hclaims' hmem => ?_, fun hcover => ?_⟩
  · obtain rfl := hclaims'.unique hclaims
    rw [show snap = a.snap from hcalm _ hmem, hsnap]
    exact strictSnapshot_registered _ _
  · obtain ⟨number', localSdp', callerId', heq, hcovered⟩ :=
      hcover a.claims hclaims pre _ x post rfl hpeer
    have hpre : ∀ ev ∈ pre,
        Calm (strictSnapshot cfg target (callerIdentity req a.claims)) ev := by
      rw [← hsnap]
      exact fun ev hev => hcalm ev (List.mem_append_left _ hev)
    exact not_covered_of_calm hon hn (internationalForm_of_invite heq).symm htoken hpre hcovered

/-- A registered caller whose headers ask for a meeting is dialed in to it. -/
theorem exists_uncovered_meeting (hsource : cfg.trunk.isFromTrunk rt req.sourceAddress = false)
    (hon : cfg.billing.blockUnrated = true ∨ cfg.billing.prepaidEnabled = true)
    (hjoins : JoinsMeeting cfg req) (hn : ¬ Harmless cfg (req.dialIn cfg)) :
    ∃ t r, Prog.Run (handleInvite cfg rt req) t r ∧ FromRegistered req t ∧
      ¬ GatesCover cfg req t := by
  let base := (resolveExternalSip rt.parseUri cfg.sipPeers (req.uri.getD "")).getD
    (resolve cfg.emergencyNumbers req.called)
  let a : Admission :=
    ⟨.empty, 0, none, strictSnapshot cfg base.target (callerIdentity req none), "call", "t0"⟩
  have ha : a.Ok cfg rt req := ⟨rfl, fun _ => rfl, strictSnapshot_routable none rfl⟩
  have hcaller : callerIdentity req none ≠ "" := req.caller_ne
  have hreg : a.snap.dir.isRegistered (callerIdentity req none) = true :=
    strictSnapshot_registered _ _
  have hmay : May a.snap (.createUAC (cfg.trunk.invite (req.dialIn cfg) (req.body ++ "m") none))
      (routeAdmitted cfg rt (a.ctx req) (a.route cfg rt req)) :=
    routeAdmitted_may_meeting hsource hjoins hcaller hreg (req.body ++ "m")
  refine exists_uncovered ha rfl hon hn nofun ?_ hmay
  -- a leg to a peer carries the caller's own SDP
  rintro ⟨-, peer, -, dir, caller, user, heq⟩
  have hsdp : req.body ++ "m" = req.body := congrArg OutboundInvite.localSdp heq
  have hlength := congrArg String.length hsdp
  rw [String.length_append] at hlength
  exact absurd hlength (by simp)

/-- A token for the same digits with more `+` in front lets the caller dial the number as it
    wrote it. -/
theorem exists_uncovered_widget (hsource : cfg.trunk.isFromTrunk rt req.sourceAddress = false)
    (hon : cfg.billing.blockUnrated = true ∨ cfg.billing.prepaidEnabled = true)
    (henabled : cfg.trunk.enabled = true) (htoken : req.widgetToken ≠ "")
    (hn : ¬ Harmless cfg (normalizedDialed cfg rt req)) :
    ∃ t r, Prog.Run (handleInvite cfg rt req) t r ∧ FromRegistered req t ∧
      ¬ GatesCover cfg req t := by
  let base := (resolveExternalSip rt.parseUri cfg.sipPeers (req.uri.getD "")).getD
    (resolve cfg.emergencyNumbers req.called)
  let form := internationalForm (normalizedDialed cfg rt req)
  let c : WidgetTokenClaims :=
    { keyId := 1, owner := "1001", callerId := "", routeType := some .trunk
      destination := paddedNumber (form.length + 1) (normalizedDialed cfg rt req) }
  let a : Admission :=
    ⟨.empty, 0, some c, strictSnapshot cfg base.target (callerIdentity req (some c)), "call", "t0"⟩
  have ha : a.Ok cfg rt req :=
    ⟨rfl, fun hempty => absurd hempty htoken, strictSnapshot_routable (some c) rfl⟩
  have hroute : (a.route cfg rt req).normalizedNumber = normalizedDialed cfg rt req :=
    inviteRoute_normalizedNumber _
  have hdigits : toDigits (normalizedDialed cfg rt req) ≠ [] := fun hnil => hn (.inl hnil)
  have hmatch : digitsEqual (toDigits c.destination)
      (toDigits (a.route cfg rt req).normalizedNumber) = true := by
    rw [hroute, toDigits_paddedNumber]
    unfold digitsEqual
    rw [if_neg (by rw [or_self]; exact hdigits), if_pos rfl]
  obtain ⟨callerId, hmay⟩ : ∃ callerId,
      May a.snap (.createUAC (cfg.trunk.invite (a.route cfg rt req).normalizedNumber req.body
        callerId)) (routeAdmitted cfg rt (a.ctx req) (a.route cfg rt req)) :=
    routeAdmitted_may_widget hsource henabled rfl hmatch
  rw [hroute] at hmay
  refine exists_uncovered ha rfl hon hn ?_ (fun hpeer => hpeer.1 ⟨c, rfl, rfl⟩) hmay
  rintro _ ⟨⟩ hform
  have hlength := congrArg String.length hform
  rw [internationalForm_paddedNumber, length_paddedNumber] at hlength
  change (internationalForm (normalizedDialed cfg rt req)).length + 1 + 1 + _ =
    (internationalForm (normalizedDialed cfg rt req)).length at hlength
  omega

/-- For every configuration and every INVITE that does not come from the trunk: in every run of
    a registered caller every number the caller chose has passed the gates, if and only if no
    gate would stop what the meeting headers and a widget token can be made to dial. -/
theorem gates_cover_iff (cfg : Config) (rt : Runtime) (req : Request)
    (hsource : cfg.trunk.isFromTrunk rt req.sourceAddress = false) :
    (∀ t r, Prog.Run (handleInvite cfg rt req) t r → FromRegistered req t →
        GatesCover cfg req t) ↔ NothingToGate cfg rt req := by
  constructor
  · intro h hon
    refine ⟨fun hjoins => ?_, fun henabled htoken => ?_⟩ <;> by_contra hn
    · obtain ⟨t, r, hr, hfrom, hcover⟩ := exists_uncovered_meeting hsource hon hjoins hn
      exact hcover (h t r hr hfrom)
    · obtain ⟨t, r, hr, hfrom, hcover⟩ := exists_uncovered_widget hsource hon henabled htoken hn
      exact hcover (h t r hr hfrom)
  · exact fun hg t r hr _ => hg.covers hsource hr

/-- A plain call to a number is gated. -/
theorem gates_cover_iff_dialed :
    trunkOnly.trunk.isFromTrunk bareRuntime "203.0.113.9" = false ∧
      ∀ t r, Prog.Run (handleInvite trunkOnly bareRuntime
          (inviteFrom "203.0.113.9" "1001" "+19005550100")) t r →
        FromRegistered (inviteFrom "203.0.113.9" "1001" "+19005550100") t →
        GatesCover trunkOnly (inviteFrom "203.0.113.9" "1001" "+19005550100") t := by
  have hsource : trunkOnly.trunk.isFromTrunk bareRuntime "203.0.113.9" = false := by
    decide +kernel
  refine ⟨hsource, (gates_cover_iff trunkOnly bareRuntime
    (inviteFrom "203.0.113.9" "1001" "+19005550100") hsource).mpr ?_⟩
  intro _
  exact ⟨fun hjoins => (nomatch hjoins.media), fun _ htoken => absurd (by decide +kernel) htoken⟩

end Gates

/-- A deployment with a media layer and a prepaid wallet. -/
def withMedia : Config := { trunkOnly with hasIvr := true }

/-- A caller who asks for a meeting at a number of its own. -/
def meetingInvite (dialIn : String) : Request :=
  { inviteFrom "203.0.113.9" "1001" "1002" with
    get := fun name => if name = "X-Teams-Conf-Id" then some "123"
      else if name = "X-Teams-Number" then some dialIn else none }

/-- A caller with an empty wallet is put through to the number in the header. -/
theorem not_gatesCover_meeting :
    ¬ ∀ t r, Prog.Run (handleInvite withMedia bareRuntime (meetingInvite "+19005550100")) t r →
      FromRegistered (meetingInvite "+19005550100") t →
      GatesCover withMedia (meetingInvite "+19005550100") t := by
  intro h
  have hjoins : JoinsMeeting withMedia (meetingInvite "+19005550100") :=
    ⟨rfl, rfl, by decide +kernel, by decide +kernel⟩
  have hn : ¬ Harmless withMedia ((meetingInvite "+19005550100").dialIn withMedia) := by
    unfold Harmless
    decide +kernel
  have hsource : withMedia.trunk.isFromTrunk bareRuntime
      (meetingInvite "+19005550100").sourceAddress = false := by decide +kernel
  obtain ⟨t, r, hr, hfrom, hcover⟩ := exists_uncovered_meeting hsource (.inr rfl) hjoins hn
  exact hcover (h t r hr hfrom)

end CallNet
