import CallNet.Spec.DebitEmission
import CallNet.Spec.PrefixMatch

/-!
# Per-user rate overrides

The API keeps a table of per-user prices, at most one for each extension and prefix, that
are meant to go before the rates of the user's plan.  The rating engine loads the plans and
their rates only, so the price of a call is the one of the plan, and it is right exactly
when the override that should decide, if there is one, asks the same.
-/

namespace CallNet

/-! ## The override table -/

/-- A row of `user_rate_overrides`. -/
structure UserRateOverride where
  extension : String
  ratePrefix : String
  sellPerMin : Rat
  setupFee : Rat
  incrementSecs : Rat
  minSecs : Rat
deriving DecidableEq, Repr

/-- The row as a rate; it is matched and charged exactly like one of a plan. -/
def UserRateOverride.toRate (o : UserRateOverride) : RateRow :=
  { ratePrefix := o.ratePrefix
    sellPerMin := o.sellPerMin
    setupFee := o.setupFee
    incrementSecs := o.incrementSecs
    minSecs := o.minSecs }

/-- The table `user_rate_overrides` with its unique index. -/
structure RateOverrides where
  rows : List UserRateOverride
  unique : (rows.map fun o => (o.extension, o.ratePrefix)).Nodup

/-- `ListOverrides`, in no particular order. -/
def RateOverrides.listOverrides (t : RateOverrides) (ext : String) : List UserRateOverride :=
  t.rows.filter fun o => o.extension = ext

/-- The overrides of the user who pays for a call. -/
def RateOverrides.ratesFor (t : RateOverrides) (env : CallEnv) (call : CallLog) : List RateRow :=
  match callerOf env call with
  | some caller => (t.listOverrides caller.extension).map UserRateOverride.toRate
  | none => []

/-! ## The price -/

/-- What a rate charges for some seconds of talk time. -/
def RateRow.charge (rate : RateRow) (secs : Rat) : Rat :=
  round5 (rate.setupFee +
    rate.sellPerMin * billableSeconds secs rate.incrementSecs rate.minSecs / 60)

/-- The rates of the plan that applies to the caller of a call: the assigned one, or else
    the default one. -/
def planRates (rater : RatingService) (env : CallEnv) (call : CallLog) : List RateRow :=
  match rater.resolvePlan ((callerOf env call).bind SipUser.ratePlanId) with
  | some plan => plan.rates
  | none => []

/-- The longest matching override decides the price, and without one the longest matching
    rate of the plan; where nothing matches the call has no price. -/
structure PricedByPrecedence (overrides rates : List RateRow) (digits : List Char) (secs : Rat)
    (cost : Option Rat) : Prop where
  override : ∀ o, LongestMatch overrides digits o → cost = some (o.charge secs)
  plan : (∀ o ∈ overrides, ¬ o.Matches digits) → (∃ r ∈ rates, r.Matches digits) →
    ∃ r, LongestMatch rates digits r ∧ cost = some (r.charge secs)
  unrated : (∀ o ∈ overrides, ¬ o.Matches digits) → (∀ r ∈ rates, ¬ r.Matches digits) →
    cost = none

/-- The longest matching override, if there is one, charges what the longest matching rate of
    the plan charges. -/
def OverrideAgrees (overrides rates : List RateRow) (digits : List Char) (secs : Rat) : Prop :=
  ∀ o, LongestMatch overrides digits o →
    ∃ r, longestPrefixMatch rates digits = some r ∧ r.charge secs = o.charge secs

theorem rate_cost (rater : RatingService) (dialed : String) {secs : Rat} (planId : Option Int)
    (hsecs : 0 < secs) :
    (rater.rate dialed secs planId).map RatingResult.cost =
      (rater.resolvePlan planId).bind fun plan =>
        (longestPrefixMatch plan.rates (toDigits dialed)).map fun r => r.charge secs := by
  have hpos : ¬ secs ≤ 0 := Rat.not_le.mpr hsecs
  unfold RatingService.rate
  rw [if_neg hpos]
  cases rater.resolvePlan planId with
  | none => rfl
  | some plan =>
    simp only [Option.bind_some]
    by_cases hdigits : toDigits dialed = []
    · rw [if_pos hdigits, hdigits, longestPrefixMatch_nil]
      rfl
    · rw [if_neg hdigits]
      cases longestPrefixMatch plan.rates (toDigits dialed) <;> rfl

/-- An external call of some talk time that ends without a cost gets the price of the plan. -/
theorem cost_updateCall {s : CallStore} {env : CallEnv} {rater : RatingService}
    {callId : String} {call : CallLog} {updates : CallUpdate} (hrater : env.rater = some rater)
    (hget : s.getCall callId = some call) (hid : updates.id = none)
    (hended : updates.status = some .ended) (hcost : call.cost = none)
    (hfree : updates.cost = none) (hexternal : truthy call.toExt = false)
    (hsecs : 0 < talkSeconds env.parseDate call updates) :
    ∃ call', (s.updateCall env callId updates).getCall callId = some call' ∧
      call'.cost = (longestPrefixMatch (planRates rater env call) (toDigits call.toLeg)).map
        fun r => r.charge (talkSeconds env.parseDate call updates) := by
  refine ⟨call.assign (pricedUpdates env call updates), ?_, ?_⟩
  · rw [getCall_updateCall hid, if_pos rfl, hget]
    rfl
  -- the record takes the cost of the rating, or keeps having none
  have hrate := rate_cost rater call.toLeg ((callerOf env call).bind SipUser.ratePlanId) hsecs
  have hplan : ((rater.resolvePlan ((callerOf env call).bind SipUser.ratePlanId)).bind
      fun plan => (longestPrefixMatch plan.rates (toDigits call.toLeg)).map
        fun r => r.charge (talkSeconds env.parseDate call updates)) =
      (longestPrefixMatch (planRates rater env call) (toDigits call.toLeg)).map
        fun r => r.charge (talkSeconds env.parseDate call updates) := by
    unfold planRates
    cases rater.resolvePlan ((callerOf env call).bind SipUser.ratePlanId) <;> rfl
  rw [← hplan, ← hrate]
  simp only [CallLog.assign, pricedUpdates, hrater, hended, hcost, and_self, if_true,
    RatingService.applyToEndedCall, hexternal, Bool.false_eq_true, if_false]
  cases rater.rate call.toLeg (talkSeconds env.parseDate call updates)
      ((callerOf env call).bind SipUser.ratePlanId) with
  | none => simp only [hfree, Option.getD_none, Option.map_none]
  | some result => rfl

/-- The price of the plan follows the precedence exactly when the deciding override agrees. -/
theorem pricedByPrecedence_iff (overrides rates : List RateRow) (digits : List Char)
    (secs : Rat) :
    PricedByPrecedence overrides rates digits secs
        ((longestPrefixMatch rates digits).map fun r => r.charge secs) ↔
      OverrideAgrees overrides rates digits secs := by
  constructor
  · intro h o ho
    have hprice := h.override o ho
    simpa only [Option.map_eq_some_iff] using hprice
  · intro h
    refine ⟨fun o ho => ?_, fun _ hmatch => ?_, fun _ hnone => ?_⟩
    · obtain ⟨r, hr, hcharge⟩ := h o ho
      rw [hr, Option.map_some, hcharge]
    · obtain ⟨r, hr, hmatches⟩ := hmatch
      obtain ⟨best, hbest⟩ := Option.isSome_iff_exists.mp
        (longestPrefixMatch_isSome hr hmatches.1 hmatches.2)
      exact ⟨best, longestMatch_of_eq_some hbest, by rw [hbest, Option.map_some]⟩
    · rw [longestPrefixMatch_eq_none_iff.mpr hnone, Option.map_none]

/-- An external call that ends with some talk time is priced by the precedence of overrides
    and plan exactly when the override that decides, if any, charges the plan's price. -/
theorem override_priced_iff {s : CallStore} {env : CallEnv} {rater : RatingService}
    {callId : String} {call : CallLog} {updates : CallUpdate} (overrides : RateOverrides)
    (hrater : env.rater = some rater) (hget : s.getCall callId = some call)
    (hid : updates.id = none) (hended : updates.status = some .ended)
    (hcost : call.cost = none) (hfree : updates.cost = none)
    (hexternal : truthy call.toExt = false)
    (hsecs : 0 < talkSeconds env.parseDate call updates) :
    ∃ call', (s.updateCall env callId updates).getCall callId = some call' ∧
      (PricedByPrecedence (overrides.ratesFor env call) (planRates rater env call)
          (toDigits call.toLeg) (talkSeconds env.parseDate call updates) call'.cost ↔
        OverrideAgrees (overrides.ratesFor env call) (planRates rater env call)
          (toDigits call.toLeg) (talkSeconds env.parseDate call updates)) := by
  obtain ⟨call', hget', hprice⟩ :=
    cost_updateCall hrater hget hid hended hcost hfree hexternal hsecs
  refine ⟨call', hget', ?_⟩
  rw [hprice]
  exact pricedByPrecedence_iff ..

/-! ## A user with a price of its own -/

/-- A plan that charges 6 a minute for calls to `91`. -/
def nationalRate : RateRow :=
  { ratePrefix := "91", sellPerMin := 6, setupFee := 0, incrementSecs := 60, minSecs := 0 }

def nationalBook : RatingService :=
  .ofRows [{ id := 1, currency := "USD", isDefault := true, rates := [nationalRate] }]

/-- A database with user 1001. -/
def nationalEnv : CallEnv where
  dir := Directory.empty.upsertUser "1001" "alice" "Alice" "+911111111111"
  rater := some nationalBook
  billing := { prepaidEnabled := true, currency := "USD" }
  parseDate := fun _ => none

/-- One price for user 1001 and calls to `91`. -/
def nationalOverride (sellPerMin : Rat) : RateOverrides where
  rows := [⟨"1001", "91", sellPerMin, 0, 60, 0⟩]
  unique := List.nodup_singleton _

/-- A call of user 1001 to `91`. -/
def nationalCall : CallLog where
  id := "call"
  fromLeg := "1001"
  toLeg := "+919876543210"
  fromName := "Alice"
  status := .answered
  direction := .outbound
  startTime := "t0"
  fromExt := some "1001"

/-- The log with this call. -/
def nationalStore : CallStore := ⟨[nationalCall], []⟩

/-- The end of a call after a minute. -/
def endedMinute : CallUpdate := { status := some .ended, duration := some (some 60) }

/-- An override that repeats the plan's price is charged. -/
theorem override_priced_iff_agreeing :
    ∃ call', (nationalStore.updateCall nationalEnv "call" endedMinute).getCall "call" = some call' ∧
      PricedByPrecedence ((nationalOverride 6).ratesFor nationalEnv nationalCall)
        (planRates nationalBook nationalEnv nationalCall) (toDigits nationalCall.toLeg)
        (talkSeconds nationalEnv.parseDate nationalCall endedMinute) call'.cost := by
  have hsecs : 0 < talkSeconds nationalEnv.parseDate nationalCall endedMinute := by decide +kernel
  have hrater : nationalEnv.rater = some nationalBook := rfl
  have hlogged : nationalStore.getCall "call" = some nationalCall := rfl
  obtain ⟨call', hget, hiff⟩ :=
    override_priced_iff (nationalOverride 6) hrater hlogged rfl rfl rfl rfl rfl hsecs
  refine ⟨call', hget, hiff.mpr ?_⟩
  intro o ho
  have hrates : (nationalOverride 6).ratesFor nationalEnv nationalCall = [nationalRate] := by
    decide +kernel
  have hmem := ho.mem
  rw [hrates, List.mem_singleton] at hmem
  exact ⟨nationalRate, by decide +kernel, by rw [hmem]⟩

/-- An override at ten times the price is not charged. -/
theorem not_priced_overridden :
    ∃ call', (nationalStore.updateCall nationalEnv "call" endedMinute).getCall "call" = some call' ∧
      LongestMatch ((nationalOverride 60).ratesFor nationalEnv nationalCall)
        (toDigits nationalCall.toLeg) { nationalRate with sellPerMin := 60 } ∧
      call'.cost = some 6 ∧
      ¬ PricedByPrecedence ((nationalOverride 60).ratesFor nationalEnv nationalCall)
        (planRates nationalBook nationalEnv nationalCall) (toDigits nationalCall.toLeg)
        (talkSeconds nationalEnv.parseDate nationalCall endedMinute) call'.cost := by
  have hoverride : LongestMatch ((nationalOverride 60).ratesFor nationalEnv nationalCall)
      (toDigits nationalCall.toLeg) { nationalRate with sellPerMin := 60 } :=
    longestMatch_of_eq_some (by decide +kernel)
  have hcost : (((nationalStore.updateCall nationalEnv "call" endedMinute).getCall "call").map
      CallLog.cost) = some (some 6) := by decide +kernel
  obtain ⟨call', hget, hsix⟩ := Option.map_eq_some_iff.mp hcost
  refine ⟨call', hget, hoverride, hsix, fun h => ?_⟩
  have hsixty := h.override _ hoverride
  rw [hsix] at hsixty
  exact absurd hsixty (by decide +kernel)

end CallNet
