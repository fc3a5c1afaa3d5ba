import CallNet.Engine.CallLog
import CallNet.ForStd.OrdMap
import Mathlib.Algebra.Order.Ring.Unbundled.Rat

/-!
# Call rating

The in-memory rating engine of `services/rating.service.ts`: it prices a call at its end
by longest-prefix match over the rates of a plan.
-/

namespace CallNet

/-- A destination rate. -/
structure RateRow where
  /-- Leading E.164 digits. -/
  ratePrefix : String
  sellPerMin : Rat
  setupFee : Rat
  incrementSecs : Rat
  minSecs : Rat
deriving DecidableEq, Repr

/-- A rate plan with its rates. -/
structure RatePlanRow where
  id : Int
  currency : String
  isDefault : Bool
  rates : List RateRow
deriving DecidableEq, Repr

/-- The billing fields of a rated call. -/
structure RatingResult where
  cost : Rat
  currency : String
  ratePrefix : String
  billedSecs : Rat
deriving DecidableEq, Repr

/-- The rate book. -/
structure RatingService where
  plans : OrdMap Int RatePlanRow
  defaultPlanId : Option Int

/-- A string property that is given and not empty. -/
def truthy : Option String → Bool
  | none | some "" => false
  | some _ => true

theorem truthy_some_iff {value : String} : truthy (some value) = true ↔ value ≠ "" := by
  by_cases hempty : value = ""
  · simp [hempty, truthy]
  · simp [hempty, truthy]

/-- Strip everything but digits. -/
def toDigits (value : String) : List Char := value.toList.filter fun c => '0' ≤ c ∧ c ≤ '9'

/-- The rate with the longest prefix of `digits`; the first one among equals. -/
def longestPrefixMatch (rates : List RateRow) (digits : List Char) : Option RateRow :=
  rates.foldl (fun best rate =>
    if rate.ratePrefix ≠ "" ∧ rate.ratePrefix.toList.isPrefixOf digits then
      match best with
      | none => some rate
      | some b => if b.ratePrefix.length < rate.ratePrefix.length then some rate else best
    else best) none

/-- Round up to the next billing increment, then enforce the minimum. -/
def billableSeconds (durationSecs incrementSecs minSecs : Rat) : Rat :=
  let inc := if 0 < incrementSecs then incrementSecs else 60
  let rounded := (durationSecs / inc).ceil * inc
  max rounded (if 0 < minSecs then minSecs else 0)

/-- Round to 5 decimal places. -/
def round5 (value : Rat) : Rat := mathRound (value * 100000) / 100000

/-- Seconds between two timestamps, 0 when the end is missing or one is invalid. -/
def derivedDuration (parseDate : String → Option Int) (startIso : String)
    (endIso : Option String) : Rat :=
  match endIso with
  | none | some "" => 0
  | some endIso => (secondsBetween parseDate startIso endIso).getD 0

/-- The service after loading a rate book. -/
def RatingService.ofRows (rows : List RatePlanRow) : RatingService :=
  { plans := .ofList (rows.map fun plan => (plan.id, plan))
    defaultPlanId :=
      match rows.find? RatePlanRow.isDefault with
      | some plan => some plan.id
      | none => rows.head?.map RatePlanRow.id }

def RatingService.resolvePlan (r : RatingService) (planId : Option Int) : Option RatePlanRow :=
  match planId.bind r.plans.get? with
  | some explicit => some explicit
  | none => r.defaultPlanId.bind r.plans.get?

/-- Rate one call; `none` when it cannot be rated. -/
def RatingService.rate (r : RatingService) (dialed : String) (durationSecs : Rat)
    (planId : Option Int) : Option RatingResult :=
  if durationSecs ≤ 0 then none
  else
    match r.resolvePlan planId with
    | none => none
    | some plan =>
      let digits := toDigits dialed
      if digits = [] then none
      else
        match longestPrefixMatch plan.rates digits with
        | none => none
        | some rate =>
          let billedSecs := billableSeconds durationSecs rate.incrementSecs rate.minSecs
          some
            { cost := round5 (rate.setupFee + rate.sellPerMin * billedSecs / 60)
              currency := plan.currency
              ratePrefix := rate.ratePrefix
              billedSecs }

/-- The smallest amount a call could cost; `none` when it cannot be rated. -/
def RatingService.estimateMinCharge (r : RatingService) (dialed : String)
    (planId : Option Int) : Option (Rat × String) :=
  match r.resolvePlan planId with
  | none => none
  | some plan =>
    let digits := toDigits dialed
    if digits = [] then none
    else
      match longestPrefixMatch plan.rates digits with
      | none => none
      | some rate =>
        let minBilled := billableSeconds 1 rate.incrementSecs rate.minSecs
        some (round5 (rate.setupFee + rate.sellPerMin * minBilled / 60), plan.currency)

/-- Whether a rate book is loaded but no rate matches the destination. -/
def RatingService.isUnrated (r : RatingService) (dialed : String) (planId : Option Int) : Bool :=
  if r.plans.size = 0 then false
  else
    match r.resolvePlan planId with
    | none => false
    | some plan =>
      let digits := toDigits dialed
      if digits = [] then false else (longestPrefixMatch plan.rates digits).isNone

/-- The answered seconds of a call that gets these terminal updates. -/
def talkSeconds (parseDate : String → Option Int) (call : CallLog) (updates : CallUpdate) : Rat :=
  match updates.duration with
  | some (some d) => d
  | _ => derivedDuration parseDate call.startTime
      (match updates.endTime with
        | some (some endTime) => some endTime
        | _ => call.endTime)

/-- Rate the destination of an ended call and merge the billing fields into its terminal
    updates; a call to a local extension is not rated. -/
def RatingService.applyToEndedCall (r : RatingService) (parseDate : String → Option Int)
    (call : CallLog) (updates : CallUpdate) (planId : Option Int) : CallUpdate :=
  if truthy call.toExt then updates
  else
    match r.rate call.toLeg (talkSeconds parseDate call updates) planId with
    | none => updates
    | some result =>
      { updates with
        cost := some (some result.cost)
        currency := some (some result.currency)
        ratePrefix := some (some result.ratePrefix)
        billedSecs := some (some result.billedSecs) }

end CallNet
