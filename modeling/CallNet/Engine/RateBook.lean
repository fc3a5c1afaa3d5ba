import CallNet.Engine.Rating

/-!
# The rate book

`loadRatePlans` of `services/postgres/rate.repo.ts`: the tables `rate_plans` and `rates` become
the plans that the rating engine keeps in memory, each with its own rates.
-/

namespace CallNet

/-- A row of `rate_plans`. -/
structure RatePlanRecord where
  id : Int
  currency : Option String
  isDefault : Option Bool
deriving DecidableEq, Repr

/-- A row of `rates`; only the increment and the minimum are whole numbers. -/
structure RateRecord where
  id : Int
  ratePlanId : Int
  ratePrefix : String
  sellPerMin : Option Rat
  setupFee : Option Rat
  incrementSecs : Option Int
  minSecs : Option Int
deriving DecidableEq, Repr

/-- The billing tables with their primary keys, the rows in no particular order. -/
structure RateTables where
  /-- Whether both tables have been created. -/
  present : Bool
  ratePlans : List RatePlanRecord
  rates : List RateRecord
  planKeys : (ratePlans.map RatePlanRecord.id).Nodup
  rateKeys : (rates.map RateRecord.id).Nodup

/-- `Number(value) || fallback`. -/
def numberOr (value : Option Rat) (fallback : Rat) : Rat :=
  match value with
  | some v => if v = 0 then fallback else v
  | none => fallback

/-- A rate as the engine keeps it. -/
def RateRecord.toRow (r : RateRecord) : RateRow :=
  { ratePrefix := r.ratePrefix
    sellPerMin := numberOr r.sellPerMin 0
    setupFee := numberOr r.setupFee 0
    incrementSecs := numberOr (r.incrementSecs.map Int.cast) 60
    minSecs := numberOr (r.minSecs.map Int.cast) 0 }

/-- `ORDER BY length(prefix) DESC, prefix ASC`. -/
def longestFirst (a b : RateRecord) : Bool :=
  if a.ratePrefix.length = b.ratePrefix.length then a.ratePrefix ≤ b.ratePrefix
  else b.ratePrefix.length < a.ratePrefix.length

/-- Append a rate to the list of its plan. -/
def pushRate (byPlan : OrdMap Int (List RateRow)) (r : RateRecord) : OrdMap Int (List RateRow) :=
  match byPlan.get? r.ratePlanId with
  | some list => byPlan.set r.ratePlanId (list ++ [r.toRow])
  | none => byPlan.set r.ratePlanId [r.toRow]

/-- A plan as the engine keeps it. -/
def RatePlanRecord.toRow (p : RatePlanRecord) (rates : List RateRow) : RatePlanRow :=
  { id := p.id
    currency := if truthy p.currency then p.currency.getD "USD" else "USD"
    isDefault := p.isDefault.getD false
    rates }

/-- Load every rate plan with its rates; a workspace without the tables has none. -/
def loadRatePlans (t : RateTables) : List RatePlanRow :=
  if t.present = false then []
  else
    let planRows := t.ratePlans.mergeSort fun a b => a.id ≤ b.id
    if planRows = [] then []
    else
      let rateRows := t.rates.mergeSort longestFirst
      let byPlan := rateRows.foldl pushRate .empty
      planRows.map fun p => p.toRow ((byPlan.get? p.id).getD [])

/-- The engine after a reload that succeeds. -/
def RatingService.reload (t : RateTables) : RatingService := .ofRows (loadRatePlans t)

/-! ## Grouping -/

theorem get?_pushRate (byPlan : OrdMap Int (List RateRow)) (r : RateRecord) (planId : Int) :
    ((pushRate byPlan r).get? planId).getD [] =
      (byPlan.get? planId).getD [] ++ if r.ratePlanId = planId then [r.toRow] else [] := by
  unfold pushRate
  by_cases hplan : r.ratePlanId = planId
  · subst hplan
    cases hlist : byPlan.get? r.ratePlanId with
    | some list => simp only [OrdMap.get?_set_self, Option.getD_some, if_true]
    | none => simp only [OrdMap.get?_set_self, Option.getD_some, Option.getD_none, if_true,
        List.nil_append]
  · have hne : planId ≠ r.ratePlanId := fun h => hplan h.symm
    cases byPlan.get? r.ratePlanId with
    | some list => simp only [OrdMap.get?_set_ne _ _ hne, if_neg hplan, List.append_nil]
    | none => simp only [OrdMap.get?_set_ne _ _ hne, if_neg hplan, List.append_nil]

/-- The rates of a plan are those of its records, in the order of the rows. -/
theorem get?_foldl_pushRate (rows : List RateRecord) (byPlan : OrdMap Int (List RateRow))
    (planId : Int) :
    ((rows.foldl pushRate byPlan).get? planId).getD [] =
      (byPlan.get? planId).getD [] ++
        (rows.filter fun r => r.ratePlanId = planId).map RateRecord.toRow := by
  induction rows generalizing byPlan with
  | nil => simp only [List.foldl_nil, List.filter_nil, List.map_nil, List.append_nil]
  | cons r rows ih =>
    rw [List.foldl_cons, ih, get?_pushRate, List.append_assoc]
    congr 1
    by_cases hplan : r.ratePlanId = planId
    · rw [if_pos hplan, List.filter_cons_of_pos (by simpa using hplan)]
      rfl
    · rw [if_neg hplan, List.filter_cons_of_neg (by simpa using hplan)]
      rfl

/-- The rates of a plan, in the order of the table. -/
def RateTables.ratesOf (t : RateTables) (planId : Int) : List RateRow :=
  (t.rates.filter fun r => r.ratePlanId = planId).map RateRecord.toRow

/-- The rates of a plan as the engine sees them. -/
def RateTables.sortedRatesOf (t : RateTables) (planId : Int) : List RateRow :=
  ((t.rates.mergeSort longestFirst).filter fun r => r.ratePlanId = planId).map RateRecord.toRow

theorem sortedRatesOf_perm (t : RateTables) (planId : Int) :
    (t.sortedRatesOf planId).Perm (t.ratesOf planId) :=
  ((List.mergeSort_perm t.rates longestFirst).filter _).map _

/-- The plans in the order of their ids, each with its rates. -/
theorem loadRatePlans_eq (t : RateTables) (hpresent : t.present = true) :
    loadRatePlans t =
      (t.ratePlans.mergeSort fun a b => a.id ≤ b.id).map fun p =>
        p.toRow (t.sortedRatesOf p.id) := by
  unfold loadRatePlans
  rw [if_neg (by rw [hpresent]; exact Bool.noConfusion)]
  have hrates : ∀ planId, ((((t.rates.mergeSort longestFirst).foldl pushRate .empty).get?
      planId).getD []) = t.sortedRatesOf planId := by
    intro planId
    rw [get?_foldl_pushRate]
    rfl
  simp only [hrates]
  split
  · rename_i hnil
    rw [hnil]
    rfl
  · rfl

theorem loadRatePlans_absent {t : RateTables} (habsent : t.present = false) :
    loadRatePlans t = [] := if_pos habsent

end CallNet
