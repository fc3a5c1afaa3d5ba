import CallNet.Api.Saves
import CallNet.ForStd.OrdMap

/-!
# Rate plans

The calls of `internal/service/rate_service.go` that write rate plans.  A call makes its
repository operations one after the other, each of which commits on its own, and the operations
of several calls may come in any order.
-/

namespace CallNet.Api

/-- A row of `rate_plans`; its id is the key of the row, its timestamps are left out. -/
structure RatePlan where
  name : String
  currency : String
  isDefault : Bool
deriving DecidableEq, Repr

/-- `RatePlanInput`: a partial update of a plan, a missing field is not applied. -/
structure PlanInput where
  name : Option String := none
  currency : Option String := none
  isDefault : Option Bool := none
deriving DecidableEq, Repr

/-- A field that is given and not blank, trimmed. -/
def givenText (field : Option String) : Option String :=
  field.bind fun s => if trimSpace s = "" then none else some (trimSpace s)

section Inputs

-- `strings.ToUpper`
variable (toUpper : String → String)

/-- The plan of `CreatePlan`; without a name there is none. -/
def newPlan (input : PlanInput) : Option RatePlan :=
  (givenText input.name).map fun name =>
    { name
      currency := ((givenText input.currency).map toUpper).getD "USD"
      isDefault := input.isDefault.getD false }

/-- The row that `UpdatePlan` writes back. -/
def applyPlanInput (plan : RatePlan) (input : PlanInput) : RatePlan :=
  { name := (givenText input.name).getD plan.name
    currency := ((givenText input.currency).map toUpper).getD plan.currency
    isDefault := input.isDefault.getD plan.isDefault }

end Inputs

/-- The last write of a call. -/
inductive PlanWrite where
  /-- `Create` -/
  | create (plan : RatePlan)
  /-- `Save`, which inserts a row that is gone. -/
  | save (id : Nat) (plan : RatePlan)
deriving DecidableEq, Repr

def PlanWrite.plan : PlanWrite → RatePlan
  | .create plan => plan
  | .save _ plan => plan

/-- The row that a write replaces. -/
def PlanWrite.target : PlanWrite → Option Nat
  | .create _ => none
  | .save id _ => some id

/-- The repository operation a call makes next. -/
inductive PlanPhase where
  /-- `GetPlan` of `UpdatePlan` -/
  | reading (id : Nat) (input : PlanInput)
  /-- `ClearDefault`, the write comes after it. -/
  | clearing (write : PlanWrite)
  | writing (write : PlanWrite)
  /-- `DeletePlan`, a transaction. -/
  | deleting (id : Nat)
  | returned (error : Bool)
deriving DecidableEq, Repr

/-- A call, and whether an operation of its own has changed which plans are flagged. -/
structure PlanCall where
  phase : PlanPhase
  changed : Bool
deriving DecidableEq, Repr

/-- The table `rate_plans` and the calls since the start of the service. -/
structure PlanService where
  plans : OrdMap Nat RatePlan
  nextId : Nat
  calls : List PlanCall

inductive PlanEvent where
  | createPlan (input : PlanInput)
  | updatePlan (id : Nat) (input : PlanInput)
  | deletePlan (id : Nat)
  /-- The next repository operation of a call. -/
  | operate (call : Nat) (fails : Bool)
deriving DecidableEq, Repr

/-- The ids of the plans that are flagged default. -/
def defaultIds (plans : OrdMap Nat RatePlan) : List Nat :=
  (plans.filter fun _ plan => plan.isDefault).keys

namespace PlanService

def init : PlanService := { plans := .empty, nextId := 1, calls := [] }

/-- `ClearDefault` -/
def clearDefault (plans : OrdMap Nat RatePlan) : OrdMap Nat RatePlan :=
  plans.mapVals fun _ plan => { plan with isDefault := false }

/-- A call begins. -/
def start (s : PlanService) (phase : PlanPhase) : PlanService :=
  { s with calls := s.calls ++ [⟨phase, false⟩] }

/-- A write, and `ClearDefault` before it if the plan takes the flag. -/
def clearFor (takes : Bool) (write : PlanWrite) : PlanPhase :=
  if takes then .clearing write else .writing write

def write (s : PlanService) : PlanWrite → PlanService
  | .create plan => { s with plans := s.plans.set s.nextId plan, nextId := s.nextId + 1 }
  | .save id plan => { s with plans := s.plans.set id plan }

/-- What the next operation does when the database answers, and how the call goes on. -/
def perform (toUpper : String → String) (s : PlanService) : PlanPhase → PlanService × PlanPhase
  | .reading id input =>
    match s.plans.get? id with
    | none => (s, .returned true)
    | some plan =>
      (s, clearFor (input.isDefault.getD false && !plan.isDefault)
        (.save id (applyPlanInput toUpper plan input)))
  | .clearing w => ({ s with plans := clearDefault s.plans }, .writing w)
  | .writing w => (s.write w, .returned false)
  | .deleting id => ({ s with plans := s.plans.delete id }, .returned false)
  | .returned error => (s, .returned error)

/-- A call goes on after one of its operations. -/
def resume (s s' : PlanService) (i : Nat) (call : PlanCall) (phase : PlanPhase) : PlanService :=
  { s' with
    calls := s.calls.set i
      ⟨phase, call.changed || decide (defaultIds s'.plans ≠ defaultIds s.plans)⟩ }

def step (toUpper : String → String) (s : PlanService) : PlanEvent → Option PlanService
  | .createPlan input =>
    match newPlan toUpper input with
    | none => some (s.start (.returned true))
    | some plan => some (s.start (clearFor plan.isDefault (.create plan)))
  | .updatePlan id input => some (s.start (.reading id input))
  | .deletePlan id => some (s.start (.deleting id))
  | .operate i fails =>
    match s.calls[i]? with
    | none | some ⟨.returned _, _⟩ => none
    | some call =>
      -- a statement that fails leaves the tables alone, and its error is the call's
      if fails then some (s.resume s i call (.returned true))
      else
        let (s', phase) := s.perform toUpper call.phase
        some (s.resume s' i call phase)

end PlanService

end CallNet.Api
