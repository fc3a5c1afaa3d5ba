import CallNet.Api.Saves
import CallNet.ForStd.OrdMap
import Mathlib.Algebra.Group.Nat.Defs
import Mathlib.Data.Rat.Defs

/-!
# Rates and rate plans

`internal/service/rate_service.go` with the repository calls it makes.  Prices are exact; the
timestamps of a row are left out.
-/

namespace CallNet.Api

/-! ## Rates -/

/-- A row of `rates`; its id is the key of the row. -/
structure Rate where
  ratePlanId : Nat
  ratePrefix : String
  description : String
  sellPerMin : Rat
  buyPerMin : Rat
  setupFee : Rat
  incrementSecs : Int
  minSecs : Int
deriving DecidableEq, Repr

/-- A partial update of a rate; a missing field is not applied. -/
structure RateInput where
  ratePrefix : Option String := none
  description : Option String := none
  sellPerMin : Option Rat := none
  buyPerMin : Option Rat := none
  setupFee : Option Rat := none
  incrementSecs : Option Int := none
  minSecs : Option Int := none
deriving Repr

inductive RateError where
  /-- "prefix is required" -/
  | prefixRequired
  /-- `gorm.ErrRecordNotFound` -/
  | notFound
  /-- "could not parse CSV" -/
  | csv
  /-- Any other error of the database. -/
  | repo
deriving DecidableEq, Repr

/-- Strip anything but digits. -/
def normalizePrefix (s : String) : String :=
  String.ofList (s.toList.filter fun c => '0' ≤ c ∧ c ≤ '9')

/-- The prefix of an input that is given and not blank. -/
def RateInput.given (input : RateInput) : Option String :=
  input.ratePrefix.bind fun p => if trimSpace p = "" then none else some p

/-- Copy the provided fields onto a rate. -/
def applyRateInput (rate : Rate) (input : RateInput) : Rate :=
  { rate with
    ratePrefix := (input.given.map normalizePrefix).getD rate.ratePrefix
    description := (input.description.map trimSpace).getD rate.description
    sellPerMin := input.sellPerMin.getD rate.sellPerMin
    buyPerMin := input.buyPerMin.getD rate.buyPerMin
    setupFee := input.setupFee.getD rate.setupFee
    incrementSecs := match input.incrementSecs with
      | some n => if 0 < n then n else rate.incrementSecs
      | none => rate.incrementSecs
    minSecs := match input.minSecs with
      | some n => if 0 ≤ n then n else rate.minSecs
      | none => rate.minSecs }

/-- The table `rates`, in the order of the ids, and the ids of the plans. -/
structure RateTable where
  plans : List Nat
  rows : OrdMap Nat Rate
  nextId : Nat
  fresh : ∀ id rate, rows.get? id = some rate → id < nextId

namespace RateTable

/-- Insert a row under the next id. -/
def insert (s : RateTable) (rate : Rate) : RateTable :=
  { s with
    rows := s.rows.set s.nextId rate
    nextId := s.nextId + 1
    fresh := by
      intro id r h
      rw [OrdMap.get?_set] at h
      split at h
      · rename_i hid
        rw [hid]
        exact Nat.lt_succ_self _
      · exact Nat.lt_succ_of_lt (s.fresh id r h) }

/-- Write a row that was read from the table. -/
def save (s : RateTable) (id : Nat) (rate : Rate) : RateTable :=
  { s with
    rows := s.rows.modify id fun _ => rate
    fresh := by
      intro id' r h
      rw [OrdMap.get?_modify] at h
      split at h
      · obtain ⟨old, hold, _⟩ := Option.map_eq_some_iff.mp h
        exact s.fresh id' old hold
      · exact s.fresh id' r h }

/-- `CreateRate`; `read` and `saved` are whether the database answers. -/
def createRate (s : RateTable) (planId : Nat) (input : RateInput) (read saved : Bool) :
    RateTable × Except RateError Rate :=
  match input.given with
  | none => (s, .error .prefixRequired)
  | some p =>
    if !read then (s, .error .repo)
    else if planId ∉ s.plans then (s, .error .notFound)
    else
      let rate := applyRateInput
        { ratePlanId := planId, ratePrefix := normalizePrefix p, description := ""
          sellPerMin := 0, buyPerMin := 0, setupFee := 0, incrementSecs := 60, minSecs := 0 }
        input
      if saved then (s.insert rate, .ok rate) else (s, .error .repo)

/-- `UpdateRate` -/
def updateRate (s : RateTable) (id : Nat) (input : RateInput) (read saved : Bool) :
    RateTable × Except RateError Rate :=
  if !read then (s, .error .repo)
  else
    match s.rows.get? id with
    | none => (s, .error .notFound)
    | some rate =>
      if saved then (s.save id (applyRateInput rate input), .ok (applyRateInput rate input))
      else (s, .error .repo)

end RateTable

/-! ## Rate sheets -/

/-- What `encoding/csv` and `strconv.ParseFloat` read. -/
structure SheetReader where
  readAll : String → Option (List (List String))
  parseFloat : String → Option Rat

/-- The value of a non-empty row of digits. -/
def digitsValue (ds : List Char) : Option Nat :=
  letI : Decidable (∀ c ∈ ds, '0' ≤ c ∧ c ≤ '9') := List.decidableBAll _ ds
  if ds ≠ [] ∧ ∀ c ∈ ds, '0' ≤ c ∧ c ≤ '9' then
    some (ds.foldl (fun n c => 10 * n + (c.toNat - '0'.toNat)) 0)
  else none

/-- `strconv.Atoi` -/
def atoi (s : String) : Option Int :=
  match s.toList with
  | '-' :: ds => (digitsValue ds).bind fun n => if n ≤ 2 ^ 63 then some (-n) else none
  | '+' :: ds => (digitsValue ds).bind fun n => if n < 2 ^ 63 then some n else none
  | ds => (digitsValue ds).bind fun n => if n < 2 ^ 63 then some n else none

/-- A column as a float, 0 when it is missing or bad. -/
def parseCSVFloat (sheets : SheetReader) (row : List String) (idx : Nat) : Rat :=
  (row[idx]?.bind fun cell => sheets.parseFloat (trimSpace cell)).getD 0

/-- A column as an int, 0 when it is missing or bad. -/
def parseCSVInt (row : List String) (idx : Nat) : Int :=
  (row[idx]?.bind fun cell => atoi (trimSpace cell)).getD 0

structure RateImportResult where
  created : Nat
  updated : Nat
  skipped : Nat
  errors : List String
deriving DecidableEq, Repr

/-- The rate of a row of the sheet. -/
def sheetRate (sheets : SheetReader) (planId : Nat) (row : List String) (cell : String) : Rate :=
  { ratePlanId := planId
    ratePrefix := normalizePrefix cell
    description := trimSpace (row[1]?.getD "")
    sellPerMin := parseCSVFloat sheets row 2
    buyPerMin := parseCSVFloat sheets row 3
    setupFee := parseCSVFloat sheets row 4
    incrementSecs := if 0 < parseCSVInt row 5 then parseCSVInt row 5 else 60
    minSecs := if 0 < parseCSVInt row 6 then parseCSVInt row 6 else 0 }

/-- One row of the sheet: a blank line and a header are passed over, a row without a prefix is
    reported. -/
def readRow (sheets : SheetReader) (planId : Nat) (acc : RateImportResult × List Rate)
    (line : List String × Nat) : RateImportResult × List Rate :=
  let (row, i) := line
  match row with
  | [] => acc
  | cell :: _ =>
    if trimSpace (String.join row) = "" then acc
    else if normalizePrefix cell = "" then
      if i = 0 then acc
      else
        ({ acc.1 with
            skipped := acc.1.skipped + 1
            errors := acc.1.errors ++ ["row " ++ toString (i + 1) ++ ": missing/invalid prefix"] },
          acc.2)
    else (acc.1, acc.2 ++ [sheetRate sheets planId row cell])

namespace RateTable

/-- The first row of the plan with the prefix. -/
def findRate (s : RateTable) (planId : Nat) (p : String) : Option (Nat × Rate) :=
  s.rows.entries.find? fun e => e.2.ratePlanId = planId ∧ e.2.ratePrefix = p

/-- One rate of `UpsertRates`, with the numbers of rows created and updated so far. -/
def upsertRate (planId : Nat) (acc : RateTable × Nat × Nat) (incoming : Rate) :
    RateTable × Nat × Nat :=
  match acc.1.findRate planId incoming.ratePrefix with
  | none => (acc.1.insert { incoming with ratePlanId := planId }, acc.2.1 + 1, acc.2.2)
  | some (id, existing) =>
    (acc.1.save id
      { existing with
        description := incoming.description
        sellPerMin := incoming.sellPerMin
        buyPerMin := incoming.buyPerMin
        setupFee := incoming.setupFee
        incrementSecs := incoming.incrementSecs
        minSecs := incoming.minSecs }, acc.2.1, acc.2.2 + 1)

/-- `UpsertRates`: one transaction, which a failing statement rolls back; the statements of the
    `i`-th rate fail if `fails i`, and the commit if `fails` does after the last one. -/
def upsertRates (s : RateTable) (planId : Nat) (rates : List Rate) (fails : Nat → Bool) :
    Option (RateTable × Nat × Nat) :=
  if (List.range (rates.length + 1)).any fails then none
  else some (rates.foldl (upsertRate planId) (s, 0, 0))

/-- `ImportRates` -/
def importRates (sheets : SheetReader) (s : RateTable) (planId : Nat) (csvData : String)
    (read : Bool) (fails : Nat → Bool) : RateTable × Except RateError RateImportResult :=
  if !read then (s, .error .repo)
  else if planId ∉ s.plans then (s, .error .notFound)
  else
    match sheets.readAll csvData with
    | none => (s, .error .csv)
    | some records =>
      let (result, rates) := records.zipIdx.foldl (readRow sheets planId) (⟨0, 0, 0, []⟩, [])
      if rates = [] then (s, .ok result)
      else
        match s.upsertRates planId rates fails with
        | none => (s, .error .repo)
        | some (s', created, updated) =>
          (s', .ok { result with created := created, updated := updated })

end RateTable

/-- A call of the service, with what the database answers. -/
inductive RateCall where
  | createRate (planId : Nat) (input : RateInput) (read saved : Bool)
  | updateRate (id : Nat) (input : RateInput) (read saved : Bool)
  | importRates (planId : Nat) (csvData : String) (read : Bool) (fails : Nat → Bool)

/-- The table after a call. -/
def RateTable.after (sheets : SheetReader) (s : RateTable) : RateCall → RateTable
  | .createRate planId input read saved => (s.createRate planId input read saved).1
  | .updateRate id input read saved => (s.updateRate id input read saved).1
  | .importRates planId csvData read fails => (s.importRates sheets planId csvData read fails).1

def RateTable.step (sheets : SheetReader) (s : RateTable) (call : RateCall) : Option RateTable :=
  some (s.after sheets call)

end CallNet.Api
