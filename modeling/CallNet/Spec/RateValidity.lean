import CallNet.Api.RateService
import CallNet.ForStd.Machine

/-!
# What the rating engine may assume of the rates

An import keeps the rates of a plan apart and drops rows without digits.  `CreateRate` and
`UpdateRate` look at the prefix before it is normalized and never for another rate that has it,
so the table stays valid exactly as long as their inputs do what they do not check
(`valid_throughout_iff`).
-/

namespace CallNet.Api

open Machine (Meets Throughout)

/-- Only digits, and at least one. -/
def IsPrefix (p : String) : Prop := p ≠ "" ∧ ∀ c ∈ p.toList, '0' ≤ c ∧ c ≤ '9'

theorem isPrefix_normalizePrefix {p : String} (h : normalizePrefix p ≠ "") :
    IsPrefix (normalizePrefix p) := by
  refine ⟨h, fun c hc => ?_⟩
  unfold normalizePrefix at hc
  rw [String.toList_ofList] at hc
  exact of_decide_eq_true (List.mem_filter.mp hc).2

namespace RateTable

variable {s s' : RateTable} {sheets : SheetReader} {planId id : Nat} {input : RateInput}
  {rate : Rate} {read saved : Bool}

/-! ## Valid tables -/

/-- A rate that the engine can match and bill. -/
structure ValidRate (rate : Rate) : Prop where
  isPrefix : IsPrefix rate.ratePrefix
  increment : 0 < rate.incrementSecs

/-- Every rate is valid, and no plan has two of one prefix. -/
structure Valid (s : RateTable) : Prop where
  rates : ∀ id rate, s.rows.get? id = some rate → ValidRate rate
  distinct : ∀ id id' rate rate', s.rows.get? id = some rate → s.rows.get? id' = some rate' →
    rate.ratePlanId = rate'.ratePlanId → rate.ratePrefix = rate'.ratePrefix → id = id'

/-- No rate of the plan but the one with this id has the prefix. -/
def Free (s : RateTable) (id planId : Nat) (p : String) : Prop :=
  ∀ id' rate', s.rows.get? id' = some rate' → rate'.ratePlanId = planId → rate'.ratePrefix = p →
    id' = id

/-- A row is written under an id, which may be new. -/
def Writes (s s' : RateTable) (id : Nat) (rate : Rate) : Prop :=
  ∀ id', s'.rows.get? id' = if id' = id then some rate else s.rows.get? id'

theorem writes_insert (s : RateTable) (rate : Rate) : s.Writes (s.insert rate) s.nextId rate :=
  fun _ => OrdMap.get?_set _ _ _ _

theorem writes_save {old : Rate} (h : s.rows.get? id = some old) (rate : Rate) :
    s.Writes (s.save id rate) id rate := by
  intro id'
  show (s.rows.modify id fun _ => rate).get? id' = _
  rw [OrdMap.get?_modify]
  split
  · rename_i heq
    rw [heq, h]
    rfl
  · rfl

/-- A valid table stays valid when the row is valid and its prefix free. -/
theorem Writes.valid (hw : s.Writes s' id rate) (h : s.Valid) (hrate : ValidRate rate)
    (hfree : s.Free id rate.ratePlanId rate.ratePrefix) : s'.Valid where
  rates := by
    intro id' r hr
    rw [hw id'] at hr
    split at hr
    · obtain rfl := Option.some.inj hr
      exact hrate
    · exact h.rates id' r hr
  distinct := by
    intro i j r r' hr hr' hplan hcode
    rw [hw i] at hr
    rw [hw j] at hr'
    split at hr
    · rename_i hi
      obtain rfl := Option.some.inj hr
      split at hr'
      · rename_i hj
        rw [hi, hj]
      · rw [hi]
        exact (hfree j r' hr' hplan.symm hcode.symm).symm
    · split at hr'
      · rename_i hj
        obtain rfl := Option.some.inj hr'
        rw [hj]
        exact hfree i r hr hplan hcode
      · exact h.distinct i j r r' hr hr' hplan hcode

/-- And only then. -/
theorem Writes.of_valid (hw : s.Writes s' id rate) (h : s'.Valid) :
    ValidRate rate ∧ s.Free id rate.ratePlanId rate.ratePrefix := by
  have hself : s'.rows.get? id = some rate := (hw id).trans (if_pos rfl)
  refine ⟨h.rates id rate hself, fun id' rate' hget hplan hcode => ?_⟩
  by_cases heq : id' = id
  · exact heq
  · have hother : s'.rows.get? id' = some rate' := by rw [hw id', if_neg heq, hget]
    exact h.distinct id' id rate' rate hother hself hplan hcode

/-! ## One call -/

theorem applyRateInput_increment (h : 0 < rate.incrementSecs) :
    0 < (applyRateInput rate input).incrementSecs := by
  unfold applyRateInput
  dsimp only
  split
  · split
    · assumption
    · exact h
  · exact h

theorem applyRateInput_plan (rate : Rate) (input : RateInput) :
    (applyRateInput rate input).ratePlanId = rate.ratePlanId := rfl

/-- The prefix that is given is the one that is written. -/
theorem applyRateInput_given {p : String} (h : input.given = some p) (rate : Rate) :
    (applyRateInput rate input).ratePrefix = normalizePrefix p := by
  show (input.given.map normalizePrefix).getD rate.ratePrefix = _
  rw [h]
  rfl

theorem applyRateInput_not_given (h : input.given = none) (rate : Rate) :
    (applyRateInput rate input).ratePrefix = rate.ratePrefix := by
  show (input.given.map normalizePrefix).getD rate.ratePrefix = _
  rw [h]
  rfl

/-- What `CreateRate` does: nothing, or one row with the normalized prefix. -/
theorem createRate_cases (s : RateTable) (planId : Nat) (input : RateInput) (read saved : Bool) :
    (s.createRate planId input read saved).1 = s ∨
      ∃ p rate, input.given = some p ∧ read = true ∧ saved = true ∧ planId ∈ s.plans ∧
        (s.createRate planId input read saved).1 = s.insert rate ∧ rate.ratePlanId = planId ∧
        rate.ratePrefix = normalizePrefix p ∧ 0 < rate.incrementSecs := by
  unfold createRate
  cases hgiven : input.given with
  | none => exact .inl rfl
  | some p =>
    cases read with
    | false => exact .inl rfl
    | true =>
      simp only [Bool.not_true, Bool.false_eq_true, if_false]
      by_cases hplan : planId ∈ s.plans
      · rw [if_neg (not_not_intro hplan)]
        cases saved with
        | false => exact .inl rfl
        | true =>
          have hsixty : (0 : Int) < 60 := by decide
          exact .inr ⟨p, _, rfl, trivial, rfl, hplan, rfl, rfl, applyRateInput_given hgiven _,
            applyRateInput_increment hsixty⟩
      · rw [if_pos hplan]
        exact .inl rfl

/-- What `UpdateRate` does: nothing, or one row with the fields of the input. -/
theorem updateRate_cases (s : RateTable) (id : Nat) (input : RateInput) (read saved : Bool) :
    (s.updateRate id input read saved).1 = s ∨
      ∃ rate, s.rows.get? id = some rate ∧ read = true ∧ saved = true ∧
        (s.updateRate id input read saved).1 = s.save id (applyRateInput rate input) := by
  unfold updateRate
  cases read with
  | false => exact .inl rfl
  | true =>
    simp only [Bool.not_true, Bool.false_eq_true, if_false]
    cases hget : s.rows.get? id with
    | none => exact .inl rfl
    | some rate =>
      cases saved with
      | false => exact .inl rfl
      | true => exact .inr ⟨rate, rfl, trivial, rfl, rfl⟩

/-! ## Imports -/

theorem findRate_some {p : String} {found : Nat × Rate} (h : s.findRate planId p = some found) :
    s.rows.get? found.1 = some found.2 ∧ found.2.ratePlanId = planId ∧
      found.2.ratePrefix = p := by
  have hmem := List.mem_of_find?_eq_some h
  have hfound := List.find?_some h
  simp only [decide_eq_true_eq] at hfound
  exact ⟨OrdMap.mem_entries_iff.mp hmem, hfound⟩

theorem findRate_none {p : String} (h : s.findRate planId p = none) :
    ∀ id rate, s.rows.get? id = some rate → rate.ratePlanId = planId → rate.ratePrefix ≠ p := by
  intro id rate hget hplan hcode
  have hno := List.find?_eq_none.mp h (id, rate) (OrdMap.mem_entries_iff.mpr hget)
  exact hno (decide_eq_true ⟨hplan, hcode⟩)

/-- A rate of a sheet takes the place of the one with its prefix. -/
theorem valid_upsertRate (planId : Nat) {acc : RateTable × Nat × Nat} {incoming : Rate}
    (h : acc.1.Valid) (hrate : ValidRate incoming) : (upsertRate planId acc incoming).1.Valid := by
  unfold upsertRate
  cases hfind : acc.1.findRate planId incoming.ratePrefix with
  | none =>
    refine (writes_insert acc.1 _).valid h ⟨hrate.isPrefix, hrate.increment⟩ ?_
    intro id' rate' hget hplan hcode
    exact absurd hcode (findRate_none hfind id' rate' hget hplan)
  | some found =>
    obtain ⟨hget, hplan, hcode⟩ := findRate_some hfind
    have hold := h.rates found.1 found.2 hget
    refine (writes_save hget _).valid h ⟨hold.isPrefix, hrate.increment⟩ ?_
    intro id' rate' hget' hplan' hcode'
    exact h.distinct id' found.1 rate' found.2 hget' hget hplan' hcode'

theorem valid_foldl_upsertRate (planId : Nat) {rates : List Rate} (acc : RateTable × Nat × Nat)
    (h : acc.1.Valid) (hrates : ∀ rate ∈ rates, ValidRate rate) :
    (rates.foldl (upsertRate planId) acc).1.Valid := by
  induction rates generalizing acc with
  | nil => exact h
  | cons rate rates ih =>
    have hfirst := valid_upsertRate planId h (hrates rate List.mem_cons_self)
    exact ih _ hfirst fun r hr => hrates r (List.mem_cons_of_mem _ hr)

theorem validRate_sheetRate {row : List String} {cell : String}
    (h : normalizePrefix cell ≠ "") : ValidRate (sheetRate sheets planId row cell) where
  isPrefix := isPrefix_normalizePrefix h
  increment := by
    show 0 < if 0 < parseCSVInt row 5 then parseCSVInt row 5 else 60
    split
    · assumption
    · decide

/-- A row adds a valid rate or none. -/
theorem readRow_valid {acc : RateImportResult × List Rate} (line : List String × Nat)
    (h : ∀ rate ∈ acc.2, ValidRate rate) :
    ∀ rate ∈ (readRow sheets planId acc line).2, ValidRate rate := by
  obtain ⟨row, i⟩ := line
  cases row with
  | nil => exact h
  | cons cell rest =>
    unfold readRow
    dsimp only
    split
    · exact h
    · split
      · split
        · exact h
        · exact h
      · rename_i hdigits
        intro rate hmem
        rcases List.mem_append.mp hmem with hmem | hmem
        · exact h rate hmem
        · rw [List.mem_singleton.mp hmem]
          exact validRate_sheetRate hdigits

theorem foldl_readRow_valid (sheets : SheetReader) (planId : Nat)
    (lines : List (List String × Nat)) {acc : RateImportResult × List Rate}
    (h : ∀ rate ∈ acc.2, ValidRate rate) :
    ∀ rate ∈ (lines.foldl (readRow sheets planId) acc).2, ValidRate rate := by
  induction lines generalizing acc with
  | nil => exact h
  | cons line lines ih => exact ih (readRow_valid line h)

/-- A rejected import changes nothing; one that goes through upserts valid rates. -/
theorem importRates_cases (sheets : SheetReader) (s : RateTable) (planId : Nat) (csvData : String)
    (read : Bool) (fails : Nat → Bool) :
    (s.importRates sheets planId csvData read fails).1 = s ∨
      ∃ (rates : List Rate) (result : RateImportResult), (∀ rate ∈ rates, ValidRate rate) ∧
        (s.importRates sheets planId csvData read fails).2 = .ok result ∧
        (s.importRates sheets planId csvData read fails).1 =
          (rates.foldl (upsertRate planId) (s, 0, 0)).1 := by
  unfold importRates
  cases read with
  | false => exact .inl rfl
  | true =>
    simp only [Bool.not_true, Bool.false_eq_true, if_false]
    by_cases hplan : planId ∈ s.plans
    · rw [if_neg (not_not_intro hplan)]
      cases sheets.readAll csvData with
      | none => exact .inl rfl
      | some records =>
        have hnone : ∀ rate ∈ ((⟨0, 0, 0, []⟩, []) : RateImportResult × List Rate).2,
            ValidRate rate := fun rate hrate => nomatch hrate
        have hvalid := foldl_readRow_valid sheets planId records.zipIdx hnone
        dsimp only
        split
        · exact .inl rfl
        · unfold upsertRates
          split
          · rename_i heq
            exact .inl rfl
          · rename_i heq
            split at heq
            · cases heq
            · obtain ⟨rfl, _⟩ := Prod.mk.inj (Option.some.inj heq)
              exact .inr ⟨_, _, hvalid, rfl, rfl⟩
    · rw [if_pos hplan]
      exact .inl rfl

/-! ## Runs -/

/-- The checks that `CreateRate` and `UpdateRate` leave out: a call that writes a prefix writes one
    with a digit, and no other rate of the plan has it. -/
def Respects (s : RateTable) : RateCall → Prop
  | .createRate planId input read saved => ∀ p, input.given = some p → read = true → saved = true →
      planId ∈ s.plans → normalizePrefix p ≠ "" ∧ ∀ id rate, s.rows.get? id = some rate →
        rate.ratePlanId = planId → rate.ratePrefix ≠ normalizePrefix p
  | .updateRate id input read saved => ∀ p rate, input.given = some p →
      s.rows.get? id = some rate → read = true → saved = true →
        normalizePrefix p ≠ "" ∧ s.Free id rate.ratePlanId (normalizePrefix p)
  | .importRates .. => True

theorem valid_step_keep {call : RateCall} (h : s.Valid) (hrespects : s.Respects call)
    (hstep : s.step sheets call = some s') : s'.Valid := by
  rw [← Option.some.inj hstep]
  cases call with
  | createRate planId input read saved =>
    dsimp only [after]
    rcases createRate_cases s planId input read saved with heq | hinsert
    · rw [heq]
      exact h
    · obtain ⟨p, rate, hgiven, hread, hsaved, hplan, heq, rfl, hcode, hinc⟩ := hinsert
      obtain ⟨hdigits, hfree⟩ := hrespects p hgiven hread hsaved hplan
      rw [heq]
      refine (writes_insert s rate).valid h ⟨?_, hinc⟩ ?_
      · rw [hcode]
        exact isPrefix_normalizePrefix hdigits
      · intro id' rate' hget hplan' hcode'
        exact absurd (hcode'.trans hcode) (hfree id' rate' hget hplan')
  | updateRate id input read saved =>
    dsimp only [after]
    rcases updateRate_cases s id input read saved with heq | hsave
    · rw [heq]
      exact h
    · obtain ⟨rate, hget, hread, hsaved, heq⟩ := hsave
      have hold := h.rates id rate hget
      rw [heq]
      refine (writes_save hget _).valid h ⟨?_, applyRateInput_increment hold.increment⟩ ?_
      · cases hgiven : input.given with
        | none =>
          rw [applyRateInput_not_given hgiven]
          exact hold.isPrefix
        | some p =>
          rw [applyRateInput_given hgiven]
          exact isPrefix_normalizePrefix (hrespects p rate hgiven hget hread hsaved).1
      · rw [applyRateInput_plan]
        cases hgiven : input.given with
        | none =>
          -- the row keeps its prefix, which is free of the others already
          rw [applyRateInput_not_given hgiven]
          intro id' rate' hget' hplan' hcode'
          exact h.distinct id' id rate' rate hget' hget hplan' hcode'
        | some p =>
          rw [applyRateInput_given hgiven]
          exact (hrespects p rate hgiven hget hread hsaved).2
  | importRates planId csvData read fails =>
    dsimp only [after]
    rcases importRates_cases sheets s planId csvData read fails with heq | hupsert
    · rw [heq]
      exact h
    · obtain ⟨rates, result, hrates, _, heq⟩ := hupsert
      rw [heq]
      exact valid_foldl_upsertRate planId (s, 0, 0) h hrates

theorem valid_step_need {call : RateCall} (hstep : s.step sheets call = some s')
    (h : s'.Valid) : s.Respects call := by
  rw [← Option.some.inj hstep] at h
  cases call with
  | createRate planId input read saved =>
    intro p hgiven hread hsaved hplan
    have hinsert : ∃ rate, (s.createRate planId input read saved).1 = s.insert rate ∧
        rate.ratePlanId = planId ∧ rate.ratePrefix = normalizePrefix p := by
      unfold createRate
      rw [hgiven, hread, hsaved]
      simp only [Bool.not_true, Bool.false_eq_true, if_false, if_true, not_true_eq_false, hplan]
      exact ⟨_, rfl, rfl, applyRateInput_given hgiven _⟩
    obtain ⟨rate, heq, rfl, hcode⟩ := hinsert
    have hvalid : (s.insert rate).Valid := heq ▸ h
    obtain ⟨hrate, hfree⟩ := (writes_insert s rate).of_valid hvalid
    rw [← hcode]
    refine ⟨hrate.isPrefix.1, fun id rate' hget hplan' hcode' => ?_⟩
    -- the new row would be the one that has the prefix, and its id is new
    have hid := hfree id rate' hget hplan' hcode'
    exact Nat.lt_irrefl _ (hid ▸ s.fresh id rate' hget)
  | updateRate id input read saved =>
    intro p rate hgiven hget hread hsaved
    have hsave : (s.updateRate id input read saved).1 = s.save id (applyRateInput rate input) := by
      unfold updateRate
      rw [hread, hsaved, hget]
      rfl
    have hvalid : (s.save id (applyRateInput rate input)).Valid := hsave ▸ h
    obtain ⟨hrate, hfree⟩ := (writes_save hget _).of_valid hvalid
    rw [applyRateInput_plan, applyRateInput_given hgiven] at hfree
    have hcode := hrate.isPrefix.1
    rw [applyRateInput_given hgiven] at hcode
    exact ⟨hcode, hfree⟩
  | importRates planId csvData read fails => trivial

/-- A valid table stays valid through a run exactly as long as every prefix that is written has a
    digit and is not taken; and a rejected import never changes a rate. -/
theorem valid_throughout_iff (sheets : SheetReader) (hs : s.Valid) (calls : List RateCall) :
    (Throughout (step sheets) Valid s calls ↔ Meets (step sheets) Respects s calls) ∧
      ∀ (t : RateTable) planId csvData read fails error,
        (t.importRates sheets planId csvData read fails).2 = .error error →
          (t.importRates sheets planId csvData read fails).1.rows = t.rows := by
  constructor
  · exact Machine.throughout_iff_meets (P := fun _ _ => True) (fun _ h => h)
      (fun _ _ _ h _ hG hstep => valid_step_keep h hG hstep)
      (fun _ _ _ _ _ hstep h => valid_step_need hstep h)
      (fun _ _ hnone => nomatch hnone) hs (Machine.meets_of_mem fun _ _ => trivial)
  · intro t planId csvData read fails error herror
    rcases importRates_cases sheets t planId csvData read fails with heq | hupsert
    · rw [heq]
    · obtain ⟨rates, result, _, hok, _⟩ := hupsert
      rw [herror] at hok
      cases hok

/-! ## A prefix without digits -/

/-- A plan without rates. -/
def onePlan : RateTable where
  plans := [1]
  rows := .empty
  nextId := 1
  fresh := fun _ _ h => nomatch h

theorem valid_onePlan : onePlan.Valid where
  rates := fun _ _ h => nomatch h
  distinct := fun _ _ _ _ h => nomatch h

/-- A reader of sheets of one line, the cells between commas. -/
def oneLine : SheetReader where
  readAll := fun csvData => some [csvData.splitOn ","]
  parseFloat := fun _ => none

/-- A rate for `91` and an update of its price. -/
def priceCalls : List RateCall :=
  [.createRate 1 { ratePrefix := some "+91" } true true,
    .updateRate 1 { sellPerMin := some 6 } true true]

theorem valid_throughout_iff_prices : Throughout (step oneLine) Valid onePlan priceCalls := by
  refine (valid_throughout_iff oneLine valid_onePlan priceCalls).1.mpr ⟨?_, ?_, trivial⟩
  · intro p hgiven _ _ _
    have hp : some p = some "+91" := hgiven.symm.trans (by decide +kernel)
    rw [Option.some.inj hp]
    exact ⟨by decide +kernel, fun _ _ h => nomatch h⟩
  · intro p rate hgiven
    cases hgiven

/-- The prefix of an input is looked at before it is normalized: "abc" is stored as the empty
    prefix. -/
theorem not_valid_letters :
    ¬ Throughout (step oneLine) Valid onePlan
      [.createRate 1 { ratePrefix := some "abc" } true true] := by
  intro h
  have hstored : ((onePlan.createRate 1 { ratePrefix := some "abc" } true true).1.rows.get? 1).map
      Rate.ratePrefix = some "" := by decide +kernel
  obtain ⟨rate, hget, hempty⟩ := Option.map_eq_some_iff.mp hstored
  have hvalid : (onePlan.createRate 1 { ratePrefix := some "abc" } true true).1.Valid := h.2
  exact (hvalid.rates 1 rate hget).isPrefix.1 hempty

end RateTable

end CallNet.Api
