import Mathlib.Tactic.Linarith
import CallNet.ForStd.Rounding
import CallNet.Spec.RateSelection

/-!
# The price of a call and its estimate

`rate` and `estimateMinCharge` look up the same rate and round the same way, the estimate for
a call of one second.  Increments are whole numbers of seconds, so no call is billed less than
that one.
-/

namespace CallNet

/-! ## Billed seconds -/

/-- A row the estimate is meant for: prices are not negative, and the increment is a positive
    whole number of seconds. -/
structure RateRow.Sound (m : RateRow) : Prop where
  sell : 0 ≤ m.sellPerMin
  setup : 0 ≤ m.setupFee
  increment : ∃ n : Int, 0 < n ∧ m.incrementSecs = n

namespace RateRow.Sound

variable {m : RateRow} (h : m.Sound)
include h

theorem increment_pos : 0 < m.incrementSecs := by
  obtain ⟨n, hn, heq⟩ := h.increment
  rw [heq]
  exact_mod_cast hn

theorem one_le_increment : 1 ≤ m.incrementSecs := by
  obtain ⟨n, hn, heq⟩ := h.increment
  rw [heq]
  exact_mod_cast hn

theorem billableSeconds_eq (secs : Rat) :
    billableSeconds secs m.incrementSecs m.minSecs =
      max (Rat.ceilTo m.incrementSecs secs) (if 0 < m.minSecs then m.minSecs else 0) := by
  unfold billableSeconds
  simp only [if_pos h.increment_pos]
  rfl

theorem le_billableSeconds (secs : Rat) :
    secs ≤ billableSeconds secs m.incrementSecs m.minSecs := by
  rw [h.billableSeconds_eq]
  exact (Rat.le_ceilTo h.increment_pos secs).trans (le_max_left _ _)

theorem minSecs_le_billableSeconds (secs : Rat) :
    m.minSecs ≤ billableSeconds secs m.incrementSecs m.minSecs := by
  rw [h.billableSeconds_eq]
  refine le_trans ?_ (le_max_right _ _)
  split
  · exact le_rfl
  · exact not_lt.mp ‹_›

/-- Unless the minimum decides, the billed time is a multiple of the increment. -/
theorem billableSeconds_multiple {secs : Rat} (hsecs : 0 < secs) :
    billableSeconds secs m.incrementSecs m.minSecs = m.minSecs ∨
      ∃ k : Int, billableSeconds secs m.incrementSecs m.minSecs = k * m.incrementSecs := by
  rw [h.billableSeconds_eq]
  have hpos : 0 < Rat.ceilTo m.incrementSecs secs :=
    hsecs.trans_le (Rat.le_ceilTo h.increment_pos secs)
  by_cases hmin : 0 < m.minSecs
  · rw [if_pos hmin]
    rcases le_total (Rat.ceilTo m.incrementSecs secs) m.minSecs with hle | hle
    · exact .inl (max_eq_right hle)
    · exact .inr ⟨_, max_eq_left hle⟩
  · rw [if_neg hmin]
    exact .inr ⟨_, max_eq_left hpos.le⟩

theorem billableSeconds_mono {secs secs' : Rat} (hle : secs ≤ secs') :
    billableSeconds secs m.incrementSecs m.minSecs ≤
      billableSeconds secs' m.incrementSecs m.minSecs := by
  rw [h.billableSeconds_eq, h.billableSeconds_eq]
  exact max_le_max (Rat.ceilTo_mono h.increment_pos hle) le_rfl

/-- Nothing is billed shorter than one second: both last an increment at least. -/
theorem billableSeconds_one_le {secs : Rat} (hsecs : 0 < secs) :
    billableSeconds 1 m.incrementSecs m.minSecs ≤
      billableSeconds secs m.incrementSecs m.minSecs := by
  rw [h.billableSeconds_eq, h.billableSeconds_eq]
  refine max_le_max ?_ le_rfl
  rw [Rat.ceilTo_of_le h.increment_pos one_pos h.one_le_increment]
  exact Rat.step_le_ceilTo h.increment_pos hsecs

end RateRow.Sound

/-! ## The charge -/

theorem mathRound_mono {a b : Rat} (hab : a ≤ b) : mathRound a ≤ mathRound b :=
  Rat.floor_monotone (by linarith)

theorem round5_mono {a b : Rat} (hab : a ≤ b) : round5 a ≤ round5 b := by
  have hscaled : a * 100000 ≤ b * 100000 := mul_le_mul_of_nonneg_right hab (by norm_num)
  have hround : (mathRound (a * 100000) : Rat) ≤ mathRound (b * 100000) :=
    Int.cast_le.mpr (mathRound_mono hscaled)
  exact div_le_div_of_nonneg_right hround (by norm_num)

/-- A rate charges no less for more billed time. -/
theorem RateRow.Sound.charge_mono {m : RateRow} (h : m.Sound) {secs secs' : Rat}
    (hle : billableSeconds secs m.incrementSecs m.minSecs ≤
      billableSeconds secs' m.incrementSecs m.minSecs) :
    m.charge secs ≤ m.charge secs' := by
  unfold RateRow.charge
  apply round5_mono
  have htalk := mul_le_mul_of_nonneg_left hle h.sell
  linarith

/-! ## Rate books -/

/-- A record whose prices are not negative and whose increment, if it has one, is positive. -/
structure RateRecord.Sound (r : RateRecord) : Prop where
  sell : 0 ≤ r.sellPerMin.getD 0
  setup : 0 ≤ r.setupFee.getD 0
  increment : 0 < r.incrementSecs.getD 60

theorem numberOr_zero (value : Option Rat) : numberOr value 0 = value.getD 0 := by
  cases value with
  | none => rfl
  | some v =>
    show (if v = 0 then 0 else v) = v
    split
    · exact ‹v = 0›.symm
    · rfl

theorem RateRecord.Sound.toRow {r : RateRecord} (h : r.Sound) : r.toRow.Sound where
  sell := by
    show 0 ≤ numberOr r.sellPerMin 0
    rw [numberOr_zero]
    exact h.sell
  setup := by
    show 0 ≤ numberOr r.setupFee 0
    rw [numberOr_zero]
    exact h.setup
  increment := by
    refine ⟨r.incrementSecs.getD 60, h.increment, ?_⟩
    show numberOr (r.incrementSecs.map Int.cast) 60 = _
    cases hinc : r.incrementSecs with
    | none => rfl
    | some n =>
      have hpos := h.increment
      rw [hinc] at hpos
      have hne : (n : Rat) ≠ 0 := by exact_mod_cast hpos.ne'
      exact if_neg hne

/-- The price and the estimate of a number go together, for every talk time. -/
structure EstimateAgrees (book : RatingService) (dialed : String) (planId : Option Int) : Prop where
  null : ∀ secs, 0 < secs →
    (book.rate dialed secs planId = none ↔ book.estimateMinCharge dialed planId = none)
  same : ∀ secs result estimate, 0 < secs → book.rate dialed secs planId = some result →
    book.estimateMinCharge dialed planId = some estimate →
      ∃ plan rate, book.select dialed planId = some (plan, rate) ∧
        result = rate.bill plan.currency secs ∧ estimate = (rate.charge 1, plan.currency)
  below : ∀ secs result estimate, 0 < secs → book.rate dialed secs planId = some result →
    book.estimateMinCharge dialed planId = some estimate → estimate.1 ≤ result.cost
  monotone : ∀ secs secs' result result', 0 < secs → secs ≤ secs' →
    book.rate dialed secs planId = some result → book.rate dialed secs' planId = some result' →
      result.cost ≤ result'.cost
  billed : ∀ secs result, 0 < secs → book.rate dialed secs planId = some result →
    ∃ plan rate, book.select dialed planId = some (plan, rate) ∧
      secs ≤ result.billedSecs ∧ rate.minSecs ≤ result.billedSecs ∧
      (result.billedSecs = rate.minSecs ∨ ∃ k : Int, result.billedSecs = k * rate.incrementSecs)

/-- The rate that prices a number is one of the loaded rows. -/
theorem select_sound {t : RateTables} (hsound : ∀ r ∈ t.rates, r.Sound) {dialed : String}
    {planId : Option Int} {plan : RatePlanRow} {rate : RateRow}
    (h : (RatingService.reload t).select dialed planId = some (plan, rate)) : rate.Sound := by
  obtain ⟨plan', hplan, hmatch⟩ := Option.bind_eq_some_iff.mp h
  obtain ⟨rate', hrate, heq⟩ := Option.map_eq_some_iff.mp hmatch
  obtain ⟨rfl, rfl⟩ := Prod.mk.inj heq
  obtain ⟨record, _, rfl⟩ := resolvePlan_reload.mp hplan
  have hmem := (sortedRatesOf_perm t record.id).mem_iff.mp (longestPrefixMatch_mem hrate)
  obtain ⟨row, hrow, rfl⟩ := List.mem_map.mp hmem
  exact (hsound row (List.mem_of_mem_filter hrow)).toRow

/-- In a loaded book without negative prices and with positive increments the estimate and the
    price of every number agree. -/
theorem loaded_estimateAgrees (t : RateTables) (hsound : ∀ r ∈ t.rates, r.Sound)
    (dialed : String) (planId : Option Int) :
    EstimateAgrees (RatingService.reload t) dialed planId := by
  have hrate := fun secs (hsecs : 0 < secs) =>
    rate_eq_select (RatingService.reload t) dialed planId hsecs
  have hestimate := estimateMinCharge_eq_select (RatingService.reload t) dialed planId
  cases hselect : (RatingService.reload t).select dialed planId with
  | none =>
    -- no plan or no rate: nothing is priced and nothing estimated
    rw [hselect] at hestimate
    simp only [hselect] at hrate
    refine ⟨fun secs hsecs => ?_, fun secs result _ hsecs h => ?_, fun secs result _ hsecs h => ?_,
      fun secs _ result _ hsecs _ h => ?_, fun secs result hsecs h => ?_⟩
    · rw [hrate secs hsecs, hestimate]
      simp only [Option.map_none]
    all_goals
      rw [hrate secs hsecs] at h
      cases h
  | some selected =>
    obtain ⟨plan, rate⟩ := selected
    have hrow := select_sound hsound hselect
    rw [hselect] at hestimate
    simp only [hselect, Option.map_some] at hrate hestimate
    refine ⟨fun secs hsecs => ?_, fun secs result estimate hsecs h h' => ?_,
      fun secs result estimate hsecs h h' => ?_, fun secs secs' result result' hsecs hle h h' => ?_,
      fun secs result hsecs h => ?_⟩
    · rw [hrate secs hsecs, hestimate]
      simp only [reduceCtorEq]
    · rw [hrate secs hsecs] at h
      rw [hestimate] at h'
      exact ⟨plan, rate, hselect, (Option.some.inj h).symm, (Option.some.inj h').symm⟩
    · rw [hrate secs hsecs] at h
      rw [hestimate] at h'
      rw [← Option.some.inj h, ← Option.some.inj h']
      exact hrow.charge_mono (hrow.billableSeconds_one_le hsecs)
    · rw [hrate secs hsecs] at h
      rw [hrate secs' (hsecs.trans_le hle)] at h'
      rw [← Option.some.inj h, ← Option.some.inj h']
      exact hrow.charge_mono (hrow.billableSeconds_mono hle)
    · rw [hrate secs hsecs] at h
      rw [← Option.some.inj h]
      exact ⟨plan, rate, hselect, hrow.le_billableSeconds secs,
        hrow.minSecs_le_billableSeconds secs, hrow.billableSeconds_multiple hsecs⟩

/-- The book of two plans is one. -/
theorem loaded_estimateAgrees_twoPlans :
    (∀ r ∈ twoPlanTables.rates, r.Sound) ∧
      EstimateAgrees (RatingService.reload twoPlanTables) "+918012345678" (some 1) := by
  have hsound : ∀ r ∈ twoPlanTables.rates, r.Sound := by
    intro r hr
    have hbounds : ∀ r ∈ twoPlanTables.rates, 0 ≤ r.sellPerMin.getD 0 ∧ 0 ≤ r.setupFee.getD 0 ∧
        0 < r.incrementSecs.getD 60 := by decide +kernel
    exact ⟨(hbounds r hr).1, (hbounds r hr).2.1, (hbounds r hr).2.2⟩
  exact ⟨hsound, loaded_estimateAgrees twoPlanTables hsound _ _⟩

end CallNet
