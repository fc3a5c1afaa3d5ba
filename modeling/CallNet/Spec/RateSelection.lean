import Mathlib.Data.List.Nodup
import Mathlib.Data.List.Sort
import CallNet.Engine.RateBook
import CallNet.Spec.RateOverrides

/-!
# Which rate prices a call

The rate book names a plan for every caller, the assigned one where it exists and else the
default one, and in that plan the longest prefix of the number's digits.  Distinct prefixes
leave one such rate, so the order in which the tables hand out their rows does not matter.
-/

namespace CallNet

/-! ## The rate of a plan -/

/-- Of the rates of a plan at most one is a longest match. -/
theorem LongestMatch.unique {rates : List RateRow} {digits : List Char} {r r' : RateRow}
    (hdistinct : (rates.map RateRow.ratePrefix).Nodup) (h : LongestMatch rates digits r)
    (h' : LongestMatch rates digits r') : r = r' := by
  have hle := h'.longest r h.mem h.starts
  have hge := h.longest r' h'.mem h'.starts
  have hlength : r.ratePrefix.length = r'.ratePrefix.length := Nat.le_antisymm hle hge
  have hstarts : r.ratePrefix.toList <+: digits := List.isPrefixOf_iff_prefix.mp h.starts.2
  have hstarts' : r'.ratePrefix.toList <+: digits := List.isPrefixOf_iff_prefix.mp h'.starts.2
  -- two prefixes of one length of the same digits
  have hchars : r.ratePrefix.toList = r'.ratePrefix.toList := by
    have hprefix := List.prefix_of_prefix_length_le hstarts hstarts'
      (by rw [String.length_toList, String.length_toList]; exact hle)
    exact hprefix.eq_of_length (by rw [String.length_toList, String.length_toList]; exact hlength)
  exact List.inj_on_of_nodup_map hdistinct h.mem h'.mem (String.toList_inj.mp hchars)

theorem LongestMatch.perm {rates rates' : List RateRow} {digits : List Char} {r : RateRow}
    (hperm : rates.Perm rates') (h : LongestMatch rates digits r) :
    LongestMatch rates' digits r where
  mem := hperm.mem_iff.mp h.mem
  starts := h.starts
  longest := fun q hq => h.longest q (hperm.mem_iff.mpr hq)

/-- With distinct prefixes the search finds the longest match. -/
theorem longestPrefixMatch_eq_some_iff {rates : List RateRow} {digits : List Char} {r : RateRow}
    (hdistinct : (rates.map RateRow.ratePrefix).Nodup) :
    longestPrefixMatch rates digits = some r ↔ LongestMatch rates digits r := by
  constructor
  · exact longestMatch_of_eq_some
  · intro h
    obtain ⟨best, hbest⟩ := Option.isSome_iff_exists.mp
      (longestPrefixMatch_isSome h.mem h.starts.1 h.starts.2)
    rw [hbest, (longestMatch_of_eq_some hbest).unique hdistinct h]

/-- The order of the rates does not matter. -/
theorem longestPrefixMatch_perm {rates rates' : List RateRow} (digits : List Char)
    (hperm : rates.Perm rates') (hdistinct : (rates.map RateRow.ratePrefix).Nodup) :
    longestPrefixMatch rates digits = longestPrefixMatch rates' digits := by
  have hdistinct' : (rates'.map RateRow.ratePrefix).Nodup := (hperm.map _).nodup_iff.mp hdistinct
  apply Option.ext
  intro r
  rw [longestPrefixMatch_eq_some_iff hdistinct, longestPrefixMatch_eq_some_iff hdistinct']
  exact ⟨LongestMatch.perm hperm, LongestMatch.perm hperm.symm⟩

/-! ## The plan of a caller -/

/-- The default plan: of the flagged plans the one with the smallest id, and the plan with the
    smallest id where none is flagged. -/
def RateTables.IsDefault (t : RateTables) (plan : RatePlanRecord) : Prop :=
  plan ∈ t.ratePlans ∧
    ((plan.isDefault.getD false = true ∧
        ∀ q ∈ t.ratePlans, q.isDefault.getD false = true → plan.id ≤ q.id) ∨
      ((∀ q ∈ t.ratePlans, q.isDefault.getD false = false) ∧
        ∀ q ∈ t.ratePlans, plan.id ≤ q.id))

/-- The plan that prices the calls of a caller: the assigned one if it exists, and else the
    default one. -/
def RateTables.Effective (t : RateTables) (planId : Option Int) (plan : RatePlanRecord) : Prop :=
  t.present = true ∧
    ((plan ∈ t.ratePlans ∧ planId = some plan.id) ∨
      ((∀ q ∈ t.ratePlans, planId ≠ some q.id) ∧ t.IsDefault plan))

section Plans

variable {t t' : RateTables} {planId : Option Int} {plan plan' : RatePlanRecord}

theorem eq_of_id_eq (hplan : plan ∈ t.ratePlans) (hplan' : plan' ∈ t.ratePlans)
    (hid : plan.id = plan'.id) : plan = plan' :=
  List.inj_on_of_nodup_map t.planKeys hplan hplan' hid

theorem RateTables.IsDefault.unique (h : t.IsDefault plan) (h' : t.IsDefault plan') :
    plan = plan' := by
  obtain ⟨hmem, hflag⟩ := h
  obtain ⟨hmem', hflag'⟩ := h'
  have hle : plan.id ≤ plan'.id := by
    rcases hflag with ⟨hset, hleast⟩ | ⟨hunset, hleast⟩
    · rcases hflag' with ⟨hset', _⟩ | ⟨hunset', _⟩
      · exact hleast plan' hmem' hset'
      · rw [hunset' plan hmem] at hset
        cases hset
    · exact hleast plan' hmem'
  have hge : plan'.id ≤ plan.id := by
    rcases hflag' with ⟨hset', hleast'⟩ | ⟨hunset', hleast'⟩
    · rcases hflag with ⟨hset, _⟩ | ⟨hunset, _⟩
      · exact hleast' plan hmem hset
      · rw [hunset plan' hmem'] at hset'
        cases hset'
    · exact hleast' plan hmem
  exact eq_of_id_eq hmem hmem' (Int.le_antisymm hle hge)

theorem RateTables.Effective.mem (h : t.Effective planId plan) : plan ∈ t.ratePlans := by
  rcases h.2 with ⟨hmem, _⟩ | ⟨_, hdefault⟩
  · exact hmem
  · exact hdefault.1

theorem RateTables.Effective.unique (h : t.Effective planId plan)
    (h' : t.Effective planId plan') : plan = plan' := by
  rcases h.2 with ⟨hmem, hassigned⟩ | ⟨hnone, hdefault⟩
  · rcases h'.2 with ⟨hmem', hassigned'⟩ | ⟨hnone', _⟩
    · have hid : some plan.id = some plan'.id := hassigned.symm.trans hassigned'
      exact eq_of_id_eq hmem hmem' (Option.some.inj hid)
    · exact absurd hassigned (hnone' plan hmem)
  · rcases h'.2 with ⟨hmem', hassigned'⟩ | ⟨_, hdefault'⟩
    · exact absurd hassigned' (hnone plan' hmem')
    · exact hdefault.unique hdefault'

/-! ### The loaded plans -/

/-- The plans in the order of their ids. -/
def RateTables.sortedPlans (t : RateTables) : List RatePlanRecord :=
  t.ratePlans.mergeSort fun a b => a.id ≤ b.id

theorem mem_sortedPlans : plan ∈ t.sortedPlans ↔ plan ∈ t.ratePlans :=
  List.mem_mergeSort

theorem pairwise_sortedPlans (t : RateTables) :
    t.sortedPlans.Pairwise fun a b => a.id ≤ b.id := by
  have hsorted : t.sortedPlans.Pairwise fun a b => decide (a.id ≤ b.id) = true := by
    apply List.pairwise_mergeSort
    · intro a b c hab hbc
      simp only [decide_eq_true_eq] at hab hbc ⊢
      exact Int.le_trans hab hbc
    · intro a b
      simp only [Bool.or_eq_true, decide_eq_true_eq]
      exact Int.le_total _ _
  exact hsorted.imp fun h => of_decide_eq_true h

/-- The first plan with a property has the smallest id of those with it. -/
theorem find?_sortedPlans {p : RatePlanRecord → Bool} (h : t.sortedPlans.find? p = some plan) :
    plan ∈ t.ratePlans ∧ p plan = true ∧ ∀ q ∈ t.ratePlans, p q = true → plan.id ≤ q.id := by
  refine ⟨mem_sortedPlans.mp (List.mem_of_find?_eq_some h), List.find?_some h, ?_⟩
  intro q hq hpq
  obtain ⟨_, before, after, hsplit, hbefore⟩ := List.find?_eq_some_iff_append.mp h
  have hsorted := pairwise_sortedPlans t
  rw [hsplit, List.pairwise_append] at hsorted
  have hmem : q ∈ before ++ plan :: after := hsplit ▸ mem_sortedPlans.mpr hq
  rcases List.mem_append.mp hmem with hmem | hmem
  · have hno := hbefore q hmem
    rw [hpq] at hno
    cases hno
  · rcases List.mem_cons.mp hmem with rfl | hmem
    · exact Int.le_refl _
    · exact List.rel_of_pairwise_cons hsorted.2.1 hmem

/-- A plan as the engine sees it. -/
def RateTables.rowOf (t : RateTables) (plan : RatePlanRecord) : RatePlanRow :=
  plan.toRow (t.sortedRatesOf plan.id)

theorem get?_reload (hpresent : t.present = true) {id : Int} {row : RatePlanRow} :
    (RatingService.reload t).plans.get? id = some row ↔
      ∃ plan ∈ t.ratePlans, plan.id = id ∧ t.rowOf plan = row := by
  have hids : ((loadRatePlans t).map fun p => (p.id, p)).map Prod.fst =
      t.sortedPlans.map RatePlanRecord.id := by
    rw [loadRatePlans_eq t hpresent, List.map_map, List.map_map]
    rfl
  have hnodup : (((loadRatePlans t).map fun p => (p.id, p)).map Prod.fst).Nodup := by
    rw [hids]
    exact (((List.mergeSort_perm t.ratePlans _).map _).nodup_iff).mpr t.planKeys
  have hget : (RatingService.reload t).plans.get? id = some row ↔
      (id, row) ∈ (loadRatePlans t).map fun p => (p.id, p) := OrdMap.get?_ofList hnodup
  rw [hget, loadRatePlans_eq t hpresent, List.map_map, List.mem_map]
  constructor
  · rintro ⟨plan, hplan, heq⟩
    obtain ⟨hid, hrow⟩ := Prod.mk.inj heq
    exact ⟨plan, List.mem_mergeSort.mp hplan, hid, hrow⟩
  · rintro ⟨plan, hplan, hid, hrow⟩
    exact ⟨plan, List.mem_mergeSort.mpr hplan, Prod.ext hid hrow⟩

theorem defaultPlanId_reload (hpresent : t.present = true) {id : Int} :
    (RatingService.reload t).defaultPlanId = some id ↔ ∃ plan, t.IsDefault plan ∧ plan.id = id := by
  have hrows : loadRatePlans t = t.sortedPlans.map t.rowOf := loadRatePlans_eq t hpresent
  have hfind : (loadRatePlans t).find? RatePlanRow.isDefault =
      (t.sortedPlans.find? fun p => p.isDefault.getD false).map t.rowOf := by
    rw [hrows, List.find?_map]
    rfl
  have hdefault : (RatingService.reload t).defaultPlanId =
      ((loadRatePlans t).find? RatePlanRow.isDefault).elim
        ((loadRatePlans t).head?.map RatePlanRow.id) fun plan => some plan.id := by
    show (RatingService.ofRows (loadRatePlans t)).defaultPlanId = _
    unfold RatingService.ofRows
    dsimp only
    cases (loadRatePlans t).find? RatePlanRow.isDefault <;> rfl
  -- the plan that the engine takes is the default one, and there is no other
  have hsound : ∀ p, t.IsDefault p → (RatingService.reload t).defaultPlanId = some p.id →
      ((RatingService.reload t).defaultPlanId = some id ↔
        ∃ plan, t.IsDefault plan ∧ plan.id = id) := by
    intro p hp heq
    rw [heq, Option.some.injEq]
    constructor
    · exact fun hid => ⟨p, hp, hid⟩
    · rintro ⟨q, hq, hid⟩
      rw [hp.unique hq, hid]
  cases hflagged : t.sortedPlans.find? fun p => p.isDefault.getD false with
  | some p =>
    obtain ⟨hmem, hflag, hleast⟩ := find?_sortedPlans hflagged
    refine hsound p ⟨hmem, .inl ⟨hflag, hleast⟩⟩ ?_
    rw [hdefault, hfind, hflagged]
    rfl
  | none =>
    have hunset : ∀ q ∈ t.ratePlans, q.isDefault.getD false = false := by
      intro q hq
      have hno := List.find?_eq_none.mp hflagged q (mem_sortedPlans.mpr hq)
      simpa using hno
    cases hfirst : t.sortedPlans.find? fun _ => true with
    | some p =>
      obtain ⟨hmem, _, hleast⟩ := find?_sortedPlans hfirst
      refine hsound p ⟨hmem, .inr ⟨hunset, fun q hq => hleast q hq rfl⟩⟩ ?_
      cases hplans : t.sortedPlans with
      | nil =>
        rw [hplans] at hfirst
        cases hfirst
      | cons q rest =>
        rw [hplans, List.find?_cons_of_pos rfl] at hfirst
        obtain rfl := Option.some.inj hfirst
        rw [hdefault, hfind, hflagged, hrows, hplans]
        rfl
    | none =>
      -- there is no plan at all
      have hempty : t.sortedPlans = [] := by
        cases hplans : t.sortedPlans with
        | nil => rfl
        | cons q rest =>
          rw [hplans, List.find?_cons_of_pos rfl] at hfirst
          cases hfirst
      rw [hdefault, hfind, hflagged, hrows, hempty]
      constructor
      · intro h
        cases h
      · rintro ⟨plan, hplan, _⟩
        have hmem := mem_sortedPlans.mpr hplan.1
        rw [hempty] at hmem
        cases hmem

/-- The engine prices with the effective plan. -/
theorem resolvePlan_reload {row : RatePlanRow} :
    (RatingService.reload t).resolvePlan planId = some row ↔
      ∃ plan, t.Effective planId plan ∧ t.rowOf plan = row := by
  cases hpresent : t.present with
  | false =>
    have hrows : RatingService.reload t = .ofRows [] := by
      unfold RatingService.reload
      rw [loadRatePlans_absent hpresent]
    have hnone : (RatingService.reload t).resolvePlan planId = none := by
      rw [hrows]
      cases planId <;> rfl
    rw [hnone]
    constructor
    · intro h
      cases h
    · rintro ⟨plan, hplan, _⟩
      have habsent := hplan.1
      rw [hpresent] at habsent
      cases habsent
  | true =>
    unfold RatingService.resolvePlan
    cases hassigned : planId.bind (RatingService.reload t).plans.get? with
    | some explicit =>
      obtain ⟨id, rfl, hget⟩ := Option.bind_eq_some_iff.mp hassigned
      obtain ⟨plan, hplan, rfl, hrow⟩ := (get?_reload hpresent).mp hget
      have heffective : t.Effective (some plan.id) plan := ⟨hpresent, .inl ⟨hplan, rfl⟩⟩
      dsimp only
      rw [← hrow, Option.some.injEq]
      constructor
      · intro heq
        exact ⟨plan, heffective, heq⟩
      · rintro ⟨plan', heffective', heq⟩
        rw [heffective.unique heffective', heq]
    | none =>
      have hnone : ∀ q ∈ t.ratePlans, planId ≠ some q.id := by
        rintro q hq rfl
        have hget := (get?_reload hpresent).mpr ⟨q, hq, rfl, rfl⟩
        rw [Option.bind_some, hget] at hassigned
        cases hassigned
      dsimp only
      rw [Option.bind_eq_some_iff]
      constructor
      · rintro ⟨id, hdefault, hget⟩
        obtain ⟨plan, hplan, rfl⟩ := (defaultPlanId_reload hpresent).mp hdefault
        obtain ⟨plan', hplan', hid, hrow⟩ := (get?_reload hpresent).mp hget
        obtain rfl := eq_of_id_eq hplan' hplan.1 hid
        exact ⟨plan', ⟨hpresent, .inr ⟨hnone, hplan⟩⟩, hrow⟩
      · rintro ⟨plan, ⟨_, hcase⟩, hrow⟩
        rcases hcase with ⟨hplan, hid⟩ | ⟨_, hplan⟩
        · exact absurd hid (hnone plan hplan)
        · exact ⟨plan.id, (defaultPlanId_reload hpresent).mpr ⟨plan, hplan, rfl⟩,
            (get?_reload hpresent).mpr ⟨plan, hplan.1, rfl, hrow⟩⟩

end Plans

/-! ## What the callers read -/

/-- The plan and the rate that price a number. -/
def RatingService.select (r : RatingService) (dialed : String) (planId : Option Int) :
    Option (RatePlanRow × RateRow) :=
  (r.resolvePlan planId).bind fun plan =>
    (longestPrefixMatch plan.rates (toDigits dialed)).map fun rate => (plan, rate)

/-- The billing fields of a call that is priced by a rate. -/
def RateRow.bill (rate : RateRow) (currency : String) (secs : Rat) : RatingResult :=
  { cost := rate.charge secs
    currency
    ratePrefix := rate.ratePrefix
    billedSecs := billableSeconds secs rate.incrementSecs rate.minSecs }

section Callers

variable (r : RatingService) (dialed : String) (planId : Option Int)

theorem rate_eq_select {secs : Rat} (hsecs : 0 < secs) :
    r.rate dialed secs planId =
      (r.select dialed planId).map fun (plan, rate) => rate.bill plan.currency secs := by
  have hpos : ¬ secs ≤ 0 := Rat.not_le.mpr hsecs
  unfold RatingService.rate RatingService.select
  rw [if_neg hpos]
  cases r.resolvePlan planId with
  | none => rfl
  | some plan =>
    simp only [Option.bind_some]
    by_cases hdigits : toDigits dialed = []
    · rw [if_pos hdigits, hdigits, longestPrefixMatch_nil]
      rfl
    · rw [if_neg hdigits]
      cases longestPrefixMatch plan.rates (toDigits dialed) <;> rfl

theorem estimateMinCharge_eq_select :
    r.estimateMinCharge dialed planId =
      (r.select dialed planId).map fun (plan, rate) => (rate.charge 1, plan.currency) := by
  unfold RatingService.estimateMinCharge RatingService.select
  cases r.resolvePlan planId with
  | none => rfl
  | some plan =>
    simp only [Option.bind_some]
    by_cases hdigits : toDigits dialed = []
    · rw [if_pos hdigits, hdigits, longestPrefixMatch_nil]
      rfl
    · rw [if_neg hdigits]
      cases longestPrefixMatch plan.rates (toDigits dialed) <;> rfl

theorem isUnrated_iff :
    r.isUnrated dialed planId = true ↔
      r.plans.size ≠ 0 ∧ ∃ plan, r.resolvePlan planId = some plan ∧ toDigits dialed ≠ [] ∧
        ∀ rate ∈ plan.rates, ¬ rate.Matches (toDigits dialed) := by
  unfold RatingService.isUnrated
  by_cases hsize : r.plans.size = 0
  · simp only [hsize, if_true, Bool.false_eq_true, ne_eq, not_true_eq_false, false_and]
  · rw [if_neg hsize]
    cases r.resolvePlan planId with
    | none =>
      constructor
      · intro h
        cases h
      · rintro ⟨_, plan, hplan, _⟩
        cases hplan
    | some plan =>
      by_cases hdigits : toDigits dialed = []
      · simp only [hdigits, if_true, Bool.false_eq_true, ne_eq, not_true_eq_false, false_and,
          and_false, exists_false]
      · simp only [if_neg hdigits, Option.isNone_iff_eq_none, longestPrefixMatch_eq_none_iff]
        constructor
        · intro hnone
          exact ⟨hsize, plan, rfl, hdigits, hnone⟩
        · rintro ⟨_, plan', hplan, _, hnone⟩
          rw [Option.some.inj hplan]
          exact hnone

end Callers

/-! ## The selection -/

/-- No plan has two rates with one prefix. -/
def RateTables.DistinctPrefixes (t : RateTables) : Prop :=
  (t.rates.map fun r => (r.ratePlanId, r.ratePrefix)).Nodup

/-- The number is priced by the longest prefix of its digits among the rates of the effective
    plan, and it is unrated when that plan has no such rate. -/
structure SelectsLongest (t : RateTables) (book : RatingService) (dialed : String)
    (planId : Option Int) : Prop where
  selected : ∀ rate, ((book.select dialed planId).map Prod.snd = some rate ↔
    ∃ plan, t.Effective planId plan ∧ LongestMatch (t.ratesOf plan.id) (toDigits dialed) rate)
  charged : ∀ secs, 0 < secs → book.rate dialed secs planId =
    (book.select dialed planId).map fun (plan, rate) => rate.bill plan.currency secs
  estimated : book.estimateMinCharge dialed planId =
    (book.select dialed planId).map fun (plan, rate) => (rate.charge 1, plan.currency)
  unrated : book.isUnrated dialed planId = true ↔
    ∃ plan, t.Effective planId plan ∧ toDigits dialed ≠ [] ∧
      ∀ rate ∈ t.ratesOf plan.id, ¬ rate.Matches (toDigits dialed)

/-- The callers of two books get the same answers. -/
structure RatingService.Agrees (r r' : RatingService) (dialed : String) (planId : Option Int) :
    Prop where
  selected : (r'.select dialed planId).map Prod.snd = (r.select dialed planId).map Prod.snd
  rated : ∀ secs, r'.rate dialed secs planId = r.rate dialed secs planId
  estimated : r'.estimateMinCharge dialed planId = r.estimateMinCharge dialed planId
  unrated : r'.isUnrated dialed planId = r.isUnrated dialed planId

/-- The same rows in another order. -/
structure RateTables.Reordered (t t' : RateTables) : Prop where
  present : t'.present = t.present
  ratePlans : t'.ratePlans.Perm t.ratePlans
  rates : t'.rates.Perm t.rates

section Loaded

variable {t t' : RateTables} {planId : Option Int} {plan : RatePlanRecord} {dialed : String}

theorem ratesOf_nodup (hdistinct : t.DistinctPrefixes) (id : Int) :
    ((t.ratesOf id).map RateRow.ratePrefix).Nodup := by
  unfold RateTables.DistinctPrefixes at hdistinct
  rw [List.nodup_iff_pairwise_ne, List.pairwise_map] at hdistinct
  unfold RateTables.ratesOf
  rw [List.map_map, List.nodup_iff_pairwise_ne, List.pairwise_map]
  -- two rates of one plan differ in the prefix
  refine (hdistinct.filter _).imp_of_mem fun ha hb hne hprefix => hne ?_
  have hplana := of_decide_eq_true (List.mem_filter.mp ha).2
  have hplanb := of_decide_eq_true (List.mem_filter.mp hb).2
  exact Prod.ext (hplana.trans hplanb.symm) hprefix

theorem sortedRatesOf_nodup (hdistinct : t.DistinctPrefixes) (id : Int) :
    ((t.sortedRatesOf id).map RateRow.ratePrefix).Nodup :=
  ((sortedRatesOf_perm t id).map _).nodup_iff.mpr (ratesOf_nodup hdistinct id)

/-- The search in a loaded plan is the search in its table rows. -/
theorem longestPrefixMatch_rowOf (hdistinct : t.DistinctPrefixes) {rate : RateRow}
    (digits : List Char) :
    longestPrefixMatch (t.rowOf plan).rates digits = some rate ↔
      LongestMatch (t.ratesOf plan.id) digits rate := by
  have hrates : (t.rowOf plan).rates = t.sortedRatesOf plan.id := rfl
  rw [hrates, longestPrefixMatch_eq_some_iff (sortedRatesOf_nodup hdistinct plan.id)]
  have hperm := sortedRatesOf_perm t plan.id
  exact ⟨LongestMatch.perm hperm, LongestMatch.perm hperm.symm⟩

theorem select_reload (hdistinct : t.DistinctPrefixes) {row : RatePlanRow} {rate : RateRow} :
    (RatingService.reload t).select dialed planId = some (row, rate) ↔
      ∃ plan, t.Effective planId plan ∧ t.rowOf plan = row ∧
        LongestMatch (t.ratesOf plan.id) (toDigits dialed) rate := by
  unfold RatingService.select
  rw [Option.bind_eq_some_iff]
  constructor
  · rintro ⟨row', hrow, hmatch⟩
    obtain ⟨plan, heffective, rfl⟩ := resolvePlan_reload.mp hrow
    obtain ⟨rate', hrate, heq⟩ := Option.map_eq_some_iff.mp hmatch
    obtain ⟨rfl, rfl⟩ := Prod.mk.inj heq
    exact ⟨plan, heffective, rfl, (longestPrefixMatch_rowOf hdistinct _).mp hrate⟩
  · rintro ⟨plan, heffective, rfl, hlongest⟩
    refine ⟨t.rowOf plan, resolvePlan_reload.mpr ⟨plan, heffective, rfl⟩, ?_⟩
    rw [(longestPrefixMatch_rowOf hdistinct _).mpr hlongest]
    rfl

/-- The selected rate with the currency of its plan. -/
theorem priced_reload (hdistinct : t.DistinctPrefixes) {currency : String} {rate : RateRow} :
    ((RatingService.reload t).select dialed planId).map (fun (row, rate) => (row.currency, rate)) =
        some (currency, rate) ↔
      ∃ plan, t.Effective planId plan ∧ (plan.toRow []).currency = currency ∧
        LongestMatch (t.ratesOf plan.id) (toDigits dialed) rate := by
  rw [Option.map_eq_some_iff]
  constructor
  · rintro ⟨⟨row, rate'⟩, hselect, heq⟩
    obtain ⟨rfl, rfl⟩ := Prod.mk.inj heq
    obtain ⟨plan, heffective, rfl, hlongest⟩ := (select_reload hdistinct).mp hselect
    exact ⟨plan, heffective, rfl, hlongest⟩
  · rintro ⟨plan, heffective, rfl, hlongest⟩
    exact ⟨(t.rowOf plan, rate),
      (select_reload hdistinct).mpr ⟨plan, heffective, rfl, hlongest⟩, rfl⟩

/-- A loaded book has a plan in it when there is an effective one. -/
theorem isUnrated_reload :
    (RatingService.reload t).isUnrated dialed planId = true ↔
      ∃ plan, t.Effective planId plan ∧ toDigits dialed ≠ [] ∧
        ∀ rate ∈ t.ratesOf plan.id, ¬ rate.Matches (toDigits dialed) := by
  have hmem : ∀ plan rate, rate ∈ (t.rowOf plan).rates ↔ rate ∈ t.ratesOf plan.id :=
    fun plan rate => (sortedRatesOf_perm t plan.id).mem_iff
  rw [isUnrated_iff]
  constructor
  · rintro ⟨_, row, hrow, hdigits, hnone⟩
    obtain ⟨plan, heffective, rfl⟩ := resolvePlan_reload.mp hrow
    exact ⟨plan, heffective, hdigits, fun rate hrate => hnone rate ((hmem plan rate).mpr hrate)⟩
  · rintro ⟨plan, heffective, hdigits, hnone⟩
    have hget : (RatingService.reload t).plans.get? plan.id = some (t.rowOf plan) :=
      (get?_reload heffective.1).mpr ⟨plan, heffective.mem, rfl, rfl⟩
    refine ⟨fun hsize => ?_, t.rowOf plan, resolvePlan_reload.mpr ⟨plan, heffective, rfl⟩,
      hdigits, fun rate hrate => hnone rate ((hmem plan rate).mp hrate)⟩
    have hempty := OrdMap.size_eq_zero_iff.mp hsize plan.id
    rw [hget] at hempty
    cases hempty

/-! ### Another order of the rows -/

theorem RateTables.Reordered.effective (h : t.Reordered t') :
    t'.Effective planId plan ↔ t.Effective planId plan := by
  have hmem : ∀ q, q ∈ t'.ratePlans ↔ q ∈ t.ratePlans := fun q => h.ratePlans.mem_iff
  unfold RateTables.Effective RateTables.IsDefault
  simp only [h.present, hmem]

theorem RateTables.Reordered.ratesOf_perm (h : t.Reordered t') (id : Int) :
    (t'.ratesOf id).Perm (t.ratesOf id) :=
  (h.rates.filter _).map _

theorem RateTables.Reordered.distinctPrefixes (h : t.Reordered t')
    (hdistinct : t.DistinctPrefixes) : t'.DistinctPrefixes :=
  (h.rates.map _).nodup_iff.mpr hdistinct

theorem agrees_reordered (hdistinct : t.DistinctPrefixes) (h : t.Reordered t') (dialed : String)
    (planId : Option Int) :
    (RatingService.reload t).Agrees (RatingService.reload t') dialed planId := by
  -- both books select the same rate in the same currency
  have hpriced :
      ((RatingService.reload t').select dialed planId).map
          (fun (row, rate) => (row.currency, rate)) =
        ((RatingService.reload t).select dialed planId).map
          (fun (row, rate) => (row.currency, rate)) := by
    apply Option.ext
    rintro ⟨currency, rate⟩
    rw [priced_reload hdistinct, priced_reload (h.distinctPrefixes hdistinct)]
    simp only [h.effective]
    constructor
    · rintro ⟨plan, heffective, hcurrency, hlongest⟩
      exact ⟨plan, heffective, hcurrency, hlongest.perm (h.ratesOf_perm _)⟩
    · rintro ⟨plan, heffective, hcurrency, hlongest⟩
      exact ⟨plan, heffective, hcurrency, hlongest.perm (h.ratesOf_perm _).symm⟩
  -- and what the callers read is a function of these
  have hread : ∀ {β : Type} (f : String × RateRow → β),
      ((RatingService.reload t').select dialed planId).map
          (fun (row, rate) => f (row.currency, rate)) =
        ((RatingService.reload t).select dialed planId).map
          (fun (row, rate) => f (row.currency, rate)) := by
    intro β f
    have hmap := congrArg (Option.map f) hpriced
    rwa [Option.map_map, Option.map_map] at hmap
  refine ⟨hread Prod.snd, fun secs => ?_, ?_, ?_⟩
  · by_cases hsecs : 0 < secs
    · rw [rate_eq_select _ _ _ hsecs, rate_eq_select _ _ _ hsecs]
      exact hread fun (currency, rate) => rate.bill currency secs
    · unfold RatingService.rate
      rw [if_pos (Rat.not_lt.mp hsecs), if_pos (Rat.not_lt.mp hsecs)]
  · rw [estimateMinCharge_eq_select, estimateMinCharge_eq_select]
    exact hread fun (currency, rate) => (rate.charge 1, currency)
  · rw [Bool.eq_iff_iff, isUnrated_reload, isUnrated_reload]
    simp only [h.effective, (h.ratesOf_perm _).mem_iff]

/-- In a book with distinct prefixes a number is priced by its longest prefix in the effective
    plan of the caller, whatever the order of the rows. -/
theorem loaded_selectsLongest (t : RateTables) (hdistinct : t.DistinctPrefixes)
    (dialed : String) (planId : Option Int) :
    SelectsLongest t (RatingService.reload t) dialed planId ∧
      ∀ t' : RateTables, t.Reordered t' →
        (RatingService.reload t).Agrees (RatingService.reload t') dialed planId := by
  refine ⟨⟨fun rate => ?_, fun secs hsecs => rate_eq_select _ _ _ hsecs,
    estimateMinCharge_eq_select _ _ _, isUnrated_reload⟩,
    fun t' h => agrees_reordered hdistinct h dialed planId⟩
  rw [Option.map_eq_some_iff]
  constructor
  · rintro ⟨⟨row, rate'⟩, hselect, rfl⟩
    obtain ⟨plan, heffective, _, hlongest⟩ := (select_reload hdistinct).mp hselect
    exact ⟨plan, heffective, hlongest⟩
  · rintro ⟨plan, heffective, hlongest⟩
    exact ⟨(t.rowOf plan, rate),
      (select_reload hdistinct).mpr ⟨plan, heffective, rfl, hlongest⟩, rfl⟩

end Loaded

/-! ## A book of two plans -/

/-- India at 6 a minute, Bangalore at 4, and a second plan that is not the default. -/
def twoPlanTables : RateTables where
  present := true
  ratePlans := [⟨2, some "EUR", some true⟩, ⟨1, none, some false⟩]
  rates := [⟨1, 2, "91", some 6, none, some 60, none⟩, ⟨2, 2, "9180", some 4, none, none, none⟩,
    ⟨3, 1, "91", some 5, none, some 1, some 30⟩]
  planKeys := by decide
  rateKeys := by decide

/-- A caller whose plan is gone is priced by the default one. -/
theorem loaded_selectsLongest_twoPlans :
    (∃ plan, twoPlanTables.Effective (some 7) plan ∧ plan.id = 2) ∧
      SelectsLongest twoPlanTables (RatingService.reload twoPlanTables) "+918012345678"
        (some 7) := by
  have hdistinct : twoPlanTables.DistinctPrefixes := by
    unfold RateTables.DistinctPrefixes
    decide +kernel
  refine ⟨⟨⟨2, some "EUR", some true⟩, ⟨rfl, .inr ⟨by decide, by decide, .inl ⟨rfl, by decide⟩⟩⟩,
    rfl⟩, (loaded_selectsLongest twoPlanTables hdistinct _ _).1⟩

end CallNet
