import CallNet.Api.RatePlans
import CallNet.ForStd.Machine
import CallNet.ForStd.Slots

/-!
# One default rate plan

A promotion clears the old default in one operation and flags the new one in another, on a row
that may have been read earlier.  `oneDefault_throughout_iff` says what must not come between the
two, and which write must not fail.
-/

namespace CallNet.Api

open Machine (Meets Throughout)

/-! ## The flagged plans -/

section Flags

variable {plans : OrdMap Nat RatePlan} {i id : Nat} {plan : RatePlan}

theorem mem_defaultIds :
    i ∈ defaultIds plans ↔ ∃ plan, plans.get? i = some plan ∧ plan.isDefault = true := by
  unfold defaultIds OrdMap.keys OrdMap.filter
  simp only [List.mem_map, List.mem_filter, Prod.exists, exists_and_right, exists_eq_right,
    OrdMap.mem_entries_iff]

theorem mem_defaultIds_set :
    i ∈ defaultIds (plans.set id plan) ↔
      if i = id then plan.isDefault = true else i ∈ defaultIds plans := by
  rw [mem_defaultIds, mem_defaultIds, OrdMap.get?_set]
  split
  · simp only [Option.some.injEq, exists_eq_left']
  · exact Iff.rfl

theorem mem_defaultIds_delete (h : i ∈ defaultIds (plans.delete id)) : i ∈ defaultIds plans := by
  rw [mem_defaultIds] at h ⊢
  obtain ⟨plan, hget, hflag⟩ := h
  rw [OrdMap.get?_delete] at hget
  split at hget
  · cases hget
  · exact ⟨plan, hget, hflag⟩

theorem not_mem_defaultIds_clearDefault : i ∉ defaultIds (PlanService.clearDefault plans) := by
  rw [mem_defaultIds]
  rintro ⟨plan, hget, hflag⟩
  unfold PlanService.clearDefault at hget
  rw [OrdMap.get?_mapVals] at hget
  obtain ⟨old, _, rfl⟩ := Option.map_eq_some_iff.mp hget
  cases hflag

end Flags

namespace PlanService

variable {toUpper : String → String} {s s' : PlanService} {e : PlanEvent} {i : Nat} {fails : Bool}
  {call : PlanCall} {w : PlanWrite}

/-- At most one plan is flagged, and no call that returned an error has changed a flag. -/
structure OneDefault (s : PlanService) : Prop where
  one : ∀ i ∈ defaultIds s.plans, ∀ j ∈ defaultIds s.plans, i = j
  failed : ∀ call ∈ s.calls, call.phase = .returned true → call.changed = false

/-- A write that flags a plan finds no other plan flagged, and a write that fails comes after no
    change of a flag by its own call. -/
def Respects (s : PlanService) : PlanEvent → Prop
  | .operate i fails => ∀ w changed, s.calls[i]? = some ⟨.writing w, changed⟩ →
      (fails = true → changed = false) ∧
        (fails = false → w.plan.isDefault = true →
          ∀ j ∈ defaultIds s.plans, w.target = some j)
  | _ => True

/-- The write a call still has to make. -/
def PlanPhase.pending : PlanPhase → Option PlanWrite
  | .clearing w | .writing w => some w
  | _ => none

structure Invariant (s : PlanService) : Prop where
  one : ∀ i ∈ defaultIds s.plans, ∀ j ∈ defaultIds s.plans, i = j
  /-- Only `ClearDefault` and the last operation of a call change flags. -/
  quiet : ∀ call ∈ s.calls, call.changed = true →
    call.phase = .returned false ∨ ∃ w, call.phase = .writing w
  fresh : ∀ id plan, s.plans.get? id = some plan → id < s.nextId
  targets : ∀ call ∈ s.calls, ∀ w id, PlanPhase.pending call.phase = some w →
    w.target = some id → id < s.nextId

theorem Invariant.oneDefault (h : s.Invariant) : s.OneDefault where
  one := h.one
  failed := by
    intro call hcall hphase
    cases hchanged : call.changed with
    | false => rfl
    | true =>
      have hlate := h.quiet call hcall hchanged
      rw [hphase] at hlate
      rcases hlate with hlate | ⟨w, hlate⟩
      · cases hlate
      · cases hlate

theorem pending_clearFor (takes : Bool) (w : PlanWrite) :
    PlanPhase.pending (clearFor takes w) = some w := by
  cases takes <;> rfl

/-! ## Steps -/

/-- A call that begins has changed nothing. -/
theorem invariant_start (h : s.Invariant) {phase : PlanPhase}
    (htarget : ∀ w id, PlanPhase.pending phase = some w → w.target = some id → id < s.nextId) :
    (s.start phase).Invariant where
  one := h.one
  quiet := by
    intro call hcall hchanged
    rcases List.mem_append.mp hcall with hcall | hcall
    · exact h.quiet call hcall hchanged
    · rw [List.mem_singleton.mp hcall] at hchanged
      cases hchanged
  fresh := h.fresh
  targets := by
    intro call hcall w id hpending hid
    rcases List.mem_append.mp hcall with hcall | hcall
    · exact h.targets call hcall w id hpending hid
    · rw [List.mem_singleton.mp hcall] at hpending
      exact htarget w id hpending hid

/-- What an operation does: it fails, and with it the call, or the database answers. -/
theorem operate_cases (h : step toUpper s (.operate i fails) = some s') :
    ∃ call, s.calls[i]? = some call ∧ (∀ error, call.phase ≠ .returned error) ∧
      ((fails = true ∧ s' = s.resume s i call (.returned true)) ∨
        (fails = false ∧ s' = s.resume (s.perform toUpper call.phase).1 i call
          (s.perform toUpper call.phase).2)) := by
  simp only [step] at h
  split at h
  · cases h
  · cases h
  · rename_i call hreturned hcall
    refine ⟨call, hcall, fun error hphase => ?_, ?_⟩
    · obtain ⟨phase, changed⟩ := call
      obtain rfl : phase = .returned error := hphase
      exact hreturned error changed rfl
    · cases fails with
      | true => exact .inl ⟨rfl, (Option.some.inj h).symm⟩
      | false => exact .inr ⟨rfl, (Option.some.inj h).symm⟩

/-- The table after the operations keeps the invariant; so does the call, if it may have changed
    what it did. -/
theorem invariant_resume {s₂ : PlanService} {phase : PlanPhase} (h : s.Invariant)
    (hone : ∀ i ∈ defaultIds s₂.plans, ∀ j ∈ defaultIds s₂.plans, i = j)
    (hfresh : ∀ id plan, s₂.plans.get? id = some plan → id < s₂.nextId)
    (hnext : s.nextId ≤ s₂.nextId)
    (hquiet : call.changed = true ∨ defaultIds s₂.plans ≠ defaultIds s.plans →
      phase = .returned false ∨ ∃ w, phase = .writing w)
    (htarget : ∀ w id, PlanPhase.pending phase = some w → w.target = some id → id < s₂.nextId) :
    (s.resume s₂ i call phase).Invariant where
  one := hone
  quiet := by
    intro c hc hchanged
    rcases List.mem_or_eq_of_mem_set hc with hc | rfl
    · exact h.quiet c hc hchanged
    · apply hquiet
      simpa only [Bool.or_eq_true, decide_eq_true_eq] using hchanged
  fresh := hfresh
  targets := by
    intro c hc w id hpending hid
    rcases List.mem_or_eq_of_mem_set hc with hc | rfl
    · exact Nat.lt_of_lt_of_le (h.targets c hc w id hpending hid) hnext
    · exact htarget w id hpending hid

/-- A write that is respected leaves at most one plan flagged. -/
theorem one_set {plans : OrdMap Nat RatePlan} {id : Nat} {plan : RatePlan}
    (h : ∀ i ∈ defaultIds plans, ∀ j ∈ defaultIds plans, i = j)
    (halone : plan.isDefault = true → ∀ j ∈ defaultIds plans, j = id) :
    ∀ i ∈ defaultIds (plans.set id plan), ∀ j ∈ defaultIds (plans.set id plan), i = j := by
  intro i hi j hj
  rw [mem_defaultIds_set] at hi hj
  split at hi
  · rename_i hid
    split at hj
    · rename_i hid'
      rw [hid, hid']
    · rw [hid, halone hi j hj]
  · split at hj
    · rename_i hid'
      rw [hid', halone hj i hi]
    · exact h i hi j hj

theorem fresh_write (h : s.Invariant) (htarget : ∀ id, w.target = some id → id < s.nextId) :
    ∀ id plan, (s.write w).plans.get? id = some plan → id < (s.write w).nextId := by
  intro id plan hget
  cases w with
  | create new =>
    have hset : (s.plans.set s.nextId new).get? id = some plan := hget
    rw [OrdMap.get?_set] at hset
    show id < s.nextId + 1
    split at hset
    · omega
    · exact Nat.lt_succ_of_lt (h.fresh id plan hset)
  | save id' new =>
    have hset : (s.plans.set id' new).get? id = some plan := hget
    rw [OrdMap.get?_set] at hset
    show id < s.nextId
    split at hset
    · rename_i heq
      rw [heq]
      exact htarget id' rfl
    · exact h.fresh id plan hset

/-- An operation that answers keeps the invariant, a write of a flag if it may. -/
theorem invariant_perform (h : s.Invariant) (hcall : s.calls[i]? = some call)
    (hrespects : s.Respects (.operate i false))
    (hrunning : ∀ error, call.phase ≠ .returned error) :
    (s.resume (s.perform toUpper call.phase).1 i call
      (s.perform toUpper call.phase).2).Invariant := by
  have hmem := List.mem_of_getElem? hcall
  obtain ⟨phase, changed⟩ := call
  have hstill : (∀ w, phase ≠ .writing w) → changed = false := by
    intro hno
    cases changed with
    | false => rfl
    | true =>
      rcases h.quiet _ hmem rfl with hlate | ⟨w, hlate⟩
      · exact absurd hlate (hrunning false)
      · exact absurd hlate (hno w)
  cases phase with
  | reading id input =>
    have hchanged := hstill fun w heq => by cases heq
    subst hchanged
    cases hget : s.plans.get? id with
    | none =>
      have hperform : s.perform toUpper (.reading id input) = (s, .returned true) := by
        simp only [perform, hget]
      rw [hperform]
      refine invariant_resume h h.one h.fresh (Nat.le_refl _) (fun hc => ?_)
        fun w id' hpending => by cases hpending
      rcases hc with hc | hc
      · cases hc
      · exact absurd rfl hc
    | some plan =>
      have hperform : s.perform toUpper (.reading id input) =
          (s, clearFor (input.isDefault.getD false && !plan.isDefault)
            (.save id (applyPlanInput toUpper plan input))) := by
        simp only [perform, hget]
      rw [hperform]
      refine invariant_resume h h.one h.fresh (Nat.le_refl _) (fun hc => ?_)
        fun w id' hpending hid => ?_
      · rcases hc with hc | hc
        · cases hc
        · exact absurd rfl hc
      · -- the row that will be saved has just been read
        rw [pending_clearFor] at hpending
        rw [← Option.some.inj hpending] at hid
        rw [← Option.some.inj hid]
        exact h.fresh id plan hget
  | clearing w =>
    have hone : ∀ i ∈ defaultIds (clearDefault s.plans), ∀ j ∈ defaultIds (clearDefault s.plans),
        i = j := fun i hi => absurd hi not_mem_defaultIds_clearDefault
    refine invariant_resume h hone (fun id plan hget => ?_) (Nat.le_refl _)
      (fun _ => .inr ⟨w, rfl⟩) fun w' id hpending hid => h.targets _ hmem w' id hpending hid
    have hold : (clearDefault s.plans).get? id = some plan := hget
    unfold clearDefault at hold
    rw [OrdMap.get?_mapVals] at hold
    obtain ⟨old, hold, _⟩ := Option.map_eq_some_iff.mp hold
    exact h.fresh id old hold
  | writing w =>
    have htargets : ∀ id, w.target = some id → id < s.nextId :=
      fun id hid => h.targets _ hmem w id rfl hid
    have halone := (hrespects w changed hcall).2 rfl
    refine invariant_resume h ?_ (fresh_write h htargets) ?_ (fun _ => .inl rfl)
      fun w' id hpending => by cases hpending
    · cases w with
      | create plan =>
        exact one_set h.one fun hflag j hj => nomatch halone hflag j hj
      | save id plan =>
        exact one_set h.one fun hflag j hj => (Option.some.inj (halone hflag j hj)).symm
    · cases w with
      | create plan => exact Nat.le_succ _
      | save id plan => exact Nat.le_refl _
  | deleting id =>
    refine invariant_resume h ?_ (fun id' plan hget => ?_) (Nat.le_refl _) (fun _ => .inl rfl)
      fun w id hpending => by cases hpending
    · intro i hi j hj
      exact h.one i (mem_defaultIds_delete hi) j (mem_defaultIds_delete hj)
    · have hold : (s.plans.delete id).get? id' = some plan := hget
      rw [OrdMap.get?_delete] at hold
      split at hold
      · cases hold
      · exact h.fresh id' plan hold
  | returned error => exact absurd rfl (hrunning error)

/-- A call that fails has changed no flag, unless it was writing. -/
theorem invariant_fail (h : s.Invariant) (hcall : s.calls[i]? = some call)
    (hrespects : s.Respects (.operate i true))
    (hrunning : ∀ error, call.phase ≠ .returned error) :
    (s.resume s i call (.returned true)).Invariant := by
  refine invariant_resume h h.one h.fresh (Nat.le_refl _) (fun hc => ?_)
    fun w id hpending => by cases hpending
  rcases hc with hchanged | hc
  · rcases h.quiet call (List.mem_of_getElem? hcall) hchanged with hlate | ⟨w, hlate⟩
    · exact absurd hlate (hrunning false)
    · obtain ⟨phase, changed⟩ := call
      obtain rfl : phase = .writing w := hlate
      obtain rfl : changed = true := hchanged
      have hfalse := (hrespects w true hcall).1 rfl
      cases hfalse
  · exact absurd rfl hc

theorem invariant_step (h : s.Invariant) (hrespects : s.Respects e)
    (hstep : step toUpper s e = some s') : s'.Invariant := by
  cases e with
  | createPlan input =>
    simp only [step] at hstep
    split at hstep
    · rw [← Option.some.inj hstep]
      exact invariant_start h fun w id hpending => by cases hpending
    · rename_i plan hplan
      rw [← Option.some.inj hstep]
      refine invariant_start h fun w id hpending hid => ?_
      rw [pending_clearFor] at hpending
      rw [← Option.some.inj hpending] at hid
      cases hid
  | updatePlan id input =>
    rw [← Option.some.inj hstep]
    exact invariant_start h fun w id hpending => by cases hpending
  | deletePlan id =>
    rw [← Option.some.inj hstep]
    exact invariant_start h fun w id hpending => by cases hpending
  | operate i fails =>
    obtain ⟨call, hcall, hrunning, hcase⟩ := operate_cases hstep
    rcases hcase with ⟨rfl, rfl⟩ | ⟨rfl, rfl⟩
    · exact invariant_fail h hcall hrespects hrunning
    · exact invariant_perform h hcall hrespects hrunning

/-- A write that leaves the property whole was respected. -/
theorem respects_of_oneDefault (h : s.Invariant) (hstep : step toUpper s e = some s')
    (h' : s'.OneDefault) : s.Respects e := by
  cases e with
  | createPlan input => trivial
  | updatePlan id input => trivial
  | deletePlan id => trivial
  | operate i fails =>
    intro w changed hcall
    obtain ⟨call, hcall', _, hcase⟩ := operate_cases hstep
    obtain rfl : call = ⟨.writing w, changed⟩ := Option.some.inj (hcall'.symm.trans hcall)
    rcases hcase with ⟨rfl, rfl⟩ | ⟨rfl, rfl⟩
    · refine ⟨fun _ => ?_, fun hfalse => nomatch hfalse⟩
      -- the call is over, with an error and what it has changed
      have hself : (s.resume s i ⟨.writing w, changed⟩ (.returned true)).calls[i]? =
          some ⟨.returned true, changed || decide (defaultIds s.plans ≠ defaultIds s.plans)⟩ :=
        List.getElem?_set_at hcall
      have hclean := h'.failed _ (List.mem_of_getElem? hself) rfl
      simpa only [ne_eq, not_true_eq_false, decide_false, Bool.or_false] using hclean
    · refine ⟨fun hfalse => (nomatch hfalse), fun _ hflag j hj => ?_⟩
      have hone : ∀ i ∈ defaultIds (s.write w).plans, ∀ j ∈ defaultIds (s.write w).plans, i = j :=
        h'.one
      cases w with
      | create plan =>
        have hid : s.nextId ∈ defaultIds (s.plans.set s.nextId plan) :=
          mem_defaultIds_set.mpr (by rw [if_pos rfl]; exact hflag)
        -- an id that is given out is not the next one
        have hne : j ≠ s.nextId := by
          obtain ⟨old, hold, _⟩ := mem_defaultIds.mp hj
          exact Nat.ne_of_lt (h.fresh j old hold)
        have hj' : j ∈ defaultIds (s.plans.set s.nextId plan) :=
          mem_defaultIds_set.mpr (by rw [if_neg hne]; exact hj)
        exact absurd (hone j hj' _ hid) hne
      | save id plan =>
        have hid : id ∈ defaultIds (s.plans.set id plan) :=
          mem_defaultIds_set.mpr (by rw [if_pos rfl]; exact hflag)
        by_cases heq : j = id
        · rw [heq]
          rfl
        · have hj' : j ∈ defaultIds (s.plans.set id plan) :=
            mem_defaultIds_set.mpr (by rw [if_neg heq]; exact hj)
          exact absurd (hone j hj' id hid) heq

/-! ## Runs -/

theorem invariant_init : init.Invariant where
  one := fun _ hi => absurd hi List.not_mem_nil
  quiet := fun _ hcall => absurd hcall List.not_mem_nil
  fresh := fun _ _ hget => nomatch hget
  targets := fun _ hcall => absurd hcall List.not_mem_nil

/-- At every moment at most one plan is flagged, and the calls that failed have changed no flag,
    exactly as long as no flag is written beside another and no write fails after its own call has
    cleared one. -/
theorem oneDefault_throughout_iff (toUpper : String → String) (es : List PlanEvent) :
    Throughout (step toUpper) OneDefault init es ↔ Meets (step toUpper) Respects init es := by
  refine Machine.throughout_iff_meets (P := fun _ _ => True) (fun _ h => h.oneDefault)
    (fun _ _ _ h _ hG hstep => invariant_step h hG hstep)
    (fun _ _ _ h _ hstep h' => respects_of_oneDefault h hstep h') ?_ invariant_init
    (Machine.meets_of_mem fun _ _ => trivial)
  intro s e hnone
  cases e with
  | createPlan input => trivial
  | updatePlan id input => trivial
  | deletePlan id => trivial
  | operate i fails =>
    intro w changed hcall
    simp only [step, hcall] at hnone
    split at hnone
    · cases hnone
    · cases hnone

/-! ## A promotion that stops half way -/

/-- A default plan, and a second one whose insert fails. -/
def halfPromotion : List PlanEvent :=
  [.createPlan { name := some "Standard", isDefault := some true }, .operate 0 false,
    .operate 0 false, .createPlan { name := some "New", isDefault := some true },
    .operate 1 false, .operate 1 true]

/-- The old default is cleared and no plan takes its place, though the call returns an error. -/
theorem not_oneDefault_halfPromotion :
    ¬ Throughout (step String.toUpper) OneDefault init halfPromotion := by
  intro h
  have hrun : (Machine.run (step String.toUpper) init halfPromotion).map PlanService.calls =
      some [⟨.returned false, true⟩, ⟨.returned true, true⟩] := by
    decide +kernel
  obtain ⟨s, hs, hcalls⟩ := Option.map_eq_some_iff.mp hrun
  have hfailed : (⟨.returned true, true⟩ : PlanCall) ∈ s.calls := by
    rw [hcalls]
    exact List.mem_cons_of_mem _ List.mem_cons_self
  have hclean := (h.last hs).failed _ hfailed rfl
  cases hclean

end PlanService

end CallNet.Api
