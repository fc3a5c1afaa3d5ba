/-!
# Runs of guarded machines

A machine is a function `step : σ → ε → Option σ`: in state `s` the event `e`
either leads to one next state or cannot happen.  A run is a list of events.

Two ways of speaking about a run are connected here:

* `Meets G s es`: every event of the run satisfies the condition `G` in the state
  in which it happens.
* `Throughout I s es`: every state the run visits satisfies `I`.

`throughout_of_meets` is the induction that turns a step lemma into a run lemma;
`throughout_iff_meets` turns a step *characterisation* into a run
characterisation.
-/

namespace Machine

variable {σ : Type u} {ε : Type v} (step : σ → ε → Option σ)

/-- The state reached from `s` by the events of a list, if each of them can happen. -/
def run (s : σ) : List ε → Option σ
  | [] => some s
  | e :: es => (step s e).bind fun s' => run s' es

/-- Every event of the run satisfies `G` in the state in which it happens. -/
def Meets (G : σ → ε → Prop) (s : σ) : List ε → Prop
  | [] => True
  | e :: es => G s e ∧ match step s e with
    | some s' => Meets G s' es
    | none => True

/-- Every state the run visits, the first one included, satisfies `I`. -/
def Throughout (I : σ → Prop) (s : σ) : List ε → Prop
  | [] => I s
  | e :: es => I s ∧ match step s e with
    | some s' => Throughout I s' es
    | none => True

instance decidableMeets (G : σ → ε → Prop) [∀ s e, Decidable (G s e)] :
    ∀ (s : σ) (es : List ε), Decidable (Meets step G s es)
  | _, [] => isTrue trivial
  | s, e :: es =>
    match h : step s e with
    | none => decidable_of_iff (G s e) (by simp [Meets, h])
    | some s' =>
      have := decidableMeets G s' es
      decidable_of_iff (G s e ∧ Meets step G s' es) (by simp [Meets, h])

instance decidableThroughout (I : σ → Prop) [∀ s, Decidable (I s)] :
    ∀ (s : σ) (es : List ε), Decidable (Throughout step I s es)
  | s, [] => inferInstanceAs (Decidable (I s))
  | s, e :: es =>
    match h : step s e with
    | none => decidable_of_iff (I s) (by simp [Throughout, h])
    | some s' =>
      have := decidableThroughout I s' es
      decidable_of_iff (I s ∧ Throughout step I s' es) (by simp [Throughout, h])

variable {step}

theorem run_cons {s s' : σ} {e : ε} {es : List ε} :
    run step s (e :: es) = some s' ↔ ∃ t, step s e = some t ∧ run step t es = some s' := by
  simp only [run, Option.bind_eq_some_iff]

/-- What every step preserves, every run preserves. -/
theorem run_invariant {I : σ → Prop} (hstep : ∀ s e s', I s → step s e = some s' → I s')
    {s s' : σ} {es : List ε} (hs : I s) (h : run step s es = some s') : I s' := by
  induction es generalizing s with
  | nil => simp only [run, Option.some.injEq] at h; exact h ▸ hs
  | cons e es ih =>
    obtain ⟨t, ht, hrest⟩ := run_cons.mp h
    exact ih (hstep s e t hs ht) hrest

theorem meets_cons {G : σ → ε → Prop} {s : σ} {e : ε} {es : List ε} :
    Meets step G s (e :: es) ↔ G s e ∧ ∀ s', step s e = some s' → Meets step G s' es := by
  cases h : step s e <;> simp [Meets, h]

theorem throughout_cons {I : σ → Prop} {s : σ} {e : ε} {es : List ε} :
    Throughout step I s (e :: es) ↔ I s ∧ ∀ s', step s e = some s' → Throughout step I s' es := by
  cases h : step s e <;> simp [Throughout, h]

theorem Meets.and {G H : σ → ε → Prop} {s : σ} {es : List ε} (hG : Meets step G s es)
    (hH : Meets step H s es) : Meets step (fun s e => G s e ∧ H s e) s es := by
  induction es generalizing s with
  | nil => trivial
  | cons e es ih =>
    rw [meets_cons] at hG hH ⊢
    exact ⟨⟨hG.1, hH.1⟩, fun s' hs' => ih (hG.2 s' hs') (hH.2 s' hs')⟩

/-- A condition on the events alone. -/
theorem meets_of_mem {H : ε → Prop} {s : σ} {es : List ε} (h : ∀ e ∈ es, H e) :
    Meets step (fun _ e => H e) s es := by
  induction es generalizing s with
  | nil => trivial
  | cons e es ih =>
    refine meets_cons.mpr ⟨h e List.mem_cons_self, fun s' _ => ?_⟩
    exact ih fun e he => h e (List.mem_cons_of_mem _ he)

theorem Throughout.mono {I I' : σ → Prop} (himp : ∀ s, I s → I' s)
    {s : σ} {es : List ε} (h : Throughout step I s es) : Throughout step I' s es := by
  induction es generalizing s with
  | nil => exact himp s h
  | cons e es ih =>
    rw [throughout_cons] at h ⊢
    exact ⟨himp s h.1, fun s' hs' => ih (h.2 s' hs')⟩

theorem Throughout.head {I : σ → Prop} {s : σ} {es : List ε}
    (h : Throughout step I s es) : I s := by
  cases es with
  | nil => exact h
  | cons e es => exact h.1

theorem Throughout.last {I : σ → Prop} {s s' : σ} {es : List ε}
    (h : Throughout step I s es) (hr : run step s es = some s') : I s' := by
  induction es generalizing s with
  | nil => simp only [run, Option.some.injEq] at hr; exact hr ▸ h
  | cons e es ih =>
    obtain ⟨t, ht, hrest⟩ := run_cons.mp hr
    exact ih ((throughout_cons.mp h).2 t ht) hrest

/-- The step lemma of an invariant, under the condition `G`, gives the run lemma. -/
theorem throughout_of_meets {I : σ → Prop} {G : σ → ε → Prop}
    (hstep : ∀ s e s', I s → G s e → step s e = some s' → I s')
    {s : σ} {es : List ε} (hs : I s) (hG : Meets step G s es) :
    Throughout step I s es := by
  induction es generalizing s with
  | nil => exact hs
  | cons e es ih =>
    obtain ⟨he, hnext⟩ := meets_cons.mp hG
    refine throughout_cons.mpr ⟨hs, fun s' hs' => ?_⟩
    exact ih (hstep s e s' hs he hs') (hnext s' hs')

/-- What an invariant gives for every event that meets `P` holds along every run that
    meets `P`. -/
theorem Meets.of_invariant {I : σ → Prop} {P G : σ → ε → Prop}
    (hstep : ∀ s e s', I s → P s e → step s e = some s' → I s')
    (hG : ∀ s e, I s → P s e → G s e)
    {s : σ} {es : List ε} (hs : I s) (hP : Meets step P s es) : Meets step G s es := by
  induction es generalizing s with
  | nil => trivial
  | cons e es ih =>
    obtain ⟨he, hnext⟩ := meets_cons.mp hP
    refine meets_cons.mpr ⟨hG s e hs he, fun s' hs' => ?_⟩
    exact ih (hstep s e s' hs he hs') (hnext s' hs')

/-- What every step preserves holds in every state a run visits. -/
theorem throughout_of_invariant {I : σ → Prop}
    (hstep : ∀ s e s', I s → step s e = some s' → I s')
    {s : σ} {es : List ε} (hs : I s) : Throughout step I s es :=
  throughout_of_meets (fun s e s' h _ => hstep s e s' h) hs
    (meets_of_mem (H := fun _ => True) fun _ _ => trivial)

/-- What a run cannot get back holds throughout if it holds at the end. -/
theorem throughout_iff_last {I : σ → Prop}
    (hback : ∀ s e s', step s e = some s' → I s' → I s)
    {s s' : σ} {es : List ε} (hr : run step s es = some s') : Throughout step I s es ↔ I s' := by
  refine ⟨fun h => h.last hr, fun h => ?_⟩
  induction es generalizing s with
  | nil =>
    simp only [run, Option.some.injEq] at hr
    exact hr ▸ h
  | cons e es ih =>
    obtain ⟨t, ht, hrest⟩ := run_cons.mp hr
    have hlater := ih hrest
    exact ⟨hback s e t ht hlater.head, by simpa only [ht] using hlater⟩

/-- When `G` is exactly what a step needs to stay inside `I`, a run whose events
    respect the protocol `P` stays inside `Q` exactly when all its events meet `G`.
    `I` is the inductive strengthening of the property `Q` of interest; an event that
    cannot happen meets `G`. -/
theorem throughout_iff_meets {I Q : σ → Prop} {P G : σ → ε → Prop}
    (hIQ : ∀ s, I s → Q s)
    (hkeep : ∀ s e s', I s → P s e → G s e → step s e = some s' → I s')
    (hneed : ∀ s e s', I s → P s e → step s e = some s' → Q s' → G s e)
    (hnone : ∀ s e, step s e = none → G s e)
    {s : σ} {es : List ε} (hs : I s) (hP : Meets step P s es) :
    Throughout step Q s es ↔ Meets step G s es := by
  induction es generalizing s with
  | nil => exact ⟨fun _ => trivial, fun _ => hIQ s hs⟩
  | cons e es ih =>
    cases hs' : step s e with
    | none =>
      simp only [Throughout, Meets, hs', and_true]
      exact ⟨fun _ => hnone s e hs', fun _ => hIQ s hs⟩
    | some s' =>
      simp only [Throughout, Meets, hs'] at hP ⊢
      constructor
      · rintro ⟨_, ht⟩
        have hG := hneed s e s' hs hP.1 hs' ht.head
        exact ⟨hG, (ih (hkeep s e s' hs hP.1 hG hs') hP.2).mp ht⟩
      · rintro ⟨hG, hm⟩
        exact ⟨hIQ s hs, (ih (hkeep s e s' hs hP.1 hG hs') hP.2).mpr hm⟩

end Machine
