/-!
# Programs over a signature of operations

`Prog S ε α` is a program that performs operations of the signature `S`, may raise
an exception of type `ε`, and returns an `α`.  What an operation does and what it
answers is left to the environment, so one program can be run against a database,
against a scheduler that interleaves it with others, or against any environment
that meets an assumption.

`Safe P T Q p s` is the rule of preconditions: started in the ghost state `s`, the
program only performs operations that `P` allows, whatever the environment answers
within `T`, and it ends in `Q`.  `Triple` is that rule with the history of operations
and answers as the ghost state, and `Only` the special case of operations that are
harmless in every history.  `interp` carries out the operations by programs over another
signature, so that one program can be read at two levels.
-/

/-- The operations a program may perform, each with the type of its answer. -/
structure Signature where
  Op : Type
  Ret : Op → Type

/-- A program: finished, failed, or about to perform an operation. -/
inductive Prog (S : Signature) (ε α : Type) where
  | pure (a : α)
  | throw (e : ε)
  | op (o : S.Op) (k : S.Ret o → Prog S ε α)

namespace Prog

variable {S : Signature} {ε α β : Type}

/-- Run `f` on the value of a program. -/
def bind : Prog S ε α → (α → Prog S ε β) → Prog S ε β
  | .pure a, f => f a
  | .throw e, _ => .throw e
  | .op o k, f => .op o fun x => (k x).bind f

/-- Run `h` on the exception of a program. -/
def tryCatch : Prog S ε α → (ε → Prog S ε α) → Prog S ε α
  | .pure a, _ => .pure a
  | .throw e, h => h e
  | .op o k, h => .op o fun x => (k x).tryCatch h

/-- Perform one operation and return its answer. -/
def perform (o : S.Op) : Prog S ε (S.Ret o) := .op o .pure

instance : Monad (Prog S ε) where
  pure := .pure
  bind := bind

@[simp] theorem bind_eq (p : Prog S ε α) (f : α → Prog S ε β) : p >>= f = p.bind f := rfl

@[simp] theorem pure_eq (a : α) : (Pure.pure a : Prog S ε α) = .pure a := rfl

theorem bind_assoc {γ : Type} (p : Prog S ε α) (f : α → Prog S ε β) (g : β → Prog S ε γ) :
    (p.bind f).bind g = p.bind fun a => (f a).bind g := by
  induction p with
  | pure a => rfl
  | throw e => rfl
  | op o k ih =>
    simp only [bind]
    congr 1
    funext x
    exact ih x

/-- The program never fails. -/
def Total : Prog S ε α → Prop
  | .pure _ => True
  | .throw _ => False
  | .op _ k => ∀ x, (k x).Total

theorem total_bind {p : Prog S ε α} {f : α → Prog S ε β} (hp : p.Total) (hf : ∀ a, (f a).Total) :
    (p.bind f).Total := by
  induction p with
  | pure a => exact hf a
  | throw e => exact hp
  | op o k ih => exact fun x => ih x (hp x)

/-- An exception handler around a program that begins with one that never fails. -/
theorem Total.tryCatch_bind {p : Prog S ε α} (hp : p.Total) (f : α → Prog S ε β)
    (h : ε → Prog S ε β) : (p.bind f).tryCatch h = p.bind fun a => (f a).tryCatch h := by
  induction p with
  | pure a => rfl
  | throw e => exact hp.elim
  | op o k ih =>
    simp only [bind, tryCatch]
    congr 1
    funext x
    exact ih x (hp x)

/-! ## Safety under an assumption on the environment -/

section Safe

variable {σ : Type} (P : σ → S.Op → Prop) (T : σ → (o : S.Op) → S.Ret o → σ → Prop)

/-- Started in `s`, the program performs only operations allowed by `P` and ends in
    `Q`, as long as every answer is one that `T` permits. -/
def Safe (Q : σ → Except ε α → Prop) : Prog S ε α → σ → Prop
  | .pure a, s => Q s (.ok a)
  | .throw e, s => Q s (.error e)
  | .op o k, s => P s o ∧ ∀ x s', T s o x s' → Safe Q (k x) s'

variable {P T}

theorem Safe.mono {Q Q' : σ → Except ε α → Prop} (himp : ∀ s r, Q s r → Q' s r)
    {p : Prog S ε α} {s : σ} (h : Safe P T Q p s) : Safe P T Q' p s := by
  induction p generalizing s with
  | pure a => exact himp s _ h
  | throw e => exact himp s _ h
  | op o k ih => exact ⟨h.1, fun x s' hx => ih x (h.2 x s' hx)⟩

/-- The sequencing rule. -/
theorem safe_bind {Q : σ → Except ε β → Prop} {p : Prog S ε α} {f : α → Prog S ε β} {s : σ} :
    Safe P T Q (p.bind f) s ↔
      Safe P T (fun s r => match r with
        | .ok a => Safe P T Q (f a) s
        | .error e => Q s (.error e)) p s := by
  induction p generalizing s with
  | pure a => rfl
  | throw e => rfl
  | op o k ih => simp only [bind, Safe, ih]

/-- The rule of exception handlers. -/
theorem safe_tryCatch {Q : σ → Except ε α → Prop} {p : Prog S ε α} {h : ε → Prog S ε α} {s : σ} :
    Safe P T Q (p.tryCatch h) s ↔
      Safe P T (fun s r => match r with
        | .ok a => Q s (.ok a)
        | .error e => Safe P T Q (h e) s) p s := by
  induction p generalizing s with
  | pure a => rfl
  | throw e => rfl
  | op o k ih => simp only [tryCatch, Safe, ih]

end Safe

/-! ## Histories -/

/-- An operation with its answer. -/
abbrev Event (S : Signature) := (o : S.Op) × S.Ret o

/-- The operations a program performs, with their answers, when `env` answers each one
    knowing everything that happened before. -/
def trace (env : List (Event S) → (o : S.Op) → S.Ret o) :
    List (Event S) → Prog S ε α → List (Event S)
  | _, .pure _ => []
  | _, .throw _ => []
  | h, .op o k => ⟨o, env h o⟩ :: trace env (h ++ [⟨o, env h o⟩]) (k (env h o))

/-- The answers in a trace are the environment's. -/
theorem mem_trace {env : List (Event S) → (o : S.Op) → S.Ret o} {h : List (Event S)}
    {p : Prog S ε α} {e : Event S} (he : e ∈ trace env h p) : ∃ h', e.2 = env h' e.1 := by
  induction p generalizing h with
  | pure a => cases he
  | throw a => cases he
  | op o k ih =>
    rcases List.mem_cons.mp he with rfl | he
    · exact ⟨h, rfl⟩
    · exact ih _ he

/-- The ghost state that records the history. -/
def Recorded (h : List (Event S)) (o : S.Op) (x : S.Ret o) (h' : List (Event S)) : Prop :=
  h' = h ++ [⟨o, x⟩]

/-- Started with a history in `Pre`, the program performs only operations that `P` allows
    in the history so far, and ends with one in `Post`. -/
def Triple (P : List (Event S) → S.Op → Prop) (Pre : List (Event S) → Prop) (p : Prog S ε α)
    (Post : Except ε α → List (Event S) → Prop) : Prop :=
  ∀ h, Pre h → Safe P Recorded (fun h' r => Post r h') p h

section Triple

variable {P : List (Event S) → S.Op → Prop} {Pre : List (Event S) → Prop}

theorem triple_pure {a : α} {Post : Except ε α → List (Event S) → Prop}
    (h : ∀ hist, Pre hist → Post (.ok a) hist) : Triple P Pre (.pure a) Post := h

theorem triple_throw {e : ε} {Post : Except ε α → List (Event S) → Prop}
    (h : ∀ hist, Pre hist → Post (.error e) hist) : Triple P Pre (.throw e) Post := h

theorem triple_perform {o : S.Op} {Post : Except ε (S.Ret o) → List (Event S) → Prop}
    (hP : ∀ h, Pre h → P h o) (h : ∀ hist x, Pre hist → Post (.ok x) (hist ++ [⟨o, x⟩])) :
    Triple P Pre (perform o) Post := by
  intro hist hpre
  refine ⟨hP hist hpre, ?_⟩
  rintro x _ rfl
  exact h hist x hpre

theorem triple_bind {p : Prog S ε α} {f : α → Prog S ε β}
    {Q : Except ε α → List (Event S) → Prop} {Post : Except ε β → List (Event S) → Prop}
    (hp : Triple P Pre p Q) (hf : ∀ a, Triple P (Q (.ok a)) (f a) Post)
    (he : ∀ e h, Q (.error e) h → Post (.error e) h) : Triple P Pre (p.bind f) Post := by
  intro h hpre
  refine safe_bind.mpr ((hp h hpre).mono fun h' r hr => ?_)
  cases r with
  | ok a => exact hf a h' hr
  | error e => exact he e h' hr

theorem triple_tryCatch {p : Prog S ε α} {f : ε → Prog S ε α}
    {Q Post : Except ε α → List (Event S) → Prop} (hp : Triple P Pre p Q)
    (ho : ∀ a h, Q (.ok a) h → Post (.ok a) h)
    (hf : ∀ e, Triple P (Q (.error e)) (f e) Post) : Triple P Pre (p.tryCatch f) Post := by
  intro h hpre
  refine safe_tryCatch.mpr ((hp h hpre).mono fun h' r hr => ?_)
  cases r with
  | ok a => exact ho a h' hr
  | error e => exact hf e h' hr

/-- The frame rule: what no operation can undo still holds at the end. -/
theorem Triple.frame {F : List (Event S) → Prop} {p : Prog S ε α}
    {Post : Except ε α → List (Event S) → Prop} (hF : ∀ h e, F h → F (h ++ [e]))
    (hp : Triple P Pre p Post) :
    Triple P (fun h => Pre h ∧ F h) p fun r h => Post r h ∧ F h := by
  intro h hh
  have hsafe := hp h hh.1
  have hframe := hh.2
  clear hp hh
  induction p generalizing h with
  | pure a => exact ⟨hsafe, hframe⟩
  | throw e => exact ⟨hsafe, hframe⟩
  | op o k ih =>
    refine ⟨hsafe.1, ?_⟩
    rintro x _ rfl
    exact ih x _ (hsafe.2 x _ rfl) (hF h _ hframe)

/-- The policy may be weakened where something holds that no operation can undo. -/
theorem Triple.allow {P' : List (Event S) → S.Op → Prop} {F : List (Event S) → Prop}
    {p : Prog S ε α} {Post : Except ε α → List (Event S) → Prop} (hF : ∀ h e, F h → F (h ++ [e]))
    (hpre : ∀ h, Pre h → F h) (hP : ∀ h o, F h → P h o → P' h o) (hp : Triple P Pre p Post) :
    Triple P' Pre p Post := by
  intro h hh
  have hsafe := hp h hh
  have hframe := hpre h hh
  clear hp hh
  induction p generalizing h with
  | pure a => exact hsafe
  | throw e => exact hsafe
  | op o k ih =>
    refine ⟨hP h o hframe hsafe.1, ?_⟩
    rintro x _ rfl
    exact ih x _ (hsafe.2 x _ rfl) (hF h _ hframe)

/-- The rule of consequence. -/
theorem Triple.conseq {p : Prog S ε α} {Pre' : List (Event S) → Prop}
    {Post Post' : Except ε α → List (Event S) → Prop} (hp : Triple P Pre p Post)
    (hpre : ∀ h, Pre' h → Pre h) (hpost : ∀ r h, Post r h → Post' r h) : Triple P Pre' p Post' :=
  fun h h' => (hp h (hpre h h')).mono fun h'' r hr => hpost r h'' hr

end Triple

/-! ## Programs of harmless operations -/

/-- Every operation the program can perform satisfies `Q`. -/
def Only (Q : S.Op → Prop) : Prog S ε α → Prop
  | .pure _ => True
  | .throw _ => True
  | .op o k => Q o ∧ ∀ x, Only Q (k x)

section Only

variable {Q : S.Op → Prop}

theorem only_perform {o : S.Op} (h : Q o) : Only Q (perform o : Prog S ε (S.Ret o)) :=
  ⟨h, fun _ => trivial⟩

theorem only_bind {p : Prog S ε α} {f : α → Prog S ε β} (hp : Only Q p)
    (hf : ∀ a, Only Q (f a)) : Only Q (p.bind f) := by
  induction p with
  | pure a => exact hf a
  | throw e => trivial
  | op o k ih => exact ⟨hp.1, fun x => ih x (hp.2 x)⟩

theorem only_tryCatch {p : Prog S ε α} {f : ε → Prog S ε α} (hp : Only Q p)
    (hf : ∀ e, Only Q (f e)) : Only Q (p.tryCatch f) := by
  induction p with
  | pure a => trivial
  | throw e => exact hf e
  | op o k ih => exact ⟨hp.1, fun x => ih x (hp.2 x)⟩

theorem Only.mono {Q' : S.Op → Prop} {p : Prog S ε α} (hp : Only Q p) (h : ∀ o, Q o → Q' o) :
    Only Q' p := by
  induction p with
  | pure a => trivial
  | throw e => trivial
  | op o k ih => exact ⟨h o hp.1, fun x => ih x (hp.2 x)⟩

theorem Only.and {Q' : S.Op → Prop} {p : Prog S ε α} (hp : Only Q p) (hp' : Only Q' p) :
    Only (fun o => Q o ∧ Q' o) p := by
  induction p with
  | pure a => trivial
  | throw e => trivial
  | op o k ih => exact ⟨⟨hp.1, hp'.1⟩, fun x => ih x (hp.2 x) (hp'.2 x)⟩

/-- A program of operations that are allowed where `I` holds and keep `I` keeps `I`. -/
theorem Only.triple {P : List (Event S) → S.Op → Prop} {I : List (Event S) → Prop}
    (hP : ∀ h o, I h → Q o → P h o) (hI : ∀ h o x, I h → Q o → I (h ++ [⟨o, x⟩]))
    {p : Prog S ε α} (hp : Only Q p) : Triple P I p fun _ => I := by
  intro h hh
  induction p generalizing h with
  | pure a => exact hh
  | throw e => exact hh
  | op o k ih =>
    refine ⟨hP h o hh hp.1, ?_⟩
    rintro x _ rfl
    exact ih x (hp.2 x) _ (hI h o x hh hp.1)

end Only

/-! ## Runs -/

/-- A run of a program: what it performed, with the answers it got, and how it ended. -/
inductive Run : Prog S ε α → List (Event S) → Except ε α → Prop
  | pure (a : α) : Run (.pure a) [] (.ok a)
  | throw (e : ε) : Run (.throw e) [] (.error e)
  | op {o : S.Op} {k : S.Ret o → Prog S ε α} {t : List (Event S)} {r : Except ε α} (x : S.Ret o)
      (rest : Run (k x) t r) : Run (.op o k) (⟨o, x⟩ :: t) r

section Run

variable {t u : List (Event S)} {a : α} {e : ε}

theorem run_perform_iff {o : S.Op} {r : Except ε (S.Ret o)} :
    Run (perform o) t r ↔ ∃ x, t = [⟨o, x⟩] ∧ r = .ok x := by
  constructor
  · intro h
    cases h with
    | op x rest =>
      cases rest
      exact ⟨x, rfl, rfl⟩
  · rintro ⟨x, rfl, rfl⟩
    exact .op x (.pure x)

theorem Run.bind {p : Prog S ε α} {f : α → Prog S ε β} {r : Except ε β} (hp : Run p t (.ok a))
    (hf : Run (f a) u r) : Run (p.bind f) (t ++ u) r := by
  induction p generalizing t with
  | pure b => cases hp; exact hf
  | throw e => cases hp
  | op o k ih =>
    cases hp with
    | op x rest => exact .op x (ih x rest)

theorem Run.bind_throw {p : Prog S ε α} {f : α → Prog S ε β} (hp : Run p t (.error e)) :
    Run (p.bind f) t (.error e) := by
  induction p generalizing t with
  | pure b => cases hp
  | throw e => cases hp; exact .throw e
  | op o k ih =>
    cases hp with
    | op x rest => exact .op x (ih x rest)

/-- After a run of the first part, a sequence goes on with the second one. -/
theorem run_bind_of_run {p : Prog S ε α} {f : α → Prog S ε β} {r : Except ε β}
    (hp : Run p t (.ok a)) : Run (p.bind f) (t ++ u) r ↔ Run (f a) u r := by
  induction p generalizing t with
  | pure b =>
    cases hp
    exact Iff.rfl
  | throw e => cases hp
  | op o k ih =>
    cases hp with
    | op x rest =>
      constructor
      · intro h
        cases h with
        | op _ rest' => exact (ih x rest).mp rest'
      · intro h
        exact .op x ((ih x rest).mpr h)

/-- A run of a sequence is a run of each part, unless the first one fails. -/
theorem run_bind_iff {p : Prog S ε α} {f : α → Prog S ε β} {r : Except ε β} :
    Run (p.bind f) t r ↔
      (∃ a u v, t = u ++ v ∧ Run p u (.ok a) ∧ Run (f a) v r) ∨
        ∃ e, Run p t (.error e) ∧ r = .error e := by
  constructor
  · intro h
    induction p generalizing t with
    | pure a => exact .inl ⟨a, [], t, rfl, .pure a, h⟩
    | throw e => cases h; exact .inr ⟨e, .throw e, rfl⟩
    | op o k ih =>
      cases h with
      | op x rest =>
        rcases ih x rest with ⟨a, u, v, rfl, hu, hv⟩ | ⟨e, hu, hr⟩
        · exact .inl ⟨a, ⟨o, x⟩ :: u, v, rfl, .op x hu, hv⟩
        · exact .inr ⟨e, .op x hu, hr⟩
  · rintro (⟨a, u, v, rfl, hu, hv⟩ | ⟨e, hu, rfl⟩)
    · exact hu.bind hv
    · exact hu.bind_throw

theorem Run.tryCatch {p : Prog S ε α} {f : ε → Prog S ε α} (hp : Run p t (.ok a)) :
    Run (p.tryCatch f) t (.ok a) := by
  induction p generalizing t with
  | pure b => exact hp
  | throw e => cases hp
  | op o k ih =>
    cases hp with
    | op x rest => exact .op x (ih x rest)

theorem Run.tryCatch_throw {p : Prog S ε α} {f : ε → Prog S ε α} {r : Except ε α}
    (hp : Run p t (.error e)) (hf : Run (f e) u r) : Run (p.tryCatch f) (t ++ u) r := by
  induction p generalizing t with
  | pure b => cases hp
  | throw e => cases hp; exact hf
  | op o k ih =>
    cases hp with
    | op x rest => exact .op x (ih x rest)

/-- A run with an exception handler is one that did not need it, or one that failed and
    then one of the handler. -/
theorem run_tryCatch_iff {p : Prog S ε α} {f : ε → Prog S ε α} {r : Except ε α} :
    Run (p.tryCatch f) t r ↔
      (∃ a, Run p t (.ok a) ∧ r = .ok a) ∨
        ∃ e u v, t = u ++ v ∧ Run p u (.error e) ∧ Run (f e) v r := by
  constructor
  · intro h
    induction p generalizing t with
    | pure a => cases h; exact .inl ⟨a, .pure a, rfl⟩
    | throw e => exact .inr ⟨e, [], t, rfl, .throw e, h⟩
    | op o k ih =>
      cases h with
      | op x rest =>
        rcases ih x rest with ⟨a, hu, hr⟩ | ⟨e, u, v, rfl, hu, hv⟩
        · exact .inl ⟨a, .op x hu, hr⟩
        · exact .inr ⟨e, ⟨o, x⟩ :: u, v, rfl, .op x hu, hv⟩
  · rintro (⟨a, hu, rfl⟩ | ⟨e, u, v, rfl, hu, hv⟩)
    · exact hu.tryCatch
    · exact hu.tryCatch_throw hv

theorem Total.run {p : Prog S ε α} (hp : p.Total) (hr : Run p t (.error e)) : False := by
  induction p generalizing t with
  | pure a => cases hr
  | throw e => exact hp
  | op o k ih =>
    cases hr with
    | op x rest => exact ih x (hp x) rest

/-- Whatever the environment, the trace of a program is one of its runs. -/
theorem run_trace (env : List (Event S) → (o : S.Op) → S.Ret o) (h : List (Event S))
    (p : Prog S ε α) : ∃ r, Run p (trace env h p) r := by
  induction p generalizing h with
  | pure a => exact ⟨.ok a, .pure a⟩
  | throw e => exact ⟨.error e, .throw e⟩
  | op o k ih =>
    obtain ⟨r, hr⟩ := ih (env h o) (h ++ [⟨o, env h o⟩])
    exact ⟨r, .op _ hr⟩

/-- What a safe program performs is allowed in each of its runs, and they end well. -/
theorem Safe.run {P : List (Event S) → S.Op → Prop} {Q : List (Event S) → Except ε α → Prop}
    {p : Prog S ε α} {h : List (Event S)} {r : Except ε α} (hs : Safe P Recorded Q p h)
    (hr : Run p t r) :
    (∀ pre e post, t = pre ++ e :: post → P (h ++ pre) e.1) ∧ Q (h ++ t) r := by
  have hnone : ∀ h pre (e : Event S) post, [] = pre ++ e :: post → P (h ++ pre) e.1 := by
    intro h pre e post ht
    cases pre <;> cases ht
  induction hr generalizing h with
  | pure a => exact ⟨hnone h, by rwa [List.append_nil]⟩
  | throw e => exact ⟨hnone h, by rwa [List.append_nil]⟩
  | @op o k t r x rest ih =>
    obtain ⟨hpre, hpost⟩ := ih (hs.2 x _ rfl)
    rw [List.append_assoc, List.singleton_append] at hpost
    refine ⟨fun pre e post ht => ?_, hpost⟩
    cases pre with
    | nil =>
      rw [List.nil_append, List.cons.injEq] at ht
      rw [← ht.1, List.append_nil]
      exact hs.1
    | cons e' pre =>
      rw [List.cons_append, List.cons.injEq] at ht
      have := hpre pre e post ht.2
      rw [← ht.1]
      simpa only [List.append_assoc, List.singleton_append] using this

/-- What a safe program performs is allowed, whatever the environment answers. -/
theorem Safe.allowed {P : List (Event S) → S.Op → Prop} {Q : List (Event S) → Except ε α → Prop}
    {p : Prog S ε α} {h : List (Event S)} (hs : Safe P Recorded Q p h)
    {env : List (Event S) → (o : S.Op) → S.Ret o} {pre post : List (Event S)} {e : Event S}
    (ht : trace env h p = pre ++ e :: post) : P (h ++ pre) e.1 := by
  obtain ⟨r, hr⟩ := run_trace env h p
  exact (hs.run hr).1 pre e post ht

/-- Every operation of a run is one that the program can perform. -/
theorem Only.run {Q : S.Op → Prop} {p : Prog S ε α} {r : Except ε α} (hp : Only Q p)
    (hr : Run p t r) {e : Event S} (he : e ∈ t) : Q e.1 := by
  induction hr with
  | pure a => cases he
  | throw e => cases he
  | op x rest ih =>
    rcases List.mem_cons.mp he with rfl | he
    · exact hp.1
    · exact ih (hp.2 x) he

end Run

/-! ## Interpretation -/

section Interp

variable {S' : Signature} {ε' : Type}

theorem bind_pure (p : Prog S ε α) : p.bind .pure = p := by
  induction p with
  | pure a => rfl
  | throw e => rfl
  | op o k ih =>
    simp only [bind]
    congr 1
    funext x
    exact ih x

/-- The value of an `Except`, or its exception thrown. -/
def ofExcept : Except ε α → Prog S ε α
  | .ok a => .pure a
  | .error e => .throw e

/-- How a program ends, as a value. -/
def attempt : Prog S ε α → Prog S ε' (Except ε α)
  | .pure a => .pure (.ok a)
  | .throw e => .pure (.error e)
  | .op o k => .op o fun x => (k x).attempt

theorem attempt_total (p : Prog S ε α) : (p.attempt : Prog S ε' (Except ε α)).Total := by
  induction p with
  | pure a => trivial
  | throw e => trivial
  | op o k ih => exact ih

theorem attempt_bind_ofExcept (p : Prog S ε α) : p.attempt.bind ofExcept = p := by
  induction p with
  | pure a => rfl
  | throw e => rfl
  | op o k ih =>
    simp only [attempt, bind]
    congr 1
    funext x
    exact ih x

theorem Total.tryCatch {p : Prog S ε α} (hp : p.Total) (h : ε → Prog S ε α) :
    p.tryCatch h = p := by
  induction p with
  | pure a => rfl
  | throw e => exact hp.elim
  | op o k ih =>
    simp only [Prog.tryCatch]
    congr 1
    funext x
    exact ih x (hp x)

/-- A handler that covers a whole sequence, when what follows the first part never fails. -/
theorem tryCatch_bind {p : Prog S ε α} {f : α → Prog S ε β} {h : ε → Prog S ε β}
    (hf : ∀ a, (f a).Total) :
    (p.bind f).tryCatch h = p.attempt.bind fun r => match r with
      | .ok a => f a
      | .error e => h e := by
  induction p with
  | pure a => exact (hf a).tryCatch h
  | throw e => rfl
  | op o k ih =>
    simp only [attempt, bind, tryCatch]
    congr 1
    funext x
    exact ih x

/-- Carry out every operation of a program by a program over another signature. -/
def interp (I : ∀ o, Prog S' ε (S.Ret o)) : Prog S ε α → Prog S' ε α
  | .pure a => .pure a
  | .throw e => .throw e
  | .op o k => (I o).bind fun x => (k x).interp I

variable {I : ∀ o, Prog S' ε (S.Ret o)}

theorem interp_perform (o : S.Op) : (perform o : Prog S ε (S.Ret o)).interp I = I o :=
  bind_pure (I o)

theorem interp_ofExcept (r : Except ε α) :
    (ofExcept r : Prog S ε α).interp I = ofExcept r := by
  cases r <;> rfl

theorem interp_bind (p : Prog S ε α) (f : α → Prog S ε β) :
    (p.bind f).interp I = (p.interp I).bind fun a => (f a).interp I := by
  induction p with
  | pure a => rfl
  | throw e => rfl
  | op o k ih =>
    simp only [bind, interp, bind_assoc]
    congr 1
    funext x
    exact ih x

/-- The events of the interpretation that carried out the operations of a run. -/
inductive CarriedOut (I : ∀ o, Prog S' ε (S.Ret o)) :
    List (Event S) → List (Event S') → Prop
  | nil : CarriedOut I [] []
  | cons {o : S.Op} {x : S.Ret o} {t : List (Event S)} {u v : List (Event S')}
      (first : Run (I o) u (.ok x)) (rest : CarriedOut I t v) :
      CarriedOut I (⟨o, x⟩ :: t) (u ++ v)

/-- When no operation fails, a run of the interpreted program is a run of the program, each
    operation carried out. -/
theorem run_interp_iff (hI : ∀ o, (I o).Total) {p : Prog S ε α} {v : List (Event S')}
    {r : Except ε α} : Run (p.interp I) v r ↔ ∃ t, Run p t r ∧ CarriedOut I t v := by
  constructor
  · intro h
    induction p generalizing v with
    | pure a =>
      cases h
      exact ⟨[], .pure a, .nil⟩
    | throw e =>
      cases h
      exact ⟨[], .throw e, .nil⟩
    | op o k ih =>
      rcases run_bind_iff.mp h with ⟨x, u, w, rfl, hu, hw⟩ | ⟨e, hu, -⟩
      · obtain ⟨t, ht, hout⟩ := ih x hw
        exact ⟨⟨o, x⟩ :: t, .op x ht, .cons hu hout⟩
      · exact ((hI o).run hu).elim
  · rintro ⟨t, hrun, hout⟩
    induction hrun generalizing v with
    | pure a =>
      cases hout
      exact .pure a
    | throw e =>
      cases hout
      exact .throw e
    | op x rest ih =>
      cases hout with
      | cons first hrest => exact first.bind (ih hrest)

end Interp

/-! ## Contracts -/

/-- Started with a history in `Pre`, the program performs only operations that `P` allows in
    the history so far, and when it returns `a` the history is in `Post a`. -/
structure Contract (P : List (Event S) → S.Op → Prop) (Pre : List (Event S) → Prop)
    (p : Prog S ε α) (Post : α → List (Event S) → Prop) : Prop where
  triple : Triple P Pre p fun r h => ∀ a, r = .ok a → Post a h

section Contract

variable {P : List (Event S) → S.Op → Prop} {Pre : List (Event S) → Prop}

theorem contract_pure {a : α} {Post : α → List (Event S) → Prop}
    (h : ∀ hist, Pre hist → Post a hist) : Contract P Pre (.pure a : Prog S ε α) Post := by
  refine ⟨triple_pure fun hist hpre b hb => ?_⟩
  cases hb
  exact h hist hpre

theorem contract_throw {e : ε} {Post : α → List (Event S) → Prop} :
    Contract P Pre (.throw e : Prog S ε α) Post := ⟨triple_throw fun _ _ _ => nofun⟩

theorem contract_perform {o : S.Op} {Post : S.Ret o → List (Event S) → Prop}
    (hP : ∀ h, Pre h → P h o) (h : ∀ hist x, Pre hist → Post x (hist ++ [⟨o, x⟩])) :
    Contract P Pre (perform o : Prog S ε (S.Ret o)) Post := by
  refine ⟨triple_perform hP fun hist x hpre y hy => ?_⟩
  cases hy
  exact h hist x hpre

theorem Contract.bind {p : Prog S ε α} {f : α → Prog S ε β} {Q : α → List (Event S) → Prop}
    {Post : β → List (Event S) → Prop} (hp : Contract P Pre p Q)
    (hf : ∀ a, Contract P (Q a) (f a) Post) : Contract P Pre (p.bind f) Post := by
  refine ⟨triple_bind hp.triple (fun a => ?_) fun e h _ b hb => nomatch hb⟩
  exact (hf a).triple.conseq (fun h hh => hh a rfl) fun _ _ hr => hr

theorem Contract.conseq {p : Prog S ε α} {Pre' : List (Event S) → Prop}
    {Post Post' : α → List (Event S) → Prop} (hp : Contract P Pre p Post)
    (hpre : ∀ h, Pre' h → Pre h) (hpost : ∀ a h, Post a h → Post' a h) :
    Contract P Pre' p Post' :=
  ⟨hp.triple.conseq hpre fun _ h hr a ha => hpost a h (hr a ha)⟩

theorem contract_ite {c : Prop} [Decidable c] {p q : Prog S ε α}
    {Post : α → List (Event S) → Prop} (hp : c → Contract P Pre p Post)
    (hq : ¬ c → Contract P Pre q Post) : Contract P Pre (if c then p else q) Post := by
  split
  · exact hp ‹c›
  · exact hq ‹¬ c›

/-- The handler of an exception starts where what no operation can undo holds. -/
theorem Contract.tryCatch {F : List (Event S) → Prop} {p : Prog S ε α} {f : ε → Prog S ε α}
    {Post : α → List (Event S) → Prop} (hF : ∀ h e, F h → F (h ++ [e])) (hpre : ∀ h, Pre h → F h)
    (hp : Contract P Pre p Post) (hf : ∀ e, Contract P F (f e) Post) :
    Contract P Pre (p.tryCatch f) Post := by
  have hframe := hp.triple.frame hF
  refine ⟨triple_tryCatch (hframe.conseq (fun h hh => ⟨hh, hpre h hh⟩) fun _ _ hr => hr)
    (fun a h hr => hr.1) fun e => ?_⟩
  exact (hf e).triple.conseq (fun _ hr => hr.2) fun _ _ hr => hr

/-- A program of operations that are allowed where `Pre` holds and keep it. -/
theorem Only.contract {Q : S.Op → Prop} {p : Prog S ε α} (hp : Only Q p)
    (hP : ∀ h o, Pre h → Q o → P h o) (hI : ∀ h o x, Pre h → Q o → Pre (h ++ [⟨o, x⟩])) :
    Contract P Pre p fun _ => Pre :=
  ⟨(hp.triple hP hI).conseq (fun _ hh => hh) fun _ _ hh _ _ => hh⟩

/-- What a contract says of a run. -/
theorem Contract.run {p : Prog S ε α} {Post : α → List (Event S) → Prop} {h t : List (Event S)}
    {r : Except ε α} (hp : Contract P Pre p Post) (hpre : Pre h) (hr : Run p t r) :
    (∀ pre e post, t = pre ++ e :: post → P (h ++ pre) e.1) ∧
      ∀ a, r = .ok a → Post a (h ++ t) := (hp.triple h hpre).run hr

end Contract

/-! ## What a program may do -/

/-- Some run of the program performs `o`, and every event of that run meets `B`. -/
structure May (B : Event S → Prop) (o : S.Op) (p : Prog S ε α) : Prop where
  run : ∃ t r x, Run p t r ∧ ⟨o, x⟩ ∈ t ∧ ∀ ev ∈ t, B ev

section May

variable {B : Event S → Prop} {o : S.Op}

/-- Every program has a run of such events, where every operation has such an answer. -/
theorem exists_run (hB : ∀ o, ∃ x, B ⟨o, x⟩) (p : Prog S ε α) :
    ∃ t r, Run p t r ∧ ∀ ev ∈ t, B ev := by
  induction p with
  | pure a => exact ⟨[], .ok a, .pure a, fun _ hev => absurd hev List.not_mem_nil⟩
  | throw e => exact ⟨[], .error e, .throw e, fun _ hev => absurd hev List.not_mem_nil⟩
  | op o k ih =>
    obtain ⟨x, hx⟩ := hB o
    obtain ⟨t, r, hr, ht⟩ := ih x
    exact ⟨⟨o, x⟩ :: t, r, .op x hr, List.forall_mem_cons.mpr ⟨hx, ht⟩⟩

/-- The next operation is `o`. -/
theorem may_here (hB : ∀ o, ∃ x, B ⟨o, x⟩) (k : S.Ret o → Prog S ε α) : May B o (.op o k) := by
  obtain ⟨x, hx⟩ := hB o
  obtain ⟨t, r, hr, ht⟩ := exists_run hB (k x)
  exact ⟨_, r, x, .op x hr, List.mem_cons_self, List.forall_mem_cons.mpr ⟨hx, ht⟩⟩

theorem may_op {o' : S.Op} {k : S.Ret o' → Prog S ε α} (x : S.Ret o') (hx : B ⟨o', x⟩)
    (h : May B o (k x)) : May B o (.op o' k) := by
  obtain ⟨t, r, y, hr, hmem, ht⟩ := h.run
  exact ⟨_, r, y, .op x hr, List.mem_cons_of_mem _ hmem, List.forall_mem_cons.mpr ⟨hx, ht⟩⟩

theorem May.bind {p : Prog S ε α} (hB : ∀ o, ∃ x, B ⟨o, x⟩) (h : May B o p)
    (f : α → Prog S ε β) : May B o (p.bind f) := by
  obtain ⟨t, r, x, hr, hmem, ht⟩ := h.run
  cases r with
  | ok a =>
    obtain ⟨u, r', hr', hu⟩ := exists_run hB (f a)
    refine ⟨t ++ u, r', x, hr.bind hr', List.mem_append_left _ hmem, fun ev hev => ?_⟩
    exact (List.mem_append.mp hev).elim (ht ev) (hu ev)
  | error e => exact ⟨t, .error e, x, hr.bind_throw, hmem, ht⟩

/-- After a run of the first program. -/
theorem May.after {p : Prog S ε α} {f : α → Prog S ε β} {t : List (Event S)} {a : α}
    (hr : Run p t (.ok a)) (ht : ∀ ev ∈ t, B ev) (h : May B o (f a)) : May B o (p.bind f) := by
  obtain ⟨u, r, x, hr', hmem, hu⟩ := h.run
  refine ⟨t ++ u, r, x, hr.bind hr', List.mem_append_right _ hmem, fun ev hev => ?_⟩
  exact (List.mem_append.mp hev).elim (ht ev) (hu ev)

theorem May.tryCatch {p : Prog S ε α} (hB : ∀ o, ∃ x, B ⟨o, x⟩) (h : May B o p)
    (f : ε → Prog S ε α) : May B o (p.tryCatch f) := by
  obtain ⟨t, r, x, hr, hmem, ht⟩ := h.run
  cases r with
  | ok a => exact ⟨t, .ok a, x, hr.tryCatch, hmem, ht⟩
  | error e =>
    obtain ⟨u, r', hr', hu⟩ := exists_run hB (f e)
    refine ⟨t ++ u, r', x, hr.tryCatch_throw hr', List.mem_append_left _ hmem, fun ev hev => ?_⟩
    exact (List.mem_append.mp hev).elim (ht ev) (hu ev)

end May

/-! ## Specifications over a ghost state -/

section Spec

variable {σ : Type} {T : σ → (o : S.Op) → S.Ret o → σ → Prop} {Fail Pre : σ → Prop}

/-- A sequence of events takes one ghost state to another. -/
inductive Path (T : σ → (o : S.Op) → S.Ret o → σ → Prop) : σ → List (Event S) → σ → Prop
  | nil (s : σ) : Path T s [] s
  | cons {s s' s'' : σ} {o : S.Op} {x : S.Ret o} {t : List (Event S)} (step : T s o x s')
      (rest : Path T s' t s'') : Path T s (⟨o, x⟩ :: t) s''

/-- A run whose answers are permitted ends as its program does. -/
theorem Safe.path {P : σ → S.Op → Prop} {Q : σ → Except ε α → Prop} {p : Prog S ε α} {s s' : σ}
    {t : List (Event S)} {r : Except ε α} (hs : Safe P T Q p s) (hr : Run p t r)
    (hpath : Path T s t s') : Q s' r := by
  induction hr generalizing s with
  | pure a =>
    cases hpath
    exact hs
  | throw e =>
    cases hpath
    exact hs
  | op x rest ih =>
    cases hpath with
    | cons step hrest => exact ih (hs.2 x _ step) hrest

/-- Started in a state of `Pre`, with every answer one that `T` permits, the program returns
    in a state of `Post`, or raises its exception in a state of `Fail`. -/
structure Spec (T : σ → (o : S.Op) → S.Ret o → σ → Prop) (Fail Pre : σ → Prop)
    (p : Prog S ε α) (Post : α → σ → Prop) : Prop where
  safe : ∀ s, Pre s → Safe (fun _ _ => True) T (fun s r => match r with
    | .ok a => Post a s
    | .error _ => Fail s) p s

theorem spec_pure {a : α} {Post : α → σ → Prop} (h : ∀ s, Pre s → Post a s) :
    Spec T Fail Pre (.pure a : Prog S ε α) Post := ⟨h⟩

theorem spec_throw {e : ε} {Post : α → σ → Prop} (h : ∀ s, Pre s → Fail s) :
    Spec T Fail Pre (.throw e : Prog S ε α) Post := ⟨h⟩

theorem spec_perform {o : S.Op} {Post : S.Ret o → σ → Prop}
    (h : ∀ s x s', Pre s → T s o x s' → Post x s') :
    Spec T Fail Pre (perform o : Prog S ε (S.Ret o)) Post :=
  ⟨fun s hs => ⟨trivial, fun x s' hx => h s x s' hs hx⟩⟩

theorem Spec.bind {p : Prog S ε α} {f : α → Prog S ε β} {M : α → σ → Prop}
    {Post : β → σ → Prop} (hp : Spec T Fail Pre p M) (hf : ∀ a, Spec T Fail (M a) (f a) Post) :
    Spec T Fail Pre (p.bind f) Post := by
  refine ⟨fun s hs => safe_bind.mpr ((hp.safe s hs).mono fun s' r hr => ?_)⟩
  cases r with
  | ok a => exact (hf a).safe s' hr
  | error e => exact hr

theorem Spec.tryCatch {p : Prog S ε α} {f : ε → Prog S ε α} {F : σ → Prop}
    {Post : α → σ → Prop} (hp : Spec T F Pre p Post)
    (hf : ∀ e, Spec T Fail F (f e) Post) : Spec T Fail Pre (p.tryCatch f) Post := by
  refine ⟨fun s hs => safe_tryCatch.mpr ((hp.safe s hs).mono fun s' r hr => ?_)⟩
  cases r with
  | ok a => exact hr
  | error e => exact (hf e).safe s' hr

theorem Spec.conseq {p : Prog S ε α} {Pre' : σ → Prop} {Post Post' : α → σ → Prop}
    (hp : Spec T Fail Pre p Post) (hpre : ∀ s, Pre' s → Pre s)
    (hpost : ∀ a s, Post a s → Post' a s) : Spec T Fail Pre' p Post' := by
  refine ⟨fun s hs => (hp.safe s (hpre s hs)).mono fun s' r hr => ?_⟩
  cases r with
  | ok a => exact hpost a s' hr
  | error e => exact hr

theorem spec_ite {c : Prop} [Decidable c] {p q : Prog S ε α} {Post : α → σ → Prop}
    (hp : c → Spec T Fail Pre p Post) (hq : ¬ c → Spec T Fail Pre q Post) :
    Spec T Fail Pre (if c then p else q) Post := by
  split
  · exact hp ‹c›
  · exact hq ‹¬ c›

/-- A program of operations that keep `Pre` keeps `Pre`. -/
theorem Only.spec {Q : S.Op → Prop} {p : Prog S ε α} (hp : Only Q p)
    (hT : ∀ s o x s', Pre s → Q o → T s o x s' → Pre s') (hfail : ∀ s, Pre s → Fail s) :
    Spec T Fail Pre p fun _ => Pre := by
  refine ⟨fun s hs => ?_⟩
  induction p generalizing s with
  | pure a => exact hs
  | throw e => exact hfail s hs
  | op o k ih => exact ⟨trivial, fun x s' hx => ih x (hp.2 x) s' (hT s o x s' hs hp.1 hx)⟩

/-- What a specification says of a run. -/
theorem Spec.run {p : Prog S ε α} {Post : α → σ → Prop} {s s' : σ} {t : List (Event S)} {a : α}
    (hp : Spec T Fail Pre p Post) (hs : Pre s) (hr : Run p t (.ok a)) (hpath : Path T s t s') :
    Post a s' := (hp.safe s hs).path hr hpath

end Spec

end Prog
