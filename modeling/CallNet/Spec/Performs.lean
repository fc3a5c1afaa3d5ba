import CallNet.Engine.CallEffects

/-!
# What programs of the call path perform

`Performs Q p`: every effect the program can perform satisfies `Q`, whatever the
environment answers, with one rule for each way programs are put together.  `Prog.May B e p`: the
program performs `e` in some run of events in `B`.
-/

namespace CallNet

/-- Every effect the program can perform satisfies `Q`. -/
structure Performs (Q : Effect → Prop) {α : Type} (p : CallProg α) : Prop where
  only : p.Only Q

section Performs

variable {α β : Type} {Q Q' : Effect → Prop}

theorem performs_pure (a : α) : Performs Q (pure a) := ⟨trivial⟩

theorem performs_ask {e : Effect} (h : Q e) : Performs Q (ask e) :=
  ⟨Prog.only_perform (S := effects) h⟩

theorem performs_bind {p : CallProg α} {f : α → CallProg β} (hp : Performs Q p)
    (hf : ∀ a, Performs Q (f a)) : Performs Q (p >>= f) :=
  ⟨Prog.only_bind hp.only fun a => (hf a).only⟩

/-- One effect, and what follows its answer. -/
theorem performs_then {e : Effect} {f : e.Answer → CallProg β} (he : Q e)
    (hf : ∀ x, Performs Q (f x)) : Performs Q (ask e >>= f) := performs_bind (performs_ask he) hf

theorem performs_ite {c : Prop} [Decidable c] {p q : CallProg α} (hp : c → Performs Q p)
    (hq : ¬ c → Performs Q q) : Performs Q (if c then p else q) := by
  split
  · exact hp ‹c›
  · exact hq ‹¬ c›

theorem performs_tryCatch {p : CallProg α} {f : SipError → CallProg α} (hp : Performs Q p)
    (hf : ∀ e, Performs Q (f e)) : Performs Q (p.tryCatch f) :=
  ⟨Prog.only_tryCatch hp.only fun e => (hf e).only⟩

theorem performs_ofExcept (x : Except SipError α) : Performs Q (ofExcept x) := by
  cases x <;> exact ⟨trivial⟩

theorem performs_ignoring {e : Effect} (h : Q e) : Performs Q (ignoring e) :=
  performs_then h fun _ => performs_pure _

theorem performs_directory (h : Q .snapshot) : Performs Q directory :=
  performs_then h fun _ => performs_pure _

theorem performs_sendUnlessFinal {status : Nat} {reason : Option String}
    {headers : List (String × String)} (hs : Q (.send status reason headers))
    (hf : Q .finalResponseSent) : Performs Q (sendUnlessFinal status reason headers) := by
  refine performs_then (e := .finalResponseSent) hf fun sent => ?_
  cases sent with
  | true => exact performs_pure _
  | false => exact performs_ask hs

theorem Performs.mono {p : CallProg α} (hp : Performs Q p) (h : ∀ e, Q e → Q' e) :
    Performs Q' p := ⟨hp.only.mono h⟩

theorem Performs.and {p : CallProg α} (hp : Performs Q p) (hp' : Performs Q' p) :
    Performs (fun e => Q e ∧ Q' e) p := ⟨hp.only.and hp'.only⟩

/-- Every effect of a run is one the program can perform. -/
theorem Performs.run {p : CallProg α} (hp : Performs Q p) {t : History} {r : Except SipError α}
    (hr : Prog.Run p t r) {e : Effect} {x : e.Answer} (he : e.event x ∈ t) : Q e :=
  hp.only.run hr he

/-! ## What a program may perform -/

variable {B : Prog.Event effects → Prop} {e : Effect}

/-- One effect, with an answer of our choice, and what follows. -/
theorem may_ask {d : Effect} {f : d.Answer → CallProg α} (x : d.Answer) (hx : B (d.event x))
    (h : Prog.May B e (f x)) : Prog.May B e (ask d >>= f) := Prog.may_op (S := effects) x hx h

theorem may_snapshot {f : Directory → CallProg α} {snap : Snapshot}
    (hsnap : B (Effect.event .snapshot snap)) (h : Prog.May B e (f snap.dir)) :
    Prog.May B e (directory >>= f) :=
  may_ask (d := .snapshot) (f := fun s : Snapshot => f s.dir) snap hsnap h

end Performs

end CallNet
