import CallNet.Spec.CallPolicy
import CallNet.Spec.EffectKinds

/-!
# Policies that only look at what has happened

`Keeps P fs p`: once the events `fs` have happened, the program performs only effects that
the policy `P` allows at that point.  What a program learns from the answers it gets is
added to the facts, so a proof follows the program from top to bottom.
-/

namespace CallNet

/-- Where the facts hold, the program performs only effects that `P` allows. -/
structure Keeps (P : History → Effect → Prop) (fs : History) {α : Type} (p : CallProg α) :
    Prop where
  contract : Prog.Contract P (Facts fs) p fun _ => Facts fs

section Keeps

variable {α β : Type} {P : History → Effect → Prop} {fs : History}

theorem Facts.cons_left {f : Prog.Event effects} {h : History} (hf : Facts (f :: fs) h) :
    Facts fs h := fun e he => hf e (List.mem_cons_of_mem _ he)

theorem keeps_pure (a : α) : Keeps P fs (pure a) := ⟨Prog.contract_pure fun _ hf => hf⟩

/-- One effect that is allowed, and then what follows with its answer known. -/
theorem keeps_ask {e : Effect} {f : e.Answer → CallProg β} (he : ∀ h, Facts fs h → P h e)
    (hf : ∀ x, Keeps P (e.event x :: fs) (f x)) : Keeps P fs (ask e >>= f) := by
  refine ⟨(Prog.contract_perform (S := effects) he fun hist x hfacts => ?_).bind fun x =>
    (hf x).contract.conseq (fun _ h => h) fun _ _ h => h.cons_left⟩
  rintro g hg
  rcases List.mem_cons.mp hg with rfl | hg
  · exact List.mem_append_right _ List.mem_cons_self
  · exact List.mem_append_left _ (hfacts g hg)

theorem keeps_perform {e : Effect} (he : ∀ h, Facts fs h → P h e) : Keeps P fs (ask e) :=
  ⟨Prog.contract_perform (S := effects) he fun _ _ hfacts => hfacts.snoc _⟩

theorem keeps_bind {p : CallProg α} {f : α → CallProg β} (hp : Keeps P fs p)
    (hf : ∀ a, Keeps P fs (f a)) : Keeps P fs (p >>= f) :=
  ⟨hp.contract.bind fun a => (hf a).contract⟩

theorem keeps_ofExcept (x : Except SipError α) : Keeps P fs (ofExcept x) := by
  cases x with
  | ok a => exact keeps_pure a
  | error e => exact ⟨Prog.contract_throw⟩

theorem keeps_ite {c : Prop} [Decidable c] {p q : CallProg α} (hp : c → Keeps P fs p)
    (hq : ¬ c → Keeps P fs q) : Keeps P fs (if c then p else q) :=
  ⟨Prog.contract_ite (fun h => (hp h).contract) fun h => (hq h).contract⟩

theorem keeps_tryCatch {p : CallProg α} {f : SipError → CallProg α} (hp : Keeps P fs p)
    (hf : ∀ e, Keeps P fs (f e)) : Keeps P fs (p.tryCatch f) :=
  ⟨hp.contract.tryCatch (fun _ e h => h.snoc e) (fun _ h => h) fun e => (hf e).contract⟩

theorem Keeps.mono {P' : History → Effect → Prop} {p : CallProg α} (hp : Keeps P fs p)
    (h : ∀ hist e, Facts fs hist → P hist e → P' hist e) : Keeps P' fs p :=
  ⟨⟨hp.contract.triple.allow (fun _ e hf => hf.snoc e) (fun _ hf => hf) h⟩⟩

/-- A program whose effects are allowed wherever the facts hold. -/
theorem Performs.keeps {Q : Effect → Prop} {p : CallProg α} (hp : Performs Q p)
    (hQ : ∀ h e, Facts fs h → Q e → P h e) : Keeps P fs p :=
  ⟨hp.only.contract hQ fun _ _ _ hf _ => hf.snoc _⟩

/-- Read the users, and go on knowing the snapshot they are from. -/
theorem keeps_directory {f : Directory → CallProg β} (he : ∀ h, Facts fs h → P h .snapshot)
    (hf : ∀ snap : Snapshot, Keeps P (Effect.event .snapshot snap :: fs) (f snap.dir)) :
    Keeps P fs (directory >>= f) := keeps_ask (e := .snapshot) he hf

/-- Every effect of a run is allowed by what happened before it. -/
theorem Keeps.run {p : CallProg α} (hp : Keeps P fs p) {h t : History} {r : Except SipError α}
    (hf : Facts fs h) (hr : Prog.Run p t r) {pre post : History} {e : Prog.Event effects}
    (ht : t = pre ++ e :: post) : P (h ++ pre) e.1 := (hp.contract.run hf hr).1 pre e post ht

end Keeps

end CallNet
