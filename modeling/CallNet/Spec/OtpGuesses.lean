import CallNet.Api.Otp
import CallNet.ForStd.Machine

/-!
# Guesses against one code

`verify` reads the attempts, compares, and writes one attempt more in three operations, and it
burns the code in a fourth.  The limits hold as long as these do not interleave: while a guess is
compared, no other verification has an attempt to write or a code to burn, the code it compares
with is the one the attempts count for, and no request is about to reset them.
-/

namespace CallNet.Api

open Machine (run Meets Throughout)

/-- A compared guess whose outcome is not in the cache yet: the code, and the attempts that were
    read if the guess was wrong. -/
def VerifyPhase.pending : VerifyPhase → Option (IssuedCode × Option Nat)
  | .wrong stored attempts => some (stored, some attempts)
  | .right stored => some (stored, none)
  | .reading | .counting _ | .exhausted | .returned _ => none

namespace OtpSystem

/-! ## The property and its condition -/

/-- Of each code, at most the maximum of wrong guesses was compared and one guess accepted. -/
def GuessLimit (s : OtpSystem) : Prop :=
  ∀ i, s.wrongGuesses i ≤ otpMaxAttempts ∧ s.successes i ≤ 1

def pendingOf (s : OtpSystem) (id : Nat) : Option (IssuedCode × Option Nat) :=
  (s.verifies id).bind fun call => call.phase.pending

/-- No compared guess waits to be recorded. -/
def Recorded (s : OtpSystem) : Prop := ∀ id, s.pendingOf id = none

/-- A request has stored its code, and not yet reset the attempts. -/
def Resetting (s : OtpSystem) : Prop := ∃ id, s.issues id = some .stored

/-- The step takes place inside one verification at a time. -/
def Serial (s : OtpSystem) : OtpEvent → Prop
  | .readAttempts id ok => ∀ guess stored, s.verifies id = some ⟨guess, .counting stored⟩ →
    (if ok then s.attempts.getD 0 else 0) < otpMaxAttempts →
    s.current = some stored.id ∧ s.Recorded ∧ ¬ s.Resetting ∧ (ok = false → s.attempts.getD 0 = 0)
  | .countAttempt id ok => ∀ guess stored attempts,
    s.verifies id = some ⟨guess, .wrong stored attempts⟩ → s.current = some stored.id → ok = true
  | .burn id ok => ∀ guess stored, s.verifies id = some ⟨guess, .right stored⟩ →
    s.current = some stored.id → ok = true
  | .verify .. | .readCode .. | .requestCode .. | .storeCode .. | .resetAttempts .. | .send ..
  | .withdrawCode .. | .startCooldown .. | .codeExpires | .attemptsExpire | .cooldownExpires => True

/-! ## The invariant -/

/-- No guess was compared with the code. -/
def Fresh (s : OtpSystem) (i : Nat) : Prop := s.wrongGuesses i = 0 ∧ s.successes i = 0

/-- What the cache knows of the guesses at the code that the attempts count for. -/
structure CodeInv (s : OtpSystem) (i : Nat) : Prop where
  resetting : s.Resetting → s.Fresh i
  wrong : ∀ id stored attempts, s.pendingOf id = some (stored, some attempts) →
    if stored.id = i then s.wrongGuesses i ≤ attempts + 1 ∧ s.successes i = 0 else s.Fresh i
  right : ∀ id stored, s.pendingOf id = some (stored, none) → stored.id ≠ i → s.Fresh i
  recorded : s.Recorded → s.wrongGuesses i ≤ (if s.counted then s.attempts.getD 0 else 0) ∧
    s.successes i = 0

structure OtpInv (s : OtpSystem) : Prop where
  limit : s.GuessLimit
  future : ∀ i, s.issued ≤ i → s.Fresh i
  known : ∀ i, s.current = some i → i < s.issued
  unique : ∀ id id' p p', s.pendingOf id = some p → s.pendingOf id' = some p' → id = id'
  below : ∀ id stored attempts, s.pendingOf id = some (stored, some attempts) →
    attempts < otpMaxAttempts
  code : ∀ i, s.current = some i → s.CodeInv i

variable {s s' : OtpSystem} {id : Nat}

/-! ## Steps that compare and record nothing -/

theorem pendingOf_setVerify (s : OtpSystem) (id id' : Nat) (call : VerifyCall) :
    (s.setVerify id call).pendingOf id' =
      if id' = id then call.phase.pending else s.pendingOf id' := by
  unfold pendingOf setVerify
  dsimp only
  split <;> rfl

/-- A verification that has nothing to record, before or after the step. -/
theorem pendingOf_setVerify_quiet (hbefore : s.pendingOf id = none) {call : VerifyCall}
    (hafter : call.phase.pending = none) (id' : Nat) :
    (s.setVerify id call).pendingOf id' = s.pendingOf id' := by
  rw [pendingOf_setVerify]
  split
  · rename_i heq
    rw [heq, hafter, hbefore]
  · rfl

theorem pendingOf_of_call {call : VerifyCall} (h : s.verifies id = some call) :
    s.pendingOf id = call.phase.pending := by
  rw [pendingOf, h]
  rfl

theorem resetting_setIssue {phase : IssuePhase} (hphase : phase ≠ .stored)
    (h : (s.setIssue id phase).Resetting) : s.Resetting := by
  obtain ⟨id', hid'⟩ := h
  simp only [setIssue] at hid'
  split at hid'
  · exact absurd (Option.some.inj hid') hphase
  · exact ⟨id', hid'⟩

/-- Nothing the invariant speaks of has changed, or requests reset fewer attempts. -/
theorem OtpInv.quiet (h : s.OtpInv) (hwrong : s'.wrongGuesses = s.wrongGuesses)
    (hright : s'.successes = s.successes) (hissued : s'.issued = s.issued)
    (hpending : ∀ id, s'.pendingOf id = s.pendingOf id)
    (hcode : ∀ i, s'.current = some i → s.current = some i ∧ (s'.Resetting → s.Fresh i) ∧
      (s.Recorded → s.wrongGuesses i ≤ if s'.counted then s'.attempts.getD 0 else 0)) :
    s'.OtpInv := by
  have hfresh : ∀ i, s'.Fresh i ↔ s.Fresh i := by
    intro i
    unfold Fresh
    rw [hwrong, hright]
  have hrecorded : s'.Recorded ↔ s.Recorded := by
    unfold Recorded
    simp only [hpending]
  refine ⟨?_, ?_, fun i hi => hissued ▸ h.known i (hcode i hi).1, ?_, ?_, fun i hi => ?_⟩
  · unfold GuessLimit
    rw [hwrong, hright]
    exact h.limit
  · intro i hi
    rw [hissued] at hi
    exact (hfresh i).mpr (h.future i hi)
  · simp only [hpending]
    exact h.unique
  · simp only [hpending]
    exact h.below
  · obtain ⟨hcurrent, hreset, hcount⟩ := hcode i hi
    have hinv := h.code i hcurrent
    refine ⟨fun hresetting => (hfresh i).mpr (hreset hresetting), ?_, ?_, fun hall => ?_⟩
    · simp only [hpending, hwrong, hright, hfresh]
      exact hinv.wrong
    · simp only [hpending, hfresh]
      exact hinv.right
    · have hold := hrecorded.mp hall
      rw [hwrong, hright]
      exact ⟨hcount hold, (hinv.recorded hold).2⟩

/-- A step of a verification that is not comparing. -/
theorem OtpInv.setVerify (h : s.OtpInv) (hbefore : s.pendingOf id = none) {call : VerifyCall}
    (hafter : call.phase.pending = none) : (s.setVerify id call).OtpInv :=
  h.quiet rfl rfl rfl (pendingOf_setVerify_quiet hbefore hafter) fun i hi =>
    ⟨hi, (h.code i hi).resetting, fun hall => ((h.code i hi).recorded hall).1⟩

/-- A step of a request that does not reset the attempts. -/
theorem OtpInv.setIssue (h : s.OtpInv) {phase : IssuePhase} (hphase : phase ≠ .stored) :
    (s.setIssue id phase).OtpInv :=
  h.quiet rfl rfl rfl (fun _ => rfl) fun i hi => ⟨hi, fun hresetting =>
    (h.code i hi).resetting (resetting_setIssue hphase hresetting),
    fun hall => ((h.code i hi).recorded hall).1⟩

/-- The code is gone from the cache. -/
theorem OtpInv.withoutCode (h : s.OtpInv) : OtpInv { s with code := none } :=
  h.quiet rfl rfl rfl (fun _ => rfl) fun i hi => ⟨hi, (h.code i hi).resetting,
    fun hall => ((h.code i hi).recorded hall).1⟩

theorem OtpInv.withCooldown (h : s.OtpInv) (cooldown : Bool) : OtpInv { s with cooldown } :=
  h.quiet rfl rfl rfl (fun _ => rfl) fun i hi => ⟨hi, (h.code i hi).resetting,
    fun hall => ((h.code i hi).recorded hall).1⟩

/-- No code has attempts of its own any more. -/
theorem OtpInv.withoutCurrent (h : s.OtpInv) (code : Option IssuedCode) (attempts : Option Nat) :
    OtpInv { s with code, attempts, current := none } :=
  h.quiet rfl rfl rfl (fun _ => rfl) fun _ hi => nomatch hi

theorem OtpInv.burnCode (h : s.OtpInv) (ok : Bool) : (s.burnCode ok).OtpInv := by
  unfold OtpSystem.burnCode
  split
  · exact h.withoutCurrent none none
  · exact h

/-! ## A guess is compared -/

/-- The attempts that are read bound the wrong guesses, when nothing is left to record. -/
theorem CodeInv.wrong_le {i : Nat} (h : s.CodeInv i) (hall : s.Recorded) :
    s.wrongGuesses i ≤ s.attempts.getD 0 := by
  have hcount := (h.recorded hall).1
  split at hcount
  · exact hcount
  · omega

/-- After a compare, its guess is the only one to record. -/
theorem pendingOf_compare (hall : s.Recorded) {call : VerifyCall} {id' : Nat}
    {p : IssuedCode × Option Nat} (h : (s.setVerify id call).pendingOf id' = some p) :
    id' = id ∧ call.phase.pending = some p := by
  rw [pendingOf_setVerify] at h
  split at h
  · rename_i heq
    exact ⟨heq, h⟩
  · rw [hall] at h
    cases h

/-- A wrong guess more than the attempts say, and it is to be recorded. -/
theorem OtpInv.wrongGuess (h : s.OtpInv) (hall : s.Recorded) (hnot : ¬ s.Resetting)
    (guess : String) {stored : IssuedCode} (hcurrent : s.current = some stored.id)
    (hbelow : s.attempts.getD 0 < otpMaxAttempts) :
    OtpInv { s.setVerify id ⟨guess, .wrong stored (s.attempts.getD 0)⟩ with
      wrongGuesses := fun i => s.wrongGuesses i + if i = stored.id then 1 else 0 } := by
  have hinv := h.code stored.id hcurrent
  have hle := hinv.wrong_le hall
  refine ⟨fun i => ⟨?_, (h.limit i).2⟩, fun i hi => ?_, h.known, ?_, ?_, fun i hi => ⟨?_, ?_, ?_, ?_⟩⟩
  · have hlimit := (h.limit i).1
    dsimp only
    split
    · rename_i heq
      rw [heq]
      omega
    · exact hlimit
  · have hne : i ≠ stored.id := Nat.ne_of_gt (Nat.lt_of_lt_of_le (h.known _ hcurrent) hi)
    have hfresh := h.future i hi
    exact ⟨by simp [hne, hfresh.1], hfresh.2⟩
  · intro id₁ id₂ p₁ p₂ h₁ h₂
    rw [(pendingOf_compare hall h₁).1, (pendingOf_compare hall h₂).1]
  · intro id' stored' attempts hpending
    have hp := (pendingOf_compare hall hpending).2
    simp only [VerifyPhase.pending, Option.some.injEq, Prod.mk.injEq] at hp
    rw [← hp.2]
    exact hbelow
  · exact fun hresetting => absurd hresetting hnot
  · intro id' stored' attempts hpending
    have hp := (pendingOf_compare hall hpending).2
    simp only [VerifyPhase.pending, Option.some.injEq, Prod.mk.injEq] at hp
    have hi' : stored.id = i := Option.some.inj (hcurrent.symm.trans hi)
    rw [← hp.1, if_pos hi', ← hi']
    refine ⟨?_, (hinv.recorded hall).2⟩
    dsimp only
    rw [if_pos rfl, ← hp.2]
    omega
  · intro id' stored' hpending
    have hp := (pendingOf_compare hall hpending).2
    simp only [VerifyPhase.pending, Option.some.injEq, Prod.mk.injEq, reduceCtorEq, and_false] at hp
  · intro hrecorded
    have hcall : (s.setVerify id ⟨guess, .wrong stored (s.attempts.getD 0)⟩).verifies id =
        some ⟨guess, .wrong stored (s.attempts.getD 0)⟩ := if_pos rfl
    exact nomatch (pendingOf_of_call hcall).symm.trans (hrecorded id)

/-- The first accepted guess, and the code is to be burned. -/
theorem OtpInv.rightGuess (h : s.OtpInv) (hall : s.Recorded) (hnot : ¬ s.Resetting)
    (guess : String) {stored : IssuedCode} (hcurrent : s.current = some stored.id) :
    OtpInv { s.setVerify id ⟨guess, .right stored⟩ with
      successes := fun i => s.successes i + if i = stored.id then 1 else 0 } := by
  have hinv := h.code stored.id hcurrent
  have hnone := (hinv.recorded hall).2
  refine ⟨fun i => ⟨(h.limit i).1, ?_⟩, fun i hi => ?_, h.known, ?_, ?_, fun i hi => ⟨?_, ?_, ?_, ?_⟩⟩
  · have hlimit := (h.limit i).2
    dsimp only
    split
    · rename_i heq
      have hzero : s.successes i = 0 := heq ▸ hnone
      omega
    · exact hlimit
  · have hne : i ≠ stored.id := Nat.ne_of_gt (Nat.lt_of_lt_of_le (h.known _ hcurrent) hi)
    have hfresh := h.future i hi
    exact ⟨hfresh.1, by simp [hne, hfresh.2]⟩
  · intro id₁ id₂ p₁ p₂ h₁ h₂
    rw [(pendingOf_compare hall h₁).1, (pendingOf_compare hall h₂).1]
  · intro id' stored' attempts hpending
    have hp := (pendingOf_compare hall hpending).2
    simp only [VerifyPhase.pending, Option.some.injEq, Prod.mk.injEq, reduceCtorEq, and_false] at hp
  · exact fun hresetting => absurd hresetting hnot
  · intro id' stored' attempts hpending
    have hp := (pendingOf_compare hall hpending).2
    simp only [VerifyPhase.pending, Option.some.injEq, Prod.mk.injEq, reduceCtorEq, and_false] at hp
  · intro id' stored' hpending hne
    have hp := (pendingOf_compare hall hpending).2
    simp only [VerifyPhase.pending, Option.some.injEq, Prod.mk.injEq, and_true] at hp
    exact absurd (Option.some.inj (hcurrent.symm.trans hi)) (hp ▸ hne)
  · intro hrecorded
    have hcall : (s.setVerify id ⟨guess, .right stored⟩).verifies id =
        some ⟨guess, .right stored⟩ := if_pos rfl
    exact nomatch (pendingOf_of_call hcall).symm.trans (hrecorded id)

/-! ## The outcome is recorded -/

/-- The one compared guess is recorded, so that the attempts count at least the wrong guesses. -/
theorem OtpInv.settle (h : s.OtpInv) {p : IssuedCode × Option Nat} (hp : s.pendingOf id = some p)
    (hwrong : s'.wrongGuesses = s.wrongGuesses) (hright : s'.successes = s.successes)
    (hissued : s'.issued = s.issued)
    (hpending : ∀ id', s'.pendingOf id' = if id' = id then none else s.pendingOf id')
    (hcode : ∀ i, s'.current = some i → s.current = some i ∧ (s'.Resetting → s.Resetting) ∧
      s.wrongGuesses i ≤ (if s'.counted then s'.attempts.getD 0 else 0) ∧ s.successes i = 0) :
    s'.OtpInv := by
  have hfresh : ∀ i, s'.Fresh i ↔ s.Fresh i := by
    intro i
    unfold Fresh
    rw [hwrong, hright]
  -- nobody else had a guess to record
  have hall : s'.Recorded := by
    intro id'
    rw [hpending]
    split
    · rfl
    · rename_i hne
      rw [Option.eq_none_iff_forall_ne_some]
      exact fun p' hp' => hne (h.unique id' id p' p hp' hp)
  refine ⟨?_, fun i hi => ?_, fun i hi => hissued ▸ h.known i (hcode i hi).1, ?_, ?_,
    fun i hi => ⟨?_, ?_, ?_, ?_⟩⟩
  · unfold GuessLimit
    rw [hwrong, hright]
    exact h.limit
  · rw [hissued] at hi
    exact (hfresh i).mpr (h.future i hi)
  · intro id₁ id₂ p₁ p₂ h₁
    rw [hall] at h₁
    cases h₁
  · intro id' stored attempts h'
    rw [hall] at h'
    cases h'
  · intro hresetting
    obtain ⟨hcurrent, hreset, -⟩ := hcode i hi
    exact (hfresh i).mpr ((h.code i hcurrent).resetting (hreset hresetting))
  · intro id' stored attempts h'
    rw [hall] at h'
    cases h'
  · intro id' stored h'
    rw [hall] at h'
    cases h'
  · intro _
    rw [hwrong, hright]
    exact (hcode i hi).2.2

theorem OtpInv.countAttempt (h : s.OtpInv) {guess : String} {stored : IssuedCode} {attempts : Nat}
    (hcall : s.verifies id = some ⟨guess, .wrong stored attempts⟩) :
    OtpInv { s.setVerify id ⟨guess, .returned false⟩ with
      attempts := some (attempts + 1), counted := true } := by
  have hp := pendingOf_of_call hcall
  refine h.settle hp rfl rfl rfl (pendingOf_setVerify s id · _) fun i hi => ⟨hi, fun hr => hr, ?_⟩
  have hwrong := (h.code i hi).wrong id stored attempts hp
  dsimp only
  rw [if_pos rfl, Option.getD_some]
  split at hwrong
  · exact hwrong
  · rw [hwrong.1]
    exact ⟨Nat.zero_le _, hwrong.2⟩

/-- A guess whose outcome is lost, for a code that is no longer the one counted for. -/
theorem OtpInv.forget (h : s.OtpInv) {call : VerifyCall} (hcall : s.verifies id = some call)
    {stored : IssuedCode} {attempts : Option Nat}
    (hphase : call.phase.pending = some (stored, attempts)) (hcurrent : s.current ≠ some stored.id)
    {call' : VerifyCall} (hafter : call'.phase.pending = none) :
    (s.setVerify id call').OtpInv := by
  have hp := (pendingOf_of_call hcall).trans hphase
  refine h.settle hp rfl rfl rfl (fun id' => ?_) fun i hi => ⟨hi, fun hr => hr, ?_⟩
  · rw [pendingOf_setVerify, hafter]
  · have hne : stored.id ≠ i := fun heq => hcurrent (heq ▸ hi)
    have hfresh : s.Fresh i := by
      cases attempts with
      | some attempts =>
        have hwrong := (h.code i hi).wrong id stored attempts hp
        rwa [if_neg hne] at hwrong
      | none => exact (h.code i hi).right id stored hp hne
    rw [hfresh.1]
    exact ⟨Nat.zero_le _, hfresh.2⟩

/-- The code is burned after a success. -/
theorem OtpInv.burnRight (h : s.OtpInv) {guess : String} {stored : IssuedCode}
    (hcall : s.verifies id = some ⟨guess, .right stored⟩) (code : Option IssuedCode)
    (attempts : Option Nat) (cooldown : Bool) :
    OtpInv { s.setVerify id ⟨guess, .returned true⟩ with
      code, attempts, cooldown, current := none } :=
  h.settle (pendingOf_of_call hcall) rfl rfl rfl (pendingOf_setVerify s id · _) fun _ hi => nomatch hi

/-! ## A code is stored -/

theorem OtpInv.storeCode (h : s.OtpInv) (code : String) :
    OtpInv { s.setIssue id .stored with
      code := some ⟨s.issued, code⟩
      issued := s.issued + 1
      current := some s.issued
      counted := false } := by
  have hnew := h.future s.issued (Nat.le_refl _)
  refine ⟨h.limit, fun i hi => h.future i (Nat.le_of_succ_le hi), fun i hi => ?_, h.unique, h.below,
    fun i hi => ?_⟩
  · rw [← Option.some.inj hi]
    exact Nat.lt_succ_self _
  · rw [← Option.some.inj hi]
    refine ⟨fun _ => hnew, fun id' stored attempts _ => ?_, fun _ _ _ _ => hnew, fun _ => ?_⟩
    · split
      · exact ⟨Nat.le_trans (Nat.le_of_eq hnew.1) (Nat.zero_le _), hnew.2⟩
      · exact hnew
    · exact ⟨Nat.le_trans (Nat.le_of_eq hnew.1) (Nat.zero_le _), hnew.2⟩

theorem OtpInv.resetAttempts (h : s.OtpInv) (hissue : s.issues id = some .stored) :
    OtpInv { s.setIssue id .sending with attempts := none } := by
  have hresetting : s.Resetting := ⟨id, hissue⟩
  refine h.quiet rfl rfl rfl (fun _ => rfl) fun i hi => ⟨hi, fun hr => ?_, fun _ => ?_⟩
  · exact (h.code i hi).resetting hresetting
  · rw [((h.code i hi).resetting hresetting).1]
    exact Nat.zero_le _

/-! ## The step lemma -/

theorem otpInv_step {e : OtpEvent} (h : s.OtpInv) (hserial : Serial s e) (hstep : step s e = some s') :
    s'.OtpInv := by
  cases e with
  | verify id guess =>
    simp only [step] at hstep
    split at hstep
    · cases hstep
    · rename_i hid
      rw [Option.not_isSome_iff_eq_none] at hid
      rw [← Option.some.inj hstep]
      refine h.setVerify ?_ rfl
      rw [pendingOf, hid]
      rfl
  | readCode id ok =>
    simp only [step] at hstep
    split at hstep
    · rename_i guess hcall
      have hbefore := pendingOf_of_call hcall
      split at hstep
      · split at hstep
        · rw [← Option.some.inj hstep]
          exact h.setVerify hbefore rfl
        · rw [← Option.some.inj hstep]
          exact h.setVerify hbefore rfl
      · rw [← Option.some.inj hstep]
        exact h.setVerify hbefore rfl
    · cases hstep
  | readAttempts id ok =>
    simp only [step] at hstep
    split at hstep
    · rename_i guess stored hcall
      rw [← Option.some.inj hstep]
      by_cases hbelow : (if ok then s.attempts.getD 0 else 0) < otpMaxAttempts
      · obtain ⟨hcurrent, hall, hnot, hread⟩ := hserial guess stored hcall hbelow
        have hattempts : (if ok then s.attempts.getD 0 else 0) = s.attempts.getD 0 := by
          cases ok with
          | true => rfl
          | false => exact (hread rfl).symm
        rw [hattempts] at hbelow ⊢
        unfold OtpSystem.compare
        rw [if_neg (Nat.not_le.mpr hbelow)]
        split
        · exact h.wrongGuess hall hnot guess hcurrent hbelow
        · exact h.rightGuess hall hnot guess hcurrent
      · -- the code is to be burned
        unfold OtpSystem.compare
        rw [if_pos (Nat.not_lt.mp hbelow)]
        exact h.setVerify (pendingOf_of_call hcall) rfl
    · cases hstep
  | countAttempt id ok =>
    simp only [step] at hstep
    split at hstep
    · rename_i guess stored attempts hcall
      rw [← Option.some.inj hstep]
      split
      · exact h.countAttempt hcall
      · rename_i hok
        refine h.forget hcall rfl (fun hcurrent => hok ?_) rfl
        exact hserial guess stored attempts hcall hcurrent
    · cases hstep
  | burn id ok =>
    simp only [step] at hstep
    split at hstep
    · rename_i guess hcall
      rw [← Option.some.inj hstep]
      exact (h.setVerify (pendingOf_of_call hcall) rfl).burnCode ok
    · rename_i guess stored hcall
      rw [← Option.some.inj hstep]
      cases hok : ok with
      | true => exact h.burnRight hcall none none _
      | false =>
        refine (h.forget hcall rfl (fun hcurrent => ?_) rfl).withCooldown _
        have htrue := hserial guess stored hcall hcurrent
        rw [hok] at htrue
        cases htrue
    · cases hstep
  | requestCode id random ok =>
    simp only [step] at hstep
    split at hstep
    · cases hstep
    · split at hstep
      · rw [← Option.some.inj hstep]
        exact h.setIssue nofun
      · rw [← Option.some.inj hstep]
        exact h.setIssue nofun
  | storeCode id ok =>
    simp only [step] at hstep
    split at hstep
    · split at hstep
      · rw [← Option.some.inj hstep]
        exact h.storeCode _
      · rw [← Option.some.inj hstep]
        exact h.setIssue nofun
    · cases hstep
  | resetAttempts id ok =>
    simp only [step] at hstep
    split at hstep
    · rename_i hissue
      rw [← Option.some.inj hstep]
      split
      · exact h.resetAttempts hissue
      · exact h.setIssue nofun
    · cases hstep
  | send id ok =>
    simp only [step] at hstep
    split at hstep
    · rw [← Option.some.inj hstep]
      refine h.setIssue ?_
      split <;> nofun
    · cases hstep
  | withdrawCode id ok =>
    simp only [step] at hstep
    split at hstep
    · rw [← Option.some.inj hstep]
      split
      · have hreturned : (s.setIssue id (.returned false)).OtpInv := h.setIssue nofun
        exact hreturned.withoutCode
      · exact h.setIssue nofun
    · cases hstep
  | startCooldown id ok =>
    simp only [step] at hstep
    split at hstep
    · rw [← Option.some.inj hstep]
      split
      · have hreturned : (s.setIssue id (.returned true)).OtpInv := h.setIssue nofun
        exact hreturned.withCooldown true
      · exact h.setIssue nofun
    · cases hstep
  | codeExpires =>
    rw [← Option.some.inj hstep]
    exact h.withoutCode
  | attemptsExpire =>
    simp only [step] at hstep
    split at hstep
    · rw [← Option.some.inj hstep]
      exact h.withoutCurrent s.code none
    · split at hstep
      · rename_i hcounted
        rw [← Option.some.inj hstep]
        refine h.quiet rfl rfl rfl (fun _ => rfl) fun i hi =>
          ⟨hi, (h.code i hi).resetting, fun hall => ?_⟩
        have hcount := ((h.code i hi).recorded hall).1
        dsimp only
        rw [hcounted] at hcount ⊢
        exact hcount
      · cases hstep
  | cooldownExpires =>
    rw [← Option.some.inj hstep]
    exact h.withCooldown false

/-! ## Runs -/

theorem otpInv_init : init.OtpInv where
  limit := fun _ => ⟨Nat.zero_le _, Nat.zero_le _⟩
  future := fun _ _ => ⟨rfl, rfl⟩
  known := nofun
  unique := nofun
  below := nofun
  code := nofun

/-- In a run in which verifications of a code take turns, each code meets its limits. -/
theorem guessLimit_throughout (es : List OtpEvent) (hserial : Meets step Serial init es) :
    Throughout step GuessLimit init es :=
  (Machine.throughout_of_meets (I := OtpInv) (fun _ _ _ h hs hstep => otpInv_step h hs hstep)
    otpInv_init hserial).mono fun _ h => h.limit

/-- A code is sent to the mobile. -/
def delivered (random : Nat) : List OtpEvent :=
  [.requestCode 0 random true, .storeCode 0 true, .resetAttempts 0 true, .send 0 true,
    .startCooldown 0 true]

/-- A wrong guess, and then the right one. -/
def secondTry : List OtpEvent :=
  delivered 123456 ++ [.verify 1 "000000", .readCode 1 true, .readAttempts 1 true,
    .countAttempt 1 true, .verify 2 "123456", .readCode 2 true, .readAttempts 2 true, .burn 2 true]

theorem guessLimit_secondTry : Meets step Serial init secondTry ∧
    Throughout step GuessLimit init secondTry := by
  have hserial : Meets step Serial init secondTry := by
    refine ⟨trivial, trivial, trivial, trivial, trivial, trivial, trivial, ?_, ?_, trivial, trivial,
      ?_, ?_, trivial⟩
    · intro guess stored hcall _
      cases hcall
      refine ⟨rfl, fun id => ?_, ?_, nofun⟩
      · change Option.bind (if id = 1 then _ else if id = 1 then _ else none) _ = none
        by_cases h1 : id = 1
        · rw [if_pos h1]
          rfl
        · simp only [if_neg h1, Option.bind_none]
      · rintro ⟨id, hid⟩
        change (if id = 0 then some (IssuePhase.returned true) else if id = 0 then _ else
          if id = 0 then _ else if id = 0 then _ else if id = 0 then _ else none) = _ at hid
        by_cases h0 : id = 0 <;> simp [h0] at hid
    · exact fun _ _ _ _ _ => rfl
    · intro guess stored hcall _
      cases hcall
      refine ⟨rfl, fun id => ?_, ?_, nofun⟩
      · change Option.bind (if id = 2 then _ else if id = 2 then _ else if id = 1 then _ else
          if id = 1 then _ else if id = 1 then _ else if id = 1 then _ else none) _ = none
        by_cases h2 : id = 2
        · rw [if_pos h2]
          rfl
        · by_cases h1 : id = 1
          · rw [if_neg h2, if_neg h2, if_pos h1]
            rfl
          · simp only [if_neg h2, if_neg h1, Option.bind_none]
      · rintro ⟨id, hid⟩
        change (if id = 0 then some (IssuePhase.returned true) else if id = 0 then _ else
          if id = 0 then _ else if id = 0 then _ else if id = 0 then _ else none) = _ at hid
        by_cases h0 : id = 0 <;> simp [h0] at hid
    · exact fun _ _ _ _ => rfl
  exact ⟨hserial, guessLimit_throughout secondTry hserial⟩

/-- Six verifications read the attempts before the first of them writes one. -/
def sixRacers : List OtpEvent :=
  delivered 123456 ++ [1, 2, 3, 4, 5, 6].flatMap fun id =>
    [.verify id "000000", .readCode id true, .readAttempts id true]

theorem not_guessLimit_sixRacers : ¬ Throughout step GuessLimit init sixRacers := by
  intro h
  have hlast := h.last (by rfl)
  exact absurd (hlast 0).1 (by decide +kernel)

end OtpSystem

end CallNet.Api
