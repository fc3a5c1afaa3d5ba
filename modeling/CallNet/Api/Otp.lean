import CallNet.Api.Saves

/-!
# One-time codes

`internal/service/otp_service.go`, for one purpose and one mobile, as a machine: any number of
requests for a code and of verifications take their cache operations one after the other, in
any order, and each operation may fail.  SMS delivery is available; without it a request stops
before it touches the cache.
-/

namespace CallNet.Api

/-- Wrong tries before a code is burned. -/
def otpMaxAttempts : Nat := 5

def otpDigits : Nat := 6

/-- The code of a random number: its digits, padded with zeros. -/
def genCode (n : Nat) : String :=
  let shown := toString n
  String.ofList (List.replicate (otpDigits - shown.length) '0') ++ shown

/-- A stored code; the codes are numbered to tell them apart, the cache has the digits only. -/
structure IssuedCode where
  id : Nat
  digits : String
deriving DecidableEq, Repr

/-- The cache operation that `verify` awaits. -/
inductive VerifyPhase where
  /-- `Get` of the code -/
  | reading
  /-- `Get` of the attempts -/
  | counting (stored : IssuedCode)
  /-- `Del` of the code and the attempts -/
  | exhausted
  /-- `Set` of the attempts, one more than were read -/
  | wrong (stored : IssuedCode) (attempts : Nat)
  /-- `Del` of all three keys -/
  | right (stored : IssuedCode)
  | returned (ok : Bool)
deriving DecidableEq, Repr

structure VerifyCall where
  code : String
  phase : VerifyPhase := .reading
deriving DecidableEq, Repr

/-- The operation that `issue` awaits. -/
inductive IssuePhase where
  /-- `Set` of the code -/
  | minted (code : String)
  /-- `Del` of the attempts -/
  | stored
  /-- the SMS -/
  | sending
  /-- `Del` of the code, which was not delivered -/
  | undelivered
  /-- `Set` of the cooldown -/
  | sent
  | returned (ok : Bool)
deriving DecidableEq, Repr

/-- The three keys of the cache, and the calls.  The attempts are kept as the number they
    spell. -/
structure OtpSystem where
  code : Option IssuedCode
  attempts : Option Nat
  cooldown : Bool
  verifies : Nat → Option VerifyCall
  issues : Nat → Option IssuePhase
  /-- How many codes were stored. -/
  issued : Nat
  /-- The wrong guesses that were compared against each code. -/
  wrongGuesses : Nat → Nat
  /-- The guesses that were accepted for each code. -/
  successes : Nat → Nat
  /-- The code whose wrong guesses the attempts count. -/
  current : Option Nat
  /-- The attempts were written since that code was stored. -/
  counted : Bool

inductive OtpEvent where
  | verify (id : Nat) (code : String)
  | readCode (id : Nat) (ok : Bool)
  | readAttempts (id : Nat) (ok : Bool)
  | countAttempt (id : Nat) (ok : Bool)
  | burn (id : Nat) (ok : Bool)
  | requestCode (id : Nat) (random : Nat) (ok : Bool)
  | storeCode (id : Nat) (ok : Bool)
  | resetAttempts (id : Nat) (ok : Bool)
  | send (id : Nat) (ok : Bool)
  | withdrawCode (id : Nat) (ok : Bool)
  | startCooldown (id : Nat) (ok : Bool)
  | codeExpires
  | attemptsExpire
  | cooldownExpires

namespace OtpSystem

def init : OtpSystem where
  code := none
  attempts := none
  cooldown := false
  verifies := fun _ => none
  issues := fun _ => none
  issued := 0
  wrongGuesses := fun _ => 0
  successes := fun _ => 0
  current := none
  counted := false

def setVerify (s : OtpSystem) (id : Nat) (call : VerifyCall) : OtpSystem :=
  { s with verifies := fun id' => if id' = id then some call else s.verifies id' }

def setIssue (s : OtpSystem) (id : Nat) (phase : IssuePhase) : OtpSystem :=
  { s with issues := fun id' => if id' = id then some phase else s.issues id' }

/-- A guess is compared, once the attempts are read. -/
def compare (s : OtpSystem) (id : Nat) (guess : String) (stored : IssuedCode) (attempts : Nat) :
    OtpSystem :=
  if otpMaxAttempts ≤ attempts then s.setVerify id ⟨guess, .exhausted⟩
  else if stored.digits ≠ trimSpace guess then
    { s.setVerify id ⟨guess, .wrong stored attempts⟩ with
      wrongGuesses := fun i => s.wrongGuesses i + if i = stored.id then 1 else 0 }
  else
    { s.setVerify id ⟨guess, .right stored⟩ with
      successes := fun i => s.successes i + if i = stored.id then 1 else 0 }

/-- The code and the attempts are deleted. -/
def burnCode (s : OtpSystem) (ok : Bool) : OtpSystem :=
  if ok then { s with code := none, attempts := none, current := none } else s

def step (s : OtpSystem) : OtpEvent → Option OtpSystem
  | .verify id guess =>
    if (s.verifies id).isSome then none else some (s.setVerify id { code := guess })
  | .readCode id ok =>
    match s.verifies id with
    | some ⟨guess, .reading⟩ =>
      match if ok then s.code else none with
      | some stored =>
        if stored.digits = "" then some (s.setVerify id ⟨guess, .returned false⟩)
        else some (s.setVerify id ⟨guess, .counting stored⟩)
      | none => some (s.setVerify id ⟨guess, .returned false⟩)
    | _ => none
  | .readAttempts id ok =>
    match s.verifies id with
    | some ⟨guess, .counting stored⟩ =>
      -- an error reads like an absent key
      some (s.compare id guess stored (if ok then s.attempts.getD 0 else 0))
    | _ => none
  | .countAttempt id ok =>
    match s.verifies id with
    | some ⟨guess, .wrong _ attempts⟩ =>
      let s := s.setVerify id ⟨guess, .returned false⟩
      some (if ok then { s with attempts := some (attempts + 1), counted := true } else s)
    | _ => none
  | .burn id ok =>
    match s.verifies id with
    | some ⟨guess, .exhausted⟩ => some ((s.setVerify id ⟨guess, .returned false⟩).burnCode ok)
    | some ⟨guess, .right _⟩ =>
      let s := (s.setVerify id ⟨guess, .returned true⟩).burnCode ok
      some { s with cooldown := s.cooldown && !ok }
    | _ => none
  | .requestCode id random ok =>
    if (s.issues id).isSome then none
    else if ok ∧ s.cooldown then some (s.setIssue id (.returned false))
    else some (s.setIssue id (.minted (genCode random)))
  | .storeCode id ok =>
    match s.issues id with
    | some (.minted code) =>
      if ok then
        some { s.setIssue id .stored with
          code := some ⟨s.issued, code⟩
          issued := s.issued + 1
          current := some s.issued
          counted := false }
      else some (s.setIssue id (.returned false))
    | _ => none
  | .resetAttempts id ok =>
    match s.issues id with
    | some .stored =>
      let s := s.setIssue id .sending
      some (if ok then { s with attempts := none } else s)
    | _ => none
  | .send id ok =>
    match s.issues id with
    | some .sending => some (s.setIssue id (if ok then .sent else .undelivered))
    | _ => none
  | .withdrawCode id ok =>
    match s.issues id with
    | some .undelivered =>
      let s := s.setIssue id (.returned false)
      some (if ok then { s with code := none } else s)
    | _ => none
  | .startCooldown id ok =>
    match s.issues id with
    | some .sent =>
      let s := s.setIssue id (.returned true)
      some (if ok then { s with cooldown := true } else s)
    | _ => none
  | .codeExpires => some { s with code := none }
  | .attemptsExpire =>
    -- written after the code, the attempts live longer than the code
    if s.code = none then some { s with attempts := none, current := none }
    else if s.counted = false then some { s with attempts := none }
    else none
  | .cooldownExpires => some { s with cooldown := false }

end OtpSystem

end CallNet.Api
