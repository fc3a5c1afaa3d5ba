import CallNet.Api.RateService

/-!
# Accounts

`internal/service/auth_service.go`: what signup stores for a new user, and the extension it
derives from the mobile number.  Sign-up with a one-time code ends in the same function.
-/

namespace CallNet.Api

structure User where
  extension : String
  username : String
  name : String
  mobile : String
  password : String
deriving DecidableEq, Repr

/-- The number without spaces and dashes. -/
def normalizeMobile (mobile : String) : String :=
  let n := String.ofList (mobile.toList.filter (· ≠ ' '))
  String.ofList (n.toList.filter (· ≠ '-'))

/-- The last seven digits, or all of them padded with zeros to five. -/
def generateExtension (mobile : String) : String :=
  let digits := mobile.toList.filter fun c => '0' ≤ c ∧ c ≤ '9'
  let digits := if digits.length > 7 then digits.drop (digits.length - 7) else digits
  String.ofList (digits.leftpad 5 '0')

/-- `fmt.Sprintf("%0*d", width, n)` -/
def zeroPad (width n : Nat) : String := String.ofList ((toString n).toList.leftpad width '0')

/-- The extension of a mobile number, or when that is taken a successor of the same width;
    `found` says for which extensions `GetByExtension` gives a user. -/
def uniqueExtension (found : String → Bool) (mobile : String) : String :=
  let base := generateExtension mobile
  if found base = false then base
  else
    match atoi base with
    | none => base
    | some n =>
      let width := base.length
      let mod := 10 ^ width
      -- the base has digits only, so that `n` is not negative
      let probes := ((List.range' 1 1000).takeWhile (· < mod)).map fun i =>
        zeroPad width ((n.toNat + i) % mod)
      (probes.find? fun cand => found cand = false).getD base

inductive SignupError where
  /-- `phone number already registered` -/
  | phoneRegistered
  /-- `failed to hash password` -/
  | hashFailed
  /-- `failed to create user` -/
  | createFailed
deriving DecidableEq, Repr

/-- `userRepo.Create`: the user name and the mobile are unique.  `rejects` is what else keeps the
    database from storing a row. -/
def createUser (rejects : User → Bool) (users : List User) (user : User) : Bool :=
  users.all (fun u => u.username ≠ user.username ∧ u.mobile ≠ user.mobile) && !rejects user

/-- The user that signup stores; `hash` is bcrypt, which refuses long passwords. -/
def signup (hash : String → Option String) (rejects : User → Bool) (users : List User)
    (name mobile password : String) : Except SignupError User :=
  let normalized := normalizeMobile mobile
  if users.any fun u => u.mobile = normalized then .error .phoneRegistered
  else
    match hash password with
    | none => .error .hashFailed
    | some hashed =>
      let ext := uniqueExtension (fun ext => users.any fun u => u.extension = ext) normalized
      let user : User :=
        { extension := ext, username := ext, name := name, mobile := normalized
          password := hashed }
      if createUser rejects users user then .ok user else .error .createFailed

end CallNet.Api
