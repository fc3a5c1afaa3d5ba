import CallNet.Engine.DialPlan
import Mathlib.Data.Rat.Defs

/-!
# Numbers from strings

`Number(s)` and `parseInt(s, 10)` of the runtime, with the rounding to double precision.  Both
answer `none` for a value that is not finite.
-/

namespace CallNet

/-! ## Double precision -/

/-- The nearest integer, the even one of two. -/
def roundEven (q : Rat) : Int :=
  let f := q.floor
  if q - f < 1 / 2 then f
  else if 1 / 2 < q - f then f + 1
  else if f % 2 = 0 then f
  else f + 1

/-- The exponent of the largest power of two that is not above a positive number. -/
def binaryExponent (q : Rat) : Int :=
  let k : Int := (q.num.toNat.log2 : Int) - q.den.log2
  if (2 : Rat) ^ k ≤ q then k else k - 1

/-- The nearest double of a number that is not negative. -/
def nearestDouble (q : Rat) : Rat :=
  if q = 0 then 0
  else
    let ulp : Rat := 2 ^ max (-1074) (binaryExponent q - 52)
    roundEven (q / ulp) * ulp

/-- A number that is not negative as a double, `none` when it overflows. -/
def toDouble (q : Rat) : Option Rat :=
  if nearestDouble q < 2 ^ 1024 then some (nearestDouble q) else none

/-! ## Numerals -/

/-- The value of a digit, 16 for any other character. -/
def digitValue (c : Char) : Nat :=
  if isDigit c then c.toNat - '0'.toNat
  else if 'a' ≤ c ∧ c ≤ 'f' then c.toNat - 'a'.toNat + 10
  else if 'A' ≤ c ∧ c ≤ 'F' then c.toNat - 'A'.toNat + 10
  else 16

/-- The value of digits in a base. -/
def digitsIn (base : Nat) (ds : List Char) : Nat :=
  ds.foldl (fun n c => base * n + digitValue c) 0

/-- A numeral of at least one digit. -/
def numeralIn (base : Nat) (ds : List Char) : Option Nat :=
  letI : Decidable (∀ c ∈ ds, digitValue c < base) := List.decidableBAll _ ds
  if ds ≠ [] ∧ ∀ c ∈ ds, digitValue c < base then some (digitsIn base ds) else none

/-- A sign, if there is one, and the rest. -/
def takeSign : List Char → Bool × List Char
  | '-' :: rest => (true, rest)
  | '+' :: rest => (false, rest)
  | rest => (false, rest)

/-- The factor of an exponent part, which may be missing. -/
def exponentFactor : List Char → Option Rat
  | [] => some 1
  | e :: rest =>
    if e = 'e' ∨ e = 'E' then
      let (negative, ds) := takeSign rest
      (numeralIn 10 ds).map fun n => (10 : Rat) ^ (if negative then -(n : Int) else n)
    else none

/-- A decimal literal without a sign. -/
def unsignedDecimal (s : List Char) : Option Rat :=
  let whole := s.takeWhile isDigit
  let rest := s.dropWhile isDigit
  let (fraction, rest) := match rest with
    | '.' :: rest => (rest.takeWhile isDigit, rest.dropWhile isDigit)
    | rest => ([], rest)
  if whole ++ fraction = [] then none
  else
    (exponentFactor rest).map fun factor =>
      (digitsIn 10 (whole ++ fraction) : Rat) / 10 ^ fraction.length * factor

/-- A literal in base 16, 8 or 2, which takes no sign. -/
def prefixedLiteral : List Char → Option (Option Nat)
  | '0' :: 'x' :: ds | '0' :: 'X' :: ds => some (numeralIn 16 ds)
  | '0' :: 'o' :: ds | '0' :: 'O' :: ds => some (numeralIn 8 ds)
  | '0' :: 'b' :: ds | '0' :: 'B' :: ds => some (numeralIn 2 ds)
  | _ => none

/-- `Number(s)`; nothing but blanks is 0. -/
def jsNumber (s : String) : Option Rat :=
  match (trim s).toList with
  | [] => some 0
  | cs =>
    match prefixedLiteral cs with
    | some numeral => numeral.bind fun n => toDouble n
    | none =>
      let (negative, cs) := takeSign cs
      ((unsignedDecimal cs).bind toDouble).map fun q => if negative then -q else q

/-- `parseInt(s, 10)`: the digits at the front, after blanks and a sign. -/
def parseInt10 (s : String) : Option Rat :=
  let (negative, cs) := takeSign (s.toList.dropWhile isSpace)
  let ds := cs.takeWhile isDigit
  if ds = [] then none
  else (toDouble (digitsIn 10 ds)).map fun q => if negative then -q else q

end CallNet
