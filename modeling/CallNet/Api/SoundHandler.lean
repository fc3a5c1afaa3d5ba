import CallNet.Engine.IvrFlow
import CallNet.ForStd.PosixPath
import CallNet.ForStd.Utf8

/-!
# Uploaded prompts

How `Upload` of `handler/sound_handler.go` names an IVR prompt: the reference that flows
store, below the folder that the media server plays from.  An extension claim and a file name
are bytes that the client chose.
-/

namespace CallNet

namespace Sounds

/-! ## File names -/

/-- `/` -/
def slash : UInt8 := 0x2F

/-- `.` -/
def dot : UInt8 := 0x2E

/-- `filepath.Base` -/
def base (path : List UInt8) : List UInt8 :=
  if path = [] then [dot]
  else
    let name := ((path.reverse.dropWhile (· = slash)).takeWhile (· ≠ slash)).reverse
    if name = [] then [slash] else name

/-- `filepath.Ext` -/
def ext (path : List UInt8) : List UInt8 :=
  let reversed := path.reverse
  let tail := reversed.takeWhile fun b => b ≠ dot ∧ b ≠ slash
  if (reversed.drop tail.length).head? = some dot then dot :: tail.reverse else []

/-- `strings.TrimSuffix` -/
def trimSuffix (s suffix : List UInt8) : List UInt8 :=
  if suffix <:+ s then s.take (s.length - suffix.length) else s

/-- `[0-9a-zA-Z_-]` -/
def isSafe (c : Char) : Bool := isAlnum c ∨ c = '_' ∨ c = '-'

/-- `strings.Map` with the rule for names: any other rune, and a byte that is none, becomes an
    underscore. -/
def safeMap (s : List UInt8) : List Char :=
  (Utf8.decodeLossy s).map fun r => if isSafe r then r else '_'

/-- The extension as a directory name. -/
def safeExtToken (extension : List UInt8) : List Char := safeMap extension

/-- The name of the file as a `.wav`. -/
def safeSoundName (name : List UInt8) : List Char :=
  let stem := safeMap (trimSuffix (base name) (ext name))
  -- one byte a character by now
  let stem := if stem.length > 60 then stem.take 60 else stem
  let stem := if stem = [] then "audio".toList else stem
  stem ++ ".wav".toList

/-! ## The time of the upload -/

/-- A time in UTC. -/
structure UtcTime where
  year : Int
  month : Nat
  day : Nat
  hour : Nat
  minute : Nat
  second : Nat
  nanosecond : Nat
deriving DecidableEq, Repr

/-- `appendInt` of package `time`: zero-padded, behind a sign when it is negative. -/
def appendInt (x : Int) (width : Nat) : List Char :=
  (if x < 0 then ['-'] else []) ++ (Nat.toDigits 10 x.natAbs).leftpad width '0'

/-- `Format("20060102-150405.000")` -/
def UtcTime.format (t : UtcTime) : List Char :=
  appendInt t.year 4 ++ appendInt t.month 2 ++ appendInt t.day 2 ++ '-' ::
    (appendInt t.hour 2 ++ appendInt t.minute 2 ++ appendInt t.second 2 ++ '.' ::
      (Nat.toDigits 10 (t.nanosecond / 1000000)).leftpad 3 '0')

/-! ## Upload -/

/-- The reference of an IVR prompt, `<ext>/<datetime>/<name>.wav`; a request without an
    extension claim is refused.  `ToSlash` leaves a path of a Unix server as it is. -/
def storeName (extension fileName : List UInt8) (now : UtcTime) : Option String :=
  if extension = [] then none
  else
    let relDir := PosixPath.join [safeExtToken extension, now.format]
    some (String.ofList (PosixPath.join [relDir, safeSoundName fileName]))

end Sounds

end CallNet
