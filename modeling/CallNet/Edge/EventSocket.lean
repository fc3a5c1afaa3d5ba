import CallNet.Edge.VoicemailSync
import CallNet.ForStd.BufferedReader
import CallNet.ForStd.OrdMap
import Mathlib.Algebra.Group.Nat.Defs

/-!
# The event socket of the edge agent

`readEvent` of `edge/agent/esl.go`: one event of FreeSWITCH's event socket, a block of headers
and a body of the announced length. Strings are the bytes of Go's strings.
-/

namespace CallNet.Edge

/-! ## Strings of Go -/

def carriageReturn : UInt8 := 13

/-- `strings.TrimRight(line, "\r\n")` -/
def trimLineEnd (line : Bytes) : Bytes :=
  (line.reverse.dropWhile fun b => b = carriageReturn ∨ b = newline).reverse

def colon : UInt8 := 58

def digit (b : UInt8) : Option Nat := if 48 ≤ b ∧ b ≤ 57 then some (b.toNat - 48) else none

/-- The number of some digits; `none` without any, or where there is anything else. -/
def digits (s : Bytes) : Option Nat :=
  if s = [] then none
  else s.foldlM (fun n b => (digit b).map fun d => n * 10 + d) 0

/-- `strconv.Atoi` -/
def atoi (s : Bytes) : Option Int :=
  match s with
  | 0x2D :: ds => (digits ds).bind fun n => if n ≤ 2 ^ 63 then some (-n) else none
  | 0x2B :: ds => (digits ds).bind fun n => if n < 2 ^ 63 then some n else none
  | ds => (digits ds).bind fun n => if n < 2 ^ 63 then some n else none

/-! ## Events -/

/-- What `readEvent` returns. -/
structure EslEvent where
  headers : OrdMap Bytes Bytes
  body : Bytes

/-- `"Content-Length"` -/
def contentLength : Bytes :=
  [0x43, 0x6F, 0x6E, 0x74, 0x65, 0x6E, 0x74, 0x2D, 0x4C, 0x65, 0x6E, 0x67, 0x74, 0x68]

/-- The headers with those of one more line: there is one if a colon stands behind the first
    byte. -/
def addHeader (headers : OrdMap Bytes Bytes) (line : Bytes) : OrdMap Bytes Bytes :=
  match line.dropWhile (· ≠ colon) with
  | [] => headers
  | _ :: rest =>
    let name := line.takeWhile (· ≠ colon)
    if name = [] then headers else headers.set (trimSpace name) (trimSpace rest)

/-- The loop over the lines, up to an empty one; `none` is an error of the connection. -/
def readHeaders (r : Reader UInt8) (headers : OrdMap Bytes Bytes) :
    Option (OrdMap Bytes Bytes × Reader UInt8) :=
  match _hline : r.readString newline [] with
  | none => none
  | some (line, r') =>
    if trimLineEnd line = [] then some (headers, r')
    else readHeaders r' (addHeader headers (trimLineEnd line))
termination_by r.stream.length
decreasing_by exact Reader.length_of_readString newline _hline

/-- The length of the body that the headers announce; 0 if there is none to read. -/
def bodyLength (headers : OrdMap Bytes Bytes) : Nat :=
  let cl := (headers.get? contentLength).getD []
  if cl = [] then 0
  else
    match atoi cl with
    | some n => n.toNat
    | none => 0

/-- Read one header block plus an optional body. -/
def readEvent (r : Reader UInt8) : Option (EslEvent × Reader UInt8) :=
  (readHeaders r .empty).bind fun (headers, r) =>
    if bodyLength headers = 0 then some (⟨headers, []⟩, r)
    else (r.readFull (bodyLength headers) []).map fun (body, r) => (⟨headers, body⟩, r)

/-- `readEvent`, so many times. -/
def readEvents : Nat → Reader UInt8 → Option (List EslEvent × Reader UInt8)
  | 0, r => some ([], r)
  | n + 1, r =>
    (readEvent r).bind fun (event, r) =>
      (readEvents n r).map fun (events, r) => (event :: events, r)

end CallNet.Edge
