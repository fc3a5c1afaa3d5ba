import CallNet.ForStd.Lines

/-!
# CDR shipping of the edge agent

`flushCDR` of `edge/agent/main.go` with the state file of `store.go`.  FreeSWITCH appends to the
CDR file and rotates it at any time, also between the operations of the agent; posts fail in
any pattern, and the agent is restarted at any time.  A row is told by its raw line, from which
its other columns are parsed.
-/

namespace CallNet.Edge

abbrev Bytes := List UInt8

instance : LawfulBEq Bytes := inferInstance

def newline : UInt8 := 10

/-- `strings.TrimSpace` leaves nothing of the line; the longer cases are the spaces outside of
    ASCII. -/
def isBlank : Bytes → Bool
  | [] => true
  | 0xC2 :: 0x85 :: rest | 0xC2 :: 0xA0 :: rest => isBlank rest
  | 0xE1 :: 0x9A :: 0x80 :: rest | 0xE2 :: 0x81 :: 0x9F :: rest | 0xE3 :: 0x80 :: 0x80 :: rest =>
    isBlank rest
  | 0xE2 :: 0x80 :: b :: rest =>
    ((0x80 ≤ b ∧ b ≤ 0x8A) ∨ b = 0xA8 ∨ b = 0xA9 ∨ b = 0xAF) && isBlank rest
  | b :: rest => ((9 ≤ b ∧ b ≤ 13) ∨ b = 32) && isBlank rest

/-- The rows of what was read: its lines, without the blank ones. -/
def rowsOf (buf : Bytes) : List Bytes := (buf.splitOn newline).filter fun l => !isBlank l

/-- The CDR lines that the file has in full. -/
def cdrLines (content : Bytes) : List Bytes :=
  (content.completeLines newline).filter fun l => !isBlank l

/-- Where the agent is in `flushCDR`. -/
inductive FlushPhase where
  | idle
  /-- after `Stat`, with the size, the lines that were complete then, and whether the file is
      still the same -/
  | opening (size : Nat) (lines : List Bytes) (here : Bool)
  /-- `PostCDR` -/
  | posting (rows : List Bytes) (size : Nat) (lines : List Bytes) (here : Bool)
  /-- `saveState` -/
  | saving (size : Nat) (lines : List Bytes) (here : Bool)
deriving DecidableEq, Repr

structure ShippingSystem where
  file : Option Bytes
  /-- `state.CDROffset` -/
  offset : Nat
  /-- The offset in the state file. -/
  stored : Nat
  phase : FlushPhase
  /-- The rows that arrived at the central server. -/
  delivered : List Bytes
  /-- The lines of the files that are gone. -/
  past : List Bytes
  /-- The lines that were complete when the last flush began that ended without an error. -/
  owed : List Bytes
  /-- The offset counts the bytes of this file. -/
  here : Bool
  /-- The stored offset does. -/
  storedHere : Bool
deriving DecidableEq, Repr

inductive PostOutcome where
  | accepted
  /-- The rows arrive and the agent does not learn of it. -/
  | unanswered
  | failed
deriving DecidableEq, Repr

inductive ShippingEvent where
  | append (bytes : Bytes)
  /-- Another file is in the place of the old one, or none. -/
  | replace (file : Option Bytes)
  | stat
  | read (ok : Bool)
  | post (outcome : PostOutcome)
  | save (ok : Bool)
  | restart
deriving DecidableEq, Repr

namespace ShippingSystem

/-- The bytes of the file; a file that is missing has none. -/
def content (s : ShippingSystem) : Bytes := s.file.getD []

def init (file : Option Bytes) : ShippingSystem where
  file
  offset := 0
  stored := 0
  phase := .idle
  delivered := []
  past := []
  owed := []
  here := true
  storedHere := true

end ShippingSystem

/-- A flush under way is about a file that is gone. -/
def FlushPhase.leave : FlushPhase → FlushPhase
  | .idle => .idle
  | .opening size lines _ => .opening size lines false
  | .posting rows size lines _ => .posting rows size lines false
  | .saving size lines _ => .saving size lines false

namespace ShippingSystem

def step (s : ShippingSystem) : ShippingEvent → Option ShippingSystem
  | .append bytes => some { s with file := some (s.content ++ bytes) }
  | .replace file =>
    some { s with
      file
      phase := s.phase.leave
      past := s.past ++ cdrLines s.content
      here := false
      storedHere := false }
  | .stat =>
    match s.phase, s.file with
    | .idle, none => some s
    | .idle, some content =>
      -- rotated or truncated
      let s := if content.length < s.offset then { s with offset := 0, here := true } else s
      let lines := s.past ++ cdrLines content
      if content.length = s.offset then some { s with owed := lines }
      else some { s with phase := .opening content.length lines true }
    | _, _ => none
  | .read ok =>
    match s.phase with
    | .opening size lines here =>
      match ok, s.file with
      | true, some content =>
        let rows := rowsOf ((content.drop s.offset).take (size - s.offset))
        if rows = [] then some { s with phase := .saving size lines here }
        else some { s with phase := .posting rows size lines here }
      | _, _ => some { s with phase := .idle }
    | _ => none
  | .post outcome =>
    match s.phase with
    | .posting rows size lines here =>
      match outcome with
      | .accepted =>
        some { s with phase := .saving size lines here, delivered := s.delivered ++ rows }
      | .unanswered => some { s with phase := .idle, delivered := s.delivered ++ rows }
      | .failed => some { s with phase := .idle }
    | _ => none
  | .save ok =>
    match s.phase with
    | .saving size lines here =>
      some { s with
        phase := .idle
        offset := size
        stored := if ok then size else s.stored
        owed := lines
        here
        storedHere := if ok then here else s.storedHere }
    | _ => none
  | .restart => some { s with phase := .idle, offset := s.stored, here := s.storedHere }

end ShippingSystem

end CallNet.Edge
