import CallNet.Edge.CdrShipping
import CallNet.ForStd.Utf8

/-!
# The wire format of CDR rows

`CDRRow` and `PostCDR` of the agent (`edge/agent/central.go`), and the binding of `EdgeCDR`
(`internal/models/edge.go`) in `IngestCDR`.  JSON text stands for its value: the agent's encoder
and the server's decoder are the same library's.  What `IngestCDRs` overwrites in each record
(its id, device and time of receipt) is left out.
-/

namespace CallNet.Edge

/-! ## JSON -/

inductive Json where
  | null
  | num (n : Int)
  | str (s : List Char)
  | arr (elems : List Json)
  | obj (members : List (String × Json))

namespace Json

/-- A string of bytes; those that are no text are replaced. -/
def ofString (s : Bytes) : Json := .str (Utf8.decodeLossy s)

def ofInt (n : Int64) : Json := .num n.toInt

/-- A member with `omitempty`. -/
def omitEmpty {α : Type} [DecidableEq α] (key : String) (zero : α) (value : α → Json) (a : α) :
    List (String × Json) :=
  if a = zero then [] else [(key, value a)]

/-- A value is decoded into a string; `null` leaves what was there. -/
def intoString {α : Type} (before : α) (set : Bytes → α) : Json → Option α
  | .str s => some (set (Utf8.encode s))
  | .null => some before
  | _ => none

def intoInt {α : Type} (before : α) (set : Int64 → α) : Json → Option α
  | .num n =>
    if Int64.minValue.toInt ≤ n ∧ n ≤ Int64.maxValue.toInt then some (set (Int64.ofInt n)) else none
  | .null => some before
  | _ => none

end Json

/-! ## The agent -/

structure CDRRow where
  raw : Bytes
  callerIDName : Bytes := []
  callerIDNumber : Bytes := []
  destination : Bytes := []
  startStamp : Bytes := []
  endStamp : Bytes := []
  duration : Int64 := 0
  billsec : Int64 := 0
  hangupCause : Bytes := []
  uuid : Bytes := []
deriving DecidableEq

def CDRRow.toJson (row : CDRRow) : Json :=
  .obj ([("raw", .ofString row.raw)] ++
    Json.omitEmpty "callerIdName" [] .ofString row.callerIDName ++
    Json.omitEmpty "callerIdNumber" [] .ofString row.callerIDNumber ++
    Json.omitEmpty "destination" [] .ofString row.destination ++
    Json.omitEmpty "startStamp" [] .ofString row.startStamp ++
    Json.omitEmpty "endStamp" [] .ofString row.endStamp ++
    Json.omitEmpty "duration" 0 .ofInt row.duration ++
    Json.omitEmpty "billsec" 0 .ofInt row.billsec ++
    Json.omitEmpty "hangupCause" [] .ofString row.hangupCause ++
    Json.omitEmpty "uuid" [] .ofString row.uuid)

/-- The body that `PostCDR` sends. -/
def postCDR (rows : List CDRRow) : Json := .obj [("rows", .arr (rows.map CDRRow.toJson))]

/-! ## The server -/

structure EdgeCDR where
  raw : Bytes := []
  callerIDName : Bytes := []
  callerIDNumber : Bytes := []
  destination : Bytes := []
  startStamp : Bytes := []
  endStamp : Bytes := []
  duration : Int64 := 0
  billsec : Int64 := 0
  hangupCause : Bytes := []
  uuid : Bytes := []
deriving DecidableEq

inductive EdgeCDRField where
  | raw
  | callerIDName
  | callerIDNumber
  | destination
  | startStamp
  | endStamp
  | duration
  | billsec
  | hangupCause
  | uuid
deriving DecidableEq, Repr

namespace EdgeCDRField

/-- The name in the field's `json` tag. -/
def tag : EdgeCDRField → String
  | raw => "raw"
  | callerIDName => "caller_id_name"
  | callerIDNumber => "caller_id_number"
  | destination => "destination"
  | startStamp => "start_stamp"
  | endStamp => "end_stamp"
  | duration => "duration"
  | billsec => "billsec"
  | hangupCause => "hangup_cause"
  | uuid => "uuid"

def all : List EdgeCDRField :=
  [raw, callerIDName, callerIDNumber, destination, startStamp, endStamp, duration, billsec,
    hangupCause, uuid]

end EdgeCDRField

/-- Names are compared without regard to the case of their letters. -/
def foldName (name : String) : List Char := name.toList.map Char.toUpper

/-- The field that a member is decoded into: that of its very name, else one of the folded name. -/
def fieldOf (key : String) : Option EdgeCDRField :=
  (EdgeCDRField.all.find? fun f => f.tag = key).or
    (EdgeCDRField.all.find? fun f => foldName f.tag = foldName key)

namespace EdgeCDR

/-- A member is decoded into the record; one without a field is passed over. -/
def assign (r : EdgeCDR) (member : String × Json) : Option EdgeCDR :=
  match fieldOf member.1 with
  | none => some r
  | some .raw => member.2.intoString r fun v => { r with raw := v }
  | some .callerIDName => member.2.intoString r fun v => { r with callerIDName := v }
  | some .callerIDNumber => member.2.intoString r fun v => { r with callerIDNumber := v }
  | some .destination => member.2.intoString r fun v => { r with destination := v }
  | some .startStamp => member.2.intoString r fun v => { r with startStamp := v }
  | some .endStamp => member.2.intoString r fun v => { r with endStamp := v }
  | some .duration => member.2.intoInt r fun v => { r with duration := v }
  | some .billsec => member.2.intoInt r fun v => { r with billsec := v }
  | some .hangupCause => member.2.intoString r fun v => { r with hangupCause := v }
  | some .uuid => member.2.intoString r fun v => { r with uuid := v }

def ofJson : Json → Option EdgeCDR
  | .obj members => members.foldlM assign {}
  | .null => some {}
  | _ => none

end EdgeCDR

/-- The rows that `IngestCDR` binds; a member of another name is passed over. -/
def ingestCDR : Json → Option (List EdgeCDR)
  | .obj members =>
    members.foldlM (fun rows member =>
      if foldName member.1 = foldName "rows" then
        match member.2 with
        | .arr elems => elems.mapM EdgeCDR.ofJson
        | .null => some []
        | _ => none
      else some rows) []
  | .null => some []
  | _ => none

end CallNet.Edge
