import CallNet.Api.Saves
import CallNet.ForStd.OrdMap
import Mathlib.Data.List.Sort

/-!
# Connectors

`internal/service/connector_service.go`.  A config is a JSON text; it is kept as far as the
service looks into it: the members of an object, and of a member whether it is `null` or a
string.  The timestamps of a row are left out.
-/

namespace CallNet.Api

/-- What an object has under a key. -/
inductive RawField where
  | null
  | text (s : String)
  /-- A number, a boolean, an array or an object. -/
  | other (json : String)
deriving DecidableEq, Repr

/-- A `json.RawMessage` that holds a config. -/
inductive RawConfig where
  | null
  | object (members : List (String × RawField))
  /-- Neither `null` nor an object. -/
  | other (json : String)
deriving DecidableEq, Repr

/-- The keys of a config. -/
def RawConfig.keys : RawConfig → List String
  | .object members => members.map Prod.fst
  | _ => []

/-- A Go map; a nil one is `none`. -/
abbrev GoMap := Option (OrdMap String RawField)

/-- `json.Unmarshal` into an empty map, `none` if it fails: of two members of one name the last
    stays, and `null` makes the map nil. -/
def RawConfig.unmarshal : RawConfig → Option GoMap
  | .null => some none
  | .object members => some (some (.ofList members))
  | .other _ => none

/-- The map that is left when the error of `json.Unmarshal` is ignored. -/
def RawConfig.unmarshalled (raw : RawConfig) : GoMap := raw.unmarshal.getD (some .empty)

/-- `json.Marshal`, which sorts the keys. -/
def marshal : GoMap → RawConfig
  | none => .null
  | some m => .object (m.entries.insertionSort fun a b => a.1 ≤ b.1)

/-- `ConnectorTypes` -/
inductive ConnectorType where
  | email
  | webhook
deriving DecidableEq, Repr

/-- `unicode.ToLower`, as far as it gives an ASCII letter. -/
def toLowerRune (c : Char) : Char :=
  if c = '\u0130' then 'i' else if c = '\u212a' then 'k' else c.toLower

/-- The type of a text, if it is one of `ConnectorTypes`. -/
def ConnectorType.ofText (s : String) : Option ConnectorType :=
  match (trimSpace s).map toLowerRune with
  | "email" => some .email
  | "webhook" => some .webhook
  | _ => none

def connectorSecretFields : ConnectorType → List String
  | .email => ["password"]
  | .webhook => ["secret"]

inductive ConnectorError where
  /-- `ErrConnectorNotFound` -/
  | notFound
  /-- `ErrConnectorInvalid` -/
  | invalid
  /-- An error of the database. -/
  | repo
  /-- An assignment to an entry in a nil map. -/
  | nilMap
deriving DecidableEq, Repr

structure ConnectorInput where
  name : Option String
  type : Option String
  enabled : Option Bool
  config : Option RawConfig
deriving DecidableEq, Repr

/-- A row of the table, without its id. -/
structure Connector where
  name : String
  type : ConnectorType
  ownerExtension : String
  enabled : Bool
  config : RawConfig
deriving DecidableEq, Repr

structure ConnectorView where
  id : Nat
  name : String
  type : ConnectorType
  ownerExtension : String
  enabled : Bool
  config : RawConfig
  hasSecret : Bool
deriving DecidableEq, Repr

/-- One round of the loop of `redactConnectorConfig`. -/
def redactKey (acc : OrdMap String RawField × Bool) (key : String) : OrdMap String RawField × Bool :=
  match acc.1.get? key with
  | some v =>
    let found := match v with
      | .text sv => decide (sv ≠ "")
      | _ => false
    (acc.1.delete key, acc.2 || found)
  | none => acc

def redactConnectorConfig (t : ConnectorType) (raw : RawConfig) : RawConfig × Bool :=
  match raw.unmarshalled with
  | some m =>
    let (m, hasSecret) := (connectorSecretFields t).foldl redactKey (m, false)
    (marshal (some m), hasSecret)
  | none => (marshal none, false)

def toConnectorView (id : Nat) (c : Connector) : ConnectorView :=
  let (cfg, hasSecret) := redactConnectorConfig c.type c.config
  { id := id, name := c.name, type := c.type, ownerExtension := c.ownerExtension,
    enabled := c.enabled, config := cfg, hasSecret := hasSecret }

/-- A field that is missing, `null` or the empty string. -/
def blank : Option RawField → Bool
  | none | some .null => true
  | some (.text sv) => sv = ""
  | some (.other _) => false

/-- One round of the loop of `preserveConnectorSecrets`. -/
def restoreKey (exMap : GoMap) (inMap : GoMap) (key : String) : Except ConnectorError GoMap :=
  if blank (inMap.bind (·.get? key)) then
    match exMap.bind (·.get? key) with
    | some ex =>
      match inMap with
      | some m => .ok (some (m.set key ex))
      | none => .error .nilMap
    | none => .ok (inMap.map (·.delete key))
  else .ok inMap

/-- Every error of it that is not a panic is reported as `ErrConnectorInvalid`. -/
def preserveConnectorSecrets (t : ConnectorType) (existing incoming : RawConfig) :
    Except ConnectorError RawConfig :=
  match incoming.unmarshal with
  | none => .error .invalid
  | some inMap =>
    ((connectorSecretFields t).foldlM (restoreKey existing.unmarshalled) inMap).map marshal

/-- The table `connectors`; an id that was given once is not given again. -/
structure ConnectorTable where
  rows : OrdMap Nat Connector
  nextId : Nat

namespace ConnectorTable

def init : ConnectorTable := { rows := .empty, nextId := 1 }

def list (s : ConnectorTable) : List ConnectorView :=
  s.rows.entries.map fun e => toConnectorView e.1 e.2

def listByOwner (s : ConnectorTable) (owner : String) : List ConnectorView :=
  (s.rows.entries.filter fun e => e.2.ownerExtension = owner).map fun e => toConnectorView e.1 e.2

def get (s : ConnectorTable) (id : Nat) : Except ConnectorError ConnectorView :=
  match s.rows.get? id with
  | some c => .ok (toConnectorView id c)
  | none => .error .notFound

/-- `Create`; `saved` is whether the insert succeeds.  The column `enabled` has the default `true`,
    with which GORM replaces a `false` at an insert. -/
def create (s : ConnectorTable) (owner : String) (input : ConnectorInput) (saved : Bool) :
    ConnectorTable × Except ConnectorError ConnectorView :=
  let name := trimSpace (input.name.getD "")
  match input.type.bind ConnectorType.ofText with
  | none => (s, .error .invalid)
  | some type =>
    if name = "" then (s, .error .invalid) else
    let conn : Connector :=
      { name := name, type := type, ownerExtension := owner, enabled := true,
        config := input.config.getD (.object []) }
    if saved then
      ({ rows := s.rows.set s.nextId conn, nextId := s.nextId + 1 },
        .ok (toConnectorView s.nextId conn))
    else (s, .error .repo)

/-- The type that a row has after an update, unless the update is refused for it. -/
def newType (input : ConnectorInput) (conn : Connector) : Option ConnectorType :=
  input.type.elim (some conn.type) ConnectorType.ofText

def newName (input : ConnectorInput) (conn : Connector) : String :=
  (input.name.map trimSpace).getD conn.name

/-- `Update`; `read` and `saved` are whether the database answers. -/
def update (s : ConnectorTable) (id : Nat) (input : ConnectorInput) (read saved : Bool) :
    ConnectorTable × Except ConnectorError ConnectorView :=
  if !read then (s, .error .repo) else
  match s.rows.get? id with
  | none => (s, .error .notFound)
  | some conn =>
    match newType input conn with
    | none => (s, .error .invalid)
    | some type =>
      if newName input conn = "" then (s, .error .invalid) else
      let config := match input.config with
        | some incoming => preserveConnectorSecrets type conn.config incoming
        | none => .ok conn.config
      match config with
      | .error e => (s, .error e)
      | .ok config =>
        let conn : Connector := { conn with
          name := newName input conn
          type := type
          enabled := input.enabled.getD conn.enabled
          config := config }
        if saved then ({ s with rows := s.rows.set id conn }, .ok (toConnectorView id conn))
        else (s, .error .repo)

/-- `Delete`; `read` and `deleted` are whether the database answers. -/
def delete (s : ConnectorTable) (id : Nat) (read deleted : Bool) :
    ConnectorTable × Option ConnectorError :=
  if !read then (s, some .repo) else
  match s.rows.get? id with
  | none => (s, some .notFound)
  | some _ =>
    if deleted then ({ s with rows := s.rows.delete id }, none) else (s, some .repo)

end ConnectorTable

end CallNet.Api
