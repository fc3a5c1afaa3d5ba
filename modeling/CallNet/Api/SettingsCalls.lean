import CallNet.Api.Saves

/-!
# Requests on the settings of extensions

`internal/service/settings_service.go` and `caller_id_service.go` with the settings repository
and the client of the carrier (`internal/twilio/client.go`), as a machine: any number of
requests take their repository, carrier and cache operations one after the other, in any order.
Reads and writes of the repository may fail, the carrier may answer anything, and cache
operations succeed.  The validity period of a caller id, which only shows in answers, is left
out.
-/

namespace CallNet.Api

/-! ## Rows -/

structure CallerIdColumns where
  outboundCallerId : String := ""
  callerIdVerified : Bool := false
  callerIdVerifiedAt : Option Nat := none
  callerIdValidationSid : String := ""
deriving DecidableEq, Repr

/-- A row of `user_settings`, with its caller id columns. -/
structure SettingsRow where
  settings : UserSettings := {}
  callerId : CallerIdColumns := {}
deriving DecidableEq, Repr

def CallerIdColumns.create (c : CallerIdColumns) : CallerIdColumns :=
  { c with callerIdVerified := orDefault false false c.callerIdVerified }

def SettingsRow.create (row : SettingsRow) : SettingsRow where
  settings := row.settings.create
  callerId := row.callerId.create

/-- The cached view of a row; the validation sid is not in it. -/
structure SettingsResponse where
  extension : String
  settings : UserSettings
  outboundCallerId : String
  callerIdVerified : Bool
  callerIdVerifiedAt : Option Nat
deriving DecidableEq, Repr

def SettingsRow.toResponse (extension : String) (row : SettingsRow) : SettingsResponse where
  extension
  settings := row.settings
  outboundCallerId := row.callerId.outboundCallerId
  callerIdVerified := row.callerId.callerIdVerified
  callerIdVerifiedAt := row.callerId.callerIdVerifiedAt

/-- What a request makes of the columns that say whether a number is verified. -/
structure Verification where
  verified : Bool
  verifiedAt : Option Nat
  validationSid : String
deriving DecidableEq, Repr

/-- The columns a request assigns, before it writes the whole row. -/
structure SettingsChange where
  input : SettingsInput := {}
  number : Option String := none
  verification : Option Verification := none
deriving DecidableEq, Repr

def SettingsChange.apply (c : SettingsChange) (row : SettingsRow) : SettingsRow where
  settings := c.input.apply row.settings
  callerId :=
    { outboundCallerId := c.number.getD row.callerId.outboundCallerId
      callerIdVerified := (c.verification.map Verification.verified).getD row.callerId.callerIdVerified
      callerIdVerifiedAt :=
        (c.verification.map Verification.verifiedAt).getD row.callerId.callerIdVerifiedAt
      callerIdValidationSid :=
        (c.verification.map Verification.validationSid).getD row.callerId.callerIdValidationSid }

/-! ## The carrier -/

structure OutgoingCallerID where
  sid : String
  phoneNumber : String
deriving DecidableEq, Repr

/-- The resource of the number, else the first one that the carrier answers with. -/
def findOutgoingCallerID (number : String) (ids : List OutgoingCallerID) : Option OutgoingCallerID :=
  (ids.find? fun id => id.phoneNumber = number).or ids.head?

/-- A validation call that the carrier places for a number. -/
structure ValidationRequest where
  extension : String
  number : String
  /-- The code was entered. -/
  completed : Bool := false
  /-- The extension has deleted the number since. -/
  undone : Bool := false
deriving DecidableEq, Repr

def hasPrefix (s prefix' : String) : Bool := prefix'.toList.isPrefixOf s.toList

def digitsOf (s : String) : String := String.ofList (s.toList.filter Char.isDigit)

def toE164 (countryCode number : String) : Option String :=
  let raw := trimSpace number
  let digits := digitsOf raw
  if hasPrefix raw "+" then
    if digits.length < 8 then none else some ("+" ++ digits)
  else
    let cc := digitsOf countryCode
    -- a number that carries the country code already keeps it
    let digits := if cc ≠ "" ∧ !hasPrefix digits cc then cc ++ digits else digits
    if digits.length < 8 then none else some ("+" ++ digits)

/-! ## Requests -/

inductive SettingsRequest where
  | get
  | update (input : SettingsInput)
  | setPstnForward (enabled : Bool) (target : String)
  | startVerification (number countryCode : String)
  | confirmVerification
  | deleteCallerId
deriving DecidableEq, Repr

/-- The operation that a request awaits. -/
inductive SettingsPhase where
  /-- `Get` of the cached settings, or `Exists` of the cooldown -/
  | looking
  /-- `Get` of the row -/
  | reading
  /-- `GetByExtension` of the user, when there is no row -/
  | newRow
  /-- `CreateValidationRequest` -/
  | requesting (row : SettingsRow) (number : String)
  /-- `FindOutgoingCallerID` -/
  | finding (row : SettingsRow)
  /-- `DeleteOutgoingCallerID` -/
  | removing (row : SettingsRow) (sid : String)
  /-- `Upsert` of the row that was read, with a change -/
  | writing (row : SettingsRow) (change : SettingsChange)
  /-- `Set` of the cached settings, or `Del` -/
  | caching (content : Option SettingsResponse)
  /-- `Set` of the cooldown -/
  | cooling
  | returned (ok : Bool)
deriving DecidableEq, Repr

structure SettingsCall where
  extension : String
  request : SettingsRequest
  phase : SettingsPhase
deriving DecidableEq, Repr

structure SettingsSystem where
  users : String → Bool
  rows : String → Option SettingsRow
  cached : String → Option SettingsResponse
  cooldown : String → Bool
  calls : Nat → Option SettingsCall
  /-- The validation requests that were started. -/
  requests : List ValidationRequest
  /-- The verified numbers of the carrier's account. -/
  account : List OutgoingCallerID
  /-- The changes that were committed. -/
  committed : List (String × SettingsChange)
  /-- The numbers that a confirmation of an extension was answered with. -/
  found : List (String × String)

inductive SettingsEvent where
  | request (id : Nat) (extension : String) (request : SettingsRequest)
  | look (id : Nat)
  | read (id : Nat) (ok : Bool)
  | lookUser (id : Nat) (ok : Bool)
  | validate (id : Nat) (answer : Option String)
  | find (id : Nat) (answer : Option (List OutgoingCallerID)) (now : Nat)
  | remove (id : Nat) (ok : Bool)
  | write (id : Nat) (ok : Bool)
  | cache (id : Nat)
  | cool (id : Nat)
  /-- The validation call for a request is completed. -/
  | complete (index : Nat) (sid : String)
  | cooldownExpires (extension : String)
  | cachedExpires (extension : String)

namespace SettingsSystem

def init (users : String → Bool) (rows : String → Option SettingsRow) : SettingsSystem where
  users
  rows
  cached := fun _ => none
  cooldown := fun _ => false
  calls := fun _ => none
  requests := []
  account := []
  committed := []
  found := []

def setPhase (s : SettingsSystem) (id : Nat) (call : SettingsCall) (phase : SettingsPhase) :
    SettingsSystem :=
  { s with calls := fun id' => if id' = id then some { call with phase } else s.calls id' }

/-- The columns that a removal clears. -/
def cleared : SettingsChange where
  number := some ""
  verification := some ⟨false, none, ""⟩

/-- Where a request begins. -/
def begins (twilio : Bool) : SettingsRequest → SettingsPhase
  | .get => .looking
  | .startVerification .. => if twilio then .looking else .returned false
  | .confirmVerification => if twilio then .reading else .returned false
  | .update _ | .setPstnForward .. | .deleteCallerId => .reading

/-- What a request does with a row that it has read, or with a new one. -/
def edits (row : SettingsRow) : SettingsRequest → SettingsPhase
  | .update input => .writing row { input }
  | .setPstnForward enabled target =>
    .writing row { input := { pstnEnabled := some enabled, pstnMobile := some target } }
  | .startVerification number countryCode =>
    match toE164 countryCode number with
    | some e164 => .requesting row e164
    | none => .returned false
  | .get | .confirmVerification | .deleteCallerId => .returned false

/-- After the read of the row; an error reads like a row that is missing. -/
def afterRead (twilio : Bool) (extension : String) (request : SettingsRequest) :
    Option SettingsRow → SettingsPhase
  | none =>
    match request with
    | .get | .confirmVerification => .returned false
    | .deleteCallerId => .returned true
    | .update _ | .setPstnForward .. | .startVerification .. => .newRow
  | some row =>
    match request with
    | .get => .caching (some (row.toResponse extension))
    | .confirmVerification =>
      if row.callerId.outboundCallerId = "" then .returned false
      else if row.callerId.callerIdVerified then .returned true
      else .finding row
    | .deleteCallerId =>
      if row.callerId.outboundCallerId = "" then .returned true
      else if twilio then .finding row
      else .writing row cleared
    | .update _ | .setPstnForward .. | .startVerification .. => edits row request

/-- After the query of the carrier; an error of a removal is passed over. -/
def afterFind (row : SettingsRow) (now : Nat) (request : SettingsRequest)
    (answer : Option (List OutgoingCallerID)) : SettingsPhase :=
  let found := answer.map (findOutgoingCallerID row.callerId.outboundCallerId)
  match request with
  | .confirmVerification =>
    match found with
    | none => .returned false
    | some none => .returned true
    | some (some id) => .writing row { verification := some ⟨true, some now, id.sid⟩ }
  | _ =>
    match found.join with
    | some id => .removing row id.sid
    | none => .writing row cleared

/-- After the write; the settings are cached as they were stored. -/
def afterWrite (extension : String) (stored : SettingsRow) : SettingsRequest → SettingsPhase
  | .update _ | .setPstnForward .. => .caching (some (stored.toResponse extension))
  | .get | .startVerification .. | .confirmVerification | .deleteCallerId => .caching none

def step (twilio : Bool) (s : SettingsSystem) : SettingsEvent → Option SettingsSystem
  | .request id extension request =>
    if (s.calls id).isSome then none
    else some (s.setPhase id ⟨extension, request, .looking⟩ (begins twilio request))
  | .look id =>
    match s.calls id with
    | some ⟨ext, .get, .looking⟩ =>
      let phase := if (s.cached ext).isSome then .returned true else .reading
      some (s.setPhase id ⟨ext, .get, .looking⟩ phase)
    | some ⟨ext, .startVerification number countryCode, .looking⟩ =>
      let phase := if s.cooldown ext ∨ (toE164 countryCode number).isNone then .returned false
        else .reading
      some (s.setPhase id ⟨ext, .startVerification number countryCode, .looking⟩ phase)
    | _ => none
  | .read id ok =>
    match s.calls id with
    | some ⟨ext, request, .reading⟩ =>
      let row := if ok then s.rows ext else none
      some (s.setPhase id ⟨ext, request, .reading⟩ (afterRead twilio ext request row))
    | _ => none
  | .lookUser id ok =>
    match s.calls id with
    | some ⟨ext, request, .newRow⟩ =>
      let phase := if ok ∧ s.users ext then edits {} request else .returned false
      some (s.setPhase id ⟨ext, request, .newRow⟩ phase)
    | _ => none
  | .validate id answer =>
    match s.calls id with
    | some ⟨ext, request, .requesting row number⟩ =>
      let call : SettingsCall := ⟨ext, request, .requesting row number⟩
      match answer with
      | some sid =>
        some { s.setPhase id call (.writing row
            { number := some number, verification := some ⟨false, none, sid⟩ }) with
          requests := s.requests ++ [{ extension := ext, number }] }
      | none => some (s.setPhase id call (.returned false))
    | _ => none
  | .find id answer now =>
    match s.calls id with
    | some ⟨ext, request, .finding row⟩ =>
      let s' := s.setPhase id ⟨ext, request, .finding row⟩ (afterFind row now request answer)
      match request, answer.bind (findOutgoingCallerID row.callerId.outboundCallerId) with
      | .confirmVerification, some found =>
        some { s' with found := (ext, found.phoneNumber) :: s.found }
      | _, _ => some s'
    | _ => none
  | .remove id ok =>
    match s.calls id with
    | some ⟨ext, request, .removing row sid⟩ =>
      some { s.setPhase id ⟨ext, request, .removing row sid⟩ (.writing row cleared) with
        account := if ok then s.account.filter fun id => id.sid ≠ sid else s.account }
    | _ => none
  | .write id ok =>
    match s.calls id with
    | some ⟨ext, request, .writing row change⟩ =>
      let call : SettingsCall := ⟨ext, request, .writing row change⟩
      if ok then
        let stored := (change.apply row).create
        some { s.setPhase id call (afterWrite ext stored request) with
          rows := fun ext' => if ext' = ext then some stored else s.rows ext'
          committed := (ext, change) :: s.committed
          requests := if request = .deleteCallerId then
              s.requests.map fun r =>
                if r.extension = ext ∧ r.number = row.callerId.outboundCallerId then
                  { r with undone := true }
                else r
            else s.requests }
      else some (s.setPhase id call (.returned false))
    | _ => none
  | .cache id =>
    match s.calls id with
    | some ⟨ext, request, .caching content⟩ =>
      let phase := match request with
        | .startVerification .. => .cooling
        | _ => .returned true
      some { s.setPhase id ⟨ext, request, .caching content⟩ phase with
        cached := fun ext' => if ext' = ext then content else s.cached ext' }
    | _ => none
  | .cool id =>
    match s.calls id with
    | some ⟨ext, request, .cooling⟩ =>
      some { s.setPhase id ⟨ext, request, .cooling⟩ (.returned true) with
        cooldown := fun ext' => ext' = ext ∨ s.cooldown ext' }
    | _ => none
  | .complete index sid =>
    match s.requests[index]? with
    | some r =>
      some { s with
        requests := s.requests.set index { r with completed := true }
        account := if s.account.any fun id => id.phoneNumber = r.number then s.account
          else s.account ++ [⟨sid, r.number⟩] }
    | none => none
  | .cooldownExpires ext =>
    some { s with cooldown := fun ext' => ext' ≠ ext ∧ s.cooldown ext' }
  | .cachedExpires ext =>
    some { s with cached := fun ext' => if ext' = ext then none else s.cached ext' }

end SettingsSystem

end CallNet.Api
