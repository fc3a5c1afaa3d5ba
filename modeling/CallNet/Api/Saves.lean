import Mathlib.Logic.Function.Basic
import CallNet.ForStd.OrdMap

/-!
# Saving settings, flows and schedules

The saves of the API (`internal/service/settings_service.go`, `schedule_service.go`,
`handler/ivr_handler.go`) down to the statements of its repositories, which create rows with
the default tags of `internal/models`.  A user and an extension are one to one, so settings
are kept by extension.  Times, ids that the database chooses, the caller id columns and the
limits on lengths are left out; so is the cache of the settings, which holds what was stored.
-/

namespace CallNet.Api

/-! ## The mapper -/

/-- What `Create` writes for a field: the value of its default tag, when the field is zero. -/
def orDefault [DecidableEq α] (zero tag value : α) : α := if value = zero then tag else value

/-! ## Models -/

structure UserSettings where
  soundsEnabled : Bool := false
  dtmfEnabled : Bool := false
  callerTune : String := ""
  ringtone : String := ""
  pstnEnabled : Bool := false
  pstnMobile : String := ""
  pstnCountryCode : String := ""
  recordingEnabled : Bool := false
  voicemailEnabled : Bool := false
  dnd : Bool := false
  ratePlanId : Option Nat := none
deriving DecidableEq, Repr

def UserSettings.create (s : UserSettings) : UserSettings where
  soundsEnabled := orDefault false true s.soundsEnabled
  dtmfEnabled := orDefault false true s.dtmfEnabled
  callerTune := orDefault "" "caller_tune.wav" s.callerTune
  ringtone := orDefault "" "ringtone.wav" s.ringtone
  pstnEnabled := orDefault false false s.pstnEnabled
  pstnMobile := s.pstnMobile
  pstnCountryCode := orDefault "" "+91" s.pstnCountryCode
  recordingEnabled := orDefault false false s.recordingEnabled
  voicemailEnabled := orDefault false false s.voicemailEnabled
  dnd := orDefault false false s.dnd
  ratePlanId := s.ratePlanId

/-- A flow, kept by its id; nodes and edges are JSON. -/
structure IvrFlow where
  name : String
  extension : String
  ownerExtension : String
  enabled : Bool
  nodes : String
  edges : String
deriving DecidableEq, Repr

def IvrFlow.create (f : IvrFlow) : IvrFlow := { f with enabled := orDefault false true f.enabled }

structure BusinessHoursWindow where
  dayOfWeek : Int
  startMinute : Int
  endMinute : Int
deriving DecidableEq, Repr

structure BusinessHoursException where
  /-- As `YYYY-MM-DD`. -/
  date : String
  closedAllDay : Bool
  startMinute : Option Int
  endMinute : Option Int
  note : String
deriving DecidableEq, Repr

def BusinessHoursException.create (e : BusinessHoursException) : BusinessHoursException :=
  { e with
    closedAllDay := orDefault false true e.closedAllDay
    note := orDefault "" "" e.note }

structure BusinessHoursPolicy where
  timezone : String
  enabled : Bool
  windows : List BusinessHoursWindow
  exceptions : List BusinessHoursException
deriving DecidableEq, Repr

structure UserAvailabilityWindow where
  dayOfWeek : Int
  startMinute : Int
  endMinute : Int
  timezone : String
  enabled : Bool
deriving DecidableEq, Repr

def UserAvailabilityWindow.create (w : UserAvailabilityWindow) : UserAvailabilityWindow :=
  { w with
    timezone := orDefault "" "UTC" w.timezone
    enabled := orDefault false true w.enabled }

/-! ## Inputs -/

/-- The raw JSON of a rate plan in an update. -/
inductive RatePlanInput where
  | absent
  | null
  | id (n : Nat)
  /-- Anything else is ignored. -/
  | other
deriving DecidableEq, Repr

/-- A partial update of the settings. -/
structure SettingsInput where
  soundsEnabled : Option Bool := none
  dtmfEnabled : Option Bool := none
  callerTune : Option String := none
  ringtone : Option String := none
  pstnEnabled : Option Bool := none
  pstnMobile : Option String := none
  pstnCountryCode : Option String := none
  recordingEnabled : Option Bool := none
  voicemailEnabled : Option Bool := none
  dnd : Option Bool := none
  ratePlanId : RatePlanInput := .absent
deriving DecidableEq, Repr

/-- What an update makes of the plan: nothing, or a new assignment; null and 0 clear it. -/
def RatePlanInput.assigned : RatePlanInput → Option (Option Nat)
  | .absent | .other => none
  | .null => some none
  | .id n => some (if n = 0 then none else some n)

structure IvrFlowRequest where
  id : String
  name : String
  extension : String
  enabled : Option Bool
  nodes : String
  edges : String

structure WindowInput where
  dayOfWeek : Int
  startMinute : Int
  endMinute : Int
  enabled : Option Bool

structure ExceptionInput where
  date : String
  closedAllDay : Bool
  startMinute : Option Int
  endMinute : Option Int
  note : String

structure BusinessHoursInput where
  timezone : String
  enabled : Bool
  windows : List WindowInput
  exceptions : List ExceptionInput

structure AvailabilityInput where
  timezone : String
  windows : List WindowInput

/-! ## Checks -/

/-- `unicode.IsSpace` -/
def isSpace (c : Char) : Bool :=
  c.val ∈ [0x09, 0x0a, 0x0b, 0x0c, 0x0d, 0x20, 0x85, 0xa0, 0x1680, 0x2028, 0x2029, 0x202f,
    0x205f, 0x3000] ∨ 0x2000 ≤ c.val ∧ c.val ≤ 0x200a

/-- `strings.TrimSpace` -/
def trimSpace (s : String) : String :=
  String.ofList ((s.toList.dropWhile isSpace).reverse.dropWhile isSpace).reverse

def normalizeTimezone (tz : String) : String :=
  if trimSpace tz = "" then "UTC" else trimSpace tz

def validWindow (w : WindowInput) : Bool :=
  if w.dayOfWeek < 0 ∨ 6 < w.dayOfWeek then false
  else if w.startMinute < 0 ∨ 1439 < w.startMinute then false
  else if w.endMinute < 1 ∨ 1440 < w.endMinute then false
  else w.startMinute < w.endMinute

def daysIn (month year : Nat) : Nat :=
  if month = 2 then
    if year % 4 = 0 ∧ (year % 100 ≠ 0 ∨ year % 400 = 0) then 29 else 28
  else if month ∈ [4, 6, 9, 11] then 30
  else 31

/-- `time.Parse` accepts the text as a `2006-01-02`. -/
def validDate (date : String) : Bool :=
  match date.toList with
  | [y, y', y'', y''', s, m, m', s', d, d'] =>
    let digit (c : Char) : Nat := c.toNat - '0'.toNat
    let year := ((digit y * 10 + digit y') * 10 + digit y'') * 10 + digit y'''
    let month := digit m * 10 + digit m'
    let day := digit d * 10 + digit d'
    [y, y', y'', y''', m, m', d, d'].all Char.isDigit && s = '-' && s' = '-' &&
      decide (1 ≤ month ∧ month ≤ 12 ∧ 1 ≤ day ∧ day ≤ daysIn month year)
  | _ => false

/-- The first `bytes` bytes; none when they end within a character, which the database
    refuses. -/
def takeBytes (bytes : Nat) : List Char → Option (List Char)
  | [] => some []
  | c :: cs =>
    if bytes = 0 then some []
    else if c.utf8Size ≤ bytes then (takeBytes (bytes - c.utf8Size) cs).map (c :: ·)
    else none

/-- `buildExceptions`, with the dates that were seen. -/
def buildExceptions (seen : List String) : List ExceptionInput → Option (List BusinessHoursException)
  | [] => some []
  | e :: es => do
    let date := trimSpace e.date
    guard (validDate date ∧ date ∉ seen)
    let note ← takeBytes 200 (trimSpace e.note).toList
    let note := String.ofList note
    let ex : BusinessHoursException ←
      if e.closedAllDay then
        pure { date, closedAllDay := e.closedAllDay, startMinute := none, endMinute := none, note }
      else
        match e.startMinute, e.endMinute with
        | some start, some stop =>
          if start < 0 ∨ 1439 < start ∨ stop < 1 ∨ 1440 < stop ∨ stop ≤ start then none
          else
            pure
              { date, closedAllDay := e.closedAllDay, startMinute := some start
                endMinute := some stop, note }
        | _, _ => none
    let exs ← buildExceptions (date :: seen) es
    pure (ex :: exs)

/-! ## The stored rows -/

structure Store where
  /-- The extensions that belong to a user. -/
  users : List String
  settings : OrdMap String UserSettings
  flows : OrdMap String IvrFlow
  availability : String → List UserAvailabilityWindow
  businessHours : Option BusinessHoursPolicy

namespace Store

/-- `Get` of the settings. -/
def getSettings (s : Store) (ext : String) : Option UserSettings := s.settings.get? ext

/-- `GetByID` -/
def getFlow (s : Store) (id : String) : Option IvrFlow := s.flows.get? id

/-- By day, then by start; the database orders the rest as it likes. -/
def windowOrder (day start : α → Int) (a b : α) : Bool :=
  day a < day b ∨ day a = day b ∧ start a ≤ start b

/-- `ListAvailability` -/
def listAvailability (s : Store) (ext : String) : List UserAvailabilityWindow :=
  (s.availability ext).mergeSort
    (windowOrder UserAvailabilityWindow.dayOfWeek UserAvailabilityWindow.startMinute)

def getBusinessHours (s : Store) : Option BusinessHoursPolicy :=
  s.businessHours.map fun policy =>
    { policy with
      windows := policy.windows.mergeSort
        (windowOrder BusinessHoursWindow.dayOfWeek BusinessHoursWindow.startMinute)
      exceptions := policy.exceptions.mergeSort fun a b => a.date ≤ b.date }

/-- `Upsert` of settings: all their columns are in the conflict clause. -/
def upsertSettings (s : Store) (ext : String) (settings : UserSettings) : Store :=
  { s with settings := s.settings.set ext settings.create }

/-- `Upsert` of a flow; a conflict leaves the owner alone. -/
def upsertFlow (s : Store) (id : String) (flow : IvrFlow) : Store :=
  let created := flow.create
  match s.flows.get? id with
  | some row =>
    { s with
      flows := s.flows.set id
        { row with
          name := created.name
          extension := created.extension
          enabled := created.enabled
          nodes := created.nodes
          edges := created.edges } }
  | none => { s with flows := s.flows.set id created }

def replaceAvailability (s : Store) (ext : String) (windows : List UserAvailabilityWindow) :
    Store :=
  { s with
    availability := Function.update s.availability ext (windows.map UserAvailabilityWindow.create) }

/-- `SaveBusinessHours` of the repository: a new policy row is created, an old one updated. -/
def saveBusinessHours (s : Store) (timezone : String) (enabled : Bool)
    (windows : List BusinessHoursWindow) (exceptions : List BusinessHoursException) : Store :=
  let policy : BusinessHoursPolicy :=
    match s.businessHours with
    | none =>
      { timezone := orDefault "" "UTC" timezone, enabled := orDefault false false enabled
        windows, exceptions := exceptions.map BusinessHoursException.create }
    | some _ =>
      { timezone, enabled, windows, exceptions := exceptions.map BusinessHoursException.create }
  { s with businessHours := some policy }

end Store

/-! ## Saves -/

/-- The partial update of loaded or new settings. -/
def SettingsInput.apply (input : SettingsInput) (s : UserSettings) : UserSettings where
  soundsEnabled := input.soundsEnabled.getD s.soundsEnabled
  dtmfEnabled := input.dtmfEnabled.getD s.dtmfEnabled
  callerTune := input.callerTune.getD s.callerTune
  ringtone := input.ringtone.getD s.ringtone
  pstnEnabled := input.pstnEnabled.getD s.pstnEnabled
  pstnMobile := input.pstnMobile.getD s.pstnMobile
  pstnCountryCode := input.pstnCountryCode.getD s.pstnCountryCode
  recordingEnabled := input.recordingEnabled.getD s.recordingEnabled
  voicemailEnabled := input.voicemailEnabled.getD s.voicemailEnabled
  dnd := input.dnd.getD s.dnd
  ratePlanId := input.ratePlanId.assigned.getD s.ratePlanId

/-- `Update` of the settings service; none when there is no such user. -/
def Store.updateSettings (s : Store) (ext : String) (input : SettingsInput) : Option Store :=
  match s.getSettings ext with
  | some settings => some (s.upsertSettings ext (input.apply settings))
  | none => if ext ∈ s.users then some (s.upsertSettings ext (input.apply {})) else none

/-- `SetPstnForward` of the settings service. -/
def Store.setPstnForward (s : Store) (ext : String) (enabled : Bool) (target : String) :
    Option Store :=
  match s.getSettings ext with
  | some settings =>
    some (s.upsertSettings ext { settings with pstnEnabled := enabled, pstnMobile := target })
  | none =>
    if ext ∈ s.users then
      some (s.upsertSettings ext { pstnEnabled := enabled, pstnMobile := target })
    else none

/-- The owner of a saved flow: who creates it, or the owner that it has; none when that is
    somebody else.  `newId` is made from the clock, for a request without id. -/
def Store.flowOwner (s : Store) (caller : String) (isAdmin : Bool) (req : IvrFlowRequest)
    (newId : String) : Option String :=
  if req.id = "" then
    if (s.getFlow newId).isSome then none else some caller
  else
    match s.getFlow req.id with
    | some existing =>
      if !isAdmin ∧ existing.ownerExtension ≠ caller then none else some existing.ownerExtension
    | none => some caller

/-- The flow that `Save` of the handler stores, and its id; none when it answers with an
    error. -/
def Store.buildFlow (s : Store) (caller : String) (isAdmin : Bool) (req : IvrFlowRequest)
    (newId : String) : Option (String × IvrFlow) :=
  if req.name = "" ∨ req.extension = "" then none
  else
    (s.flowOwner caller isAdmin req newId).bind fun owner =>
      let id := if req.id = "" then newId else req.id
      -- the extensions of flows are unique
      if ∀ e ∈ s.flows.entries, e.2.extension = req.extension → e.1 = id then
        some (id,
          { name := req.name
            extension := req.extension
            ownerExtension := owner
            enabled := req.enabled.getD true
            nodes := if req.nodes = "" then "[]" else req.nodes
            edges := if req.edges = "" then "[]" else req.edges })
      else none

/-- The windows of `SaveAvailability`; none when one is invalid or occurs twice. -/
def buildAvailability (input : AvailabilityInput) : Option (List UserAvailabilityWindow) :=
  let tz := normalizeTimezone input.timezone
  let windows : List UserAvailabilityWindow := input.windows.map fun w =>
    { dayOfWeek := w.dayOfWeek
      startMinute := w.startMinute
      endMinute := w.endMinute
      timezone := tz
      enabled := w.enabled.getD true }
  let keys : List (Int × Int × Int) :=
    windows.map fun w => (w.dayOfWeek, w.startMinute, w.endMinute)
  if input.windows.all validWindow = true ∧ keys.Nodup then some windows else none

/-- The policy that `SaveBusinessHours` of the service passes on. -/
def buildBusinessHours (input : BusinessHoursInput) : Option BusinessHoursPolicy := do
  let windows : List BusinessHoursWindow := input.windows.map fun w =>
    { dayOfWeek := w.dayOfWeek
      startMinute := w.startMinute
      endMinute := w.endMinute }
  guard (input.windows.all validWindow ∧ windows.Nodup)
  let exceptions ← buildExceptions [] input.exceptions
  pure
    { timezone := normalizeTimezone input.timezone
      enabled := input.enabled
      windows
      exceptions }

inductive SaveRequest where
  | settings (ext : String) (input : SettingsInput)
  /-- `SetPstnForward` -/
  | pstnForward (ext : String) (enabled : Bool) (target : String)
  | flow (caller : String) (isAdmin : Bool) (req : IvrFlowRequest) (newId : String)
  | availability (ext : String) (input : AvailabilityInput)
  | businessHours (input : BusinessHoursInput)

/-- The rows after a save; none when it is refused. -/
def Store.save (s : Store) : SaveRequest → Option Store
  | .settings ext input => s.updateSettings ext input
  | .pstnForward ext enabled target => s.setPstnForward ext enabled target
  | .flow caller isAdmin req newId =>
    (s.buildFlow caller isAdmin req newId).map fun flow => s.upsertFlow flow.1 flow.2
  | .availability ext input => (buildAvailability input).map (s.replaceAvailability ext)
  | .businessHours input =>
    (buildBusinessHours input).map fun policy =>
      s.saveBusinessHours policy.timezone policy.enabled policy.windows policy.exceptions

end CallNet.Api
