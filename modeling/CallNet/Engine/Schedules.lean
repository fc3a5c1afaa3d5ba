import CallNet.Api.Saves
import Mathlib.Data.List.Infix

/-!
# Schedules

When the company is open and when a user is available: `BusinessHoursService` and
`AvailabilityService` of `src/modules/routing`, on the rows that the API stores
(`PgBusinessHoursRepository`, `PgAvailabilityRepository`).  Instants and the offsets of time
zones are in milliseconds.
-/

namespace CallNet

/-! ## Dates -/

/-- The year, the month and the day of the month, from the days since 1970-01-01. -/
def civilDate (days : Int) : Int × Int × Int :=
  -- years begin with March, and 400 of them have 146097 days
  let shifted := days + 719468
  let era := shifted / 146097
  let dayOfEra := shifted % 146097
  let yearOfEra := (dayOfEra - dayOfEra / 1460 + dayOfEra / 36524 - dayOfEra / 146096) / 365
  let dayOfYear := dayOfEra - (365 * yearOfEra + yearOfEra / 4 - yearOfEra / 100)
  let month := (5 * dayOfYear + 2) / 153
  let date := dayOfYear - (153 * month + 2) / 5 + 1
  if month < 10 then (yearOfEra + era * 400, month + 3, date)
  else (yearOfEra + era * 400 + 1, month - 9, date)

example : civilDate 0 = (1970, 1, 1) := by decide

example : civilDate 20512 = (2026, 2, 28) ∧ civilDate 20513 = (2026, 3, 1) := by decide

/-- What the getters of a `Date` give: `getFullYear`, `getMonth` plus one, `getDate`, `getDay`,
    `getHours` and `getMinutes`. -/
structure WallClock where
  year : Int
  month : Int
  date : Int
  day : Int
  hours : Int
  minutes : Int
deriving DecidableEq, Repr

/-- An instant in a zone whose offset from UTC then is `offset`. -/
def wallClock (offset now : Int) : WallClock :=
  let days := (now + offset) / 86400000
  let inDay := (now + offset) % 86400000
  let (year, month, date) := civilDate days
  { year, month, date
    -- 1970-01-01 was a Thursday
    day := (days + 4) % 7
    hours := inDay / 3600000
    minutes := inDay % 3600000 / 60000 }

def WallClock.minute (d : WallClock) : Int := d.hours * 60 + d.minutes

/-- `String(n).padStart(width, '0')` -/
def padStart (width : Nat) (n : Int) : String :=
  String.ofList ((toString n).toList.leftpad width '0')

def localDateKey (d : WallClock) : String :=
  toString d.year ++ "-" ++ padStart 2 d.month ++ "-" ++ padStart 2 d.date

/-! ## The repositories -/

/-- A query fails because its table does not exist. -/
def isMissingTable (message : String) : Bool :=
  decide ("does not exist".toList <:+: message.toList)

/-- `getPolicy` of `PgBusinessHoursRepository`, on the rows or the message of a failed query.  The
    query for the exceptions compares with `CURRENT_DATE`, which is the database's. -/
def getPolicy (tables : Except String Api.Store) (currentDate : String) :
    Except String (Option Api.BusinessHoursPolicy) :=
  match tables with
  | .ok store =>
    .ok (store.getBusinessHours.map fun policy =>
      { policy with exceptions := policy.exceptions.filter fun e => currentDate ≤ e.date })
  | .error message => if isMissingTable message then .ok none else .error message

/-- `getByExtension` of `PgAvailabilityRepository`. -/
def getByExtension (tables : Except String Api.Store) (extension : String) :
    Except String (List Api.UserAvailabilityWindow) :=
  if extension = "" then .ok []
  else
    match tables with
    | .ok store => .ok (store.listAvailability extension)
    | .error message => if isMissingTable message then .ok [] else .error message

/-! ## The services -/

/-- `isOpen` of `BusinessHoursService`; `offset` is that of the process's time zone at `now`. -/
def isOpen (tables : Except String Api.Store) (currentDate : String) (offset now : Int) :
    Except String Bool := do
  match ← getPolicy tables currentDate with
  | none => pure true
  | some policy =>
    if !policy.enabled then pure true
    else
      let minute := (wallClock offset now).minute
      let today := localDateKey (wallClock offset now)
      match policy.exceptions.find? fun e => e.date = today with
      | some exception =>
        if exception.closedAllDay then pure false
        else
          match exception.startMinute, exception.endMinute with
          | some startMinute, some endMinute => pure (startMinute ≤ minute ∧ minute < endMinute)
          | _, _ => pure false
      | none =>
        let day := (wallClock offset now).day
        pure (policy.windows.any fun w =>
          w.dayOfWeek = day ∧ w.startMinute ≤ minute ∧ minute < w.endMinute)

/-- `isWithinUserHours` of `AvailabilityService`. -/
def isWithinUserHours (tables : Except String Api.Store) (extension : String)
    (offset now : Int) : Except String Bool := do
  let windows ← getByExtension tables extension
  if windows = [] then pure true
  else
    let day := (wallClock offset now).day
    let minute := (wallClock offset now).minute
    pure (windows.any fun w =>
      if !w.enabled ∨ w.dayOfWeek ≠ day then false
      else w.startMinute ≤ minute ∧ minute < w.endMinute)

end CallNet
