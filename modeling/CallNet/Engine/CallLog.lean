import Mathlib.Data.Rat.Defs

/-!
# Call records

The record of one call (`core/types.ts`), partial updates of it, and the row that
`upsertCall` (`services/postgres/call.repo.ts`) keeps for it in `call_records`.

A JavaScript number is a `Rat`, an absent or `undefined` property is `none`, and a
timestamp is the string the source carries; `parseDate` stands for `Date.parse` and
answers `none` where that gives `NaN`.
-/

namespace CallNet

/-- Final outcome statuses written to a call record. -/
inductive CallStatus where
  | ringing
  | answered
  | ended
  | missed
  | failed
  | voicemail
  | unreachable
deriving DecidableEq, Repr

/-- Direction of a call relative to the platform. -/
inductive CallDirection where
  | inbound
  | outbound
deriving DecidableEq, Repr

structure CallLog where
  id : String
  fromLeg : String
  toLeg : String
  fromName : String
  status : CallStatus
  direction : CallDirection
  startTime : String
  endTime : Option String := none
  duration : Option Rat := none
  /-- Local extension the `from` leg resolves to. -/
  fromExt : Option String := none
  /-- Local extension the `to` leg resolves to. -/
  toExt : Option String := none
  cost : Option Rat := none
  currency : Option String := none
  ratePrefix : Option String := none
  billedSecs : Option Rat := none
deriving DecidableEq, Repr

/-- A `Partial<CallLog>`: `none` where the property is not given.  An optional property
    may also be given as `undefined`. -/
structure CallUpdate where
  id : Option String := none
  fromLeg : Option String := none
  toLeg : Option String := none
  fromName : Option String := none
  status : Option CallStatus := none
  direction : Option CallDirection := none
  startTime : Option String := none
  endTime : Option (Option String) := none
  duration : Option (Option Rat) := none
  fromExt : Option (Option String) := none
  toExt : Option (Option String) := none
  cost : Option (Option Rat) := none
  currency : Option (Option String) := none
  ratePrefix : Option (Option String) := none
  billedSecs : Option (Option Rat) := none

/-- `Object.assign(call, u)`. -/
def CallLog.assign (call : CallLog) (u : CallUpdate) : CallLog where
  id := u.id.getD call.id
  fromLeg := u.fromLeg.getD call.fromLeg
  toLeg := u.toLeg.getD call.toLeg
  fromName := u.fromName.getD call.fromName
  status := u.status.getD call.status
  direction := u.direction.getD call.direction
  startTime := u.startTime.getD call.startTime
  endTime := u.endTime.getD call.endTime
  duration := u.duration.getD call.duration
  fromExt := u.fromExt.getD call.fromExt
  toExt := u.toExt.getD call.toExt
  cost := u.cost.getD call.cost
  currency := u.currency.getD call.currency
  ratePrefix := u.ratePrefix.getD call.ratePrefix
  billedSecs := u.billedSecs.getD call.billedSecs

/-- Payload for a prepaid wallet debit. -/
structure BalanceDebitJob where
  extension : String
  callId : String
  amount : Rat
  currency : String
deriving DecidableEq, Repr

/-- `Math.round`: the nearest integer, halves upwards. -/
def mathRound (q : Rat) : Int := (q + 1 / 2).floor

/-- Seconds from one timestamp to another, `Math.round(ms / 1000)` but not negative;
    `none` where `Date.parse` of either gives `NaN`. -/
def secondsBetween (parseDate : String → Option Int) (startIso endIso : String) : Option Rat :=
  (parseDate endIso).bind fun e => (parseDate startIso).map fun s =>
    ((max 0 (mathRound ((e - s : Int) / 1000 : Rat)) : Int) : Rat)

/-! ## The stored row -/

/-- A row of `call_records`; its key is the call id. -/
structure CallRecord where
  fromLeg : String
  toLeg : String
  fromName : String
  direction : CallDirection
  status : CallStatus
  duration : Rat
  startedAt : String
  endedAt : Option String
  fromExt : Option String
  toExt : Option String
  cost : Rat
  currency : Option String
  ratePrefix : Option String
  billedSecs : Rat
  ratedAt : Option String
deriving DecidableEq, Repr

/-- Prefer an explicit duration, otherwise derive it from the timestamps. -/
def durationSeconds (parseDate : String → Option Int) (call : CallLog) : Option Rat :=
  match call.duration with
  | some d => some d
  | none =>
    match call.endTime with
    | none | some "" => some 0
    | some endTime => secondsBetween parseDate call.startTime endTime

/-- The row `upsertCall` inserts for a call at the time `now`.  It has none when the
    duration is `NaN`, which the database refuses. -/
def CallLog.record (parseDate : String → Option Int) (now : String) (call : CallLog) :
    Option CallRecord :=
  (durationSeconds parseDate call).map fun duration =>
    { fromLeg := call.fromLeg
      toLeg := call.toLeg
      fromName := call.fromName
      direction := call.direction
      status := call.status
      duration
      startedAt := call.startTime
      endedAt := call.endTime
      fromExt := call.fromExt
      toExt := call.toExt
      cost := call.cost.getD 0
      currency := call.currency
      ratePrefix := call.ratePrefix
      billedSecs := call.billedSecs.getD 0
      ratedAt := if call.cost.isSome then some now else none }

/-- `ON CONFLICT (call_id) DO UPDATE`: the columns the upsert overwrites. -/
def CallRecord.update (row excluded : CallRecord) : CallRecord :=
  { row with
    status := excluded.status
    duration := excluded.duration
    endedAt := excluded.endedAt
    cost := excluded.cost
    currency := excluded.currency
    ratePrefix := excluded.ratePrefix
    billedSecs := excluded.billedSecs
    ratedAt := row.ratedAt.or excluded.ratedAt }

/-- The record `loadRecentCalls` maps the row of a call id to; `toIso` stands for
    `new Date(value).toISOString()`. -/
def CallRecord.toCallLog (toIso : String → String) (id : String) (row : CallRecord) : CallLog where
  id
  fromLeg := row.fromLeg
  toLeg := row.toLeg
  fromName := row.fromName
  status := row.status
  direction := row.direction
  startTime := toIso row.startedAt
  endTime := row.endedAt.map toIso
  duration := some row.duration
  fromExt := row.fromExt
  toExt := row.toExt
  cost := some row.cost
  currency := row.currency
  ratePrefix := row.ratePrefix
  billedSecs := some row.billedSecs

end CallNet
