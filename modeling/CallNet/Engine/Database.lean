import CallNet.Engine.Rating

/-!
# In-memory database

The part of `services/database.service.ts` that the call path works with: the directory
of users with its phone index, and the call log with the events it emits.
-/

namespace CallNet

structure SipUser where
  extension : String
  username : String
  name : String
  mobile : Option String := none
  blockedNumbers : List String := []
  forwardOnBusy : Option String := none
  forwardOnNoAnswer : Option String := none
  forwardOnUnavailable : Option String := none
  pstnForwardToBrowser : Bool := false
  /-- Extension or IVR number to forward inbound PSTN calls to. -/
  pstnForwardTarget : Option String := none
  dnd : Bool := false
  ratePlanId : Option Int := none
  outboundCallerId : Option String := none
  balance : Option Rat := none
deriving DecidableEq, Repr

/-- The users, by extension and by username, and the indexes over them. -/
structure Directory where
  users : OrdMap String SipUser
  /-- Digits of a mobile number → extension. -/
  phoneIndex : OrdMap String String
  registrations : OrdMap String String
  ivrFlowExtensions : List String

def Directory.empty : Directory := ⟨.empty, .empty, .empty, []⟩

/-- `value.replace(/\D/g, '')` -/
def digitsOnly (value : String) : String := String.ofList (toDigits value)

/-- Insert or update a user's identity, keeping the lookups in sync. -/
def Directory.upsertUser (d : Directory) (extension username name mobile : String) : Directory :=
  let user : SipUser :=
    match d.users.get? extension with
    | some existing => { existing with extension, username, name, mobile := some mobile }
    | none => { extension, username, name, mobile := some mobile }
  { d with
    users := (d.users.set extension user).set username user
    phoneIndex := if mobile = "" then d.phoneIndex
      else d.phoneIndex.set (digitsOnly mobile) extension }

/-- Remove a user, the keys that point at them and their registration. -/
def Directory.removeUser (d : Directory) (extension : String) : Directory :=
  match d.users.get? extension with
  | none => d
  | some user =>
    { d with
      users := (d.users.delete user.extension).delete user.username
      phoneIndex := if truthy user.mobile then d.phoneIndex.delete (digitsOnly (user.mobile.getD ""))
        else d.phoneIndex
      registrations := d.registrations.delete user.extension }

/-- A row of `users`. -/
structure DbUser where
  extension : String
  username : String
  name : String
  mobile : String
deriving DecidableEq, Repr

/-- Reconcile a user with the row found for the extension, if there is one. -/
def Directory.syncUser (d : Directory) (extension : String) (row : Option DbUser) : Directory :=
  match row with
  | none => d.removeUser extension
  | some row => d.upsertUser row.extension row.username row.name row.mobile

def Directory.getUser (d : Directory) (extensionOrUsername : String) : Option SipUser :=
  d.users.get? extensionOrUsername

def Directory.getExtensionByPhone (d : Directory) (phone : String) : Option String :=
  d.phoneIndex.get? (digitsOnly phone)

def Directory.getUserByPhone (d : Directory) (phone : String) : Option SipUser :=
  match d.getExtensionByPhone phone with
  | none | some "" => none
  | some ext => d.users.get? ext

def Directory.isRegistered (d : Directory) (extension : String) : Bool :=
  d.registrations.has extension

/-- The contact an extension registered with. -/
def Directory.getRegistration (d : Directory) (extension : String) : Option String :=
  d.registrations.get? extension

def Directory.isIvrFlowExtension (d : Directory) (extension : String) : Bool :=
  extension ∈ d.ivrFlowExtensions

def Directory.isBlocked (d : Directory) (calleeExtension callerNumber : String) : Bool :=
  match d.users.get? calleeExtension with
  | some user => callerNumber ∈ user.blockedNumbers
  | none => false

/-- The forwarding targets of a user; an empty target counts as none. -/
structure Forwarding where
  busy : Option String
  noAnswer : Option String
  unavailable : Option String

def Directory.getForwarding (d : Directory) (extension : String) : Forwarding :=
  let user := d.users.get? extension
  { busy := user.bind SipUser.forwardOnBusy
    noAnswer := user.bind SipUser.forwardOnNoAnswer
    unavailable := user.bind SipUser.forwardOnUnavailable }

/-- `s.slice(-10)` of the digits of `s`. -/
def lastTenDigits (s : String) : List Char :=
  let digits := toDigits s
  digits.drop (digits.length - 10)

/-- A user who forwards PSTN calls and whose mobile ends in the same ten digits, with the
    configured target or else the user's own extension. -/
def Directory.findPstnForwardTarget (d : Directory) (calledNumber : String) :
    Option (SipUser × String) :=
  d.users.values.findSome? fun user =>
    if !user.pstnForwardToBrowser ∨ !truthy user.mobile then none
    else if lastTenDigits (user.mobile.getD "") = lastTenDigits calledNumber then
      some (user, if truthy user.pstnForwardTarget then user.pstnForwardTarget.getD ""
        else user.extension)
    else none

/-- Resolve a call leg to the extension of the local user it belongs to. -/
def Directory.resolveExtension (d : Directory) (leg : String) : Option String :=
  if leg = "" then none
  else
    match d.users.get? leg with
    | some direct => some direct.extension
    | none => (d.getUserByPhone leg).map SipUser.extension

/-- The cheapest possible charge for dialing `dialed` under the plan of `ext`. -/
def Directory.estimateMinCharge (d : Directory) (rater : Option RatingService)
    (dialed ext : String) : Option (Rat × String) :=
  rater.bind fun r =>
    r.estimateMinCharge dialed
      (if ext = "" then none else (d.users.get? ext).bind SipUser.ratePlanId)

/-- Whether a rate book exists but has no rate for `dialed` under the plan of `ext`. -/
def Directory.isUnratedDestination (d : Directory) (rater : Option RatingService)
    (dialed ext : String) : Bool :=
  match rater with
  | none => false
  | some r => r.isUnrated dialed
      (if ext = "" then none else (d.users.get? ext).bind SipUser.ratePlanId)

/-! ## Call log -/

structure BillingConfig where
  prepaidEnabled : Bool
  currency : String
  blockUnrated : Bool := false

/-- What an invocation reads besides the call log: the users and the rate book of the
    moment, the configuration, and `Date.parse`. -/
structure CallEnv where
  dir : Directory
  rater : Option RatingService
  billing : BillingConfig
  parseDate : String → Option Int

/-- What the database emits. -/
inductive DbEvent where
  | callUpserted (call : CallLog)
  | balanceDebit (job : BalanceDebitJob)
deriving DecidableEq

/-- The call log, newest first, and everything emitted so far. -/
structure CallStore where
  callLogs : List CallLog
  emitted : List DbEvent

/-- The most recent record with this id. -/
def CallStore.getCall (s : CallStore) (callId : String) : Option CallLog :=
  s.callLogs.find? fun c => c.id = callId

/-- The record with the local extensions its legs resolve to. -/
def Directory.resolveLegs (d : Directory) (data : CallLog) : CallLog :=
  { data with
    fromExt := d.resolveExtension data.fromLeg
    toExt := d.resolveExtension data.toLeg }

/-- `unshift`, keeping 500 records. -/
def unshiftLog (data : CallLog) (callLogs : List CallLog) : List CallLog :=
  let callLogs := data :: callLogs
  if 500 < callLogs.length then callLogs.dropLast else callLogs

def CallStore.logCall (s : CallStore) (env : CallEnv) (data : CallLog) : CallStore :=
  let data := env.dir.resolveLegs data
  { callLogs := unshiftLog data s.callLogs
    emitted := s.emitted ++ [.callUpserted data] }

/-- The user who pays for a call: its local caller. -/
def callerOf (env : CallEnv) (call : CallLog) : Option SipUser :=
  match call.fromExt with
  | none | some "" => env.dir.getUserByPhone call.fromLeg
  | some ext => env.dir.users.get? ext

/-- The updates that are applied to a record: priced when they end it and it has no cost. -/
def pricedUpdates (env : CallEnv) (call : CallLog) (updates : CallUpdate) : CallUpdate :=
  match env.rater with
  | some rater =>
    if updates.status = some .ended ∧ call.cost = none then
      rater.applyToEndedCall env.parseDate call updates ((callerOf env call).bind SipUser.ratePlanId)
    else updates
  | none => updates

/-- The debit emitted for an update, if any. -/
def debitOf (env : CallEnv) (call : CallLog) (updates : CallUpdate) : Option BalanceDebitJob :=
  if env.rater.isSome ∧ updates.status = some .ended ∧ call.cost = none then
    let next := pricedUpdates env call updates
    match callerOf env call, next.cost with
    | some caller, some (some cost) =>
      if env.billing.prepaidEnabled ∧ 0 < cost then
        some
          { extension := caller.extension
            callId := call.id
            amount := cost
            currency := (next.currency.bind id).getD env.billing.currency }
      else none
    | _, _ => none
  else none

/-- Change the first element that satisfies `p`. -/
def updateFirst (p : CallLog → Bool) (f : CallLog → CallLog) : List CallLog → List CallLog
  | [] => []
  | c :: cs => if p c then f c :: cs else c :: updateFirst p f cs

def CallStore.updateCall (s : CallStore) (env : CallEnv) (callId : String)
    (updates : CallUpdate) : CallStore :=
  match s.getCall callId with
  | none => s
  | some call =>
    let call' := call.assign (pricedUpdates env call updates)
    { callLogs := updateFirst (fun c => c.id = callId) (fun _ => call') s.callLogs
      emitted := s.emitted ++ (debitOf env call updates).toList.map .balanceDebit ++
        [.callUpserted call'] }

/-! ## Sequences of invocations -/

/-- An invocation of the call log. -/
inductive CallOp where
  | logCall (data : CallLog)
  | updateCall (callId : String) (updates : CallUpdate)

/-- The store after one invocation. -/
def CallStore.step (s : CallStore) (e : CallEnv × CallOp) : Option CallStore :=
  match e.2 with
  | .logCall data => some (s.logCall e.1 data)
  | .updateCall callId updates => some (s.updateCall e.1 callId updates)

/-- The store before any call. -/
def CallStore.init : CallStore := ⟨[], []⟩

end CallNet
