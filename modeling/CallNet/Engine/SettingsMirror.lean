import Mathlib.Logic.Function.Basic
import CallNet.Engine.Database

/-!
# The mirror of the routing settings

The routing settings that the API stores for each user, and the users that the engine keeps
in memory (`services/database.service.ts`, `services/postgres/detail.repo.ts` and
`settings-notify.ts`).  A hydration reads the settings from the database and assigns them to
users when the answers have come.  A user is an object: a hydration of one user holds the
object that it found when it began, while `upsertUser` replaces the object of a user.

A verified caller id counts as the column has it; its ageing with time is left out.
-/

namespace CallNet

/-! ## The tables -/

structure ForwardingRow where
  type : String
  target : Option String
deriving DecidableEq, Repr

/-- The columns of `user_settings` that are loaded. -/
structure PstnRow where
  pstnEnabled : Bool
  pstnMobile : Option String
  dnd : Bool
  ratePlanId : Option Int
  outboundCallerId : Option String
deriving DecidableEq, Repr

structure BalanceRow where
  balance : Rat
  currency : String
deriving DecidableEq, Repr

/-- The rows of all users, each with its extension; settings and balances have one row for
    an extension. -/
structure SettingsDb where
  blocked : List (String × String)
  forwarding : List (String × ForwardingRow)
  pstn : OrdMap String PstnRow
  balances : OrdMap String BalanceRow

/-- The rows of an extension. -/
def rowsOf (extension : String) (rows : List (String × ρ)) : List (String × ρ) :=
  rows.filter fun row => row.1 = extension

/-- The rows of all other extensions. -/
def rowsOfOthers (extension : String) (rows : List (String × ρ)) : List (String × ρ) :=
  rows.filter fun row => row.1 ≠ extension

/-- Only rows of this extension differ. -/
structure SettingsDb.ChangesOnly (db db' : SettingsDb) (extension : String) : Prop where
  blocked : rowsOfOthers extension db'.blocked = rowsOfOthers extension db.blocked
  forwarding : rowsOfOthers extension db'.forwarding = rowsOfOthers extension db.forwarding
  pstn : rowsOfOthers extension db'.pstn.entries = rowsOfOthers extension db.pstn.entries
  balances :
    rowsOfOthers extension db'.balances.entries = rowsOfOthers extension db.balances.entries

instance (db db' : SettingsDb) (extension : String) :
    Decidable (db.ChangesOnly db' extension) :=
  decidable_of_iff
    (rowsOfOthers extension db'.blocked = rowsOfOthers extension db.blocked ∧
      rowsOfOthers extension db'.forwarding = rowsOfOthers extension db.forwarding ∧
      rowsOfOthers extension db'.pstn.entries = rowsOfOthers extension db.pstn.entries ∧
      rowsOfOthers extension db'.balances.entries = rowsOfOthers extension db.balances.entries)
    ⟨fun h => ⟨h.1, h.2.1, h.2.2.1, h.2.2.2⟩, fun h => ⟨h.1, h.2, h.3, h.4⟩⟩

/-! ## Users -/

/-- A user with the currency of the wallet. -/
structure MirroredUser extends SipUser where
  balanceCurrency : Option String := none
deriving DecidableEq, Repr

namespace MirroredUser

/-- Map a `forwarding_rules` row onto its field; other types are ignored. -/
def applyForwardingRow (user : MirroredUser) (row : ForwardingRow) : MirroredUser :=
  let target := row.target.filter (· ≠ "")
  if row.type = "busy" then { user with forwardOnBusy := target }
  else if row.type = "noAnswer" then { user with forwardOnNoAnswer := target }
  else if row.type = "unavailable" then { user with forwardOnUnavailable := target }
  else user

def applyPstn (user : MirroredUser) (enabled : Bool) (mobile : Option String) (dnd : Bool)
    (ratePlanId : Option Int) (outboundCallerId : Option String) : MirroredUser :=
  { user with
    pstnForwardToBrowser := enabled
    pstnForwardTarget := mobile.filter (· ≠ "")
    dnd
    ratePlanId
    outboundCallerId }

/-- A balance of 0 stays 0. -/
def applyBalance (user : MirroredUser) (balance : Option Rat) (currency : Option String) :
    MirroredUser :=
  { user with
    balance
    balanceCurrency := currency.filter (· ≠ "") }

/-- `hydrateUserDetail` after its first three reads. -/
def assignDetail (user : MirroredUser) (blocked : List (String × String))
    (forwarding : List (String × ForwardingRow)) (pstn : Option PstnRow) : MirroredUser :=
  let user :=
    { user with
      blockedNumbers := blocked.map Prod.snd
      forwardOnBusy := none
      forwardOnNoAnswer := none
      forwardOnUnavailable := none }
  let user := forwarding.foldl (fun user row => user.applyForwardingRow row.2) user
  user.applyPstn ((pstn.map PstnRow.pstnEnabled).getD false) (pstn.bind PstnRow.pstnMobile)
    ((pstn.map PstnRow.dnd).getD false) (pstn.bind PstnRow.ratePlanId)
    (pstn.bind PstnRow.outboundCallerId)

/-- The first loop of `hydrateAllDetail`: removed rows must not linger. -/
def resetDetail (user : MirroredUser) : MirroredUser :=
  { user with
    blockedNumbers := []
    forwardOnBusy := none
    forwardOnNoAnswer := none
    forwardOnUnavailable := none
    pstnForwardToBrowser := false
    pstnForwardTarget := none
    dnd := false
    ratePlanId := none
    outboundCallerId := none
    balance := none
    balanceCurrency := none }

def pushBlocked (user : MirroredUser) (number : String) : MirroredUser :=
  { user with blockedNumbers := user.blockedNumbers ++ [number] }

def applyPstnRow (user : MirroredUser) (row : PstnRow) : MirroredUser :=
  user.applyPstn row.pstnEnabled row.pstnMobile row.dnd row.ratePlanId row.outboundCallerId

def applyBalanceRow (user : MirroredUser) (row : BalanceRow) : MirroredUser :=
  user.applyBalance (some row.balance) (some row.currency)

end MirroredUser

/-! ## Hydrations in flight -/

inductive HydrationScope where
  /-- `hydrateUserDetail`, with the object it found. -/
  | user (extension : String) (ref : Nat)
  /-- `hydrateAllDetail` -/
  | all
deriving DecidableEq, Repr

/-- The rows that a query of a hydration returns. -/
def HydrationScope.select (scope : HydrationScope) (rows : List (String × ρ)) :
    List (String × ρ) :=
  match scope with
  | .user extension _ => rowsOf extension rows
  | .all => rows

/-- What a hydration has read so far. -/
structure Hydration where
  scope : HydrationScope
  blocked : Option (List (String × String)) := none
  forwarding : Option (List (String × ForwardingRow)) := none
  pstn : Option (List (String × PstnRow)) := none
  /-- The first three answers are assigned; the balances are still to come. -/
  assigned : Bool := false
  balances : Option (List (String × BalanceRow)) := none
deriving DecidableEq, Repr

/-- The database, the users by extension and by username, their objects, and all that is in
    flight. -/
structure SettingsMirror where
  db : SettingsDb
  prepaidEnabled : Bool
  users : OrdMap String Nat
  heap : List MirroredUser
  /-- Extensions, in the order of the commits. -/
  notifications : List String
  hydrations : Nat → Option Hydration

inductive SettingsEvent where
  /-- A change of the rows of an extension is committed. -/
  | commit (extension : String) (db : SettingsDb)
  /-- The next notification reaches the engine, which hydrates that user. -/
  | notified (id : Nat)
  /-- A REGISTER under an extension or a username. -/
  | register (id : Nat) (key : String)
  /-- `syncUser` has loaded this row. -/
  | syncUser (id : Nat) (row : DbUser)
  /-- `hydrateFromPostgres` has loaded these rows. -/
  | hydrateAll (id : Nat) (rows : List DbUser)
  | readBlocked (id : Nat)
  | readForwarding (id : Nat)
  | readPstn (id : Nat)
  /-- A query of balances that is not answered counts as one without rows. -/
  | readBalances (id : Nat) (answered : Bool)
  | assign (id : Nat)
  | assignBalances (id : Nat)
  /-- One of the first three queries is not answered. -/
  | fail (id : Nat)

namespace SettingsMirror

/-- An engine without users. -/
def init (db : SettingsDb) (prepaidEnabled : Bool) : SettingsMirror where
  db
  prepaidEnabled
  users := .empty
  heap := []
  notifications := []
  hydrations := fun _ => none

def setHydration (s : SettingsMirror) (id : Nat) (h : Option Hydration) : SettingsMirror :=
  { s with hydrations := Function.update s.hydrations id h }

/-- The object that is found by extension or username. -/
def getUser (s : SettingsMirror) (key : String) : Option MirroredUser :=
  (s.users.get? key).bind fun ref => s.heap[ref]?

/-- Insert or update a user's identity in a new object, which keeps the settings. -/
def upsertUser (s : SettingsMirror) (row : DbUser) : SettingsMirror :=
  let user : MirroredUser :=
    match s.getUser row.extension with
    | some existing =>
      { existing with
        extension := row.extension, username := row.username, name := row.name
        mobile := some row.mobile }
    | none =>
      { extension := row.extension, username := row.username, name := row.name
        mobile := some row.mobile }
  { s with
    users := (s.users.set row.extension s.heap.length).set row.username s.heap.length
    heap := s.heap ++ [user] }

/-- The first object of each extension. -/
def getUsersFrom (heap : List MirroredUser) (seen : List String) : List Nat → List Nat
  | [] => []
  | ref :: refs =>
    match heap[ref]? with
    | some user =>
      if user.extension ∈ seen then getUsersFrom heap seen refs
      else ref :: getUsersFrom heap (user.extension :: seen) refs
    | none => getUsersFrom heap seen refs

def getUsers (s : SettingsMirror) : List Nat := getUsersFrom s.heap [] s.users.values

/-- Begin `hydrateUserDetail`, unless there is no such user. -/
def hydrateUserDetail (s : SettingsMirror) (id : Nat) (extension : String) : SettingsMirror :=
  match s.users.get? extension with
  | some ref => s.setHydration id (some { scope := .user extension ref })
  | none => s

/-- One loop of `hydrateAllDetail`: each row goes to the user found under its extension. -/
def applyRows (users : OrdMap String Nat) (f : MirroredUser → ρ → MirroredUser)
    (rows : List (String × ρ)) (heap : List MirroredUser) : List MirroredUser :=
  rows.foldl (fun heap row =>
    match users.get? row.1 with
    | some ref => heap.modify ref fun user => f user row.2
    | none => heap) heap

/-- The objects after the first three answers are assigned. -/
def assignHeap (s : SettingsMirror) (scope : HydrationScope) (blocked : List (String × String))
    (forwarding : List (String × ForwardingRow)) (pstn : List (String × PstnRow)) :
    List MirroredUser :=
  match scope with
  | .user _ ref =>
    s.heap.modify ref fun user =>
      let user := user.assignDetail blocked forwarding (pstn.head?.map Prod.snd)
      if s.prepaidEnabled then user else user.applyBalance none none
  | .all =>
    let heap := s.getUsers.foldl (fun heap ref => heap.modify ref .resetDetail) s.heap
    let heap := applyRows s.users .pushBlocked blocked heap
    let heap := applyRows s.users .applyForwardingRow forwarding heap
    applyRows s.users .applyPstnRow pstn heap

/-- The objects after the balances are assigned. -/
def balanceHeap (s : SettingsMirror) (scope : HydrationScope)
    (balances : List (String × BalanceRow)) : List MirroredUser :=
  match scope with
  | .user _ ref =>
    s.heap.modify ref fun user =>
      let bal := balances.head?.map Prod.snd
      user.applyBalance (bal.map BalanceRow.balance) (bal.map BalanceRow.currency)
  | .all => applyRows s.users .applyBalanceRow balances s.heap

def step (s : SettingsMirror) : SettingsEvent → Option SettingsMirror
  | .commit extension db =>
    if s.db.ChangesOnly db extension then
      some { s with db, notifications := s.notifications ++ [extension] }
    else none
  | .notified id =>
    match s.hydrations id, s.notifications with
    | none, extension :: rest => some ({ s with notifications := rest }.hydrateUserDetail id extension)
    | _, _ => none
  | .register id key =>
    match s.hydrations id, s.getUser key with
    | none, some user => some (s.hydrateUserDetail id user.extension)
    | _, _ => none
  | .syncUser id row =>
    match s.hydrations id with
    | none => some ((s.upsertUser row).hydrateUserDetail id row.extension)
    | some _ => none
  | .hydrateAll id rows =>
    match s.hydrations id with
    | none => some ((rows.foldl upsertUser s).setHydration id (some { scope := .all }))
    | some _ => none
  | .readBlocked id =>
    match s.hydrations id with
    | some h =>
      if h.blocked = none then
        some (s.setHydration id (some { h with blocked := some (h.scope.select s.db.blocked) }))
      else none
    | none => none
  | .readForwarding id =>
    match s.hydrations id with
    | some h =>
      if h.forwarding = none then
        some (s.setHydration id
          (some { h with forwarding := some (h.scope.select s.db.forwarding) }))
      else none
    | none => none
  | .readPstn id =>
    match s.hydrations id with
    | some h =>
      if h.pstn = none then
        some (s.setHydration id (some { h with pstn := some (h.scope.select s.db.pstn.entries) }))
      else none
    | none => none
  | .readBalances id answered =>
    match s.hydrations id with
    | some h =>
      if h.assigned ∧ h.balances = none then
        some (s.setHydration id (some { h with
          balances := some (if answered then h.scope.select s.db.balances.entries else []) }))
      else none
    | none => none
  | .assign id =>
    match s.hydrations id with
    | some ⟨scope, some blocked, some forwarding, some pstn, false, _⟩ =>
      some ({ s with heap := s.assignHeap scope blocked forwarding pstn }.setHydration id
        (if s.prepaidEnabled then some { scope, assigned := true } else none))
    | _ => none
  | .assignBalances id =>
    match s.hydrations id with
    | some ⟨scope, _, _, _, true, some balances⟩ =>
      some ({ s with heap := s.balanceHeap scope balances }.setHydration id none)
    | _ => none
  | .fail id =>
    match s.hydrations id with
    | some h => if h.assigned then none else some (s.setHydration id none)
    | none => none

end SettingsMirror

end CallNet
