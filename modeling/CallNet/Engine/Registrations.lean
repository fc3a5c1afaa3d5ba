import CallNet.ForStd.OrdMap

/-!
# Registrations

SIP registrations are kept twice: in the map of `services/database.service.ts`, which the
routing of calls asks, and in the store of `services/registration/memory.store.ts`, which
removes an entry by a timer.  `handleRegister` of `sip/sip.server.ts` writes both.

Times are milliseconds.  `parseInt` of the `Expires` header answers `none` for `NaN`.
-/

namespace CallNet

/-- Where a REGISTER came from, used to route back through the same transport. -/
structure SipSource where
  address : String
  port : Nat
  protocol : String
deriving DecidableEq, Repr

structure SipRegistration where
  contact : String
  expires : Option Int
  source : SipSource
deriving DecidableEq, Repr

/-- What `setTimeout` makes of a delay: one that is no number, below 1 or above `2^31 - 1` is
    one millisecond. -/
def timerDelay (delay : Option Int) : Int :=
  match delay with
  | none => 1
  | some ms => if 1 ≤ ms ∧ ms ≤ 2147483647 then ms else 1

/-! ## The registration store -/

/-- `MemoryRegistrationStore`: the entries, and when the timer of each goes off. -/
structure MemoryRegistrationStore where
  store : OrdMap String SipRegistration
  timers : OrdMap String Int

namespace MemoryRegistrationStore

def empty : MemoryRegistrationStore := ⟨.empty, .empty⟩

/-- The old timer of the extension is cleared. -/
def register (m : MemoryRegistrationStore) (now : Int) (extension : String)
    (data : SipRegistration) : MemoryRegistrationStore :=
  { store := m.store.set extension data
    timers := m.timers.set extension (now + timerDelay (data.expires.map (· * 1000))) }

def unregister (m : MemoryRegistrationStore) (extension : String) : MemoryRegistrationStore :=
  { store := m.store.delete extension
    timers := m.timers.delete extension }

/-- Whether the timer of an extension has gone off by `now`. -/
def due (m : MemoryRegistrationStore) (now : Int) (extension : String) : Bool :=
  (m.timers.get? extension).any (· ≤ now)

/-- The timers that have gone off by `now` remove their entries. -/
def expire (m : MemoryRegistrationStore) (now : Int) : MemoryRegistrationStore :=
  { store := m.store.filter fun ext _ => !m.due now ext
    timers := m.timers.filter fun ext _ => !m.due now ext }

def get (m : MemoryRegistrationStore) (extension : String) : Option SipRegistration :=
  m.store.get? extension

end MemoryRegistrationStore

/-! ## Both copies -/

/-- The clock, the map of the database service and the registration store. -/
structure RegistrationState where
  now : Int
  registrations : OrdMap String SipRegistration
  registrationStore : MemoryRegistrationStore

namespace RegistrationState

def registerUser (s : RegistrationState) (extension : String) (data : SipRegistration) :
    RegistrationState :=
  { s with registrations := s.registrations.set extension data }

def unregisterUser (s : RegistrationState) (extension : String) : RegistrationState :=
  { s with registrations := s.registrations.delete extension }

def getRegistration (s : RegistrationState) (extension : String) : Option SipRegistration :=
  s.registrations.get? extension

def isRegistered (s : RegistrationState) (extension : String) : Bool :=
  s.registrations.has extension

/-- `handleRegister`, for a request of a known user that is not refused. -/
def handleRegister (s : RegistrationState) (extension contact : String) (expires : Option Int)
    (source : SipSource) : RegistrationState :=
  if expires = some 0 then
    { s with registrationStore := s.registrationStore.unregister extension }.unregisterUser
      extension
  else
    let data : SipRegistration := { contact, expires, source }
    { s with registrationStore := s.registrationStore.register s.now extension data }.registerUser
      extension data

/-- Some milliseconds pass. -/
def elapse (s : RegistrationState) (ms : Nat) : RegistrationState :=
  { s with
    now := s.now + ms
    registrationStore := s.registrationStore.expire (s.now + ms) }

def init (now : Int) : RegistrationState := ⟨now, .empty, .empty⟩

end RegistrationState

end CallNet
