import CallNet.Engine.JsNumbers
import CallNet.Engine.TrunkService

/-!
# Developer API keys

`services/apikey.service.ts`: the policy of a publishable key for the click-to-call widget, its
origins, its client addresses and its calls a day.  What `resolve` finds, in the cache or in the
database, is given to the functions that read it.
-/

namespace CallNet

/-- A row of `api_keys`, with its lists taken apart. -/
structure ResolvedApiKey where
  id : Int
  owner : String
  allowedOrigins : List String
  allowedIps : List String
  destination : String
  callerId : String
  routeType : WidgetRouteType
  dailyCap : Int
  devMode : Bool
  active : Bool
deriving DecidableEq, Repr

inductive ApiKeyDenyReason where
  | notFound
  | inactive
  | originNotAllowed
  | ipNotAllowed
  | dailyCapReached
  | badSecret
deriving DecidableEq, Repr

/-- `new URL(s)`, as far as the service looks at it. -/
structure ParsedUrl where
  protocol : String
  host : String
  hostname : String
deriving DecidableEq, Repr

namespace ApiKeyService

/-! ## Addresses -/

/-- `/^\d+\.\d+\.\d+\.\d+$/` -/
def isDotted (s : List Char) : Bool :=
  (s.splitOn '.').length = 4 ∧ ∀ part ∈ s.splitOn '.', part ≠ [] ∧ part.all isDigit

/-- Normalize an IPv4-mapped IPv6 address to plain IPv4. -/
def stripV4Mapped (ip : String) : String :=
  match ip.toList with
  | ':' :: ':' :: a :: b :: c :: d :: ':' :: rest =>
    letI : Decidable (∀ x ∈ [a, b, c, d], x = 'f' ∨ x = 'F') := List.decidableBAll _ _
    if (∀ x ∈ [a, b, c, d], x = 'f' ∨ x = 'F') ∧ isDotted rest then String.ofList rest else ip
  | _ => ip

/-- The same as for the entries of the trunk. -/
def ipv4ToInt (rt : Runtime) (ip : String) : Option Nat := ipToInt rt ip

/-- `bits === 32 ? 0xffffffff : (~((1 << (32 - bits)) - 1)) >>> 0` -/
def mask (bits : Nat) : BitVec 32 :=
  if bits = 32 then 0xffffffff#32 else ~~~((1#32 <<< (32 - bits)) - 1#32)

/-- Whether the address matches an entry, a single address or a CIDR. -/
def ipMatches (rt : Runtime) (entry ip : String) : Bool :=
  let target := stripV4Mapped ip
  if entry = ip ∨ entry = target then true
  else if '/' ∉ entry.toList then false
  else
    let range := String.ofList (entry.toList.takeWhile (· ≠ '/'))
    match parseInt10 (String.ofList ((entry.toList.dropWhile (· ≠ '/')).drop 1)) with
    | none => false
    | some bits =>
      match ipv4ToInt rt range, ipv4ToInt rt target with
      | some a, some b =>
        if bits ≤ 0 then true
        else if 32 < bits then false
        else
          BitVec.ofNat 32 a &&& mask bits.num.toNat == BitVec.ofNat 32 b &&& mask bits.num.toNat
      | _, _ => false

/-! ## Origins -/

section Origins

variable (rt : Runtime) (parseUrl : String → Option ParsedUrl)

/-- Scheme and host in lower case, without a path. -/
def normalizeOrigin (origin : String) : String :=
  let trimmed := String.ofList ((trim origin).toList.reverse.dropWhile (· = '/')).reverse
  match parseUrl trimmed with
  | some u => rt.toLowerCase (u.protocol ++ "//" ++ u.host)
  | none => rt.toLowerCase trimmed

def originAllowed (allowed : List String) (origin : Option String) : Bool :=
  match origin with
  | none | some "" => false
  | some origin =>
    allowed.any fun a => normalizeOrigin rt parseUrl a = normalizeOrigin rt parseUrl origin

/-- The host of an origin without the brackets of an IPv6 address. -/
def unbracket (host : String) : String :=
  let cs := match host.toList with
    | '[' :: rest => rest
    | cs => cs
  String.ofList (if cs.getLast? = some ']' then cs.dropLast else cs)

def loopbackIp (ip : String) : Bool :=
  let cleanIp := stripV4Mapped (trim ip)
  cleanIp = "127.0.0.1" ∨ cleanIp = "::1" ∨ "127.".toList.isPrefixOf cleanIp.toList

/-- Whether the browser says that the page comes from this machine. -/
def localOrigin (origin : Option String) : Bool :=
  match origin with
  | none | some "" => false
  | some origin =>
    match parseUrl origin with
    | none => false
    | some u => unbracket (rt.toLowerCase u.hostname) ∈ ["localhost", "127.0.0.1", "::1"]

/-- `isLocalRequest` -/
def isLocalRequest (origin : Option String) (ip : String) : Bool :=
  loopbackIp ip || localOrigin rt parseUrl origin

def ipAllowed (allowed : List String) (ip : String) : Bool :=
  if allowed = [] then true else if ip = "" then false else allowed.any fun e => ipMatches rt e ip

end Origins

/-! ## Calls a day -/

/-- The counters of the keys, each with the UTC day it is of. -/
abbrev DayCounters := OrdMap Int (String × Nat)

/-- Whether the key has reached its cap of the day. -/
def capReached (counters : DayCounters) (today : String) (key : ResolvedApiKey) : Bool :=
  if key.dailyCap ≤ 0 then false
  else
    match counters.get? key.id with
    | none => false
    | some (day, count) => day = today ∧ key.dailyCap ≤ count

/-- Record that a call was placed with the key. -/
def noteCall (counters : DayCounters) (today : String) (keyId cap : Int) : DayCounters :=
  if cap ≤ 0 then counters
  else
    match counters.get? keyId with
    | none => counters.set keyId (today, 1)
    | some (day, count) =>
      if day ≠ today then counters.set keyId (today, 1) else counters.set keyId (day, count + 1)

/-! ## Validation -/

/-- The policy of a key for a request; `resolved` is what `resolve` has found. -/
def validate (rt : Runtime) (parseUrl : String → Option ParsedUrl) (counters : DayCounters)
    (today : String) (resolved : Option ResolvedApiKey) (origin : Option String) (ip : String) :
    Except ApiKeyDenyReason ResolvedApiKey :=
  match resolved with
  | none => .error .notFound
  | some key =>
    if !key.active then .error .inactive
    else
      let devBypass := key.devMode && isLocalRequest rt parseUrl origin ip
      if !devBypass && !originAllowed rt parseUrl key.allowedOrigins origin then
        .error .originNotAllowed
      else if !devBypass && !ipAllowed rt key.allowedIps ip then .error .ipNotAllowed
      else if capReached counters today key then .error .dailyCapReached
      else .ok key

/-- The check of a secret; `matchesHash` is whether its digest is the stored one. -/
def verifySecret (resolved : Option ResolvedApiKey) (matchesHash : Bool) :
    Except ApiKeyDenyReason ResolvedApiKey :=
  match resolved with
  | none => .error .notFound
  | some key =>
    if !key.active then .error .inactive
    else if !matchesHash then .error .badSecret
    else .ok key

end ApiKeyService

end CallNet
