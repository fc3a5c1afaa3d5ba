/-!
# Dial plan

How a dialed number is classified (`services/dialplan.service.ts`), with the regular
expressions written out as functions on characters.
-/

namespace CallNet

inductive RouteType where
  | internal
  | external
  | ivr
  | emergency
  | conference
  | queue
  | blocked
  /-- Outbound SIP-to-SIP call to an approved external peer. -/
  | sipUri
deriving DecidableEq, Repr

/-- The string of a route type, as it appears in reasons and audit details. -/
def RouteType.text : RouteType → String
  | .internal => "internal"
  | .external => "external"
  | .ivr => "ivr"
  | .emergency => "emergency"
  | .conference => "conference"
  | .queue => "queue"
  | .blocked => "blocked"
  | .sipUri => "sip_uri"

structure DialResult where
  type : RouteType
  target : String
  originalNumber : String
  normalizedNumber : String
deriving DecidableEq, Repr

/-- An approved external SIP peer. -/
structure SipPeer where
  host : String
  port : Option Nat := none
  transport : Option String := none
  username : Option String := none
  password : Option String := none
  proxy : Option String := none
  fromUser : Option String := none
  fromHost : Option String := none
deriving DecidableEq, Repr

/-- What the SIP library's `parseUri` gives for a URI it can parse. -/
structure ParsedUri where
  host : Option String
  user : Option String
deriving DecidableEq, Repr

/-! ## Character classes -/

/-- `\s` -/
def isSpace (c : Char) : Bool :=
  c ∈ ['\t', '\n', '\x0b', '\x0c', '\r', ' ', '\u00a0', '\u1680', '\u2028', '\u2029', '\u202f',
    '\u205f', '\u3000', '\ufeff'] ∨ ('\u2000' ≤ c ∧ c ≤ '\u200a')

/-- `\d` -/
def isDigit (c : Char) : Bool := '0' ≤ c ∧ c ≤ '9'

/-- `[a-z0-9]` of a case-insensitive pattern. -/
def isAlnum (c : Char) : Bool := isDigit c ∨ ('a' ≤ c ∧ c ≤ 'z') ∨ ('A' ≤ c ∧ c ≤ 'Z')

/-- `s.trim()` -/
def trim (s : String) : String :=
  String.ofList ((s.toList.dropWhile isSpace).reverse.dropWhile isSpace).reverse

/-- `s.replace(/[^+\d]/g, '')` -/
def keepNumber (s : String) : String := String.ofList (s.toList.filter fun c => c = '+' ∨ isDigit c)

/-- The rest of `s` after `pre`. -/
def stripPrefix? : List Char → List Char → Option (List Char)
  | [], s => some s
  | _ :: _, [] => none
  | p :: ps, c :: cs => if p = c then stripPrefix? ps cs else none

/-! ## Patterns -/

/-- `/^\d{4,7}$/` -/
def internalPattern (s : List Char) : Bool := s.all isDigit ∧ 4 ≤ s.length ∧ s.length ≤ 7

/-- `/^\+?\d{7,15}$/` -/
def externalPattern (s : List Char) : Bool :=
  let digits := match s with
    | '+' :: rest => rest
    | _ => s
  digits.all isDigit ∧ 7 ≤ digits.length ∧ digits.length ≤ 15

/-- The group of `/^<word>([a-z0-9]{lo,hi})$/i`, in lower case. -/
def wordPattern (word : String) (lo hi : Nat) (s : List Char) : Option String :=
  match stripPrefix? word.toList ((s.take word.length).map Char.toLower ++ s.drop word.length) with
  | some group =>
    if group.all isAlnum ∧ lo ≤ group.length ∧ group.length ≤ hi then
      some (String.ofList (group.map Char.toLower))
    else none
  | none => none

/-- `/^conf([a-z0-9]{3,32})$/i` -/
def conferencePattern : List Char → Option String := wordPattern "conf" 3 32

/-- `/^queue([a-z0-9]{2,32})$/i` -/
def queuePattern : List Char → Option String := wordPattern "queue" 2 32

/-- `/^(5000|18\d{8}|1800\d+|800\d+|888\d+|877\d+|866\d+|855\d+|844\d+|833\d+)$/` -/
def ivrPattern (s : List Char) : Bool :=
  s == "5000".toList ||
    (match stripPrefix? "18".toList s with
      | some rest => rest.all isDigit && rest.length == 8
      | none => false) ||
    ["1800", "800", "888", "877", "866", "855", "844", "833"].any fun word =>
      match stripPrefix? word.toList s with
      | some rest => rest.all isDigit && !rest.isEmpty
      | none => false

/-! ## Resolution -/

/-- Put a number into international form: ten digits are Indian when they start with
    6 to 9 and North American otherwise. -/
def internationalForm (number : String) : String :=
  let clean := keepNumber number
  match clean.toList with
  | '+' :: _ => clean
  | cs =>
    if cs.length = 10 ∧ (cs.head?.any fun c => '6' ≤ c ∧ c ≤ '9') then "+91" ++ clean
    else if cs.length = 10 then "+1" ++ clean
    else "+" ++ clean

def normalizeExternal (number : String) : String := internationalForm number

/-- The dialed string without spaces, hyphens and parentheses. -/
def cleanDialed (dialed : String) : String :=
  String.ofList (dialed.toList.filter fun c => !(isSpace c ∨ c = '-' ∨ c = '(' ∨ c = ')'))

def resolve (emergencyNumbers : List String) (dialed : String) : DialResult :=
  let cleaned := cleanDialed dialed
  let cs := cleaned.toList
  if cleaned ∈ emergencyNumbers then
    { type := .emergency, target := cleaned, originalNumber := dialed, normalizedNumber := cleaned }
  else
    match conferencePattern cs with
    | some roomId =>
      { type := .conference, target := roomId, originalNumber := dialed
        normalizedNumber := "conf-" ++ roomId }
    | none =>
      match queuePattern cs with
      | some queueId =>
        { type := .queue, target := queueId, originalNumber := dialed
          normalizedNumber := "queue-" ++ queueId }
      | none =>
        if ivrPattern cs then
          { type := .ivr, target := cleaned, originalNumber := dialed, normalizedNumber := cleaned }
        -- four to seven digits: the pattern excludes a leading `+`
        else if internalPattern cs then
          { type := .internal, target := cleaned, originalNumber := dialed
            normalizedNumber := cleaned }
        else if externalPattern cs then
          let normalized := normalizeExternal cleaned
          { type := .external, target := normalized, originalNumber := dialed
            normalizedNumber := normalized }
        else
          { type := .internal, target := cleaned, originalNumber := dialed
            normalizedNumber := cleaned }

/-- The approved peer whose host matches. -/
def findSipPeer (sipPeers : List SipPeer) (host : String) : Option SipPeer :=
  if host = "" then none
  else sipPeers.find? fun p => p.host = host.toLower

/-- Classify a Request-URI whose host is an approved peer; the only producer of a
    `sipUri` route. -/
def resolveExternalSip (parseUri : String → Option ParsedUri) (sipPeers : List SipPeer)
    (uri : String) : Option DialResult :=
  if uri = "" ∨ sipPeers = [] then none
  else
    match parseUri uri with
    | none => none
    | some parsed =>
      let host := (parsed.host.getD "").toLower
      if host = "" ∨ (findSipPeer sipPeers host).isNone then none
      else
        let user := trim (parsed.user.getD "")
        let target := if user = "" then host else user ++ "@" ++ host
        some
          { type := .sipUri, target := target, originalNumber := uri
            normalizedNumber := "sip:" ++ target }

/-! ## What a resolution says -/

theorem resolve_emergency {emergencyNumbers : List String} {dialed : String}
    (h : (resolve emergencyNumbers dialed).type = .emergency) :
    (resolve emergencyNumbers dialed).target ∈ emergencyNumbers := by
  unfold resolve at h ⊢
  dsimp only at h ⊢
  split
  · assumption
  · rename_i hno
    rw [if_neg hno] at h
    -- no other branch gives an emergency route
    repeat' split at h
    all_goals cases h

theorem resolve_ne_blocked (emergencyNumbers : List String) (dialed : String) :
    (resolve emergencyNumbers dialed).type ≠ .blocked := by
  unfold resolve
  dsimp only
  repeat' split
  all_goals exact nofun

theorem resolveExternalSip_type {parseUri : String → Option ParsedUri} {sipPeers : List SipPeer}
    {uri : String} {route : DialResult}
    (h : resolveExternalSip parseUri sipPeers uri = some route) : route.type = .sipUri := by
  unfold resolveExternalSip at h
  split at h
  · cases h
  · split at h
    · cases h
    · dsimp only at h
      split at h
      · cases h
      · cases h
        rfl

end CallNet
