import CallNet.Engine.ApiKeyService
import CallNet.Engine.RouteHandlers

/-!
# The widget endpoints

`/session`, `/token` and `/callback` of `http/routes/api.routes.ts`, which a developer key
authenticates, and the INVITEs that carry the tokens of the first two.
-/

namespace CallNet

/-! ## Requests -/

/-- A widget request, with what the handlers read of its body and its headers. -/
structure WidgetRequest where
  publicKey : Option String := none
  key : Option String := none
  customerNumber : Option String := none
  /-- `body.to`, another name for `customerNumber`. -/
  toNumber : Option String := none
  xApiKey : String := ""
  origin : String := ""
  authorization : String := ""
  ip : String := ""
deriving DecidableEq, Repr

/-- The first of two strings that is not empty. -/
def firstText (a b : Option String) : String :=
  let first := a.getD ""
  if first ≠ "" then first else b.getD ""

namespace WidgetRequest

/-- The publishable key, of the body or of the header. -/
def apiKey (req : WidgetRequest) : String :=
  let fromBody := firstText req.publicKey req.key
  trim (if fromBody ≠ "" then fromBody else req.xApiKey)

/-- The secret of a `Bearer` header. -/
def secret (req : WidgetRequest) : String :=
  let auth := req.authorization.toList
  if (auth.take 7).map Char.toLower = "bearer ".toList then trim (String.ofList (auth.drop 7))
  else ""

/-- The number to call back. -/
def rawTo (req : WidgetRequest) : String := firstText req.customerNumber req.toNumber

end WidgetRequest

/-- An error response. -/
structure HttpError where
  status : Nat
  message : String
deriving DecidableEq, Repr

def widgetDeny : ApiKeyDenyReason → HttpError
  | .notFound => ⟨404, "Unknown API key"⟩
  | .inactive => ⟨403, "API key is disabled"⟩
  | .originNotAllowed => ⟨403, "Origin not allowed for this API key"⟩
  | .ipNotAllowed => ⟨403, "Client IP not allowed for this API key"⟩
  | .dailyCapReached => ⟨429, "Daily call cap reached"⟩
  | .badSecret => ⟨401, "Invalid API secret"⟩

/-! ## The handlers -/

/-- What of the process the handlers depend on. -/
structure WidgetServer where
  rt : Runtime
  parseUrl : String → Option ParsedUrl
  /-- There is a key service and the widget is enabled. -/
  enabled : Bool
  trunkEnabled : Bool
  /-- There is a media server and it is connected. -/
  ivrConnected : Bool

/-- `/^\+?\d{6,15}$/` -/
def isPhoneNumber (s : String) : Bool :=
  let digits := match s.toList with
    | '+' :: rest => rest
    | cs => cs
  digits.all isDigit ∧ 6 ≤ digits.length ∧ digits.length ≤ 15

namespace WidgetServer

open ApiKeyService (DayCounters capReached noteCall validate verifySecret)

variable (server : WidgetServer) (counters : DayCounters) (today : String) (req : WidgetRequest)
  (resolved : Option ResolvedApiKey) (matchesHash : Bool)

/-- `/session` up to its validation; `resolved` is the row of the key. -/
def session : Except HttpError ResolvedApiKey :=
  if !server.enabled then .error ⟨503, "Widget not available"⟩
  else if req.apiKey = "" then .error ⟨400, "publicKey is required"⟩
  else
    (validate server.rt server.parseUrl counters today resolved (some req.origin) req.ip).mapError
      widgetDeny

/-- `/token` up to its validation; `matchesHash` is whether the secret is that of the key. -/
def token : Except HttpError ResolvedApiKey :=
  if !server.enabled then .error ⟨503, "Widget not available"⟩
  else if req.apiKey = "" ∨ req.secret = "" then
    .error ⟨400, "publicKey and a Bearer secret are required"⟩
  else (verifySecret resolved matchesHash).mapError widgetDeny

/-- `/callback`: the key and the number of the call that is originated. -/
def callback : Except HttpError (ResolvedApiKey × String) :=
  if !server.enabled then .error ⟨503, "Widget not available"⟩
  else if req.apiKey = "" ∨ req.secret = "" then
    .error ⟨400, "publicKey and a Bearer secret are required"⟩
  else if req.rawTo = "" then .error ⟨400, "customerNumber is required"⟩
  else
    match verifySecret resolved matchesHash with
    | .error reason => .error (widgetDeny reason)
    | .ok key =>
      let customerNumber := keepNumber req.rawTo
      if key.routeType ≠ .trunk then .error ⟨400, "Callback bridge requires a trunk-routed key"⟩
      else if !server.trunkEnabled then .error ⟨503, "Outbound trunk not available"⟩
      else if !isPhoneNumber customerNumber then .error ⟨400, "Invalid customerNumber"⟩
      else if capReached counters today key then .error ⟨429, "Daily call cap reached"⟩
      else if !server.ivrConnected then .error ⟨503, "Media server not available"⟩
      else .ok (key, customerNumber)

/-- A callback is originated under the cap. -/
theorem capReached_of_callback {server : WidgetServer} {counters : DayCounters} {today : String}
    {req : WidgetRequest} {resolved : Option ResolvedApiKey} {matchesHash : Bool}
    {key : ResolvedApiKey} {number : String}
    (h : server.callback counters today req resolved matchesHash = .ok (key, number)) :
    capReached counters today key = false := by
  unfold callback at h
  split at h
  · cases h
  · split at h
    · cases h
    · split at h
      · cases h
      · split at h
        · cases h
        · dsimp only at h
          split at h
          · cases h
          · split at h
            · cases h
            · split at h
              · cases h
              · split at h
                · cases h
                · rename_i hcap
                  split at h
                  · cases h
                  · obtain ⟨rfl, rfl⟩ := Prod.mk.inj (Except.ok.inj h)
                    exact Bool.eq_false_iff.mpr hcap

end WidgetServer

/-! ## Tokens -/

/-- The claims of the token for a key. -/
def ResolvedApiKey.claims (key : ResolvedApiKey) : WidgetTokenClaims :=
  { keyId := key.id
    owner := key.owner
    destination := key.destination
    callerId := key.callerId
    routeType := some key.routeType }

/-- Whether the widget handler takes an INVITE with these claims. -/
def WidgetTokenClaims.admits (claims : WidgetTokenClaims) (trunkEnabled : Bool)
    (calledNumber : String) (route : DialResult) : Bool :=
  let want := toDigits claims.destination
  (digitsEqual want (toDigits calledNumber) || digitsEqual want (toDigits route.normalizedNumber)) &&
    if claims.routeType.getD .trunk ≠ .trunk then route.type ≠ .external else trunkEnabled

section Handler

variable {cfg : Config} {ctx : CallContext} {route : DialResult} {claims : WidgetTokenClaims}

/-- An admitted call goes to the trunk or on to the dial plan. -/
theorem WidgetHandler_of_admits (hw : ctx.widget = some claims)
    (hadmits : claims.admits cfg.trunk.enabled ctx.calledNumber route = true) :
    WidgetHandler cfg ctx route = pure false ∨
      ∃ destination, WidgetHandler cfg ctx route = widgetToTrunk cfg ctx claims destination := by
  unfold WidgetTokenClaims.admits at hadmits
  simp only [Bool.and_eq_true] at hadmits
  obtain ⟨hmatch, hroute⟩ := hadmits
  unfold WidgetHandler
  rw [hw]
  simp only [hmatch, Bool.not_true, Bool.false_eq_true, if_false]
  split
  · rename_i htype
    rw [if_pos htype] at hroute
    rw [if_neg (of_decide_eq_true hroute)]
    exact .inl rfl
  · rename_i htype
    rw [if_neg htype] at hroute
    simp only [hroute, Bool.not_true, Bool.false_eq_true, if_false]
    exact .inr ⟨_, rfl⟩

/-- Any other call of a token gets an error response. -/
theorem WidgetHandler_of_not_admits (hw : ctx.widget = some claims)
    (hadmits : claims.admits cfg.trunk.enabled ctx.calledNumber route = false) :
    (∃ metadata direction, WidgetHandler cfg ctx route =
        refuseWidget ctx claims metadata direction) ∨
      WidgetHandler cfg ctx route = (do
        send 503 (some "Trunk Unavailable")
        setFailed ctx.callId .outbound
        pure true) := by
  unfold WidgetTokenClaims.admits at hadmits
  unfold WidgetHandler
  rw [hw]
  dsimp only at hadmits ⊢
  split
  · exact .inl ⟨_, _, rfl⟩
  · rename_i hmatch
    rw [Bool.not_eq_true, Bool.not_eq_false'] at hmatch
    rw [hmatch, Bool.true_and] at hadmits
    split
    · rename_i htype
      rw [if_pos htype, decide_eq_false_iff_not, not_not] at hadmits
      rw [if_pos hadmits]
      exact .inl ⟨_, _, rfl⟩
    · rename_i htype
      rw [if_neg htype] at hadmits
      rw [hadmits, if_pos (by rfl)]
      exact .inr rfl

end Handler

/-! ## The system -/

/-- A token that was issued, with the day and with the days of the INVITEs accepted with it. -/
structure IssuedToken where
  claims : WidgetTokenClaims
  day : String
  uses : List String
deriving DecidableEq, Repr

/-- The process between two steps.  A `/session` request is waiting between its validation and
    the moment its token is issued. -/
structure WidgetSystem where
  counters : ApiKeyService.DayCounters
  today : String
  past : List String
  waiting : List ResolvedApiKey
  tokens : List IssuedToken
  callbacks : List (Int × String)

/-- A step, with the server as it is at that moment. -/
inductive WidgetEvent where
  | session (server : WidgetServer) (req : WidgetRequest) (resolved : Option ResolvedApiKey)
  | issue (i : Nat)
  | token (server : WidgetServer) (req : WidgetRequest) (resolved : Option ResolvedApiKey)
      (matchesHash : Bool)
  | callback (server : WidgetServer) (req : WidgetRequest) (resolved : Option ResolvedApiKey)
      (matchesHash : Bool)
  /-- An INVITE with a token; `verified` is whether the token has not expired. -/
  | invite (server : WidgetServer) (i : Nat) (verified : Bool) (calledNumber : String)
      (route : DialResult)
  | midnight (day : String)

namespace WidgetSystem

def init (today : String) : WidgetSystem :=
  { counters := .empty, today, past := [], waiting := [], tokens := [], callbacks := [] }

/-- Count the call against the cap and issue a token. -/
def issue (s : WidgetSystem) (key : ResolvedApiKey) : WidgetSystem :=
  { s with
    counters := ApiKeyService.noteCall s.counters s.today key.id key.dailyCap
    tokens := s.tokens ++ [⟨key.claims, s.today, []⟩] }

/-- Count the call against the cap and originate it. -/
def originate (s : WidgetSystem) (key : ResolvedApiKey) : WidgetSystem :=
  { s with
    counters := ApiKeyService.noteCall s.counters s.today key.id key.dailyCap
    callbacks := s.callbacks ++ [(key.id, s.today)] }

/-- An INVITE with the `i`-th token is accepted. -/
def accept (s : WidgetSystem) (i : Nat) : WidgetSystem :=
  { s with tokens := s.tokens.modify i fun t => { t with uses := t.uses ++ [s.today] } }

/-- An INVITE with the `i`-th token gets past the widget handler. -/
def Accepts (server : WidgetServer) (s : WidgetSystem) (i : Nat) (verified : Bool)
    (calledNumber : String) (route : DialResult) : Prop :=
  ∃ t ∈ s.tokens[i]?, verified = true ∧
    t.claims.admits server.trunkEnabled calledNumber route = true

instance (server : WidgetServer) (s : WidgetSystem) (i : Nat) (verified : Bool)
    (calledNumber : String) (route : DialResult) :
    Decidable (s.Accepts server i verified calledNumber route) :=
  inferInstanceAs (Decidable (∃ t ∈ s.tokens[i]?, _ ∧ _))

/-- The next state; a day does not come back. -/
def step (s : WidgetSystem) : WidgetEvent → Option WidgetSystem
  | .session server req resolved =>
    match server.session s.counters s.today req resolved with
    | .ok key => some { s with waiting := s.waiting ++ [key] }
    | .error _ => some s
  | .issue i => s.waiting[i]?.map fun key =>
    { s.issue key with waiting := s.waiting.eraseIdx i }
  | .token server req resolved matchesHash =>
    match server.token req resolved matchesHash with
    | .ok key => some (s.issue key)
    | .error _ => some s
  | .callback server req resolved matchesHash =>
    match server.callback s.counters s.today req resolved matchesHash with
    | .ok (key, _) => some (s.originate key)
    | .error _ => some s
  | .invite server i verified calledNumber route =>
    if s.Accepts server i verified calledNumber route then some (s.accept i) else some s
  | .midnight day =>
    if day ∈ s.today :: s.past then none
    else some { s with today := day, past := s.today :: s.past }

end WidgetSystem

end CallNet
