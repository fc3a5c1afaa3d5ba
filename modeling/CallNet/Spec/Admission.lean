import CallNet.Engine.SipServer
import CallNet.Spec.Performs

/-!
# Admission

`handleInvite` up to the routing rules, with the context it routes a call with
(`handleInvite_eq`), and what happens in a run that admits the call (`Admission`).
-/

namespace CallNet

/-- What the handlers are told of a logged call. -/
def Request.context (req : Request) (claims : Option WidgetTokenClaims) (callId : String) :
    CallContext :=
  { req, calledNumber := req.called, callingNumber := callerIdentity req claims, callId
    widget := claims }

/-- Log a call that is worth routing, and what it is routed with. -/
def logInvite (req : Request) (claims : Option WidgetTokenClaims) (dir : Directory) :
    CallProg CallContext := do
  let caller := callerIdentity req claims
  let callId : String ← ask .randomUUID
  let startTime : String ← ask .timestamp
  ask (.logCall
    { id := callId, fromLeg := caller, toLeg := req.called, fromName := dir.nameOr caller
      status := .ringing, direction := .inbound, startTime })
  audit "call_start" caller [("to", req.called), ("callId", callId)] (some req.sourceAddress)
  pure (req.context claims callId)

/-- The INVITE is from the trunk, carries a valid token or is legitimate. -/
def Request.routable (cfg : Config) (rt : Runtime) (req : Request)
    (claims : Option WidgetTokenClaims) (dir : Directory) : Prop :=
  ¬ (!cfg.trunk.isFromTrunk rt req.sourceAddress ∧ claims.isNone ∧
      !isInviteLegitimate dir (inviteRoute cfg rt dir req) (callerIdentity req claims))

instance (cfg : Config) (rt : Runtime) (req : Request) (claims : Option WidgetTokenClaims)
    (dir : Directory) : Decidable (req.routable cfg rt claims dir) :=
  inferInstanceAs (Decidable (¬ _))

/-- The context and the route of an INVITE with these claims, `none` when it is refused. -/
def screenedWith (cfg : Config) (rt : Runtime) (req : Request)
    (claims : Option WidgetTokenClaims) : CallProg (Option (CallContext × DialResult)) := do
  let dir ← directory
  let route := inviteRoute cfg rt dir req
  if req.routable cfg rt claims dir then do
    let ctx ← logInvite req claims dir
    pure (some (ctx, route))
  else do
    let caller := callerIdentity req claims
    ask (.recordOffense req.sourceAddress ("unroutable:" ++ route.type.text))
    audit "call_blocked" caller
      [("to", req.called), ("reason", "unroutable_or_spoofed"), ("route", route.type.text)]
      (some req.sourceAddress)
    send 403
    pure none

/-- The context and the route of an INVITE within the rate limit, `none` when it is refused. -/
def screenedInvite (cfg : Config) (rt : Runtime) (req : Request) :
    CallProg (Option (CallContext × DialResult)) := do
  let claims ← parseWidgetToken req
  screenedWith cfg rt req claims

/-- The context and the route of an INVITE with this verdict of the limiter. -/
def limitedInvite (cfg : Config) (rt : Runtime) (req : Request)
    (verdict : OrdMap String RateEntry × Bool) : CallProg (Option (CallContext × DialResult)) := do
  ask (.setSipRates verdict.1)
  if !verdict.2 then do
    ask (.recordOffense req.sourceAddress "invite_flood")
    send 429
    pure none
  else screenedInvite cfg rt req

/-- The context and the route of an INVITE, `none` when it is refused. -/
def admitInvite (cfg : Config) (rt : Runtime) (req : Request) :
    CallProg (Option (CallContext × DialResult)) := do
  let banned : Bool ← ask (.isBanned req.sourceAddress)
  if banned then do
    send 403
    pure none
  else do
    let rates : OrdMap String RateEntry ← ask .sipRates
    let now : Nat ← ask .nowMs
    limitedInvite cfg rt req (checkSipRate cfg rates req.sourceAddress now)

/-- An admitted call on its way, with the exception handler of the pipeline around it. -/
def routeAdmitted (cfg : Config) (rt : Runtime) (ctx : CallContext) (route : DialResult) :
    CallProg Unit :=
  (routeCallContext cfg rt ctx route).tryCatch fun _ => sendUnlessFinal 500

section Equation

variable {cfg : Config} {rt : Runtime} {req : Request}

theorem acceptInvite_eq (claims : Option WidgetTokenClaims) (dir : Directory)
    (route : DialResult) :
    acceptInvite cfg rt req claims dir route =
      (logInvite req claims dir).bind fun ctx => routeCallContext cfg rt ctx route := rfl

theorem screenInvite_eq :
    screenInvite cfg rt req = (screenedInvite cfg rt req).bind fun
      | none => pure ()
      | some (ctx, route) => routeCallContext cfg rt ctx route := by
  unfold screenInvite screenedInvite screenedWith
  simp only [Prog.bind_eq, Prog.bind_assoc]
  congr 1
  funext claims
  congr 1
  funext dir
  by_cases hr : req.routable cfg rt claims dir
  · rw [if_pos hr, if_neg hr, acceptInvite_eq, Prog.bind_assoc]
    rfl
  · rw [if_neg hr, if_pos (not_not.mp hr)]
    rfl

/-- The equation of a sequence that begins with the same effect. -/
theorem ask_bind_eq {α β : Type} {e : Effect} {k : e.Answer → CallProg β}
    {f : e.Answer → CallProg α} {g : α → CallProg β} (h : ∀ x, k x = (f x).bind g) :
    ask e >>= k = (ask e >>= f).bind g := congrArg (Prog.op (S := effects) e) (funext h)

theorem guardInvite_eq :
    guardInvite cfg rt req = (admitInvite cfg rt req).bind fun
      | none => pure ()
      | some (ctx, route) => routeCallContext cfg rt ctx route := by
  refine ask_bind_eq (e := .isBanned _) fun banned => ?_
  cases banned with
  | true => rfl
  | false =>
    refine ask_bind_eq (e := .sipRates) fun rates => ask_bind_eq (e := .nowMs) fun now => ?_
    show _ = (limitedInvite cfg rt req _).bind _
    cases checkSipRate cfg rates req.sourceAddress now with
    | mk rates allowed =>
      refine ask_bind_eq (e := .setSipRates _) fun _ => ?_
      cases allowed with
      | false => rfl
      | true => exact screenInvite_eq

/-- A program that never fails. -/
structure Unfailing {α : Type} (p : CallProg α) : Prop where
  total : p.Total

theorem unfailing_pure {α : Type} (a : α) : Unfailing (pure a) := ⟨trivial⟩

theorem unfailing_ask {α : Type} {e : Effect} {f : e.Answer → CallProg α}
    (h : ∀ x, Unfailing (f x)) : Unfailing (ask e >>= f) := ⟨fun x => (h x).total⟩

theorem unfailing_bind {α β : Type} {p : CallProg α} {f : α → CallProg β} (hp : Unfailing p)
    (hf : ∀ a, Unfailing (f a)) : Unfailing (p >>= f) :=
  ⟨Prog.total_bind hp.total fun a => (hf a).total⟩

theorem unfailing_ite {α : Type} {c : Prop} [Decidable c] {p q : CallProg α} (hp : Unfailing p)
    (hq : Unfailing q) : Unfailing (if c then p else q) := by
  split
  · exact hp
  · exact hq

theorem unfailing_tryCatch {α : Type} {p : CallProg α} {f : SipError → CallProg α}
    (hf : ∀ err, Unfailing (f err)) : Unfailing (p.tryCatch f) := by
  refine ⟨?_⟩
  induction p with
  | pure a => trivial
  | throw err => exact (hf err).total
  | op o k ih => exact fun x => ih x

theorem screenedInvite_unfailing : Unfailing (screenedInvite cfg rt req) := by
  have hparse : Unfailing (parseWidgetToken req) :=
    unfailing_ite (unfailing_pure _) (unfailing_ask (e := .verifyWidgetToken req.widgetToken)
      fun _ => unfailing_pure _)
  have hdir : Unfailing directory := unfailing_ask fun _ => unfailing_pure _
  refine unfailing_bind hparse fun claims => unfailing_bind hdir fun dir => unfailing_ite ?_ ?_
  · refine unfailing_bind ?_ fun _ => unfailing_pure _
    refine unfailing_ask (e := .randomUUID) fun callId => unfailing_ask (e := .timestamp) fun _ => ?_
    exact unfailing_ask fun _ => unfailing_ask fun _ => unfailing_pure _
  · exact unfailing_ask fun _ => unfailing_ask fun _ => unfailing_ask fun _ => unfailing_pure _

theorem admitInvite_unfailing : Unfailing (admitInvite cfg rt req) := by
  refine unfailing_ask (e := .isBanned _) fun banned => ?_
  cases banned with
  | true => exact unfailing_ask fun _ => unfailing_pure _
  | false =>
    refine unfailing_ask (e := .sipRates) fun rates => unfailing_ask (e := .nowMs) fun now => ?_
    refine unfailing_ask fun _ => unfailing_ite ?_ screenedInvite_unfailing
    exact unfailing_ask fun _ => unfailing_ask fun _ => unfailing_pure _

/-- An INVITE is refused, or it is routed with the context it was admitted with. -/
theorem handleInvite_eq :
    handleInvite cfg rt req = (admitInvite cfg rt req).bind fun
      | none => pure ()
      | some (ctx, route) => routeAdmitted cfg rt ctx route := by
  unfold handleInvite
  rw [guardInvite_eq, admitInvite_unfailing.total.tryCatch_bind]
  congr 1
  funext admitted
  cases admitted <;> rfl

end Equation

/-! ## Runs that admit a call -/

/-- The verification of the token, if the INVITE carries one. -/
def tokenTrace (req : Request) (claims : Option WidgetTokenClaims) : History :=
  if req.widgetToken = "" then []
  else [Effect.event (.verifyWidgetToken req.widgetToken) claims]

/-- The record of the call. -/
def logTrace (req : Request) (claims : Option WidgetTokenClaims) (dir : Directory)
    (callId startTime : String) : History :=
  let caller := callerIdentity req claims
  [Effect.event .randomUUID callId, Effect.event .timestamp startTime,
   Effect.event (.logCall
    { id := callId, fromLeg := caller, toLeg := req.called, fromName := dir.nameOr caller
      status := .ringing, direction := .inbound, startTime }) (),
   Effect.event (.audit "call_start" caller [("to", req.called), ("callId", callId)]
    (some req.sourceAddress)) ()]

/-- What the admission of an INVITE reads. -/
structure Admission where
  rates : OrdMap String RateEntry
  now : Nat
  claims : Option WidgetTokenClaims
  snap : Snapshot
  callId : String
  startTime : String

namespace Admission

variable (cfg : Config) (rt : Runtime) (req : Request) (a : Admission)

/-- The INVITE is within the rate limit and worth routing. -/
structure Ok : Prop where
  rate : (checkSipRate cfg a.rates req.sourceAddress a.now).2 = true
  claims : req.widgetToken = "" → a.claims = none
  routable : req.routable cfg rt a.claims a.snap.dir

/-- The context of the call. -/
def ctx : CallContext := req.context a.claims a.callId

/-- The route of the call. -/
def route : DialResult := inviteRoute cfg rt a.snap.dir req

/-- Everything that happens before the call is routed. -/
def trace : History :=
  Effect.event (.isBanned req.sourceAddress) false :: Effect.event .sipRates a.rates ::
    Effect.event .nowMs a.now ::
    Effect.event (.setSipRates (checkSipRate cfg a.rates req.sourceAddress a.now).1) () ::
    (tokenTrace req a.claims ++
      Effect.event .snapshot a.snap :: logTrace req a.claims a.snap.dir a.callId a.startTime)

end Admission

section Runs

variable {cfg : Config} {rt : Runtime} {req : Request} {t : History}

theorem run_ask {α : Type} {e : Effect} {f : e.Answer → CallProg α} {r : Except SipError α}
    (x : e.Answer) (h : Prog.Run (f x) t r) : Prog.Run (ask e >>= f) (e.event x :: t) r :=
  .op (S := effects) x h

theorem run_ask_iff {α : Type} {e : Effect} {f : e.Answer → CallProg α} {r : Except SipError α} :
    Prog.Run (ask e >>= f) t r ↔ ∃ x u, t = e.event x :: u ∧ Prog.Run (f x) u r := by
  constructor
  · intro h
    cases h with
    | op x rest => exact ⟨x, _, rfl, rest⟩
  · rintro ⟨x, u, rfl, h⟩
    exact run_ask x h

theorem run_pure_iff {α : Type} {a : α} {r : Except SipError α} :
    Prog.Run (pure a : CallProg α) t r ↔ t = [] ∧ r = .ok a := by
  constructor
  · intro h
    cases h
    exact ⟨rfl, rfl⟩
  · rintro ⟨rfl, rfl⟩
    exact .pure a

/-- The runs of a token check: the claims are an answer, or there is no token. -/
theorem run_parseWidgetToken_iff {r : Except SipError (Option WidgetTokenClaims)} :
    Prog.Run (parseWidgetToken req) t r ↔ ∃ claims, r = .ok claims ∧
      (req.widgetToken = "" → claims = none) ∧ t = tokenTrace req claims := by
  by_cases htoken : req.widgetToken = ""
  · have hnone : parseWidgetToken req = pure none := if_pos htoken
    rw [hnone, run_pure_iff]
    have htrace (claims : Option WidgetTokenClaims) : tokenTrace req claims = [] := if_pos htoken
    constructor
    · rintro ⟨ht, hr⟩
      exact ⟨none, hr, fun _ => rfl, ht.trans (htrace none).symm⟩
    · rintro ⟨claims, hr, hnone, ht⟩
      rw [hnone htoken] at hr
      exact ⟨ht.trans (htrace claims), hr⟩
  · have hask : parseWidgetToken req = ask (.verifyWidgetToken req.widgetToken) := if_neg htoken
    rw [hask]
    constructor
    · intro h
      obtain ⟨claims, rfl, rfl⟩ := Prog.run_perform_iff.mp h
      exact ⟨claims, rfl, fun h => absurd h htoken, (if_neg htoken).symm⟩
    · rintro ⟨claims, hr, -, ht⟩
      exact Prog.run_perform_iff.mpr ⟨claims, ht.trans (if_neg htoken), hr⟩

theorem run_logInvite_iff {claims : Option WidgetTokenClaims} {dir : Directory}
    {r : Except SipError CallContext} :
    Prog.Run (logInvite req claims dir) t r ↔ ∃ callId startTime,
      t = logTrace req claims dir callId startTime ∧
      r = .ok (req.context claims callId) := by
  constructor
  · intro h
    obtain ⟨callId, _, rfl, hstart⟩ := (run_ask_iff (e := .randomUUID)).mp h
    obtain ⟨startTime, _, rfl, hlog⟩ := (run_ask_iff (e := .timestamp)).mp hstart
    obtain ⟨_, _, rfl, haudit⟩ := run_ask_iff.mp hlog
    obtain ⟨_, _, rfl, hend⟩ := run_ask_iff.mp haudit
    obtain ⟨rfl, rfl⟩ := run_pure_iff.mp hend
    exact ⟨callId, startTime, rfl, rfl⟩
  · rintro ⟨callId, startTime, rfl, rfl⟩
    exact run_ask (e := .randomUUID) _ (run_ask (e := .timestamp) _ (run_ask _ (run_ask _ (.pure _))))

theorem run_directory_iff {α : Type} {f : Directory → CallProg α} {r : Except SipError α} :
    Prog.Run (directory >>= f) t r ↔
      ∃ snap u, t = Effect.event .snapshot snap :: u ∧ Prog.Run (f snap.dir) u r :=
  run_ask_iff (e := .snapshot) (f := fun snap : Snapshot => f snap.dir)

/-- The runs that find an INVITE with these claims worth routing. -/
theorem run_screenedWith_iff {claims : Option WidgetTokenClaims} {ctx : CallContext}
    {route : DialResult} :
    Prog.Run (screenedWith cfg rt req claims) t (.ok (some (ctx, route))) ↔
      ∃ snap callId startTime, req.routable cfg rt claims snap.dir ∧
        t = Effect.event .snapshot snap :: logTrace req claims snap.dir callId startTime ∧
        ctx = req.context claims callId ∧ route = inviteRoute cfg rt snap.dir req := by
  unfold screenedWith
  rw [run_directory_iff]
  constructor
  · rintro ⟨snap, u, rfl, h⟩
    dsimp only at h
    split at h
    · rename_i hroutable
      rcases Prog.run_bind_iff.mp h with ⟨ctx', v, w, rfl, hlog, hend⟩ | ⟨e, -, he⟩
      · obtain ⟨callId, startTime, rfl, hctx⟩ := run_logInvite_iff.mp hlog
        obtain ⟨rfl, hend⟩ := run_pure_iff.mp hend
        cases hctx
        cases hend
        refine ⟨snap, callId, startTime, hroutable, ?_, rfl, rfl⟩
        rw [List.append_nil]
      · cases he
    · obtain ⟨_, _, rfl, haudit⟩ := run_ask_iff.mp h
      obtain ⟨_, _, rfl, hsend⟩ := run_ask_iff.mp haudit
      obtain ⟨_, _, rfl, hend⟩ := run_ask_iff.mp hsend
      cases (run_pure_iff.mp hend).2
  · rintro ⟨snap, callId, startTime, hroutable, rfl, rfl, rfl⟩
    refine ⟨snap, _, rfl, ?_⟩
    dsimp only
    rw [if_pos hroutable]
    have hlog : Prog.Run (logInvite req claims snap.dir)
        (logTrace req claims snap.dir callId startTime) (.ok (req.context claims callId)) :=
      run_logInvite_iff.mpr ⟨callId, startTime, rfl, rfl⟩
    have hend := hlog.bind (f := fun ctx => pure (some (ctx, inviteRoute cfg rt snap.dir req)))
      (run_pure_iff.mpr ⟨rfl, rfl⟩)
    rwa [List.append_nil] at hend

theorem screenedInvite_eq :
    screenedInvite cfg rt req = (parseWidgetToken req).bind (screenedWith cfg rt req) := rfl

/-- The runs that let an INVITE pass the limiter and the screen. -/
theorem run_limitedInvite_iff {verdict : OrdMap String RateEntry × Bool} {ctx : CallContext} {route : DialResult} :
    Prog.Run (limitedInvite cfg rt req verdict) t (.ok (some (ctx, route))) ↔
      ∃ claims u, verdict.2 = true ∧ (req.widgetToken = "" → claims = none) ∧
        t = Effect.event (.setSipRates verdict.1) () :: (tokenTrace req claims ++ u) ∧
        Prog.Run (screenedWith cfg rt req claims) u (.ok (some (ctx, route))) := by
  obtain ⟨rates, allowed⟩ := verdict
  constructor
  · intro h
    obtain ⟨_, _, rfl, hlimit⟩ := (run_ask_iff (e := .setSipRates rates)).mp h
    cases allowed with
    | false =>
      rw [if_pos (show (!false) = true from rfl)] at hlimit
      obtain ⟨_, _, rfl, hsend⟩ := run_ask_iff.mp hlimit
      obtain ⟨_, _, rfl, hend⟩ := run_ask_iff.mp hsend
      cases (run_pure_iff.mp hend).2
    | true =>
      rw [if_neg (show ¬ (!true) = true from nofun), screenedInvite_eq] at hlimit
      rcases Prog.run_bind_iff.mp hlimit with ⟨claims, u, v, rfl, hparse, hrest⟩ | ⟨e, -, he⟩
      · obtain ⟨_, hclaims, hnone, htrace⟩ := run_parseWidgetToken_iff.mp hparse
        cases hclaims
        rw [htrace]
        exact ⟨claims, v, rfl, hnone, rfl, hrest⟩
      · cases he
  · rintro ⟨claims, u, rfl, hnone, rfl, hrest⟩
    refine run_ask (e := .setSipRates rates) () ?_
    rw [if_neg (show ¬ (!true) = true from nofun), screenedInvite_eq]
    exact (run_parseWidgetToken_iff.mpr ⟨claims, rfl, hnone, rfl⟩).bind hrest

/-- The runs that admit an INVITE are those of its admissions. -/
theorem run_admitInvite_iff {ctx : CallContext} {route : DialResult} :
    Prog.Run (admitInvite cfg rt req) t (.ok (some (ctx, route))) ↔
      ∃ a : Admission, a.Ok cfg rt req ∧ t = a.trace cfg req ∧ ctx = a.ctx req ∧
        route = a.route cfg rt req := by
  constructor
  · intro h
    obtain ⟨banned, _, rfl, hunbanned⟩ := (run_ask_iff (e := .isBanned _)).mp h
    cases banned with
    | true =>
      obtain ⟨_, _, rfl, hend⟩ := run_ask_iff.mp hunbanned
      cases (run_pure_iff.mp hend).2
    | false =>
      obtain ⟨rates, _, rfl, hrates⟩ := (run_ask_iff (e := .sipRates)).mp hunbanned
      obtain ⟨now, _, rfl, hnow⟩ := (run_ask_iff (e := .nowMs)).mp hrates
      obtain ⟨claims, u, hrate, hnone, rfl, hscreen⟩ := run_limitedInvite_iff.mp hnow
      obtain ⟨snap, callId, startTime, hroutable, rfl, rfl, rfl⟩ := run_screenedWith_iff.mp hscreen
      exact ⟨⟨rates, now, claims, snap, callId, startTime⟩, ⟨hrate, hnone, hroutable⟩, rfl, rfl, rfl⟩
  · rintro ⟨a, ha, rfl, rfl, rfl⟩
    refine run_ask (e := .isBanned _) false ?_
    refine run_ask (e := .sipRates) a.rates (run_ask (e := .nowMs) a.now ?_)
    refine run_limitedInvite_iff.mpr ⟨a.claims, _, ha.rate, ha.claims, rfl, ?_⟩
    exact run_screenedWith_iff.mpr ⟨a.snap, a.callId, a.startTime, ha.routable, rfl, rfl, rfl⟩

/-- The only token that admission verifies is that of the claims. -/
theorem Admission.verified_eq (a : Admission) {token : String} {answer : Option WidgetTokenClaims}
    (hmem : Effect.event (.verifyWidgetToken token) answer ∈ a.trace cfg req) :
    answer = a.claims := by
  rcases List.mem_cons.mp hmem with heq | hmem
  · cases heq
  rcases List.mem_cons.mp hmem with heq | hmem
  · cases heq
  rcases List.mem_cons.mp hmem with heq | hmem
  · cases heq
  rcases List.mem_cons.mp hmem with heq | hmem
  · cases heq
  rcases List.mem_append.mp hmem with hmem | hmem
  · unfold tokenTrace at hmem
    split at hmem
    · cases hmem
    · have heq := Sigma.mk.inj (List.mem_singleton.mp hmem)
      exact eq_of_heq heq.2
  · unfold logTrace at hmem
    simp only [List.mem_cons] at hmem
    rcases hmem with heq | heq | heq | heq | heq | heq <;> cases heq

/-- What the admission of an INVITE performs. -/
def Effect.Screening : Effect → Prop
  | .isBanned _ | .sipRates | .nowMs | .setSipRates _ | .verifyWidgetToken _ | .snapshot
  | .recordOffense _ _ | .randomUUID | .timestamp | .logCall _ | .audit _ _ _ _
  | .send _ _ _ => True
  | _ => False

theorem admitInvite_screening : Performs Effect.Screening (admitInvite cfg rt req) := by
  have hrefuse : ∀ (e : Effect) (status : Nat), e.Screening → Performs Effect.Screening
      (do let _ ← ask e; send status; pure none : CallProg (Option (CallContext × DialResult))) :=
    fun e status he => performs_then he fun _ => performs_then trivial fun _ => performs_pure _
  have hwith (claims : Option WidgetTokenClaims) :
      Performs Effect.Screening (screenedWith cfg rt req claims) := by
    refine performs_bind (performs_directory trivial) fun dir => ?_
    refine performs_ite (fun _ => performs_bind ?_ fun _ => performs_pure _) fun _ => ?_
    · refine performs_then (e := .randomUUID) trivial fun _ => ?_
      refine performs_then (e := .timestamp) trivial fun _ => performs_then trivial fun _ => ?_
      exact performs_then trivial fun _ => performs_pure _
    · exact performs_then trivial fun _ => hrefuse _ _ trivial
  refine performs_then (e := .isBanned _) trivial fun banned => ?_
  cases banned with
  | true => exact performs_then trivial fun _ => performs_pure _
  | false =>
    refine performs_then (e := .sipRates) trivial fun rates => ?_
    refine performs_then (e := .nowMs) trivial fun now => performs_then trivial fun _ => ?_
    refine performs_ite (fun _ => hrefuse _ _ trivial) fun _ => performs_bind ?_ hwith
    exact performs_ite (fun _ => performs_pure _) fun _ =>
      performs_ask (e := .verifyWidgetToken req.widgetToken) trivial

theorem Admission.Ok.screening {a : Admission} (ha : a.Ok cfg rt req) {e : Effect} {x : e.Answer}
    (he : e.event x ∈ a.trace cfg req) : e.Screening :=
  admitInvite_screening.run (run_admitInvite_iff.mpr ⟨a, ha, rfl, rfl, rfl⟩) he

/-- A run of an INVITE: it is refused, or it is admitted and routed. -/
theorem run_handleInvite_iff {r : Except SipError Unit} :
    Prog.Run (handleInvite cfg rt req) t r ↔
      (Prog.Run (admitInvite cfg rt req) t (.ok none) ∧ r = .ok ()) ∨
        ∃ a : Admission, a.Ok cfg rt req ∧ ∃ u, t = a.trace cfg req ++ u ∧
          Prog.Run (routeAdmitted cfg rt (a.ctx req) (a.route cfg rt req)) u r := by
  rw [handleInvite_eq]
  constructor
  · intro h
    rcases Prog.run_bind_iff.mp h with ⟨admitted, u, v, rfl, hscreen, hrest⟩ | ⟨e, he, -⟩
    · cases admitted with
      | none =>
        obtain ⟨rfl, rfl⟩ := run_pure_iff.mp hrest
        rw [List.append_nil]
        exact .inl ⟨hscreen, rfl⟩
      | some call =>
        cases call with
        | mk ctx route =>
          obtain ⟨a, ha, rfl, rfl, rfl⟩ := run_admitInvite_iff.mp hscreen
          exact .inr ⟨a, ha, v, rfl, hrest⟩
    · exact (admitInvite_unfailing.total.run he).elim
  · rintro (⟨hscreen, rfl⟩ | ⟨a, ha, u, rfl, hrest⟩)
    · rw [← List.append_nil t]
      exact hscreen.bind (.pure ())
    · exact (run_admitInvite_iff.mpr ⟨a, ha, rfl, rfl, rfl⟩).bind hrest

end Runs

end CallNet
