import CallNet.Engine.SipServer
import CallNet.Spec.DebitEmission

/-!
# The discipline of the call path

What the programs of the INVITE pipeline may do, given everything that happened before:
to which numbers they originate a leg, whose devices they ring, what they bridge a caller to,
which calls end when a leg is destroyed, and what they write to the call log (`Allowed`).

`Obeys` is the triple of that policy.  Most programs are `Quiet`: they perform effects
that are allowed in every history with certain facts in it, and there is one rule for all
of them (`Quiet.obeys_known`).
-/

namespace CallNet

/-! ## Legs and endings -/

/-- No leg was originated. -/
def UacFree (h : History) : Prop := ∀ invite x, Effect.event (.createUAC invite) x ∉ h

/-- The calls that a handler of a leg's `destroy` event ends. -/
def endings (acts : List DestroyAct) : List String :=
  acts.filterMap fun
    | .endCall callId => some callId
    | _ => none

/-- No handler that ends a call is installed. -/
def EndFree (h : History) : Prop :=
  ∀ leg acts, Effect.event (.onDestroy leg acts) () ∈ h → endings acts = []

/-! ## Permitted numbers -/

section Policy

variable (cfg : Config) (rt : Runtime) (req : Request)

/-- Extensions the call may end up at: the dialed one, the one a rule of the dialed number
    names, and what the users among them forward to. -/
inductive Called (h : History) : String → Prop
  | uri : Called h req.calledExt
  | dialed : Called h (resolve cfg.emergencyNumbers req.called).target
  | rule {rule : RoutingRule} (mem : Effect.event (.getRoutingRule req.called) (some rule) ∈ h)
      (type : rule.destinationType = .extension) : Called h rule.destinationValue
  | forward {ext target : String} {snap : Snapshot} (called : Called h ext)
      (mem : Effect.event .snapshot snap ∈ h)
      (target_mem : some target ∈ [(snap.dir.getForwarding ext).busy,
        (snap.dir.getForwarding ext).noAnswer, (snap.dir.getForwarding ext).unavailable]) :
      Called h target

/-- Numbers an unknown caller may be connected to. -/
inductive Granted (h : History) : String → Prop
  | emergency {number : String} (mem : number ∈ cfg.emergencyNumbers) : Granted h number
  /-- The target of a matched routing rule. -/
  | rule {rule : RoutingRule} (mem : Effect.event (.getRoutingRule req.called) (some rule) ∈ h)
      (type : rule.destinationType = .pstn) :
      Granted h (resolve cfg.emergencyNumbers rule.destinationValue).normalizedNumber
  /-- The stored mobile of a called user. -/
  | mobile {ext number : String} {snap : Snapshot} {user : SipUser} (called : Called cfg req h ext)
      (mem : Effect.event .snapshot snap ∈ h) (user_eq : snap.dir.getUser ext = some user)
      (mobile_eq : user.mobile = some number) : Granted h number

/-- The INVITE came from the trunk or carried a valid widget token. -/
def Trusted (h : History) : Prop :=
  cfg.trunk.isFromTrunk rt req.sourceAddress = true ∨
    ∃ token claims, Effect.event (.verifyWidgetToken token) (some claims) ∈ h

/-- The source is trusted or the caller registered. -/
def Vouched (h : History) : Prop :=
  Trusted cfg rt req h ∨
    ∃ snap, Effect.event .snapshot snap ∈ h ∧ snap.dir.isRegistered req.caller = true

/-- Legs that may be originated: any for a trusted source or a registered caller, and
    trunk legs to the granted numbers for everybody else. -/
def Cleared (h : History) (invite : OutboundInvite) : Prop :=
  Vouched cfg rt req h ∨ ∃ number localSdp callerId,
    invite = cfg.trunk.invite number localSdp callerId ∧ Granted cfg req h number

/-- URIs that may be rung: any for a trusted source, and the Contact registered for an
    extension the call may end up at for everybody else. -/
def Ringable (h : History) (uri : String) : Prop :=
  Trusted cfg rt req h ∨ ∃ ext contact snap, Called cfg req h ext ∧
    Effect.event .snapshot snap ∈ h ∧ snap.dir.getRegistration ext = some contact ∧
    uri = contactUri contact

/-- What a caller in a flow may be bridged to: a number at the domain of a provider the
    flow names, or what the flow's own webhook answered. -/
def FlowTarget (h : History) (arg : String) : Prop :=
  ∃ ext flow, Effect.event (.getIvrFlow ext) (some flow) ∈ h ∧ ∃ node ∈ flow.nodes,
    (∃ prompt idPrompt providers, node.data = .meetingJoinExternal prompt idPrompt providers ∧
      ∃ provider ∈ providers, ∃ entered,
        arg = sipBridgeTarget (entered ++ "@" ++ provider.domain)) ∨
    (∃ prompt apiUrl method, node.data = .meetingJoinInternal prompt (some apiUrl) method ∧
      ∃ vars method' target,
        Effect.event (.fetch (substituteVars apiUrl vars) method') (some target) ∈ h ∧
        arg = sipBridgeTarget target)

/-- What may be done after `h`. -/
def Allowed (h : History) : Effect → Prop
  | .createUAC invite => EndFree h ∧ Cleared cfg rt req h invite
  | .createB2BUA uri _ _ => Ringable cfg rt req h uri
  | .enqueueCaller _ _ _ => Vouched cfg rt req h
  | .onDestroy _ acts => ∀ callId ∈ endings acts,
      endings acts = [callId] ∧ UacFree h ∧ Effect.event .randomUUID callId ∈ h
  | .execute _ app arg => app = "bridge" → FlowTarget h arg
  | .executeAsync _ app _ => app ≠ "bridge"
  | .updateCall callId u => Effect.event .randomUUID callId ∈ h ∧ u.NoCost ∧ u.id = none ∧
      u.status ≠ some .ended
  | .logCall data => Effect.event .randomUUID data.id ∈ h ∧ data.status = .ringing ∧
      data.cost = none
  | _ => True

end Policy

/-! ## Facts -/

/-- Everything in `fs` has happened. -/
def Facts (fs h : History) : Prop := ∀ e ∈ fs, e ∈ h

/-- The facts, with no leg originated and nothing that ends a call. -/
def Known (fs h : History) : Prop := UacFree h ∧ EndFree h ∧ Facts fs h

theorem Facts.snoc {fs h : History} (e : Prog.Event effects) (hf : Facts fs h) :
    Facts fs (h ++ [e]) := fun f hmem => List.mem_append_left _ (hf f hmem)

section Facts

variable {cfg : Config} {rt : Runtime} {req : Request} {fs h : History}

theorem Called.mono (hf : Facts fs h) {ext : String} (hc : Called cfg req fs ext) :
    Called cfg req h ext := by
  induction hc with
  | uri => exact .uri
  | dialed => exact .dialed
  | rule mem type => exact .rule (hf _ mem) type
  | forward _ mem target_mem ih => exact .forward ih (hf _ mem) target_mem

theorem Granted.mono (hf : Facts fs h) {number : String} (hg : Granted cfg req fs number) :
    Granted cfg req h number := by
  cases hg with
  | emergency mem => exact .emergency mem
  | rule mem type => exact .rule (hf _ mem) type
  | mobile called mem user_eq mobile_eq =>
    exact .mobile (called.mono hf) (hf _ mem) user_eq mobile_eq

theorem Trusted.mono (hf : Facts fs h) (ht : Trusted cfg rt req fs) : Trusted cfg rt req h := by
  rcases ht with ht | ⟨token, claims, hmem⟩
  · exact .inl ht
  · exact .inr ⟨token, claims, hf _ hmem⟩

theorem Vouched.mono (hf : Facts fs h) (hv : Vouched cfg rt req fs) : Vouched cfg rt req h := by
  rcases hv with ht | ⟨snap, hmem, hreg⟩
  · exact .inl (ht.mono hf)
  · exact .inr ⟨snap, hf _ hmem, hreg⟩

theorem Cleared.mono (hf : Facts fs h) {invite : OutboundInvite}
    (hc : Cleared cfg rt req fs invite) : Cleared cfg rt req h invite := by
  rcases hc with hv | ⟨number, sdp, callerId, heq, hg⟩
  · exact .inl (hv.mono hf)
  · exact .inr ⟨number, sdp, callerId, heq, hg.mono hf⟩

theorem Ringable.mono (hf : Facts fs h) {uri : String} (hr : Ringable cfg rt req fs uri) :
    Ringable cfg rt req h uri := by
  rcases hr with ht | ⟨ext, contact, snap, hcalled, hmem, hreg, heq⟩
  · exact .inl (ht.mono hf)
  · exact .inr ⟨ext, contact, snap, hcalled.mono hf, hf _ hmem, hreg, heq⟩

theorem FlowTarget.mono (hf : Facts fs h) {arg : String} (ht : FlowTarget fs arg) :
    FlowTarget h arg := by
  obtain ⟨ext, flow, hflow, node, hnode, hcase⟩ := ht
  refine ⟨ext, flow, hf _ hflow, node, hnode, hcase.imp_right ?_⟩
  rintro ⟨prompt, apiUrl, method, hdata, vars, method', target, hmem, harg⟩
  exact ⟨prompt, apiUrl, method, hdata, vars, method', target, hf _ hmem, harg⟩

end Facts

theorem Known.tail {e : Prog.Event effects} {fs h : History} (hk : Known (e :: fs) h) :
    Known fs h := ⟨hk.1, hk.2.1, fun f hmem => hk.2.2 f (List.mem_cons_of_mem _ hmem)⟩

/-! ## Programs that obey the policy -/

/-- Started where `Pre` holds, the program does only what is allowed, and when it returns
    `a` then `Post a` holds. -/
structure Obeys (cfg : Config) (rt : Runtime) (req : Request) {α : Type} (Pre : History → Prop)
    (p : CallProg α) (Post : α → History → Prop) : Prop where
  triple : Prog.Triple (Allowed cfg rt req) Pre p fun r h => ∀ a, r = .ok a → Post a h

section Obeys

variable {cfg : Config} {rt : Runtime} {req : Request} {α β : Type} {fs : History}
  {Pre : History → Prop}

theorem obeys_pure {Post : α → History → Prop} {a : α} (h : ∀ hist, Pre hist → Post a hist) :
    Obeys cfg rt req Pre (pure a) Post := by
  refine ⟨Prog.triple_pure fun hist hpre b hb => ?_⟩
  cases hb
  exact h hist hpre

theorem obeys_ite {c : Prop} [Decidable c] {p q : CallProg α} {Post : α → History → Prop}
    (hp : c → Obeys cfg rt req Pre p Post) (hq : ¬ c → Obeys cfg rt req Pre q Post) :
    Obeys cfg rt req Pre (if c then p else q) Post := by
  split
  · exact hp ‹c›
  · exact hq ‹¬ c›

theorem obeys_exists {ι : Type} {C : ι → Prop} {I : ι → History → Prop} {p : CallProg α}
    {Post : α → History → Prop} (h : ∀ i, C i → Obeys cfg rt req (I i) p Post) :
    Obeys cfg rt req (fun hist => ∃ i, C i ∧ I i hist) p Post :=
  ⟨fun hist ⟨i, hc, hi⟩ => (h i hc).triple hist hi⟩

theorem Obeys.conseq {p : CallProg α} {Pre' : History → Prop} {Post Post' : α → History → Prop}
    (hp : Obeys cfg rt req Pre p Post) (hpre : ∀ h, Pre' h → Pre h)
    (hpost : ∀ a h, Post a h → Post' a h) : Obeys cfg rt req Pre' p Post' :=
  ⟨hp.triple.conseq hpre fun _ h hr a ha => hpost a h (hr a ha)⟩

theorem Obeys.bind {p : CallProg α} {f : α → CallProg β} {Mid : α → History → Prop}
    {Post : β → History → Prop} (hp : Obeys cfg rt req Pre p Mid)
    (hf : ∀ a, Obeys cfg rt req (Mid a) (f a) Post) : Obeys cfg rt req Pre (p >>= f) Post := by
  refine ⟨Prog.triple_bind hp.triple (fun a => ?_) fun e h _ b hb => nomatch hb⟩
  exact (hf a).triple.conseq (fun h hh => hh a rfl) fun _ _ hr => hr

theorem Obeys.tail {e : Prog.Event effects} {p : CallProg α}
    (hp : Obeys cfg rt req Pre p fun _ => Known (e :: fs)) :
    Obeys cfg rt req Pre p fun _ => Known fs :=
  hp.conseq (fun _ hk => hk) fun _ _ hk => hk.tail

/-- The handler of an exception starts with the facts there were. -/
theorem Obeys.tryCatch {p : CallProg α} {f : SipError → CallProg α} {Post : α → History → Prop}
    (hp : Obeys cfg rt req Pre p Post) (hpre : ∀ h, Pre h → Facts fs h)
    (hf : ∀ e, Obeys cfg rt req (Facts fs) (f e) Post) :
    Obeys cfg rt req Pre (p.tryCatch f) Post := by
  have hframe := Prog.Triple.frame (F := Facts fs) (fun _ e hf => hf.snoc e) hp.triple
  refine ⟨Prog.triple_tryCatch (hframe.conseq (fun h hh => ⟨hh, hpre h hh⟩) fun _ _ hr => hr)
    (fun a h hr => hr.1) fun e => ?_⟩
  exact (hf e).triple.conseq (fun _ hr => hr.2) fun _ _ hr => hr

end Obeys

/-! ## Quiet programs -/

/-- Effects that are allowed wherever the facts `fs` hold, and leave them alone. -/
def Effect.Quiet (fs : History) : Effect → Prop
  | .createUAC _ | .createB2BUA _ _ _ | .enqueueCaller _ _ _ => False
  | .onDestroy _ acts => endings acts = []
  | .execute _ app _ | .executeAsync _ app _ => app ≠ "bridge"
  | .updateCall callId u => Effect.event .randomUUID callId ∈ fs ∧ u.NoCost ∧ u.id = none ∧
      u.status ≠ some .ended
  | .logCall data => Effect.event .randomUUID data.id ∈ fs ∧ data.status = .ringing ∧
      data.cost = none
  | _ => True

/-- A program of quiet effects. -/
structure Quiet (fs : History) {α : Type} (p : CallProg α) : Prop where
  only : p.Only (Effect.Quiet fs)

section Quiet

variable {cfg : Config} {rt : Runtime} {req : Request} {α β : Type} {fs : History}

theorem Effect.Quiet.allowed {e : Effect} (he : e.Quiet fs) {h : History} (hf : Facts fs h) :
    Allowed cfg rt req h e := by
  cases e <;> try exact trivial
  case logCall data => exact ⟨hf _ he.1, he.2⟩
  case updateCall callId u => exact ⟨hf _ he.1, he.2⟩
  case createUAC invite => exact he.elim
  case createB2BUA uri timeoutMs passFailure => exact he.elim
  case enqueueCaller queueId callId opts => exact he.elim
  case onDestroy leg acts =>
    intro callId hmem
    have hnone : endings acts = [] := he
    rw [hnone] at hmem; cases hmem
  case execute endpoint app arg => exact fun happ => absurd happ he
  case executeAsync endpoint app arg => exact he

/-- Effects that originate no leg and install nothing that ends a call. -/
def Effect.Neutral : Effect → Prop
  | .createUAC _ => False
  | .onDestroy _ acts => endings acts = []
  | _ => True

theorem Effect.Quiet.neutral {e : Effect} (he : e.Quiet fs) : e.Neutral := by
  cases e <;> first | exact he | exact trivial

theorem Known.snoc {h : History} (hk : Known fs h) {e : Effect} (he : e.Neutral) (x : e.Answer) :
    Known fs (h ++ [e.event x]) := by
  refine ⟨fun invite y hmem => ?_, fun leg acts hmem => ?_, hk.2.2.snoc _⟩
  · rw [List.mem_append, List.mem_singleton] at hmem
    rcases hmem with hmem | heq
    · exact hk.1 invite y hmem
    · cases heq
      exact he
  · rw [List.mem_append, List.mem_singleton] at hmem
    rcases hmem with hmem | heq
    · exact hk.2.1 leg acts hmem
    · cases heq
      exact he

/-- The rule of quiet programs, once a leg may have been originated. -/
theorem Quiet.obeys_facts {p : CallProg α} (hp : Quiet fs p) :
    Obeys cfg rt req (Facts fs) p fun _ => Facts fs :=
  ⟨(Prog.Only.triple (fun _ _ hf he => he.allowed hf) (fun _ _ _ hf _ => hf.snoc _)
    hp.only).conseq (fun _ hf => hf) fun _ _ hf _ _ => hf⟩

/-- The rule of quiet programs. -/
theorem Quiet.obeys_known {p : CallProg α} (hp : Quiet fs p) :
    Obeys cfg rt req (Known fs) p fun _ => Known fs :=
  ⟨(Prog.Only.triple (fun _ _ hk he => he.allowed hk.2.2) (fun _ _ x hk he => hk.snoc he.neutral x)
    hp.only).conseq (fun _ hf => hf) fun _ _ hf _ _ => hf⟩

/-- A quiet program as the end of another. -/
theorem Quiet.obeys {p : CallProg α} {Post : α → History → Prop} (hp : Quiet fs p)
    (hpost : ∀ a h, Known fs h → Post a h) : Obeys cfg rt req (Known fs) p Post :=
  hp.obeys_known.conseq (fun _ hk => hk) hpost

/-- A quiet program at the end, once a leg may have been originated. -/
theorem Quiet.obeys_after {p : CallProg α} {Post : α → History → Prop} (hp : Quiet fs p)
    (hpost : ∀ a h, Facts fs h → Post a h) : Obeys cfg rt req (Facts fs) p Post :=
  hp.obeys_facts.conseq (fun _ hf => hf) hpost

/-- A quiet program first. -/
theorem quiet_then {p : CallProg α} {f : α → CallProg β} {Post : β → History → Prop}
    (hp : Quiet fs p) (hf : ∀ a, Obeys cfg rt req (Known fs) (f a) Post) :
    Obeys cfg rt req (Known fs) (p >>= f) Post := hp.obeys_known.bind hf

theorem after_then {p : CallProg α} {f : α → CallProg β} {Post : β → History → Prop}
    (hp : Quiet fs p) (hf : ∀ a, Obeys cfg rt req (Facts fs) (f a) Post) :
    Obeys cfg rt req (Facts fs) (p >>= f) Post := hp.obeys_facts.bind hf

/-- A quiet effect first, with its answer as a new fact. -/
theorem ask_then {e : Effect} {f : e.Answer → CallProg β} {Post : β → History → Prop}
    (he : e.Quiet fs) (hf : ∀ x, Obeys cfg rt req (Known (e.event x :: fs)) (f x) Post) :
    Obeys cfg rt req (Known fs) (ask e >>= f) Post := by
  have hask : Obeys cfg rt req (Known fs) (ask e) fun x => Known (e.event x :: fs) := by
    constructor
    apply Prog.triple_perform (S := effects)
    · exact fun h hk => he.allowed hk.2.2
    · intro h x hk y hy
      cases hy
      have ⟨hu, hend, hf⟩ := hk.snoc he.neutral x
      refine ⟨hu, hend, List.forall_mem_cons.mpr ⟨?_, hf⟩⟩
      exact List.mem_append_right _ List.mem_cons_self
  exact hask.bind hf

theorem directory_then {f : Directory → CallProg β} {Post : β → History → Prop}
    (hf : ∀ snap : Snapshot,
      Obeys cfg rt req (Known (Effect.event .snapshot snap :: fs)) (f snap.dir) Post) :
    Obeys cfg rt req (Known fs) (directory >>= f) Post :=
  ask_then (e := .snapshot) trivial hf

end Quiet

/-! ## The media layer -/

section Media

variable {α β : Type} {fs : History} {cfg : Config} {rt : Runtime}

theorem quiet_pure (a : α) : Quiet fs (pure a) := ⟨trivial⟩

theorem quiet_ite {c : Prop} [Decidable c] {p q : CallProg α} (hp : Quiet fs p) (hq : Quiet fs q) :
    Quiet fs (if c then p else q) := by
  split
  · exact hp
  · exact hq

theorem quiet_ask {e : Effect} (h : e.Quiet fs) : Quiet fs (ask e) :=
  ⟨Prog.only_perform (S := effects) h⟩

theorem quiet_bind {p : CallProg α} {f : α → CallProg β} (hp : Quiet fs p)
    (hf : ∀ a, Quiet fs (f a)) : Quiet fs (p >>= f) := ⟨Prog.only_bind hp.only fun a => (hf a).only⟩

theorem quiet_tryCatch {p : CallProg α} {f : SipError → CallProg α} (hp : Quiet fs p)
    (hf : ∀ e, Quiet fs (f e)) : Quiet fs (p.tryCatch f) :=
  ⟨Prog.only_tryCatch hp.only fun e => (hf e).only⟩

theorem quiet_ofExcept (x : Except SipError α) : Quiet fs (ofExcept x) := by
  cases x <;> exact ⟨trivial⟩

theorem quiet_ignoring {e : Effect} (h : e.Quiet fs) : Quiet fs (ignoring e) :=
  quiet_bind (quiet_ask h) fun _ => quiet_pure _

theorem quiet_send (status : Nat) (reason : Option String) (headers : List (String × String)) :
    Quiet fs (send status reason headers) := quiet_ask trivial

theorem quiet_sendUnlessFinal (status : Nat) (reason : Option String)
    (headers : List (String × String)) : Quiet fs (sendUnlessFinal status reason headers) := by
  refine quiet_bind (quiet_ask trivial) fun sent => ?_
  cases sent
  · exact quiet_send _ _ _
  · exact quiet_pure _

theorem quiet_directory : Quiet fs directory := quiet_bind (quiet_ask trivial) fun _ => quiet_pure _

/-- An update that leaves the id and the cost alone, and does not end the call. -/
theorem quiet_updateCall {callId : String} (hid : Effect.event .randomUUID callId ∈ fs)
    {u : CallUpdate} (hc : u.NoCost) (hu : u.id = none) (hs : u.status ≠ some .ended) :
    Quiet fs (updateCall callId u) := quiet_ask ⟨hid, hc, hu, hs⟩

theorem quiet_setStatus {callId : String} (hid : Effect.event .randomUUID callId ∈ fs)
    {status : CallStatus} (h : status ≠ .ended) : Quiet fs (setStatus callId status) :=
  quiet_updateCall hid ⟨rfl, rfl, rfl, rfl⟩ rfl fun he => h (Option.some.inj he)

theorem quiet_setFailed {callId : String} (hid : Effect.event .randomUUID callId ∈ fs)
    (direction : CallDirection) : Quiet fs (setFailed callId direction) :=
  quiet_updateCall hid ⟨rfl, rfl, rfl, rfl⟩ rfl nofun

/-- The status a routed call is left with. -/
theorem quiet_setOutcome {callId : String} (hid : Effect.event .randomUUID callId ∈ fs) (ok : Bool)
    {yes no : CallStatus} (hy : yes ≠ .ended) (hn : no ≠ .ended) :
    Quiet fs (setStatus callId (if ok then yes else no)) := by
  cases ok
  · exact quiet_setStatus hid hn
  · exact quiet_setStatus hid hy

theorem quiet_playSafe (endpoint : Leg) (file : String) : Quiet fs (playSafe endpoint file) :=
  quiet_ignoring trivial

/-- `set` on the media server. -/
theorem quiet_set (endpoint : Leg) (arg : String) :
    Quiet fs (ask (.execute endpoint "set" arg)) :=
  quiet_ask (show "set" ≠ "bridge" by decide)

theorem quiet_holdMusic (endpoint : Leg) :
    Quiet fs (ask (.executeAsync endpoint "playback" cfg.holdMusic)) :=
  quiet_ask (show "playback" ≠ "bridge" by decide)

theorem quiet_setVoice (endpoint : Leg) : Quiet fs (setVoice cfg endpoint) := by
  refine quiet_bind (quiet_set _ _) fun _ => quiet_bind (quiet_ofExcept _) fun _ => ?_
  exact quiet_bind (quiet_set _ _) fun _ => quiet_ofExcept _

theorem quiet_prepareVoice (endpoint : Leg) : Quiet fs (prepareVoice cfg endpoint) := by
  refine quiet_tryCatch (quiet_bind (quiet_setVoice endpoint) fun _ => ?_) fun _ => quiet_pure _
  exact quiet_bind (quiet_ask trivial) fun _ => quiet_ofExcept _

theorem quiet_collectLoop (endpoint : Leg) (prompt : String) (waitMs : Nat)
    (valid : Option String) (tries : Nat) :
    Quiet fs (collectLoop endpoint prompt waitMs valid tries) := by
  induction tries with
  | zero => exact quiet_pure _
  | succ tries ih =>
    refine quiet_bind (quiet_ask trivial) fun heard => ?_
    cases heard with
    | none => exact quiet_pure _
    | some digit =>
      dsimp only
      split
      · exact quiet_pure _
      · exact ih

theorem quiet_promptAndCollect (endpoint : Leg) (prompt : String) (waitMs tries : Nat)
    (valid : Option String) : Quiet fs (promptAndCollect endpoint prompt waitMs tries valid) := by
  refine quiet_bind (quiet_set _ _) fun _ => quiet_bind (quiet_ofExcept _) fun _ => ?_
  exact quiet_collectLoop _ _ _ _ _

theorem quiet_destroyAll (legs : List Leg) : Quiet fs (destroyAll legs) := by
  induction legs with
  | nil => exact quiet_pure _
  | cons leg legs ih => exact quiet_bind (quiet_ask trivial) fun _ => ih

theorem quiet_destroyLegs (endpoint dialog : Leg) : Quiet fs (destroyLegs endpoint dialog) :=
  quiet_bind (quiet_ask trivial) fun _ => quiet_ask trivial

theorem quiet_captureVoicemail (endpoint : Leg) (mailbox caller name : String)
    (greeting : Option String) (maxSeconds : Option Nat) :
    Quiet fs (captureVoicemail cfg endpoint mailbox caller name greeting maxSeconds) := by
  unfold captureVoicemail
  split
  · exact quiet_pure _
  · refine quiet_bind (quiet_ask trivial) fun _ => quiet_bind (quiet_ask trivial) fun _ => ?_
    refine quiet_bind (quiet_ask trivial) fun _ => quiet_bind (quiet_ask trivial) fun _ => ?_
    refine quiet_bind (quiet_tryCatch (quiet_setVoice _) fun _ => quiet_pure _) fun _ => ?_
    refine quiet_bind (quiet_playSafe _ _) fun _ => quiet_bind (quiet_playSafe _ _) fun _ => ?_
    refine quiet_bind (quiet_set _ _) fun _ => quiet_bind (quiet_ofExcept _) fun _ => ?_
    refine quiet_bind (quiet_ask trivial) fun _ => quiet_bind (quiet_ofExcept _) fun _ => ?_
    refine quiet_bind (quiet_ask trivial) fun _ => quiet_bind (quiet_ask trivial) fun _ => ?_
    exact quiet_bind (quiet_ask trivial) fun _ => quiet_pure _

theorem quiet_recordVoicemail (mailbox caller name : String) :
    Quiet fs (recordVoicemail cfg mailbox caller name) := by
  have hno : Quiet fs (do sendUnlessFinal 480 (some "Temporarily Unavailable"); pure false) :=
    quiet_bind (quiet_sendUnlessFinal _ _ _) fun _ => quiet_pure _
  unfold recordVoicemail
  split
  · exact quiet_pure _
  · refine quiet_bind (quiet_ask trivial) fun up => ?_
    split
    · exact hno
    · refine quiet_bind (quiet_ask trivial) fun caller => ?_
      cases caller with
      | error _ => exact hno
      | ok legs =>
        refine quiet_bind (quiet_tryCatch (quiet_captureVoicemail _ _ _ _ _ _) fun _ => hno)
          fun _ => ?_
        exact quiet_bind (quiet_destroyLegs _ _) fun _ => quiet_pure _

theorem quiet_playUnavailable (message : Option String) :
    Quiet fs (playUnavailable cfg message) := by
  refine quiet_bind (quiet_ask trivial) fun up => ?_
  split
  · exact quiet_sendUnlessFinal _ _ _
  · refine quiet_bind (quiet_ask trivial) fun caller => ?_
    cases caller with
    | error _ => exact quiet_sendUnlessFinal _ _ _
    | ok legs =>
      refine quiet_bind (quiet_prepareVoice _) fun _ => quiet_bind (quiet_playSafe _ _) fun _ => ?_
      exact quiet_destroyLegs _ _

theorem quiet_meetingFailed (aLeg : Leg) (legs : List Leg) : Quiet fs (meetingFailed aLeg legs) := by
  refine quiet_bind (quiet_playSafe _ _) fun _ => quiet_bind (quiet_destroyAll _) fun _ => ?_
  exact quiet_bind (quiet_sendUnlessFinal _ _ _) fun _ => quiet_pure _

/-- A handler that destroys legs and ends no call. -/
theorem quiet_onDestroy (leg : Leg) {acts : List DestroyAct} (h : endings acts = []) :
    Quiet fs (ask (.onDestroy leg acts)) := quiet_ask h

theorem quiet_bridgeMeeting (aLeg dialog bLeg uac : Leg) (conferenceId : String) :
    Quiet fs (bridgeMeeting cfg aLeg dialog bLeg uac conferenceId) := by
  refine quiet_bind (quiet_ask trivial) fun _ => quiet_bind (quiet_ofExcept _) fun _ => ?_
  refine quiet_bind (quiet_ask trivial) fun _ => ?_
  refine quiet_bind (quiet_ignoring (show "send_dtmf" ≠ "bridge" by decide)) fun _ => ?_
  refine quiet_bind (quiet_onDestroy _ rfl) fun _ => quiet_bind (quiet_onDestroy _ rfl) fun _ => ?_
  refine quiet_bind (quiet_onDestroy _ rfl) fun _ => quiet_bind (quiet_onDestroy _ rfl) fun _ => ?_
  exact quiet_bind (quiet_ask trivial) fun _ => quiet_bind (quiet_ofExcept _) fun _ => quiet_pure _

theorem quiet_joinConference (roomName roomId caller name : String) :
    Quiet fs (joinConference cfg roomName roomId caller name) := by
  have hno : ∀ legs, Quiet fs (do
      ask (.markLeft roomId caller)
      destroyAll legs
      sendUnlessFinal 480 (some "Temporarily Unavailable")
      pure false) := fun legs =>
    quiet_bind (quiet_ask trivial) fun _ => quiet_bind (quiet_destroyAll _) fun _ =>
      quiet_bind (quiet_sendUnlessFinal _ _ _) fun _ => quiet_pure _
  refine quiet_bind (quiet_ask trivial) fun up => ?_
  split
  · exact quiet_bind (quiet_sendUnlessFinal _ _ _) fun _ => quiet_pure _
  · refine quiet_bind (quiet_ask trivial) fun connected => ?_
    cases connected with
    | error _ => exact hno []
    | ok legs =>
      refine quiet_bind (quiet_prepareVoice _) fun _ => quiet_bind (quiet_playSafe _ _) fun _ => ?_
      refine quiet_bind (quiet_onDestroy _ rfl) fun _ => ?_
      refine quiet_bind (quiet_onDestroy _ rfl) fun _ => ?_
      refine quiet_bind (quiet_ask trivial) fun joined => ?_
      cases joined with
      | ok _ => exact quiet_bind (quiet_ask trivial) fun _ => quiet_pure _
      | error _ => exact hno _

/-! ## Flows -/

theorem quiet_flowTransfer {call : FlowCall} (hid : Effect.event .randomUUID call.callId ∈ fs)
    (department : Option String) : Quiet fs (flowTransfer cfg call department) := by
  have hpark : Quiet fs (do
      setStatus call.callId .answered
      ask (.executeAsync call.endpoint "playback" cfg.holdMusic)
      pure true) :=
    quiet_bind (quiet_setStatus hid nofun) fun _ => quiet_bind (quiet_holdMusic _) fun _ =>
      quiet_pure _
  unfold flowTransfer
  dsimp only
  split
  · exact hpark
  · refine quiet_bind (quiet_ask trivial) fun decision => ?_
    cases decision with
    | error _ => exact hpark
    | ok d =>
      dsimp only
      split
      · refine quiet_bind (quiet_ask trivial) fun _ => quiet_bind (quiet_playSafe _ _) fun _ => ?_
        exact quiet_bind (quiet_setStatus hid nofun) fun _ => quiet_pure _
      · exact hpark

theorem quiet_flowSendEmail (connectorId recipient subject body : String) :
    Quiet fs (flowSendEmail rt connectorId recipient subject body) := by
  unfold flowSendEmail
  split
  · exact quiet_pure _
  · split
    · exact quiet_pure _
    · refine quiet_bind (quiet_ask trivial) fun connector => ?_
      cases connector with
      | none => exact quiet_pure _
      | some c =>
        dsimp only
        split
        · exact quiet_pure _
        · exact quiet_ignoring trivial

theorem quiet_playPrompt (call : FlowCall) (prompt : Option Prompt) :
    Quiet fs (playPrompt cfg call prompt) := by
  unfold playPrompt
  split
  · exact quiet_playSafe _ _
  · exact quiet_pure _

theorem quiet_builtInMenu (endpoint : Leg) {callId : String}
    (hid : Effect.event .randomUUID callId ∈ fs) : Quiet fs (builtInMenu cfg endpoint callId) := by
  refine quiet_bind (quiet_playSafe _ _) fun _ => ?_
  refine quiet_bind (quiet_promptAndCollect _ _ _ _ _) fun _ => ?_
  refine quiet_bind (quiet_promptAndCollect _ _ _ _ _) fun _ => ?_
  exact quiet_bind (quiet_setStatus hid nofun) fun _ => quiet_holdMusic _

end Media

section Flow

variable {cfg : Config} {rt : Runtime} {req : Request} {fs : History}

theorem nodeById_mem {nodes : List IvrGraphNode} {id : String} {node : IvrGraphNode}
    (h : nodeById nodes id = some node) : node ∈ nodes :=
  List.mem_reverse.mp (List.mem_of_find?_eq_some h)

theorem IvrFlowGraph.next_mem {flow : IvrFlowGraph} {id : String} {node : IvrGraphNode}
    (h : flow.next id = some node) : node ∈ flow.nodes := nodeById_mem h

theorem IvrFlowGraph.fallback_mem {flow : IvrFlowGraph} {id : String} {node : IvrGraphNode}
    (h : flow.fallback id = some node) : node ∈ flow.nodes := by
  obtain ⟨e, -, he⟩ := Option.bind_eq_some_iff.mp h
  exact nodeById_mem he

theorem IvrFlowGraph.branch_mem {flow : IvrFlowGraph} {id : String} {truthy : Bool}
    {node : IvrGraphNode} (h : flow.branch id truthy = some node) : node ∈ flow.nodes := by
  obtain ⟨e, -, he⟩ := Option.bind_eq_some_iff.mp h
  exact nodeById_mem he

/-- A step that stays inside the flow. -/
def FlowStep.Within (flow : IvrFlowGraph) : FlowStep → Prop
  | .goto (some node) _ _ => node ∈ flow.nodes
  | _ => True

theorem within_goto {flow : IvrFlowGraph} {next : Option IvrGraphNode} {lastDigit digits : String}
    (h : ∀ node, next = some node → node ∈ flow.nodes) :
    (FlowStep.goto next lastDigit digits).Within flow := by
  cases next with
  | none => trivial
  | some node => exact h node rfl

/-- The program stays inside the flow and originates nothing. -/
def FlowObeys (cfg : Config) (rt : Runtime) (req : Request) (fs : History) (flow : IvrFlowGraph)
    (p : CallProg FlowStep) : Prop :=
  Obeys cfg rt req (Known fs) p fun step h => step.Within flow ∧ Known fs h

theorem flowObeys_goto {flow : IvrFlowGraph} {next : Option IvrGraphNode} {lastDigit digits : String}
    (h : ∀ node, next = some node → node ∈ flow.nodes) :
    FlowObeys cfg rt req fs flow (pure (.goto next lastDigit digits)) :=
  obeys_pure fun _ hk => ⟨within_goto h, hk⟩

theorem flowObeys_done {flow : IvrFlowGraph} {result : FlowResult} :
    FlowObeys cfg rt req fs flow (pure (.done result)) :=
  obeys_pure fun _ hk => ⟨trivial, hk⟩

/-- A bridge to a target of a flow. -/
theorem flowBridge_obeys {call : FlowCall} {target : String}
    (ht : FlowTarget fs (sipBridgeTarget target)) :
    Obeys cfg rt req (Known fs) (flowBridge call target) fun _ => Known fs := by
  have hexec : Obeys cfg rt req (Known fs)
      (ask (.execute call.endpoint "bridge" (sipBridgeTarget target))) fun _ => Known fs := by
    constructor
    apply Prog.triple_perform (S := effects)
    · exact fun h hk _ => ht.mono hk.2.2
    · exact fun h x hk _ _ => hk.snoc (e := .execute _ _ _) trivial x
  exact hexec.bind fun _ => obeys_pure fun _ hk => hk

theorem joinMeetingTarget_obeys {call : FlowCall} {flow : IvrFlowGraph} {node : IvrGraphNode}
    {target lastDigit digits : String}
    (ht : target ≠ "" → FlowTarget fs (sipBridgeTarget target)) :
    FlowObeys cfg rt req fs flow
      (joinMeetingTarget call flow node target lastDigit digits) := by
  unfold joinMeetingTarget
  split
  · exact quiet_then (quiet_playSafe _ _) fun _ => flowObeys_goto fun _ => flow.fallback_mem
  · rename_i hne
    exact (flowBridge_obeys (ht hne)).bind fun _ => flowObeys_done

theorem runMenu_obeys {call : FlowCall} {flow : IvrFlowGraph} {node : IvrGraphNode}
    {prompt : Option Prompt} {validDigits : Option String} {tries timeoutMs : Option Nat}
    {invalidPrompt : Option Prompt} {options : List MenuOption} {lastDigit digits : String} :
    FlowObeys cfg rt req fs flow (runMenu cfg call flow node prompt validDigits tries timeoutMs
      invalidPrompt options lastDigit digits) := by
  refine quiet_then (quiet_promptAndCollect _ _ _ _ _) fun digit => ?_
  refine quiet_then (quiet_ask trivial) fun hungUp => ?_
  split
  · exact flowObeys_done
  · dsimp only
    split
    · exact flowObeys_goto fun _ => nodeById_mem
    · exact quiet_then (quiet_playPrompt _ _) fun _ => flowObeys_goto fun _ => flow.fallback_mem

section Node

variable {call : FlowCall} {flow : IvrFlowGraph} {node : IvrGraphNode} {ext : String}

theorem runMeetingInternal_obeys (hflow : Effect.event (.getIvrFlow ext) (some flow) ∈ fs)
    (hnode : node ∈ flow.nodes) {prompt : Option Prompt} {apiUrl method : Option String}
    (hdata : node.data = .meetingJoinInternal prompt apiUrl method) {lastDigit digits : String} :
    FlowObeys cfg rt req fs flow
      (runMeetingInternal cfg call flow node prompt apiUrl method lastDigit digits) := by
  refine quiet_then (quiet_promptAndCollect _ _ _ _ _) fun entered => ?_
  refine quiet_then (quiet_ask trivial) fun hungUp => ?_
  split
  · exact flowObeys_done
  · split
    · exact flowObeys_goto fun _ => flow.fallback_mem
    · split
      · exact joinMeetingTarget_obeys fun hne => absurd rfl hne
      · rename_i hurl
        obtain ⟨url, rfl⟩ : ∃ url, apiUrl = some url := by
          cases apiUrl with
          | none => exact absurd rfl hurl
          | some url => exact ⟨url, rfl⟩
        refine (ask_then (e := .fetch _ _) trivial fun result => ?_)
        refine Obeys.conseq (joinMeetingTarget_obeys fun hne => ?_) (fun _ hk => hk)
          fun _ _ hr => ⟨hr.1, hr.2.tail⟩
        -- an empty answer is no target
        cases result with
        | none => exact absurd rfl hne
        | some target =>
          refine ⟨ext, flow, List.mem_cons_of_mem _ hflow, node, hnode, .inr ?_⟩
          exact ⟨_, url, _, hdata, _, _, target, List.mem_cons_self, rfl⟩

theorem runMeetingExternal_obeys (hflow : Effect.event (.getIvrFlow ext) (some flow) ∈ fs)
    (hnode : node ∈ flow.nodes) {providerPrompt idPrompt : Option Prompt}
    {providers : List MeetingProvider}
    (hdata : node.data = .meetingJoinExternal providerPrompt idPrompt providers)
    {lastDigit digits : String} :
    FlowObeys cfg rt req fs flow
      (runMeetingExternal cfg call flow node providerPrompt idPrompt providers lastDigit digits) := by
  refine quiet_then (quiet_promptAndCollect _ _ _ _ _) fun chosen => ?_
  refine quiet_then (quiet_ask trivial) fun hungUp => ?_
  split
  · exact flowObeys_done
  · split
    · exact flowObeys_goto fun _ => flow.fallback_mem
    · split
      · exact quiet_then (quiet_playSafe _ _) fun _ => flowObeys_goto fun _ => flow.fallback_mem
      · rename_i provider hfind
        split
        · exact quiet_then (quiet_playSafe _ _) fun _ => flowObeys_goto fun _ => flow.fallback_mem
        · refine quiet_then (quiet_promptAndCollect _ _ _ _ _) fun entered => ?_
          refine quiet_then (quiet_ask trivial) fun hungUp => ?_
          split
          · exact flowObeys_done
          · split
            · exact flowObeys_goto fun _ => flow.fallback_mem
            · refine joinMeetingTarget_obeys fun _ => ?_
              refine ⟨ext, flow, hflow, node, hnode, .inl ?_⟩
              exact ⟨_, _, _, hdata, provider, List.mem_of_find?_eq_some hfind, entered, rfl⟩

/-- One node, by its kind. -/
theorem runNode_obeys (hid : Effect.event .randomUUID call.callId ∈ fs)
    (hflow : Effect.event (.getIvrFlow ext) (some flow) ∈ fs) (hnode : node ∈ flow.nodes)
    {lastDigit digits : String} :
    FlowObeys cfg rt req fs flow (runNode cfg rt call flow node lastDigit digits) := by
  unfold runNode
  split
  case h_1 => exact quiet_then (quiet_playPrompt _ _) fun _ => flowObeys_goto fun _ => flow.next_mem
  case h_2 => exact quiet_then (quiet_playPrompt _ _) fun _ => flowObeys_goto fun _ => flow.next_mem
  case h_3 => exact runMenu_obeys
  case h_4 => exact quiet_then (quiet_ask trivial) fun _ => flowObeys_goto fun _ => flow.branch_mem
  case h_5 => exact quiet_then (quiet_flowTransfer hid _) fun _ => flowObeys_done
  case h_6 => exact runMeetingInternal_obeys hflow hnode ‹_›
  case h_7 => exact runMeetingExternal_obeys hflow hnode ‹_›
  case h_8 => exact quiet_then (quiet_captureVoicemail _ _ _ _ _ _) fun _ => flowObeys_done
  case h_9 => exact quiet_then (quiet_flowSendEmail _ _ _ _) fun _ => flowObeys_goto fun _ => flow.next_mem
  case h_10 => exact flowObeys_done
  case h_11 => exact flowObeys_done

/-- The loop, by induction on the hops that are left. -/
theorem runFlowLoop_obeys (hid : Effect.event .randomUUID call.callId ∈ fs)
    (hflow : Effect.event (.getIvrFlow ext) (some flow) ∈ fs) (hops : Nat)
    {start : Option IvrGraphNode} (hstart : ∀ node, start = some node → node ∈ flow.nodes)
    {lastDigit digits : String} :
    Obeys cfg rt req (Known fs) (runFlowLoop cfg rt call flow hops start lastDigit digits)
      fun _ => Known fs := by
  induction hops generalizing start lastDigit digits with
  | zero => cases start <;> exact obeys_pure fun _ hk => hk
  | succ hops ih =>
    cases start with
    | none => exact obeys_pure fun _ hk => hk
    | some node =>
      refine quiet_then (quiet_ask trivial) fun hungUp => ?_
      split
      · exact obeys_pure fun _ hk => hk
      · refine (runNode_obeys hid hflow (hstart node rfl)).bind fun step => ?_
        cases step with
        | done result => exact obeys_pure fun _ hk => hk.2
        | goto next lastDigit digits =>
          -- the step stayed within the flow, which is what the rest of the loop needs
          by_cases hnext : (FlowStep.goto next lastDigit digits).Within flow
          · refine (ih fun node hn => ?_).conseq (fun _ hk => hk.2) fun _ _ hk => hk
            rw [hn] at hnext
            exact hnext
          · exact ⟨fun h hk => absurd hk.1 hnext⟩

end Node

/-! ## The IVR -/

theorem runFlow_obeys {call : FlowCall} {flow : IvrFlowGraph} {ext : String}
    (hid : Effect.event .randomUUID call.callId ∈ fs)
    (hflow : Effect.event (.getIvrFlow ext) (some flow) ∈ fs) :
    Obeys cfg rt req (Known fs) (runFlow cfg rt call flow) fun _ => Known fs := by
  unfold runFlow
  split
  · exact obeys_pure fun _ hk => hk
  · rename_i start hstart
    refine runFlowLoop_obeys hid hflow _ fun node hnode => ?_
    cases hnode
    exact List.mem_of_find?_eq_some hstart

theorem FlowResult.status_ne_ended (result : FlowResult) : result.status ≠ .ended := by
  cases result <;> nofun

theorem runFlowForCall_obeys {flow : IvrFlowGraph} {endpoint dialog : Leg}
    {callId callerNumber calledNumber ext : String} (hid : Effect.event .randomUUID callId ∈ fs)
    (hflow : Effect.event (.getIvrFlow ext) (some flow) ∈ fs) :
    Obeys cfg rt req (Known fs)
      (runFlowForCall cfg rt flow endpoint dialog callId callerNumber calledNumber)
      fun _ => Known fs := by
  refine quiet_then (quiet_setStatus hid nofun) fun _ => quiet_then quiet_directory fun dir => ?_
  refine (runFlow_obeys hid hflow).bind fun result => ?_
  split
  · exact obeys_pure fun _ hk => hk
  · refine quiet_then (quiet_setStatus hid result.status_ne_ended) fun _ => ?_
    exact (quiet_destroyLegs _ _).obeys_known

theorem serveIvr_obeys {endpoint dialog : Leg} {callId callerNumber calledNumber : String}
    (hid : Effect.event .randomUUID callId ∈ fs) :
    Obeys cfg rt req (Known fs)
      (serveIvr cfg rt endpoint dialog callId callerNumber calledNumber) fun _ => Known fs := by
  refine quiet_then (quiet_prepareVoice _) fun _ => ?_
  refine ask_then (e := .getIvrFlow calledNumber) trivial fun flow? => ?_
  have hid' := List.mem_cons_of_mem (Effect.event (.getIvrFlow calledNumber) flow?) hid
  refine Obeys.tail (e := Effect.event (.getIvrFlow calledNumber) flow?) ?_
  cases flow? with
  | none => exact (quiet_builtInMenu _ hid').obeys_known
  | some flow =>
    dsimp only
    split
    · exact runFlowForCall_obeys hid' List.mem_cons_self
    · exact (quiet_builtInMenu _ hid').obeys_known

theorem answerIvr_obeys {callId callerNumber calledNumber : String}
    (hid : Effect.event .randomUUID callId ∈ fs) :
    Obeys cfg rt req (Known fs) (answerIvr cfg rt callId callerNumber calledNumber)
      fun _ => Facts fs := by
  have hfailed : Quiet fs (do
      setStatus callId .failed
      sendUnlessFinal 503 (some "Service Unavailable")) :=
    quiet_bind (quiet_setStatus hid nofun) fun _ => quiet_sendUnlessFinal _ _ _
  refine quiet_then (quiet_ask trivial) fun up => ?_
  split
  · refine quiet_then (quiet_send _ _ _) fun _ => ?_
    exact Quiet.obeys (quiet_setStatus hid nofun) fun _ _ hk => hk.2.2
  · refine quiet_then (quiet_ask trivial) fun caller => ?_
    cases caller with
    | error _ => exact hfailed.obeys fun _ _ hk => hk.2.2
    | ok legs =>
      refine Obeys.tryCatch ((serveIvr_obeys hid).conseq (fun _ hk => hk) fun _ _ hk => hk.2.2)
        (fun _ hk => hk.2.2) fun _ => ?_
      exact (quiet_bind hfailed fun _ => quiet_destroyLegs _ _).obeys_facts

end Flow

end CallNet
