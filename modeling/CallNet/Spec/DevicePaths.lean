import CallNet.Spec.Fallback

/-!
# Paths to a device

An INVITE gets to a user's device by dialing the user, by a routing rule or by an inbound
PSTN number, and on every path `routeToExtension` is given the contact of the user that was
found but takes the Request-URI for the called extension.  So the fallback is that of the
user tried, and the block list that of the user rung, only on a call whose Request-URI names
that user.
-/

namespace CallNet

/-! ## Attempts -/

/-- Ringing a device by `routeToExtension`, which takes care of the failure itself. -/
def Effect.Tries : Effect → Prop
  | .createB2BUA _ _ passFailure => passFailure = false
  | _ => False

/-- No device was tried. -/
def NoTry (t : History) : Prop := ∀ ev ∈ t, ¬ ev.1.Tries

/-- A path by which an INVITE gets to a user's device. -/
inductive DevicePath where
  /-- The dial plan found an extension or a username. -/
  | dialed (route : DialResult)
  /-- A routing rule sends the call to an extension. -/
  | rule (rule : RoutingRule)
  /-- The trunk delivers a call to the number of a user. -/
  | did

/-- What handles the call on the path. -/
def DevicePath.handle (cfg : Config) (rt : Runtime) (ctx : CallContext) :
    DevicePath → CallProg Bool
  | .dialed route => InternalHandler cfg ctx (some route)
  | .rule r => dispatchRoutingRule cfg rt ctx r
  | .did => TrunkInboundHandler cfg rt ctx

/-- The path can lead the call to `tried`. -/
def DevicePath.Open (cfg : Config) (rt : Runtime) (ctx : CallContext) (tried : String) :
    DevicePath → Prop
  | .dialed route => route.type = .internal ∧ route.target = tried
  | .rule r => r.destinationType = .extension ∧ r.destinationValue = tried
  | .did => cfg.trunk.isFromTrunk rt ctx.req.sourceAddress = true

/-- In this run the path leads to `tried`. -/
def DevicePath.LeadsTo (cfg : Config) (rt : Runtime) (ctx : CallContext) (tried : String)
    (t : History) (path : DevicePath) : Prop :=
  path.Open cfg rt ctx tried ∧ (path = .did → ∃ snap user u,
    t = Effect.event .snapshot snap :: u ∧
    snap.dir.findPstnForwardTarget ctx.calledNumber = some (user, tried))

section Attempts

variable {cfg : Config} {rt : Runtime} {req : Request} {ctx : CallContext} {t u : History}

theorem noTry_nil : NoTry [] := fun _ hev => absurd hev List.not_mem_nil

theorem noTry_append (ht : NoTry t) (hu : NoTry u) : NoTry (t ++ u) := fun ev hev =>
  (List.mem_append.mp hev).elim (ht ev) (hu ev)

/-- Programs that try no device. -/
abbrev Untried {α : Type} (p : CallProg α) : Prop := Performs (fun e => ¬ e.Tries) p

theorem Untried.noTry {α : Type} {p : CallProg α} (hp : Untried p) {r : Except SipError α}
    (hr : Prog.Run p t r) : NoTry t := fun _ hev => hp.only.run hr hev

theorem Uses.untried {K : EffectKind → Prop} {α : Type} {p : CallProg α} (hp : Uses K p)
    (hK : ¬ K .ring) : Untried p := by
  refine hp.mono fun e he htries => ?_
  cases e with
  | createB2BUA uri timeoutMs passFailure => exact hK he
  | _ => exact htries

theorem untried_ask {e : Effect} (he : e.kind ≠ .ring) : Untried (ask e) := by
  refine performs_ask fun htries => ?_
  cases e <;> first | exact he rfl | exact htries

theorem forwardCall_untried (target callId callingNumber : String) :
    Untried (forwardCall cfg req target callId callingNumber) := by
  have hno : Untried (forwardCall.notRegistered callId callingNumber) :=
    performs_bind (untried_ask nofun) fun _ => performs_bind (untried_ask nofun) fun _ =>
      (sendUnlessFinal_speaking _ _ _).untried id
  refine performs_bind (performs_directory id) fun dir => ?_
  split
  · split
    · refine performs_ite (fun _ => ?_) fun _ => hno
      exact performs_bind ((routeCall_bridging _ _).untried id) fun ok => untried_ask nofun
    · exact hno
  · refine performs_bind (untried_ask nofun) fun _ => performs_then nofun fun call => ?_
    cases call with
    | error _ =>
      exact performs_bind (untried_ask nofun) fun _ => performs_bind (untried_ask nofun) fun _ =>
        (sendUnlessFinal_speaking _ _ _).untried id
    | ok legs =>
      refine performs_bind (untried_ask nofun) fun _ => performs_bind (untried_ask nofun) fun _ => ?_
      refine performs_bind ?_ fun _ => untried_ask nofun
      exact performs_bind (untried_ask nofun) fun _ => untried_ask nofun

theorem toVoicemail_untried (mailbox callId callingNumber : String) (unsaved : CallStatus)
    (reason : String) :
    Untried (toVoicemail cfg req mailbox callId callingNumber unsaved reason) := by
  refine (toVoicemail_into mailbox callId callingNumber unsaved reason).mono fun e he htries => ?_
  cases e <;> first | exact htries | exact he

theorem routeUnreachable_untried (calledExt callId callingNumber : String)
    (reason : UnreachableReason) :
    Untried (routeUnreachable cfg req calledExt callId callingNumber reason) := by
  refine performs_bind (performs_directory id) fun dir => performs_ite (fun _ => ?_) fun _ =>
    performs_ite (fun _ => forwardCall_untried _ _ _) fun _ =>
      performs_ite (fun _ => toVoicemail_untried _ _ _ _ _) fun _ =>
        performs_ite (fun _ => ?_) fun _ => ?_
  · refine performs_bind ((routeCall_bridging _ _).untried id) fun ok => ?_
    exact performs_bind (untried_ask nofun) fun _ =>
      performs_ite (fun _ => performs_pure _) fun _ => untried_ask nofun
  · exact performs_bind ((playUnavailable_speaking _).untried id) fun _ =>
      performs_bind (untried_ask nofun) fun _ => untried_ask nofun
  · exact performs_bind (untried_ask nofun) fun _ => performs_bind (untried_ask nofun) fun _ =>
      (sendUnlessFinal_speaking _ _ _).untried id

theorem routeDoNotDisturb_untried (calledExt callId callingNumber : String) :
    Untried (routeDoNotDisturb cfg req calledExt callId callingNumber) :=
  performs_ite (fun _ => toVoicemail_untried _ _ _ _ _) fun _ =>
    performs_bind (untried_ask nofun) fun _ => performs_bind (untried_ask nofun) fun _ =>
      (sendUnlessFinal_speaking _ _ _).untried id

/-! ## Reaching the device -/

/-- A run of the program tries no device, or ends with a run of `routeToExtension` that is the
    first to try one. -/
structure Reaches (cfg : Config) (ctx : CallContext) {α : Type} (p : CallProg α) : Prop where
  run : ∀ t r, Prog.Run p t r → NoTry t ∨ ∃ v w contact r', t = v ++ w ∧ NoTry v ∧
    Prog.Run (routeToExtension cfg ctx.req contact ctx.callId) w r'

theorem Untried.reaches {α : Type} {p : CallProg α} (hp : Untried p) : Reaches cfg ctx p :=
  ⟨fun _ _ hr => .inl (hp.noTry hr)⟩

theorem reaches_bind {α β : Type} {p : CallProg α} {f : α → CallProg β} (hp : Untried p)
    (hf : ∀ a, Reaches cfg ctx (f a)) : Reaches cfg ctx (p >>= f) := by
  refine ⟨fun t r hr => ?_⟩
  rcases Prog.run_bind_iff.mp hr with ⟨a, u, v, rfl, hu, hv⟩ | ⟨e, hu, -⟩
  · have hquiet : NoTry u := hp.noTry hu
    rcases (hf a).run v r hv with hv | ⟨v', w, contact, r', rfl, hv', hw⟩
    · exact .inl (noTry_append hquiet hv)
    · refine .inr ⟨u ++ v', w, contact, r', ?_, noTry_append hquiet hv', hw⟩
      rw [List.append_assoc]
  · exact .inl (hp.noTry hu)

theorem reaches_ite {α : Type} {c : Prop} [Decidable c] {p q : CallProg α}
    (hp : Reaches cfg ctx p) (hq : Reaches cfg ctx q) : Reaches cfg ctx (if c then p else q) := by
  split
  · exact hp
  · exact hq

/-- What follows the attempt does nothing. -/
theorem Reaches.last {α β : Type} {p : CallProg α} (hp : Reaches cfg ctx p) (b : β) :
    Reaches cfg ctx (p >>= fun _ => pure b) := by
  refine ⟨fun t r hr => ?_⟩
  rcases Prog.run_bind_iff.mp hr with ⟨_, u, v, rfl, hu, hv⟩ | ⟨e, hu, -⟩
  · obtain ⟨rfl, -⟩ := run_pure_iff.mp hv
    rw [List.append_nil]
    exact hp.run u _ hu
  · exact hp.run t _ hu

theorem reaches_device (contact : String) :
    Reaches cfg ctx (routeToExtension cfg ctx.req contact ctx.callId) :=
  ⟨fun t r hr => .inr ⟨[], t, contact, r, rfl, noTry_nil, hr⟩⟩

theorem InternalHandler_reaches (route : Option DialResult) :
    Reaches cfg ctx (InternalHandler cfg ctx route) := by
  unfold InternalHandler
  split
  · exact Untried.reaches (performs_pure _)
  · rename_i r _
    refine reaches_bind ((scheduleGate_answering _).untried id) fun closed => ?_
    refine reaches_ite (Untried.reaches (performs_pure _)) ?_
    refine reaches_bind (performs_directory id) fun dir => ?_
    split
    · refine reaches_ite (Untried.reaches ?_) ((reaches_device _).last true)
      exact performs_bind (routeDoNotDisturb_untried _ _ _) fun _ => performs_pure _
    · refine reaches_ite (Untried.reaches (performs_pure _)) (Untried.reaches ?_)
      exact performs_bind (routeUnreachable_untried _ _ _ _) fun _ => performs_pure _

theorem trunkToUnregistered_untried (target : String) :
    Untried (trunkToUnregistered cfg rt ctx target) := by
  refine performs_bind (ivrConnected_answering.untried id) fun connected =>
    performs_ite (fun _ => ?_) fun _ => ?_
  · exact performs_bind ((servedIvr_serving none).untried id) fun _ => performs_pure _
  · exact performs_bind (untried_ask nofun) fun _ => performs_bind (untried_ask nofun) fun _ =>
      performs_pure _

theorem TrunkInboundHandler_reaches : Reaches cfg ctx (TrunkInboundHandler cfg rt ctx) := by
  refine reaches_ite (Untried.reaches (performs_pure _)) ?_
  refine reaches_bind (performs_directory id) fun dir => ?_
  split
  · exact Untried.reaches (performs_bind (untried_ask nofun) fun _ =>
      performs_bind (untried_ask nofun) fun _ => performs_pure _)
  · rename_i target _
    refine reaches_bind (untried_ask nofun) fun _ => ?_
    split
    · exact (reaches_device _).last true
    · exact (trunkToUnregistered_untried _).reaches

theorem DevicePath.handle_rule {r : RoutingRule} (h : r.destinationType = .extension) :
    (DevicePath.rule r).handle cfg rt ctx =
      InternalHandler cfg ctx (some (ruleRoute ctx .internal r)) := by
  unfold DevicePath.handle dispatchRoutingRule
  dsimp only
  rw [h]

/-- On every path that is open to some user. -/
theorem DevicePath.handle_reaches {path : DevicePath} {tried : String}
    (ho : path.Open cfg rt ctx tried) : Reaches cfg ctx (path.handle cfg rt ctx) := by
  cases path with
  | dialed route => exact InternalHandler_reaches _
  | rule r =>
    rw [DevicePath.handle_rule ho.1]
    exact InternalHandler_reaches _
  | did => exact TrunkInboundHandler_reaches

/-! ## A run along a path -/

/-- Every snapshot of the run is this one. -/
def Sees (snap : Snapshot) (t : History) : Prop :=
  ∀ s, Effect.event .snapshot s ∈ t → s = snap

theorem sees_nil (snap : Snapshot) : Sees snap [] := fun _ hs => absurd hs List.not_mem_nil

theorem Sees.cons {snap : Snapshot} {e : Effect} {x : e.Answer} (he : e ≠ .snapshot)
    (ht : Sees snap t) : Sees snap (e.event x :: t) := by
  intro s hs
  rcases List.mem_cons.mp hs with heq | hs
  · exact absurd (congrArg Sigma.fst heq).symm he
  · exact ht s hs

theorem Sees.cons_snapshot {snap : Snapshot} (ht : Sees snap t) :
    Sees snap (Effect.event .snapshot snap :: t) := by
  intro s hs
  rcases List.mem_cons.mp hs with heq | hs
  · cases heq
    rfl
  · exact ht s hs

theorem Sees.append {snap : Snapshot} (ht : Sees snap t) (hu : Sees snap u) :
    Sees snap (t ++ u) := fun s hs => (List.mem_append.mp hs).elim (ht s) (hu s)

/-- Every program has a run. -/
theorem run_any {α : Type} (p : CallProg α) : ∃ t r, Prog.Run p t r :=
  ⟨_, Prog.run_trace (S := effects) (calmWorld .empty none) [] p⟩

theorem run_last {α β : Type} {p : CallProg α} {r : Except SipError α} (hr : Prog.Run p t r)
    (b : β) : ∃ r', Prog.Run (p >>= fun _ => pure b) t r' := by
  cases r with
  | ok a =>
    rw [← List.append_nil t]
    exact ⟨_, hr.bind (.pure b)⟩
  | error e => exact ⟨_, hr.bind_throw⟩

/-- The schedule gate lets the call pass when the routing module fails. -/
theorem run_scheduleGate_open (cfg : Config) (ctx : CallContext) (snap : Snapshot) (extension : String) :
    ∃ u, Sees snap u ∧ NoTry u ∧ Prog.Run (scheduleGate cfg ctx extension) u (.ok false) := by
  unfold scheduleGate
  split
  · exact ⟨[], sees_nil _, noTry_nil, .pure false⟩
  · refine ⟨_, (sees_nil snap).cons (e := .evaluate _) nofun, ?_,
      run_ask (e := .evaluate _) (.error {}) (.pure false)⟩
    intro ev hev
    rw [List.mem_singleton.mp hev]
    exact id

/-- The path is open and leads to a registered user who may be disturbed: some run of it is a
    prefix that tries nobody, followed by any run of `routeToExtension`. -/
theorem DevicePath.run_handle {path : DevicePath} {tried contact : String} {snap : Snapshot}
    (ho : path.Open cfg rt ctx tried) (hreg : snap.dir.getRegistration tried = some contact)
    (hdnd : ((snap.dir.getUser tried).map SipUser.dnd).getD false = false) {user : SipUser}
    (hdid : snap.dir.findPstnForwardTarget ctx.calledNumber = some (user, tried)) :
    ∃ v, Sees snap v ∧ Effect.event .snapshot snap ∈ v ∧
      (∀ w, path.LeadsTo cfg rt ctx tried (v ++ w)) ∧
      ∀ w r, Prog.Run (routeToExtension cfg ctx.req contact ctx.callId) w r →
        ∃ r', Prog.Run (path.handle cfg rt ctx) (v ++ w) r' := by
  -- a dialed extension and a rule end in the same handler
  have hinternal : ∃ v, Sees snap v ∧ Effect.event .snapshot snap ∈ v ∧
      ∀ w r, Prog.Run (routeToExtension cfg ctx.req contact ctx.callId) w r →
        ∀ route : DialResult, route.type = .internal → route.target = tried →
          ∃ r', Prog.Run (InternalHandler cfg ctx (some route)) (v ++ w) r' := by
    obtain ⟨v, hsees, -, hgate⟩ := run_scheduleGate_open cfg ctx snap tried
    refine ⟨v ++ [Effect.event .snapshot snap], hsees.append (sees_nil snap).cons_snapshot,
      List.mem_append_right _ List.mem_cons_self, fun w r hw route htype htarget => ?_⟩
    obtain ⟨r', hlast⟩ := run_last hw true
    refine ⟨r', ?_⟩
    have hroute : routeOf .internal (some route) = some route := by
      unfold routeOf
      exact Option.filter_eq_some_iff.mpr ⟨rfl, decide_eq_true htype⟩
    unfold InternalHandler
    rw [hroute]
    dsimp only
    rw [htarget, List.append_assoc]
    refine hgate.bind (run_directory_iff.mpr ⟨snap, w, rfl, ?_⟩)
    rw [hreg]
    dsimp only
    rw [hdnd]
    exact hlast
  obtain ⟨v, hsees, hsnap, hrun⟩ := hinternal
  cases path with
  | dialed route =>
    exact ⟨v, hsees, hsnap, fun w => ⟨ho, nofun⟩, fun w r hw => hrun w r hw route ho.1 ho.2⟩
  | rule r =>
    refine ⟨v, hsees, hsnap, fun w => ⟨ho, nofun⟩, fun w r' hw => ?_⟩
    rw [DevicePath.handle_rule ho.1]
    exact hrun w r' hw _ rfl ho.2
  | did =>
    refine ⟨[Effect.event .snapshot snap, Effect.event (.audit "call_start" ctx.callingNumber
        [("to", tried), ("callId", ctx.callId), ("type", "pstn_inbound")]
        (some ctx.req.sourceAddress)) ()],
      ((sees_nil snap).cons (e := .audit _ _ _ _) nofun).cons_snapshot,
      List.mem_cons_self, fun w => ⟨ho, fun _ => ⟨snap, user, _, rfl, hdid⟩⟩, fun w r hw => ?_⟩
    obtain ⟨r', hlast⟩ := run_last hw true
    refine ⟨r', ?_⟩
    have hsource : ¬ (!cfg.trunk.isFromTrunk rt ctx.req.sourceAddress) = true := by
      rw [show cfg.trunk.isFromTrunk rt ctx.req.sourceAddress = true from ho]
      nofun
    show Prog.Run (TrunkInboundHandler cfg rt ctx) _ r'
    unfold TrunkInboundHandler
    rw [if_neg hsource]
    refine run_directory_iff.mpr ⟨snap, _, rfl, ?_⟩
    rw [hdid]
    refine run_ask (e := .audit _ _ _ _) () ?_
    rw [hreg]
    exact hlast

/-! ## A user with a device -/

/-- A user who is registered, is called by the trunk at `called` and blocks these callers. -/
def deviceOwner (called tried : String) (blocked : List String) : SipUser :=
  { extension := tried, username := tried, name := tried, mobile := some ("x" ++ called)
    pstnForwardToBrowser := true, blockedNumbers := blocked }

/-- The contact of that user, and of the desk calls are forwarded to. -/
def ownerRegistrations (tried : String) : OrdMap String String :=
  (OrdMap.empty.set "desk" "sip:desk@198.51.100.7").set tried "sip:owner@198.51.100.8"

theorem findPstnForwardTarget_owner {d : Directory} {called tried : String} {blocked : List String}
    {rest : List SipUser} (h : d.users.values = deviceOwner called tried blocked :: rest) :
    d.findPstnForwardTarget called = some (deviceOwner called tried blocked, tried) := by
  have hdigits : lastTenDigits ("x" ++ called) = lastTenDigits called := by
    unfold lastTenDigits toDigits
    rw [String.toList_append, List.filter_append]
    rfl
  have hmobile : truthy (some ("x" ++ called)) = true := by
    unfold truthy
    split <;> rename_i heq
    · cases heq
    · have hempty := congrArg String.toList (Option.some.inj heq)
      rw [String.toList_append] at hempty
      cases hempty
    · rfl
  unfold Directory.findPstnForwardTarget
  rw [h, List.findSome?_cons]
  have htarget : truthy (deviceOwner called tried blocked).pstnForwardTarget = false := rfl
  have hbrowser : ¬ ((!(deviceOwner called tried blocked).pstnForwardToBrowser) = true ∨
      (!truthy (deviceOwner called tried blocked).mobile) = true) := by
    rw [show truthy (deviceOwner called tried blocked).mobile = true from hmobile]
    rintro (h | h) <;> cases h
  rw [if_neg hbrowser, if_pos (show lastTenDigits
    ((deviceOwner called tried blocked).mobile.getD "") = _ from hdigits), htarget]
  rfl

/-! ## The user whose settings are followed -/

/-- An attempt to ring a device failed. -/
def Attempted (h : History) : Prop :=
  ∃ uri timeoutMs err, Effect.event (.createB2BUA uri timeoutMs false) (.error err) ∈ h

/-- After a failed attempt everything is done by the settings of `tried`. -/
def FallbackOf (cfg : Config) (tried : String) (t : History) : Prop :=
  ∀ pre e post, t = pre ++ e :: post → Attempted pre → FollowsUser cfg tried pre e.1

/-- A failed attempt is not in the part of the run that tries nobody. -/
theorem split_after_attempt {v w pre post : History} {e : Prog.Event effects} (hv : NoTry v)
    (h : v ++ w = pre ++ e :: post) (ha : Attempted pre) :
    ∃ mid, pre = v ++ mid ∧ w = mid ++ e :: post := by
  rcases List.append_eq_append_iff.mp h with ⟨mid, hpre, hw⟩ | ⟨mid, hv', -⟩
  · exact ⟨mid, hpre, hw⟩
  · obtain ⟨uri, timeoutMs, err, hmem⟩ := ha
    have hin := List.mem_append_left mid hmem
    rw [← hv'] at hin
    exact absurd rfl (hv _ hin)

theorem NoTry.not_attempted {h : History} (hn : NoTry h) : ¬ Attempted h := by
  rintro ⟨uri, timeoutMs, err, hmem⟩
  exact hn _ hmem rfl

/-- The user tried, and the one of the Request-URI, who forwards busy calls to the desk. -/
def forwardingDirectory (called tried own : String) : Directory where
  users := (OrdMap.empty.set tried (deviceOwner called tried [])).set own
    { extension := own, username := own, name := own, forwardOnBusy := some "desk" }
  phoneIndex := .empty
  registrations := ownerRegistrations tried
  ivrFlowExtensions := []

section ForwardingDirectory

variable {called tried own : String}

theorem forwardingDirectory_tried (h : own ≠ tried) :
    (forwardingDirectory called tried own).users.get? tried = some (deviceOwner called tried []) := by
  unfold forwardingDirectory
  rw [OrdMap.get?_set_ne _ _ (Ne.symm h), OrdMap.get?_set_self]

theorem forwardingDirectory_own :
    (forwardingDirectory called tried own).users.get? own = some
      { extension := own, username := own, name := own, forwardOnBusy := some "desk" } := by
  unfold forwardingDirectory
  exact OrdMap.get?_set_self _ _ _

theorem forwardingDirectory_desk :
    ∃ contact, (forwardingDirectory called tried own).getRegistration "desk" = some contact := by
  unfold Directory.getRegistration forwardingDirectory ownerRegistrations
  rw [OrdMap.get?_set]
  split
  · exact ⟨_, rfl⟩
  · exact ⟨_, OrdMap.get?_set_self _ _ _⟩

theorem forwardingDirectory_did (h : own ≠ tried) :
    (forwardingDirectory called tried own).findPstnForwardTarget called =
      some (deviceOwner called tried [], tried) := by
  have hvalues : (forwardingDirectory called tried own).users.values =
      [deviceOwner called tried [],
       { extension := own, username := own, name := own, forwardOnBusy := some "desk" }] := by
    unfold forwardingDirectory
    rw [OrdMap.values_set_new _ (by rw [OrdMap.get?_set_ne _ _ h]; rfl),
      OrdMap.values_set_new _ rfl]
    rfl
  exact findPstnForwardTarget_owner hvalues

/-- A declined call of the user tried is forwarded to the desk of the Request-URI's user. -/
theorem run_declined (cfg : Config) (snap : Snapshot)
    (hsnap : snap.dir = forwardingDirectory called tried req.calledExt) (contact callId : String) : ∃ v desk rest r, Sees snap v ∧ Attempted v ∧
      Prog.Run (routeToExtension cfg req contact callId)
        (v ++ Effect.event (.createB2BUA (contactUri desk) none true) (.error {}) :: rest) r := by
  obtain ⟨desk, hdesk⟩ :
      ∃ desk, (forwardingDirectory called tried req.calledExt).getRegistration "desk" = some desk :=
    forwardingDirectory_desk
  have hblocked : snap.dir.isBlocked req.calledExt req.caller = false := by
    unfold Directory.isBlocked
    rw [hsnap, forwardingDirectory_own]
    rfl
  have hbusy : (snap.dir.getForwarding req.calledExt).busy = some "desk" := by
    unfold Directory.getForwarding
    rw [hsnap, forwardingDirectory_own]
    rfl
  let err : SipError := { status := some 486 }
  let v : History :=
    [Effect.event .snapshot snap,
     Effect.event (.notify req.caller "ringing" [("target", req.calledExt), ("callId", callId)]) (),
     Effect.event (.createB2BUA (contactUri contact) (some 15000) false) (.error err),
     Effect.event .snapshot snap,
     Effect.event (.audit "call_declined" req.caller [("to", req.calledExt), ("callId", callId),
       ("status", toString 486)] none) (),
     Effect.event .snapshot snap,
     Effect.event (.notify req.caller "forwarding" [("target", "desk"), ("callId", callId)]) ()]
  have hsees : Sees snap v :=
    (((((((sees_nil snap).cons (e := .notify _ _ _) nofun).cons_snapshot).cons
      (e := .audit _ _ _ _) nofun).cons_snapshot).cons (e := .createB2BUA _ _ _) nofun).cons
      (e := .notify _ _ _) nofun).cons_snapshot
  have hfails : Attempted v := ⟨contactUri contact, some 15000, err,
    List.mem_cons_of_mem _ (List.mem_cons_of_mem _ List.mem_cons_self)⟩
  -- how the run ends after the second try does not matter
  obtain ⟨rest, r, hrest⟩ := run_any (do
    notify req.caller "failed" [("reason", "forward_failed"), ("callId", callId)]
    setStatus callId .failed
    sendUnlessFinal 503 : CallProg Unit)
  refine ⟨v, desk, rest, r, hsees, hfails, ?_⟩
  unfold routeToExtension
  refine run_directory_iff.mpr ⟨snap, _, rfl, ?_⟩
  rw [if_neg (by rw [hblocked]; nofun)]
  refine run_ask (e := .notify _ _ _) () (run_ask (e := .createB2BUA _ _ _) (.error err) ?_)
  unfold extensionFailed
  refine run_directory_iff.mpr ⟨snap, _, rfl, ?_⟩
  dsimp only
  rw [if_pos (.inl rfl)]
  refine run_ask (e := .audit _ _ _ _) () ?_
  rw [hbusy, if_pos (show truthy (some "desk") = true from rfl)]
  unfold forwardCall
  refine run_directory_iff.mpr ⟨snap, _, rfl, ?_⟩
  rw [hsnap, show (forwardingDirectory called tried req.calledExt).getRegistration
    ((some "desk").getD "") = some desk from hdesk]
  exact run_ask (e := .notify _ _ _) () (run_ask (e := .createB2BUA _ _ _) (.error {}) hrest)

end ForwardingDirectory

/-- Where the Request-URI names another user than the one tried, that user's settings are
    followed in some run. -/
theorem DevicePath.run_stray {path : DevicePath} {tried : String}
    (ho : path.Open cfg rt ctx tried) (hne : ctx.req.calledExt ≠ tried) :
    ∃ t r, Prog.Run (path.handle cfg rt ctx) t r ∧ path.LeadsTo cfg rt ctx tried t ∧
      ¬ FallbackOf cfg tried t := by
  -- the user tried forwards nothing, the one of the Request-URI forwards to the desk
  let snap : Snapshot := ⟨forwardingDirectory ctx.calledNumber tried ctx.req.calledExt, none⟩
  have htried : snap.dir.users.get? tried = some (deviceOwner ctx.calledNumber tried []) :=
    forwardingDirectory_tried hne
  have hreg : snap.dir.getRegistration tried = some "sip:owner@198.51.100.8" :=
    OrdMap.get?_set_self _ _ _
  have hdnd : ((snap.dir.getUser tried).map SipUser.dnd).getD false = false := by
    unfold Directory.getUser
    rw [htried]
    rfl
  obtain ⟨v, hsees, -, hleads, hrun⟩ :=
    path.run_handle ho hreg hdnd (forwardingDirectory_did hne)
  obtain ⟨w, desk, rest, r, hsees', hfails, hdevice⟩ :=
    run_declined cfg snap (show snap.dir = forwardingDirectory ctx.calledNumber tried _ from rfl)
      "sip:owner@198.51.100.8" ctx.callId
  obtain ⟨r', hhandle⟩ := hrun _ r hdevice
  refine ⟨_, r', hhandle, hleads _, fun h => ?_⟩
  obtain ⟨uri, timeoutMs, err, hmem⟩ := hfails
  obtain ⟨target, contact, s, ⟨s', hs', htarget⟩, -⟩ :=
    h (v ++ w) _ rest (List.append_assoc _ _ _).symm
      ⟨uri, timeoutMs, err, List.mem_append_right _ hmem⟩ rfl
  rw [(hsees.append hsees') s' hs'] at htarget
  have hnone : snap.dir.getForwarding tried = ⟨none, none, none⟩ := by
    unfold Directory.getForwarding
    rw [htried]
    rfl
  rw [hnone] at htarget
  simp only [List.mem_cons, List.not_mem_nil, or_self, reduceCtorEq] at htarget

/-- For every path and every user it can lead to: in every run the fallback is that of the user
    whose device was tried, if and only if the Request-URI names that user. -/
theorem fallback_of_tried_iff (cfg : Config) (rt : Runtime) (ctx : CallContext)
    (path : DevicePath) (tried : String) :
    (∀ t r, Prog.Run (path.handle cfg rt ctx) t r → path.LeadsTo cfg rt ctx tried t →
        FallbackOf cfg tried t) ↔
      (path.Open cfg rt ctx tried → ctx.req.calledExt = tried) := by
  constructor
  · intro h ho
    by_contra hne
    obtain ⟨t, r, hr, hleads, hstray⟩ := path.run_stray ho hne
    exact hstray (h t r hr hleads)
  · intro h t r hr hleads pre e post ht ha
    rcases (path.handle_reaches hleads.1).run t r hr with hn | ⟨v, w, contact, r', rfl, hv, hw⟩
    · refine absurd ha (NoTry.not_attempted fun ev hev => hn ev ?_)
      rw [ht]
      exact List.mem_append_left _ hev
    · obtain ⟨mid, rfl, hmid⟩ := split_after_attempt hv ht ha
      have hfollows : Keeps (FollowsUser cfg ctx.req.calledExt) []
          (routeToExtension cfg ctx.req contact ctx.callId) := routeToExtension_follows _ _
      rw [h hleads.1] at hfollows
      exact hfollows.run (fun _ he => absurd he List.not_mem_nil) hw hmid

/-- A rule sends the calls of `1001` to the extension `1002`, which declines; the call is then
    forwarded by the settings of `1001`. -/
theorem not_fallback_of_tried_ruled :
    ¬ ∀ t r, Prog.Run ((DevicePath.rule ⟨"1001", .extension, "1002"⟩).handle trunkOnly bareRuntime
          ((inviteFrom "203.0.113.9" "1003" "1001").context none "call-1")) t r →
        (DevicePath.rule ⟨"1001", .extension, "1002"⟩).LeadsTo trunkOnly bareRuntime
          ((inviteFrom "203.0.113.9" "1003" "1001").context none "call-1") "1002" t →
        FallbackOf trunkOnly "1002" t := by
  intro h
  have hne : ((inviteFrom "203.0.113.9" "1003" "1001").context none "call-1").req.calledExt ≠
      "1002" := by decide +kernel
  obtain ⟨t, r, hr, hleads, hstray⟩ :=
    (DevicePath.rule ⟨"1001", .extension, "1002"⟩).run_stray ⟨rfl, rfl⟩ hne
  exact hstray (h t r hr hleads)

/-! ## Every device is rung on a path -/

/-- In a run of a path that tries a device the path leads to a user. -/
theorem DevicePath.leadsTo_of_try {path : DevicePath} {r : Except SipError Bool}
    (hr : Prog.Run (path.handle cfg rt ctx) t r) {ev : Prog.Event effects} (hev : ev ∈ t)
    (htries : ev.1.Tries) : ∃ tried, path.LeadsTo cfg rt ctx tried t := by
  -- a program that tries nobody has no run with a try
  have hnone {p : CallProg Bool} (hp : Untried p) (h : Prog.Run p t r) : False :=
    hp.noTry h ev hev htries
  cases path with
  | dialed route =>
    by_cases htype : route.type = .internal
    · exact ⟨route.target, ⟨htype, rfl⟩, nofun⟩
    · have hroute : routeOf .internal (some route) = none :=
        Option.filter_eq_none_iff.mpr fun a ha => by
          cases ha
          exact fun h => htype (of_decide_eq_true h)
      have hskip : InternalHandler cfg ctx (some route) = pure false := by
        unfold InternalHandler
        rw [hroute]
      exact (hnone (performs_pure false) (hskip ▸ hr)).elim
  | rule r' =>
    by_cases htype : r'.destinationType = .extension
    · exact ⟨r'.destinationValue, ⟨htype, rfl⟩, nofun⟩
    · refine (hnone ?_ hr).elim
      show Untried (dispatchRoutingRule cfg rt ctx r')
      unfold dispatchRoutingRule
      split
      · exact (IvrHandler_serving _).untried id
      · exact absurd ‹_› htype
      · refine performs_ite (fun _ => ?_) fun _ => ?_
        · exact performs_bind ((sendUnlessFinal_speaking _ _ _).untried id) fun _ =>
            performs_bind (untried_ask nofun) fun _ => performs_pure _
        · exact performs_bind ((routeCall_bridging _ _).untried id) fun ok =>
            performs_bind (untried_ask nofun) fun _ => performs_pure _
      · refine performs_ite (fun _ => ?_) fun _ => ?_
        · refine performs_bind (performs_directory id) fun dir => ?_
          exact performs_bind ((recordVoicemail_answering _ _ _).untried id) fun saved =>
            performs_bind (untried_ask nofun) fun _ => performs_pure _
        · exact performs_bind ((sendUnlessFinal_speaking _ _ _).untried id) fun _ =>
            performs_bind (untried_ask nofun) fun _ => performs_pure _
      · exact performs_pure _
  | did =>
    by_cases hsource : cfg.trunk.isFromTrunk rt ctx.req.sourceAddress = true
    · have hrun : Prog.Run (TrunkInboundHandler cfg rt ctx) t r := hr
      unfold TrunkInboundHandler at hrun
      rw [if_neg (by rw [hsource]; nofun)] at hrun
      obtain ⟨snap, u, rfl, hu⟩ := run_directory_iff.mp hrun
      cases hdid : snap.dir.findPstnForwardTarget ctx.calledNumber with
      | none =>
        rw [hdid] at hu
        rcases List.mem_cons.mp hev with rfl | hev
        · exact htries.elim
        · have hquiet : Untried (do send 480; setStatus ctx.callId .missed; pure true) :=
            performs_bind (untried_ask nofun) fun _ => performs_bind (untried_ask nofun) fun _ =>
              performs_pure _
          exact (hquiet.noTry hu ev hev htries).elim
      | some found =>
        exact ⟨found.2, hsource, fun _ => ⟨snap, found.1, u, rfl, hdid⟩⟩
    · have hskip : TrunkInboundHandler cfg rt ctx = pure false :=
        TrunkInboundHandler_declines (Bool.eq_false_iff.mpr hsource)
      exact (hnone (performs_pure false) (hskip ▸ hr)).elim

/-- Wherever a run of the program tries a device, it runs a path. -/
structure OnPaths (cfg : Config) (rt : Runtime) (ctx : CallContext) {α : Type} (p : CallProg α) :
    Prop where
  run : ∀ t r, Prog.Run p t r → ∀ ev ∈ t, ev.1.Tries →
    ∃ (path : DevicePath) (v u w : History) (r' : Except SipError Bool),
      t = v ++ u ++ w ∧ ev ∈ u ∧ Prog.Run (path.handle cfg rt ctx) u r'

theorem Untried.onPaths {α : Type} {p : CallProg α} (hp : Untried p) : OnPaths cfg rt ctx p :=
  ⟨fun _ _ hr ev hev htries => (hp.noTry hr ev hev htries).elim⟩

theorem onPaths_bind {α β : Type} {p : CallProg α} {f : α → CallProg β}
    (hp : OnPaths cfg rt ctx p) (hf : ∀ a, OnPaths cfg rt ctx (f a)) :
    OnPaths cfg rt ctx (p >>= f) := by
  refine ⟨fun t r hr ev hev htries => ?_⟩
  rcases Prog.run_bind_iff.mp hr with ⟨a, u, v, rfl, hu, hv⟩ | ⟨e, hu, -⟩
  · rcases List.mem_append.mp hev with hev | hev
    · obtain ⟨path, x, y, z, r', rfl, hmem, hrun⟩ := hp.run u _ hu ev hev htries
      exact ⟨path, x, y, z ++ v, r', by rw [List.append_assoc], hmem, hrun⟩
    · obtain ⟨path, x, y, z, r', rfl, hmem, hrun⟩ := (hf a).run v _ hv ev hev htries
      exact ⟨path, u ++ x, y, z, r', by simp only [List.append_assoc], hmem, hrun⟩
  · exact hp.run t _ hu ev hev htries

theorem onPaths_tryCatch {α : Type} {p : CallProg α} {f : SipError → CallProg α}
    (hp : OnPaths cfg rt ctx p) (hf : ∀ e, Untried (f e)) : OnPaths cfg rt ctx (p.tryCatch f) := by
  refine ⟨fun t r hr ev hev htries => ?_⟩
  rcases Prog.run_tryCatch_iff.mp hr with ⟨a, hu, -⟩ | ⟨e, u, v, rfl, hu, hv⟩
  · exact hp.run t _ hu ev hev htries
  · rcases List.mem_append.mp hev with hev | hev
    · obtain ⟨path, x, y, z, r', rfl, hmem, hrun⟩ := hp.run u _ hu ev hev htries
      exact ⟨path, x, y, z ++ v, r', by rw [List.append_assoc], hmem, hrun⟩
    · exact ((hf e).noTry hv ev hev htries).elim

theorem onPaths_handle (path : DevicePath) : OnPaths cfg rt ctx (path.handle cfg rt ctx) :=
  ⟨fun t r hr _ hev _ => ⟨path, [], t, [], r, (List.append_nil _).symm, hev, hr⟩⟩

/-- Handlers in order, by induction on the list. -/
theorem firstHandler_onPaths {handlers : List (CallProg Bool)}
    (h : ∀ handle ∈ handlers, OnPaths cfg rt ctx handle) :
    OnPaths cfg rt ctx (firstHandler handlers) := by
  induction handlers with
  | nil => exact Untried.onPaths (performs_pure _)
  | cons handle rest ih =>
    refine onPaths_bind (h handle List.mem_cons_self) fun handled => ?_
    cases handled with
    | true => exact Untried.onPaths (performs_pure _)
    | false => exact ih fun handle hmem => h handle (List.mem_cons_of_mem _ hmem)

theorem applyRoutingRule_onPaths : OnPaths cfg rt ctx (applyRoutingRule cfg rt ctx) := by
  unfold applyRoutingRule
  split
  · exact Untried.onPaths (performs_pure _)
  · refine onPaths_bind (Untried.onPaths (untried_ask nofun)) fun rule? => ?_
    cases rule? with
    | none => exact Untried.onPaths (performs_pure _)
    | some r =>
      exact onPaths_bind (Untried.onPaths (untried_ask nofun)) fun _ => onPaths_handle (.rule r)

theorem pushWakeUp_untried : Untried (pushWakeUp cfg ctx) :=
  performs_ite (fun _ => performs_pure _) fun _ => performs_bind (performs_directory id) fun _ =>
    performs_ite (fun _ => untried_ask nofun) fun _ => performs_pure _

theorem routeAdmitted_onPaths (route : DialResult) :
    OnPaths cfg rt ctx (routeAdmitted cfg rt ctx route) := by
  refine onPaths_tryCatch (onPaths_bind applyRoutingRule_onPaths fun ruled => ?_) fun _ =>
    (sendUnlessFinal_speaking _ _ _).untried id
  cases ruled with
  | true => exact Untried.onPaths (performs_pure _)
  | false =>
    refine onPaths_bind pushWakeUp_untried.onPaths fun _ => onPaths_bind ?_ fun handled => ?_
    · refine firstHandler_onPaths fun handle hmem => ?_
      simp only [routeHandlers, List.mem_cons, List.not_mem_nil, or_false] at hmem
      rcases hmem with rfl | rfl | rfl | rfl | rfl | rfl | rfl | rfl | rfl | rfl
      · exact onPaths_handle .did
      · exact ((WidgetHandler_dialing _).untried id).onPaths
      · exact (TeamsMeetingHandler_dialing.untried id).onPaths
      · exact ((ConferenceHandler_hosting _).untried id).onPaths
      · exact ((QueueHandler_hosting _).untried id).onPaths
      · exact ((EmergencyHandler_dialing _).untried id).onPaths
      · exact ((IvrHandler_serving _).untried id).onPaths
      · exact onPaths_handle (.dialed route)
      · exact ((SipUriHandler_dialing _).untried id).onPaths
      · exact ((ExternalHandler_dialing _).untried id).onPaths
    · refine Untried.onPaths (performs_ite (fun _ => performs_pure _) fun _ => ?_)
      refine performs_bind (untried_ask fun h => ?_) fun _ => untried_ask fun h => ?_
      · cases h
      · cases h

theorem Effect.Screening.not_tries {e : Effect} (he : e.Screening) : ¬ e.Tries := by
  cases e <;> first | exact id | exact he.elim

/-- Whatever rings a device while an INVITE is handled is a step of a path to some user. -/
theorem device_rung_on_path {r : Except SipError Unit}
    (hr : Prog.Run (handleInvite cfg rt req) t r) {ev : Prog.Event effects} (hev : ev ∈ t)
    (htries : ev.1.Tries) : ∃ (a : Admission) (path : DevicePath) (tried : String)
      (v u w : History) (r' : Except SipError Bool), t = v ++ u ++ w ∧ ev ∈ u ∧
        Prog.Run (path.handle cfg rt (a.ctx req)) u r' ∧ path.LeadsTo cfg rt (a.ctx req) tried u := by
  rcases run_handleInvite_iff.mp hr with ⟨hrefused, -⟩ | ⟨a, ha, x, rfl, hrouted⟩
  · exact ((admitInvite_screening.only.run hrefused hev).not_tries htries).elim
  · rcases List.mem_append.mp hev with hev | hev
    · exact ((ha.screening hev).not_tries htries).elim
    · obtain ⟨path, v, u, w, r', rfl, hmem, hrun⟩ :=
        (routeAdmitted_onPaths (a.route cfg rt req)).run x _ hrouted ev hev htries
      obtain ⟨tried, hleads⟩ := path.leadsTo_of_try hrun hmem htries
      exact ⟨a, path, tried, a.trace cfg req ++ v, u, w, r', by simp only [List.append_assoc],
        hmem, hrun, hleads⟩

end Attempts

end CallNet
