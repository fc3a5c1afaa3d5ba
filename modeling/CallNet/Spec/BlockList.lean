import CallNet.Spec.DevicePaths

/-!
# The block list

`routeToExtension` looks the caller up in the block list of the extension of the Request-URI,
and `forwardCall` in none.  So a user who blocks the caller is left alone only where the
Request-URI names that user (`blocked_not_rung_iff`).
-/

namespace CallNet

/-- A path by which an INVITE can ring a device. -/
inductive RingPath where
  | direct (path : DevicePath)
  /-- Another user's call forwarding. -/
  | forwarded (target : String)

namespace RingPath

def handle (cfg : Config) (rt : Runtime) (ctx : CallContext) : RingPath → CallProg Bool
  | direct path => path.handle cfg rt ctx
  | forwarded target => do
    forwardCall cfg ctx.req target ctx.callId ctx.callingNumber
    pure true

/-- The path can lead the call to `user`. -/
def Open (cfg : Config) (rt : Runtime) (ctx : CallContext) (user : String) : RingPath → Prop
  | direct path => path.Open cfg rt ctx user
  | forwarded target => target = user

/-- In this run the path leads to `user`. -/
def LeadsTo (cfg : Config) (rt : Runtime) (ctx : CallContext) (user : String) (t : History) :
    RingPath → Prop
  | direct path => path.LeadsTo cfg rt ctx user t
  | forwarded target => target = user

/-- The effect by which the path rings a device at `uri`. -/
def Rings (uri : String) (path : RingPath) : Effect → Prop
  | .createB2BUA uri' _ passFailure => uri' = uri ∧
      passFailure = match path with
        | direct _ => false
        | forwarded _ => true
  | _ => False

/-- The path rings the device of `user`. -/
def RingsDevice (user : String) (t : History) (path : RingPath) : Prop :=
  ∃ snap contact ev, Effect.event .snapshot snap ∈ t ∧
    snap.dir.getRegistration user = some contact ∧ ev ∈ t ∧ path.Rings (contactUri contact) ev.1

/-- The path applies the block list of `user` to the caller. -/
def Screens (ctx : CallContext) (user : String) : RingPath → Prop
  | direct _ => ctx.req.calledExt = user ∧ ctx.req.caller = ctx.callingNumber
  | forwarded _ => False

end RingPath

/-- Whenever the users are looked at, `user` blocks the caller. -/
def Blocks (caller user : String) (t : History) : Prop :=
  ∀ snap, Effect.event .snapshot snap ∈ t → snap.dir.isBlocked user caller = true

section BlockList

variable {cfg : Config} {rt : Runtime} {req : Request} {ctx : CallContext} {t : History}

/-- A caller on the block list of the Request-URI's user rings nobody. -/
theorem routeToExtension_blocked {contact callId : String} {r : Except SipError Unit}
    (hb : Blocks req.caller req.calledExt t)
    (hr : Prog.Run (routeToExtension cfg req contact callId) t r) : NoTry t := by
  obtain ⟨snap, u, rfl, hu⟩ := run_directory_iff.mp hr
  rw [if_pos (hb snap List.mem_cons_self)] at hu
  have hquiet : Untried (do
      notify req.caller "declined" [("reason", "blocked"), ("callId", callId)]
      setStatus callId .missed
      send 603 (some "Decline")) :=
    performs_bind (untried_ask nofun) fun _ => performs_bind (untried_ask nofun) fun _ =>
      untried_ask nofun
  intro ev hev
  rcases List.mem_cons.mp hev with rfl | hev
  · exact id
  · exact hquiet.noTry hu ev hev

theorem RingPath.Rings.tries {path : DevicePath} {uri : String} {e : Effect}
    (h : (RingPath.direct path).Rings uri e) : e.Tries := by
  cases e <;> first | exact h.2 | exact h.elim

/-! ### A blocked caller who gets through -/

/-- A registered user who blocks one caller. -/
def blockingDirectory (called user caller : String) : Directory where
  users := OrdMap.empty.set user (deviceOwner called user [caller])
  phoneIndex := .empty
  registrations := ownerRegistrations user
  ivrFlowExtensions := []

theorem blockingDirectory_user (called user caller : String) :
    (blockingDirectory called user caller).users.get? user =
      some (deviceOwner called user [caller]) := OrdMap.get?_set_self _ _ _

theorem blockingDirectory_blocks (called user caller : String) :
    (blockingDirectory called user caller).isBlocked user caller = true := by
  unfold Directory.isBlocked
  rw [blockingDirectory_user]
  exact decide_eq_true List.mem_cons_self

/-- Nobody else's caller is blocked, and no one else blocks anybody. -/
theorem blockingDirectory_passes {called user caller user' caller' : String}
    (h : ¬ (user' = user ∧ caller' = caller)) :
    (blockingDirectory called user caller).isBlocked user' caller' = false := by
  unfold Directory.isBlocked
  by_cases huser : user' = user
  · rw [huser, blockingDirectory_user]
    exact decide_eq_false fun hmem => h ⟨huser, List.mem_singleton.mp hmem⟩
  · have hnone : (blockingDirectory called user caller).users.get? user' = none := by
      unfold blockingDirectory
      rw [OrdMap.get?_set_ne _ _ huser]
      rfl
    rw [hnone]

/-- Programs that do not look at the users. -/
theorem sees_of_performs {α : Type} {p : CallProg α} (hp : Performs (· ≠ .snapshot) p)
    {r : Except SipError α} (hr : Prog.Run p t r) (snap : Snapshot) : Sees snap t :=
  fun _ hs => absurd rfl (hp.run hr hs)

theorem Sees.blocks {snap : Snapshot} {caller user : String}
    (hb : snap.dir.isBlocked user caller = true) (ht : Sees snap t) : Blocks caller user t := by
  intro s hs
  rw [ht s hs]
  exact hb

/-- A device whose user is not the one looked up is rung. -/
theorem run_unscreened (cfg : Config) {snap : Snapshot} (contact callId : String)
    (hpass : snap.dir.isBlocked req.calledExt req.caller = false) :
    ∃ w r x, Sees snap w ∧ Prog.Run (routeToExtension cfg req contact callId) w r ∧
      Effect.event (.createB2BUA (contactUri contact) (some 15000) false) x ∈ w := by
  let legs : Leg × Leg := (⟨0, none, none⟩, ⟨1, none, none⟩)
  obtain ⟨rest, r, hrest⟩ := run_any (do
    notify req.caller "answered" [("target", req.calledExt), ("callId", callId)]
    audit "call_answered" req.caller [("to", req.calledExt), ("callId", callId)]
    endWith legs.1 legs.2 [.endCall callId,
      .audit "call_ended" req.caller [("to", req.calledExt), ("callId", callId)]]
    setStatus callId .answered : CallProg Unit)
  have hquiet : Sees snap rest := by
    refine sees_of_performs ?_ hrest snap
    refine performs_then nofun fun _ => performs_then nofun fun _ => performs_bind ?_ fun _ =>
      performs_ask nofun
    exact performs_then nofun fun _ => performs_ask nofun
  let ringing : Effect := .notify req.caller "ringing" [("target", req.calledExt), ("callId", callId)]
  let ring : Effect := .createB2BUA (contactUri contact) (some 15000) false
  have hrun : Prog.Run (routeToExtension cfg req contact callId)
      (Effect.event .snapshot snap :: ringing.event () :: ring.event (.ok legs) :: rest) r := by
    refine run_directory_iff.mpr ⟨snap, _, rfl, ?_⟩
    rw [if_neg (by rw [hpass]; nofun)]
    exact run_ask (e := .notify _ _ _) () (run_ask (e := .createB2BUA _ _ _) (.ok legs) hrest)
  refine ⟨_, r, .ok legs, ?_, hrun, List.mem_cons_of_mem _ (List.mem_cons_of_mem _
    List.mem_cons_self)⟩
  exact ((hquiet.cons (e := ring) nofun).cons (e := ringing) nofun).cons_snapshot

/-- The target of a forwarding is rung whoever calls. -/
theorem run_forwarded (cfg : Config) (req : Request) (callId callingNumber : String)
    {snap : Snapshot} {user contact : String}
    (hreg : snap.dir.getRegistration user = some contact) :
    ∃ t r x, Sees snap t ∧ Effect.event .snapshot snap ∈ t ∧
      Prog.Run (forwardCall cfg req user callId callingNumber) t r ∧
      Effect.event (.createB2BUA (contactUri contact) none true) x ∈ t := by
  obtain ⟨rest, r, hrest⟩ := run_any (do
    notify callingNumber "failed" [("reason", "forward_failed"), ("callId", callId)]
    setStatus callId .failed
    sendUnlessFinal 503 : CallProg Unit)
  have hquiet : Sees snap rest := by
    refine sees_of_performs ?_ hrest snap
    exact performs_then nofun fun _ => performs_then nofun fun _ =>
      performs_sendUnlessFinal nofun nofun
  let forwarding : Effect := .notify callingNumber "forwarding" [("target", user), ("callId", callId)]
  let ring : Effect := .createB2BUA (contactUri contact) none true
  have hrun : Prog.Run (forwardCall cfg req user callId callingNumber)
      (Effect.event .snapshot snap :: forwarding.event () :: ring.event (.error {}) :: rest) r := by
    refine run_directory_iff.mpr ⟨snap, _, rfl, ?_⟩
    rw [hreg]
    exact run_ask (e := .notify _ _ _) () (run_ask (e := .createB2BUA _ _ _) (.error {}) hrest)
  refine ⟨_, r, .error {}, ?_, List.mem_cons_self, hrun, List.mem_cons_of_mem _
    (List.mem_cons_of_mem _ List.mem_cons_self)⟩
  exact ((hquiet.cons (e := ring) nofun).cons (e := forwarding) nofun).cons_snapshot

/-- Where the path does not apply the block list, a blocked caller rings the device. -/
theorem RingPath.run_blocked (cfg : Config) (rt : Runtime) {path : RingPath} {user : String} (ho : path.Open cfg rt ctx user)
    (hs : ¬ path.Screens ctx user) :
    ∃ t r, Prog.Run (path.handle cfg rt ctx) t r ∧ path.LeadsTo cfg rt ctx user t ∧
      Blocks ctx.callingNumber user t ∧ path.RingsDevice user t := by
  let snap : Snapshot := ⟨blockingDirectory ctx.calledNumber user ctx.callingNumber, none⟩
  have hblocks : snap.dir.isBlocked user ctx.callingNumber = true :=
    blockingDirectory_blocks _ _ _
  have hreg : snap.dir.getRegistration user = some "sip:owner@198.51.100.8" :=
    OrdMap.get?_set_self _ _ _
  cases path with
  | direct path =>
    have hdnd : ((snap.dir.getUser user).map SipUser.dnd).getD false = false := by
      unfold Directory.getUser
      rw [show snap.dir.users.get? user = _ from blockingDirectory_user _ _ _]
      rfl
    have hdid : snap.dir.findPstnForwardTarget ctx.calledNumber =
        some (deviceOwner ctx.calledNumber user [ctx.callingNumber], user) :=
      findPstnForwardTarget_owner (OrdMap.values_set_new _ rfl)
    obtain ⟨v, hsees, hsnap, hleads, hrun⟩ := path.run_handle ho hreg hdnd hdid
    have hpass : snap.dir.isBlocked ctx.req.calledExt ctx.req.caller = false :=
      blockingDirectory_passes hs
    obtain ⟨w, r, x, hsees', hdevice, hring⟩ :=
      run_unscreened cfg "sip:owner@198.51.100.8" ctx.callId hpass
    obtain ⟨r', hhandle⟩ := hrun w r hdevice
    exact ⟨v ++ w, r', hhandle, hleads w, (hsees.append hsees').blocks hblocks, snap, _, _,
      List.mem_append_left _ hsnap, hreg, List.mem_append_right _ hring, rfl, rfl⟩
  | forwarded target =>
    obtain rfl : target = user := ho
    obtain ⟨t, r, x, hsees, hsnap, hforward, hring⟩ :=
      run_forwarded cfg ctx.req ctx.callId ctx.callingNumber hreg
    obtain ⟨r', hhandle⟩ := run_last hforward true
    exact ⟨t, r', hhandle, rfl, hsees.blocks hblocks, snap, _, _, hsnap, hreg, hring, rfl, rfl⟩

/-- For every path and every user it can lead to: a user who blocks the caller is never rung,
    if and only if the Request-URI names that user and the `From` header the caller, and the
    call is not a forwarded one. -/
theorem blocked_not_rung_iff (cfg : Config) (rt : Runtime) (ctx : CallContext) (path : RingPath)
    (user : String) :
    (∀ t r, Prog.Run (path.handle cfg rt ctx) t r → path.LeadsTo cfg rt ctx user t →
        Blocks ctx.callingNumber user t → ¬ path.RingsDevice user t) ↔
      (path.Open cfg rt ctx user → path.Screens ctx user) := by
  constructor
  · intro h ho
    by_contra hs
    obtain ⟨t, r, hr, hleads, hb, hrings⟩ := path.run_blocked cfg rt ho hs
    exact h t r hr hleads hb hrings
  · rintro h t r hr hleads hb ⟨snap, contact, ev, -, -, hev, hrings⟩
    cases path with
    | direct path =>
      obtain ⟨hext, hcaller⟩ := h hleads.1
      rcases (path.handle_reaches hleads.1).run t r hr with hn | ⟨v, w, contact', r', rfl, hv, hw⟩
      · exact hn ev hev hrings.tries
      · have hb' : Blocks ctx.req.caller ctx.req.calledExt w := by
          rw [hext, hcaller]
          exact fun s hs => hb s (List.mem_append_right _ hs)
        exact noTry_append hv (routeToExtension_blocked hb' hw) ev hev hrings.tries
    | forwarded target => exact h hleads

/-- A rule sends the calls of `1001` to the extension `1002`, who blocks the caller `1003` and
    is rung all the same. -/
theorem not_blocked_not_rung_ruled :
    ¬ ∀ t r, Prog.Run ((RingPath.direct (.rule ⟨"1001", .extension, "1002"⟩)).handle trunkOnly
          bareRuntime ((inviteFrom "203.0.113.9" "1003" "1001").context none "call-1")) t r →
        (RingPath.direct (.rule ⟨"1001", .extension, "1002"⟩)).LeadsTo trunkOnly bareRuntime
          ((inviteFrom "203.0.113.9" "1003" "1001").context none "call-1") "1002" t →
        Blocks "1003" "1002" t →
        ¬ (RingPath.direct (.rule ⟨"1001", .extension, "1002"⟩)).RingsDevice "1002" t := by
  intro h
  have hs : ¬ (RingPath.direct (.rule ⟨"1001", .extension, "1002"⟩)).Screens
      ((inviteFrom "203.0.113.9" "1003" "1001").context none "call-1") "1002" := by
    rintro ⟨hext, -⟩
    revert hext
    decide +kernel
  obtain ⟨t, r, hr, hleads, hb, hrings⟩ :=
    RingPath.run_blocked trunkOnly bareRuntime
      (show (RingPath.direct (.rule ⟨"1001", .extension, "1002"⟩)).Open _ _ _ _ from ⟨rfl, rfl⟩) hs
  exact h t r hr hleads hb hrings

end BlockList

end CallNet
