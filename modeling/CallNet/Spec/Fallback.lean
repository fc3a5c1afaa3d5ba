import CallNet.Spec.HandlerKinds
import CallNet.Spec.Keeps
import CallNet.Spec.WidgetScope

/-!
# Fallback

What happens to a call whose device could not be reached: it is forwarded, put through to a
mobile or sent to voicemail.  `FollowsUser start` says that this is done by the settings of
the user `start`, and the programs that are given the called extension keep to it.
-/

namespace CallNet

/-- A target that `start` forwards its calls to, in some snapshot of the history. -/
def ForwardsTo (h : History) (start target : String) : Prop :=
  ∃ snap, Effect.event .snapshot snap ∈ h ∧
    some target ∈ [(snap.dir.getForwarding start).busy, (snap.dir.getForwarding start).noAnswer,
      (snap.dir.getForwarding start).unavailable]

/-- The stored mobile of a user, in some snapshot of the history. -/
def MobileOf (h : History) (ext number : String) : Prop :=
  ∃ snap user, Effect.event .snapshot snap ∈ h ∧ snap.dir.getUser ext = some user ∧
    user.mobile = some number

/-- What a fallback by the settings of `start` may do after `h`: dial the mobile of `start` or
    of a user it forwards to, ring the latter, and record into the mailbox of `start`. -/
def FollowsUser (cfg : Config) (start : String) (h : History) : Effect → Prop
  | .createUAC invite => ∃ ext number localSdp callerId, (ext = start ∨ ForwardsTo h start ext) ∧
      MobileOf h ext number ∧ invite = cfg.trunk.invite number localSdp callerId
  | .createB2BUA uri _ passFailure => passFailure = true → ∃ target contact snap,
      ForwardsTo h start target ∧ Effect.event .snapshot snap ∈ h ∧
      snap.dir.getRegistration target = some contact ∧ uri = contactUri contact
  | .addVoicemail vm => vm.mailbox = start
  | _ => True

section Fallback

variable {cfg : Config} {req : Request} {start : String} {fs : History}

theorem ForwardsTo.mono {h : History} {target : String} (hf : Facts fs h)
    (ht : ForwardsTo fs start target) : ForwardsTo h start target := by
  obtain ⟨snap, hmem, htarget⟩ := ht
  exact ⟨snap, hf _ hmem, htarget⟩

theorem MobileOf.mono {h : History} {ext number : String} (hf : Facts fs h)
    (hm : MobileOf fs ext number) : MobileOf h ext number := by
  obtain ⟨snap, user, hmem, huser⟩ := hm
  exact ⟨snap, user, hf _ hmem, huser⟩

/-- Effects that are no leg, no ringing and no voicemail. -/
def Effect.Plain (e : Effect) : Prop :=
  match e.kind with
  | .leg | .ring | .mail => False
  | _ => True

theorem Effect.Plain.follows {e : Effect} (he : e.Plain) (h : History) :
    FollowsUser cfg start h e := by
  cases e <;> trivial

theorem Performs.follows {α : Type} {p : CallProg α} (hp : Performs Effect.Plain p) :
    Keeps (FollowsUser cfg start) fs p := hp.keeps fun h _ _ he => he.follows h

theorem Uses.plain {α : Type} {p : CallProg α} (hp : Uses EffectKind.Speaking p) :
    Performs Effect.Plain p := by
  refine hp.mono fun e he => ?_
  unfold Effect.Plain
  cases hk : e.kind <;> rw [hk] at he <;> trivial

/-- One plain effect, and what follows. -/
theorem follows_ask {β : Type} {e : Effect} {f : e.Answer → CallProg β} (he : e.Plain)
    (hf : ∀ x, Keeps (FollowsUser cfg start) fs (f x)) :
    Keeps (FollowsUser cfg start) fs (ask e >>= f) :=
  keeps_bind (Performs.follows (performs_ask he)) hf

theorem follows_directory {β : Type} {f : Directory → CallProg β}
    (hf : ∀ snap : Snapshot,
      Keeps (FollowsUser cfg start) (Effect.event .snapshot snap :: fs) (f snap.dir)) :
    Keeps (FollowsUser cfg start) fs (directory >>= f) := keeps_directory (fun _ _ => trivial) hf

/-- The mobile of the user, or of one it forwards to. -/
theorem routeCall_follows {ext number : String} (hext : ext = start ∨ ForwardsTo fs start ext)
    (hm : MobileOf fs ext number) (callerId : Option String) :
    Keeps (FollowsUser cfg start) fs (routeCall cfg req number callerId) := by
  refine ((routeCall_dialsOnly number callerId).and (routeCall_bridging number callerId)).keeps ?_
  intro h e hf he
  obtain ⟨hdials, hkind⟩ := he
  cases e with
  | createUAC invite =>
    obtain ⟨-, localSdp, callerId', rfl⟩ := hdials
    exact ⟨ext, number, localSdp, callerId', hext.imp_right (ForwardsTo.mono hf), hm.mono hf, rfl⟩
  | createB2BUA uri timeoutMs passFailure => exact hkind.elim
  | addVoicemail vm => exact hkind.elim
  | _ => trivial

theorem endWith_plain (uas uac : Leg) (acts : List DestroyAct) :
    Performs Effect.Plain (endWith uas uac acts) :=
  performs_then trivial fun _ => performs_ask trivial

theorem sendUnlessFinal_plain (status : Nat) (reason : Option String)
    (headers : List (String × String)) :
    Performs Effect.Plain (sendUnlessFinal status reason headers) :=
  (sendUnlessFinal_speaking _ _ _).plain

theorem forwardCall_follows {target callId callingNumber : String}
    (ht : ForwardsTo fs start target) :
    Keeps (FollowsUser cfg start) fs (forwardCall cfg req target callId callingNumber) := by
  have hno (gs : History) : Keeps (FollowsUser cfg start) gs
      (forwardCall.notRegistered callId callingNumber) :=
    Performs.follows (performs_then trivial fun _ => performs_then trivial fun _ =>
      sendUnlessFinal_plain _ _ _)
  refine follows_directory fun snap => ?_
  have ht' : ForwardsTo (Effect.event .snapshot snap :: fs) start target :=
    ht.mono fun _ he => List.mem_cons_of_mem _ he
  split
  · split
    · rename_i user huser
      refine keeps_ite (fun hcond => ?_) fun _ => hno _
      have hm : MobileOf (Effect.event .snapshot snap :: fs) target (user.mobile.getD "") :=
        ⟨snap, user, List.mem_cons_self, huser, truthy_eq hcond.1⟩
      exact keeps_bind (routeCall_follows (.inr ht') hm none) fun ok =>
        Performs.follows (performs_ask trivial)
    · exact hno _
  · rename_i contact hreg
    refine follows_ask trivial fun _ => keeps_ask (fun h hf _ => ?_) fun call => ?_
    · exact ⟨target, contact, snap, ht'.mono hf, hf _ List.mem_cons_self, hreg, rfl⟩
    · cases call with
      | error _ =>
        exact Performs.follows (performs_then trivial fun _ => performs_then trivial fun _ =>
          sendUnlessFinal_plain _ _ _)
      | ok legs =>
        exact Performs.follows (performs_then trivial fun _ => performs_then trivial fun _ =>
          performs_bind (endWith_plain _ _ _) fun _ => performs_ask trivial)

/-! ## Voicemail -/

/-- Voicemail goes into this mailbox, and no leg is originated and no device rung. -/
def Effect.Into (mailbox : String) : Effect → Prop
  | .addVoicemail vm => vm.mailbox = mailbox
  | e => match e.kind with
    | .leg | .ring => False
    | _ => True

theorem Effect.Plain.into {e : Effect} (he : e.Plain) (mailbox : String) : e.Into mailbox := by
  cases e <;> trivial

theorem Uses.into {α : Type} {mailbox : String} {p : CallProg α} (hp : Uses EffectKind.Speaking p) :
    Performs (Effect.Into mailbox) p := hp.plain.mono fun _ he => he.into mailbox

theorem captureVoicemail_into (endpoint : Leg) (mailbox caller name : String)
    (greeting : Option String) (maxSeconds : Option Nat) :
    Performs (Effect.Into mailbox)
      (captureVoicemail cfg endpoint mailbox caller name greeting maxSeconds) := by
  have hplay {α : Type} {p : CallProg α} (hp : Uses EffectKind.Playing p) :
      Performs (Effect.Into mailbox) p := Uses.into (hp.weaken fun _ h => h.speaking)
  refine performs_ite (fun _ => performs_pure _) fun _ => ?_
  refine performs_then (e := .randomUUID) trivial fun id => ?_
  refine performs_then (e := .dateDir) trivial fun day => ?_
  refine performs_then (e := .nowMs) trivial fun fileTs => ?_
  refine performs_then (e := .nowMs) trivial fun startedAt => ?_
  refine performs_bind (performs_tryCatch (hplay (setVoice_playing _)) fun _ => performs_pure _)
    fun _ => ?_
  refine performs_bind (hplay (playSafe_playing _ _)) fun _ => ?_
  refine performs_bind (hplay (playSafe_playing _ _)) fun _ => performs_then trivial fun _ => ?_
  refine performs_bind (performs_ofExcept _) fun _ => performs_then trivial fun _ => ?_
  refine performs_bind (performs_ofExcept _) fun recordSeconds => ?_
  refine performs_then (e := .nowMs) trivial fun now => ?_
  exact performs_then rfl fun _ => performs_then trivial fun _ => performs_pure _

theorem recordVoicemail_into (mailbox caller name : String) :
    Performs (Effect.Into mailbox) (recordVoicemail cfg mailbox caller name) := by
  have hno : Performs (Effect.Into mailbox) (do
      sendUnlessFinal 480 (some "Temporarily Unavailable")
      pure false) :=
    performs_bind (sendUnlessFinal_speaking _ _ _).into fun _ => performs_pure _
  refine performs_ite (fun _ => performs_pure _) fun _ => performs_then trivial fun up => ?_
  refine performs_ite (fun _ => hno) fun _ => performs_then trivial fun answer => ?_
  cases answer with
  | error _ => exact hno
  | ok legs =>
    refine performs_bind (performs_tryCatch (captureVoicemail_into _ _ _ _ _ _) fun _ => hno)
      fun _ => ?_
    exact performs_bind ((destroyLegs_playing _ _).weaken fun _ h => h.speaking).into fun _ =>
      performs_pure _

theorem toVoicemail_into (mailbox callId callingNumber : String) (unsaved : CallStatus)
    (reason : String) :
    Performs (Effect.Into mailbox)
      (toVoicemail cfg req mailbox callId callingNumber unsaved reason) := by
  refine performs_bind (performs_directory trivial) fun dir => ?_
  refine performs_bind (recordVoicemail_into _ _ _) fun saved => ?_
  exact performs_then trivial fun _ => performs_ask trivial

theorem Effect.Into.follows {e : Effect} (he : e.Into start) (h : History) :
    FollowsUser cfg start h e := by
  cases e <;> trivial

/-! ## The fallback chain -/

theorem routeUnreachable_follows {callId callingNumber : String} (reason : UnreachableReason) :
    Keeps (FollowsUser cfg start) fs
      (routeUnreachable cfg req start callId callingNumber reason) := by
  refine follows_directory fun snap => keeps_ite (fun hcond => ?_) fun _ => ?_
  · obtain ⟨user, huser, hmobile⟩ := Option.bind_eq_some_iff.mp (truthy_eq hcond.1)
    have hm : MobileOf (Effect.event .snapshot snap :: fs) start
        (((snap.dir.getUser start).bind SipUser.mobile).getD "") :=
      ⟨snap, user, List.mem_cons_self, huser, hmobile⟩
    refine keeps_bind (routeCall_follows (.inl rfl) hm none) fun ok => ?_
    exact Performs.follows (performs_then trivial fun _ => performs_ite (fun _ => performs_pure _)
      fun _ => performs_ask trivial)
  · refine keeps_ite (fun htarget => ?_) fun _ => ?_
    · refine forwardCall_follows ⟨snap, List.mem_cons_self, ?_⟩
      rw [← truthy_eq htarget]
      exact List.mem_cons_of_mem _ (List.mem_cons_of_mem _ List.mem_cons_self)
    · refine keeps_ite (fun _ => (toVoicemail_into _ _ _ _ _).keeps fun h _ _ he => he.follows h)
        fun _ => Performs.follows (performs_ite (fun _ => ?_) fun _ => ?_)
      · exact performs_bind (playUnavailable_speaking _).plain fun _ =>
          performs_then trivial fun _ => performs_ask trivial
      · exact performs_then trivial fun _ => performs_then trivial fun _ =>
          sendUnlessFinal_plain _ _ _

theorem routeDoNotDisturb_follows {callId callingNumber : String} :
    Keeps (FollowsUser cfg start) fs (routeDoNotDisturb cfg req start callId callingNumber) := by
  refine keeps_ite (fun _ => (toVoicemail_into _ _ _ _ _).keeps fun h _ _ he => he.follows h)
    fun _ => Performs.follows ?_
  exact performs_then trivial fun _ => performs_then trivial fun _ => sendUnlessFinal_plain _ _ _

theorem extensionFailed_follows {callId callingNumber : String} (err : SipError) :
    Keeps (FollowsUser cfg start) fs
      (extensionFailed cfg req start callId callingNumber err) := by
  refine follows_directory fun snap => keeps_ite (fun _ => ?_) fun _ => keeps_ite (fun _ => ?_)
    fun _ => keeps_ite (fun _ => Performs.follows (performs_ask trivial)) fun _ =>
      keeps_ite (fun _ => routeUnreachable_follows _) fun _ => ?_
  · refine follows_ask trivial fun _ => keeps_ite (fun hbusy => ?_) fun _ =>
      follows_ask trivial fun _ => routeUnreachable_follows _
    refine forwardCall_follows ⟨snap, List.mem_cons_self, ?_⟩
    rw [← truthy_eq hbusy]
    exact List.mem_cons_self
  · refine keeps_ite (fun hnoAnswer => ?_) fun _ =>
      follows_ask trivial fun _ => routeUnreachable_follows _
    refine forwardCall_follows ⟨snap, List.mem_cons_self, ?_⟩
    rw [← truthy_eq hnoAnswer]
    exact List.mem_cons_of_mem _ List.mem_cons_self
  · exact Performs.follows (performs_then trivial fun _ => performs_then trivial fun _ =>
      performs_then trivial fun _ => sendUnlessFinal_plain _ _ _)

/-- A call to a device falls back by the settings of the extension of the Request-URI. -/
theorem routeToExtension_follows (contact callId : String) :
    Keeps (FollowsUser cfg req.calledExt) fs (routeToExtension cfg req contact callId) := by
  refine follows_directory fun snap => keeps_ite (fun _ => ?_) fun _ => ?_
  · exact Performs.follows (performs_then trivial fun _ => performs_then trivial fun _ =>
      performs_ask trivial)
  · refine follows_ask trivial fun _ => keeps_ask (fun _ _ => nofun) fun call => ?_
    cases call with
    | error err => exact extensionFailed_follows err
    | ok legs =>
      exact Performs.follows (performs_then trivial fun _ => performs_then trivial fun _ =>
        performs_bind (endWith_plain _ _ _) fun _ => performs_ask trivial)

end Fallback

end CallNet
