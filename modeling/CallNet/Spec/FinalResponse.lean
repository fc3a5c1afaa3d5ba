import CallNet.Spec.HandlerKinds
import CallNet.Spec.QueueResponses
import CallNet.Spec.TollFraud

/-!
# One final response per INVITE

A ghost count of the final responses the caller has got runs along the pipeline.  Every
handler that takes a call leaves the count at one, with one exception: when the device of a
called extension ends the INVITE with 487 Request Terminated, `routeToExtension` takes it
that the caller has cancelled, and nobody answers the caller.
-/

namespace CallNet

/-! ## Counting responses -/

/-- The final responses an effect answered so has sent.  What the stack sends when
    `connectCaller`, or a B2BUA call that relays failures, goes wrong is left open. -/
def Effect.Replies : (e : Effect) → e.Answer → Nat → Prop
  | .send status _ _, _, n => n = if 200 ≤ status then 1 else 0
  | .createUAS _, .ok _, n => n = 1
  | .createUAS _, .error _, n => n = 0
  | .connectCaller, .ok _, n => n = 1
  | .connectCaller, .error _, n => n ≤ 1
  | .createB2BUA _ _ _, .ok _, n => n = 1
  | .createB2BUA _ _ passFailure, .error _, n => n ≤ passFailure.toNat
  | .enqueueCaller _ _ opts, outcome, n =>
    ∃ es s, Machine.run (EnqueueCaller.step opts) EnqueueCaller.init es = some s ∧
      s.phase = .returned outcome ∧ n = EnqueueCaller.responses es s
  | _, _, n => n = 0

/-- `res.finalResponseSent` tells whether a final response was sent. -/
def Effect.Honest (finals : Nat) : (e : Effect) → e.Answer → Prop
  | .finalResponseSent, sent => sent = true ↔ 0 < finals
  | _, _ => True

/-- The device of the called extension ended the INVITE with 487. -/
def Effect.terminated : (e : Effect) → e.Answer → Bool
  | .createB2BUA _ _ false, .error err => err.status = some 487 ∧ !err.isTimeout
  | _, _ => false

/-- The caller's side of an INVITE: the final responses sent so far, and whether the called
    device ended the INVITE with 487. -/
structure CallerSide where
  finals : Nat
  terminated : Bool
deriving DecidableEq

/-- What an effect does to the caller's side. -/
def Replied (s : CallerSide) (e : Effect) (x : e.Answer) (s' : CallerSide) : Prop :=
  e.Honest s.finals x ∧
    ∃ n, e.Replies x n ∧ s' = ⟨s.finals + n, s.terminated || e.terminated x⟩

/-- `n` final responses were sent in this history. -/
def FinalResponses (t : History) (n : Nat) : Prop :=
  ∃ b, Prog.Path (S := effects) Replied ⟨0, false⟩ t ⟨n, b⟩

/-! ## Where the caller stands -/

namespace CallerSide

/-- Nothing was sent. -/
def Fresh (s : CallerSide) : Prop := s = ⟨0, false⟩

/-- One response was sent. -/
def Answered (s : CallerSide) : Prop := s = ⟨1, false⟩

/-- At most one response was sent. -/
def Open (s : CallerSide) : Prop := s.finals ≤ 1 ∧ s.terminated = false

/-- One response was sent, unless the called device ended the INVITE with 487. -/
def Settled (s : CallerSide) : Prop := s.finals = if s.terminated then 0 else 1

/-- Where a handler leaves the caller: untouched when it does not take the call. -/
def Verdict : Bool → CallerSide → Prop
  | true => Settled
  | false => Fresh

theorem Fresh.isOpen {s : CallerSide} (h : s.Fresh) : s.Open := by
  cases h
  exact ⟨Nat.zero_le 1, rfl⟩

theorem Answered.isOpen {s : CallerSide} (h : s.Answered) : s.Open := by
  cases h
  exact ⟨Nat.le_refl 1, rfl⟩

theorem Answered.settled {s : CallerSide} (h : s.Answered) : s.Settled := by
  cases h
  rfl

end CallerSide

open CallerSide

/-- Started where `Pre` holds, the program returns where `Post` holds, or fails where `Fail`
    holds. -/
abbrev Replying (Fail Pre : CallerSide → Prop) {α : Type} (p : CallProg α)
    (Post : α → CallerSide → Prop) : Prop := Prog.Spec (S := effects) Replied Fail Pre p Post

/-! ## Rules -/

/-- The effect sends no response. -/
def Effect.Mute : Effect → Prop
  | .send _ _ _ | .createUAS _ | .connectCaller | .createB2BUA _ _ _ | .enqueueCaller _ _ _ => False
  | _ => True

theorem Effect.Mute.same {e : Effect} (he : e.Mute) {s s' : CallerSide} {x : e.Answer}
    (h : Replied s e x s') : s' = s := by
  obtain ⟨_, n, hn, rfl⟩ := h
  have hzero : n = 0 := by
    cases e <;> first | exact hn | exact he.elim
  have hterm : e.terminated x = false := by
    cases e <;> first | rfl | exact he.elim
  rw [hzero, hterm, Bool.or_false]
  rfl

theorem Uses.mute {α : Type} {p : CallProg α} (hp : Uses EffectKind.Inner p) :
    Performs Effect.Mute p := by
  refine hp.mono fun e he => ?_
  cases e <;> trivial

section Rules

variable {α β : Type} {Pre Mid Fail : CallerSide → Prop} {Post : β → CallerSide → Prop}

/-- What sends no response changes nothing. -/
theorem Performs.replying {p : CallProg α} (hp : Performs Effect.Mute p)
    (hfail : ∀ s, Pre s → Fail s) :
    Replying Fail Pre p fun _ => Pre :=
  hp.only.spec (fun _ _ _ _ hs he hx => he.same hx ▸ hs) hfail

theorem replying_pure {b : β} (h : ∀ s, Pre s → Post b s) : Replying Fail Pre (pure b) Post :=
  Prog.spec_pure h

theorem replying_then {e : Effect} {f : e.Answer → CallProg β} (he : e.Mute)
    (hf : ∀ x, Replying Fail Pre (f x) Post) :
    Replying Fail Pre (ask e >>= f) Post := by
  have hask : Replying Fail Pre (ask e) fun _ => Pre :=
    Prog.spec_perform fun _ _ _ hs hx => he.same hx ▸ hs
  exact hask.bind hf

theorem replying_bind {p : CallProg α} {f : α → CallProg β} {Post' : α → CallerSide → Prop}
    (hp : Replying Fail Pre p Post')
    (hf : ∀ a, Replying Fail (Post' a) (f a) Post) :
    Replying Fail Pre (p >>= f) Post := hp.bind hf

theorem replying_mute {p : CallProg α} {f : α → CallProg β} (hp : Performs Effect.Mute p)
    (hfail : ∀ s, Pre s → Fail s)
    (hf : ∀ a, Replying Fail Pre (f a) Post) :
    Replying Fail Pre (p >>= f) Post :=
  (hp.replying hfail).bind hf

theorem replying_directory {f : Directory → CallProg β}
    (hf : ∀ dir, Replying Fail Pre (f dir) Post) :
    Replying Fail Pre (directory >>= f) Post := by
  have hdir : Replying Fail Pre directory fun _ => Pre :=
    replying_then (e := .snapshot) trivial fun _ => replying_pure fun _ hs => hs
  exact hdir.bind hf

/-- A response to a caller who has had none. -/
theorem send_replying (status : Nat) (reason : Option String) (headers : List (String × String))
    (hstatus : 200 ≤ status) :
    Replying Fail Fresh (send status reason headers) fun _ => Answered := by
  refine Prog.spec_perform fun s x s' hs hx => ?_
  obtain ⟨_, n, hn, rfl⟩ := hx
  have hone : n = 1 := by
    rw [show n = if 200 ≤ status then 1 else 0 from hn, if_pos hstatus]
  cases hs
  rw [hone]
  rfl

/-- A guarded response answers every caller. -/
theorem sendUnlessFinal_replying (status : Nat) (reason : Option String)
    (headers : List (String × String)) (hstatus : 200 ≤ status) :
    Replying Fail Open (sendUnlessFinal status reason headers)
      fun _ => Answered := by
  refine Prog.Spec.bind (M := fun sent => if sent then Answered else Fresh)
    (Prog.spec_perform fun s sent s' hs hx => ?_) fun sent => ?_
  · have hsame : s' = s := Effect.Mute.same (e := .finalResponseSent) trivial hx
    have hhonest : sent = true ↔ 0 < s.finals := hx.1
    subst hsame
    obtain ⟨n, b⟩ := s'
    obtain ⟨hle, hb⟩ := hs
    dsimp only at hle hb hhonest
    subst hb
    split
    · have hone : n = 1 := by
        have := hhonest.mp ‹_›
        omega
      rw [hone]
      rfl
    · have hzero : n = 0 := by
        have := mt hhonest.mpr ‹_›
        omega
      rw [hzero]
      rfl
  · cases sent with
    | true => exact replying_pure fun _ hs => hs
    | false => exact send_replying status reason headers hstatus

/-- `connectCaller` answers the caller when it succeeds. -/
theorem connectCaller_replying :
    Replying Fail Fresh (ask .connectCaller) fun
      | .ok _ => Answered
      | .error _ => Open := by
  refine Prog.spec_perform fun s x s' hs hx => ?_
  obtain ⟨_, n, hn, rfl⟩ := hx
  cases hs
  cases x with
  | ok legs =>
    have hone : n = 1 := hn
    rw [hone]
    rfl
  | error err =>
    have hle : n ≤ 1 := hn
    refine ⟨?_, rfl⟩
    show 0 + n ≤ 1
    omega

end Rules

/-! ## The media layer -/

section Media

variable {cfg : Config} {rt : Runtime} {req : Request} {Fail : CallerSide → Prop}

theorem destroyLegs_mute (endpoint dialog : Leg) :
    Performs Effect.Mute (destroyLegs endpoint dialog) := (destroyLegs_inner _ _).mute

/-- `send 480` of the media layer, and what the function then returns. -/
theorem unavailable_replying {b : Bool} (status : Nat) (reason : Option String)
    (hstatus : 200 ≤ status) :
    Replying Fail Open (do sendUnlessFinal status reason; pure b) fun _ => Answered :=
  replying_bind (sendUnlessFinal_replying _ _ _ hstatus) fun _ => replying_pure fun _ hs => hs

theorem recordVoicemail_replying (hvm : cfg.voicemailEnabled = true)
    (mailbox caller name : String) :
    Replying Open Fresh (recordVoicemail cfg mailbox caller name) fun _ => Answered := by
  have hno : Replying Open Open (do
      sendUnlessFinal 480 (some "Temporarily Unavailable")
      pure false) fun _ => Answered := unavailable_replying _ _ (by decide)
  refine Prog.spec_ite (fun hoff => ?_) fun _ => replying_then (e := .ensureConnected) trivial fun up => ?_
  · rw [hvm] at hoff
    cases hoff
  · refine Prog.spec_ite (fun _ => hno.conseq (fun _ hs => hs.isOpen) fun _ _ hs => hs) fun _ => ?_
    refine replying_bind connectCaller_replying fun connected => ?_
    cases connected with
    | error err => exact hno
    | ok legs =>
      -- the caller is answered: nothing is sent any more
      have hcapture : Replying Open Answered ((captureVoicemail cfg legs.1 mailbox caller name).tryCatch
          fun _ => do
            sendUnlessFinal 480 (some "Temporarily Unavailable")
            pure false) fun _ => Answered := by
        refine Prog.Spec.tryCatch (F := Open) ?_ fun _ => hno
        exact (captureVoicemail_inner _ _ _ _ _ _).mute.replying fun _ hs => hs.isOpen
      refine replying_bind hcapture fun saved => ?_
      exact replying_mute (destroyLegs_mute _ _) (fun _ hs => hs.isOpen) fun _ =>
        replying_pure fun _ hs => hs

theorem playUnavailable_replying (message : Option String) :
    Replying Open Fresh (playUnavailable cfg message) fun _ => Answered := by
  have hno : Replying Open Open (sendUnlessFinal 480 (some "Temporarily Unavailable"))
      fun _ => Answered := sendUnlessFinal_replying _ _ _ (by decide)
  refine replying_then (e := .ensureConnected) trivial fun up => ?_
  refine Prog.spec_ite (fun _ => hno.conseq (fun _ hs => hs.isOpen) fun _ _ hs => hs) fun _ => ?_
  refine replying_bind connectCaller_replying fun caller => ?_
  cases caller with
  | error err => exact hno
  | ok legs =>
    have hopen : ∀ s, Answered s → Open s := fun _ hs => hs.isOpen
    refine replying_mute (prepareVoice_playing _).inner.mute hopen fun _ => ?_
    refine replying_mute (playSafe_inner _ _).mute hopen fun _ => ?_
    exact (destroyLegs_mute _ _).replying hopen

theorem meetingFailed_replying (aLeg : Leg) (legs : List Leg) :
    Replying Open Answered (meetingFailed aLeg legs) fun _ => Answered := by
  have hopen : ∀ s, Answered s → Open s := fun _ hs => hs.isOpen
  refine replying_mute (playSafe_inner _ _).mute hopen fun _ => ?_
  refine replying_mute (destroyAll_inner _).mute hopen fun _ => ?_
  exact (unavailable_replying _ _ (by decide)).conseq hopen fun _ _ hs => hs

theorem createOutboundLeg_mute (number localSdp : String) (callerId : Option String) :
    Performs Effect.Mute (createOutboundLeg cfg number localSdp callerId) := by
  refine performs_ite (fun _ => performs_pure _) fun _ => performs_then trivial fun answer => ?_
  exact performs_bind (performs_ofExcept _) fun _ => performs_pure _

theorem joinMeetingLeg_replying (aLeg dialog bLeg : Leg) (number conferenceId : String) :
    Replying Open Answered (joinMeetingLeg cfg aLeg dialog bLeg number conferenceId)
      fun _ => Answered := by
  have hopen : ∀ s, Answered s → Open s := fun _ hs => hs.isOpen
  have hdial : Performs Effect.Mute
      (((createOutboundLeg cfg number (bLeg.localSdp.getD "")).bind fun uac =>
        pure (some uac)).tryCatch fun _ => pure none) :=
    performs_tryCatch (performs_bind (createOutboundLeg_mute _ _ _) fun _ => performs_pure _)
      fun _ => performs_pure _
  refine replying_mute hdial hopen fun dialed => ?_
  cases dialed with
  | none => exact meetingFailed_replying _ _
  | some uac? =>
    cases uac? with
    | none =>
      refine replying_mute (playSafe_inner _ _).mute hopen fun _ => ?_
      exact replying_mute (destroyAll_inner _).mute hopen fun _ => replying_pure fun _ hs => hs
    | some uac =>
      have hbridge : Replying Answered Answered
          (bridgeMeeting cfg aLeg dialog bLeg uac conferenceId) fun _ => Answered :=
        (bridgeMeeting_inner _ _ _ _ _).mute.replying fun _ hs => hs
      exact hbridge.tryCatch fun _ => meetingFailed_replying _ _

theorem joinTeamsMeeting_replying (number conferenceId : String) :
    Replying Open Fresh (joinTeamsMeeting cfg number conferenceId) fun _ => Answered := by
  have hno : ∀ b : Bool, Replying Open Open (do
      sendUnlessFinal 480 (some "Temporarily Unavailable")
      pure b) fun _ => Answered := fun b => unavailable_replying _ _ (by decide)
  have hopen : ∀ s, Answered s → Open s := fun _ hs => hs.isOpen
  refine replying_then (e := .ensureConnected) trivial fun up => ?_
  refine Prog.spec_ite (fun _ => (hno _).conseq (fun _ hs => hs.isOpen) fun _ _ hs => hs) fun _ => ?_
  refine replying_bind connectCaller_replying fun connected => ?_
  cases connected with
  | error err => exact hno _
  | ok legs =>
    refine replying_mute (prepareVoice_playing _).inner.mute hopen fun _ => ?_
    refine replying_mute (playSafe_inner _ _).mute hopen fun _ => ?_
    refine replying_then (e := .createEndpoint) trivial fun bLeg? => ?_
    cases bLeg? with
    | error err => exact meetingFailed_replying _ _
    | ok bLeg => exact joinMeetingLeg_replying _ _ _ _ _

theorem joinConference_replying (roomName roomId caller name : String) :
    Replying Open Fresh (joinConference cfg roomName roomId caller name) fun _ => Answered := by
  have hno : ∀ legs, Replying Open Open (do
      ask (.markLeft roomId caller)
      destroyAll legs
      sendUnlessFinal 480 (some "Temporarily Unavailable")
      pure false) fun _ => Answered := fun legs => by
    refine replying_then trivial fun _ => ?_
    refine replying_mute (destroyAll_inner _).mute (fun _ hs => hs) fun _ => ?_
    exact unavailable_replying _ _ (by decide)
  have hopen : ∀ s, Answered s → Open s := fun _ hs => hs.isOpen
  refine replying_then (e := .ensureConnected) trivial fun up => Prog.spec_ite (fun _ => ?_) fun _ => ?_
  · exact (unavailable_replying _ _ (by decide)).conseq (fun _ hs => hs.isOpen) fun _ _ hs => hs
  · refine replying_bind connectCaller_replying fun connected => ?_
    cases connected with
    | error err => exact hno []
    | ok legs =>
      refine replying_mute (prepareVoice_playing _).inner.mute hopen fun _ => ?_
      refine replying_mute (playSafe_inner _ _).mute hopen fun _ => ?_
      refine replying_then trivial fun _ => replying_then trivial fun _ => ?_
      refine replying_then (e := .join _ _ _) trivial fun joined => ?_
      cases joined with
      | ok _ => exact replying_then trivial fun _ => replying_pure fun _ hs => hs
      | error err => exact (hno _).conseq hopen fun _ _ hs => hs

theorem serveIvr_mute (endpoint dialog : Leg) (callId callerNumber calledNumber : String) :
    Performs Effect.Mute (serveIvr cfg rt endpoint dialog callId callerNumber calledNumber) := by
  have hmenu : Performs Effect.Mute (builtInMenu cfg endpoint callId) :=
    (builtInMenu_inner _ _).mute
  refine performs_bind (prepareVoice_playing _).inner.mute fun _ => ?_
  refine performs_then (e := .getIvrFlow _) trivial fun flow? => ?_
  cases flow? with
  | none => exact hmenu
  | some flow =>
    exact performs_ite (fun _ => (runFlowForCall_inner _ _ _ _ _ _).mute) fun _ => hmenu

theorem answerIvr_replying (callId callerNumber calledNumber : String) :
    Replying Open Fresh (answerIvr cfg rt callId callerNumber calledNumber) fun _ => Answered := by
  have hno : Replying Open Open (do
      setStatus callId .failed
      sendUnlessFinal 503 (some "Service Unavailable")) fun _ => Answered :=
    replying_then trivial fun _ => sendUnlessFinal_replying _ _ _ (by decide)
  have hopen : ∀ s, Answered s → Open s := fun _ hs => hs.isOpen
  refine replying_then (e := .ensureConnected) trivial fun up => Prog.spec_ite (fun _ => ?_) fun _ => ?_
  · refine replying_bind (send_replying _ _ _ (by decide)) fun _ => ?_
    exact replying_then trivial fun _ => replying_pure fun _ hs => hs
  · refine replying_bind connectCaller_replying fun connected => ?_
    cases connected with
    | error err => exact hno
    | ok legs =>
      refine Prog.Spec.tryCatch (F := Open) ((serveIvr_mute _ _ _ _ _).replying hopen) fun _ => ?_
      refine replying_bind hno fun _ => ?_
      exact (destroyLegs_mute _ _).replying hopen

theorem handleIncomingCall_replying (existing : Option (String × String)) :
    Replying Open Fresh (handleIncomingCall cfg rt req existing) fun _ => Answered := by
  cases existing with
  | some e => exact answerIvr_replying _ _ _
  | none =>
    have hlog : Performs Effect.Mute (logIvrCall req.caller (if ¬ ("" : String) = "" then "" else
        if req.calledNumber ≠ "" then req.calledNumber else "unknown")) := by
      refine performs_then (e := .randomUUID) trivial fun _ => ?_
      refine performs_then (e := .timestamp) trivial fun _ => ?_
      refine performs_bind (performs_directory trivial) fun _ => ?_
      exact performs_then trivial fun _ => performs_pure _
    exact replying_mute hlog (fun _ hs => hs.isOpen) fun _ => answerIvr_replying _ _ _

end Media

/-! ## Legs and extensions -/

section Legs

variable {cfg : Config} {rt : Runtime} {req : Request} {Fail : CallerSide → Prop}

/-- The caller's dialog answers the caller, when it can be created. -/
theorem connectOutboundLeg_replying (uac : Leg) :
    Replying Fresh Fresh (connectOutboundLeg uac) fun _ => Answered := by
  refine Prog.Spec.bind (M := fun
      | .ok _ => Answered
      | .error _ => Fresh) (Prog.spec_perform fun s x s' hs hx => ?_) fun answer => ?_
  · obtain ⟨_, n, hn, rfl⟩ := hx
    cases hs
    cases x with
    | ok uas =>
      have hone : n = 1 := hn
      rw [hone]
      rfl
    | error err =>
      have hzero : n = 0 := hn
      rw [hzero]
      rfl
  · cases answer with
    | error err => exact Prog.spec_throw fun _ hs => hs
    | ok uas =>
      refine replying_then trivial fun _ => replying_then trivial fun _ => ?_
      exact replying_pure fun _ hs => hs

theorem createOutboundLeg_replying (number localSdp : String) (callerId : Option String) :
    Replying Fresh Fresh (createOutboundLeg cfg number localSdp callerId) fun _ => Fresh :=
  (createOutboundLeg_mute _ _ _).replying fun _ hs => hs

/-- A trunk call answers the caller, or refuses the call. -/
theorem routeCall_replying (number : String) (callerId : Option String) :
    Replying Fail Fresh (routeCall cfg req number callerId) fun _ => Answered := by
  have hno : ∀ {E : CallerSide → Prop}, Replying E Fresh (do send 503; pure false)
      fun _ => Answered := fun {E} =>
    replying_bind (send_replying _ _ _ (by decide)) fun _ => replying_pure fun _ hs => hs
  refine Prog.spec_ite (fun _ => hno) fun _ => ?_
  refine Prog.Spec.tryCatch (F := Fresh) ?_ fun _ => hno
  refine (createOutboundLeg_replying _ _ _).bind fun uac? => ?_
  cases uac? with
  | none => exact hno
  | some uac => exact connectOutboundLeg_replying uac

theorem endWith_mute (uas uac : Leg) (acts : List DestroyAct) :
    Performs Effect.Mute (endWith uas uac acts) :=
  performs_then trivial fun _ => performs_ask trivial

/-- A B2BUA call that relays failures answers the caller, or leaves the caller open. -/
theorem relayed_replying (uri : String) (timeoutMs : Option Nat) :
    Replying Fail Fresh (ask (.createB2BUA uri timeoutMs true)) fun
      | .ok _ => Answered
      | .error _ => Open := by
  refine Prog.spec_perform fun s x s' hs hx => ?_
  obtain ⟨_, n, hn, rfl⟩ := hx
  cases hs
  cases x with
  | ok legs =>
    have hone : n = 1 := hn
    rw [hone]
    rfl
  | error err =>
    have hle : n ≤ 1 := hn
    refine ⟨?_, rfl⟩
    show 0 + n ≤ 1
    omega

theorem forwardCall_replying (target callId callingNumber : String) :
    Replying Open Fresh (forwardCall cfg req target callId callingNumber) fun _ => Answered := by
  have hno : Replying Open Fresh (forwardCall.notRegistered callId callingNumber)
      fun _ => Answered := by
    refine replying_then trivial fun _ => replying_then trivial fun _ => ?_
    exact (sendUnlessFinal_replying _ _ _ (by decide)).conseq (fun _ hs => hs.isOpen)
      fun _ _ hs => hs
  refine replying_directory fun dir => ?_
  split
  · split
    · refine Prog.spec_ite (fun _ => ?_) fun _ => hno
      refine replying_bind (routeCall_replying _ _) fun ok => ?_
      exact replying_then trivial fun _ => replying_pure fun _ hs => hs
    · exact hno
  · refine replying_then trivial fun _ => replying_bind (relayed_replying _ _) fun call => ?_
    cases call with
    | ok legs =>
      refine replying_then trivial fun _ => replying_then trivial fun _ => ?_
      refine replying_mute (endWith_mute _ _ _) (fun _ hs => hs.isOpen) fun _ => ?_
      exact replying_then trivial fun _ => replying_pure fun _ hs => hs
    | error err =>
      refine replying_then trivial fun _ => replying_then trivial fun _ => ?_
      exact sendUnlessFinal_replying _ _ _ (by decide)

theorem toVoicemail_replying (hvm : cfg.voicemailEnabled = true)
    (calledExt callId callingNumber : String) (unsaved : CallStatus) (reason : String) :
    Replying Open Fresh (toVoicemail cfg req calledExt callId callingNumber unsaved reason)
      fun _ => Answered := by
  refine replying_directory fun dir => ?_
  refine replying_bind (recordVoicemail_replying hvm _ _ _) fun saved => ?_
  exact replying_then trivial fun _ => replying_then trivial fun _ => replying_pure fun _ hs => hs

theorem routeUnreachable_replying (calledExt callId callingNumber : String)
    (reason : UnreachableReason) :
    Replying Open Fresh (routeUnreachable cfg req calledExt callId callingNumber reason)
      fun _ => Answered := by
  refine replying_directory fun dir => Prog.spec_ite (fun _ => ?_) fun _ => ?_
  · refine replying_bind (routeCall_replying _ _) fun ok => replying_then trivial fun _ => ?_
    refine Prog.spec_ite (fun _ => replying_pure fun _ hs => hs) fun _ => ?_
    exact replying_then trivial fun _ => replying_pure fun _ hs => hs
  · refine Prog.spec_ite (fun _ => forwardCall_replying _ _ _) fun _ => ?_
    refine Prog.spec_ite (fun hvm => toVoicemail_replying hvm.2.1 _ _ _ _ _) fun _ => ?_
    refine Prog.spec_ite (fun _ => ?_) fun _ => ?_
    · refine replying_bind (playUnavailable_replying _) fun _ => replying_then trivial fun _ => ?_
      exact replying_then trivial fun _ => replying_pure fun _ hs => hs
    · refine replying_then trivial fun _ => replying_then trivial fun _ => ?_
      exact (sendUnlessFinal_replying _ _ _ (by decide)).conseq (fun _ hs => hs.isOpen)
        fun _ _ hs => hs

theorem routeDoNotDisturb_replying (calledExt callId callingNumber : String) :
    Replying Open Fresh (routeDoNotDisturb cfg req calledExt callId callingNumber)
      fun _ => Answered := by
  refine Prog.spec_ite (fun hvm => toVoicemail_replying hvm.1 _ _ _ _ _) fun _ => ?_
  refine replying_then trivial fun _ => replying_then trivial fun _ => ?_
  exact (sendUnlessFinal_replying _ _ _ (by decide)).conseq (fun _ hs => hs.isOpen) fun _ _ hs => hs

/-- The call of an extension failed: the caller is answered on every branch but the one
    that takes 487 for the caller's cancel. -/
theorem extensionFailed_replying (calledExt callId callingNumber : String) (err : SipError) :
    Replying Open (fun s => s = ⟨0, decide (err.status = some 487 ∧ !err.isTimeout)⟩)
      (extensionFailed cfg req calledExt callId callingNumber err) fun _ => Settled := by
  have hterm : ∀ h : ¬(err.status = some 487 ∧ !err.isTimeout),
      ∀ s, s = ⟨0, decide (err.status = some 487 ∧ !err.isTimeout)⟩ → Fresh s := by
    intro h s hs
    rw [hs, decide_eq_false h]
    rfl
  -- on every branch but one the failure is not of that kind
  have hleave : ∀ {p : CallProg Unit}, ¬(err.status = some 487 ∧ !err.isTimeout) →
      Replying Open Fresh p (fun _ => Answered) →
      Replying Open (fun s => s = ⟨0, decide (err.status = some 487 ∧ !err.isTimeout)⟩) p
        fun _ => Settled :=
    fun h hp => hp.conseq (hterm h) fun _ _ hs => hs.settled
  have hstatus : ∀ {n : Nat}, err.status.getD 0 = n → n ≠ 487 →
      ¬(err.status = some 487 ∧ !err.isTimeout) := by
    intro n hn hne h
    rw [h.1] at hn
    exact hne hn.symm
  refine replying_directory fun dir => Prog.spec_ite (fun hbusy => ?_) fun hbusy => ?_
  · refine hleave (hbusy.elim (fun h => hstatus h (by decide)) fun h => hstatus h (by decide)) ?_
    refine replying_then trivial fun _ => ?_
    refine Prog.spec_ite (fun _ => forwardCall_replying _ _ _) fun _ => ?_
    exact replying_then trivial fun _ => routeUnreachable_replying _ _ _ _
  · refine Prog.spec_ite (fun hlate => ?_) fun hlate => ?_
    · have hne : ¬(err.status = some 487 ∧ !err.isTimeout) := by
        rcases hlate with h | h
        · exact hstatus h (by decide)
        · rintro ⟨_, hnot⟩
          rw [h] at hnot
          cases hnot
      refine hleave hne ?_
      refine Prog.spec_ite (fun _ => forwardCall_replying _ _ _) fun _ => ?_
      exact replying_then trivial fun _ => routeUnreachable_replying _ _ _ _
    · refine Prog.spec_ite (fun hcancel => ?_) fun hcancel => ?_
      · -- nobody answers the caller
        refine replying_then trivial fun _ => replying_pure fun s hs => ?_
        have hyes : err.status = some 487 ∧ !err.isTimeout := by
          refine ⟨?_, ?_⟩
          · cases hs : err.status with
            | none =>
              rw [hs] at hcancel
              cases hcancel
            | some n =>
              rw [hs] at hcancel
              exact congrArg some hcancel
          · cases htime : err.isTimeout with
            | true => exact absurd (.inr htime) hlate
            | false => rfl
        rw [hs, decide_eq_true hyes]
        rfl
      · have hne : ¬(err.status = some 487 ∧ !err.isTimeout) := by
          rintro ⟨h, _⟩
          exact hcancel (by rw [h]; rfl)
        refine hleave hne (Prog.spec_ite (fun _ => routeUnreachable_replying _ _ _ _) fun _ => ?_)
        refine replying_then trivial fun _ => replying_then trivial fun _ => ?_
        refine replying_then trivial fun _ => ?_
        exact (sendUnlessFinal_replying _ _ _ (by decide)).conseq (fun _ hs => hs.isOpen)
          fun _ _ hs => hs

theorem routeToExtension_replying (contact callId : String) :
    Replying Open Fresh (routeToExtension cfg req contact callId) fun _ => Settled := by
  refine replying_directory fun dir => Prog.spec_ite (fun _ => ?_) fun _ => ?_
  · refine replying_then trivial fun _ => replying_then trivial fun _ => ?_
    exact (send_replying _ _ _ (by decide)).conseq (fun _ hs => hs) fun _ _ hs => hs.settled
  · refine replying_then trivial fun _ => ?_
    refine Prog.Spec.bind (M := fun
        | .ok _ => Answered
        | .error err => fun s => s = ⟨0, decide (err.status = some 487 ∧ !err.isTimeout)⟩)
      (Prog.spec_perform fun s x s' hs hx => ?_) fun call => ?_
    · obtain ⟨_, n, hn, rfl⟩ := hx
      cases hs
      cases x with
      | ok legs =>
        have hone : n = 1 := hn
        rw [hone]
        rfl
      | error err =>
        have hzero : n = 0 := Nat.le_zero.mp hn
        rw [hzero]
        rfl
    · cases call with
      | error err => exact extensionFailed_replying _ _ _ err
      | ok legs =>
        refine replying_then trivial fun _ => replying_then trivial fun _ => ?_
        refine replying_mute (endWith_mute _ _ _) (fun _ hs => hs.isOpen) fun _ => ?_
        exact replying_then trivial fun _ => replying_pure fun _ hs => hs.settled

end Legs

/-! ## Handlers -/

section Handlers

variable {cfg : Config} {rt : Runtime} {ctx : CallContext}

/-- The handler took the call and the caller was answered. -/
theorem taken : ∀ s, Answered s → Verdict true s := fun _ hs => hs.settled

/-- A program that settles the caller, and then the handler has taken the call. -/
theorem takes {p : CallProg Unit} (hp : Replying Open Fresh p fun _ => Settled) :
    Replying Open Fresh (do p; pure true) Verdict :=
  replying_bind hp fun _ => replying_pure fun _ hs => hs

/-- A refusal, and then the handler has taken the call. -/
theorem refuse_replying (status : Nat) (reason : Option String) (hstatus : 200 ≤ status) :
    Replying Open Fresh (do send status reason; pure true) Verdict :=
  replying_bind (send_replying _ _ _ hstatus) fun _ => replying_pure taken

/-- A trunk call whose outcome is recorded. -/
theorem recorded_replying {req : Request} (number : String) (callerId : Option String)
    (record : Bool → CallUpdate) :
    Replying Open Fresh (do
      let ok ← routeCall cfg req number callerId
      updateCall ctx.callId (record ok)
      pure true) Verdict :=
  replying_bind (routeCall_replying _ _) fun _ => replying_then trivial fun _ => replying_pure taken

theorem refuseUnregistered_replying (details : List (String × String)) (reason : Option String) :
    Replying Open Fresh (refuseUnregistered ctx details reason) Verdict := by
  refine replying_then trivial fun _ => replying_then trivial fun _ => ?_
  exact refuse_replying _ _ (by decide)

theorem refuseWidget_replying (claims : WidgetTokenClaims) (metadata : List (String × String))
    (direction : CallDirection) :
    Replying Open Fresh (refuseWidget ctx claims metadata direction) Verdict := by
  refine replying_then trivial fun _ => replying_then trivial fun _ => ?_
  exact refuse_replying _ _ (by decide)

theorem refuseBilling_replying (details : List (String × String)) {status : Nat} (reason : String)
    (hstatus : 200 ≤ status) :
    Replying Open Fresh (refuseBilling ctx details status reason) Verdict := by
  refine replying_then trivial fun _ => replying_then trivial fun _ => ?_
  exact refuse_replying _ _ hstatus

theorem servedIvr_replying (existing : Option (String × String)) :
    Replying Open Fresh (do
      (handleIncomingCall cfg rt ctx.req existing).tryCatch fun _ => do
        sendUnlessFinal 503
        setStatus ctx.callId .failed
      pure true) Verdict := by
  refine takes ?_
  have hserve : Replying Open Fresh (handleIncomingCall cfg rt ctx.req existing) fun _ => Settled :=
    (handleIncomingCall_replying existing).conseq (fun _ hs => hs) fun _ _ hs => hs.settled
  refine Prog.Spec.tryCatch hserve fun _ => ?_
  refine replying_bind (sendUnlessFinal_replying _ _ _ (by decide)) fun _ => ?_
  exact replying_then trivial fun _ => replying_pure fun _ hs => hs.settled

theorem trunkToUnregistered_replying (target : String) :
    Replying Open Fresh (trunkToUnregistered cfg rt ctx target) Verdict := by
  refine replying_mute (performs_ite (fun _ => performs_ask trivial) fun _ => performs_pure _)
    (fun _ hs => hs.isOpen) fun connected => ?_
  refine Prog.spec_ite (fun _ => servedIvr_replying _) fun _ => ?_
  refine replying_bind (send_replying _ _ _ (by decide)) fun _ => ?_
  exact replying_then trivial fun _ => replying_pure taken

theorem TrunkInboundHandler_replying :
    Replying Open Fresh (TrunkInboundHandler cfg rt ctx) Verdict := by
  refine Prog.spec_ite (fun _ => replying_pure fun _ hs => hs) fun _ => ?_
  refine replying_directory fun dir => ?_
  split
  · refine replying_bind (send_replying _ _ _ (by decide)) fun _ => ?_
    exact replying_then trivial fun _ => replying_pure taken
  · refine replying_then trivial fun _ => ?_
    split
    · exact takes (routeToExtension_replying _ _)
    · exact trunkToUnregistered_replying _

theorem WidgetHandler_replying (route : DialResult) :
    Replying Open Fresh (WidgetHandler cfg ctx route) Verdict := by
  unfold WidgetHandler
  split
  · exact replying_pure fun _ hs => hs
  · refine Prog.spec_ite (fun _ => refuseWidget_replying _ _ _) fun _ => ?_
    refine Prog.spec_ite (fun _ => ?_) fun _ => Prog.spec_ite (fun _ => ?_) fun _ => ?_
    · refine Prog.spec_ite (fun _ => refuseWidget_replying _ _ _) fun _ => ?_
      exact replying_pure fun _ hs => hs
    · refine replying_bind (send_replying _ _ _ (by decide)) fun _ => ?_
      exact replying_then trivial fun _ => replying_pure taken
    · exact replying_then trivial fun _ => recorded_replying _ _ _

theorem TeamsMeetingHandler_replying :
    Replying Open Fresh (TeamsMeetingHandler cfg ctx) Verdict := by
  refine Prog.spec_ite (fun _ => replying_pure fun _ hs => hs) fun _ => ?_
  refine Prog.spec_ite (fun _ => refuse_replying _ _ (by decide)) fun _ => ?_
  refine Prog.spec_ite (fun _ => refuse_replying _ _ (by decide)) fun _ => ?_
  refine replying_directory fun dir => ?_
  refine Prog.spec_ite (fun _ => refuseUnregistered_replying _ _) fun _ => ?_
  -- a join of a registered caller
  refine replying_then (e := .teamsAttempts) trivial fun attempts => ?_
  refine replying_then (e := .nowMs) trivial fun now => replying_then trivial fun _ => ?_
  refine Prog.spec_ite (fun _ => refuse_replying _ _ (by decide)) fun _ => ?_
  refine replying_then trivial fun _ => replying_bind (joinTeamsMeeting_replying _ _) fun ok => ?_
  exact replying_then trivial fun _ => replying_pure taken

theorem ConferenceHandler_replying (route : Option DialResult) :
    Replying Open Fresh (ConferenceHandler cfg ctx route) Verdict := by
  unfold ConferenceHandler
  split
  · exact replying_pure fun _ hs => hs
  · refine Prog.spec_ite (fun _ => refuse_replying _ _ (by decide)) fun _ => ?_
    refine replying_directory fun dir => ?_
    refine Prog.spec_ite (fun _ => refuseUnregistered_replying _ _) fun _ => ?_
    have hopen : ∀ roomId caller name, Performs Effect.Mute (openRoom roomId caller name) := by
      intro roomId caller name
      refine performs_then (e := .getRoom _) trivial fun existing => ?_
      cases existing with
      | some room => exact performs_pure _
      | none => exact performs_ask trivial
    refine replying_mute (hopen _ _ _) (fun _ hs => hs.isOpen) fun room => ?_
    refine Prog.spec_ite (fun _ => refuse_replying _ _ (by decide)) fun _ => ?_
    refine replying_then trivial fun _ => replying_then trivial fun _ => ?_
    refine replying_bind (joinConference_replying _ _ _ _) fun ok => ?_
    exact replying_then trivial fun _ => replying_pure taken

/-- `enqueueCaller` answers or refuses the caller, however the wait ends. -/
theorem enqueueCaller_replying (queueId callId : String) (opts : EnqueueCaller.Options) :
    Replying Open Fresh (ask (.enqueueCaller queueId callId opts)) fun _ => Answered := by
  refine Prog.spec_perform fun s x s' hs hx => ?_
  obtain ⟨_, n, ⟨es, q, hrun, hphase, hn⟩, rfl⟩ := hx
  cases hs
  rw [hn, EnqueueCaller.responses_eq_one hrun hphase]
  rfl

theorem holdForAgent_replying (queueId queueName caller : String) :
    Replying Open Fresh (holdForAgent cfg ctx queueId queueName caller) Verdict := by
  refine replying_then trivial fun _ => replying_then trivial fun _ => ?_
  refine replying_bind (enqueueCaller_replying _ _ _) fun outcome => ?_
  cases outcome with
  | connected agent => exact replying_then trivial fun _ => replying_pure taken
  | abandoned => exact replying_then trivial fun _ => replying_pure taken
  | timeout => exact replying_then trivial fun _ => replying_pure taken
  | failed =>
    exact replying_then trivial fun _ => replying_then trivial fun _ => replying_pure taken

theorem enterQueue_replying (queueId queueName caller : String) :
    Replying Open Fresh (enterQueue cfg ctx queueId queueName caller) Verdict := by
  have htext : Performs Effect.Mute (noAgentsText cfg) :=
    performs_ite (fun _ => performs_ask trivial) fun _ => performs_pure _
  refine replying_then (e := .queues) trivial fun svc => Prog.spec_ite (fun _ => ?_) fun _ => ?_
  · refine replying_then trivial fun _ => replying_mute htext (fun _ hs => hs.isOpen) fun text => ?_
    exact takes ((playUnavailable_replying _).conseq (fun _ hs => hs) fun _ _ hs => hs.settled)
  · exact holdForAgent_replying _ _ _

theorem queueClosed_mute (queueId caller : String) :
    Performs Effect.Mute (queueClosed cfg ctx queueId caller) := by
  refine performs_ite (fun _ => performs_pure _) fun _ => performs_then trivial fun decision => ?_
  cases decision <;> exact performs_pure _

theorem QueueHandler_replying (route : Option DialResult) :
    Replying Open Fresh (QueueHandler cfg rt ctx route) Verdict := by
  unfold QueueHandler
  split
  · exact replying_pure fun _ hs => hs
  · refine Prog.spec_ite (fun _ => refuse_replying _ _ (by decide)) fun _ => ?_
    refine replying_then (e := .queues) trivial fun svc => ?_
    split
    · exact refuse_replying _ _ (by decide)
    · refine replying_directory fun dir => Prog.spec_ite (fun _ => ?_) fun _ => ?_
      · refine replying_then trivial fun _ => replying_then trivial fun _ => ?_
        exact refuse_replying _ _ (by decide)
      · refine replying_mute (queueClosed_mute _ _) (fun _ hs => hs.isOpen) fun closed => ?_
        cases closed with
        | none => exact enterQueue_replying _ _ _
        | some d =>
          refine replying_then trivial fun _ => ?_
          refine replying_then (e := .announcement _) trivial fun text => ?_
          exact takes ((playUnavailable_replying _).conseq (fun _ hs => hs) fun _ _ hs => hs.settled)

theorem EmergencyHandler_replying (route : Option DialResult) :
    Replying Open Fresh (EmergencyHandler cfg ctx route) Verdict := by
  unfold EmergencyHandler
  split
  · exact replying_pure fun _ hs => hs
  · refine replying_then trivial fun _ => Prog.spec_ite (fun _ => recorded_replying _ _ _) fun _ => ?_
    refine replying_bind (send_replying _ _ _ (by decide)) fun _ => ?_
    exact replying_then trivial fun _ => replying_pure taken

theorem IvrHandler_replying (route : Option DialResult) :
    Replying Open Fresh (IvrHandler cfg rt ctx route) Verdict := by
  unfold IvrHandler
  split
  · exact replying_pure fun _ hs => hs
  · refine replying_mute (performs_ite (fun _ => performs_ask trivial) fun _ => performs_pure _)
      (fun _ hs => hs.isOpen) fun connected => ?_
    refine Prog.spec_ite (fun _ => replying_pure fun _ hs => hs) fun _ => ?_
    exact replying_then trivial fun _ => servedIvr_replying _

/-- A closed extension is announced, and that answers the caller. -/
theorem scheduleGate_replying (extension : String) :
    Replying Open Fresh (scheduleGate cfg ctx extension) Verdict := by
  refine Prog.spec_ite (fun _ => replying_pure fun _ hs => hs) fun _ => ?_
  refine replying_then (e := .evaluate _) trivial fun decision => ?_
  cases decision with
  | error err => exact replying_pure fun _ hs => hs
  | ok d =>
    refine Prog.spec_ite (fun _ => ?_) fun _ => replying_pure fun _ hs => hs
    refine replying_then (e := .announcement _) trivial fun text => ?_
    refine replying_bind (playUnavailable_replying _) fun _ => ?_
    exact replying_then trivial fun _ => replying_pure taken

theorem routeInternal_replying (target : String) :
    Replying Open Fresh (routeInternal cfg ctx target) Verdict := by
  refine replying_directory fun dir => ?_
  split
  · refine Prog.spec_ite (fun _ => takes ?_) fun _ => takes (routeToExtension_replying _ _)
    exact (routeDoNotDisturb_replying _ _ _).conseq (fun _ hs => hs) fun _ _ hs => hs.settled
  · refine Prog.spec_ite (fun _ => replying_pure fun _ hs => hs) fun _ => takes ?_
    exact (routeUnreachable_replying _ _ _ _).conseq (fun _ hs => hs) fun _ _ hs => hs.settled

theorem InternalHandler_replying (route : Option DialResult) :
    Replying Open Fresh (InternalHandler cfg ctx route) Verdict := by
  unfold InternalHandler
  split
  · exact replying_pure fun _ hs => hs
  · refine replying_bind (scheduleGate_replying _) fun closed => ?_
    cases closed with
    | true => exact replying_pure fun _ hs => hs
    | false => exact routeInternal_replying _

theorem SipUriHandler_replying (route : Option DialResult) :
    Replying Open Fresh (SipUriHandler cfg ctx route) Verdict := by
  unfold SipUriHandler
  split
  · exact replying_pure fun _ hs => hs
  · refine replying_directory fun dir => ?_
    refine Prog.spec_ite (fun _ => refuseUnregistered_replying _ _) fun _ => ?_
    dsimp only
    split
    · exact replying_then trivial fun _ => refuse_replying _ _ (by decide)
    · refine replying_directory fun dir => replying_then trivial fun _ => ?_
      refine Prog.Spec.tryCatch (F := Fresh) ?_ fun err => ?_
      · refine replying_then (e := .createUAC _) trivial fun answer => ?_
        have hleg : Replying Fresh Fresh (ofExcept answer) fun _ => Fresh :=
          (performs_ofExcept _).replying fun _ hs => hs
        refine replying_bind hleg fun uac => ?_
        refine replying_bind (connectOutboundLeg_replying uac) fun _ => ?_
        exact replying_then trivial fun _ => replying_pure taken
      · have hstatus : 200 ≤ (if 400 ≤ err.status.getD 0 ∧ err.status.getD 0 ≤ 699 then
            err.status.getD 0 else 503) := by
          split
          · omega
          · decide
        refine replying_then trivial fun _ => ?_
        refine replying_bind ((sendUnlessFinal_replying _ _ _ hstatus).conseq
          (fun _ hs => hs.isOpen) fun _ _ hs => hs) fun _ => ?_
        exact replying_pure taken

theorem ExternalHandler_replying (route : Option DialResult) :
    Replying Open Fresh (ExternalHandler cfg ctx route) Verdict := by
  unfold ExternalHandler
  split
  · exact replying_pure fun _ hs => hs
  · refine Prog.spec_ite (fun _ => replying_pure fun _ hs => hs) fun _ => ?_
    refine replying_directory fun dir => ?_
    refine Prog.spec_ite (fun _ => refuseUnregistered_replying _ _) fun _ => ?_
    refine replying_then (e := .snapshot) trivial fun snap => ?_
    refine Prog.spec_ite (fun _ => refuseBilling_replying _ _ (by decide)) fun _ => ?_
    dsimp only
    split
    · exact refuseBilling_replying _ _ (by decide)
    · exact replying_directory fun dir => recorded_replying _ _ _

end Handlers

/-! ## The pipeline -/

section Pipeline

variable {cfg : Config} {rt : Runtime} {ctx : CallContext} {req : Request}

theorem dispatchRoutingRule_replying (rule : RoutingRule) :
    Replying Open Fresh (dispatchRoutingRule cfg rt ctx rule) Verdict := by
  have hno : Replying Open Fresh (do
      sendUnlessFinal 480
      setStatus ctx.callId .missed
      pure true) Verdict := by
    refine replying_bind ((sendUnlessFinal_replying _ _ _ (by decide)).conseq
      (fun _ hs => hs.isOpen) fun _ _ hs => hs) fun _ => ?_
    exact replying_then trivial fun _ => replying_pure taken
  unfold dispatchRoutingRule
  split
  · exact IvrHandler_replying _
  · exact InternalHandler_replying _
  · exact Prog.spec_ite (fun _ => hno) fun _ => recorded_replying _ _ _
  · refine Prog.spec_ite (fun hvm => replying_directory fun dir => ?_) fun _ => hno
    refine replying_bind (recordVoicemail_replying hvm.1 _ _ _) fun saved => ?_
    exact replying_then trivial fun _ => replying_pure taken
  · exact replying_pure fun _ hs => hs

theorem applyRoutingRule_replying :
    Replying Open Fresh (applyRoutingRule cfg rt ctx) Verdict := by
  refine Prog.spec_ite (fun _ => replying_pure fun _ hs => hs) fun _ => ?_
  refine replying_then (e := .getRoutingRule _) trivial fun rule? => ?_
  cases rule? with
  | none => exact replying_pure fun _ hs => hs
  | some rule => exact replying_then trivial fun _ => dispatchRoutingRule_replying _

theorem pushWakeUp_mute : Performs Effect.Mute (pushWakeUp cfg ctx) := by
  refine performs_ite (fun _ => performs_pure _) fun _ => ?_
  refine performs_bind (performs_directory trivial) fun dir => ?_
  exact performs_ite (fun _ => performs_ask trivial) fun _ => performs_pure _

/-- Handlers tried in order: one of them settles the caller, or none took the call. -/
theorem firstHandler_replying {handlers : List (CallProg Bool)}
    (h : ∀ handle ∈ handlers, Replying Open Fresh handle Verdict) :
    Replying Open Fresh (firstHandler handlers) Verdict := by
  induction handlers with
  | nil => exact replying_pure fun _ hs => hs
  | cons handle rest ih =>
    obtain ⟨hhandle, hrest⟩ := List.forall_mem_cons.mp h
    refine replying_bind hhandle fun handled => ?_
    cases handled with
    | true => exact replying_pure fun _ hs => hs
    | false => exact ih hrest

theorem handlers_replying (route : DialResult) :
    ∀ handle ∈ TrunkInboundHandler cfg rt ctx :: routeHandlers cfg rt ctx route,
      Replying Open Fresh handle Verdict := by
  simp only [routeHandlers, List.forall_mem_cons]
  refine ⟨TrunkInboundHandler_replying, WidgetHandler_replying _, TeamsMeetingHandler_replying,
    ConferenceHandler_replying _, QueueHandler_replying _, EmergencyHandler_replying _,
    IvrHandler_replying _, InternalHandler_replying _, SipUriHandler_replying _,
    ExternalHandler_replying _, ?_⟩
  exact fun handle hmem => absurd hmem List.not_mem_nil

theorem routeCallContext_replying (route : DialResult) :
    Replying Open Fresh (routeCallContext cfg rt ctx route) fun _ => Settled := by
  refine replying_bind applyRoutingRule_replying fun ruled => ?_
  cases ruled with
  | true => exact replying_pure fun _ hs => hs
  | false =>
    refine replying_mute pushWakeUp_mute (fun _ hs => hs.isOpen) fun _ => ?_
    refine replying_bind (firstHandler_replying (handlers_replying route)) fun handled => ?_
    cases handled with
    | true => exact replying_pure fun _ hs => hs
    | false =>
      refine replying_bind (send_replying _ _ _ (by decide)) fun _ => ?_
      exact replying_then trivial fun _ => replying_pure fun _ hs => hs.settled

theorem screenInvite_replying :
    Replying Open Fresh (screenInvite cfg rt req) fun _ => Settled := by
  have hsent : ∀ status, 200 ≤ status → Replying Open Fresh (send status) fun _ => Settled :=
    fun status h => (send_replying _ _ _ h).conseq (fun _ hs => hs) fun _ _ hs => hs.settled
  have htoken : Performs Effect.Mute (parseWidgetToken req) :=
    performs_ite (fun _ => performs_pure _) fun _ => performs_then trivial fun _ => performs_pure _
  refine replying_mute htoken (fun _ hs => hs.isOpen) fun claims => replying_directory fun dir => ?_
  refine Prog.spec_ite (fun _ => ?_) fun _ => ?_
  · exact replying_then trivial fun _ => replying_then trivial fun _ => hsent _ (by decide)
  · -- the call is logged and routed
    refine replying_then (e := .randomUUID) trivial fun _ => ?_
    refine replying_then (e := .timestamp) trivial fun _ => ?_
    refine replying_then trivial fun _ => replying_then trivial fun _ => ?_
    exact routeCallContext_replying _

theorem guardInvite_replying :
    Replying Open Fresh (guardInvite cfg rt req) fun _ => Settled := by
  have hsent : ∀ status, 200 ≤ status → Replying Open Fresh (send status) fun _ => Settled :=
    fun status h => (send_replying _ _ _ h).conseq (fun _ hs => hs) fun _ _ hs => hs.settled
  refine replying_then (e := .isBanned _) trivial fun (banned : Bool) => ?_
  refine Prog.spec_ite (fun _ => hsent _ (by decide)) fun _ => ?_
  refine replying_then (e := .sipRates) trivial fun rates => ?_
  refine replying_then (e := .nowMs) trivial fun now => replying_then trivial fun _ => ?_
  refine Prog.spec_ite (fun _ => replying_then trivial fun _ => hsent _ (by decide)) fun _ => ?_
  exact screenInvite_replying

/-- The outermost `catch` answers a caller nobody has answered. -/
theorem handleInvite_replying :
    Replying (fun _ => False) Fresh (handleInvite cfg rt req) fun _ => Settled := by
  refine guardInvite_replying.tryCatch fun err => ?_
  exact (sendUnlessFinal_replying _ _ _ (by decide)).conseq (fun _ hs => hs) fun _ _ hs => hs.settled

end Pipeline

/-! ## The law -/

/-- What the ghost state remembers of a history. -/
theorem terminated_path {s s' : CallerSide} {t : History}
    (h : Prog.Path (S := effects) Replied s t s') :
    s'.terminated = true ↔ s.terminated = true ∨ ∃ ev ∈ t, Effect.terminated ev.1 ev.2 = true := by
  induction h with
  | nil s => simp
  | cons step rest ih =>
    obtain ⟨_, n, _, rfl⟩ := step
    rw [ih, List.exists_mem_cons_iff, Bool.or_eq_true, or_assoc]

/-- A finished INVITE has had exactly one final response, unless the device of the called
    extension ended it with 487 Request Terminated; then it has had none. -/
theorem final_response_iff {cfg : Config} {rt : Runtime} {req : Request} {t : History}
    {r : Except SipError Unit} {n : Nat} (hr : Prog.Run (handleInvite cfg rt req) t r)
    (hn : FinalResponses t n) :
    n = 1 ↔ ∀ ev ∈ t, Effect.terminated ev.1 ev.2 = false := by
  obtain ⟨b, hpath⟩ := hn
  have hend := (handleInvite_replying.safe ⟨0, false⟩ rfl).path hr hpath
  have hterm := terminated_path hpath
  cases r with
  | error err => exact hend.elim
  | ok a =>
    have hsettled : n = if b then 0 else 1 := hend
    constructor
    · intro hone ev hev
      refine Bool.eq_false_iff.mpr fun htrue => ?_
      have hb : b = true := hterm.mpr (.inr ⟨ev, hev, htrue⟩)
      rw [hb, hone] at hsettled
      cases hsettled
    · intro hnone
      have hb : b = false := by
        refine Bool.eq_false_iff.mpr fun htrue => ?_
        rcases hterm.mp htrue with h | ⟨ev, hev, h⟩
        · cases h
        · rw [hnone ev hev] at h
          cases h
      rw [hb] at hsettled
      exact hsettled

/-! ## Two calls -/

/-- The effect concerns the caller's final response. -/
def Effect.Speaks : Effect → Bool
  | .send _ _ _ | .createUAS _ | .connectCaller | .createB2BUA _ _ _ | .enqueueCaller _ _ _
  | .finalResponseSent => true
  | _ => false

theorem Effect.mute_of_not_speaks {e : Effect} (h : e.Speaks = false) : e.Mute := by
  cases e <;> trivial

/-- What does not concern the response may be passed over. -/
theorem path_of_filter {s s' : CallerSide} {t : History}
    (h : Prog.Path (S := effects) Replied s (t.filter fun ev => ev.1.Speaks) s') :
    Prog.Path (S := effects) Replied s t s' := by
  induction t generalizing s with
  | nil => exact h
  | cons ev t ih =>
    obtain ⟨e, x⟩ := ev
    rw [List.filter_cons] at h
    split at h
    · cases h with
      | cons step rest => exact .cons step (ih rest)
    · rename_i hspeaks
      have hmute := Effect.mute_of_not_speaks (Bool.eq_false_iff.mpr hspeaks)
      have hzero : e.Replies x 0 := by
        cases e <;> first | rfl | exact hmute.elim
      have hhonest : e.Honest s.finals x := by
        cases e <;> trivial
      have hstep : Replied s e x ⟨s.finals + 0, s.terminated || e.terminated x⟩ :=
        ⟨hhonest, 0, hzero, rfl⟩
      rw [hmute.same hstep] at hstep
      exact .cons hstep (ih h)

/-- The outcome of a call whose caller had nothing but one B2BUA attempt: whether failures
    were relayed, and the failure if there was one. -/
def soleAttempt (t : History) : Option (Bool × Option SipError) :=
  match t.filter fun ev => ev.1.Speaks with
  | [⟨.createB2BUA _ _ passFailure, .ok _⟩] => some (passFailure, none)
  | [⟨.createB2BUA _ _ passFailure, .error err⟩] => some (passFailure, some err)
  | _ => none

theorem responses_of_sole {t : History} {passFailure : Bool} {failure : Option SipError}
    (h : soleAttempt t = some (passFailure, failure)) :
    FinalResponses t (if failure.isNone then 1 else 0) := by
  unfold soleAttempt at h
  split at h
  · rename_i uri timeoutMs pass legs heq
    cases h
    have hpath : Prog.Path (S := effects) Replied ⟨0, false⟩
        [⟨.createB2BUA uri timeoutMs passFailure, .ok legs⟩] ⟨1, false⟩ := by
      have hterm : Effect.terminated (.createB2BUA uri timeoutMs passFailure) (.ok legs) = false := by
        cases passFailure <;> rfl
      have hstep : Replied ⟨0, false⟩ (.createB2BUA uri timeoutMs passFailure) (.ok legs) ⟨1, false⟩ := by
        refine ⟨trivial, 1, rfl, ?_⟩
        rw [hterm]
        rfl
      exact .cons hstep (.nil _)
    exact ⟨false, path_of_filter (heq ▸ hpath)⟩
  · rename_i uri timeoutMs pass err heq
    cases h
    have hpath : Prog.Path (S := effects) Replied ⟨0, false⟩
        [⟨.createB2BUA uri timeoutMs passFailure, .error err⟩]
        ⟨0, Effect.terminated (.createB2BUA uri timeoutMs passFailure) (.error err)⟩ :=
      .cons ⟨trivial, 0, Nat.zero_le _, rfl⟩ (.nil _)
    exact ⟨_, path_of_filter (heq ▸ hpath)⟩
  · cases h

/-- A user who is registered. -/
def deskUser : Directory :=
  { awayUser with registrations := OrdMap.empty.set "1001" "sip:1001@198.51.100.8" }

/-- Every request succeeds but the calls to a device, which end with 487. -/
def terminatingWorld : CallWorld := fun h e =>
  match e with
  | .createB2BUA _ _ _ => .error { status := some 487, message := "Request Terminated" }
  | e => calmWorld deskUser none h e

/-- A call that the device takes. -/
theorem final_response_iff_answered :
    ∃ t r, Prog.Run (handleInvite trunkOnly bareRuntime (inviteFrom "203.0.113.9" "9999" "1001"))
        t r ∧ FinalResponses t 1 ∧ ∀ ev ∈ t, Effect.terminated ev.1 ev.2 = false := by
  obtain ⟨r, hr⟩ := Prog.run_trace (S := effects) (calmWorld deskUser none) []
    (handleInvite trunkOnly bareRuntime (inviteFrom "203.0.113.9" "9999" "1001"))
  have hsole : soleAttempt (inviteTrace trunkOnly bareRuntime
      (inviteFrom "203.0.113.9" "9999" "1001") (calmWorld deskUser none)) = some (false, none) := by
    decide +kernel
  have hn := responses_of_sole hsole
  exact ⟨_, r, hr, hn, (final_response_iff hr hn).mp rfl⟩

/-- A call that the device ends with 487, and that nobody answers. -/
theorem not_one_final_response_terminated :
    ¬ ∀ t r n, Prog.Run (handleInvite trunkOnly bareRuntime
        (inviteFrom "203.0.113.9" "9999" "1001")) t r → FinalResponses t n → n = 1 := by
  intro h
  obtain ⟨r, hr⟩ := Prog.run_trace (S := effects) terminatingWorld []
    (handleInvite trunkOnly bareRuntime (inviteFrom "203.0.113.9" "9999" "1001"))
  have hsole : soleAttempt (inviteTrace trunkOnly bareRuntime
      (inviteFrom "203.0.113.9" "9999" "1001") terminatingWorld) =
        some (false, some { status := some 487, message := "Request Terminated" }) := by
    decide +kernel
  have hone := h _ r _ hr (responses_of_sole hsole)
  exact absurd hone (by decide)

end CallNet
