import CallNet.Engine.EnqueueCaller

/-!
# The hook protocol of a queued caller

What `enqueueCaller` owes to the queue service: `onEnded` once per queued caller,
and, from the moment the caller's leg is destroyed or `onEnded` was called, no
further agent rung, invited or connected.

The function notices a hang-up through `onCallerGone`, which is on the caller's
legs from the end of the hold prompt to the first bridge attempt, and acts on it
where it tests `abandoned`: at the loop's head and when a ring has settled.  A leg
destroyed outside of that is missed.  `protocol_iff_noticed` says that those are
all the ways in which the protocol fails.
-/

namespace CallNet.EnqueueCaller

open Machine

/-! ## The protocol -/

/-- Acts after which the caller is no longer to be connected to anybody. -/
def Act.closes : Act → Bool
  | .callerDestroyed | .teardown | .hook .onEnded => true
  | _ => false

/-- Acts that engage an agent for the caller. -/
def Act.engages : Act → Bool
  | .invite _ _ | .hook (.onRingAgent _) | .hook (.onConnected _) => true
  | _ => false

/-- No agent is engaged after an act that closes the call. -/
def Orderly (trace : List Act) : Prop :=
  trace.Pairwise fun a b => a.closes = true → b.engages = false

/-- The call is over: the function returned without a connected agent, or with one
    and the caller's leg or the agent's has been destroyed since. -/
def State.over (s : State) : Bool :=
  match s.phase with
  | .returned (.connected _) => s.callerGone || s.agentGone
  | .returned _ => true
  | _ => false

structure Protocol (s : State) : Prop where
  orderly : Orderly s.trace
  atMostOnce : s.trace.count (.hook .onEnded) ≤ 1
  onceOver : s.over = true → s.trace.count (.hook .onEnded) = 1

instance (s : State) : Decidable (Protocol s) :=
  have : Decidable (Orderly s.trace) := by unfold Orderly; infer_instance
  decidable_of_iff (Orderly s.trace ∧ s.trace.count (.hook .onEnded) ≤ 1 ∧
      (s.over = true → s.trace.count (.hook .onEnded) = 1))
    ⟨fun ⟨h1, h2, h3⟩ => ⟨h1, h2, h3⟩, fun ⟨h1, h2, h3⟩ => ⟨h1, h2, h3⟩⟩

/-- Where the run must not go wrong: the media server is up; and no agent is offered,
    no endpoint handed out and no bridge completed after a leg was destroyed unheard
    (before the hold prompt ended, or since the first bridge attempt) or where
    `abandoned` is not tested. -/
def Noticed (s : State) (e : Event) : Prop :=
  match e, s.phase with
  | .ensured up, .ensureConnected => up = true
  | .iterate now (some _), .loop => s.abandoned = false → now < s.deadline → s.unheard = false
  | .endpointReady _, .createEndpoint _ => s.unheard = false ∧ s.unchecked = false
  | .bridged, .bridge _ => s.unheard = false ∧ s.unchecked = false
  | _, _ => True

instance (s : State) (e : Event) : Decidable (Noticed s e) := by
  unfold Noticed; split <;> infer_instance

/-! ## The trace -/

/-- What the trace says of the flags, whatever the phase. -/
structure Ledger (trace : List Act) (ended torn gone : Bool) : Prop where
  orderly : Orderly trace
  once : trace.count (.hook .onEnded) = ended.toNat
  torn_eq : torn = ended
  gone_iff : gone = true ↔ ∃ a ∈ trace, a.closes = true

/-- The ledger of a state. -/
def State.Ledger (s : State) : Prop :=
  EnqueueCaller.Ledger s.trace s.endedNotified s.torndown s.callerGone

theorem Orderly.append {trace : List Act} {a : Act} (h : Orderly trace)
    (ha : a.engages = true → ∀ b ∈ trace, b.closes = false) : Orderly (trace ++ [a]) := by
  refine List.pairwise_append.mpr ⟨h, List.pairwise_singleton _ _, fun b hb c hc hcl => ?_⟩
  rw [List.mem_singleton.mp hc]
  cases he : a.engages with
  | false => rfl
  | true => exact absurd hcl (by rw [ha he b hb]; exact Bool.false_ne_true)

/-- An agent engaged after a closing act breaks the order. -/
theorem not_orderly_append {trace : List Act} {a b : Act} (hb : b ∈ trace)
    (hcl : b.closes = true) (he : a.engages = true) : ¬ Orderly (trace ++ [a]) := by
  intro h
  have := (List.pairwise_append.mp h).2.2 b hb a (List.mem_singleton.mpr rfl) hcl
  rw [he] at this
  exact Bool.false_ne_true this.symm

namespace Ledger

variable {trace : List Act} {ended torn gone : Bool}

theorem closes_eq_false (h : Ledger trace ended torn false) {a : Act} (ha : a ∈ trace) :
    a.closes = false := by
  cases hc : a.closes with
  | false => rfl
  | true => exact absurd (h.gone_iff.mpr ⟨a, ha, hc⟩) Bool.false_ne_true

/-- An act that does not close the call; if it engages an agent, the call is open. -/
theorem emit (h : Ledger trace ended torn gone) {a : Act} (hc : a.closes = false)
    (he : a.engages = true → gone = false) : Ledger (trace ++ [a]) ended torn gone where
  orderly := h.orderly.append fun hea b hb => by
    have hg := he hea
    subst hg
    exact h.closes_eq_false hb
  once := by
    have hne : a ≠ .hook .onEnded := by
      rintro rfl
      exact Bool.false_ne_true hc.symm
    rw [List.count_append, h.once, List.count_singleton]
    simp [hne]
  torn_eq := h.torn_eq
  gone_iff := by
    rw [h.gone_iff]
    simp only [List.mem_append, List.mem_singleton, or_and_right, exists_or, exists_eq_left, hc,
      Bool.false_eq_true, or_false]

/-- An act that neither closes the call nor engages an agent. -/
theorem emit_neutral (h : Ledger trace ended torn gone) {a : Act} (hc : a.closes = false)
    (he : a.engages = false) : Ledger (trace ++ [a]) ended torn gone :=
  h.emit hc fun he' => absurd (he.symm.trans he') Bool.false_ne_true

/-- The far end destroys the caller's leg. -/
theorem destroyed (h : Ledger trace ended torn gone) :
    Ledger (trace ++ [.callerDestroyed]) ended torn true where
  orderly := h.orderly.append fun he => absurd he (by decide)
  once := by rw [List.count_append, h.once]; rfl
  torn_eq := h.torn_eq
  gone_iff := by
    refine ⟨fun _ => ⟨.callerDestroyed, ?_, rfl⟩, fun _ => rfl⟩
    exact List.mem_append.mpr (.inr (List.mem_singleton.mpr rfl))

end Ledger

/-- `notifyEnded` and `teardown`, which the code always calls together, close the call. -/
theorem ledger_close {s : State} (h : s.Ledger) : s.notifyEnded.teardown.Ledger := by
  cases he : s.endedNotified with
  | true =>
    have ht : s.torndown = true := h.torn_eq.trans he
    have hs : s.notifyEnded = s := by simp only [State.notifyEnded, he, if_true]
    rw [hs]
    simpa only [State.teardown, ht, if_true] using h
  | false =>
    have ht : s.torndown = false := h.torn_eq.trans he
    have hcount : s.trace.count (.hook .onEnded) = 0 := by
      have := h.once
      rwa [he] at this
    simp only [State.notifyEnded, he, State.teardown, State.hook, State.emit, ht,
      Bool.false_eq_true, if_false]
    refine ⟨?_, ?_, rfl, ?_⟩
    · exact (h.orderly.append fun he => absurd he (by decide)).append
        fun he => absurd he (by decide)
    · show List.count _ _ = 1
      rw [List.count_append, List.count_append, hcount]
      rfl
    · refine ⟨fun _ => ⟨.teardown, ?_, rfl⟩, fun _ => rfl⟩
      exact List.mem_append.mpr (.inr (List.mem_singleton.mpr rfl))

/-! ## The handlers of `destroy` -/

/-- What the handlers of a `destroy` event leave alone. -/
structure Frame (s t : State) : Prop where
  bridged : t.bridged = s.bridged
  attempts : t.attempts = s.attempts
  callerListeners : t.callerListeners = s.callerListeners
  agentListeners : t.agentListeners = s.agentListeners
  unheard : t.unheard = s.unheard
  unchecked : t.unchecked = s.unchecked
  agentGone : t.agentGone = s.agentGone
  gone : s.callerGone = true → t.callerGone = true
  abandoned : s.abandoned = true → t.abandoned = true
  ended : s.endedNotified = true → t.endedNotified = true
  phase : t.phase = s.phase ∨
    ∃ agent, s.phase = .ring agent none ∧ t.phase = .ring agent (some false)

theorem Frame.refl (s : State) : Frame s s :=
  ⟨rfl, rfl, rfl, rfl, rfl, rfl, rfl, fun h => h, fun h => h, fun h => h, .inl rfl⟩

theorem Frame.trans {s t u : State} (h : Frame s t) (h' : Frame t u) : Frame s u where
  bridged := h'.bridged.trans h.bridged
  attempts := h'.attempts.trans h.attempts
  callerListeners := h'.callerListeners.trans h.callerListeners
  agentListeners := h'.agentListeners.trans h.agentListeners
  unheard := h'.unheard.trans h.unheard
  unchecked := h'.unchecked.trans h.unchecked
  agentGone := h'.agentGone.trans h.agentGone
  gone := fun hs => h'.gone (h.gone hs)
  abandoned := fun hs => h'.abandoned (h.abandoned hs)
  ended := fun hs => h'.ended (h.ended hs)
  phase := by
    rcases h.phase with hp | ⟨agent, hs, ht⟩
    · rw [← hp]
      exact h'.phase
    · rcases h'.phase with hp' | ⟨agent', ht', _⟩
      · exact .inr ⟨agent, hs, hp'.trans ht⟩
      · rw [ht] at ht'
        exact absurd ht' (by simp)

theorem cancel_frame (s : State) (attempt : Nat) : Frame s (s.cancel attempt) := by
  unfold State.cancel
  split
  · rename_i agent hp
    exact ⟨rfl, rfl, rfl, rfl, rfl, rfl, rfl, fun h => h, fun h => h, fun h => h, .inr ⟨agent, hp, rfl⟩⟩
  · exact Frame.refl s

theorem cancel_abandoned (s : State) (attempt : Nat) :
    (s.cancel attempt).abandoned = s.abandoned := by
  unfold State.cancel
  split <;> rfl

theorem cancel_ledger {s : State} (h : s.Ledger) (attempt : Nat) : (s.cancel attempt).Ledger := by
  unfold State.cancel
  split
  · exact h.emit_neutral rfl rfl
  · exact h

theorem close_frame (s : State) : Frame s s.notifyEnded.teardown := by
  unfold State.notifyEnded State.teardown
  repeat' split
  all_goals
    refine ⟨rfl, rfl, rfl, rfl, rfl, rfl, rfl, fun h => ?_, fun h => h, fun h => ?_, .inl rfl⟩
  all_goals first | exact h | rfl

theorem close_abandoned (s : State) : s.notifyEnded.teardown.abandoned = s.abandoned := by
  unfold State.notifyEnded State.teardown
  repeat' split
  all_goals rfl

theorem close_phase (s : State) : s.notifyEnded.teardown.phase = s.phase := by
  unfold State.notifyEnded State.teardown
  repeat' split
  all_goals rfl

theorem close_ended (s : State) : s.notifyEnded.teardown.endedNotified = true := by
  have hn : s.notifyEnded.endedNotified = true := by
    unfold State.notifyEnded
    split <;> first | assumption | rfl
  unfold State.teardown
  split
  · exact hn
  · exact hn

theorem runListener_frame (s : State) (l : Listener) : Frame s (s.runListener l) := by
  cases l with
  | onCallerGone =>
    simp only [State.runListener, State.onCallerGone]
    have hset : Frame s { s with abandoned := true } :=
      ⟨rfl, rfl, rfl, rfl, rfl, rfl, rfl, fun h => h, fun _ => rfl, fun h => h, .inl rfl⟩
    split
    · exact hset.trans (cancel_frame _ _)
    · exact hset
  | onLegGone attempt =>
    have hemit : Frame s ((s.emit (.destroyUac attempt)).emit (.destroyEndpoint attempt)) :=
      ⟨rfl, rfl, rfl, rfl, rfl, rfl, rfl, fun h => h, fun h => h, fun h => h, .inl rfl⟩
    exact hemit.trans (close_frame _)

theorem runListener_ledger {s : State} (h : s.Ledger) (l : Listener) :
    (s.runListener l).Ledger := by
  cases l with
  | onCallerGone =>
    simp only [State.runListener, State.onCallerGone]
    split
    · exact cancel_ledger (s := { s with abandoned := true }) h _
    · exact h
  | onLegGone attempt =>
    have hemit : State.Ledger ((s.emit (.destroyUac attempt)).emit (.destroyEndpoint attempt)) :=
      (h.emit_neutral rfl rfl).emit_neutral rfl rfl
    exact ledger_close hemit

theorem onCallerGone_abandoned (s : State) : s.onCallerGone.abandoned = true := by
  simp only [State.onCallerGone]
  split
  · exact cancel_abandoned _ _
  · rfl

theorem onLegGone_abandoned (s : State) (attempt : Nat) :
    (s.onLegGone attempt).abandoned = s.abandoned :=
  close_abandoned _

theorem onLegGone_ended (s : State) (attempt : Nat) :
    (s.onLegGone attempt).endedNotified = true :=
  close_ended _

theorem onLegGone_phase (s : State) (attempt : Nat) : (s.onLegGone attempt).phase = s.phase :=
  close_phase _

theorem onLegGone_gone {s : State} (h : s.Ledger) (attempt : Nat) :
    (s.onLegGone attempt).callerGone = true := by
  have hl : (s.onLegGone attempt).Ledger := runListener_ledger h (.onLegGone attempt)
  refine hl.gone_iff.mpr ⟨.hook .onEnded, ?_, rfl⟩
  have hcount := hl.once
  rw [onLegGone_ended] at hcount
  exact List.count_pos_iff.mp (hcount ▸ Nat.one_pos)

theorem handlers_frame (ls : List Listener) (s : State) :
    Frame s (ls.foldl State.runListener s) := by
  induction ls generalizing s with
  | nil => exact Frame.refl s
  | cons l ls ih => exact (runListener_frame s l).trans (ih _)

theorem handlers_ledger (ls : List Listener) {s : State} (h : s.Ledger) :
    (ls.foldl State.runListener s).Ledger := by
  induction ls generalizing s with
  | nil => exact h
  | cons l ls ih => exact ih (runListener_ledger h l)

/-- A hang-up is noticed when `onCallerGone` is on. -/
theorem handlers_abandoned {ls : List Listener} (h : .onCallerGone ∈ ls) (s : State) :
    (ls.foldl State.runListener s).abandoned = true := by
  induction ls generalizing s with
  | nil => exact absurd h List.not_mem_nil
  | cons l ls ih =>
    rcases List.mem_cons.mp h with rfl | hmem
    · exact (handlers_frame ls _).abandoned (onCallerGone_abandoned s)
    · exact ih hmem _

/-- A hang-up is missed when `onCallerGone` is off. -/
theorem handlers_not_abandoned {ls : List Listener} (h : .onCallerGone ∉ ls) (s : State) :
    (ls.foldl State.runListener s).abandoned = s.abandoned := by
  induction ls generalizing s with
  | nil => rfl
  | cons l ls ih =>
    rw [List.mem_cons, not_or] at h
    rw [List.foldl_cons, ih h.2]
    cases l with
    | onCallerGone => exact absurd rfl h.1
    | onLegGone attempt => exact onLegGone_abandoned s attempt

/-- Once the listeners are swapped, a hang-up ends the call. -/
theorem handlers_ended {ls : List Listener} {attempt : Nat} (h : .onLegGone attempt ∈ ls)
    (s : State) : (ls.foldl State.runListener s).endedNotified = true := by
  induction ls generalizing s with
  | nil => exact absurd h List.not_mem_nil
  | cons l ls ih =>
    rcases List.mem_cons.mp h with rfl | hmem
    · exact (handlers_frame ls _).ended (close_ended _)
    · exact ih hmem _

/-! ## The invariant -/

/-- What the flags and the listeners are at each `await`. -/
def State.AtPhase (s : State) : Prop :=
  match s.phase with
  | .ensureConnected | .connectCaller =>
    s.legs = false ∧ s.callerListeners = [] ∧ s.agentListeners = [] ∧ s.endedNotified = false
  | .prepareVoice | .holdPrompt => s.callerListeners = []
  | .createEndpoint _ | .modify _ | .stopMusic _ => s.abandoned = true → s.unchecked = true
  | .bridge _ =>
    (s.abandoned = true → s.unchecked = true) ∧ .onCallerGone ∉ s.callerListeners ∧
      .onLegGone s.attempts ∈ s.callerListeners ∧ s.attempts ∈ s.agentListeners
  | .returned (.connected _) =>
    .onLegGone s.attempts ∈ s.callerListeners ∧ s.attempts ∈ s.agentListeners ∧
      (s.callerGone = true → s.endedNotified = true)
  | .returned _ => s.endedNotified = true
  | _ => True

/-- The invariant of the control flow; `noticed` is what the listeners are for. -/
structure Control (s : State) : Prop where
  unheard_gone : s.unheard = true → s.callerGone = true
  unchecked_gone : s.unchecked = true → s.callerGone = true
  agentGone_ended : s.agentGone = true → s.endedNotified = true
  oneListener : s.callerListeners.count .onCallerGone ≤ 1
  notBridged : (∀ o, s.phase ≠ .returned o) → s.bridged = false
  noticed : (∀ o, s.phase ≠ .returned o) → s.callerGone = true →
    s.abandoned = true ∨ s.unheard = true
  atPhase : s.AtPhase

structure Inv (s : State) : Prop where
  ledger : s.Ledger
  control : Control s

theorem inv_init : Inv init where
  ledger := ⟨List.Pairwise.nil, rfl, rfl, by simp [init]⟩
  control := ⟨nofun, nofun, nofun, Nat.zero_le _, fun _ => rfl, fun _ => nofun, rfl, rfl, rfl, rfl⟩

theorem Inv.protocol {s : State} (h : Inv s) : Protocol s where
  orderly := h.ledger.orderly
  atMostOnce := by
    have := h.ledger.once
    cases he : s.endedNotified <;> simp only [he, Bool.toNat_false, Bool.toNat_true] at this <;>
      omega
  onceOver := by
    intro hover
    have hp := h.control.atPhase
    have he : s.endedNotified = true := by
      unfold State.over at hover
      unfold State.AtPhase at hp
      split at hover
      · rename_i hph
        simp only [hph] at hp
        rcases Bool.or_eq_true_iff.mp hover with hg | hg
        · exact hp.2.2 hg
        · exact h.control.agentGone_ended hg
      · rename_i o hno hph
        simp only [hph] at hp
        exact hp
      · exact absurd hover Bool.false_ne_true
    rw [h.ledger.once, he]
    rfl

/-! ### Moving on to the next `await` -/

theorem Control.emit {s : State} (h : Control s) (a : Act) : Control (s.emit a) :=
  ⟨h.unheard_gone, h.unchecked_gone, h.agentGone_ended, h.oneListener, h.notBridged,
    h.noticed, h.atPhase⟩

/-- From one `await` of the running function to another. -/
theorem Control.goto {s : State} (h : Control s) {p : Phase} (hrun : ∀ o, s.phase ≠ .returned o)
    (hp : (s.goto p).AtPhase) : Control (s.goto p) :=
  ⟨h.unheard_gone, h.unchecked_gone, h.agentGone_ended, h.oneListener,
    fun _ => h.notBridged hrun, fun _ => h.noticed hrun, hp⟩

/-- The return with every leg torn down. -/
theorem Control.close {s : State} (h : Control s) {o : Outcome}
    (ho : ∀ ext, o ≠ .connected ext) : Control (s.notifyEnded.teardown.goto (.returned o)) := by
  have hf := close_frame s
  have he := close_ended s
  refine ⟨fun hu => hf.gone (h.unheard_gone (hf.unheard ▸ hu)),
    fun hu => hf.gone (h.unchecked_gone (hf.unchecked ▸ hu)), fun _ => he, ?_,
    fun hrun => absurd rfl (hrun o), fun hrun => absurd rfl (hrun o), ?_⟩
  · show List.count _ s.notifyEnded.teardown.callerListeners ≤ 1
    rw [hf.callerListeners]
    exact h.oneListener
  · unfold State.AtPhase
    cases o with
    | connected ext => exact absurd rfl (ho ext)
    | abandoned | timeout | failed => exact he

/-- The outer `catch` ends the call. -/
theorem inv_fail {s : State} (hl : s.Ledger) (hc : Control s) (hb : s.bridged = false) :
    Inv s.fail := by
  unfold State.fail
  simp only [hb, Bool.false_eq_true, if_false]
  have hclose := ledger_close hl
  have hctl := hc.close (o := .failed) nofun
  split
  · exact ⟨hclose, hctl⟩
  · exact ⟨hclose.emit_neutral rfl rfl, ⟨hctl.unheard_gone, hctl.unchecked_gone,
      hctl.agentGone_ended, hctl.oneListener, hctl.notBridged, hctl.noticed, hctl.atPhase⟩⟩

/-! ### A leg is destroyed -/

theorem inv_callerDestroyed {s : State} (h : Inv s) (hlegs : s.legs = true) :
    Inv s.callerDestroyed := by
  unfold State.callerDestroyed
  extract_lets t
  have hf := handlers_frame s.callerListeners (t.emit .callerDestroyed)
  have hgone := hf.gone rfl
  refine ⟨handlers_ledger _ h.ledger.destroyed, fun _ => hgone, fun _ => hgone,
    fun ha => hf.ended (h.control.agentGone_ended (hf.agentGone ▸ ha)), ?_, ?_, fun _ _ => ?_, ?_⟩
  · rw [hf.callerListeners]
    exact h.control.oneListener
  · intro hrun
    rw [hf.bridged]
    refine h.control.notBridged fun o ho => ?_
    rcases hf.phase with hp | ⟨agent, hs, _⟩
    · exact hrun o (hp.trans ho)
    · exact absurd (ho.symm.trans hs) (by simp)
  · -- either the listener saw the caller go, or the loss went unheard
    by_cases hon : .onCallerGone ∈ s.callerListeners
    · exact .inl (handlers_abandoned hon _)
    · right
      rw [hf.unheard]
      show (s.unheard || !s.callerListeners.contains .onCallerGone) = true
      simp [hon]
  · have hp := h.control.atPhase
    have hun : (t.emit .callerDestroyed).unchecked = (s.unchecked || s.phase.isUnchecked) := rfl
    unfold State.AtPhase at hp ⊢
    rcases hf.phase with hph | ⟨agent, _, ht⟩
    · have hph' : _ = s.phase := hph
      rw [hph', hf.callerListeners, hf.agentListeners, hf.attempts, hf.unchecked, hun]
      cases hs : s.phase with
      | ensureConnected | connectCaller =>
        -- before the caller is connected there is no leg to destroy
        simp only [hs] at hp
        exact absurd (hlegs.symm.trans hp.1) (by simp)
      | prepareVoice | holdPrompt =>
        simp only [hs] at hp
        exact hp
      | createEndpoint | modify | stopMusic => exact fun _ => Bool.or_true _
      | bridge agent =>
        simp only [hs] at hp
        obtain ⟨habs, hoff, hon, hag⟩ := hp
        refine ⟨fun hab => ?_, hoff, hon, hag⟩
        rw [handlers_not_abandoned hoff] at hab
        rw [habs hab, Bool.true_or]
      | returned o =>
        simp only [hs] at hp
        cases o with
        | connected ext => exact ⟨hp.1, hp.2.1, fun _ => handlers_ended hp.1 _⟩
        | abandoned | timeout | failed => exact hf.ended hp
      | loop | poll | ring | goodbye => trivial
    · rw [ht]
      trivial

/-- While an agent is bridged, its legs carry `onLegGone`. -/
theorem Control.listening {s : State} (h : Control s) (hb : s.phase.isBridging = true) :
    s.attempts ∈ s.agentListeners := by
  have hp := h.atPhase
  unfold Phase.isBridging at hb
  unfold State.AtPhase at hp
  split at hb
  · rename_i hs
    simp only [hs] at hp
    exact hp.2.2.2
  · rename_i hs
    simp only [hs] at hp
    exact hp.2.1
  · exact absurd hb Bool.false_ne_true

theorem inv_agentDestroyed {s : State} (h : Inv s) (attempt : Nat) :
    Inv (s.agentDestroyed attempt) := by
  have hp := h.control.atPhase
  unfold State.agentDestroyed
  extract_lets t
  split
  · rename_i hmem
    have hl : State.Ledger { t with unheard := true } := h.ledger
    have hf := runListener_frame { t with unheard := true } (.onLegGone attempt)
    have hended := onLegGone_ended { t with unheard := true } attempt
    have hgone := onLegGone_gone hl attempt
    have hphase : _ = s.phase := onLegGone_phase { t with unheard := true } attempt
    refine ⟨runListener_ledger hl (.onLegGone attempt), fun _ => hgone, fun _ => hgone,
      fun _ => hended, ?_, ?_, fun _ _ => .inr hf.unheard, ?_⟩
    · exact Nat.le_trans (Nat.le_of_eq (congrArg (List.count _) hf.callerListeners))
        h.control.oneListener
    · rw [hphase]
      exact fun hrun => hf.bridged.trans (h.control.notBridged hrun)
    · have habs : _ = s.abandoned := onLegGone_abandoned { t with unheard := true } attempt
      have hun : _ = s.unchecked := hf.unchecked
      have hcl : _ = s.callerListeners := hf.callerListeners
      have hal : _ = s.agentListeners := hf.agentListeners
      have hat : _ = s.attempts := hf.attempts
      unfold State.AtPhase at hp ⊢
      unfold State.runListener at hcl hal hat hun
      rw [hphase, hended, habs, hun, hcl, hal, hat]
      cases hs : s.phase with
      | ensureConnected | connectCaller =>
        simp only [hs] at hp
        exact absurd hmem (by rw [show t.agentListeners = [] from hp.2.2.1]; exact List.not_mem_nil)
      | returned o =>
        simp only [hs] at hp
        cases o with
        | connected ext => exact ⟨hp.1, hp.2.1, fun _ => rfl⟩
        | abandoned | timeout | failed => rfl
      | prepareVoice | holdPrompt | createEndpoint | modify | stopMusic | bridge =>
        simp only [hs] at hp
        exact hp
      | loop | poll | ring | goodbye => trivial
  · rename_i hmem
    have hgone : t.agentGone = s.agentGone := by
      show (s.agentGone || (attempt == s.attempts && s.phase.isBridging)) = s.agentGone
      by_cases hb : attempt = s.attempts ∧ s.phase.isBridging = true
      · exact absurd (hb.1 ▸ h.control.listening hb.2) hmem
      · simp only [Bool.or_eq_left_iff_imp, Bool.and_eq_true, beq_iff_eq]
        exact fun hb' => absurd hb' hb
    exact ⟨h.ledger, h.control.unheard_gone, h.control.unchecked_gone,
      fun ha => h.control.agentGone_ended (hgone ▸ ha), h.control.oneListener,
      h.control.notBridged, h.control.noticed, h.control.atPhase⟩

/-! ### One step -/

/-- Under `Noticed`, a running function that goes on to an agent has a live caller. -/
theorem Control.alive {s : State} (h : Control s) (hrun : ∀ o, s.phase ≠ .returned o)
    (hu : s.unheard = false) (ha : s.abandoned = false) : s.callerGone = false := by
  cases hg : s.callerGone with
  | false => rfl
  | true =>
    rcases h.noticed hrun hg with hab | hun
    · exact absurd (hab.symm.trans ha) (by decide)
    · exact absurd (hun.symm.trans hu) (by decide)

theorem inv_attemptFailed {s : State} (h : Inv s) (hrun : ∀ o, s.phase ≠ .returned o)
    (agent : Agent) : Inv (s.attemptFailed agent) where
  ledger := ((h.ledger.emit_neutral rfl rfl).emit_neutral rfl rfl).emit_neutral rfl rfl
  control := (((h.control.emit _).emit _).emit _).goto hrun trivial

theorem inv_iterate {s : State} (h : Inv s) (hp : s.phase = .loop) {now : Nat}
    {agent : Option Agent} (hG : Noticed s (.iterate now agent)) : Inv (s.iterate now agent) := by
  have hrun : ∀ o, s.phase ≠ .returned o := by simp [hp]
  unfold State.iterate
  split
  · rename_i hopen
    have hab : s.abandoned = false := by simpa using hopen.1
    cases agent with
    | none => exact ⟨h.ledger, h.control.goto hrun trivial⟩
    | some agent =>
      have hu : s.unheard = false := by
        unfold Noticed at hG
        simp only [hp] at hG
        exact hG hab hopen.2
      have hg := h.control.alive hrun hu hab
      refine ⟨h.ledger.emit rfl fun _ => hg, h.control.unheard_gone, h.control.unchecked_gone,
        nofun, h.control.oneListener, fun _ => h.control.notBridged hrun,
        fun _ => h.control.noticed hrun, ?_⟩
      exact fun ha => absurd (ha.symm.trans hab) (by decide)
  · split
    · exact ⟨ledger_close (s := s.hook .onAbandoned) (h.ledger.emit_neutral rfl rfl),
        Control.close (h.control.emit (.hook .onAbandoned)) nofun⟩
    · exact ⟨h.ledger.emit_neutral rfl rfl, (h.control.emit _).goto hrun trivial⟩

theorem inv_ringResumed {s : State} (h : Inv s) {agent : Agent} {uac : Bool}
    (hp : s.phase = .ring agent (some uac)) : Inv (s.ringResumed agent uac) := by
  have hrun : ∀ o, s.phase ≠ .returned o := by simp [hp]
  have hc : Control { s with cancelActiveRing := none } :=
    ⟨h.control.unheard_gone, h.control.unchecked_gone, h.control.agentGone_ended,
      h.control.oneListener, h.control.notBridged, h.control.noticed, h.control.atPhase⟩
  have hl : State.Ledger { s with cancelActiveRing := none } := h.ledger
  unfold State.ringResumed
  extract_lets t t1 t2 t3
  split
  · have h1 : t1.Ledger ∧ Control t1 ∧ t1.phase = s.phase := by
      unfold t1
      split
      · exact ⟨hl.emit_neutral rfl rfl, hc.emit _, rfl⟩
      · exact ⟨hl, hc, rfl⟩
    have h2 : t2.Ledger ∧ Control t2 ∧ t2.phase = s.phase :=
      ⟨h1.1.emit_neutral rfl rfl, h1.2.1.emit _, h1.2.2⟩
    have h3 : t3.Ledger ∧ Control t3 ∧ t3.phase = s.phase := by
      unfold t3
      split
      · exact ⟨h2.1.emit_neutral rfl rfl, h2.2.1.emit _, h2.2.2⟩
      · exact h2
    exact ⟨h3.1, h3.2.1.goto (h3.2.2 ▸ hrun) trivial⟩
  · rename_i hopen
    refine ⟨hl.emit_neutral rfl rfl, (hc.emit _).goto hrun fun hab => absurd (.inr hab) hopen⟩

theorem inv_swapListeners {s : State} (h : Inv s) {agent : Agent}
    (hp : s.phase = .stopMusic agent) :
    Inv ((s.swapListeners.emit (.bridge s.attempts)).goto (.bridge agent)) := by
  have hrun : ∀ o, s.phase ≠ .returned o := by simp [hp]
  have hab := h.control.atPhase
  unfold State.AtPhase at hab
  simp only [hp] at hab
  have hcount := h.control.oneListener
  refine ⟨h.ledger.emit_neutral rfl rfl, h.control.unheard_gone, h.control.unchecked_gone,
    h.control.agentGone_ended, ?_, fun _ => h.control.notBridged hrun,
    fun _ => h.control.noticed hrun, hab, ?_, ?_, ?_⟩
  · show List.count _ (s.callerListeners.erase .onCallerGone ++ [.onLegGone s.attempts]) ≤ 1
    rw [List.count_append, List.count_erase_self]
    simp only [List.count_singleton, beq_iff_eq, reduceCtorEq, if_false]
    omega
  · show _ ∉ s.callerListeners.erase .onCallerGone ++ [.onLegGone s.attempts]
    rw [List.mem_append, not_or, List.mem_singleton]
    refine ⟨fun hmem => ?_, by simp⟩
    have := List.count_pos_iff.mpr hmem
    rw [List.count_erase_self] at this
    omega
  · exact List.mem_append.mpr (.inr (List.mem_singleton.mpr rfl))
  · exact List.mem_cons_self

/-- Where `abandoned` is only true if the hang-up went untested, an agent may be engaged
    under `Noticed`: the caller is there. -/
theorem Control.alive_of_noticed {s : State} (h : Control s) (hrun : ∀ o, s.phase ≠ .returned o)
    (hat : s.abandoned = true → s.unchecked = true)
    (hG : s.unheard = false ∧ s.unchecked = false) : s.callerGone = false := by
  refine h.alive hrun hG.1 ?_
  cases ha : s.abandoned with
  | false => rfl
  | true => exact absurd ((hat ha).symm.trans hG.2) (by decide)

/-- One step that meets `Noticed` keeps the invariant. -/
theorem inv_step {o : Options} {s s' : State} {e : Event} (h : Inv s) (hG : Noticed s e)
    (hs : step o s e = some s') : Inv s' := by
  have hc := h.control
  have hat := hc.atPhase
  unfold State.AtPhase at hat
  unfold Noticed at hG
  cases steps_of_step hs with
  | mediaUp hp =>
    simp only [hp] at hat
    exact ⟨h.ledger, hc.goto (by simp [hp]) hat⟩
  | mediaDown hp =>
    simp only [hp] at hG
    exact absurd hG Bool.false_ne_true
  | connected hp =>
    simp only [hp] at hat
    exact ⟨h.ledger, hc.unheard_gone, hc.unchecked_gone, hc.agentGone_ended, hc.oneListener,
      fun _ => hc.notBridged (by simp [hp]), fun _ => hc.noticed (by simp [hp]), hat.2.1⟩
  | connectFailed sent hp =>
    exact inv_fail h.ledger ⟨hc.unheard_gone, hc.unchecked_gone, hc.agentGone_ended,
      hc.oneListener, hc.notBridged, hc.noticed, hc.atPhase⟩ (hc.notBridged (by simp [hp]))
  | voiceReady hp =>
    simp only [hp] at hat
    exact ⟨h.ledger.emit_neutral rfl rfl, (hc.emit _).goto (by simp [State.emit, hp]) hat⟩
  | promptPlayed now hp =>
    simp only [hp] at hat
    refine ⟨(h.ledger.emit_neutral rfl rfl).emit_neutral rfl rfl, hc.unheard_gone,
      hc.unchecked_gone, hc.agentGone_ended, ?_, fun _ => hc.notBridged (by simp [hp]),
      fun _ => hc.noticed (by simp [hp]), trivial⟩
    show List.count _ (s.callerListeners ++ [Listener.onCallerGone]) ≤ 1
    rw [hat]
    decide
  | iterate now agent hp => exact inv_iterate h hp hG
  | pollElapsed hp | answered agent hp | declined agent hp =>
    exact ⟨h.ledger, hc.goto (by simp [hp]) trivial⟩
  | endpointReady sdp agent hp =>
    simp only [hp] at hat hG
    have hg := hc.alive_of_noticed (by simp [hp]) hat hG
    exact ⟨h.ledger.emit rfl fun _ => hg, hc.unheard_gone, hc.unchecked_gone,
      hc.agentGone_ended, hc.oneListener, fun _ => hc.notBridged (by simp [hp]),
      fun _ => hc.noticed (by simp [hp]), trivial⟩
  | endpointFailed agent hp => exact inv_fail h.ledger hc (hc.notBridged (by simp [hp]))
  | ringTimeout agent hp =>
    simp only [State.cancel, hp]
    exact ⟨h.ledger.emit_neutral rfl rfl, hc.unheard_gone, hc.unchecked_gone,
      hc.agentGone_ended, hc.oneListener, fun _ => hc.notBridged (by simp [hp]),
      fun _ => hc.noticed (by simp [hp]), trivial⟩
  | ringResumed agent uac hp => exact inv_ringResumed h hp
  | modified agent hp =>
    simp only [hp] at hat
    exact ⟨h.ledger.emit_neutral rfl rfl, (hc.emit _).goto (by simp [State.emit, hp]) hat⟩
  | modifyFailed agent hp | bridgeFailed agent hp => exact inv_attemptFailed h (by simp [hp]) _
  | musicStopped agent hp => exact inv_swapListeners h hp
  | bridged agent hp =>
    simp only [hp] at hat hG
    have hg := hc.alive_of_noticed (by simp [hp]) hat.1 hG
    exact ⟨h.ledger.emit rfl fun _ => hg, hc.unheard_gone, hc.unchecked_gone,
      hc.agentGone_ended, hc.oneListener, fun hrun => absurd rfl (hrun _),
      fun hrun => absurd rfl (hrun _), hat.2.2.1, hat.2.2.2,
      fun hg' => absurd (hg'.symm.trans hg) (by decide)⟩
  | goodbyePlayed hp =>
    exact ⟨ledger_close (s := s.hook .onTimeout) (h.ledger.emit_neutral rfl rfl),
      Control.close (hc.emit (.hook .onTimeout)) nofun⟩
  | callerDestroyed hlegs => exact inv_callerDestroyed h hlegs
  | agentDestroyed attempt => exact inv_agentDestroyed h attempt
  | lateAnswer attempt =>
    exact ⟨h.ledger.emit_neutral rfl rfl, hc.unheard_gone, hc.unchecked_gone,
      hc.agentGone_ended, hc.oneListener, hc.notBridged, hc.noticed, hc.atPhase⟩
  | lateFailure attempt =>
    exact ⟨h.ledger, hc.unheard_gone, hc.unchecked_gone,
      hc.agentGone_ended, hc.oneListener, hc.notBridged, hc.noticed, hc.atPhase⟩

/-- An agent engaged after a leg was destroyed breaks the protocol. -/
theorem not_protocol_of_engaged {s t : State} (h : Inv s) {a : Act} (ha : a.engages = true)
    (ht : t.trace = s.trace ++ [a]) (hp : Protocol t) :
    s.unheard = false ∧ s.unchecked = false := by
  have hg : s.callerGone = false := by
    cases hg : s.callerGone with
    | false => rfl
    | true =>
      obtain ⟨b, hb, hcl⟩ := h.ledger.gone_iff.mp hg
      exact absurd (ht ▸ hp.orderly) (not_orderly_append hb hcl ha)
  constructor
  · cases hu : s.unheard with
    | false => rfl
    | true => exact absurd ((h.control.unheard_gone hu).symm.trans hg) (by decide)
  · cases hu : s.unchecked with
    | false => rfl
    | true => exact absurd ((h.control.unchecked_gone hu).symm.trans hg) (by decide)

/-- A step that leaves the protocol intact meets `Noticed`. -/
theorem noticed_of_protocol {o : Options} {s s' : State} {e : Event} (h : Inv s)
    (hs : step o s e = some s') (hp : Protocol s') : Noticed s e := by
  unfold Noticed
  split
  · rename_i up hph
    cases up with
    | true => rfl
    | false =>
      have hat := h.control.atPhase
      unfold State.AtPhase at hat
      simp only [hph] at hat
      have hcount := h.ledger.once
      rw [hat.2.2.2] at hcount
      simp only [step, hph, Bool.false_eq_true, if_false, Option.some.injEq] at hs
      have hover := hp.onceOver (by rw [← hs]; rfl)
      rw [← hs] at hover
      split at hover
      · exact absurd (hcount.symm.trans hover) (by decide)
      · rw [show State.trace _ = s.trace ++ [.send 480 "Temporarily Unavailable"] from rfl,
          List.count_append, hcount] at hover
        exact absurd hover (by decide)
  · rename_i now agent hph
    intro hab hnow
    simp only [step, hph, State.iterate, hab, hnow, Bool.not_false, and_self, if_true,
      Option.some.injEq] at hs
    exact (not_protocol_of_engaged h rfl (by rw [← hs]; rfl) hp).1
  · rename_i hph
    simp only [step, hph, Option.some.injEq] at hs
    exact not_protocol_of_engaged h rfl (by rw [← hs]; rfl) hp
  · rename_i hph
    simp only [step, hph, Option.some.injEq] at hs
    exact not_protocol_of_engaged h rfl (by rw [← hs]; rfl) hp
  · trivial

theorem noticed_of_step_none {o : Options} {s : State} {e : Event}
    (hs : step o s e = none) : Noticed s e := by
  unfold Noticed
  split <;> rename_i hph <;> simp only [step, hph, reduceCtorEq] at hs
  · split at hs <;> cases hs
  · trivial

/-! ## The result over runs -/

/-- A run of `enqueueCaller` keeps the hook protocol in every state it visits exactly
    when every destroyed leg is noticed in time. -/
theorem protocol_iff_noticed (o : Options) (es : List Event) :
    Throughout (step o) Protocol init es ↔ Meets (step o) Noticed init es :=
  throughout_iff_meets (P := fun _ _ => True) (fun _ => Inv.protocol)
    (fun _ _ _ h _ => inv_step h) (fun _ _ _ h _ => noticed_of_protocol h)
    (fun _ _ => noticed_of_step_none) inv_init (meets_of_mem fun _ _ => trivial)

/-- The caller hangs up during the hold prompt, when no handler is on its legs yet; an
    agent is free. -/
def hangupDuringPrompt : List Event :=
  [.ensured true, .connected, .voiceReady, .callerDestroyed, .promptPlayed 0,
   .iterate 10 (some ⟨"1001", "sip:1001@10.0.0.5:5060", "Agent One"⟩)]

/-- The agent is rung for a caller who is gone. -/
theorem protocol_fails_hangupDuringPrompt :
    ¬ Throughout (step ⟨"Sales", "local_stream://moh", 20000, 60000, "1002", "Caller", "pbx.local"⟩)
      Protocol init hangupDuringPrompt := by
  decide

/-! ## Hang-ups that are noticed -/

/-- The media server is up; the caller's leg is destroyed only while the function waits
    for an agent to become free or to answer, before any bridge was attempted, or once it
    is done with agents; and no leg of an agent whose bridge was begun is destroyed before
    then. -/
def Timely (s : State) (e : Event) : Prop :=
  match e, s.phase with
  | .ensured up, .ensureConnected => up = true
  | .callerDestroyed, .poll | .callerDestroyed, .ring _ _ => .onCallerGone ∈ s.callerListeners
  | .callerDestroyed, .goodbye | .callerDestroyed, .returned _ => True
  | .callerDestroyed, _ => False
  | .agentDestroyed _, .goodbye | .agentDestroyed _, .returned _ => True
  | .agentDestroyed attempt, _ => attempt ∉ s.agentListeners
  | _, _ => True

instance (s : State) (e : Event) : Decidable (Timely s e) := by
  unfold Timely; split <;> infer_instance

/-- The phases from which an agent may still be engaged. -/
def Phase.isEngaging : Phase → Bool
  | .goodbye | .returned _ => false
  | _ => true

/-- Nothing has been missed so far, unless the function is done with agents. -/
def Heard (s : State) : Prop :=
  s.phase.isEngaging = true → s.unheard = false ∧ s.unchecked = false

theorem heard_fail (s : State) : Heard s.fail := by
  intro he
  unfold State.fail at he
  split at he <;> exact absurd he Bool.false_ne_true

theorem heard_iterate {s : State} (h : Heard s) (hp : s.phase = .loop) (now : Nat)
    (agent : Option Agent) : Heard (s.iterate now agent) := by
  have hs := h (by rw [hp]; rfl)
  unfold State.iterate
  split
  · cases agent with
    | none => exact fun _ => hs
    | some agent => exact fun _ => hs
  · split
    · exact fun he => absurd he Bool.false_ne_true
    · exact fun he => absurd he Bool.false_ne_true

theorem heard_ringResumed {s : State} (h : Heard s) {agent : Agent} {uac : Bool}
    (hp : s.phase = .ring agent (some uac)) : Heard (s.ringResumed agent uac) := by
  have hs := h (by rw [hp]; rfl)
  unfold State.ringResumed
  extract_lets t t1 t2 t3
  split
  · have h1 : t1.unheard = s.unheard ∧ t1.unchecked = s.unchecked := by
      unfold t1
      split <;> exact ⟨rfl, rfl⟩
    have h3 : t3.unheard = t1.unheard ∧ t3.unchecked = t1.unchecked := by
      unfold t3
      split <;> exact ⟨rfl, rfl⟩
    exact fun _ => ⟨h3.1.trans (h1.1.trans hs.1), h3.2.trans (h1.2.trans hs.2)⟩
  · exact fun _ => hs

/-- A hang-up while waiting is heard, and tested for before the next agent is engaged. -/
theorem heard_callerDestroyed {s : State} (h : Heard s)
    (ht : Timely s .callerDestroyed) : Heard s.callerDestroyed := by
  intro he
  have hf := handlers_frame s.callerListeners
    (State.emit { s with
      callerGone := true
      unheard := s.unheard || !s.callerListeners.contains Listener.onCallerGone
      unchecked := s.unchecked || s.phase.isUnchecked } .callerDestroyed)
  have hph : s.phase.isEngaging = true := by
    rcases hf.phase with hp | ⟨agent, hp, -⟩
    · exact (congrArg Phase.isEngaging hp).symm.trans he
    · rw [show s.phase = _ from hp]
      rfl
  obtain ⟨hu, hc⟩ := h hph
  have hwait : .onCallerGone ∈ s.callerListeners ∧ s.phase.isUnchecked = false := by
    unfold Timely at ht
    cases hs : s.phase with
    | poll | ring => simp only [hs] at ht; exact ⟨ht, rfl⟩
    | goodbye | returned => rw [hs] at hph; exact absurd hph Bool.false_ne_true
    | _ => simp only [hs] at ht
  refine ⟨hf.unheard.trans ?_, hf.unchecked.trans ?_⟩
  · show (s.unheard || !s.callerListeners.contains .onCallerGone) = false
    simp [hu, hwait.1]
  · show (s.unchecked || s.phase.isUnchecked) = false
    rw [hc, hwait.2]
    rfl

theorem heard_agentDestroyed {s : State} (h : Heard s) {attempt : Nat}
    (ht : Timely s (.agentDestroyed attempt)) : Heard (s.agentDestroyed attempt) := by
  unfold State.agentDestroyed
  extract_lets t
  split
  · rename_i hmem
    intro he
    rw [onLegGone_phase] at he
    unfold Timely at ht
    cases hs : s.phase with
    | goodbye | returned => exact absurd ((congrArg _ hs).symm.trans he) Bool.false_ne_true
    | _ => simp only [hs] at ht; exact absurd hmem ht
  · exact h

theorem heard_step {o : Options} {s s' : State} {e : Event} (h : Heard s) (ht : Timely s e)
    (hs : step o s e = some s') : Heard s' := by
  cases steps_of_step hs with
  | mediaDown | goodbyePlayed => exact fun he => absurd he Bool.false_ne_true
  | connectFailed | endpointFailed => exact heard_fail _
  | iterate now agent hp => exact heard_iterate h hp now agent
  | ringTimeout agent hp =>
    have hu := h (by rw [hp]; rfl)
    simp only [State.cancel, hp]
    exact fun _ => hu
  | ringResumed agent uac hp => exact heard_ringResumed h hp
  | callerDestroyed => exact heard_callerDestroyed h ht
  | agentDestroyed => exact heard_agentDestroyed h ht
  | lateAnswer | lateFailure => exact h
  | mediaUp hp | connected hp | voiceReady hp | promptPlayed _ hp | pollElapsed hp
  | endpointReady _ _ hp | answered _ hp | declined _ hp | modified _ hp | modifyFailed _ hp
  | musicStopped _ hp | bridged _ hp | bridgeFailed _ hp =>
    -- the flags stay, and the phase in which the promise settles is an engaging one
    exact fun _ => h (by rw [hp]; rfl)

/-- Timely hang-ups are noticed: in every run in which the legs are destroyed only at those
    points, the protocol holds in every state. -/
theorem protocol_of_timely {o : Options} {es : List Event}
    (h : Meets (step o) Timely init es) : Throughout (step o) Protocol init es := by
  refine (protocol_iff_noticed o es).mpr (Meets.of_invariant (I := Heard) (P := Timely)
    (fun _ _ _ => heard_step) ?_ (fun _ => ⟨rfl, rfl⟩) h)
  intro s e hh ht
  unfold Noticed
  split <;> rename_i hp
  · unfold Timely at ht
    simpa only [hp] using ht
  · exact fun _ _ => (hh (by rw [hp]; rfl)).1
  · exact hh (by rw [hp]; rfl)
  · exact hh (by rw [hp]; rfl)
  · trivial

/-- One agent declines, the caller hangs up while the second one's phone rings. -/
example : Meets (step ⟨"Sales", "local_stream://moh", 20000, 60000, "1002", "Caller", "pbx.local"⟩)
    Timely init
    [.ensured true, .connected, .voiceReady, .promptPlayed 0,
     .iterate 10 (some ⟨"1001", "sip:1001@10.0.0.5:5060", "Agent One"⟩), .endpointReady "v=0",
     .declined, .ringResumed,
     .iterate 20 (some ⟨"1003", "sip:1003@10.0.0.6:5060", "Agent Two"⟩), .endpointReady "v=0",
     .callerDestroyed, .ringResumed, .iterate 30 none] := by
  decide

end CallNet.EnqueueCaller
