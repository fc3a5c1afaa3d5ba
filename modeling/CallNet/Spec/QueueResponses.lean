import CallNet.Engine.EnqueueCaller
import Mathlib.Algebra.GroupWithZero.Nat

/-!
# The final response of a queued call

`enqueueCaller` answers the caller when `connectCaller` succeeds and refuses the call with
480 when it does not.  Once it has returned, the caller has had exactly one final response,
whatever happened in between.
-/

namespace CallNet.EnqueueCaller

/-- The final responses the stack itself sends: the 200 of `connectCaller`, or what it sent
    before it failed. -/
def Event.replies : Event → Nat
  | .connected => 1
  | .connectFailed sent => if sent then 1 else 0
  | _ => 0

def Act.isSend : Act → Bool
  | .send _ _ => true
  | _ => false

/-- The responses the function sent itself. -/
def State.sends (s : State) : Nat := s.trace.countP Act.isSend

/-- The final responses of a run that reached `s`. -/
def responses (es : List Event) (s : State) : Nat := (es.map Event.replies).sum + s.sends

/-- The awaits before the caller is answered. -/
def Phase.isOpen : Phase → Bool
  | .ensureConnected | .connectCaller => true
  | _ => false

namespace State

theorem sends_emit (s : State) {a : Act} (ha : a.isSend = false) : (s.emit a).sends = s.sends := by
  unfold sends emit
  rw [List.countP_append, List.countP_singleton, ha]
  rfl

theorem sends_reply (s : State) (status : Nat) (reason : String) :
    (s.emit (.send status reason)).sends = s.sends + 1 := by
  unfold sends emit
  rw [List.countP_append]
  rfl

end State

/-- `t` comes from `s` without a response and without passing the answer of the caller. -/
structure Silent (s t : State) : Prop where
  flag : t.finalResponseSent = s.finalResponseSent
  sends : t.sends = s.sends
  isOpen : t.phase.isOpen = s.phase.isOpen
  bridged : t.bridged = s.bridged

theorem Silent.refl (s : State) : Silent s s := ⟨rfl, rfl, rfl, rfl⟩

namespace Silent

variable {s t : State}

theorem emit (h : Silent s t) {a : Act} (ha : a.isSend = false) : Silent s (t.emit a) :=
  ⟨h.flag, (t.sends_emit ha).trans h.sends, h.isOpen, h.bridged⟩

theorem hook (h : Silent s t) (k : Hook) : Silent s (t.hook k) := h.emit rfl

/-- From one await to another, both after the caller was answered. -/
theorem goto (h : Silent s t) (hs : s.phase.isOpen = false) {p : Phase} (hp : p.isOpen = false) :
    Silent s (t.goto p) := ⟨h.flag, h.sends, hp.trans hs.symm, h.bridged⟩

theorem teardown (h : Silent s t) : Silent s t.teardown := by
  unfold State.teardown
  split
  · exact h
  · have hset : Silent s { t with torndown := true, callerGone := true } :=
      ⟨h.flag, h.sends, h.isOpen, h.bridged⟩
    exact hset.emit rfl

theorem notifyEnded (h : Silent s t) : Silent s t.notifyEnded := by
  unfold State.notifyEnded
  split
  · exact h
  · have hset : Silent s { t with endedNotified := true } :=
      ⟨h.flag, h.sends, h.isOpen, h.bridged⟩
    exact hset.hook _

theorem cancel (h : Silent s t) (attempt : Nat) : Silent s (t.cancel attempt) := by
  unfold State.cancel
  split
  · rename_i agent hp
    have hset : Silent s
        { t with phase := .ring agent (some false), givenUp := attempt :: t.givenUp } := by
      refine ⟨h.flag, h.sends, ?_, h.bridged⟩
      rw [← h.isOpen, hp]
      rfl
    exact hset.emit rfl
  · exact h

theorem runListener (h : Silent s t) (l : Listener) : Silent s (t.runListener l) := by
  cases l with
  | onCallerGone =>
    have hset : Silent s { t with abandoned := true } := ⟨h.flag, h.sends, h.isOpen, h.bridged⟩
    simp only [State.runListener, State.onCallerGone]
    split
    · exact hset.cancel _
    · exact hset
  | onLegGone attempt =>
    have hlegs := (h.emit (a := .destroyUac attempt) rfl).emit (a := .destroyEndpoint attempt) rfl
    exact hlegs.notifyEnded.teardown

/-- The handlers of a `destroy` event, one after the other. -/
theorem handlers (h : Silent s t) (ls : List Listener) :
    Silent s (ls.foldl State.runListener t) := by
  induction ls generalizing t with
  | nil => exact h
  | cons l ls ih => exact ih (h.runListener l)

theorem callerDestroyed (s : State) : Silent s s.callerDestroyed := by
  have hset : Silent s { s with
      callerGone := true
      unheard := s.unheard || !s.callerListeners.contains Listener.onCallerGone
      unchecked := s.unchecked || s.phase.isUnchecked } := ⟨rfl, rfl, rfl, rfl⟩
  exact (hset.emit (a := .callerDestroyed) rfl).handlers s.callerListeners

theorem agentDestroyed (s : State) (attempt : Nat) : Silent s (s.agentDestroyed attempt) := by
  simp only [State.agentDestroyed]
  split
  · have hmark : Silent s { s with
        agentGone := s.agentGone || (attempt == s.attempts && s.phase.isBridging)
        unheard := true } := ⟨rfl, rfl, rfl, rfl⟩
    exact hmark.runListener (.onLegGone attempt)
  · exact ⟨rfl, rfl, rfl, rfl⟩

/-- The body of the loop: ring an agent, wait, or tell the caller that the wait is over. -/
theorem iterate {s : State} (hs : s.phase.isOpen = false) (now : Nat) (agent : Option Agent) :
    Silent s (s.iterate now agent) := by
  have hrefl := Silent.refl s
  unfold State.iterate
  split
  · cases agent with
    | none => exact hrefl.goto hs rfl
    | some agent =>
      have hset : Silent s { s with attempts := s.attempts + 1, agentGone := false } :=
        ⟨rfl, rfl, rfl, rfl⟩
      exact (hset.hook _).goto hs rfl
  · split
    · exact (hrefl.hook .onAbandoned).notifyEnded.teardown.goto hs rfl
    · exact (hrefl.emit rfl).goto hs rfl

theorem ringResumed {s : State} (hs : s.phase.isOpen = false) (agent : Agent) (uac : Bool) :
    Silent s (s.ringResumed agent uac) := by
  have hset : Silent s { s with cancelActiveRing := none } := ⟨rfl, rfl, rfl, rfl⟩
  simp only [State.ringResumed]
  split
  · -- the attempt is dropped, with the agent's leg if there is one
    cases uac with
    | true => exact ((hset.emit (a := .destroyUac s.attempts) rfl).emit rfl).goto hs rfl
    | false =>
      have hdrop := hset.emit (a := .destroyEndpoint s.attempts) rfl
      simp only [Bool.false_eq_true, if_false]
      split
      · exact (hdrop.hook (.onAgentNoAnswer agent.extension)).goto hs rfl
      · exact hdrop.goto hs rfl
  · exact (hset.emit (a := .modify s.attempts) rfl).goto hs rfl

theorem attemptFailed {s : State} (hs : s.phase.isOpen = false) (agent : Agent) :
    Silent s (s.attemptFailed agent) := by
  have hlegs := ((Silent.refl s).emit (a := .destroyUac s.attempts) rfl).emit
    (a := .destroyEndpoint s.attempts) rfl
  exact (hlegs.hook (.onAgentNoAnswer agent.extension)).goto hs rfl

end Silent

/-! ## The invariant -/

/-- With `n` responses sent by the stack: one response once the caller was answered or
    refused, none before. -/
structure Replied (n : Nat) (s : State) : Prop where
  total : n + s.sends = if s.phase.isOpen then 0 else 1
  flag : s.finalResponseSent = !s.phase.isOpen
  bridged : s.phase.isOpen = true → s.bridged = false

theorem replied_init : Replied 0 init := ⟨rfl, rfl, fun _ => rfl⟩

theorem Replied.silent {n : Nat} {s t : State} (h : Replied n s) (hst : Silent s t) :
    Replied n t where
  total := by
    rw [hst.sends, hst.isOpen]
    exact h.total
  flag := by
    rw [hst.flag, hst.isOpen]
    exact h.flag
  bridged := by
    rw [hst.bridged, hst.isOpen]
    exact h.bridged

/-- The outer `catch` refuses the call unless a response was sent. -/
theorem replied_fail {n : Nat} {s : State} (htotal : n + s.sends = if s.finalResponseSent then 1 else 0)
    (hb : s.bridged = true → s.finalResponseSent = true) : Replied n s.fail := by
  unfold State.fail
  split
  · rename_i hbridged
    have hsent := hb hbridged
    rw [hsent] at htotal
    exact ⟨htotal, hsent, fun hopen => absurd hopen Bool.false_ne_true⟩
  · have hclose := (Silent.refl s).notifyEnded.teardown
    dsimp only
    split
    · rename_i hsent
      have hflag := hclose.flag.symm.trans hsent
      rw [hflag, ← hclose.sends] at htotal
      exact ⟨htotal, hsent, fun hopen => absurd hopen Bool.false_ne_true⟩
    · rename_i hsent
      have hflag : s.finalResponseSent = false := by
        rw [← hclose.flag]
        exact Bool.eq_false_iff.mpr hsent
      rw [hflag, ← hclose.sends] at htotal
      refine ⟨?_, rfl, fun hopen => absurd hopen Bool.false_ne_true⟩
      have hone := State.sends_reply { s.notifyEnded.teardown with finalResponseSent := true } 480
        "Temporarily Unavailable"
      have hsame : ({ s.notifyEnded.teardown with finalResponseSent := true } : State).sends =
          s.notifyEnded.teardown.sends := rfl
      rw [hsame] at hone
      show n + State.sends (State.emit _ _) = 1
      rw [hone]
      simp only [Bool.false_eq_true, if_false] at htotal
      omega

/-- One event adds the response the stack sends, and keeps the invariant. -/
theorem replied_step {o : Options} {n : Nat} {s s' : State} {e : Event} (h : Replied n s)
    (hstep : step o s e = some s') : Replied (n + e.replies) s' := by
  have htotal := h.total
  have hflag := h.flag
  have hrefl := Silent.refl s
  -- an await after the caller was answered, and the events that are silent there
  have hlater : ∀ {p : Phase}, s.phase = p → p.isOpen = false → s.phase.isOpen = false := by
    intro p hp hopen
    rw [hp, hopen]
  cases steps_of_step hstep with
  | mediaUp hp =>
    have hbridged := h.bridged (by rw [hp]; rfl)
    rw [hp] at htotal hflag
    exact ⟨htotal, hflag, fun _ => hbridged⟩
  | mediaDown hp =>
    rw [hp] at htotal hflag
    have hsent : s.finalResponseSent = false := hflag
    have hone := State.sends_reply { s with finalResponseSent := true } 480
      "Temporarily Unavailable"
    have hsame : ({ s with finalResponseSent := true } : State).sends = s.sends := rfl
    simp only [hsent, Bool.false_eq_true, if_false]
    refine ⟨?_, rfl, fun hopen => absurd hopen Bool.false_ne_true⟩
    show n + State.sends (State.emit _ _) = 1
    rw [hone, hsame]
    have hzero : n + s.sends = 0 := htotal
    omega
  | connected hp =>
    rw [hp] at htotal
    refine ⟨?_, rfl, fun hopen => absurd hopen Bool.false_ne_true⟩
    show n + 1 + s.sends = 1
    have hzero : n + s.sends = 0 := htotal
    omega
  | connectFailed sent hp =>
    have hbridged := h.bridged (by rw [hp]; rfl)
    rw [hp] at htotal
    have hzero : n + s.sends = 0 := htotal
    refine replied_fail ?_ fun hb => absurd (hbridged.symm.trans hb) Bool.false_ne_true
    show n + Event.replies (.connectFailed sent) + s.sends = if sent then 1 else 0
    simp only [Event.replies]
    omega
  | endpointFailed agent hp =>
    rw [hp] at htotal hflag
    have hsent : s.finalResponseSent = true := hflag
    refine replied_fail ?_ fun _ => hsent
    rw [hsent]
    exact htotal
  | voiceReady hp => exact h.silent ((hrefl.emit rfl).goto (hlater hp rfl) rfl)
  | promptPlayed now hp =>
    have hset : Silent s { s with
        callerListeners := s.callerListeners ++ [Listener.onCallerGone]
        deadline := now + o.maxWaitMs } := ⟨rfl, rfl, rfl, rfl⟩
    exact h.silent (((hset.hook _).emit rfl).goto (hlater hp rfl) rfl)
  | iterate now agent hp => exact h.silent (Silent.iterate (hlater hp rfl) now agent)
  | pollElapsed hp | answered agent hp | declined agent hp =>
    exact h.silent (hrefl.goto (hlater hp rfl) rfl)
  | endpointReady sdp agent hp =>
    have hset : Silent s { s with cancelActiveRing := some s.attempts } := ⟨rfl, rfl, rfl, rfl⟩
    exact h.silent ((hset.emit rfl).goto (hlater hp rfl) rfl)
  | ringTimeout agent hp => exact h.silent (hrefl.cancel _)
  | ringResumed agent uac hp => exact h.silent (Silent.ringResumed (hlater hp rfl) agent uac)
  | modified agent hp => exact h.silent ((hrefl.emit rfl).goto (hlater hp rfl) rfl)
  | modifyFailed agent hp | bridgeFailed agent hp =>
    exact h.silent (Silent.attemptFailed (hlater hp rfl) agent)
  | musicStopped agent hp =>
    have hswap : Silent s s.swapListeners := ⟨rfl, rfl, rfl, rfl⟩
    exact h.silent ((hswap.emit rfl).goto (hlater hp rfl) rfl)
  | bridged agent hp =>
    rw [hp] at htotal hflag
    refine ⟨?_, hflag, fun hopen => absurd hopen Bool.false_ne_true⟩
    exact (congrArg (n + ·) (State.sends_emit _ rfl)).trans htotal
  | goodbyePlayed hp =>
    exact h.silent ((hrefl.hook .onTimeout).notifyEnded.teardown.goto (hlater hp rfl) rfl)
  | callerDestroyed => exact h.silent (Silent.callerDestroyed s)
  | agentDestroyed attempt => exact h.silent (Silent.agentDestroyed s attempt)
  | lateAnswer attempt =>
    have hset : Silent s { s with givenUp := s.givenUp.erase attempt } := ⟨rfl, rfl, rfl, rfl⟩
    exact h.silent (hset.emit rfl)
  | lateFailure attempt => exact h.silent ⟨rfl, rfl, rfl, rfl⟩

theorem replied_run {o : Options} {n : Nat} {s s' : State} {es : List Event} (h : Replied n s)
    (hrun : Machine.run (step o) s es = some s') :
    Replied (n + (es.map Event.replies).sum) s' := by
  induction es generalizing n s with
  | nil =>
    simp only [Machine.run, Option.some.injEq] at hrun
    subst hrun
    exact h
  | cons e es ih =>
    obtain ⟨t, ht, hrest⟩ := Machine.run_cons.mp hrun
    have := ih (replied_step h ht) hrest
    rwa [List.map_cons, List.sum_cons, ← Nat.add_assoc]

/-- Once `enqueueCaller` has returned, the caller has had exactly one final response. -/
theorem responses_eq_one {o : Options} {es : List Event} {s : State} {outcome : Outcome}
    (hrun : Machine.run (step o) init es = some s) (hp : s.phase = .returned outcome) :
    responses es s = 1 := by
  have htotal := (replied_run replied_init hrun).total
  rw [hp, Nat.zero_add] at htotal
  exact htotal

end CallNet.EnqueueCaller
