import CallNet.Engine.MediaConnection
import CallNet.ForStd.Machine
import CallNet.ForStd.Slots

/-!
# One connection to the media server

A lost connection is always reconnected.  That there is one connection at most is another
matter: a call that finds none connects by itself, next to the other calls and to the
reconnect loop, and each attempt that succeeds replaces the connection there is.  So it holds
exactly as long as every attempt starts alone (`oneConnection_throughout_iff`).
-/

namespace CallNet

open Machine (Meets Throughout)

/-- The run will go on. -/
def InitRun.active (r : InitRun) : Bool := r.stage = .connecting ∨ r.stage = .sleeping

namespace MediaConnection

/-! ## The property and its condition -/

/-- How many connections are live or being established. -/
def opened (s : MediaConnection) : Nat :=
  s.conns.countP (· = true) + s.runs.countP InitRun.connecting

/-- The reconnect loop waits for its timer or attempts to connect. -/
def Scheduled (s : MediaConnection) : Prop :=
  s.timers ≠ [] ∨ ∃ r ∈ s.runs, r.reconnect = true ∧ r.active = true

structure OneConnection (s : MediaConnection) : Prop where
  single : s.opened ≤ 1
  /-- The live connection is the one of the system. -/
  held : ∀ conn, s.conns[conn]? = some true → s.ms = some conn
  /-- After a loss there is a reconnect until there is a connection. -/
  scheduled : s.lost = true → s.Scheduled

/-- The event starts an attempt to connect. -/
def Attempts (s : MediaConnection) : MediaEvent → Prop
  | .ensureConnected => s.ms = none
  | .wake _ | .fire _ => True
  | .connected _ | .refused _ | .ended _ | .error _ => False

/-- An attempt starts only when no connection is live or being established. -/
def StartsAlone (s : MediaConnection) (e : MediaEvent) : Prop :=
  (step s e).isSome = true → s.Attempts e → s.opened = 0

section Steps

variable {s s' : MediaConnection} {e : MediaEvent} {run : Nat} {r r' : InitRun}

/-! ## Steps -/

/-- What an event does. -/
inductive Steps (s : MediaConnection) : MediaEvent → MediaConnection → Prop
  | ensureConnected : Steps s .ensureConnected s.ensureConnected
  | connected {run : Nat} {r : InitRun} (hr : s.runs[run]? = some r)
      (hstage : r.stage = .connecting) : Steps s (.connected run) (s.connected run r)
  | refused {run : Nat} {r : InitRun} (hr : s.runs[run]? = some r)
      (hstage : r.stage = .connecting) : Steps s (.refused run) (s.refused run r)
  | wake {run : Nat} {r : InitRun} (hr : s.runs[run]? = some r) (hstage : r.stage = .sleeping) :
      Steps s (.wake run)
        (s.setRun run { r with attempt := r.attempt + 1, stage := .connecting })
  | fire (timer : Nat) (reconnecting : Bool) :
      Steps s (.fire timer)
        ({ s with timers := s.timers.eraseIdx timer, reconnecting }.callInitialize true)
  | ended (conn : Nat) : Steps s (.ended conn) (s.down conn)
  | error (conn : Nat) : Steps s (.error conn) (s.down conn)

theorem steps_of_step (h : s.step e = some s') : s.Steps e s' := by
  cases e with
  | ensureConnected =>
    cases h
    exact .ensureConnected
  | connected run | refused run | wake run =>
    simp only [step] at h
    split at h
    · obtain ⟨hstage, h⟩ := Option.ite_none_right_eq_some.mp h
      cases h
      constructor
      · assumption
      · exact hstage
    · cases h
  | fire timer =>
    simp only [step] at h
    split at h
    · split at h
      · cases h
        exact .fire timer s.reconnecting
      · cases h
        exact .fire timer true
    · cases h
  | ended conn | error conn =>
    obtain ⟨-, h⟩ := Option.ite_none_right_eq_some.mp h
    cases h
    constructor

/-! ## How many connections a step opens -/

theorem opened_callInitialize (s : MediaConnection) (reconnect : Bool) :
    (s.callInitialize reconnect).opened = s.opened + 1 := by
  show s.conns.countP _ + (s.runs ++ [_]).countP _ = _
  rw [List.countP_append]
  rfl

theorem opened_setRun (hr : s.runs[run]? = some r) (r' : InitRun) :
    (s.setRun run r').opened + (if r.connecting then 1 else 0) =
      s.opened + (if r'.connecting then 1 else 0) := by
  obtain ⟨hlt, hget⟩ := List.getElem?_eq_some_iff.mp hr
  have hset := List.countP_set (p := InitRun.connecting) (a := r') hlt
  rw [hget] at hset
  have hpos : r.connecting = true → 0 < s.runs.countP InitRun.connecting := fun h =>
    List.countP_pos_iff.mpr ⟨r, List.mem_of_getElem? hr, h⟩
  show s.conns.countP _ + (s.runs.set run r').countP _ + _ = s.conns.countP _ + _ + _
  rw [hset]
  by_cases h : r.connecting = true
  · have := hpos h
    simp only [if_pos h]
    omega
  · simp only [if_neg h]
    omega

theorem opened_finish (s : MediaConnection) (r : InitRun) (ok : Bool) :
    (s.finish r ok).opened = s.opened := by
  unfold finish
  split <;> rfl

theorem opened_down_le (s : MediaConnection) (conn : Nat) : (s.down conn).opened ≤ s.opened := by
  have hset : (s.conns.set conn false).countP (· = true) ≤ s.conns.countP (· = true) := by
    by_cases hlt : conn < s.conns.length
    · rw [List.countP_set hlt]
      simp only [Bool.false_eq_true, decide_false, if_false]
      omega
    · have hsame : s.conns.set conn false = s.conns :=
        List.set_eq_of_length_le (Nat.le_of_not_lt hlt)
      exact Nat.le_of_eq (by rw [hsame])
  have hopened : (s.down conn).opened =
      (s.conns.set conn false).countP (· = true) + s.runs.countP InitRun.connecting := by
    unfold down scheduleReconnect
    dsimp only
    split
    · rfl
    · split <;> rfl
  rw [hopened]
  exact Nat.add_le_add_right hset _

/-- A connected attempt is a connection now. -/
theorem opened_connected (hr : s.runs[run]? = some r) (hstage : r.stage = .connecting) :
    (s.connected run r).opened = s.opened := by
  have hset : s.conns.countP (· = true) +
      (s.runs.set run { r with stage := .returned true }).countP InitRun.connecting + 1 =
      s.opened := by
    have h := opened_setRun hr { r with stage := .returned true }
    rwa [show r.connecting = true by simp [InitRun.connecting, hstage]] at h
  have hconns : (s.conns ++ [true]).countP (· = true) = s.conns.countP (· = true) + 1 := by
    rw [List.countP_append]
    rfl
  unfold connected
  rw [opened_finish]
  show (s.conns ++ [true]).countP _ + (s.runs.set run _).countP _ = _
  omega

/-- A step opens one connection, if it starts an attempt; no step opens more. -/
theorem opened_step (h : step s e = some s') :
    (s.Attempts e → s'.opened = s.opened + 1) ∧ (¬s.Attempts e → s'.opened ≤ s.opened) := by
  cases steps_of_step h with
  | ensureConnected =>
    unfold ensureConnected
    cases hms : s.ms with
    | none => exact ⟨fun _ => opened_callInitialize s false, fun h => absurd hms h⟩
    | some conn => exact ⟨fun h => absurd (hms.symm.trans h) nofun, fun _ => Nat.le_refl _⟩
  | connected hr hstage =>
    exact ⟨False.elim, fun _ => Nat.le_of_eq (opened_connected hr hstage)⟩
  | @refused run r hr hstage =>
    refine ⟨False.elim, fun _ => ?_⟩
    unfold refused
    split
    · have hset := opened_setRun hr { r with stage := .sleeping }
      simp only [InitRun.connecting, hstage, reduceCtorEq, decide_false, decide_true, if_true,
        Bool.false_eq_true, if_false] at hset
      omega
    · have hset := opened_setRun hr { r with stage := .returned false }
      simp only [InitRun.connecting, hstage, reduceCtorEq, decide_false, decide_true, if_true,
        Bool.false_eq_true, if_false] at hset
      rw [opened_finish]
      omega
  | @wake run r hr hstage =>
    refine ⟨fun _ => ?_, fun h => absurd trivial h⟩
    have hset := opened_setRun hr { r with attempt := r.attempt + 1, stage := .connecting }
    simp only [InitRun.connecting, hstage, reduceCtorEq, decide_false, decide_true, if_true,
      Bool.false_eq_true, if_false] at hset
    omega
  | fire timer reconnecting =>
    -- the timers and the flag do not count
    refine ⟨fun _ => ?_, fun h => absurd trivial h⟩
    exact opened_callInitialize
      { s with timers := s.timers.eraseIdx timer, reconnecting } true
  | ended conn | error conn => exact ⟨False.elim, fun _ => opened_down_le s conn⟩

/-! ## The reference -/

theorem held_finish {ok : Bool} :
    (s.finish r ok).ms = s.ms ∧ (s.finish r ok).conns = s.conns := by
  unfold finish
  split <;> exact ⟨rfl, rfl⟩

/-- With an attempt under way no connection is live. -/
theorem not_live_of_connecting (h : s.opened ≤ 1) (hr : s.runs[run]? = some r)
    (hstage : r.stage = .connecting) {conn : Nat} : s.conns[conn]? ≠ some true := by
  intro hconn
  have hlive : 0 < s.conns.countP (· = true) :=
    List.countP_pos_iff.mpr ⟨true, List.mem_of_getElem? hconn, rfl⟩
  have hrun : 0 < s.runs.countP InitRun.connecting := List.countP_pos_iff.mpr
    ⟨r, List.mem_of_getElem? hr, by simp [InitRun.connecting, hstage]⟩
  unfold opened at h
  omega

theorem held_connected (h : s.opened ≤ 1) (hr : s.runs[run]? = some r)
    (hstage : r.stage = .connecting) {conn : Nat}
    (hconn : (s.connected run r).conns[conn]? = some true) :
    (s.connected run r).ms = some conn := by
  unfold connected at hconn ⊢
  rw [held_finish.2] at hconn
  rw [held_finish.1]
  rcases List.getElem?_concat_cases hconn with ⟨-, hold⟩ | ⟨rfl, -⟩
  · exact absurd hold (not_live_of_connecting h hr hstage)
  · rfl

theorem held_down (h : ∀ conn, s.conns[conn]? = some true → s.ms = some conn) {lost conn : Nat}
    (hconn : (s.down lost).conns[conn]? = some true) : (s.down lost).ms = some conn := by
  have hconns : (s.down lost).conns = s.conns.set lost false := by
    unfold down scheduleReconnect
    dsimp only
    split
    · rfl
    · split <;> rfl
  rw [hconns] at hconn
  rcases List.getElem?_set_cases hconn with ⟨-, hfalse⟩ | ⟨hne, hold⟩
  · cases hfalse
  · -- another connection is the one of the system, so the event is a stale one
    have hms := h conn hold
    unfold down
    rw [if_pos]
    · exact hms
    · dsimp only
      rw [hms]
      exact fun hsame => hne (Option.some.inj hsame)

/-! ## The reconnect loop -/

/-- After a loss, and while `reconnecting` says so, there is a reconnect. -/
def Loops (s : MediaConnection) : Prop := s.reconnecting = true ∨ s.lost = true → s.Scheduled

theorem Scheduled.setRun (h : s.Scheduled) (hr : s.runs[run]? = some r)
    (hkeep : r.reconnect = true → r'.reconnect = true ∧ r'.active = true) :
    (s.setRun run r').Scheduled := by
  rcases h with htimers | ⟨q, hq, hreconnect, hactive⟩
  · exact .inl htimers
  · obtain ⟨j, hj⟩ := List.getElem?_of_mem hq
    by_cases hsame : j = run
    · -- the run that goes on is the one of the loop
      subst hsame
      rw [hr] at hj
      cases hj
      have hget := List.getElem?_set_at (a := r') hr
      exact .inr ⟨r', List.mem_of_getElem? hget, hkeep hreconnect⟩
    · have hget : (s.runs.set run r')[j]? = some q := by
        rw [List.getElem?_set_ne (Ne.symm hsame)]
        exact hj
      exact .inr ⟨q, List.mem_of_getElem? hget, hreconnect, hactive⟩

theorem Loops.callInitialize (h : s.Loops) (reconnect : Bool) :
    (s.callInitialize reconnect).Loops := by
  intro hloop
  rcases h hloop with htimers | ⟨q, hq, hkept⟩
  · exact .inl htimers
  · exact .inr ⟨q, List.mem_append_left _ hq, hkept⟩

/-- The loop's own call of `initialize` is a reconnect. -/
theorem scheduled_callInitialize (s : MediaConnection) : (s.callInitialize true).Scheduled :=
  .inr ⟨⟨true, 1, .connecting⟩, List.mem_append_right _ (List.mem_singleton.mpr rfl), rfl, rfl⟩

theorem Loops.connected (h : s.Loops) (hr : s.runs[run]? = some r) :
    (s.connected run r).Loops := by
  intro hloop
  cases hreconnect : r.reconnect with
  | true =>
    -- the loop is done
    simp [MediaConnection.connected, finish, hreconnect] at hloop
  | false =>
    simp only [MediaConnection.connected, finish, hreconnect, Bool.false_eq_true, if_false,
      or_false] at hloop ⊢
    have hkept : (s.setRun run { r with stage := .returned true }).Scheduled :=
      (h (.inl hloop)).setRun hr fun htrue => nomatch hreconnect.symm.trans htrue
    rw [hreconnect] at hkept
    exact hkept

theorem Loops.refused (h : s.Loops) (hr : s.runs[run]? = some r) : (s.refused run r).Loops := by
  unfold MediaConnection.refused
  split
  · exact fun hloop => (h hloop).setRun hr fun htrue => ⟨htrue, rfl⟩
  · intro hloop
    cases hreconnect : r.reconnect with
    | true =>
      -- the next attempts wait for the retry timer
      refine .inl ?_
      simp [finish, hreconnect]
    | false =>
      simp only [finish, hreconnect, Bool.false_eq_true, if_false] at hloop ⊢
      have hkept : (s.setRun run { r with stage := .returned false }).Scheduled :=
        (h hloop).setRun hr fun htrue => nomatch hreconnect.symm.trans htrue
      rw [hreconnect] at hkept
      exact hkept

theorem Loops.down (h : s.Loops) (conn : Nat) : (s.down conn).Loops := by
  intro hloop
  unfold MediaConnection.down scheduleReconnect at hloop ⊢
  dsimp only at hloop ⊢
  split at hloop
  · rw [if_pos ‹_›]
    exact h hloop
  · rw [if_neg ‹_›]
    split
    · rename_i hreconnecting
      exact h (.inl hreconnecting)
    · exact .inl (List.append_ne_nil_of_right_ne_nil _ nofun)

theorem Loops.step (h : s.Loops) (hstep : s.step e = some s') : s'.Loops := by
  cases steps_of_step hstep with
  | ensureConnected =>
    unfold ensureConnected
    split
    · exact h
    · exact h.callInitialize false
  | connected hr _ => exact h.connected hr
  | refused hr _ => exact h.refused hr
  | wake hr _ => exact fun hloop => (h hloop).setRun hr fun htrue => ⟨htrue, rfl⟩
  | fire timer reconnecting => exact fun _ => scheduled_callInitialize _
  | ended conn | error conn => exact h.down conn

/-! ## Steps of one connection -/

/-- A step with one connection at most leaves the live one in the reference. -/
theorem held_step (h : s.OneConnection) (hstep : s.step e = some s') {conn : Nat}
    (hconn : s'.conns[conn]? = some true) : s'.ms = some conn := by
  cases steps_of_step hstep with
  | ensureConnected =>
    unfold ensureConnected at hconn ⊢
    split at hconn
    · rw [if_pos ‹_›]
      exact h.held conn hconn
    · rw [if_neg ‹_›]
      exact h.held conn hconn
  | connected hr hstage => exact held_connected h.single hr hstage hconn
  | refused hr hstage =>
    unfold refused at hconn ⊢
    split at hconn
    · rw [if_pos ‹_›]
      exact h.held conn hconn
    · rw [if_neg ‹_›, held_finish.1]
      rw [held_finish.2] at hconn
      exact h.held conn hconn
  | wake hr hstage => exact h.held conn hconn
  | fire timer reconnecting => exact h.held conn hconn
  | ended lost | error lost => exact held_down h.held hconn

end Steps

/-! ## Runs -/

theorem loops_init : init.Loops := fun h => by rcases h with h | h <;> cases h

/-- In every run there is a reconnect after a loss, until a connection is live. -/
theorem loops_throughout (es : List MediaEvent) : Throughout step Loops init es :=
  Machine.throughout_of_invariant (fun _ _ _ h hstep => h.step hstep) loops_init

theorem oneConnection_init : init.OneConnection := ⟨by decide, nofun, nofun⟩

/-- Every state of a run has one connection at most, in the system's reference, and a reconnect
    after a loss, if and only if every attempt to connect starts alone. -/
theorem oneConnection_throughout_iff (es : List MediaEvent) :
    Throughout step OneConnection init es ↔ Meets step StartsAlone init es := by
  refine Machine.throughout_iff_meets (I := fun s => OneConnection s ∧ Loops s)
    (P := fun _ _ => True) (fun _ h => h.1) ?_ ?_ ?_ ⟨oneConnection_init, loops_init⟩
    (Machine.meets_of_mem fun _ _ => trivial)
  · rintro s e s' ⟨hone, hloops⟩ - halone hstep
    have hloops' := hloops.step hstep
    refine ⟨⟨?_, fun conn => held_step hone hstep, fun hlost => hloops' (.inr hlost)⟩, hloops'⟩
    obtain ⟨hattempt, hother⟩ := opened_step hstep
    by_cases hstarts : s.Attempts e
    · have hzero := halone (by rw [hstep]; rfl) hstarts
      have := hattempt hstarts
      omega
    · exact Nat.le_trans (hother hstarts) hone.single
  · intro s e s' _ _ hstep hone' _ hstarts
    have hone : s'.opened ≤ 1 := hone'.single
    have := (opened_step hstep).1 hstarts
    omega
  · intro s e hnone hsome
    rw [hnone] at hsome
    cases hsome

/-- Two calls come while there is no connection. -/
def twoCalls : List MediaEvent :=
  [.connected 0, .ended 0, .ensureConnected, .ensureConnected]

theorem not_oneConnection_twoCalls : ¬Throughout step OneConnection init twoCalls := by
  intro h
  have hrun : Machine.run step init twoCalls = some
      { ms := none, reconnecting := true, conns := [false], timers := [.first], lost := true
        runs := [⟨false, 1, .returned true⟩, ⟨false, 1, .connecting⟩, ⟨false, 1, .connecting⟩] } := by
    decide
  exact absurd (h.last hrun).single (by decide)

end MediaConnection

end CallNet
