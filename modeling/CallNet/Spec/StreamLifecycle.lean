import CallNet.ForStd.Machine
import CallNet.ForStd.Slots
import CallNet.Streaming.MediaStream

/-!
# The life of a media session

`lifecycle_throughout_iff` says what the server asks of providers and hooks.  A message can be
decoded and the hooks it reaches do not throw; audio, digits and marks come before the `onStop`
of their session; and a connection that closes has started one session at most.
-/

namespace CallNet.Streaming

/-- The session that a call brings something for, other than its start and its end. -/
def HookCall.carries : HookCall → Option Nat
  | .onAudio k | .onDtmf k _ | .onMark k _ => some k
  | .onStart _ | .onStop _ => none

namespace MediaStreams

open Machine (Meets Throughout)

variable {bufferFrom : JsValue → Bool} {s s' : MediaStreams} {e : StreamEvent} {i j k : Nat}
  {c d : StreamConnection} {throws : HookCall → Bool}

/-! ## The property and its condition -/

/-- The session belongs to a connection. -/
def Started (s : MediaStreams) (k : Nat) : Prop :=
  ∃ (i : Nat) (c : StreamConnection), s.connections[i]? = some c ∧ k ∈ c.started

/-- `onStop` was called for the session. -/
def Stopped (s : MediaStreams) (k : Nat) : Prop := .onStop k ∈ s.calls

structure Lifecycle (s : MediaStreams) : Prop where
  /-- No message made the handler throw. -/
  quiet : s.fault ≠ some .message
  /-- A session that was passed to `onStart` is one of a connection. -/
  known : ∀ k, .onStart k ∈ s.calls → s.Started k
  once : ∀ k, s.calls.count (.onStop k) ≤ 1
  /-- Nothing is brought for a session after its `onStop`. -/
  last : s.calls.Pairwise fun a b => ∀ k, a = .onStop k → b.carries ≠ some k
  /-- The sessions of a closed connection were stopped. -/
  stopped : ∀ (i : Nat) (c : StreamConnection), s.connections[i]? = some c → c.closed = true →
    ∀ k ∈ c.started, s.Stopped k
  released : (∀ c ∈ s.connections, c.closed = true) → ∀ k, s.owner.has k = false

/-- What a message may ask for on a connection. -/
def Admits (s : MediaStreams) (c : StreamConnection) (throws : HookCall → Bool) :
    StreamRequest → Prop
  | .start details => (pick (details.parameters.get "mode")).isSome = true ∧
      throws (.onStart s.nextSession) = false
  | .audio => Carries (.onAudio (c.session.getD s.nextSession))
  | .dtmf digit => Carries (.onDtmf (c.session.getD s.nextSession) digit)
  | .mark name => Carries (.onMark (c.session.getD s.nextSession) name)
  | .stop => c.stopped = false → ∀ k, c.session = some k → throws (.onStop k) = false
where
  /-- The session was not stopped, and its route takes the call. -/
  Carries (call : HookCall) : Prop :=
    (∀ k, call.carries = some k → ¬ s.Stopped k) ∧ throws call = false

def InOrder (bufferFrom : JsValue → Bool) (s : MediaStreams) : StreamEvent → Prop
  | .connect .. => True
  | .message i m throws => ∀ c, s.connections[i]? = some c →
    ∃ rs, requests bufferFrom c m = some rs ∧ ∀ r ∈ rs, s.Admits c throws r
  | .close i _ => ∀ c, s.connections[i]? = some c → c.started.length ≤ 1

/-- An event that happens is in order. -/
def Respects (bufferFrom : JsValue → Bool) (s : MediaStreams) (e : StreamEvent) : Prop :=
  (step bufferFrom s e).isSome = true → InOrder bufferFrom s e

/-! ## Connections and their sessions -/

structure Connected (s : MediaStreams) (c : StreamConnection) : Prop where
  session : ∀ k, c.session = some k → k ∈ c.started
  none : c.session = none → c.started = []
  nodup : c.started.Nodup
  fresh : ∀ k ∈ c.started, k < s.nextSession
  running : c.stopped = false → ∀ k ∈ c.started, ¬ s.Stopped k
  stopped : c.stopped = true → ∃ k ∈ c.started, s.Stopped k
  /-- A connection stops one session only. -/
  single : ∀ k ∈ c.started, ∀ k' ∈ c.started, s.Stopped k → s.Stopped k' → k = k'
  closed : c.closed = true → ∀ k ∈ c.started, s.Stopped k

structure Inv (s : MediaStreams) : Prop where
  quiet : s.fault ≠ some .message
  connections : ∀ (i : Nat) (c : StreamConnection), s.connections[i]? = some c → s.Connected c
  apart : ∀ (i j : Nat) (c d : StreamConnection) (k : Nat), s.connections[i]? = some c →
    s.connections[j]? = some d → k ∈ c.started → k ∈ d.started → i = j
  known : ∀ k, .onStart k ∈ s.calls → s.Started k
  ended : ∀ k, s.Stopped k → s.Started k
  once : ∀ k, s.calls.count (.onStop k) ≤ 1
  last : s.calls.Pairwise fun a b => ∀ k, a = .onStop k → b.carries ≠ some k
  owner : ∀ k, s.owner.has k = true ↔ s.Started k ∧ ¬ s.Stopped k

theorem Inv.lifecycle (h : s.Inv) : s.Lifecycle := by
  refine ⟨h.quiet, h.known, h.once, h.last, fun i c hc => (h.connections i c hc).closed,
    fun hall k => ?_⟩
  refine Bool.eq_false_iff.mpr fun hk => ?_
  obtain ⟨⟨i, c, hc, hmem⟩, hrunning⟩ := (h.owner k).mp hk
  exact hrunning ((h.connections i c hc).closed (hall c (List.mem_of_getElem? hc)) k hmem)

theorem inv_init : init.Inv :=
  ⟨nofun, nofun, nofun, nofun, nofun, fun _ => Nat.zero_le _, .nil, fun k => iff_of_false nofun
    fun h => by obtain ⟨⟨i, c, hc, -⟩, -⟩ := h; cases hc⟩

/-- What was fresh is nobody's. -/
theorem Inv.not_started (h : s.Inv) : ¬ s.Started s.nextSession := by
  rintro ⟨i, c, hc, hmem⟩
  exact Nat.lt_irrefl _ ((h.connections i c hc).fresh _ hmem)

/-- What was not stopped or started is on the connection as before. -/
theorem Connected.mono (h : s.Connected c) (hstop : ∀ k ∈ c.started, s'.Stopped k ↔ s.Stopped k)
    (hnext : s.nextSession ≤ s'.nextSession) : s'.Connected c where
  session := h.session
  none := h.none
  nodup := h.nodup
  fresh k hk := Nat.lt_of_lt_of_le (h.fresh k hk) hnext
  running hr k hk hs := h.running hr k hk ((hstop k hk).mp hs)
  stopped hr := by
    obtain ⟨k, hk, hs⟩ := h.stopped hr
    exact ⟨k, hk, (hstop k hk).mpr hs⟩
  single a ha b hb hsa hsb := h.single a ha b hb ((hstop a ha).mp hsa) ((hstop b hb).mp hsb)
  closed hr k hk := (hstop k hk).mpr (h.closed hr k hk)

/-- The sessions after one connection changed. -/
theorem started_set (hc : s.connections[i]? = some c) (hs : s'.connections = s.connections.set i d)
    {new : List Nat} (hd : d.started = c.started ++ new) (k : Nat) :
    s'.Started k ↔ s.Started k ∨ k ∈ new := by
  unfold Started
  rw [hs]
  constructor
  · rintro ⟨j, x, hx, hk⟩
    rcases List.getElem?_set_cases hx with ⟨rfl, rfl⟩ | ⟨-, hx⟩
    · rw [hd] at hk
      rcases List.mem_append.mp hk with hk | hk
      · exact .inl ⟨j, c, hc, hk⟩
      · exact .inr hk
    · exact .inl ⟨j, x, hx, hk⟩
  · have hself : (s.connections.set i d)[i]? = some d := List.getElem?_set_at hc
    rintro (⟨j, x, hx, hk⟩ | hk)
    · by_cases hj : j = i
      · subst hj
        cases hc.symm.trans hx
        exact ⟨j, d, hself, hd ▸ List.mem_append_left _ hk⟩
      · exact ⟨j, x, (List.getElem?_set_ne (Ne.symm hj)).trans hx, hk⟩
    · exact ⟨i, d, hself, hd ▸ List.mem_append_right _ hk⟩

/-- Sessions stay apart if a connection gets only what is nobody's. -/
theorem apart_set (h : s.Inv) (hc : s.connections[i]? = some c) {new : List Nat}
    (hd : d.started = c.started ++ new) (hnew : ∀ k ∈ new, ¬ s.Started k) :
    ∀ (a b : Nat) (x y : StreamConnection) (k : Nat), (s.connections.set i d)[a]? = some x →
      (s.connections.set i d)[b]? = some y → k ∈ x.started → k ∈ y.started → a = b := by
  have hone : ∀ (b : Nat) (y : StreamConnection) (k : Nat), b ≠ i → s.connections[b]? = some y →
      k ∈ d.started → k ∈ y.started → i = b := by
    intro b y k hb hy hk hky
    rw [hd] at hk
    rcases List.mem_append.mp hk with hk | hk
    · exact h.apart i b c y k hc hy hk hky
    · exact absurd ⟨b, y, hy, hky⟩ (hnew k hk)
  intro a b x y k hx hy hkx hky
  rcases List.getElem?_set_cases hx with ⟨rfl, rfl⟩ | ⟨ha, hx'⟩
  · rcases List.getElem?_set_cases hy with ⟨rfl, -⟩ | ⟨hb, hy'⟩
    · rfl
    · exact hone b y k hb hy' hkx hky
  · rcases List.getElem?_set_cases hy with ⟨rfl, rfl⟩ | ⟨-, hy'⟩
    · exact (hone a x k ha hx' hky hkx).symm
    · exact h.apart a b x y k hx' hy' hkx hky

/-- A call that brings something for a running session. -/
theorem inv_call (h : s.Inv) {call : HookCall} (hcarries : call.carries = some k)
    (hrunning : ¬ s.Stopped k) : Inv { s with calls := s.calls ++ [call] } := by
  have hstop : ∀ k', HookCall.onStop k' ∈ s.calls ++ [call] ↔ s.Stopped k' := fun k' => by
    refine ⟨fun hmem => ?_, fun hmem => List.mem_append_left _ hmem⟩
    rcases List.mem_append.mp hmem with hmem | hmem
    · exact hmem
    · rw [← List.mem_singleton.mp hmem] at hcarries
      cases hcarries
  have hstart : ∀ k', HookCall.onStart k' ∈ s.calls ++ [call] → .onStart k' ∈ s.calls :=
    fun k' hmem => by
      rcases List.mem_append.mp hmem with hmem | hmem
      · exact hmem
      · rw [← List.mem_singleton.mp hmem] at hcarries
        cases hcarries
  refine ⟨h.quiet, fun i c hc => (h.connections i c hc).mono (fun k' _ => hstop k') (Nat.le_refl _), h.apart,
    fun k' hk' => h.known k' (hstart k' hk'), fun k' hk' => h.ended k' ((hstop k').mp hk'),
    fun k' => ?_, ?_, fun k' => ?_⟩
  · have hnot : call ≠ .onStop k' := by
      rintro rfl
      cases hcarries
    rw [List.count_append, List.count_singleton, if_neg (by simpa using hnot)]
    exact h.once k'
  · rw [List.pairwise_append]
    refine ⟨h.last, List.pairwise_singleton _ _, fun a ha b hb k' hak => ?_⟩
    cases List.mem_singleton.mp hb
    rw [hcarries]
    intro hk
    cases hk
    rw [hak] at ha
    exact hrunning ha
  · exact (h.owner k').trans (and_congr_right fun _ => not_congr (hstop k').symm)

/-- A new session, with an owner. -/
theorem inv_start (h : s.Inv) (hc : s.connections[i]? = some c) (hopen : c.closed = false)
    (route : Route) : Inv { s with
      connections := s.connections.set i
        { c with session := some s.nextSession, started := c.started ++ [s.nextSession] }
      owner := s.owner.set s.nextSession route
      calls := s.calls ++ [.onStart s.nextSession]
      nextSession := s.nextSession + 1 } := by
  let d : StreamConnection :=
    { c with session := some s.nextSession, started := c.started ++ [s.nextSession] }
  have hd : d.started = c.started ++ [s.nextSession] := rfl
  have hnew : ¬ s.Started s.nextSession := h.not_started
  have hstop : ∀ k, HookCall.onStop k ∈ s.calls ++ [.onStart s.nextSession] ↔ s.Stopped k :=
    fun k => by simp [Stopped]
  have hidle : ¬ s.Stopped s.nextSession := fun hs => hnew (h.ended _ hs)
  have hconn := h.connections i c hc
  have hcases : ∀ {k : Nat}, k ∈ d.started → k ∈ c.started ∨ k = s.nextSession := fun hk => by
    rcases List.mem_append.mp hk with hk | hk
    · exact .inl hk
    · exact .inr (List.mem_singleton.mp hk)
  have hstarted : ∀ {t : MediaStreams}, t.connections = s.connections.set i d →
      ∀ k, t.Started k ↔ s.Started k ∨ k = s.nextSession := fun ht k => by
    rw [started_set hc ht hd, List.mem_singleton]
  refine ⟨h.quiet, fun j x hx => ?_, apart_set h hc hd fun k hk => ?_, fun k hk => ?_,
    fun k hk => ?_, fun k => ?_, ?_, fun k => ?_⟩
  · rcases List.getElem?_set_cases hx with ⟨-, rfl⟩ | ⟨-, hx⟩
    · refine ⟨fun k hk => ?_, nofun, ?_, fun k hk => ?_, fun hr k hk hs => ?_, fun hr => ?_,
        fun a ha b hb hsa hsb => ?_, fun hclosed => ?_⟩
      · cases hk
        exact List.mem_append_right _ (List.mem_singleton_self _)
      · refine List.nodup_append.mpr ⟨hconn.nodup, List.nodup_singleton _, fun a ha b hb => ?_⟩
        rw [List.mem_singleton.mp hb]
        exact Nat.ne_of_lt (hconn.fresh a ha)
      · rcases hcases hk with hk | rfl
        · exact Nat.lt_succ_of_lt (hconn.fresh k hk)
        · exact Nat.lt_succ_self _
      · rcases hcases hk with hk | rfl
        · exact hconn.running hr k hk ((hstop k).mp hs)
        · exact hidle ((hstop _).mp hs)
      · obtain ⟨k, hk, hs⟩ := hconn.stopped hr
        exact ⟨k, List.mem_append_left _ hk, (hstop k).mpr hs⟩
      · -- the new session is not a stopped one
        rcases hcases ha with ha | rfl
        · rcases hcases hb with hb | rfl
          · exact hconn.single a ha b hb ((hstop a).mp hsa) ((hstop b).mp hsb)
          · exact absurd ((hstop _).mp hsb) hidle
        · exact absurd ((hstop _).mp hsa) hidle
      · rw [show c.closed = true from hclosed] at hopen
        cases hopen
    · exact (h.connections j x hx).mono (fun k _ => hstop k) (Nat.le_succ _)
  · rw [List.mem_singleton.mp hk]
    exact hnew
  · refine (hstarted rfl k).mpr ?_
    rcases List.mem_append.mp hk with hk | hk
    · exact .inl (h.known k hk)
    · cases List.mem_singleton.mp hk
      exact .inr rfl
  · exact (hstarted rfl k).mpr (.inl (h.ended k ((hstop k).mp hk)))
  · rw [List.count_append, List.count_singleton, if_neg (by simp)]
    exact h.once k
  · rw [List.pairwise_append]
    refine ⟨h.last, List.pairwise_singleton _ _, fun a ha b hb k hak => ?_⟩
    cases List.mem_singleton.mp hb
    exact nofun
  · have hhas : (s.owner.set s.nextSession route).has k = true ↔
        s.owner.has k = true ∨ k = s.nextSession := by
      unfold OrdMap.has
      rw [OrdMap.get?_set]
      split
      · rename_i heq
        simp [heq]
      · rename_i hne
        simp [hne]
    show (s.owner.set s.nextSession route).has k = true ↔ _
    rw [hhas, hstarted rfl, h.owner]
    constructor
    · rintro (⟨hk, hs⟩ | rfl)
      · exact ⟨.inl hk, fun hs' => hs ((hstop k).mp hs')⟩
      · exact ⟨.inr rfl, fun hs' => hidle ((hstop _).mp hs')⟩
    · rintro ⟨hk | rfl, hs⟩
      · exact .inl ⟨hk, fun hs' => hs ((hstop k).mpr hs')⟩
      · exact .inr rfl

/-- A connection's end, when its session had been stopped or there was none. -/
theorem inv_closed (h : s.Inv) (hc : s.connections[i]? = some c) (hone : c.started.length ≤ 1)
    (hdone : c.session = .none ∨ c.stopped = true) :
    (s.setConnection i { c with closed := true }).Inv := by
  let d : StreamConnection := { c with closed := true }
  have hd : d.started = c.started ++ [] := (List.append_nil _).symm
  have hconn := h.connections i c hc
  have hstarted : ∀ k, (s.setConnection i d).Started k ↔ s.Started k := fun k => by
    rw [started_set hc rfl hd, or_iff_left (List.not_mem_nil)]
  have hall : ∀ k ∈ c.started, s.Stopped k := by
    intro k hk
    rcases hdone with hnone | hstopped
    · rw [hconn.none hnone] at hk
      cases hk
    · obtain ⟨k', hk', hs⟩ := hconn.stopped hstopped
      -- the only session is the one that was stopped
      exact List.eq_of_mem_of_length_le_one hone hk' hk ▸ hs
  refine ⟨h.quiet, fun j x hx => ?_, apart_set h hc hd fun k hk => absurd hk List.not_mem_nil,
    fun k hk => (hstarted k).mpr (h.known k hk), fun k hk => (hstarted k).mpr (h.ended k hk),
    h.once, h.last, fun k => ?_⟩
  · rcases List.getElem?_set_cases hx with ⟨-, rfl⟩ | ⟨-, hx⟩
    · exact ⟨hconn.session, hconn.none, hconn.nodup, hconn.fresh, hconn.running, hconn.stopped,
        hconn.single, fun _ => hall⟩
    · exact (h.connections j x hx).mono (fun _ _ => .rfl) (Nat.le_refl _)
  · exact (h.owner k).trans (and_congr_left fun _ => (hstarted k).symm)

/-- The end of a session; the connection may be closed with it. -/
theorem inv_stop (h : s.Inv) (hc : s.connections[i]? = some c) (hsession : c.session = some k)
    (hrunning : c.stopped = false) (closed : Bool)
    (hone : closed = true → c.started.length ≤ 1) : Inv { s with
      connections := s.connections.set i { c with stopped := true, closed := closed }
      owner := s.owner.delete k
      calls := s.calls ++ [.onStop k] } := by
  let d : StreamConnection := { c with stopped := true, closed := closed }
  have hd : d.started = c.started ++ [] := (List.append_nil _).symm
  have hconn := h.connections i c hc
  have hk : k ∈ c.started := hconn.session k hsession
  have hidle : ¬ s.Stopped k := hconn.running hrunning k hk
  have hstarted : ∀ {t : MediaStreams}, t.connections = s.connections.set i d →
      ∀ k', t.Started k' ↔ s.Started k' := fun ht k' => by
    rw [started_set hc ht hd, or_iff_left List.not_mem_nil]
  have hstop : ∀ k', HookCall.onStop k' ∈ s.calls ++ [.onStop k] ↔ s.Stopped k' ∨ k' = k :=
    fun k' => by simp [Stopped]
  -- no other session of the connection has ended: it was running
  have hself : ∀ k' ∈ c.started, HookCall.onStop k' ∈ s.calls ++ [.onStop k] → k' = k :=
    fun k' hk' hs => ((hstop k').mp hs).resolve_left (hconn.running hrunning k' hk')
  refine ⟨h.quiet, fun j x hx => ?_, apart_set h hc hd fun k hk => absurd hk List.not_mem_nil,
    fun k' hk' => ?_, fun k' hk' => ?_, fun k' => ?_, ?_, fun k' => ?_⟩
  · rcases List.getElem?_set_cases hx with ⟨-, rfl⟩ | ⟨hj, hx'⟩
    · refine ⟨hconn.session, hconn.none, hconn.nodup, hconn.fresh, nofun,
        fun _ => ⟨k, hk, (hstop k).mpr (.inr rfl)⟩, fun a ha b hb hsa hsb => ?_,
        fun hclosed k' hk' => ?_⟩
      · rw [hself a ha hsa, hself b hb hsb]
      · exact (hstop k').mpr (.inr (List.eq_of_mem_of_length_le_one (hone hclosed) hk' hk))
    · refine (h.connections j x hx').mono (fun k' hk' => ?_) (Nat.le_refl _)
      refine (hstop k').trans (or_iff_left fun heq => ?_)
      exact hj (h.apart j i x c k hx' hc (heq ▸ hk') hk)
  · refine (hstarted rfl k').mpr (h.known k' ?_)
    rcases List.mem_append.mp hk' with hk' | hk'
    · exact hk'
    · cases List.mem_singleton.mp hk'
  · refine (hstarted rfl k').mpr ?_
    rcases (hstop k').mp hk' with hs | rfl
    · exact h.ended k' hs
    · exact ⟨i, c, hc, hk⟩
  · rw [List.count_append, List.count_singleton]
    by_cases heq : k' = k
    · have hzero : s.calls.count (.onStop k') = 0 :=
        List.count_eq_zero.mpr (heq ▸ hidle)
      rw [hzero]
      split <;> omega
    · rw [if_neg (by simpa using Ne.symm heq)]
      exact h.once k'
  · rw [List.pairwise_append]
    refine ⟨h.last, List.pairwise_singleton _ _, fun a ha b hb k hak => ?_⟩
    cases List.mem_singleton.mp hb
    exact nofun
  · have hhas : (s.owner.delete k).has k' = true ↔ s.owner.has k' = true ∧ k' ≠ k := by
      unfold OrdMap.has
      rw [OrdMap.get?_delete]
      split
      · rename_i heq
        simp [heq]
      · rename_i hne
        simp [hne]
    show (s.owner.delete k).has k' = true ↔ _
    rw [hhas, hstarted rfl, h.owner]
    constructor
    · rintro ⟨⟨hk', hs⟩, hne⟩
      exact ⟨hk', fun hs' => ((hstop k').mp hs').elim hs hne⟩
    · rintro ⟨hk', hs⟩
      exact ⟨⟨hk', fun hs' => hs ((hstop k').mpr (.inl hs'))⟩,
        fun heq => hs ((hstop k').mpr (.inr heq))⟩

/-! ## Requests -/

/-- A message asks for one thing at most, but for the first one of FreeSWITCH. -/
theorem requests_cases {m : MediaMessage} {rs : List StreamRequest}
    (h : requests bufferFrom c m = some rs) :
    rs = [] ∨
    (∃ r, rs = [r] ∧ (c.session = none → (∃ details, r = .start details) ∨ r = .stop)) ∨
    ∃ details, c.session = none ∧ rs = [.start details, .audio] := by
  have hnone : some [] = some rs → rs = [] := fun h => (Option.some.inj h).symm
  unfold requests at h
  split at h
  · cases Option.some.inj h
    unfold fsRequests
    split
    · rename_i hsession
      split
      · exact .inr (.inr ⟨_, hsession, rfl⟩)
      · exact .inr (.inl ⟨_, rfl, fun _ => .inl ⟨_, rfl⟩⟩)
    · rename_i hsession
      split
      · exact .inr (.inl ⟨_, rfl, fun hnone => absurd hnone hsession⟩)
      · exact .inl rfl
  · split at h
    · exact .inl (hnone h)
    · cases h
    · rename_i msg hmsg
      unfold jsonRequests at h
      extract_lets event details at h
      -- the branches in the order of the source: start, media, then the others
      split at h
      · obtain ⟨details, -, rfl⟩ := Option.map_eq_some_iff.mp h
        exact .inr (.inl ⟨_, rfl, fun _ => .inl ⟨_, rfl⟩⟩)
      split at h
      · split at h
        · exact .inl (hnone h)
        · rename_i hsession
          split at h
          · cases Option.some.inj h
            exact .inr (.inl ⟨_, rfl, fun hnone => absurd hnone hsession⟩)
          · cases h
      split at h
      · split at h
        · rename_i hsession _
          split at h
          · obtain ⟨text, -, rfl⟩ := Option.map_eq_some_iff.mp h
            refine .inr (.inl ⟨_, rfl, fun hnone => ?_⟩)
            rw [hsession] at hnone
            cases hnone
          · exact .inl (hnone h)
        · exact .inl (hnone h)
      split at h
      · split at h
        · rename_i hsession _
          split at h
          · obtain ⟨text, -, rfl⟩ := Option.map_eq_some_iff.mp h
            refine .inr (.inl ⟨_, rfl, fun hnone => ?_⟩)
            rw [hsession] at hnone
            cases hnone
          · exact .inl (hnone h)
        · exact .inl (hnone h)
      split at h
      · cases Option.some.inj h
        exact .inr (.inl ⟨_, rfl, fun _ => .inr rfl⟩)
      · exact .inl (hnone h)

variable {r : StreamRequest}

/-- A call for the session of the connection. -/
theorem inv_forward (h : s.Inv) {call : HookCall} (hcarries : call.carries = some k)
    (ha : Admits.Carries s throws call) :
    (s.forward k call throws).2 = false ∧ (s.forward k call throws).1.Inv := by
  refine ⟨?_, inv_call h hcarries (ha.1 k hcarries)⟩
  rw [forward, ha.2, Bool.and_false]

/-- The call that a request is for a session. -/
def callFor (k : Nat) : StreamRequest → Option HookCall
  | .audio => some (.onAudio k)
  | .dtmf digit => some (.onDtmf k digit)
  | .mark name => some (.onMark k name)
  | .start _ | .stop => none

theorem callFor_cases (r : StreamRequest) : (∃ details, r = .start details) ∨ r = .stop ∨
    ∀ k, ∃ call, callFor k r = some call ∧ call.carries = some k := by
  cases r with
  | start details => exact .inl ⟨details, rfl⟩
  | stop => exact .inr (.inl rfl)
  | audio => exact .inr (.inr fun k => ⟨.onAudio k, rfl, rfl⟩)
  | dtmf digit => exact .inr (.inr fun k => ⟨.onDtmf k digit, rfl, rfl⟩)
  | mark name => exact .inr (.inr fun k => ⟨.onMark k name, rfl, rfl⟩)

theorem perform_start {details : StreamStartMeta} (hc : s.connections[i]? = some c) :
    s.perform i throws (.start details) = s.startSession i c details throws := by
  simp only [perform, hc]

theorem perform_stop (hc : s.connections[i]? = some c) :
    s.perform i throws .stop = s.fireStop i c throws := by
  simp only [perform, hc]

theorem perform_none {call : HookCall} (hc : s.connections[i]? = some c)
    (hsession : c.session = none) (hcall : callFor k r = some call) :
    s.perform i throws r = (s, false) := by
  cases r with
  | start details => cases hcall
  | stop => cases hcall
  | audio => simp only [perform, hc, hsession]
  | dtmf digit => simp only [perform, hc, hsession]
  | mark name => simp only [perform, hc, hsession]

theorem perform_call {call : HookCall} (hc : s.connections[i]? = some c)
    (hsession : c.session = some k) (hcall : callFor k r = some call) :
    s.perform i throws r = s.forward k call throws := by
  cases r with
  | start details => cases hcall
  | stop => cases hcall
  | audio => cases hcall; simp only [perform, hc, hsession]
  | dtmf digit => cases hcall; simp only [perform, hc, hsession]
  | mark name => cases hcall; simp only [perform, hc, hsession]

theorem admits_call {call : HookCall} (hcall : callFor (c.session.getD s.nextSession) r = some call) :
    s.Admits c throws r ↔ Admits.Carries s throws call := by
  cases r with
  | start details => cases hcall
  | stop => cases hcall
  | audio => cases hcall; rfl
  | dtmf digit => cases hcall; rfl
  | mark name => cases hcall; rfl

theorem fireStop_running (hsession : c.session = some k) (hstopped : c.stopped = false) :
    s.fireStop i c throws = (s.setConnection i { c with stopped := true }).onStop k throws := by
  simp only [fireStop, hsession, hstopped, Bool.false_eq_true, if_false]

theorem fireStop_idle (hidle : c.session = none ∨ c.stopped = true) :
    s.fireStop i c throws = (s, false) := by
  unfold fireStop
  split
  · rename_i hsession
    rcases hidle with hnone | hstopped
    · rw [hsession] at hnone
      cases hnone
    · rw [if_pos hstopped]
  · rfl

/-- A connection has nothing to stop, or a session that runs. -/
theorem idle_or_running (c : StreamConnection) : (c.session = none ∨ c.stopped = true) ∨
    ∃ k, c.session = some k ∧ c.stopped = false := by
  cases hsession : c.session with
  | none => exact .inl (.inl rfl)
  | some k =>
    cases hstopped : c.stopped with
    | true => exact .inl (.inr rfl)
    | false => exact .inr ⟨k, rfl, rfl⟩

theorem inv_perform (h : s.Inv) (hc : s.connections[i]? = some c) (hopen : c.closed = false)
    (ha : s.Admits c throws r) :
    (s.perform i throws r).2 = false ∧ (s.perform i throws r).1.Inv := by
  rcases callFor_cases r with ⟨details, rfl⟩ | rfl | hcall
  · obtain ⟨hpick, hthrows⟩ := ha
    obtain ⟨route, hroute⟩ := Option.isSome_iff_exists.mp hpick
    rw [perform_start hc]
    dsimp only [startSession, onStart]
    rw [hroute]
    exact ⟨hthrows, inv_start h hc hopen route⟩
  · rw [perform_stop hc]
    rcases idle_or_running c with hidle | ⟨k, hsession, hstopped⟩
    · rw [fireStop_idle hidle]
      exact ⟨rfl, h⟩
    · rw [fireStop_running hsession hstopped]
      refine ⟨?_, inv_stop h hc hsession hstopped c.closed fun hclosed => ?_⟩
      · show (_ && throws (.onStop k)) = false
        rw [ha hstopped k hsession, Bool.and_false]
      · rw [hopen] at hclosed
        cases hclosed
  · obtain ⟨call, hfor, hcarries⟩ := hcall (c.session.getD s.nextSession)
    cases hsession : c.session with
    | none =>
      rw [perform_none hc hsession hfor]
      exact ⟨rfl, h⟩
    | some k =>
      have ha := (admits_call hfor).mp ha
      rw [hsession, Option.getD_some] at hfor hcarries
      rw [perform_call hc hsession hfor]
      exact inv_forward h hcarries ha

/-- A call that was in order was one for a running session. -/
theorem carries_of_forward (h : s.Inv) (hc : s.connections[i]? = some c)
    (hsession : c.session = some k) {call : HookCall} (hcarries : call.carries = some k)
    (hquiet : (s.forward k call throws).2 = false) (hlast : (s.forward k call throws).1.Lifecycle) :
    Admits.Carries s throws call := by
  have hrunning : ¬ s.Stopped k := fun hs =>
    (List.pairwise_append.mp hlast.last).2.2 _ hs call (List.mem_singleton_self _) k rfl hcarries
  have howner : s.owner.has k = true :=
    (h.owner k).mpr ⟨⟨i, c, hc, (h.connections i c hc).session k hsession⟩, hrunning⟩
  refine ⟨fun k' hk' => ?_, ?_⟩
  · cases hcarries.symm.trans hk'
    exact hrunning
  · rw [forward, howner, Bool.true_and] at hquiet
    exact hquiet

/-- What was done rightly was admitted. -/
theorem admits_of_perform (h : s.Inv) (hc : s.connections[i]? = some c)
    (hsome : c.session = none → (∃ details, r = .start details) ∨ r = .stop)
    (hquiet : (s.perform i throws r).2 = false) (hlast : (s.perform i throws r).1.Lifecycle) :
    s.Admits c throws r := by
  have hconn := h.connections i c hc
  rcases callFor_cases r with ⟨details, rfl⟩ | rfl | hcall
  · rw [perform_start hc] at hquiet
    dsimp only [startSession, onStart] at hquiet
    split at hquiet
    · cases hquiet
    · rename_i route hroute
      exact ⟨by rw [hroute]; rfl, hquiet⟩
  · intro hstopped k hsession
    have hk := hconn.session k hsession
    have howner : s.owner.has k = true :=
      (h.owner k).mpr ⟨⟨i, c, hc, hk⟩, hconn.running hstopped k hk⟩
    rw [perform_stop hc, fireStop_running hsession hstopped] at hquiet
    have hquiet : (s.owner.has k && throws (.onStop k)) = false := hquiet
    rwa [howner, Bool.true_and] at hquiet
  · obtain ⟨call, hfor, hcarries⟩ := hcall (c.session.getD s.nextSession)
    cases hsession : c.session with
    | none =>
      rcases hsome hsession with ⟨details, rfl⟩ | rfl
      · cases hfor
      · cases hfor
    | some k =>
      refine (admits_call hfor).mpr ?_
      rw [hsession, Option.getD_some] at hfor hcarries
      rw [perform_call hc hsession hfor] at hquiet hlast
      exact carries_of_forward h hc hsession hcarries hquiet hlast

theorem performAll_cons (rs : List StreamRequest) : s.performAll i throws (r :: rs) =
    if (s.perform i throws r).2 then s.perform i throws r
    else (s.perform i throws r).1.performAll i throws rs := by
  rw [performAll]
  obtain ⟨t, threw⟩ := s.perform i throws r
  cases threw <;> rfl

theorem performAll_one : s.performAll i throws [r] = s.perform i throws r := by
  rw [performAll_cons]
  split
  · rfl
  · rename_i hquiet
    rw [performAll]
    exact Prod.ext rfl (by simpa using hquiet)

/-- The connection after its session has started. -/
theorem connection_of_start {details : StreamStartMeta} (hc : s.connections[i]? = some c) :
    (s.perform i throws (.start details)).1.connections[i]? =
      some { c with session := some s.nextSession, started := c.started ++ [s.nextSession] } := by
  rw [perform_start hc]
  dsimp only [startSession, onStart]
  split <;> exact List.getElem?_set_at hc

theorem stopped_of_start {details : StreamStartMeta} (hc : s.connections[i]? = some c) :
    (s.perform i throws (.start details)).1.Stopped k ↔ s.Stopped k := by
  rw [perform_start hc]
  dsimp only [startSession, onStart]
  unfold Stopped
  split <;> simp [setConnection]

/-- A message that is in order. -/
theorem inv_performAll {m : MediaMessage} {rs : List StreamRequest} (h : s.Inv)
    (hc : s.connections[i]? = some c) (hopen : c.closed = false)
    (hrs : requests bufferFrom c m = some rs) (ha : ∀ r ∈ rs, s.Admits c throws r) :
    (s.performAll i throws rs).2 = false ∧ (s.performAll i throws rs).1.Inv := by
  rcases requests_cases hrs with rfl | ⟨r, rfl, -⟩ | ⟨details, hsession, rfl⟩
  · exact ⟨rfl, h⟩
  · rw [performAll_one]
    exact inv_perform h hc hopen (ha r (List.mem_singleton_self _))
  · have hstart := inv_perform h hc hopen (ha _ List.mem_cons_self)
    have haudio := ha .audio (List.mem_cons_of_mem _ (List.mem_singleton_self _))
    rw [performAll_cons, hstart.1, if_neg Bool.false_ne_true, performAll_one]
    refine inv_perform hstart.2 (connection_of_start hc) hopen ?_
    rw [Admits, hsession] at haudio
    exact ⟨fun k hk hs => haudio.1 k hk ((stopped_of_start hc).mp hs), haudio.2⟩

theorem admits_of_performAll {m : MediaMessage} {rs : List StreamRequest} (h : s.Inv)
    (hc : s.connections[i]? = some c) (hopen : c.closed = false)
    (hrs : requests bufferFrom c m = some rs) (hquiet : (s.performAll i throws rs).2 = false)
    (hlast : (s.performAll i throws rs).1.Lifecycle) : ∀ r ∈ rs, s.Admits c throws r := by
  rcases requests_cases hrs with rfl | ⟨r, rfl, hsome⟩ | ⟨details, hsession, rfl⟩
  · exact nofun
  · rw [performAll_one] at hquiet hlast
    intro r' hr'
    rw [List.mem_singleton.mp hr']
    exact admits_of_perform h hc hsome hquiet hlast
  · rw [performAll_cons, performAll_one] at hquiet hlast
    split at hquiet
    · rename_i hthrew
      rw [hthrew] at hquiet
      cases hquiet
    · rename_i hstarted
      rw [if_neg hstarted] at hlast
      have hstart : s.Admits c throws (.start details) := by
        rw [perform_start hc] at hstarted
        dsimp only [startSession, onStart] at hstarted
        split at hstarted
        · exact absurd rfl hstarted
        · rename_i route hroute
          exact ⟨by rw [hroute]; rfl, by simpa using hstarted⟩
      have haudio := admits_of_perform (inv_perform h hc hopen hstart).2 (connection_of_start hc)
        nofun hquiet hlast
      intro r hr
      rcases List.mem_cons.mp hr with rfl | hr
      · exact hstart
      · rw [List.mem_singleton.mp hr, Admits, hsession]
        exact ⟨fun k hk hs => haudio.1 k hk ((stopped_of_start hc).mpr hs), haudio.2⟩

/-! ## Events -/

theorem inv_connect (h : s.Inv) {d : StreamConnection} (hd : d.started = [])
    (hsession : d.session = none) (hstopped : d.stopped = false) (hopen : d.closed = false) :
    Inv { s with connections := s.connections ++ [d] } := by
  have hstarted : ∀ k, Started { s with connections := s.connections ++ [d] } k ↔ s.Started k := by
    intro k
    constructor
    · rintro ⟨j, x, hx, hk⟩
      rcases List.getElem?_concat_cases hx with ⟨-, hx⟩ | ⟨-, rfl⟩
      · exact ⟨j, x, hx, hk⟩
      · rw [hd] at hk
        cases hk
    · rintro ⟨j, x, hx, hk⟩
      exact ⟨j, x, List.getElem?_concat_left hx, hk⟩
  refine ⟨h.quiet, fun j x hx => ?_, fun a b x y k hx hy hkx hky => ?_,
    fun k hk => (hstarted k).mpr (h.known k hk), fun k hk => (hstarted k).mpr (h.ended k hk),
    h.once, h.last, fun k => (h.owner k).trans (and_congr_left fun _ => (hstarted k).symm)⟩
  · rcases List.getElem?_concat_cases hx with ⟨-, hx⟩ | ⟨-, rfl⟩
    · exact (h.connections j x hx).mono (fun _ _ => .rfl) (Nat.le_refl _)
    · have hnone : ∀ k, k ∉ x.started := fun k hk => by
        rw [hd] at hk
        cases hk
      refine ⟨fun k hk => ?_, fun _ => hd, hd ▸ .nil, fun k hk => absurd hk (hnone k),
        fun _ k hk => absurd hk (hnone k), fun hr => ?_, fun k hk => absurd hk (hnone k),
        fun _ k hk => absurd hk (hnone k)⟩
      · rw [hsession] at hk
        cases hk
      · rw [hstopped] at hr
        cases hr
  · rcases List.getElem?_concat_cases hx with ⟨-, hx⟩ | ⟨-, rfl⟩
    · rcases List.getElem?_concat_cases hy with ⟨-, hy⟩ | ⟨-, rfl⟩
      · exact h.apart a b x y k hx hy hkx hky
      · rw [hd] at hky
        cases hky
    · rw [hd] at hkx
      cases hkx

/-- An exception in the handler of `close` is not one of a message. -/
theorem inv_caught {r : MediaStreams × Bool} (h : r.1.Inv) : (caught r .close).Inv := by
  unfold caught
  split
  · exact ⟨nofun, fun i c hc => (h.connections i c hc).mono (fun _ _ => .rfl) (Nat.le_refl _),
      h.apart, h.known, h.ended, h.once, h.last, h.owner⟩
  · exact h

theorem inv_close (h : s.Inv) (hc : s.connections[i]? = some c) (hone : c.started.length ≤ 1) :
    (s.onClose i c throws).1.Inv := by
  unfold onClose
  rcases idle_or_running c with hidle | ⟨k, hsession, hstopped⟩
  · rw [fireStop_idle (c := { c with closed := true }) hidle]
    exact inv_closed h hc hone hidle
  · rw [fireStop_running (c := { c with closed := true }) hsession hstopped]
    have hinv := inv_stop h hc hsession hstopped true fun _ => hone
    simp only [onStop, setConnection, List.set_set]
    exact hinv

/-- The handler of `close` leaves the fault as it was. -/
theorem fault_onClose (s : MediaStreams) (i : Nat) (c : StreamConnection)
    (throws : HookCall → Bool) : (s.onClose i c throws).1.fault = s.fault := by
  unfold onClose fireStop
  split
  · split <;> rfl
  · rfl

/-- A connection with two sessions does not close rightly. -/
theorem one_of_close (h : s.Inv) (hc : s.connections[i]? = some c)
    (hlast : (s.onClose i c throws).1.Lifecycle) : c.started.length ≤ 1 := by
  have hconn := h.connections i c hc
  have hone : (∀ a ∈ c.started, ∀ b ∈ c.started, a = b) → c.started.length ≤ 1 := fun heq =>
    List.length_le_one_of_nodup hconn.nodup heq
  unfold onClose at hlast
  rcases idle_or_running c with hidle | ⟨k, hsession, hstopped⟩
  · rw [fireStop_idle (c := { c with closed := true }) hidle] at hlast
    have hall := hlast.stopped i _ (List.getElem?_set_at hc) rfl
    exact hone fun a ha b hb => hconn.single a ha b hb (hall a ha) (hall b hb)
  · rw [fireStop_running (c := { c with closed := true }) hsession hstopped] at hlast
    have hall := hlast.stopped i
      { c with closed := true, stopped := true } (List.getElem?_set_at (List.getElem?_set_at hc)) rfl
    have hself : ∀ a ∈ c.started, a = k := fun a ha => by
      rcases List.mem_append.mp (hall a ha) with hs | hs
      · exact absurd hs (hconn.running hstopped a ha)
      · cases List.mem_singleton.mp hs
        rfl
    exact hone fun a ha b hb => (hself a ha).trans (hself b hb).symm

theorem inv_step (h : s.Inv) (horder : InOrder bufferFrom s e)
    (hs : step bufferFrom s e = some s') : s'.Inv := by
  unfold step at hs
  split at hs
  · cases hs
  cases e with
  | connect provider url urlParams =>
    cases hs
    exact inv_connect h rfl rfl rfl rfl
  | message i m throws =>
    obtain ⟨c, hc, hif⟩ := Option.bind_eq_some_iff.mp hs
    split at hif
    · cases hif
    · rename_i hopen
      cases hif
      obtain ⟨rs, hrs, ha⟩ := horder c hc
      have hmessage : s.onMessage bufferFrom i c m throws = s.performAll i throws rs := by
        simp only [onMessage, hrs]
      obtain ⟨hquiet, hinv⟩ := inv_performAll h hc (by simpa using hopen) hrs ha
      rw [caught, hmessage, hquiet]
      exact hinv
  | close i throws =>
    obtain ⟨c, hc, hif⟩ := Option.bind_eq_some_iff.mp hs
    split at hif
    · cases hif
    · cases hif
      exact inv_caught (inv_close h hc (horder c hc))

/-- What an uncaught exception of a message would leave is not right. -/
theorem quiet_of_caught {r : MediaStreams × Bool} (h : (caught r .message).Lifecycle) :
    r.2 = false ∧ caught r .message = r.1 := by
  cases hthrew : r.2 with
  | true =>
    rw [caught, hthrew] at h
    exact absurd rfl h.quiet
  | false =>
    rw [caught, hthrew]
    exact ⟨rfl, rfl⟩

theorem inOrder_of_lifecycle (h : s.Inv) (hs : step bufferFrom s e = some s')
    (hlast : s'.Lifecycle) : InOrder bufferFrom s e := by
  unfold step at hs
  split at hs
  · cases hs
  cases e with
  | connect provider url urlParams => trivial
  | message i m throws =>
    obtain ⟨c, hc, hif⟩ := Option.bind_eq_some_iff.mp hs
    split at hif
    · cases hif
    · rename_i hopen
      cases hif
      intro c' hc'
      cases hc.symm.trans hc'
      obtain ⟨hquiet, heq⟩ := quiet_of_caught hlast
      rw [heq] at hlast
      unfold onMessage at hquiet hlast
      split at hquiet
      · cases hquiet
      · rename_i rs hrs
        rw [hrs] at hlast
        exact ⟨rs, hrs, admits_of_performAll h hc (by simpa using hopen) hrs hquiet hlast⟩
  | close i throws =>
    obtain ⟨c, hc, hif⟩ := Option.bind_eq_some_iff.mp hs
    split at hif
    · cases hif
    · cases hif
      intro c' hc'
      cases hc.symm.trans hc'
      refine one_of_close h hc (?_ : (s.onClose i c throws).1.Lifecycle)
      unfold caught at hlast
      split at hlast
      · exact ⟨fault_onClose s i c throws ▸ h.quiet, hlast.known, hlast.once, hlast.last, hlast.stopped,
          hlast.released⟩
      · exact hlast

/-- In every state of a run the sessions live as they should, if and only if every message can be
    decoded, is accepted by the hooks it reaches and brings nothing for a stopped session, and
    no connection closes on which two sessions were started. -/
theorem lifecycle_throughout_iff (bufferFrom : JsValue → Bool) (es : List StreamEvent) :
    Throughout (step bufferFrom) Lifecycle init es ↔
      Meets (step bufferFrom) (Respects bufferFrom) init es := by
  refine Machine.throughout_iff_meets (P := fun _ _ => True) (fun _ h => h.lifecycle) ?_ ?_ ?_
    inv_init (Machine.meets_of_mem fun _ _ => trivial)
  · exact fun s e s' h _ horder hs => inv_step h (horder (by rw [hs]; rfl)) hs
  · exact fun s e s' h _ hs hlast _ => inOrder_of_lifecycle h hs hlast
  · intro s e hnone hsome
    rw [hnone] at hsome
    cases hsome

/-- Twilio sends the text `null`. -/
def nullMessage : List StreamEvent :=
  [.connect "twilio" "/" [], .message 0 ⟨false, false, some .null⟩ fun _ => false]

theorem not_lifecycle_nullMessage :
    ¬ Throughout (step fun _ => true) Lifecycle init nullMessage := by
  intro h
  obtain ⟨s, hs⟩ : ∃ s, Machine.run (step fun _ => true) init nullMessage = some s := ⟨_, rfl⟩
  have hfault : s.fault = some .message := by
    cases hs
    rfl
  exact (h.last hs).quiet hfault

end MediaStreams

end CallNet.Streaming
