import CallNet.Engine.PgListener
import CallNet.ForStd.Machine
import Mathlib.Data.List.Basic

/-!
# One LISTEN client at a time

Every handler of every client schedules a reconnect as long as `this.client` is set, whichever
client that is, and a reconnect replaces `this.client` without a look at it.  So a listener keeps
to one connection exactly as long as what is reported is about the client it has, and that client
has no connection any more (`oneListener_throughout_iff`).
-/

namespace CallNet

open Machine (Meets Throughout)

/-- The client has a connection or may still get one. -/
def PgClient.remains (c : PgClient) : Bool := !c.ended && c.phase ≠ .refused

namespace PgNotifyListener

variable {s s' : PgNotifyListener} {e : PgEvent} {g : Nat} {c c' : PgClient}

/-! ## The property and its condition -/

/-- What holds of every client and its number. -/
def Each (s : PgNotifyListener) (P : Nat → PgClient → Prop) : Prop :=
  ∀ g c, s.clients[g]? = some c → P g c

structure OneListener (s : PgNotifyListener) : Prop where
  /-- At most one client that listens, or one reconnect that is pending. -/
  single : s.clients.countP PgClient.listening + s.timers.length ≤ 1
  /-- The client that has a connection is the one of the listener. -/
  held : s.Each fun g c => c.live = true → s.client = some g
  /-- Nothing is left after `stop`. -/
  stopped : s.stopped = true → s.client = none ∧ s.timers = [] ∧ s.Each fun _ c => c.remains = false

/-- No client has a connection. -/
def NoLive (s : PgNotifyListener) : Prop := s.Each fun _ c => c.live = false

/-- Nobody would reconnect, or it is the first one to and there is no connection. -/
def MayReconnect (s : PgNotifyListener) : Prop :=
  s.stopped = true ∨ s.client = none ∨ (s.timers = [] ∧ s.NoLive)

/-- The same when the connection of `g` is lost. -/
def MayReconnectAfter (s : PgNotifyListener) (g : Nat) : Prop :=
  s.stopped = true ∨ s.client = none ∨ (s.timers = [] ∧ s.Each fun h c => c.live = true → h = g)

/-- What the listener relies on when `e` happens. -/
def ReliesOn (s : PgNotifyListener) : PgEvent → Prop
  | .start | .fire _ => s.NoLive
  | .stop => s.timers = [] ∧ s.Each fun g c => c.remains = true → s.client = some g
  | .error g | .ended g | .connected g false => s.MayReconnectAfter g
  | .connected g true => s.Each fun h c => h = g → c.ended = false → s.client = some g
  | .installed _ false | .subscribed _ false | .hydrated _ false => s.MayReconnect
  | .subscribed g true => s.Each fun h c => h = g → c.ended = false → s.timers = []
  | .installed _ true | .hydrated _ true => True

/-- An event that happens finds the clients as the listener relies on it. -/
def FindsOwnClient (s : PgNotifyListener) (e : PgEvent) : Prop :=
  (step s e).isSome = true → s.ReliesOn e

/-! ## Clients -/

theorem live_of_listening (h : c.listening = true) : c.live = true := by
  unfold PgClient.listening at h
  unfold PgClient.live
  obtain ⟨hended, hphase⟩ := Bool.and_eq_true_iff.mp h
  rw [hended, Bool.true_and, decide_eq_true_eq]
  rcases of_decide_eq_true hphase with h | h | h <;> rw [h] <;> decide

theorem remains_of_live (h : c.live = true) : c.remains = true := by
  unfold PgClient.live at h
  unfold PgClient.remains
  obtain ⟨hended, hphase⟩ := Bool.and_eq_true_iff.mp h
  rw [hended, Bool.true_and, decide_eq_true_eq]
  exact (of_decide_eq_true hphase).2

theorem not_remains_of_ended (h : c.ended = true) : c.remains = false := by
  rw [PgClient.remains, h]
  rfl

theorem eq_false_of_imp {b d : Bool} (h : b = true → d = true) (hd : d = false) : b = false := by
  cases b with
  | false => rfl
  | true => rw [h rfl] at hd; cases hd

/-- If the client at one place at most satisfies `p`, one client at most does. -/
theorem countP_le_one {p : PgClient → Bool} {clients : List PgClient} {o : Option Nat}
    (h : ∀ g c, clients[g]? = some c → p c = true → o = some g) : clients.countP p ≤ 1 := by
  induction clients generalizing o with
  | nil => exact Nat.zero_le 1
  | cons c clients ih =>
    by_cases hc : p c = true
    · have hfirst : o = some 0 := h 0 c rfl hc
      have hrest : clients.countP p = 0 := by
        rw [List.countP_eq_zero]
        intro d hd hpd
        obtain ⟨g, hg⟩ := List.getElem?_of_mem hd
        have hlater : o = some (g + 1) := h (g + 1) d hg hpd
        rw [hfirst] at hlater
        cases hlater
      have hone : (c :: clients).countP p = 1 := by rw [List.countP_cons_of_pos hc, hrest]
      exact Nat.le_of_eq hone
    · rw [List.countP_cons_of_neg hc]
      refine ih (o := o.map Nat.pred) fun g d hg hpd => ?_
      rw [h (g + 1) d hg hpd]
      rfl

/-! ## One listener, part by part -/

/-- With the clients told apart, a listener and a reconnect exclude each other. -/
theorem single_iff (hheld : s.Each fun g c => c.live = true → s.client = some g) :
    s.clients.countP PgClient.listening + s.timers.length ≤ 1 ↔
      s.timers.length ≤ 1 ∧ s.Each fun _ c => c.listening = true → s.timers = [] := by
  have hcount : s.clients.countP PgClient.listening ≤ 1 :=
    countP_le_one fun g c hc hlistening => hheld g c hc (live_of_listening hlistening)
  constructor
  · intro h
    refine ⟨by omega, fun g c hc hlistening => ?_⟩
    have hpos : 0 < s.clients.countP PgClient.listening :=
      List.countP_pos_iff.mpr ⟨c, List.mem_of_getElem? hc, hlistening⟩
    exact List.length_eq_zero_iff.mp (by omega)
  · rintro ⟨hlength, hlistening⟩
    by_cases htimers : s.timers = []
    · rw [htimers, List.length_nil]
      exact hcount
    · have hzero : s.clients.countP PgClient.listening = 0 := by
        rw [List.countP_eq_zero]
        intro c hc hp
        obtain ⟨g, hg⟩ := List.getElem?_of_mem hc
        exact htimers (hlistening g c hg hp)
      omega

/-- The parts of `OneListener`, each about one client or about the timers. -/
theorem oneListener_iff : s.OneListener ↔
    s.timers.length ≤ 1 ∧ (s.Each fun _ c => c.listening = true → s.timers = []) ∧
    (s.Each fun g c => c.live = true → s.client = some g) ∧
    (s.stopped = true → s.client = none ∧ s.timers = [] ∧ s.Each fun _ c => c.remains = false) := by
  constructor
  · intro h
    obtain ⟨hlength, hlistening⟩ := (single_iff h.held).mp h.single
    exact ⟨hlength, hlistening, h.held, h.stopped⟩
  · rintro ⟨hlength, hlistening, hheld, hstopped⟩
    exact ⟨(single_iff hheld).mpr ⟨hlength, hlistening⟩, hheld, hstopped⟩

/-! ## One client changes -/

theorem each_setClient {P : Nat → PgClient → Prop} (hc : s.clients[g]? = some c) :
    (s.setClient g c').Each P ↔ P g c' ∧ s.Each fun h d => h ≠ g → P h d := by
  have hlt : g < s.clients.length := (List.getElem?_eq_some_iff.mp hc).1
  have hget : ∀ h, (s.setClient g c').clients[h]? = if g = h then some c' else s.clients[h]? := by
    intro h
    show (s.clients.set g c')[h]? = _
    rw [List.getElem?_set]
    simp only [hlt, if_true]
  constructor
  · intro h
    refine ⟨h g c' ((hget g).trans (if_pos rfl)), fun k d hd hne => ?_⟩
    exact h k d ((hget k).trans ((if_neg (Ne.symm hne)).trans hd))
  · rintro ⟨hnew, hold⟩ k d hd
    rw [hget] at hd
    split at hd
    · rename_i hk
      cases hd
      exact hk ▸ hnew
    · rename_i hk
      exact hold k d hd (Ne.symm hk)

/-- A client that has as much of a connection as before. -/
theorem oneListener_setClient (h : s.OneListener) (hc : s.clients[g]? = some c)
    (hlistening : c'.listening = true → c.listening = true)
    (hlive : c'.live = true → c.live = true) (hremains : c'.remains = true → c.remains = true) :
    (s.setClient g c').OneListener := by
  obtain ⟨hlength, hsingle, hheld, hstopped⟩ := oneListener_iff.mp h
  refine oneListener_iff.mpr ⟨hlength, ?_, ?_, fun hstop => ?_⟩
  · exact (each_setClient hc).mpr ⟨fun hl => hsingle g c hc (hlistening hl),
      fun k d hd _ => hsingle k d hd⟩
  · exact (each_setClient hc).mpr ⟨fun hl => hheld g c hc (hlive hl), fun k d hd _ => hheld k d hd⟩
  · obtain ⟨hnone, htimers, hall⟩ := hstopped hstop
    refine ⟨hnone, htimers, (each_setClient hc).mpr ⟨?_, fun k d hd _ => hall k d hd⟩⟩
    exact eq_false_of_imp hremains (hall g c hc)

/-- A client that is lost. -/
theorem oneListener_lose (h : s.OneListener) (hc : s.clients[g]? = some c)
    (hlost : c'.remains = false) : (s.setClient g c').OneListener := by
  have hnot : ¬ c'.remains = true := by rw [hlost]; nofun
  exact oneListener_setClient h hc
    (fun hl => absurd (remains_of_live (live_of_listening hl)) hnot)
    (fun hl => absurd (remains_of_live hl) hnot) fun hr => absurd hr hnot

theorem noLive_lose (hc : s.clients[g]? = some c) (hlost : c'.remains = false) :
    (s.setClient g c').NoLive ↔ s.Each fun h d => d.live = true → h = g := by
  have hdead : c'.live = false := eq_false_of_imp remains_of_live hlost
  refine (each_setClient hc).trans ⟨fun h k d hd hl => ?_, fun h => ⟨hdead, fun k d hd hne => ?_⟩⟩
  · by_contra hne
    rw [h.2 k d hd hne] at hl
    cases hl
  · cases hl : d.live with
    | false => rfl
    | true => exact absurd (h k d hd hl) hne

theorem noLive_setClient (hc : s.clients[g]? = some c) (hlive : c'.live = c.live) :
    (s.setClient g c').NoLive ↔ s.NoLive := by
  refine (each_setClient hc).trans ⟨fun h k d hd => ?_, fun h => ⟨hlive.trans (h g c hc),
    fun k d hd _ => h k d hd⟩⟩
  by_cases hk : k = g
  · subst hk
    rw [hc] at hd
    cases hd
    exact hlive.symm.trans h.1
  · exact h.2 k d hd hk

/-! ## Reconnects -/

theorem scheduleReconnect_of (h : s.stopped = true ∨ s.client = none) : s.scheduleReconnect = s :=
  if_pos h

/-- A reconnect may be scheduled when there is neither a connection nor another reconnect. -/
theorem oneListener_scheduleReconnect (h : s.OneListener) :
    s.scheduleReconnect.OneListener ↔ s.MayReconnect := by
  by_cases hdone : s.stopped = true ∨ s.client = none
  · rw [scheduleReconnect_of hdone]
    refine ⟨fun _ => ?_, fun _ => h⟩
    rcases hdone with hstopped | hnone
    · exact .inl hstopped
    · exact .inr (.inl hnone)
  · obtain ⟨hrunning, hclient⟩ := not_or.mp hdone
    obtain ⟨hlength, -, -, -⟩ := oneListener_iff.mp h
    unfold scheduleReconnect
    rw [if_neg hdone, oneListener_iff]
    constructor
    · rintro ⟨hlength', -, hheld, -⟩
      refine .inr (.inr ⟨?_, fun k d hd => ?_⟩)
      · dsimp only at hlength'
        rw [List.length_append, List.length_singleton] at hlength'
        exact List.length_eq_zero_iff.mp (by omega)
      · cases hl : d.live with
        | false => exact hl
        | true => exact absurd (hheld k d hd hl) nofun
    · rintro (hstopped | hnone | ⟨htimers, hdead⟩)
      · exact absurd hstopped hrunning
      · exact absurd hnone hclient
      · have hno : ∀ (k : Nat) (d : PgClient), s.clients[k]? = some d → ¬ d.live = true := by
          intro k d hd hl
          rw [hdead k d hd] at hl
          cases hl
        refine ⟨?_, fun k d hd hl => absurd (live_of_listening hl) (hno k d hd),
          fun k d hd hl => absurd hl (hno k d hd), fun hstop => absurd hstop hrunning⟩
        dsimp only
        rw [htimers]
        exact Nat.le_refl 1

/-- The handlers of `error` and `end`, and the `catch` of a refused connection. -/
theorem oneListener_lost_iff (h : s.OneListener) (hc : s.clients[g]? = some c)
    (hlost : c'.remains = false) :
    (s.setClient g c').scheduleReconnect.OneListener ↔ s.MayReconnectAfter g := by
  rw [oneListener_scheduleReconnect (oneListener_lose h hc hlost), MayReconnect,
    MayReconnectAfter, noLive_lose hc hlost]
  rfl

/-- The `catch` of a query. -/
theorem oneListener_failed_iff (h : s.OneListener) (hc : s.clients[g]? = some c)
    (hlistening : c'.listening = true → c.listening = true) (hlive : c'.live = c.live)
    (hremains : c'.remains = true → c.remains = true) :
    (s.setClient g c').scheduleReconnect.OneListener ↔ s.MayReconnect := by
  rw [oneListener_scheduleReconnect (oneListener_setClient h hc hlistening
    (fun hl => hlive ▸ hl) hremains), MayReconnect, MayReconnect, noLive_setClient hc hlive]
  rfl

/-! ## Steps -/

theorem each_append_fresh {P : Nat → PgClient → Prop} {client : Option Nat} {timers : List Nat}
    {delay : Nat} {stopped : Bool} (hfresh : P s.clients.length .fresh) :
    Each ⟨client, stopped, delay, timers, s.clients ++ [.fresh]⟩ P ↔ s.Each P := by
  constructor
  · intro h k d hd
    refine h k d ?_
    exact (List.getElem?_append_left (List.getElem?_eq_some_iff.mp hd).1).trans hd
  · intro h k d hd
    have hd : (s.clients ++ [.fresh])[k]? = some d := hd
    rcases Nat.lt_trichotomy k s.clients.length with hlt | rfl | hgt
    · exact h k d ((List.getElem?_append_left hlt).symm.trans hd)
    · rw [List.getElem?_concat_length] at hd
      exact Option.some.inj hd ▸ hfresh
    · rw [List.getElem?_eq_none] at hd
      · cases hd
      · rw [List.length_append, List.length_singleton]
        omega

/-- A client is made when there is no connection. -/
theorem oneListener_connect (h : s.OneListener) {timers : List Nat} (hlength : timers.length ≤ 1)
    (htimers : s.timers = [] → timers = []) :
    OneListener { s with stopped := false, timers, client := some s.clients.length
                         clients := s.clients ++ [.fresh] } ↔ s.NoLive := by
  obtain ⟨-, hlistening, -, -⟩ := oneListener_iff.mp h
  rw [oneListener_iff]
  constructor
  · rintro ⟨-, -, hheld, -⟩ k d hd
    cases hl : d.live with
    | false => rfl
    | true =>
      have hlt : k < s.clients.length := (List.getElem?_eq_some_iff.mp hd).1
      have hnew : some s.clients.length = some k :=
        hheld k d ((List.getElem?_append_left hlt).trans hd) hl
      rw [Option.some.inj hnew] at hlt
      exact absurd hlt (Nat.lt_irrefl k)
  · intro hdead
    refine ⟨hlength, ?_, ?_, nofun⟩
    · exact (each_append_fresh nofun).mpr fun k d hd hl => htimers (hlistening k d hd hl)
    · refine (each_append_fresh nofun).mpr fun k d hd hl => ?_
      rw [hdead k d hd] at hl
      cases hl

theorem oneListener_start_iff (h : s.OneListener) (hstep : step s .start = some s') :
    s'.OneListener ↔ s.NoLive := by
  rw [← Option.some.inj hstep]
  exact oneListener_connect h (oneListener_iff.mp h).1 id

theorem oneListener_fire_iff {timer : Nat} (h : s.OneListener)
    (hstep : step s (.fire timer) = some s') : s'.OneListener ↔ s.NoLive := by
  simp only [step] at hstep
  split at hstep
  · rename_i hlt
    obtain ⟨hlength, -, -, hstopped⟩ := oneListener_iff.mp h
    have hrunning : s.stopped = false := by
      cases hs : s.stopped with
      | false => rfl
      | true =>
        rw [(hstopped hs).2.1] at hlt
        cases hlt
    have hnil : s.timers.eraseIdx timer = [] := by
      rw [← List.length_eq_zero_iff, List.length_eraseIdx_of_lt hlt]
      omega
    have hs' : s' = { s with stopped := false, timers := s.timers.eraseIdx timer
                             client := some s.clients.length
                             clients := s.clients ++ [.fresh] } := by
      rw [← Option.some.inj hstep, connect]
      dsimp only
      rw [hrunning]
      rfl
    rw [hs']
    exact oneListener_connect h (by rw [hnil]; exact Nat.zero_le 1) fun _ => hnil
  · cases hstep

theorem endClient_missing (hc : s.clients[g]? = none) : s.endClient (some g) = s := by
  unfold endClient
  dsimp only
  rw [hc]

theorem endClient_some (hc : s.clients[g]? = some c) :
    s.endClient (some g) = s.setClient g { c with ended := true } := by
  unfold endClient
  dsimp only
  rw [hc]

/-- `stop` ends the client it has. -/
theorem each_endClient (client : Option Nat) :
    ((s.endClient client).Each fun _ c => c.remains = false) ↔
      s.Each fun g c => c.remains = true → client = some g := by
  have hend : ∀ {d : PgClient}, d.remains = true → ¬ d.remains = false := by
    intro d hr hf
    rw [hr] at hf
    cases hf
  have hkept : ∀ {d : PgClient}, ¬ d.remains = true → d.remains = false := by
    intro d hr
    rwa [Bool.not_eq_true] at hr
  cases client with
  | none =>
    constructor
    · exact fun h k d hd hr => absurd (h k d hd) (hend hr)
    · exact fun h k d hd => hkept fun hr => nomatch h k d hd hr
  | some g =>
    cases hc : s.clients[g]? with
    | none =>
      rw [endClient_missing hc]
      constructor
      · exact fun h k d hd hr => absurd (h k d hd) (hend hr)
      · refine fun h k d hd => hkept fun hr => ?_
        rw [← Option.some.inj (h k d hd hr), hc] at hd
        cases hd
    | some c =>
      rw [endClient_some hc]
      constructor
      · intro h k d hd hr
        by_contra hne
        have hk : k ≠ g := fun hk => hne (congrArg some hk.symm)
        exact hend hr (((each_setClient hc).mp h).2 k d hd hk)
      · intro h
        refine (each_setClient hc).mpr ⟨not_remains_of_ended rfl, fun k d hd hne => hkept fun hr => ?_⟩
        exact hne (Option.some.inj (h k d hd hr)).symm

theorem endClient_fields (client : Option Nat) :
    (s.endClient client).client = s.client ∧ (s.endClient client).timers = s.timers ∧
      (s.endClient client).stopped = s.stopped := by
  cases client with
  | none => exact ⟨rfl, rfl, rfl⟩
  | some g =>
    cases hc : s.clients[g]? with
    | none =>
      rw [endClient_missing hc]
      exact ⟨rfl, rfl, rfl⟩
    | some c =>
      rw [endClient_some hc]
      exact ⟨rfl, rfl, rfl⟩

theorem oneListener_stop_iff (h : s.OneListener) (hstep : step s .stop = some s') :
    s'.OneListener ↔ s.ReliesOn .stop := by
  let t : PgNotifyListener := { s with stopped := true, client := none }
  have hs' : s' = t.endClient s.client := (Option.some.inj hstep).symm
  obtain ⟨hclient, htimers, hstopped⟩ := endClient_fields (s := t) s.client
  have heach := each_endClient (s := t) s.client
  rw [hs', oneListener_iff, hclient, htimers, hstopped]
  constructor
  · rintro ⟨-, -, -, hstop⟩
    obtain ⟨-, hnil, hall⟩ := hstop rfl
    exact ⟨hnil, heach.mp hall⟩
  · rintro ⟨hnil, hall⟩
    have hgone := heach.mpr hall
    have hno : ∀ (k : Nat) (d : PgClient), (t.endClient s.client).clients[k]? = some d →
        ¬ d.remains = true := by
      intro k d hd hr
      rw [hgone k d hd] at hr
      cases hr
    refine ⟨(oneListener_iff.mp h).1, fun k d hd hl => ?_, fun k d hd hl => ?_,
      fun _ => ⟨rfl, hnil, hgone⟩⟩
    · exact absurd (remains_of_live (live_of_listening hl)) (hno k d hd)
    · exact absurd (remains_of_live hl) (hno k d hd)

/-- An await of `connect` comes back. -/
theorem resume_cases {phase next failed : PgPhase} {ok : Bool}
    (hstep : s.resume g phase next failed ok = some s') :
    ∃ c, s.clients[g]? = some c ∧ c.phase = phase ∧
      (ok = true ∧ s' = s.setClient g { c with phase := next } ∨
       ok = false ∧ s' = (s.setClient g { c with phase := failed }).scheduleReconnect) := by
  unfold resume at hstep
  cases hc : s.clients[g]? with
  | none =>
    rw [hc] at hstep
    cases hstep
  | some c =>
    rw [hc] at hstep
    dsimp only at hstep
    split at hstep
    · cases hstep
    · rename_i hphase
      refine ⟨c, rfl, not_not.mp hphase, ?_⟩
      cases ok with
      | true => exact .inl ⟨rfl, (Option.some.inj hstep).symm⟩
      | false => exact .inr ⟨rfl, (Option.some.inj hstep).symm⟩

theorem oneListener_error_iff (h : s.OneListener) (hstep : step s (.error g) = some s') :
    s'.OneListener ↔ s.MayReconnectAfter g := by
  simp only [step] at hstep
  cases hc : s.clients[g]? with
  | none => simp only [hc] at hstep; cases hstep
  | some c =>
    simp only [hc] at hstep
    split at hstep
    · cases hstep
    · rw [← Option.some.inj hstep]
      exact oneListener_lost_iff h hc (not_remains_of_ended rfl)

theorem oneListener_ended_iff (h : s.OneListener) (hstep : step s (.ended g) = some s') :
    s'.OneListener ↔ s.MayReconnectAfter g := by
  simp only [step] at hstep
  cases hc : s.clients[g]? with
  | none => simp only [hc] at hstep; cases hstep
  | some c =>
    simp only [hc] at hstep
    split at hstep
    · cases hstep
    · rw [← Option.some.inj hstep]
      exact oneListener_lost_iff h hc (not_remains_of_ended rfl)

/-- A client gets a connection. -/
theorem oneListener_connected_iff (h : s.OneListener)
    (hstep : step s (.connected g true) = some s') :
    s'.OneListener ↔ s.ReliesOn (.connected g true) := by
  obtain ⟨c, hc, hphase, ⟨-, rfl⟩ | ⟨hfalse, -⟩⟩ := resume_cases hstep
  · obtain ⟨hlength, hlistening, hheld, hstopped⟩ := oneListener_iff.mp h
    have hrely : s.ReliesOn (.connected g true) ↔ (c.ended = false → s.client = some g) := by
      constructor
      · exact fun hr => hr g c hc rfl
      · rintro hr k d hd rfl
        rw [hc] at hd
        cases hd
        exact hr
    rw [hrely]
    constructor
    · intro h' hended
      refine ((each_setClient hc).mp h'.held).1 ?_
      rw [PgClient.live, hended]
      rfl
    · intro hr
      refine oneListener_iff.mpr ⟨hlength, ?_, ?_, fun hstop => ?_⟩
      · refine (each_setClient hc).mpr ⟨fun hl => ?_, fun k d hd _ => hlistening k d hd⟩
        exact absurd hl (by simp [PgClient.listening])
      · refine (each_setClient hc).mpr ⟨fun hl => hr ?_, fun k d hd _ => hheld k d hd⟩
        rw [PgClient.live, Bool.and_eq_true, Bool.not_eq_true'] at hl
        exact hl.1
      · obtain ⟨hnone, htimers, hall⟩ := hstopped hstop
        refine ⟨hnone, htimers, (each_setClient hc).mpr ⟨?_, fun k d hd _ => hall k d hd⟩⟩
        -- a client that was still connecting has ended
        have hcend : c.remains = false := hall g c hc
        rw [PgClient.remains, hphase, Bool.and_eq_false_iff] at hcend
        have hended : c.ended = true := by simpa using hcend
        exact not_remains_of_ended hended
  · cases hfalse

/-- A client listens. -/
theorem oneListener_subscribed_iff (h : s.OneListener)
    (hstep : s.resume g .subscribing .hydrating .unsubscribed true = some s') :
    s'.OneListener ↔ s.ReliesOn (.subscribed g true) := by
  obtain ⟨c, hc, hphase, ⟨-, rfl⟩ | ⟨hfalse, -⟩⟩ := resume_cases hstep
  · obtain ⟨hlength, hlistening, hheld, hstopped⟩ := oneListener_iff.mp h
    have hrely : s.ReliesOn (.subscribed g true) ↔ (c.ended = false → s.timers = []) := by
      constructor
      · exact fun hr => hr g c hc rfl
      · rintro hr k d hd rfl
        rw [hc] at hd
        cases hd
        exact hr
    rw [hrely]
    constructor
    · intro h' hended
      refine ((each_setClient hc).mp (oneListener_iff.mp h').2.1).1 ?_
      rw [PgClient.listening, hended]
      rfl
    · intro hr
      refine oneListener_iff.mpr ⟨hlength, ?_, ?_, fun hstop => ?_⟩
      · refine (each_setClient hc).mpr ⟨fun hl => hr ?_, fun k d hd _ => hlistening k d hd⟩
        rw [PgClient.listening, Bool.and_eq_true, Bool.not_eq_true'] at hl
        exact hl.1
      · refine (each_setClient hc).mpr ⟨fun hl => hheld g c hc ?_, fun k d hd _ => hheld k d hd⟩
        rw [PgClient.live, hphase]
        exact hl
      · obtain ⟨hnone, htimers, hall⟩ := hstopped hstop
        refine ⟨hnone, htimers, (each_setClient hc).mpr ⟨?_, fun k d hd _ => hall k d hd⟩⟩
        have hcend : c.remains = false := hall g c hc
        rw [PgClient.remains, hphase] at hcend
        exact hcend
  · cases hfalse

/-- An await that comes back well while the connection stays what it is. -/
theorem oneListener_goesOn {phase next failed : PgPhase} (h : s.OneListener)
    (hstep : s.resume g phase next failed true = some s')
    (hphases : (phase, next) = (.installing, .subscribing) ∨ (phase, next) = (.hydrating, .ready)) :
    s'.OneListener := by
  obtain ⟨c, hc, rfl, ⟨-, rfl⟩ | ⟨hfalse, -⟩⟩ := resume_cases hstep
  · rcases hphases with hphases | hphases <;> obtain ⟨hphase, rfl⟩ := Prod.mk.inj hphases
    · refine oneListener_setClient h hc ?_ ?_ ?_ <;>
        simp [PgClient.listening, PgClient.live, PgClient.remains, hphase]
    · refine oneListener_setClient h hc ?_ ?_ ?_ <;>
        simp [PgClient.listening, PgClient.live, PgClient.remains, hphase]
  · cases hfalse

/-- The `catch` of `connect` after the connection was made. -/
theorem oneListener_catch_iff {phase next failed : PgPhase} (h : s.OneListener)
    (hstep : s.resume g phase next failed false = some s')
    (hphases : failed = .unsubscribed ∧ (phase = .installing ∨ phase = .subscribing) ∨
      failed = .unhydrated ∧ phase = .hydrating) :
    s'.OneListener ↔ s.MayReconnect := by
  obtain ⟨c, hc, rfl, ⟨htrue, -⟩ | ⟨-, rfl⟩⟩ := resume_cases hstep
  · cases htrue
  · rcases hphases with ⟨rfl, hphase | hphase⟩ | ⟨rfl, hphase⟩
    all_goals
      refine oneListener_failed_iff h hc ?_ ?_ ?_ <;>
        simp [PgClient.listening, PgClient.live, PgClient.remains, hphase]

/-- What one step relies on. -/
theorem oneListener_step_iff (h : s.OneListener) (hstep : step s e = some s') :
    s'.OneListener ↔ s.ReliesOn e := by
  cases e with
  | start => exact oneListener_start_iff h hstep
  | stop => exact oneListener_stop_iff h hstep
  | error g => exact oneListener_error_iff h hstep
  | ended g => exact oneListener_ended_iff h hstep
  | fire timer => exact oneListener_fire_iff h hstep
  | connected g ok =>
    cases ok with
    | true => exact oneListener_connected_iff h hstep
    | false =>
      obtain ⟨c, hc, -, ⟨htrue, -⟩ | ⟨-, rfl⟩⟩ := resume_cases hstep
      · cases htrue
      · exact oneListener_lost_iff h hc (by simp [PgClient.remains])
  | installed g ok =>
    cases ok with
    | true => exact iff_of_true (oneListener_goesOn h hstep (.inl rfl)) trivial
    | false => exact oneListener_catch_iff h hstep (.inl ⟨rfl, .inl rfl⟩)
  | subscribed g ok =>
    simp only [step, Option.map_eq_some_iff] at hstep
    obtain ⟨t, ht, rfl⟩ := hstep
    cases ok with
    | true =>
      -- the delay is nothing the property is about
      have hdelay : OneListener { t with reconnectDelayMs := 1000 } ↔ t.OneListener :=
        ⟨fun h => ⟨h.single, h.held, h.stopped⟩, fun h => ⟨h.single, h.held, h.stopped⟩⟩
      exact hdelay.trans (oneListener_subscribed_iff h ht)
    | false => exact oneListener_catch_iff h ht (.inl ⟨rfl, .inr rfl⟩)
  | hydrated g ok =>
    cases ok with
    | true => exact iff_of_true (oneListener_goesOn h hstep (.inr rfl)) trivial
    | false => exact oneListener_catch_iff h hstep (.inr ⟨rfl, rfl⟩)

/-! ## Runs -/

theorem oneListener_init : init.OneListener := ⟨Nat.zero_le 1, nofun, nofun⟩

/-- Every state of a run has one listener at most if and only if every event finds the clients
    as the listener relies on it. -/
theorem oneListener_throughout_iff (es : List PgEvent) :
    Throughout step OneListener init es ↔ Meets step FindsOwnClient init es := by
  refine Machine.throughout_iff_meets (P := fun _ _ => True) (fun _ h => h) ?_ ?_ ?_
    oneListener_init (Machine.meets_of_mem fun _ _ => trivial)
  · intro s e s' h _ hfinds hstep
    refine (oneListener_step_iff h hstep).mpr (hfinds ?_)
    rw [hstep]
    rfl
  · exact fun s e s' h _ hstep h' _ => (oneListener_step_iff h hstep).mp h'
  · intro s e hnone hsome
    rw [hnone] at hsome
    cases hsome

/-- The first attempt to connect fails, and the listener is stopped before the second. -/
def stoppedWhileWaiting : List PgEvent := [.start, .connected 0 false, .stop]

theorem not_oneListener_stoppedWhileWaiting :
    ¬ Throughout step OneListener init stoppedWhileWaiting := by
  intro h
  have hrun : Machine.run step init stoppedWhileWaiting =
      some ⟨none, true, 2000, [1000], [⟨.refused, false, false⟩]⟩ := by decide
  exact absurd ((h.last hrun).stopped rfl).2.1 (by decide)

end PgNotifyListener

end CallNet
