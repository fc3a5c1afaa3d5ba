import CallNet.Engine.Registrations
import CallNet.ForStd.Machine

/-!
# Expiry of registrations

Only the registration store forgets a registration when its lifetime is over; the database
service, which is the copy that routing asks, keeps it until the user unregisters.  A run
keeps both copies right exactly when every REGISTER is granted a positive lifetime and the
timer of no standing registration goes off: it is renewed or undone before.
-/

namespace CallNet

open Machine (Meets Throughout)

/-- An event of a registrar. -/
inductive RegistrarEvent where
  /-- A REGISTER of a known user; one that expires at once undoes the registration. -/
  | register (extension contact : String) (expires : Option Int) (source : SipSource)
  | elapse (ms : Nat)

/-- The server, and the last accepted REGISTER of each extension that was not undone, with
    its time. -/
structure Registrar where
  server : RegistrationState
  standing : OrdMap String (Int × SipRegistration)

namespace Registrar

def init (now : Int) : Registrar := ⟨.init now, .empty⟩

def step (s : Registrar) : RegistrarEvent → Option Registrar
  | .register extension contact expires source => some
      { server := s.server.handleRegister extension contact expires source
        standing := if expires = some 0 then s.standing.delete extension
          else s.standing.set extension (s.server.now, { contact, expires, source }) }
  | .elapse ms => some { s with server := s.server.elapse ms }

/-- A lifetime granted at `time` is not over at `now`. -/
def Alive (now time : Int) (reg : SipRegistration) : Prop :=
  ∃ secs, reg.expires = some secs ∧ now < time + secs * 1000

/-- Who is registered has a standing registration with that contact whose lifetime is not
    over, and the two copies agree. -/
structure Coherent (s : Registrar) : Prop where
  alive : ∀ ext reg, s.server.getRegistration ext = some reg →
    ∃ time, s.standing.get? ext = some (time, reg) ∧ Alive s.server.now time reg
  agree : ∀ ext, s.server.getRegistration ext = s.server.registrationStore.get ext

/-- When the timer of a registration goes off. -/
def timeout (time : Int) (reg : SipRegistration) : Int :=
  time + timerDelay (reg.expires.map (· * 1000))

/-- A REGISTER is granted a positive lifetime or undoes the registration, and time passes no
    timer of a standing registration. -/
def InTime (s : Registrar) : RegistrarEvent → Prop
  | .register _ _ expires _ => ∃ secs, expires = some secs ∧ 0 ≤ secs
  | .elapse ms => ∀ ext time reg, s.standing.get? ext = some (time, reg) →
      s.server.now + ms < timeout time reg

/-! ## The invariant -/

/-- Both copies hold the standing registrations, each with its timer ahead. -/
structure Inv (s : Registrar) : Prop where
  copy : ∀ ext, s.server.registrations.get? ext = (s.standing.get? ext).map Prod.snd
  store : ∀ ext, s.server.registrationStore.store.get? ext = (s.standing.get? ext).map Prod.snd
  timer : ∀ ext time reg, s.standing.get? ext = some (time, reg) →
    s.server.registrationStore.timers.get? ext = some (timeout time reg)
  positive : ∀ ext time reg, s.standing.get? ext = some (time, reg) →
    ∃ secs, reg.expires = some secs ∧ 0 < secs
  ahead : ∀ ext time reg, s.standing.get? ext = some (time, reg) →
    s.server.now < timeout time reg

theorem inv_init (now : Int) : (init now).Inv where
  copy _ := rfl
  store _ := rfl
  timer _ _ _ h := nomatch h
  positive _ _ _ h := nomatch h
  ahead _ _ _ h := nomatch h

theorem timerDelay_pos (delay : Option Int) : 0 < timerDelay delay := by
  cases delay with
  | none => simp [timerDelay]
  | some ms =>
    simp only [timerDelay]
    split <;> omega

/-- The timer of a positive lifetime never goes off after the lifetime. -/
theorem timeout_le (time : Int) {secs : Int} {reg : SipRegistration} (hreg : reg.expires = some secs)
    (hpos : 0 < secs) : timeout time reg ≤ time + secs * 1000 := by
  simp only [timeout, timerDelay, hreg, Option.map_some]
  split <;> omega

theorem Inv.coherent {s : Registrar} (h : s.Inv) : s.Coherent where
  alive ext reg hreg := by
    have hcopy := h.copy ext
    rw [show s.server.registrations.get? ext = some reg from hreg] at hcopy
    obtain ⟨⟨time, reg'⟩, hstanding, heq⟩ := Option.map_eq_some_iff.mp hcopy.symm
    obtain rfl : reg' = reg := heq
    -- the timer is still ahead, and it is not later than the end of the lifetime
    obtain ⟨secs, hsecs, hpos⟩ := h.positive ext time reg' hstanding
    have hahead := h.ahead ext time reg' hstanding
    have hle := timeout_le time hsecs hpos
    exact ⟨time, hstanding, secs, hsecs, by omega⟩
  agree ext := (h.copy ext).trans (h.store ext).symm

/-! ## Steps -/

theorem Inv.undo {s : Registrar} (h : s.Inv) (ext : String) :
    Inv { server := { s.server with
            registrationStore := s.server.registrationStore.unregister ext }.unregisterUser ext
          standing := s.standing.delete ext } := by
  have hother : ∀ {ext' time reg}, (s.standing.delete ext).get? ext' = some (time, reg) →
      ext' ≠ ext ∧ s.standing.get? ext' = some (time, reg) := by
    intro ext' time reg hget
    rw [OrdMap.get?_delete] at hget
    split at hget
    · cases hget
    · rename_i hne
      exact ⟨hne, hget⟩
  constructor
  case copy =>
    intro ext'
    simp only [RegistrationState.unregisterUser, OrdMap.get?_delete]
    split
    · rfl
    · exact h.copy ext'
  case store =>
    intro ext'
    simp only [RegistrationState.unregisterUser, MemoryRegistrationStore.unregister,
      OrdMap.get?_delete]
    split
    · rfl
    · exact h.store ext'
  case timer =>
    intro ext' time reg hget
    obtain ⟨hne, hget⟩ := hother hget
    simp only [RegistrationState.unregisterUser, MemoryRegistrationStore.unregister]
    rw [OrdMap.get?_delete_ne _ hne]
    exact h.timer ext' time reg hget
  case positive =>
    intro ext' time reg hget
    exact h.positive ext' time reg (hother hget).2
  case ahead =>
    intro ext' time reg hget
    exact h.ahead ext' time reg (hother hget).2

theorem Inv.grant {s : Registrar} (h : s.Inv) (ext : String) {data : SipRegistration}
    {secs : Int} (hsecs : data.expires = some secs) (hpos : 0 < secs) :
    Inv { server := { s.server with registrationStore :=
            s.server.registrationStore.register s.server.now ext data }.registerUser ext data
          standing := s.standing.set ext (s.server.now, data) } := by
  have hcase : ∀ {ext' time reg},
      (s.standing.set ext (s.server.now, data)).get? ext' = some (time, reg) →
      (ext' = ext ∧ time = s.server.now ∧ reg = data) ∨
        (ext' ≠ ext ∧ s.standing.get? ext' = some (time, reg)) := by
    intro ext' time reg hget
    rw [OrdMap.get?_set] at hget
    split at hget
    · rename_i heq
      cases hget
      exact .inl ⟨heq, rfl, rfl⟩
    · rename_i hne
      exact .inr ⟨hne, hget⟩
  constructor
  case copy =>
    intro ext'
    simp only [RegistrationState.registerUser, OrdMap.get?_set]
    split
    · rfl
    · exact h.copy ext'
  case store =>
    intro ext'
    simp only [RegistrationState.registerUser, MemoryRegistrationStore.register, OrdMap.get?_set]
    split
    · rfl
    · exact h.store ext'
  case timer =>
    intro ext' time reg hget
    simp only [RegistrationState.registerUser, MemoryRegistrationStore.register]
    rcases hcase hget with ⟨rfl, rfl, rfl⟩ | ⟨hne, hget⟩
    · -- the new timer starts now
      rw [OrdMap.get?_set_self]
      rfl
    · rw [OrdMap.get?_set_ne _ _ hne]
      exact h.timer ext' time reg hget
  case positive =>
    intro ext' time reg hget
    rcases hcase hget with ⟨-, -, rfl⟩ | ⟨-, hget⟩
    · exact ⟨secs, hsecs, hpos⟩
    · exact h.positive ext' time reg hget
  case ahead =>
    intro ext' time reg hget
    rcases hcase hget with ⟨-, rfl, rfl⟩ | ⟨-, hget⟩
    · have hdelay := timerDelay_pos (reg.expires.map (· * 1000))
      simp only [timeout, RegistrationState.registerUser]
      omega
    · exact h.ahead ext' time reg hget

theorem Inv.elapse {s : Registrar} (h : s.Inv) {ms : Nat} (hin : s.InTime (.elapse ms)) :
    Inv { s with server := s.server.elapse ms } := by
  constructor
  case copy => exact h.copy
  case store =>
    intro ext
    simp only [RegistrationState.elapse, MemoryRegistrationStore.expire, OrdMap.get?_filter]
    rw [h.store ext]
    cases hstanding : s.standing.get? ext with
    | none => rfl
    | some entry =>
      -- the timer of a standing registration is not due
      obtain ⟨time, reg⟩ := entry
      have hlater := hin ext time reg hstanding
      have htimer := h.timer ext time reg hstanding
      have hnot : ¬ timeout time reg ≤ s.server.now + ms := by omega
      simp [MemoryRegistrationStore.due, htimer, hnot]
  case timer =>
    intro ext time reg hget
    have hlater := hin ext time reg hget
    have htimer := h.timer ext time reg hget
    have hnot : ¬ timeout time reg ≤ s.server.now + ms := by omega
    simp only [RegistrationState.elapse, MemoryRegistrationStore.expire, OrdMap.get?_filter]
    simp [MemoryRegistrationStore.due, htimer, hnot]
  case positive => exact h.positive
  case ahead => exact fun ext time reg hget => hin ext time reg hget

theorem Inv.step {s s' : Registrar} {e : RegistrarEvent} (h : s.Inv) (hin : s.InTime e)
    (hstep : s.step e = some s') : s'.Inv := by
  cases e with
  | register ext contact expires source =>
    obtain ⟨secs, hsecs, hnonneg⟩ := hin
    simp only [Registrar.step, Option.some.injEq] at hstep
    subst hstep
    by_cases hzero : expires = some 0
    · simp only [RegistrationState.handleRegister, hzero, if_true]
      exact h.undo ext
    · have hpos : 0 < secs := by
        have hne : secs ≠ 0 := fun h0 => hzero (h0 ▸ hsecs)
        omega
      simp only [RegistrationState.handleRegister, hzero, if_false]
      exact h.grant ext hsecs hpos
  | elapse ms =>
    simp only [Registrar.step, Option.some.injEq] at hstep
    subst hstep
    exact h.elapse hin

/-- A step after which the copies are coherent was in time. -/
theorem Inv.inTime {s s' : Registrar} {e : RegistrarEvent} (h : s.Inv)
    (hstep : s.step e = some s') (hc : s'.Coherent) : s.InTime e := by
  cases e with
  | register ext contact expires source =>
    by_cases hzero : expires = some 0
    · exact ⟨0, hzero, by omega⟩
    · -- the new registration is returned, so its lifetime is not over
      simp only [Registrar.step, RegistrationState.handleRegister, hzero, if_false,
        Option.some.injEq] at hstep
      subst hstep
      have hget := hc.alive ext { contact, expires, source } (OrdMap.get?_set_self _ _ _)
      obtain ⟨time, hstanding, secs, hsecs, hlt⟩ := hget
      rw [OrdMap.get?_set_self] at hstanding
      cases hstanding
      simp only [RegistrationState.registerUser] at hlt
      exact ⟨secs, hsecs, by omega⟩
  | elapse ms =>
    intro ext time reg hstanding
    simp only [Registrar.step, Option.some.injEq] at hstep
    subst hstep
    -- the database service still has the registration, so the store must have it
    have hreg : s.server.registrations.get? ext = some reg := by rw [h.copy ext, hstanding]; rfl
    have hagree := hc.agree ext
    simp only [RegistrationState.getRegistration, RegistrationState.elapse,
      MemoryRegistrationStore.get, MemoryRegistrationStore.expire, OrdMap.get?_filter] at hagree
    rw [hreg] at hagree
    have hkept := (Option.filter_eq_some_iff.mp hagree.symm).2
    simp only [MemoryRegistrationStore.due, h.timer ext time reg hstanding, Option.any_some,
      Bool.not_eq_true', decide_eq_false_iff_not] at hkept
    omega

/-- In a run of REGISTERs and passing time, who is registered has a live registration in both
    copies at every time exactly when every event is in time. -/
theorem coherent_throughout_iff (now : Int) (es : List RegistrarEvent) :
    Throughout step Coherent (init now) es ↔ Meets step InTime (init now) es := by
  apply Machine.throughout_iff_meets (I := Inv) (P := fun _ _ => True)
  · exact fun s h => h.coherent
  · exact fun s e s' h _ hin hstep => h.step hin hstep
  · exact fun s e s' h _ hstep hc => h.inTime hstep hc
  · intro s e hnone
    cases e <;> cases hnone
  · exact inv_init now
  · exact Machine.meets_of_mem fun _ _ => trivial

/-- An hour and a second after a REGISTER for an hour, calls are still routed to its contact,
    while the registration store has forgotten it. -/
theorem not_coherent_expired :
    ∃ s, Machine.run step (init 0) [.register "1001" "sip:1001@203.0.113.9" (some 3600)
        ⟨"203.0.113.9", 5060, "udp"⟩, .elapse 3601000] = some s ∧
      s.server.isRegistered "1001" = true ∧
      (s.server.getRegistration "1001").map SipRegistration.contact =
        some "sip:1001@203.0.113.9" ∧
      s.server.registrationStore.get "1001" = none ∧ ¬ s.Coherent := by
  refine ⟨_, rfl, by decide +kernel, by decide +kernel, by decide +kernel, fun h => ?_⟩
  have hagree := h.agree "1001"
  exact absurd hagree (by decide +kernel)

end Registrar

end CallNet
