import CallNet.Engine.AuditService
import CallNet.ForStd.Slots
import Mathlib.Data.List.Nodup

/-!
# The audit trail

What was logged is persisted, in flight or pending, in the order of the log; a flush that fails
puts its batch back in front.  `stop` returns at once when a flush is in flight, so it keeps its
word only when none is.
-/

namespace CallNet.AuditService

open Machine (run Meets Throughout)

namespace State

/-! ## The property and its condition -/

/-- The batch in flight. -/
def inFlight (s : State) : List AuditEntry := (s.flight.map Flight.batch).getD []

/-- Nothing is lost and the order is kept. -/
structure AuditTrail (s : State) : Prop where
  /-- An entry is in one place: persisted, in flight or pending, in the order of the log. -/
  accounted : s.persisted ++ s.inFlight ++ s.pending = s.logged
  /-- What counts as persisted is in the table. -/
  stored : s.persisted.Sublist s.table
  /-- With a healthy database nothing is left of what was logged before a `stop` that returned. -/
  stopped : ∀ call ∈ s.stops, call.phase = .returned → call.healthy = true →
    call.before ≤ s.persisted.length

/-- No more entries are buffered than are put back after a failure. -/
def Bounded (s : State) : Prop := s.inFlight.length + s.pending.length ≤ maxEntries

instance (s : State) : Decidable s.Bounded := inferInstanceAs (Decidable (_ ≤ _))

/-- `stop` is not called while a flush is in flight. -/
def StopsIdle (s : State) (e : Event) : Prop := e = .stop → s.flight = none

instance (s : State) (e : Event) : Decidable (s.StopsIdle e) :=
  inferInstanceAs (Decidable (_ → _))

variable {s s' : State} {f : Flight}

/-- With distinct entries each one is in exactly one of the three places. -/
theorem AuditTrail.exactly_one (h : s.AuditTrail) (hdistinct : s.logged.Nodup) {e : AuditEntry} :
    (e ∈ s.logged ↔ e ∈ s.persisted ∨ e ∈ s.inFlight ∨ e ∈ s.pending) ∧
      (e ∈ s.persisted → e ∉ s.inFlight ∧ e ∉ s.pending) ∧ (e ∈ s.inFlight → e ∉ s.pending) := by
  rw [← h.accounted] at hdistinct ⊢
  rw [List.nodup_append] at hdistinct
  obtain ⟨hsettled, _, hpending⟩ := hdistinct
  rw [List.nodup_append] at hsettled
  obtain ⟨_, _, hflight⟩ := hsettled
  refine ⟨by rw [List.mem_append, List.mem_append, or_assoc], fun hmem => ⟨?_, ?_⟩, ?_⟩
  · exact fun hmem' => hflight e hmem e hmem' rfl
  · exact fun hmem' => hpending e (List.mem_append_left _ hmem) e hmem' rfl
  · exact fun hmem hmem' => hpending e (List.mem_append_right _ hmem) e hmem' rfl

/-! ## The invariant -/

/-- What a call of `stop` can rely on. -/
structure StopOk (s : State) (i : Nat) (call : StopCall) : Prop where
  /-- While it waits, the rest of what was logged before is in the flight that it waits for. -/
  waits : call.phase = .flushing → ∃ f, s.flight = some f ∧ f.stop = some i ∧
    call.before ≤ s.persisted.length + f.batch.length
  kept : call.phase ≠ .flushing → call.healthy = true → call.before ≤ s.persisted.length

structure TrailInv (s : State) : Prop where
  accounted : s.persisted ++ s.inFlight ++ s.pending = s.logged
  stored : s.persisted.Sublist s.table
  recent : s.logs = s.logged.reverse.take maxEntries
  disabled : s.enabled = false → s.logged = []
  busy : ∀ f, s.flight = some f → f.batch ≠ []
  stops : ∀ i call, s.stops[i]? = some call → s.StopOk i call

theorem TrailInv.auditTrail (h : s.TrailInv) : s.AuditTrail := by
  refine ⟨h.accounted, h.stored, fun call hmem hphase hhealthy => ?_⟩
  obtain ⟨i, hi⟩ := List.mem_iff_getElem?.mp hmem
  refine (h.stops i call hi).kept ?_ hhealthy
  rw [hphase]
  exact StopPhase.noConfusion

/-! ## Steps -/

theorem inFlight_of_none (h : s.flight = none) : s.inFlight = [] := by
  unfold inFlight
  rw [h]
  rfl

theorem inFlight_of_some (h : s.flight = some f) : s.inFlight = f.batch := by
  unfold inFlight
  rw [h]
  rfl

theorem flight_of_not_idles (h : ¬s.Idles) : s.flight = none := by
  cases hflight : s.flight with
  | none => rfl
  | some f => exact absurd (.inr (.inl (by rw [hflight]; rfl))) h

/-- Entries that are kept in place. -/
theorem StopOk.of_eq {i : Nat} {call : StopCall} (h : s.StopOk i call)
    (hflight : s'.flight = s.flight) (hpersisted : s'.persisted = s.persisted) :
    s'.StopOk i call := by
  constructor
  · rw [hflight, hpersisted]
    exact h.waits
  · rw [hpersisted]
    exact h.kept

theorem TrailInv.log (h : s.TrailInv) (entry : AuditEntry) : (s.log entry).TrailInv := by
  unfold State.log
  split
  · exact h
  · rename_i henabled
    refine ⟨?_, h.stored, ?_, fun hoff => ?_, h.busy,
      fun i call hi => (h.stops i call hi).of_eq rfl rfl⟩
    · show s.persisted ++ s.inFlight ++ (s.pending ++ [entry]) = s.logged ++ [entry]
      rw [← List.append_assoc, h.accounted]
    · show (entry :: s.logs).take maxEntries = (s.logged ++ [entry]).reverse.take maxEntries
      have hmax : maxEntries = 4999 + 1 := rfl
      rw [List.reverse_append, List.reverse_singleton, List.singleton_append, h.recent, hmax]
      -- what drops out of the buffer is already outside its bound
      rw [List.take_succ_cons, List.take_succ_cons, List.take_take]
      rfl
    · rw [show s.enabled = false from hoff] at henabled
      exact absurd rfl henabled

/-- A flush takes what is pending. -/
theorem TrailInv.flush (h : s.TrailInv) (stop : Option Nat) : (s.flush stop).TrailInv := by
  unfold State.flush
  split
  · exact h
  · rename_i hidle
    have hnone := flight_of_not_idles hidle
    refine ⟨?_, h.stored, h.recent, h.disabled, fun f hf => ?_,
      fun i call hcall => ⟨fun hphase => ?_, ?_⟩⟩
    · have haccounted := h.accounted
      rw [inFlight_of_none hnone, List.append_nil] at haccounted
      show s.persisted ++ s.pending ++ [] = s.logged
      rw [List.append_nil, haccounted]
    · obtain rfl := Option.some.inj hf
      exact fun hempty => hidle (.inr (.inr hempty))
    · obtain ⟨f, hf, _⟩ := (h.stops i call hcall).waits hphase
      rw [hnone] at hf
      cases hf
    · exact (h.stops i call hcall).kept

/-- Another call of `stop` in a state whose flights and persisted entries are settled. -/
theorem TrailInv.addStop (h : s.TrailInv) {timer : Bool} {call : StopCall}
    (hcall : s.StopOk s.stops.length call) :
    TrailInv { s with timer, stops := s.stops ++ [call] } := by
  refine ⟨h.accounted, h.stored, h.recent, h.disabled, h.busy, fun i c hc => ?_⟩
  rcases List.getElem?_concat_cases hc with ⟨_, hold⟩ | ⟨rfl, rfl⟩
  · exact (h.stops i c hold).of_eq rfl rfl
  · exact hcall.of_eq rfl rfl

/-- A `stop` that finds no flush in flight. -/
theorem TrailInv.stop (h : s.TrailInv) (hidle : s.flight = none) : s.stop.TrailInv := by
  have hlength : s.logged.length = s.persisted.length + s.pending.length := by
    rw [← h.accounted, inFlight_of_none hidle, List.append_nil, List.length_append]
  have hflush := h.flush (some s.stops.length)
  unfold State.stop
  unfold State.flush at hflush ⊢
  split
  · rename_i hidles
    refine h.addStop ⟨fun hphase => StopPhase.noConfusion hphase, fun _ _ => ?_⟩
    -- there is nothing to flush
    rcases hidles with hoff | hbusy | hempty
    · rw [h.disabled hoff]
      exact Nat.zero_le _
    · rw [hidle] at hbusy
      cases hbusy
    · rw [hempty, List.length_nil] at hlength
      exact Nat.le_of_eq hlength
  · rename_i hidles
    rw [if_neg hidles] at hflush
    refine hflush.addStop ⟨fun _ => ⟨_, rfl, rfl, Nat.le_of_eq hlength⟩, fun hphase => ?_⟩
    exact absurd rfl hphase

/-! ### The end of a flush -/

theorem StopOk.settle {i : Nat} {call : StopCall} (h : s.StopOk i call) (hf : s.flight = some f)
    {ok : Bool} (hpersisted : s'.persisted = if ok then s.persisted ++ f.batch else s.persisted) :
    s'.StopOk i (call.settle (f.stop = some i) ok) := by
  have hlength : s'.persisted.length =
      s.persisted.length + if ok then f.batch.length else 0 := by
    rw [hpersisted]
    cases ok
    · rfl
    · exact List.length_append
  constructor
  · intro hphase
    unfold StopCall.settle at hphase
    dsimp only at hphase
    split at hphase
    · cases hphase
    · rename_i hown
      -- the call would wait for this flight
      obtain ⟨f', hf', hstop, _⟩ := h.waits hphase
      rw [hf] at hf'
      obtain rfl := Option.some.inj hf'
      exact absurd (decide_eq_true hstop) hown
  · intro _ hhealthy
    unfold StopCall.settle at hhealthy
    dsimp only at hhealthy
    show call.before ≤ s'.persisted.length
    by_cases hphase : call.phase = .flushing
    · obtain ⟨f', hf', _, hbefore⟩ := h.waits hphase
      rw [hf] at hf'
      obtain rfl := Option.some.inj hf'
      rw [if_neg (by rw [hphase]; exact StopPhase.noConfusion), Bool.and_eq_true] at hhealthy
      rw [hlength, hhealthy.2, if_pos rfl]
      exact hbefore
    · have hold : call.healthy = true := by
        split at hhealthy
        · exact hhealthy
        · exact (Bool.and_eq_true _ _ ▸ hhealthy).1
      have hbefore := h.kept hphase hold
      omega

theorem stopOk_finish (h : s.TrailInv) (hf : s.flight = some f) {ok : Bool}
    (hstops : s'.stops = (s.finish f ok).stops)
    (hpersisted : s'.persisted = if ok then s.persisted ++ f.batch else s.persisted) :
    ∀ i call, s'.stops[i]? = some call → s'.StopOk i call := by
  intro i call hcall
  rw [hstops] at hcall
  unfold State.finish at hcall
  rw [List.getElem?_mapIdx] at hcall
  obtain ⟨old, hold, rfl⟩ := Option.map_eq_some_iff.mp hcall
  exact (h.stops i old hold).settle hf hpersisted

theorem TrailInv.insert (h : s.TrailInv) (hf : s.flight = some f) : (s.insert f).TrailInv := by
  refine ⟨?_, ?_, h.recent, h.disabled, (fun _ hnone => nomatch hnone),
    stopOk_finish h hf rfl rfl⟩
  · have haccounted := h.accounted
    rw [inFlight_of_some hf] at haccounted
    show s.persisted ++ f.batch ++ [] ++ s.pending = s.logged
    rw [List.append_nil, haccounted]
  · exact h.stored.append (List.Sublist.refl f.batch)

/-- Within the bound a failure puts the whole batch back. -/
theorem TrailInv.fail (h : s.TrailInv) (hf : s.flight = some f) (hbound : s.Bounded)
    {table : List AuditEntry} (htable : s.table.Sublist table) :
    TrailInv { s.fail f with table } := by
  refine ⟨?_, h.stored.trans htable, h.recent, h.disabled, (fun _ hnone => nomatch hnone),
    stopOk_finish h hf rfl rfl⟩
  have haccounted := h.accounted
  unfold Bounded at hbound
  rw [inFlight_of_some hf] at haccounted hbound
  have hwhole : (f.batch ++ s.pending).take maxEntries = f.batch ++ s.pending := by
    apply List.take_of_length_le
    rw [List.length_append]
    exact hbound
  show s.persisted ++ [] ++ (f.batch ++ s.pending).take maxEntries = s.logged
  rw [hwhole, List.append_nil, ← List.append_assoc, haccounted]

theorem TrailInv.schemaEnsured (h : s.TrailInv) (hf : s.flight = some f) :
    TrailInv { s with schemaReady := true, flight := some { f with phase := .inserting } } := by
  refine ⟨?_, h.stored, h.recent, h.disabled, fun f' hf' => ?_,
    fun i call hi => ⟨fun hphase => ?_, ?_⟩⟩
  · have haccounted := h.accounted
    rw [inFlight_of_some hf] at haccounted
    exact haccounted
  · obtain rfl := Option.some.inj hf'
    exact h.busy f hf
  · obtain ⟨f', hf', hstop, hbefore⟩ := (h.stops i call hi).waits hphase
    rw [hf] at hf'
    obtain rfl := Option.some.inj hf'
    exact ⟨_, rfl, hstop, hbefore⟩
  · exact (h.stops i call hi).kept

theorem TrailInv.stopReturns (h : s.TrailInv) {i : Nat} {call : StopCall}
    (hi : s.stops[i]? = some call) (hphase : call.phase = .done) :
    TrailInv { s with stops := s.stops.set i { call with phase := .returned } } := by
  refine ⟨h.accounted, h.stored, h.recent, h.disabled, h.busy, fun j c hc => ?_⟩
  rcases List.getElem?_set_cases hc with ⟨rfl, rfl⟩ | ⟨_, hold⟩
  · refine ⟨fun hreturned => StopPhase.noConfusion hreturned, fun _ => ?_⟩
    exact (h.stops _ call hi).kept (by rw [hphase]; exact StopPhase.noConfusion)
  · exact (h.stops j c hold).of_eq rfl rfl

theorem flight_of_flightIn {phase : FlushPhase} (h : s.flightIn phase = some f) :
    s.flight = some f := (Option.filter_eq_some_iff.mp h).1

/-! ## Runs -/

theorem trailInv_step {e : Event} (h : s.TrailInv) (hbound : s.Bounded) (hstop : s.StopsIdle e)
    (hstep : step s e = some s') : s'.TrailInv := by
  cases e with
  | log entry => exact Option.some.inj hstep ▸ h.log entry
  | start =>
    obtain rfl := Option.some.inj hstep
    exact ⟨h.accounted, h.stored, h.recent, h.disabled, h.busy,
      fun i c hi => (h.stops i c hi).of_eq rfl rfl⟩
  | tick =>
    simp only [step] at hstep
    split at hstep
    · exact Option.some.inj hstep ▸ h.flush none
    · cases hstep
  | flush => exact Option.some.inj hstep ▸ h.flush none
  | stop => exact Option.some.inj hstep ▸ h.stop (hstop rfl)
  | schemaEnsured =>
    obtain ⟨f, hf, rfl⟩ := Option.map_eq_some_iff.mp hstep
    exact h.schemaEnsured (flight_of_flightIn hf)
  | schemaFails =>
    obtain ⟨f, hf, rfl⟩ := Option.map_eq_some_iff.mp hstep
    exact h.fail (flight_of_flightIn hf) hbound (List.Sublist.refl s.table)
  | inserted =>
    obtain ⟨f, hf, rfl⟩ := Option.map_eq_some_iff.mp hstep
    exact h.insert (flight_of_flightIn hf)
  | insertFails applied =>
    obtain ⟨f, hf, rfl⟩ := Option.map_eq_some_iff.mp hstep
    refine h.fail (flight_of_flightIn hf) hbound ?_
    split
    · exact List.sublist_append_left s.table f.batch
    · exact List.Sublist.refl s.table
  | stopReturns i =>
    obtain ⟨call, hi, hcall⟩ := Option.bind_eq_some_iff.mp hstep
    split at hcall
    · rename_i hphase
      exact Option.some.inj hcall ▸ h.stopReturns hi hphase
    · cases hcall

theorem trailInv_init (enabled : Bool) (table : List AuditEntry) : (init enabled table).TrailInv where
  accounted := rfl
  stored := List.nil_sublist table
  recent := rfl
  disabled := fun _ => rfl
  busy := fun _ h => by cases h
  stops := fun _ _ h => by cases h

/-- The audit trail holds in every run that stays within the bound and in which `stop` is not
    called while a flush is in flight. -/
theorem auditTrail_throughout (enabled : Bool) (table : List AuditEntry) (es : List Event)
    (hbound : Meets step (fun s _ => s.Bounded) (init enabled table) es)
    (hstop : Meets step StopsIdle (init enabled table) es) :
    Throughout step AuditTrail (init enabled table) es :=
  (Machine.throughout_of_meets (fun _ _ _ h hG => trailInv_step h hG.1 hG.2)
    (trailInv_init enabled table) (hbound.and hstop)).mono fun _ h => h.auditTrail

/-! ### A `stop` during a flush -/

def login : AuditEntry :=
  { id := "e1", timestamp := "2025-01-01T00:00:00.000Z", extension := "1001", event := "login",
    metadata := [], ip := none }

/-- An entry, and a `stop` that flushes it. -/
theorem auditTrail_cleanStop :
    Throughout step AuditTrail (init true [])
      [.log login, .start, .stop, .schemaEnsured, .inserted, .stopReturns 0] :=
  auditTrail_throughout true [] _ (by decide) (by decide)

/-- A `stop` during a flush returns before the flush is over: with a healthy database the entry
    is still in flight. -/
theorem not_auditTrail_stopDuringFlush :
    ¬Throughout step AuditTrail (init true []) [.log login, .flush, .stop, .stopReturns 0] := by
  intro h
  have hlast := h.last rfl
  exact absurd (hlast.stopped _ List.mem_cons_self rfl rfl) (by decide)

/-- In any state with a flush in flight a `stop` may return too early. -/
theorem TrailInv.not_auditTrail_stopReturns (h : s.TrailInv) (hf : s.flight = some f) :
    ∃ s', run step s [.stop, .stopReturns s.stops.length] = some s' ∧ ¬s'.AuditTrail := by
  have hidles : s.Idles := .inr (.inl (by rw [hf]; rfl))
  have hstop : s.stop = { s with
      timer := false, stops := s.stops ++ [⟨s.logged.length, true, .done⟩] } := by
    unfold State.stop State.flush
    rw [if_pos hidles, if_pos hidles]
  refine ⟨{ s with timer := false, stops := s.stops ++ [⟨s.logged.length, true, .returned⟩] },
    ?_, ?_⟩
  · simp only [run, step, hstop, Option.bind_some, List.getElem?_concat_length, if_true,
      List.set_append_right _ _ (Nat.le_refl _), Nat.sub_self, List.set_cons_zero]
  · intro htrail
    have hbefore := htrail.stopped _ (List.mem_append_right _ List.mem_cons_self) rfl rfl
    have haccounted := congrArg List.length h.accounted
    have hbusy := List.length_pos_iff.mpr (h.busy f hf)
    rw [inFlight_of_some hf, List.length_append, List.length_append] at haccounted
    have hlogged : s.logged.length ≤ s.persisted.length := hbefore
    omega

end State

end CallNet.AuditService
