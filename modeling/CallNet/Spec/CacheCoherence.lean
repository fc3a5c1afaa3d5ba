import CallNet.Api.CachedTables
import CallNet.ForStd.CacheAside
import CallNet.Spec.SettingsSteps

/-!
# Coherence of the cached views

A reader fills the cache with what it read, and a writer sets or drops the entry after its
write, but nothing orders the two.  The entries are current once no request is in flight as long
as each value that is put into the cache is what the database holds then, or another writer has
its own operation on the key to come.
-/

namespace CallNet.Api

open CacheAside (View Owed)
open Machine (Meets Throughout)

/-! ## Settings -/

namespace SettingsSystem

variable {twilio : Bool} {s s' : SettingsSystem} {e : SettingsEvent}

/-- The extension whose entry the call is still to set or to drop. -/
def owes (call : SettingsCall) : Option String :=
  if call.owesCache then some call.extension else none

def view : View SettingsSystem String SettingsResponse Nat where
  content s ext := (s.rows ext).map (SettingsRow.toResponse ext)
  cached := SettingsSystem.cached
  due s := Owed s.calls owes

def effect (s : SettingsSystem) : SettingsEvent → CacheAside.Effect String SettingsResponse Nat
  | .write id true =>
    match s.calls id with
    | some ⟨ext, _, .writing ..⟩ => .commits id ext
    | _ => .keeps
  | .cache id =>
    match s.calls id with
    | some ⟨ext, _, .caching content⟩ => .sets id ext content
    | _ => .keeps
  | .cachedExpires ext => .expires ext
  | _ => .keeps

theorem cached_of_step (hstep : step twilio s e = some s') (key : String) :
    s'.cached key = (effect s e).cached s.cached key := by
  have hsame : ∀ {t t' : SettingsSystem}, some t = some t' → t.cached = s.cached →
      t'.cached key = s.cached key := by
    intro t t' heq hcached
    rw [← Option.some.inj heq, hcached]
  cases e with
  | cache id =>
    simp only [step] at hstep
    split at hstep
    · rename_i hid
      rw [← Option.some.inj hstep]
      simp only [effect, hid, CacheAside.Effect.cached]
    · cases hstep
  | cachedExpires ext =>
    rw [← Option.some.inj hstep]
    rfl
  | cooldownExpires ext => exact hsame hstep rfl
  | write id ok =>
    simp only [step] at hstep
    split at hstep
    · rename_i hid
      cases ok with
      | true =>
        simp only [effect, hid]
        exact hsame hstep rfl
      | false => exact hsame hstep rfl
    · cases hstep
  | find id answer now | validate id answer =>
    simp only [step] at hstep
    split at hstep
    · split at hstep <;> exact hsame hstep rfl
    · cases hstep
  | request id ext request | look id | read id ok | lookUser id ok | remove id ok | cool id
  | complete index sid =>
    simp only [step] at hstep
    split at hstep <;> first | exact hsame hstep rfl | cases hstep

theorem owes_eq_none {call : SettingsCall} (h : call.owesCache = false) : owes call = none :=
  if_neg (by rw [h]; nofun)

/-- The operations that are due change with a write and with an operation on the cache only. -/
theorem due_of_step (hstep : step twilio s e = some s') (hwrite : ∀ id, e ≠ .write id true)
    (hcache : ∀ id, e ≠ .cache id) (key : String) (id : Nat) :
    view.due s' key id ↔ view.due s key id := by
  cases moves_of_step hstep with
  | stays hquiet hcalls => simp only [view, hcalls]
  | begins hevent hnone hcalls hrows hcommitted =>
    rename_i id₀ ext request
    refine CacheAside.owed_of_quiet (congrFun hcalls) ?_ (owes_eq_none ?_) key id
    · rw [hnone]
      rfl
    · cases request <;> cases twilio <;> rfl
  | advances hquiet hid hfits hwritten hcalls hrows hcommitted howes hnew =>
    rename_i id₀ call phase
    refine CacheAside.owed_of_quiet (congrFun hcalls) ?_ (owes_eq_none hnew) key id
    have hold : call.owesCache = false := by
      rw [Bool.eq_false_iff]
      exact fun howe => hcache id₀ (howes howe)
    rw [hid]
    exact owes_eq_none hold
  | writes hevent => exact absurd hevent (hwrite _)

theorem has_effect (hfit : s.CallsFit) (hstep : step twilio s e = some s') :
    view.Has s s' (effect s e) := by
  have hmoves := moves_of_step hstep
  refine ⟨fun key => ?_, fun key => cached_of_step hstep key, fun key id => ?_⟩
  · -- only a write changes a row
    cases hmoves with
    | stays _ _ hrows | begins _ _ _ hrows | advances _ _ _ _ _ hrows =>
      exact .inl (by simp only [view, hrows])
    | writes hevent hid hcalls hrows hcommitted =>
      rename_i id ext request row change
      by_cases hkey : key = ext
      · refine .inr ⟨id, ?_⟩
        simp only [hevent, effect, hid, hkey]
      · exact .inl (by simp only [view, hrows, if_neg hkey])
  · have hother : (∀ id, e ≠ .write id true) → (∀ id, e ≠ .cache id) →
        (view.due s' key id ↔ view.due s key id) := fun hwrite hcache =>
      due_of_step hstep hwrite hcache key id
    cases e with
    | write id₀ ok =>
      cases ok with
      | false => exact hother (fun _ h => by cases h) fun _ h => by cases h
      | true =>
        cases hmoves with
        | stays hquiet | advances hquiet => exact absurd rfl (hquiet id₀)
        | begins hevent => cases hevent
        | writes hevent hid hcalls hrows hcommitted =>
          rename_i id₁ ext request row change
          obtain rfl : id₀ = id₁ := by
            injection hevent
          have howes := owesCache_afterWrite ext (change.apply row).create (hfit id₀ _ hid).2.2
          rw [show effect s (.write id₀ true) = .commits id₀ ext by simp only [effect, hid]]
          refine CacheAside.owed_of_commit (congrFun hcalls) ?_ (if_pos howes) key id
          rw [hid]
          rfl
    | cache id₀ =>
      simp only [step] at hstep
      split at hstep
      · rename_i ext request content hid
        have hcalls := congrArg SettingsSystem.calls (Option.some.inj hstep).symm
        rw [show effect s (.cache id₀) = .sets id₀ ext content by simp only [effect, hid]]
        refine CacheAside.owed_of_set (congrFun hcalls) ?_ (owes_eq_none ?_) key id
        · intro key' howes
          rw [hid, Option.bind_some, owes] at howes
          split at howes
          · exact (Option.some.inj howes).symm
          · cases howes
        · cases request <;> rfl
      · cases hstep
    | request _ _ _ | look _ | read _ _ | lookUser _ _ | validate _ _ | find _ _ _ | remove _ _
    | cool _ | complete _ _ | cooldownExpires _ | cachedExpires _ =>
      exact hother (fun _ h => by cases h) fun _ h => by cases h

/-- An event that cannot happen stores nothing. -/
theorem timely_of_none (hnone : step twilio s e = none) : view.Timely s (effect s e) := by
  cases e with
  | cache id =>
    simp only [step] at hnone
    split at hnone
    · cases hnone
    · rename_i hother
      rw [effect]
      split
      · rename_i hid
        exact absurd hid (hother _ _ _)
      · trivial
  | write id ok =>
    rw [effect.eq_def]
    cases ok with
    | true => simp only; split <;> trivial
    | false => trivial
  | _ => trivial

end SettingsSystem

/-! ## Block lists and forwarding rules -/

namespace TableSystem

variable {ω ρ ν : Type} {svc : TableService ω ρ ν} {s s' : TableSystem ω ρ ν} {e : TableEvent ω}

/-- The extension whose entry the call is still to drop. -/
def owes (call : TableCall ω ν) : Option String :=
  match call.request, call.phase with
  | .write _, .caching _ => some call.extension
  | _, _ => none

def view (svc : TableService ω ρ ν) : View (TableSystem ω ρ ν) String ν Nat where
  content s ext := some (svc.response (s.rows ext))
  cached := TableSystem.cached
  due s := Owed s.calls owes

def effect (s : TableSystem ω ρ ν) : TableEvent ω → CacheAside.Effect String ν Nat
  | .write id true =>
    match s.calls id with
    | some ⟨ext, .write _, .writing⟩ => .commits id ext
    | _ => .keeps
  | .cache id =>
    match s.calls id with
    | some ⟨ext, _, .caching content⟩ => .sets id ext content
    | _ => .keeps
  | .cachedExpires ext => .expires ext
  | _ => .keeps

/-- A call that owes no operation goes on without owing one. -/
theorem has_setPhase {id : Nat} {call : TableCall ω ν} {phase : TablePhase ν}
    (hbefore : (s.calls id).bind owes = none) (hafter : owes { call with phase } = none) :
    (view svc).Has s (s.setPhase id call phase) .keeps := by
  refine ⟨fun _ => .inl rfl, fun _ => rfl, fun key id' => ?_⟩
  exact CacheAside.owed_of_quiet (fun _ => rfl) hbefore hafter key id'

theorem has_effect (hstep : step svc s e = some s') : (view svc).Has s s' (effect s e) := by
  cases e with
  | request id ext request =>
    simp only [step] at hstep
    split at hstep
    · cases hstep
    · rename_i hnone
      rw [Option.not_isSome_iff_eq_none] at hnone
      rw [← Option.some.inj hstep]
      refine has_setPhase (by rw [hnone]; rfl) ?_
      cases request with
      | get => rfl
      | write op =>
        simp only [begins]
        split <;> rfl
  | look id =>
    simp only [step] at hstep
    split at hstep
    · rename_i ext hid
      rw [← Option.some.inj hstep]
      exact has_setPhase (by rw [hid]; rfl) (by split <;> rfl)
    · cases hstep
  | read id ok =>
    simp only [step] at hstep
    split at hstep
    · rename_i ext hid
      rw [← Option.some.inj hstep]
      exact has_setPhase (by rw [hid]; rfl) (by split <;> rfl)
    · cases hstep
  | lookUser id ok =>
    simp only [step] at hstep
    split at hstep
    · rename_i ext request hid
      rw [← Option.some.inj hstep]
      refine has_setPhase (by rw [hid]; cases request <;> rfl) ?_
      cases request <;> split <;> rfl
    · cases hstep
  | write id ok =>
    simp only [step] at hstep
    split at hstep
    · rename_i ext op hid
      cases ok with
      | false =>
        rw [← Option.some.inj hstep]
        exact has_setPhase (by rw [hid]; rfl) rfl
      | true =>
        -- the one step that commits: from now on the call owes the cache its operation
        rw [← Option.some.inj hstep,
          show effect s (.write id true) = .commits id ext by simp only [effect, hid]]
        refine ⟨fun key => ?_, fun _ => rfl, fun key id' => ?_⟩
        · by_cases hkey : key = ext
          · exact .inr ⟨id, by rw [hkey]⟩
          · exact .inl (by simp only [view, if_neg hkey])
        · have howes : owes (⟨ext, .write op, .caching none⟩ : TableCall ω ν) = some ext := rfl
          refine CacheAside.owed_of_commit (fun _ => rfl) ?_ howes key id'
          rw [hid]
          rfl
    · cases hstep
  | cache id =>
    simp only [step] at hstep
    split at hstep
    · rename_i ext request content hid
      rw [← Option.some.inj hstep,
        show effect s (.cache id) = .sets id ext content by simp only [effect, hid]]
      refine ⟨fun _ => .inl rfl, fun _ => rfl, fun key id' => ?_⟩
      -- what a write owes is paid, and a read owed nothing
      refine CacheAside.owed_of_set (fun _ => rfl) (fun key' howes => ?_) ?_ key id'
      · rw [hid] at howes
        cases request with
        | get => cases howes
        | write op => exact (Option.some.inj howes).symm
      · cases request <;> rfl
    · cases hstep
  | cachedExpires ext =>
    rw [← Option.some.inj hstep]
    exact ⟨fun _ => .inl rfl, fun _ => rfl, fun _ _ => Iff.rfl⟩

theorem timely_of_none (hnone : step svc s e = none) : (view svc).Timely s (effect s e) := by
  cases e with
  | cache id =>
    simp only [step] at hnone
    split at hnone
    · cases hnone
    · rename_i hother
      rw [effect]
      split
      · rename_i hid
        exact absurd hid (hother _ _ _)
      · trivial
  | write id ok =>
    rw [effect.eq_def]
    cases ok with
    | true => simp only; split <;> trivial
    | false => trivial
  | _ => trivial

end TableSystem

/-! ## All services -/

namespace CachedServices

variable {twilio : Bool} {s s' : CachedServices} {e : CachedEvent}

/-- No request is in flight. -/
def Quiet (s : CachedServices) : Prop :=
  (∀ id call, s.settings.calls id = some call → ∃ ok, call.phase = .returned ok) ∧
  (∀ id call, s.blocked.calls id = some call → ∃ ok, call.phase = .returned ok) ∧
  (∀ id call, s.forwarding.calls id = some call → ∃ ok, call.phase = .returned ok)

/-- Each entry of an extension is absent or what the database holds. -/
def Coherent (s : CachedServices) : Prop :=
  (∀ ext, s.settings.cached ext = none ∨
    s.settings.cached ext = (s.settings.rows ext).map (SettingsRow.toResponse ext)) ∧
  (∀ ext, s.blocked.cached ext = none ∨ s.blocked.cached ext = some (s.blocked.rows ext)) ∧
  (∀ ext, s.forwarding.cached ext = none ∨
    s.forwarding.cached ext = some (ForwardingRepo.get (s.forwarding.rows ext)))

/-- A value is put into the cache while the database holds it, or while another writer has its
    own operation on the key to come. -/
def StoresCurrent (s : CachedServices) : CachedEvent → Prop
  | .settings e => SettingsSystem.view.Timely s.settings (s.settings.effect e)
  | .blocked e => (TableSystem.view blockService).Timely s.blocked (s.blocked.effect e)
  | .forwarding e =>
    (TableSystem.view forwardingService).Timely s.forwarding (s.forwarding.effect e)

/-- The entries are current but for the keys that some writer has yet to come to. -/
structure Settled (s : CachedServices) : Prop where
  settings : SettingsSystem.view.Settled s.settings
  blocked : (TableSystem.view blockService).Settled s.blocked
  forwarding : (TableSystem.view forwardingService).Settled s.forwarding

/-- A step keeps the entries settled exactly when what it stores is current. -/
theorem settled_iff (hfit : s.settings.CallsFit) (h : s.Settled)
    (hstep : step twilio s e = some s') : s'.Settled ↔ StoresCurrent s e := by
  cases e with
  | settings e =>
    obtain ⟨settings, hsettings, rfl⟩ := Option.map_eq_some_iff.mp hstep
    have hiff := View.settled_iff h.settings (SettingsSystem.has_effect hfit hsettings)
    exact ⟨fun hs => hiff.mp hs.settings, fun ht => ⟨hiff.mpr ht, h.blocked, h.forwarding⟩⟩
  | blocked e =>
    obtain ⟨blocked, hblocked, rfl⟩ := Option.map_eq_some_iff.mp hstep
    have hiff := View.settled_iff h.blocked (TableSystem.has_effect hblocked)
    exact ⟨fun hs => hiff.mp hs.blocked, fun ht => ⟨h.settings, hiff.mpr ht, h.forwarding⟩⟩
  | forwarding e =>
    obtain ⟨forwarding, hforwarding, rfl⟩ := Option.map_eq_some_iff.mp hstep
    have hiff := View.settled_iff h.forwarding (TableSystem.has_effect hforwarding)
    exact ⟨fun hs => hiff.mp hs.forwarding, fun ht => ⟨h.settings, h.blocked, hiff.mpr ht⟩⟩

theorem callsFit_of_step (hfit : s.settings.CallsFit) (hstep : step twilio s e = some s') :
    s'.settings.CallsFit := by
  cases e with
  | settings e =>
    obtain ⟨settings, hsettings, rfl⟩ := Option.map_eq_some_iff.mp hstep
    exact SettingsSystem.callsFit_step hfit hsettings
  | blocked e =>
    obtain ⟨blocked, -, rfl⟩ := Option.map_eq_some_iff.mp hstep
    exact hfit
  | forwarding e =>
    obtain ⟨forwarding, -, rfl⟩ := Option.map_eq_some_iff.mp hstep
    exact hfit

/-- No operation is due once no request is in flight. -/
theorem Settled.coherent (h : s.Settled) (hquiet : s.Quiet) : s.Coherent := by
  have htable : ∀ {ω ρ ν : Type} {t : TableSystem ω ρ ν},
      (∀ id call, t.calls id = some call → ∃ ok, call.phase = .returned ok) →
      ∀ key id, ¬ Owed t.calls TableSystem.owes key id := by
    intro ω ρ ν t hreturned key id howed
    obtain ⟨call, hid, howes⟩ := Option.bind_eq_some_iff.mp howed
    obtain ⟨ok, hphase⟩ := hreturned id call hid
    rw [TableSystem.owes, hphase] at howes
    split at howes
    · rename_i heq
      cases heq
    · cases howes
  refine ⟨h.settings.coherent fun key id howed => ?_, h.blocked.coherent (htable hquiet.2.1),
    h.forwarding.coherent (htable hquiet.2.2)⟩
  obtain ⟨call, hid, howes⟩ := Option.bind_eq_some_iff.mp howed
  obtain ⟨ok, hphase⟩ := hquiet.1 id call hid
  have hnone : SettingsSystem.owes call = none :=
    SettingsSystem.owes_eq_none (by rw [SettingsCall.owesCache, hphase])
  rw [hnone] at howes
  cases howes

/-- An event that cannot happen stores nothing. -/
theorem storesCurrent_of_none (hnone : step twilio s e = none) : StoresCurrent s e := by
  cases e with
  | settings e => exact SettingsSystem.timely_of_none (Option.map_eq_none_iff.mp hnone)
  | blocked e => exact TableSystem.timely_of_none (Option.map_eq_none_iff.mp hnone)
  | forwarding e => exact TableSystem.timely_of_none (Option.map_eq_none_iff.mp hnone)

/-- The entries are settled throughout a run exactly when all that the run puts into the cache
    is current. -/
theorem settled_throughout_iff (twilio : Bool) (users : String → Bool)
    (settings : String → Option SettingsRow) (blocked : String → List String)
    (forwarding : String → List ForwardingRule) (es : List CachedEvent) :
    Throughout (step twilio) Settled (init users settings blocked forwarding) es ↔
      Meets (step twilio) StoresCurrent (init users settings blocked forwarding) es := by
  have hinit : (init users settings blocked forwarding).settings.CallsFit ∧
      (init users settings blocked forwarding).Settled := by
    refine ⟨fun _ _ h => absurd h SettingsSystem.init_calls, ?_, ?_, ?_⟩ <;>
      exact View.settled_of_empty fun _ => rfl
  refine Machine.throughout_iff_meets (I := fun s => s.settings.CallsFit ∧ s.Settled)
    (P := fun _ _ => True) (fun s h => h.2) (fun s e s' h _ hG hstep => ?_)
    (fun s e s' h _ hstep hs => (settled_iff h.1 h.2 hstep).mp hs)
    (fun s e hnone => storesCurrent_of_none hnone) hinit (Machine.meets_of_mem fun _ _ => trivial)
  exact ⟨callsFit_of_step h.1 hstep, (settled_iff h.1 h.2 hstep).mpr hG⟩

/-- As long as what is put into the cache is current, or another writer is still to come, the
    entries are absent or current whenever no request is in flight. -/
theorem coherent_throughout (twilio : Bool) (users : String → Bool)
    (settings : String → Option SettingsRow) (blocked : String → List String)
    (forwarding : String → List ForwardingRule) (es : List CachedEvent)
    (hcurrent : Meets (step twilio) StoresCurrent (init users settings blocked forwarding) es) :
    Throughout (step twilio) (fun s => s.Quiet → s.Coherent)
      (init users settings blocked forwarding) es := by
  have hsettled := (settled_throughout_iff twilio users settings blocked forwarding es).mpr hcurrent
  exact hsettled.mono fun s h => h.coherent

/-! ## A reader and a writer -/

/-- The list is read after the number was added. -/
def addThenRead : List CachedEvent :=
  [.blocked (.request 1 "1001" (.write (.add "+14155550100"))), .blocked (.lookUser 1 true),
    .blocked (.write 1 true), .blocked (.cache 1), .blocked (.request 2 "1001" .get),
    .blocked (.look 2), .blocked (.read 2 true), .blocked (.cache 2)]

theorem coherent_addThenRead :
    Meets (step true) StoresCurrent
      (init (fun _ => true) (fun _ => none) (fun _ => []) fun _ => []) addThenRead ∧
    Throughout (step true) (fun s => s.Quiet → s.Coherent)
      (init (fun _ => true) (fun _ => none) (fun _ => []) fun _ => []) addThenRead := by
  have hcurrent : Meets (step true) StoresCurrent
      (init (fun _ => true) (fun _ => none) (fun _ => []) fun _ => []) addThenRead :=
    ⟨trivial, trivial, trivial, trivial, trivial, trivial, trivial, .inl rfl, trivial⟩
  exact ⟨hcurrent, coherent_throughout true _ _ _ _ _ hcurrent⟩

/-- The list is read before the number is added, and cached after it. -/
def readThenAdd : List CachedEvent :=
  [.blocked (.request 2 "1001" .get), .blocked (.look 2), .blocked (.read 2 true),
    .blocked (.request 1 "1001" (.write (.add "+14155550100"))), .blocked (.lookUser 1 true),
    .blocked (.write 1 true), .blocked (.cache 1), .blocked (.cache 2)]

theorem not_coherent_readThenAdd :
    ¬ Throughout (step true) (fun s => s.Quiet → s.Coherent)
      (init (fun _ => true) (fun _ => none) (fun _ => []) fun _ => []) readThenAdd := by
  intro h
  have hlast := h.last rfl
  have hquiet := hlast ⟨fun _ _ hid => absurd hid SettingsSystem.init_calls, ?_,
    fun _ _ hid => absurd hid nofun⟩
  · have hentry := hquiet.2.1 "1001"
    exact absurd hentry (by decide)
  · intro id call hid
    change (if id = 2 then _ else if id = 1 then _ else if id = 1 then _ else if id = 1 then _ else
      if id = 1 then _ else if id = 2 then _ else if id = 2 then _ else if id = 2 then _ else none) =
      some call at hid
    by_cases h2 : id = 2
    · rw [if_pos h2] at hid
      exact ⟨true, by rw [← Option.some.inj hid]⟩
    · by_cases h1 : id = 1
      · rw [if_neg h2, if_pos h1] at hid
        exact ⟨true, by rw [← Option.some.inj hid]⟩
      · simp only [if_neg h1, if_neg h2, reduceCtorEq] at hid

end CachedServices

end CallNet.Api
