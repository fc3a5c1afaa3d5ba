import CallNet.Spec.SettingsSteps

/-!
# Lost updates of settings

Every request writes the whole row that it read, with its own columns changed.  So what other
requests committed between its read and its write is gone: the row holds every committed
change exactly as long as each row that is written back was read with all of them.
-/

namespace CallNet.Api

open Machine (run Meets Throughout)

/-! ## The property and its condition -/

/-- Two changes, or two requests, that have no column in common. -/
def Apart (touches touches' : SettingsField → Bool) : Prop :=
  ∀ f, touches f = true → touches' f = false

/-- The row has the values of the change. -/
def SettingsChange.heldBy (c : SettingsChange) (row : SettingsRow) : Prop := c.apply row = row

/-- The change sets no column to a value that the database replaces by the default. -/
def SettingsChange.Storable (c : SettingsChange) : Prop :=
  c.input.soundsEnabled ≠ some false ∧ c.input.dtmfEnabled ≠ some false ∧
    c.input.callerTune ≠ some "" ∧ c.input.ringtone ≠ some "" ∧ c.input.pstnCountryCode ≠ some ""

namespace SettingsSystem

/-- Every committed change is in the row of its extension. -/
def KeepsChanges (s : SettingsSystem) : Prop :=
  ∀ ext c, (ext, c) ∈ s.committed → ∃ row, s.rows ext = some row ∧ c.heldBy row

/-- A new request has no column in common with the earlier ones on its extension. -/
def DisjointRequests (s : SettingsSystem) : SettingsEvent → Prop
  | .request _ ext request => ∀ id call, s.calls id = some call → call.extension = ext →
    Apart call.request.touches request.touches ∧ Apart request.touches call.request.touches
  | _ => True

/-- A row is written back by a request that read it with every change committed so far. -/
def ReadsLatest (s : SettingsSystem) : SettingsEvent → Prop
  | .write id true => ∀ ext request row change,
    s.calls id = some ⟨ext, request, .writing row change⟩ →
    change.Storable ∧ ∀ c, (ext, c) ∈ s.committed → c.heldBy row.create
  | _ => True

end SettingsSystem

instance (c : SettingsChange) (row : SettingsRow) : Decidable (c.heldBy row) :=
  inferInstanceAs (Decidable (c.apply row = row))

instance (c : SettingsChange) : Decidable c.Storable :=
  inferInstanceAs (Decidable (_ ∧ _))

/-! ## One change after another -/

/-- A column that only one of two changes assigns, stored through `g`. -/
theorem getD_stored_iff {α : Type} {o o' : Option α} (h : o = none ∨ o' = none) (g : α → α) (x : α) :
    o'.getD (g (o.getD x)) = g (o.getD x) ↔ o'.getD (g x) = g x := by
  rcases h with h | h
  · rw [h, Option.getD_none]
  · exact iff_of_true (by rw [h, Option.getD_none]) (by rw [h, Option.getD_none])

/-- A column's own assignment is stored, unless the default takes its place. -/
theorem getD_orDefault_iff {α : Type} [DecidableEq α] (o : Option α) (zero tag x : α) :
    o.getD (orDefault zero tag (o.getD x)) = orDefault zero tag (o.getD x) ↔
      o ≠ some zero ∨ tag = zero := by
  cases o with
  | none => simp
  | some v =>
    by_cases hv : v = zero
    · simp [orDefault, hv, eq_comm]
    · simp [orDefault, hv]

theorem none_of_not_touched {α : Type} {o o' : Option α} (h : o.isSome = true → o'.isSome = false) :
    o = none ∨ o' = none := by
  cases o with
  | none => exact .inl rfl
  | some v => exact .inr (Option.not_isSome_iff_eq_none.mp (by rw [h rfl]; nofun))

/-- Column by column. -/
theorem heldBy_iff (c : SettingsChange) (row : SettingsRow) : c.heldBy row ↔
    c.input.soundsEnabled.getD row.settings.soundsEnabled = row.settings.soundsEnabled ∧
    c.input.dtmfEnabled.getD row.settings.dtmfEnabled = row.settings.dtmfEnabled ∧
    c.input.callerTune.getD row.settings.callerTune = row.settings.callerTune ∧
    c.input.ringtone.getD row.settings.ringtone = row.settings.ringtone ∧
    c.input.pstnEnabled.getD row.settings.pstnEnabled = row.settings.pstnEnabled ∧
    c.input.pstnMobile.getD row.settings.pstnMobile = row.settings.pstnMobile ∧
    c.input.pstnCountryCode.getD row.settings.pstnCountryCode = row.settings.pstnCountryCode ∧
    c.input.recordingEnabled.getD row.settings.recordingEnabled = row.settings.recordingEnabled ∧
    c.input.voicemailEnabled.getD row.settings.voicemailEnabled = row.settings.voicemailEnabled ∧
    c.input.dnd.getD row.settings.dnd = row.settings.dnd ∧
    c.input.ratePlanId.assigned.getD row.settings.ratePlanId = row.settings.ratePlanId ∧
    c.number.getD row.callerId.outboundCallerId = row.callerId.outboundCallerId ∧
    (c.verification.map Verification.verified).getD row.callerId.callerIdVerified =
      row.callerId.callerIdVerified ∧
    (c.verification.map Verification.verifiedAt).getD row.callerId.callerIdVerifiedAt =
      row.callerId.callerIdVerifiedAt ∧
    (c.verification.map Verification.validationSid).getD row.callerId.callerIdValidationSid =
      row.callerId.callerIdValidationSid := by
  obtain ⟨settings, callerId⟩ := row
  obtain ⟨⟩ := settings
  obtain ⟨⟩ := callerId
  simp only [SettingsChange.heldBy, SettingsChange.apply, SettingsInput.apply, SettingsRow.mk.injEq,
    UserSettings.mk.injEq, CallerIdColumns.mk.injEq, and_assoc]

/-- Whether a stored row holds a change does not depend on the columns of others. -/
theorem heldBy_stored_iff {c c' : SettingsChange} (h : Apart c.touches c'.touches)
    (row : SettingsRow) : c'.heldBy (c.apply row).create ↔ c'.heldBy row.create := by
  have hverification := none_of_not_touched (h .verification)
  have hmap : ∀ {α : Type} (f : Verification → α),
      c.verification.map f = none ∨ c'.verification.map f = none := fun f =>
    hverification.imp (fun hnone => by rw [hnone]; rfl) fun hnone => by rw [hnone]; rfl
  rw [heldBy_iff, heldBy_iff]
  refine and_congr (getD_stored_iff (none_of_not_touched (h .soundsEnabled)) (orDefault false true) _)
    <| and_congr (getD_stored_iff (none_of_not_touched (h .dtmfEnabled)) (orDefault false true) _)
    <| and_congr (getD_stored_iff (none_of_not_touched (h .callerTune))
      (orDefault "" "caller_tune.wav") _)
    <| and_congr (getD_stored_iff (none_of_not_touched (h .ringtone)) (orDefault "" "ringtone.wav") _)
    <| and_congr (getD_stored_iff (none_of_not_touched (h .pstnEnabled)) (orDefault false false) _)
    <| and_congr (getD_stored_iff (none_of_not_touched (h .pstnMobile)) (fun x => x) _)
    <| and_congr (getD_stored_iff (none_of_not_touched (h .pstnCountryCode)) (orDefault "" "+91") _)
    <| and_congr (getD_stored_iff (none_of_not_touched (h .recordingEnabled))
      (orDefault false false) _)
    <| and_congr (getD_stored_iff (none_of_not_touched (h .voicemailEnabled))
      (orDefault false false) _)
    <| and_congr (getD_stored_iff (none_of_not_touched (h .dnd)) (orDefault false false) _)
    <| and_congr (getD_stored_iff (none_of_not_touched (h .ratePlanId)) (fun x => x) _)
    <| and_congr (getD_stored_iff (none_of_not_touched (h .outboundCallerId)) (fun x => x) _)
    <| and_congr (getD_stored_iff (hmap Verification.verified) (orDefault false false) _)
    <| and_congr (getD_stored_iff (hmap Verification.verifiedAt) (fun x => x) _)
      (getD_stored_iff (hmap Verification.validationSid) (fun x => x) _)

/-- A column without a default of its own stores every assignment. -/
theorem getD_self {α : Type} (o : Option α) (x : α) : o.getD (o.getD x) = o.getD x := by
  cases o <;> rfl

/-- A stored row holds its own change exactly when the change can be stored. -/
theorem heldBy_self_iff (c : SettingsChange) (row : SettingsRow) :
    c.heldBy (c.apply row).create ↔ c.Storable := by
  have hfalse : ∀ (o : Option Bool) (x : Bool),
      o.getD (orDefault false false (o.getD x)) = orDefault false false (o.getD x) := fun o x =>
    (getD_orDefault_iff o false false x).mpr (.inr rfl)
  rw [heldBy_iff]
  simp only [SettingsRow.create, UserSettings.create, CallerIdColumns.create, SettingsChange.apply,
    SettingsInput.apply, getD_orDefault_iff, hfalse, getD_self, SettingsChange.Storable, and_true,
    true_and, reduceCtorEq, or_false]
  simp

namespace SettingsSystem

variable {twilio : Bool} {s s' : SettingsSystem} {e : SettingsEvent}

/-! ## The invariant -/

/-- Every committed change is that of a request that has written. -/
def Traced (s : SettingsSystem) : Prop :=
  ∀ ext c, (ext, c) ∈ s.committed → ∃ id call, s.calls id = some call ∧ call.extension = ext ∧
    call.phase.written = true ∧ ∀ f, c.touches f = true → call.request.touches f = true

/-- Requests on one extension have no column in common. -/
def CallsApart (s : SettingsSystem) : Prop :=
  ∀ id id' call call', id ≠ id' → s.calls id = some call → s.calls id' = some call' →
    call.extension = call'.extension → Apart call.request.touches call'.request.touches

structure KeepInv (s : SettingsSystem) : Prop where
  keeps : s.KeepsChanges
  fit : s.CallsFit
  apart : s.CallsApart
  traced : s.Traced

theorem Apart.mono {t u t' u' : SettingsField → Bool} (h : Apart t' u')
    (ht : ∀ f, t f = true → t' f = true) (hu : ∀ f, u f = true → u' f = true) : Apart t u := by
  intro f hf
  have hfalse := h f (ht f hf)
  rw [Bool.eq_false_iff]
  intro htrue
  rw [hu f htrue] at hfalse
  cases hfalse

/-- A call in another phase is as far apart from the others. -/
theorem CallsApart.setPhase (h : s.CallsApart) {id : Nat} {call : SettingsCall}
    (hid : s.calls id = some call) {phase : SettingsPhase}
    (hcalls : s'.calls = (s.setPhase id call phase).calls) : s'.CallsApart := by
  -- each call has the request of a call before
  have hold : ∀ id' call', s'.calls id' = some call' → ∃ before, s.calls id' = some before ∧
      before.extension = call'.extension ∧ before.request = call'.request := by
    refine forall_of_calls hcalls (fun id' call' hid' => ⟨call', hid', rfl, rfl⟩) ?_
    exact ⟨call, hid, rfl, rfl⟩
  intro id₁ id₂ call₁ call₂ hne h₁ h₂ hext
  obtain ⟨before₁, hb₁, hext₁, hreq₁⟩ := hold id₁ call₁ h₁
  obtain ⟨before₂, hb₂, hext₂, hreq₂⟩ := hold id₂ call₂ h₂
  rw [← hreq₁, ← hreq₂]
  refine h id₁ id₂ before₁ before₂ hne hb₁ hb₂ ?_
  rw [hext₁, hext₂, hext]

theorem CallsApart.begin (h : s.CallsApart) {id : Nat} {ext : String} {request : SettingsRequest}
    {phase phase' : SettingsPhase}
    (hapart : DisjointRequests s (.request id ext request))
    (hcalls : s'.calls = (s.setPhase id ⟨ext, request, phase⟩ phase').calls) : s'.CallsApart := by
  intro id₁ id₂ call₁ call₂ hne h₁ h₂ hext
  rw [hcalls, setPhase_calls] at h₁ h₂
  split at h₁
  · rename_i heq₁
    rw [if_neg fun heq₂ => hne (heq₁.trans heq₂.symm)] at h₂
    rw [← Option.some.inj h₁] at hext ⊢
    exact (hapart id₂ call₂ h₂ hext.symm).2
  · split at h₂
    · rw [← Option.some.inj h₂] at hext ⊢
      exact (hapart id₁ call₁ h₁ hext).1
    · exact h id₁ id₂ call₁ call₂ hne h₁ h₂ hext

/-- What was traced to a call still is, when calls only advance. -/
theorem Traced.setPhase (h : s.Traced) {id : Nat} {call : SettingsCall}
    (hid : s.calls id = some call) {phase : SettingsPhase}
    (hwritten : call.phase.written = true → phase.written = true)
    (hcalls : s'.calls = (s.setPhase id call phase).calls)
    (hcommitted : s'.committed = s.committed) : s'.Traced := by
  intro ext c hc
  rw [hcommitted] at hc
  obtain ⟨id', call', hid', hext, hw, htouches⟩ := h ext c hc
  by_cases heq : id' = id
  · rw [heq, hid, Option.some.injEq] at hid'
    refine ⟨id, { call with phase }, by rw [hcalls, setPhase_calls, if_pos rfl], ?_, ?_, ?_⟩
    · rw [hid']
      exact hext
    · exact hwritten (hid' ▸ hw)
    · rw [hid']
      exact htouches
  · exact ⟨id', call', by rw [hcalls, setPhase_calls, if_neg heq]; exact hid', hext, hw, htouches⟩

theorem keepsChanges_congr (hrows : s'.rows = s.rows) (hcommitted : s'.committed = s.committed) :
    s'.KeepsChanges ↔ s.KeepsChanges := by
  unfold KeepsChanges
  rw [hrows, hcommitted]

/-- A write keeps the changes exactly when it wrote back a row with all of them. -/
theorem keepsChanges_write (h : s.KeepInv) {id : Nat} {ext : String} {request : SettingsRequest}
    {row : SettingsRow} {change : SettingsChange}
    (hid : s.calls id = some ⟨ext, request, .writing row change⟩)
    (hrows : s'.rows = fun ext' => if ext' = ext then some (change.apply row).create
      else s.rows ext')
    (hcommitted : s'.committed = (ext, change) :: s.committed) :
    s'.KeepsChanges ↔ change.Storable ∧ ∀ c, (ext, c) ∈ s.committed → c.heldBy row.create := by
  have hown := heldBy_self_iff change row
  -- the changes of other requests have other columns
  have hothers : ∀ c, (ext, c) ∈ s.committed →
      (c.heldBy (change.apply row).create ↔ c.heldBy row.create) := by
    intro c hc
    obtain ⟨id', call', hid', hext, hw, htouches⟩ := h.traced ext c hc
    have hne : id ≠ id' := by
      rintro rfl
      rw [hid, Option.some.injEq] at hid'
      rw [← hid'] at hw
      cases hw
    refine heldBy_stored_iff (Apart.mono (h.apart id id' _ call' hne hid hid' hext.symm) ?_ htouches) row
    exact (h.fit id _ hid).1
  have hrow : ∀ ext', s'.rows ext' = if ext' = ext then some (change.apply row).create
      else s.rows ext' := fun ext' => by rw [hrows]
  unfold KeepsChanges
  simp only [hrow, hcommitted]
  constructor
  · intro hall
    have hhere : ∀ c, (ext, c) ∈ (ext, change) :: s.committed →
        c.heldBy (change.apply row).create := by
      intro c hc
      obtain ⟨row', hrow', hheld⟩ := hall ext c hc
      rw [if_pos rfl, Option.some.injEq] at hrow'
      exact hrow' ▸ hheld
    refine ⟨hown.mp (hhere change List.mem_cons_self), fun c hc => ?_⟩
    exact (hothers c hc).mp (hhere c (List.mem_cons_of_mem _ hc))
  · rintro ⟨hstorable, hheld⟩ ext' c hc
    by_cases heq : ext' = ext
    · rw [heq, if_pos rfl]
      refine ⟨_, rfl, ?_⟩
      rcases List.mem_cons.mp hc with hnew | hold
      · rw [(Prod.mk.inj hnew).2]
        exact hown.mpr hstorable
      · rw [heq] at hold
        exact (hothers c hold).mpr (hheld c hold)
    · rw [if_neg heq]
      rcases List.mem_cons.mp hc with hnew | hold
      · exact absurd (Prod.mk.inj hnew).1 heq
      · exact h.keeps ext' c hold

/-! ## Runs -/

theorem keepInv_step (h : s.KeepInv) (hapart : DisjointRequests s e) (hreads : ReadsLatest s e)
    (hstep : step twilio s e = some s') : s'.KeepInv := by
  have hfit := callsFit_step h.fit hstep
  cases moves_of_step hstep with
  | stays _ hcalls hrows hcommitted =>
    refine ⟨(keepsChanges_congr hrows hcommitted).mpr h.keeps, hfit, ?_, ?_⟩
    · unfold CallsApart
      rw [hcalls]
      exact h.apart
    · unfold Traced
      rw [hcalls, hcommitted]
      exact h.traced
  | begins hevent hid hcalls hrows hcommitted =>
    rename_i id ext request
    rw [hevent] at hapart
    refine ⟨(keepsChanges_congr hrows hcommitted).mpr h.keeps, hfit, h.apart.begin hapart hcalls,
      fun ext' c hc => ?_⟩
    rw [hcommitted] at hc
    obtain ⟨id', call', hid', hrest⟩ := h.traced ext' c hc
    have hne : id' ≠ id := by
      rintro rfl
      rw [hid] at hid'
      cases hid'
    exact ⟨id', call', by rw [hcalls, setPhase_calls, if_neg hne]; exact hid', hrest⟩
  | advances _ hid _ hwritten hcalls hrows hcommitted =>
    exact ⟨(keepsChanges_congr hrows hcommitted).mpr h.keeps, hfit, h.apart.setPhase hid hcalls,
      h.traced.setPhase hid hwritten hcalls hcommitted⟩
  | writes hevent hid hcalls hrows hcommitted =>
    rename_i id ext request row change
    rw [hevent] at hreads
    refine ⟨(keepsChanges_write h hid hrows hcommitted).mpr (hreads ext request row change hid), hfit,
      h.apart.setPhase hid hcalls, fun ext' c hc => ?_⟩
    rw [hcommitted] at hc
    rcases List.mem_cons.mp hc with hnew | hold
    · -- the change of this very call
      obtain ⟨rfl, rfl⟩ := Prod.mk.inj hnew
      exact ⟨id, ⟨ext', request, afterWrite ext' (c.apply row).create request⟩,
        by rw [hcalls, setPhase_calls, if_pos rfl], rfl, written_afterWrite .., (h.fit id _ hid).1⟩
    · have htraced : Traced { s' with committed := s.committed } :=
        h.traced.setPhase hid nofun hcalls rfl
      exact htraced ext' c hold

theorem readsLatest_of_keeps (h : s.KeepInv) (hstep : step twilio s e = some s')
    (hkeeps : s'.KeepsChanges) : ReadsLatest s e := by
  cases moves_of_step hstep with
  | stays hquiet | advances hquiet =>
    cases e with
    | write id ok =>
      cases ok with
      | true => exact absurd rfl (hquiet id)
      | false => trivial
    | _ => trivial
  | begins hevent =>
    rw [hevent]
    trivial
  | writes hevent hid hcalls hrows hcommitted =>
    rename_i id ext request row change
    rw [hevent]
    intro ext' request' row' change' hid'
    rw [hid, Option.some.injEq] at hid'
    cases hid'
    exact (keepsChanges_write h hid hrows hcommitted).mp hkeeps

theorem keepInv_init (users : String → Bool) (rows : String → Option SettingsRow) :
    (init users rows).KeepInv where
  keeps := fun _ _ hc => absurd hc List.not_mem_nil
  fit := fun _ _ h => absurd h init_calls
  apart := fun _ _ _ _ _ h => absurd h init_calls
  traced := fun _ _ hc => absurd hc List.not_mem_nil

/-- When the requests on an extension have no column in common, its row holds every committed
    change in exactly the runs in which each row that is written back was read with all the
    changes before it. -/
theorem keepsChanges_throughout_iff (twilio : Bool) (users : String → Bool)
    (rows : String → Option SettingsRow) (es : List SettingsEvent)
    (hdisjoint : Meets (step twilio) DisjointRequests (init users rows) es) :
    Throughout (step twilio) KeepsChanges (init users rows) es ↔
      Meets (step twilio) ReadsLatest (init users rows) es := by
  refine Machine.throughout_iff_meets (fun s h => h.keeps)
    (fun s e s' h hP hG hstep => keepInv_step h hP hG hstep)
    (fun s e s' h _ hstep hkeeps => readsLatest_of_keeps h hstep hkeeps) (fun s e hnone => ?_)
    (keepInv_init users rows) hdisjoint
  cases e with
  | write id ok =>
    cases ok with
    | true =>
      intro ext request row change hid
      simp only [step, hid, if_true, reduceCtorEq] at hnone
    | false => trivial
  | _ => trivial

/-! ## Two requests -/

/-- A stored row of defaults. -/
def defaultRow : SettingsRow := SettingsRow.create {}

def doNotDisturb : SettingsRequest := .update { dnd := some true }

def forwardToMobile : SettingsRequest := .setPstnForward true "+14155550100"

theorem apart_requests : Apart doNotDisturb.touches forwardToMobile.touches ∧
    Apart forwardToMobile.touches doNotDisturb.touches := by
  constructor
  · intro f hf
    cases f <;> first | rfl | cases hf
  · intro f hf
    cases f <;> first | rfl | cases hf

/-- The second request begins when the first is done. -/
def oneAfterTheOther : List SettingsEvent :=
  [.request 1 "1001" doNotDisturb, .read 1 true, .write 1 true, .cache 1,
    .request 2 "1001" forwardToMobile, .read 2 true, .write 2 true, .cache 2]

theorem keepsChanges_oneAfterTheOther :
    Meets (step false) DisjointRequests (init (fun _ => true) fun _ => some defaultRow)
      oneAfterTheOther ∧
    Throughout (step false) KeepsChanges (init (fun _ => true) fun _ => some defaultRow)
      oneAfterTheOther := by
  have hdisjoint : Meets (step false) DisjointRequests (init (fun _ => true) fun _ => some defaultRow)
      oneAfterTheOther := by
    refine ⟨fun id call hcall => absurd hcall init_calls, trivial, trivial, trivial, ?_, trivial,
      trivial, trivial, trivial⟩
    intro id call hcall _
    change (if id = 1 then _ else if id = 1 then _ else if id = 1 then _ else if id = 1 then _ else
      none) = some call at hcall
    by_cases h1 : id = 1
    · rw [if_pos h1, Option.some.injEq] at hcall
      rw [← hcall]
      exact apart_requests
    · simp only [if_neg h1, reduceCtorEq] at hcall
  refine ⟨hdisjoint, (keepsChanges_throughout_iff false _ _ _ hdisjoint).mpr ?_⟩
  refine ⟨trivial, trivial, ?_, trivial, trivial, trivial, ?_, trivial, trivial⟩
  · intro ext request row change hid
    have hcall := SettingsCall.mk.inj (Option.some.inj hid)
    have hwriting := SettingsPhase.writing.inj hcall.2.2
    rw [← hwriting.2]
    exact ⟨by decide, fun c hc => absurd hc List.not_mem_nil⟩
  · intro ext request row change hid
    have hcall := SettingsCall.mk.inj (Option.some.inj hid)
    have hwriting := SettingsPhase.writing.inj hcall.2.2
    rw [← hwriting.1, ← hwriting.2]
    refine ⟨by decide, fun c hc => ?_⟩
    rw [(Prod.mk.inj (List.mem_singleton.mp hc)).2]
    decide

/-- Both requests read the row before either writes it. -/
def racing : List SettingsEvent :=
  [.request 1 "1001" doNotDisturb, .request 2 "1001" forwardToMobile, .read 1 true, .read 2 true,
    .write 1 true, .write 2 true, .cache 1, .cache 2]

theorem not_keepsChanges_racing :
    Meets (step false) DisjointRequests (init (fun _ => true) fun _ => some defaultRow) racing ∧
    ¬ Throughout (step false) KeepsChanges (init (fun _ => true) fun _ => some defaultRow)
      racing := by
  constructor
  · refine ⟨fun id call hcall => absurd hcall init_calls, ?_, trivial, trivial, trivial, trivial,
      trivial, trivial, trivial⟩
    intro id call hcall _
    change (if id = 1 then _ else none) = some call at hcall
    by_cases h1 : id = 1
    · rw [if_pos h1, Option.some.injEq] at hcall
      rw [← hcall]
      exact apart_requests
    · simp only [if_neg h1, reduceCtorEq] at hcall
  · intro h
    have hlast := h.last rfl
    obtain ⟨row, hrow, hheld⟩ := hlast "1001" { input := { dnd := some true } }
      (List.mem_cons_of_mem _ List.mem_cons_self)
    cases hrow
    exact absurd hheld (by decide)

end SettingsSystem

end CallNet.Api
