import CallNet.Api.Saves
import CallNet.ForStd.Machine

/-!
# Saved values read back

What a sequence of saves saved last, field by field, against what the rows hold after it.
`Create` replaces a zero value by the default of its tag, and both the insert and the update
of a conflict write what it chose; a value survives exactly when it is not zero, or its
default is.
-/

namespace CallNet.Api

/-! ## What was saved -/

/-- The values saved last. -/
structure Saved where
  settings : String → Option SettingsInput
  flows : String → Option IvrFlow
  availability : String → Option (List UserAvailabilityWindow)
  businessHours : Option BusinessHoursPolicy

def Saved.none : Saved := ⟨fun _ => .none, fun _ => .none, fun _ => .none, .none⟩

/-- A later plan assignment counts, if there is one. -/
def RatePlanInput.or (new old : RatePlanInput) : RatePlanInput :=
  match new with
  | .absent | .other => old
  | .null => .null
  | .id n => .id n

/-- Later values count. -/
def SettingsInput.or (new old : SettingsInput) : SettingsInput where
  soundsEnabled := new.soundsEnabled.or old.soundsEnabled
  dtmfEnabled := new.dtmfEnabled.or old.dtmfEnabled
  callerTune := new.callerTune.or old.callerTune
  ringtone := new.ringtone.or old.ringtone
  pstnEnabled := new.pstnEnabled.or old.pstnEnabled
  pstnMobile := new.pstnMobile.or old.pstnMobile
  pstnCountryCode := new.pstnCountryCode.or old.pstnCountryCode
  recordingEnabled := new.recordingEnabled.or old.recordingEnabled
  voicemailEnabled := new.voicemailEnabled.or old.voicemailEnabled
  dnd := new.dnd.or old.dnd
  ratePlanId := new.ratePlanId.or old.ratePlanId

def Saved.addSettings (saved : Saved) (ext : String) (input : SettingsInput) : Saved :=
  { saved with
    settings := Function.update saved.settings ext
      (some (input.or ((saved.settings ext).getD {}))) }

/-- The values of a save that the rows accept. -/
def Saved.record (saved : Saved) (s : Store) : SaveRequest → Saved
  | .settings ext input => saved.addSettings ext input
  | .pstnForward ext enabled target =>
    saved.addSettings ext { pstnEnabled := some enabled, pstnMobile := some target }
  | .flow caller isAdmin req newId =>
    match s.buildFlow caller isAdmin req newId with
    | some (id, flow) => { saved with flows := Function.update saved.flows id (some flow) }
    | .none => saved
  | .availability ext input =>
    match buildAvailability input with
    | some windows =>
      { saved with availability := Function.update saved.availability ext (some windows) }
    | .none => saved
  | .businessHours input =>
    match buildBusinessHours input with
    | some policy => { saved with businessHours := some policy }
    | .none => saved

/-- The rows, and what has been saved so far. -/
structure SaveHistory where
  store : Store
  saved : Saved

namespace SaveHistory

def init (store : Store) : SaveHistory := ⟨store, .none⟩

def step (h : SaveHistory) (req : SaveRequest) : Option SaveHistory :=
  (h.store.save req).map fun store => ⟨store, h.saved.record h.store req⟩

end SaveHistory

/-! ## The property and its condition -/

/-- The settings have every value of the input. -/
structure UserSettings.HasSaved (s : UserSettings) (input : SettingsInput) : Prop where
  soundsEnabled : ∀ v ∈ input.soundsEnabled, s.soundsEnabled = v
  dtmfEnabled : ∀ v ∈ input.dtmfEnabled, s.dtmfEnabled = v
  callerTune : ∀ v ∈ input.callerTune, s.callerTune = v
  ringtone : ∀ v ∈ input.ringtone, s.ringtone = v
  pstnEnabled : ∀ v ∈ input.pstnEnabled, s.pstnEnabled = v
  pstnMobile : ∀ v ∈ input.pstnMobile, s.pstnMobile = v
  pstnCountryCode : ∀ v ∈ input.pstnCountryCode, s.pstnCountryCode = v
  recordingEnabled : ∀ v ∈ input.recordingEnabled, s.recordingEnabled = v
  voicemailEnabled : ∀ v ∈ input.voicemailEnabled, s.voicemailEnabled = v
  dnd : ∀ v ∈ input.dnd, s.dnd = v
  ratePlanId : ∀ v ∈ input.ratePlanId.assigned, s.ratePlanId = v

/-- Everything reads back as it was saved last. -/
structure SaveHistory.ReadsBack (h : SaveHistory) : Prop where
  settings : ∀ ext input, h.saved.settings ext = some input →
    ∃ settings, h.store.getSettings ext = some settings ∧ settings.HasSaved input
  flows : ∀ id flow, h.saved.flows id = some flow → h.store.getFlow id = some flow
  availability : ∀ ext windows, h.saved.availability ext = some windows →
    (h.store.listAvailability ext).Perm windows
  businessHours : ∀ policy, h.saved.businessHours = some policy →
    ∃ row, h.store.getBusinessHours = some row ∧ row.timezone = policy.timezone ∧
      row.enabled = policy.enabled ∧ row.windows.Perm policy.windows ∧
      row.exceptions.Perm policy.exceptions

/-- No value that was saved last is zero in a field with another default. -/
structure Saved.Survive (saved : Saved) : Prop where
  settings : ∀ ext input, saved.settings ext = some input →
    input.soundsEnabled ≠ some false ∧ input.dtmfEnabled ≠ some false ∧
    input.callerTune ≠ some "" ∧ input.ringtone ≠ some "" ∧ input.pstnCountryCode ≠ some ""
  flows : ∀ id flow, saved.flows id = some flow → flow.enabled = true
  availability : ∀ ext windows, saved.availability ext = some windows →
    ∀ w ∈ windows, w.enabled = true
  businessHours : ∀ policy, saved.businessHours = some policy →
    ∀ e ∈ policy.exceptions, e.closedAllDay = true

/-! ## The mapper -/

theorem orDefault_self [DecidableEq α] (zero value : α) : orDefault zero zero value = value := by
  unfold orDefault
  split
  · rename_i h
    exact h.symm
  · rfl

theorem orDefault_eq_iff [DecidableEq α] {zero tag value : α} (h : tag ≠ zero) :
    orDefault zero tag value = value ↔ value ≠ zero := by
  unfold orDefault
  split
  · rename_i hzero
    rw [hzero]
    exact ⟨fun htag => absurd htag h, fun hne => absurd rfl hne⟩
  · rename_i hne
    exact ⟨fun _ => hne, fun _ => rfl⟩

theorem orDefault_orDefault [DecidableEq α] (zero tag value : α) :
    orDefault zero tag (orDefault zero tag value) = orDefault zero tag value := by
  by_cases h : value = zero
  · by_cases htag : tag = zero
    · simp [orDefault, h, htag]
    · simp [orDefault, h, htag]
  · simp [orDefault, h]

/-! ## Settings -/

theorem RatePlanInput.assigned_or (new old : RatePlanInput) :
    (new.or old).assigned = new.assigned.or old.assigned := by
  cases new <;> rfl

/-- A field that holds what `Create` made of the value saved last, or of its own, still does
    after a partial update. -/
theorem field_kept [DecidableEq α] {zero tag value : α} (new : Option α) {old : Option α}
    (h : orDefault zero tag (old.getD value) = value) :
    orDefault zero tag ((new.or old).getD (orDefault zero tag (new.getD value))) =
      orDefault zero tag (new.getD value) := by
  have hfix : orDefault zero tag value = value := by
    rw [← h, orDefault_orDefault]
  cases new with
  | none =>
    simp only [Option.none_or, Option.getD_none]
    rw [hfix, h]
  | some v => simp only [Option.some_or, Option.getD_some]

/-- The same for a field without a tag. -/
theorem plain_field_kept {value : α} (new : Option α) {old : Option α}
    (h : old.getD value = value) : (new.or old).getD (new.getD value) = new.getD value := by
  cases new with
  | none => exact h
  | some v => rfl

/-- The settings are what `Create` makes of the values saved last. -/
def Stored (input : SettingsInput) (settings : UserSettings) : Prop :=
  (input.apply settings).create = settings

theorem stored_update {old : SettingsInput} {settings : UserSettings} (h : Stored old settings)
    (input : SettingsInput) : Stored (input.or old) (input.apply settings).create := by
  unfold Stored at h ⊢
  cases settings
  simp only [SettingsInput.apply, UserSettings.create, UserSettings.mk.injEq] at h
  obtain ⟨h₁, h₂, h₃, h₄, h₅, h₆, h₇, h₈, h₉, h₁₀, h₁₁⟩ := h
  simp only [SettingsInput.apply, UserSettings.create, SettingsInput.or, UserSettings.mk.injEq,
    RatePlanInput.assigned_or]
  exact ⟨field_kept _ h₁, field_kept _ h₂, field_kept _ h₃, field_kept _ h₄, field_kept _ h₅,
    plain_field_kept _ h₆, field_kept _ h₇, field_kept _ h₈, field_kept _ h₉, field_kept _ h₁₀,
    plain_field_kept _ h₁₁⟩

theorem orDefault_getD_orDefault [DecidableEq α] (zero tag value : α) (new : Option α) :
    orDefault zero tag (new.getD (orDefault zero tag (new.getD value))) =
      orDefault zero tag (new.getD value) := by
  cases new with
  | none => exact orDefault_orDefault zero tag value
  | some v => rfl

/-- The first save of settings, whatever was loaded. -/
theorem stored_first (input : SettingsInput) (settings : UserSettings) :
    Stored (input.or {}) (input.apply settings).create := by
  unfold Stored
  simp only [SettingsInput.apply, UserSettings.create, SettingsInput.or, UserSettings.mk.injEq,
    RatePlanInput.assigned_or, Option.or_none, orDefault_getD_orDefault, true_and]
  refine ⟨?_, ?_⟩
  · cases input.pstnMobile <;> rfl
  · cases input.ratePlanId.assigned <;> rfl

theorem field_saved_iff [DecidableEq α] {zero tag value : α} {saved : Option α}
    (h : orDefault zero tag (saved.getD value) = value) :
    (∀ v ∈ saved, value = v) ↔ ∀ v ∈ saved, orDefault zero tag v = v := by
  cases saved with
  | none => exact ⟨fun _ _ => nofun, fun _ _ => nofun⟩
  | some v =>
    rw [Option.getD_some] at h
    constructor
    · intro hvalue w hw
      cases hw
      rw [h]
      exact hvalue v rfl
    · intro hsame w hw
      cases hw
      rw [← h]
      exact hsame v rfl

/-- A field without other default always has the value saved last. -/
theorem field_saved [DecidableEq α] {zero value : α} {saved : Option α}
    (h : orDefault zero zero (saved.getD value) = value) : ∀ v ∈ saved, value = v :=
  (field_saved_iff h).mpr fun v _ => orDefault_self zero v

theorem plain_field_saved {value : α} {saved : Option α} (h : saved.getD value = value) :
    ∀ v ∈ saved, value = v := by
  rintro v ⟨⟩
  exact h.symm

/-- A field with another default has the value saved last unless that is zero. -/
theorem field_survives_iff [DecidableEq α] {zero tag value : α} {saved : Option α}
    (htag : tag ≠ zero) (h : orDefault zero tag (saved.getD value) = value) :
    (∀ v ∈ saved, value = v) ↔ saved ≠ some zero := by
  rw [field_saved_iff h]
  constructor
  · rintro hsame rfl
    exact (orDefault_eq_iff htag).mp (hsame zero rfl) rfl
  · intro hne v hv
    rw [orDefault_eq_iff htag]
    rintro rfl
    exact hne hv

theorem hasSaved_iff {input : SettingsInput} {settings : UserSettings}
    (h : Stored input settings) :
    settings.HasSaved input ↔
      input.soundsEnabled ≠ some false ∧ input.dtmfEnabled ≠ some false ∧
      input.callerTune ≠ some "" ∧ input.ringtone ≠ some "" ∧
      input.pstnCountryCode ≠ some "" := by
  unfold Stored at h
  obtain ⟨h₁, h₂, h₃, h₄, h₅, h₆, h₇, h₈, h₉, h₁₀, h₁₁⟩ := UserSettings.mk.injEq .. ▸ h
  constructor
  · intro hsaved
    exact ⟨(field_survives_iff (by decide) h₁).mp hsaved.soundsEnabled,
      (field_survives_iff (by decide) h₂).mp hsaved.dtmfEnabled,
      (field_survives_iff (by decide) h₃).mp hsaved.callerTune,
      (field_survives_iff (by decide) h₄).mp hsaved.ringtone,
      (field_survives_iff (by decide) h₇).mp hsaved.pstnCountryCode⟩
  · rintro ⟨hsounds, hdtmf, htune, hringtone, hcountry⟩
    exact
      { soundsEnabled := (field_survives_iff (by decide) h₁).mpr hsounds
        dtmfEnabled := (field_survives_iff (by decide) h₂).mpr hdtmf
        callerTune := (field_survives_iff (by decide) h₃).mpr htune
        ringtone := (field_survives_iff (by decide) h₄).mpr hringtone
        pstnEnabled := field_saved h₅
        pstnMobile := plain_field_saved h₆
        pstnCountryCode := (field_survives_iff (by decide) h₇).mpr hcountry
        recordingEnabled := field_saved h₈
        voicemailEnabled := field_saved h₉
        dnd := field_saved h₁₀
        ratePlanId := plain_field_saved h₁₁ }

/-! ## The invariant of a sequence of saves -/

/-- The rows hold what `Create` makes of the values saved last. -/
structure SaveHistory.Inv (h : SaveHistory) : Prop where
  settings : ∀ ext input, h.saved.settings ext = some input →
    ∃ settings, h.store.getSettings ext = some settings ∧ Stored input settings
  flows : ∀ id flow, h.saved.flows id = some flow → h.store.getFlow id = some flow.create
  availability : ∀ ext windows, h.saved.availability ext = some windows →
    h.store.availability ext = windows.map UserAvailabilityWindow.create ∧
      ∀ w ∈ windows, w.timezone ≠ ""
  businessHours : ∀ policy, h.saved.businessHours = some policy →
    h.store.businessHours =
      some { policy with exceptions := policy.exceptions.map BusinessHoursException.create }

theorem SaveHistory.inv_init (store : Store) : (init store).Inv where
  settings _ _ hsaved := nomatch hsaved
  flows _ _ hsaved := nomatch hsaved
  availability _ _ hsaved := nomatch hsaved
  businessHours _ hsaved := nomatch hsaved

/-- A save of settings, of which something may have been loaded. -/
theorem SaveHistory.Inv.upsertSettings {h : SaveHistory} (hinv : h.Inv) (ext : String)
    (input : SettingsInput) {loaded : UserSettings}
    (hloaded : ∀ settings, h.store.getSettings ext = some settings → loaded = settings) :
    Inv ⟨h.store.upsertSettings ext (input.apply loaded), h.saved.addSettings ext input⟩ where
  settings ext' input' hsaved := by
    simp only [Saved.addSettings] at hsaved
    by_cases heq : ext' = ext
    · subst heq
      rw [Function.update_self, Option.some.injEq] at hsaved
      subst hsaved
      refine ⟨_, OrdMap.get?_set_self .., ?_⟩
      cases hold : h.saved.settings ext' with
      | none => exact stored_first input loaded
      | some old =>
        obtain ⟨settings, hget, hstored⟩ := hinv.settings ext' old hold
        rw [hloaded settings hget]
        exact stored_update hstored input
    · rw [Function.update_of_ne heq] at hsaved
      obtain ⟨settings, hget, hstored⟩ := hinv.settings ext' input' hsaved
      exact ⟨settings, (OrdMap.get?_set_ne _ _ heq).trans hget, hstored⟩
  flows := hinv.flows
  availability := hinv.availability
  businessHours := hinv.businessHours

theorem SaveHistory.Inv.updateSettings {h : SaveHistory} (hinv : h.Inv) {ext : String}
    {input : SettingsInput} {store : Store} (hsave : h.store.updateSettings ext input = some store) :
    Inv ⟨store, h.saved.addSettings ext input⟩ := by
  unfold Store.updateSettings at hsave
  split at hsave
  · rename_i settings hget
    rw [Option.some.injEq] at hsave
    subst hsave
    apply hinv.upsertSettings ext input
    intro settings' hget'
    exact Option.some.inj (hget.symm.trans hget')
  · rename_i hnone
    split at hsave
    · rw [Option.some.injEq] at hsave
      subst hsave
      apply hinv.upsertSettings ext input
      intro settings' hget'
      rw [hnone] at hget'
      cases hget'
    · cases hsave

/-- The PSTN forward is a partial update of two fields. -/
theorem setPstnForward_eq (s : Store) (ext : String) (enabled : Bool) (target : String) :
    s.setPstnForward ext enabled target =
      s.updateSettings ext { pstnEnabled := some enabled, pstnMobile := some target } := by
  unfold Store.setPstnForward Store.updateSettings
  cases s.getSettings ext <;> rfl

/-- What a built flow says about the stored one. -/
theorem owner_of_buildFlow {s : Store} {caller : String} {isAdmin : Bool} {req : IvrFlowRequest}
    {newId id : String} {flow row : IvrFlow}
    (hbuild : s.buildFlow caller isAdmin req newId = some (id, flow))
    (hget : s.getFlow id = some row) : row.ownerExtension = flow.ownerExtension := by
  unfold Store.buildFlow at hbuild
  split at hbuild
  · cases hbuild
  · obtain ⟨owner, howner, hbuild⟩ := Option.bind_eq_some_iff.mp hbuild
    obtain ⟨-, hflow⟩ := Option.ite_none_right_eq_some.mp hbuild
    rw [Option.some.injEq, Prod.mk.injEq] at hflow
    obtain ⟨rfl, rfl⟩ := hflow
    unfold Store.flowOwner at howner
    by_cases hid : req.id = ""
    · -- a new id belongs to no flow
      rw [if_pos hid] at hget
      rw [if_pos hid, hget] at howner
      cases howner
    · rw [if_neg hid] at hget
      rw [if_neg hid, hget] at howner
      simp only at howner
      split at howner
      · cases howner
      · exact Option.some.inj howner

theorem get?_upsertFlow (s : Store) (id id' : String) (flow : IvrFlow)
    (howner : ∀ row, s.getFlow id = some row → row.ownerExtension = flow.ownerExtension) :
    (s.upsertFlow id flow).getFlow id' =
      if id' = id then some flow.create else s.getFlow id' := by
  unfold Store.upsertFlow
  split
  · rename_i row hget
    simp only [Store.getFlow, OrdMap.get?_set]
    split
    · have hsame := howner row hget
      simp only [IvrFlow.create, hsame]
    · rfl
  · simp only [Store.getFlow, OrdMap.get?_set]

theorem timezone_of_buildAvailability {input : AvailabilityInput}
    {windows : List UserAvailabilityWindow} (hbuild : buildAvailability input = some windows) :
    ∀ w ∈ windows, w.timezone ≠ "" := by
  unfold buildAvailability at hbuild
  simp only at hbuild
  split at hbuild
  · cases hbuild
    intro w hw
    obtain ⟨win, -, rfl⟩ := List.mem_map.mp hw
    simp only [normalizeTimezone]
    split
    · decide
    · assumption
  · cases hbuild

theorem timezone_of_buildBusinessHours {input : BusinessHoursInput} {policy : BusinessHoursPolicy}
    (hbuild : buildBusinessHours input = some policy) : policy.timezone ≠ "" := by
  unfold buildBusinessHours at hbuild
  obtain ⟨_, _, hbuild⟩ := Option.bind_eq_some_iff.mp hbuild
  obtain ⟨exceptions, _, hbuild⟩ := Option.bind_eq_some_iff.mp hbuild
  rw [← Option.some.inj hbuild]
  simp only [normalizeTimezone]
  split
  · decide
  · assumption

namespace SaveHistory

theorem Inv.flow {h : SaveHistory} (hinv : h.Inv) {caller : String} {isAdmin : Bool}
    {req : IvrFlowRequest} {newId id : String} {flow : IvrFlow}
    (hbuild : h.store.buildFlow caller isAdmin req newId = some (id, flow)) :
    Inv ⟨h.store.upsertFlow id flow,
      { h.saved with flows := Function.update h.saved.flows id (some flow) }⟩ := by
  have hsame : (h.store.upsertFlow id flow).settings = h.store.settings ∧
      (h.store.upsertFlow id flow).availability = h.store.availability ∧
      (h.store.upsertFlow id flow).businessHours = h.store.businessHours := by
    unfold Store.upsertFlow
    split <;> exact ⟨rfl, rfl, rfl⟩
  constructor
  · intro ext input hsaved
    simp only [Store.getSettings, hsame.1]
    exact hinv.settings ext input hsaved
  · intro id' flow' hsaved
    rw [get?_upsertFlow _ _ _ _ fun row hget => owner_of_buildFlow hbuild hget]
    by_cases heq : id' = id
    · rw [if_pos heq]
      simp only [heq, Function.update_self, Option.some.injEq] at hsaved
      rw [hsaved]
    · rw [if_neg heq]
      simp only [Function.update_of_ne heq] at hsaved
      exact hinv.flows id' flow' hsaved
  · intro ext windows hsaved
    rw [hsame.2.1]
    exact hinv.availability ext windows hsaved
  · intro policy hsaved
    rw [hsame.2.2]
    exact hinv.businessHours policy hsaved

theorem Inv.availabilitySaved {h : SaveHistory} (hinv : h.Inv) (ext : String)
    {input : AvailabilityInput} {windows : List UserAvailabilityWindow}
    (hbuild : buildAvailability input = some windows) :
    Inv ⟨h.store.replaceAvailability ext windows,
      { h.saved with
        availability := Function.update h.saved.availability ext (some windows) }⟩ where
  settings := hinv.settings
  flows := hinv.flows
  businessHours := hinv.businessHours
  availability ext' windows' hsaved := by
    simp only [Store.replaceAvailability]
    by_cases heq : ext' = ext
    · simp only [heq, Function.update_self, Option.some.injEq] at hsaved ⊢
      rw [← hsaved]
      exact ⟨rfl, timezone_of_buildAvailability hbuild⟩
    · simp only [Function.update_of_ne heq] at hsaved ⊢
      exact hinv.availability ext' windows' hsaved

theorem Inv.businessHoursSaved {h : SaveHistory} (hinv : h.Inv) {input : BusinessHoursInput}
    {policy : BusinessHoursPolicy} (hbuild : buildBusinessHours input = some policy) :
    Inv ⟨h.store.saveBusinessHours policy.timezone policy.enabled policy.windows policy.exceptions,
      { h.saved with businessHours := some policy }⟩ where
  settings := hinv.settings
  flows := hinv.flows
  availability := hinv.availability
  businessHours policy' hsaved := by
    cases hsaved
    simp only [Store.saveBusinessHours]
    cases h.store.businessHours with
    | none =>
      -- the tag of the timezone does not matter: it is never empty
      have htimezone : orDefault "" "UTC" policy.timezone = policy.timezone :=
        (orDefault_eq_iff (by decide)).mpr (timezone_of_buildBusinessHours hbuild)
      simp only [htimezone, orDefault_self]
    | some _ => rfl

theorem Inv.step {h h' : SaveHistory} {req : SaveRequest} (hinv : h.Inv)
    (hstep : h.step req = some h') : h'.Inv := by
  unfold SaveHistory.step at hstep
  obtain ⟨store, hsave, rfl⟩ := Option.map_eq_some_iff.mp hstep
  cases req with
  | settings ext input => exact hinv.updateSettings hsave
  | pstnForward ext enabled target =>
    simp only [Store.save, setPstnForward_eq] at hsave
    exact hinv.updateSettings hsave
  | flow caller isAdmin req newId =>
    obtain ⟨⟨id, flow⟩, hbuild, rfl⟩ := Option.map_eq_some_iff.mp hsave
    simp only [Saved.record, hbuild]
    exact hinv.flow hbuild
  | availability ext input =>
    obtain ⟨windows, hbuild, rfl⟩ := Option.map_eq_some_iff.mp hsave
    simp only [Saved.record, hbuild]
    exact hinv.availabilitySaved ext hbuild
  | businessHours input =>
    obtain ⟨policy, hbuild, rfl⟩ := Option.map_eq_some_iff.mp hsave
    simp only [Saved.record, hbuild]
    exact hinv.businessHoursSaved hbuild

/-! ## What survives -/

/-- The images are the list itself exactly when it has what every image has. -/
theorem perm_map_iff {f : α → α} {p : α → Prop} {l : List α} (himage : ∀ a, p (f a))
    (hfix : ∀ a ∈ l, p a → f a = a) : (l.map f).Perm l ↔ ∀ a ∈ l, p a := by
  constructor
  · intro hperm a ha
    obtain ⟨b, -, rfl⟩ := List.mem_map.mp (hperm.mem_iff.mpr ha)
    exact himage b
  · intro hall
    have hsame : l.map f = l.map id := List.map_congr_left fun a ha => hfix a ha (hall a ha)
    rw [hsame, List.map_id]

theorem orDefault_true (value : Bool) : orDefault false true value = true := by
  cases value <;> rfl

theorem availability_perm_iff {windows : List UserAvailabilityWindow}
    (htimezone : ∀ w ∈ windows, w.timezone ≠ "") :
    (windows.map UserAvailabilityWindow.create).Perm windows ↔ ∀ w ∈ windows, w.enabled = true := by
  apply perm_map_iff
  · exact fun w => orDefault_true w.enabled
  · intro w hw henabled
    have htimezone' : orDefault "" "UTC" w.timezone = w.timezone :=
      (orDefault_eq_iff (by decide)).mpr (htimezone w hw)
    unfold UserAvailabilityWindow.create
    rw [htimezone', orDefault_true, ← henabled]

theorem exceptions_perm_iff (exceptions : List BusinessHoursException) :
    (exceptions.map BusinessHoursException.create).Perm exceptions ↔
      ∀ e ∈ exceptions, e.closedAllDay = true := by
  apply perm_map_iff
  · exact fun e => orDefault_true e.closedAllDay
  · intro e _ hclosed
    unfold BusinessHoursException.create
    rw [orDefault_true, orDefault_self, ← hclosed]

theorem flow_create_eq_iff (flow : IvrFlow) : flow.create = flow ↔ flow.enabled = true := by
  constructor
  · intro h
    rw [← h]
    exact orDefault_true flow.enabled
  · intro henabled
    unfold IvrFlow.create
    rw [orDefault_true, ← henabled]

theorem Inv.readsBack_iff {h : SaveHistory} (hinv : h.Inv) : h.ReadsBack ↔ h.saved.Survive := by
  constructor
  · intro hback
    constructor
    · intro ext input hsaved
      obtain ⟨settings, hget, hhas⟩ := hback.settings ext input hsaved
      obtain ⟨settings', hget', hstored⟩ := hinv.settings ext input hsaved
      have hsame : settings = settings' := Option.some.inj (hget.symm.trans hget')
      rw [hsame] at hhas
      exact (hasSaved_iff hstored).mp hhas
    · intro id flow hsaved
      have hget := (hback.flows id flow hsaved).symm.trans (hinv.flows id flow hsaved)
      exact (flow_create_eq_iff flow).mp (Option.some.inj hget).symm
    · intro ext windows hsaved
      obtain ⟨hrows, htimezone⟩ := hinv.availability ext windows hsaved
      have hperm := hback.availability ext windows hsaved
      rw [Store.listAvailability, hrows] at hperm
      exact (availability_perm_iff htimezone).mp ((List.mergeSort_perm _ _).symm.trans hperm)
    · intro policy hsaved
      obtain ⟨row, hget, -, -, -, hperm⟩ := hback.businessHours policy hsaved
      rw [Store.getBusinessHours, hinv.businessHours policy hsaved, Option.map_some,
        Option.some.injEq] at hget
      rw [← hget] at hperm
      exact (exceptions_perm_iff _).mp ((List.mergeSort_perm _ _).symm.trans hperm)
  · intro hsurvive
    constructor
    · intro ext input hsaved
      obtain ⟨settings, hget, hstored⟩ := hinv.settings ext input hsaved
      exact ⟨settings, hget, (hasSaved_iff hstored).mpr (hsurvive.settings ext input hsaved)⟩
    · intro id flow hsaved
      rw [hinv.flows id flow hsaved, (flow_create_eq_iff flow).mpr (hsurvive.flows id flow hsaved)]
    · intro ext windows hsaved
      obtain ⟨hrows, htimezone⟩ := hinv.availability ext windows hsaved
      have hperm := (availability_perm_iff htimezone).mpr (hsurvive.availability ext windows hsaved)
      rw [Store.listAvailability, hrows]
      exact (List.mergeSort_perm _ _).trans hperm
    · intro policy hsaved
      have hperm := (exceptions_perm_iff _).mpr (hsurvive.businessHours policy hsaved)
      rw [Store.getBusinessHours, hinv.businessHours policy hsaved]
      exact ⟨_, rfl, rfl, rfl, List.mergeSort_perm _ _, (List.mergeSort_perm _ _).trans hperm⟩

/-- After a sequence of accepted saves everything reads back as it was saved last exactly when
    no value saved last is zero in a field with another default. -/
theorem reads_back_iff (store : Store) (reqs : List SaveRequest) (h : SaveHistory)
    (hrun : Machine.run step (init store) reqs = some h) :
    h.ReadsBack ↔ h.saved.Survive :=
  (Machine.run_invariant (fun _ _ _ hinv hstep => hinv.step hstep) (inv_init store)
    hrun).readsBack_iff

/-- A user who has saved nothing yet. -/
def oneUser : Store := ⟨["1001"], .empty, .empty, fun _ => [], .none⟩

theorem reads_back_iff_toggled :
    ∃ h, Machine.run step (init oneUser)
        [.settings "1001" { soundsEnabled := some false },
          .settings "1001" { soundsEnabled := some true, dnd := some true },
          .pstnForward "1001" false ""] = some h ∧
      (h.ReadsBack ↔ h.saved.Survive) := by
  refine ⟨_, rfl, ?_⟩
  exact reads_back_iff oneUser
    [.settings "1001" { soundsEnabled := some false },
      .settings "1001" { soundsEnabled := some true, dnd := some true },
      .pstnForward "1001" false ""] _ rfl

/-- A flow that is saved disabled reads back enabled. -/
theorem not_reads_back_disabled :
    ∃ h, Machine.run step (init oneUser)
        [.flow "1001" false ⟨"", "Front desk", "6001", some false, "", ""⟩ "ivr_1"] = some h ∧
      (h.saved.flows "ivr_1").map IvrFlow.enabled = some false ∧
      (h.store.getFlow "ivr_1").map IvrFlow.enabled = some true ∧ ¬ h.ReadsBack := by
  refine ⟨_, rfl, rfl, rfl, fun hback => ?_⟩
  have hget := hback.flows "ivr_1" _ rfl
  exact absurd hget (by decide +kernel)

end SaveHistory

end CallNet.Api
