import CallNet.Engine.IvrFlowCache
import CallNet.ForStd.Machine

/-!
# Convergence of the IVR flow cache

A change of a flow is followed by the deletion of its cache entry and by a notification, and
the engine's sync deletes the entry again and updates the set of extensions.  While one of
these is due for an extension, its entry and its place in the set may be wrong; they are
right otherwise (`Inv`), as long as

- a flow that is stored under another extension was disabled, or a notification of its old
  extension is still to be handled: the new one names the new extension only;
- a lookup or a sync acts on something older than the table only while something that
  corrects it is still due.
-/

namespace CallNet

open Machine (Meets Throughout)

namespace IvrFlowSystem

/-! ## What is due -/

/-- Something is going to delete the cache entry of this extension. -/
def RedisDue (s : IvrFlowSystem) (extension : String) : Prop :=
  extension ∈ s.notifications ∨
    (∃ req r, s.requests req = some r ∧ r.drops = some extension) ∨
    ∃ id, s.syncs id = some ⟨extension, .dropping⟩

/-- The sync is going to put the extension into its right place. -/
def Corrects (t : IvrFlowTable) (extension : String) (sync : FlowSync) : Prop :=
  sync.extension = extension ∧
    ∀ flow, sync.phase = .loaded flow →
      flow.isSome = (t.loadIvrFlowByExtension extension).isSome

/-- Something other than the sync `except` is going to put the extension into its right
    place in the set. -/
def SetDue (s : IvrFlowSystem) (except : Nat → Prop) (extension : String) : Prop :=
  extension ∈ s.notifications ∨
    ∃ id sync, s.syncs id = some sync ∧ ¬ except id ∧ Corrects s.table extension sync

/-- The set has the extension exactly when it has an enabled flow. -/
def InPlace (s : IvrFlowSystem) (extension : String) : Prop :=
  extension ∈ s.ivrFlowExtensions ↔ (s.table.loadIvrFlowByExtension extension).isSome = true

/-- Entries and set are right, or corrections are due. -/
structure Inv (s : IvrFlowSystem) : Prop where
  redis : ∀ extension entry, s.redis extension = some entry →
    entry = s.table.loadIvrFlowByExtension extension ∨ s.RedisDue extension
  set : ∀ extension, s.InPlace extension ∨ s.SetDue (fun _ => False) extension

/-- Nothing is in flight. -/
structure Quiet (s : IvrFlowSystem) : Prop where
  notifications : s.notifications = []
  requests : ∀ req, s.requests req = none
  syncs : ∀ id, s.syncs id = none
  lookups : ∀ id, s.lookups id = none

/-- Once nothing is in flight, every lookup answers with the enabled stored flow of its
    extension, and the set holds exactly the extensions that have one. -/
def Converged (s : IvrFlowSystem) : Prop :=
  s.Quiet → ∀ extension,
    s.getIvrFlow extension = s.table.loadIvrFlowByExtension extension ∧
    (s.isIvrFlowExtension extension = true ↔
      (s.table.loadIvrFlowByExtension extension).isSome = true)

/-- The conditions on a step. -/
def Covered (s : IvrFlowSystem) : IvrFlowEvent → Prop
  | .save _ row => ∀ old, s.table.rows.get? row.id = some old → old.extension ≠ row.extension →
      old.enabled = false ∨ old.extension ∈ s.notifications
  | .fill id => ∀ extension flow, s.lookups id = some ⟨extension, some flow⟩ →
      flow = s.table.loadIvrFlowByExtension extension ∨ s.RedisDue extension
  | .syncApply id => ∀ extension flow, s.syncs id = some ⟨extension, .loaded flow⟩ →
      flow.isSome = (s.table.loadIvrFlowByExtension extension).isSome ∨
        s.SetDue (· = id) extension
  | .syncFail id => ∀ extension, s.syncs id = some ⟨extension, .loading⟩ →
      s.InPlace extension ∨ s.SetDue (· = id) extension
  | _ => True

/-! ## The table -/

theorem load_eq_some_iff {t : IvrFlowTable} {extension : String} {flow : IvrFlowGraph} :
    t.loadIvrFlowByExtension extension = some flow ↔
      ∃ id, t.rows.get? id = some flow ∧ flow.extension = extension ∧ flow.enabled = true := by
  constructor
  · intro h
    have hmem := List.mem_of_find?_eq_some h
    have hp := List.find?_some h
    simp only [decide_eq_true_eq] at hp
    obtain ⟨id, hid⟩ := OrdMap.mem_values_iff.mp hmem
    exact ⟨id, hid, hp⟩
  · rintro ⟨id, hget, hext, henabled⟩
    have hsome : (t.loadIvrFlowByExtension extension).isSome = true := by
      rw [IvrFlowTable.loadIvrFlowByExtension, List.find?_isSome]
      exact ⟨flow, OrdMap.mem_values_iff.mpr ⟨id, hget⟩, by simp [hext, henabled]⟩
    obtain ⟨flow', hflow'⟩ := Option.isSome_iff_exists.mp hsome
    -- the extension is unique
    have hmem := List.mem_of_find?_eq_some hflow'
    have hp := List.find?_some hflow'
    simp only [decide_eq_true_eq] at hp
    obtain ⟨id', hid'⟩ := OrdMap.mem_values_iff.mp hmem
    have heq := t.unique id id' flow flow' hget hid' (hext.trans hp.1.symm)
    rw [← heq, hget] at hid'
    rw [hflow', Option.some.inj hid']

/-- Two tables whose rows of an extension are the same answer alike. -/
theorem load_congr {t t' : IvrFlowTable} {extension : String}
    (h : ∀ id flow, flow.extension = extension → flow.enabled = true →
      (t.rows.get? id = some flow ↔ t'.rows.get? id = some flow)) :
    t.loadIvrFlowByExtension extension = t'.loadIvrFlowByExtension extension := by
  apply Option.ext
  intro flow
  rw [load_eq_some_iff, load_eq_some_iff]
  constructor
  · rintro ⟨id, hget, hext, henabled⟩
    exact ⟨id, (h id flow hext henabled).mp hget, hext, henabled⟩
  · rintro ⟨id, hget, hext, henabled⟩
    exact ⟨id, (h id flow hext henabled).mpr hget, hext, henabled⟩

/-- Storing a flow changes nothing for other extensions, but for the one it had. -/
theorem load_upsert {t : IvrFlowTable} {row : IvrFlowGraph} (hext : row.extension ≠ "")
    (hfree : t.Free row) {extension : String} (hne : extension ≠ row.extension)
    (hold : ∀ old, t.rows.get? row.id = some old → old.extension = extension →
      old.enabled = false) :
    (t.upsert row hext hfree).loadIvrFlowByExtension extension =
      t.loadIvrFlowByExtension extension := by
  apply load_congr
  intro id flow hflow henabled
  simp only [IvrFlowTable.upsert, OrdMap.get?_set]
  split
  · rename_i hid
    constructor
    · intro h
      cases h
      exact absurd hflow.symm hne
    · intro h
      rw [hid] at h
      rw [hold flow h hflow] at henabled
      cases henabled
  · exact Iff.rfl

/-- Deleting a flow changes nothing for other extensions. -/
theorem load_delete {t : IvrFlowTable} {id extension : String}
    (hother : ∀ old, t.rows.get? id = some old → old.extension ≠ extension) :
    (t.delete id).loadIvrFlowByExtension extension = t.loadIvrFlowByExtension extension := by
  apply load_congr
  intro id' flow hflow _
  simp only [IvrFlowTable.delete, OrdMap.get?_delete]
  split
  · rename_i hid
    constructor
    · intro h
      cases h
    · intro h
      rw [hid] at h
      exact absurd hflow (hother flow h)
  · exact Iff.rfl

theorem mem_loadEnabled_iff {t : IvrFlowTable} {extension : String} :
    extension ∈ t.loadEnabledIvrFlowExtensions ↔
      (t.loadIvrFlowByExtension extension).isSome = true := by
  simp only [IvrFlowTable.loadEnabledIvrFlowExtensions, List.mem_filter, List.mem_map,
    Option.isSome_iff_exists, load_eq_some_iff, decide_eq_true_eq]
  constructor
  · rintro ⟨⟨flow, ⟨hmem, henabled⟩, hext⟩, -⟩
    obtain ⟨id, hid⟩ := OrdMap.mem_values_iff.mp hmem
    exact ⟨flow, id, hid, hext, henabled⟩
  · rintro ⟨flow, id, hid, hext, henabled⟩
    exact ⟨⟨flow, ⟨OrdMap.mem_values_iff.mpr ⟨id, hid⟩, henabled⟩, hext⟩,
      hext ▸ t.nonempty id flow hid⟩

/-! ## Steps that change neither table nor set -/

theorem setRequest_of_ne (s : IvrFlowSystem) {req req' : Nat} (r : Option FlowRequest)
    (h : req' ≠ req) : (s.setRequest req r).requests req' = s.requests req' :=
  Function.update_of_ne h ..

theorem setSync_self (s : IvrFlowSystem) (id : Nat) (sync : Option FlowSync) :
    (s.setSync id sync).syncs id = sync := Function.update_self ..

theorem setSync_of_ne (s : IvrFlowSystem) {id id' : Nat} (sync : Option FlowSync)
    (h : id' ≠ id) : (s.setSync id sync).syncs id' = s.syncs id' := Function.update_of_ne h ..

theorem setRedis_self (s : IvrFlowSystem) (extension : String)
    (entry : Option (Option IvrFlowGraph)) : (s.setRedis extension entry).redis extension = entry :=
  Function.update_self ..

theorem setRedis_of_ne (s : IvrFlowSystem) {extension extension' : String}
    (entry : Option (Option IvrFlowGraph)) (h : extension' ≠ extension) :
    (s.setRedis extension entry).redis extension' = s.redis extension' := Function.update_of_ne h ..

/-- A deleted entry was there before or is gone. -/
theorem redis_of_setRedis_none {s : IvrFlowSystem} {extension extension' : String}
    {entry : Option IvrFlowGraph} (h : (s.setRedis extension none).redis extension' = some entry) :
    s.redis extension' = some entry := by
  by_cases heq : extension' = extension
  · rw [heq, setRedis_self] at h
    cases h
  · rwa [setRedis_of_ne s none heq] at h

theorem Inv.of_frame {s s' : IvrFlowSystem} (h : s.Inv) (htable : s'.table = s.table)
    (hset : s'.ivrFlowExtensions = s.ivrFlowExtensions)
    (hredis : ∀ extension entry, s'.redis extension = some entry →
      s.redis extension = some entry)
    (hdue : ∀ extension, s.RedisDue extension →
      s'.redis extension = none ∨ s'.RedisDue extension)
    (hsetDue : ∀ extension, s.SetDue (fun _ => False) extension →
      s'.SetDue (fun _ => False) extension) : s'.Inv := by
  constructor
  · intro extension entry hentry
    rcases h.redis extension entry (hredis extension entry hentry) with hright | hd
    · rw [htable]
      exact .inl hright
    · rcases hdue extension hd with hnone | hd'
      · rw [hnone] at hentry
        cases hentry
      · exact .inr hd'
  · intro extension
    rcases h.set extension with hplace | hd
    · left
      rw [InPlace, htable, hset]
      exact hplace
    · exact .inr (hsetDue extension hd)

/-- A deletion by a request that is answered, or goes on to delete its row. -/
theorem Inv.drop {s : IvrFlowSystem} (h : s.Inv) {req : Nat} {r : FlowRequest}
    {extension : String} (hreq : s.requests req = some r) (hdrops : r.drops = some extension)
    (next : Option FlowRequest) : Inv ((s.setRedis extension none).setRequest req next) := by
  apply h.of_frame
  · rfl
  · rfl
  · exact fun extension' entry hentry => redis_of_setRedis_none hentry
  · rintro extension' (hn | ⟨req', r', hr', hd⟩ | hsync)
    · exact .inr (.inl hn)
    · by_cases heq : req' = req
      · -- the deletion that was due happens
        rw [heq, hreq, Option.some.injEq] at hr'
        rw [← hr', hdrops, Option.some.injEq] at hd
        left
        rw [← hd]
        exact setRedis_self s extension none
      · exact .inr (.inr (.inl ⟨req', r', (setRequest_of_ne _ next heq).trans hr', hd⟩))
    · exact .inr (.inr (.inr hsync))
  · exact fun _ hd => hd

/-- A request begins. -/
theorem Inv.request {s : IvrFlowSystem} (h : s.Inv) {req : Nat}
    (hfree : (s.requests req).isNone = true) (r : FlowRequest) :
    Inv (s.setRequest req (some r)) := by
  refine h.of_frame ?_ ?_ (fun _ _ hentry => hentry) ?_ ?_
  · rfl
  · rfl
  · rintro extension (hn | ⟨req', r', hr', hd⟩ | hsync)
    · exact .inr (.inl hn)
    · have hne : req' ≠ req := by
        intro heq
        rw [heq, Option.isNone_iff_eq_none.mp hfree] at hr'
        cases hr'
      exact .inr (.inr (.inl ⟨req', r', (setRequest_of_ne s _ hne).trans hr', hd⟩))
    · exact .inr (.inr (.inr hsync))
  · exact fun _ hd => hd

theorem Inv.notified {s : IvrFlowSystem} (h : s.Inv) {id : Nat} {extension : String}
    {rest : List String} (hfree : s.syncs id = none) (hnext : s.notifications = extension :: rest) :
    Inv ({ s with notifications := rest }.setSync id (some ⟨extension, .dropping⟩)) := by
  have hother : ∀ {id' sync}, s.syncs id' = some sync → id' ≠ id := by
    intro id' sync hsync heq
    rw [heq, hfree] at hsync
    cases hsync
  refine h.of_frame ?_ ?_ (fun _ _ hentry => hentry) ?_ ?_
  · rfl
  · rfl
  · rintro extension' (hn | hreq | ⟨id', hsync⟩)
    · rw [hnext, List.mem_cons] at hn
      rcases hn with rfl | hn
      · exact .inr (.inr (.inr ⟨id, setSync_self ..⟩))
      · exact .inr (.inl hn)
    · exact .inr (.inr (.inl hreq))
    · exact .inr (.inr (.inr ⟨id', (setSync_of_ne _ _ (hother hsync)).trans hsync⟩))
  · rintro extension' (hn | ⟨id', sync, hsync, hx, hc⟩)
    · rw [hnext, List.mem_cons] at hn
      rcases hn with rfl | hn
      · exact .inr ⟨id, _, setSync_self .., fun hf => hf, rfl, nofun⟩
      · exact .inl hn
    · exact .inr ⟨id', sync, (setSync_of_ne _ _ (hother hsync)).trans hsync, hx, hc⟩

/-- A deletion that is due does not hang on a sync that has made its own. -/
theorem RedisDue.of_sync {s s' : IvrFlowSystem} {id : Nat} {sync : FlowSync} {extension : String}
    (h : s.RedisDue extension) (hsync : s.syncs id = some sync) (hphase : sync.phase ≠ .dropping)
    (hother : ∀ id', id' ≠ id → s'.syncs id' = s.syncs id')
    (hn : s'.notifications = s.notifications) (hr : s'.requests = s.requests) :
    s'.RedisDue extension := by
  rcases h with hpending | ⟨req, r, hreq, hdrops⟩ | ⟨id', hsync'⟩
  · exact .inl (hn ▸ hpending)
  · exact .inr (.inl ⟨req, r, hr ▸ hreq, hdrops⟩)
  · have hne : id' ≠ id := by
      intro heq
      rw [heq, hsync, Option.some.injEq] at hsync'
      rw [hsync'] at hphase
      exact hphase rfl
    exact .inr (.inr ⟨id', (hother id' hne).trans hsync'⟩)

theorem Inv.syncDrop {s : IvrFlowSystem} (h : s.Inv) {id : Nat} {extension : String}
    (hsync : s.syncs id = some ⟨extension, .dropping⟩) :
    Inv ((s.setRedis extension none).setSync id (some ⟨extension, .loading⟩)) := by
  apply h.of_frame
  · rfl
  · rfl
  · exact fun extension' entry hentry => redis_of_setRedis_none hentry
  · rintro extension' (hn | hreq | ⟨id', hsync'⟩)
    · exact .inr (.inl hn)
    · exact .inr (.inr (.inl hreq))
    · by_cases heq : id' = id
      · rw [heq, hsync] at hsync'
        cases hsync'
        exact .inl (setRedis_self s extension none)
      · exact .inr (.inr (.inr ⟨id', (setSync_of_ne _ _ heq).trans hsync'⟩))
  · rintro extension' (hn | ⟨id', sync, hsync', hx, hc⟩)
    · exact .inl hn
    · by_cases heq : id' = id
      · rw [heq, hsync] at hsync'
        cases hsync'
        exact .inr ⟨id, _, setSync_self .., fun hf => hf, hc.1, nofun⟩
      · exact .inr ⟨id', sync, (setSync_of_ne _ _ heq).trans hsync', hx, hc⟩

theorem Inv.syncLoad {s : IvrFlowSystem} (h : s.Inv) {id : Nat} {extension : String}
    (hsync : s.syncs id = some ⟨extension, .loading⟩) :
    Inv (s.setSync id
      (some ⟨extension, .loaded (s.table.loadIvrFlowByExtension extension)⟩)) := by
  refine h.of_frame ?_ ?_ (fun _ _ hentry => hentry) ?_ ?_
  · rfl
  · rfl
  · intro extension' hdue
    right
    exact hdue.of_sync hsync nofun (fun id' hne => setSync_of_ne s _ hne) rfl rfl
  · rintro extension' (hn | ⟨id', sync, hsync', hx, hc⟩)
    · exact .inl hn
    · by_cases heq : id' = id
      · -- what has just been read is right
        rw [heq, hsync] at hsync'
        cases hsync'
        obtain rfl : extension = extension' := hc.1
        refine .inr ⟨id, _, setSync_self .., fun hf => hf, rfl, fun flow hflow => ?_⟩
        cases hflow
        rfl
      · exact .inr ⟨id', sync, (setSync_of_ne _ _ heq).trans hsync', hx, hc⟩

/-- Lookups change nothing that matters before they fill the cache. -/
theorem Inv.lookup {s : IvrFlowSystem} (h : s.Inv) (id : Nat) (l : Option FlowLookup) :
    Inv (s.setLookup id l) :=
  h.of_frame rfl rfl (fun _ _ hentry => hentry) (fun _ hd => .inr hd) fun _ hd => hd

theorem Inv.expire {s : IvrFlowSystem} (h : s.Inv) (extension : String) :
    Inv (s.setRedis extension none) :=
  h.of_frame rfl rfl (fun _ _ hentry => redis_of_setRedis_none hentry) (fun _ hd => .inr hd)
    fun _ hd => hd

/-! ## Writes -/

/-- A write is followed by the notifications of all extensions that it changes. -/
theorem Inv.of_write {s s' : IvrFlowSystem} (h : s.Inv) (hredis : s'.redis = s.redis)
    (hset : s'.ivrFlowExtensions = s.ivrFlowExtensions) (hsyncs : s'.syncs = s.syncs)
    (hnotified : ∀ extension ∈ s.notifications, extension ∈ s'.notifications)
    (hdrops : ∀ extension, (∃ req r, s.requests req = some r ∧ r.drops = some extension) →
      ∃ req r, s'.requests req = some r ∧ r.drops = some extension)
    (hload : ∀ extension, extension ∈ s'.notifications ∨
      s'.table.loadIvrFlowByExtension extension = s.table.loadIvrFlowByExtension extension) :
    s'.Inv := by
  constructor
  · intro extension entry hentry
    rcases hload extension with hn | hsame
    · exact .inr (.inl hn)
    · rw [hredis] at hentry
      rcases h.redis extension entry hentry with hright | hn | hreq | ⟨id, hsync⟩
      · rw [hsame]
        exact .inl hright
      · exact .inr (.inl (hnotified extension hn))
      · exact .inr (.inr (.inl (hdrops extension hreq)))
      · exact .inr (.inr (.inr ⟨id, hsyncs ▸ hsync⟩))
  · intro extension
    rcases hload extension with hn | hsame
    · exact .inr (.inl hn)
    · rcases h.set extension with hplace | hn | ⟨id, sync, hsync, hx, hc⟩
      · left
        rw [InPlace, hset, hsame]
        exact hplace
      · exact .inr (.inl (hnotified extension hn))
      · right
        right
        refine ⟨id, sync, hsyncs ▸ hsync, hx, hc.1, fun flow hflow => ?_⟩
        rw [hsame]
        exact hc.2 flow hflow

theorem Inv.save {s : IvrFlowSystem} (h : s.Inv) {req : Nat} {row : IvrFlowGraph}
    (hfree : (s.requests req).isNone = true) (hext : row.extension ≠ "")
    (hrow : s.table.Free row) (hcovered : s.Covered (.save req row)) :
    Inv ({ s with
            table := s.table.upsert row hext hrow
            notifications := s.notifications ++ [row.extension] }.setRequest req
              (some (.saved row.extension))) := by
  apply h.of_write
  · rfl
  · rfl
  · rfl
  · exact fun extension hn => List.mem_append_left _ hn
  · rintro extension ⟨req', r, hr, hd⟩
    have hne : req' ≠ req := by
      intro heq
      rw [heq, Option.isNone_iff_eq_none.mp hfree] at hr
      cases hr
    exact ⟨req', r, (setRequest_of_ne _ _ hne).trans hr, hd⟩
  · intro extension
    by_cases heq : extension = row.extension
    · exact .inl (heq ▸ List.mem_append_right _ List.mem_cons_self)
    · by_cases hn : extension ∈ s.notifications
      · exact .inl (List.mem_append_left _ hn)
      · -- a flow that leaves this extension was disabled
        right
        apply load_upsert hext hrow heq
        intro old hold hextension
        have hmoved : old.extension ≠ row.extension := by rw [hextension]; exact heq
        rcases hcovered old hold hmoved with hdisabled | hpending
        · exact hdisabled
        · exact absurd (hextension ▸ hpending) hn

theorem Inv.remove {s : IvrFlowSystem} (h : s.Inv) {req : Nat} {id : String}
    (hreq : s.requests req = some (.dropped id)) :
    Inv ({ s with
            table := s.table.delete id
            notifications := s.notifications ++
              ((s.table.rows.get? id).map IvrFlowGraph.extension).toList }.setRequest req
                none) := by
  apply h.of_write
  · rfl
  · rfl
  · rfl
  · exact fun extension hn => List.mem_append_left _ hn
  · rintro extension ⟨req', r, hr, hd⟩
    have hne : req' ≠ req := by
      intro heq
      rw [heq, hreq] at hr
      cases hr
      cases hd
    exact ⟨req', r, (setRequest_of_ne _ _ hne).trans hr, hd⟩
  · intro extension
    by_cases heq : (s.table.rows.get? id).map IvrFlowGraph.extension = some extension
    · left
      apply List.mem_append_right
      rw [heq]
      exact List.mem_singleton_self _
    · right
      apply load_delete
      intro old hold hextension
      rw [hold, Option.map_some, hextension] at heq
      exact heq rfl

/-! ## Steps that act on what was read -/

theorem Inv.fill {s : IvrFlowSystem} (h : s.Inv) {id : Nat} {extension : String}
    {flow : Option IvrFlowGraph}
    (hright : flow = s.table.loadIvrFlowByExtension extension ∨ s.RedisDue extension) :
    Inv ((s.setRedis extension (some flow)).setLookup id none) := by
  constructor
  · intro extension' entry hentry
    by_cases heq : extension' = extension
    · subst heq
      have hentry' : (s.setRedis extension' (some flow)).redis extension' = some entry := hentry
      rw [setRedis_self, Option.some.injEq] at hentry'
      rw [← hentry']
      exact hright
    · have hentry' : (s.setRedis extension (some flow)).redis extension' = some entry := hentry
      rw [setRedis_of_ne s _ heq] at hentry'
      exact h.redis extension' entry hentry'
  · exact h.set

theorem mem_applySync_self (s : IvrFlowSystem) (extension : String) (flow : Option IvrFlowGraph) :
    extension ∈ (s.applySync extension flow).ivrFlowExtensions ↔ flow.isSome = true := by
  unfold applySync
  cases flow <;> simp

theorem mem_applySync_of_ne (s : IvrFlowSystem) {extension extension' : String}
    (flow : Option IvrFlowGraph) (h : extension' ≠ extension) :
    extension' ∈ (s.applySync extension flow).ivrFlowExtensions ↔
      extension' ∈ s.ivrFlowExtensions := by
  unfold applySync
  cases flow <;> simp [h]

/-- What the end of a sync leaves due. -/
theorem SetDue.of_end {s s' : IvrFlowSystem} {id : Nat} {extension : String}
    (h : s.SetDue (· = id) extension)
    (hother : ∀ id', id' ≠ id → s'.syncs id' = s.syncs id')
    (hn : s'.notifications = s.notifications) (ht : s'.table = s.table) :
    s'.SetDue (fun _ => False) extension := by
  rcases h with hpending | ⟨id', sync, hsync, hx, hc⟩
  · exact .inl (hn ▸ hpending)
  · exact .inr ⟨id', sync, (hother id' hx).trans hsync, fun hf => hf, ht ▸ hc⟩

/-- What is due for an extension is not the sync of another one. -/
theorem SetDue.of_other {s : IvrFlowSystem} {id : Nat} {sync : FlowSync} {extension : String}
    (hsync : s.syncs id = some sync) (hne : extension ≠ sync.extension)
    (h : s.SetDue (fun _ => False) extension) : s.SetDue (· = id) extension := by
  rcases h with hpending | ⟨id', sync', hsync', -, hc⟩
  · exact .inl hpending
  · refine .inr ⟨id', sync', hsync', fun heq => ?_, hc⟩
    rw [heq, hsync, Option.some.injEq] at hsync'
    rw [hsync'] at hne
    exact hne hc.1.symm

theorem Inv.syncApply {s : IvrFlowSystem} (h : s.Inv) {id : Nat} {extension : String}
    {flow : Option IvrFlowGraph} (hsync : s.syncs id = some ⟨extension, .loaded flow⟩)
    (hright : flow.isSome = (s.table.loadIvrFlowByExtension extension).isSome ∨
      s.SetDue (· = id) extension) :
    Inv ((s.applySync extension flow).setSync id none) := by
  have hother : ∀ id', id' ≠ id →
      ((s.applySync extension flow).setSync id none).syncs id' = s.syncs id' :=
    fun id' hne => setSync_of_ne (s.applySync extension flow) none hne
  constructor
  · intro extension' entry hentry
    rcases h.redis extension' entry hentry with hok | hdue
    · exact .inl hok
    · exact .inr (hdue.of_sync hsync nofun hother rfl rfl)
  · intro extension'
    by_cases heq : extension' = extension
    · subst heq
      rcases hright with hok | hdue
      · left
        have hmem := mem_applySync_self s extension' flow
        rw [hok] at hmem
        exact hmem
      · exact .inr (hdue.of_end hother rfl rfl)
    · rcases h.set extension' with hplace | hdue
      · left
        exact (mem_applySync_of_ne s flow heq).trans hplace
      · exact .inr ((hdue.of_other hsync heq).of_end hother rfl rfl)

theorem Inv.syncFail {s : IvrFlowSystem} (h : s.Inv) {id : Nat} {extension : String}
    (hsync : s.syncs id = some ⟨extension, .loading⟩)
    (hright : s.InPlace extension ∨ s.SetDue (· = id) extension) : Inv (s.setSync id none) := by
  have hother : ∀ id', id' ≠ id → (s.setSync id none).syncs id' = s.syncs id' :=
    fun id' hne => setSync_of_ne s none hne
  constructor
  · intro extension' entry hentry
    rcases h.redis extension' entry hentry with hok | hdue
    · exact .inl hok
    · exact .inr (hdue.of_sync hsync nofun hother rfl rfl)
  · intro extension'
    by_cases heq : extension' = extension
    · subst heq
      rcases hright with hok | hdue
      · exact .inl hok
      · exact .inr (hdue.of_end hother rfl rfl)
    · rcases h.set extension' with hplace | hdue
      · exact .inl hplace
      · exact .inr ((hdue.of_other hsync heq).of_end hother rfl rfl)

/-! ## Runs -/

theorem inv_init (table : IvrFlowTable) (cached : String → Bool) : (init table cached).Inv where
  redis extension entry hentry := by
    simp only [init] at hentry
    split at hentry
    · cases hentry
      exact .inl rfl
    · cases hentry
  set _ := .inl mem_loadEnabled_iff

theorem Inv.step {s s' : IvrFlowSystem} {e : IvrFlowEvent} (h : s.Inv) (hcovered : s.Covered e)
    (hstep : s.step e = some s') : s'.Inv := by
  -- every event has a lemma of its own, and only the covered ones ask for the condition
  cases e with
  | save req row =>
    simp only [IvrFlowSystem.step] at hstep
    split at hstep
    · rename_i hok
      cases hstep
      exact h.save hok.1 hok.2.1 hok.2.2 hcovered
    · cases hstep
  | delete req id =>
    simp only [IvrFlowSystem.step] at hstep
    split at hstep
    · rename_i hfree
      split at hstep <;> cases hstep <;> exact h.request hfree _
    · cases hstep
  | drop req =>
    simp only [IvrFlowSystem.step] at hstep
    split at hstep
    · rename_i hreq
      cases hstep
      exact h.drop hreq rfl none
    · rename_i hreq
      cases hstep
      exact h.drop hreq rfl _
    · cases hstep
  | remove req =>
    simp only [IvrFlowSystem.step] at hstep
    split at hstep
    · rename_i hreq
      cases hstep
      exact h.remove hreq
    · cases hstep
  | notified id =>
    simp only [IvrFlowSystem.step] at hstep
    split at hstep
    · rename_i hfree hnext
      cases hstep
      exact h.notified hfree hnext
    · cases hstep
  | syncDrop id =>
    simp only [IvrFlowSystem.step] at hstep
    split at hstep
    · rename_i hsync
      cases hstep
      exact h.syncDrop hsync
    · cases hstep
  | syncLoad id =>
    simp only [IvrFlowSystem.step] at hstep
    split at hstep
    · rename_i hsync
      cases hstep
      exact h.syncLoad hsync
    · cases hstep
  | syncApply id =>
    simp only [IvrFlowSystem.step] at hstep
    split at hstep
    · rename_i hsync
      cases hstep
      exact h.syncApply hsync (hcovered _ _ hsync)
    · cases hstep
  | syncFail id =>
    simp only [IvrFlowSystem.step] at hstep
    split at hstep
    · rename_i hsync
      cases hstep
      exact h.syncFail hsync (hcovered _ hsync)
    · cases hstep
  | miss id extension =>
    simp only [IvrFlowSystem.step] at hstep
    split at hstep
    · cases hstep
      exact h.lookup id _
    · cases hstep
  | load id =>
    simp only [IvrFlowSystem.step] at hstep
    split at hstep
    · cases hstep
      exact h.lookup id _
    · cases hstep
  | fill id =>
    simp only [IvrFlowSystem.step] at hstep
    split at hstep
    · rename_i hlookup
      cases hstep
      exact h.fill (hcovered _ _ hlookup)
    · cases hstep
  | fail id =>
    simp only [IvrFlowSystem.step] at hstep
    split at hstep
    · cases hstep
      exact h.lookup id none
    · cases hstep
  | expire extension =>
    simp only [IvrFlowSystem.step, Option.some.injEq] at hstep
    subst hstep
    exact h.expire extension

/-- When nothing is in flight, nothing is due. -/
theorem Inv.converged {s : IvrFlowSystem} (h : s.Inv) : s.Converged := by
  intro hquiet extension
  have hredis : ¬ s.RedisDue extension := by
    rintro (hn | ⟨req, r, hr, -⟩ | ⟨id, hsync⟩)
    · rw [hquiet.notifications] at hn
      cases hn
    · rw [hquiet.requests req] at hr
      cases hr
    · rw [hquiet.syncs id] at hsync
      cases hsync
  have hset : ¬ s.SetDue (fun _ => False) extension := by
    rintro (hn | ⟨id, sync, hsync, -⟩)
    · rw [hquiet.notifications] at hn
      cases hn
    · rw [hquiet.syncs id] at hsync
      cases hsync
  constructor
  · unfold getIvrFlow
    cases hentry : s.redis extension with
    | none => rfl
    | some entry =>
      rcases h.redis extension entry hentry with hright | hdue
      · exact hright
      · exact absurd hdue hredis
  · rw [isIvrFlowExtension, decide_eq_true_eq]
    rcases h.set extension with hplace | hdue
    · exact hplace
    · exact absurd hdue hset

/-- In every interleaving whose steps are covered, the cache and the set agree with the
    table whenever nothing is in flight. -/
theorem converged_throughout (table : IvrFlowTable) (cached : String → Bool)
    (es : List IvrFlowEvent) (hcovered : Meets step Covered (init table cached) es) :
    Throughout step Converged (init table cached) es :=
  (Machine.throughout_of_meets (fun _ _ _ h hc hstep => h.step hc hstep)
    (inv_init table cached) hcovered).mono fun _ h => h.converged

/-- The extension 6001 has an enabled flow; nothing is cached. -/
def front : IvrFlowSystem :=
  init (IvrFlowTable.empty.upsert ⟨"front", "Front desk", "6001", true, [], []⟩ (by decide)
    (by decide)) fun _ => false

/-- A save that keeps the extension, with the lookups and the sync around it. -/
theorem converged_throughout_edited :
    Throughout step Converged front
      [.miss 0 "6001", .load 0, .fill 0,
        .save 0 ⟨"front", "Front desk", "6001", false, [], []⟩, .drop 0, .notified 0,
        .syncDrop 0, .syncLoad 0, .syncApply 0] := by
  apply converged_throughout
  refine ⟨trivial, trivial, ?_, ?_, trivial, trivial, trivial, trivial, ?_, trivial⟩
  · intro extension flow hlookup
    cases hlookup
    exact .inl rfl
  · intro old hold hmoved
    cases hold
    exact absurd rfl hmoved
  · intro extension flow hsync
    cases hsync
    exact .inl rfl

/-- When the flow of 6001 is stored under 6002, nothing tells the engine about 6001. -/
theorem not_converged_moved :
    ∃ s, Machine.run step front
        [.save 0 ⟨"front", "Front desk", "6002", true, [], []⟩, .drop 0, .notified 0,
          .syncDrop 0, .syncLoad 0, .syncApply 0] = some s ∧
      s.Quiet ∧ s.isIvrFlowExtension "6001" = true ∧
      s.table.loadIvrFlowByExtension "6001" = none ∧ ¬ s.Converged := by
  refine ⟨_, rfl, ?_⟩
  suffices hquiet : Quiet _ from
    ⟨hquiet, by decide +kernel, by decide +kernel,
      fun h => absurd ((h hquiet "6001").2.mp (by decide +kernel)) (by decide +kernel)⟩
  -- the only request is answered and the only sync has ended
  refine ⟨rfl, fun req => ?_, fun id => ?_, fun _ => rfl⟩
  · cases req <;> rfl
  · cases id <;> rfl

end IvrFlowSystem

end CallNet
