import CallNet.Spec.ConnectorSecrets

/-!
# Updates of a connector's config

A view leaves out the secrets of a config, so an update puts back those that it does not give
itself.  The two decoders treat a config that is no object differently: a value of another kind
is refused, while `null` makes the map nil, into which nothing can be put back.
`restoring_meets_iff` says which updates meet that.
-/

namespace CallNet.Api

open Machine (Meets)

variable {t : ConnectorType} {existing incoming out : RawConfig} {key : String} {id : Nat}
  {c : Connector} {input : ConnectorInput} {read saved : Bool}

/-! ## What an update owes -/

/-- What a config has under a key, read as a JSON object. -/
def RawConfig.field (raw : RawConfig) (key : String) : Option RawField :=
  raw.unmarshalled.bind (·.get? key)

def RawConfig.isObject : RawConfig → Bool
  | .object _ => true
  | _ => false

/-- `out` is `incoming` with exactly its blank secret fields restored. -/
structure Restores (t : ConnectorType) (existing incoming out : RawConfig) : Prop where
  kind : out.isObject = incoming.isObject
  fields : ∀ key, out.field key =
    if key ∈ connectorSecretFields t ∧ blank (incoming.field key) = true then existing.field key
    else incoming.field key

/-- What an update owes that gives the connector `c` a config and keeps its type. -/
structure UpdateRestores (s : ConnectorTable) (id : Nat) (input : ConnectorInput)
    (read saved : Bool) (c : Connector) (incoming : RawConfig) : Prop where
  /-- It does not panic. -/
  total : (s.update id input read saved).2 ≠ .error .nilMap
  refused : ∀ e, (s.update id input read saved).2 = .error e →
    (s.update id input read saved).1 = s
  stored : ∀ v, (s.update id input read saved).2 = .ok v →
    ∃ c', (s.update id input read saved).1.rows.get? id = some c' ∧
      Restores c.type c.config incoming c'.config
  /-- The config that the view shows is accepted and changes no field. -/
  resubmitted : incoming = (toConnectorView id c).config →
    (s.Admits id input read saved c c.type → ∃ v, (s.update id input read saved).2 = .ok v) ∧
    ∃ c', (s.update id input read saved).1.rows.get? id = some c' ∧
      ∀ key, c'.config.field key = c.config.field key

/-- Every update of the table that gives a config and keeps the type does what it owes. -/
def ConnectorOp.Restoring (s : ConnectorTable) : ConnectorOp → Prop
  | .update id input read saved => ∀ c, s.rows.get? id = some c →
    ConnectorTable.newType input c = some c.type → ∀ incoming, input.config = some incoming →
    UpdateRestores s id input read saved c incoming
  | _ => True

/-- The config that an update gives is `null` only when there is no secret to restore, unless
    the update is refused before its config is looked at. -/
def ConnectorOp.NullWithoutSecrets (s : ConnectorTable) : ConnectorOp → Prop
  | .update id input read _ => ∀ c, s.rows.get? id = some c →
    ConnectorTable.newType input c = some c.type → read = true →
    ConnectorTable.newName input c ≠ "" → input.config = some .null →
    ∀ key ∈ connectorSecretFields c.type, key ∉ c.config.keys
  | _ => True

/-! ## Fields -/

theorem field_marshal (m : GoMap) : (marshal m).field key = m.bind (·.get? key) := by
  cases m with
  | none => rfl
  | some m =>
    have hperm := List.perm_insertionSort (fun a b : String × RawField => a.1 ≤ b.1) m.entries
    have hnodup : ((m.entries.insertionSort fun a b => a.1 ≤ b.1).map Prod.fst).Nodup :=
      (hperm.map Prod.fst).nodup_iff.mpr m.nodup
    refine Option.ext fun v => ?_
    exact (OrdMap.get?_ofList hnodup).trans (hperm.mem_iff.trans OrdMap.mem_entries_iff)

theorem field_isSome (raw : RawConfig) : (raw.field key).isSome = true ↔ key ∈ raw.keys :=
  has_unmarshalled raw

/-- A view shows the fields that are no secrets. -/
theorem field_redact (t : ConnectorType) (raw : RawConfig) :
    (redactConnectorConfig t raw).1.field key =
      if key ∈ connectorSecretFields t then none else raw.field key := by
  unfold redactConnectorConfig RawConfig.field
  cases raw.unmarshalled with
  | none =>
    simp only [Option.bind_none, ite_self]
    rfl
  | some m =>
    refine (field_marshal (some _)).trans ?_
    exact get?_foldl_redactKey (connectorSecretFields t) (m, false) key

/-- A view shows an object, or `null` when the config is. -/
theorem redact_cases (t : ConnectorType) (raw : RawConfig) :
    raw = .null ∧ (redactConnectorConfig t raw).1 = .null ∨
      ∃ members, (redactConnectorConfig t raw).1 = .object members := by
  cases raw with
  | null => exact .inl ⟨rfl, rfl⟩
  | object members => exact .inr ⟨_, rfl⟩
  | other json => exact .inr ⟨_, rfl⟩

/-! ## The merge -/

/-- The loop over a map puts back every secret field that is blank in it. -/
theorem foldlM_restoreKey (exMap : GoMap) (fields : List String) (m : OrdMap String RawField) :
    ∃ m', fields.foldlM (restoreKey exMap) (some m) = .ok (some m') ∧ ∀ key, m'.get? key =
      if key ∈ fields ∧ blank (m.get? key) = true then exMap.bind (·.get? key)
      else m.get? key := by
  induction fields generalizing m with
  | nil => exact ⟨m, rfl, fun key => by simp⟩
  | cons k fields ih =>
    obtain ⟨m₁, hstep, hget₁⟩ : ∃ m₁, restoreKey exMap (some m) k = .ok (some m₁) ∧
        ∀ key, m₁.get? key = if key = k ∧ blank (m.get? k) = true then exMap.bind (·.get? key)
          else m.get? key := by
      unfold restoreKey
      simp only [Option.bind_some]
      split
      · rename_i hblank
        split
        · rename_i ex hex
          refine ⟨_, rfl, fun key => ?_⟩
          rw [OrdMap.get?_set]
          by_cases hkey : key = k
          · simp [hkey, hblank, hex]
          · simp [hkey]
        · rename_i hex
          refine ⟨_, rfl, fun key => ?_⟩
          rw [OrdMap.get?_delete]
          by_cases hkey : key = k
          · simp [hkey, hblank, hex]
          · simp [hkey]
      · rename_i hblank
        exact ⟨m, rfl, fun key => by simp [hblank]⟩
    obtain ⟨m', hrest, hget⟩ := ih m₁
    refine ⟨m', by rw [List.foldlM_cons, hstep]; exact hrest, fun key => ?_⟩
    rw [hget, hget₁]
    by_cases hkey : key = k
    · subst hkey
      -- a field put back and found blank again is put back again
      by_cases hblank : blank (m.get? key) = true
      · simp [hblank]
      · simp [hblank]
    · simp [hkey]

theorem preserve_object (t : ConnectorType) (existing : RawConfig)
    (members : List (String × RawField)) :
    ∃ out, preserveConnectorSecrets t existing (.object members) = .ok out ∧
      Restores t existing (.object members) out := by
  obtain ⟨m', hm', hget⟩ :=
    foldlM_restoreKey existing.unmarshalled (connectorSecretFields t) (.ofList members)
  refine ⟨marshal (some m'), by simp only [preserveConnectorSecrets, RawConfig.unmarshal, hm']; rfl,
    rfl, fun key => ?_⟩
  rw [field_marshal, Option.bind_some, hget]
  rfl

/-- The loop over the nil map stops at the first secret there is to put back. -/
theorem preserve_null (t : ConnectorType) (existing : RawConfig) :
    preserveConnectorSecrets t existing .null =
      if ∀ key ∈ connectorSecretFields t, key ∉ existing.keys then .ok .null
      else .error .nilMap := by
  -- a field of the stored config that is blank in the nil map is written into it
  have hloop : ∀ fields : List String,
      fields.foldlM (restoreKey existing.unmarshalled) none =
        if ∀ key ∈ fields, key ∉ existing.keys then .ok none else .error .nilMap := by
    intro fields
    induction fields with
    | nil => simp; rfl
    | cons k fields ih =>
      rw [List.foldlM_cons]
      by_cases hmem : k ∈ existing.keys
      · obtain ⟨ex, hex⟩ := Option.isSome_iff_exists.mp ((has_unmarshalled existing).mpr hmem)
        have hk : restoreKey existing.unmarshalled none k = .error .nilMap := by
          simp [restoreKey, blank, hex]
        rw [hk, if_neg fun h => h k List.mem_cons_self hmem]
        rfl
      · have hex : existing.unmarshalled.bind (·.get? k) = none := by
          rw [← Option.not_isSome_iff_eq_none]
          exact fun h => hmem ((has_unmarshalled existing).mp h)
        have hk : restoreKey existing.unmarshalled none k = .ok none := by
          simp [restoreKey, blank, hex]
        rw [hk]
        simp only [List.forall_mem_cons, hmem, not_false_eq_true, true_and]
        exact ih
  simp only [preserveConnectorSecrets, RawConfig.unmarshal, hloop]
  split <;> rfl

/-- What is merged into `null` when there is no secret to restore. -/
theorem restores_null (h : ∀ key ∈ connectorSecretFields t, key ∉ existing.keys) :
    Restores t existing .null .null := by
  refine ⟨rfl, fun key => ?_⟩
  have hnull : RawConfig.null.field key = none := rfl
  split
  · rename_i hsecret
    rw [hnull, eq_comm, ← Option.not_isSome_iff_eq_none]
    exact fun hsome => h key hsecret.1 ((field_isSome existing).mp hsome)
  · rfl

/-- The config of the view, merged into the one it was made from, changes no field. -/
theorem Restores.of_redacted (h : Restores t existing (redactConnectorConfig t existing).1 out)
    (key : String) : out.field key = existing.field key := by
  rw [h.fields, field_redact]
  by_cases hsecret : key ∈ connectorSecretFields t
  · simp [hsecret, blank]
  · simp [hsecret]

/-! ## One update -/

namespace ConnectorTable

variable {s : ConnectorTable}

/-- The row of an update that gives the config `config`. -/
def updated (c : Connector) (input : ConnectorInput) (config : RawConfig) : Connector :=
  { c with name := newName input c, enabled := input.enabled.getD c.enabled, config := config }

theorem update_config (read saved : Bool) (hrow : s.rows.get? id = some c)
    (htype : newType input c = some c.type) (hconfig : input.config = some incoming) :
    s.update id input read saved =
      if read = true ∧ newName input c ≠ "" then
        match preserveConnectorSecrets c.type c.config incoming with
        | .error e => (s, .error e)
        | .ok config =>
          if saved = true then
            ({ s with rows := s.rows.set id (updated c input config) },
              .ok (toConnectorView id (updated c input config)))
          else (s, .error .repo)
      else (s, .error (if read = true then .invalid else .repo)) := by
  unfold update
  cases read with
  | false => simp
  | true =>
    simp only [hrow, htype, hconfig]
    by_cases hname : newName input c = ""
    · simp [hname]
    · simp only [hname, Bool.not_true, Bool.false_eq_true, if_false, ne_eq, not_false_eq_true,
        and_self, if_true]
      cases preserveConnectorSecrets c.type c.config incoming with
      | error e => rfl
      | ok config => cases saved <;> rfl

end ConnectorTable

/-- An update that is refused without a panic. -/
theorem UpdateRestores.of_error {s : ConnectorTable} {e : ConnectorError}
    (hrow : s.rows.get? id = some c) (h : s.update id input read saved = (s, .error e))
    (he : e ≠ .nilMap) (hview : incoming = (toConnectorView id c).config →
      ¬ s.Admits id input read saved c c.type) :
    UpdateRestores s id input read saved c incoming := by
  refine ⟨?_, ?_, ?_, fun hincoming => ⟨fun ha => absurd ha (hview hincoming), ?_⟩⟩
  · rw [h]
    exact fun heq => he (Except.error.inj heq)
  · intro e' _
    rw [h]
  · intro v hv
    rw [h] at hv
    cases hv
  · rw [h]
    exact ⟨c, hrow, fun _ => rfl⟩

/-- An update that goes through. -/
theorem UpdateRestores.of_ok {s : ConnectorTable} {out : RawConfig}
    (h : s.update id input read saved =
      ({ s with rows := s.rows.set id (ConnectorTable.updated c input out) },
        .ok (toConnectorView id (ConnectorTable.updated c input out))))
    (hout : Restores c.type c.config incoming out) :
    UpdateRestores s id input read saved c incoming := by
  refine ⟨?_, ?_, ?_, fun hincoming => ⟨fun _ => ⟨_, by rw [h]⟩, ?_⟩⟩
  · rw [h]
    exact fun heq => nomatch heq
  · intro e he
    rw [h] at he
    cases he
  · intro v _
    rw [h]
    exact ⟨_, OrdMap.get?_set_self .., hout⟩
  · rw [h]
    subst hincoming
    exact ⟨_, OrdMap.get?_set_self .., hout.of_redacted⟩

/-- The merge that an update needs decides it. -/
theorem UpdateRestores.of_preserve {s : ConnectorTable} (hrow : s.rows.get? id = some c)
    (htype : ConnectorTable.newType input c = some c.type) (hconfig : input.config = some incoming)
    (hpre : read = true → ConnectorTable.newName input c ≠ "" →
      (∃ out, preserveConnectorSecrets c.type c.config incoming = .ok out ∧
        Restores c.type c.config incoming out) ∨
      preserveConnectorSecrets c.type c.config incoming = .error .invalid ∧
        incoming ≠ (toConnectorView id c).config) :
    UpdateRestores s id input read saved c incoming := by
  have heq := ConnectorTable.update_config read saved hrow htype hconfig
  by_cases hlook : read = true ∧ ConnectorTable.newName input c ≠ ""
  · rw [if_pos hlook] at heq
    rcases hpre hlook.1 hlook.2 with ⟨out, hout, hrestores⟩ | ⟨hinvalid, hview⟩
    · rw [hout] at heq
      cases hsaved : saved with
      | true =>
        subst hsaved
        exact .of_ok heq hrestores
      | false =>
        subst hsaved
        exact .of_error hrow heq (by decide) fun _ ha => nomatch ha.saved
    · rw [hinvalid] at heq
      exact .of_error hrow heq (by decide) fun h => absurd h hview
  · rw [if_neg hlook] at heq
    refine .of_error hrow heq ?_ fun _ ha => hlook ⟨ha.read, ha.name⟩
    split <;> decide

theorem updateRestores_iff {s : ConnectorTable} (hrow : s.rows.get? id = some c)
    (htype : ConnectorTable.newType input c = some c.type)
    (hconfig : input.config = some incoming) :
    UpdateRestores s id input read saved c incoming ↔
      (read = true → ConnectorTable.newName input c ≠ "" → incoming = .null →
        ∀ key ∈ connectorSecretFields c.type, key ∉ c.config.keys) := by
  constructor
  · intro h hread hname hnull key hsecret hmem
    refine h.total ?_
    subst hnull
    rw [ConnectorTable.update_config read saved hrow htype hconfig, if_pos ⟨hread, hname⟩,
      preserve_null, if_neg fun hno => hno key hsecret hmem]
  · intro h
    refine .of_preserve hrow htype hconfig fun hread hname => ?_
    cases incoming with
    | null =>
      have hno := h hread hname rfl
      exact .inl ⟨.null, by rw [preserve_null, if_pos hno], restores_null hno⟩
    | object members => exact .inl (preserve_object c.type c.config members)
    | other json =>
      refine .inr ⟨rfl, fun hview => ?_⟩
      -- no view shows a value that is neither `null` nor an object
      rcases redact_cases c.type c.config with ⟨-, hnull⟩ | ⟨members, hobject⟩
      · exact absurd (hview.trans hnull) (by simp)
      · exact absurd (hview.trans hobject) (by simp)

/-! ## Runs -/

theorem restoring_iff (s : ConnectorTable) (e : ConnectorOp) :
    e.Restoring s ↔ e.NullWithoutSecrets s := by
  cases e with
  | create => exact Iff.rfl
  | delete => exact Iff.rfl
  | update id input read saved =>
    constructor
    · intro h c hrow htype hread hname hnull
      exact (updateRestores_iff hrow htype hnull).mp (h c hrow htype .null hnull) hread hname rfl
    · intro h c hrow htype incoming hconfig
      refine (updateRestores_iff hrow htype hconfig).mpr fun hread hname hnull => ?_
      exact h c hrow htype hread hname (hnull ▸ hconfig)

/-- Over any run of the service every update that gives a config and keeps the type does what it
    owes, exactly when none of them gives `null` to a connector that has a secret field. -/
theorem restoring_meets_iff (es : List ConnectorOp) :
    Meets Connectors.step (fun s e => e.Restoring s.table) .init es ↔
      Meets Connectors.step (fun s e => e.NullWithoutSecrets s.table) .init es := by
  have h : (fun (s : Connectors) (e : ConnectorOp) => e.Restoring s.table) =
      fun s e => e.NullWithoutSecrets s.table := by
    funext s e
    exact propext (restoring_iff s.table e)
  rw [h]

/-- A mail connector with a password. -/
def mailConnector : Connector :=
  { name := "alerts", type := .email, ownerExtension := "100", enabled := true,
    config := .object [("password", .text "hunter2")] }

/-- What the form sends with a config. -/
def mailInput (config : RawConfig) : ConnectorInput :=
  { name := some "alerts", type := some "email", enabled := none, config := some config }

/-- The config of the connector is cleared with `null`. -/
def cleared : List ConnectorOp :=
  [.create "100" (mailInput mailConnector.config) true, .update 1 (mailInput .null) true true]

/-- The update panics. -/
theorem not_restoring_cleared :
    ¬ Meets Connectors.step (fun s e => e.Restoring s.table) .init cleared := by
  intro h
  have hcreated : (Connectors.step .init (.create "100" (mailInput mailConnector.config) true)).map
      (fun s => s.table.rows.get? 1) = some (some mailConnector) := by decide +kernel
  obtain ⟨s, hs, hrow⟩ := Option.map_eq_some_iff.mp hcreated
  simp only [cleared, Meets, hs] at h
  have htype : ConnectorTable.newType (mailInput .null) mailConnector = some .email := by
    decide +kernel
  have hname : ConnectorTable.newName (mailInput .null) mailConnector ≠ "" := by decide +kernel
  have hrestores := h.2.1 mailConnector hrow htype .null rfl
  exact (updateRestores_iff hrow htype rfl).mp hrestores rfl hname rfl "password" (by decide)
    (by decide)

end CallNet.Api
