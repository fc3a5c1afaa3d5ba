import CallNet.Api.ConnectorService
import CallNet.ForStd.Machine

/-!
# Secrets of connectors

A view leaves out the secret fields of the type that the connector has now, while its config may
have been written under another one.  `secretsHidden_throughout_iff` says which updates let a
secret out that was written under the other type.
-/

namespace CallNet.Api

open Machine (Meets Throughout)

variable {t : ConnectorType} {raw existing incoming out : RawConfig} {key : String} {id : Nat}
  {c : Connector} {input : ConnectorInput}

/-! ## The keys of a config -/

/-- Whether a map has the key. -/
def GoMap.has (m : GoMap) (key : String) : Bool := (m.bind (·.get? key)).isSome

theorem mem_keys_marshal (m : GoMap) : key ∈ (marshal m).keys ↔ m.has key = true := by
  cases m with
  | none => simp [marshal, RawConfig.keys, GoMap.has]
  | some m =>
    simp only [marshal, RawConfig.keys, List.mem_map, List.mem_insertionSort, Prod.exists,
      exists_and_right, exists_eq_right, OrdMap.mem_entries_iff, GoMap.has, Option.bind_some,
      Option.isSome_iff_exists]

theorem has_unmarshalled (raw : RawConfig) : raw.unmarshalled.has key = true ↔ key ∈ raw.keys := by
  cases raw with
  | null => simp [RawConfig.unmarshalled, RawConfig.unmarshal, GoMap.has, RawConfig.keys]
  | object members => exact OrdMap.isSome_get?_ofList members key
  | other json => simp [RawConfig.unmarshalled, RawConfig.unmarshal, GoMap.has, RawConfig.keys]

theorem get?_redactKey (acc : OrdMap String RawField × Bool) (k key : String) :
    (redactKey acc k).1.get? key = if key = k then none else acc.1.get? key := by
  unfold redactKey
  split
  · exact OrdMap.get?_delete acc.1 k key
  · rename_i habsent
    split
    · rename_i heq
      rw [heq, habsent]
    · rfl

theorem get?_foldl_redactKey (fields : List String) (acc : OrdMap String RawField × Bool)
    (key : String) : (fields.foldl redactKey acc).1.get? key =
      if key ∈ fields then none else acc.1.get? key := by
  induction fields generalizing acc with
  | nil => simp
  | cons k fields ih =>
    rw [List.foldl_cons, ih, get?_redactKey]
    by_cases hk : key = k
    · simp [hk]
    · simp [hk]

/-- A view shows the keys of the config but the secret fields of the type. -/
theorem mem_keys_redact (t : ConnectorType) (raw : RawConfig) :
    key ∈ (redactConnectorConfig t raw).1.keys ↔
      key ∈ raw.keys ∧ key ∉ connectorSecretFields t := by
  rw [← has_unmarshalled raw]
  unfold redactConnectorConfig
  cases raw.unmarshalled with
  | none => simp [marshal, RawConfig.keys, GoMap.has]
  | some m =>
    dsimp only
    rw [mem_keys_marshal, GoMap.has, Option.bind_some, get?_foldl_redactKey]
    split
    · rename_i hsecret
      simp [hsecret]
    · rename_i hsecret
      simp [hsecret, GoMap.has]

theorem has_restoreKey {exMap inMap m : GoMap} {k : String}
    (h : restoreKey exMap inMap k = .ok m) (hne : key ≠ k) : m.has key = inMap.has key := by
  unfold restoreKey at h
  split at h
  · split at h
    · split at h
      · cases h
        simp only [GoMap.has, Option.bind_some, OrdMap.get?_set_ne _ _ hne]
      · cases h
    · cases h
      cases inMap with
      | none => rfl
      | some m => simp only [GoMap.has, Option.map_some, Option.bind_some,
          OrdMap.get?_delete_ne _ hne]
  · cases h
    rfl

theorem has_foldlM_restoreKey {exMap : GoMap} (fields : List String) {inMap m : GoMap}
    (h : fields.foldlM (restoreKey exMap) inMap = .ok m) (hkey : key ∉ fields) :
    m.has key = inMap.has key := by
  induction fields generalizing inMap with
  | nil => cases h; rfl
  | cons k fields ih =>
    rw [List.foldlM_cons] at h
    simp only [List.mem_cons, not_or] at hkey
    cases hk : restoreKey exMap inMap k with
    | error e =>
      rw [hk] at h
      cases h
    | ok m' =>
      rw [hk] at h
      exact (ih h hkey.2).trans (has_restoreKey hk hkey.1)

/-- Preserving the secrets changes no key but the secret fields of the type. -/
theorem mem_keys_preserve (h : preserveConnectorSecrets t existing incoming = .ok out)
    (hkey : key ∉ connectorSecretFields t) : key ∈ out.keys ↔ key ∈ incoming.keys := by
  unfold preserveConnectorSecrets at h
  split at h
  · cases h
  · rename_i inMap hin
    cases hfold : (connectorSecretFields t).foldlM (restoreKey existing.unmarshalled) inMap with
    | error e =>
      rw [hfold] at h
      cases h
    | ok m =>
      rw [hfold] at h
      cases h
      rw [mem_keys_marshal, has_foldlM_restoreKey _ hfold hkey, ← has_unmarshalled,
        RawConfig.unmarshalled, hin]
      rfl

/-- Preserving fails only on a config without keys. -/
theorem keys_of_preserve_error {e : ConnectorError}
    (h : preserveConnectorSecrets t existing incoming = .error e) : incoming.keys = [] := by
  have hround : ∀ (exMap : GoMap) (fields : List String) (m : OrdMap String RawField),
      ∃ m', fields.foldlM (restoreKey exMap) (some m) = .ok (some m') := by
    intro exMap fields
    induction fields with
    | nil => exact fun m => ⟨m, rfl⟩
    | cons k fields ih =>
      intro m
      obtain ⟨m', hm'⟩ : ∃ m', restoreKey exMap (some m) k = .ok (some m') := by
        unfold restoreKey
        split
        · split
          · exact ⟨_, rfl⟩
          · exact ⟨_, rfl⟩
        · exact ⟨m, rfl⟩
      rw [List.foldlM_cons, hm']
      exact ih m'
  cases incoming with
  | null => rfl
  | other json => rfl
  | object members =>
    obtain ⟨m', hm'⟩ := hround existing.unmarshalled (connectorSecretFields t) (.ofList members)
    simp only [preserveConnectorSecrets, RawConfig.unmarshal, hm'] at h
    cases h

/-! ## Operations -/

@[simp] theorem toConnectorView_id (id : Nat) (c : Connector) : (toConnectorView id c).id = id :=
  rfl

namespace ConnectorTable

variable {s s' : ConnectorTable} {r : Except ConnectorError ConnectorView} {v : ConnectorView}

/-- The lists show of a connector what `get` shows of it. -/
theorem get_of_mem_list (h : v ∈ s.list) : s.get v.id = .ok v := by
  obtain ⟨⟨id, c⟩, hc, rfl⟩ := List.mem_map.mp h
  rw [toConnectorView_id, get, OrdMap.mem_entries_iff.mp hc]

theorem get_of_mem_listByOwner {owner : String} (h : v ∈ s.listByOwner owner) :
    s.get v.id = .ok v := by
  obtain ⟨e, he, rfl⟩ := List.mem_map.mp h
  exact get_of_mem_list (List.mem_map.mpr ⟨e, (List.mem_filter.mp he).1, rfl⟩)

theorem get_eq_ok_iff : s.get id = .ok v ↔ ∃ c, s.rows.get? id = some c ∧ v = toConnectorView id c := by
  unfold get
  cases s.rows.get? id with
  | none => simp
  | some c => simp [eq_comm]

/-- What `create` does. -/
theorem create_cases {owner : String} {saved : Bool} (h : s.create owner input saved = (s', r)) :
    (s' = s ∧ ∃ e, r = .error e) ∨
    ∃ c : Connector, s'.rows = s.rows.set s.nextId c ∧ s'.nextId = s.nextId + 1 ∧
      r = .ok (toConnectorView s.nextId c) := by
  unfold create at h
  dsimp only at h
  split at h
  · cases h
    exact .inl ⟨rfl, _, rfl⟩
  · split at h
    · cases h
      exact .inl ⟨rfl, _, rfl⟩
    · split at h
      · cases h
        exact .inr ⟨_, rfl, rfl, rfl⟩
      · cases h
        exact .inl ⟨rfl, _, rfl⟩

/-- An update that is not refused before it reaches the config. -/
structure Admits (s : ConnectorTable) (id : Nat) (input : ConnectorInput) (read saved : Bool)
    (c : Connector) (t : ConnectorType) : Prop where
  read : read = true
  saved : saved = true
  row : s.rows.get? id = some c
  name : newName input c ≠ ""
  type : newType input c = some t

/-- The config that an update puts in the place of `old`. -/
def Writes (input : ConnectorInput) (t : ConnectorType) (old new : RawConfig) : Prop :=
  match input.config with
  | some incoming => preserveConnectorSecrets t old incoming = .ok new
  | none => new = old

/-- What `update` does. -/
theorem update_cases {read saved : Bool} (h : s.update id input read saved = (s', r)) :
    (s' = s ∧ (∃ e, r = .error e) ∧ ∀ c t, s.Admits id input read saved c t →
      ∃ incoming, input.config = some incoming ∧ incoming.keys = []) ∨
    ∃ c t c', s.Admits id input read saved c t ∧ c'.type = t ∧ Writes input t c.config c'.config ∧
      s' = { s with rows := s.rows.set id c' } ∧ r = .ok (toConnectorView id c') := by
  unfold update at h
  split at h
  · rename_i hread
    cases h
    refine .inl ⟨rfl, ⟨_, rfl⟩, fun c t ha => ?_⟩
    rw [ha.read] at hread
    cases hread
  rename_i hread
  split at h
  · rename_i hrow
    cases h
    refine .inl ⟨rfl, ⟨_, rfl⟩, fun c t ha => ?_⟩
    cases hrow.symm.trans ha.row
  rename_i c hrow
  have hsame : ∀ {c' t'}, s.Admits id input read saved c' t' → c' = c := fun ha =>
    (Option.some.inj (hrow.symm.trans ha.row)).symm
  split at h
  · rename_i htype
    cases h
    refine .inl ⟨rfl, ⟨_, rfl⟩, fun c' t ha => ?_⟩
    obtain rfl := hsame ha
    cases htype.symm.trans ha.type
  rename_i t htype
  split at h
  · rename_i hname
    cases h
    refine .inl ⟨rfl, ⟨_, rfl⟩, fun c' t ha => ?_⟩
    obtain rfl := hsame ha
    exact absurd hname ha.name
  rename_i hname
  dsimp only at h
  split at h
  · -- the config is refused
    rename_i e hconfig
    cases h
    refine .inl ⟨rfl, ⟨_, rfl⟩, fun c' t' ha => ?_⟩
    split at hconfig
    · rename_i incoming hincoming
      exact ⟨incoming, hincoming, keys_of_preserve_error hconfig⟩
    · cases hconfig
  · rename_i config hconfig
    split at h
    · rename_i hsaved
      cases h
      refine .inr ⟨c, t, _, ⟨by simpa using hread, hsaved, hrow, hname, htype⟩, rfl, ?_, rfl,
        rfl⟩
      split at hconfig
      · rename_i incoming hincoming
        simp only [Writes, hincoming]
        exact hconfig
      · rename_i hnone
        simp only [Writes, hnone]
        exact (Except.ok.inj hconfig).symm
    · rename_i hsaved
      cases h
      refine .inl ⟨rfl, ⟨_, rfl⟩, fun c' t' ha => ?_⟩
      exact absurd ha.saved hsaved

/-- What `create` and `update` return is what `get` shows from then on. -/
theorem get_of_create {owner : String} {saved : Bool}
    (h : s.create owner input saved = (s', .ok v)) : s'.get v.id = .ok v := by
  rcases create_cases h with ⟨-, e, he⟩ | ⟨c, hrows, -, hv⟩
  · cases he
  · cases hv
    exact get_eq_ok_iff.mpr ⟨c, by rw [hrows]; exact OrdMap.get?_set_self .., rfl⟩

theorem get_of_update {read saved : Bool} (h : s.update id input read saved = (s', .ok v)) :
    s'.get id = .ok v := by
  rcases update_cases h with ⟨-, ⟨e, he⟩, -⟩ | ⟨c, t, c', -, -, -, rfl, hv⟩
  · cases he
  · cases hv
    exact get_eq_ok_iff.mpr ⟨c', OrdMap.get?_set_self .., rfl⟩

theorem delete_cases {read deleted : Bool} {e : Option ConnectorError}
    (h : s.delete id read deleted = (s', e)) :
    s' = s ∨ s' = { s with rows := s.rows.delete id } := by
  unfold delete at h
  split at h
  · cases h
    exact .inl rfl
  · split at h
    · cases h
      exact .inl rfl
    · split at h
      · cases h
        exact .inr rfl
      · cases h
        exact .inl rfl

end ConnectorTable

/-! ## Runs -/

inductive ConnectorOp where
  | create (owner : String) (input : ConnectorInput) (saved : Bool)
  | update (id : Nat) (input : ConnectorInput) (read saved : Bool)
  | delete (id : Nat) (read deleted : Bool)
deriving DecidableEq, Repr

/-- The table, and the keys that were written as secret fields of each connector. -/
structure Connectors where
  table : ConnectorTable
  written : Nat → List String

/-- The secret fields of its type that a connector's config has. -/
def Connector.secrets (c : Connector) : List String :=
  (connectorSecretFields c.type).filter (· ∈ c.config.keys)

/-- The secrets of a row, if it is there. -/
def ConnectorTable.secretsAt (s : ConnectorTable) (id : Nat) : List String :=
  ((s.rows.get? id).map Connector.secrets).getD []

namespace Connectors

variable {s s' : Connectors} {e : ConnectorOp}

def init : Connectors := { table := .init, written := fun _ => [] }

def step (s : Connectors) : ConnectorOp → Option Connectors
  | .create owner input saved =>
    match s.table.create owner input saved with
    | (table, .ok v) =>
      some ⟨table, Function.update s.written v.id (table.secretsAt v.id)⟩
    | (table, .error _) => some { s with table := table }
  | .update id input read saved =>
    match s.table.update id input read saved with
    | (table, .ok _) =>
      -- an update without a config writes none of its fields
      let written := if input.config.isSome then table.secretsAt id else []
      some ⟨table, Function.update s.written id (s.written id ++ written)⟩
    | (table, .error _) => some { s with table := table }
  | .delete id read deleted => some { s with table := (s.table.delete id read deleted).1 }

/-- No view has a key that was once written as a secret field of its connector. -/
def SecretsHidden (s : Connectors) : Prop :=
  ∀ id v, s.table.get id = .ok v → ∀ key ∈ s.written id, key ∉ v.config.keys

/-- Of the keys that were written as secret fields, the config that an update gives, or leaves in
    place, has those only that are secret under the type of the update. -/
def KeepsHidden (s : Connectors) : ConnectorOp → Prop
  | .update id input read saved => ∀ c t, s.table.Admits id input read saved c t →
    ∀ key ∈ s.written id, key ∈ (input.config.getD c.config).keys → key ∈ connectorSecretFields t
  | _ => True

/-- What an update that goes through shows: the keys of the given config, or of the old one, that
    are not secret under the type. -/
theorem keys_of_writes {old new : RawConfig} (h : ConnectorTable.Writes input t old new) :
    key ∈ (redactConnectorConfig t new).1.keys ↔
      key ∈ (input.config.getD old).keys ∧ key ∉ connectorSecretFields t := by
  rw [mem_keys_redact]
  refine and_congr_left fun hsecret => ?_
  unfold ConnectorTable.Writes at h
  split at h
  · rename_i incoming hincoming
    rw [hincoming, Option.getD_some]
    exact mem_keys_preserve h hsecret
  · rename_i hnone
    rw [hnone, Option.getD_none, h]

theorem secrets_subset (h : key ∈ c.secrets) : key ∈ connectorSecretFields c.type :=
  (List.mem_filter.mp h).1

/-- The secrets of a row are no keys of its view. -/
theorem hidden_secretsAt {table : ConnectorTable} {v : ConnectorView} (hv : table.get id = .ok v)
    (hkey : key ∈ table.secretsAt id) : key ∉ v.config.keys := by
  obtain ⟨c, hc, rfl⟩ := ConnectorTable.get_eq_ok_iff.mp hv
  rw [ConnectorTable.secretsAt, hc] at hkey
  exact fun hmem => ((mem_keys_redact c.type c.config).mp hmem).2 (secrets_subset hkey)

/-- The view of a row that was not touched. -/
theorem get_set_ne {table : ConnectorTable} {id id' : Nat} (c : Connector) (hne : id' ≠ id) :
    ConnectorTable.get { table with rows := table.rows.set id c } id' = table.get id' := by
  simp only [ConnectorTable.get, OrdMap.get?_set_ne _ _ hne]

theorem hidden_step (h : s.SecretsHidden) (hkeeps : s.KeepsHidden e) (hs : step s e = some s') :
    s'.SecretsHidden := by
  intro id' v hv key hkey
  cases e with
  | create owner input saved =>
    simp only [step] at hs
    split at hs
    · rename_i table v' hcreate
      cases hs
      rcases ConnectorTable.create_cases hcreate with ⟨-, e, he⟩ | ⟨c, hrows, -, hv'⟩
      · cases he
      · cases hv'
        have hkey : key ∈ Function.update s.written s.table.nextId
          (table.secretsAt s.table.nextId) id' := hkey
        by_cases hid : id' = s.table.nextId
        · subst hid
          rw [Function.update_apply, if_pos rfl] at hkey
          exact hidden_secretsAt hv hkey
        · rw [Function.update_apply, if_neg hid] at hkey
          refine h id' v ?_ key hkey
          rw [← hv]
          simp only [ConnectorTable.get, hrows, OrdMap.get?_set_ne _ _ hid]
    · rename_i table e hcreate
      cases hs
      rcases ConnectorTable.create_cases hcreate with ⟨rfl, -⟩ | ⟨c, -, -, hr⟩
      · exact h id' v hv key hkey
      · cases hr
  | update id input read saved =>
    simp only [step] at hs
    split at hs
    · rename_i table v' hupdate
      cases hs
      rcases ConnectorTable.update_cases hupdate with ⟨-, ⟨e, he⟩, -⟩ |
        ⟨c, t, c', hadmits, htype, hwrites, rfl, -⟩
      · cases he
      · dsimp only at hkey hv
        by_cases hid : id' = id
        · subst hid
          rw [Function.update_apply, if_pos rfl] at hkey
          rcases List.mem_append.mp hkey with hkey | hkey
          · -- a secret written before: it must still be a secret field of the new type
            obtain ⟨c'', hc'', rfl⟩ := ConnectorTable.get_eq_ok_iff.mp hv
            cases (OrdMap.get?_set_self ..).symm.trans hc''
            intro hmem
            subst htype
            obtain ⟨hmem, hsecret⟩ := (keys_of_writes hwrites).mp hmem
            exact hsecret (hkeeps c c'.type hadmits key hkey hmem)
          · split at hkey
            · exact hidden_secretsAt hv hkey
            · cases hkey
        · rw [Function.update_apply, if_neg hid] at hkey
          rw [get_set_ne c' hid] at hv
          exact h id' v hv key hkey
    · rename_i table e hupdate
      cases hs
      rcases ConnectorTable.update_cases hupdate with ⟨rfl, -⟩ | ⟨c, t, c', -, -, -, -, hr⟩
      · exact h id' v hv key hkey
      · cases hr
  | delete id read deleted =>
    cases hs
    generalize hdelete : s.table.delete id read deleted = r at hv
    rcases ConnectorTable.delete_cases hdelete with hr | hr
    · rw [hr] at hv
      exact h id' v hv key hkey
    · refine h id' v ?_ key hkey
      obtain ⟨c, hc, hview⟩ := ConnectorTable.get_eq_ok_iff.mp hv
      rw [hr, OrdMap.get?_delete] at hc
      split at hc
      · cases hc
      · exact ConnectorTable.get_eq_ok_iff.mpr ⟨c, hc, hview⟩

theorem keepsHidden_of_hidden (hs : step s e = some s') (h : s'.SecretsHidden) :
    s.KeepsHidden e := by
  cases e with
  | create owner input saved => trivial
  | delete id read deleted => trivial
  | update id input read saved =>
    intro c t hadmits key hkey hmem
    simp only [step] at hs
    split at hs
    · rename_i table v' hupdate
      cases hs
      rcases ConnectorTable.update_cases hupdate with ⟨-, ⟨e, he⟩, -⟩ |
        ⟨c', t', new, hadmits', htype, hwrites, rfl, -⟩
      · cases he
      · cases hadmits.row.symm.trans hadmits'.row
        cases hadmits.type.symm.trans hadmits'.type
        by_contra hsecret
        subst htype
        refine h id (toConnectorView id new) ?_ key ?_
          ((keys_of_writes hwrites).mpr ⟨hmem, hsecret⟩)
        · exact ConnectorTable.get_eq_ok_iff.mpr ⟨new, OrdMap.get?_set_self .., rfl⟩
        show key ∈ Function.update s.written id _ id
        rw [Function.update_apply, if_pos rfl]
        exact List.mem_append_left _ hkey
    · rename_i table e hupdate
      rcases ConnectorTable.update_cases hupdate with ⟨-, -, hrefused⟩ |
        ⟨c, t, c', -, -, -, -, hr⟩
      · -- a config that is refused has no key
        obtain ⟨incoming, hincoming, hempty⟩ := hrefused c t hadmits
        rw [hincoming, Option.getD_some, hempty] at hmem
        cases hmem
      · cases hr

/-- No view of any state of a run has a key that was written as a secret field, if and only if no
    update leaves one in the config that is not secret under the type after the update. -/
theorem secretsHidden_throughout_iff (es : List ConnectorOp) :
    Throughout step SecretsHidden init es ↔ Meets step KeepsHidden init es := by
  refine Machine.throughout_iff_meets (P := fun _ _ => True) (fun _ h => h) ?_ ?_ ?_ ?_
    (Machine.meets_of_mem fun _ _ => trivial)
  · exact fun s e s' h _ hkeeps hs => hidden_step h hkeeps hs
  · exact fun s e s' _ _ hs h => keepsHidden_of_hidden hs h
  · intro s e hnone
    cases e with
    | create owner input saved => trivial
    | delete id read deleted => trivial
    | update id input read saved =>
      simp only [step] at hnone
      split at hnone <;> cases hnone
  · intro id v hv key hkey
    cases hkey

/-- A mail connector with a password becomes a webhook, and nobody gives a config. -/
def retyped : List ConnectorOp :=
  let given (type : String) (config : Option RawConfig) : ConnectorInput :=
    { name := some "alerts", type := some type, enabled := none, config := config }
  [.create "100" (given "email" (some (.object [("password", .text "hunter2")]))) true,
    .update 1 (given "webhook" none) true true]

theorem not_secretsHidden_retyped : ¬ Throughout step SecretsHidden init retyped := by
  intro h
  have hrun : (Machine.run step init retyped).map (fun s =>
      (s.written 1, (s.table.rows.get? 1).map fun c => (c.type, c.config))) =
        some (["password"], some (.webhook, .object [("password", .text "hunter2")])) := by
    decide +kernel
  obtain ⟨s, hs, hafter⟩ := Option.map_eq_some_iff.mp hrun
  obtain ⟨hwritten, hrow⟩ := Prod.mk.inj hafter
  obtain ⟨c, hc, hconfig⟩ := Option.map_eq_some_iff.mp hrow
  obtain ⟨htype, hconfig⟩ := Prod.mk.inj hconfig
  refine h.last hs 1 _ (ConnectorTable.get_eq_ok_iff.mpr ⟨c, hc, rfl⟩) "password" ?_ ?_
  · rw [hwritten]
    exact List.mem_singleton_self _
  · refine (mem_keys_redact c.type c.config).mpr ?_
    rw [htype, hconfig]
    exact ⟨by decide, by decide⟩

end Connectors

end CallNet.Api
