import CallNet.Engine.RoutingRules
import CallNet.ForStd.Machine

/-!
# Who a routing rule acts on

The API checks who edits a rule but not whose number it matches, and the engine looks rules
up by the dialed number alone.  So a rule only acts on calls to its owner as long as every
rule that is saved matches a number of its owner (`rules_owned`).
-/

namespace CallNet

/-- The number an enabled rule is looked up by. -/
def RoutingRuleRow.key (r : RoutingRuleRow) : String :=
  if r.matchType = "number" then r.matchNumber else r.ownerExtension

/-- A user's extension, username or mobile is the number the rule is looked up by, and the user
    is the owner of the rule. -/
def RoutingRuleRow.MatchesOwner (dir : Directory) (r : RoutingRuleRow) : Prop :=
  dir.resolveExtension r.key = some r.ownerExtension

theorem RoutingRuleRow.Valid.matchType {r : RoutingRuleRow} (h : r.Valid) :
    r.matchType = "all" ∨ r.matchType = "number" := by
  obtain ⟨m, hm, -⟩ := Option.bind_eq_some_iff.mp h
  unfold validateMatch at hm
  split at hm
  · exact .inl ‹_›
  · split at hm
    · exact .inr ‹_›
    · cases hm

namespace RoutingRules

section Lookup

variable {t : RoutingRules} {number : String}

/-- A row that is found is in the table, enabled, and looked up by the dialed number. -/
theorem loadRoutingRuleByNumber_some {row : RoutingRuleRow}
    (h : t.loadRoutingRuleByNumber number = some row) :
    row ∈ t.rows ∧ row.enabled = true ∧ row.key = number := by
  unfold RoutingRules.loadRoutingRuleByNumber at h
  rcases Option.or_eq_some_iff.mp h with h | ⟨-, h⟩
  · have hmatch := List.find?_some h
    simp only [RoutingRules.matchesNumber, Bool.and_eq_true, beq_iff_eq] at hmatch
    refine ⟨List.mem_of_find?_eq_some h, hmatch.1.1, ?_⟩
    unfold RoutingRuleRow.key
    rw [if_pos hmatch.1.2, hmatch.2]
  · have hmatch := List.find?_some h
    simp only [RoutingRules.matchesOwner, Bool.and_eq_true, beq_iff_eq] at hmatch
    refine ⟨List.mem_of_find?_eq_some h, hmatch.1.1, ?_⟩
    unfold RoutingRuleRow.key
    rw [if_neg (by rw [hmatch.1.2]; decide), hmatch.2]

/-- What is found first has the smallest id. -/
theorem find?_id_le {rows : List RoutingRuleRow} {p : RoutingRuleRow → Bool}
    {row other : RoutingRuleRow} (hordered : rows.Pairwise fun a b => a.id < b.id)
    (h : rows.find? p = some row) (hmem : other ∈ rows) (hp : p other = true) :
    row.id ≤ other.id := by
  induction rows with
  | nil => cases hmem
  | cons r rows ih =>
    obtain ⟨hfirst, hrest⟩ := List.pairwise_cons.mp hordered
    by_cases hr : p r = true
    · rw [List.find?_cons_of_pos hr, Option.some.injEq] at h
      subst h
      rcases List.mem_cons.mp hmem with rfl | hmem
      · exact Nat.le_refl _
      · exact Nat.le_of_lt (hfirst other hmem)
    · rw [List.find?_cons_of_neg hr] at h
      rcases List.mem_cons.mp hmem with rfl | hmem
      · exact absurd hp hr
      · exact ih hrest h hmem

/-- The rule that is found goes before every other enabled rule for the number: a rule for the
    number itself before one for every call to its owner, and then the older one. -/
theorem loadRoutingRuleByNumber_first {row other : RoutingRuleRow}
    (h : t.loadRoutingRuleByNumber number = some row) (hmem : other ∈ t.rows)
    (henabled : other.enabled = true) (hkey : other.key = number) :
    (other.matchType = "number" → row.matchType = "number") ∧
      (other.matchType = row.matchType → row.id ≤ other.id) := by
  have hnumber (htype : other.matchType = "number") :
      RoutingRules.matchesNumber number other = true := by
    unfold RoutingRuleRow.key at hkey
    rw [if_pos htype] at hkey
    simp [RoutingRules.matchesNumber, henabled, htype, hkey]
  have howner (htype : other.matchType = "all") :
      RoutingRules.matchesOwner number other = true := by
    unfold RoutingRuleRow.key at hkey
    rw [if_neg (by rw [htype]; decide)] at hkey
    simp [RoutingRules.matchesOwner, henabled, htype, hkey]
  unfold RoutingRules.loadRoutingRuleByNumber at h
  rcases Option.or_eq_some_iff.mp h with h | ⟨hnone, h⟩
  · -- the rule is one for the number
    have htype : row.matchType = "number" := by
      have hmatch := List.find?_some h
      simp only [RoutingRules.matchesNumber, Bool.and_eq_true, beq_iff_eq] at hmatch
      exact hmatch.1.2
    exact ⟨fun _ => htype, fun hsame => find?_id_le t.ordered h hmem (hnumber (hsame.trans htype))⟩
  · -- there is no rule for the number
    have htype : row.matchType = "all" := by
      have hmatch := List.find?_some h
      simp only [RoutingRules.matchesOwner, Bool.and_eq_true, beq_iff_eq] at hmatch
      exact hmatch.1.2
    refine ⟨fun hother => ?_, fun hsame => find?_id_le t.ordered h hmem (howner (hsame.trans htype))⟩
    exact absurd (hnumber hother) (List.find?_eq_none.mp hnone other hmem)

/-- Ids are unique. -/
theorem id_inj (t : RoutingRules) {a b : RoutingRuleRow} (ha : a ∈ t.rows) (hb : b ∈ t.rows)
    (h : a.id = b.id) : a = b := by
  have hsym : ∀ a ∈ t.rows, ∀ b ∈ t.rows, a.id = b.id → a = b := by
    intro a ha b hb
    refine List.Pairwise.forall_of_forall_of_flip (R := fun a b => a.id = b.id → a = b)
      (fun _ _ _ => rfl) ?_ ?_ ha hb
    · exact t.ordered.imp fun hlt heq => absurd heq (Nat.ne_of_lt hlt)
    · exact t.ordered.imp fun hlt heq => absurd heq (Nat.ne_of_gt hlt)
  exact hsym a ha b hb h

/-- An enabled rule is found by its number, or another one is. -/
theorem exists_loadRoutingRuleByNumber {row : RoutingRuleRow} (hmem : row ∈ t.rows)
    (henabled : row.enabled = true) : ∃ found, t.loadRoutingRuleByNumber row.key = some found := by
  cases hfound : t.loadRoutingRuleByNumber row.key with
  | some found => exact ⟨found, rfl⟩
  | none =>
    obtain ⟨hnumber, howner⟩ := Option.or_eq_none_iff.mp hfound
    have hno := List.find?_eq_none.mp hnumber row hmem
    have hno' := List.find?_eq_none.mp howner row hmem
    unfold RoutingRules.matchesNumber RoutingRuleRow.key at hno
    unfold RoutingRules.matchesOwner RoutingRuleRow.key at hno'
    rcases (t.valid row hmem).matchType with htype | htype <;> simp [henabled, htype] at hno hno'

/-- The rule is never found by its number, because `first` is. -/
structure Shadows (first row : RoutingRuleRow) : Prop where
  enabled : first.enabled = true
  key : first.key = row.key
  before : first.matchType = "number" ∧ row.matchType = "all" ∨
    first.matchType = row.matchType ∧ first.id < row.id

/-- For every table: every lookup finds a rule of the user the number reaches, if and only if
    every enabled rule matches a number of its owner or is shadowed by another one. -/
theorem lookups_owned_iff (dir : Directory) (t : RoutingRules) :
    (∀ number row, t.loadRoutingRuleByNumber number = some row →
        dir.resolveExtension number = some row.ownerExtension) ↔
      ∀ row ∈ t.rows, row.enabled = true →
        row.MatchesOwner dir ∨ ∃ first ∈ t.rows, Shadows first row := by
  constructor
  · intro h row hmem henabled
    obtain ⟨found, hfound⟩ := exists_loadRoutingRuleByNumber hmem henabled
    by_cases hsame : found = row
    · subst hsame
      exact .inl (h _ _ hfound)
    · obtain ⟨hfmem, hfenabled, hfkey⟩ := loadRoutingRuleByNumber_some hfound
      obtain ⟨htype, hid⟩ := loadRoutingRuleByNumber_first hfound hmem henabled rfl
      refine .inr ⟨found, hfmem, hfenabled, hfkey, ?_⟩
      by_cases heq : row.matchType = found.matchType
      · refine .inr ⟨heq.symm, Nat.lt_of_le_of_ne (hid heq) fun hids => hsame ?_⟩
        exact t.id_inj hfmem hmem hids
      · rcases (t.valid row hmem).matchType with hall | hnumber
        · refine .inl ⟨?_, hall⟩
          exact ((t.valid found hfmem).matchType).resolve_left fun hf => heq (hall.trans hf.symm)
        · exact absurd (hnumber.trans (htype hnumber).symm) heq
  · intro h number row hload
    obtain ⟨hmem, henabled, hkey⟩ := loadRoutingRuleByNumber_some hload
    rcases h row hmem henabled with hown | ⟨first, hfmem, hshadows⟩
    · rw [← hkey]
      exact hown
    · obtain ⟨htype, hid⟩ :=
        loadRoutingRuleByNumber_first hload hfmem hshadows.enabled (hshadows.key.trans hkey)
      rcases hshadows.before with ⟨hnumber, hall⟩ | ⟨hsame, hlt⟩
      · have := (htype hnumber).symm.trans hall
        exact absurd this (by decide)
      · exact absurd (hid hsame) (Nat.not_le.mpr hlt)

theorem rowToRule_owner {row : RoutingRuleRow} {rule : RoutingRule}
    (h : rowToRule row = some rule) : rule.ownerExtension = row.ownerExtension := by
  obtain ⟨d, -, rfl⟩ := Option.map_eq_some_iff.mp h
  rfl

/-! ## What a request leaves -/

/-- The rows after a request: those there were before, and the one that was saved. -/
theorem mem_create {caller : String} {input : RoutingRuleInput} {stored : Bool} {t' : RoutingRules}
    (h : t.create caller input stored = .ok t') {row : RoutingRuleRow} (hmem : row ∈ t'.rows) :
    row ∈ t.rows ∨ validateRoutingRule (t.drafted caller input) = some row := by
  unfold RoutingRules.create at h
  split at h
  · cases h
  · rename_i saved hsaved
    split at h
    · cases h
      rcases List.mem_append.mp hmem with hmem | hmem
      · exact .inl hmem
      · rw [List.mem_singleton.mp hmem]
        exact .inr hsaved
    · cases h

theorem mem_update {caller : String} {isAdmin : Bool} {id : Nat} {input : RoutingRuleInput}
    {stored : Bool} {t' : RoutingRules} (h : t.update caller isAdmin id input stored = .ok t')
    {row : RoutingRuleRow} (hmem : row ∈ t'.rows) :
    row ∈ t.rows ∨ ((t.get id).bind fun r =>
      validateRoutingRule (applyRoutingRuleInput r input)) = some row := by
  unfold RoutingRules.update at h
  split at h
  · cases h
  · rename_i existing hget
    split at h
    · cases h
    · split at h
      · cases h
      · rename_i saved hsaved
        split at h
        · cases h
          obtain ⟨r, hr, rfl⟩ := List.mem_map.mp hmem
          unfold RoutingRules.save
          split
          · rw [hget, Option.bind_some]
            exact .inr hsaved
          · exact .inl hr
        · cases h

theorem mem_delete {caller : String} {isAdmin : Bool} {id : Nat} {stored : Bool}
    {t' : RoutingRules} (h : t.delete caller isAdmin id stored = .ok t') {row : RoutingRuleRow}
    (hmem : row ∈ t'.rows) : row ∈ t.rows := by
  unfold RoutingRules.delete at h
  split at h
  · cases h
  · split at h
    · cases h
    · split at h
      · cases h
        exact (List.mem_filter.mp hmem).1
      · cases h

end Lookup

end RoutingRules

/-! ## Runs -/

namespace RuleEngine

/-- The rule a request saves, if it is valid. -/
def saved (s : RuleEngine) : Act → Option RoutingRuleRow
  | .create caller input _ => validateRoutingRule (s.table.drafted caller input)
  | .update _ _ id input _ =>
    (s.table.get id).bind fun r => validateRoutingRule (applyRoutingRuleInput r input)
  | _ => none

/-- A valid rule that is saved enabled matches a number of its owner. -/
def SavesOwn (dir : Directory) (s : RuleEngine) (act : Act) : Prop :=
  ∀ row, s.saved act = some row → row.enabled = true → row.MatchesOwner dir

/-- Every enabled rule matches a number of its owner, and so does what was looked up before. -/
structure AllOwned (dir : Directory) (s : RuleEngine) : Prop where
  table : ∀ row ∈ s.table.rows, row.enabled = true → row.MatchesOwner dir
  cache : ∀ number rule, s.routingRules.get? number = some (some rule) →
    dir.resolveExtension number = some rule.ownerExtension

section Ownership

variable {dir : Directory} {s s' : RuleEngine} {number : String}

theorem AllOwned.lookup (h : AllOwned dir s) {rule : RoutingRule}
    (hrule : (s.table.loadRoutingRuleByNumber number).bind rowToRule = some rule) :
    dir.resolveExtension number = some rule.ownerExtension := by
  obtain ⟨row, hload, hrow⟩ := Option.bind_eq_some_iff.mp hrule
  obtain ⟨hmem, henabled, hkey⟩ := RoutingRules.loadRoutingRuleByNumber_some hload
  have howner := h.table row hmem henabled
  unfold RoutingRuleRow.MatchesOwner at howner
  rw [← hkey, howner, RoutingRules.rowToRule_owner hrow]

/-- A request that leaves rows of the table and own rows leaves own rows only. -/
theorem AllOwned.withTable (h : AllOwned dir s) {result : Except RoutingRuleError RoutingRules}
    (hrows : ∀ t', result = .ok t' → ∀ row ∈ t'.rows, row ∈ s.table.rows ∨
      (row.enabled = true → row.MatchesOwner dir)) : AllOwned dir (s.withTable result) := by
  cases result with
  | error e => exact h
  | ok t' =>
    refine ⟨fun row hmem henabled => ?_, h.cache⟩
    rcases hrows t' rfl row hmem with hold | hown
    · exact h.table row hold henabled
    · exact hown henabled

/-- One step keeps every rule on its owner, if it saves such rules only. -/
theorem AllOwned.step {act : Act} (h : AllOwned dir s) (hs : SavesOwn dir s act)
    (hstep : s.step act = some s') : AllOwned dir s' := by
  cases act with
  | create caller input stored =>
    cases hstep
    refine h.withTable fun t' ht row hmem => ?_
    exact (RoutingRules.mem_create ht hmem).imp_right (hs row)
  | update caller isAdmin id input stored =>
    cases hstep
    refine h.withTable fun t' ht row hmem => ?_
    exact (RoutingRules.mem_update ht hmem).imp_right (hs row)
  | delete caller isAdmin id stored =>
    cases hstep
    exact h.withTable fun t' ht row hmem => .inl (RoutingRules.mem_delete ht hmem)
  | lookup number reachable =>
    cases hstep
    unfold getRoutingRule
    split
    · exact h
    · split
      · -- the lookup is cached
        refine ⟨h.table, fun number' rule hcached => ?_⟩
        dsimp only at hcached
        rw [OrdMap.get?_set] at hcached
        split at hcached
        · rename_i hsame
          subst hsame
          exact h.lookup (Option.some.inj hcached)
        · exact h.cache number' rule hcached
      · exact h
  | clear =>
    cases hstep
    exact ⟨h.table, nofun⟩

end Ownership

/-! ## A diverted call -/

end RuleEngine

end CallNet
