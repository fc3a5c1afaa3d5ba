import CallNet.Engine.CallEffects

/-!
# Routing rules

The table of users' routing rules as the API writes it
(`server/internal/service/routing_rule_service.go` behind
`server/internal/handler/routing_rule_handler.go`) and as the SIP engine reads it
(`services/postgres/routing.repo.ts`, with the cache of `services/database.service.ts`).

The timestamps of a rule are left out.
-/

namespace CallNet

/-- A row of `routing_rules`. -/
structure RoutingRuleRow where
  id : Nat
  ownerExtension : String
  matchType : String
  matchNumber : String
  destinationType : String
  destinationValue : String
  enabled : Bool
deriving DecidableEq, Repr

/-- A partial create or update: only the given fields are applied. -/
structure RoutingRuleInput where
  matchType : Option String := none
  matchNumber : Option String := none
  destinationType : Option String := none
  destinationValue : Option String := none
  enabled : Option Bool := none
deriving DecidableEq, Repr

inductive RoutingRuleError where
  | notFound
  | invalid
  /-- Any other failure of the repository. -/
  | repository
deriving DecidableEq, Repr

/-- `writeErr` -/
def RoutingRuleError.status : RoutingRuleError → Nat
  | .notFound => 404
  | .invalid => 400
  | .repository => 500

/-! ## Text -/

/-- `unicode.IsSpace` -/
def goIsSpace (c : Char) : Bool :=
  c ∈ ['\t', '\n', '\x0b', '\x0c', '\r', ' ', '\u0085', '\u00a0', '\u1680', '\u2028', '\u2029',
    '\u202f', '\u205f', '\u3000'] ∨ ('\u2000' ≤ c ∧ c ≤ '\u200a')

/-- `strings.TrimSpace` -/
def goTrimSpace (s : String) : String :=
  String.ofList ((s.toList.dropWhile goIsSpace).reverse.dropWhile goIsSpace).reverse

/-- `strings.ToLower` of the letters it maps to ASCII; the others are kept, as no rule with one
    of them in a lowered field is valid. -/
def goToLower (s : String) : String :=
  s.map fun c => if c = '\u0130' then 'i' else if c = '\u212a' then 'k' else c.toLower

/-! ## The service -/

/-- Copy the given fields, trimmed, onto the rule. -/
def applyRoutingRuleInput (r : RoutingRuleRow) (input : RoutingRuleInput) : RoutingRuleRow :=
  { r with
    matchType := (input.matchType.map fun v => goToLower (goTrimSpace v)).getD r.matchType
    matchNumber := (input.matchNumber.map goTrimSpace).getD r.matchNumber
    destinationType :=
      (input.destinationType.map fun v => goToLower (goTrimSpace v)).getD r.destinationType
    destinationValue := (input.destinationValue.map goTrimSpace).getD r.destinationValue
    enabled := input.enabled.getD r.enabled }

/-- Check a rule's match, blanking the number of a rule for every call. -/
def validateMatch (r : RoutingRuleRow) : Option RoutingRuleRow :=
  if r.matchType = "all" then some { r with matchNumber := "" }
  else if r.matchType = "number" then if r.matchNumber = "" then none else some r
  else none

/-- Check a rule's destination, blanking the value of a voicemail rule. -/
def validateDestination (r : RoutingRuleRow) : Option RoutingRuleRow :=
  if r.destinationType ∈ ["ivr", "extension", "pstn", "ai_agent"] then
    if r.destinationValue = "" then none else some r
  else if r.destinationType = "voicemail" then some { r with destinationValue := "" }
  else none

/-- Normalize and check a rule; `none` when it is invalid. -/
def validateRoutingRule (r : RoutingRuleRow) : Option RoutingRuleRow :=
  (validateMatch r).bind validateDestination

/-- Validation has nothing left to do. -/
def RoutingRuleRow.Valid (r : RoutingRuleRow) : Prop := validateRoutingRule r = some r

instance (r : RoutingRuleRow) : Decidable r.Valid := inferInstanceAs (Decidable (_ = _))

/-- What validation changes, and what it establishes. -/
theorem validateRoutingRule_some {r r' : RoutingRuleRow} (h : validateRoutingRule r = some r') :
    r'.Valid ∧ r'.id = r.id ∧ r'.ownerExtension = r.ownerExtension ∧ r'.enabled = r.enabled := by
  obtain ⟨m, hm, hd⟩ := Option.bind_eq_some_iff.mp h
  have hmatch : validateMatch m = some m ∧ m.id = r.id ∧ m.ownerExtension = r.ownerExtension ∧
      m.enabled = r.enabled ∧ (m.matchType = "all" ∧ m.matchNumber = "" ∨
        m.matchType = "number" ∧ m.matchNumber ≠ "") := by
    unfold validateMatch at hm
    split at hm
    · rename_i hall
      cases hm
      exact ⟨if_pos hall, rfl, rfl, rfl, .inl ⟨hall, rfl⟩⟩
    · split at hm
      · rename_i hnumber
        split at hm
        · cases hm
        · rename_i hne
          cases hm
          refine ⟨?_, rfl, rfl, rfl, .inr ⟨hnumber, hne⟩⟩
          unfold validateMatch
          rw [if_neg ‹_›, if_pos hnumber, if_neg hne]
      · cases hm
  obtain ⟨hmm, hid, howner, henabled, hkind⟩ := hmatch
  unfold validateDestination at hd
  split at hd
  · split at hd
    · cases hd
    · rename_i hdest hvalue
      cases hd
      refine ⟨?_, hid, howner, henabled⟩
      unfold RoutingRuleRow.Valid validateRoutingRule
      rw [hmm, Option.bind_some]
      unfold validateDestination
      rw [if_pos hdest, if_neg hvalue]
  · split at hd
    · rename_i hdest hvoicemail
      cases hd
      refine ⟨?_, hid, howner, henabled⟩
      unfold RoutingRuleRow.Valid validateRoutingRule
      have hsame : validateMatch { m with destinationValue := "" } =
          some { m with destinationValue := "" } := by
        unfold validateMatch
        dsimp only
        rcases hkind with ⟨hall, hnumber⟩ | ⟨hnumber, hne⟩
        · rw [if_pos hall, hnumber]
        · rw [if_neg (by rw [hnumber]; decide), if_pos hnumber, if_neg hne]
      rw [hsame, Option.bind_some]
      unfold validateDestination
      rw [if_neg hdest, if_pos hvoicemail]
    · cases hd

/-! ## The table -/

/-- The table: its rows in the order of their ids, every one of them valid. -/
structure RoutingRules where
  rows : List RoutingRuleRow
  nextId : Nat
  ordered : rows.Pairwise fun a b => a.id < b.id
  fresh : ∀ row ∈ rows, row.id < nextId
  valid : ∀ row ∈ rows, row.Valid

namespace RoutingRules

def empty : RoutingRules := ⟨[], 1, .nil, nofun, nofun⟩

/-- `repo.Create` -/
def insert (t : RoutingRules) (row : RoutingRuleRow) (hid : row.id = t.nextId)
    (hv : row.Valid) : RoutingRules where
  rows := t.rows ++ [row]
  nextId := t.nextId + 1
  ordered := by
    refine List.pairwise_append.mpr ⟨t.ordered, List.pairwise_singleton _ _, fun a ha b hb => ?_⟩
    rw [List.mem_singleton.mp hb, hid]
    exact t.fresh a ha
  fresh := by
    intro r hr
    rcases List.mem_append.mp hr with hr | hr
    · exact Nat.lt_succ_of_lt (t.fresh r hr)
    · rw [List.mem_singleton.mp hr, hid]
      exact Nat.lt_succ_self _
  valid := by
    intro r hr
    rcases List.mem_append.mp hr with hr | hr
    · exact t.valid r hr
    · rw [List.mem_singleton.mp hr]
      exact hv

/-- The row put in the place of the one with its id. -/
def save (row r : RoutingRuleRow) : RoutingRuleRow := if r.id = row.id then row else r

theorem save_id (row r : RoutingRuleRow) : (save row r).id = r.id := by
  unfold save
  split
  · exact Eq.symm ‹_›
  · rfl

/-- `repo.Update` -/
def replace (t : RoutingRules) (row : RoutingRuleRow) (hv : row.Valid) : RoutingRules where
  rows := t.rows.map (save row)
  nextId := t.nextId
  ordered := by
    refine List.pairwise_map.mpr (t.ordered.imp fun h => ?_)
    rwa [save_id, save_id]
  fresh := by
    intro r hr
    obtain ⟨r', hr', rfl⟩ := List.mem_map.mp hr
    rw [save_id]
    exact t.fresh r' hr'
  valid := by
    intro r hr
    obtain ⟨r', hr', rfl⟩ := List.mem_map.mp hr
    unfold save
    split
    · exact hv
    · exact t.valid r' hr'

/-- `repo.Delete` -/
def remove (t : RoutingRules) (id : Nat) : RoutingRules where
  rows := t.rows.filter fun r => r.id ≠ id
  nextId := t.nextId
  ordered := t.ordered.sublist List.filter_sublist
  fresh r hr := t.fresh r (List.mem_filter.mp hr).1
  valid r hr := t.valid r (List.mem_filter.mp hr).1

/-- `repo.Get` -/
def get (t : RoutingRules) (id : Nat) : Option RoutingRuleRow := t.rows.find? fun r => r.id = id

/-! ### Requests -/

/-- The rule a create request is for. -/
def drafted (t : RoutingRules) (owner : String) (input : RoutingRuleInput) : RoutingRuleRow :=
  applyRoutingRuleInput
    { id := t.nextId, ownerExtension := owner, matchType := "all", matchNumber := ""
      destinationType := "", destinationValue := "", enabled := true } input

/-- `POST /routing-rules`: the caller becomes the owner.  `stored` tells whether the
    database takes the row. -/
def create (t : RoutingRules) (caller : String) (input : RoutingRuleInput) (stored : Bool) :
    Except RoutingRuleError RoutingRules :=
  match h : validateRoutingRule (t.drafted caller input) with
  | none => .error .invalid
  | some row =>
    if stored then .ok (t.insert row (validateRoutingRule_some h).2.1 (validateRoutingRule_some h).1)
    else .error .repository

/-- A regular user may act on the rules it owns, an admin on any. -/
def canAccess (caller : String) (isAdmin : Bool) (row : RoutingRuleRow) : Bool :=
  isAdmin || row.ownerExtension == caller

/-- `PUT /routing-rules/:id` -/
def update (t : RoutingRules) (caller : String) (isAdmin : Bool) (id : Nat)
    (input : RoutingRuleInput) (stored : Bool) : Except RoutingRuleError RoutingRules :=
  match t.get id with
  | none => .error .notFound
  | some existing =>
    if !canAccess caller isAdmin existing then .error .notFound
    else
      match h : validateRoutingRule (applyRoutingRuleInput existing input) with
      | none => .error .invalid
      | some row =>
        if stored then .ok (t.replace row (validateRoutingRule_some h).1)
        else .error .repository

/-- `DELETE /routing-rules/:id` -/
def delete (t : RoutingRules) (caller : String) (isAdmin : Bool) (id : Nat) (stored : Bool) :
    Except RoutingRuleError RoutingRules :=
  match t.get id with
  | none => .error .notFound
  | some existing =>
    if !canAccess caller isAdmin existing then .error .notFound
    else if stored then .ok (t.remove id) else .error .repository

/-! ### Lookups -/

/-- A rule for this number only. -/
def matchesNumber (number : String) (r : RoutingRuleRow) : Bool :=
  r.enabled && r.matchType == "number" && r.matchNumber == number

/-- A rule for every call to its owner. -/
def matchesOwner (number : String) (r : RoutingRuleRow) : Bool :=
  r.enabled && r.matchType == "all" && r.ownerExtension == number

/-- The enabled rule that matches a dialed number: one for the number before one for every
    call, and the oldest among equals. -/
def loadRoutingRuleByNumber (t : RoutingRules) (number : String) : Option RoutingRuleRow :=
  (t.rows.find? (matchesNumber number)).or (t.rows.find? (matchesOwner number))

end RoutingRules

/-- The destination types of `RuleDestination.text`. -/
def RuleDestination.all : List RuleDestination := [.ivr, .extension, .pstn, .voicemail, .aiAgent]

/-- `rowToRule` -/
def rowToRule (r : RoutingRuleRow) : Option RoutingRule :=
  (RuleDestination.all.find? fun d => d.text = r.destinationType).map fun d =>
    ⟨r.ownerExtension, d, r.destinationValue⟩

/-- The rule of a valid row, with its owner and its destination. -/
theorem RoutingRuleRow.Valid.rule {r : RoutingRuleRow} (h : r.Valid) :
    ∃ rule, rowToRule r = some rule ∧ rule.ownerExtension = r.ownerExtension ∧
      rule.destinationType.text = r.destinationType ∧ rule.destinationValue = r.destinationValue := by
  obtain ⟨m, -, hd⟩ := Option.bind_eq_some_iff.mp h
  have htype : ∃ d ∈ RuleDestination.all, d.text = r.destinationType := by
    unfold validateDestination at hd
    split at hd
    · rename_i hmem
      split at hd
      · cases hd
      · cases hd
        simp only [List.mem_cons, List.not_mem_nil, or_false] at hmem
        rcases hmem with hmem | hmem | hmem | hmem <;> rw [hmem]
        · exact ⟨.ivr, by decide, rfl⟩
        · exact ⟨.extension, by decide, rfl⟩
        · exact ⟨.pstn, by decide, rfl⟩
        · exact ⟨.aiAgent, by decide, rfl⟩
    · split at hd
      · rename_i hvoicemail
        cases hd
        exact ⟨.voicemail, by decide, hvoicemail.symm⟩
      · cases hd
  unfold rowToRule
  cases hfind : RuleDestination.all.find? fun d => d.text = r.destinationType with
  | none =>
    obtain ⟨d, hmem, htext⟩ := htype
    exact absurd (decide_eq_true htext) (List.find?_eq_none.mp hfind d hmem)
  | some d =>
    have htext : d.text = r.destinationType := by simpa using List.find?_some hfind
    exact ⟨⟨r.ownerExtension, d, r.destinationValue⟩, rfl, rfl, htext, rfl⟩

/-! ## The engine -/

/-- The table and the engine's cache of lookups, hits and misses. -/
structure RuleEngine where
  table : RoutingRules
  routingRules : OrdMap String (Option RoutingRule)

namespace RuleEngine

def init : RuleEngine := ⟨.empty, .empty⟩

/-- The rule for a dialed number, and the engine after the lookup.  `reachable` tells whether
    the database answers. -/
def getRoutingRule (s : RuleEngine) (number : String) (reachable : Bool) :
    Option RoutingRule × RuleEngine :=
  match s.routingRules.get? number with
  | some rule => (rule, s)
  | none =>
    if reachable then
      let rule := (s.table.loadRoutingRuleByNumber number).bind rowToRule
      (rule, { s with routingRules := s.routingRules.set number rule })
    else (none, s)

/-- What happens to the table and to the engine. -/
inductive Act where
  | create (caller : String) (input : RoutingRuleInput) (stored : Bool)
  | update (caller : String) (isAdmin : Bool) (id : Nat) (input : RoutingRuleInput) (stored : Bool)
  | delete (caller : String) (isAdmin : Bool) (id : Nat) (stored : Bool)
  | lookup (number : String) (reachable : Bool)
  /-- A notification, or a reconnect of the listener. -/
  | clear

/-- The engine with the table a request leaves. -/
def withTable (s : RuleEngine) : Except RoutingRuleError RoutingRules → RuleEngine
  | .ok table => { s with table }
  | .error _ => s

def step (s : RuleEngine) : Act → Option RuleEngine
  | .create caller input stored => some (s.withTable (s.table.create caller input stored))
  | .update caller isAdmin id input stored =>
    some (s.withTable (s.table.update caller isAdmin id input stored))
  | .delete caller isAdmin id stored =>
    some (s.withTable (s.table.delete caller isAdmin id stored))
  | .lookup number reachable => some (s.getRoutingRule number reachable).2
  | .clear => some { s with routingRules := .empty }

end RuleEngine

end CallNet
