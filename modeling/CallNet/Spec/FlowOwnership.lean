import CallNet.Api.IvrHandler
import CallNet.ForStd.Machine
import CallNet.ForStd.Slots

/-!
# Who changes an IVR flow

A flow keeps the owner that created it, whatever the requests do.  That nobody else changes
or deletes it rests on the read before the write: `Save` takes every failed read for a flow
that does not exist, and then updates the one that does; and what was read may be another
flow's row when the write comes.  `flows_owned` says which runs are free of both.
-/

namespace CallNet.Api

section Store

variable {db : Store} {id id' : String} {flow row row' : IvrFlow}

theorem getFlow_upsertFlow_ne (h : id' ≠ id) : (db.upsertFlow id flow).getFlow id' = db.getFlow id' := by
  unfold Store.upsertFlow Store.getFlow
  split <;> exact OrdMap.get?_set_ne _ _ h

/-- A conflict leaves the owner alone. -/
theorem owner_upsertFlow (hold : db.getFlow id = some row)
    (hnew : (db.upsertFlow id flow).getFlow id = some row') :
    row'.ownerExtension = row.ownerExtension := by
  unfold Store.getFlow at hold
  unfold Store.upsertFlow Store.getFlow at hnew
  simp only [hold, OrdMap.get?_set_self, Option.some.injEq] at hnew
  rw [← hnew]

theorem owner_upsertFlow_new (hold : db.getFlow id = none)
    (hnew : (db.upsertFlow id flow).getFlow id = some row') :
    row'.ownerExtension = flow.ownerExtension := by
  unfold Store.getFlow at hold
  unfold Store.upsertFlow Store.getFlow at hnew
  simp only [hold, OrdMap.get?_set_self, Option.some.injEq] at hnew
  rw [← hnew]
  rfl

theorem getFlow_deleteFlow (db : Store) (id id' : String) :
    (db.deleteFlow id).getFlow id' = if id' = id then none else db.getFlow id' :=
  OrdMap.get?_delete _ _ _

end Store

namespace IvrHandler

/-! ## Queries -/

/-- The flow that the next query writes or deletes. -/
def Stage.target : Stage → Option String
  | .upserting id _ | .removing id => some id
  | .saving _ _ | .reloading _ _ | .deleting _ | .answered _ => none

/-- The query takes effect. -/
def Outcome.effective : Outcome → Bool
  | .done | .unacknowledged _ => true
  | .fails _ => false

section Query

variable {db db' : Store} {caller : Caller} {stage stage' : Stage} {out : Outcome} {id : String}

/-- A query changes nothing, stores a flow or deletes one. -/
theorem query_db (h : query db caller stage out = some (db', stage')) :
    db' = db ∨
      (∃ id flow, stage = .upserting id flow ∧ out.effective = true ∧
        db' = db.upsertFlow id flow) ∨
      ∃ id, stage = .removing id ∧ db' = db.deleteFlow id := by
  cases stage with
  | saving id req =>
    cases h
    exact .inl rfl
  | upserting id flow =>
    cases out with
    | fails err =>
      cases h
      exact .inl rfl
    | done =>
      obtain ⟨-, h⟩ := Option.ite_none_right_eq_some.mp h
      cases h
      exact .inr (.inl ⟨id, flow, rfl, rfl, rfl⟩)
    | unacknowledged err =>
      obtain ⟨-, h⟩ := Option.ite_none_right_eq_some.mp h
      cases h
      exact .inr (.inl ⟨id, flow, rfl, rfl, rfl⟩)
  | reloading id flow =>
    simp only [query] at h
    split at h <;> cases h <;> exact .inl rfl
  | deleting id =>
    cases h
    exact .inl rfl
  | removing id =>
    cases out with
    | fails err =>
      cases h
      exact .inl rfl
    | done =>
      cases h
      exact .inr (.inr ⟨id, rfl, rfl⟩)
    | unacknowledged err =>
      cases h
      exact .inr (.inr ⟨id, rfl, rfl⟩)
  | answered a =>
    simp only [query] at h
    cases h

/-- A read that answered found what is stored. -/
theorem read_eq_ok {row : Option IvrFlow} {read : Option IvrFlow} (h : out.read row = .ok read) :
    out = .done ∧ read = row := by
  cases out with
  | done =>
    cases h
    exact ⟨rfl, rfl⟩
  | fails err => cases h
  | unacknowledged err => cases h

/-- `Save` goes on to store where its read found no flow of another's, or failed. -/
theorem afterRead_target {id' : String} {req : IvrFlowRequest}
    (ht : (afterRead caller id' req (out.read (db.getFlow id'))).target = some id) :
    id' = id ∧ (out ≠ .done ∨ ∀ row, db.getFlow id = some row → caller.May row) := by
  unfold afterRead at ht
  split at ht
  · rename_i existing hread
    obtain ⟨-, hstored⟩ := read_eq_ok hread
    split at ht
    · -- the read has found a flow that the caller may change
      rename_i hmay
      cases ht
      refine ⟨rfl, .inr fun row hrow => ?_⟩
      rw [hrow] at hstored
      cases hstored
      exact hmay
    · cases ht
  · rename_i hread
    obtain ⟨-, hstored⟩ := read_eq_ok hread
    cases ht
    refine ⟨rfl, .inr fun row hrow => ?_⟩
    rw [hrow] at hstored
    cases hstored
  · -- every failed read goes on as if there were no flow
    rename_i err hread
    cases ht
    refine ⟨rfl, .inl ?_⟩
    rintro rfl
    cases hread

/-- `Delete` goes on only where its read found a flow that the caller may change. -/
theorem afterDeleteRead_target {id' : String}
    (ht : (afterDeleteRead caller id' (out.read (db.getFlow id'))).target = some id) :
    id' = id ∧ ∀ row, db.getFlow id = some row → caller.May row := by
  unfold afterDeleteRead at ht
  split at ht
  · rename_i flow hread
    obtain ⟨-, hstored⟩ := read_eq_ok hread
    split at ht
    · rename_i hmay
      cases ht
      refine ⟨rfl, fun row hrow => ?_⟩
      rw [hrow] at hstored
      cases hstored
      exact hmay
    · cases ht
  · cases ht
  · cases ht

/-- A request comes to a write from its read: the caller may change the flow that was read, or
    none was found, or the read of `Save` failed. -/
theorem query_target (h : query db caller stage out = some (db', stage'))
    (ht : stage'.target = some id) :
    db' = db ∧ ((∃ req, stage = .saving id req ∧ out ≠ .done) ∨
      ∀ row, db.getFlow id = some row → caller.May row) := by
  cases stage with
  | saving id' req =>
    cases h
    obtain ⟨rfl, hread⟩ := afterRead_target ht
    exact ⟨rfl, hread.imp (fun hout => ⟨req, rfl, hout⟩) fun hmay => hmay⟩
  | deleting id' =>
    cases h
    obtain ⟨rfl, hmay⟩ := afterDeleteRead_target ht
    exact ⟨rfl, .inr hmay⟩
  | upserting id' flow =>
    -- after the store there is no other change to come
    cases out with
    | fails err =>
      cases h
      cases ht
    | done =>
      obtain ⟨-, h⟩ := Option.ite_none_right_eq_some.mp h
      cases h
      cases ht
    | unacknowledged err =>
      obtain ⟨-, h⟩ := Option.ite_none_right_eq_some.mp h
      cases h
      cases ht
  | reloading id' flow =>
    simp only [query] at h
    split at h <;> cases h <;> cases ht
  | removing id' => cases out <;> cases h <;> cases ht
  | answered a =>
    simp only [query] at h
    cases h

/-- `Save` without a read: it makes an id of its own. -/
theorem save_target {param : String} {req : IvrFlowRequest} {now : Nat}
    (ht : (save caller param req now).target = some id) :
    param = "" ∧ req.id = "" ∧ id = newId now := by
  unfold save at ht
  by_cases hbad : req.name = "" ∨ req.extension = ""
  · rw [if_pos hbad] at ht
    cases ht
  · simp only [if_neg hbad] at ht
    by_cases hp : param = ""
    · by_cases hid : req.id = ""
      · simp only [hp, hid, ne_eq, not_true_eq_false, if_false] at ht
        cases ht
        exact ⟨hp, hid, rfl⟩
      · simp only [hp, hid, ne_eq, not_true_eq_false, if_false, not_false_eq_true, if_true] at ht
        cases ht
    · simp only [hp, ne_eq, not_false_eq_true, if_true] at ht
      cases ht

end Query

/-! ## Runs -/

namespace State

/-- Whose request takes the step. -/
def actor (s : State) : Event → Option Caller
  | .save caller _ _ _ | .delete caller _ => some caller
  | .next k _ => s.requests[k]?.map Request.caller

/-- Every flow that is stored before and after the step has the owner it had. -/
def KeepsOwners (s : State) (e : Event) : Prop :=
  ∀ s', s.step e = some s' → ∀ id row row', s.db.getFlow id = some row →
    s'.db.getFlow id = some row' → row'.ownerExtension = row.ownerExtension

/-- A flow that the step changes or deletes belongs to the user whose request it is, unless
    that is an admin. -/
def OnlyOwners (s : State) (e : Event) : Prop :=
  ∀ s', s.step e = some s' → ∀ id row, s.db.getFlow id = some row →
    s'.db.getFlow id ≠ some row → ∃ caller, s.actor e = some caller ∧ caller.May row

/-- What must not happen at a query: that `Save` fails to read a flow the caller may not change,
    and that a flow is created which another request, past its own read, is going to write or
    delete without the right to. -/
def CalmQuery (s : State) (k : Nat) (caller : Caller) : Stage → Outcome → Prop
  | .saving id _, out => out ≠ .done → ∀ row ∈ s.db.getFlow id, caller.May row
  | .upserting id flow, out =>
    out.effective = true → s.db.getFlow id = none → ∀ j < s.requests.length, j ≠ k →
      ∀ other ∈ s.requests[j]?, other.stage.target = some id → other.caller.May flow
  | _, _ => True

/-- Such a query, or the id that is made for a new flow is the id of somebody else's. -/
def Calm (s : State) : Event → Prop
  | .save caller param req now =>
    param = "" → req.id = "" → ∀ row ∈ s.db.getFlow (newId now), caller.May row
  | .delete _ _ => True
  | .next k out => ∀ r ∈ s.requests[k]?, s.CalmQuery k r.caller r.stage out

instance (s : State) (k : Nat) (caller : Caller) :
    ∀ stage out, Decidable (s.CalmQuery k caller stage out)
  | .saving id _, out =>
    inferInstanceAs (Decidable (out ≠ .done → ∀ row ∈ s.db.getFlow id, caller.May row))
  | .upserting id flow, out =>
    inferInstanceAs (Decidable (out.effective = true → s.db.getFlow id = none →
      ∀ j < s.requests.length, j ≠ k → ∀ other ∈ s.requests[j]?,
        other.stage.target = some id → other.caller.May flow))
  | .reloading _ _, _ | .deleting _, _ | .removing _, _ | .answered _, _ => isTrue trivial

instance (s : State) : ∀ e, Decidable (s.Calm e)
  | .save caller param req now =>
    inferInstanceAs (Decidable (param = "" → req.id = "" →
      ∀ row ∈ s.db.getFlow (newId now), caller.May row))
  | .delete _ _ => isTrue trivial
  | .next k out =>
    inferInstanceAs (Decidable (∀ r ∈ s.requests[k]?, s.CalmQuery k r.caller r.stage out))

/-- Whatever a request is going to write or delete, its caller may. -/
def Rightful (s : State) : Prop :=
  ∀ (k : Nat) (r : Request), s.requests[k]? = some r → ∀ id, r.stage.target = some id →
    ∀ row, s.db.getFlow id = some row → r.caller.May row

section Step

variable {s s' : State} {e : Event}

/-- One step of a request. -/
theorem step_next {k : Nat} {out : Outcome} (h : s.step (.next k out) = some s') :
    ∃ r db stage, s.requests[k]? = some r ∧ query s.db r.caller r.stage out = some (db, stage) ∧
      s' = ⟨db, s.requests.set k { r with stage }⟩ := by
  simp only [step] at h
  split at h
  · rename_i r hr
    obtain ⟨⟨db, stage⟩, hq, rfl⟩ := Option.map_eq_some_iff.mp h
    exact ⟨r, db, stage, hr, hq, rfl⟩
  · cases h

theorem keepsOwners (s : State) (e : Event) : s.KeepsOwners e := by
  intro s' hstep id row row' hold hnew
  have hsame (h : s'.db = s.db) : row'.ownerExtension = row.ownerExtension := by
    rw [h, hold] at hnew
    cases hnew
    rfl
  cases e with
  | save caller param req now =>
    cases hstep
    exact hsame rfl
  | delete caller id' =>
    cases hstep
    exact hsame rfl
  | next k out =>
    obtain ⟨r, db, stage, -, hq, rfl⟩ := step_next hstep
    rcases query_db hq with rfl | ⟨id', flow, -, -, rfl⟩ | ⟨id', -, rfl⟩
    · exact hsame rfl
    · by_cases hid : id = id'
      · -- the flow is replaced, and the upsert leaves the owner
        subst hid
        exact owner_upsertFlow hold hnew
      · rw [getFlow_upsertFlow_ne hid, hold] at hnew
        cases hnew
        rfl
    · rw [getFlow_deleteFlow] at hnew
      split at hnew
      · cases hnew
      · rw [hold] at hnew
        cases hnew
        rfl

/-- What a rightful request writes, it may. -/
theorem Rightful.onlyOwners (h : s.Rightful) (e : Event) : s.OnlyOwners e := by
  intro s' hstep id row hold hchanged
  cases e with
  | save caller param req now =>
    cases hstep
    exact absurd hold hchanged
  | delete caller id' =>
    cases hstep
    exact absurd hold hchanged
  | next k out =>
    obtain ⟨r, db, stage, hr, hq, rfl⟩ := step_next hstep
    have hactor : s.actor (.next k out) = some r.caller := by
      simp only [actor, hr, Option.map_some]
    refine ⟨r.caller, hactor, ?_⟩
    rcases query_db hq with rfl | ⟨id', flow, hstage, -, rfl⟩ | ⟨id', hstage, rfl⟩
    · exact absurd hold hchanged
    · by_cases hid : id = id'
      · subst hid
        exact h k r hr id (by rw [hstage]; rfl) row hold
      · rw [getFlow_upsertFlow_ne hid] at hchanged
        exact absurd hold hchanged
    · rw [getFlow_deleteFlow] at hchanged
      split at hchanged
      · rename_i hid
        subst hid
        exact h k r hr id (by rw [hstage]; rfl) row hold
      · exact absurd hold hchanged

/-- A request that arrives is rightful when what it writes next is. -/
theorem Rightful.start (h : s.Rightful) {r : Request}
    (hr : ∀ id, r.stage.target = some id → ∀ row, s.db.getFlow id = some row →
      r.caller.May row) : (s.start r).Rightful := by
  intro k r' hr' id ht row hrow
  rcases List.getElem?_concat_cases hr' with ⟨-, hr'⟩ | ⟨-, rfl⟩
  · exact h k r' hr' id ht row hrow
  · exact hr id ht row hrow

/-- One calm step keeps every request rightful. -/
theorem Rightful.step (h : s.Rightful) (hcalm : s.Calm e) (hstep : s.step e = some s') :
    s'.Rightful := by
  cases e with
  | save caller param req now =>
    cases hstep
    refine h.start fun id ht row hrow => ?_
    obtain ⟨hparam, hid, rfl⟩ := save_target ht
    exact hcalm hparam hid row hrow
  | delete caller id' =>
    cases hstep
    -- `Delete` reads before it deletes
    exact h.start fun id ht => nomatch ht
  | next k out =>
    obtain ⟨r, db, stage, hr, hq, rfl⟩ := step_next hstep
    have hcalm : s.CalmQuery k r.caller r.stage out := hcalm r hr
    intro j r' hr' id ht row hrow
    rcases List.getElem?_set_cases hr' with ⟨-, rfl⟩ | ⟨hj, hold'⟩
    · -- the request itself, now past its read
      obtain ⟨rfl, hread⟩ := query_target hq ht
      rcases hread with ⟨req, hstage, hfailed⟩ | hmay
      · rw [hstage] at hcalm
        exact hcalm hfailed row hrow
      · exact hmay row hrow
    · -- another one, and the row is the one that was there, or has been created now
      rcases query_db hq with rfl | ⟨id', flow, hstage, heffective, rfl⟩ | ⟨id', hstage, rfl⟩
      · exact h j r' hold' id ht row hrow
      · by_cases hid : id = id'
        · subst hid
          rw [hstage] at hcalm
          cases hold : s.db.getFlow id with
          | some old =>
            -- replaced, under the owner it had
            have howner := owner_upsertFlow hold hrow
            exact (h j r' hold' id ht old hold).imp_right (howner.trans ·)
          | none =>
            -- created since the read of the other request
            have howner := owner_upsertFlow_new hold hrow
            have hlt := List.lt_length_of_getElem? hold'
            exact (hcalm heffective hold j hlt hj r' hold' ht).imp_right (howner.trans ·)
        · rw [getFlow_upsertFlow_ne hid] at hrow
          exact h j r' hold' id ht row hrow
      · rw [getFlow_deleteFlow] at hrow
        split at hrow
        · cases hrow
        · exact h j r' hold' id ht row hrow

end Step

/-- In every run a stored flow keeps its owner; and in every run in which no `Save` fails to read
    somebody else's flow or makes its id, and no flow is created for somebody else between the
    read and the write of a request, nobody but an admin changes or deletes a flow that is not
    the own. -/
theorem flows_owned (db : Store) (es : List Event) :
    Machine.Meets step KeepsOwners (init db) es ∧
      (Machine.Meets step Calm (init db) es → Machine.Meets step OnlyOwners (init db) es) := by
  have hinit : (init db).Rightful := fun k r hr => nomatch hr
  refine ⟨?_, fun hcalm => ?_⟩
  · refine Machine.Meets.of_invariant (I := fun _ => True) (P := fun _ _ => True)
      (fun _ _ _ _ _ _ => trivial) (fun s e _ _ => keepsOwners s e) trivial ?_
    exact Machine.meets_of_mem (H := fun _ => True) fun _ _ => trivial
  · exact Machine.Meets.of_invariant (fun s e s' hs hc hstep => hs.step hc hstep)
      (fun s e hs _ => hs.onlyOwners e) hinit hcalm

/-! ## Somebody else's flow -/

/-- Alice's flow. -/
def deskFlow : IvrFlow := ⟨"Front desk", "6001", "1001", true, "[]", "[]"⟩

/-- Only Alice has a flow. -/
def deskStore : Store := ⟨["1001", "1002"], .empty, .ofList [("desk", deskFlow)], fun _ => [], none⟩

/-- Alice replaces her flow, and deletes it. -/
def ownRun : List Event :=
  [.save ⟨"1001", false⟩ "desk" ⟨"", "Front desk", "6002", none, "", ""⟩ 1, .next 0 .done,
    .next 0 .done, .next 0 .done, .delete ⟨"1001", false⟩ "desk", .next 1 .done, .next 1 .done]

theorem flows_owned_ownRun : Machine.Meets step OnlyOwners (init deskStore) ownRun :=
  (flows_owned deskStore ownRun).2 (by decide +kernel)

/-- Bob saves a flow under the id of Alice's while the database does not answer the read. -/
def foreignRun : List Event :=
  [.save ⟨"1002", false⟩ "desk" ⟨"", "Mine", "6001", none, "", ""⟩ 1, .next 0 (.fails "timeout"),
    .next 0 .done]

/-- The flow of another user is replaced. -/
theorem not_onlyOwners_foreignRun :
    ¬ Machine.Meets step OnlyOwners (init deskStore) foreignRun := by
  intro h
  obtain ⟨-, -, hlast, -⟩ := h
  have hchanged : (deskStore.upsertFlow "desk"
      ⟨"Mine", "6001", "1002", true, "[]", "[]"⟩).getFlow "desk" ≠ some deskFlow := by decide +kernel
  obtain ⟨caller, hactor, hmay⟩ := hlast _ rfl "desk" deskFlow (by decide +kernel) hchanged
  cases hactor
  revert hmay
  decide +kernel

end State

end IvrHandler

end CallNet.Api
