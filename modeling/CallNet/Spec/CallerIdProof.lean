import CallNet.Spec.SettingsSteps

/-!
# Verified caller ids

A number and its verification are columns of one row and are written together, so that a row
which some request writes back is verified for the number that it was verified for when the
request read it.  Only the confirmation verifies a row anew, and it does so for the number that
it asked the carrier about, whichever number the carrier answered with.
-/

namespace CallNet.Api

open Machine (Meets Throughout)

/-! ## The number that a row is verified for -/

def SettingsRow.verifiedNumber (row : SettingsRow) : Option String :=
  if row.callerId.callerIdVerified then some row.callerId.outboundCallerId else none

/-- The number that the row is verified for which the request is about to write. -/
def SettingsPhase.verifies : SettingsPhase → Option String
  | .writing row change => (change.apply row).verifiedNumber
  | _ => none

theorem SettingsRow.verifiedNumber_eq_some {row : SettingsRow} {number : String} :
    row.verifiedNumber = some number ↔
      row.callerId.callerIdVerified = true ∧ row.callerId.outboundCallerId = number := by
  unfold verifiedNumber
  split
  · rename_i hverified
    rw [Option.some.injEq, and_iff_right hverified]
  · rename_i hverified
    exact iff_of_false nofun fun h => hverified h.1

@[simp] theorem SettingsRow.verifiedNumber_create (row : SettingsRow) :
    row.create.verifiedNumber = row.verifiedNumber := by
  have hcolumn : ∀ b : Bool, orDefault false false b = b := by decide
  simp only [verifiedNumber, create, CallerIdColumns.create, hcolumn]

/-- A change of the settings alone leaves the caller id as it was. -/
theorem SettingsChange.verifiedNumber_apply {c : SettingsChange} (hnumber : c.number = none)
    (hverification : c.verification = none) (row : SettingsRow) :
    (c.apply row).verifiedNumber = row.verifiedNumber := by
  simp only [SettingsRow.verifiedNumber, apply, hnumber, hverification, Option.map_none,
    Option.getD_none]

/-- The requests that manage the caller id. -/
def SettingsRequest.managesCallerId : SettingsRequest → Bool
  | .startVerification .. | .confirmVerification | .deleteCallerId => true
  | .get | .update _ | .setPstnForward .. => false

namespace SettingsSystem

variable {twilio : Bool} {s s' : SettingsSystem} {e : SettingsEvent} {number : String}

/-! ## Where a verified row comes from -/

theorem verifies_begins (twilio : Bool) (request : SettingsRequest) :
    (begins twilio request).verifies = none := by
  cases request <;> cases twilio <;> rfl

@[simp] theorem verifies_cleared (row : SettingsRow) :
    (SettingsPhase.writing row cleared).verifies = none := rfl

theorem verifies_afterWrite (extension : String) (stored : SettingsRow) (request : SettingsRequest) :
    (afterWrite extension stored request).verifies = none := by
  cases request <;> rfl

theorem verifies_edits {row : SettingsRow} {request : SettingsRequest}
    (h : (edits row request).verifies = some number) :
    request.managesCallerId = false ∧ row.verifiedNumber = some number := by
  cases request with
  | update input =>
    have hsame := SettingsChange.verifiedNumber_apply (c := { input }) rfl rfl row
    exact ⟨rfl, hsame.symm.trans h⟩
  | setPstnForward enabled target =>
    have hsame := SettingsChange.verifiedNumber_apply
      (c := { input := { pstnEnabled := some enabled, pstnMobile := some target } }) rfl rfl row
    exact ⟨rfl, hsame.symm.trans h⟩
  | startVerification number' countryCode =>
    simp only [edits] at h
    split at h <;> cases h
  | get | confirmVerification | deleteCallerId => cases h

theorem verifies_afterRead {extension : String} {request : SettingsRequest}
    {row : Option SettingsRow} (h : (afterRead twilio extension request row).verifies = some number) :
    request.managesCallerId = false ∧ ∃ row', row = some row' ∧ row'.verifiedNumber = some number := by
  cases row with
  | none => cases request <;> cases h
  | some row =>
    cases request with
    | get => cases h
    | confirmVerification =>
      simp only [afterRead] at h
      split at h
      · cases h
      · split at h <;> cases h
    | deleteCallerId =>
      simp only [afterRead] at h
      split at h
      · cases h
      · split at h <;> cases h
    | update _ | setPstnForward _ _ | startVerification _ _ =>
      simp only [afterRead] at h
      obtain ⟨hrequest, hrow⟩ := verifies_edits h
      exact ⟨hrequest, row, rfl, hrow⟩

theorem verifies_afterFind {row : SettingsRow} {now : Nat} {request : SettingsRequest}
    {answer : Option (List OutgoingCallerID)}
    (h : (afterFind row now request answer).verifies = some number) :
    request = .confirmVerification ∧ row.callerId.outboundCallerId = number ∧
      ∃ found, answer.bind (findOutgoingCallerID row.callerId.outboundCallerId) = some found := by
  by_cases hrequest : request = .confirmVerification
  · rw [hrequest] at h
    simp only [afterFind] at h
    split at h
    · cases h
    · cases h
    · rename_i found hfound
      obtain ⟨ids, hids, hfind⟩ := Option.map_eq_some_iff.mp hfound
      refine ⟨hrequest, Option.some.inj h, found, ?_⟩
      rw [hids]
      exact hfind
  · have hclears : (afterFind row now request answer).verifies = none := by
      cases request <;> first | exact absurd rfl hrequest | (simp only [afterFind]; split <;> rfl)
    rw [hclears] at h
    cases h

/-- A call that verifies a number did so before a step whose call does not. -/
theorem calls_of_quiet {id id' : Nat} {call call' : SettingsCall} {phase : SettingsPhase}
    (hcalls : s'.calls = (s.setPhase id call phase).calls) (hquiet : phase.verifies = none)
    (hid : s'.calls id' = some call') (hverifies : call'.phase.verifies = some number) :
    s.calls id' = some call' := by
  rcases calls_of_setPhase hcalls hid with hold | ⟨-, rfl⟩
  · exact hold
  · rw [hquiet] at hverifies
    cases hverifies

/-- A request is about to write a verified row: it was before the step, or it has just read a
    verified row, or it has just been answered by the carrier. -/
theorem verifies_of_step {id : Nat} {call : SettingsCall} (hstep : step twilio s e = some s')
    (hid : s'.calls id = some call) (hverifies : call.phase.verifies = some number) :
    s.calls id = some call ∨
    (call.request.managesCallerId = false ∧
      ∃ row, s.rows call.extension = some row ∧ row.verifiedNumber = some number) ∨
    (∃ row answer now found, e = .find id answer now ∧
      s.calls id = some ⟨call.extension, .confirmVerification, .finding row⟩ ∧
      row.callerId.outboundCallerId = number ∧
      answer.bind (findOutgoingCallerID row.callerId.outboundCallerId) = some found ∧
      s'.found = (call.extension, found.phoneNumber) :: s.found) := by
  cases steps_of_step hstep with
  | request => exact .inl (calls_of_quiet rfl (verifies_begins ..) hid hverifies)
  | look | lookCooldown =>
    refine .inl (calls_of_quiet rfl ?_ hid hverifies)
    split <;> rfl
  | read ok =>
    rcases calls_of_setPhase rfl hid with hold | ⟨rfl, rfl⟩
    · exact .inl hold
    · obtain ⟨hrequest, row, hrow, hnumber⟩ := verifies_afterRead hverifies
      cases ok with
      | true => exact .inr (.inl ⟨hrequest, row, hrow, hnumber⟩)
      | false => cases hrow
  | lookUser =>
    refine .inl (calls_of_quiet rfl ?_ hid hverifies)
    split
    · -- a new row is not verified
      cases hnew : (edits {} _).verifies with
      | none => rfl
      | some number => cases (verifies_edits hnew).2
    · rfl
  | found now hcall hfound =>
    rcases calls_of_setPhase rfl hid with hold | ⟨rfl, rfl⟩
    · exact .inl hold
    · dsimp only at hverifies
      obtain ⟨-, hnumber, -⟩ := verifies_afterFind hverifies
      exact .inr (.inr ⟨_, _, now, _, rfl, hcall, hnumber, hfound, rfl⟩)
  | notFound now hcall hnot =>
    rcases calls_of_setPhase rfl hid with hold | ⟨rfl, rfl⟩
    · exact .inl hold
    · -- the number is verified only where the account lists it
      dsimp only at hverifies
      obtain ⟨hrequest, -, found, hfound⟩ := verifies_afterFind hverifies
      exact absurd hfound (hnot found hrequest)
  | remove => exact .inl (calls_of_quiet rfl (verifies_cleared _) hid hverifies)
  | write => exact .inl (calls_of_quiet rfl (verifies_afterWrite ..) hid hverifies)
  | cache hphase =>
    refine .inl (calls_of_quiet rfl ?_ hid hverifies)
    rw [hphase]
    split <;> rfl
  | validate | validateFails | writeFails | cool =>
    exact .inl (calls_of_quiet rfl rfl hid hverifies)
  | complete | cooldownExpires | cachedExpires => exact .inl hid

/-- What a confirmation was answered with is not forgotten. -/
theorem found_of_step (hstep : step twilio s e = some s') : s.found ⊆ s'.found := by
  have hkeep : ∀ {t t' : SettingsSystem}, some t = some t' → t.found = s.found →
      s.found ⊆ t'.found := by
    intro t t' heq hfound
    rw [← Option.some.inj heq, hfound]
    exact List.Subset.refl _
  cases e with
  | find id answer now =>
    simp only [step] at hstep
    split at hstep
    · split at hstep
      · rw [← Option.some.inj hstep]
        exact List.subset_cons_self ..
      · exact hkeep hstep rfl
    · cases hstep
  | cooldownExpires ext | cachedExpires ext => exact hkeep hstep rfl
  | request id ext request | look id | read id ok | lookUser id ok | remove id ok | cache id
  | cool id | complete index sid =>
    simp only [step] at hstep
    split at hstep <;> first | exact hkeep hstep rfl | cases hstep
  | validate id answer | write id ok =>
    simp only [step] at hstep
    split at hstep
    · split at hstep <;> exact hkeep hstep rfl
    · cases hstep

/-! ## The property -/

/-- Every verified number was found by a confirmation of the extension that has it. -/
def VerifiedWasFound (s : SettingsSystem) : Prop :=
  ∀ ext row, s.rows ext = some row → row.callerId.callerIdVerified = true →
    (ext, row.callerId.outboundCallerId) ∈ s.found

/-- The carrier lists the number that a confirmation asks about, if it lists any. -/
def AnswersNumber (s : SettingsSystem) : SettingsEvent → Prop
  | .find id (some ids) _ => ∀ ext row, s.calls id = some ⟨ext, .confirmVerification, .finding row⟩ →
    ids ≠ [] → ∃ listed ∈ ids, listed.phoneNumber = row.callerId.outboundCallerId
  | _ => True

structure ProofInv (s : SettingsSystem) : Prop where
  rows : ∀ ext row number, s.rows ext = some row → row.verifiedNumber = some number →
    (ext, number) ∈ s.found
  calls : ∀ id call number, s.calls id = some call → call.phase.verifies = some number →
    (call.extension, number) ∈ s.found

theorem findOutgoingCallerID_mem {ids : List OutgoingCallerID} {found : OutgoingCallerID}
    (h : findOutgoingCallerID number ids = some found) : found ∈ ids := by
  rcases Option.or_eq_some_iff.mp h with hfind | ⟨-, hhead⟩
  · exact List.mem_of_find?_eq_some hfind
  · exact List.mem_of_mem_head? hhead

/-- The number of the resource that was found, when the number that was asked about is listed. -/
theorem findOutgoingCallerID_number {ids : List OutgoingCallerID} {found : OutgoingCallerID}
    (hlisted : ids ≠ [] → ∃ listed ∈ ids, listed.phoneNumber = number)
    (hfound : findOutgoingCallerID number ids = some found) : found.phoneNumber = number := by
  have hne : ids ≠ [] := by
    rintro rfl
    cases hfound
  obtain ⟨listed, hmem, hnumber⟩ := hlisted hne
  unfold findOutgoingCallerID at hfound
  cases hfind : ids.find? fun id => id.phoneNumber = number with
  | none =>
    have hnot := List.find?_eq_none.mp hfind listed hmem
    exact absurd (decide_eq_true hnumber) hnot
  | some id =>
    rw [hfind, Option.some_or, Option.some.injEq] at hfound
    have hid := List.find?_some hfind
    rw [← hfound]
    exact of_decide_eq_true hid

/-- What a step writes is the row of a call, as it is stored. -/
theorem verifiedNumber_of_step {ext : String} {row : SettingsRow}
    (hstep : step twilio s e = some s') (hrow : s'.rows ext = some row)
    (hnumber : row.verifiedNumber = some number) :
    s.rows ext = some row ∨ ∃ id call, e = .write id true ∧ s.calls id = some call ∧
      call.extension = ext ∧ call.phase.verifies = some number := by
  cases moves_of_step hstep with
  | stays _ _ hrows | begins _ _ _ hrows | advances _ _ _ _ _ hrows => exact .inl (hrows ▸ hrow)
  | writes hevent hid _ hrows =>
    have hcases := congrFun hrows ext
    rw [hcases] at hrow
    split at hrow
    · rename_i heq
      refine .inr ⟨_, _, hevent, hid, heq.symm, ?_⟩
      rw [← Option.some.inj hrow, SettingsRow.verifiedNumber_create] at hnumber
      exact hnumber
    · exact .inl hrow

theorem proofInv_step (h : s.ProofInv) (hanswer : AnswersNumber s e)
    (hstep : step twilio s e = some s') : s'.ProofInv := by
  have hgrows := found_of_step hstep
  constructor
  · intro ext row number hrow hnumber
    rcases verifiedNumber_of_step hstep hrow hnumber with hold | ⟨id, call, -, hid, rfl, hverifies⟩
    · exact hgrows (h.rows ext row number hold hnumber)
    · exact hgrows (h.calls id call number hid hverifies)
  · intro id call number hid hverifies
    rcases verifies_of_step hstep hid hverifies with
      hold | ⟨-, row, hrow, hnumber⟩ | ⟨row, answer, now, found, rfl, hfinding, rfl, hbind, hfound⟩
    · exact hgrows (h.calls id call number hold hverifies)
    · exact hgrows (h.rows _ row number hrow hnumber)
    · -- the number that was found is the one that was asked about
      obtain ⟨ids, rfl, hfind⟩ := Option.bind_eq_some_iff.mp hbind
      have hsame := findOutgoingCallerID_number (hanswer _ row hfinding) hfind
      rw [hfound, hsame]
      exact List.mem_cons_self

/-- As long as the carrier lists the number that it was asked about whenever it lists any, every
    verified caller id was found by a confirmation of its own extension. -/
theorem verifiedWasFound_throughout (twilio : Bool) (users : String → Bool)
    (rows : String → Option SettingsRow) (es : List SettingsEvent)
    (hrows : ∀ ext row, rows ext = some row → row.callerId.callerIdVerified = false)
    (hanswers : Meets (step twilio) AnswersNumber (init users rows) es) :
    Throughout (step twilio) VerifiedWasFound (init users rows) es := by
  have hinit : (init users rows).ProofInv := by
    constructor
    · intro ext row number hrow hnumber
      have hverified := (SettingsRow.verifiedNumber_eq_some.mp hnumber).1
      rw [hrows ext row hrow] at hverified
      cases hverified
    · exact fun _ _ _ hid => absurd hid init_calls
  refine (Machine.throughout_of_meets (fun s e s' h hG hstep => proofInv_step h hG hstep) hinit
    hanswers).mono fun s h ext row hrow hverified => ?_
  exact h.rows ext row _ hrow (SettingsRow.verifiedNumber_eq_some.mpr ⟨hverified, rfl⟩)

/-! ## Answers of the carrier -/

/-- A row after the start of a verification. -/
def pendingRow : SettingsRow := { callerId := { outboundCallerId := "+14155550100" } }

/-- The extension confirms its number, with an answer of the carrier. -/
def confirmationWith (answer : List OutgoingCallerID) : List SettingsEvent :=
  [.request 1 "1001" .confirmVerification, .read 1 true, .find 1 (some answer) 0, .write 1 true,
    .cache 1]

theorem verifiedWasFound_ownNumber :
    (∀ ext row, (fun _ : String => some pendingRow) ext = some row →
      row.callerId.callerIdVerified = false) ∧
    Meets (step true) AnswersNumber (init (fun _ => true) fun _ => some pendingRow)
      (confirmationWith [⟨"PN1", "+14155550100"⟩]) ∧
    Throughout (step true) VerifiedWasFound (init (fun _ => true) fun _ => some pendingRow)
      (confirmationWith [⟨"PN1", "+14155550100"⟩]) := by
  have hrows : ∀ ext row, (fun _ : String => some pendingRow) ext = some row →
      row.callerId.callerIdVerified = false := by
    intro ext row hrow
    rw [← Option.some.inj hrow]
    rfl
  have hanswers : Meets (step true) AnswersNumber (init (fun _ => true) fun _ => some pendingRow)
      (confirmationWith [⟨"PN1", "+14155550100"⟩]) := by
    refine ⟨trivial, trivial, ?_, trivial, trivial, trivial⟩
    intro ext row hid _
    have hcall := SettingsCall.mk.inj (Option.some.inj hid)
    have hrow := SettingsPhase.finding.inj hcall.2.2
    rw [← hrow]
    exact ⟨⟨"PN1", "+14155550100"⟩, List.mem_cons_self, rfl⟩
  exact ⟨hrows, hanswers, verifiedWasFound_throughout true _ _ _ hrows hanswers⟩

/-- The carrier answers with another number, and the extension's own is verified. -/
theorem not_verifiedWasFound_otherNumber :
    ¬ Throughout (step true) VerifiedWasFound (init (fun _ => true) fun _ => some pendingRow)
      (confirmationWith [⟨"PN2", "+14155550199"⟩]) := by
  intro h
  have hlast := h.last rfl
  have hfound := hlast "1001" _ rfl rfl
  have hsame := Prod.mk.inj (List.mem_singleton.mp hfound)
  exact absurd hsame.2 (by decide)

end SettingsSystem

end CallNet.Api
