import CallNet.Spec.CallerIdProof

/-!
# Whose verification it is

Requests belong to extensions, but the carrier has one account for all of them: a confirmation
only learns that somebody completed a call for the number.  A caller id is verified by its own
extension's call as long as no extension asks about a number that it did not complete a call
for, and no removal comes between the carrier's answer and the write.
-/

namespace CallNet.Api.SettingsSystem

open Machine (Meets Throughout)

variable {twilio : Bool} {s s' : SettingsSystem} {e : SettingsEvent} {ext number : String}

/-! ## The property and its condition -/

/-- The extension completed a call for the number, and has not removed the number since. -/
def Owns (s : SettingsSystem) (ext number : String) : Prop :=
  ∃ r ∈ s.requests, r.extension = ext ∧ r.number = number ∧ r.completed = true ∧ r.undone = false

/-- A row that becomes verified for a number is that of an extension which owns the number. -/
def VerifiesOwned (twilio : Bool) (s : SettingsSystem) (e : SettingsEvent) : Prop :=
  ∀ s', step twilio s e = some s' → ∀ ext row number, s'.rows ext = some row →
    row.verifiedNumber = some number →
    (∀ before, s.rows ext = some before → before.verifiedNumber ≠ some number) → s.Owns ext number

/-- Only caller ids are managed. -/
def CallerIdRequests (_ : SettingsSystem) : SettingsEvent → Prop
  | .request _ _ request => request.managesCallerId = true
  | _ => True

/-- The carrier answers with what its account has of the number, unless the query fails. -/
def AnswersFromAccount (s : SettingsSystem) : SettingsEvent → Prop
  | .find id (some ids) _ => ∀ ext request row, s.calls id = some ⟨ext, request, .finding row⟩ →
    ∀ listed, listed ∈ ids ↔
      listed ∈ s.account ∧ listed.phoneNumber = row.callerId.outboundCallerId
  | _ => True

/-- A confirmation that asks about a number of the account is that of an owner. -/
def OwnersAsk (s : SettingsSystem) : SettingsEvent → Prop
  | .find id _ _ => ∀ ext row, s.calls id = some ⟨ext, .confirmVerification, .finding row⟩ →
    (∃ listed ∈ s.account, listed.phoneNumber = row.callerId.outboundCallerId) →
    s.Owns ext row.callerId.outboundCallerId
  | _ => True

/-- No removal commits while a confirmation of the number is about to. -/
def RemovesApart (s : SettingsSystem) : SettingsEvent → Prop
  | .write id true => ∀ ext row change,
    s.calls id = some ⟨ext, .deleteCallerId, .writing row change⟩ →
    ∀ id' call, s.calls id' = some call → call.extension = ext →
      call.phase.verifies ≠ some row.callerId.outboundCallerId
  | _ => True

/-! ## Runs -/

structure OwnerInv (s : SettingsSystem) : Prop where
  manages : ∀ id call, s.calls id = some call → call.request.managesCallerId = true
  owns : ∀ id call number, s.calls id = some call → call.phase.verifies = some number →
    s.Owns call.extension number

/-- A number is owned until its owner removes it. -/
theorem owns_of_step (hstep : step twilio s e = some s') (h : s.Owns ext number)
    (hkeeps : ∀ id row change, e = .write id true →
      s.calls id = some ⟨ext, .deleteCallerId, .writing row change⟩ →
      row.callerId.outboundCallerId ≠ number) : s'.Owns ext number := by
  obtain ⟨r, hmem, hext, hnumber, hcompleted, hundone⟩ := h
  have hkeep : ∀ {t : SettingsSystem}, r ∈ t.requests → t.Owns ext number :=
    fun hin => ⟨r, hin, hext, hnumber, hcompleted, hundone⟩
  cases steps_of_step hstep with
  | @complete index r' sid hget =>
    obtain ⟨i, hi⟩ := List.getElem?_of_mem hmem
    by_cases hsame : i = index
    · -- the request itself is completed again
      rw [hsame, hget] at hi
      have hr := Option.some.inj hi
      refine hkeep ?_
      have hset : { r' with completed := true } = r := by rw [hr, ← hcompleted]
      rw [hset]
      exact List.mem_set (List.getElem?_eq_some_iff.mp hget).1 r
    · refine hkeep (List.mem_of_getElem? (i := i) ?_)
      rw [List.getElem?_set_ne (Ne.symm hsame)]
      exact hi
  | @write id ext' request row change hid =>
    refine hkeep ?_
    simp only
    split
    · rename_i hdelete
      refine List.mem_map.mpr ⟨r, hmem, if_neg fun hremoved => ?_⟩
      -- the removal of this very number
      rw [hdelete, ← hremoved.1, hext] at hid
      refine hkeeps id row change rfl hid ?_
      rw [← hremoved.2, hnumber]
    · exact hmem
  | validate => exact hkeep (List.mem_append_left _ hmem)
  | request | look | lookCooldown | read | lookUser | validateFails | found | notFound | remove
  | writeFails | cache | cool | cooldownExpires | cachedExpires => exact hkeep hmem

/-- The calls go on with the requests they began with. -/
theorem manages_of_step (h : ∀ id call, s.calls id = some call → call.request.managesCallerId = true)
    (hrequests : CallerIdRequests s e) (hstep : step twilio s e = some s') :
    ∀ id call, s'.calls id = some call → call.request.managesCallerId = true := by
  cases moves_of_step hstep with
  | stays _ hcalls => rwa [hcalls]
  | begins hevent _ hcalls =>
    rw [hevent] at hrequests
    exact forall_of_calls hcalls h hrequests
  | advances _ hid _ _ hcalls | writes _ hid hcalls =>
    have hrequest := h _ _ hid
    exact forall_of_calls hcalls h hrequest

theorem ownerInv_step (h : s.OwnerInv) (hrequests : CallerIdRequests s e)
    (hanswers : AnswersFromAccount s e) (hask : OwnersAsk s e) (hremoves : RemovesApart s e)
    (hstep : step twilio s e = some s') : s'.OwnerInv := by
  have hmanages := manages_of_step h.manages hrequests hstep
  refine ⟨hmanages, fun id call number hid hverifies => ?_⟩
  rcases verifies_of_step hstep hid hverifies with
    hold | ⟨hrequest, -⟩ | ⟨row, answer, now, found, rfl, hfinding, rfl, hbind, -⟩
  · refine owns_of_step hstep (h.owns id call number hold hverifies) fun id' row change he hdelete => ?_
    rintro rfl
    rw [he] at hremoves
    exact hremoves _ row change hdelete id call hold rfl hverifies
  · rw [hmanages id call hid] at hrequest
    cases hrequest
  · -- what the carrier answered with is on the account
    obtain ⟨ids, rfl, hfind⟩ := Option.bind_eq_some_iff.mp hbind
    have hfound : found ∈ ids := findOutgoingCallerID_mem hfind
    have hlisted := (hanswers _ _ row hfinding found).mp hfound
    have howns := hask _ row hfinding ⟨found, hlisted⟩
    exact owns_of_step hstep howns fun id' row' change he => by cases he

/-- Every number that becomes verified is owned by the extension. -/
theorem verifiesOwned_of_ownerInv (h : s.OwnerInv) : VerifiesOwned twilio s e := by
  intro s' hstep ext row number hrow hnumber hbefore
  rcases verifiedNumber_of_step hstep hrow hnumber with hold | ⟨id, call, -, hid, rfl, hverifies⟩
  · exact absurd hnumber (hbefore row hold)
  · exact h.owns id call number hid hverifies

/-- When confirmations ask about owned numbers only and removals keep apart from them, a row
    becomes verified only for a number that its extension owns. -/
theorem verifiesOwned_of_ownersAsk (twilio : Bool) (users : String → Bool)
    (rows : String → Option SettingsRow) (es : List SettingsEvent)
    (hrequests : Meets (step twilio) CallerIdRequests (init users rows) es)
    (hanswers : Meets (step twilio) AnswersFromAccount (init users rows) es)
    (hask : Meets (step twilio) OwnersAsk (init users rows) es)
    (hremoves : Meets (step twilio) RemovesApart (init users rows) es) :
    Meets (step twilio) (VerifiesOwned twilio) (init users rows) es := by
  have hinit : (init users rows).OwnerInv :=
    ⟨fun _ _ hid => absurd hid init_calls, fun _ _ _ hid => absurd hid init_calls⟩
  have hall := (hrequests.and hanswers).and (hask.and hremoves)
  refine hall.of_invariant (fun s e s' h hP hstep => ?_) (fun s e h _ => ?_) hinit
  · exact ownerInv_step h hP.1.1 hP.1.2 hP.2.1 hP.2.2 hstep
  · exact verifiesOwned_of_ownerInv h

/-! ## One number and two extensions -/

/-- The extension starts the verification of its number. -/
def startOf (id : Nat) (ext sid : String) : List SettingsEvent :=
  [.request id ext (.startVerification "+14155550100" ""), .look id, .read id true,
    .validate id (some sid), .write id true]

/-- The extension confirms its number, which is on the account. -/
def confirmationOf (id : Nat) (ext : String) : List SettingsEvent :=
  [.request id ext .confirmVerification, .read id true, .find id (some [⟨"PN1", "+14155550100"⟩]) 0,
    .write id true]

/-- The extension completes the call for its number. -/
def ownVerification : List SettingsEvent :=
  startOf 1 "1001" "CA1" ++ .complete 0 "PN1" :: confirmationOf 2 "1001"

theorem verifiesOwned_ownVerification :
    Meets (step true) CallerIdRequests (init (fun _ => true) fun _ => some {}) ownVerification ∧
    Meets (step true) AnswersFromAccount (init (fun _ => true) fun _ => some {}) ownVerification ∧
    Meets (step true) OwnersAsk (init (fun _ => true) fun _ => some {}) ownVerification ∧
    Meets (step true) RemovesApart (init (fun _ => true) fun _ => some {}) ownVerification ∧
    Meets (step true) (VerifiesOwned true) (init (fun _ => true) fun _ => some {})
      ownVerification := by
  have hrequests : Meets (step true) CallerIdRequests (init (fun _ => true) fun _ => some {})
      ownVerification :=
    ⟨rfl, trivial, trivial, trivial, trivial, trivial, rfl, trivial, trivial, trivial, trivial⟩
  have hanswers : Meets (step true) AnswersFromAccount (init (fun _ => true) fun _ => some {})
      ownVerification := by
    refine ⟨trivial, trivial, trivial, trivial, trivial, trivial, trivial, trivial, ?_, trivial,
      trivial⟩
    intro ext request row hid listed
    have hcall := SettingsCall.mk.inj (Option.some.inj hid)
    have hrow := SettingsPhase.finding.inj hcall.2.2
    rw [← hrow]
    refine ⟨fun h => ⟨h, ?_⟩, fun h => h.1⟩
    rw [List.mem_singleton.mp h]
    rfl
  have hask : Meets (step true) OwnersAsk (init (fun _ => true) fun _ => some {})
      ownVerification := by
    refine ⟨trivial, trivial, trivial, trivial, trivial, trivial, trivial, trivial, ?_, trivial,
      trivial⟩
    intro ext row hid _
    have hcall := SettingsCall.mk.inj (Option.some.inj hid)
    have hrow := SettingsPhase.finding.inj hcall.2.2
    rw [← hrow, ← hcall.1]
    exact ⟨_, List.mem_cons_self, rfl, rfl, rfl, rfl⟩
  have hremoves : Meets (step true) RemovesApart (init (fun _ => true) fun _ => some {})
      ownVerification := by
    refine ⟨trivial, trivial, trivial, trivial, ?_, trivial, trivial, trivial, trivial, ?_, trivial⟩
    · intro ext row change hid
      have hcall := SettingsCall.mk.inj (Option.some.inj hid)
      exact SettingsRequest.noConfusion hcall.2.1
    · intro ext row change hid
      have hcall := SettingsCall.mk.inj (Option.some.inj hid)
      exact SettingsRequest.noConfusion hcall.2.1
  exact ⟨hrequests, hanswers, hask, hremoves,
    verifiesOwned_of_ownersAsk true _ _ _ hrequests hanswers hask hremoves⟩

/-- The other extension only asks for a call, which nobody takes. -/
def othersVerification : List SettingsEvent :=
  startOf 1 "1001" "CA1" ++ .complete 0 "PN1" :: startOf 2 "1002" "CA2" ++ confirmationOf 3 "1002"

theorem not_verifiesOwned_othersVerification :
    Meets (step true) CallerIdRequests (init (fun _ => true) fun _ => some {}) othersVerification ∧
    Meets (step true) AnswersFromAccount (init (fun _ => true) fun _ => some {})
      othersVerification ∧
    ¬ Meets (step true) (VerifiesOwned true) (init (fun _ => true) fun _ => some {})
      othersVerification := by
  refine ⟨⟨rfl, trivial, trivial, trivial, trivial, trivial, rfl, trivial, trivial, trivial, trivial,
    rfl, trivial, trivial, trivial, trivial⟩, ?_, ?_⟩
  · refine ⟨trivial, trivial, trivial, trivial, trivial, trivial, trivial, trivial, trivial, trivial,
      trivial, trivial, trivial, ?_, trivial, trivial⟩
    intro ext request row hid listed
    have hcall := SettingsCall.mk.inj (Option.some.inj hid)
    have hrow := SettingsPhase.finding.inj hcall.2.2
    rw [← hrow]
    refine ⟨fun h => ⟨h, ?_⟩, fun h => h.1⟩
    rw [List.mem_singleton.mp h]
    rfl
  · intro h
    have hlast := h.2.2.2.2.2.2.2.2.2.2.2.2.2.2.1
    obtain ⟨r, hmem, hext, -, hcompleted, -⟩ := hlast _ rfl "1002" _ "+14155550100" rfl rfl (by
      intro before hbefore
      rw [← Option.some.inj hbefore]
      nofun)
    -- the request that was completed is that of the first extension
    rcases List.mem_cons.mp hmem with rfl | hrest
    · exact absurd hext (by decide)
    · rw [List.mem_singleton.mp hrest] at hcompleted
      cases hcompleted

end CallNet.Api.SettingsSystem
