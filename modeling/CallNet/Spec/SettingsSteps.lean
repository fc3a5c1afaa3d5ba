import CallNet.Api.SettingsCalls
import CallNet.ForStd.Machine

/-!
# The phases of a settings request

Which phase belongs to which request, and what a step does to the calls.
-/

namespace CallNet.Api

/-! ## Columns -/

/-- The columns that are assigned together. -/
inductive SettingsField where
  | soundsEnabled
  | dtmfEnabled
  | callerTune
  | ringtone
  | pstnEnabled
  | pstnMobile
  | pstnCountryCode
  | recordingEnabled
  | voicemailEnabled
  | dnd
  | ratePlanId
  | outboundCallerId
  | verification
deriving DecidableEq, Repr

def SettingsChange.touches (c : SettingsChange) : SettingsField → Bool
  | .soundsEnabled => c.input.soundsEnabled.isSome
  | .dtmfEnabled => c.input.dtmfEnabled.isSome
  | .callerTune => c.input.callerTune.isSome
  | .ringtone => c.input.ringtone.isSome
  | .pstnEnabled => c.input.pstnEnabled.isSome
  | .pstnMobile => c.input.pstnMobile.isSome
  | .pstnCountryCode => c.input.pstnCountryCode.isSome
  | .recordingEnabled => c.input.recordingEnabled.isSome
  | .voicemailEnabled => c.input.voicemailEnabled.isSome
  | .dnd => c.input.dnd.isSome
  | .ratePlanId => c.input.ratePlanId.assigned.isSome
  | .outboundCallerId => c.number.isSome
  | .verification => c.verification.isSome

/-- The columns a request may change. -/
def SettingsRequest.touches : SettingsRequest → SettingsField → Bool
  | .get, _ => false
  | .update input, f => ({ input } : SettingsChange).touches f
  | .setPstnForward .., f => f = .pstnEnabled ∨ f = .pstnMobile
  | .startVerification .., f | .deleteCallerId, f => f = .outboundCallerId ∨ f = .verification
  | .confirmVerification, f => f = .verification

/-! ## Phases -/

/-- The phase is one of the request's own, and what it writes is what the request may change. -/
def SettingsPhase.Fits (request : SettingsRequest) : SettingsPhase → Prop
  | .requesting .. => ∃ number countryCode, request = .startVerification number countryCode
  | .finding _ => request = .confirmVerification ∨ request = .deleteCallerId
  | .removing .. => request = .deleteCallerId
  | .writing _ change => (∀ f, change.touches f = true → request.touches f = true) ∧
    (change.verification.any Verification.verified = true → request = .confirmVerification ∧
      change.number = none) ∧ request ≠ .get
  | .looking | .reading | .newRow | .caching _ | .cooling | .returned _ => True

/-- The request has committed, or it ended without. -/
def SettingsPhase.written : SettingsPhase → Bool
  | .caching _ | .cooling | .returned _ => true
  | .looking | .reading | .newRow | .requesting .. | .finding _ | .removing .. | .writing .. => false

/-- The request has written the row, and its operation on the cache is still to come. -/
def SettingsCall.owesCache (call : SettingsCall) : Bool :=
  match call.phase with
  | .caching _ => call.request ≠ .get
  | _ => false

namespace SettingsSystem

/-- Every call is in a phase of its request. -/
def CallsFit (s : SettingsSystem) : Prop :=
  ∀ id call, s.calls id = some call → call.phase.Fits call.request

variable {twilio : Bool} {s s' : SettingsSystem} {id : Nat} {call : SettingsCall}

theorem fits_begins (twilio : Bool) (request : SettingsRequest) :
    (begins twilio request).Fits request := by
  cases request <;> cases twilio <;> trivial

theorem fits_cleared (row : SettingsRow) :
    (SettingsPhase.writing row cleared).Fits .deleteCallerId := by
  refine ⟨fun f hf => ?_, nofun, nofun⟩
  cases f <;> first | rfl | cases hf

theorem fits_edits (row : SettingsRow) (request : SettingsRequest) :
    (edits row request).Fits request := by
  cases request with
  | update input => exact ⟨fun _ hf => hf, nofun, nofun⟩
  | setPstnForward enabled target =>
    refine ⟨fun f hf => ?_, nofun, nofun⟩
    cases f <;> first | rfl | cases hf
  | startVerification number countryCode =>
    simp only [edits]
    split
    · exact ⟨number, countryCode, rfl⟩
    · trivial
  | get | confirmVerification | deleteCallerId => trivial

theorem fits_afterRead (twilio : Bool) (extension : String) (request : SettingsRequest)
    (row : Option SettingsRow) : (afterRead twilio extension request row).Fits request := by
  cases row with
  | none => cases request <;> trivial
  | some row =>
    cases request with
    | get => trivial
    | confirmVerification =>
      simp only [afterRead]
      split
      · trivial
      · split
        · trivial
        · exact .inl rfl
    | deleteCallerId =>
      simp only [afterRead]
      split
      · trivial
      · split
        · exact .inr rfl
        · exact fits_cleared row
    | update input =>
      simp only [afterRead]
      exact fits_edits row (.update input)
    | setPstnForward enabled target =>
      simp only [afterRead]
      exact fits_edits row (.setPstnForward enabled target)
    | startVerification number countryCode =>
      simp only [afterRead]
      -- the normalisation of the number is not to be evaluated
      generalize SettingsRequest.startVerification number countryCode = request
      exact fits_edits row request

theorem fits_afterFind {request : SettingsRequest}
    (h : request = .confirmVerification ∨ request = .deleteCallerId) (row : SettingsRow) (now : Nat)
    (answer : Option (List OutgoingCallerID)) : (afterFind row now request answer).Fits request := by
  rcases h with rfl | rfl
  · simp only [afterFind]
    split
    · trivial
    · trivial
    · refine ⟨fun f hf => ?_, fun _ => ⟨rfl, rfl⟩, nofun⟩
      cases f <;> first | rfl | cases hf
  · simp only [afterFind]
    split
    · rfl
    · exact fits_cleared row

theorem fits_validated (row : SettingsRow) (number countryCode e164 sid : String) :
    (SettingsPhase.writing row { number := some e164, verification := some ⟨false, none, sid⟩ }).Fits
      (.startVerification number countryCode) := by
  refine ⟨fun f hf => ?_, nofun, nofun⟩
  cases f <;> first | rfl | cases hf

theorem fits_afterWrite (extension : String) (stored : SettingsRow) (request : SettingsRequest) :
    (afterWrite extension stored request).Fits request := by
  cases request <;> trivial

theorem written_afterWrite (extension : String) (stored : SettingsRow) (request : SettingsRequest) :
    (afterWrite extension stored request).written = true := by
  cases request <;> rfl

theorem owesCache_edits {extension : String} (row : SettingsRow) (request : SettingsRequest) :
    SettingsCall.owesCache ⟨extension, request, edits row request⟩ = false := by
  cases request with
  | startVerification number countryCode =>
    simp only [edits]
    split <;> rfl
  | get | update _ | setPstnForward _ _ | confirmVerification | deleteCallerId => rfl

theorem owesCache_afterRead (twilio : Bool) (extension : String) (request : SettingsRequest)
    (row : Option SettingsRow) :
    SettingsCall.owesCache ⟨extension, request, afterRead twilio extension request row⟩ = false := by
  cases row with
  | none => cases request <;> rfl
  | some row =>
    cases request with
    | get => rfl
    | confirmVerification | deleteCallerId =>
      simp only [afterRead]
      split
      · rfl
      · split <;> rfl
    | update input =>
      simp only [afterRead]
      exact owesCache_edits row (.update input)
    | setPstnForward enabled target =>
      simp only [afterRead]
      exact owesCache_edits row (.setPstnForward enabled target)
    | startVerification number countryCode =>
      simp only [afterRead]
      generalize SettingsRequest.startVerification number countryCode = request
      exact owesCache_edits row request

theorem owesCache_afterFind (extension : String) (row : SettingsRow) (now : Nat)
    (request : SettingsRequest) (answer : Option (List OutgoingCallerID)) :
    SettingsCall.owesCache ⟨extension, request, afterFind row now request answer⟩ = false := by
  cases request <;> (simp only [afterFind]; split <;> rfl)

theorem owesCache_afterWrite (extension : String) (stored : SettingsRow) {request : SettingsRequest}
    (h : request ≠ .get) :
    SettingsCall.owesCache ⟨extension, request, afterWrite extension stored request⟩ = true := by
  cases request <;> first | rfl | exact absurd rfl h

/-! ## Steps -/

/-- What an event does, and which phase its call is in. -/
inductive Steps (twilio : Bool) (s : SettingsSystem) : SettingsEvent → SettingsSystem → Prop
  | request {id : Nat} (ext : String) (request : SettingsRequest) (hid : s.calls id = none) :
      Steps twilio s (.request id ext request)
        (s.setPhase id ⟨ext, request, .looking⟩ (begins twilio request))
  | look {id : Nat} {ext : String} (hid : s.calls id = some ⟨ext, .get, .looking⟩) :
      Steps twilio s (.look id)
        (s.setPhase id ⟨ext, .get, .looking⟩
          (if (s.cached ext).isSome then .returned true else .reading))
  | lookCooldown {id : Nat} {ext number countryCode : String}
      (hid : s.calls id = some ⟨ext, .startVerification number countryCode, .looking⟩) :
      Steps twilio s (.look id)
        (s.setPhase id ⟨ext, .startVerification number countryCode, .looking⟩
          (if s.cooldown ext ∨ (toE164 countryCode number).isNone then .returned false
            else .reading))
  | read {id : Nat} {ext : String} {request : SettingsRequest} (ok : Bool)
      (hid : s.calls id = some ⟨ext, request, .reading⟩) :
      Steps twilio s (.read id ok)
        (s.setPhase id ⟨ext, request, .reading⟩
          (afterRead twilio ext request (if ok then s.rows ext else none)))
  | lookUser {id : Nat} {ext : String} {request : SettingsRequest} (ok : Bool)
      (hid : s.calls id = some ⟨ext, request, .newRow⟩) :
      Steps twilio s (.lookUser id ok)
        (s.setPhase id ⟨ext, request, .newRow⟩
          (if ok ∧ s.users ext then edits {} request else .returned false))
  | validate {id : Nat} {ext number : String} {request : SettingsRequest} {row : SettingsRow}
      (sid : String) (hid : s.calls id = some ⟨ext, request, .requesting row number⟩) :
      Steps twilio s (.validate id (some sid))
        { s.setPhase id ⟨ext, request, .requesting row number⟩ (.writing row
            { number := some number, verification := some ⟨false, none, sid⟩ }) with
          requests := s.requests ++ [{ extension := ext, number }] }
  | validateFails {id : Nat} {ext number : String} {request : SettingsRequest} {row : SettingsRow}
      (hid : s.calls id = some ⟨ext, request, .requesting row number⟩) :
      Steps twilio s (.validate id none)
        (s.setPhase id ⟨ext, request, .requesting row number⟩ (.returned false))
  | found {id : Nat} {ext : String} {row : SettingsRow} {answer : Option (List OutgoingCallerID)}
      {found : OutgoingCallerID} (now : Nat)
      (hid : s.calls id = some ⟨ext, .confirmVerification, .finding row⟩)
      (hfound : answer.bind (findOutgoingCallerID row.callerId.outboundCallerId) = some found) :
      Steps twilio s (.find id answer now)
        { s.setPhase id ⟨ext, .confirmVerification, .finding row⟩
            (afterFind row now .confirmVerification answer) with
          found := (ext, found.phoneNumber) :: s.found }
  | notFound {id : Nat} {ext : String} {request : SettingsRequest} {row : SettingsRow}
      {answer : Option (List OutgoingCallerID)} (now : Nat)
      (hid : s.calls id = some ⟨ext, request, .finding row⟩)
      (hnot : ∀ found, request = .confirmVerification →
        answer.bind (findOutgoingCallerID row.callerId.outboundCallerId) ≠ some found) :
      Steps twilio s (.find id answer now)
        (s.setPhase id ⟨ext, request, .finding row⟩ (afterFind row now request answer))
  | remove {id : Nat} {ext sid : String} {request : SettingsRequest} {row : SettingsRow} (ok : Bool)
      (hid : s.calls id = some ⟨ext, request, .removing row sid⟩) :
      Steps twilio s (.remove id ok)
        { s.setPhase id ⟨ext, request, .removing row sid⟩ (.writing row cleared) with
          account := if ok then s.account.filter fun id => id.sid ≠ sid else s.account }
  | write {id : Nat} {ext : String} {request : SettingsRequest} {row : SettingsRow}
      {change : SettingsChange} (hid : s.calls id = some ⟨ext, request, .writing row change⟩) :
      Steps twilio s (.write id true)
        { s.setPhase id ⟨ext, request, .writing row change⟩
            (afterWrite ext (change.apply row).create request) with
          rows := fun ext' => if ext' = ext then some (change.apply row).create else s.rows ext'
          committed := (ext, change) :: s.committed
          requests := if request = .deleteCallerId then
              s.requests.map fun r =>
                if r.extension = ext ∧ r.number = row.callerId.outboundCallerId then
                  { r with undone := true }
                else r
            else s.requests }
  | writeFails {id : Nat} {ext : String} {request : SettingsRequest} {row : SettingsRow}
      {change : SettingsChange} (hid : s.calls id = some ⟨ext, request, .writing row change⟩) :
      Steps twilio s (.write id false)
        (s.setPhase id ⟨ext, request, .writing row change⟩ (.returned false))
  | cache {id : Nat} {ext : String} {request : SettingsRequest}
      {content : Option SettingsResponse} {phase : SettingsPhase}
      (hphase : phase = match request with
        | .startVerification .. => .cooling
        | _ => .returned true)
      (hid : s.calls id = some ⟨ext, request, .caching content⟩) :
      Steps twilio s (.cache id)
        { s.setPhase id ⟨ext, request, .caching content⟩ phase with
          cached := fun ext' => if ext' = ext then content else s.cached ext' }
  | cool {id : Nat} {ext : String} {request : SettingsRequest}
      (hid : s.calls id = some ⟨ext, request, .cooling⟩) :
      Steps twilio s (.cool id)
        { s.setPhase id ⟨ext, request, .cooling⟩ (.returned true) with
          cooldown := fun ext' => ext' = ext ∨ s.cooldown ext' }
  | complete {index : Nat} {r : ValidationRequest} (sid : String) (hr : s.requests[index]? = some r) :
      Steps twilio s (.complete index sid)
        { s with
          requests := s.requests.set index { r with completed := true }
          account := if s.account.any fun id => id.phoneNumber = r.number then s.account
            else s.account ++ [⟨sid, r.number⟩] }
  | cooldownExpires (ext : String) :
      Steps twilio s (.cooldownExpires ext)
        { s with cooldown := fun ext' => ext' ≠ ext ∧ s.cooldown ext' }
  | cachedExpires (ext : String) :
      Steps twilio s (.cachedExpires ext)
        { s with cached := fun ext' => if ext' = ext then none else s.cached ext' }

theorem steps_of_step {e : SettingsEvent} (h : step twilio s e = some s') : Steps twilio s e s' := by
  cases e with
  | request id ext request =>
    simp only [step] at h
    split at h
    · cases h
    · rename_i hid
      cases h
      exact .request ext request (Option.not_isSome_iff_eq_none.mp hid)
  | look id =>
    simp only [step] at h
    split at h
    · cases h
      exact .look ‹_›
    · cases h
      exact .lookCooldown ‹_›
    · cases h
  | validate id answer =>
    simp only [step] at h
    split at h
    · split at h
      · cases h
        exact .validate _ ‹_›
      · cases h
        exact .validateFails ‹_›
    · cases h
  | find id answer now =>
    simp only [step] at h
    split at h
    · rename_i hid
      split at h
      · rename_i found hfound
        cases h
        exact .found now hid hfound
      · rename_i hnot
        cases h
        exact .notFound now hid fun found hrequest hfound => hnot found hrequest hfound
    · cases h
  | write id ok =>
    simp only [step] at h
    split at h
    · cases ok with
      | true =>
        cases h
        exact .write ‹_›
      | false =>
        cases h
        exact .writeFails ‹_›
    · cases h
  | cache id =>
    simp only [step] at h
    split at h
    · cases h
      exact .cache rfl ‹_›
    · cases h
  | read id ok | lookUser id ok | remove id ok | cool id | complete index sid =>
    simp only [step] at h
    split at h
    · cases h
      constructor
      assumption
    · cases h
  | cooldownExpires ext | cachedExpires ext =>
    cases h
    constructor

/-! ## What a step does to the calls -/

theorem setPhase_calls (s : SettingsSystem) (id id' : Nat) (call : SettingsCall)
    (phase : SettingsPhase) : (s.setPhase id call phase).calls id' =
      if id' = id then some { call with phase } else s.calls id' := rfl

/-- A call after the step is the one that changed, or it was there before. -/
theorem calls_of_setPhase {id' : Nat} {call' : SettingsCall} {phase : SettingsPhase}
    (hcalls : s'.calls = (s.setPhase id call phase).calls) (hid : s'.calls id' = some call') :
    s.calls id' = some call' ∨ id' = id ∧ call' = { call with phase } := by
  rw [hcalls, setPhase_calls] at hid
  split at hid
  · rename_i heq
    exact .inr ⟨heq, (Option.some.inj hid).symm⟩
  · exact .inl hid

/-- What a step does: nothing to the calls, a new call, or the next phase of a call. -/
inductive Moves (twilio : Bool) (s s' : SettingsSystem) (e : SettingsEvent) : Prop
  | stays (hquiet : ∀ id, e ≠ .write id true) (hcalls : s'.calls = s.calls)
    (hrows : s'.rows = s.rows) (hcommitted : s'.committed = s.committed)
  | begins {id : Nat} {extension : String} {request : SettingsRequest}
    (hevent : e = .request id extension request) (hid : s.calls id = none)
    (hcalls : s'.calls =
      (s.setPhase id ⟨extension, request, .looking⟩ (begins twilio request)).calls)
    (hrows : s'.rows = s.rows) (hcommitted : s'.committed = s.committed)
  | advances (hquiet : ∀ id, e ≠ .write id true) {id : Nat} {call : SettingsCall}
    (hid : s.calls id = some call) {phase : SettingsPhase}
    (hfits : call.phase.Fits call.request → phase.Fits call.request)
    (hwritten : call.phase.written = true → phase.written = true)
    (hcalls : s'.calls = (s.setPhase id call phase).calls) (hrows : s'.rows = s.rows)
    (hcommitted : s'.committed = s.committed)
    (howes : call.owesCache = true → e = .cache id)
    (hnew : SettingsCall.owesCache { call with phase } = false)
  | writes {id : Nat} (hevent : e = .write id true) {extension : String}
    {request : SettingsRequest} {row : SettingsRow} {change : SettingsChange}
    (hid : s.calls id = some ⟨extension, request, .writing row change⟩)
    (hcalls : s'.calls = (s.setPhase id ⟨extension, request, .writing row change⟩
      (afterWrite extension (change.apply row).create request)).calls)
    (hrows : s'.rows = fun ext => if ext = extension then some (change.apply row).create
      else s.rows ext)
    (hcommitted : s'.committed = (extension, change) :: s.committed)

/-- Every step is one of these. -/
theorem moves_of_step {e : SettingsEvent} (h : step twilio s e = some s') : Moves twilio s s' e := by
  cases steps_of_step h with
  | request ext request hid => exact .begins rfl hid rfl rfl rfl
  | look hid | lookCooldown hid =>
    refine .advances nofun hid (fun _ => ?_) nofun rfl rfl rfl nofun ?_
    · split <;> trivial
    · split <;> rfl
  | read ok hid =>
    exact .advances nofun hid (fun _ => fits_afterRead ..) nofun rfl rfl rfl nofun
      (owesCache_afterRead ..)
  | lookUser ok hid =>
    refine .advances nofun hid (fun _ => ?_) nofun rfl rfl rfl nofun ?_
    · split
      · exact fits_edits {} _
      · trivial
    · split
      · exact owesCache_edits {} _
      · rfl
  | validate sid hid =>
    refine .advances nofun hid ?_ nofun rfl rfl rfl nofun rfl
    rintro ⟨number, countryCode, rfl⟩
    exact fits_validated _ number countryCode _ sid
  | validateFails hid =>
    refine .advances nofun hid (fun _ => ?_) nofun rfl rfl rfl nofun rfl
    trivial
  | found now hid | notFound now hid =>
    exact .advances nofun hid (fun hfits => fits_afterFind hfits ..) nofun rfl rfl rfl nofun
      (owesCache_afterFind ..)
  | remove ok hid =>
    refine .advances nofun hid ?_ nofun rfl rfl rfl nofun rfl
    rintro rfl
    exact fits_cleared _
  | write hid => exact .writes rfl hid rfl rfl rfl
  | writeFails hid =>
    refine .advances nofun hid (fun _ => ?_) nofun rfl rfl rfl nofun rfl
    trivial
  | cache hphase hid =>
    rw [hphase]
    refine .advances nofun hid (fun _ => ?_) (fun _ => ?_) rfl rfl rfl (fun _ => rfl) ?_
    · split <;> trivial
    · split <;> rfl
    · split <;> rfl
  | cool hid =>
    refine .advances nofun hid (fun _ => ?_) (fun _ => ?_) rfl rfl rfl nofun rfl
    · trivial
    · rfl
  | complete | cooldownExpires | cachedExpires => exact .stays nofun rfl rfl rfl

/-- There are no calls at first. -/
theorem init_calls {users : String → Bool} {rows : String → Option SettingsRow} {id : Nat}
    {call : SettingsCall} : (init users rows).calls id ≠ some call := by
  intro h
  rw [show (init users rows).calls id = none from rfl] at h
  cases h

/-- A property of every call, over a step. -/
theorem forall_of_calls {P : Nat → SettingsCall → Prop} {phase : SettingsPhase}
    (hcalls : s'.calls = (s.setPhase id call phase).calls)
    (hall : ∀ id call, s.calls id = some call → P id call) (hP : P id { call with phase }) :
    ∀ id' call', s'.calls id' = some call' → P id' call' := by
  intro id' call' hid
  rcases calls_of_setPhase hcalls hid with hold | ⟨rfl, rfl⟩
  · exact hall id' call' hold
  · exact hP

theorem callsFit_step {e : SettingsEvent} (h : s.CallsFit) (hstep : step twilio s e = some s') :
    s'.CallsFit := by
  unfold CallsFit at h ⊢
  cases moves_of_step hstep with
  | stays _ hcalls => rwa [hcalls]
  | begins _ _ hcalls => exact forall_of_calls hcalls h (fits_begins twilio _)
  | advances _ hid hfits _ hcalls =>
    exact forall_of_calls hcalls h (hfits (h _ _ hid))
  | writes _ _ hcalls => exact forall_of_calls hcalls h (fits_afterWrite _ _ _)

end SettingsSystem

end CallNet.Api
