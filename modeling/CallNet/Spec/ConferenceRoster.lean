import CallNet.Spec.ConferenceRooms

/-!
# The conference roster and the live calls

A participant is listed as joined exactly while one of its calls is in the mix, as long as
no step tells the service otherwise: a `leave` or `decline` while a call of the sender is
live, the end of one of two live calls of an extension, a join that completes for a caller who
has hung up, or into a room that is gone.  `Covered` names these steps.
-/

namespace CallNet

open Machine (run Meets Throughout)

/-- The call is in the mix of a room, for an extension. -/
def ConferenceLeg.LiveIn (roomId ext : String) (leg : ConferenceLeg) : Prop :=
  leg.live = true ∧ leg.roomId = roomId ∧ leg.extension = ext

/-- `onJoined` was not called after `onLeft`. -/
def ConferenceLeg.Ordered (leg : ConferenceLeg) : Prop :=
  leg.hooks.Pairwise fun earlier later => earlier = .onLeft → later ≠ .onJoined

namespace ConferenceSystem

/-! ## The property and its condition -/

/-- Who is listed as joined has a live call, and the other way round. -/
def Agree (s : ConferenceSystem) : Prop :=
  ∀ roomId ext, s.service.JoinedIn roomId ext ↔ s.HasLeg (ConferenceLeg.LiveIn roomId ext)

def HooksOrdered (s : ConferenceSystem) : Prop := ∀ id leg, s.legs id = some leg → leg.Ordered

/-- No call into the room waits for its join. -/
def Settled (s : ConferenceSystem) (roomId : String) : Prop :=
  ∀ id leg, s.legs id = some leg → leg.roomId = roomId → leg.inFlight = false

/-- The roster of a settled room lists as joined exactly those with a live call. -/
structure RosterExact (s : ConferenceSystem) : Prop where
  agree : ∀ roomId, s.Settled roomId → ∀ ext,
    s.service.JoinedIn roomId ext ↔ s.HasLeg (ConferenceLeg.LiveIn roomId ext)
  ordered : s.HooksOrdered

/-- If `onLeft` is still to be called for the call, no other call of the participant is live. -/
def LastLeg (s : ConferenceSystem) (id : Nat) (leg : ConferenceLeg) : Prop :=
  .onLeft ∉ leg.hooks → ¬ s.HasOther id (ConferenceLeg.LiveIn leg.roomId leg.extension)

/-- The step does not separate the roster from the live calls. -/
def Covered (s : ConferenceSystem) : ConferenceEvent → Prop
  | .leave extension roomId | .decline extension roomId =>
    trim roomId ≠ "" → ¬ s.HasLeg (ConferenceLeg.LiveIn (trim roomId) extension)
  | .connectFails id => ∀ leg, s.legs id = some leg → leg.phase = .connecting → s.LastLeg id leg
  | .joinFails id => ∀ leg, s.legs id = some leg → leg.phase = .joining → s.LastLeg id leg
  | .hangsUp id => ∀ leg, s.legs id = some leg → leg.hungUp = false →
    leg.phase = .joining ∨ leg.phase = .mixed → s.LastLeg id leg
  | .joinSucceeds id _ => ∀ leg, s.legs id = some leg → leg.phase = .joining →
    .onLeft ∉ leg.hooks ∧
      if leg.hungUp then s.service.getRoom leg.roomId = none ∨
        s.HasOther id (ConferenceLeg.LiveIn leg.roomId leg.extension)
      else (s.service.getRoom leg.roomId).isSome
  | .start .. | .invite .. | .dial .. | .available _ | .unavailable _ | .connected _ => True

/-- A call for which `onLeft` was called has ended. -/
def LeftEnded (s : ConferenceSystem) : Prop :=
  ∀ id leg, s.legs id = some leg → .onLeft ∈ leg.hooks → leg.hungUp = true ∨ leg.phase = .failed

structure RosterInv (s : ConferenceSystem) : Prop where
  agree : s.Agree
  ordered : s.HooksOrdered
  ended : s.LeftEnded

variable {s s' : ConferenceSystem} {id : Nat} {leg leg' : ConferenceLeg}

/-! ## The hooks of a call -/

theorem not_liveIn_of_not_live (h : leg.live = false) (roomId ext : String) :
    ¬ leg.LiveIn roomId ext := by
  intro hlive
  rw [hlive.1] at h
  cases h

theorem live_eq_false_of_phase (h : leg.phase ≠ .mixed) : leg.live = false := by
  simp [ConferenceLeg.live, h]

theorem live_eq_false_of_hungUp (h : leg.hungUp = true) : leg.live = false := by
  simp [ConferenceLeg.live, h]

/-- Another hook is called. -/
theorem ordered_append (hooks : List ConferenceHook) (hook : ConferenceHook) :
    ((hooks ++ [hook]).Pairwise fun earlier later =>
        earlier = ConferenceHook.onLeft → later ≠ .onJoined) ↔
      (hooks.Pairwise fun earlier later => earlier = ConferenceHook.onLeft → later ≠ .onJoined) ∧
        (hook = .onJoined → .onLeft ∉ hooks) := by
  rw [List.pairwise_append]
  simp only [List.pairwise_singleton, List.mem_singleton, true_and]
  refine and_congr_right fun _ => ⟨fun h hhook hleft => ?_, fun h earlier hearlier later hlater heq => ?_⟩
  · exact h .onLeft hleft hook rfl rfl hhook
  · rw [hlater]
    intro hhook
    exact h hhook (heq ▸ hearlier)

/-! ## What a step does to the agreement -/

/-- Neither the roster nor the live calls change. -/
theorem agree_of_same (hservice : ∀ roomId ext, s'.service.JoinedIn roomId ext ↔
    s.service.JoinedIn roomId ext)
    (hlegs : ∀ roomId ext, s'.HasLeg (ConferenceLeg.LiveIn roomId ext) ↔
      s.HasLeg (ConferenceLeg.LiveIn roomId ext)) : s'.Agree ↔ s.Agree := by
  unfold Agree
  simp only [hservice, hlegs]

/-- An extension leaves the roster: it must not have been live. -/
theorem agree_markLeft {roomId ext : String} (hagree : s.Agree)
    (hservice : s'.service = s.service.markLeft roomId ext) (hlegs : s'.legs = s.legs) :
    s'.Agree ↔ ¬ s.HasLeg (ConferenceLeg.LiveIn roomId ext) := by
  constructor
  · intro hagree' hlive
    have hjoined := (hagree' roomId ext).mpr ((hasLeg_congr hlegs _).mpr hlive)
    rw [hservice, ConferenceService.joinedIn_markLeft] at hjoined
    exact hjoined.2 ⟨rfl, rfl⟩
  · intro hnot roomId' ext'
    rw [hservice, ConferenceService.joinedIn_markLeft, hagree roomId' ext', hasLeg_congr hlegs]
    refine ⟨And.left, fun hlive => ⟨hlive, ?_⟩⟩
    rintro ⟨rfl, rfl⟩
    exact hnot hlive

/-- A participant leaves with a call: no other call of it may be live. -/
theorem agree_of_ends (hagree : s.Agree) (hleg : s.legs id = some leg)
    (hservice : s'.service = s.service.markLeft leg.roomId leg.extension)
    (hlegs : ∀ roomId ext, s'.HasLeg (ConferenceLeg.LiveIn roomId ext) ↔
      s.HasOther id (ConferenceLeg.LiveIn roomId ext)) :
    s'.Agree ↔ ¬ s.HasOther id (ConferenceLeg.LiveIn leg.roomId leg.extension) := by
  unfold Agree
  simp only [hlegs, hservice, ConferenceService.joinedIn_markLeft]
  constructor
  · intro hagree' hlive
    exact ((hagree' _ _).mpr hlive).2 ⟨rfl, rfl⟩
  · intro hlast roomId ext
    rw [hagree roomId ext, hasLeg_iff hleg]
    constructor
    · rintro ⟨hlive | hlive, hne⟩
      · -- the call itself was the participant who left
        exact absurd ⟨hlive.2.1.symm, hlive.2.2.symm⟩ hne
      · exact hlive
    · intro hlive
      refine ⟨.inr hlive, ?_⟩
      rintro ⟨rfl, rfl⟩
      exact hlast hlive

/-- A call ends: it must have been the last live call of the participant. -/
theorem agree_notifyLeft (hagree : s.Agree) (hleg : s.legs id = some leg)
    (hnot : leg'.live = false) (hroom : leg'.roomId = leg.roomId)
    (hext : leg'.extension = leg.extension) (hhooks : leg'.hooks = leg.hooks)
    (hended : .onLeft ∈ leg.hooks → leg.live = false) :
    (s.notifyLeft id leg').Agree ↔ s.LastLeg id leg := by
  unfold notifyLeft LastLeg
  split
  · rename_i hleft
    rw [hhooks] at hleft
    -- nothing is told to the service, and the call was not live before
    have hsame : (s.setLeg id leg').Agree ↔ s.Agree := by
      refine agree_of_same (fun _ _ => Iff.rfl) fun roomId ext => hasLeg_setLeg_same hleg ?_
      exact iff_of_false (not_liveIn_of_not_live hnot _ _)
        (not_liveIn_of_not_live (hended hleft) _ _)
    exact iff_of_true (hsame.mpr hagree) fun h => absurd hleft h
  · rename_i hleft
    rw [hhooks] at hleft
    refine (agree_of_ends hagree hleg (by rw [← hroom, ← hext]) fun roomId ext => ?_).trans
      ⟨fun h _ => h, fun h => h hleft⟩
    refine hasLeg_setLeg.trans (or_iff_right fun hlive => ?_)
    exact not_liveIn_of_not_live hnot _ _ ⟨hlive.1, hlive.2⟩

/-- A join completes. -/
theorem agree_joinSucceeds (hagree : s.Agree) (hleg : s.legs id = some leg)
    (hphase : leg.phase = .joining) (now : Nat) :
    Agree { s.setLeg id { leg with phase := .mixed, hooks := leg.hooks ++ [.onJoined] } with
        service := s.service.markJoined leg.roomId leg.extension leg.name now } ↔
      if leg.hungUp then s.service.getRoom leg.roomId = none ∨
        s.HasOther id (ConferenceLeg.LiveIn leg.roomId leg.extension)
      else (s.service.getRoom leg.roomId).isSome := by
  have hnot : leg.live = false := live_eq_false_of_phase (by rw [hphase]; nofun)
  -- this leg is not live yet, so the roster told of the others only
  have hbefore : ∀ roomId ext, s.service.JoinedIn roomId ext ↔
      s.HasOther id (ConferenceLeg.LiveIn roomId ext) := by
    intro roomId ext
    rw [hagree roomId ext, hasLeg_iff hleg]
    exact or_iff_right (not_liveIn_of_not_live hnot _ _)
  have hafter : ∀ roomId ext, HasLeg
      { s.setLeg id { leg with phase := .mixed, hooks := leg.hooks ++ [.onJoined] } with
        service := s.service.markJoined leg.roomId leg.extension leg.name now }
      (ConferenceLeg.LiveIn roomId ext) ↔
        (leg.hungUp = false ∧ leg.roomId = roomId ∧ leg.extension = ext) ∨
          s.HasOther id (ConferenceLeg.LiveIn roomId ext) := by
    intro roomId ext
    refine hasLeg_setLeg.trans (or_congr ?_ Iff.rfl)
    simp [ConferenceLeg.LiveIn, ConferenceLeg.live]
  unfold Agree
  simp only [hafter, ← hbefore]
  cases hroom : s.service.getRoom leg.roomId with
  | none =>
    rw [ConferenceService.markJoined_of_none hroom]
    cases hhung : leg.hungUp with
    | true => simp
    | false =>
      simp only [Bool.false_eq_true, if_false, Option.isSome_none, true_and, iff_false, not_forall]
      -- the leg is live in a room that is gone, and no roster lists it
      refine ⟨leg.roomId, leg.extension, fun h => ?_⟩
      exact ConferenceService.not_joinedIn_of_none hroom _ (h.mpr (.inl ⟨rfl, rfl⟩))
  | some room =>
    have hsome : (s.service.getRoom leg.roomId).isSome := by rw [hroom]; rfl
    simp only [ConferenceService.joinedIn_markJoined hsome]
    cases hhung : leg.hungUp with
    | true =>
      simp only [Bool.true_eq_false, false_and, false_or, if_true, reduceCtorEq]
      constructor
      · intro h
        exact (h _ _).mp (.inl ⟨rfl, rfl⟩)
      · intro h roomId ext
        refine ⟨?_, .inr⟩
        rintro (⟨rfl, rfl⟩ | hjoined)
        · exact h
        · exact hjoined
    | false =>
      simp only [true_and, Bool.false_eq_true, if_false, Option.isSome_some, iff_true]
      intro roomId ext
      rw [eq_comm (a := roomId), eq_comm (a := ext)]

/-! ## The step lemma -/

/-- A call is put into a room, or the room is full; nobody joins or leaves by that. -/
theorem dial_effect (maxMembers : Int) (s : ConferenceSystem) (id : Nat)
    (extension name roomId : String) (now : Nat) :
    (∀ roomId' ext, (dial maxMembers s id extension name roomId now).service.JoinedIn roomId' ext ↔
      s.service.JoinedIn roomId' ext) ∧
    ((dial maxMembers s id extension name roomId now).legs = s.legs ∨
      (dial maxMembers s id extension name roomId now).legs =
        (s.setLeg id { roomId, extension, name }).legs) := by
  unfold dial
  dsimp only
  split
  · exact ⟨fun _ _ => Iff.rfl, .inl rfl⟩
  · split
    · exact ⟨ConferenceService.joinedIn_ensureRoom roomId extension now, .inl rfl⟩
    · refine ⟨fun roomId' ext => ?_, .inr rfl⟩
      rw [ConferenceService.joinedIn_markRinging, ConferenceService.joinedIn_ensureRoom]

/-- A change of a call that concerns neither its hooks nor its being live. -/
theorem RosterInv.advance (h : s.RosterInv) (hleg : s.legs id = some leg)
    (hbefore : leg.live = false) (hafter : leg'.live = false) (hhooks : leg'.hooks = leg.hooks)
    (hended : leg.hungUp = true ∨ leg.phase = .failed →
      leg'.hungUp = true ∨ leg'.phase = .failed) : (s.setLeg id leg').RosterInv where
  agree := by
    intro roomId ext
    rw [setLeg_service, h.agree roomId ext, hasLeg_setLeg_same hleg]
    exact iff_of_false (not_liveIn_of_not_live hafter _ _) (not_liveIn_of_not_live hbefore _ _)
  ordered := by
    refine forall_setLeg ?_ h.ordered
    have hordered := h.ordered id leg hleg
    unfold ConferenceLeg.Ordered at hordered ⊢
    rwa [hhooks]
  ended := forall_setLeg (fun hleft => hended (h.ended id leg hleg (hhooks ▸ hleft))) h.ended

/-- A step that concerns the roster alone. -/
theorem RosterInv.hooks (h : s.RosterInv) (hlegs : s'.legs = s.legs) :
    s'.HooksOrdered ∧ s'.LeftEnded := by
  unfold HooksOrdered LeftEnded
  rw [hlegs]
  exact ⟨h.ordered, h.ended⟩

/-- A step that leaves the roster and the calls as they are, as far as it is joined or live. -/
theorem RosterInv.quiet (h : s.RosterInv) (hservice : ∀ roomId ext,
    s'.service.JoinedIn roomId ext ↔ s.service.JoinedIn roomId ext) (hlegs : s'.legs = s.legs) :
    s'.RosterInv where
  agree := (agree_of_same hservice fun _ _ => hasLeg_congr hlegs _).mpr h.agree
  ordered := (h.hooks hlegs).1
  ended := (h.hooks hlegs).2

/-- A new call. -/
theorem RosterInv.dial (h : s.RosterInv) (maxMembers : Int) (hid : s.legs id = none)
    (extension name roomId : String) (now : Nat) :
    (dial maxMembers s id extension name roomId now).RosterInv := by
  obtain ⟨hservice, hlegs⟩ := dial_effect maxMembers s id extension name roomId now
  rcases hlegs with hlegs | hlegs
  · exact h.quiet hservice hlegs
  · have hnew : (s.setLeg id { roomId, extension, name }).RosterInv := {
      agree := by
        intro roomId' ext
        rw [setLeg_service, h.agree roomId' ext, hasLeg_setLeg, hasLeg_iff_of_none hid]
        exact (or_iff_right (not_liveIn_of_not_live rfl _ _)).symm
      ordered := forall_setLeg List.Pairwise.nil h.ordered
      ended := forall_setLeg nofun h.ended }
    exact hnew.quiet hservice hlegs

/-- The end of a call, with the roster told. -/
theorem RosterInv.notifyLeft (h : s.RosterInv) (hleg : s.legs id = some leg)
    (hnot : leg'.hungUp = true ∨ leg'.phase = .failed) (hhooks : leg'.hooks = leg.hooks) :
    (s.notifyLeft id leg').HooksOrdered ∧ (s.notifyLeft id leg').LeftEnded := by
  have hordered := h.ordered id leg hleg
  unfold ConferenceSystem.notifyLeft
  split
  · refine ⟨forall_setLeg ?_ h.ordered, forall_setLeg (fun _ => hnot) h.ended⟩
    unfold ConferenceLeg.Ordered at hordered ⊢
    rwa [hhooks]
  · refine ⟨forall_setLeg ?_ h.ordered, forall_setLeg (fun _ => hnot) h.ended⟩
    unfold ConferenceLeg.Ordered at hordered ⊢
    rw [hhooks]
    exact (ordered_append _ _).mpr ⟨hordered, nofun⟩

theorem live_eq_false_of_left (h : s.RosterInv) (hleg : s.legs id = some leg)
    (hleft : .onLeft ∈ leg.hooks) : leg.live = false := by
  rcases h.ended id leg hleg hleft with hhung | hfailed
  · exact live_eq_false_of_hungUp hhung
  · exact live_eq_false_of_phase (by rw [hfailed]; nofun)

/-- A message that takes the sender from the roster. -/
theorem RosterInv.leave (h : s.RosterInv) (roomId ext : String) :
    (Agree { s with service := s.service.markLeft roomId ext } ∧
        HooksOrdered { s with service := s.service.markLeft roomId ext } ↔
      ¬ s.HasLeg (ConferenceLeg.LiveIn roomId ext)) ∧
    LeftEnded { s with service := s.service.markLeft roomId ext } := by
  obtain ⟨hordered, hended⟩ : HooksOrdered { s with service := s.service.markLeft roomId ext } ∧
      LeftEnded { s with service := s.service.markLeft roomId ext } := h.hooks rfl
  exact ⟨(and_iff_left hordered).trans (agree_markLeft h.agree rfl rfl), hended⟩

/-- The end of a call: nobody else may be in the mix for it. -/
theorem RosterInv.ends (h : s.RosterInv) (hleg : s.legs id = some leg) (leg' : ConferenceLeg)
    (hnot : leg'.hungUp = true ∨ leg'.phase = .failed) (hroom : leg'.roomId = leg.roomId)
    (hext : leg'.extension = leg.extension) (hhooks : leg'.hooks = leg.hooks) :
    ((s.notifyLeft id leg').Agree ∧ (s.notifyLeft id leg').HooksOrdered ↔ s.LastLeg id leg) ∧
      (s.notifyLeft id leg').LeftEnded := by
  obtain ⟨hordered, hended⟩ := h.notifyLeft hleg hnot hhooks
  have hlive : leg'.live = false := by
    rcases hnot with hhung | hfailed
    · exact live_eq_false_of_hungUp hhung
    · exact live_eq_false_of_phase (by rw [hfailed]; nofun)
  exact ⟨(and_iff_left hordered).trans
    (agree_notifyLeft h.agree hleg hlive hroom hext hhooks (live_eq_false_of_left h hleg)), hended⟩

/-- A join that completes: `onJoined` is in order unless the call was already told off. -/
theorem RosterInv.joins (h : s.RosterInv) (hleg : s.legs id = some leg)
    (hphase : leg.phase = .joining) (now : Nat) :
    (HooksOrdered { s.setLeg id { leg with phase := .mixed, hooks := leg.hooks ++ [.onJoined] } with
        service := s.service.markJoined leg.roomId leg.extension leg.name now } ↔
      .onLeft ∉ leg.hooks) ∧
    LeftEnded { s.setLeg id { leg with phase := .mixed, hooks := leg.hooks ++ [.onJoined] } with
      service := s.service.markJoined leg.roomId leg.extension leg.name now } := by
  have hnotFailed : leg.phase ≠ .failed := by rw [hphase]; nofun
  refine ⟨⟨fun hall => ?_, fun hleft => ?_⟩, forall_setLeg (fun hleft => ?_) h.ended⟩
  · have hthis := hall id _ (by rw [setLeg_legs, if_pos rfl])
    exact ((ordered_append _ _).mp hthis).2 rfl
  · exact forall_setLeg
      ((ordered_append _ _).mpr ⟨h.ordered id leg hleg, fun _ => hleft⟩) h.ordered
  · have hbefore : .onLeft ∈ leg.hooks := by simpa using hleft
    exact .inl ((h.ended id leg hleg hbefore).resolve_right hnotFailed)

/-- A step keeps the roster and the live calls together exactly when it is covered. -/
theorem step_agree {maxMembers : Int} {e : ConferenceEvent} (h : s.RosterInv)
    (hstep : step maxMembers s e = some s') :
    (s'.Agree ∧ s'.HooksOrdered ↔ Covered s e) ∧ s'.LeftEnded := by
  have hquiet : s'.RosterInv → Covered s e →
      (s'.Agree ∧ s'.HooksOrdered ↔ Covered s e) ∧ s'.LeftEnded := fun h' hc =>
    ⟨iff_of_true ⟨h'.agree, h'.ordered⟩ hc, h'.ended⟩
  cases steps_of_step hstep with
  | start hfree =>
    refine hquiet (h.quiet (fun roomId ext => ?_) rfl) trivial
    rw [joinedIn_inviteAll, ConferenceService.joinedIn_createRoom hfree]
  | inviteIgnored => exact hquiet h trivial
  | invite => exact hquiet (h.quiet (ConferenceService.joinedIn_addInvite _ _ _) rfl) trivial
  | declineIgnored _ hblank | leaveIgnored _ hblank =>
    exact hquiet h fun hne => absurd hblank hne
  | decline extension hroom | leave extension hroom =>
    obtain ⟨hiff, hended⟩ := h.leave _ extension
    exact ⟨hiff.trans ⟨fun hnot _ => hnot, fun hnot => hnot hroom⟩, hended⟩
  | dial extension name roomId now hid =>
    exact hquiet (h.dial maxMembers hid extension name roomId now) trivial
  | available hleg hphase | connected hleg hphase =>
    refine hquiet (h.advance hleg ?_ ?_ rfl fun hended => ?_) trivial
    · exact live_eq_false_of_phase (by rw [hphase]; nofun)
    · exact live_eq_false_of_phase nofun
    · rw [hphase] at hended
      exact .inl (hended.resolve_right nofun)
  | unavailable hleg hphase =>
    refine hquiet (h.advance hleg ?_ ?_ rfl fun _ => .inr rfl) trivial
    · exact live_eq_false_of_phase (by rw [hphase]; nofun)
    · exact live_eq_false_of_phase nofun
  | @connectFails id leg hleg hphase | @joinFails id leg hleg hphase =>
    obtain ⟨hiff, hended⟩ := h.ends hleg { leg with phase := .failed } (.inr rfl) rfl rfl rfl
    exact ⟨hiff.trans (forall_leg_iff hleg hphase).symm, hended⟩
  | joinSucceeds now hleg hphase =>
    obtain ⟨hordered, hended⟩ := h.joins hleg hphase now
    refine ⟨?_, hended⟩
    rw [agree_joinSucceeds h.agree hleg hphase now, hordered, and_comm]
    refine ⟨fun hcovered leg' hleg' _ => ?_, fun hcovered => hcovered _ hleg hphase⟩
    rw [hleg, Option.some.injEq] at hleg'
    exact hleg' ▸ hcovered
  | @hangsUp id leg hleg hup hphase =>
    obtain ⟨hiff, hended⟩ := h.ends hleg { leg with hungUp := true } (.inl rfl) rfl rfl rfl
    refine ⟨hiff.trans ⟨fun hlast leg' hleg' _ _ => ?_,
      fun hlast => hlast leg hleg hup hphase⟩, hended⟩
    rw [hleg, Option.some.injEq] at hleg'
    exact hleg' ▸ hlast
  | hangsUpUnheard hleg hup hphase =>
    refine hquiet (h.advance hleg ?_ ?_ rfl fun _ => .inl rfl) fun leg' hleg' _ hphase' => ?_
    · exact live_eq_false_of_phase (by rcases hphase with hp | hp <;> rw [hp] <;> nofun)
    · exact live_eq_false_of_hungUp rfl
    · rw [hleg, Option.some.injEq] at hleg'
      rw [← hleg'] at hphase'
      rcases hphase with hp | hp <;> simp [hp] at hphase'

/-! ## Runs -/

theorem rosterInv_init : init.RosterInv where
  agree := by
    intro roomId ext
    refine iff_of_false (ConferenceService.not_joinedIn_of_none rfl ext) ?_
    rintro ⟨id, leg, hleg, -⟩
    cases hleg
  ordered := nofun
  ended := nofun

theorem RosterInv.rosterExact (h : s.RosterInv) : s.RosterExact :=
  ⟨fun roomId _ ext => h.agree roomId ext, h.ordered⟩

/-- The roster and the live calls agree at every moment of exactly the runs that are covered. -/
theorem agree_throughout_iff (maxMembers : Int) (es : List ConferenceEvent) :
    Throughout (step maxMembers) (fun s => s.Agree ∧ s.HooksOrdered) init es ↔
      Meets (step maxMembers) Covered init es := by
  refine Machine.throughout_iff_meets (I := RosterInv) (P := fun _ _ => True)
    (fun s h => ⟨h.agree, h.ordered⟩) (fun s e s' h _ hcovered hstep => ?_)
    (fun s e s' h _ hstep hagree => (step_agree h hstep).1.mp hagree) (fun s e hnone => ?_)
    rosterInv_init (Machine.meets_of_mem (H := fun _ => True) fun _ _ => trivial)
  · obtain ⟨hiff, hended⟩ := step_agree h hstep
    obtain ⟨hagree, hordered⟩ := hiff.mpr hcovered
    exact ⟨hagree, hordered, hended⟩
  · -- a step that cannot happen separates nothing
    cases e with
    | start | invite | dial | available | unavailable | connected => trivial
    | decline | leave =>
      simp only [step] at hnone
      split at hnone <;> cases hnone
    | connectFails | joinFails | joinSucceeds =>
      intro leg hleg hphase
      simp only [step, hleg, hphase, if_true, reduceCtorEq] at hnone
    | hangsUp =>
      intro leg hleg hhung hphase
      have hnotFailed : leg.phase ≠ .failed := by
        rcases hphase with h | h <;> (rw [h]; decide)
      simp [step, hleg, hhung, hnotFailed, hphase] at hnone

/-- In a run whose steps are all covered, the roster of a settled room is exact, and no call
    joins after it left. -/
theorem rosterExact_throughout (maxMembers : Int) (es : List ConferenceEvent)
    (hcovered : Meets (step maxMembers) Covered init es) :
    Throughout (step maxMembers) RosterExact init es :=
  Machine.throughout_of_meets (I := RosterInv) (fun _ _ _ h hc hstep =>
    have hstep' := step_agree h hstep
    have hboth := hstep'.1.mpr hc
    ⟨hboth.1, hboth.2, hstep'.2⟩) rosterInv_init hcovered |>.mono fun _ h => h.rosterExact

/-- One caller joins a room and hangs up. -/
def oneCall : List ConferenceEvent :=
  [.dial 1 "1001" "Ann" "a" 0, .available 1, .connected 1, .joinSucceeds 1 1, .hangsUp 1]

theorem rosterExact_oneCall : Meets (step (-1)) Covered init oneCall ∧
    Throughout (step (-1)) RosterExact init oneCall := by
  have hcovered : Meets (step (-1)) Covered init oneCall := by
    refine ⟨trivial, trivial, trivial, ?_, ?_, trivial⟩
    · intro leg hleg _
      cases hleg
      exact ⟨nofun, rfl⟩
    · rintro leg hleg _ _ _ ⟨id', leg', hne, hleg', -⟩
      change (if id' = 1 then _ else if id' = 1 then _ else if id' = 1 then _ else
        if id' = 1 then _ else none) = some leg' at hleg'
      simp only [if_neg hne, reduceCtorEq] at hleg'
  exact ⟨hcovered, rosterExact_throughout (-1) oneCall hcovered⟩

/-- The caller hangs up while its join into the mixer is awaited, and the join completes. -/
def lateJoin : List ConferenceEvent :=
  [.dial 1 "1001" "Ann" "a" 0, .available 1, .connected 1, .hangsUp 1, .joinSucceeds 1 1]

/-- The caller is a ghost in the roster then. -/
example : ((run (step (-1)) init lateJoin).map fun s =>
    ((s.service.getRoom "a").map fun room => room.joined.map ConferenceParticipant.extension,
      (s.legs 1).map ConferenceLeg.live)) = some (some ["1001"], some false) := by decide

theorem not_rosterExact_lateJoin : ¬ Throughout (step (-1)) RosterExact init lateJoin := by
  intro h
  have hlast := h.last rfl
  have hordered : [ConferenceHook.onLeft, .onJoined].Pairwise fun earlier later =>
      earlier = .onLeft → later ≠ .onJoined := hlast.ordered 1 _ rfl
  exact absurd hordered (by decide)

end ConferenceSystem

end CallNet
