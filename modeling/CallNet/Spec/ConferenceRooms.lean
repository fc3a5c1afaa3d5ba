import CallNet.Engine.ConferenceCalls
import CallNet.ForStd.Machine

/-!
# What the room operations do to a roster

For each operation of the service, which participants are joined afterwards.
-/

namespace CallNet

namespace ConferenceService

/-- The extension is listed as joined. -/
def JoinedIn (s : ConferenceService) (roomId ext : String) : Prop :=
  ∃ room p, s.getRoom roomId = some room ∧ room.participants.get? ext = some p ∧ p.state = .joined

variable {s : ConferenceService}

theorem getRoom_setRoom (s : ConferenceService) (roomId roomId' : String) (room : ConferenceRoom) :
    (s.setRoom roomId room).getRoom roomId' = if roomId' = roomId then some room
      else s.getRoom roomId' := OrdMap.get?_set _ _ _ _

theorem getRoom_setRoom_self (s : ConferenceService) (roomId : String) (room : ConferenceRoom) :
    (s.setRoom roomId room).getRoom roomId = some room := OrdMap.get?_set_self _ _ _

/-- Within a stored room, the participants say who is joined. -/
theorem joinedIn_iff {roomId : String} {room : ConferenceRoom} (hroom : s.getRoom roomId = some room)
    (ext : String) : s.JoinedIn roomId ext ↔
      ∃ p, room.participants.get? ext = some p ∧ p.state = .joined := by
  constructor
  · rintro ⟨room', p, hroom', hp, hjoined⟩
    rw [hroom, Option.some.injEq] at hroom'
    rw [hroom']
    exact ⟨p, hp, hjoined⟩
  · rintro ⟨p, hp, hjoined⟩
    exact ⟨room, p, hroom, hp, hjoined⟩

theorem not_joinedIn_of_none {roomId : String} (hroom : s.getRoom roomId = none) (ext : String) :
    ¬ s.JoinedIn roomId ext := by
  rintro ⟨room, p, hroom', -⟩
  rw [hroom] at hroom'
  cases hroom'

/-- Two services agree on who is joined in a room that they store alike. -/
theorem joinedIn_congr {s' : ConferenceService} {roomId : String}
    (h : s'.getRoom roomId = s.getRoom roomId) (ext : String) :
    s'.JoinedIn roomId ext ↔ s.JoinedIn roomId ext := by
  unfold JoinedIn
  rw [h]

/-- Storing a room changes who is joined in that room only. -/
theorem joinedIn_setRoom (roomId : String) (room : ConferenceRoom) {ext : String}
    (hsame : (∃ p, room.participants.get? ext = some p ∧ p.state = .joined) ↔ s.JoinedIn roomId ext)
    {roomId' : String} :
    (s.setRoom roomId room).JoinedIn roomId' ext ↔ s.JoinedIn roomId' ext := by
  by_cases heq : roomId' = roomId
  · rw [heq, joinedIn_iff (getRoom_setRoom_self s roomId room), hsame]
  · refine joinedIn_congr ?_ ext
    rw [getRoom_setRoom, if_neg heq]

theorem joinedIn_createRoom {id : String} (hfree : s.getRoom id = none) (hostExt hostName : String)
    (name : Option String) (now : Nat) (roomId ext : String) :
    (s.createRoom id hostExt hostName name now).JoinedIn roomId ext ↔ s.JoinedIn roomId ext := by
  refine joinedIn_setRoom id _ ⟨?_, fun h => absurd h (not_joinedIn_of_none hfree ext)⟩
  rintro ⟨p, hp, hjoined⟩
  -- the host is only invited
  rw [OrdMap.get?_set] at hp
  split at hp
  · cases hp
    cases hjoined
  · cases hp

theorem joinedIn_ensureRoom (roomId callerExt : String) (now : Nat) (roomId' ext : String) :
    (s.ensureRoom roomId callerExt now).JoinedIn roomId' ext ↔ s.JoinedIn roomId' ext := by
  unfold ensureRoom
  split
  · rfl
  · rename_i hroom
    refine joinedIn_setRoom roomId _ ⟨?_, fun h => absurd h (not_joinedIn_of_none hroom ext)⟩
    rintro ⟨p, hp, -⟩
    cases hp

theorem joinedIn_addInvite (roomId target name roomId' ext : String) :
    (s.addInvite roomId target name).JoinedIn roomId' ext ↔ s.JoinedIn roomId' ext := by
  unfold addInvite
  split
  · rfl
  · rename_i room hroom
    dsimp only
    split
    · rfl
    · rename_i hnot
      refine joinedIn_setRoom roomId _ ?_
      rw [joinedIn_iff hroom]
      dsimp only
      rw [OrdMap.get?_set]
      split
      · rename_i heq
        -- the target is not joined, before and after
        subst heq
        constructor
        · rintro ⟨p, hp, hjoined⟩
          cases hp
          cases hjoined
        · rintro ⟨p, hp, hjoined⟩
          rw [hp, Option.map_some, hjoined] at hnot
          exact absurd rfl hnot
      · rfl

theorem joinedIn_markRinging (roomId caller roomId' ext : String) :
    (s.markRinging roomId caller).JoinedIn roomId' ext ↔ s.JoinedIn roomId' ext := by
  unfold markRinging
  split
  · rfl
  · rename_i room hroom
    refine joinedIn_setRoom roomId _ ?_
    rw [joinedIn_iff hroom]
    dsimp only
    rw [OrdMap.get?_modify]
    split
    · rename_i heq
      subst heq
      cases room.participants.get? ext with
      | none => simp
      | some p =>
        rw [Option.map_some]
        by_cases hjoined : p.state = .joined
        · rw [if_pos hjoined]
        · simp [hjoined]
    · rfl

theorem joinedIn_markJoined {roomId : String} (hroom : (s.getRoom roomId).isSome) (caller name : String)
    (now : Nat) (roomId' ext : String) :
    (s.markJoined roomId caller name now).JoinedIn roomId' ext ↔
      roomId' = roomId ∧ ext = caller ∨ s.JoinedIn roomId' ext := by
  obtain ⟨room, hroom⟩ := Option.isSome_iff_exists.mp hroom
  simp only [markJoined, hroom]
  by_cases hr : roomId' = roomId
  · rw [hr, joinedIn_iff (getRoom_setRoom_self s roomId _), joinedIn_iff hroom]
    dsimp only
    rw [OrdMap.get?_set]
    by_cases he : ext = caller
    · simp [he]
    · simp [he]
  · simp only [hr, false_and, false_or]
    exact joinedIn_congr (by rw [getRoom_setRoom, if_neg hr]) ext

/-- Without the room nothing happens. -/
theorem markJoined_of_none {roomId : String} (hroom : s.getRoom roomId = none) (caller name : String)
    (now : Nat) : s.markJoined roomId caller name now = s := by
  unfold markJoined
  rw [hroom]

theorem getRoom_delete (s : ConferenceService) (roomId roomId' : String) :
    ConferenceService.getRoom ⟨s.rooms.delete roomId⟩ roomId' =
      if roomId' = roomId then none else s.getRoom roomId' := OrdMap.get?_delete _ _ _

/-- A room that nobody keeps alive has nobody joined. -/
theorem not_joined_of_inactive {participants : OrdMap String ConferenceParticipant}
    (hnone : ¬ (participants.values.any ConferenceParticipant.active) = true) {ext : String}
    {p : ConferenceParticipant} (hp : participants.get? ext = some p) : p.state ≠ .joined := by
  intro hjoined
  refine hnone (List.any_eq_true.mpr ⟨p, OrdMap.mem_values_iff.mpr ⟨ext, hp⟩, ?_⟩)
  simp [ConferenceParticipant.active, hjoined]

theorem joinedIn_markLeft (roomId caller roomId' ext : String) :
    (s.markLeft roomId caller).JoinedIn roomId' ext ↔
      s.JoinedIn roomId' ext ∧ ¬ (roomId' = roomId ∧ ext = caller) := by
  unfold markLeft
  split
  · rename_i hroom
    refine ⟨fun h => ⟨h, ?_⟩, And.left⟩
    rintro ⟨rfl, -⟩
    exact not_joinedIn_of_none hroom ext h
  · rename_i room hroom
    split
    · rename_i hnone
      refine ⟨fun h => ⟨h, ?_⟩, And.left⟩
      rintro ⟨rfl, rfl⟩
      obtain ⟨p, hp, -⟩ := (joinedIn_iff hroom ext).mp h
      rw [hnone] at hp
      cases hp
    · dsimp only
      by_cases hr : roomId' = roomId
      · subst hr
        have hdelete : ∀ p, (room.participants.delete caller).get? ext = some p ↔
            room.participants.get? ext = some p ∧ ext ≠ caller := by
          intro p
          rw [OrdMap.get?_delete]
          by_cases he : ext = caller <;> simp [he]
        split
        · rw [joinedIn_iff (getRoom_setRoom_self s roomId' _), joinedIn_iff hroom]
          simp only [hdelete]
          constructor
          · rintro ⟨p, ⟨hp, hne⟩, hjoined⟩
            exact ⟨⟨p, hp, hjoined⟩, fun h => hne h.2⟩
          · rintro ⟨⟨p, hp, hjoined⟩, hne⟩
            exact ⟨p, ⟨hp, fun he => hne ⟨trivial, he⟩⟩, hjoined⟩
        · rename_i hinactive
          -- the room is gone, and nobody else was joined
          constructor
          · intro h
            exact absurd h (not_joinedIn_of_none (by rw [getRoom_delete, if_pos rfl]) ext)
          · rintro ⟨h, hne⟩
            obtain ⟨p, hp, hjoined⟩ := (joinedIn_iff hroom ext).mp h
            have hrest := (hdelete p).mpr ⟨hp, fun he => hne ⟨rfl, he⟩⟩
            exact absurd hjoined (not_joined_of_inactive hinactive hrest)
      · have hother : ∀ s' : ConferenceService, s'.getRoom roomId' = s.getRoom roomId' →
            (s'.JoinedIn roomId' ext ↔ s.JoinedIn roomId' ext ∧ ¬ (roomId' = roomId ∧ ext = caller)) := by
          intro s' hs'
          rw [joinedIn_congr hs']
          simp [hr]
        split
        · exact hother _ (by rw [getRoom_setRoom, if_neg hr])
        · exact hother _ (by rw [getRoom_delete, if_neg hr])

end ConferenceService

namespace ConferenceSystem

theorem joinedIn_inviteAll (host id : String) (dir : Directory) (invitees : List String)
    (service : ConferenceService) (roomId ext : String) :
    (inviteAll service host id dir invitees).JoinedIn roomId ext ↔ service.JoinedIn roomId ext := by
  induction invitees generalizing service with
  | nil => rfl
  | cons invitee rest ih =>
    simp only [inviteAll]
    split
    · exact ih service
    · rw [ih, ConferenceService.joinedIn_addInvite]

/-! ## The calls of a room -/

/-- Some call satisfies `P`. -/
def HasLeg (s : ConferenceSystem) (P : ConferenceLeg → Prop) : Prop :=
  ∃ id leg, s.legs id = some leg ∧ P leg

/-- Some call other than `id` satisfies `P`. -/
def HasOther (s : ConferenceSystem) (id : Nat) (P : ConferenceLeg → Prop) : Prop :=
  ∃ id' leg, id' ≠ id ∧ s.legs id' = some leg ∧ P leg

variable {s s' : ConferenceSystem} {id : Nat} {leg : ConferenceLeg} {P : ConferenceLeg → Prop}

theorem hasLeg_congr (h : s'.legs = s.legs) (P : ConferenceLeg → Prop) :
    s'.HasLeg P ↔ s.HasLeg P := by
  unfold HasLeg
  rw [h]

theorem hasLeg_iff (h : s.legs id = some leg) : s.HasLeg P ↔ P leg ∨ s.HasOther id P := by
  constructor
  · rintro ⟨id', leg', hleg', hP⟩
    by_cases heq : id' = id
    · rw [heq, h, Option.some.injEq] at hleg'
      exact .inl (hleg' ▸ hP)
    · exact .inr ⟨id', leg', heq, hleg', hP⟩
  · rintro (hP | ⟨id', leg', -, hleg', hP⟩)
    · exact ⟨id, leg, h, hP⟩
    · exact ⟨id', leg', hleg', hP⟩

theorem hasLeg_iff_of_none (h : s.legs id = none) : s.HasLeg P ↔ s.HasOther id P := by
  constructor
  · rintro ⟨id', leg', hleg', hP⟩
    refine ⟨id', leg', fun heq => ?_, hleg', hP⟩
    rw [heq, h] at hleg'
    cases hleg'
  · rintro ⟨id', leg', -, hleg', hP⟩
    exact ⟨id', leg', hleg', hP⟩

@[simp] theorem setLeg_service (s : ConferenceSystem) (id : Nat) (leg : ConferenceLeg) :
    (s.setLeg id leg).service = s.service := rfl

theorem setLeg_legs (s : ConferenceSystem) (id id' : Nat) (leg : ConferenceLeg) :
    (s.setLeg id leg).legs id' = if id' = id then some leg else s.legs id' := rfl

theorem hasLeg_setLeg : (s.setLeg id leg).HasLeg P ↔ P leg ∨ s.HasOther id P := by
  rw [hasLeg_iff (by rw [setLeg_legs, if_pos rfl])]
  have hother : (s.setLeg id leg).HasOther id P ↔ s.HasOther id P := by
    unfold HasOther
    constructor
    · rintro ⟨id', leg', hne, hleg', hP⟩
      rw [setLeg_legs, if_neg hne] at hleg'
      exact ⟨id', leg', hne, hleg', hP⟩
    · rintro ⟨id', leg', hne, hleg', hP⟩
      exact ⟨id', leg', hne, by rw [setLeg_legs, if_neg hne]; exact hleg', hP⟩
  rw [hother]

/-- A call that changes, but not in what `P` looks at. -/
theorem hasLeg_setLeg_same {leg' : ConferenceLeg} (h : s.legs id = some leg) (hP : P leg' ↔ P leg) :
    (s.setLeg id leg').HasLeg P ↔ s.HasLeg P := by
  rw [hasLeg_setLeg, hasLeg_iff h, hP]

/-- A property of every call, after one call changed. -/
theorem forall_setLeg (hP : P leg) (hall : ∀ id leg, s.legs id = some leg → P leg) :
    ∀ id' leg', (s.setLeg id leg).legs id' = some leg' → P leg' := by
  intro id' leg' h
  rw [setLeg_legs] at h
  split at h
  · exact Option.some.inj h ▸ hP
  · exact hall id' leg' h

/-- What is asked of the call `id`, if it is as far as `Q` says, is asked of this call. -/
theorem forall_leg_iff {Q X : ConferenceLeg → Prop} (hleg : s.legs id = some leg) (hQ : Q leg) :
    (∀ leg', s.legs id = some leg' → Q leg' → X leg') ↔ X leg := by
  constructor
  · intro h
    exact h leg hleg hQ
  · intro hX leg' hleg' _
    rw [hleg, Option.some.injEq] at hleg'
    exact hleg' ▸ hX

/-! ## Steps -/

/-- What an event does, and when it can happen. -/
inductive Steps (maxMembers : Int) (s : ConferenceSystem) :
    ConferenceEvent → ConferenceSystem → Prop
  | start {host id : String} {name : Option String} {invitees : List String} {dir : Directory}
      {now : Nat} (hfree : s.service.getRoom id = none) :
      Steps maxMembers s (.start host id name invitees dir now)
        { s with
          service := inviteAll (s.service.createRoom id host (dir.nameOr host) name now) host id
            dir ((invitees.map trim).filter fun ext => ext ≠ "")
          dialed := fun r => r ≠ id ∧ s.dialed r }
  /-- The message is incomplete, or names no room of the sender's or no known target. -/
  | inviteIgnored (extension roomId target : String) (dir : Directory) :
      Steps maxMembers s (.invite extension roomId target dir) s
  | invite (extension roomId target : String) (dir : Directory) :
      Steps maxMembers s (.invite extension roomId target dir)
        { s with
          service := s.service.addInvite (trim roomId) (trim target) (dir.nameOr (trim target)) }
  | declineIgnored (extension : String) {roomId : String} (hblank : trim roomId = "") :
      Steps maxMembers s (.decline extension roomId) s
  | decline (extension : String) {roomId : String} (hroom : trim roomId ≠ "") :
      Steps maxMembers s (.decline extension roomId)
        { s with service := s.service.markLeft (trim roomId) extension }
  | leaveIgnored (extension : String) {roomId : String} (hblank : trim roomId = "") :
      Steps maxMembers s (.leave extension roomId) s
  | leave (extension : String) {roomId : String} (hroom : trim roomId ≠ "") :
      Steps maxMembers s (.leave extension roomId)
        { s with service := s.service.markLeft (trim roomId) extension }
  | dial {id : Nat} (extension name roomId : String) (now : Nat) (hid : s.legs id = none) :
      Steps maxMembers s (.dial id extension name roomId now)
        (dial maxMembers s id extension name roomId now)
  | available {id : Nat} {leg : ConferenceLeg} (hleg : s.legs id = some leg)
      (hphase : leg.phase = .checking) :
      Steps maxMembers s (.available id) (s.setLeg id { leg with phase := .connecting })
  | unavailable {id : Nat} {leg : ConferenceLeg} (hleg : s.legs id = some leg)
      (hphase : leg.phase = .checking) :
      Steps maxMembers s (.unavailable id) (s.setLeg id { leg with phase := .failed })
  | connected {id : Nat} {leg : ConferenceLeg} (hleg : s.legs id = some leg)
      (hphase : leg.phase = .connecting) :
      Steps maxMembers s (.connected id) (s.setLeg id { leg with phase := .joining })
  | connectFails {id : Nat} {leg : ConferenceLeg} (hleg : s.legs id = some leg)
      (hphase : leg.phase = .connecting) :
      Steps maxMembers s (.connectFails id) (s.notifyLeft id { leg with phase := .failed })
  | joinSucceeds {id : Nat} {leg : ConferenceLeg} (now : Nat) (hleg : s.legs id = some leg)
      (hphase : leg.phase = .joining) :
      Steps maxMembers s (.joinSucceeds id now)
        { s.setLeg id { leg with phase := .mixed, hooks := leg.hooks ++ [.onJoined] } with
          service := s.service.markJoined leg.roomId leg.extension leg.name now }
  | joinFails {id : Nat} {leg : ConferenceLeg} (hleg : s.legs id = some leg)
      (hphase : leg.phase = .joining) :
      Steps maxMembers s (.joinFails id) (s.notifyLeft id { leg with phase := .failed })
  | hangsUp {id : Nat} {leg : ConferenceLeg} (hleg : s.legs id = some leg)
      (hup : leg.hungUp = false) (hphase : leg.phase = .joining ∨ leg.phase = .mixed) :
      Steps maxMembers s (.hangsUp id) (s.notifyLeft id { leg with hungUp := true })
  /-- Nobody listens for `destroy` yet. -/
  | hangsUpUnheard {id : Nat} {leg : ConferenceLeg} (hleg : s.legs id = some leg)
      (hup : leg.hungUp = false) (hphase : leg.phase = .checking ∨ leg.phase = .connecting) :
      Steps maxMembers s (.hangsUp id) (s.setLeg id { leg with hungUp := true })

/-- A step of a call takes place when there is the call, and it is as far as the step needs. -/
theorem of_legStep {o : Option ConferenceLeg} {Q : ConferenceLeg → Prop} [DecidablePred Q]
    {f : ConferenceLeg → ConferenceSystem}
    (h : (match o with
      | some leg => if Q leg then some (f leg) else none
      | none => none) = some s') : ∃ leg, o = some leg ∧ Q leg ∧ s' = f leg := by
  cases o with
  | none => cases h
  | some leg =>
    dsimp only at h
    split at h
    · rename_i hQ
      exact ⟨leg, rfl, hQ, (Option.some.inj h).symm⟩
    · cases h

theorem steps_of_step {maxMembers : Int} {e : ConferenceEvent} (h : step maxMembers s e = some s') :
    Steps maxMembers s e s' := by
  cases e with
  | start host id name invitees dir now =>
    simp only [step] at h
    split at h
    · cases h
    · rename_i hfree
      cases h
      exact .start (Option.not_isSome_iff_eq_none.mp hfree)
  | invite extension roomId target dir =>
    simp only [step] at h
    split at h
    · cases h
      exact .inviteIgnored extension roomId target dir
    · split at h
      · cases h
        exact .inviteIgnored extension roomId target dir
      · cases h
        exact .invite extension roomId target dir
  | decline extension roomId =>
    simp only [step] at h
    split at h
    · cases h
      exact .declineIgnored extension ‹_›
    · cases h
      exact .decline extension ‹_›
  | leave extension roomId =>
    simp only [step] at h
    split at h
    · cases h
      exact .leaveIgnored extension ‹_›
    · cases h
      exact .leave extension ‹_›
  | dial id extension name roomId now =>
    simp only [step] at h
    split at h
    · cases h
    · rename_i hid
      cases h
      exact .dial extension name roomId now (Option.not_isSome_iff_eq_none.mp hid)
  | joinSucceeds id now =>
    obtain ⟨leg, hleg, hphase, rfl⟩ := of_legStep h
    exact .joinSucceeds now hleg hphase
  | available id | unavailable id | connected id | connectFails id | joinFails id =>
    obtain ⟨leg, hleg, hphase, rfl⟩ := of_legStep h
    constructor
    · exact hleg
    · exact hphase
  | hangsUp id =>
    simp only [step] at h
    split at h
    · rename_i leg hleg
      split at h
      · cases h
      · rename_i hon
        rw [not_or, Bool.not_eq_true] at hon
        split at h
        · cases h
          exact .hangsUp hleg hon.1 ‹_›
        · rename_i hphase
          rw [not_or] at hphase
          cases h
          refine .hangsUpUnheard hleg hon.1 ?_
          cases hp : leg.phase with
          | checking => exact .inl rfl
          | connecting => exact .inr rfl
          | joining => exact absurd hp hphase.1
          | mixed => exact absurd hp hphase.2
          | failed => exact absurd hp hon.2
    · cases h

end ConferenceSystem

end CallNet
