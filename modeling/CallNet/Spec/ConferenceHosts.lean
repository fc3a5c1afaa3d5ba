import CallNet.Spec.ConferenceRooms

/-!
# Hosts and orphan rooms

Only `createRoom` and a first join into an empty room make a host, and only `markLeft` removes
a room.  So a room keeps its host as long as the host does not leave while others are joined and
the first to join a room that was dialed directly is the one who dialed it first; and no room is left
behind as long as each call that ends either leaves others on their way or empties its roster.
-/

namespace CallNet

open Machine (run Meets Throughout)

/-- The participant flagged host is the room's host, and nobody else is. -/
def ConferenceRoom.HostOk (room : ConferenceRoom) : Prop :=
  ∀ ext, (room.participants.get? ext).any ConferenceParticipant.isHost = true ↔
    ext = room.hostExtension

/-- Nobody but the extension keeps the room alive, and it is listed. -/
def ConferenceRoom.LastMember (room : ConferenceRoom) (ext : String) : Prop :=
  (room.participants.get? ext).isSome ∧
    ∀ ext' p, ext' ≠ ext → room.participants.get? ext' = some p → p.active = false

/-- The call is in the mix of the room or on its way there, and `onLeft` was not called for it. -/
def ConferenceLeg.ActiveIn (roomId : String) (leg : ConferenceLeg) : Prop :=
  leg.roomId = roomId ∧ (leg.live = true ∨ leg.inFlight = true) ∧ .onLeft ∉ leg.hooks

namespace ConferenceService

/-- In every room in which somebody is joined, the host is the host. -/
def HostsOk (s : ConferenceService) : Prop :=
  ∀ roomId room, s.getRoom roomId = some room → (∃ ext, s.JoinedIn roomId ext) → room.HostOk

variable {s s' : ConferenceService}

/-! ## Hosts -/

theorem hostOk_congr {room room' : ConferenceRoom} (hhost : room'.hostExtension = room.hostExtension)
    (h : ∀ ext, (room'.participants.get? ext).any ConferenceParticipant.isHost =
      (room.participants.get? ext).any ConferenceParticipant.isHost) :
    room'.HostOk ↔ room.HostOk := by
  unfold ConferenceRoom.HostOk
  simp only [h, hhost]

/-- One room is stored. -/
theorem hostsOk_setRoom (h : s.HostsOk) (roomId : String) (room : ConferenceRoom) :
    (s.setRoom roomId room).HostsOk ↔
      ((∃ ext, (s.setRoom roomId room).JoinedIn roomId ext) → room.HostOk) := by
  constructor
  · intro h' hjoined
    exact h' roomId room (getRoom_setRoom_self s roomId room) hjoined
  · rintro hroom roomId' room' hget ⟨ext, hjoined⟩
    by_cases heq : roomId' = roomId
    · rw [heq, getRoom_setRoom_self, Option.some.injEq] at hget
      rw [← hget]
      exact hroom ⟨ext, heq ▸ hjoined⟩
    · have hother : (s.setRoom roomId room).getRoom roomId' = s.getRoom roomId' := by
        rw [getRoom_setRoom, if_neg heq]
      exact h roomId' room' (hother ▸ hget) ⟨ext, (joinedIn_congr hother ext).mp hjoined⟩

/-- A change of a room that concerns neither who is joined nor who is host. -/
theorem HostsOk.setRoom_same (h : s.HostsOk) {roomId : String} {room room' : ConferenceRoom}
    (hroom : s.getRoom roomId = some room) (hhost : room'.hostExtension = room.hostExtension)
    (hflags : ∀ ext, (room'.participants.get? ext).any ConferenceParticipant.isHost =
      (room.participants.get? ext).any ConferenceParticipant.isHost)
    (hjoined : ∀ ext, (s.setRoom roomId room').JoinedIn roomId ext → s.JoinedIn roomId ext) :
    (s.setRoom roomId room').HostsOk := by
  refine (hostsOk_setRoom h roomId room').mpr fun ⟨ext, hext⟩ => ?_
  exact (hostOk_congr hhost hflags).mpr (h roomId room hroom ⟨ext, hjoined ext hext⟩)

theorem HostsOk.createRoom (h : s.HostsOk) {id : String} (hfree : s.getRoom id = none)
    (hostExt hostName : String) (name : Option String) (now : Nat) :
    (s.createRoom id hostExt hostName name now).HostsOk := by
  refine (hostsOk_setRoom h id _).mpr fun ⟨ext, hext⟩ => ?_
  have hbefore := (joinedIn_createRoom hfree hostExt hostName name now id ext).mp hext
  exact absurd hbefore (not_joinedIn_of_none hfree ext)

theorem HostsOk.ensureRoom (h : s.HostsOk) (roomId callerExt : String) (now : Nat) :
    (s.ensureRoom roomId callerExt now).HostsOk := by
  unfold ConferenceService.ensureRoom
  split
  · exact h
  · refine (hostsOk_setRoom h roomId _).mpr fun ⟨ext, hext⟩ => ?_
    obtain ⟨p, hp, -⟩ := (joinedIn_iff (getRoom_setRoom_self s roomId _) ext).mp hext
    cases hp

/-- What an invitation writes down about the host is what was written down before. -/
theorem any_isHost_set {participants : OrdMap String ConferenceParticipant} {ext : String}
    {p : ConferenceParticipant}
    (hp : p.isHost = (participants.get? ext).any ConferenceParticipant.isHost) (ext' : String) :
    ((participants.set ext p).get? ext').any ConferenceParticipant.isHost =
      (participants.get? ext').any ConferenceParticipant.isHost := by
  rw [OrdMap.get?_set]
  split
  · rename_i heq
    rw [heq, ← hp]
    rfl
  · rfl

theorem getD_isHost (existing : Option ConferenceParticipant) :
    (existing.map ConferenceParticipant.isHost).getD false =
      existing.any ConferenceParticipant.isHost := by
  cases existing <;> rfl

theorem HostsOk.addInvite (h : s.HostsOk) (roomId ext name : String) :
    (s.addInvite roomId ext name).HostsOk := by
  have hjoined := joinedIn_addInvite (s := s) roomId ext name roomId
  unfold ConferenceService.addInvite at hjoined ⊢
  split
  · exact h
  · rename_i room hroom
    dsimp only
    split
    · exact h
    · rename_i hnot
      rw [hroom] at hjoined
      dsimp only at hjoined
      rw [if_neg hnot] at hjoined
      exact h.setRoom_same hroom rfl (any_isHost_set (getD_isHost _)) fun ext' => (hjoined ext').mp

theorem HostsOk.markRinging (h : s.HostsOk) (roomId ext : String) :
    (s.markRinging roomId ext).HostsOk := by
  have hjoined := joinedIn_markRinging (s := s) roomId ext roomId
  unfold ConferenceService.markRinging at hjoined ⊢
  split
  · exact h
  · rename_i room hroom
    rw [hroom] at hjoined
    refine h.setRoom_same hroom rfl (fun ext' => ?_) fun ext' => (hjoined ext').mp
    dsimp only
    rw [OrdMap.get?_modify]
    split
    · cases room.participants.get? ext' with
      | none => rfl
      | some p => by_cases hp : p.state = .joined <;> simp [hp]
    · rfl

/-- What a join needs for the host: in an empty room it is the host who joins. -/
def HostJoins (room : ConferenceRoom) (ext : String) : Prop :=
  if room.participants.size = 0 then ext = room.hostExtension else room.HostOk

theorem hostsOk_markJoined (h : s.HostsOk) (roomId ext name : String) (now : Nat) :
    (s.markJoined roomId ext name now).HostsOk ↔
      ∀ room, s.getRoom roomId = some room → HostJoins room ext := by
  cases hroom : s.getRoom roomId with
  | none =>
    rw [markJoined_of_none hroom]
    exact iff_of_true h nofun
  | some room =>
    have hjoined : (s.markJoined roomId ext name now).JoinedIn roomId ext :=
      (joinedIn_markJoined (by rw [hroom]; rfl) ext name now roomId ext).mpr (.inl ⟨rfl, rfl⟩)
    simp only [markJoined, hroom] at hjoined ⊢
    rw [hostsOk_setRoom h]
    simp only [Option.some.injEq, forall_eq']
    refine (forall_prop_of_true ⟨ext, hjoined⟩).trans ?_
    unfold HostJoins
    by_cases hempty : room.participants.size = 0
    · rw [if_pos hempty]
      -- the first in the room is its host
      have hnone := OrdMap.size_eq_zero_iff.mp hempty
      simp only [ConferenceRoom.HostOk, OrdMap.get?_set, hnone, hempty, Option.map_none,
        Option.getD_none, decide_true]
      constructor
      · intro hall
        exact (hall ext).mp (by rw [if_pos rfl]; rfl)
      · rintro rfl ext'
        by_cases heq : ext' = room.hostExtension <;> simp [heq]
    · rw [if_neg hempty]
      refine hostOk_congr rfl fun ext' => any_isHost_set ?_ ext'
      simp only [hempty, decide_false]
      exact getD_isHost _

/-- The host does not leave others behind. -/
def HostStays (s : ConferenceService) (roomId ext : String) : Prop :=
  ∀ room, s.getRoom roomId = some room → (∃ ext', ext' ≠ ext ∧ s.JoinedIn roomId ext') →
    ext ≠ room.hostExtension

theorem hostsOk_markLeft (h : s.HostsOk) (roomId ext : String) :
    (s.markLeft roomId ext).HostsOk ↔ s.HostStays roomId ext := by
  unfold HostStays
  have hleft := joinedIn_markLeft (s := s) roomId ext roomId
  cases hroom : s.getRoom roomId with
  | none =>
    simp only [markLeft, hroom]
    exact iff_of_true h nofun
  | some room =>
    simp only [markLeft, hroom] at hleft ⊢
    simp only [Option.some.injEq, forall_eq']
    -- with others joined, the room has its host
    have hhost : (∃ ext', ext' ≠ ext ∧ s.JoinedIn roomId ext') → room.HostOk := by
      rintro ⟨ext', -, hjoined⟩
      exact h roomId room hroom ⟨ext', hjoined⟩
    by_cases hnone : room.participants.get? ext = none
    · rw [if_pos hnone]
      refine iff_of_true h fun hothers heq => ?_
      have hflag := (hhost hothers ext).mpr heq
      rw [hnone] at hflag
      cases hflag
    · rw [if_neg hnone] at hleft ⊢
      by_cases hactive :
          ((room.participants.delete ext).values.any ConferenceParticipant.active) = true
      · rw [if_pos hactive] at hleft ⊢
        rw [hostsOk_setRoom h]
        simp only [hleft]
        have hflags : ∀ ext', ((room.participants.delete ext).get? ext').any
            ConferenceParticipant.isHost = true ↔ ext' ≠ ext ∧
              (room.participants.get? ext').any ConferenceParticipant.isHost = true := by
          intro ext'
          rw [OrdMap.get?_delete]
          by_cases heq : ext' = ext <;> simp [heq]
        constructor
        · rintro hok ⟨ext', hne, hjoined⟩ heq
          have hflag := (hok ⟨ext', hjoined, fun hboth => hne hboth.2⟩ ext).mpr heq
          exact ((hflags ext).mp hflag).1 rfl
        · rintro hstays ⟨ext', hjoined, hne⟩ ext''
          have hothers : ∃ ext', ext' ≠ ext ∧ s.JoinedIn roomId ext' :=
            ⟨ext', fun heq => hne ⟨trivial, heq⟩, hjoined⟩
          rw [hflags, hhost hothers ext'']
          refine ⟨And.right, fun heq => ⟨fun hleaves => ?_, heq⟩⟩
          exact hstays hothers (hleaves ▸ heq)
      · rw [if_neg hactive] at hleft ⊢
        -- nobody else was joined
        refine iff_of_true (fun roomId' room' hget ⟨ext', hjoined⟩ => ?_) ?_
        · rw [getRoom_delete] at hget
          split at hget
          · cases hget
          · rename_i hne
            refine h roomId' room' hget ⟨ext', (joinedIn_congr ?_ ext').mp hjoined⟩
            rw [getRoom_delete, if_neg hne]
        · rintro ⟨ext', hne, hjoined⟩
          refine absurd ((hleft ext').mpr ⟨hjoined, fun hboth => hne hboth.2⟩) ?_
          exact not_joinedIn_of_none (by rw [getRoom_delete, if_pos rfl]) ext'

/-! ## Which rooms there are -/

/-- Nobody else is active, in the words of `markLeft`. -/
theorem any_active_delete (participants : OrdMap String ConferenceParticipant) (ext : String) :
    ¬ ((participants.delete ext).values.any ConferenceParticipant.active) = true ↔
      ∀ ext' p, ext' ≠ ext → participants.get? ext' = some p → p.active = false := by
  rw [Bool.not_eq_true, List.any_eq_false]
  simp only [OrdMap.mem_values_iff, OrdMap.get?_delete, Bool.not_eq_true]
  constructor
  · intro h ext' p hne hp
    exact h p ⟨ext', by rw [if_neg hne]; exact hp⟩
  · rintro h p ⟨ext', hp⟩
    split at hp
    · cases hp
    · rename_i hne
      exact h ext' p hne hp

theorem isSome_setRoom_same {roomId : String} (hroom : (s.getRoom roomId).isSome)
    (room : ConferenceRoom) (roomId' : String) :
    ((s.setRoom roomId room).getRoom roomId').isSome = (s.getRoom roomId').isSome := by
  rw [getRoom_setRoom]
  split
  · rename_i heq
    rw [heq, hroom]
    rfl
  · rfl

theorem isSome_addInvite (roomId ext name roomId' : String) :
    ((s.addInvite roomId ext name).getRoom roomId').isSome = (s.getRoom roomId').isSome := by
  unfold addInvite
  split
  · rfl
  · rename_i room hroom
    dsimp only
    split
    · rfl
    · exact isSome_setRoom_same (by rw [hroom]; rfl) _ roomId'

theorem isSome_markRinging (roomId ext roomId' : String) :
    ((s.markRinging roomId ext).getRoom roomId').isSome = (s.getRoom roomId').isSome := by
  unfold markRinging
  split
  · rfl
  · rename_i room hroom
    exact isSome_setRoom_same (by rw [hroom]; rfl) _ roomId'

theorem isSome_markJoined (roomId ext name : String) (now : Nat) (roomId' : String) :
    ((s.markJoined roomId ext name now).getRoom roomId').isSome = (s.getRoom roomId').isSome := by
  unfold markJoined
  split
  · rfl
  · rename_i room hroom
    exact isSome_setRoom_same (by rw [hroom]; rfl) _ roomId'

theorem isSome_ensureRoom (roomId callerExt : String) (now : Nat) (roomId' : String) :
    ((s.ensureRoom roomId callerExt now).getRoom roomId').isSome ↔
      roomId' = roomId ∨ (s.getRoom roomId').isSome := by
  unfold ensureRoom
  cases hroom : s.getRoom roomId with
  | none =>
    dsimp only
    rw [getRoom_setRoom]
    by_cases heq : roomId' = roomId <;> simp [heq]
  | some room =>
    refine ⟨.inr, ?_⟩
    rintro (rfl | hsome)
    · dsimp only
      rw [hroom]
      rfl
    · exact hsome

theorem isSome_createRoom (id hostExt hostName : String) (name : Option String) (now : Nat)
    (roomId : String) : ((s.createRoom id hostExt hostName name now).getRoom roomId).isSome ↔
      roomId = id ∨ (s.getRoom roomId).isSome := by
  unfold createRoom
  rw [getRoom_setRoom]
  by_cases heq : roomId = id <;> simp [heq]

/-- A room goes when its last member leaves. -/
theorem isSome_markLeft (roomId ext roomId' : String) :
    ((s.markLeft roomId ext).getRoom roomId').isSome ↔ (s.getRoom roomId').isSome ∧
      ∀ room, roomId' = roomId → s.getRoom roomId = some room → ¬ room.LastMember ext := by
  cases hroom : s.getRoom roomId with
  | none =>
    simp only [markLeft, hroom]
    exact ⟨fun h => ⟨h, nofun⟩, And.left⟩
  | some room =>
    simp only [markLeft, hroom]
    have hsome : (s.getRoom roomId).isSome := by rw [hroom]; rfl
    -- a room that stays says that somebody else is active, or that `ext` is not listed
    have hstays : ¬ room.LastMember ext → ((s.getRoom roomId').isSome ↔
        (s.getRoom roomId').isSome ∧
          ∀ room', roomId' = roomId → some room = some room' → ¬ room'.LastMember ext) := by
      refine fun hnot => ⟨fun h => ⟨h, fun room' _ heq => ?_⟩, And.left⟩
      rw [← Option.some.inj heq]
      exact hnot
    by_cases hnone : room.participants.get? ext = none
    · rw [if_pos hnone]
      refine hstays fun hlast => ?_
      rw [ConferenceRoom.LastMember, hnone] at hlast
      exact nomatch hlast.1
    · rw [if_neg hnone]
      by_cases hactive :
          ((room.participants.delete ext).values.any ConferenceParticipant.active) = true
      · rw [if_pos hactive, isSome_setRoom_same hsome]
        exact hstays fun hlast => (any_active_delete _ _).mpr hlast.2 hactive
      · rw [if_neg hactive, getRoom_delete]
        have hlast : room.LastMember ext :=
          ⟨Option.isSome_iff_ne_none.mpr hnone, (any_active_delete _ _).mp hactive⟩
        split
        · rename_i heq
          exact iff_of_false nofun fun h => h.2 room heq rfl hlast
        · rename_i hne
          exact ⟨fun h => ⟨h, fun _ heq => absurd heq hne⟩, And.left⟩

end ConferenceService

namespace ConferenceSystem

/-! ## The property and its condition -/

/-- A room that was dialed into has a call in it or on its way there. -/
def NoOrphanRoom (s : ConferenceSystem) : Prop :=
  ∀ roomId, (s.service.getRoom roomId).isSome → s.dialed roomId = true →
    s.HasLeg (ConferenceLeg.ActiveIn roomId)

structure RoomsKept (s : ConferenceSystem) : Prop where
  hosts : s.service.HostsOk
  rooms : s.NoOrphanRoom

/-- When the call `id` of a room ends without taking the room's last member with it, another call is
    there. -/
def RoomHeld (s : ConferenceSystem) (id : Nat) (roomId : String)
    (gone : ConferenceRoom → Prop) : Prop :=
  ∀ room, s.service.getRoom roomId = some room → s.dialed roomId = true → ¬ gone room →
    s.HasOther id (ConferenceLeg.ActiveIn roomId)

/-- `onLeft` of a call leaves neither a room without host nor a room without calls. -/
def LeavesWell (s : ConferenceSystem) (id : Nat) (leg : ConferenceLeg) : Prop :=
  .onLeft ∉ leg.hooks → s.service.HostStays leg.roomId leg.extension ∧
    s.RoomHeld id leg.roomId fun room => room.LastMember leg.extension

/-- The step leaves every room with its host, and no room behind. -/
def KeepsRooms (maxMembers : Int) (s : ConferenceSystem) : ConferenceEvent → Prop
  | .leave extension roomId | .decline extension roomId =>
    trim roomId ≠ "" → s.service.HostStays (trim roomId) extension
  | .dial id _ _ roomId _ => s.legs id = none → s.service.getRoom roomId = none → maxMembers = 0 →
    s.HasLeg (ConferenceLeg.ActiveIn roomId)
  | .unavailable id => ∀ leg, s.legs id = some leg → leg.phase = .checking →
    .onLeft ∉ leg.hooks → s.RoomHeld id leg.roomId fun _ => False
  | .connectFails id => ∀ leg, s.legs id = some leg → leg.phase = .connecting → s.LeavesWell id leg
  | .joinFails id => ∀ leg, s.legs id = some leg → leg.phase = .joining → s.LeavesWell id leg
  | .hangsUp id => ∀ leg, s.legs id = some leg → leg.hungUp = false →
    leg.phase = .joining ∨ leg.phase = .mixed → s.LeavesWell id leg
  | .joinSucceeds id _ => ∀ leg, s.legs id = some leg → leg.phase = .joining →
    (∀ room, s.service.getRoom leg.roomId = some room →
      ConferenceService.HostJoins room leg.extension) ∧
    (leg.hungUp = true → .onLeft ∉ leg.hooks → s.RoomHeld id leg.roomId fun _ => False)
  | .start .. | .invite .. | .available _ | .connected _ => True

variable {maxMembers : Int} {s s' : ConferenceSystem} {id : Nat} {leg leg' : ConferenceLeg}
  {e : ConferenceEvent}

/-! ## What a step does to the rooms that have calls -/

/-- No room appears, and every call that was there still is. -/
theorem NoOrphanRoom.mono (h : s.NoOrphanRoom)
    (hrooms : ∀ roomId, (s'.service.getRoom roomId).isSome → (s.service.getRoom roomId).isSome)
    (hdialed : s'.dialed = s.dialed)
    (hlegs : ∀ roomId, s.HasLeg (ConferenceLeg.ActiveIn roomId) →
      s'.HasLeg (ConferenceLeg.ActiveIn roomId)) : s'.NoOrphanRoom := by
  intro roomId hroom hd
  exact hlegs roomId (h roomId (hrooms roomId hroom) (hdialed ▸ hd))

/-- A call stops being active: its room must go, or have another call. -/
theorem noOrphanRoom_iff_of_ends (h : s.NoOrphanRoom) (hleg : s.legs id = some leg)
    (leg' : ConferenceLeg) (hlegs : ∀ P, ¬ P leg' → (s'.HasLeg P ↔ s.HasOther id P)) (hdialed : s'.dialed = s.dialed)
    (hnot : ∀ roomId, ¬ leg'.ActiveIn roomId) (gone : ConferenceRoom → Prop)
    (hrooms : ∀ roomId, (s'.service.getRoom roomId).isSome ↔ (s.service.getRoom roomId).isSome ∧
      ∀ room, roomId = leg.roomId → s.service.getRoom leg.roomId = some room → ¬ gone room) :
    s'.NoOrphanRoom ↔ s.RoomHeld id leg.roomId gone := by
  constructor
  · intro h' room hroom hd hgone
    refine (hlegs _ (hnot leg.roomId)).mp (h' leg.roomId ((hrooms leg.roomId).mpr ?_) (hdialed ▸ hd))
    refine ⟨by rw [hroom]; rfl, fun room' _ heq => ?_⟩
    rw [hroom, Option.some.injEq] at heq
    exact heq ▸ hgone
  · intro hheld roomId hsome hd
    rw [hdialed] at hd
    obtain ⟨hbefore, hgone⟩ := (hrooms roomId).mp hsome
    refine (hlegs _ (hnot roomId)).mpr ?_
    by_cases heq : roomId = leg.roomId
    · obtain ⟨room, hroom⟩ := Option.isSome_iff_exists.mp hbefore
      rw [heq] at hroom hd ⊢
      exact hheld room hroom hd (hgone room heq hroom)
    · -- a call of another room does not matter here
      exact ((hasLeg_iff hleg).mp (h roomId hbefore hd)).resolve_left fun hactive =>
        heq hactive.1.symm

theorem not_activeIn_of_left (h : .onLeft ∈ leg.hooks) (roomId : String) :
    ¬ leg.ActiveIn roomId := fun hactive => hactive.2.2 h

/-- Another call takes the place of an inactive one. -/
theorem hasLeg_of_other {P : ConferenceLeg → Prop} (hleg : s.legs id = some leg) (hP : ¬ P leg)
    (h : s.HasLeg P) (leg' : ConferenceLeg) : (s.setLeg id leg').HasLeg P :=
  hasLeg_setLeg.mpr (.inr (((hasLeg_iff hleg).mp h).resolve_left hP))

/-- A call ends, and its extension leaves the roster. -/
theorem roomsKept_of_leaves (h : s.RoomsKept) (hleg : s.legs id = some leg)
    (hservice : s'.service = s.service.markLeft leg.roomId leg.extension)
    (hlegs : ∀ P, ¬ P leg' → (s'.HasLeg P ↔ s.HasOther id P)) (hdialed : s'.dialed = s.dialed)
    (hnot : ∀ roomId, ¬ leg'.ActiveIn roomId) :
    s'.RoomsKept ↔ s.service.HostStays leg.roomId leg.extension ∧
      s.RoomHeld id leg.roomId fun room => room.LastMember leg.extension := by
  have hhosts := ConferenceService.hostsOk_markLeft h.hosts leg.roomId leg.extension
  have hrooms := noOrphanRoom_iff_of_ends h.rooms hleg leg' hlegs hdialed hnot _ fun roomId => by
    rw [hservice]
    exact ConferenceService.isSome_markLeft leg.roomId leg.extension roomId
  rw [← hservice] at hhosts
  rw [← hhosts, ← hrooms]
  exact ⟨fun h' => ⟨h'.hosts, h'.rooms⟩, fun h' => ⟨h'.1, h'.2⟩⟩

theorem roomsKept_notifyLeft (h : s.RoomsKept) (hleg : s.legs id = some leg)
    (hroom : leg'.roomId = leg.roomId) (hext : leg'.extension = leg.extension)
    (hhooks : leg'.hooks = leg.hooks) :
    (s.notifyLeft id leg').RoomsKept ↔ s.LeavesWell id leg := by
  unfold notifyLeft LeavesWell
  split
  · rename_i hleft
    rw [hhooks] at hleft
    refine iff_of_true ⟨h.hosts, h.rooms.mono (fun _ hsome => hsome) rfl fun roomId hactive => ?_⟩
      fun hnot => absurd hleft hnot
    exact hasLeg_of_other hleg (not_activeIn_of_left hleft roomId) hactive leg'
  · rename_i hleft
    rw [hhooks] at hleft
    refine Iff.trans (roomsKept_of_leaves h hleg (by rw [← hroom, ← hext])
      (fun P hP => hasLeg_setLeg.trans (or_iff_right hP)) rfl
      (not_activeIn_of_left (List.mem_append_right _ List.mem_cons_self))) ?_
    exact ⟨fun hboth _ => hboth, fun hboth => hboth hleft⟩

/-- A call that changes, but stays as active as it was. -/
theorem RoomsKept.advance (h : s.RoomsKept) (hleg : s.legs id = some leg)
    (hactive : ∀ roomId, leg.ActiveIn roomId → leg'.ActiveIn roomId) :
    (s.setLeg id leg').RoomsKept where
  hosts := h.hosts
  rooms := h.rooms.mono (fun _ hsome => hsome) rfl fun roomId hlegs =>
    hasLeg_setLeg.mpr (((hasLeg_iff hleg).mp hlegs).imp (hactive roomId) fun hother => hother)

/-- A call fails before anybody listens to it. -/
theorem roomsKept_of_fails (h : s.RoomsKept) (hleg : s.legs id = some leg)
    (hnot : ∀ roomId, ¬ leg'.ActiveIn roomId) :
    (s.setLeg id leg').RoomsKept ↔
      (.onLeft ∉ leg.hooks → s.RoomHeld id leg.roomId fun _ => False) := by
  by_cases hleft : .onLeft ∈ leg.hooks
  · refine iff_of_true ⟨h.hosts, h.rooms.mono (fun _ hsome => hsome) rfl fun roomId hactive => ?_⟩
      fun hnotLeft => absurd hleft hnotLeft
    exact hasLeg_of_other hleg (not_activeIn_of_left hleft roomId) hactive leg'
  · have hrooms := noOrphanRoom_iff_of_ends h.rooms hleg leg'
      (fun P hP => hasLeg_setLeg.trans (or_iff_right hP)) rfl hnot (fun _ => False)
      fun roomId => ⟨fun hsome => ⟨hsome, fun _ _ _ hfalse => hfalse⟩, And.left⟩
    refine Iff.trans ?_ (hrooms.trans ⟨fun hheld _ => hheld, fun hheld => hheld hleft⟩)
    exact ⟨fun h' => h'.rooms, fun h' => ⟨h.hosts, h'⟩⟩

/-- A join completes. -/
theorem roomsKept_joinSucceeds (h : s.RoomsKept) (hleg : s.legs id = some leg) (now : Nat) :
    RoomsKept { s.setLeg id { leg with phase := .mixed, hooks := leg.hooks ++ [.onJoined] } with
        service := s.service.markJoined leg.roomId leg.extension leg.name now } ↔
      (∀ room, s.service.getRoom leg.roomId = some room →
        ConferenceService.HostJoins room leg.extension) ∧
      (leg.hungUp = true → .onLeft ∉ leg.hooks → s.RoomHeld id leg.roomId fun _ => False) := by
  have hhosts := ConferenceService.hostsOk_markJoined h.hosts leg.roomId leg.extension leg.name now
  have hsome : ∀ roomId, ((s.service.markJoined leg.roomId leg.extension leg.name now).getRoom
      roomId).isSome = (s.service.getRoom roomId).isSome :=
    ConferenceService.isSome_markJoined leg.roomId leg.extension leg.name now
  have hrooms : NoOrphanRoom
      { s.setLeg id { leg with phase := .mixed, hooks := leg.hooks ++ [.onJoined] } with
        service := s.service.markJoined leg.roomId leg.extension leg.name now } ↔
      (leg.hungUp = true → .onLeft ∉ leg.hooks → s.RoomHeld id leg.roomId fun _ => False) := by
    by_cases hends : leg.hungUp = true ∧ .onLeft ∉ leg.hooks
    · -- the caller is gone, and only now the call is known to be over
      refine Iff.trans (noOrphanRoom_iff_of_ends h.rooms hleg
        { leg with phase := .mixed, hooks := leg.hooks ++ [.onJoined] } (fun P hP => ?_) ?_
        (fun roomId hactive => ?_) (fun _ => False) fun roomId => ?_)
        ⟨fun hheld _ _ => hheld, fun hheld => hheld hends.1 hends.2⟩
      · exact hasLeg_setLeg.trans (or_iff_right hP)
      · rfl
      · rcases hactive.2.1 with hlive | hflight
        · simp [ConferenceLeg.live, hends.1] at hlive
        · simp [ConferenceLeg.inFlight] at hflight
      · rw [hsome roomId]
        exact ⟨fun hroom => ⟨hroom, fun _ _ _ hfalse => hfalse⟩, And.left⟩
    · refine iff_of_true (h.rooms.mono (fun roomId hroom => ?_) rfl fun roomId hactive => ?_)
        fun hhung hleft => absurd ⟨hhung, hleft⟩ hends
      · rw [← hsome roomId]
        exact hroom
      · refine hasLeg_setLeg.mpr (((hasLeg_iff hleg).mp hactive).imp (fun hbefore => ?_)
          fun hother => hother)
        have hup : leg.hungUp = false := by
          rw [← Bool.not_eq_true]
          exact fun hhung => hends ⟨hhung, hbefore.2.2⟩
        refine ⟨hbefore.1, .inl (by simp [ConferenceLeg.live, hup]), ?_⟩
        simpa using hbefore.2.2
  rw [← hhosts, ← hrooms]
  exact ⟨fun h' => ⟨h'.hosts, h'.rooms⟩, fun h' => ⟨h'.1, h'.2⟩⟩

/-- A call that is let in holds its room. -/
theorem RoomsKept.letIn (h : s.RoomsKept) (hid : s.legs id = none) {roomId : String}
    {service : ConferenceService} {dialed : String → Bool} (hroom : leg.ActiveIn roomId)
    (hhosts : service.HostsOk) (hsome : ∀ roomId', (service.getRoom roomId').isSome →
      roomId' = roomId ∨ (s.service.getRoom roomId').isSome)
    (hdialed : ∀ roomId', dialed roomId' = true → s.dialed roomId' = true ∨ roomId' = roomId) :
    RoomsKept { s.setLeg id leg with service, dialed } where
  hosts := hhosts
  rooms := by
    intro roomId' hget hd
    refine hasLeg_setLeg.mpr ?_
    by_cases heq : roomId' = roomId
    · exact .inl (heq ▸ hroom)
    · have hbefore := h.rooms roomId' ((hsome roomId' hget).resolve_left heq)
        ((hdialed roomId' hd).resolve_right heq)
      exact .inr ((hasLeg_iff_of_none hid).mp hbefore)

theorem roomsKept_dial (h : s.RoomsKept) (hid : s.legs id = none) (extension name roomId : String)
    (now : Nat) :
    (dial maxMembers s id extension name roomId now).RoomsKept ↔
      (s.service.getRoom roomId = none → maxMembers = 0 →
        s.HasLeg (ConferenceLeg.ActiveIn roomId)) := by
  have hin : ∀ dialed : String → Bool,
      (∀ roomId', dialed roomId' = true → s.dialed roomId' = true ∨ roomId' = roomId) →
      RoomsKept { s.setLeg id { roomId, extension, name } with
        service := (s.service.ensureRoom roomId extension now).markRinging roomId extension
        dialed } := by
    intro dialed hdialed
    refine h.letIn hid ⟨rfl, .inr rfl, nofun⟩
      ((h.hosts.ensureRoom roomId extension now).markRinging roomId extension) (fun roomId' => ?_)
      hdialed
    rw [ConferenceService.isSome_markRinging]
    exact (ConferenceService.isSome_ensureRoom roomId extension now roomId').mp
  unfold dial
  dsimp only
  cases hroom : s.service.getRoom roomId with
  | some room =>
    have hsame : s.service.ensureRoom roomId extension now = s.service := by
      unfold ConferenceService.ensureRoom
      rw [hroom]
    simp only [hsame, hroom] at hin ⊢
    refine iff_of_true ?_ nofun
    split
    · -- refused: nothing changed
      refine ⟨h.hosts, fun roomId' hget hd => h.rooms roomId' hget ?_⟩
      simpa using hd
    · exact hin _ fun roomId' hd => by simpa using hd
  | none =>
    have hnew : ∃ room, (s.service.ensureRoom roomId extension now).getRoom roomId = some room ∧
        room.participants = .empty := by
      unfold ConferenceService.ensureRoom
      rw [hroom]
      exact ⟨_, ConferenceService.getRoom_setRoom_self _ _ _, rfl⟩
    obtain ⟨room, hget, hempty⟩ := hnew
    have hfull : isFull maxMembers room extension = true ↔ maxMembers = 0 := by
      simp only [isFull, ConferenceRoom.joined, hempty, OrdMap.values, OrdMap.empty, OrdMap.get?,
        List.map_nil, List.filter_nil, List.length_nil, List.find?_nil, Option.map_none,
        decide_eq_true_eq, and_true]
      omega
    simp only [hget, hfull, forall_true_left]
    split
    · rename_i hzero
      simp only [hzero, forall_true_left]
      -- the room was made for a caller who is not let in
      constructor
      · intro h'
        exact h'.rooms roomId (by rw [hget]; rfl) (by simp)
      · refine fun hactive => ⟨h.hosts.ensureRoom roomId extension now, fun roomId' hget' hd => ?_⟩
        by_cases heq : roomId' = roomId
        · exact heq ▸ hactive
        · have hbefore :=
            ((ConferenceService.isSome_ensureRoom roomId extension now roomId').mp hget').resolve_left
              heq
          exact h.rooms roomId' hbefore (by simpa [heq] using hd)
    · rename_i hpositive
      exact iff_of_true (hin _ fun roomId' hd => by simpa using hd)
        fun hzero => absurd hzero hpositive

theorem HostsOk.inviteAll {service : ConferenceService} (h : service.HostsOk) (host id : String)
    (dir : Directory) (invitees : List String) :
    (inviteAll service host id dir invitees).HostsOk := by
  induction invitees generalizing service with
  | nil => exact h
  | cons invitee rest ih =>
    simp only [ConferenceSystem.inviteAll]
    split
    · exact ih h
    · exact ih (h.addInvite _ _ _)

theorem isSome_inviteAll (host id : String) (dir : Directory) (invitees : List String)
    (service : ConferenceService) (roomId : String) :
    ((inviteAll service host id dir invitees).getRoom roomId).isSome =
      (service.getRoom roomId).isSome := by
  induction invitees generalizing service with
  | nil => rfl
  | cons invitee rest ih =>
    simp only [inviteAll]
    split
    · exact ih service
    · rw [ih, ConferenceService.isSome_addInvite]

/-- A message to the signaling server takes its sender from a room. -/
theorem roomsKept_leave (h : s.RoomsKept) (roomId ext : String) :
    RoomsKept { s with service := s.service.markLeft roomId ext } ↔ s.service.HostStays roomId ext := by
  rw [← ConferenceService.hostsOk_markLeft h.hosts]
  refine ⟨fun h' => h'.hosts, fun hhosts => ⟨hhosts, h.rooms.mono (fun roomId' hsome => ?_) rfl
    fun _ hactive => hactive⟩⟩
  exact ((ConferenceService.isSome_markLeft roomId ext roomId').mp hsome).1

theorem roomsKept_start (h : s.RoomsKept) {id : String} (hfree : s.service.getRoom id = none)
    (host hostName : String) (name : Option String) (dir : Directory) (invitees : List String)
    (now : Nat) :
    RoomsKept { s with
      service := inviteAll (s.service.createRoom id host hostName name now) host id dir invitees
      dialed := fun r => r ≠ id ∧ s.dialed r } where
  hosts := HostsOk.inviteAll (h.hosts.createRoom hfree host hostName name now) host id dir invitees
  rooms := by
    intro roomId hsome hd
    rw [isSome_inviteAll, ConferenceService.isSome_createRoom] at hsome
    simp only [decide_eq_true_eq] at hd
    exact h.rooms roomId (hsome.resolve_left hd.1) hd.2

/-! ## The step lemma -/

/-- A step leaves the rooms with their hosts and calls exactly when it keeps them. -/
theorem roomsKept_step (h : s.RoomsKept) (hstep : step maxMembers s e = some s') :
    s'.RoomsKept ↔ KeepsRooms maxMembers s e := by
  have hquiet : s'.RoomsKept → KeepsRooms maxMembers s e →
      (s'.RoomsKept ↔ KeepsRooms maxMembers s e) := iff_of_true
  cases steps_of_step hstep with
  | start hfree => exact hquiet (roomsKept_start h hfree _ _ _ _ _ _) trivial
  | inviteIgnored => exact hquiet h trivial
  | invite extension roomId target dir =>
    refine hquiet ?_ trivial
    refine ⟨h.hosts.addInvite _ _ _, h.rooms.mono (fun roomId' hsome => ?_) rfl fun _ hl => hl⟩
    rw [ConferenceService.isSome_addInvite] at hsome
    exact hsome
  | declineIgnored _ hblank | leaveIgnored _ hblank =>
    exact hquiet h fun hne => absurd hblank hne
  | decline _ hroom | leave _ hroom =>
    rw [roomsKept_leave h]
    exact ⟨fun hstays _ => hstays, fun hstays => hstays hroom⟩
  | dial _ _ _ _ hid =>
    rw [roomsKept_dial h hid]
    exact ⟨fun hheld _ => hheld, fun hheld => hheld hid⟩
  | available hleg hphase | connected hleg hphase =>
    refine hquiet (h.advance hleg fun roomId hactive => ⟨hactive.1, .inr ?_, hactive.2.2⟩) trivial
    rfl
  | unavailable hleg hphase =>
    refine Iff.trans (roomsKept_of_fails h hleg fun roomId hactive => ?_)
      ⟨fun hheld leg' hleg' _ => ?_, fun hall => hall _ hleg hphase⟩
    · simpa [ConferenceLeg.live, ConferenceLeg.inFlight] using hactive.2.1
    · rw [hleg, Option.some.injEq] at hleg'
      exact hleg' ▸ hheld
  | connectFails hleg hphase | joinFails hleg hphase =>
    exact Iff.trans (roomsKept_notifyLeft h hleg rfl rfl rfl) (forall_leg_iff hleg hphase).symm
  | joinSucceeds now hleg hphase =>
    refine (roomsKept_joinSucceeds h hleg now).trans
      ⟨fun hjoins leg' hleg' _ => ?_, fun hall => hall _ hleg hphase⟩
    rw [hleg, Option.some.injEq] at hleg'
    exact hleg' ▸ hjoins
  | hangsUp hleg hup hphase =>
    refine Iff.trans (roomsKept_notifyLeft h hleg rfl rfl rfl) ?_
    refine ⟨fun hleaves leg' hleg' _ _ => ?_, fun hall => hall _ hleg hup hphase⟩
    rw [hleg, Option.some.injEq] at hleg'
    exact hleg' ▸ hleaves
  | hangsUpUnheard hleg _ hphase =>
    refine hquiet ?_ fun leg' hleg' _ hphase' => ?_
    · refine h.advance hleg fun roomId hactive => ⟨hactive.1, .inr ?_, hactive.2.2⟩
      rcases hphase with hp | hp <;> simp [ConferenceLeg.inFlight, hp]
    · rw [hleg, Option.some.injEq] at hleg'
      rw [← hleg'] at hphase'
      rcases hphase with hp | hp <;> simp [hp] at hphase'

/-! ## Runs -/

theorem roomsKept_init : init.RoomsKept where
  hosts := by
    rintro roomId room hroom -
    cases hroom
  rooms := by
    rintro roomId hroom -
    cases hroom

/-- Every room in which somebody is joined has its host, and no room is left behind, in exactly the
    runs whose steps keep the rooms. -/
theorem roomsKept_throughout_iff (maxMembers : Int) (es : List ConferenceEvent) :
    Throughout (step maxMembers) RoomsKept init es ↔
      Meets (step maxMembers) (KeepsRooms maxMembers) init es := by
  refine Machine.throughout_iff_meets (I := RoomsKept) (P := fun _ _ => True)
    (fun _ h => h) (fun s e s' h _ hkeeps hstep => (roomsKept_step h hstep).mpr hkeeps)
    (fun s e s' h _ hstep hafter => (roomsKept_step h hstep).mp hafter)
    (fun s e hnone => ?_) roomsKept_init
    (Machine.meets_of_mem (H := fun _ => True) fun _ _ => trivial)
  cases e with
  | start | invite | available | connected => trivial
  | decline | leave =>
    simp only [step] at hnone
    split at hnone <;> cases hnone
  | dial =>
    intro hid
    simp [step, hid] at hnone
  | unavailable | connectFails | joinFails | joinSucceeds =>
    intro leg hleg hphase
    simp only [step, hleg, hphase, if_true, reduceCtorEq] at hnone
  | hangsUp =>
    intro leg hleg hhung hphase
    have hnotFailed : leg.phase ≠ .failed := by
      rcases hphase with hp | hp <;> (rw [hp]; decide)
    simp [step, hleg, hhung, hnotFailed, hphase] at hnone

/-- The only call into a new room fails. -/
def failedDial : List ConferenceEvent :=
  [.dial 1 "1001" "Ann" "a" 0, .available 1, .connectFails 1]

/-- The caller was never listed, so its leaving removes nothing, and the room stays. -/
theorem not_roomsKept_failedDial : ¬ Throughout (step (-1)) RoomsKept init failedDial := by
  intro h
  have hlast := h.last rfl
  obtain ⟨id, leg, hleg, hroom, hactive, hleft⟩ := hlast.rooms "a" rfl rfl
  by_cases hid : id = 1
  · rw [hid] at hleg
    cases hleg
    exact absurd hleft (by decide)
  · change (if id = 1 then _ else if id = 1 then _ else if id = 1 then _ else none) = some leg at hleg
    simp only [if_neg hid, reduceCtorEq] at hleg

/-- A host who hangs up while somebody else is in the room leaves it without a host. -/
example : (run (step (-1)) init
      [.dial 1 "1001" "Ann" "a" 0, .available 1, .connected 1, .joinSucceeds 1 1,
        .dial 2 "1002" "Bob" "a" 2, .available 2, .connected 2, .joinSucceeds 2 3, .hangsUp 1]).map
      (fun s => (s.service.getRoom "a").map fun room => (room.hostExtension, room.joined.map fun p =>
        (p.extension, p.isHost))) = some (some ("1001", [("1002", false)])) := by decide

end ConferenceSystem

end CallNet
