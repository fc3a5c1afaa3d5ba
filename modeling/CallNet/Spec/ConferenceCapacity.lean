import CallNet.Spec.ConferenceRooms

/-!
# Conference capacity

The handler counts the members of a room when a call arrives, and only a call whose
extension is not listed is refused; the count changes when joins complete.  So the
limit holds exactly as long as every join that completes still finds a free place.
-/

namespace CallNet

open Machine (run Meets Throughout)

namespace ConferenceService

/-- How many participants of a room are joined. -/
def joinedCount (s : ConferenceService) (roomId : String) : Nat :=
  ((s.getRoom roomId).map fun room => room.joined.length).getD 0

variable {s : ConferenceService}

/-- Whether a participant counts. -/
def counts (p : ConferenceParticipant) : Bool := p.state = .joined

theorem joined_length (room : ConferenceRoom) :
    room.joined.length = room.participants.values.countP counts := by
  unfold ConferenceRoom.joined counts
  rw [List.countP_eq_length_filter]

theorem joinedCount_of_some {roomId : String} {room : ConferenceRoom}
    (h : s.getRoom roomId = some room) : s.joinedCount roomId = room.joined.length := by
  simp [joinedCount, h]

theorem joinedCount_setRoom (roomId roomId' : String) (room : ConferenceRoom) :
    (s.setRoom roomId room).joinedCount roomId' =
      if roomId' = roomId then room.joined.length else s.joinedCount roomId' := by
  unfold joinedCount
  rw [getRoom_setRoom]
  split
  · rfl
  · rfl

/-- Storing a participant replaces the one of its extension. -/
theorem countP_set (participants : OrdMap String ConferenceParticipant) (ext : String)
    (p : ConferenceParticipant) :
    (participants.set ext p).values.countP counts + (participants.get? ext).toList.countP counts =
      participants.values.countP counts + [p].countP counts := by
  rw [(OrdMap.values_set_perm participants ext p).countP_eq,
    (OrdMap.values_perm_toList participants ext).countP_eq]
  simp only [List.countP_cons, List.countP_append, List.countP_nil]
  omega

/-- A participant who is not joined takes no place. -/
theorem countP_set_le (participants : OrdMap String ConferenceParticipant) (ext : String)
    {p : ConferenceParticipant} (hp : p.state ≠ .joined) :
    (participants.set ext p).values.countP counts ≤ participants.values.countP counts := by
  have hset := countP_set participants ext p
  have hnone : [p].countP counts = 0 := by simp [counts, hp]
  omega

/-- A participant who is joined takes one place, unless the extension had it already. -/
theorem countP_set_joined (participants : OrdMap String ConferenceParticipant) (ext : String)
    {p : ConferenceParticipant} (hp : p.state = .joined) :
    (participants.set ext p).values.countP counts = participants.values.countP counts +
      if (participants.get? ext).any counts then 0 else 1 := by
  have hset := countP_set participants ext p
  have hone : [p].countP counts = 1 := by simp [counts, hp]
  cases hold : participants.get? ext with
  | none =>
    rw [hold, Option.toList_none, List.countP_nil] at hset
    simp only [Option.any_none, Bool.false_eq_true, if_false]
    omega
  | some old =>
    rw [hold, Option.toList_some, List.countP_singleton] at hset
    rw [Option.any_some]
    cases hcounts : counts old with
    | true =>
      rw [hcounts, if_pos rfl] at hset
      rw [if_pos rfl]
      omega
    | false =>
      rw [hcounts, if_neg nofun] at hset
      rw [if_neg nofun]
      omega

theorem countP_delete_le (participants : OrdMap String ConferenceParticipant) (ext : String) :
    (participants.delete ext).values.countP counts ≤ participants.values.countP counts := by
  rw [(OrdMap.values_perm_toList participants ext).countP_eq, List.countP_append]
  omega

/-- Storing a participant who is not joined adds nobody. -/
theorem joinedCount_setRoom_le {roomId : String} {room room' : ConferenceRoom}
    (hroom : s.getRoom roomId = some room)
    (hle : room'.participants.values.countP counts ≤ room.participants.values.countP counts)
    (roomId' : String) : (s.setRoom roomId room').joinedCount roomId' ≤ s.joinedCount roomId' := by
  rw [joinedCount_setRoom]
  split
  · rename_i heq
    rw [heq, joinedCount_of_some hroom, joined_length, joined_length]
    exact hle
  · exact Nat.le_refl _

/-- A new room in which nobody is joined. -/
theorem joinedCount_setRoom_new {roomId : String} {room : ConferenceRoom}
    (hempty : room.participants.values.countP counts = 0) (roomId' : String) :
    (s.setRoom roomId room).joinedCount roomId' ≤ s.joinedCount roomId' := by
  rw [joinedCount_setRoom]
  split
  · rw [joined_length, hempty]
    exact Nat.zero_le _
  · exact Nat.le_refl _

/-! ## The operations that add nobody -/

theorem joinedCount_createRoom_le (id hostExt hostName : String) (name : Option String) (now : Nat)
    (roomId : String) :
    (s.createRoom id hostExt hostName name now).joinedCount roomId ≤ s.joinedCount roomId := by
  refine joinedCount_setRoom_new (Nat.le_zero.mp ?_) roomId
  exact countP_set_le .empty hostExt nofun

theorem joinedCount_ensureRoom_le (roomId callerExt : String) (now : Nat) (roomId' : String) :
    (s.ensureRoom roomId callerExt now).joinedCount roomId' ≤ s.joinedCount roomId' := by
  unfold ensureRoom
  split
  · exact Nat.le_refl _
  · exact joinedCount_setRoom_new rfl roomId'

theorem joinedCount_addInvite_le (roomId ext name roomId' : String) :
    (s.addInvite roomId ext name).joinedCount roomId' ≤ s.joinedCount roomId' := by
  unfold addInvite
  split
  · exact Nat.le_refl _
  · rename_i room hroom
    dsimp only
    split
    · exact Nat.le_refl _
    · refine joinedCount_setRoom_le hroom ?_ roomId'
      exact countP_set_le _ _ nofun

theorem joinedCount_markRinging_le (roomId ext roomId' : String) :
    (s.markRinging roomId ext).joinedCount roomId' ≤ s.joinedCount roomId' := by
  unfold markRinging
  split
  · exact Nat.le_refl _
  · rename_i room hroom
    refine joinedCount_setRoom_le hroom ?_ roomId'
    simp only [OrdMap.modify, OrdMap.values, OrdMap.mapVals, List.map_map]
    rw [List.countP_map, List.countP_map]
    refine List.countP_mono_left fun e _ => ?_
    simp only [Function.comp, counts]
    split
    · by_cases hjoined : e.2.state = .joined <;> simp [hjoined]
    · exact id

theorem joinedCount_markLeft_le (roomId ext roomId' : String) :
    (s.markLeft roomId ext).joinedCount roomId' ≤ s.joinedCount roomId' := by
  unfold markLeft
  split
  · exact Nat.le_refl _
  · rename_i room hroom
    split
    · exact Nat.le_refl _
    · dsimp only
      split
      · exact joinedCount_setRoom_le hroom (countP_delete_le _ _) roomId'
      · unfold joinedCount
        rw [getRoom_delete]
        split
        · exact Nat.zero_le _
        · exact Nat.le_refl _

/-- The extension has its place in the room. -/
theorem any_counts_iff {roomId : String} {room : ConferenceRoom} (hroom : s.getRoom roomId = some room)
    (ext : String) : (room.participants.get? ext).any counts = true ↔ s.JoinedIn roomId ext := by
  rw [joinedIn_iff hroom, Option.any_eq_true]
  simp only [counts, decide_eq_true_eq]

/-- A join adds the participant, unless it is joined already. -/
theorem joinedCount_markJoined {roomId : String} (hroom : (s.getRoom roomId).isSome)
    (ext name : String) (now : Nat) (roomId' : String) :
    s.JoinedIn roomId ext ∧
        (s.markJoined roomId ext name now).joinedCount roomId' = s.joinedCount roomId' ∨
      ¬ s.JoinedIn roomId ext ∧ (s.markJoined roomId ext name now).joinedCount roomId' =
        s.joinedCount roomId' + if roomId' = roomId then 1 else 0 := by
  obtain ⟨room, hroom⟩ := Option.isSome_iff_exists.mp hroom
  simp only [markJoined, hroom]
  rw [joinedCount_setRoom]
  by_cases heq : roomId' = roomId
  · rw [if_pos heq, if_pos heq, heq, joinedCount_of_some hroom, joined_length, joined_length,
      countP_set_joined _ _ rfl, ← any_counts_iff hroom]
    cases (room.participants.get? ext).any counts with
    | true => exact .inl ⟨rfl, rfl⟩
    | false => exact .inr ⟨Bool.false_ne_true, rfl⟩
  · rw [if_neg heq, if_neg heq]
    by_cases hjoined : s.JoinedIn roomId ext
    · exact .inl ⟨hjoined, rfl⟩
    · exact .inr ⟨hjoined, rfl⟩

end ConferenceService

namespace ConferenceSystem

/-! ## The property and its condition -/

/-- No room has more than its maximum of members joined; a negative maximum means no limit. -/
def WithinCapacity (maxMembers : Int) (s : ConferenceSystem) : Prop :=
  0 ≤ maxMembers → ∀ roomId, (s.service.joinedCount roomId : Int) ≤ maxMembers

/-- A join that completes finds a free place, or the extension has one already. -/
def PlaceFree (maxMembers : Int) (s : ConferenceSystem) : ConferenceEvent → Prop
  | .joinSucceeds id _ => ∀ leg, s.legs id = some leg → leg.phase = .joining → 0 ≤ maxMembers →
    (s.service.getRoom leg.roomId).isSome → s.service.JoinedIn leg.roomId leg.extension ∨
      (s.service.joinedCount leg.roomId : Int) < maxMembers
  | .start .. | .invite .. | .decline .. | .leave .. | .dial .. | .available _ | .unavailable _
  | .connected _ | .connectFails _ | .joinFails _ | .hangsUp _ => True

/-! ## The step lemma -/

variable {maxMembers : Int} {s s' : ConferenceSystem} {e : ConferenceEvent}

theorem joinedCount_inviteAll_le (host id : String) (dir : Directory) (invitees : List String)
    (service : ConferenceService) (roomId : String) :
    (inviteAll service host id dir invitees).joinedCount roomId ≤ service.joinedCount roomId := by
  induction invitees generalizing service with
  | nil => exact Nat.le_refl _
  | cons invitee rest ih =>
    simp only [inviteAll]
    split
    · exact ih service
    · exact (ih _).trans (ConferenceService.joinedCount_addInvite_le _ _ _ _)

theorem joinedCount_dial_le (s : ConferenceSystem) (id : Nat) (extension name roomId : String)
    (now : Nat) (roomId' : String) :
    (dial maxMembers s id extension name roomId now).service.joinedCount roomId' ≤
      s.service.joinedCount roomId' := by
  have hensure := ConferenceService.joinedCount_ensureRoom_le (s := s.service) roomId extension now
    roomId'
  unfold dial
  dsimp only
  split
  · exact Nat.le_refl _
  · split
    · exact hensure
    · exact (ConferenceService.joinedCount_markRinging_le _ _ _).trans hensure

theorem joinedCount_notifyLeft_le (s : ConferenceSystem) (id : Nat) (leg : ConferenceLeg)
    (roomId : String) :
    (s.notifyLeft id leg).service.joinedCount roomId ≤ s.service.joinedCount roomId := by
  unfold notifyLeft
  split
  · exact Nat.le_refl _
  · exact ConferenceService.joinedCount_markLeft_le _ _ _

/-- Only a join that completes adds to a room. -/
theorem joinedCount_step (h : step maxMembers s e = some s') :
    (PlaceFree maxMembers s e ∧
        ∀ roomId, s'.service.joinedCount roomId ≤ s.service.joinedCount roomId) ∨
      ∃ id now leg, e = .joinSucceeds id now ∧ s.legs id = some leg ∧ leg.phase = .joining ∧
        s'.service = s.service.markJoined leg.roomId leg.extension leg.name now := by
  cases steps_of_step h with
  | start =>
    exact .inl ⟨trivial, fun _ => (joinedCount_inviteAll_le _ _ _ _ _ _).trans
      (ConferenceService.joinedCount_createRoom_le _ _ _ _ _ _)⟩
  | inviteIgnored | declineIgnored | leaveIgnored => exact .inl ⟨trivial, fun _ => Nat.le_refl _⟩
  | invite => exact .inl ⟨trivial, fun _ => ConferenceService.joinedCount_addInvite_le _ _ _ _⟩
  | decline | leave =>
    exact .inl ⟨trivial, fun _ => ConferenceService.joinedCount_markLeft_le _ _ _⟩
  | dial => exact .inl ⟨trivial, fun _ => joinedCount_dial_le _ _ _ _ _ _ _⟩
  | available | unavailable | connected | hangsUpUnheard =>
    exact .inl ⟨trivial, fun _ => Nat.le_refl _⟩
  | connectFails | joinFails | hangsUp =>
    exact .inl ⟨trivial, fun _ => joinedCount_notifyLeft_le _ _ _ _⟩
  | joinSucceeds now hleg hphase => exact .inr ⟨_, now, _, rfl, hleg, hphase, rfl⟩

/-- A room fills up by joins alone, one place a join. -/
theorem withinCapacity_step (hwithin : s.WithinCapacity maxMembers)
    (h : step maxMembers s e = some s') :
    s'.WithinCapacity maxMembers ↔ PlaceFree maxMembers s e := by
  rcases joinedCount_step h with ⟨hfree, hle⟩ | ⟨id, now, leg, rfl, hleg, hphase, hservice⟩
  · refine iff_of_true (fun hlimit roomId => ?_) hfree
    have hbefore := hwithin hlimit roomId
    have hafter := hle roomId
    omega
  · have hleg_eq : ∀ leg', s.legs id = some leg' → leg' = leg := fun leg' hleg' =>
      Option.some.inj (hleg'.symm.trans hleg)
    cases hroom : s.service.getRoom leg.roomId with
    | none =>
      -- without the room nobody is added
      rw [ConferenceService.markJoined_of_none hroom] at hservice
      refine iff_of_true (fun hlimit roomId => hservice ▸ hwithin hlimit roomId) ?_
      intro leg' hleg' _ _ hsome
      rw [hleg_eq leg' hleg', hroom] at hsome
      cases hsome
    | some room =>
      have hsome : (s.service.getRoom leg.roomId).isSome := by rw [hroom]; rfl
      have hjoins := ConferenceService.joinedCount_markJoined hsome leg.extension leg.name now
      unfold WithinCapacity
      rw [hservice]
      constructor
      · intro hafter leg' hleg' _ hlimit _
        rw [hleg_eq leg' hleg']
        have hroomAfter := hafter hlimit leg.roomId
        rcases hjoins leg.roomId with ⟨hjoined, -⟩ | ⟨-, hcount⟩
        · exact .inl hjoined
        · rw [hcount, if_pos rfl] at hroomAfter
          exact .inr (by omega)
      · intro hfree hlimit roomId
        have hbefore := hwithin hlimit roomId
        rcases hjoins roomId with ⟨-, hcount⟩ | ⟨hnot, hcount⟩
        · omega
        · have hplace := (hfree leg hleg hphase hlimit hsome).resolve_left hnot
          by_cases heq : roomId = leg.roomId
          · rw [hcount, if_pos heq]
            rw [← heq] at hplace
            omega
          · rw [hcount, if_neg heq]
            omega

/-! ## Runs -/

/-- The rooms stay within their maximum in exactly the runs in which every join that completes
    finds a free place. -/
theorem withinCapacity_throughout_iff (maxMembers : Int) (es : List ConferenceEvent) :
    Throughout (step maxMembers) (WithinCapacity maxMembers) init es ↔
      Meets (step maxMembers) (PlaceFree maxMembers) init es := by
  refine Machine.throughout_iff_meets (I := WithinCapacity maxMembers) (P := fun _ _ => True)
    (fun _ h => h) (fun s e s' h _ hfree hstep => (withinCapacity_step h hstep).mpr hfree)
    (fun s e s' h _ hstep hafter => (withinCapacity_step h hstep).mp hafter)
    (fun s e hnone => ?_) (fun hlimit _ => hlimit)
    (Machine.meets_of_mem (H := fun _ => True) fun _ _ => trivial)
  cases e with
  | joinSucceeds id now =>
    intro leg hleg hphase
    simp only [step, hleg, hphase, if_true, reduceCtorEq] at hnone
  | _ => trivial

/-- Two callers of a room for one are both checked before either has joined. -/
def twoDialers : List ConferenceEvent :=
  [.dial 1 "1001" "Ann" "a" 0, .dial 2 "1002" "Bob" "a" 0, .available 1, .available 2,
    .connected 1, .connected 2, .joinSucceeds 1 1, .joinSucceeds 2 1]

theorem not_withinCapacity_twoDialers :
    ¬ Throughout (step 1) (WithinCapacity 1) init twoDialers := by
  intro h
  have hlast := h.last rfl
  exact absurd (hlast (by decide) "a") (by decide +kernel)

end ConferenceSystem

end CallNet
