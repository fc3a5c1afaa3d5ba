import CallNet.Engine.DialPlan
import CallNet.ForStd.OrdMap

/-!
# Conference rooms

`services/conference.service.ts`: who is invited to a room, is dialing in or has joined.  The
events that make the signaling server broadcast a roster are left out, and so are `closeRoom`
and `setMuted`, which nobody calls.
-/

namespace CallNet

inductive ConferenceParticipantState where
  | invited
  | ringing
  | joined
  | left
deriving DecidableEq, Repr

structure ConferenceParticipant where
  extension : String
  name : String
  state : ConferenceParticipantState
  joinedAt : Option Nat := none
  muted : Bool
  isHost : Bool
deriving DecidableEq, Repr

/-- The participants are kept by their extension. -/
structure ConferenceRoom where
  id : String
  name : String
  hostExtension : String
  createdAt : Nat
  participants : OrdMap String ConferenceParticipant

/-- A participant who joined or rings keeps a room alive. -/
def ConferenceParticipant.active (p : ConferenceParticipant) : Bool :=
  p.state = .joined ∨ p.state = .ringing

/-- The participants that are mixed into the room, as far as the service knows. -/
def ConferenceRoom.joined (room : ConferenceRoom) : List ConferenceParticipant :=
  room.participants.values.filter fun p => p.state = .joined

/-- The rooms, by id. -/
structure ConferenceService where
  rooms : OrdMap String ConferenceRoom

namespace ConferenceService

def empty : ConferenceService := ⟨.empty⟩

/-- `(name || '').trim() || 'Conference'` -/
def roomName (name : Option String) : String :=
  let shown := trim (name.getD "")
  if shown = "" then "Conference" else shown

def getRoom (s : ConferenceService) (roomId : String) : Option ConferenceRoom :=
  s.rooms.get? roomId

def setRoom (s : ConferenceService) (roomId : String) (room : ConferenceRoom) : ConferenceService :=
  ⟨s.rooms.set roomId room⟩

/-- A new room under an id that was generated for it. -/
def createRoom (s : ConferenceService) (id hostExt hostName : String) (name : Option String)
    (now : Nat) : ConferenceService :=
  s.setRoom id
    { id, name := roomName name, hostExtension := hostExt, createdAt := now
      participants := OrdMap.empty.set hostExt
        { extension := hostExt, name := if hostName = "" then hostExt else hostName
          state := .invited, muted := false, isHost := true } }

/-- A room that is dialed directly: the caller hosts it if it is new. -/
def ensureRoom (s : ConferenceService) (roomId callerExt : String) (now : Nat) :
    ConferenceService :=
  match s.getRoom roomId with
  | some _ => s
  | none => s.setRoom roomId
      { id := roomId, name := roomName none, hostExtension := callerExt, createdAt := now
        participants := .empty }

/-- Invite a participant who has not joined yet. -/
def addInvite (s : ConferenceService) (roomId ext name : String) : ConferenceService :=
  match s.getRoom roomId with
  | none => s
  | some room =>
    let existing := room.participants.get? ext
    if existing.map ConferenceParticipant.state = some .joined then s
    else s.setRoom roomId { room with
      participants := room.participants.set ext
        { extension := ext, name := if name = "" then ext else name, state := .invited
          muted := (existing.map ConferenceParticipant.muted).getD false
          isHost := (existing.map ConferenceParticipant.isHost).getD false } }

/-- A listed participant dials in. -/
def markRinging (s : ConferenceService) (roomId ext : String) : ConferenceService :=
  match s.getRoom roomId with
  | none => s
  | some room => s.setRoom roomId { room with
      participants := room.participants.modify ext fun p =>
        if p.state = .joined then p else { p with state := .ringing } }

/-- A participant is mixed into the room. -/
def markJoined (s : ConferenceService) (roomId ext name : String) (now : Nat) :
    ConferenceService :=
  match s.getRoom roomId with
  | none => s
  | some room =>
    let existing := room.participants.get? ext
    let known := (existing.map ConferenceParticipant.name).getD ""
    s.setRoom roomId { room with
      participants := room.participants.set ext
        { extension := ext
          name := if name ≠ "" then name else if known ≠ "" then known else ext
          state := .joined, joinedAt := some now
          muted := (existing.map ConferenceParticipant.muted).getD false
          isHost := (existing.map ConferenceParticipant.isHost).getD
            (room.participants.size = 0) } }

/-- Remove a participant, and the room when nobody in it is active any more. -/
def markLeft (s : ConferenceService) (roomId ext : String) : ConferenceService :=
  match s.getRoom roomId with
  | none => s
  | some room =>
    if room.participants.get? ext = none then s
    else
      let participants := room.participants.delete ext
      if participants.values.any ConferenceParticipant.active then
        s.setRoom roomId { room with participants }
      else ⟨s.rooms.delete roomId⟩

end ConferenceService

end CallNet
