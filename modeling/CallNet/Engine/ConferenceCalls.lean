import CallNet.Engine.ConferenceService
import CallNet.Engine.ExtensionRouting

/-!
# Calls into conference rooms

The steps by which rooms change: messages of the signaling server
(`websocket/signaling.server.ts`), and calls that `sip/routes/conference.handler.ts` lets into a
room and `IvrSystem.joinConference` mixes into it.  A call awaits the media server three times
over; between two awaits anything else may happen, and the caller may hang up at any time.

The messages are those of an authenticated client, the INVITEs those of a registered caller
to a server with a media layer.
-/

namespace CallNet

/-- How far `joinConference` is. -/
inductive JoinPhase where
  /-- It awaits `ensureConnected`. -/
  | checking
  /-- It awaits the caller's answer and the announcement; nobody listens for `destroy` yet. -/
  | connecting
  /-- It awaits the mixer. -/
  | joining
  | mixed
  | failed
deriving DecidableEq, Repr

inductive ConferenceHook where
  | onJoined
  | onLeft
deriving DecidableEq, Repr

/-- A call that was let into a room. -/
structure ConferenceLeg where
  roomId : String
  extension : String
  name : String
  phase : JoinPhase := .checking
  hungUp : Bool := false
  /-- The hooks that were called, in order. -/
  hooks : List ConferenceHook := []
deriving DecidableEq, Repr

namespace ConferenceLeg

/-- `joinConference` has not returned. -/
def inFlight (leg : ConferenceLeg) : Bool :=
  leg.phase = .checking ∨ leg.phase = .connecting ∨ leg.phase = .joining

/-- The caller is in the mix. -/
def live (leg : ConferenceLeg) : Bool := leg.phase = .mixed ∧ leg.hungUp = false

end ConferenceLeg

/-- The rooms and the calls into them. -/
structure ConferenceSystem where
  service : ConferenceService
  legs : Nat → Option ConferenceLeg
  /-- The rooms that were dialed into since they were created. -/
  dialed : String → Bool

inductive ConferenceEvent where
  -- the signaling server
  | start (extension id : String) (name : Option String) (invitees : List String) (dir : Directory)
      (now : Nat)
  | invite (extension roomId target : String) (dir : Directory)
  | decline (extension roomId : String)
  | leave (extension roomId : String)
  -- the conference handler
  | dial (id : Nat) (extension name roomId : String) (now : Nat)
  | available (id : Nat)
  | unavailable (id : Nat)
  | connected (id : Nat)
  | connectFails (id : Nat)
  | joinSucceeds (id : Nat) (now : Nat)
  | joinFails (id : Nat)
  -- a caller, or its channel
  | hangsUp (id : Nat)

namespace ConferenceSystem

def init : ConferenceSystem := ⟨.empty, fun _ => none, fun _ => false⟩

def setLeg (s : ConferenceSystem) (id : Nat) (leg : ConferenceLeg) : ConferenceSystem :=
  { s with legs := fun id' => if id' = id then some leg else s.legs id' }

/-- The invitations of a new room: to users other than the host. -/
def inviteAll (service : ConferenceService) (host id : String) (dir : Directory) :
    List String → ConferenceService
  | [] => service
  | ext :: rest =>
    if ext = host ∨ (dir.getUser ext).isNone then inviteAll service host id dir rest
    else inviteAll (service.addInvite id ext (dir.nameOr ext)) host id dir rest

/-- The room has its maximum of members, and the caller is not listed. -/
def isFull (maxMembers : Int) (room : ConferenceRoom) (caller : String) : Bool :=
  0 ≤ maxMembers ∧ maxMembers ≤ room.joined.length ∧ room.participants.get? caller = none

/-- `onLeft` is called once for a leg. -/
def notifyLeft (s : ConferenceSystem) (id : Nat) (leg : ConferenceLeg) : ConferenceSystem :=
  if .onLeft ∈ leg.hooks then s.setLeg id leg
  else { s.setLeg id { leg with hooks := leg.hooks ++ [.onLeft] } with
    service := s.service.markLeft leg.roomId leg.extension }

/-- The handler of a conference call, until `joinConference` awaits for the first time. -/
def dial (maxMembers : Int) (s : ConferenceSystem) (id : Nat) (extension name roomId : String)
    (now : Nat) : ConferenceSystem :=
  let known := (s.service.getRoom roomId).isSome
  let service := s.service.ensureRoom roomId extension now
  match service.getRoom roomId with
  | none => s
  | some room =>
    if isFull maxMembers room extension then
      { s with service, dialed := fun r => s.dialed r ∨ r = roomId ∧ !known }
    else
      { setLeg s id { roomId, extension, name } with
        service := service.markRinging roomId extension
        dialed := fun r => s.dialed r ∨ r = roomId }

def step (maxMembers : Int) (s : ConferenceSystem) : ConferenceEvent → Option ConferenceSystem
  | .start host id name invitees dir now =>
    -- ids are generated until one is free
    if (s.service.getRoom id).isSome then none
    else
      let created := s.service.createRoom id host (dir.nameOr host) name now
      let invited := (invitees.map trim).filter fun ext => ext ≠ ""
      some { s with
        service := inviteAll created host id dir invited
        dialed := fun r => r ≠ id ∧ s.dialed r }
  | .invite extension roomId target dir =>
    let roomId := trim roomId
    let target := trim target
    match s.service.getRoom roomId with
    | none => some s
    | some room =>
      if roomId = "" ∨ target = "" ∨ !room.participants.has extension ∨ target = extension ∨
          (dir.getUser target).isNone then some s
      else some { s with service := s.service.addInvite roomId target (dir.nameOr target) }
  | .decline extension roomId | .leave extension roomId =>
    if trim roomId = "" then some s
    else some { s with service := s.service.markLeft (trim roomId) extension }
  | .dial id extension name roomId now =>
    if (s.legs id).isSome then none else some (dial maxMembers s id extension name roomId now)
  | .available id =>
    match s.legs id with
    | some leg =>
      if leg.phase = .checking then some (s.setLeg id { leg with phase := .connecting }) else none
    | none => none
  | .unavailable id =>
    match s.legs id with
    | some leg =>
      if leg.phase = .checking then some (s.setLeg id { leg with phase := .failed }) else none
    | none => none
  | .connected id =>
    match s.legs id with
    | some leg =>
      if leg.phase = .connecting then some (s.setLeg id { leg with phase := .joining }) else none
    | none => none
  | .connectFails id =>
    match s.legs id with
    | some leg =>
      if leg.phase = .connecting then some (s.notifyLeft id { leg with phase := .failed })
      else none
    | none => none
  | .joinSucceeds id now =>
    match s.legs id with
    | some leg =>
      if leg.phase = .joining then
        some { s.setLeg id { leg with phase := .mixed, hooks := leg.hooks ++ [.onJoined] } with
          service := s.service.markJoined leg.roomId leg.extension leg.name now }
      else none
    | none => none
  | .joinFails id =>
    match s.legs id with
    | some leg =>
      if leg.phase = .joining then some (s.notifyLeft id { leg with phase := .failed }) else none
    | none => none
  | .hangsUp id =>
    match s.legs id with
    | some leg =>
      if leg.hungUp ∨ leg.phase = .failed then none
      else if leg.phase = .joining ∨ leg.phase = .mixed then
        some (s.notifyLeft id { leg with hungUp := true })
      else some (s.setLeg id { leg with hungUp := true })
    | none => none

end ConferenceSystem

end CallNet
