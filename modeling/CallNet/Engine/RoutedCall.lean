import CallNet.Engine.TrunkService
import CallNet.ForStd.EventLoop

/-!
# The legs of a routed call

`TrunkService.routeCall` on the event loop.  It awaits the outbound leg and then the caller's
leg, and ties the two together in the turn after that.  In between the caller may cancel or hang
up, and the trunk may hang up.
-/

namespace CallNet

open EventLoop (Task World turn)

inductive LegState where
  | absent
  /-- Its INVITE has no final response. -/
  | inviting
  | up (leg : Leg)
  | gone
deriving DecidableEq, Repr

/-- Somebody is still called, or talked to. -/
def LegState.live : LegState → Bool
  | .inviting | .up _ => true
  | .absent | .gone => false

def LegState.destroy (leg : Leg) (s : LegState) : LegState := if s = .up leg then .gone else s

/-- The PSTN leg and the caller's leg, and the listeners of `destroy` events. -/
structure Legs where
  pstn : LegState
  caller : LegState
  listeners : List (Leg × List DestroyAct)

namespace Legs

def destroy (s : Legs) (leg : Leg) : Legs :=
  { s with pstn := s.pstn.destroy leg, caller := s.caller.destroy leg }

/-- What a listener does to the legs. -/
def perform (s : Legs) : DestroyAct → Legs
  | .destroy leg => s.destroy leg
  | .endCall _ | .audit _ _ _ | .leaveConference _ _ | .endMeeting _ _ => s

/-- The other end hangs up: the dialog is gone, and its listeners run. -/
def hangUp (s : Legs) (leg : Leg) : Legs :=
  (s.listeners.filter fun l => l.1 = leg).foldl (fun s l => l.2.foldl perform s) (s.destroy leg)

/-- A final response to the caller. -/
def respond (s : Legs) (status : Nat) : Legs :=
  if 200 ≤ status ∧ s.caller = .inviting then { s with caller := .gone } else s

/-- What the effects of `routeCall` do to the legs.  The two requests are awaited. -/
def world : World effects Legs where
  now s
    | .send status _ _ => some ((), s.respond status)
    | .onDestroy leg acts => some ((), { s with listeners := s.listeners ++ [(leg, acts)] })
    | .destroy leg => some ((), s.destroy leg)
    | _ => none
  start s
    | .createUAC _ => { s with pstn := .inviting }
    | _ => s

/-- The caller's INVITE has come in. -/
def init : Legs := ⟨.absent, .inviting, []⟩

end Legs

/-- A call of `routeCall` with its legs. -/
structure RoutedCall where
  task : Task effects SipError Bool
  legs : Legs

inductive LegEvent where
  | trunkAnswers (uac : Leg)
  | trunkFails (err : SipError)
  /-- `createUAS` succeeds. -/
  | callerAnswered (uas : Leg)
  /-- `createUAS` fails. -/
  | callerFails (err : SipError)
  /-- `routeCall` goes on with the answer it awaited. -/
  | resume
  | callerCancels
  | callerHangsUp
  | trunkHangsUp
deriving DecidableEq, Repr

namespace RoutedCall

/-- `routeCall` is called. -/
def start (cfg : Config) (req : Request) (calledNumber : String) (callerId : Option String) :
    RoutedCall :=
  let (task, legs) := turn Legs.world (routeCall cfg req calledNumber callerId) .init
  ⟨task, legs⟩

def step (s : RoutedCall) : LegEvent → Option RoutedCall
  | .trunkAnswers uac =>
    match s.task with
    | .awaiting (.createUAC invite) k =>
      some ⟨.settled (.createUAC invite) (.ok uac) k, { s.legs with pstn := .up uac }⟩
    | _ => none
  | .trunkFails err =>
    match s.task with
    | .awaiting (.createUAC invite) k =>
      some ⟨.settled (.createUAC invite) (.error err) k, { s.legs with pstn := .gone }⟩
    | _ => none
  | .callerAnswered uas =>
    match s.task with
    | .awaiting (.createUAS localSdp) k =>
      -- the two dialogs are different ones
      if s.legs.pstn = .up uas then none
      else some ⟨.settled (.createUAS localSdp) (.ok uas) k, { s.legs with caller := .up uas }⟩
    | _ => none
  | .callerFails err =>
    match s.task with
    | .awaiting (.createUAS localSdp) k =>
      some ⟨.settled (.createUAS localSdp) (.error err) k, s.legs⟩
    | _ => none
  | .resume =>
    match s.task with
    | .settled _ x k =>
      let (task, legs) := turn Legs.world (k x) s.legs
      some ⟨task, legs⟩
    | _ => none
  | .callerCancels =>
    match s.legs.caller with
    | .inviting => some { s with legs := { s.legs with caller := .gone } }
    | _ => none
  | .callerHangsUp =>
    match s.legs.caller with
    | .up uas => some { s with legs := s.legs.hangUp uas }
    | _ => none
  | .trunkHangsUp =>
    match s.legs.pstn with
    | .up uac => some { s with legs := s.legs.hangUp uac }
    | _ => none

end RoutedCall

end CallNet
