import CallNet.Engine.Database
import CallNet.Streaming.BrowserBridge

/-!
# Calls of a carrier

`decideCall` of `trunk/streaming/call-router.ts`: what the voice webhook answers when a call of
the carrier arrives, and the parameters that `respond` of `webhook.ts` puts on the stream of a
call that is bridged.
-/

namespace CallNet.Streaming

/-- Feature switches that gate the offline fallback branches. -/
structure CallRouterConfig where
  aiEnabled : Bool
  voicemailEnabled : Bool

inductive RejectReason where
  /-- `no-did` -/
  | noDid
  | blocked
  | unavailable
deriving DecidableEq, Repr

inductive CallDecision where
  | bridge (extension bridgeId : String)
  | ai (extension : String)
  | forward (extension target : String)
  | voicemail (extension : String)
  | reject (reason : RejectReason)
deriving DecidableEq, Repr

/-- What to do with a call to `calledNumber` from `callerNumber`. -/
def decideCall (d : Directory) (cfg : CallRouterConfig) (calledNumber callerNumber : String) :
    CallDecision :=
  match d.findPstnForwardTarget calledNumber with
  | none => .reject .noDid
  | some (user, target) =>
    let ext := user.extension
    if callerNumber ≠ "" ∧ d.isBlocked ext callerNumber then .reject .blocked
    else if (d.getRegistration target).isSome || (d.getRegistration ext).isSome then
      .bridge ext target
    else
      let fwd := d.getForwarding ext
      if truthy fwd.unavailable then .forward ext (fwd.unavailable.getD "")
      else if cfg.aiEnabled then .ai ext
      else if cfg.voicemailEnabled then .voicemail ext
      else .reject .unavailable

/-- The parameters of the stream of a bridged call. -/
def bridgeParameters (extension bridgeId callerNumber : String) : List (String × String) :=
  [("mode", "bridge"), ("bridgeId", bridgeId), ("extension", extension), ("from", callerNumber)]

/-- The start of a stream with these parameters, as the bridge reads it. -/
def startOf (parameters : List (String × String)) (streamId : String) (callId : Option String) :
    BridgeStart :=
  { streamId, callId, bridgeId := parameters.lookup "bridgeId",
    callerFrom := parameters.lookup "from" }

end CallNet.Streaming
