import CallNet.Engine.Rating

/-!
# Answers to the carriers

The documents that answer a carrier's call where it is not put on a media stream:
`trunk/streaming/twiml.ts` for Twilio and `plivo.twiml.ts` for Plivo.
-/

namespace CallNet.Streaming

/-- `s.replace(/c/g, replacement)` -/
def replaceAll (s : String) (c : Char) (replacement : String) : String :=
  String.ofList (s.toList.flatMap fun d => if d = c then replacement.toList else [d])

/-- The reasons that a call can be declined with. -/
inductive DeclineReason where
  | rejected
  | busy
deriving DecidableEq, Repr

def DeclineReason.text : DeclineReason → String
  | .rejected => "rejected"
  | .busy => "busy"

structure VoicemailAnswer where
  greeting : String
  maxSeconds : Nat
  recordingCallbackUrl : String
deriving DecidableEq, Repr

def HEADER : String := "<?xml version=\"1.0\" encoding=\"UTF-8\"?>"

/-! ## Twilio -/

namespace Twiml

/-- Escape text/attribute content for safe inclusion in TwiML. -/
def esc (value : String) : String :=
  let value := replaceAll value '&' "&amp;"
  let value := replaceAll value '<' "&lt;"
  let value := replaceAll value '>' "&gt;"
  let value := replaceAll value '"' "&quot;"
  replaceAll value '\x27' "&apos;"

def rejectTwiml (reason : DeclineReason) : String :=
  HEADER ++ "<Response><Reject reason=\"" ++ reason.text ++ "\"/></Response>"

def sayHangupTwiml (text : String) : String :=
  HEADER ++ "<Response><Say>" ++ esc text ++ "</Say><Hangup/></Response>"

def forwardTwiml (target : String) (callerId : Option String) : String :=
  let cid := if truthy callerId then " callerId=\"" ++ esc (callerId.getD "") ++ "\"" else ""
  HEADER ++ "<Response><Dial answerOnBridge=\"true\"" ++ cid ++ ">" ++ esc target ++
    "</Dial></Response>"

def voicemailTwiml (opts : VoicemailAnswer) : String :=
  HEADER ++ "<Response>" ++
    "<Say>" ++ esc opts.greeting ++ "</Say>" ++
    "<Record maxLength=\"" ++ toString opts.maxSeconds ++
    "\" playBeep=\"true\" trim=\"trim-silence\"" ++
    " recordingStatusCallback=\"" ++ esc opts.recordingCallbackUrl ++ "\"" ++
    " recordingStatusCallbackEvent=\"completed\"/>" ++
    "<Hangup/>" ++
    "</Response>"

end Twiml

/-! ## Plivo -/

namespace PlivoTwiml

/-- Escape text/attribute content for safe inclusion in Plivo XML. -/
def esc (value : String) : String :=
  let value := replaceAll value '&' "&amp;"
  let value := replaceAll value '<' "&lt;"
  let value := replaceAll value '>' "&gt;"
  let value := replaceAll value '"' "&quot;"
  replaceAll value '\x27' "&apos;"

/-- Plivo has no verb to reject a call. -/
def rejectPlivo (reason : DeclineReason) : String :=
  HEADER ++ "<Response><Hangup reason=\"" ++ reason.text ++ "\"/></Response>"

def sayHangupPlivo (text : String) : String :=
  HEADER ++ "<Response><Speak>" ++ esc text ++ "</Speak><Hangup/></Response>"

def forwardPlivo (target : String) (callerId : Option String) : String :=
  let cid := if truthy callerId then " callerId=\"" ++ esc (callerId.getD "") ++ "\"" else ""
  HEADER ++ "<Response><Dial" ++ cid ++ "><Number>" ++ esc target ++
    "</Number></Dial></Response>"

def voicemailPlivo (opts : VoicemailAnswer) : String :=
  HEADER ++ "<Response>" ++
    "<Speak>" ++ esc opts.greeting ++ "</Speak>" ++
    "<Record maxLength=\"" ++ toString opts.maxSeconds ++ "\" playBeep=\"true\"" ++
    " action=\"" ++ esc opts.recordingCallbackUrl ++ "\" method=\"POST\"" ++
    " recordSession=\"false\" redirect=\"false\"/>" ++
    "<Hangup/>" ++
    "</Response>"

end PlivoTwiml

end CallNet.Streaming
