/-!
# AI call handlers

`aiHandlers` of `trunk/streaming/ai/ai.handlers.ts` for one media session, with the transcribers
of `ai/registry.ts`.  `onStart` has been called and runs to its first await; from then on each
event settles one await or calls a handler.  The state of the call stays with the closures that
hold it when the map has let go of it.
-/

namespace CallNet.Streaming

inductive SttProvider where
  | speechmatics
  | deepgram
deriving DecidableEq, Repr

/-- A `SpeechmaticsTranscriber` or a `DeepgramTranscriber`. -/
structure Transcriber where
  provider : SttProvider
  /-- Whether `client` of the one, `ws` of the other, is set. -/
  connection : Bool
  /-- `active` of the one, `open` of the other. -/
  active : Bool
  /-- Frames that came before the socket of Deepgram was open. -/
  pending : List Nat
  /-- Frames that the provider was given. -/
  heard : List Nat
deriving DecidableEq, Repr

namespace Transcriber

def create (provider : SttProvider) : Transcriber :=
  { provider := provider, connection := false, active := false, pending := [], heard := [] }

def pushAudio (t : Transcriber) (frame : Nat) : Transcriber :=
  if t.active ∧ t.connection then { t with heard := t.heard ++ [frame] }
  else match t.provider with
    | .speechmatics => t
    | .deepgram => { t with pending := t.pending ++ [frame] }

/-- The connection is there. -/
def connected (t : Transcriber) : Transcriber :=
  { t with active := true, pending := [], heard := t.heard ++ t.pending }

/-- `stop`, and whether it awaits `stopRecognition`. -/
def stop (t : Transcriber) : Transcriber × Bool :=
  match t.provider with
  | .speechmatics =>
    if !t.connection || !t.active then (t, false) else ({ t with active := false }, true)
  | .deepgram =>
    if !t.connection then (t, false)
    else ({ t with connection := false, active := false }, false)

end Transcriber

structure CallState where
  transcriber : Transcriber
  /-- `brain.greeting`, empty if there is none. -/
  greeting : String
  closed : Bool
  /-- `transcriber.stop` was called. -/
  stopped : Bool
deriving DecidableEq, Repr

/-- What `onStart` awaits. -/
inductive StartPhase where
  | resolving
  /-- `createSpeechmaticsJWT` -/
  | token
  /-- `client.start` of Speechmatics, the open socket of Deepgram -/
  | connecting
  /-- The synthesis of the greeting. -/
  | greeting
  | settled
deriving DecidableEq, Repr

/-- What the handler of a final transcript awaits. -/
inductive Utterance where
  | responding
  | synthesizing
  | settled
deriving DecidableEq, Repr

inductive StopPhase where
  | notCalled
  /-- `stopRecognition` -/
  | pending
  | settled
deriving DecidableEq, Repr

structure AiCall where
  start : StartPhase
  stop : StopPhase
  /-- `calls` has the session. -/
  registered : Bool
  state : Option CallState
  /-- A connection was made, so transcripts may come. -/
  listening : Bool
  utterances : List Utterance
  /-- The calls of `session.sendAudio`, each with whether `onStop` had been called. -/
  sent : List (List UInt8 × Bool)
deriving DecidableEq, Repr

inductive AiEvent where
  /-- `resolveBrain` gives a brain; its provider's key may not be set. -/
  | resolved (provider : SttProvider) (greeting : String) (keySet : Bool)
  | resolveFailed
  | token
  | tokenFailed
  | connected
  | connectFailed
  | greeted (audio : List UInt8)
  | greetingFailed
  /-- A final transcript that is not blank. -/
  | transcript (text : String)
  | responded (utterance : Nat) (reply : String)
  | respondFailed (utterance : Nat)
  | synthesized (utterance : Nat) (audio : List UInt8)
  | synthesizeFailed (utterance : Nat)
  | onAudio (frame : Nat)
  /-- The open socket of Deepgram closes. -/
  | dropped
  | onStop
  /-- `stopRecognition` settles, one way or the other. -/
  | recognitionStopped
deriving DecidableEq, Repr

namespace AiCall

/-- `onStart` awaits `resolveBrain`. -/
def init : AiCall :=
  { start := .resolving, stop := .notCalled, registered := false, state := none, listening := false,
    utterances := [], sent := [] }

def withTranscriber (s : AiCall) (f : Transcriber → Transcriber) : AiCall :=
  { s with state := s.state.map fun c => { c with transcriber := f c.transcriber } }

/-- The end of `speak`: audio that is not empty is sent. -/
def sendAudio (s : AiCall) (audio : List UInt8) : AiCall :=
  if audio.length = 0 then s
  else { s with sent := s.sent ++ [(audio, decide (s.stop ≠ .notCalled))] }

/-- `calls.set` and the beginning of `transcriber.start`. -/
def onResolved (s : AiCall) (provider : SttProvider) (greeting : String) (keySet : Bool) : AiCall :=
  let state : CallState :=
    { transcriber := .create provider, greeting := greeting, closed := false, stopped := false }
  let s : AiCall := { s with state := some state, registered := true }
  if keySet then
    match provider with
    | .speechmatics => { s with start := .token }
    | .deepgram =>
      { s.withTranscriber fun t => { t with connection := true } with
        start := .connecting, listening := true }
  else { s with start := .settled }

/-- `transcriber.start` is done; the greeting comes next. -/
def onConnected (s : AiCall) (c : CallState) : AiCall :=
  { s.withTranscriber .connected with start := if c.greeting = "" then .settled else .greeting }

def onTranscript (s : AiCall) : AiCall :=
  match s.state with
  | some c => if c.closed then s else { s with utterances := s.utterances ++ [.responding] }
  | none => s

def setUtterance (s : AiCall) (i : Nat) (u : Utterance) : AiCall :=
  { s with utterances := s.utterances.set i u }

def onAudio (s : AiCall) (frame : Nat) : AiCall :=
  if s.registered then s.withTranscriber (·.pushAudio frame) else s

def onStop (s : AiCall) : AiCall :=
  match s.state with
  | some c =>
    if s.registered then
      let (transcriber, awaits) := c.transcriber.stop
      { s with
        state := some { c with transcriber := transcriber, closed := true, stopped := true }
        registered := false
        stop := if awaits then .pending else .settled }
    else { s with stop := .settled }
  | none => { s with stop := .settled }

def step (s : AiCall) : AiEvent → Option AiCall
  | .resolved provider greeting keySet =>
    if s.start = .resolving then some (s.onResolved provider greeting keySet) else none
  | .resolveFailed => if s.start = .resolving then some { s with start := .settled } else none
  | .token =>
    if s.start = .token then
      some { s.withTranscriber fun t => { t with connection := true } with
        start := .connecting, listening := true }
    else none
  | .tokenFailed => if s.start = .token then some { s with start := .settled } else none
  | .connected => s.state.bind fun c =>
    -- a socket of Deepgram that was closed before it opened does not open any more
    if s.start = .connecting ∧ c.transcriber.connection then some (s.onConnected c) else none
  | .connectFailed => if s.start = .connecting then some { s with start := .settled } else none
  | .greeted audio =>
    if s.start = .greeting then some { s.sendAudio audio with start := .settled } else none
  | .greetingFailed => if s.start = .greeting then some { s with start := .settled } else none
  | .transcript _ => if s.listening then some s.onTranscript else none
  | .responded i reply =>
    if s.utterances[i]? = some .responding then
      some (s.setUtterance i (if reply = "" then .settled else .synthesizing))
    else none
  | .respondFailed i =>
    if s.utterances[i]? = some .responding then some (s.setUtterance i .settled) else none
  | .synthesized i audio =>
    if s.utterances[i]? = some .synthesizing then
      some ((s.sendAudio audio).setUtterance i .settled)
    else none
  | .synthesizeFailed i =>
    if s.utterances[i]? = some .synthesizing then some (s.setUtterance i .settled) else none
  | .onAudio frame => some (s.onAudio frame)
  | .dropped => s.state.bind fun c =>
    if c.transcriber.provider = .deepgram ∧ c.transcriber.active then
      some (s.withTranscriber fun t => { t with active := false })
    else none
  | .onStop => if s.stop = .notCalled then some s.onStop else none
  | .recognitionStopped =>
    if s.stop = .pending then
      some { s.withTranscriber fun t => { t with connection := false } with stop := .settled }
    else none

end AiCall

end CallNet.Streaming
