/-!
# Media protocols

The wire codecs of `twilio.protocol.ts`, `plivo.protocol.ts` and `freeswitch.protocol.ts`, as far
as messages are decoded, over the values that `JSON.parse` gives.  What the audio says is left
out.  Of the format of a stream the conversions `Number(..)` are kept as far as they may throw.
-/

namespace CallNet.Streaming

/-- What `JSON.parse` gives; a number is told by its text. -/
inductive JsValue where
  | null
  | bool (b : Bool)
  | num (text : String)
  | str (s : String)
  | arr (elems : List JsValue)
  | obj (members : List (String × JsValue))

namespace JsValue

/-- `v.key` of a value that is not `null`, `none` for `undefined`; of two members of one name the
    last one counts. -/
def get (v : JsValue) (key : String) : Option JsValue :=
  match v with
  | .obj members => (members.reverse.find? fun m => m.1 = key).map Prod.snd
  | _ => none

/-- `v ?? d` -/
def coalesce (v : Option JsValue) (d : JsValue) : JsValue :=
  match v with
  | none | some .null => d
  | some v => v

def truthy : JsValue → Bool
  | .null => false
  | .bool b => b
  | .num text => text ≠ "0"
  | .str s => s ≠ ""
  | .arr _ | .obj _ => true

mutual

/-- `String(v)`, `none` if it throws: an object whose member `toString` is no function cannot be
    converted, and neither can an array that has one in it. -/
def toText : JsValue → Option String
  | .null => some "null"
  | .bool b => some (toString b)
  | .num text => some text
  | .str s => some s
  | .arr elems => (elemTexts elems).map (",".intercalate ·)
  | .obj members => if members.any fun m => m.1 = "toString" then none else some "[object Object]"

/-- The texts that `join` puts together. -/
def elemTexts : List JsValue → Option (List String)
  | [] => some []
  | .null :: es => (elemTexts es).map ("" :: ·)
  | e :: es => (toText e).bind fun t => (elemTexts es).map (t :: ·)

end

/-- `Number(v)` does not throw. -/
def converts (v : Option JsValue) : Bool :=
  match v with
  | some v => v.toText.isSome
  | none => true

end JsValue

inductive MediaProvider where
  | twilio
  | plivo
  | freeswitch
deriving DecidableEq, Repr

def selectProtocol (provider : String) : MediaProvider :=
  if provider = "plivo" then .plivo
  else if provider = "freeswitch" then .freeswitch
  else .twilio

/-- A `StreamStartMeta`. -/
structure StreamStartMeta where
  provider : MediaProvider
  streamId : JsValue
  callId : Option JsValue
  tracks : List JsValue
  parameters : JsValue

/-- The `start` event of Twilio or Plivo, which differ in the names of the ids and in where the
    parameters come from; `none` if a conversion throws. -/
def decodeStart (provider : MediaProvider) (streamKey callKey : String)
    (parameters : JsValue → JsValue) (msg : JsValue) : Option StreamStartMeta :=
  let start := JsValue.coalesce (msg.get "start") (.obj [])
  let fmt := JsValue.coalesce (start.get "mediaFormat") (.obj [])
  let described := (fmt.get "encoding").any JsValue.truthy
  if described && !(JsValue.converts (fmt.get "sampleRate") &&
      JsValue.converts (fmt.get "channels")) then none
  else some {
    provider := provider
    streamId := JsValue.coalesce (msg.get streamKey)
      (JsValue.coalesce (start.get streamKey) (.str ""))
    callId := start.get callKey
    tracks := match start.get "tracks" with
      | some (.arr tracks) => tracks
      | _ => []
    parameters := parameters start }

def decodeTwilioStart (msg : JsValue) : Option StreamStartMeta :=
  decodeStart .twilio "streamSid" "callSid"
    (fun start => JsValue.coalesce (start.get "customParameters") (.obj [])) msg

/-- The query of the connection's URL as an object. -/
def urlObject (urlParams : List (String × String)) : JsValue :=
  .obj (urlParams.map fun p => (p.1, .str p.2))

def decodePlivoStart (msg : JsValue) (urlParams : List (String × String)) :
    Option StreamStartMeta :=
  decodeStart .plivo "streamId" "callId" (fun _ => urlObject urlParams) msg

/-- The last part of the URL is the id. -/
def decodeFsStart (url : String) (urlParams : List (String × String)) : StreamStartMeta :=
  let parts := url.splitOn "/"
  let last := parts.getLastD ""
  let uuid := if last = "" then "unknown" else last
  { provider := .freeswitch, streamId := .str uuid, callId := some (.str uuid),
    tracks := [.str "inbound"], parameters := urlObject urlParams }

/-- `decodeTwilioMedia` and `decodePlivoMedia` do not throw; `bufferFrom` tells the values that
    `Buffer.from(.., "base64")` takes. -/
def decodesMedia (bufferFrom : JsValue → Bool) (msg : JsValue) : Bool :=
  let m := JsValue.coalesce (msg.get "media") (.obj [])
  bufferFrom (JsValue.coalesce (m.get "payload") (.str ""))

end CallNet.Streaming
