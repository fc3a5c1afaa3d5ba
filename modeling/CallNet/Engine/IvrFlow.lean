import CallNet.Engine.DialPlan
import Mathlib.Data.List.Infix
import Mathlib.Data.Rat.Defs

/-!
# IVR flows

The flow graph of the builder (`sip/ivr/flow.types.ts`) and the pure helpers of its
interpreter (`sip/ivr/flow-runner.ts`).
-/

namespace CallNet

/-- What the caller hears: synthesized speech or an audio file. -/
inductive Prompt where
  | tts (text : Option String)
  | audio (audioFile : Option String)
deriving DecidableEq, Repr

/-- One menu choice; `id` is the source handle of its edge. -/
structure MenuOption where
  id : String
  digit : String
deriving DecidableEq, Repr

inductive ConditionVariable where
  | callerId
  | dialedNumber
  | lastDigit
  | digits
  | timeOfDay
  | dayOfWeek
  /-- `custom`, and anything else that was stored. -/
  | other
deriving DecidableEq, Repr

inductive ConditionOperator where
  | eq
  | neq
  | contains
  | startsWith
  | endsWith
  | regex
  | inRange
  | other
deriving DecidableEq, Repr

structure ConditionNodeData where
  conditionVariable : ConditionVariable
  operator : ConditionOperator
  value : Option String
  ignoreCase : Option Bool
deriving DecidableEq, Repr

/-- A provider of external meetings. -/
structure MeetingProvider where
  digit : String
  domain : String
deriving DecidableEq, Repr

/-- The data of a node, by its kind. -/
inductive NodeData where
  | start (greeting : Option Prompt)
  | menu (prompt : Option Prompt) (validDigits : Option String) (tries timeoutMs : Option Nat)
      (invalidPrompt : Option Prompt) (options : List MenuOption)
  | play (prompt : Option Prompt)
  | condition (data : ConditionNodeData)
  | transfer (department extension : Option String) (ringSeconds : Option Nat)
  | voicemail (mailbox : Option String) (maxSeconds : Option Nat) (greeting : Option Prompt)
  | email (connectorId recipient subject body : Option String)
  /-- `joinType` internal: a webhook turns the collected digits into the target. -/
  | meetingJoinInternal (prompt : Option Prompt) (apiUrl : Option String)
      (method : Option String)
  /-- `joinType` external: the collected digits at a provider's domain. -/
  | meetingJoinExternal (providerPrompt idPrompt : Option Prompt)
      (providers : List MeetingProvider)
  | hangup
  | unknown (kind : String)
deriving DecidableEq, Repr

structure IvrGraphNode where
  id : String
  data : NodeData
deriving DecidableEq, Repr

structure IvrGraphEdge where
  source : String
  target : String
  sourceHandle : Option String
deriving DecidableEq, Repr

/-- A complete flow. -/
structure IvrFlowGraph where
  id : String
  name : String
  extension : String
  enabled : Bool
  nodes : List IvrGraphNode
  edges : List IvrGraphEdge
deriving DecidableEq, Repr

/-- Functions of the JavaScript runtime and of the SIP library. -/
structure Runtime where
  parseUri : String → Option ParsedUri
  /-- `new RegExp(source, flags).test(subject)`; `none` when the pattern is invalid. -/
  regexTest : String → String → String → Option Bool
  /-- `Number(s)`; `none` unless it is finite. -/
  toNumber : String → Option Rat
  toLowerCase : String → String

/-! ## Graph helpers -/

def findStart (nodes : List IvrGraphNode) : Option IvrGraphNode :=
  nodes.find? fun n => match n.data with
    | .start _ => true
    | _ => false

/-- `new Map(nodes.map(n => [n.id, n])).get(id)`: the last node with the id. -/
def nodeById (nodes : List IvrGraphNode) (id : String) : Option IvrGraphNode :=
  nodes.reverse.find? fun n => n.id = id

/-- The first edge leaving `nodeId`, of a given source handle if there is one. -/
def edgeFrom (edges : List IvrGraphEdge) (nodeId : String) (handle : Option String) :
    Option IvrGraphEdge :=
  edges.find? fun e => e.source = nodeId ∧ (handle = none ∨ e.sourceHandle = handle)

/-- The node that the first edge out of `nodeId` leads to. -/
def IvrFlowGraph.next (flow : IvrFlowGraph) (nodeId : String) : Option IvrGraphNode :=
  nodeById flow.nodes (((edgeFrom flow.edges nodeId none).map IvrGraphEdge.target).getD "")

/-- The node a fallback edge leads to, if there is one. -/
def IvrFlowGraph.fallback (flow : IvrFlowGraph) (nodeId : String) : Option IvrGraphNode :=
  (edgeFrom flow.edges nodeId none).bind fun e => nodeById flow.nodes e.target

/-- The destination of a pressed menu digit. -/
def resolveMenuTarget (options : List MenuOption) (edges : List IvrGraphEdge) (nodeId digit : String) :
    Option String :=
  (options.find? fun o => o.digit = digit).bind fun o =>
    (edgeFrom edges nodeId (some o.id)).map IvrGraphEdge.target

/-- The facts a condition can look at. -/
structure ConditionFacts where
  callerId : String
  dialedNumber : String
  lastDigit : String
  digits : String
  /-- `now.getHours()` and `now.getDay()`. -/
  hours : Nat
  day : Nat

def evaluateCondition (rt : Runtime) (data : ConditionNodeData) (facts : ConditionFacts) : Bool :=
  let subject? : Option String := match data.conditionVariable with
    | .callerId => some facts.callerId
    | .dialedNumber => some facts.dialedNumber
    | .lastDigit => some facts.lastDigit
    | .digits => some facts.digits
    | .timeOfDay => some (toString facts.hours)
    | .dayOfWeek => some (toString facts.day)
    | .other => none
  match subject? with
  | none => false
  | some subject =>
    let target := data.value.getD ""
    let ci := data.ignoreCase.getD false
    let a := if ci then rt.toLowerCase subject else subject
    let b := if ci then rt.toLowerCase target else target
    match data.operator with
    | .eq => a = b
    | .neq => a ≠ b
    | .contains => decide (b.toList <:+: a.toList)
    | .startsWith => b.toList.isPrefixOf a.toList
    | .endsWith => b.toList.isSuffixOf a.toList
    | .regex => (rt.regexTest target (if ci then "i" else "") subject).getD false
    | .inRange =>
      match target.splitOn "," with
      | lo :: hi :: _ =>
        match rt.toNumber subject, rt.toNumber (trim lo), rt.toNumber (trim hi) with
        | some n, some lo, some hi => decide (lo ≤ n ∧ n ≤ hi)
        | _, _, _ => false
      | _ => false
    | .other => false

/-- The node a condition continues with: the edge labelled with the branch, else the
    first or second edge out. -/
def IvrFlowGraph.branch (flow : IvrFlowGraph) (nodeId : String) (truthy : Bool) :
    Option IvrGraphNode :=
  let branch := if truthy then "true" else "false"
  let outs := flow.edges.filter fun e => e.source = nodeId
  let handled := outs.find? fun e => e.sourceHandle.getD "" = branch
  let chosen := (handled.or outs[if truthy then 0 else 1]?).or outs[0]?
  chosen.bind fun e => nodeById flow.nodes e.target

/-! ## Prompts -/

/-- `[A-Za-z0-9._-]` -/
def isAudioChar (c : Char) : Bool := isAlnum c ∨ c = '.' ∨ c = '_' ∨ c = '-'

/-- A relative path of safe segments: `SAFE_AUDIO_FILE`. -/
def safeAudioFile (file : String) : Bool :=
  (file.splitOn "/").all fun segment => segment ≠ "" ∧ segment.toList.all isAudioChar

/-- A path that may be played: safe segments, none of them leading out of the directory. -/
def playableFile (file : String) : Bool :=
  !decide (['.', '.'] <:+: file.toList) && safeAudioFile file

/-- Render a prompt to one playable string, or `none` if it cannot be played. -/
def renderPrompt (basePath : String) : Option Prompt → Option String
  | none => none
  | some (.audio audioFile) =>
    let raw := trim (audioFile.getD "")
    let base := match basePath.toList.reverse with
      | '/' :: rest => String.ofList rest.reverse
      | _ => basePath
    if raw = "" then none
    else
      match stripPrefix? "system:".toList raw.toList with
      | some file =>
        let file := String.ofList file
        if playableFile file then some (base ++ "/" ++ file) else none
      | none => if playableFile raw then some (base ++ "/ivr/" ++ raw) else none
  | some (.tts text) =>
    let text := trim (text.getD "")
    if text = "" then none else some ("say:" ++ text)

/-- `\w` -/
def isWordChar (c : Char) : Bool := isAlnum c ∨ c = '_'

/-- The text of a built-in function. -/
def nativeText (name : String) : String :=
  "function " ++ name ++ "() \x7b [native code] \x7d"

/-- `Object.prototype`, from which every object inherits: its properties, as text. -/
def objectPrototype : List (String × String) :=
  [("constructor", nativeText "Object"), ("__proto__", "[object Object]")] ++
    ["__defineGetter__", "__defineSetter__", "hasOwnProperty", "__lookupGetter__",
      "__lookupSetter__", "isPrototypeOf", "propertyIsEnumerable", "toString", "valueOf",
      "toLocaleString"].map fun name => (name, nativeText name)

/-- `k in vars ? vars[k] : …`: `in` and the lookup both see inherited properties. -/
def propertyText (vars : List (String × String)) (k : String) : Option String :=
  (vars.lookup k).or (objectPrototype.lookup k)

/-- Substitute `${var}` placeholders; unknown variables are left as they are.
    `pending` holds, in reverse, the name read so far of a placeholder that is open. -/
def substituteChars (vars : List (String × String)) :
    Option (List Char) → List Char → List Char
  | none, [] => []
  | some name, [] => '$' :: '{' :: name.reverse
  | none, '$' :: '{' :: cs => substituteChars vars (some []) cs
  | none, c :: cs => c :: substituteChars vars none cs
  | some name, c :: cs =>
    if isWordChar c then substituteChars vars (some (c :: name)) cs
    else if c = '}' ∧ name ≠ [] then
      let key := String.ofList name.reverse
      let value := match propertyText vars key with
        | some v => v.toList
        | none => '$' :: '{' :: name.reverse ++ ['}']
      value ++ substituteChars vars none cs
    else
      match c, cs with
      -- a new placeholder may open right where this one fails
      | '$', '{' :: cs => '$' :: '{' :: name.reverse ++ substituteChars vars (some []) cs
      | c, cs => '$' :: '{' :: name.reverse ++ c :: substituteChars vars none cs

def substituteVars (template : String) (vars : List (String × String)) : String :=
  String.ofList (substituteChars vars none template.toList)

end CallNet
