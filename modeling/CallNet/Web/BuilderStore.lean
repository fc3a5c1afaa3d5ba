import CallNet.ForStd.UndoHistory
import Mathlib.Data.Rat.Defs

/-!
# The IVR builder

The store of the flow editor (`app/admin/ivr/store/builder.store.ts`) and the node data it
creates (`ivr.constants.ts`).  The ids that the store makes from the clock, from counters and at
random are given to the operations; what the store leaves to React Flow is a parameter.
-/

namespace CallNet.Web

/-! ## Flow graphs -/

inductive IvrNodeKind where
  | start
  | menu
  | play
  | condition
  | transfer
  | voicemail
  | email
  | aiAgent
  | meetingJoin
  | hangup
deriving DecidableEq, Repr

/-- Spoken text or an uploaded audio file. -/
inductive Prompt where
  | tts (text : Option String)
  | audio (audioFile : Option String)
deriving DecidableEq, Repr

def emptyPrompt (text : String) : Prompt := .tts (some text)

/-- A choice of a menu; its id is the source handle of its edge. -/
structure MenuOption where
  id : String
  digit : Char
  label : String
deriving DecidableEq, Repr

structure MenuNodeData where
  label : String
  prompt : Prompt
  validDigits : String
  tries : Nat
  timeoutMs : Nat
  invalidPrompt : Option Prompt
  options : List MenuOption
deriving DecidableEq, Repr

structure MeetingProvider where
  digit : String
  domain : String
deriving DecidableEq, Repr

/-- The data of a node, by its kind. -/
inductive IvrNodeData where
  | start (label extension : String) (greeting : Prompt)
  | menu (data : MenuNodeData)
  | play (label : String) (prompt : Prompt) (bargeIn : Bool)
  | condition (label testVariable : String) (customVariable : Option String)
      (operator value : String) (ignoreCase : Bool)
  | transfer (label : String) (department extension : Option String) (attended : Bool)
      (ringSeconds : Nat)
  | voicemail (label : String) (mailbox : Option String) (maxSeconds : Nat) (greeting : Prompt)
  | email (label connectorId recipient subject body : String)
  | aiAgent (label agentId : String)
  | meetingJoin (label joinType : String) (prompt : Option Prompt) (apiUrl method : Option String)
      (providerPrompt idPrompt : Option Prompt) (providers : Option (List MeetingProvider))
  | hangup (label : String)
deriving DecidableEq, Repr

namespace IvrNodeData

def kind : IvrNodeData → IvrNodeKind
  | start .. => .start
  | menu _ => .menu
  | play .. => .play
  | condition .. => .condition
  | transfer .. => .transfer
  | voicemail .. => .voicemail
  | email .. => .email
  | aiAgent .. => .aiAgent
  | meetingJoin .. => .meetingJoin
  | hangup _ => .hangup

/-- The data of a menu. -/
def menu? : IvrNodeData → Option MenuNodeData
  | menu data => some data
  | _ => none

end IvrNodeData

structure XYPosition where
  x : Rat
  y : Rat
deriving DecidableEq, Repr

/-- What React Flow keeps on a node or an edge for its view: selection and measured size. -/
structure ViewState where
  selected : Bool := false
  size : Option (Rat × Rat) := none
deriving DecidableEq, Repr

structure IvrNode where
  id : String
  type : IvrNodeKind
  position : XYPosition
  data : IvrNodeData
  deletable : Option Bool := none
  view : ViewState := {}
deriving DecidableEq, Repr

structure IvrEdge where
  id : String
  source : String
  target : String
  sourceHandle : Option String
  targetHandle : Option String
  view : ViewState := {}
deriving DecidableEq, Repr

/-- A node of a stored flow, which may have been saved without its layout. -/
structure StoredNode where
  id : String
  type : IvrNodeKind
  position : Option XYPosition
  data : IvrNodeData
  deletable : Option Bool := none
  view : ViewState := {}
deriving DecidableEq, Repr

/-- A node as it is sent. -/
def IvrNode.stored (n : IvrNode) : StoredNode :=
  { id := n.id, type := n.type, position := some n.position, data := n.data
    deletable := n.deletable, view := n.view }

structure IvrFlow where
  id : String
  name : String
  extension : String
  enabled : Bool
  nodes : List StoredNode
  edges : List IvrEdge
deriving DecidableEq, Repr

/-- A node with a position, on a diagonal when it has none of its own. -/
def withSafePosition (node : StoredNode) (i : Nat) : IvrNode :=
  { id := node.id, type := node.type, data := node.data, deletable := node.deletable
    view := node.view
    position := node.position.getD ⟨80 + i * 240, 80 + i * 140⟩ }

/-- The nodes of a flow as the editor takes them. -/
def loadNodes (nodes : List StoredNode) : List IvrNode :=
  nodes.mapIdx fun i n =>
    let node := withSafePosition n i
    if node.type = .start then { node with deletable := some false } else node

/-! ## Node data -/

/-- `makeMenuOption` with the id it has made. -/
def makeMenuOption (id : String) (digit : Char) (label : String) : MenuOption := ⟨id, digit, label⟩

/-- The data of a new node; `fresh` are the ids of its options. -/
def defaultNodeData (kind : IvrNodeKind) (extension : String) (fresh : Nat → String) :
    IvrNodeData :=
  match kind with
  | .start => .start "Start" extension (emptyPrompt "Welcome to Enjoys Voice.")
  | .menu => .menu
    { label := "Main menu"
      prompt := emptyPrompt "Press 1 for Sales. Press 2 for Support."
      validDigits := "12"
      tries := 2
      timeoutMs := 7000
      invalidPrompt := none
      options := [makeMenuOption (fresh 0) '1' "Sales", makeMenuOption (fresh 1) '2' "Support"] }
  | .play => .play "Play message" (emptyPrompt "Thank you for calling.") true
  | .condition => .condition "Condition" "caller_id" none "contains" "" true
  | .transfer => .transfer "Transfer" none none false 30
  | .voicemail =>
    .voicemail "Voicemail" none 120 (emptyPrompt "Please leave a message after the tone.")
  | .email =>
    .email "Send email" "" "" "New IVR call" "A caller reached this step in the IVR flow."
  | .aiAgent => .aiAgent "AI agent" ""
  | .meetingJoin => .meetingJoin "Join meeting" "external" none none none
    (some (emptyPrompt "Press 1 for Zoom, 2 for Google Meet."))
    (some (emptyPrompt "Enter your meeting ID, followed by the pound key."))
    (some [⟨"1", "zoomcrc.com"⟩, ⟨"2", "meet.google.com"⟩])
  | .hangup => .hangup "Hang up"

/-- The new data is of the kind asked for. -/
theorem kind_defaultNodeData (kind : IvrNodeKind) (extension : String) (fresh : Nat → String) :
    (defaultNodeData kind extension fresh).kind = kind := by
  cases kind <;> rfl

/-- A copy whose menu options have ids of their own. -/
def cloneNodeData (data : IvrNodeData) (fresh : Nat → String) : IvrNodeData :=
  match data with
  | .menu menu => .menu { menu with options := menu.options.mapIdx fun i o => { o with id := fresh i } }
  | data => data

/-- A menu with other options and the digits of these. -/
def MenuNodeData.withOptions (data : MenuNodeData) (options : List MenuOption) : MenuNodeData :=
  { data with options, validDigits := String.ofList (options.map MenuOption.digit) }

/-- A change to an option; a missing field is kept. -/
structure MenuOptionPatch where
  digit : Option Char := none
  label : Option String := none
deriving DecidableEq, Repr

def MenuOption.apply (o : MenuOption) (patch : MenuOptionPatch) : MenuOption :=
  { o with digit := patch.digit.getD o.digit, label := patch.label.getD o.label }

/-- The node with another menu, if it is the menu of the given id. -/
def IvrNode.mapMenu (nodeId : String) (f : MenuNodeData → MenuNodeData) (n : IvrNode) : IvrNode :=
  match n.data with
  | .menu data => if n.id = nodeId then { n with data := .menu (f data) } else n
  | _ => n

/-! ## React Flow -/

inductive NodeChange where
  | select (id : String) (selected : Bool)
  | dimensions (id : String) (size : Option (Rat × Rat))
  | position (id : String) (position : Option XYPosition) (dragging : Option Bool)
  | remove (id : String)
  | add (node : IvrNode)
  | replace (id : String) (node : IvrNode)
deriving DecidableEq, Repr

inductive EdgeChange where
  | select (id : String) (selected : Bool)
  | remove (id : String)
  | add (edge : IvrEdge)
  | replace (id : String) (edge : IvrEdge)
deriving DecidableEq, Repr

structure Connection where
  source : String
  target : String
  sourceHandle : Option String
  targetHandle : Option String
deriving DecidableEq, Repr

/-- A change of selection or of measured size. -/
def NodeChange.IsView : NodeChange → Bool
  | .select .. | .dimensions .. => true
  | .position .. | .remove _ | .add _ | .replace .. => false

def NodeChange.IsRemove : NodeChange → Bool
  | .remove _ => true
  | _ => false

/-- A move with the given `dragging`. -/
def NodeChange.Dragging (dragging : Bool) : NodeChange → Bool
  | .position _ _ d => d = some dragging
  | _ => false

def EdgeChange.IsView : EdgeChange → Bool
  | .select .. => true
  | .remove _ | .add _ | .replace .. => false

def EdgeChange.IsRemove : EdgeChange → Bool
  | .remove _ => true
  | _ => false

/-- A node or an edge apart from its view. -/
def IvrNode.content (n : IvrNode) : IvrNode := { n with view := {} }

def IvrEdge.content (e : IvrEdge) : IvrEdge := { e with view := {} }

/-- The functions of `@xyflow/react`.  Selecting and measuring change the view of nodes and edges
    only. -/
structure ReactFlow where
  applyNodeChanges : List NodeChange → List IvrNode → List IvrNode
  applyEdgeChanges : List EdgeChange → List IvrEdge → List IvrEdge
  addEdge : Connection → List IvrEdge → List IvrEdge
  content_applyNodeChanges : ∀ changes nodes, (∀ c ∈ changes, c.IsView = true) →
    (applyNodeChanges changes nodes).map IvrNode.content = nodes.map IvrNode.content
  content_applyEdgeChanges : ∀ changes edges, (∀ c ∈ changes, c.IsView = true) →
    (applyEdgeChanges changes edges).map IvrEdge.content = edges.map IvrEdge.content

/-! ## The store -/

structure HistorySnapshot where
  nodes : List IvrNode
  edges : List IvrEdge
deriving DecidableEq, Repr

def HISTORY_LIMIT : Nat := 50

structure BuilderState where
  flowId : Option String
  name : String
  extension : String
  enabled : Bool
  nodes : List IvrNode
  edges : List IvrEdge
  selectedNodeId : Option String
  clipboard : Option IvrNodeData
  past : List HistorySnapshot
  future : List HistorySnapshot
  dirty : Bool
  readOnly : Bool
  /-- A node is being dragged (a variable of the module). -/
  dragActive : Bool
deriving DecidableEq, Repr

/-- A partial change of the flow's meta data. -/
structure MetaPatch where
  name : Option String := none
  extension : Option String := none
  enabled : Option Bool := none
deriving DecidableEq, Repr

/-- What `normalizeImport` makes of a file. -/
structure ImportedFlow where
  name : String
  extension : String
  enabled : Bool
  nodes : List StoredNode
  edges : List IvrEdge
deriving DecidableEq, Repr

namespace BuilderState

def snapshot (s : BuilderState) : HistorySnapshot := ⟨s.nodes, s.edges⟩

/-- Record the current graph as an undo checkpoint. -/
def pushHistory (s : BuilderState) : BuilderState :=
  { s with
    past := (s.past ++ [s.snapshot]).drop (s.past.length + 1 - HISTORY_LIMIT)
    future := [] }

def loadFlow (s : BuilderState) (flow : IvrFlow) : BuilderState :=
  { s with
    flowId := some flow.id
    name := flow.name
    extension := flow.extension
    enabled := flow.enabled
    nodes := loadNodes flow.nodes
    edges := flow.edges
    selectedNodeId := none
    past := []
    future := []
    dirty := false }

/-- The start node of a new flow. -/
def startNode (id extension : String) : IvrNode :=
  { id, type := .start, position := ⟨80, 200⟩
    data := defaultNodeData .start extension fun _ => ""
    deletable := some false }

/-- `startNewFlow`, with the ids that `createEmptyFlow` makes. -/
def startNewFlow (s : BuilderState) (name extension flowId nodeId : String) : BuilderState :=
  { s with
    flowId := some flowId
    name, extension
    enabled := true
    nodes := [startNode nodeId extension]
    edges := []
    selectedNodeId := none
    past := []
    future := []
    dirty := true }

def reset (s : BuilderState) : BuilderState :=
  { s with
    flowId := none
    name := ""
    extension := ""
    enabled := true
    nodes := []
    edges := []
    selectedNodeId := none
    past := []
    future := []
    dirty := false }

def setReadOnly (s : BuilderState) (v : Bool) : BuilderState := { s with readOnly := v }

/-- The flow that `save` sends. -/
def payload (s : BuilderState) (id : String) : IvrFlow :=
  { id, name := s.name, extension := s.extension, enabled := s.enabled
    nodes := s.nodes.map IvrNode.stored
    edges := s.edges }

def setMeta (s : BuilderState) (patch : MetaPatch) : BuilderState :=
  if s.readOnly then s
  else
    { s with
      name := patch.name.getD s.name
      extension := patch.extension.getD s.extension
      enabled := patch.enabled.getD s.enabled
      dirty := true }

/-- `importFlow`; `parsed` is what `normalizeImport` makes of the file. -/
def importFlow (s : BuilderState) (parsed : Option ImportedFlow) : BuilderState :=
  if s.readOnly then s
  else
    match parsed with
    | none => s
    | some flow =>
      { s.pushHistory with
        name := if flow.name ≠ "" then flow.name else s.name
        extension := if flow.extension ≠ "" then flow.extension else s.extension
        enabled := flow.enabled
        nodes := loadNodes flow.nodes
        edges := flow.edges
        selectedNodeId := none
        dirty := true }

section React

variable (rf : ReactFlow)

def onNodesChange (s : BuilderState) (changes : List NodeChange) : BuilderState :=
  if s.readOnly then { s with nodes := rf.applyNodeChanges (changes.filter NodeChange.IsView) s.nodes }
  else
    let hasRemove := changes.any NodeChange.IsRemove
    let dragStart := changes.any (NodeChange.Dragging true)
    let dragEnd := changes.any (NodeChange.Dragging false)
    let started := !hasRemove && dragStart && !s.dragActive
    let hist := if hasRemove || started then s.pushHistory else s
    { hist with
      nodes := rf.applyNodeChanges changes s.nodes
      dragActive := (s.dragActive || started) && !dragEnd
      dirty := true }

def onEdgesChange (s : BuilderState) (changes : List EdgeChange) : BuilderState :=
  if s.readOnly then { s with edges := rf.applyEdgeChanges (changes.filter EdgeChange.IsView) s.edges }
  else
    let hist := if changes.any EdgeChange.IsRemove then s.pushHistory else s
    { hist with edges := rf.applyEdgeChanges changes s.edges, dirty := true }

/-- A source handle leads to one target: an edge it had before is replaced. -/
def onConnect (s : BuilderState) (connection : Connection) : BuilderState :=
  if s.readOnly then s
  else
    { s.pushHistory with
      edges := rf.addEdge connection (s.edges.filter fun e =>
        ¬(e.source = connection.source ∧ e.sourceHandle = connection.sourceHandle))
      dirty := true }

end React

/-! ### Nodes and edges -/

def addNode (s : BuilderState) (kind : IvrNodeKind) (position : Option XYPosition) (id : String)
    (fresh : Nat → String) : BuilderState :=
  if s.readOnly then s
  else
    let node : IvrNode :=
      { id, type := kind, position := position.getD ⟨360, 80 + s.nodes.length * 40⟩
        data := defaultNodeData kind s.extension fresh }
    { s.pushHistory with nodes := s.nodes ++ [node], selectedNodeId := some id, dirty := true }

/-- `updateNodeData`; `patch` is `{ ...data, ...patch }` as a function of the data. -/
def updateNodeData (s : BuilderState) (id : String) (patch : IvrNodeData → IvrNodeData) :
    BuilderState :=
  if s.readOnly then s
  else
    { s with
      nodes := s.nodes.map fun n => if n.id = id then { n with data := patch n.data } else n
      dirty := true }

def removeNode (s : BuilderState) (id : String) : BuilderState :=
  if s.readOnly then s
  else if (s.nodes.find? fun n => n.id = id).any fun n => n.type = .start then s
  else
    { s.pushHistory with
      nodes := s.nodes.filter fun n => n.id ≠ id
      edges := s.edges.filter fun e => e.source ≠ id ∧ e.target ≠ id
      selectedNodeId := if s.selectedNodeId = some id then none else s.selectedNodeId
      dirty := true }

def removeEdge (s : BuilderState) (id : String) : BuilderState :=
  if s.readOnly then s
  else { s.pushHistory with edges := s.edges.filter fun e => e.id ≠ id, dirty := true }

def selectNode (s : BuilderState) (id : Option String) : BuilderState :=
  { s with selectedNodeId := id }

/-- The first node of the id, unless its data is that of a start node. -/
def copyable (s : BuilderState) (id : String) : Option IvrNode :=
  (s.nodes.find? fun n => n.id = id).filter fun n => n.data.kind ≠ .start

def copyNode (s : BuilderState) (id : String) (fresh : Nat → String) : BuilderState :=
  match s.copyable id with
  | none => s
  | some node => { s with clipboard := some (cloneNodeData node.data fresh) }

def cutNode (s : BuilderState) (id : String) (fresh : Nat → String) : BuilderState :=
  match s.copyable id with
  | none => s
  | some node => { s with clipboard := some (cloneNodeData node.data fresh) }.removeNode id

def pasteNode (s : BuilderState) (position : Option XYPosition) (id : String)
    (fresh : Nat → String) : BuilderState :=
  match s.clipboard.filter fun data => data.kind ≠ .start with
  | none => s
  | some copied =>
    let data := cloneNodeData copied fresh
    let node : IvrNode :=
      { id, type := data.kind, position := position.getD ⟨380, 120 + s.nodes.length * 28⟩, data }
    { s.pushHistory with nodes := s.nodes ++ [node], selectedNodeId := some id, dirty := true }

def duplicateNode (s : BuilderState) (id newId : String) (fresh : Nat → String) : BuilderState :=
  match s.copyable id with
  | none => s
  | some node =>
    let data := cloneNodeData node.data fresh
    let copy : IvrNode :=
      { id := newId, type := data.kind, position := ⟨node.position.x + 48, node.position.y + 48⟩
        data }
    { s.pushHistory with nodes := s.nodes ++ [copy], selectedNodeId := some newId, dirty := true }

/-- Keep the start node only. -/
def clearAll (s : BuilderState) : BuilderState :=
  { s.pushHistory with
    nodes := (s.nodes.find? fun n => n.type = .start).toList
    edges := []
    selectedNodeId := none
    dirty := true }

/-! ### Undo and redo -/

def undo (s : BuilderState) : BuilderState :=
  match s.past.getLast? with
  | none => s
  | some previous =>
    { s with
      past := s.past.dropLast
      future := (s.snapshot :: s.future).take HISTORY_LIMIT
      nodes := previous.nodes
      edges := previous.edges
      selectedNodeId := none
      dirty := true }

def redo (s : BuilderState) : BuilderState :=
  match s.future with
  | [] => s
  | next :: future =>
    { s with
      past := (s.past ++ [s.snapshot]).drop (s.past.length + 1 - HISTORY_LIMIT)
      future
      nodes := next.nodes
      edges := next.edges
      selectedNodeId := none
      dirty := true }

/-! ### Menu options -/

def addMenuOption (s : BuilderState) (nodeId : String) (digit : Char) (optionId : String) :
    BuilderState :=
  { s.pushHistory with
    nodes := s.nodes.map (IvrNode.mapMenu nodeId fun data =>
      data.withOptions (data.options ++ [makeMenuOption optionId digit ""]))
    dirty := true }

def updateMenuOption (s : BuilderState) (nodeId optionId : String) (patch : MenuOptionPatch) :
    BuilderState :=
  { s with
    nodes := s.nodes.map (IvrNode.mapMenu nodeId fun data =>
      data.withOptions (data.options.map fun o => if o.id = optionId then o.apply patch else o))
    dirty := true }

/-- The edges of the option's handle go with it. -/
def removeMenuOption (s : BuilderState) (nodeId optionId : String) : BuilderState :=
  { s.pushHistory with
    nodes := s.nodes.map (IvrNode.mapMenu nodeId fun data =>
      data.withOptions (data.options.filter fun o => o.id ≠ optionId))
    edges := s.edges.filter fun e => ¬(e.source = nodeId ∧ e.sourceHandle = some optionId)
    dirty := true }

end BuilderState

/-! ## Operations -/

/-- The operations on the graph, on its meta data and on what is selected or copied, with the ids
    that they make. -/
inductive BuilderOp where
  | setMeta (patch : MetaPatch)
  | importFlow (parsed : Option ImportedFlow)
  | onNodesChange (changes : List NodeChange)
  | onEdgesChange (changes : List EdgeChange)
  | onConnect (connection : Connection)
  | addNode (kind : IvrNodeKind) (position : Option XYPosition) (id : String)
      (fresh : Nat → String)
  | updateNodeData (id : String) (patch : IvrNodeData → IvrNodeData)
  | removeNode (id : String)
  | removeEdge (id : String)
  | selectNode (id : Option String)
  | copyNode (id : String) (fresh : Nat → String)
  | cutNode (id : String) (fresh : Nat → String)
  | pasteNode (position : Option XYPosition) (id : String) (fresh : Nat → String)
  | duplicateNode (id newId : String) (fresh : Nat → String)
  | clearAll
  | undo
  | redo
  | addMenuOption (nodeId : String) (digit : Char) (optionId : String)
  | updateMenuOption (nodeId optionId : String) (patch : MenuOptionPatch)
  | removeMenuOption (nodeId optionId : String)

/-- The store after an operation. -/
def BuilderState.apply (rf : ReactFlow) (s : BuilderState) : BuilderOp → BuilderState
  | .setMeta patch => s.setMeta patch
  | .importFlow parsed => s.importFlow parsed
  | .onNodesChange changes => s.onNodesChange rf changes
  | .onEdgesChange changes => s.onEdgesChange rf changes
  | .onConnect connection => s.onConnect rf connection
  | .addNode kind position id fresh => s.addNode kind position id fresh
  | .updateNodeData id patch => s.updateNodeData id patch
  | .removeNode id => s.removeNode id
  | .removeEdge id => s.removeEdge id
  | .selectNode id => s.selectNode id
  | .copyNode id fresh => s.copyNode id fresh
  | .cutNode id fresh => s.cutNode id fresh
  | .pasteNode position id fresh => s.pasteNode position id fresh
  | .duplicateNode id newId fresh => s.duplicateNode id newId fresh
  | .clearAll => s.clearAll
  | .undo => s.undo
  | .redo => s.redo
  | .addMenuOption nodeId digit optionId => s.addMenuOption nodeId digit optionId
  | .updateMenuOption nodeId optionId patch => s.updateMenuOption nodeId optionId patch
  | .removeMenuOption nodeId optionId => s.removeMenuOption nodeId optionId

end CallNet.Web
