import CallNet.Web.BuilderStore

/-!
# Saving from the builder

The flow editor while it talks to the API: `save` of the store, and `openFlow`, `createFlow`
and `back` of its page (`app/admin/ivr/page.tsx`).  A save is under way from its call until
its answer is there; in between the server accepts its flow or does not, and anything else
may happen.  The server is taken to keep a flow as it has accepted it.
-/

namespace CallNet.Web

/-- The flows that the server has, by their ids. -/
structure FlowServer where
  flows : String → Option IvrFlow
  ids : ∀ id flow, flows id = some flow → flow.id = id

/-- `POST /api/ivr/flows` -/
def FlowServer.accept (server : FlowServer) (flow : IvrFlow) : FlowServer where
  flows := fun id => if id = flow.id then some flow else server.flows id
  ids := by
    intro id flow' h
    split at h
    · cases h
      exact Eq.symm ‹_›
    · exact server.ids id flow' h

/-- How far a save has come. -/
inductive SaveStage where
  | sent
  /-- The server has the flow, the answer is on its way. -/
  | accepted
  | settled
deriving DecidableEq, Repr

structure SaveCall where
  flow : IvrFlow
  stage : SaveStage
deriving DecidableEq, Repr

/-- The editor, its requests and the server. -/
structure Editor where
  store : BuilderState
  saving : Bool
  server : FlowServer
  saves : List SaveCall
  /-- What `getFlow` has answered, until it is loaded. -/
  fetched : List (Option IvrFlow)

inductive EditorEvent where
  | edit (op : BuilderOp)
  | setReadOnly (v : Bool)
  | startNewFlow (name extension flowId nodeId : String)
  | reset
  /-- `openFlow`: the server answers `getFlow`. -/
  | fetch (id : String)
  /-- `openFlow`: the answer is loaded. -/
  | load (k : Nat)
  /-- A call of `save`. -/
  | save
  /-- The server accepts the flow of a save. -/
  | accept (k : Nat)
  /-- The answer to a save arrives. -/
  | answer (k : Nat)
  /-- A save fails, whether or not the server has accepted its flow. -/
  | fail (k : Nat)

namespace Editor

/-- The editor before it has opened a flow. -/
def init (server : FlowServer) : Editor where
  store :=
    { flowId := none, name := "", extension := "", enabled := true, nodes := [], edges := []
      selectedNodeId := none, clipboard := none, past := [], future := [], dirty := false
      readOnly := false, dragActive := false }
  saving := false
  server
  saves := []
  fetched := []

/-- The first part of `save`: a snapshot goes to the server. -/
def save (s : Editor) : Editor :=
  if s.store.readOnly then s
  else
    match s.store.flowId with
    | none => s
    | some id => { s with saving := true, saves := s.saves ++ [⟨s.store.payload id, .sent⟩] }

def setStage (s : Editor) (k : Nat) (call : SaveCall) (stage : SaveStage) : Editor :=
  { s with saves := s.saves.set k { call with stage } }

def step (rf : ReactFlow) (s : Editor) : EditorEvent → Option Editor
  | .edit op => some { s with store := s.store.apply rf op }
  | .setReadOnly v => some { s with store := s.store.setReadOnly v }
  | .startNewFlow name extension flowId nodeId =>
    some { s with
      store := (s.store.startNewFlow name extension flowId nodeId).setReadOnly false }
  | .reset => some { s with store := s.store.reset, saving := false }
  | .fetch id => some { s with fetched := s.fetched ++ [s.server.flows id] }
  | .load k =>
    match s.fetched[k]? with
    | some (some flow) =>
      some { s with
        store := (s.store.loadFlow flow).setReadOnly false
        fetched := s.fetched.set k none }
    | some none | none => none
  | .save => some s.save
  | .accept k =>
    match s.saves[k]? with
    | some call =>
      if call.stage = .sent then
        some ({ s with server := s.server.accept call.flow }.setStage k call .accepted)
      else none
    | none => none
  | .answer k =>
    match s.saves[k]? with
    | some call =>
      if call.stage = .accepted then
        -- whatever has happened to the store since the call
        some ({ s with store := { s.store with dirty := false }, saving := false }.setStage k call
          .settled)
      else none
    | none => none
  | .fail k =>
    match s.saves[k]? with
    | some call =>
      if call.stage = .settled then none
      else some ({ s with saving := false }.setStage k call .settled)
    | none => none

end Editor

end CallNet.Web
