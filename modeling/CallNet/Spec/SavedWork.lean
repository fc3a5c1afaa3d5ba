import CallNet.Spec.ReadOnlyBuilder
import CallNet.Web.BuilderSaves

/-!
# What the builder shows as saved

The answer to a save clears `dirty`, whatever the store holds by then and whatever else the
server has accepted meanwhile.  `reported_throughout` says how far a run may go for the store
still to hold what the server has, whenever it shows no unsaved changes.
-/

namespace CallNet.Web

open Machine (Meets Throughout)

/-- The flow that the editor makes of a stored one, apart from its view. -/
def IvrFlow.content (flow : IvrFlow) : FlowContent :=
  { nodes := (loadNodes flow.nodes).map IvrNode.content
    edges := flow.edges.map IvrEdge.content
    name := flow.name
    extension := flow.extension
    enabled := flow.enabled }

/-! ## Storing and loading -/

/-- The start node cannot be deleted. -/
def IvrNode.protect (n : IvrNode) : IvrNode :=
  if n.type = .start then { n with deletable := some false } else n

theorem protect_protect (n : IvrNode) : n.protect.protect = n.protect := by
  by_cases h : n.type = .start <;> simp [IvrNode.protect, h]

theorem content_protect (n : IvrNode) : n.protect.content = n.content.protect := by
  by_cases h : n.type = .start <;> simp [IvrNode.protect, IvrNode.content, h]

theorem loadNodes_eq_mapIdx (nodes : List StoredNode) :
    loadNodes nodes = nodes.mapIdx fun i n => (withSafePosition n i).protect := rfl

theorem loadNodes_stored (nodes : List IvrNode) :
    loadNodes (nodes.map IvrNode.stored) = nodes.map IvrNode.protect := by
  rw [loadNodes_eq_mapIdx, List.mapIdx_eq_iff]
  intro i
  rw [List.getElem?_map, List.getElem?_map, Option.map_map]
  rfl

theorem map_protect_loadNodes (nodes : List StoredNode) :
    (loadNodes nodes).map IvrNode.protect = loadNodes nodes := by
  rw [loadNodes_eq_mapIdx]
  refine (List.mapIdx_eq_iff.mpr fun i => ?_).symm
  rw [List.getElem?_map, List.getElem?_mapIdx, Option.map_map]
  refine congrArg (fun f => Option.map f nodes[i]?) (funext fun n => ?_)
  exact protect_protect _

section Payload

variable {s t : BuilderState}

/-- What is sent depends on the content of the store only. -/
theorem content_payload_congr (h : s.content = t.content) (id id' : String) :
    (s.payload id).content = (t.payload id').content := by
  have hnodes : s.nodes.map IvrNode.content = t.nodes.map IvrNode.content :=
    congrArg FlowContent.nodes h
  have hprotect (nodes : List IvrNode) : (nodes.map IvrNode.protect).map IvrNode.content =
      (nodes.map IvrNode.content).map IvrNode.protect := by
    rw [List.map_map, List.map_map]
    exact List.map_congr_left fun n _ => content_protect n
  unfold IvrFlow.content BuilderState.payload
  simp only [loadNodes_stored, hprotect, hnodes]
  rw [FlowContent.mk.injEq]
  exact ⟨rfl, congrArg FlowContent.edges h, congrArg FlowContent.name h,
    congrArg FlowContent.extension h, congrArg FlowContent.enabled h⟩

/-- A flow that was loaded would be sent as it is. -/
theorem content_payload_loadFlow (s : BuilderState) (flow : IvrFlow) (id : String) :
    ((s.loadFlow flow).payload id).content = flow.content := by
  unfold IvrFlow.content BuilderState.payload BuilderState.loadFlow
  simp only [loadNodes_stored, map_protect_loadNodes]

end Payload

/-! ## Edits -/

/-- An edit that leaves no unsaved changes changes nothing. -/
theorem content_of_clean {rf : ReactFlow} {s : BuilderState} {op : BuilderOp}
    (h : (s.apply rf op).dirty = false) :
    s.dirty = false ∧ (s.apply rf op).content = s.content := by
  cases op with
  | onNodesChange changes =>
    by_cases hread : s.readOnly = true
    · refine ⟨?_, content_onNodesChange hread changes⟩
      simpa only [BuilderState.apply, BuilderState.onNodesChange, if_pos hread] using h
    · simp only [BuilderState.apply, BuilderState.onNodesChange, if_neg hread] at h
      cases h
  | onEdgesChange changes =>
    by_cases hread : s.readOnly = true
    · refine ⟨?_, content_onEdgesChange hread changes⟩
      simpa only [BuilderState.apply, BuilderState.onEdgesChange, if_pos hread] using h
    · simp only [BuilderState.apply, BuilderState.onEdgesChange, if_neg hread] at h
      cases h
  | _ =>
    revert h
    simp only [BuilderState.apply, BuilderState.setMeta, BuilderState.importFlow,
      BuilderState.onConnect, BuilderState.addNode, BuilderState.updateNodeData,
      BuilderState.removeNode, BuilderState.removeEdge, BuilderState.selectNode,
      BuilderState.copyNode, BuilderState.cutNode, BuilderState.pasteNode,
      BuilderState.duplicateNode, BuilderState.clearAll, BuilderState.undo, BuilderState.redo,
      BuilderState.addMenuOption, BuilderState.updateMenuOption, BuilderState.removeMenuOption]
    repeat' split
    -- either nothing has changed or there are unsaved changes
    all_goals
      intro h
      first
        | exact ⟨h, rfl⟩
        | cases h

/-! ## Runs -/

namespace Editor

/-- The flow is what the server has under its id, and no save of another one is on its way
    there. -/
def Settles (s : Editor) (flow : IvrFlow) : Prop :=
  (s.server.flows flow.id).map IvrFlow.content = some flow.content ∧
    ∀ call ∈ s.saves, call.stage = .sent → call.flow.id = flow.id →
      call.flow.content = flow.content

/-- The store has the flow of the save. -/
def Holds (s : Editor) (flow : IvrFlow) : Prop :=
  s.store.flowId = some flow.id ∧ (s.store.payload flow.id).content = flow.content

/-- No save is pending. -/
def Quiet (s : Editor) : Prop := ∀ call ∈ s.saves, call.stage = .settled

/-- Without unsaved changes and pending saves, the store has the flow that the server has under
    the id of the loaded flow. -/
def Reported (s : Editor) : Prop :=
  s.store.dirty = false → s.Quiet → ∀ id ∈ s.store.flowId,
    (s.server.flows id).map IvrFlow.content = some (s.store.payload id).content

/-- What must not happen: that a save is answered while there are unsaved changes and the store
    has another flow than it sent, or the server has another one or is going to; and that a
    flow is loaded which the server has no longer or is not going to keep. -/
def Careful (s : Editor) : EditorEvent → Prop
  | .answer k => ∀ call ∈ s.saves[k]?, s.store.dirty = true → s.store.flowId.isSome = true →
    s.Holds call.flow ∧ s.Settles call.flow
  | .load k => ∀ answer ∈ s.fetched[k]?, ∀ flow ∈ answer, s.Settles flow
  | .edit _ | .setReadOnly _ | .startNewFlow .. | .reset | .fetch _ | .save | .accept _ | .fail _ =>
    True

instance (s : Editor) (flow : IvrFlow) : Decidable (s.Settles flow) :=
  inferInstanceAs (Decidable (_ ∧ ∀ call ∈ s.saves, _))

instance (s : Editor) (flow : IvrFlow) : Decidable (s.Holds flow) :=
  inferInstanceAs (Decidable (_ ∧ _))

instance (s : Editor) : Decidable s.Quiet :=
  inferInstanceAs (Decidable (∀ call ∈ s.saves, call.stage = .settled))

instance (s : Editor) : Decidable s.Reported :=
  inferInstanceAs (Decidable (_ → _ → ∀ id ∈ s.store.flowId, _))

instance (s : Editor) : ∀ e, Decidable (s.Careful e)
  | .answer k => inferInstanceAs (Decidable (∀ call ∈ s.saves[k]?, _ → _ → _ ∧ _))
  | .load k => inferInstanceAs (Decidable (∀ answer ∈ s.fetched[k]?, ∀ flow ∈ answer, _))
  | .edit _ | .setReadOnly _ | .startNewFlow .. | .reset | .fetch _ | .save | .accept _ | .fail _ =>
    isTrue trivial

/-- Without unsaved changes, the flow of the store is settled. -/
def Clean (s : Editor) : Prop :=
  s.store.dirty = false → ∀ id, s.store.flowId = some id → s.Settles (s.store.payload id)

section Step

variable {rf : ReactFlow} {s s' : Editor} {k : Nat} {call : SaveCall} {stage : SaveStage}

theorem Clean.reported (h : s.Clean) : s.Reported := fun hdirty _ id hid => (h hdirty id hid).1

theorem Settles.congr {flow flow' : IvrFlow} (h : s.Settles flow) (hid : flow'.id = flow.id)
    (hcontent : flow'.content = flow.content) : s.Settles flow' := by
  unfold Settles at h ⊢
  rw [hid, hcontent]
  exact h

/-- A save that comes further is no longer on its way. -/
theorem Settles.setStage {flow : IvrFlow} (h : s.Settles flow) (hstage : stage ≠ .sent) :
    (s.setStage k call stage).Settles flow := by
  refine ⟨h.1, fun other hmem hsent => ?_⟩
  rcases List.mem_or_eq_of_mem_set hmem with hmem | rfl
  · exact h.2 other hmem hsent
  · exact absurd hsent hstage

/-- The flow of a save that was on its way is the one there is. -/
theorem Settles.accept {flow : IvrFlow} (h : s.Settles flow) (hmem : call ∈ s.saves)
    (hsent : call.stage = .sent) :
    Settles { s with server := s.server.accept call.flow } flow := by
  refine ⟨?_, h.2⟩
  show (if flow.id = call.flow.id then some call.flow else s.server.flows flow.id).map _ = _
  split
  · rename_i hid
    rw [Option.map_some, h.2 call hmem hsent hid.symm]
  · exact h.1

theorem Clean.edit (h : s.Clean) (op : BuilderOp) :
    Clean { s with store := s.store.apply rf op } := by
  intro hdirty id hid
  obtain ⟨hclean, hcontent⟩ := content_of_clean hdirty
  have hold : s.store.flowId = some id := (flowId_apply op).symm.trans hid
  exact Settles.congr (h hclean id hold) rfl (content_payload_congr hcontent id id)

theorem Clean.save (h : s.Clean) : s.save.Clean := by
  unfold Editor.save
  split
  · exact h
  · split
    · exact h
    · rename_i sentId hsentId
      intro hdirty id hid
      have hold := h hdirty id hid
      refine ⟨hold.1, fun other hmem hsent hother => ?_⟩
      rcases List.mem_append.mp hmem with hmem | hmem
      · exact hold.2 other hmem hsent hother
      · -- the new save sends what the store has
        rw [List.mem_singleton.mp hmem]
        exact content_payload_congr rfl sentId id

theorem Clean.load (flow : IvrFlow) (h : s.Settles flow) {store : BuilderState}
    (hstore : store = (s.store.loadFlow flow).setReadOnly false)
    (fetched : List (Option IvrFlow)) :
    Clean { s with store, fetched } := by
  subst hstore
  intro _ id hid
  have hsame : flow.id = id := Option.some.inj hid
  have hcontent := content_payload_loadFlow s.store flow id
  exact Settles.congr h hsame.symm hcontent

theorem Clean.step {e : EditorEvent} (h : s.Clean) (hcareful : s.Careful e)
    (hstep : s.step rf e = some s') : s'.Clean := by
  cases e with
  | edit op =>
    cases hstep
    exact h.edit op
  | setReadOnly v =>
    cases hstep
    exact h
  | startNewFlow name extension flowId nodeId =>
    cases hstep
    -- a new flow is unsaved
    intro hdirty
    cases hdirty
  | reset =>
    cases hstep
    -- no flow is loaded any more
    intro _ id hid
    cases hid
  | fetch id =>
    cases hstep
    exact h
  | load k =>
    simp only [Editor.step] at hstep
    split at hstep
    · rename_i flow hflow
      cases hstep
      exact Clean.load flow (hcareful _ hflow flow rfl) rfl _
    · cases hstep
    · cases hstep
  | save =>
    cases hstep
    exact h.save
  | accept k =>
    simp only [Editor.step] at hstep
    split at hstep
    · rename_i call hcall
      obtain ⟨hsent, hstep⟩ := Option.ite_none_right_eq_some.mp hstep
      cases hstep
      intro hdirty id hid
      -- the server has the flow that was on its way there
      have haccept := (h hdirty id hid).accept (List.mem_of_getElem? hcall) hsent
      exact haccept.setStage (by decide)
    · cases hstep
  | answer k =>
    simp only [Editor.step] at hstep
    split at hstep
    · rename_i call hcall
      obtain ⟨-, hstep⟩ := Option.ite_none_right_eq_some.mp hstep
      cases hstep
      intro _ id hid
      have hold : s.Settles (s.store.payload id) := by
        cases hdirty : s.store.dirty with
        | false => exact h hdirty id hid
        | true =>
          -- the unsaved changes are those that were sent
          obtain ⟨⟨hflow, hcontent⟩, hsettles⟩ :=
            hcareful call hcall hdirty (Option.isSome_iff_exists.mpr ⟨id, hid⟩)
          obtain rfl : id = call.flow.id := Option.some.inj (hid.symm.trans hflow)
          exact hsettles.congr rfl hcontent
      exact Settles.setStage hold (by decide)
    · cases hstep
  | fail k =>
    simp only [Editor.step] at hstep
    split at hstep
    · rename_i call hcall
      obtain ⟨-, hstep⟩ := Option.ite_none_left_eq_some.mp hstep
      cases hstep
      intro hdirty id hid
      exact Settles.setStage (h hdirty id hid) (by decide)
    · cases hstep

end Step

/-- In every careful run the store has the flow that the server has, whenever it shows no unsaved
    changes and no save is pending. -/
theorem reported_throughout (rf : ReactFlow) (server : FlowServer) (es : List EditorEvent)
    (h : Meets (step rf) Careful (init server) es) :
    Throughout (step rf) Reported (init server) es := by
  have hinit : (init server).Clean := fun _ _ hid => nomatch hid
  have hclean := Machine.throughout_of_meets
    (fun s e s' hs hcareful hstep => Clean.step hs hcareful hstep) hinit h
  exact hclean.mono fun s hs => hs.reported

/-! ## An edit during a save -/

/-- The server has no flow yet. -/
def emptyServer : FlowServer := ⟨fun _ => none, nofun⟩

/-- A new flow is saved, opened again and renamed. -/
def savedRun : List EditorEvent :=
  [.startNewFlow "Front desk" "6001" "flow_1" "start_1", .save, .accept 0, .answer 0, .reset,
    .fetch "flow_1", .load 0, .edit (.setMeta { name := some "Desk" }), .save, .accept 1, .answer 1]

theorem reported_savedRun : Throughout (step .plain) Reported (init emptyServer) savedRun :=
  reported_throughout .plain emptyServer savedRun (by decide +kernel)

/-- The flow is renamed while its save is under way. -/
def editedRun : List EditorEvent :=
  [.startNewFlow "Front desk" "6001" "flow_1" "start_1", .save,
    .edit (.setMeta { name := some "Desk" }), .accept 0, .answer 0]

/-- The new name is not saved, and the store shows no unsaved changes. -/
theorem not_reported_editedRun :
    ¬Throughout (step .plain) Reported (init emptyServer) editedRun := by
  decide +kernel

end Editor

end CallNet.Web
