import CallNet.Spec.BuilderHistory

/-!
# The graph of the builder

The flow interpreter trusts the graph it is given.  The operations of the builder keep it well
formed: they edit nodes, edges and menu options separately, and each of them, undo and redo
included, leaves no edge without its nodes and no edge at an option that is gone.
-/

namespace CallNet.Web

open Machine (Meets Throughout)

/-! ## Well-formed graphs -/

/-- An edge can leave the node from the handle.  The handles of a menu are its options. -/
def IvrNode.Offers (n : IvrNode) (handle : Option String) : Prop :=
  ∀ data ∈ n.data.menu?, ∀ optionId ∈ handle, ∃ o ∈ data.options, o.id = optionId

instance (n : IvrNode) (handle : Option String) : Decidable (n.Offers handle) :=
  inferInstanceAs (Decidable (∀ data ∈ n.data.menu?, ∀ optionId ∈ handle,
    ∃ o ∈ data.options, o.id = optionId))

/-- The edge leads from a handle of a node to a node. -/
structure IvrEdge.Joins (e : IvrEdge) (nodes : List IvrNode) : Prop where
  source : ∃ n ∈ nodes, n.id = e.source ∧ n.Offers e.sourceHandle
  target : ∃ n ∈ nodes, n.id = e.target

/-- The edges leave different handles. -/
def IvrEdge.Apart (e e' : IvrEdge) : Prop :=
  ¬(e.source = e'.source ∧ e.sourceHandle = e'.sourceHandle)

namespace HistorySnapshot

/-- Every edge joins nodes of the graph, and a handle has one edge at most. -/
structure WellFormed (g : HistorySnapshot) : Prop where
  joins : ∀ e ∈ g.edges, e.Joins g.nodes
  single : g.edges.Pairwise IvrEdge.Apart

variable {nodes nodes' : List IvrNode} {edges edges' : List IvrEdge}

theorem wellFormed_nil (nodes : List IvrNode) : WellFormed ⟨nodes, []⟩ :=
  ⟨fun _ he => (nomatch he), List.Pairwise.nil⟩

/-- Edges may go, and nodes change as long as the edges that stay find them. -/
theorem WellFormed.of_sublist (h : WellFormed ⟨nodes, edges⟩) (hsub : edges'.Sublist edges)
    (hjoins : ∀ e ∈ edges', e.Joins nodes → e.Joins nodes') : WellFormed ⟨nodes', edges'⟩ :=
  ⟨fun e he => hjoins e he (h.joins e (hsub.subset he)), h.single.sublist hsub⟩

theorem WellFormed.add_node (h : WellFormed ⟨nodes, edges⟩) (n : IvrNode) :
    WellFormed ⟨nodes ++ [n], edges⟩ := by
  apply h.of_sublist (List.Sublist.refl _)
  rintro e - ⟨⟨source, hsource, hleaves⟩, target, htarget, hid⟩
  exact ⟨⟨source, List.mem_append_left _ hsource, hleaves⟩,
    target, List.mem_append_left _ htarget, hid⟩

theorem WellFormed.filter_edges (h : WellFormed ⟨nodes, edges⟩) (p : IvrEdge → Bool) :
    WellFormed ⟨nodes, edges.filter p⟩ :=
  h.of_sublist List.filter_sublist fun _ _ hjoins => hjoins

/-- The edges of a node go with it. -/
theorem WellFormed.remove_node (h : WellFormed ⟨nodes, edges⟩) (id : String) :
    WellFormed ⟨nodes.filter fun n => n.id ≠ id,
      edges.filter fun e => e.source ≠ id ∧ e.target ≠ id⟩ := by
  apply h.of_sublist List.filter_sublist
  rintro e he ⟨⟨source, hsource, hid, hoffers⟩, target, htarget, hid'⟩
  have hends : e.source ≠ id ∧ e.target ≠ id := by simpa using (List.mem_filter.mp he).2
  constructor
  · refine ⟨source, List.mem_filter.mpr ⟨hsource, ?_⟩, hid, hoffers⟩
    simpa [hid] using hends.1
  · refine ⟨target, List.mem_filter.mpr ⟨htarget, ?_⟩, hid'⟩
    simpa [hid'] using hends.2

/-- Nodes may change as long as they keep their id and the handles of the edges that stay. -/
theorem WellFormed.map_nodes (h : WellFormed ⟨nodes, edges⟩) (hsub : edges'.Sublist edges)
    (f : IvrNode → IvrNode) (hid : ∀ n, (f n).id = n.id)
    (hoffers : ∀ n ∈ nodes, ∀ e ∈ edges', n.id = e.source → n.Offers e.sourceHandle →
      (f n).Offers e.sourceHandle) : WellFormed ⟨nodes.map f, edges'⟩ := by
  apply h.of_sublist hsub
  rintro e he ⟨⟨source, hsource, hsourceId, hleaves⟩, target, htarget, htargetId⟩
  constructor
  · exact ⟨f source, List.mem_map_of_mem hsource, (hid source).trans hsourceId,
      hoffers source hsource e he hsourceId hleaves⟩
  · exact ⟨f target, List.mem_map_of_mem htarget, (hid target).trans htargetId⟩

/-- An edge between nodes may come from a handle that has none. -/
theorem WellFormed.concat_edge (h : WellFormed ⟨nodes, edges⟩) {e : IvrEdge} (he : e.Joins nodes)
    (hfree : ∀ e' ∈ edges, e'.Apart e) : WellFormed ⟨nodes, edges ++ [e]⟩ := by
  constructor
  · intro e' he'
    rcases List.mem_append.mp he' with hold | hnew
    · exact h.joins e' hold
    · exact List.mem_singleton.mp hnew ▸ he
  · rw [List.pairwise_append]
    refine ⟨h.single, List.pairwise_singleton _ _, fun e' he' e'' he'' => ?_⟩
    exact List.mem_singleton.mp he'' ▸ hfree e' he'

end HistorySnapshot

/-! ## What the operations do to the graph -/

theorem id_mapMenu (nodeId : String) (f : MenuNodeData → MenuNodeData) (n : IvrNode) :
    (n.mapMenu nodeId f).id = n.id := by
  unfold IvrNode.mapMenu
  split
  · split <;> rfl
  · rfl

/-- A menu that keeps an option offers its handle still. -/
theorem offers_mapMenu {nodeId : String} {f : MenuNodeData → MenuNodeData} {n : IvrNode}
    {handle : Option String} (h : n.Offers handle)
    (hf : n.id = nodeId → ∀ data, ∀ optionId ∈ handle, (∃ o ∈ data.options, o.id = optionId) →
      ∃ o ∈ (f data).options, o.id = optionId) : (n.mapMenu nodeId f).Offers handle := by
  unfold IvrNode.mapMenu
  split
  · rename_i data hdata
    split
    · rename_i hid
      intro data' hdata' optionId hhandle
      obtain rfl : f data = data' := Option.some.inj hdata'
      exact hf hid data optionId hhandle (h data (by simp [hdata, IvrNodeData.menu?]) _ hhandle)
    · exact h
  · exact h

/-- What the store relies on of React Flow: a connection becomes the last edge, or is refused. -/
def ReactFlow.AddsEdge (rf : ReactFlow) : Prop :=
  ∀ c edges, rf.addEdge c edges = edges ∨ ∃ e : IvrEdge,
    e.source = c.source ∧ e.target = c.target ∧ e.sourceHandle = c.sourceHandle ∧
      rf.addEdge c edges = edges ++ [e]

namespace BuilderState

/-- The connection leads from a handle of a node to a node. -/
structure Connects (s : BuilderState) (c : Connection) : Prop where
  source : ∃ n ∈ s.nodes, n.id = c.source ∧ n.Offers c.sourceHandle
  target : ∃ n ∈ s.nodes, n.id = c.target

instance (s : BuilderState) (c : Connection) : Decidable (s.Connects c) :=
  decidable_of_iff ((∃ n ∈ s.nodes, n.id = c.source ∧ n.Offers c.sourceHandle) ∧
    ∃ n ∈ s.nodes, n.id = c.target) ⟨fun h => ⟨h.1, h.2⟩, fun h => ⟨h.source, h.target⟩⟩

/-- The operations on nodes, edges and menu options, undo and redo; connections are made between
    nodes and handles that are there.  What React Flow changes by itself, imported graphs and
    edited node data are left out. -/
def Builds (s : BuilderState) : BuilderOp → Prop
  | .onConnect connection => s.Connects connection
  | .importFlow _ | .onNodesChange _ | .onEdgesChange _ | .updateNodeData .. => False
  | .setMeta _ | .addNode .. | .removeNode _ | .removeEdge _ | .selectNode _ | .copyNode ..
  | .cutNode .. | .pasteNode .. | .duplicateNode .. | .clearAll | .undo | .redo
  | .addMenuOption .. | .updateMenuOption .. | .removeMenuOption .. => True

instance (s : BuilderState) : ∀ op, Decidable (s.Builds op)
  | .onConnect connection => inferInstanceAs (Decidable (s.Connects connection))
  | .importFlow _ | .onNodesChange _ | .onEdgesChange _ | .updateNodeData .. =>
    inferInstanceAs (Decidable False)
  | .setMeta _ | .addNode .. | .removeNode _ | .removeEdge _ | .selectNode _ | .copyNode ..
  | .cutNode .. | .pasteNode .. | .duplicateNode .. | .clearAll | .undo | .redo
  | .addMenuOption .. | .updateMenuOption .. | .removeMenuOption .. =>
    inferInstanceAs (Decidable True)

/-- The graph is well formed, and so is every graph that undo and redo can bring back. -/
structure Sound (s : BuilderState) : Prop where
  graph : s.snapshot.WellFormed
  history : s.history.All HistorySnapshot.WellFormed

section Steps

variable {s s' : BuilderState}

/-- An edit records a well-formed graph. -/
theorem Sound.edit (h : s.Sound) (hhistory : s'.history = s.pushHistory.history)
    (hgraph : s'.snapshot.WellFormed) : s'.Sound := by
  refine ⟨hgraph, ?_⟩
  rw [hhistory, history_pushHistory]
  exact h.history.record h.graph

/-- The graph may change without a snapshot of the one before. -/
theorem Sound.keep (h : s.Sound) (hhistory : s'.history = s.history)
    (hgraph : s'.snapshot.WellFormed) : s'.Sound :=
  ⟨hgraph, hhistory ▸ h.history⟩

theorem Sound.onConnect (h : s.Sound) {rf : ReactFlow} (hrf : rf.AddsEdge) {c : Connection}
    (hc : s.Connects c) : (s.onConnect rf c).Sound := by
  unfold BuilderState.onConnect
  split
  · exact h
  have hfiltered := h.graph.filter_edges fun e =>
    ¬(e.source = c.source ∧ e.sourceHandle = c.sourceHandle)
  refine h.edit (by rfl) ?_
  show HistorySnapshot.WellFormed ⟨s.nodes, rf.addEdge c _⟩
  obtain hsame | ⟨e, hsource, htarget, hhandle, hadded⟩ := hrf c (s.edges.filter fun e =>
    ¬(e.source = c.source ∧ e.sourceHandle = c.sourceHandle))
  · rw [hsame]
    exact hfiltered
  · rw [hadded]
    apply hfiltered.concat_edge
    · constructor
      · rw [hsource, hhandle]
        exact hc.source
      · rw [htarget]
        exact hc.target
    · -- the edges of the handle were taken out before
      intro e' he' hsame
      rw [hsource, hhandle] at hsame
      have := (List.mem_filter.mp he').2
      simp [hsame] at this

theorem Sound.addNode (h : s.Sound) (kind : IvrNodeKind) (position : Option XYPosition)
    (id : String) (fresh : Nat → String) : (s.addNode kind position id fresh).Sound := by
  unfold BuilderState.addNode
  split
  · exact h
  · exact h.edit rfl (h.graph.add_node _)

theorem Sound.removeNode (h : s.Sound) (id : String) : (s.removeNode id).Sound := by
  unfold BuilderState.removeNode
  split
  · exact h
  · split
    · exact h
    · exact h.edit rfl (h.graph.remove_node id)

theorem Sound.removeEdge (h : s.Sound) (id : String) : (s.removeEdge id).Sound := by
  unfold BuilderState.removeEdge
  split
  · exact h
  · exact h.edit rfl (h.graph.filter_edges _)

theorem Sound.cutNode (h : s.Sound) (id : String) (fresh : Nat → String) :
    (s.cutNode id fresh).Sound := by
  unfold BuilderState.cutNode
  split
  · exact h
  · rename_i node _
    have hcopied : { s with clipboard := some (cloneNodeData node.data fresh) }.Sound :=
      h.keep rfl h.graph
    exact hcopied.removeNode id

theorem Sound.pasteNode (h : s.Sound) (position : Option XYPosition) (id : String)
    (fresh : Nat → String) : (s.pasteNode position id fresh).Sound := by
  unfold BuilderState.pasteNode
  split
  · exact h
  · exact h.edit rfl (h.graph.add_node _)

theorem Sound.duplicateNode (h : s.Sound) (id newId : String) (fresh : Nat → String) :
    (s.duplicateNode id newId fresh).Sound := by
  unfold BuilderState.duplicateNode
  split
  · exact h
  · exact h.edit rfl (h.graph.add_node _)

/-- Every snapshot was the graph once. -/
theorem Sound.undo (h : s.Sound) : s.undo.Sound := by
  unfold BuilderState.undo
  split
  · exact h
  · rename_i previous hlast
    refine ⟨h.history.past previous (List.mem_of_getLast? hlast), ?_⟩
    exact h.history.undo h.graph

theorem Sound.redo (h : s.Sound) : s.redo.Sound := by
  unfold BuilderState.redo
  split
  · exact h
  · rename_i next future hfuture
    have hmem : next ∈ s.future := hfuture ▸ List.mem_cons_self
    refine ⟨h.history.future next hmem, ?_⟩
    have hredo : (s.history.redo HISTORY_LIMIT s.snapshot).All HistorySnapshot.WellFormed :=
      h.history.redo h.graph
    unfold UndoHistory.redo at hredo
    rw [show s.history.future.tail = future from congrArg List.tail hfuture] at hredo
    exact hredo

theorem Sound.addMenuOption (h : s.Sound) (nodeId : String) (digit : Char) (optionId : String) :
    (s.addMenuOption nodeId digit optionId).Sound := by
  refine h.edit (by rfl) ?_
  apply h.graph.map_nodes (List.Sublist.refl _) _ (id_mapMenu nodeId _)
  intro n _ e _ _ hoffers
  apply offers_mapMenu hoffers
  rintro - data handle - ⟨o, ho, hid⟩
  exact ⟨o, List.mem_append_left _ ho, hid⟩

theorem Sound.updateMenuOption (h : s.Sound) (nodeId optionId : String)
    (patch : MenuOptionPatch) : (s.updateMenuOption nodeId optionId patch).Sound := by
  refine h.keep (by rfl) ?_
  apply h.graph.map_nodes (List.Sublist.refl _) _ (id_mapMenu nodeId _)
  intro n _ e _ _ hoffers
  apply offers_mapMenu hoffers
  rintro - data handle - ⟨o, ho, hid⟩
  -- a patch keeps the id
  refine ⟨_, List.mem_map_of_mem ho, ?_⟩
  by_cases ho' : o.id = optionId
  · rw [if_pos ho']
    exact hid
  · rw [if_neg ho']
    exact hid

/-- The edges of the removed option go with it, so the edges that stay find theirs. -/
theorem Sound.removeMenuOption (h : s.Sound) (nodeId optionId : String) :
    (s.removeMenuOption nodeId optionId).Sound := by
  refine h.edit (by rfl) ?_
  apply h.graph.map_nodes List.filter_sublist _ (id_mapMenu nodeId _)
  intro n _ e he hsource hoffers
  apply offers_mapMenu hoffers
  rintro hnode data handle hhandle ⟨o, ho, hid⟩
  have hstays : ¬(e.source = nodeId ∧ e.sourceHandle = some optionId) :=
    of_decide_eq_true (List.mem_filter.mp he).2
  refine ⟨o, List.mem_filter.mpr ⟨ho, ?_⟩, hid⟩
  have hother : o.id ≠ optionId := by
    rintro rfl
    exact hstays ⟨hsource.symm.trans hnode, hid ▸ hhandle⟩
  simpa using hother

theorem Sound.apply (h : s.Sound) {rf : ReactFlow} (hrf : rf.AddsEdge) (op : BuilderOp)
    (hop : s.Builds op) : (s.apply rf op).Sound := by
  cases op with
  | setMeta patch =>
    show (s.setMeta patch).Sound
    unfold BuilderState.setMeta
    split
    · exact h
    · exact h.keep rfl h.graph
  | copyNode id fresh =>
    show (s.copyNode id fresh).Sound
    unfold BuilderState.copyNode
    split
    · exact h
    · exact h.keep rfl h.graph
  | selectNode id => exact h.keep rfl h.graph
  | onConnect connection => exact h.onConnect hrf hop
  | addNode kind position id fresh => exact h.addNode kind position id fresh
  | removeNode id => exact h.removeNode id
  | removeEdge id => exact h.removeEdge id
  | cutNode id fresh => exact h.cutNode id fresh
  | pasteNode position id fresh => exact h.pasteNode position id fresh
  | duplicateNode id newId fresh => exact h.duplicateNode id newId fresh
  | clearAll => exact h.edit rfl (HistorySnapshot.wellFormed_nil _)
  | undo => exact h.undo
  | redo => exact h.redo
  | addMenuOption nodeId digit optionId => exact h.addMenuOption nodeId digit optionId
  | updateMenuOption nodeId optionId patch => exact h.updateMenuOption nodeId optionId patch
  | removeMenuOption nodeId optionId => exact h.removeMenuOption nodeId optionId
  | importFlow | onNodesChange | onEdgesChange | updateNodeData => exact hop.elim

end Steps

end BuilderState

/-! ## Whole runs -/

/-- What is opened in the builder: a new flow or a stored one. -/
inductive BuilderStart where
  | empty (name extension flowId nodeId : String)
  | loaded (flow : IvrFlow)

/-- The graph of a stored flow, as the editor takes it. -/
def IvrFlow.graph (flow : IvrFlow) : HistorySnapshot := ⟨loadNodes flow.nodes, flow.edges⟩

def BuilderStart.WellFormed : BuilderStart → Prop
  | .empty .. => True
  | .loaded flow => flow.graph.WellFormed

def BuilderState.start (s : BuilderState) : BuilderStart → BuilderState
  | .empty name extension flowId nodeId => s.startNewFlow name extension flowId nodeId
  | .loaded flow => s.loadFlow flow

theorem sound_start (s : BuilderState) {start : BuilderStart} (h : start.WellFormed) :
    (s.start start).Sound := by
  cases start with
  | empty name extension flowId nodeId => exact ⟨HistorySnapshot.wellFormed_nil _, .start⟩
  | loaded flow => exact ⟨h, .start⟩

/-- The graph is well formed throughout every run of the operations that build it. -/
theorem graph_wellFormed (rf : ReactFlow) (hrf : rf.AddsEdge) (s : BuilderState)
    (start : BuilderStart) (hstart : start.WellFormed) (ops : List BuilderOp)
    (hops : Meets (builderStep rf) BuilderState.Builds (s.start start) ops) :
    Throughout (builderStep rf) (fun t => t.snapshot.WellFormed) (s.start start) ops := by
  have hsound : Throughout (builderStep rf) BuilderState.Sound (s.start start) ops :=
    Machine.throughout_of_meets
      (fun t op t' h hop => by
        intro hstep
        obtain rfl := Option.some.inj hstep
        exact h.apply hrf op hop)
      (sound_start s hstart) hops
  exact hsound.mono fun t h => h.graph

theorem addsEdge_plain : ReactFlow.plain.AddsEdge :=
  fun c _ => .inr ⟨⟨_, c.source, c.target, c.sourceHandle, c.targetHandle, {}⟩,
    rfl, rfl, rfl, rfl⟩

/-- A menu whose first option leads to a hangup; the option is removed, and brought back. -/
theorem graph_wellFormed_menu :
    Throughout (builderStep .plain) (fun t => t.snapshot.WellFormed)
      (EditSession.emptyStore.start (.empty "Sales" "5000" "flow_1" "start_1"))
      [.addNode .menu none "menu_1" fun i => if i = 0 then "opt_1" else "opt_2",
        .addNode .hangup none "hangup_2" fun _ => "",
        .onConnect ⟨"start_1", "menu_1", none, none⟩,
        .onConnect ⟨"menu_1", "hangup_2", some "opt_1", none⟩,
        .removeMenuOption "menu_1" "opt_1", .undo] :=
  graph_wellFormed .plain addsEdge_plain EditSession.emptyStore
    (.empty "Sales" "5000" "flow_1" "start_1") trivial _ (by decide +kernel)

end CallNet.Web
