import CallNet.Web.BuilderStore
import CallNet.ForStd.Machine

/-!
# The builder in read-only mode

A flow that is shown read-only should not change.  Each operation looks at `readOnly` for itself,
and eight of them do not; `content_apply_iff` says what they leave alone.
-/

namespace CallNet.Web

open Machine (Meets Throughout)

/-! ## The property and its condition -/

/-- A flow as it is edited, apart from what React Flow keeps of its view. -/
structure FlowContent where
  nodes : List IvrNode
  edges : List IvrEdge
  name : String
  extension : String
  enabled : Bool
deriving DecidableEq, Repr

/-- A graph apart from its view. -/
def HistorySnapshot.content (g : HistorySnapshot) : List IvrNode × List IvrEdge :=
  (g.nodes.map IvrNode.content, g.edges.map IvrEdge.content)

/-- The digits of a menu are those of its options. -/
def MenuNodeData.InSync (data : MenuNodeData) : Prop :=
  data.validDigits = String.ofList (data.options.map MenuOption.digit)

instance (data : MenuNodeData) : Decidable data.InSync := inferInstanceAs (Decidable (_ = _))

namespace BuilderState

def content (s : BuilderState) : FlowContent :=
  { nodes := s.nodes.map IvrNode.content
    edges := s.edges.map IvrEdge.content
    name := s.name
    extension := s.extension
    enabled := s.enabled }

/-- The menus of the given id. -/
def menusOf (s : BuilderState) (nodeId : String) : List MenuNodeData :=
  (s.nodes.filter fun n => n.id = nodeId).filterMap fun n => n.data.menu?

/-- The operation finds nothing that it could change: nothing to paste, duplicate, undo or redo,
    nothing but the start node to clear, no menu to edit. -/
def Harmless (s : BuilderState) : BuilderOp → Prop
  | .pasteNode .. => ∀ data ∈ s.clipboard, data.kind = .start
  | .duplicateNode id _ _ => s.copyable id = none
  | .clearAll => s.edges = [] ∧ s.nodes.length ≤ 1 ∧ ∀ n ∈ s.nodes, n.type = .start
  | .undo => ∀ g ∈ s.past.getLast?, g.content = s.snapshot.content
  | .redo => ∀ g ∈ s.future.head?, g.content = s.snapshot.content
  | .addMenuOption nodeId _ _ => s.menusOf nodeId = []
  | .updateMenuOption nodeId optionId patch => ∀ data ∈ s.menusOf nodeId,
    data.InSync ∧ ∀ o ∈ data.options, o.id = optionId → o.apply patch = o
  | .removeMenuOption nodeId optionId =>
    (∀ data ∈ s.menusOf nodeId, data.InSync ∧ ∀ o ∈ data.options, o.id ≠ optionId) ∧
      ∀ e ∈ s.edges, ¬(e.source = nodeId ∧ e.sourceHandle = some optionId)
  | .setMeta _ | .importFlow _ | .onNodesChange _ | .onEdgesChange _ | .onConnect _ | .addNode ..
  | .updateNodeData .. | .removeNode _ | .removeEdge _ | .selectNode _ | .copyNode .. | .cutNode ..
    => True

instance (s : BuilderState) : ∀ op, Decidable (s.Harmless op)
  | .pasteNode .. => inferInstanceAs (Decidable (∀ data ∈ s.clipboard, data.kind = .start))
  | .duplicateNode id _ _ => inferInstanceAs (Decidable (s.copyable id = none))
  | .clearAll => inferInstanceAs (Decidable (_ ∧ _ ∧ ∀ n ∈ s.nodes, n.type = .start))
  | .undo => inferInstanceAs (Decidable (∀ g ∈ s.past.getLast?, g.content = s.snapshot.content))
  | .redo => inferInstanceAs (Decidable (∀ g ∈ s.future.head?, g.content = s.snapshot.content))
  | .addMenuOption nodeId _ _ => inferInstanceAs (Decidable (s.menusOf nodeId = []))
  | .updateMenuOption nodeId _ _ => inferInstanceAs (Decidable (∀ data ∈ s.menusOf nodeId, _ ∧ _))
  | .removeMenuOption nodeId _ =>
    inferInstanceAs (Decidable ((∀ data ∈ s.menusOf nodeId, _ ∧ _) ∧ ∀ e ∈ s.edges, ¬_))
  | .setMeta _ | .importFlow _ | .onNodesChange _ | .onEdgesChange _ | .onConnect _ | .addNode ..
  | .updateNodeData .. | .removeNode _ | .removeEdge _ | .selectNode _ | .copyNode .. | .cutNode ..
    => inferInstanceAs (Decidable True)

end BuilderState

/-! ## What keeps the content -/

section Content

variable {s : BuilderState}

theorem content_mapMenu_iff (nodeId : String) (f : MenuNodeData → MenuNodeData) (n : IvrNode) :
    (n.mapMenu nodeId f).content = n.content ↔
      (n.id = nodeId → ∀ data ∈ n.data.menu?, f data = data) := by
  unfold IvrNode.mapMenu
  cases hdata : n.data with
  | menu data =>
    by_cases hid : n.id = nodeId
    · simp [hid, IvrNode.content, IvrNodeData.menu?, hdata]
    · simp [hid]
  | _ => simp [IvrNodeData.menu?]

theorem mem_menusOf {nodeId : String} {data : MenuNodeData} :
    data ∈ s.menusOf nodeId ↔ ∃ n ∈ s.nodes, n.id = nodeId ∧ n.data.menu? = some data := by
  unfold BuilderState.menusOf
  simp [and_assoc]

/-- Menus that stay as they are leave the nodes as they are. -/
theorem map_mapMenu_iff (nodeId : String) (f : MenuNodeData → MenuNodeData) :
    (s.nodes.map (IvrNode.mapMenu nodeId f)).map IvrNode.content = s.nodes.map IvrNode.content ↔
      ∀ data ∈ s.menusOf nodeId, f data = data := by
  rw [List.map_map, List.map_inj_left]
  constructor
  · intro h data hdata
    obtain ⟨n, hn, hid, hmenu⟩ := mem_menusOf.mp hdata
    exact (content_mapMenu_iff nodeId f n).mp (h n hn) hid data hmenu
  · intro h n hn
    exact (content_mapMenu_iff nodeId f n).mpr fun hid data hmenu =>
      h data (mem_menusOf.mpr ⟨n, hn, hid, hmenu⟩)

theorem withOptions_eq_iff (data : MenuNodeData) (options : List MenuOption) :
    data.withOptions options = data ↔ options = data.options ∧ data.InSync := by
  unfold MenuNodeData.withOptions MenuNodeData.InSync
  obtain ⟨label, prompt, validDigits, tries, timeoutMs, invalidPrompt, old⟩ := data
  simp only [MenuNodeData.mk.injEq, true_and]
  constructor
  · rintro ⟨hdigits, rfl⟩
    exact ⟨rfl, hdigits.symm⟩
  · rintro ⟨rfl, hdigits⟩
    exact ⟨hdigits.symm, rfl⟩

theorem map_option_iff (options : List MenuOption) (optionId : String) (patch : MenuOptionPatch) :
    (options.map fun o => if o.id = optionId then o.apply patch else o) = options ↔
      ∀ o ∈ options, o.id = optionId → o.apply patch = o := by
  have hid := List.map_inj_left (l := options)
    (f := fun o => if o.id = optionId then o.apply patch else o) (g := id)
  rw [List.map_id] at hid
  rw [hid]
  refine forall₂_congr fun o _ => ?_
  by_cases ho : o.id = optionId <;> simp [ho]

theorem map_filter_edges_iff (edges : List IvrEdge) (p : IvrEdge → Bool) :
    (edges.filter p).map IvrEdge.content = edges.map IvrEdge.content ↔ ∀ e ∈ edges, p e = true := by
  rw [← List.filter_eq_self]
  constructor
  · intro h
    have hlength := congrArg List.length h
    rw [List.length_map, List.length_map] at hlength
    exact List.filter_eq_self.mpr (List.length_filter_eq_length_iff.mp hlength)
  · intro h
    rw [h]

/-- A graph with one node more is another one. -/
theorem map_append_ne (nodes : List IvrNode) (node : IvrNode) :
    (nodes ++ [node]).map IvrNode.content ≠ nodes.map IvrNode.content := by
  intro h
  have hlength := congrArg List.length h
  rw [List.length_map, List.length_map, List.length_append, List.length_singleton] at hlength
  omega

theorem content_eq_iff {t : BuilderState} (hname : t.name = s.name)
    (hextension : t.extension = s.extension) (henabled : t.enabled = s.enabled) :
    t.content = s.content ↔ t.nodes.map IvrNode.content = s.nodes.map IvrNode.content ∧
      t.edges.map IvrEdge.content = s.edges.map IvrEdge.content := by
  unfold BuilderState.content
  rw [FlowContent.mk.injEq, hname, hextension, henabled]
  simp only [and_true]

/-- A snapshot that takes the place of the graph. -/
theorem content_snapshot_iff {t : BuilderState} {g : HistorySnapshot} (hname : t.name = s.name)
    (hextension : t.extension = s.extension) (henabled : t.enabled = s.enabled)
    (hgraph : t.snapshot = g) : t.content = s.content ↔ g.content = s.snapshot.content := by
  rw [content_eq_iff hname hextension henabled, ← hgraph]
  unfold HistorySnapshot.content BuilderState.snapshot
  rw [Prod.mk.injEq]

/-- An operation that adds a node changes the graph. -/
theorem content_addNode_ne {t : BuilderState} {node : IvrNode} (hnodes : t.nodes = s.nodes ++ [node]) :
    t.content ≠ s.content := by
  intro h
  have hsame : t.nodes.map IvrNode.content = s.nodes.map IvrNode.content :=
    congrArg FlowContent.nodes h
  rw [hnodes] at hsame
  exact map_append_ne s.nodes node hsame

theorem content_clearAll_iff : s.clearAll.content = s.content ↔ s.Harmless .clearAll := by
  rw [content_eq_iff (t := s.clearAll) (s := s) rfl rfl rfl]
  show (s.nodes.find? fun n => n.type = .start).toList.map IvrNode.content =
      s.nodes.map IvrNode.content ∧ [] = s.edges.map IvrEdge.content ↔ _
  constructor
  · rintro ⟨hnodes, hedges⟩
    have hlength := congrArg List.length hnodes
    rw [List.length_map, List.length_map] at hlength
    refine ⟨List.map_eq_nil_iff.mp hedges.symm, ?_, fun n hn => ?_⟩
    · have hle := Option.length_toList_le (o := s.nodes.find? fun n => n.type = .start)
      omega
    · cases hfind : s.nodes.find? fun n => n.type = .start with
      | none =>
        rw [hfind] at hlength
        have hnil := List.eq_nil_of_length_eq_zero hlength.symm
        rw [hnil] at hn
        cases hn
      | some start =>
        rw [hfind] at hlength
        obtain ⟨only, honly⟩ := List.length_eq_one_iff.mp hlength.symm
        rw [honly] at hn hfind
        obtain rfl := List.mem_singleton.mp hn
        have hstart := List.find?_some hfind
        have hmem := List.mem_of_find?_eq_some hfind
        obtain rfl := List.mem_singleton.mp hmem
        exact of_decide_eq_true hstart
  · rintro ⟨hedges, hlength, hstart⟩
    rw [hedges]
    refine ⟨?_, rfl⟩
    cases hnodes : s.nodes with
    | nil => rfl
    | cons n rest =>
      rw [hnodes, List.length_cons] at hlength
      have hrest := List.eq_nil_of_length_eq_zero (show rest.length = 0 by omega)
      have htype : n.type = .start := hstart n (hnodes ▸ List.mem_cons_self)
      rw [hrest]
      simp [htype]

theorem content_pasteNode_iff (position : Option XYPosition) (id : String) (fresh : Nat → String) :
    (s.pasteNode position id fresh).content = s.content ↔
      s.Harmless (.pasteNode position id fresh) := by
  unfold BuilderState.pasteNode
  split
  · rename_i hnone
    refine iff_of_true rfl fun data hdata => ?_
    rw [Option.filter_eq_none_iff] at hnone
    simpa using hnone data hdata
  · rename_i copied hcopied
    obtain ⟨hclip, hkind⟩ := Option.filter_eq_some_iff.mp hcopied
    refine iff_of_false (content_addNode_ne rfl) fun h => ?_
    exact of_decide_eq_true hkind (h copied hclip)

theorem content_duplicateNode_iff (id newId : String) (fresh : Nat → String) :
    (s.duplicateNode id newId fresh).content = s.content ↔
      s.Harmless (.duplicateNode id newId fresh) := by
  unfold BuilderState.duplicateNode
  split
  · rename_i hnone
    exact iff_of_true rfl hnone
  · rename_i node hnode
    refine iff_of_false (content_addNode_ne rfl) fun h => ?_
    have hnone : s.copyable id = none := h
    rw [hnode] at hnone
    cases hnone

theorem content_undo_iff : s.undo.content = s.content ↔ s.Harmless .undo := by
  cases hlast : s.past.getLast? with
  | none =>
    have hundo : s.undo = s := by
      unfold BuilderState.undo
      rw [hlast]
    refine iff_of_true (by rw [hundo]) fun g hg => ?_
    rw [hlast] at hg
    cases hg
  | some g =>
    have hname : s.undo.name = s.name := by unfold BuilderState.undo; split <;> rfl
    have hextension : s.undo.extension = s.extension := by unfold BuilderState.undo; split <;> rfl
    have henabled : s.undo.enabled = s.enabled := by unfold BuilderState.undo; split <;> rfl
    have hgraph : s.undo.snapshot = g := by
      unfold BuilderState.undo
      rw [hlast]
      rfl
    rw [content_snapshot_iff hname hextension henabled hgraph]
    show _ ↔ ∀ g' ∈ s.past.getLast?, _
    rw [hlast]
    exact ⟨fun h g' hg' => Option.some.inj hg' ▸ h, fun h => h g rfl⟩

theorem content_redo_iff : s.redo.content = s.content ↔ s.Harmless .redo := by
  cases hfuture : s.future with
  | nil =>
    have hredo : s.redo = s := by
      unfold BuilderState.redo
      rw [hfuture]
    refine iff_of_true (by rw [hredo]) fun g hg => ?_
    rw [hfuture] at hg
    cases hg
  | cons g future =>
    have hname : s.redo.name = s.name := by unfold BuilderState.redo; split <;> rfl
    have hextension : s.redo.extension = s.extension := by unfold BuilderState.redo; split <;> rfl
    have henabled : s.redo.enabled = s.enabled := by unfold BuilderState.redo; split <;> rfl
    have hgraph : s.redo.snapshot = g := by
      unfold BuilderState.redo
      rw [hfuture]
      rfl
    rw [content_snapshot_iff hname hextension henabled hgraph]
    show _ ↔ ∀ g' ∈ s.future.head?, _
    rw [hfuture]
    exact ⟨fun h g' hg' => Option.some.inj hg' ▸ h, fun h => h g rfl⟩

theorem content_addMenuOption_iff (nodeId : String) (digit : Char) (optionId : String) :
    (s.addMenuOption nodeId digit optionId).content = s.content ↔
      s.Harmless (.addMenuOption nodeId digit optionId) := by
  rw [content_eq_iff (t := s.addMenuOption nodeId digit optionId) (s := s) rfl rfl rfl]
  show (s.nodes.map _).map IvrNode.content = _ ∧ s.edges.map _ = _ ↔ s.menusOf nodeId = []
  rw [map_mapMenu_iff, and_iff_left rfl, List.eq_nil_iff_forall_not_mem]
  refine forall₂_congr fun data _ => ?_
  -- there is one option more
  rw [withOptions_eq_iff]
  simp

theorem content_updateMenuOption_iff (nodeId optionId : String) (patch : MenuOptionPatch) :
    (s.updateMenuOption nodeId optionId patch).content = s.content ↔
      s.Harmless (.updateMenuOption nodeId optionId patch) := by
  rw [content_eq_iff (t := s.updateMenuOption nodeId optionId patch) (s := s) rfl rfl rfl]
  show (s.nodes.map _).map IvrNode.content = _ ∧ s.edges.map _ = _ ↔ _
  rw [map_mapMenu_iff, and_iff_left rfl]
  refine forall₂_congr fun data _ => ?_
  rw [withOptions_eq_iff, map_option_iff, and_comm]

theorem content_removeMenuOption_iff (nodeId optionId : String) :
    (s.removeMenuOption nodeId optionId).content = s.content ↔
      s.Harmless (.removeMenuOption nodeId optionId) := by
  rw [content_eq_iff (t := s.removeMenuOption nodeId optionId) (s := s) rfl rfl rfl]
  show (s.nodes.map _).map IvrNode.content = _ ∧ (s.edges.filter _).map _ = _ ↔ _
  rw [map_mapMenu_iff, map_filter_edges_iff]
  refine and_congr (forall₂_congr fun data _ => ?_) (forall₂_congr fun e _ => ?_)
  · rw [withOptions_eq_iff, List.filter_eq_self, and_comm]
    simp only [decide_eq_true_eq]
  · simp only [decide_eq_true_eq]

end Content

/-! ## Runs -/

section Runs

variable {rf : ReactFlow} {s : BuilderState}

/-- The operations that look at `readOnly` change its content at most in the view. -/
theorem content_onNodesChange (hread : s.readOnly = true) (changes : List NodeChange) :
    (s.onNodesChange rf changes).content = s.content := by
  unfold BuilderState.onNodesChange
  rw [if_pos hread]
  refine (content_eq_iff (by rfl) (by rfl) (by rfl)).mpr ⟨?_, rfl⟩
  exact rf.content_applyNodeChanges _ _ fun c hc => (List.mem_filter.mp hc).2

theorem content_onEdgesChange (hread : s.readOnly = true) (changes : List EdgeChange) :
    (s.onEdgesChange rf changes).content = s.content := by
  unfold BuilderState.onEdgesChange
  rw [if_pos hread]
  refine (content_eq_iff (by rfl) (by rfl) (by rfl)).mpr ⟨rfl, ?_⟩
  exact rf.content_applyEdgeChanges _ _ fun c hc => (List.mem_filter.mp hc).2

theorem removeNode_of_readOnly (hread : s.readOnly = true) (id : String) : s.removeNode id = s := by
  unfold BuilderState.removeNode
  rw [if_pos hread]

theorem content_cutNode (hread : s.readOnly = true) (id : String) (fresh : Nat → String) :
    (s.cutNode id fresh).content = s.content := by
  unfold BuilderState.cutNode
  split
  · rfl
  · rename_i node hnode
    have hremove := removeNode_of_readOnly
      (s := { s with clipboard := some (cloneNodeData node.data fresh) }) hread id
    rw [hremove]
    rfl

theorem content_copyNode (id : String) (fresh : Nat → String) :
    (s.copyNode id fresh).content = s.content := by
  unfold BuilderState.copyNode
  split <;> rfl

/-- In read-only mode the flow is unchanged exactly by the harmless operations. -/
theorem content_apply_iff (hread : s.readOnly = true) (op : BuilderOp) :
    (s.apply rf op).content = s.content ↔ s.Harmless op := by
  cases op with
  | setMeta patch =>
    exact iff_of_true (by rw [BuilderState.apply, BuilderState.setMeta, if_pos hread]) trivial
  | importFlow parsed =>
    refine iff_of_true ?_ trivial
    show (s.importFlow parsed).content = s.content
    unfold BuilderState.importFlow
    rw [if_pos hread]
  | onNodesChange changes => exact iff_of_true (content_onNodesChange hread changes) trivial
  | onEdgesChange changes => exact iff_of_true (content_onEdgesChange hread changes) trivial
  | onConnect connection =>
    exact iff_of_true (by rw [BuilderState.apply, BuilderState.onConnect, if_pos hread]) trivial
  | addNode kind position id fresh =>
    exact iff_of_true (by rw [BuilderState.apply, BuilderState.addNode, if_pos hread]) trivial
  | updateNodeData id patch =>
    exact iff_of_true (by rw [BuilderState.apply, BuilderState.updateNodeData, if_pos hread]) trivial
  | removeNode id =>
    exact iff_of_true (by rw [BuilderState.apply, removeNode_of_readOnly hread]) trivial
  | removeEdge id =>
    exact iff_of_true (by rw [BuilderState.apply, BuilderState.removeEdge, if_pos hread]) trivial
  | selectNode id => exact iff_of_true rfl trivial
  | copyNode id fresh => exact iff_of_true (content_copyNode id fresh) trivial
  | cutNode id fresh => exact iff_of_true (content_cutNode hread id fresh) trivial
  | pasteNode position id fresh => exact content_pasteNode_iff position id fresh
  | duplicateNode id newId fresh => exact content_duplicateNode_iff id newId fresh
  | clearAll => exact content_clearAll_iff
  | undo => exact content_undo_iff
  | redo => exact content_redo_iff
  | addMenuOption nodeId digit optionId => exact content_addMenuOption_iff nodeId digit optionId
  | updateMenuOption nodeId optionId patch =>
    exact content_updateMenuOption_iff nodeId optionId patch
  | removeMenuOption nodeId optionId => exact content_removeMenuOption_iff nodeId optionId

/-- No operation leaves the mode or the flow. -/
theorem keeps_apply (op : BuilderOp) :
    (s.apply rf op).readOnly = s.readOnly ∧ (s.apply rf op).flowId = s.flowId := by
  cases op
  all_goals
    simp only [BuilderState.apply, BuilderState.setMeta, BuilderState.importFlow,
      BuilderState.onNodesChange, BuilderState.onEdgesChange, BuilderState.onConnect,
      BuilderState.addNode, BuilderState.updateNodeData, BuilderState.removeNode,
      BuilderState.removeEdge, BuilderState.selectNode, BuilderState.copyNode,
      BuilderState.cutNode, BuilderState.pasteNode, BuilderState.duplicateNode,
      BuilderState.clearAll, BuilderState.undo, BuilderState.redo, BuilderState.addMenuOption,
      BuilderState.updateMenuOption, BuilderState.removeMenuOption]
    -- guards and searches decide what else the operation does
    repeat' split
    all_goals constructor <;> trivial

theorem readOnly_apply (op : BuilderOp) : (s.apply rf op).readOnly = s.readOnly :=
  (keeps_apply op).1

theorem flowId_apply (op : BuilderOp) : (s.apply rf op).flowId = s.flowId :=
  (keeps_apply op).2

/-- One operation after the other. -/
def builderStep (rf : ReactFlow) (s : BuilderState) (op : BuilderOp) : Option BuilderState :=
  some (s.apply rf op)

/-- A read-only flow stays as it is exactly in the runs of harmless operations. -/
theorem unchanged_throughout_iff (hread : s.readOnly = true) (ops : List BuilderOp) :
    Throughout (builderStep rf) (fun t => t.content = s.content) s ops ↔
      Meets (builderStep rf) BuilderState.Harmless s ops := by
  have hprotocol : Meets (builderStep rf) (fun _ _ => True) s ops :=
    Machine.meets_of_mem fun _ _ => trivial
  refine Machine.throughout_iff_meets
    (I := fun t => t.readOnly = true ∧ t.content = s.content) (fun _ h => h.2) ?_ ?_ ?_
    ⟨hread, rfl⟩ hprotocol
  · rintro t op t' ⟨ht, hcontent⟩ _ hharmless hstep
    obtain rfl := Option.some.inj hstep
    exact ⟨(readOnly_apply op).trans ht, ((content_apply_iff ht op).mpr hharmless).trans hcontent⟩
  · rintro t op t' ⟨ht, hcontent⟩ _ hstep hsame
    obtain rfl := Option.some.inj hstep
    have hiff : (t.apply rf op).content = t.content ↔ t.Harmless op := content_apply_iff ht op
    exact hiff.mp (hsame.trans hcontent.symm)
  · rintro t op hnone
    cases hnone

end Runs

/-! ## A flow that changes -/

/-- One change to the nodes. -/
def NodeChange.applyTo (nodes : List IvrNode) : NodeChange → List IvrNode
  | .select id selected => nodes.map fun n =>
    if n.id = id then { n with view := { n.view with selected } } else n
  | .dimensions id size => nodes.map fun n =>
    if n.id = id then { n with view := { n.view with size } } else n
  | .position id place _ => nodes.map fun n =>
    if n.id = id then { n with position := place.getD n.position } else n
  | .remove id => nodes.filter fun n => n.id ≠ id
  | .add node => nodes ++ [node]
  | .replace id node => nodes.map fun n => if n.id = id then node else n

/-- One change to the edges. -/
def EdgeChange.applyTo (edges : List IvrEdge) : EdgeChange → List IvrEdge
  | .select id selected => edges.map fun e =>
    if e.id = id then { e with view := { e.view with selected } } else e
  | .remove id => edges.filter fun e => e.id ≠ id
  | .add edge => edges ++ [edge]
  | .replace id edge => edges.map fun e => if e.id = id then edge else e

theorem content_applyTo {c : NodeChange} (hview : c.IsView = true) (nodes : List IvrNode) :
    (c.applyTo nodes).map IvrNode.content = nodes.map IvrNode.content := by
  cases c with
  | select id selected | dimensions id size =>
    rw [NodeChange.applyTo, List.map_map, List.map_inj_left]
    intro n _
    by_cases hid : n.id = id <;> simp [hid, IvrNode.content]
  | position | remove | add | replace => cases hview

theorem content_applyTo_edges {c : EdgeChange} (hview : c.IsView = true) (edges : List IvrEdge) :
    (c.applyTo edges).map IvrEdge.content = edges.map IvrEdge.content := by
  cases c with
  | select id selected =>
    rw [EdgeChange.applyTo, List.map_map, List.map_inj_left]
    intro e _
    by_cases hid : e.id = id <;> simp [hid, IvrEdge.content]
  | remove | add | replace => cases hview

/-- React Flow with one change applied after the other. -/
def ReactFlow.plain : ReactFlow where
  applyNodeChanges changes nodes := changes.foldl NodeChange.applyTo nodes
  applyEdgeChanges changes edges := changes.foldl EdgeChange.applyTo edges
  addEdge c edges := edges ++ [⟨"xy-edge__" ++ c.source ++ c.sourceHandle.getD "" ++ "-" ++ c.target ++
    c.targetHandle.getD "", c.source, c.target, c.sourceHandle, c.targetHandle, {}⟩]
  content_applyNodeChanges changes nodes hview := by
    induction changes generalizing nodes with
    | nil => rfl
    | cons c changes ih =>
      rw [List.foldl_cons, ih _ fun c' hc' => hview c' (List.mem_cons_of_mem _ hc'),
        content_applyTo (hview c List.mem_cons_self)]
  content_applyEdgeChanges changes edges hview := by
    induction changes generalizing edges with
    | nil => rfl
    | cons c changes ih =>
      rw [List.foldl_cons, ih _ fun c' hc' => hview c' (List.mem_cons_of_mem _ hc'),
        content_applyTo_edges (hview c List.mem_cons_self)]

/-- A flow with a start node and an announcement, shown read-only. -/
def shownFlow : BuilderState :=
  { flowId := some "flow_1", name := "Sales", extension := "5000", enabled := true
    nodes :=
      [⟨"start_1", .start, ⟨80, 200⟩, .start "Start" "5000" (emptyPrompt "Hello."), some false, {}⟩,
        ⟨"play_2", .play, ⟨360, 80⟩, .play "Play message" (emptyPrompt "Thank you.") true, none, {}⟩]
    edges := [⟨"e1", "start_1", "play_2", none, none, {}⟩]
    selectedNodeId := none, clipboard := none, past := [], future := [], dirty := false
    readOnly := true, dragActive := false }

/-- Selecting and moving a node changes nothing. -/
theorem unchanged_shownFlow :
    Throughout (builderStep .plain) (fun t => t.content = shownFlow.content) shownFlow
      [.onNodesChange [.select "play_2" true, .position "play_2" (some ⟨0, 0⟩) (some true)], .undo] :=
  (unchanged_throughout_iff rfl _).mpr (by decide +kernel)

/-- Clearing it empties the flow. -/
theorem not_unchanged_shownFlow :
    ¬Throughout (builderStep .plain) (fun t => t.content = shownFlow.content) shownFlow
      [.clearAll] := by
  intro h
  have hlast := h.last rfl
  exact absurd hlast (by decide +kernel)

end CallNet.Web
