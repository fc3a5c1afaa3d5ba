import CallNet.Spec.ReadOnlyBuilder

/-!
# Undo and redo in the builder

What undo and redo should do is said by a timeline of edits; the store has the snapshots of it.
An operation that changes the graph without a snapshot breaks the two apart, and
`updateNodeData` and `updateMenuOption` do.
-/

namespace CallNet.Web

open Machine (Meets Throughout)

/-! ## The property and its condition -/

namespace BuilderState

/-- The snapshots of the store. -/
def history (s : BuilderState) : UndoHistory HistorySnapshot := ⟨s.past, s.future⟩

/-- The operation edits the graph.  A drag is one edit, made when it begins. -/
def IsEdit (s : BuilderState) : BuilderOp → Prop
  | .importFlow parsed => s.readOnly = false ∧ parsed.isSome
  | .onNodesChange changes => s.readOnly = false ∧
    (changes.any NodeChange.IsRemove ∨ s.dragActive = false ∧ ¬changes.all NodeChange.IsView)
  | .onEdgesChange changes => s.readOnly = false ∧ ¬changes.all EdgeChange.IsView
  | .onConnect _ | .addNode .. | .removeEdge _ => s.readOnly = false
  | .updateNodeData id patch => (s.updateNodeData id patch).content ≠ s.content
  | .removeNode id => s.readOnly = false ∧ ¬(s.nodes.find? fun n => n.id = id).any fun n => n.type = .start
  | .cutNode id _ => s.readOnly = false ∧ (s.copyable id).isSome ∧
    ¬(s.nodes.find? fun n => n.id = id).any fun n => n.type = .start
  | .pasteNode .. => (s.clipboard.filter fun data => data.kind ≠ .start).isSome
  | .duplicateNode id _ _ => (s.copyable id).isSome
  | .clearAll | .addMenuOption .. | .removeMenuOption .. => True
  | .updateMenuOption nodeId optionId patch =>
    (s.updateMenuOption nodeId optionId patch).content ≠ s.content
  | .setMeta _ | .selectNode _ | .copyNode .. | .undo | .redo => False

instance (s : BuilderState) : ∀ op, Decidable (s.IsEdit op)
  | .importFlow _ => inferInstanceAs (Decidable (_ ∧ _))
  | .onNodesChange _ => inferInstanceAs (Decidable (_ ∧ (_ ∨ _ ∧ ¬_)))
  | .onEdgesChange _ => inferInstanceAs (Decidable (_ ∧ ¬_))
  | .onConnect _ | .addNode .. | .removeEdge _ => inferInstanceAs (Decidable (_ = _))
  | .updateNodeData .. | .updateMenuOption .. => inferInstanceAs (Decidable (_ ≠ _))
  | .removeNode _ => inferInstanceAs (Decidable (_ ∧ ¬_))
  | .cutNode .. => inferInstanceAs (Decidable (_ ∧ _ ∧ ¬_))
  | .pasteNode .. | .duplicateNode .. => inferInstanceAs (Decidable (_ = true))
  | .clearAll | .addMenuOption .. | .removeMenuOption .. => inferInstanceAs (Decidable True)
  | .setMeta _ | .selectNode _ | .copyNode .. | .undo | .redo => inferInstanceAs (Decidable False)

/-- The operation changes nothing without a snapshot: no node data and no menu option, and of
    React Flow's own changes only removals, drags and changes of the view. -/
def Recorded (s : BuilderState) : BuilderOp → Prop
  | .updateNodeData id patch => s.readOnly = true ∨ ∀ n ∈ s.nodes, n.id = id → patch n.data = n.data
  | .updateMenuOption nodeId optionId patch => ∀ data ∈ s.menusOf nodeId,
    data.InSync ∧ ∀ o ∈ data.options, o.id = optionId → o.apply patch = o
  | .onNodesChange changes => s.readOnly = true ∨ s.dragActive = true ∨
    changes.any NodeChange.IsRemove ∨ changes.any (NodeChange.Dragging true) ∨
    changes.all NodeChange.IsView
  | .onEdgesChange changes => s.readOnly = true ∨ changes.any EdgeChange.IsRemove ∨
    changes.all EdgeChange.IsView
  | .setMeta _ | .importFlow _ | .onConnect _ | .addNode .. | .removeNode _ | .removeEdge _
  | .selectNode _ | .copyNode .. | .cutNode .. | .pasteNode .. | .duplicateNode .. | .clearAll
  | .undo | .redo | .addMenuOption .. | .removeMenuOption .. => True

instance (s : BuilderState) : ∀ op, Decidable (s.Recorded op)
  | .updateNodeData .. => inferInstanceAs (Decidable (_ ∨ ∀ n ∈ s.nodes, _ → _))
  | .updateMenuOption nodeId _ _ => inferInstanceAs (Decidable (∀ data ∈ s.menusOf nodeId, _ ∧ _))
  | .onNodesChange _ => inferInstanceAs (Decidable (_ ∨ _ ∨ _ ∨ _ ∨ _))
  | .onEdgesChange _ => inferInstanceAs (Decidable (_ ∨ _ ∨ _))
  | .setMeta _ | .importFlow _ | .onConnect _ | .addNode .. | .removeNode _ | .removeEdge _
  | .selectNode _ | .copyNode .. | .cutNode .. | .pasteNode .. | .duplicateNode .. | .clearAll
  | .undo | .redo | .addMenuOption .. | .removeMenuOption .. => inferInstanceAs (Decidable True)

end BuilderState

/-! ## Snapshots -/

section Snapshots

variable {rf : ReactFlow} {s : BuilderState}

theorem history_pushHistory (s : BuilderState) :
    s.pushHistory.history = s.history.record HISTORY_LIMIT s.snapshot := by
  generalize hlimit : HISTORY_LIMIT = limit
  unfold BuilderState.history BuilderState.pushHistory UndoHistory.record
  rw [hlimit]

theorem content_updateNodeData_iff (id : String) (patch : IvrNodeData → IvrNodeData) :
    (s.updateNodeData id patch).content = s.content ↔
      (s.readOnly = true ∨ ∀ n ∈ s.nodes, n.id = id → patch n.data = n.data) := by
  unfold BuilderState.updateNodeData
  split
  · rename_i hread
    exact iff_of_true rfl (.inl hread)
  · rename_i hread
    rw [or_iff_right hread]
    refine (content_eq_iff (by rfl) (by rfl) (by rfl)).trans ?_
    show (s.nodes.map _).map IvrNode.content = _ ∧ s.edges.map _ = _ ↔ _
    rw [and_iff_left rfl, List.map_map, List.map_inj_left]
    refine forall₂_congr fun n _ => ?_
    by_cases hid : n.id = id <;> simp [hid, IvrNode.content]

theorem history_onNodesChange {changes : List NodeChange}
    (hedit : s.IsEdit (.onNodesChange changes)) (hrecorded : s.Recorded (.onNodesChange changes)) :
    (s.onNodesChange rf changes).history = s.history.record HISTORY_LIMIT s.snapshot := by
  obtain ⟨hread, hkind⟩ := hedit
  have hpush : (changes.any NodeChange.IsRemove || (!changes.any NodeChange.IsRemove &&
      changes.any (NodeChange.Dragging true) && !s.dragActive)) = true := by
    rcases hkind with hremove | ⟨hidle, hnot⟩
    · rw [hremove, Bool.true_or]
    · rcases hrecorded with hr | hdrag | hremove | hstart | hview
      · rw [hread] at hr
        cases hr
      · rw [hdrag] at hidle
        cases hidle
      · rw [hremove, Bool.true_or]
      · rw [hstart, hidle]
        cases changes.any NodeChange.IsRemove <;> rfl
      · exact absurd hview hnot
  unfold BuilderState.onNodesChange
  rw [if_neg (Bool.eq_false_iff.mp hread)]
  dsimp only
  rw [if_pos hpush]
  exact history_pushHistory s

theorem history_onEdgesChange {changes : List EdgeChange}
    (hedit : s.IsEdit (.onEdgesChange changes)) (hrecorded : s.Recorded (.onEdgesChange changes)) :
    (s.onEdgesChange rf changes).history = s.history.record HISTORY_LIMIT s.snapshot := by
  obtain ⟨hread, hnot⟩ := hedit
  have hremove : changes.any EdgeChange.IsRemove = true := by
    rcases hrecorded with hr | hremove | hview
    · rw [hread] at hr
      cases hr
    · exact hremove
    · exact absurd hview hnot
  unfold BuilderState.onEdgesChange
  rw [if_neg (Bool.eq_false_iff.mp hread)]
  dsimp only
  rw [if_pos hremove]
  exact history_pushHistory s

theorem history_cutNode {id : String} {fresh : Nat → String} (hedit : s.IsEdit (.cutNode id fresh)) :
    (s.cutNode id fresh).history = s.history.record HISTORY_LIMIT s.snapshot := by
  obtain ⟨hread, hcopyable, hstart⟩ := hedit
  obtain ⟨node, hnode⟩ := Option.isSome_iff_exists.mp hcopyable
  unfold BuilderState.cutNode
  rw [hnode]
  dsimp only
  unfold BuilderState.removeNode
  rw [if_neg (Bool.eq_false_iff.mp hread), if_neg hstart]
  exact history_pushHistory s

/-- An edit that is recorded takes its snapshot first. -/
theorem history_of_isEdit (op : BuilderOp) (hedit : s.IsEdit op) (hrecorded : s.Recorded op) :
    (s.apply rf op).history = s.history.record HISTORY_LIMIT s.snapshot := by
  cases op with
  | setMeta | selectNode | copyNode | undo | redo => exact hedit.elim
  | importFlow parsed =>
    obtain ⟨hread, hparsed⟩ := hedit
    obtain ⟨flow, rfl⟩ := Option.isSome_iff_exists.mp hparsed
    show (s.importFlow (some flow)).history = _
    unfold BuilderState.importFlow
    rw [if_neg (Bool.eq_false_iff.mp hread)]
    exact history_pushHistory s
  | onNodesChange changes => exact history_onNodesChange hedit hrecorded
  | onEdgesChange changes => exact history_onEdgesChange hedit hrecorded
  | onConnect connection =>
    show (s.onConnect rf connection).history = _
    unfold BuilderState.onConnect
    rw [if_neg (Bool.eq_false_iff.mp hedit)]
    exact history_pushHistory s
  | addNode kind position id fresh =>
    show (s.addNode kind position id fresh).history = _
    unfold BuilderState.addNode
    rw [if_neg (Bool.eq_false_iff.mp hedit)]
    exact history_pushHistory s
  | updateNodeData id patch => exact absurd ((content_updateNodeData_iff id patch).mpr hrecorded) hedit
  | removeNode id =>
    obtain ⟨hread, hstart⟩ := hedit
    show (s.removeNode id).history = _
    unfold BuilderState.removeNode
    rw [if_neg (Bool.eq_false_iff.mp hread), if_neg hstart]
    exact history_pushHistory s
  | removeEdge id =>
    show (s.removeEdge id).history = _
    unfold BuilderState.removeEdge
    rw [if_neg (Bool.eq_false_iff.mp hedit)]
    exact history_pushHistory s
  | cutNode id fresh => exact history_cutNode hedit
  | pasteNode position id fresh =>
    obtain ⟨data, hdata⟩ := Option.isSome_iff_exists.mp hedit
    show (s.pasteNode position id fresh).history = _
    unfold BuilderState.pasteNode
    rw [hdata]
    exact history_pushHistory s
  | duplicateNode id newId fresh =>
    obtain ⟨node, hnode⟩ := Option.isSome_iff_exists.mp hedit
    show (s.duplicateNode id newId fresh).history = _
    unfold BuilderState.duplicateNode
    rw [hnode]
    exact history_pushHistory s
  | clearAll => exact history_pushHistory s
  | addMenuOption nodeId digit optionId => exact history_pushHistory s
  | updateMenuOption nodeId optionId patch =>
    exact absurd ((content_updateMenuOption_iff nodeId optionId patch).mpr hrecorded) hedit
  | removeMenuOption nodeId optionId => exact history_pushHistory s

/-! ### Operations that are no edits -/

/-- A move is no change of the view. -/
theorem not_all_isView {changes : List NodeChange}
    (hstart : changes.any (NodeChange.Dragging true) = true) : ¬changes.all NodeChange.IsView := by
  intro hall
  obtain ⟨c, hc, hdragging⟩ := List.any_eq_true.mp hstart
  have hview := List.all_eq_true.mp hall c hc
  cases c with
  | position => cases hview
  | _ => cases hdragging

theorem history_onNodesChange_quiet {changes : List NodeChange}
    (hedit : ¬s.IsEdit (.onNodesChange changes)) :
    (s.onNodesChange rf changes).history = s.history := by
  unfold BuilderState.onNodesChange
  split
  · rfl
  · rename_i hread
    have hquiet : (changes.any NodeChange.IsRemove || (!changes.any NodeChange.IsRemove &&
        changes.any (NodeChange.Dragging true) && !s.dragActive)) = false := by
      have hkind := not_or.mp (not_and.mp hedit (Bool.eq_false_iff.mpr hread))
      rw [Bool.eq_false_iff.mpr hkind.1, Bool.false_or, Bool.not_false, Bool.true_and,
        Bool.eq_false_iff, ne_eq, Bool.and_eq_true, Bool.not_eq_true']
      rintro ⟨hstart, hidle⟩
      exact hkind.2 ⟨hidle, not_all_isView hstart⟩
    dsimp only
    rw [if_neg (Bool.eq_false_iff.mp hquiet)]
    rfl

theorem history_onEdgesChange_quiet {changes : List EdgeChange}
    (hedit : ¬s.IsEdit (.onEdgesChange changes)) :
    (s.onEdgesChange rf changes).history = s.history := by
  unfold BuilderState.onEdgesChange
  split
  · rfl
  · rename_i hread
    have hall := not_not.mp (not_and.mp hedit (Bool.eq_false_iff.mpr hread))
    have hkeep : changes.any EdgeChange.IsRemove ≠ true := by
      intro hany
      obtain ⟨c, hc, hremove⟩ := List.any_eq_true.mp hany
      have hview := List.all_eq_true.mp hall c hc
      cases c with
      | remove => cases hview
      | _ => cases hremove
    dsimp only
    rw [if_neg hkeep]
    rfl

theorem history_removeNode_quiet {id : String} (hedit : ¬s.IsEdit (.removeNode id)) :
    (s.removeNode id).history = s.history := by
  unfold BuilderState.removeNode
  split
  · rfl
  · rename_i hread
    rw [if_pos (not_not.mp (not_and.mp hedit (Bool.eq_false_iff.mpr hread)))]

theorem history_cutNode_quiet {id : String} {fresh : Nat → String}
    (hedit : ¬s.IsEdit (.cutNode id fresh)) : (s.cutNode id fresh).history = s.history := by
  unfold BuilderState.cutNode
  split
  · rfl
  · rename_i node hnode
    have hremove : ¬BuilderState.IsEdit { s with clipboard := some (cloneNodeData node.data fresh) }
        (.removeNode id) := by
      rintro ⟨hread, hstart⟩
      exact hedit ⟨hread, by rw [hnode]; rfl, hstart⟩
    exact history_removeNode_quiet hremove

/-- What is no edit, nor undo or redo, leaves the snapshots as they are. -/
theorem history_of_not_isEdit (op : BuilderOp) (hundo : op ≠ .undo) (hredo : op ≠ .redo)
    (hedit : ¬s.IsEdit op) : (s.apply rf op).history = s.history := by
  cases op with
  | undo => exact absurd rfl hundo
  | redo => exact absurd rfl hredo
  | clearAll | addMenuOption | removeMenuOption => exact absurd trivial hedit
  | setMeta patch =>
    show (s.setMeta patch).history = _
    unfold BuilderState.setMeta
    split <;> rfl
  | importFlow parsed =>
    show (s.importFlow parsed).history = _
    unfold BuilderState.importFlow
    split
    · rfl
    · rename_i hread
      cases parsed with
      | none => rfl
      | some flow => exact absurd ⟨Bool.eq_false_iff.mpr hread, rfl⟩ hedit
  | onNodesChange changes => exact history_onNodesChange_quiet hedit
  | onEdgesChange changes => exact history_onEdgesChange_quiet hedit
  | onConnect connection =>
    show (s.onConnect rf connection).history = _
    unfold BuilderState.onConnect
    rw [if_pos (Bool.not_eq_false _ ▸ hedit)]
  | addNode kind position id fresh =>
    show (s.addNode kind position id fresh).history = _
    unfold BuilderState.addNode
    rw [if_pos (Bool.not_eq_false _ ▸ hedit)]
  | updateNodeData id patch =>
    show (s.updateNodeData id patch).history = _
    unfold BuilderState.updateNodeData
    split <;> rfl
  | removeNode id => exact history_removeNode_quiet hedit
  | removeEdge id =>
    show (s.removeEdge id).history = _
    unfold BuilderState.removeEdge
    rw [if_pos (Bool.not_eq_false _ ▸ hedit)]
  | selectNode id => rfl
  | copyNode id fresh =>
    show (s.copyNode id fresh).history = _
    unfold BuilderState.copyNode
    split <;> rfl
  | cutNode id fresh => exact history_cutNode_quiet hedit
  | pasteNode position id fresh =>
    show (s.pasteNode position id fresh).history = _
    unfold BuilderState.pasteNode
    rw [Option.not_isSome_iff_eq_none.mp hedit]
  | duplicateNode id newId fresh =>
    show (s.duplicateNode id newId fresh).history = _
    unfold BuilderState.duplicateNode
    rw [Option.not_isSome_iff_eq_none.mp hedit]
  | updateMenuOption nodeId optionId patch => rfl

end Snapshots

/-- The store with the timeline of its edits. -/
structure EditSession where
  store : BuilderState
  timeline : Timeline HistorySnapshot

namespace EditSession

/-- The timeline after an operation.  Undo stops where the store has no snapshot left. -/
def track (s : EditSession) : BuilderOp → Timeline HistorySnapshot
  | .undo => if s.store.past = [] then s.timeline else s.timeline.undo s.store.snapshot
  | .redo => s.timeline.redo s.store.snapshot
  | op => if s.store.IsEdit op then s.timeline.edit s.store.snapshot else s.timeline

def step (rf : ReactFlow) (s : EditSession) (op : BuilderOp) : Option EditSession :=
  some ⟨s.store.apply rf op, s.track op⟩

/-- A flow that has just been loaded. -/
def load (s : BuilderState) (flow : IvrFlow) : EditSession := ⟨s.loadFlow flow, .start⟩

structure UndoLaw (s : EditSession) : Prop where
  /-- Undo restores the graph before the last edit that is not undone, for the last 50 edits. -/
  undo : ∀ n g, s.timeline.done.getLast? = some (n, g) → s.timeline.Recent HISTORY_LIMIT n →
    s.store.undo.snapshot = g
  /-- Otherwise it restores this graph or none. -/
  undo_any : s.store.undo.snapshot = s.store.snapshot ∨
    ∃ n g, s.timeline.done.getLast? = some (n, g) ∧ s.store.undo.snapshot = g
  /-- Redo restores the graph that was undone last. -/
  redo : ∀ n g rest, s.timeline.undone = (n, g) :: rest → s.store.redo.snapshot = g
  /-- After an edit, and with nothing undone, it discards nothing. -/
  redo_none : s.timeline.undone = [] → s.store.redo.snapshot = s.store.snapshot

/-! ## The invariant -/

/-- The snapshots of the store are those of the timeline. -/
def Tracked (s : EditSession) : Prop := s.store.history.Tracks HISTORY_LIMIT s.timeline

theorem Tracked.undoLaw {s : EditSession} (h : s.Tracked) : s.UndoLaw := by
  have hundo : ∀ g, s.store.past.getLast? = some g → s.store.undo.snapshot = g := by
    intro g hg
    unfold BuilderState.undo
    rw [hg]
    rfl
  refine ⟨fun n g hlast hrecent => hundo g (h.getLast?_past hlast hrecent), ?_, ?_, ?_⟩
  · cases hlast : s.store.past.getLast? with
    | none =>
      left
      unfold BuilderState.undo
      rw [hlast]
    | some g =>
      obtain ⟨n, hn⟩ := h.getLast?_done hlast
      exact .inr ⟨n, g, hn, hundo g hlast⟩
  · intro n g rest hundone
    have hfuture : s.store.future = g :: rest.map Prod.snd := by
      have hmap := h.future
      rw [hundone] at hmap
      exact hmap.symm
    unfold BuilderState.redo
    rw [hfuture]
    rfl
  · intro hundone
    have hfuture : s.store.future = [] := by
      have hmap := h.future
      rw [hundone] at hmap
      exact hmap.symm
    unfold BuilderState.redo
    rw [hfuture]

/-! ## Steps -/

variable {rf : ReactFlow} {s : EditSession}

theorem Tracked.undo (h : s.Tracked) : s.store.undo.history.Tracks HISTORY_LIMIT
    (if s.store.past = [] then s.timeline else s.timeline.undo s.store.snapshot) := by
  split
  · rename_i hpast
    have hsame : s.store.undo = s.store := by
      unfold BuilderState.undo
      rw [hpast]
      rfl
    rw [hsame]
    exact h
  · rename_i hpast
    have hundo : s.store.undo.history = s.store.history.undo HISTORY_LIMIT s.store.snapshot := by
      unfold BuilderState.undo
      rw [List.getLast?_eq_some_getLast hpast]
      rfl
    rw [hundo]
    exact UndoHistory.Tracks.undo h s.store.snapshot hpast

theorem Tracked.redo (h : s.Tracked) : s.store.redo.history.Tracks HISTORY_LIMIT
    (s.timeline.redo s.store.snapshot) := by
  cases hfuture : s.store.future with
  | nil =>
    have hundone : s.timeline.undone = [] := by
      have hmap := h.future
      rw [show s.store.history.future = [] from hfuture] at hmap
      exact List.map_eq_nil_iff.mp hmap
    have hsame : s.store.redo = s.store := by
      unfold BuilderState.redo
      rw [hfuture]
    have htimeline : s.timeline.redo s.store.snapshot = s.timeline := by
      unfold Timeline.redo
      rw [hundone]
    rw [hsame, htimeline]
    exact h
  | cons next future =>
    have hne : s.store.history.future ≠ [] := by
      rw [show s.store.history.future = next :: future from hfuture]
      exact List.cons_ne_nil next future
    have hredo : s.store.redo.history = s.store.history.redo HISTORY_LIMIT s.store.snapshot := by
      generalize hlimit : HISTORY_LIMIT = limit
      unfold BuilderState.redo BuilderState.history UndoHistory.redo
      rw [hfuture, hlimit]
      rfl
    rw [hredo]
    exact UndoHistory.Tracks.redo h s.store.snapshot hne

theorem tracked_step {op : BuilderOp} {s' : EditSession} (h : s.Tracked)
    (hrecorded : s.store.Recorded op) (hstep : step rf s op = some s') : s'.Tracked := by
  obtain rfl := Option.some.inj hstep
  by_cases hundo : op = .undo
  · subst hundo
    exact h.undo
  · by_cases hredo : op = .redo
    · subst hredo
      exact h.redo
    · have htrack : s.track op =
          if s.store.IsEdit op then s.timeline.edit s.store.snapshot else s.timeline := by
        unfold track
        split
        · exact absurd rfl hundo
        · exact absurd rfl hredo
        · rfl
      show (s.store.apply rf op).history.Tracks HISTORY_LIMIT (s.track op)
      rw [htrack]
      split
      · rename_i hedit
        rw [history_of_isEdit op hedit hrecorded]
        exact UndoHistory.Tracks.edit h s.store.snapshot
      · rename_i hedit
        rw [history_of_not_isEdit op hundo hredo hedit]
        exact h

theorem tracked_load (s : BuilderState) (flow : IvrFlow) : (load s flow).Tracked :=
  UndoHistory.Tracks.start HISTORY_LIMIT

/-- Undo and redo do what they should in every run that records what it changes. -/
theorem undoLaw_throughout (rf : ReactFlow) (s : BuilderState) (flow : IvrFlow)
    (ops : List BuilderOp)
    (hrecorded : Meets (step rf) (fun s op => s.store.Recorded op) (load s flow) ops) :
    Throughout (step rf) UndoLaw (load s flow) ops :=
  (Machine.throughout_of_meets (fun _ _ _ h hG => tracked_step h hG)
    (tracked_load s flow) hrecorded).mono fun _ h => h.undoLaw

/-! ### An edit that is not recorded -/

/-- A saved flow of a start node. -/
def savedFlow : IvrFlow :=
  { id := "flow_1", name := "Sales", extension := "5000", enabled := true
    nodes := [⟨"start_1", .start, some ⟨80, 200⟩, .start "Start" "5000" (emptyPrompt "Hello."), none, {}⟩]
    edges := [] }

/-- A store in which nothing is loaded yet. -/
def emptyStore : BuilderState :=
  { flowId := none, name := "", extension := "", enabled := true, nodes := [], edges := []
    selectedNodeId := none, clipboard := none, past := [], future := [], dirty := false
    readOnly := false, dragActive := false }

def addAnnouncement : BuilderOp := .addNode .play none "play_2" fun _ => "opt"

/-- The label of the start node is edited. -/
def renameStart : BuilderOp := .updateNodeData "start_1" fun
  | .start _ extension greeting => .start "Welcome" extension greeting
  | data => data

/-- An added node, undone and redone. -/
theorem undoLaw_addAnnouncement :
    Throughout (step .plain) UndoLaw (load emptyStore savedFlow) [addAnnouncement, .undo, .redo] :=
  undoLaw_throughout .plain emptyStore savedFlow _ (by decide +kernel)

/-- Undo after renaming a node takes back the edit before it as well, and redo discards the new
    name. -/
theorem not_undoLaw_renameStart :
    ¬Throughout (step .plain) UndoLaw (load emptyStore savedFlow) [addAnnouncement, renameStart] ∧
      ¬Throughout (step .plain) UndoLaw (load emptyStore savedFlow)
        [addAnnouncement, .undo, renameStart] := by
  constructor
  · intro h
    have hlast := h.last rfl
    have hundo := hlast.undo _ _ rfl (by decide)
    exact absurd hundo (by decide +kernel)
  · intro h
    have hlast := h.last rfl
    have hredo := hlast.redo_none rfl
    exact absurd hredo (by decide +kernel)

end EditSession

end CallNet.Web
