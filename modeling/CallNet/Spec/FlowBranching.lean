import CallNet.Engine.IvrSystem
import CallNet.Spec.TollFraud

/-!
# Where the nodes of an IVR flow lead

A menu and a meeting node go on by the caller's input, a condition by what it evaluates to.
What the edges of the graph call for is stated by their handles; the interpreter falls back
to edges by their position, whatever handle these have.
-/

namespace CallNet

/-! ## Edges -/

/-- The node that an edge leads to, if there is an edge and a node. -/
def IvrFlowGraph.destination (flow : IvrFlowGraph) (edge : Option IvrGraphEdge) :
    Option IvrGraphNode :=
  edge.bind fun e => nodeById flow.nodes e.target

/-- The first edge out of a node, whatever its handle. -/
def IvrFlowGraph.firstEdge (flow : IvrFlowGraph) (nodeId : String) : Option IvrGraphEdge :=
  flow.edges.find? fun e => e.source = nodeId

/-- The edge out of a node that has no handle. -/
def IvrFlowGraph.defaultEdge (flow : IvrFlowGraph) (nodeId : String) : Option IvrGraphEdge :=
  flow.edges.find? fun e => e.source = nodeId ∧ e.sourceHandle = none

/-- The edge out of a node that has a handle. -/
def IvrFlowGraph.handleEdge (flow : IvrFlowGraph) (nodeId handle : String) :
    Option IvrGraphEdge :=
  flow.edges.find? fun e => e.source = nodeId ∧ e.sourceHandle = some handle

theorem edgeFrom_none (flow : IvrFlowGraph) (nodeId : String) :
    edgeFrom flow.edges nodeId none = flow.firstEdge nodeId := by
  simp [edgeFrom, IvrFlowGraph.firstEdge]

theorem edgeFrom_some (flow : IvrFlowGraph) (nodeId handle : String) :
    edgeFrom flow.edges nodeId (some handle) = flow.handleEdge nodeId handle := by
  simp [edgeFrom, IvrFlowGraph.handleEdge]

theorem fallback_eq (flow : IvrFlowGraph) (nodeId : String) :
    flow.fallback nodeId = flow.destination (flow.firstEdge nodeId) := by
  rw [← edgeFrom_none]
  rfl

/-! ## Runs that go on -/

/-- Some run of the program goes on to `next`. -/
def GoesOn (p : CallProg FlowStep) (next : Option IvrGraphNode) : Prop :=
  ∃ t lastDigit digits, Prog.Run p t (.ok (.goto next lastDigit digits))

section GoesOn

variable {next node : Option IvrGraphNode} {lastDigit digits : String}

theorem goesOn_goto : GoesOn (pure (.goto node lastDigit digits)) next ↔ next = node := by
  constructor
  · rintro ⟨t, _, _, hrun⟩
    cases hrun
    rfl
  · rintro rfl
    exact ⟨[], _, _, .pure _⟩

theorem not_goesOn_done {result : FlowResult} : ¬ GoesOn (pure (.done result)) next := by
  rintro ⟨t, _, _, hrun⟩
  cases hrun

theorem goesOn_bind {α : Type} {p : CallProg α} {f : α → CallProg FlowStep} :
    GoesOn (p >>= f) next ↔ ∃ a t, Prog.Run p t (.ok a) ∧ GoesOn (f a) next := by
  constructor
  · rintro ⟨t, lastDigit, digits, hrun⟩
    rcases Prog.run_bind_iff.mp hrun with ⟨a, u, v, -, hp, hf⟩ | ⟨e, -, he⟩
    · exact ⟨a, u, hp, v, lastDigit, digits, hf⟩
    · cases he
  · rintro ⟨a, t, hp, u, lastDigit, digits, hf⟩
    exact ⟨t ++ u, lastDigit, digits, hp.bind hf⟩

theorem goesOn_ask {e : Effect} {f : e.Answer → CallProg FlowStep} :
    GoesOn (ask e >>= f) next ↔ ∃ x, GoesOn (f x) next := by
  rw [goesOn_bind]
  constructor
  · rintro ⟨x, t, -, hf⟩
    exact ⟨x, hf⟩
  · rintro ⟨x, hf⟩
    exact ⟨x, [e.event x], Prog.run_perform_iff.mpr ⟨x, rfl, rfl⟩, hf⟩

/-- A program that can end does not change where the rest goes. -/
theorem goesOn_then {p : CallProg Unit} {q : CallProg FlowStep} {t : History}
    (hp : Prog.Run p t (.ok ())) : GoesOn (p >>= fun _ => q) next ↔ GoesOn q next := by
  rw [goesOn_bind]
  constructor
  · rintro ⟨a, u, -, hq⟩
    exact hq
  · intro hq
    exact ⟨(), t, hp, hq⟩

/-- The runs of a sequence that begin with a run of its first part. -/
theorem goesOn_after {α : Type} {p : CallProg α} {f : α → CallProg FlowStep} {a : α}
    {t : History} (hp : Prog.Run p t (.ok a)) :
    (∃ u lastDigit digits,
        Prog.Run (p >>= f) (t ++ u) (.ok (.goto next lastDigit digits))) ↔ GoesOn (f a) next :=
  exists_congr fun _ => exists₂_congr fun _ _ => Prog.run_bind_of_run hp

/-- Unless the caller hung up. -/
theorem goesOn_unlessHungUp {endpoint : Leg} {p : CallProg FlowStep} :
    GoesOn (do
      let hungUp : Bool ← ask (.isHungUp endpoint)
      if hungUp then pure (.done .hangup) else p) next ↔ GoesOn p next := by
  refine (goesOn_ask (e := .isHungUp endpoint)).trans ?_
  constructor
  · rintro ⟨hungUp, h⟩
    cases hungUp with
    | true => exact absurd h not_goesOn_done
    | false => exact h
  · intro h
    exact ⟨false, h⟩

end GoesOn

/-! ## Nodes that collect digits -/

section Collecting

variable {cfg : Config} {rt : Runtime} {call : FlowCall} {flow : IvrFlowGraph}
  {node : IvrGraphNode} {next : Option IvrGraphNode} {lastDigit digits : String}

/-- The menus and the meeting nodes. -/
def NodeData.Collects : NodeData → Prop
  | .menu .. | .meetingJoinInternal .. | .meetingJoinExternal .. => True
  | _ => False

/-- What such a node does first: it collects the caller's input, empty when there is none. -/
def collectInput (cfg : Config) (call : FlowCall) : NodeData → CallProg String
  | .menu prompt validDigits tries timeoutMs _ options =>
    promptAndCollect call.endpoint (promptOr cfg prompt "say:Please make a selection.")
      (timeoutMs.getD 7000) (tries.getD 2)
      (some (if truthy validDigits then validDigits.getD ""
        else String.join (options.map MenuOption.digit)))
  | .meetingJoinInternal prompt _ _ =>
    promptAndCollect call.endpoint (promptOr cfg prompt "say:Please enter the meeting ID.")
      10000 3 none
  | .meetingJoinExternal providerPrompt _ _ =>
    promptAndCollect call.endpoint (promptOr cfg providerPrompt "say:Please select a provider.")
      5000 3 none
  | _ => pure ""

/-- The option that the caller chose. -/
def NodeData.chosen (data : NodeData) (input : String) : Option MenuOption :=
  match data with
  | .menu _ _ _ _ _ options => if input = "" then none else options.find? (·.digit = input)
  | _ => none

/-- The edge that an input calls for: that of the chosen option, or the default edge. -/
def IvrFlowGraph.inputEdge (flow : IvrFlowGraph) (node : IvrGraphNode) (input : String) :
    Option IvrGraphEdge :=
  match node.data.chosen input with
  | some option => flow.handleEdge node.id option.id
  | none => flow.defaultEdge node.id

/-- The chosen option has an edge that leads somewhere. -/
def IvrFlowGraph.Wired (flow : IvrFlowGraph) (node : IvrGraphNode) (input : String) : Prop :=
  ∃ option ∈ node.data.chosen input, ∃ e ∈ flow.handleEdge node.id option.id, e.target ≠ ""

/-- Where the interpreter goes on. -/
def IvrFlowGraph.inputTarget (flow : IvrFlowGraph) (node : IvrGraphNode) (input : String) :
    Option IvrGraphNode :=
  match ((node.data.chosen input).bind fun option =>
      (flow.handleEdge node.id option.id).map IvrGraphEdge.target).filter (· ≠ "") with
  | some target => nodeById flow.nodes target
  | none => flow.destination (flow.firstEdge node.id)

theorem inputTarget_of_wired {input : String} (h : flow.Wired node input) :
    flow.inputTarget node input = flow.destination (flow.inputEdge node input) := by
  obtain ⟨option, hoption, e, he, hne⟩ := h
  rw [Option.mem_def] at hoption he
  unfold IvrFlowGraph.inputTarget IvrFlowGraph.inputEdge
  have hkeep : (some e.target).filter (· ≠ "") = some e.target :=
    Option.filter_some_pos (by simpa using hne)
  simp only [hoption, he, Option.bind_some, Option.map_some, hkeep]
  rfl

theorem inputTarget_of_not_wired {input : String} (h : ¬ flow.Wired node input) :
    flow.inputTarget node input = flow.destination (flow.firstEdge node.id) := by
  unfold IvrFlowGraph.inputTarget
  split
  · -- a target that is not empty is that of a wired option
    rename_i target htarget
    rw [Option.filter_eq_some_iff, Option.bind_eq_some_iff] at htarget
    obtain ⟨⟨option, hoption, he⟩, hne⟩ := htarget
    obtain ⟨e, hedge, rfl⟩ := Option.map_eq_some_iff.mp he
    exact absurd ⟨option, hoption, e, hedge, by simpa using hne⟩ h
  · rfl

/-! ### What the parts of a node run through -/

theorem run_playSafe (endpoint : Leg) (file : String) :
    ∃ t, Prog.Run (playSafe endpoint file) t (.ok ()) :=
  ⟨[Effect.event (.play endpoint file) (.ok ())], .op _ (.pure _)⟩

theorem run_playPrompt (cfg : Config) (call : FlowCall) (prompt : Option Prompt) :
    ∃ t, Prog.Run (playPrompt cfg call prompt) t (.ok ()) := by
  unfold playPrompt
  split
  · exact run_playSafe _ _
  · exact ⟨[], .pure _⟩

/-- The caller may always enter nothing. -/
theorem run_promptAndCollect (endpoint : Leg) (prompt : String) (waitMs tries : Nat)
    (valid : Option String) :
    ∃ t, Prog.Run (promptAndCollect endpoint prompt waitMs tries valid) t (.ok "") := by
  obtain ⟨n, hn⟩ : ∃ n, max 1 tries = n + 1 := ⟨max 1 tries - 1, by omega⟩
  -- the caller hangs up at the first prompt
  refine ⟨[Effect.event (.execute endpoint "set" "playback_terminators=0123456789*#") (.ok ()),
    Effect.event (.playAndWait endpoint prompt waitMs) none], ?_⟩
  unfold promptAndCollect
  rw [hn]
  exact .op _ (.op _ (.pure _))

/-! ### The nodes -/

theorem goesOn_fallback :
    GoesOn (pure (.goto (flow.fallback node.id) lastDigit digits)) next ↔
      next = flow.destination (flow.firstEdge node.id) := by
  rw [goesOn_goto, fallback_eq]

theorem goesOn_playThenFallback (endpoint : Leg) (file : String) :
    GoesOn (playSafe endpoint file >>= fun _ =>
        pure (.goto (flow.fallback node.id) lastDigit digits)) next ↔
      next = flow.destination (flow.firstEdge node.id) := by
  obtain ⟨t, ht⟩ := run_playSafe endpoint file
  rw [goesOn_then ht, goesOn_fallback]

/-- A meeting goes on only when there is no target. -/
theorem goesOn_joinMeetingTarget {target : String} :
    GoesOn (joinMeetingTarget call flow node target lastDigit digits) next ↔
      target = "" ∧ next = flow.destination (flow.firstEdge node.id) := by
  unfold joinMeetingTarget
  split
  · rename_i hempty
    rw [goesOn_playThenFallback]
    exact (and_iff_right hempty).symm
  · rename_i hne
    rw [goesOn_bind]
    constructor
    · rintro ⟨_, _, -, hdone⟩
      exact absurd hdone not_goesOn_done
    · exact fun h => absurd h.1 hne

theorem goesOn_menu {prompt invalidPrompt : Option Prompt} {validDigits : Option String}
    {tries timeoutMs : Option Nat} {options : List MenuOption}
    (hdata : node.data = .menu prompt validDigits tries timeoutMs invalidPrompt options)
    {t : History} {input : String}
    (ht : Prog.Run (collectInput cfg call node.data) t (.ok input)) :
    (∃ u lastDigit' digits', Prog.Run (runNode cfg rt call flow node lastDigit digits) (t ++ u)
        (.ok (.goto next lastDigit' digits'))) ↔ next = flow.inputTarget node input := by
  unfold runNode
  rw [hdata] at ht ⊢
  unfold runMenu
  refine (goesOn_after ht).trans (goesOn_unlessHungUp.trans ?_)
  -- the target of the pressed digit, by the option that was chosen
  have htarget : (if input = "" then none
      else resolveMenuTarget options flow.edges node.id input) =
        (node.data.chosen input).bind fun option =>
          (flow.handleEdge node.id option.id).map IvrGraphEdge.target := by
    rw [hdata]
    unfold NodeData.chosen resolveMenuTarget
    dsimp only
    split
    · rfl
    · simp only [edgeFrom_some]
  unfold IvrFlowGraph.inputTarget
  dsimp only
  rw [htarget]
  generalize Option.filter _ _ = found
  -- the digit's edge, or the invalid prompt and the first edge
  cases found with
  | some target => exact goesOn_goto
  | none =>
    obtain ⟨u, hu⟩ := run_playPrompt cfg call invalidPrompt
    dsimp only
    rw [goesOn_then hu, goesOn_fallback]

theorem goesOn_meetingInternal {prompt : Option Prompt} {apiUrl method : Option String}
    (hdata : node.data = .meetingJoinInternal prompt apiUrl method)
    {t : History} {input : String}
    (ht : Prog.Run (collectInput cfg call node.data) t (.ok input)) :
    (∃ u lastDigit' digits', Prog.Run (runNode cfg rt call flow node lastDigit digits) (t ++ u)
        (.ok (.goto next lastDigit' digits'))) ↔
      next = flow.destination (flow.firstEdge node.id) := by
  unfold runNode
  rw [hdata] at ht ⊢
  unfold runMeetingInternal
  refine (goesOn_after ht).trans (goesOn_unlessHungUp.trans ?_)
  split
  · exact goesOn_fallback
  · split
    · rw [goesOn_joinMeetingTarget]
      exact and_iff_right rfl
    · refine (goesOn_ask (e := .fetch _ _)).trans ?_
      -- the webhook may know no such meeting
      constructor
      · rintro ⟨result, h⟩
        exact (goesOn_joinMeetingTarget.mp h).2
      · intro h
        exact ⟨none, goesOn_joinMeetingTarget.mpr ⟨rfl, h⟩⟩

theorem goesOn_meetingExternal {providerPrompt idPrompt : Option Prompt}
    {providers : List MeetingProvider}
    (hdata : node.data = .meetingJoinExternal providerPrompt idPrompt providers)
    {t : History} {input : String}
    (ht : Prog.Run (collectInput cfg call node.data) t (.ok input)) :
    (∃ u lastDigit' digits', Prog.Run (runNode cfg rt call flow node lastDigit digits) (t ++ u)
        (.ok (.goto next lastDigit' digits'))) ↔
      next = flow.destination (flow.firstEdge node.id) := by
  unfold runNode
  rw [hdata] at ht ⊢
  unfold runMeetingExternal
  refine (goesOn_after ht).trans (goesOn_unlessHungUp.trans ?_)
  split
  · exact goesOn_fallback
  · split
    · exact goesOn_playThenFallback _ _
    · split
      · exact goesOn_playThenFallback _ _
      · -- the meeting's number may be missing, and with it the node goes nowhere
        refine goesOn_bind.trans ?_
        constructor
        · rintro ⟨entered, u, -, h⟩
          have h := goesOn_unlessHungUp.mp h
          split at h
          · exact goesOn_fallback.mp h
          · exact (goesOn_joinMeetingTarget.mp h).2
        · intro h
          obtain ⟨u, hu⟩ := run_promptAndCollect call.endpoint
            (promptOr cfg idPrompt "say:Please enter the meeting ID.") 10000 3 none
          refine ⟨"", u, hu, goesOn_unlessHungUp.mpr ?_⟩
          rw [if_pos rfl]
          exact goesOn_fallback.mpr h

/-- Where the runs of a collecting node go on from an input. -/
theorem goesOn_collecting (hcollects : node.data.Collects) {t : History} {input : String}
    (ht : Prog.Run (collectInput cfg call node.data) t (.ok input)) :
    (∃ u lastDigit' digits', Prog.Run (runNode cfg rt call flow node lastDigit digits) (t ++ u)
        (.ok (.goto next lastDigit' digits'))) ↔ next = flow.inputTarget node input := by
  cases hdata : node.data with
  | menu _ _ _ _ _ _ => exact goesOn_menu hdata ht
  | meetingJoinInternal _ _ _ =>
    rw [goesOn_meetingInternal hdata ht]
    unfold IvrFlowGraph.inputTarget
    rw [hdata]
    rfl
  | meetingJoinExternal _ _ _ =>
    rw [goesOn_meetingExternal hdata ht]
    unfold IvrFlowGraph.inputTarget
    rw [hdata]
    rfl
  | start _ => rw [hdata] at hcollects; exact hcollects.elim
  | play _ => rw [hdata] at hcollects; exact hcollects.elim
  | condition _ => rw [hdata] at hcollects; exact hcollects.elim
  | transfer _ _ _ => rw [hdata] at hcollects; exact hcollects.elim
  | voicemail _ _ _ => rw [hdata] at hcollects; exact hcollects.elim
  | email _ _ _ _ => rw [hdata] at hcollects; exact hcollects.elim
  | hangup => rw [hdata] at hcollects; exact hcollects.elim
  | unknown _ => rw [hdata] at hcollects; exact hcollects.elim

/-- After an input, a node that collects digits goes on to where the edge that the input calls for
    leads, or completes the flow where there is none, if and only if the chosen option has
    an edge, or the first edge out of the node leads to the same place. -/
theorem follows_input_iff (cfg : Config) (rt : Runtime) (call : FlowCall) (flow : IvrFlowGraph)
    (node : IvrGraphNode) (hcollects : node.data.Collects) (lastDigit digits : String)
    (t : History) (input : String)
    (ht : Prog.Run (collectInput cfg call node.data) t (.ok input)) :
    (∀ u next lastDigit' digits',
        Prog.Run (runNode cfg rt call flow node lastDigit digits) (t ++ u)
          (.ok (.goto next lastDigit' digits')) →
        next = flow.destination (flow.inputEdge node input)) ↔
      flow.Wired node input ∨
        flow.destination (flow.firstEdge node.id) =
          flow.destination (flow.inputEdge node input) := by
  -- there is a run that goes on, and all of them go to one place
  have hlaw : (∀ u next lastDigit' digits',
      Prog.Run (runNode cfg rt call flow node lastDigit digits) (t ++ u)
        (.ok (.goto next lastDigit' digits')) →
      next = flow.destination (flow.inputEdge node input)) ↔
        flow.inputTarget node input = flow.destination (flow.inputEdge node input) := by
    constructor
    · intro h
      obtain ⟨u, lastDigit', digits', hrun⟩ := (goesOn_collecting hcollects ht).mpr rfl
      exact h u _ lastDigit' digits' hrun
    · intro h u next lastDigit' digits' hrun
      rw [← h]
      exact (goesOn_collecting hcollects ht).mp ⟨u, lastDigit', digits', hrun⟩
  rw [hlaw]
  by_cases hwired : flow.Wired node input
  · simp only [hwired, true_or, iff_true]
    exact inputTarget_of_wired hwired
  · rw [inputTarget_of_not_wired hwired]
    simp only [hwired, false_or]

/-- Press 1 for sales. -/
def salesMenu : IvrGraphNode :=
  ⟨"menu", .menu none none none none none [{ id := "opt-1", digit := "1" }]⟩

def salesDesk : IvrGraphNode := ⟨"sales", .hangup⟩

def operatorDesk : IvrGraphNode := ⟨"operator", .hangup⟩

def salesFlow (edges : List IvrGraphEdge) : IvrFlowGraph :=
  { id := "flow-1", name := "Front desk", extension := "6001", enabled := true
    nodes := [salesMenu, salesDesk, operatorDesk], edges }

def deskCall : FlowCall :=
  { endpoint := { key := 0 }, callId := "call-1", callerNumber := "1001", fromName := "Alice"
    dialedNumber := "6001" }

/-- With the default edge drawn first, a caller who enters nothing gets to the operator. -/
theorem follows_input_iff_operator :
    ∃ t, Prog.Run (collectInput trunkOnly deskCall salesMenu.data) t (.ok "") ∧
      ∀ u next lastDigit digits,
        Prog.Run (runNode trunkOnly bareRuntime deskCall
            (salesFlow [⟨"menu", "operator", none⟩, ⟨"menu", "sales", some "opt-1"⟩]) salesMenu
            "" "") (t ++ u) (.ok (.goto next lastDigit digits)) →
          next = some operatorDesk := by
  obtain ⟨t, ht⟩ := run_promptAndCollect deskCall.endpoint "say:Please make a selection." 7000 2
    (some "1")
  exact ⟨t, ht, (follows_input_iff trunkOnly bareRuntime deskCall
    (salesFlow [⟨"menu", "operator", none⟩, ⟨"menu", "sales", some "opt-1"⟩]) salesMenu trivial
    "" "" t "" ht).mpr (.inr rfl)⟩

/-- With only the edge of the option, a caller who enters nothing gets to sales. -/
theorem not_follows_input_sales :
    ∃ t u lastDigit digits, Prog.Run (collectInput trunkOnly deskCall salesMenu.data) t (.ok "") ∧
      Prog.Run (runNode trunkOnly bareRuntime deskCall
          (salesFlow [⟨"menu", "sales", some "opt-1"⟩]) salesMenu "" "") (t ++ u)
        (.ok (.goto (some salesDesk) lastDigit digits)) ∧
      (salesFlow [⟨"menu", "sales", some "opt-1"⟩]).inputEdge salesMenu "" = none := by
  obtain ⟨t, ht⟩ := run_promptAndCollect deskCall.endpoint "say:Please make a selection." 7000 2
    (some "1")
  have hgoes : ∃ u lastDigit digits, Prog.Run (runNode trunkOnly bareRuntime deskCall
      (salesFlow [⟨"menu", "sales", some "opt-1"⟩]) salesMenu "" "") (t ++ u)
        (.ok (.goto (some salesDesk) lastDigit digits)) := by
    have hcollects : salesMenu.data.Collects := trivial
    exact (goesOn_collecting hcollects ht).mpr rfl
  obtain ⟨u, lastDigit, digits, hrun⟩ := hgoes
  exact ⟨t, u, lastDigit, digits, ht, hrun, rfl⟩

end Collecting

/-! ## Conditions -/

section Conditions

variable {cfg : Config} {rt : Runtime} {call : FlowCall} {flow : IvrFlowGraph}
  {node : IvrGraphNode}

/-- The edge that an evaluation calls for. -/
def IvrFlowGraph.branchEdge (flow : IvrFlowGraph) (nodeId : String) (truthy : Bool) :
    Option IvrGraphEdge :=
  flow.handleEdge nodeId (if truthy then "true" else "false")

/-- The edge that stands in for it: the first edge out, or the second one when that is for an
    evaluation to false and there is one. -/
def IvrFlowGraph.positionEdge (flow : IvrFlowGraph) (nodeId : String) (truthy : Bool) :
    Option IvrGraphEdge :=
  let outs := flow.edges.filter fun e => e.source = nodeId
  outs[if truthy then 0 else 1]?.or outs[0]?

theorem branch_eq (flow : IvrFlowGraph) (nodeId : String) (truthy : Bool) :
    flow.branch nodeId truthy =
      flow.destination ((flow.branchEdge nodeId truthy).or (flow.positionEdge nodeId truthy)) := by
  have hhandle : (flow.edges.filter fun e => e.source = nodeId).find?
      (fun e => e.sourceHandle.getD "" = if truthy then "true" else "false") =
        flow.branchEdge nodeId truthy := by
    unfold IvrFlowGraph.branchEdge IvrFlowGraph.handleEdge
    rw [List.find?_filter]
    congr 1
    funext e
    -- neither of the two handles is empty
    cases he : e.sourceHandle with
    | none => cases truthy <;> simp
    | some handle => cases truthy <;> simp
  unfold IvrFlowGraph.branch IvrFlowGraph.positionEdge
  dsimp only
  rw [hhandle, Option.or_assoc]
  rfl

/-- What a condition can look at, in a call and at a moment. -/
def FlowCall.facts (call : FlowCall) (lastDigit digits : String) (now : Nat × Nat) :
    ConditionFacts :=
  { callerId := call.callerNumber, dialedNumber := call.dialedNumber, lastDigit, digits
    hours := now.1, day := now.2 }

/-- A condition looks at the clock and goes on. -/
theorem run_condition_iff {data : ConditionNodeData} (hdata : node.data = .condition data)
    {lastDigit digits : String} {t : History} {r : Except SipError FlowStep} :
    Prog.Run (runNode cfg rt call flow node lastDigit digits) t r ↔
      ∃ now : Nat × Nat, t = [Effect.event .hoursAndDay now] ∧
        r = .ok (.goto (flow.branch node.id
          (evaluateCondition rt data (call.facts lastDigit digits now))) lastDigit digits) := by
  unfold runNode
  rw [hdata]
  constructor
  · intro h
    cases h with
    | op now rest =>
      cases rest
      exact ⟨now, rfl, rfl⟩
  · rintro ⟨now, rfl, rfl⟩
    have hnow : Prog.Run (ask .hoursAndDay) [Effect.event .hoursAndDay now] (.ok now) :=
      Prog.run_perform_iff.mpr ⟨now, rfl, rfl⟩
    exact hnow.bind (.pure _)

/-- A condition node goes on to where the edge of its evaluation leads, or completes the flow where
    there is none, if and only if there is one, or the edge that stands in for it by its
    position is missing too or leads nowhere. -/
theorem follows_branch_iff (cfg : Config) (rt : Runtime) (call : FlowCall) (flow : IvrFlowGraph)
    (node : IvrGraphNode) (data : ConditionNodeData) (hdata : node.data = .condition data)
    (lastDigit digits : String) (now : Nat × Nat) :
    (∀ next lastDigit' digits',
        Prog.Run (runNode cfg rt call flow node lastDigit digits)
          [Effect.event .hoursAndDay now] (.ok (.goto next lastDigit' digits')) →
        next = flow.destination (flow.branchEdge node.id
          (evaluateCondition rt data (call.facts lastDigit digits now)))) ↔
      (flow.branchEdge node.id
          (evaluateCondition rt data (call.facts lastDigit digits now))).isSome ∨
        flow.destination (flow.positionEdge node.id
          (evaluateCondition rt data (call.facts lastDigit digits now))) = none := by
  have hlaw : (∀ next lastDigit' digits',
      Prog.Run (runNode cfg rt call flow node lastDigit digits)
        [Effect.event .hoursAndDay now] (.ok (.goto next lastDigit' digits')) →
      next = flow.destination (flow.branchEdge node.id
        (evaluateCondition rt data (call.facts lastDigit digits now)))) ↔
      flow.branch node.id (evaluateCondition rt data (call.facts lastDigit digits now)) =
        flow.destination (flow.branchEdge node.id
          (evaluateCondition rt data (call.facts lastDigit digits now))) := by
    constructor
    · intro h
      exact h _ _ _ ((run_condition_iff hdata).mpr ⟨now, rfl, rfl⟩)
    · intro h next lastDigit' digits' hrun
      obtain ⟨now', hnow, hnext⟩ := (run_condition_iff hdata).mp hrun
      cases hnow
      cases hnext
      exact h
  rw [hlaw, branch_eq]
  generalize evaluateCondition rt data (call.facts lastDigit digits now) = truthy
  cases hedge : flow.branchEdge node.id truthy with
  | some e => simp
  | none => simp [IvrFlowGraph.destination]

/-- Is the caller 1001? -/
def isAlice : ConditionNodeData :=
  { conditionVariable := .callerId, operator := .eq, value := some "1001", ignoreCase := none }

def aliceCheck : IvrGraphNode := ⟨"check", .condition isAlice⟩

def aliceFlow (edges : List IvrGraphEdge) : IvrFlowGraph :=
  { id := "flow-2", name := "Callers", extension := "6002", enabled := true
    nodes := [aliceCheck, salesDesk, operatorDesk], edges }

/-- The flow that sends caller 1001 to sales and every other caller to the operator, the edge for
    the others drawn first. -/
def bothDrawn : IvrFlowGraph :=
  aliceFlow [⟨"check", "operator", some "false"⟩, ⟨"check", "sales", some "true"⟩]

/-- With both branches drawn, caller 1001 gets to sales, and nowhere else. -/
theorem follows_branch_iff_alice :
    Prog.Run (runNode trunkOnly bareRuntime deskCall bothDrawn aliceCheck "" "")
        [Effect.event .hoursAndDay (9, 1)] (.ok (.goto (some salesDesk) "" "")) ∧
      ∀ next lastDigit digits,
        Prog.Run (runNode trunkOnly bareRuntime deskCall bothDrawn aliceCheck "" "")
            [Effect.event .hoursAndDay (9, 1)] (.ok (.goto next lastDigit digits)) →
          next = some salesDesk := by
  have hdata : aliceCheck.data = .condition isAlice := rfl
  have hruns : Prog.Run (runNode trunkOnly bareRuntime deskCall bothDrawn aliceCheck "" "")
      [Effect.event .hoursAndDay (9, 1)] (.ok (.goto (some salesDesk) "" "")) :=
    (run_condition_iff hdata).mpr ⟨(9, 1), rfl, rfl⟩
  have honly := (follows_branch_iff trunkOnly bareRuntime deskCall bothDrawn aliceCheck isAlice
    rfl "" "" (9, 1)).mpr (.inl rfl)
  exact ⟨hruns, honly⟩

/-- Another caller takes the only edge, which is for 1001. -/
theorem not_follows_branch_bob :
    Prog.Run (runNode trunkOnly bareRuntime { deskCall with callerNumber := "1002" }
        (aliceFlow [⟨"check", "sales", some "true"⟩]) aliceCheck "" "")
        [Effect.event .hoursAndDay (9, 1)] (.ok (.goto (some salesDesk) "" "")) ∧
      evaluateCondition bareRuntime isAlice
        ({ deskCall with callerNumber := "1002" }.facts "" "" (9, 1)) = false ∧
      (aliceFlow [⟨"check", "sales", some "true"⟩]).branchEdge "check" false = none := by
  have hdata : aliceCheck.data = .condition isAlice := rfl
  exact ⟨(run_condition_iff hdata).mpr ⟨(9, 1), rfl, rfl⟩, rfl, rfl⟩

end Conditions

end CallNet
