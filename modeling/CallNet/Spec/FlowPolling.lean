import CallNet.Engine.FlowRunner
import CallNet.Spec.TollFraud

/-!
# A flow stops when the caller hangs up

Whatever the graph and whatever the handlers answer, the interpreter asks whether the caller
hung up between any two calls of media handlers, goes on only after a `no`, and visits a
bounded number of nodes.
-/

namespace CallNet.FlowRunner

/-! ## Polls -/

/-- The interpreter asked whether the caller hung up, and they had not. -/
def stillThere : Prog.Event handlers := ⟨.isHungUp, false⟩

/-- Every call of a media handler was followed by a poll that found the caller there. -/
def Ready (t : Calls) : Prop :=
  ∀ pre ev post, t = pre ++ ev :: post → ev.1.IsMedia → stillThere ∈ post

/-- A media handler is only called where the caller was found there after the one before. -/
def Allowed (t : Calls) (o : Op) : Prop := o.IsMedia → Ready t

/-- The last call stands before everything that was called earlier. -/
theorem split_concat {t pre post : Calls} {last ev : Prog.Event handlers}
    (h : t ++ [last] = pre ++ ev :: post) :
    (post = [] ∧ ev = last) ∨ ∃ rest, post = rest ++ [last] ∧ t = pre ++ ev :: rest := by
  rcases List.eq_nil_or_concat post with rfl | ⟨rest, last', rfl⟩
  · obtain ⟨-, hlast⟩ := List.append_inj' h rfl
    cases hlast
    exact .inl ⟨rfl, rfl⟩
  · rw [List.concat_eq_append] at h
    have h' : t ++ [last] = (pre ++ ev :: rest) ++ [last'] := by
      rw [h, List.append_assoc, List.cons_append]
    obtain ⟨ht, hlast⟩ := List.append_inj' h' rfl
    cases hlast
    exact .inr ⟨rest, List.concat_eq_append, ht⟩

/-- A poll that finds the caller there answers for everything before it. -/
theorem ready_stillThere (t : Calls) : Ready (t ++ [stillThere]) := by
  intro pre ev post h hmedia
  rcases split_concat h with ⟨-, rfl⟩ | ⟨rest, rfl, -⟩
  · exact hmedia.elim
  · exact List.mem_append_right _ List.mem_cons_self

/-- A call that is not of a media handler needs no poll. -/
theorem Ready.other {t : Calls} (h : Ready t) (last : Prog.Event handlers)
    (hlast : ¬ last.1.IsMedia) : Ready (t ++ [last]) := by
  intro pre ev post ht hmedia
  rcases split_concat ht with ⟨-, rfl⟩ | ⟨rest, rfl, hrest⟩
  · exact absurd hmedia hlast
  · exact List.mem_append_left _ (h pre ev rest hrest hmedia)

/-! ## One node -/

section Nodes

variable {basePath : String} {rt : Runtime} {ctx : Context} {flow : IvrFlowGraph}
  {node : IvrGraphNode} {lastDigit digits : String}

/-- Started where a media handler may be called, the program keeps the discipline. -/
abbrev Polls {α : Type} (p : FlowProg α) : Prop :=
  Prog.Contract Allowed Ready p fun _ _ => True

theorem polls_pure {α : Type} (a : α) : Polls (pure a : FlowProg α) :=
  Prog.contract_pure fun _ _ => trivial

/-- A call of a media handler, and what follows without another one. -/
theorem polls_settled {α : Type} {o : Op} {f : o.Answer → FlowProg α}
    (hf : ∀ x, Prog.Contract Allowed (fun _ => True) (f x) fun _ _ => True) :
    Polls ((Prog.perform (S := handlers) o : FlowProg o.Answer).bind f) :=
  Prog.Contract.bind (Q := fun _ _ => True)
    (Prog.contract_perform (fun _ h _ => h) fun _ _ _ => trivial) hf

theorem contract_ofExcept {α : Type} (r : Except SipError α) :
    Prog.Contract Allowed (fun _ => True) (Prog.ofExcept r : FlowProg α) fun _ _ => True := by
  cases r with
  | ok a => exact Prog.contract_pure fun _ _ => trivial
  | error e => exact Prog.contract_throw

theorem polls_play (file : String) : Polls (play file) := polls_settled contract_ofExcept

theorem polls_collect (prompt : String) (opts : CollectOpts) : Polls (collect prompt opts) :=
  polls_settled contract_ofExcept

theorem polls_voicemail (mailbox : String) (greeting : Option String) (maxSeconds : Option Nat) :
    Polls (voicemail mailbox greeting maxSeconds) := polls_settled contract_ofExcept

theorem polls_transfer (opts : TransferOpts) : Polls (transfer opts) :=
  polls_settled contract_ofExcept

theorem polls_sendEmail (opts : EmailOpts) : Polls (sendEmail opts) :=
  polls_settled contract_ofExcept

/-- After the last call of a node only a result is left. -/
theorem Polls.then_pure {α β : Type} {p : FlowProg α} (hp : Polls p) (f : α → β) :
    Polls (p >>= fun a => pure (f a)) :=
  Prog.Contract.bind hp fun _ => Prog.contract_pure fun _ _ => trivial

/-- Ask whether the caller hung up, and go on where they did not. -/
theorem contract_unlessHungUp {α : Type} {gone there : FlowProg α} {Pre : Calls → Prop}
    (hgone : Prog.Contract Allowed (fun _ => True) gone fun _ _ => True) (hthere : Polls there) :
    Prog.Contract Allowed Pre (isHungUp >>= fun hungUp => if hungUp then gone else there)
      fun _ _ => True := by
  refine Prog.Contract.bind (Q := fun (hungUp : Bool) t => hungUp = false → Ready t) ?_ ?_
  · refine Prog.contract_perform (fun _ _ h => h.elim) fun t hungUp _ hno => ?_
    have hno : hungUp = false := hno
    subst hno
    exact ready_stillThere t
  · intro hungUp
    cases hungUp with
    | true => exact hgone.conseq (fun _ _ => trivial) fun _ _ h => h
    | false => exact Prog.Contract.conseq hthere (fun _ h => h rfl) fun _ _ h => h

/-- Collect digits, and go on unless the caller hung up. -/
theorem polls_collecting {α : Type} {prompt : String} {opts : CollectOpts} {gone : FlowProg α}
    {there : String → FlowProg α}
    (hgone : Prog.Contract Allowed (fun _ => True) gone fun _ _ => True)
    (hthere : ∀ entered, Polls (there entered)) :
    Polls (do
      let entered ← collect prompt opts
      let hungUp ← isHungUp
      if hungUp then gone else there entered) :=
  Prog.Contract.bind (polls_collect prompt opts) fun entered =>
    contract_unlessHungUp hgone (hthere entered)

theorem hungUp_contract : Prog.Contract Allowed (fun _ => True)
    (pure (.done .hangup) : FlowProg FlowStep) fun _ _ => True :=
  Prog.contract_pure fun _ _ => trivial

theorem polls_playPrompt (prompt : Option Prompt) : Polls (playPrompt basePath prompt) := by
  unfold playPrompt
  split
  · exact polls_play _
  · exact polls_pure ()

theorem polls_runMenu (prompt : Option Prompt) (validDigits : Option String)
    (tries timeoutMs : Option Nat) (invalidPrompt : Option Prompt) (options : List MenuOption) :
    Polls (runMenu basePath flow node prompt validDigits tries timeoutMs invalidPrompt options
      lastDigit digits) := by
  refine polls_collecting hungUp_contract fun digit => ?_
  dsimp only
  split
  · exact polls_pure _
  · exact (polls_playPrompt invalidPrompt).then_pure _

theorem polls_joinMeetingTarget (target : String) :
    Polls (joinMeetingTarget flow node target lastDigit digits) := by
  unfold joinMeetingTarget
  split
  · exact (polls_play _).then_pure _
  · exact (polls_transfer _).then_pure _

theorem polls_runMeetingInternal (prompt : Option Prompt) (apiUrl method : Option String) :
    Polls (runMeetingInternal basePath ctx flow node prompt apiUrl method lastDigit digits) := by
  refine polls_collecting hungUp_contract fun entered => ?_
  refine Prog.contract_ite (fun _ => polls_pure _) fun _ =>
    Prog.contract_ite (fun _ => ?_) fun _ => ?_
  · exact polls_joinMeetingTarget ""
  · -- the webhook is no media handler
    have hfetch : Prog.Contract Allowed Ready
        (fetch (substituteVars (apiUrl.getD "") [("digits", entered), ("meetingId", entered),
          ("caller_id", ctx.callerNumber)]) (method.getD "GET")) fun _ => Ready :=
      Prog.contract_perform (fun _ _ h => h.elim) fun t x ht => ht.other ⟨_, x⟩ fun h => h.elim
    exact hfetch.bind fun result => polls_joinMeetingTarget _

theorem polls_runMeetingExternal (providerPrompt idPrompt : Option Prompt)
    (providers : List MeetingProvider) :
    Polls (runMeetingExternal basePath flow node providerPrompt idPrompt providers lastDigit
      digits) := by
  refine polls_collecting hungUp_contract fun chosen => ?_
  refine Prog.contract_ite (fun _ => polls_pure _) fun _ => ?_
  split
  · exact (polls_play _).then_pure _
  · refine Prog.contract_ite (fun _ => (polls_play _).then_pure _) fun _ => ?_
    refine polls_collecting hungUp_contract fun entered => ?_
    exact Prog.contract_ite (fun _ => polls_pure _) fun _ => polls_joinMeetingTarget _

/-- A node visited where the caller was found there keeps the discipline, whatever its kind. -/
theorem polls_runNode : Polls (runNode basePath rt ctx flow node lastDigit digits) := by
  unfold runNode
  cases node.data with
  | start greeting => exact (polls_playPrompt greeting).then_pure _
  | play prompt => exact (polls_playPrompt prompt).then_pure _
  | menu prompt validDigits tries timeoutMs invalidPrompt options =>
    exact polls_runMenu prompt validDigits tries timeoutMs invalidPrompt options
  | condition data =>
    refine Prog.Contract.bind (Q := fun _ _ => True) ?_ fun now =>
      Prog.contract_pure fun _ _ => trivial
    exact Prog.contract_perform (fun _ _ h => h.elim) fun _ _ _ => trivial
  | transfer department extension ringSeconds => exact (polls_transfer _).then_pure _
  | meetingJoinInternal prompt apiUrl method => exact polls_runMeetingInternal prompt apiUrl method
  | meetingJoinExternal providerPrompt idPrompt providers =>
    exact polls_runMeetingExternal providerPrompt idPrompt providers
  | voicemail mailbox maxSeconds greeting => exact (polls_voicemail _ _ _).then_pure _
  | email connectorId recipient subject body => exact (polls_sendEmail _).then_pure _
  | hangup => exact polls_pure _
  | unknown kind => exact polls_pure _

/-! ## A whole run -/

/-- The loop keeps the discipline wherever it starts, as every round begins with a poll. -/
theorem runFlowLoop_contract (hops : Nat) (current : Option IvrGraphNode) :
    Prog.Contract Allowed (fun _ => True)
      (runFlowLoop basePath rt ctx flow hops current lastDigit digits) fun _ _ => True := by
  induction hops generalizing current lastDigit digits with
  | zero => cases current <;> exact Prog.contract_pure fun _ _ => trivial
  | succ hops ih =>
    cases current with
    | none => exact Prog.contract_pure fun _ _ => trivial
    | some node =>
      refine contract_unlessHungUp (Prog.contract_pure fun _ _ => trivial) ?_
      refine Prog.Contract.bind polls_runNode fun step => ?_
      cases step with
      | done result => exact Prog.contract_pure fun _ _ => trivial
      | goto next lastDigit digits => exact ih next

theorem runFlow_contract (basePath : String) (rt : Runtime) (ctx : Context) (flow : IvrFlowGraph) :
    Prog.Contract Allowed (fun _ => True) (runFlow basePath rt ctx flow) fun _ _ => True := by
  unfold runFlow
  split
  · exact Prog.contract_pure fun _ _ => trivial
  · exact runFlowLoop_contract _ _

/-! ## The nodes that a run visits -/

/-- A run from a node on, with the nodes it visits; before each visit the caller is found
    there. -/
inductive Walk (basePath : String) (rt : Runtime) (ctx : Context) (flow : IvrFlowGraph) :
    Option IvrGraphNode → String → String → Calls → Except SipError FlowResult →
      List IvrGraphNode → Prop
  | stops (current : Option IvrGraphNode) (lastDigit digits : String) (result : FlowResult) :
    Walk basePath rt ctx flow current lastDigit digits [] (.ok result) []
  | hungUp (node : IvrGraphNode) (lastDigit digits : String) :
    Walk basePath rt ctx flow (some node) lastDigit digits [⟨.isHungUp, true⟩] (.ok .hangup) []
  | ends {node : IvrGraphNode} {lastDigit digits : String} {t : Calls} {result : FlowResult}
    (visit : Prog.Run (runNode basePath rt ctx flow node lastDigit digits) t (.ok (.done result))) :
    Walk basePath rt ctx flow (some node) lastDigit digits (stillThere :: t) (.ok result) [node]
  | fails {node : IvrGraphNode} {lastDigit digits : String} {t : Calls} {err : SipError}
    (visit : Prog.Run (runNode basePath rt ctx flow node lastDigit digits) t (.error err)) :
    Walk basePath rt ctx flow (some node) lastDigit digits (stillThere :: t) (.error err) [node]
  | goes {node : IvrGraphNode} {lastDigit digits lastDigit' digits' : String} {t u : Calls}
    {next : Option IvrGraphNode} {r : Except SipError FlowResult} {visited : List IvrGraphNode}
    (visit : Prog.Run (runNode basePath rt ctx flow node lastDigit digits) t
      (.ok (.goto next lastDigit' digits')))
    (rest : Walk basePath rt ctx flow next lastDigit' digits' u r visited) :
    Walk basePath rt ctx flow (some node) lastDigit digits (stillThere :: (t ++ u)) r
      (node :: visited)

/-- Every run of the loop is such a walk, of at most one node a hop. -/
theorem exists_walk {hops : Nat} {current : Option IvrGraphNode} {t : Calls}
    {r : Except SipError FlowResult}
    (hrun : Prog.Run (runFlowLoop basePath rt ctx flow hops current lastDigit digits) t r) :
    ∃ visited, Walk basePath rt ctx flow current lastDigit digits t r visited ∧
      visited.length ≤ hops := by
  induction hops generalizing current lastDigit digits t with
  | zero => cases current <;> cases hrun <;> exact ⟨[], .stops _ _ _ _, Nat.le_refl 0⟩
  | succ hops ih =>
    cases current with
    | none =>
      cases hrun
      exact ⟨[], .stops _ _ _ _, Nat.zero_le _⟩
    | some node =>
      cases hrun with
      | op hungUp hrest =>
        cases hungUp with
        | true =>
          cases hrest
          exact ⟨[], .hungUp _ _ _, Nat.zero_le _⟩
        | false =>
          -- the caller is still there: the visit, and what the loop makes of its step
          change Prog.Run ((runNode basePath rt ctx flow node lastDigit digits).bind _) _ _ at hrest
          rcases Prog.run_bind_iff.mp hrest with
            ⟨step, u, v, rfl, hvisit, hafter⟩ | ⟨err, hvisit, rfl⟩
          · cases step with
            | done result =>
              cases hafter
              rw [List.append_nil]
              exact ⟨[node], .ends hvisit, by simp⟩
            | goto next lastDigit' digits' =>
              obtain ⟨visited, hwalk, hlength⟩ := ih hafter
              exact ⟨node :: visited, .goes hvisit hwalk, Nat.succ_le_succ hlength⟩
          · exact ⟨[node], .fails hvisit, by simp⟩

/-- A visit that goes on, and the rest of the loop. -/
theorem run_visit {hops : Nat} {next : Option IvrGraphNode} {lastDigit' digits' : String}
    {t u : Calls} {r : Except SipError FlowResult}
    (hvisit : Prog.Run (runNode basePath rt ctx flow node lastDigit digits) t
      (.ok (.goto next lastDigit' digits')))
    (hrest : Prog.Run (runFlowLoop basePath rt ctx flow hops next lastDigit' digits') u r) :
    Prog.Run (runFlowLoop basePath rt ctx flow (hops + 1) (some node) lastDigit digits)
      (stillThere :: (t ++ u)) r :=
  Prog.Run.op (S := handlers) (o := .isHungUp) false (hvisit.bind hrest)

end Nodes

/-- Between two calls of media handlers the interpreter finds out that the caller is still
    there, and it visits at most `MAX_HOPS` nodes. -/
theorem stops_on_hangup (basePath : String) (rt : Runtime) (ctx : Context) (flow : IvrFlowGraph)
    {t : Calls} {r : Except SipError FlowResult}
    (hrun : Prog.Run (runFlow basePath rt ctx flow) t r) :
    (∀ pre ev mid ev' post, t = pre ++ ev :: (mid ++ ev' :: post) → ev.1.IsMedia →
      ev'.1.IsMedia → stillThere ∈ mid) ∧
      ∃ visited, Walk basePath rt ctx flow (findStart flow.nodes) "" "" t r visited ∧
        visited.length ≤ MAX_HOPS := by
  refine ⟨fun pre ev mid ev' post ht hev hev' => ?_, ?_⟩
  · have ht : t = (pre ++ ev :: mid) ++ ev' :: post := by
      rw [ht, List.append_assoc, List.cons_append]
    have hallowed : Allowed ([] ++ (pre ++ ev :: mid)) ev'.1 :=
      ((runFlow_contract basePath rt ctx flow).run trivial hrun).1 _ ev' post ht
    exact hallowed hev' pre ev mid rfl hev
  · unfold runFlow at hrun
    cases hstart : findStart flow.nodes with
    | none =>
      rw [hstart] at hrun
      cases hrun
      exact ⟨[], .stops _ _ _ _, Nat.zero_le _⟩
    | some start =>
      rw [hstart] at hrun
      exact exists_walk hrun

/-- A flow that sends one email after the other. -/
def mailLoop : IvrFlowGraph :=
  { id := "flow-3", name := "Mails", extension := "6003", enabled := true
    nodes := [⟨"start", .start none⟩, ⟨"mail", .email none none none none⟩]
    edges := [⟨"start", "mail", none⟩, ⟨"mail", "mail", none⟩] }

def loopCaller : Context := { callId := "call-1", callerNumber := "1001", dialedNumber := "6003" }

def blankMail : EmailOpts := { connectorId := "", recipient := "", subject := "", body := "" }

/-- The caller hangs up after the second email. -/
def twoMails : Calls :=
  [stillThere, stillThere, ⟨.sendEmail blankMail, .ok ()⟩, stillThere,
    ⟨.sendEmail blankMail, .ok ()⟩, ⟨.isHungUp, true⟩]

theorem run_mailLoop (basePath : String) (rt : Runtime) :
    Prog.Run (runFlow basePath rt loopCaller mailLoop) twoMails (.ok .hangup) := by
  have hmail (digits : String) : Prog.Run
      (runNode basePath rt loopCaller mailLoop ⟨"mail", .email none none none none⟩ "" digits)
      [⟨.sendEmail blankMail, .ok ()⟩]
      (.ok (.goto (some ⟨"mail", .email none none none none⟩) "" digits)) :=
    Prog.Run.op (S := handlers) (o := .sendEmail blankMail) (Except.ok ()) (.pure _)
  have hgone : Prog.Run (runFlowLoop basePath rt loopCaller mailLoop 47
      (some ⟨"mail", .email none none none none⟩) "" "") [⟨.isHungUp, true⟩] (.ok .hangup) :=
    Prog.Run.op (S := handlers) (o := .isHungUp) true (.pure _)
  exact run_visit (t := []) (.pure _) (run_visit (hmail "") (run_visit (hmail "") hgone))

theorem stops_on_hangup_mailLoop :
    stillThere ∈ [stillThere] ∧
      ∃ visited, Walk "" bareRuntime loopCaller mailLoop (findStart mailLoop.nodes) "" "" twoMails
        (.ok .hangup) visited ∧ visited.length ≤ MAX_HOPS := by
  have h := stops_on_hangup "" bareRuntime loopCaller mailLoop (run_mailLoop "" bareRuntime)
  exact ⟨h.1 [stillThere, stillThere] _ [stillThere] _ [⟨.isHungUp, true⟩] rfl trivial trivial,
    h.2⟩

end CallNet.FlowRunner
