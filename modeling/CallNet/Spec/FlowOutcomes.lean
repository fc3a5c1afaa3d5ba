import CallNet.Spec.FlowPolling

/-!
# What a finished flow reports

A flow that reports `transferred` keeps the caller's leg up; any other outcome tears it down.
A transfer node reports what its handler answered, a meeting node reports a transfer whatever
the answer was, and a caller whose bridge failed is then left on a leg that nobody ends.
-/

namespace CallNet.FlowRunner

/-! ## Transfers -/

/-- How a transfer settled, for a call that is one. -/
def transferOf : Prog.Event handlers → Option (Except SipError Bool)
  | ⟨.transfer _, settled⟩ => some settled
  | _ => none

/-- How the last transfer of a run settled. -/
def lastTransfer (t : Calls) : Option (Except SipError Bool) := (t.filterMap transferOf).getLast?

/-- A bridge to a meeting did not come about. -/
def BridgeFailed (t : Calls) : Prop :=
  ∃ opts : TransferOpts, opts.isExternalSip = true ∧
    (⟨.transfer opts, .ok false⟩ : Prog.Event handlers) ∈ t

/-- Anything but a transfer. -/
def Op.Stays : Op → Prop
  | .transfer _ => False
  | _ => True

/-- No transfer was started. -/
def NoTransfer (t : Calls) : Prop := ∀ ev ∈ t, ev.1.Stays

theorem transferOf_of_stays {ev : Prog.Event handlers} (h : ev.1.Stays) : transferOf ev = none := by
  obtain ⟨o, x⟩ := ev
  cases o with
  | transfer opts => exact h.elim
  | _ => rfl

theorem lastTransfer_of_noTransfer {t : Calls} (h : NoTransfer t) : lastTransfer t = none := by
  have hnil : t.filterMap transferOf = [] :=
    List.filterMap_eq_nil_iff.mpr fun ev hev => transferOf_of_stays (h ev hev)
  rw [lastTransfer, hnil, List.getLast?_nil]

theorem lastTransfer_concat (t : Calls) (opts : TransferOpts) (settled : Except SipError Bool) :
    lastTransfer (t ++ [⟨.transfer opts, settled⟩]) = some settled := by
  rw [lastTransfer, List.filterMap_append]
  exact List.getLast?_concat

theorem NoTransfer.concat {t : Calls} (h : NoTransfer t) {ev : Prog.Event handlers}
    (hev : ev.1.Stays) : NoTransfer (t ++ [ev]) := by
  intro e he
  rcases List.mem_append.mp he with he | he
  · exact h e he
  · rwa [List.mem_singleton.mp he]

/-! ## How a run ends -/

/-- What the interpreter makes of the answer to a transfer. -/
def reportOf (opts : TransferOpts) : Except SipError Bool → Except SipError FlowResult
  | .ok transferred =>
    .ok (if opts.isExternalSip ∨ transferred then .transferred else .announced)
  | .error err => .error err

/-- The calls of a run and its outcome: either no transfer was started, or one was, as the last
    call. -/
inductive Ends : Calls → Except SipError FlowResult → Prop
  | stays {t : Calls} {r : Except SipError FlowResult} (hstays : NoTransfer t)
    (hr : r ≠ .ok .transferred) : Ends t r
  | transfers {t : Calls} (opts : TransferOpts) (settled : Except SipError Bool)
    (hstays : NoTransfer t) : Ends (t ++ [⟨.transfer opts, settled⟩]) (reportOf opts settled)

/-- The calls of a run up to where a node left it. -/
def StepEnds : Except SipError FlowStep → Calls → Prop
  | .ok (.goto _ _ _), t => NoTransfer t
  | .ok (.done result), t => Ends t (.ok result)
  | .error err, t => Ends t (.error err)

section Nodes

variable {basePath : String} {rt : Runtime} {ctx : Context} {flow : IvrFlowGraph}
  {node : IvrGraphNode} {lastDigit digits : String}

/-- Started where no transfer was, a node ends as a run may. -/
abbrev EndsNode (p : FlowProg FlowStep) : Prop :=
  Prog.Triple (fun _ _ => True) NoTransfer p StepEnds

theorem endsNode_goto (next : Option IvrGraphNode) (lastDigit digits : String) :
    EndsNode (pure (.goto next lastDigit digits)) := fun _ h => h

theorem endsNode_done {result : FlowResult} (hresult : result ≠ .transferred) :
    EndsNode (pure (.done result)) :=
  fun _ h => .stays h fun hr => hresult (Except.ok.inj hr)

/-- A part without a transfer, and the rest of the node. -/
theorem endsNode_bind {α : Type} {p : FlowProg α} {f : α → FlowProg FlowStep}
    (hp : Prog.Only Op.Stays p) (hf : ∀ a, EndsNode (f a)) : EndsNode (p >>= f) := by
  refine Prog.triple_bind (Q := fun _ => NoTransfer) ?_ hf fun err t h => .stays h nofun
  exact hp.triple (fun _ _ _ _ => trivial) fun _ _ _ h hstays => h.concat hstays

/-- A transfer, and what is reported of it. -/
theorem endsNode_transfer (opts : TransferOpts) (report : Bool → FlowResult)
    (hreport : ∀ transferred, reportOf opts (.ok transferred) = .ok (report transferred)) :
    EndsNode (transfer opts >>= fun transferred => pure (.done (report transferred))) := by
  intro t ht
  refine ⟨trivial, ?_⟩
  rintro settled _ rfl
  have hends : Ends (t ++ [⟨.transfer opts, settled⟩]) (reportOf opts settled) :=
    .transfers opts settled ht
  cases settled with
  | ok transferred =>
    rw [hreport] at hends
    exact hends
  | error err => exact hends

theorem only_settled {α : Type} {o : Op} {f : o.Answer → FlowProg α} (ho : o.Stays)
    (hf : ∀ x, Prog.Only Op.Stays (f x)) :
    Prog.Only Op.Stays ((Prog.perform (S := handlers) o : FlowProg o.Answer).bind f) :=
  Prog.only_bind (Prog.only_perform ho) hf

theorem only_ofExcept {α : Type} (r : Except SipError α) :
    Prog.Only Op.Stays (Prog.ofExcept r : FlowProg α) := by
  cases r <;> exact trivial

theorem only_play (file : String) : Prog.Only Op.Stays (play file) :=
  only_settled trivial only_ofExcept

theorem only_collect (prompt : String) (opts : CollectOpts) :
    Prog.Only Op.Stays (collect prompt opts) := only_settled trivial only_ofExcept

theorem only_playPrompt (prompt : Option Prompt) :
    Prog.Only Op.Stays (playPrompt basePath prompt) := by
  unfold playPrompt
  split
  · exact only_play _
  · exact trivial

/-- Collect digits, and go on unless the caller hung up. -/
theorem endsNode_collecting {prompt : String} {opts : CollectOpts} {f : String → FlowProg FlowStep}
    (hf : ∀ entered, EndsNode (f entered)) :
    EndsNode (do
      let entered ← collect prompt opts
      let hungUp ← isHungUp
      if hungUp then pure (.done .hangup) else f entered) := by
  refine endsNode_bind (only_collect prompt opts) fun entered => ?_
  refine endsNode_bind (Prog.only_perform trivial) fun hungUp => ?_
  cases hungUp with
  | true => exact endsNode_done (by decide)
  | false => exact hf entered

theorem endsNode_runMenu (prompt : Option Prompt) (validDigits : Option String)
    (tries timeoutMs : Option Nat) (invalidPrompt : Option Prompt) (options : List MenuOption) :
    EndsNode (runMenu basePath flow node prompt validDigits tries timeoutMs invalidPrompt options
      lastDigit digits) := by
  refine endsNode_collecting fun digit => ?_
  dsimp only
  split
  · exact endsNode_goto _ _ _
  · exact endsNode_bind (only_playPrompt invalidPrompt) fun _ => endsNode_goto _ _ _

theorem endsNode_joinMeetingTarget (target : String) :
    EndsNode (joinMeetingTarget flow node target lastDigit digits) := by
  unfold joinMeetingTarget
  split
  · exact endsNode_bind (only_play _) fun _ => endsNode_goto _ _ _
  · exact endsNode_transfer _ (fun _ => .transferred) fun _ => rfl

theorem endsNode_ite {c : Prop} [Decidable c] {p q : FlowProg FlowStep} (hp : EndsNode p)
    (hq : EndsNode q) : EndsNode (if c then p else q) := by
  split
  · exact hp
  · exact hq

theorem endsNode_runMeetingInternal (prompt : Option Prompt) (apiUrl method : Option String) :
    EndsNode (runMeetingInternal basePath ctx flow node prompt apiUrl method lastDigit digits) := by
  refine endsNode_collecting fun entered => ?_
  refine endsNode_ite (endsNode_goto _ _ _) (endsNode_ite (endsNode_joinMeetingTarget "") ?_)
  exact endsNode_bind (Prog.only_perform trivial) fun result => endsNode_joinMeetingTarget _

theorem endsNode_runMeetingExternal (providerPrompt idPrompt : Option Prompt)
    (providers : List MeetingProvider) :
    EndsNode (runMeetingExternal basePath flow node providerPrompt idPrompt providers lastDigit
      digits) := by
  have hinvalid : EndsNode (play "say:Invalid selection." >>= fun _ =>
      pure (.goto (flow.fallback node.id) lastDigit digits)) :=
    endsNode_bind (only_play _) fun _ => endsNode_goto _ _ _
  refine endsNode_collecting fun chosen => endsNode_ite (endsNode_goto _ _ _) ?_
  split
  · exact hinvalid
  · refine endsNode_ite hinvalid (endsNode_collecting fun entered => ?_)
    exact endsNode_ite (endsNode_goto _ _ _) (endsNode_joinMeetingTarget _)

theorem endsNode_runNode : EndsNode (runNode basePath rt ctx flow node lastDigit digits) := by
  unfold runNode
  cases node.data with
  | start greeting => exact endsNode_bind (only_playPrompt greeting) fun _ => endsNode_goto _ _ _
  | play prompt => exact endsNode_bind (only_playPrompt prompt) fun _ => endsNode_goto _ _ _
  | menu prompt validDigits tries timeoutMs invalidPrompt options =>
    exact endsNode_runMenu prompt validDigits tries timeoutMs invalidPrompt options
  | condition data => exact endsNode_bind (Prog.only_perform trivial) fun _ => endsNode_goto _ _ _
  | transfer department extension ringSeconds =>
    refine endsNode_transfer _ (fun transferred => if transferred then .transferred else .announced)
      fun transferred => ?_
    cases transferred <;> rfl
  | meetingJoinInternal prompt apiUrl method =>
    exact endsNode_runMeetingInternal prompt apiUrl method
  | meetingJoinExternal providerPrompt idPrompt providers =>
    exact endsNode_runMeetingExternal providerPrompt idPrompt providers
  | voicemail mailbox maxSeconds greeting =>
    exact endsNode_bind (only_settled trivial only_ofExcept) fun _ => endsNode_done (by decide)
  | email connectorId recipient subject body =>
    exact endsNode_bind (only_settled trivial only_ofExcept) fun _ => endsNode_goto _ _ _
  | hangup => exact endsNode_done (by decide)
  | unknown kind => exact endsNode_done (by decide)

/-! ## A whole run -/

/-- The loop ends as a run may, started where no transfer was. -/
theorem ends_runFlowLoop (hops : Nat) (current : Option IvrGraphNode) :
    Prog.Triple (fun _ _ => True) NoTransfer
      (runFlowLoop basePath rt ctx flow hops current lastDigit digits) fun r t => Ends t r := by
  induction hops generalizing current lastDigit digits with
  | zero => cases current <;> exact fun _ h => .stays h nofun
  | succ hops ih =>
    cases current with
    | none => exact fun _ h => .stays h nofun
    | some node =>
      refine Prog.triple_bind (Q := fun _ => NoTransfer) ?_ (fun hungUp => ?_)
        fun err t h => .stays h nofun
      · exact (Prog.only_perform (Q := Op.Stays) trivial).triple (fun _ _ _ _ => trivial)
          fun _ _ _ h hstays => h.concat hstays
      · cases hungUp with
        | true => exact fun _ h => .stays h nofun
        | false =>
          refine Prog.triple_bind endsNode_runNode (fun step => ?_) fun err t h => h
          cases step with
          | done result => exact fun _ h => h
          | goto next lastDigit digits => exact ih next

theorem ends_runFlow {t : Calls} {r : Except SipError FlowResult}
    (hrun : Prog.Run (runFlow basePath rt ctx flow) t r) : Ends t r := by
  have hstart : NoTransfer [] := fun _ h => absurd h List.not_mem_nil
  unfold runFlow at hrun
  split at hrun
  · cases hrun
    exact .stays hstart nofun
  · exact ((ends_runFlowLoop _ _ [] hstart).run hrun).2

end Nodes

/-! ## Reports and legs -/

/-- A run that ended so reports a transfer exactly when its last transfer succeeded, unless a
    bridge to a meeting failed. -/
theorem Ends.reported_iff {t : Calls} {r : Except SipError FlowResult} (h : Ends t r) :
    (r = .ok .transferred ↔ lastTransfer t = some (.ok true)) ↔ ¬ BridgeFailed t := by
  cases h with
  | stays hstays hr =>
    -- without a transfer both sides of the report are false
    have hnone : ¬ BridgeFailed t := fun ⟨_, _, hmem⟩ => hstays _ hmem
    simp [lastTransfer_of_noTransfer hstays, hr, hnone]
  | @transfers t opts settled hstays =>
    -- the one transfer is the last call, so it alone can be the failed bridge
    have hfailed : BridgeFailed (t ++ [⟨.transfer opts, settled⟩]) ↔
        opts.isExternalSip = true ∧ settled = .ok false := by
      constructor
      · rintro ⟨opts', hext, hmem⟩
        rcases List.mem_append.mp hmem with hmem | hmem
        · exact absurd (hstays _ hmem) id
        · cases List.mem_singleton.mp hmem
          exact ⟨hext, rfl⟩
      · rintro ⟨hext, rfl⟩
        exact ⟨opts, hext, List.mem_append_right _ List.mem_cons_self⟩
    rw [hfailed, lastTransfer_concat]
    cases settled with
    | error err => simp [reportOf]
    | ok transferred =>
      cases hext : opts.isExternalSip <;> cases transferred <;> simp [reportOf, hext]

/-- The outcome of a flow and what is done about the caller's leg afterwards. -/
structure Faithful (endpoint dialog : Leg) (t : Calls) (r : Except SipError FlowResult)
    (u : History) : Prop where
  reported : r = .ok .transferred ↔ lastTransfer t = some (.ok true)
  released : r ≠ .ok .transferred →
    Effect.event (.destroy dialog) () ∈ u ∧ Effect.event (.destroy endpoint) () ∈ u

/-- Every outcome but a transfer tears the caller's leg down. -/
theorem released_afterFlow {endpoint dialog : Leg} {callId : String}
    {r : Except SipError FlowResult} {u : History} {s : Except SipError Unit}
    (hafter : Prog.Run (afterFlow endpoint dialog callId r) u s) (hr : r ≠ .ok .transferred) :
    Effect.event (.destroy dialog) () ∈ u ∧ Effect.event (.destroy endpoint) () ∈ u := by
  have hlegs : ∀ {v : History} {s : Except SipError Unit},
      Prog.Run (destroyLegs dialog endpoint) v s →
      v = [Effect.event (.destroy dialog) (), Effect.event (.destroy endpoint) ()] := by
    intro v s h
    cases h with
    | op x h => cases h with
      | op y h => cases h; rfl
  have hlast {α : Type} {p : CallProg α} (hp : p.Total)
      (h : Prog.Run (p.bind fun _ => destroyLegs dialog endpoint) u s) :
      Effect.event (.destroy dialog) () ∈ u ∧ Effect.event (.destroy endpoint) () ∈ u := by
    rcases Prog.run_bind_iff.mp h with ⟨_, v, w, rfl, -, hw⟩ | ⟨err, hfail, -⟩
    · rw [hlegs hw]
      simp
    · exact (hp.run hfail).elim
  cases r with
  | ok result =>
    have hne : result ≠ .transferred := fun h => hr (congrArg Except.ok h)
    simp only [afterFlow, hne, if_false] at hafter
    exact hlast (p := setStatus callId result.status) (fun _ => trivial) hafter
  | error err =>
    -- the failure path also sends a response before it tears the legs down
    refine hlast (p := (setStatus callId .failed).bind fun _ =>
      sendUnlessFinal 503 (some "Service Unavailable")) ?_ ?_
    · intro _ (sent : Bool)
      cases sent with
      | true => trivial
      | false => exact fun _ => trivial
    · rw [Prog.bind_assoc]
      exact hafter

/-- The outcome is faithful if and only if no bridge to a meeting failed. -/
theorem faithful_iff (basePath : String) (rt : Runtime) (ctx : Context) (flow : IvrFlowGraph)
    (endpoint dialog : Leg) (callId : String) {t : Calls} {r : Except SipError FlowResult}
    {u : History} {s : Except SipError Unit}
    (hrun : Prog.Run (runFlow basePath rt ctx flow) t r)
    (hafter : Prog.Run (afterFlow endpoint dialog callId r) u s) :
    Faithful endpoint dialog t r u ↔ ¬ BridgeFailed t := by
  rw [← (ends_runFlow hrun).reported_iff]
  constructor
  · exact fun h => h.reported
  · exact fun h => ⟨h, released_afterFlow hafter⟩

/-- A flow of a start node and one more. -/
def oneNodeFlow (node : IvrGraphNode) : IvrFlowGraph :=
  { id := "flow-4", name := "One node", extension := "6003", enabled := true
    nodes := [⟨"start", .start none⟩, node], edges := [⟨"start", node.id, none⟩] }

/-- Ask the caller for a meeting of `meet.example`. -/
def meetingNode : IvrGraphNode :=
  ⟨"meeting", .meetingJoinExternal none none [{ digit := "1", domain := "meet.example" }]⟩

def askedFor (prompt : String) (waitMs : Nat) (entered : String) : Prog.Event handlers :=
  ⟨.collect prompt { tries := 3, waitMs }, .ok entered⟩

/-- The caller asks for meeting 42 of the first provider. -/
def meetingCalls (bridged : Bool) : Calls :=
  [stillThere, stillThere, askedFor "say:Please select a provider." 5000 "1", stillThere,
    askedFor "say:Please enter the meeting ID." 10000 "42", stillThere,
    ⟨.transfer { extension := some "42@meet.example", isExternalSip := true }, .ok bridged⟩]

theorem run_meeting (basePath : String) (rt : Runtime) (bridged : Bool) :
    Prog.Run (runFlow basePath rt loopCaller (oneNodeFlow meetingNode)) (meetingCalls bridged)
      (.ok .transferred) := by
  have hcollect {α : Type} {f : String → FlowProg α} {gone : FlowProg α} {prompt entered : String}
      {waitMs : Nat} {t : Calls} {r : Except SipError α} (hrest : Prog.Run (f entered) t r) :
      Prog.Run (do
        let entered ← collect prompt { tries := 3, waitMs }
        let hungUp ← isHungUp
        if hungUp then gone else f entered) (askedFor prompt waitMs entered :: stillThere :: t) r :=
    Prog.Run.op (S := handlers) (o := .collect prompt { tries := 3, waitMs }) (Except.ok entered)
      (Prog.Run.op (S := handlers) (o := .isHungUp) false hrest)
  have hbridge : Prog.Run (joinMeetingTarget (oneNodeFlow meetingNode) meetingNode
      "42@meet.example" "2" "42")
      [⟨.transfer { extension := some "42@meet.example", isExternalSip := true }, .ok bridged⟩]
      (.ok (.done .transferred)) :=
    Prog.Run.op (S := handlers)
      (o := .transfer { extension := some "42@meet.example", isExternalSip := true })
      (Except.ok bridged) (.pure _)
  have hnode : Prog.Run (runNode basePath rt loopCaller (oneNodeFlow meetingNode) meetingNode "" "")
      ((meetingCalls bridged).drop 2) (.ok (.done .transferred)) :=
    hcollect (hcollect hbridge)
  exact run_visit (t := []) (.pure _)
    (Prog.Run.op (S := handlers) (o := .isHungUp) false (hnode.bind (u := []) (.pure _)))

/-- The IVR system's own handler answers so when the media server refuses the bridge. -/
theorem run_transferTo_refused (cfg : Config) (call : FlowCall) (err : SipError) :
    Prog.Run (transferTo cfg call { extension := some "42@meet.example", isExternalSip := true })
      [Effect.event (.execute call.endpoint "bridge" (sipBridgeTarget "42@meet.example"))
        (.error err)] (.ok false) :=
  Prog.Run.op (S := effects)
    (o := .execute call.endpoint "bridge" (sipBridgeTarget "42@meet.example")) (Except.error err)
    (.pure false)

/-- A bridge that came about is reported as one. -/
theorem faithful_iff_bridged :
    Faithful { key := 0 } { key := 1 } (meetingCalls true) (.ok .transferred) [] := by
  refine (faithful_iff "" bareRuntime loopCaller (oneNodeFlow meetingNode) { key := 0 }
    { key := 1 } "call-1" (run_meeting "" bareRuntime true) (.pure ())).mpr ?_
  rintro ⟨opts, -, hmem⟩
  simp only [meetingCalls, List.mem_cons, List.not_mem_nil, or_false] at hmem
  rcases hmem with h | h | h | h | h | h | h <;> cases h

/-- The bridge failed, the flow says it transferred the caller, and their leg stays up. -/
theorem not_faithful_failed :
    Prog.Run (runFlow "" bareRuntime loopCaller (oneNodeFlow meetingNode)) (meetingCalls false)
        (.ok .transferred) ∧
      Prog.Run (afterFlow { key := 0 } { key := 1 } "call-1" (.ok .transferred)) [] (.ok ()) ∧
      ¬ Faithful { key := 0 } { key := 1 } (meetingCalls false) (.ok .transferred) [] := by
  refine ⟨run_meeting "" bareRuntime false, .pure (), fun h => ?_⟩
  have hlast := h.reported.mp rfl
  cases hlast

end CallNet.FlowRunner
