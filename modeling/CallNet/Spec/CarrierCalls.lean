import CallNet.Spec.BridgePairing
import CallNet.Streaming.CallRouter

/-!
# Decisions on calls of a carrier

A call that arrives for a number concerns up to three identities: the user who owns the number,
the target that the user forwards such calls to, and the key under which a browser waits, which
is the extension of its user.  `decideCall` takes a call to be answerable when the owner *or* the
target is registered, asks the owner's block list only, and bridges to the target.
`decidesSoundly_iff` says when that is right.
-/

namespace CallNet.Streaming

/-! ## What a decision owes -/

/-- The extension of a user who is registered. -/
structure RegisteredUser (d : Directory) (ext : String) : Prop where
  user : ∃ u, d.getUser ext = some u ∧ u.extension = ext
  registered : d.isRegistered ext = true

/-- The fallbacks in their order, each with whether the settings allow it. -/
def fallbacks (d : Directory) (cfg : CallRouterConfig) (ext : String) :
    List (Bool × CallDecision) :=
  let target := (d.getForwarding ext).unavailable
  [(truthy target, .forward ext (target.getD "")), (cfg.aiEnabled, .ai ext),
    (cfg.voicemailEnabled, .voicemail ext), (true, .reject .unavailable)]

/-- One of the fallbacks. -/
def CallDecision.IsFallback : CallDecision → Prop
  | .bridge _ _ | .reject .noDid | .reject .blocked => False
  | _ => True

/-- What a decision owes to the owner, to the target and to the browsers. -/
structure DecidesSoundly (d : Directory) (cfg : CallRouterConfig) (called caller : String) :
    Prop where
  /-- A bridge is to a registered user, and neither that user nor the owner blocks the caller. -/
  bridged : ∀ ext key, decideCall d cfg called caller = .bridge ext key →
    RegisteredUser d key ∧ d.isBlocked key caller = false ∧ d.isBlocked ext caller = false
  /-- A browser of that user is put on the call. -/
  joins : ∀ ext key, decideCall d cfg called caller = .bridge ext key →
    ∀ (b : BrowserBridge), b.Sound → ∀ streamId callId,
      let start := startOf (bridgeParameters ext key caller) streamId callId
      let b' := (b.onStart start).onBrowser key
      b'.session key = some b.sessions.length ∧ b'.attached key = some b.browsers.length
  /-- A fallback is the first allowed, and nobody is registered. -/
  offline : ∀ user target, d.findPstnForwardTarget called = some (user, target) →
    (decideCall d cfg called caller).IsFallback →
    d.isRegistered user.extension = false ∧ d.isRegistered target = false ∧
      ((fallbacks d cfg user.extension).find? (·.1)).map Prod.snd =
        some (decideCall d cfg called caller)
  /-- The calls that are refused outright. -/
  refused : (decideCall d cfg called caller = .reject .noDid ↔
      d.findPstnForwardTarget called = none) ∧
    (decideCall d cfg called caller = .reject .blocked → ∃ user target,
      d.findPstnForwardTarget called = some (user, target) ∧
      d.isBlocked user.extension caller = true)

/-- The identity that a call is bridged to is the right one: whenever the owner or the target is
    registered, the target is itself a registered user, and neither blocks the caller. -/
def BridgesToUser (d : Directory) (called caller : String) : Prop :=
  ∀ user target, d.findPstnForwardTarget called = some (user, target) →
    (caller = "" ∨ d.isBlocked user.extension caller = false) →
    (d.isRegistered target = true ∨ d.isRegistered user.extension = true) →
    target ≠ "" ∧ RegisteredUser d target ∧ d.isBlocked target caller = false ∧
      d.isBlocked user.extension caller = false

/-! ## The cases of a decision -/

variable {d : Directory} {cfg : CallRouterConfig} {called caller target : String} {user : SipUser}

theorem isSome_getRegistration (d : Directory) (ext : String) :
    (d.getRegistration ext).isSome = d.isRegistered ext := rfl

/-- The decision on a call to a number that somebody owns. -/
theorem decideCall_of_owner (h : d.findPstnForwardTarget called = some (user, target)) :
    decideCall d cfg called caller =
      if caller ≠ "" ∧ d.isBlocked user.extension caller = true then .reject .blocked
      else if d.isRegistered target = true ∨ d.isRegistered user.extension = true then
        .bridge user.extension target
      else (((fallbacks d cfg user.extension).find? (·.1)).map Prod.snd).getD
        (.reject .unavailable) := by
  unfold decideCall
  simp only [h, isSome_getRegistration, Bool.or_eq_true]
  split
  · rfl
  · split
    · rfl
    · unfold fallbacks
      dsimp only
      cases truthy (d.getForwarding user.extension).unavailable with
      | true => rfl
      | false => cases cfg.aiEnabled <;> cases cfg.voicemailEnabled <;> rfl

/-- There always is a fallback, and it is one. -/
theorem exists_fallback (d : Directory) (cfg : CallRouterConfig) (ext : String) :
    ∃ decision, ((fallbacks d cfg ext).find? (·.1)).map Prod.snd = some decision ∧
      decision.IsFallback := by
  unfold fallbacks
  dsimp only
  cases truthy (d.getForwarding ext).unavailable with
  | true => exact ⟨_, rfl, trivial⟩
  | false =>
    cases cfg.aiEnabled with
    | true => exact ⟨_, rfl, trivial⟩
    | false => cases cfg.voicemailEnabled <;> exact ⟨_, rfl, trivial⟩

/-- The ways to a decision, with what is known of the call on each. -/
inductive Decided (d : Directory) (cfg : CallRouterConfig) (called caller : String) :
    CallDecision → Prop
  | noDid (hfind : d.findPstnForwardTarget called = none) :
    Decided d cfg called caller (.reject .noDid)
  | blocked {user : SipUser} {target : String}
    (hfind : d.findPstnForwardTarget called = some (user, target)) (hcaller : caller ≠ "")
    (hblocked : d.isBlocked user.extension caller = true) :
    Decided d cfg called caller (.reject .blocked)
  | bridged {user : SipUser} {target : String}
    (hfind : d.findPstnForwardTarget called = some (user, target))
    (hfree : caller = "" ∨ d.isBlocked user.extension caller = false)
    (hreg : d.isRegistered target = true ∨ d.isRegistered user.extension = true) :
    Decided d cfg called caller (.bridge user.extension target)
  | fellBack {user : SipUser} {target : String} {decision : CallDecision}
    (hfind : d.findPstnForwardTarget called = some (user, target))
    (howner : d.isRegistered user.extension = false) (htarget : d.isRegistered target = false)
    (hfirst : ((fallbacks d cfg user.extension).find? (·.1)).map Prod.snd = some decision)
    (hfallback : decision.IsFallback) : Decided d cfg called caller decision

theorem decided (d : Directory) (cfg : CallRouterConfig) (called caller : String) :
    Decided d cfg called caller (decideCall d cfg called caller) := by
  cases hfind : d.findPstnForwardTarget called with
  | none =>
    have hno : decideCall d cfg called caller = .reject .noDid := by simp only [decideCall, hfind]
    rw [hno]
    exact .noDid hfind
  | some found =>
    obtain ⟨user, target⟩ := found
    rw [decideCall_of_owner hfind]
    split
    · rename_i hblocked
      exact .blocked hfind hblocked.1 hblocked.2
    · rename_i hblocked
      split
      · rename_i hreg
        refine .bridged hfind ?_ hreg
        by_cases hempty : caller = ""
        · exact .inl hempty
        · exact .inr (eq_false_of_ne_true fun h => hblocked ⟨hempty, h⟩)
      · rename_i hreg
        rw [not_or, Bool.not_eq_true, Bool.not_eq_true] at hreg
        obtain ⟨decision, hdecision, hfallback⟩ := exists_fallback d cfg user.extension
        rw [hdecision, Option.getD_some]
        exact .fellBack hfind hreg.2 hreg.1 hdecision hfallback

/-- When a call is bridged, and what to. -/
theorem decideCall_bridge {ext key : String} :
    decideCall d cfg called caller = .bridge ext key ↔
      ∃ user, d.findPstnForwardTarget called = some (user, key) ∧ user.extension = ext ∧
        (caller = "" ∨ d.isBlocked user.extension caller = false) ∧
        (d.isRegistered key = true ∨ d.isRegistered user.extension = true) := by
  have hdecided := decided d cfg called caller
  generalize decideCall d cfg called caller = decision at hdecided
  constructor
  · rintro rfl
    cases hdecided with
    | bridged hfind hfree hreg => exact ⟨_, hfind, rfl, hfree, hreg⟩
    | fellBack _ _ _ _ hfallback => exact hfallback.elim
  · rintro ⟨user, hfind, rfl, hfree, hreg⟩
    cases hdecided with
    | noDid hnone => cases hfind.symm.trans hnone
    | blocked hfind' hcaller hblocked =>
      cases hfind.symm.trans hfind'
      rcases hfree with hempty | hfree
      · exact absurd hempty hcaller
      · rw [hfree] at hblocked
        cases hblocked
    | bridged hfind' =>
      cases hfind.symm.trans hfind'
      rfl
    | fellBack hfind' howner htarget =>
      cases hfind.symm.trans hfind'
      rw [howner, htarget] at hreg
      simp at hreg

/-! ## The browser -/

/-- A stream that starts under a key and a browser that then connects with it are paired. -/
theorem paired_of_key {b : BrowserBridge} (hb : b.Sound) {key : String} (hkey : key ≠ "")
    {m : BridgeStart} (hm : keyOf m = key) :
    ((b.onStart m).onBrowser key).session key = some b.sessions.length ∧
      ((b.onStart m).onBrowser key).attached key = some b.browsers.length := by
  obtain ⟨hstart, -, hbrowsers⟩ := BrowserBridge.onStart_spec hb m
  obtain ⟨hconnect, -, -⟩ := BrowserBridge.onBrowser_spec hstart.sound hkey
  rw [hconnect.session_eq, hconnect.attached_eq, if_pos rfl, if_pos rfl, hstart.current,
    if_pos hm.symm, hbrowsers]
  exact ⟨rfl, rfl⟩

theorem keyOf_bridge {key : String} (hkey : key ≠ "") (ext caller streamId : String)
    (callId : Option String) :
    keyOf (startOf (bridgeParameters ext key caller) streamId callId) = key :=
  if_neg hkey

/-- Nobody can wait under the empty key. -/
theorem not_attached_empty (m : BridgeStart) :
    ((BrowserBridge.init.onStart m).onBrowser "").attached "" = none := by
  obtain ⟨hstart, -, -⟩ := BrowserBridge.onStart_spec BrowserBridge.sound_init m
  have hskip : (BrowserBridge.init.onStart m).onBrowser "" = BrowserBridge.init.onStart m :=
    if_pos rfl
  rw [hskip, hstart.attached_eq]
  split <;> rfl

/-! ## The law -/

theorem decidesSoundly_of_bridgesToUser (h : BridgesToUser d called caller) :
    DecidesSoundly d cfg called caller := by
  refine ⟨?_, ?_, ?_, ?_, ?_⟩
  · intro ext key hdecide
    obtain ⟨user, hfind, rfl, hfree, hreg⟩ := decideCall_bridge.mp hdecide
    exact (h user key hfind hfree hreg).2
  · intro ext key hdecide b hb streamId callId
    obtain ⟨user, hfind, rfl, hfree, hreg⟩ := decideCall_bridge.mp hdecide
    have hkey := (h user key hfind hfree hreg).1
    exact paired_of_key hb hkey (keyOf_bridge hkey ..)
  · intro user target hfind hfallback
    have hdecided := decided d cfg called caller
    generalize decideCall d cfg called caller = decision at hdecided hfallback
    cases hdecided with
    | noDid => exact hfallback.elim
    | blocked => exact hfallback.elim
    | bridged => exact hfallback.elim
    | fellBack hfind' howner htarget hfirst =>
      cases hfind.symm.trans hfind'
      exact ⟨howner, htarget, hfirst⟩
  · have hdecided := decided d cfg called caller
    generalize decideCall d cfg called caller = decision at hdecided
    constructor
    · rintro rfl
      cases hdecided with
      | noDid hnone => exact hnone
      | fellBack _ _ _ _ hfallback => exact hfallback.elim
    · intro hnone
      cases hdecided with
      | noDid => rfl
      | blocked hfind => cases hnone.symm.trans hfind
      | bridged hfind => cases hnone.symm.trans hfind
      | fellBack hfind => cases hnone.symm.trans hfind
  · intro hdecide
    have hdecided := decided d cfg called caller
    rw [hdecide] at hdecided
    cases hdecided with
    | blocked hfind hcaller hblocked => exact ⟨_, _, hfind, hblocked⟩
    | fellBack _ _ _ _ hfallback => exact hfallback.elim

/-- A decision is sound exactly when the target of every call that would be bridged is the
    extension of a registered user who does not block the caller, and the owner does not
    either. -/
theorem decidesSoundly_iff (d : Directory) (cfg : CallRouterConfig) (called caller : String) :
    DecidesSoundly d cfg called caller ↔ BridgesToUser d called caller := by
  refine ⟨fun h user target hfind hfree hreg => ?_, decidesSoundly_of_bridgesToUser⟩
  have hdecide : decideCall d cfg called caller = .bridge user.extension target :=
    decideCall_bridge.mpr ⟨user, hfind, rfl, hfree, hreg⟩
  refine ⟨?_, h.bridged _ _ hdecide⟩
  rintro rfl
  have hjoined := (h.joins _ _ hdecide .init BrowserBridge.sound_init "" none).2
  rw [not_attached_empty] at hjoined
  cases hjoined

/-- The users of an office: 1001 owns the number and has its calls forwarded to 1002, who blocks
    one caller. -/
def office (registrations : OrdMap String String) : Directory where
  users := .ofList
    [("1001", { extension := "1001", username := "alice", name := "Alice",
                mobile := some "5550001001", pstnForwardToBrowser := true,
                pstnForwardTarget := some "1002" }),
     ("1002", { extension := "1002", username := "bob", name := "Bob",
                blockedNumbers := ["5559999999"] })]
  phoneIndex := .empty
  registrations := registrations
  ivrFlowExtensions := []

/-- With only the owner registered the call is bridged to the key of the other user, where no
    browser waits; with both registered it is bridged to one who blocks the caller. -/
theorem not_decidesSoundly_office :
    ¬ DecidesSoundly (office (.ofList [("1001", "sip:1001@a")])) ⟨true, true⟩
        "+15550001001" "+15551234567" ∧
      ¬ DecidesSoundly (office (.ofList [("1001", "sip:1001@a"), ("1002", "sip:1002@b")]))
        ⟨true, true⟩ "+15550001001" "5559999999" := by
  constructor
  · intro h
    have hbridged := h.bridged "1001" "1002" (by decide)
    exact absurd hbridged.1.registered (by decide)
  · intro h
    have hbridged := h.bridged "1001" "1002" (by decide)
    exact absurd hbridged.2.1 (by decide)

end CallNet.Streaming
