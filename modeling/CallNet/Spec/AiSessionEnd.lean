import CallNet.ForStd.Machine
import CallNet.Streaming.AiHandlers

/-!
# The end of an AI call

`ended_iff`: what a call leaves behind is right exactly as long as nothing of it comes too late.
After `onStop` no brain is resolved, no transcriber connects and no synthesis gives audio.
-/

namespace CallNet.Streaming.AiCall

open Machine (Meets Throughout)

variable {s s' : AiCall} {e : AiEvent}

/-! ## The property and its condition -/

/-- `onStop` has run and nothing is awaited any more. -/
structure Settled (s : AiCall) : Prop where
  start : s.start = .settled
  stop : s.stop = .settled
  utterances : ∀ u ∈ s.utterances, u = .settled

structure Ended (s : AiCall) : Prop where
  /-- A transcriber that was created was stopped and does not recognise. -/
  transcriber : ∀ c, s.state = some c → c.stopped = true ∧ c.transcriber.active = false
  calls : s.registered = false
  /-- No audio was sent after `onStop`. -/
  silent : ∀ x ∈ s.sent, x.2 = false

/-- What would come too late after `onStop`. -/
def InTime (s : AiCall) : AiEvent → Prop
  | .resolved .. | .connected => s.stop = .notCalled
  | .greeted audio | .synthesized _ audio => audio.length = 0 ∨ s.stop = .notCalled
  | _ => True

/-- An event that happens is in time. -/
def Timely (s : AiCall) (e : AiEvent) : Prop := (step s e).isSome = true → s.InTime e

/-! ## What an event can do -/

/-- Nothing that the end of the call depends on has changed. -/
structure Alike (s s' : AiCall) : Prop where
  stop : s'.stop = .notCalled ↔ s.stop = .notCalled
  registered : s'.registered = s.registered
  token : s'.start = .token → s.start = .token

/-- What may happen to a transcriber outside of `onStop`, once `onStart` has its token. -/
structure Keeps (s : AiCall) (t t' : Transcriber) : Prop where
  provider : t'.provider = t.provider
  active : t'.active = t.active ∨ (t.provider = .deepgram ∧ t'.active = false)
  connection : t'.connection = true → t.connection = true ∨ s.start = .token
  held : t.connection = true → s.stop = .notCalled → t'.connection = true

inductive Moves (s s' : AiCall) : AiEvent → Prop where
  | resolved {p : SttProvider} {greeting : String} {keySet : Bool} {c : CallState}
      (hstop : s'.stop = s.stop) (hregistered : s'.registered = true) (hstate : s'.state = some c)
      (hidle : c.transcriber.active = false) (hsent : s'.sent = s.sent)
      (htoken : s'.start = .token → c.transcriber.provider = .speechmatics) :
      Moves s s' (.resolved p greeting keySet)
  | connected {c : CallState} (halike : Alike s s') (hstate : s.state = some c)
      (hconnection : c.transcriber.connection = true)
      (hstate' : s'.state = some { c with transcriber := c.transcriber.connected })
      (hsent : s'.sent = s.sent) : Moves s s' .connected
  | speaks {e : AiEvent} {audio : List UInt8} (he : e = .greeted audio ∨ ∃ i, e = .synthesized i audio)
      (haudio : audio.length ≠ 0) (halike : Alike s s') (hstate : s'.state = s.state)
      (hsent : s'.sent = s.sent ++ [(audio, decide (s.stop ≠ .notCalled))]) : Moves s s' e
  | onStop (hstop : s.stop = .notCalled) (hs : s' = s.onStop) : Moves s s' .onStop
  | other {e : AiEvent} (f : Transcriber → Transcriber) (halike : Alike s s')
      (hf : ∀ c, s.state = some c → Keeps s c.transcriber (f c.transcriber))
      (hstate : s'.state = (s.withTranscriber f).state) (hsent : s'.sent = s.sent)
      (he : s.InTime e) : Moves s s' e

theorem withTranscriber_id (s : AiCall) : (s.withTranscriber id).state = s.state := by
  rw [withTranscriber]
  cases s.state <;> rfl

theorem Keeps.refl (s : AiCall) (t : Transcriber) : Keeps s t t :=
  ⟨rfl, .inl rfl, .inl, fun h _ => h⟩

/-- An event that touches neither the state of the call nor what was sent. -/
theorem Moves.quiet (halike : Alike s s') (hstate : s'.state = s.state) (hsent : s'.sent = s.sent)
    (he : s.InTime e) : Moves s s' e :=
  .other id halike (fun c _ => .refl s c.transcriber) (hstate.trans s.withTranscriber_id.symm) hsent
    he

theorem pushAudio_keeps (s : AiCall) (t : Transcriber) (frame : Nat) :
    Keeps s t (t.pushAudio frame) := by
  unfold Transcriber.pushAudio
  split
  · exact ⟨rfl, .inl rfl, .inl, fun h _ => h⟩
  · split
    · exact .refl s t
    · exact ⟨rfl, .inl rfl, .inl, fun h _ => h⟩

theorem resolved_moves {p : SttProvider} {greeting : String} {keySet : Bool} :
    Moves s (s.onResolved p greeting keySet) (.resolved p greeting keySet) := by
  unfold onResolved
  cases keySet with
  | false => exact .resolved rfl rfl rfl rfl rfl nofun
  | true =>
    cases p with
    | speechmatics => exact .resolved rfl rfl rfl rfl rfl fun _ => rfl
    | deepgram => exact .resolved rfl rfl rfl rfl rfl nofun

/-- The end of `speak`. -/
theorem speak_moves {audio : List UInt8} (he : e = .greeted audio ∨ ∃ i, e = .synthesized i audio)
    (halike : Alike s s') (hstate : s'.state = s.state) (hsent : s'.sent = (s.sendAudio audio).sent) :
    Moves s s' e := by
  unfold sendAudio at hsent
  split at hsent
  · rename_i hempty
    refine .quiet halike hstate hsent ?_
    rcases he with rfl | ⟨i, rfl⟩
    · exact .inl hempty
    · exact .inl hempty
  · rename_i haudio
    exact .speaks he haudio halike hstate hsent

theorem sendAudio_alike (s : AiCall) (audio : List UInt8) :
    (s.sendAudio audio).stop = s.stop ∧ (s.sendAudio audio).registered = s.registered ∧
      (s.sendAudio audio).start = s.start ∧ (s.sendAudio audio).state = s.state := by
  unfold sendAudio
  split <;> exact ⟨rfl, rfl, rfl, rfl⟩

theorem moves_of_step (hs : step s e = some s') : Moves s s' e := by
  have hsame : ∀ {t : AiCall}, t.stop = s.stop → t.registered = s.registered →
      (t.start = .token → s.start = .token) → Alike s t := fun hstop hreg htoken =>
    ⟨by rw [hstop], hreg, htoken⟩
  cases e with
  | resolved p greeting keySet =>
    obtain ⟨-, h⟩ := Option.ite_none_right_eq_some.mp hs
    cases h
    exact resolved_moves
  | resolveFailed =>
    obtain ⟨-, h⟩ := Option.ite_none_right_eq_some.mp hs
    cases h
    exact .quiet (hsame rfl rfl nofun) rfl rfl trivial
  | token =>
    obtain ⟨hstart, h⟩ := Option.ite_none_right_eq_some.mp hs
    cases h
    -- the token opens the connection, and nothing else of the transcriber changes
    refine .other (fun t => { t with connection := true }) (hsame rfl rfl nofun) (fun c _ => ?_)
      rfl rfl trivial
    exact ⟨rfl, .inl rfl, fun _ => .inr hstart, fun _ _ => rfl⟩
  | tokenFailed =>
    obtain ⟨-, h⟩ := Option.ite_none_right_eq_some.mp hs
    cases h
    exact .quiet (hsame rfl rfl nofun) rfl rfl trivial
  | connected =>
    obtain ⟨c, hc, hif⟩ := Option.bind_eq_some_iff.mp hs
    obtain ⟨⟨-, hconnection⟩, h⟩ := Option.ite_none_right_eq_some.mp hif
    cases h
    refine .connected (hsame rfl rfl fun h => ?_) hc hconnection ?_ rfl
    · simp only [onConnected] at h
      split at h <;> cases h
    · simp only [onConnected, withTranscriber, hc, Option.map_some]
  | connectFailed =>
    obtain ⟨-, h⟩ := Option.ite_none_right_eq_some.mp hs
    cases h
    exact .quiet (hsame rfl rfl nofun) rfl rfl trivial
  | greeted audio =>
    obtain ⟨-, h⟩ := Option.ite_none_right_eq_some.mp hs
    cases h
    obtain ⟨hstop, hregistered, -, hstate⟩ := s.sendAudio_alike audio
    exact speak_moves (.inl rfl) (hsame hstop hregistered nofun) hstate rfl
  | greetingFailed =>
    obtain ⟨-, h⟩ := Option.ite_none_right_eq_some.mp hs
    cases h
    exact .quiet (hsame rfl rfl nofun) rfl rfl trivial
  | transcript text =>
    obtain ⟨-, h⟩ := Option.ite_none_right_eq_some.mp hs
    cases h
    unfold onTranscript
    split
    · split
      · exact .quiet (hsame rfl rfl id) rfl rfl trivial
      · exact .quiet (hsame rfl rfl id) rfl rfl trivial
    · exact .quiet (hsame rfl rfl id) rfl rfl trivial
  | responded i reply =>
    obtain ⟨-, h⟩ := Option.ite_none_right_eq_some.mp hs
    cases h
    exact .quiet (hsame rfl rfl id) rfl rfl trivial
  | respondFailed i =>
    obtain ⟨-, h⟩ := Option.ite_none_right_eq_some.mp hs
    cases h
    exact .quiet (hsame rfl rfl id) rfl rfl trivial
  | synthesized i audio =>
    obtain ⟨-, h⟩ := Option.ite_none_right_eq_some.mp hs
    cases h
    obtain ⟨hstop, hregistered, hstart, hstate⟩ := s.sendAudio_alike audio
    exact speak_moves (.inr ⟨i, rfl⟩) (hsame hstop hregistered fun h => hstart.symm.trans h) hstate
      rfl
  | synthesizeFailed i =>
    obtain ⟨-, h⟩ := Option.ite_none_right_eq_some.mp hs
    cases h
    exact .quiet (hsame rfl rfl id) rfl rfl trivial
  | onAudio frame =>
    cases hs
    unfold onAudio
    split
    · exact .other _ (hsame rfl rfl id) (fun c _ => pushAudio_keeps s c.transcriber frame) rfl rfl
        trivial
    · exact .quiet (hsame rfl rfl id) rfl rfl trivial
  | dropped =>
    obtain ⟨c, hc, hif⟩ := Option.bind_eq_some_iff.mp hs
    obtain ⟨⟨hprovider, -⟩, h⟩ := Option.ite_none_right_eq_some.mp hif
    cases h
    -- only a Deepgram session drops out of a call
    refine .other _ (hsame rfl rfl id) (fun c' hc' => ?_) rfl rfl trivial
    cases hc.symm.trans hc'
    exact ⟨rfl, .inr ⟨hprovider, rfl⟩, .inl, fun h _ => h⟩
  | onStop =>
    obtain ⟨hstop, h⟩ := Option.ite_none_right_eq_some.mp hs
    cases h
    exact .onStop hstop rfl
  | recognitionStopped =>
    obtain ⟨hstop, h⟩ := Option.ite_none_right_eq_some.mp hs
    cases h
    -- only the connection is left to close once recognition has been stopped
    refine .other (fun t => { t with connection := false }) ⟨?_, rfl, id⟩ (fun c _ => ?_) rfl rfl
      trivial
    · rw [hstop]
      exact iff_of_false nofun nofun
    · refine ⟨rfl, .inl rfl, nofun, fun _ hnot => ?_⟩
      rw [hstop] at hnot
      cases hnot

/-! ## What is too late stays wrong -/

/-- The call is over as far as `onStop` could see to it, and nothing came later. -/
structure Clean (s : AiCall) : Prop where
  calls : s.stop ≠ .notCalled → s.registered = false
  transcriber : s.stop ≠ .notCalled → ∀ c, s.state = some c →
    c.transcriber.provider = .speechmatics → c.transcriber.active = false
  silent : ∀ x ∈ s.sent, x.2 = false

theorem withTranscriber_state {f : Transcriber → Transcriber} {c : CallState}
    (hc : s.state = some c) :
    (s.withTranscriber f).state = some { c with transcriber := f c.transcriber } := by
  rw [withTranscriber, hc, Option.map_some]

/-- After `onStop` nothing stops a transcriber, takes the call from the map or unsends audio. -/
theorem clean_back (hs : step s e = some s') (h : s'.Clean) : s.Clean := by
  cases moves_of_step hs with
  | resolved hstop hregistered hstate hidle hsent htoken =>
    -- the call would be in the map
    have hbefore : s.stop = .notCalled := by
      refine Decidable.byContradiction fun hcalled => ?_
      have hgone := h.calls (hstop ▸ hcalled)
      rw [hregistered] at hgone
      cases hgone
    exact ⟨fun hne => absurd hbefore hne, fun hne => absurd hbefore hne, hsent ▸ h.silent⟩
  | connected halike hc hconnection hstate' hsent =>
    have hnot : s.stop ≠ .notCalled → s'.stop ≠ .notCalled := mt halike.stop.mp
    refine ⟨fun hne => halike.registered ▸ h.calls (hnot hne), fun hne c' hc' hprovider => ?_,
      hsent ▸ h.silent⟩
    cases hc.symm.trans hc'
    have hactive := h.transcriber (hnot hne) _ hstate' hprovider
    cases hactive
  | speaks he haudio halike hstate hsent =>
    have hnot : s.stop ≠ .notCalled → s'.stop ≠ .notCalled := mt halike.stop.mp
    exact ⟨fun hne => halike.registered ▸ h.calls (hnot hne),
      fun hne => hstate ▸ h.transcriber (hnot hne),
      fun x hx => h.silent x (hsent ▸ List.mem_append_left _ hx)⟩
  | onStop hstop heq =>
    refine ⟨fun hne => absurd hstop hne, fun hne => absurd hstop hne, fun x hx => h.silent x ?_⟩
    have hsent : s.onStop.sent = s.sent := by
      unfold onStop
      split
      · split <;> rfl
      · rfl
    rw [heq, hsent]
    exact hx
  | other f halike hf hstate hsent he =>
    have hnot : s.stop ≠ .notCalled → s'.stop ≠ .notCalled := mt halike.stop.mp
    refine ⟨fun hne => halike.registered ▸ h.calls (hnot hne), fun hne c hc hprovider => ?_,
      hsent ▸ h.silent⟩
    have hkeeps := hf c hc
    have hactive := h.transcriber (hnot hne) _ (hstate.trans (withTranscriber_state hc))
      (hkeeps.provider.trans hprovider)
    rcases hkeeps.active with hsame | ⟨hdeepgram, -⟩
    · exact hsame.symm.trans hactive
    · rw [hprovider] at hdeepgram
      cases hdeepgram

/-! ## In time -/

structure Orderly (s : AiCall) : Prop where
  registered : s.registered = (decide (s.stop = .notCalled) && s.state.isSome)
  connected : s.stop = .notCalled → ∀ c, s.state = some c → c.transcriber.active = true →
    c.transcriber.connection = true
  /-- A socket of Deepgram is let go of, whether it was open or not. -/
  stopped : s.stop ≠ .notCalled → ∀ c, s.state = some c → c.stopped = true ∧
    c.transcriber.active = false ∧
    (c.transcriber.provider = .deepgram → c.transcriber.connection = false)
  token : s.start = .token → ∀ c, s.state = some c → c.transcriber.provider = .speechmatics
  silent : ∀ x ∈ s.sent, x.2 = false

theorem orderly_init : init.Orderly :=
  ⟨rfl, nofun, fun h => absurd rfl h, nofun, nofun⟩

theorem Orderly.gone (h : s.Orderly) (hstop : s.stop ≠ .notCalled) : s.registered = false := by
  rw [h.registered, decide_eq_false hstop, Bool.false_and]

theorem Orderly.clean (h : s.Orderly) : s.Clean :=
  ⟨h.gone, fun hne c hc _ => (h.stopped hne c hc).2.1, h.silent⟩

/-- The map has the call on the same terms as before. -/
theorem Orderly.registered_of_alike (h : s.Orderly) (halike : Alike s s')
    (hstate : s'.state.isSome = s.state.isSome) :
    s'.registered = (decide (s'.stop = .notCalled) && s'.state.isSome) := by
  rw [halike.registered, h.registered, hstate]
  exact congrArg (· && _) (decide_eq_decide.mpr halike.stop.symm)

/-- `stop` leaves a transcriber that does not recognise and no socket of Deepgram. -/
theorem stop_spec {t : Transcriber} (h : t.active = true → t.connection = true) :
    t.stop.1.active = false ∧
      (t.stop.1.provider = .deepgram → t.stop.1.connection = false) := by
  have hidle : t.connection = false → t.active = false := fun hconnection => by
    refine Bool.eq_false_iff.mpr fun hactive => ?_
    rw [h hactive] at hconnection
    cases hconnection
  unfold Transcriber.stop
  split
  · rename_i hprovider
    split
    · rename_i hidle'
      refine ⟨?_, fun hdeepgram => ?_⟩
      · rcases Bool.or_eq_true_iff.mp hidle' with hconnection | hactive
        · exact hidle (by simpa using hconnection)
        · simpa using hactive
      · rw [hprovider] at hdeepgram
        cases hdeepgram
    · refine ⟨rfl, fun hdeepgram => ?_⟩
      rw [show t.provider = .deepgram from hdeepgram] at hprovider
      cases hprovider
  · split
    · rename_i hconnection
      have hconnection : t.connection = false := by simpa using hconnection
      exact ⟨hidle hconnection, fun _ => hconnection⟩
    · exact ⟨rfl, fun _ => rfl⟩

theorem orderly_onStop (h : s.Orderly) (hstop : s.stop = .notCalled) : s.onStop.Orderly := by
  cases hstate : s.state with
  | none =>
    have heq : s.onStop = { s with stop := .settled } := by simp only [onStop, hstate]
    have hnone : s.registered = false := by
      rw [h.registered, hstate]
      exact Bool.and_false _
    rw [heq]
    refine ⟨hnone.trans (by rw [hstate]; rfl), nofun, fun _ c hc => ?_, fun ht c hc => ?_, h.silent⟩
    · cases hstate.symm.trans hc
    · cases hstate.symm.trans hc
  | some c =>
    have hregistered : s.registered = true := by rw [h.registered, hstop, hstate]; rfl
    have heq : s.onStop = { s with
        state := some { c with transcriber := c.transcriber.stop.1, closed := true, stopped := true }
        registered := false
        stop := if c.transcriber.stop.2 then .pending else .settled } := by
      simp only [onStop, hstate, hregistered, if_true]
    obtain ⟨hactive, hconnection⟩ := stop_spec (h.connected hstop c hstate)
    have hcalled : (if c.transcriber.stop.2 then StopPhase.pending else .settled) ≠ .notCalled := by
      split <;> exact nofun
    rw [heq]
    refine ⟨?_, fun hnot => absurd hnot hcalled, fun _ c' hc' => ?_, fun ht c' hc' => ?_, h.silent⟩
    · show false = (decide (_ = StopPhase.notCalled) && _)
      rw [decide_eq_false hcalled, Bool.false_and]
    · cases hc'
      exact ⟨rfl, hactive, hconnection⟩
    · cases hc'
      have hprovider : c.transcriber.stop.1.provider = c.transcriber.provider := by
        unfold Transcriber.stop
        split
        · split <;> rfl
        · split <;> rfl
      exact hprovider.trans (h.token ht c hstate)

theorem orderly_step (h : s.Orderly) (htimely : s.Timely e) (hs : step s e = some s') :
    s'.Orderly := by
  have htime := htimely (by rw [hs]; rfl)
  cases moves_of_step hs with
  | @resolved p greeting keySet c hstop hregistered hstate hidle hsent htoken =>
    have hbefore : s'.stop = .notCalled := hstop.trans htime
    refine ⟨?_, fun _ c' hc' hactive => ?_, fun hne => absurd hbefore hne, fun ht c' hc' => ?_,
      hsent ▸ h.silent⟩
    · rw [hregistered, hbefore, hstate]
      rfl
    · cases hstate.symm.trans hc'
      rw [hidle] at hactive
      cases hactive
    · cases hstate.symm.trans hc'
      exact htoken ht
  | @connected c halike hc hconnection hstate' hsent =>
    have hbefore : s'.stop = .notCalled := halike.stop.mpr htime
    refine ⟨h.registered_of_alike halike (by rw [hstate', hc]; rfl), fun _ c' hc' _ => ?_,
      fun hne => absurd hbefore hne, fun ht c' hc' => ?_, hsent ▸ h.silent⟩
    · cases hstate'.symm.trans hc'
      exact hconnection
    · cases hstate'.symm.trans hc'
      exact h.token (halike.token ht) c hc
  | speaks he haudio halike hstate hsent =>
    have hbefore : s.stop = .notCalled := by
      rcases he with rfl | ⟨i, rfl⟩
      · exact htime.resolve_left haudio
      · exact htime.resolve_left haudio
    refine ⟨h.registered_of_alike halike (by rw [hstate]), fun _ => hstate ▸ h.connected hbefore,
      fun hne => absurd (halike.stop.mpr hbefore) hne,
      fun ht => hstate ▸ h.token (halike.token ht), fun x hx => ?_⟩
    rw [hsent] at hx
    rcases List.mem_append.mp hx with hx | hx
    · exact h.silent x hx
    · cases List.mem_singleton.mp hx
      exact decide_eq_false fun hne => hne hbefore
  | onStop hstop heq => exact heq ▸ orderly_onStop h hstop
  | other f halike hf hstate hsent he =>
    have hstate' : ∀ c', s'.state = some c' → ∃ c, s.state = some c ∧
        c' = { c with transcriber := f c.transcriber } := fun c' hc' => by
      obtain ⟨c, hc, heq⟩ := Option.map_eq_some_iff.mp (hstate.symm.trans hc')
      exact ⟨c, hc, heq.symm⟩
    have hisSome : s'.state.isSome = s.state.isSome := by
      rw [hstate, withTranscriber, Option.isSome_map]
    refine ⟨h.registered_of_alike halike hisSome, fun hnot c' hc' hactive => ?_,
      fun hne c' hc' => ?_, fun ht c' hc' => ?_, hsent ▸ h.silent⟩
    · obtain ⟨c, hc, rfl⟩ := hstate' c' hc'
      have hnot := halike.stop.mp hnot
      rcases (hf c hc).active with hsame | ⟨-, hidle⟩
      · exact (hf c hc).held (h.connected hnot c hc (hsame.symm.trans hactive)) hnot
      · rw [hidle] at hactive
        cases hactive
    · obtain ⟨c, hc, rfl⟩ := hstate' c' hc'
      obtain ⟨hstopped, hidle, hconnection⟩ := h.stopped (mt halike.stop.mpr hne) c hc
      have hkeeps := hf c hc
      refine ⟨hstopped, ?_, fun hdeepgram => ?_⟩
      · rcases hkeeps.active with hsame | ⟨-, hidle'⟩
        · exact hsame.trans hidle
        · exact hidle'
      · have hdeepgram := hkeeps.provider.symm.trans hdeepgram
        refine Bool.eq_false_iff.mpr fun hcon => ?_
        rcases hkeeps.connection hcon with hcon | htoken
        · rw [hconnection hdeepgram] at hcon
          cases hcon
        · -- only a transcriber of Speechmatics waits for a token
          rw [h.token htoken c hc] at hdeepgram
          cases hdeepgram
    · obtain ⟨c, hc, rfl⟩ := hstate' c' hc'
      exact (hf c hc).provider.trans (h.token (halike.token ht) c hc)

theorem timely_of_clean (h : s.Orderly) (hs : step s e = some s') (hclean : s'.Clean) :
    s.Timely e := by
  intro _
  cases moves_of_step hs with
  | resolved hstop hregistered hstate hidle hsent htoken =>
    show s.stop = .notCalled
    refine Decidable.byContradiction fun hcalled => ?_
    have hgone := hclean.calls (hstop ▸ hcalled)
    rw [hregistered] at hgone
    cases hgone
  | @connected c halike hc hconnection hstate' hsent =>
    show s.stop = .notCalled
    refine Decidable.byContradiction fun hcalled => ?_
    -- the transcriber is the one of Speechmatics, and it is active now
    have hprovider : c.transcriber.provider = .speechmatics := by
      cases hprovider : c.transcriber.provider with
      | speechmatics => rfl
      | deepgram =>
        rw [(h.stopped hcalled c hc).2.2 hprovider] at hconnection
        cases hconnection
    have hactive := hclean.transcriber (mt halike.stop.mp hcalled) _ hstate' hprovider
    cases hactive
  | speaks he haudio halike hstate hsent =>
    have hlate := hclean.silent _ (hsent ▸ List.mem_append_right _ (List.mem_singleton_self _))
    have hbefore : s.stop = .notCalled :=
      Decidable.byContradiction fun hne => by
        rw [decide_eq_true hne] at hlate
        cases hlate
    rcases he with rfl | ⟨i, rfl⟩
    · exact .inr hbefore
    · exact .inr hbefore
  | onStop hstop heq => trivial
  | other f halike hf hstate hsent he => exact he

/-! ## Runs -/

theorem clean_throughout_iff (es : List AiEvent) :
    Throughout step Clean init es ↔ Meets step Timely init es := by
  refine Machine.throughout_iff_meets (P := fun _ _ => True) (fun _ h => h.clean) ?_ ?_ ?_
    orderly_init (Machine.meets_of_mem fun _ _ => trivial)
  · exact fun s e s' h _ htimely hs => orderly_step h htimely hs
  · exact fun s e s' h _ hs hclean => timely_of_clean h hs hclean
  · intro s e hnone hsome
    rw [hnone] at hsome
    cases hsome

/-- Once `onStop` has run and nothing is awaited any more, the call has ended rightly if and only
    if each event of it was in time. -/
theorem ended_iff {es : List AiEvent} (hrun : Machine.run step init es = some s)
    (hsettled : s.Settled) : s.Ended ↔ Meets step Timely init es := by
  constructor
  · intro h
    have hclean : s.Clean :=
      ⟨fun _ => h.calls, fun _ c hc _ => (h.transcriber c hc).2, h.silent⟩
    exact (clean_throughout_iff es).mp ((Machine.throughout_iff_last
      (fun _ _ _ => clean_back) hrun).mpr hclean)
  · intro htimely
    have horderly : s.Orderly := (Machine.throughout_of_meets
      (fun s e s' h htimely hs => orderly_step h htimely hs) orderly_init htimely).last hrun
    have hcalled : s.stop ≠ .notCalled := by
      rw [hsettled.stop]
      exact nofun
    refine ⟨fun c hc => ?_, horderly.gone hcalled, horderly.silent⟩
    obtain ⟨hstopped, hidle, -⟩ := horderly.stopped hcalled c hc
    exact ⟨hstopped, hidle⟩

/-- A call in which the caller hangs up after an answer. -/
def answered : List AiEvent :=
  [.resolved .speechmatics "" true, .token, .connected, .onAudio 0, .transcript "hello",
    .responded 0 "hi", .synthesized 0 [255], .onStop, .recognitionStopped]

theorem ended_iff_answered : ∃ s, Machine.run step init answered = some s ∧ s.Settled ∧
    (s.Ended ↔ Meets step Timely init answered) := by
  obtain ⟨s, hs⟩ : ∃ s, Machine.run step init answered = some s := ⟨_, rfl⟩
  have hsettled : s.Settled := by
    cases hs
    exact ⟨rfl, rfl, by decide⟩
  exact ⟨s, hs, hsettled, ended_iff hs hsettled⟩

/-- The caller hangs up while the agent is being resolved. -/
def hangsUpEarly : List AiEvent := [.onStop, .resolved .speechmatics "" true, .token, .connected]

theorem not_ended_hangsUpEarly : ∃ s, Machine.run step init hangsUpEarly = some s ∧ s.Settled ∧
    ¬ s.Ended := by
  obtain ⟨s, hs⟩ : ∃ s, Machine.run step init hangsUpEarly = some s := ⟨_, rfl⟩
  refine ⟨s, hs, ?_, fun hended => ?_⟩
  · cases hs
    exact ⟨rfl, rfl, nofun⟩
  · have hregistered := hended.calls
    cases hs
    cases hregistered

end CallNet.Streaming.AiCall
