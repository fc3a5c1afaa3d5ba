import CallNet.Engine.CallSystem
import CallNet.ForStd.Machine
import CallNet.Spec.RoutePolicy

/-!
# Sessions and the call log

What holds in every state the running server reaches (`CallSystem.Inv`): each session
follows the discipline of the call path, no two sessions draw the same call id, and a call
record has ended, has a cost or caused a debit only if its session installed a handler that
ends it.  A session that originates a leg installs none (`Session.Ok.no_ending`).
-/

namespace CallNet

/-! ## The call log -/

theorem mem_updateFirst {p : CallLog → Bool} {f : CallLog → CallLog} {l : List CallLog}
    {x : CallLog} (hx : x ∈ updateFirst p f l) :
    x ∈ l ∨ ∃ call, l.find? p = some call ∧ x = f call := by
  induction l with
  | nil => cases hx
  | cons call l ih =>
    simp only [updateFirst] at hx
    split at hx
    · rename_i hp
      rcases List.mem_cons.mp hx with rfl | hx
      · exact .inr ⟨call, List.find?_cons_of_pos hp, rfl⟩
      · exact .inl (List.mem_cons_of_mem _ hx)
    · rename_i hp
      rcases List.mem_cons.mp hx with rfl | hx
      · exact .inl List.mem_cons_self
      · rcases ih hx with hx | ⟨found, hfind, heq⟩
        · exact .inl (List.mem_cons_of_mem _ hx)
        · exact .inr ⟨found, (List.find?_cons_of_neg hp).trans hfind, heq⟩

theorem getCall_mem {s : CallStore} {c : String} {call : CallLog} (h : s.getCall c = some call) :
    call ∈ s.callLogs := List.mem_of_find?_eq_some h

theorem mem_callLogs_updateCall {s : CallStore} {env : CallEnv} {c : String} {u : CallUpdate}
    {x : CallLog} (hx : x ∈ (s.updateCall env c u).callLogs) :
    x ∈ s.callLogs ∨ ∃ call, s.getCall c = some call ∧
      x = call.assign (pricedUpdates env call u) := by
  cases hg : s.getCall c with
  | none =>
    simp only [CallStore.updateCall, hg] at hx
    exact .inl hx
  | some call =>
    simp only [CallStore.updateCall, hg] at hx
    rcases mem_updateFirst hx with hx | ⟨-, -, heq⟩
    · exact .inl hx
    · exact .inr ⟨call, rfl, heq⟩

theorem mem_emitted_updateCall {s : CallStore} {env : CallEnv} {c : String} {u : CallUpdate}
    {event : DbEvent} (h : event ∈ (s.updateCall env c u).emitted) :
    event ∈ s.emitted ∨ ∃ call, s.getCall c = some call ∧
      (event = .callUpserted (call.assign (pricedUpdates env call u)) ∨
        ∃ job, debitOf env call u = some job ∧ event = .balanceDebit job) := by
  cases hg : s.getCall c with
  | none =>
    simp only [CallStore.updateCall, hg] at h
    exact .inl h
  | some call =>
    simp only [CallStore.updateCall, hg, List.mem_append, List.mem_map, List.mem_singleton,
      Option.mem_toList] at h
    rcases h with (h | ⟨job, hjob, rfl⟩) | rfl
    · exact .inl h
    · exact .inr ⟨call, rfl, .inr ⟨job, hjob, rfl⟩⟩
    · exact .inr ⟨call, rfl, .inl rfl⟩

/-- An update that does not end the call is applied as it is. -/
theorem pricedUpdates_of_not_ended {env : CallEnv} {call : CallLog} {u : CallUpdate}
    (h : u.status ≠ some .ended) : pricedUpdates env call u = u := by
  unfold pricedUpdates
  split
  · rw [if_neg]
    exact fun hc => h hc.1
  · rfl

theorem debitOf_of_not_ended {env : CallEnv} {call : CallLog} {u : CallUpdate}
    (h : u.status ≠ some .ended) : debitOf env call u = none := by
  cases hd : debitOf env call u with
  | none => rfl
  | some job => exact absurd (debitOf_eq_some hd).1 h

/-- Only calls in `P` have ended, have a cost or caused a debit. -/
structure CallStore.EndedOnly (P : String → Prop) (s : CallStore) : Prop where
  log : ∀ call ∈ s.callLogs, call.status = .ended ∨ call.cost ≠ none → P call.id
  upserts : ∀ call, .callUpserted call ∈ s.emitted → call.status = .ended → P call.id
  debits : ∀ job, .balanceDebit job ∈ s.emitted → P job.callId

section EndedOnly

variable {P : String → Prop} {s : CallStore}

theorem CallStore.EndedOnly.mono {P' : String → Prop} (himp : ∀ c, P c → P' c)
    (h : s.EndedOnly P) : s.EndedOnly P' where
  log call hcall hend := himp _ (h.log call hcall hend)
  upserts call hcall hend := himp _ (h.upserts call hcall hend)
  debits job hjob := himp _ (h.debits job hjob)

theorem CallStore.EndedOnly.logCall (h : s.EndedOnly P) (env : CallEnv) {data : CallLog}
    (hstatus : data.status = .ringing) (hcost : data.cost = none) :
    (s.logCall env data).EndedOnly P := by
  have hnew : ¬ ((env.dir.resolveLegs data).status = .ended ∨
      (env.dir.resolveLegs data).cost ≠ none) := by
    show ¬ (data.status = .ended ∨ data.cost ≠ none)
    rw [hstatus, hcost]
    rintro (hend | hne)
    · cases hend
    · exact hne rfl
  refine ⟨fun call hcall hend => ?_, fun call hcall hend => ?_, fun job hjob => ?_⟩
  · have hmem : call ∈ env.dir.resolveLegs data :: s.callLogs := by
      simp only [CallStore.logCall, unshiftLog] at hcall
      split at hcall
      · exact List.dropLast_subset _ hcall
      · exact hcall
    rcases List.mem_cons.mp hmem with rfl | hmem
    · exact absurd hend hnew
    · exact h.log call hmem hend
  · simp only [CallStore.logCall, List.mem_append, List.mem_singleton] at hcall
    rcases hcall with hcall | heq
    · exact h.upserts call hcall hend
    · cases heq
      exact absurd (.inl hend) hnew
  · simp only [CallStore.logCall, List.mem_append, List.mem_singleton] at hjob
    rcases hjob with hjob | heq
    · exact h.debits job hjob
    · cases heq

/-- An update of a call in `P`. -/
theorem CallStore.EndedOnly.updateCall (h : s.EndedOnly P) (env : CallEnv) {c : String}
    {u : CallUpdate} (hid : u.id = none) (hc : P c) : (s.updateCall env c u).EndedOnly P := by
  have hassign : ∀ {call : CallLog}, s.getCall c = some call →
      P (call.assign (pricedUpdates env call u)).id := by
    intro call hget
    simp only [CallLog.assign, pricedUpdates_id, hid, Option.getD_none, getCall_id hget]
    exact hc
  refine ⟨fun call hcall hend => ?_, fun call hcall hend => ?_, fun job hjob => ?_⟩
  · rcases mem_callLogs_updateCall hcall with hcall | ⟨old, hget, rfl⟩
    · exact h.log call hcall hend
    · exact hassign hget
  · rcases mem_emitted_updateCall hcall with hcall | ⟨old, hget, heq | ⟨job, -, heq⟩⟩
    · exact h.upserts call hcall hend
    · cases heq
      exact hassign hget
    · cases heq
  · rcases mem_emitted_updateCall hjob with hjob | ⟨old, hget, heq | ⟨job', hd, heq⟩⟩
    · exact h.debits job hjob
    · cases heq
    · cases heq
      rw [(debitOf_eq_some hd).2.2.1, getCall_id hget]
      exact hc

/-- An update that neither ends the call nor prices it. -/
theorem CallStore.EndedOnly.updateCall_plain (h : s.EndedOnly P) (env : CallEnv) {c : String}
    {u : CallUpdate} (hcost : u.NoCost) (hid : u.id = none) (hs : u.status ≠ some .ended) :
    (s.updateCall env c u).EndedOnly P := by
  -- whatever is found under the id had ended or been priced before
  have hassign : ∀ {call : CallLog}, s.getCall c = some call →
      (call.assign u).status = .ended ∨ (call.assign u).cost ≠ none → P (call.assign u).id := by
    intro call hget hend
    have hsame : (call.assign u).id = call.id := by simp only [CallLog.assign, hid, Option.getD_none]
    rw [hsame]
    refine h.log call (getCall_mem hget) (hend.imp (fun hend => ?_) fun hne => ?_)
    · cases hus : u.status with
      | none => simpa only [CallLog.assign, hus, Option.getD_none] using hend
      | some status =>
        simp only [CallLog.assign, hus, Option.getD_some] at hend
        exact absurd (hus.trans (congrArg some hend)) hs
    · rwa [assign_cost, hcost.1, Option.getD_none] at hne
  refine ⟨fun call hcall hend => ?_, fun call hcall hend => ?_, fun job hjob => ?_⟩
  · rcases mem_callLogs_updateCall hcall with hcall | ⟨old, hget, rfl⟩
    · exact h.log call hcall hend
    · rw [pricedUpdates_of_not_ended hs] at hend ⊢
      exact hassign hget hend
  · rcases mem_emitted_updateCall hcall with hcall | ⟨old, hget, heq | ⟨job, -, heq⟩⟩
    · exact h.upserts call hcall hend
    · rw [pricedUpdates_of_not_ended hs] at heq
      cases heq
      exact hassign hget (.inl hend)
    · cases heq
  · rcases mem_emitted_updateCall hjob with hjob | ⟨old, hget, heq | ⟨job', hd, heq⟩⟩
    · exact h.debits job hjob
    · cases heq
    · rw [debitOf_of_not_ended hs] at hd; cases hd

/-- A handler runs. -/
theorem CallStore.EndedOnly.runHandler {acts : List DestroyAct} (hP : ∀ c ∈ endings acts, P c)
    (env : CallEnv) (now : String) (h : s.EndedOnly P) :
    (acts.foldl (fun store act => store.onDestroy env now act) s).EndedOnly P := by
  induction acts generalizing s with
  | nil => exact h
  | cons act acts ih =>
    cases act with
    | endCall c =>
      have hc := hP c List.mem_cons_self
      have hrest : ∀ c ∈ endings acts, P c := fun c hc => hP c (List.mem_cons_of_mem _ hc)
      exact ih hrest (h.updateCall env rfl hc)
    | destroy leg => exact ih hP h
    | audit event extension metadata => exact ih hP h
    | leaveConference roomId extension => exact ih hP h
    | endMeeting caller legs => exact ih hP h

end EndedOnly

/-! ## Sessions -/

theorem mem_callIds {h : History} {c : String} :
    c ∈ callIds h ↔ Effect.event .randomUUID c ∈ h := by
  simp only [callIds, List.mem_filterMap]
  constructor
  · rintro ⟨⟨e, x⟩, hmem, heq⟩
    split at heq
    · rename_i callId heq'
      cases heq
      rw [heq'] at hmem
      exact hmem
    · cases heq
  · exact fun hmem => ⟨_, hmem, rfl⟩

/-- The session installed a handler that ends the call. -/
def Session.Ends (session : Session) (c : String) : Prop :=
  ∃ leg acts, Effect.event (.onDestroy leg acts) () ∈ session.history ∧ c ∈ endings acts

/-- What is left of a session is allowed, and so was what it did. -/
structure Session.Ok (cfg : Config) (rt : Runtime) (session : Session) : Prop where
  safe : Prog.Safe (Allowed cfg rt session.req) Prog.Recorded (fun _ _ => True) session.rest
    session.history
  allowed : ∀ pre e post, session.history = pre ++ e :: post → Allowed cfg rt session.req pre e.1

section Session

variable {cfg : Config} {rt : Runtime} {session : Session}

theorem Session.ok_of_invite (req : Request) :
    Session.Ok cfg rt ⟨req, [], handleInvite cfg rt req, []⟩ where
  safe := ((handleInvite_obeys cfg rt req).triple [] rfl).mono fun _ _ _ => trivial
  allowed pre e post h := by cases pre <;> cases h

/-- The step of a session: its next effect is allowed, and it stays in order. -/
theorem Session.Ok.proceed (h : session.Ok cfg rt) {answers : (e : Effect) → e.Answer} {e : Effect}
    {session' : Session} (hp : session.proceed answers = some (e, session')) :
    Allowed cfg rt session.req session.history e ∧
      session'.history = session.history ++ [e.event (answers e)] ∧ session'.Ok cfg rt := by
  cases hrest : session.rest with
  | pure a => simp only [Session.proceed, hrest] at hp; cases hp
  | throw err => simp only [Session.proceed, hrest] at hp; cases hp
  | op o k =>
    simp only [Session.proceed, hrest, Option.some.injEq, Prod.mk.injEq] at hp
    obtain ⟨rfl, rfl⟩ := hp
    have hsafe := h.safe
    rw [hrest] at hsafe
    refine ⟨hsafe.1, rfl, ⟨hsafe.2 _ _ rfl, fun pre e post heq => ?_⟩⟩
    -- the new event is the last one
    rcases List.eq_nil_or_concat post with rfl | ⟨post, last, rfl⟩
    · obtain ⟨hpre, he⟩ := List.append_inj' heq rfl
      cases he
      exact hpre ▸ hsafe.1
    · have heq' : session.history ++ [o.event (answers o)] = (pre ++ e :: post) ++ [last] := by
        simpa only [List.concat_eq_append, List.append_assoc, List.cons_append] using heq
      exact h.allowed pre e post (List.append_inj' heq' rfl).1

/-- Every event was allowed by what came before it. -/
theorem Session.Ok.allowed_of_mem (h : session.Ok cfg rt) {e : Prog.Event effects}
    (he : e ∈ session.history) :
    ∃ pre, Facts pre session.history ∧ Allowed cfg rt session.req pre e.1 := by
  obtain ⟨pre, post, heq⟩ := List.append_of_mem he
  refine ⟨pre, fun f hf => ?_, h.allowed pre e post heq⟩
  rw [heq]
  exact List.mem_append_left _ hf

/-- A session ends only its own call, once in a handler. -/
theorem Session.Ok.endings_eq (h : session.Ok cfg rt) {leg : Leg} {acts : List DestroyAct}
    (hmem : Effect.event (.onDestroy leg acts) () ∈ session.history) {c : String}
    (hc : c ∈ endings acts) : endings acts = [c] ∧ c ∈ callIds session.history := by
  obtain ⟨pre, hsub, hallowed⟩ := h.allowed_of_mem hmem
  obtain ⟨heq, -, hid⟩ := hallowed c hc
  exact ⟨heq, mem_callIds.mpr (hsub _ hid)⟩

theorem Session.Ok.callId_of_ends (h : session.Ok cfg rt) {c : String} (hc : session.Ends c) :
    c ∈ callIds session.history := by
  obtain ⟨leg, acts, hmem, hc⟩ := hc
  exact (h.endings_eq hmem hc).2

/-- Of two events of a list, one comes first. -/
theorem append_of_mem_mem {α : Type} {l : List α} {a b : α} (ha : a ∈ l) (hb : b ∈ l)
    (hne : a ≠ b) :
    (∃ pre post, l = pre ++ a :: post ∧ b ∈ pre) ∨ ∃ pre post, l = pre ++ b :: post ∧ a ∈ pre := by
  obtain ⟨pre, post, rfl⟩ := List.append_of_mem ha
  rcases List.mem_append.mp hb with hb | hb
  · exact .inl ⟨pre, post, rfl, hb⟩
  · rcases List.mem_cons.mp hb with rfl | hb
    · exact absurd rfl hne
    · obtain ⟨mid, post, rfl⟩ := List.append_of_mem hb
      refine .inr ⟨pre ++ a :: mid, post, by simp, ?_⟩
      exact List.mem_append_right _ List.mem_cons_self

/-- A session that originates a leg installs nothing that ends a call. -/
theorem Session.Ok.no_ending (h : session.Ok cfg rt) {invite : OutboundInvite}
    {answer : Except SipError Leg}
    (hleg : Effect.event (.createUAC invite) answer ∈ session.history) (c : String) :
    ¬ session.Ends c := by
  rintro ⟨leg, acts, hmem, hc⟩
  rcases append_of_mem_mem hleg hmem nofun with ⟨pre, post, heq, hpre⟩ | ⟨pre, post, heq, hpre⟩
  · -- the handler was there when the leg was originated
    have hfree := (h.allowed pre _ post heq).1 leg acts hpre
    rw [hfree] at hc; cases hc
  · exact (h.allowed pre _ post heq c hc).2.1 invite answer hpre

end Session

/-! ## The system -/

/-- Some session installed a handler that ends the call. -/
def CallSystem.Ends (s : CallSystem) (c : String) : Prop := ∃ session ∈ s.sessions, session.Ends c

/-- The invariant of the running server. -/
structure CallSystem.Inv (cfg : Config) (rt : Runtime) (s : CallSystem) : Prop where
  sessions : ∀ session ∈ s.sessions, session.Ok cfg rt
  distinct : ∀ (i j : Nat) (si sj : Session), s.sessions[i]? = some si → s.sessions[j]? = some sj →
    ∀ c ∈ callIds si.history, c ∈ callIds sj.history → i = j
  ended : s.store.EndedOnly s.Ends

section System

variable {cfg : Config} {rt : Runtime} {s : CallSystem}

theorem CallSystem.inv_init : CallSystem.Inv cfg rt .init := by
  refine ⟨fun session hs => ?_, fun i j si sj hi => ?_, ⟨fun call hcall => ?_, fun call hcall => ?_,
    fun job hjob => ?_⟩⟩
  · exact absurd hs List.not_mem_nil
  · cases hi
  · exact absurd hcall List.not_mem_nil
  · exact absurd hcall List.not_mem_nil
  · exact absurd hjob List.not_mem_nil

theorem CallSystem.Inv.invite (h : s.Inv cfg rt) (req : Request) :
    CallSystem.Inv cfg rt
      { s with sessions := s.sessions ++ [⟨req, [], handleInvite cfg rt req, []⟩] } := by
  -- the new session has drawn no id
  have hold : ∀ {i : Nat} {session : Session} {c : String}, (s.sessions ++ [⟨req, [], handleInvite cfg rt req, []⟩])[i]? =
      some session → c ∈ callIds session.history → s.sessions[i]? = some session := by
    intro i session c hi hc
    rw [List.getElem?_append] at hi
    split at hi
    · exact hi
    · have hnew := List.mem_of_getElem? hi
      rw [List.mem_singleton] at hnew
      rw [hnew] at hc
      cases hc
  refine ⟨fun session hs => ?_, fun i j si sj hi hj c hci hcj => ?_, ?_⟩
  · rcases List.mem_append.mp hs with hs | hs
    · exact h.sessions session hs
    · rw [List.mem_singleton] at hs
      rw [hs]
      exact Session.ok_of_invite req
  · exact h.distinct i j si sj (hold hi hci) (hold hj hcj) c hci hcj
  · refine h.ended.mono fun c hc => ?_
    obtain ⟨session, hs, hc⟩ := hc
    exact ⟨session, List.mem_append_left _ hs, hc⟩

/-- The system with a session and the store replaced. -/
def CallSystem.replace (s : CallSystem) (i : Nat) (session : Session) (store : CallStore) :
    CallSystem := { sessions := s.sessions.set i session, store }

section Replace

variable {i : Nat} {session session' : Session}

/-- A session that has gone on ends what it ended before. -/
theorem CallSystem.Ends.replace (hi : s.sessions[i]? = some session)
    (hgrow : Facts session.history session'.history) (store : CallStore) {c : String}
    (hc : s.Ends c) : (s.replace i session' store).Ends c := by
  have hlt := (List.getElem?_eq_some_iff.mp hi).1
  obtain ⟨other, hmem, hc⟩ := hc
  obtain ⟨j, hj⟩ := List.mem_iff_getElem?.mp hmem
  by_cases hji : i = j
  · subst hji
    rw [hi, Option.some.injEq] at hj
    subst hj
    obtain ⟨leg, acts, hmem, hc⟩ := hc
    exact ⟨session', List.mem_set hlt session', leg, acts, hgrow _ hmem, hc⟩
  · refine ⟨other, List.mem_of_getElem? (i := j) ?_, hc⟩
    show (s.sessions.set i session')[j]? = some other
    rw [List.getElem?_set_ne hji, hj]

theorem CallSystem.Inv.replace (h : s.Inv cfg rt) (hi : s.sessions[i]? = some session)
    (hok : session'.Ok cfg rt)
    (hids : ∀ c ∈ callIds session'.history, c ∈ callIds session.history ∨
      ∀ other ∈ s.sessions, c ∉ callIds other.history)
    {store : CallStore} (hstore : store.EndedOnly (s.replace i session' store).Ends) :
    (s.replace i session' store).Inv cfg rt := by
  have hlt := (List.getElem?_eq_some_iff.mp hi).1
  -- an id of the new session is no other session's
  have hother : ∀ (j : Nat) (other : Session), s.sessions[j]? = some other → i ≠ j →
      ∀ c ∈ callIds session'.history, c ∉ callIds other.history := by
    intro j other hj hne c hc hmem
    rcases hids c hc with hc | hfresh
    · exact hne (h.distinct i j session other hi hj c hc hmem)
    · exact hfresh other (List.mem_of_getElem? hj) hmem
  refine ⟨fun other hs => ?_, fun j k sj sk hj hk c hcj hck => ?_, hstore⟩
  · rcases List.mem_or_eq_of_mem_set hs with hs | rfl
    · exact h.sessions other hs
    · exact hok
  · simp only [CallSystem.replace, List.getElem?_set] at hj hk
    split at hj <;> split at hk
    · rename_i hij hik
      exact hij.symm.trans hik
    · rename_i hij hik
      rw [Option.some.injEq] at hj
      exact absurd hck (hother k sk hk hik c (hj ▸ hcj))
    · rename_i hij hik
      rw [Option.some.injEq] at hk
      exact absurd hcj (hother j sj hj hij c (hk ▸ hck))
    · exact h.distinct j k sj sk hj hk c hcj hck

end Replace

/-- What an allowed effect does to the call log ends no call. -/
theorem CallStore.EndedOnly.perform {P : String → Prop} {store : CallStore}
    (h : store.EndedOnly P) (env : CallEnv) {req : Request} {hist : History} {e : Effect}
    (he : Allowed cfg rt req hist e) : (store.perform env e).EndedOnly P := by
  cases e <;> try exact h
  case logCall data => exact h.logCall env he.2.1 he.2.2
  case updateCall c u => exact h.updateCall_plain env he.2.1 he.2.2.1 he.2.2.2

/-- The ids of a session after a UUID that was not drawn before. -/
theorem callIds_snoc {hist : History} {e : Prog.Event effects} (hfresh : s.isRepeated e = false)
    {c : String} (hc : c ∈ callIds (hist ++ [e])) :
    c ∈ callIds hist ∨ ∀ other ∈ s.sessions, c ∉ callIds other.history := by
  rw [mem_callIds, List.mem_append, List.mem_singleton] at hc
  rcases hc with hc | heq
  · exact .inl (mem_callIds.mpr hc)
  · refine .inr fun other hs hmem => ?_
    rw [← heq] at hfresh
    simp only [CallSystem.isRepeated, List.any_eq_false, List.contains_iff_mem] at hfresh
    exact hfresh other hs hmem

theorem Session.Ok.of_history {session session' : Session} (h : session.Ok cfg rt)
    (hreq : session'.req = session.req) (hrest : session'.rest = session.rest)
    (hhist : session'.history = session.history) : session'.Ok cfg rt := by
  refine ⟨?_, fun pre e post heq => ?_⟩
  · rw [hreq, hrest, hhist]
    exact h.safe
  · rw [hreq]
    exact h.allowed pre e post (hhist ▸ heq)

/-- The handler that runs was installed by the session. -/
theorem Session.handler_eq_some {session : Session} {n : Nat} {acts : List DestroyAct}
    (h : session.handler n = some acts) :
    ∃ leg, Effect.event (.onDestroy leg acts) () ∈ session.history := by
  unfold Session.handler at h
  split at h
  · rename_i leg acts' answer hget
    split at h
    · cases h
    · cases h
      exact ⟨leg, List.mem_of_getElem? hget⟩
  · cases h

/-- The step lemma. -/
theorem CallSystem.Inv.step (h : s.Inv cfg rt) {act : CallAct} {s' : CallSystem}
    (hs : s.step cfg rt act = some s') : s'.Inv cfg rt := by
  cases act with
  | invite req =>
    simp only [CallSystem.step, Option.some.injEq] at hs
    rw [← hs]
    exact h.invite req
  | proceed i env answers =>
    obtain ⟨session, hi, hs⟩ := Option.bind_eq_some_iff.mp hs
    obtain ⟨⟨e, session'⟩, hp, hs⟩ := Option.bind_eq_some_iff.mp hs
    dsimp only at hs
    split at hs
    · cases hs
    · rename_i hfresh
      rw [Bool.not_eq_true] at hfresh
      cases hs
      have hok := h.sessions session (List.mem_of_getElem? hi)
      obtain ⟨hallowed, hhist, hok'⟩ := hok.proceed hp
      refine h.replace hi hok' (fun c hc => callIds_snoc hfresh (hhist ▸ hc)) ?_
      refine (h.ended.perform env hallowed).mono fun c hc => hc.replace hi (fun f hf => ?_) _
      rw [hhist]
      exact List.mem_append_left _ hf
  | teardown i n env now =>
    obtain ⟨session, hi, hs⟩ := Option.bind_eq_some_iff.mp hs
    obtain ⟨acts, hacts, hs⟩ := Option.map_eq_some_iff.mp hs
    subst hs
    have hok : Session.Ok cfg rt { session with fired := n :: session.fired } :=
      (h.sessions session (List.mem_of_getElem? hi)).of_history rfl rfl rfl
    have hgrow : ∀ {store : CallStore} {c : String}, s.Ends c →
        (s.replace i { session with fired := n :: session.fired } store).Ends c :=
      fun hc => by
        refine hc.replace hi ?_ _
        exact fun _ hf => hf
    refine h.replace hi hok (fun c hc => .inl hc) ?_
    refine (h.ended.mono fun c hc => hgrow hc).runHandler (fun c hc => ?_) env now
    obtain ⟨leg, hmem⟩ := Session.handler_eq_some hacts
    exact hgrow ⟨session, List.mem_of_getElem? hi, leg, acts, hmem, hc⟩

/-- A call that originated a leg is ended by no session. -/
theorem CallSystem.Inv.not_ends (h : s.Inv cfg rt) {session : Session} (hs : session ∈ s.sessions)
    {invite : OutboundInvite} {answer : Except SipError Leg}
    (hleg : Effect.event (.createUAC invite) answer ∈ session.history) {c : String}
    (hc : c ∈ callIds session.history) : ¬ s.Ends c := by
  rintro ⟨other, hother, hends⟩
  obtain ⟨i, hi⟩ := List.mem_iff_getElem?.mp hs
  obtain ⟨j, hj⟩ := List.mem_iff_getElem?.mp hother
  -- the session that ends the call drew its id, so it is the same one
  have hij := h.distinct i j session other hi hj c hc ((h.sessions other hother).callId_of_ends hends)
  rw [hij, hj, Option.some.injEq] at hi
  exact (h.sessions session hs).no_ending hleg c (hi ▸ hends)

/-- The run lemma. -/
theorem CallSystem.inv_run {acts : List CallAct}
    (hr : Machine.run (CallSystem.step cfg rt) .init acts = some s) : s.Inv cfg rt :=
  Machine.run_invariant (fun _ _ _ h hs => h.step hs) CallSystem.inv_init hr

end System

end CallNet
