import CallNet.Spec.WalletLedger

/-!
# At most one debit for a call

`debitForCall` looks for a ledger row of the call before it writes one, and
`balance_txns` has no unique index on the call id.  At READ COMMITTED two transactions
can both find none and both write, so a call can be charged twice
(`debited_twice_overlapping`).  It is charged at most once in every run in which no
session looks for a call's row while another session, having found none, has its
transaction still open (`debited_once_of_noOverlap`).
-/

namespace CallNet.Wallet

open ReadCommitted

abbrev WalletSession := ReadCommitted.Session String UserBalance BalanceTxn ForCall BalanceError

/-! ## The property and the condition -/

/-- The ledger rows of a call. -/
def callRows (c : String) (es : List BalanceTxn) : List BalanceTxn :=
  es.filter fun e => e.callId = c

/-- The call was charged at most once: it has at most one ledger row, and no balance
    contains more of the call than that row. -/
structure DebitedOnce (c : String) (s : DbState) : Prop where
  oneRow : (callRows c s.db.entries).length ≤ 1
  balance : ∀ ext, balanceOf (s.db.rows ext) =
    ledgerSum ext (s.db.entries.filter fun e => e.callId ≠ c) +
      ledgerSum ext (callRows c s.db.entries)

/-- The session has found no row for the call and its transaction is open: it is about to
    write the row, or has written it. -/
def Debiting (c : String) (z : WalletSession) : Prop :=
  ∃ w, z.status = .active w ∧
    ((∃ e k, z.prog = .op (.insertEntry e) k ∧ e.callId = c) ∨ ∃ e ∈ w.entries, e.callId = c)

/-- The session is about to look for the call's row. -/
def Checking (c : String) (z : WalletSession) : Prop :=
  ∃ k, z.prog = .op (.countEntries ⟨c, CALL_REASON⟩) k

/-- Nobody looks for the call's row while another session is debiting the call. -/
def NoOverlap (c : String) (s : DbState) : Event Nat Request → Prop
  | .exec t .done => Checking c (s.session t) → ∀ t', t' ≠ t → ¬ Debiting c (s.session t')
  | _ => True

/-- Only debits carry a call id: `TopUp` passes the empty one to `Credit`. -/
def CreditsNoCall : Event Nat Request → Prop
  | .start _ (.credit _ _ _ _ callID) => callID = ""
  | _ => True

/-! ## The debit of one call, seen from one session -/

/-- How far a session is with the debit of the call. -/
inductive Phase where
  | free
  | checked
  | debiting
deriving DecidableEq

/-- The statements a program may perform in a phase. -/
def PhaseAllows (c : String) : Phase → WalletStmt → Prop
  | .free, .insertEntry e => e.callId ≠ c
  | .free, _ => True
  | .checked, .insertEntry e => e.callId = c ∧ e.reason = CALL_REASON
  | .debiting, .upsertRow _ _ _ | .debiting, .commit | .debiting, .rollback => True
  | _, _ => False

/-- The phase after a statement and its answer. -/
def PhaseStep (c : String) (ph : Phase) (o : WalletStmt) (x : Except SqlError o.Answer)
    (ph' : Phase) : Prop :=
  match ph, o, x with
  | .free, .countEntries q, .ok n =>
    ph' = if q = ⟨c, CALL_REASON⟩ ∧ n = 0 then .checked else .free
  | .checked, .insertEntry _, .ok _ => ph' = .debiting
  | .debiting, .upsertRow _ _ _, .ok _ => ph' = .debiting
  | _, _, _ => ph' = .free

/-- A program that writes a row of the call only after it has found none. -/
abbrev Checks {α : Type} (c : String) (Q : Phase → Except BalanceError α → Prop)
    (p : WalletM α) (ph : Phase) : Prop :=
  Prog.Safe (S := Sql String UserBalance BalanceTxn ForCall) (PhaseAllows c) (PhaseStep c) Q p ph

theorem checks_query_bind {α : Type} {c : String} {Q : Phase → Except BalanceError α → Prop}
    {o : WalletStmt} {f : o.Answer → WalletM α} {ph : Phase} (ha : PhaseAllows c ph o)
    (herr : ∀ e, Q .free (.error e))
    (hok : ∀ a ph', PhaseStep c ph o (.ok a) ph' → Checks c Q (f a) ph') :
    Checks c Q ((exec o).bind f) ph := by
  refine ⟨ha, fun x ph' hx => ?_⟩
  cases x with
  | ok a => exact hok a ph' hx
  | error e =>
    have hfree : ph' = .free := by
      cases ph <;> cases o <;> exact hx
    exact hfree ▸ herr _

/-- Ending in `free` is enough for a body whose exceptions are rolled back. -/
theorem checks_rollingBack {α : Type} {c : String} {p : WalletM α} {ph : Phase}
    (h : Checks c (fun ph _ => ph = .free) p ph) :
    Checks c (fun ph _ => ph = .free) (p.tryCatch rollbackAndThrow) ph := by
  refine Prog.safe_tryCatch.mpr (h.mono fun ph r hr => ?_)
  subst hr
  cases r with
  | ok => rfl
  | error err =>
    refine ⟨trivial, fun x ph' hx => ?_⟩
    cases hx
    cases x <;> rfl

theorem checks_debitForCall (c : String) (job : BalanceDebitJob) :
    Checks c (fun ph _ => ph = .free) (debitForCall job) .free := by
  unfold debitForCall
  dsimp only
  split
  · rfl
  · apply checks_rollingBack
    refine checks_query_bind trivial (fun _ => rfl) fun _ ph hph => ?_
    cases hph
    refine checks_query_bind trivial (fun _ => rfl) fun existing ph hph => ?_
    split
    · rename_i hex
      have hfree : ph = .free := hph.trans (if_neg fun h => hex.ne' h.2)
      subst hfree
      refine ⟨trivial, fun x ph' hx => ?_⟩
      cases hx
      cases x <;> rfl
    · -- nothing was counted: a debit of this call is checked, one of another leaves it free
      rename_i hex
      by_cases hc : job.callId = c
      · have hchecked : ph = .checked :=
          hph.trans (if_pos ⟨by rw [hc], by simpa using hex⟩)
        subst hchecked
        refine checks_query_bind ⟨hc, rfl⟩ (fun _ => rfl) fun _ ph hph => ?_
        cases hph
        refine checks_query_bind trivial (fun _ => rfl) fun _ ph hph => ?_
        cases hph
        refine ⟨trivial, fun x ph' hx => ?_⟩
        cases hx
        cases x <;> rfl
      · have hfree : ph = .free :=
          hph.trans (if_neg fun h => hc (congrArg ForCall.callId h.1))
        subst hfree
        refine checks_query_bind hc (fun _ => rfl) fun _ ph hph => ?_
        cases hph
        refine checks_query_bind trivial (fun _ => rfl) fun _ ph hph => ?_
        cases hph
        refine ⟨trivial, fun x ph' hx => ?_⟩
        cases hx
        cases x <;> rfl

/-- A credit without a call id writes no row of the call. -/
theorem checks_credit {c : String} (hc : c ≠ "") (ext : String) (amount : Int)
    (currency reason : String) :
    Checks c (fun ph _ => ph = .free) (credit ext amount currency reason "") .free := by
  refine checks_query_bind trivial (fun _ => rfl) fun _ ph hph => ?_
  cases hph
  apply checks_rollingBack
  refine Prog.safe_bind.mpr ?_
  rw [if_neg (not_not.mpr rfl)]
  refine Prog.Safe.mono (Q := fun ph _ => ph = .free) ?_ ?_
  · intro ph r hr
    subst hr
    cases r with
    | error => rfl
    | ok a =>
      refine checks_query_bind trivial (fun _ => rfl) fun _ ph hph => ?_
      cases hph
      rfl
  · -- the lock reads the balance, or opens a wallet first
    have hlock : Checks c (fun ph _ => ph = .free) (lockWallet ext currency) .free := by
      refine checks_query_bind trivial (fun _ => rfl) fun found ph hph => ?_
      cases hph
      cases found with
      | some bal => rfl
      | none =>
        refine checks_query_bind trivial (fun _ => rfl) fun _ ph hph => ?_
        cases hph
        rfl
    refine Prog.safe_bind.mpr (hlock.mono fun ph r hr => ?_)
    subst hr
    cases r with
    | error => rfl
    | ok bal =>
      refine checks_query_bind trivial (fun _ => rfl) fun _ ph hph => ?_
      cases hph
      refine checks_query_bind (Ne.symm hc) (fun _ => rfl) fun _ ph hph => ?_
      cases hph
      rfl

/-- Every request of the run checks before it debits the call. -/
theorem checks_request {c : String} (hc : c ≠ "") (svc : BalanceService) {t : Nat} {r : Request}
    (h : CreditsNoCall (.start t r)) : Checks c (fun ph _ => ph = .free) (r.prog svc) .free := by
  have hdiscard : ∀ p : WalletM UserBalance, Checks c (fun ph _ => ph = .free) p .free →
      Checks c (fun ph _ => ph = .free) (p.bind fun _ => .pure ()) .free := by
    intro p hp
    refine Prog.safe_bind.mpr (hp.mono fun ph r hr => ?_)
    cases r <;> exact hr
  cases r with
  | debit job => exact checks_debitForCall c job
  | credit ext amount currency reason callID =>
    cases h
    exact hdiscard _ (checks_credit hc ..)
  | topUp ext amount reason =>
    refine hdiscard _ ?_
    unfold BalanceService.topUp
    split
    · rfl
    · dsimp only
      split
      · rfl
      · exact checks_credit hc ..

/-! ## The invariant of a run -/

theorem callRows_append (c : String) (es es' : List BalanceTxn) :
    callRows c (es ++ es') = callRows c es ++ callRows c es' := List.filter_append ..

theorem callRows_eq_nil {c : String} {es : List BalanceTxn} :
    callRows c es = [] ↔ ∀ e ∈ es, e.callId ≠ c := by
  simp only [callRows, List.filter_eq_nil_iff, decide_eq_true_eq, ne_eq]

/-- What a session's open transaction has written in each phase. -/
def PhaseOk (c : String) (pending : Option (List BalanceTxn)) : Phase → Prop
  | .free => ∀ es, pending = some es → callRows c es = []
  | .checked => ∃ es, pending = some es ∧ callRows c es = []
  | .debiting => ∃ es e, pending = some es ∧ callRows c es = [e] ∧ e.reason = CALL_REASON

/-- What one statement of a session does to its phase and to the committed rows. -/
structure ExecPhase (c : String) (es es' : List BalanceTxn) (pending' : Option (List BalanceTxn))
    (o : WalletStmt) (x : Except SqlError o.Answer) (ph ph' : Phase) : Prop where
  step : PhaseStep c ph o x ph'
  ok : PhaseOk c pending' ph'
  /-- Committed rows of the call appear only when a debiting session commits. -/
  rows : callRows c es' = callRows c es ∨ (ph = .debiting ∧ ph' = .free ∧
    ∃ e, callRows c es' = callRows c es ++ [e] ∧ e.reason = CALL_REASON)
  /-- A session leaves `free` only by looking for the call's row and finding none. -/
  leaves : ph' ≠ .free → ph ≠ .free ∨
    (callRows c es = [] ∧ o = .countEntries ⟨c, CALL_REASON⟩)

theorem execPhase {c : String} {db db' : Store String UserBalance BalanceTxn Nat} {t : Nat}
    {st st' : Status String UserBalance BalanceTxn} {o : WalletStmt}
    {x : Except SqlError o.Answer} {ph : Phase} (hok : PhaseOk c st.pending ph)
    (ha : PhaseAllows c ph o)
    (hreason : ∀ e ∈ db.entries, e.callId = c → e.reason = CALL_REASON)
    (h : db.exec ForCall.sat t st o = some (db', st', x)) :
    ∃ ph', ExecPhase c db.entries db'.entries st'.pending o x ph ph' := by
  cases ph with
  | free =>
    cases o with
    | commit =>
      obtain ⟨hes, hnone⟩ := exec_commit h
      refine ⟨.free, rfl, fun es he => ?_, .inl ?_, fun hne => absurd rfl hne⟩
      · rw [hnone] at he; cases he
      · rw [hes, callRows_append]
        cases hp : st.pending with
        | none => exact List.append_nil _
        | some es => rw [Option.getD_some, hok es hp, List.append_nil]
    | insertEntry e =>
      have he : callRows c [e] = [] := callRows_eq_nil.mpr fun e' he' => by
        rw [List.mem_singleton.mp he']; exact ha
      refine ⟨.free, ?_⟩
      cases st with
      | active w =>
        simp only [Store.exec, Store.execIn, Option.some.injEq, Prod.mk.injEq] at h
        obtain ⟨rfl, rfl, rfl⟩ := h
        refine ⟨rfl, fun es hes => ?_, .inl rfl, fun hne => absurd rfl hne⟩
        cases hes
        rw [callRows_append, hok _ rfl, he]; rfl
      | _ =>
        simp only [Store.exec, Option.some.injEq, Prod.mk.injEq] at h
        obtain ⟨rfl, rfl, rfl⟩ := h
        exact ⟨rfl, fun es hes => (nomatch hes), .inl rfl, fun hne => absurd rfl hne⟩
    | countEntries q =>
      obtain ⟨hes, hpending⟩ := exec_pending h (fun _ h => nomatch h) (fun h => nomatch h)
      have hok' : PhaseOk c st'.pending .free := by
        intro es he
        rcases hpending es he with rfl | he
        · rfl
        · exact hok es he
      cases st with
      | active w =>
        simp only [Store.exec, Store.execIn, Option.some.injEq, Prod.mk.injEq] at h
        obtain ⟨rfl, rfl, rfl⟩ := h
        by_cases hq : q = ⟨c, CALL_REASON⟩ ∧
            (db.entries ++ w.entries).countP (ForCall.sat q) = 0
        · -- the row was not found, and every row of the call would have been
          refine ⟨.checked, (if_pos hq).symm, ⟨_, rfl, hok' _ rfl⟩, .inl rfl, fun _ => .inr ?_⟩
          obtain ⟨rfl, hcount⟩ := hq
          refine ⟨callRows_eq_nil.mpr fun e he hc => ?_, rfl⟩
          exact List.countP_eq_zero.mp hcount e (List.mem_append_left _ he)
            (decide_eq_true ⟨hc, hreason e he hc⟩)
        · exact ⟨.free, (if_neg hq).symm, hok', .inl rfl, fun hne => absurd rfl hne⟩
      | _ =>
        simp only [Store.exec, Option.some.injEq, Prod.mk.injEq] at h
        obtain ⟨rfl, rfl, rfl⟩ := h
        exact ⟨.free, rfl, hok', .inl rfl, fun hne => absurd rfl hne⟩
    | _ =>
      obtain ⟨hes, hpending⟩ := exec_pending h (fun _ h => nomatch h) (fun h => nomatch h)
      refine ⟨.free, rfl, fun es he => ?_, .inl (by rw [hes]), fun hne => absurd rfl hne⟩
      rcases hpending es he with rfl | he
      · rfl
      · exact hok es he
  | checked =>
    obtain ⟨es, hp, hrows⟩ := hok
    cases st with
    | active w =>
      cases hp
      cases o with
      | insertEntry e =>
        simp only [Store.exec, Store.execIn, Option.some.injEq, Prod.mk.injEq] at h
        obtain ⟨rfl, rfl, rfl⟩ := h
        have he : callRows c [e] = [e] := by
          simp only [callRows, List.filter_cons, ha.1, decide_true, if_true, List.filter_nil]
        refine ⟨.debiting, rfl, ⟨_, e, rfl, ?_, ha.2⟩, .inl rfl, fun _ => .inl (fun h => nomatch h)⟩
        rw [callRows_append, hrows, he]; rfl
      | _ => exact ha.elim
    | _ => cases hp
  | debiting =>
    obtain ⟨es, e, hp, hrows, hcall⟩ := hok
    cases st with
    | active w =>
      cases hp
      cases o with
      | commit =>
        obtain ⟨hes, hnone⟩ := exec_commit h
        refine ⟨.free, rfl, fun es he => ?_, .inr ⟨rfl, rfl, e, ?_, hcall⟩,
          fun hne => absurd rfl hne⟩
        · rw [hnone] at he; cases he
        · rw [hes, callRows_append]
          exact congrArg _ hrows
      | rollback =>
        simp only [Store.exec, Store.execIn, Option.some.injEq, Prod.mk.injEq] at h
        obtain ⟨rfl, rfl, rfl⟩ := h
        exact ⟨.free, rfl, fun es he => (nomatch he), .inl rfl, fun hne => absurd rfl hne⟩
      | upsertRow k r f =>
        simp only [Store.exec, Store.execIn, Option.map_eq_some_iff, lock_eq_some,
          Prod.mk.injEq] at h
        obtain ⟨_, ⟨_, rfl⟩, rfl, rfl, rfl⟩ := h
        exact ⟨.debiting, rfl, ⟨_, e, rfl, hrows, hcall⟩, .inl rfl,
          fun _ => .inl (fun h => nomatch h)⟩
      | _ => exact ha.elim
    | _ => cases hp

/-- The invariant of a run: at most one session is past its check, it is so only while no
    row of the call is committed, and there is at most one such row. -/
structure DebitInv (c : String) (s : DbState) : Prop where
  reason : ∀ e ∈ s.db.entries, e.callId = c → e.reason = CALL_REASON
  oneRow : (callRows c s.db.entries).length ≤ 1
  phases : ∃ φ : Nat → Phase,
    (∀ t, PhaseOk c (s.session t).status.pending (φ t) ∧
      Checks c (fun ph _ => ph = .free) (s.session t).prog (φ t)) ∧
    ∀ t, φ t ≠ .free → callRows c s.db.entries = [] ∧ ∀ t', t' ≠ t → φ t' = .free

theorem pending_eq_some {st : Status String UserBalance BalanceTxn} {es : List BalanceTxn}
    (h : st.pending = some es) : ∃ w, st = .active w ∧ w.entries = es := by
  cases st with
  | active w => exact ⟨w, rfl, Option.some.inj h⟩
  | _ => cases h

/-- A session past its check shows it: the row is its next statement or its own. -/
theorem debiting_of_phase {c : String} {z : WalletSession} {ph : Phase}
    (hok : PhaseOk c z.status.pending ph) (hc : Checks c (fun ph _ => ph = .free) z.prog ph)
    (hne : ph ≠ .free) : Debiting c z := by
  cases ph with
  | free => exact absurd rfl hne
  | checked =>
    obtain ⟨es, hp, -⟩ := hok
    obtain ⟨w, hst, -⟩ := pending_eq_some hp
    refine ⟨w, hst, .inl ?_⟩
    cases hprog : z.prog with
    | pure a => rw [hprog] at hc; cases hc
    | throw e => rw [hprog] at hc; cases hc
    | op o k =>
      rw [hprog] at hc
      cases o with
      | insertEntry e => exact ⟨e, k, rfl, hc.1.1⟩
      | _ => exact hc.1.elim
  | debiting =>
    obtain ⟨es, e, hp, hrows, -⟩ := hok
    obtain ⟨w, hst, rfl⟩ := pending_eq_some hp
    have he : e ∈ callRows c w.entries := by rw [hrows]; exact List.mem_singleton_self e
    exact ⟨w, hst, .inr ⟨e, (List.mem_filter.mp he).1, of_decide_eq_true (List.mem_filter.mp he).2⟩⟩

/-- A session with a new request is past no check. -/
theorem phase_of_free {c : String} {z : WalletSession} {ph : Phase} (hz : z.free = true)
    (hok : PhaseOk c z.status.pending ph) : ph = .free := by
  obtain ⟨st, p⟩ := z
  cases st with
  | active w => cases hz
  | _ =>
    cases ph with
    | free => rfl
    | checked => obtain ⟨es, hp, -⟩ := hok; cases hp
    | debiting => obtain ⟨es, e, hp, -⟩ := hok; cases hp

/-- One session moves to the phase `ph'`, others stay. -/
theorem DebitInv.move {c : String} {s : DbState} {φ : Nat → Phase} {t : Nat} (ph' : Phase)
    {db' : Store String UserBalance BalanceTxn Nat} {z : WalletSession}
    (hφ : ∀ t, PhaseOk c (s.session t).status.pending (φ t) ∧
      Checks c (fun ph _ => ph = .free) (s.session t).prog (φ t))
    (hreason : ∀ e ∈ db'.entries, e.callId = c → e.reason = CALL_REASON)
    (hone : (callRows c db'.entries).length ≤ 1)
    (hok : PhaseOk c z.status.pending ph') (hc : Checks c (fun ph _ => ph = .free) z.prog ph')
    (hself : ph' ≠ .free → callRows c db'.entries = [] ∧ ∀ t', t' ≠ t → φ t' = .free)
    (hothers : ∀ t', t' ≠ t → φ t' ≠ .free → callRows c db'.entries = [] ∧ ph' = .free ∧
      ∀ t'', t'' ≠ t' → t'' ≠ t → φ t'' = .free) :
    DebitInv c ⟨db', Function.update s.session t z⟩ := by
  refine ⟨hreason, hone, Function.update φ t ph', fun t' => ?_, fun t' hne => ?_⟩
  · by_cases ht : t' = t
    · subst ht
      simp only [Function.update_self]
      exact ⟨hok, hc⟩
    · simp only [Function.update_of_ne ht]
      exact hφ t'
  · by_cases ht : t' = t
    · subst ht
      simp only [Function.update_self] at hne
      refine ⟨(hself hne).1, fun t'' ht'' => ?_⟩
      rw [Function.update_of_ne ht'']
      exact (hself hne).2 t'' ht''
    · simp only [Function.update_of_ne ht] at hne
      obtain ⟨hrows, hfree, hrest⟩ := hothers t' ht hne
      refine ⟨hrows, fun t'' ht'' => ?_⟩
      by_cases h : t'' = t
      · subst h; rw [Function.update_self]; exact hfree
      · rw [Function.update_of_ne h]; exact hrest t'' ht'' h

theorem reason_of_callRows {c : String} {es es' : List BalanceTxn}
    (h : ∀ e ∈ es, e.callId = c → e.reason = CALL_REASON)
    (hrows : callRows c es' = callRows c es ∨
      ∃ e, callRows c es' = callRows c es ++ [e] ∧ e.reason = CALL_REASON) :
    ∀ e ∈ es', e.callId = c → e.reason = CALL_REASON := by
  intro e he hc
  have hmem : e ∈ callRows c es' := List.mem_filter.mpr ⟨he, decide_eq_true hc⟩
  rcases hrows with hr | ⟨e', hr, he'⟩ <;> rw [hr] at hmem
  · exact h e (List.mem_filter.mp hmem).1 hc
  · rcases List.mem_append.mp hmem with hm | hm
    · exact h e (List.mem_filter.mp hm).1 hc
    · rw [List.mem_singleton.mp hm]; exact he'

/-- The step lemma for a statement that takes effect. -/
theorem DebitInv.exec {c : String} {s : DbState} (h : DebitInv c s) {t : Nat} {o : WalletStmt}
    {k : Except SqlError o.Answer → WalletM Unit} (hp : (s.session t).prog = .op o k)
    (hoverlap : o = .countEntries ⟨c, CALL_REASON⟩ →
      ∀ t', t' ≠ t → ¬ Debiting c (s.session t'))
    {db' : Store String UserBalance BalanceTxn Nat}
    {st' : Status String UserBalance BalanceTxn} {x : Except SqlError o.Answer}
    (he : s.db.exec ForCall.sat t (s.session t).status o = some (db', st', x))
    {x' : Except SqlError o.Answer} (hx : x' = x ∨ (o = .commit)) :
    DebitInv c ⟨db', Function.update s.session t ⟨st', k x'⟩⟩ := by
  obtain ⟨φ, hφ, hsole⟩ := h.phases
  obtain ⟨hok, hc⟩ := hφ t
  rw [hp] at hc
  obtain ⟨ph', hph⟩ := execPhase hok hc.1 h.reason he
  have hstep : PhaseStep c (φ t) o x' ph' := by
    rcases hx with rfl | rfl
    · exact hph.step
    · have hfree := hph.step
      cases hpt : φ t <;> rw [hpt] at hfree <;> cases x <;> cases x' <;> exact hfree
  refine DebitInv.move ph' hφ (reason_of_callRows h.reason ?_) ?_ hph.ok (hc.2 x' ph' hstep) ?_ ?_
  · rcases hph.rows with hr | ⟨-, -, hr⟩
    · exact .inl hr
    · exact .inr hr
  · rcases hph.rows with hr | ⟨hd, -, e, hr, -⟩ <;> rw [hr]
    · exact h.oneRow
    · rw [(hsole t (hd ▸ fun h => nomatch h)).1]
      exact Nat.le_refl 1
  · intro hne
    have hrows : callRows c db'.entries = callRows c s.db.entries := by
      rcases hph.rows with hr | ⟨-, hfree, -⟩
      · exact hr
      · exact absurd hfree hne
    rw [hrows]
    -- a transaction that leaves the free phase has counted, and nobody else may be debiting then
    rcases hph.leaves hne with hleft | ⟨hnone, hcheck⟩
    · exact hsole t hleft
    · refine ⟨hnone, fun t' ht' => ?_⟩
      by_contra hd
      exact hoverlap hcheck t' ht' (debiting_of_phase (hφ t').1 (hφ t').2 hd)
  · intro t' ht' hd
    obtain ⟨hnone, hothers⟩ := hsole t' hd
    have hfree : φ t = .free := hothers t (Ne.symm ht')
    refine ⟨?_, ?_, fun t'' h₁ _ => hothers t'' h₁⟩
    · rcases hph.rows with hr | ⟨hdeb, -⟩
      · rw [hr, hnone]
      · rw [hfree] at hdeb; cases hdeb
    · by_contra hne
      rcases hph.leaves hne with hleft | ⟨-, hcheck⟩
      · exact hleft hfree
      · exact hoverlap hcheck t' ht' (debiting_of_phase (hφ t').1 (hφ t').2 hd)

/-- The step lemma of a run that meets the condition. -/
theorem DebitInv.step {c : String} (hc : c ≠ "") {svc : BalanceService} {s s' : DbState}
    {e : Event Nat Request} (h : DebitInv c s) (hcredit : CreditsNoCall e) (hG : NoOverlap c s e)
    (hs : Wallet.step svc s e = some s') : DebitInv c s' := by
  cases e with
  | start t r =>
    simp only [Wallet.step, State.step] at hs
    split at hs
    · rename_i hfree
      cases hs
      obtain ⟨φ, hφ, hsole⟩ := h.phases
      have hpt : φ t = .free := phase_of_free hfree (hφ t).1
      refine DebitInv.move .free hφ h.reason h.oneRow (fun es he => nomatch he)
        (checks_request hc svc hcredit) (fun hne => absurd rfl hne) fun t' _ hd => ?_
      obtain ⟨hnone, hothers⟩ := hsole t' hd
      exact ⟨hnone, rfl, fun t'' h₁ _ => hothers t'' h₁⟩
    · cases hs
  | exec t out =>
    simp only [Wallet.step, State.step] at hs
    split at hs
    · cases hs
    · cases hs
    · rename_i o k hp
      cases out with
      | done =>
        simp only [Option.map_eq_some_iff, Prod.exists] at hs
        obtain ⟨db', st', x, he, rfl⟩ := hs
        exact h.exec hp (fun ho => by subst ho; exact hG ⟨_, hp⟩) he (.inl rfl)
      | unacknowledged =>
        dsimp only at hs
        split at hs
        · simp only [Option.map_eq_some_iff, Prod.exists] at hs
          obtain ⟨db', st', x, he, rfl⟩ := hs
          exact h.exec hp (fun ho => nomatch ho) he (.inr rfl)
        · cases hs
      | fails =>
        cases hs
        obtain ⟨φ, hφ, hsole⟩ := h.phases
        obtain ⟨hok, hchk⟩ := hφ t
        rw [hp] at hchk
        have hentries : (s.db.fail t (s.session t).status).1.entries = s.db.entries := by
          cases (s.session t).status <;> rfl
        have hpending : (s.db.fail t (s.session t).status).2.pending = none := by
          cases (s.session t).status <;> rfl
        have hstep : PhaseStep c (φ t) o (.error .failed) .free := by
          cases φ t <;> cases o <;> rfl
        refine DebitInv.move .free hφ (by rw [hentries]; exact h.reason)
          (by rw [hentries]; exact h.oneRow) (fun es he => ?_) (hchk.2 _ _ hstep)
          (fun hne => absurd rfl hne) fun t' _ hd => ?_
        · rw [hpending] at he; cases he
        · obtain ⟨hnone, hothers⟩ := hsole t' hd
          rw [hentries]
          exact ⟨hnone, rfl, fun t'' h₁ _ => hothers t'' h₁⟩

/-- The rows of an extension are those of the call and the others. -/
theorem ledgerSum_split (c ext : String) (es : List BalanceTxn) :
    ledgerSum ext es =
      ledgerSum ext (es.filter fun e => e.callId ≠ c) + ledgerSum ext (callRows c es) := by
  induction es with
  | nil => rfl
  | cons e es ih =>
    have hcons : ∀ es', ledgerSum ext (e :: es') = ledgerSum ext [e] + ledgerSum ext es' :=
      fun es' => ledgerSum_append ext [e] es'
    by_cases hc : e.callId = c
    · simp only [callRows, List.filter_cons, hc, decide_true, if_true, ne_eq, not_true_eq_false,
        decide_false, Bool.false_eq_true, if_false] at ih ⊢
      rw [hcons es, ih, hcons (List.filter _ es), add_left_comm]
    · simp only [callRows, List.filter_cons, hc, decide_true, if_true, ne_eq, not_false_eq_true,
        decide_false, Bool.false_eq_true, if_false] at ih ⊢
      rw [hcons es, ih, hcons (List.filter _ es), add_assoc]

/-- Tables before any delivery of the jobs in question: the balances agree with the ledger,
    and the ledger has at most one row for the call, written by a debit. -/
structure LedgerOk (c : String) (db : Store String UserBalance BalanceTxn Nat) : Prop where
  conserved : ∀ ext, Conserved ext (db.rows ext) db.entries
  oneRow : (callRows c db.entries).length ≤ 1
  reason : ∀ e ∈ db.entries, e.callId = c → e.reason = CALL_REASON

/-- In every run in which no session looks for the call's row while another is debiting the
    call, the call is charged at most once in every state. -/
theorem debited_once_of_noOverlap (svc : BalanceService) {c : String} (hc : c ≠ "")
    {db : Store String UserBalance BalanceTxn Nat} (hdb : LedgerOk c db)
    {trace : List (Event Nat Request)} (hcredit : ∀ e ∈ trace, CreditsNoCall e)
    (hG : Machine.Meets (step svc) (NoOverlap c) (.init db) trace) :
    Machine.Throughout (step svc) (DebitedOnce c) (.init db) trace := by
  have hinit : State.Inv Conserved (State.init db : DbState) ∧ DebitInv c (State.init db) := by
    refine ⟨.init hdb.conserved, hdb.reason, hdb.oneRow, fun _ => .free, fun t => ?_, fun t hne => ?_⟩
    · exact ⟨fun es he => (nomatch he), rfl⟩
    · exact absurd rfl hne
  have hboth := Machine.throughout_of_meets
    (I := fun s : DbState => State.Inv Conserved s ∧ DebitInv c s)
    (G := fun s e => NoOverlap c s e ∧ CreditsNoCall e)
    (fun s e s' h hG hs => ⟨h.1.step (safe_request svc) hs, h.2.step hc hG.2 hG.1 hs⟩)
    hinit (hG.and (Machine.meets_of_mem hcredit))
  refine hboth.mono fun s h => ⟨h.2.oneRow, fun ext => ?_⟩
  rw [← ledgerSum_split]
  exact h.1.tables ext

/-! ## One worker, and two -/

/-- The session an event belongs to. -/
def eventSession : Event Nat Request → Nat
  | .start t _ => t
  | .exec t _ => t

/-- A step changes its own session only. -/
theorem step_session {svc : BalanceService} {s s' : DbState} {e : Event Nat Request}
    (hs : step svc s e = some s') {t : Nat} (ht : t ≠ eventSession e) :
    s'.session t = s.session t := by
  cases e with
  | start t' r =>
    simp only [Wallet.step, State.step] at hs
    split at hs
    · cases hs; exact Function.update_of_ne ht ..
    · cases hs
  | exec t' out =>
    simp only [Wallet.step, State.step] at hs
    split at hs
    · cases hs
    · cases hs
    · cases out with
      | done =>
        simp only [Option.map_eq_some_iff, Prod.exists] at hs
        obtain ⟨_, _, _, _, rfl⟩ := hs
        exact Function.update_of_ne ht ..
      | fails => cases hs; exact Function.update_of_ne ht ..
      | unacknowledged =>
        dsimp only at hs
        split at hs
        · simp only [Option.map_eq_some_iff, Prod.exists] at hs
          obtain ⟨_, _, _, _, rfl⟩ := hs
          exact Function.update_of_ne ht ..
        · cases hs

/-- A single worker never overlaps with itself. -/
theorem noOverlap_of_single {svc : BalanceService} {c : String} {t : Nat}
    {db : Store String UserBalance BalanceTxn Nat} {trace : List (Event Nat Request)}
    (h : ∀ e ∈ trace, eventSession e = t) :
    Machine.Meets (step svc) (NoOverlap c) (.init db) trace := by
  refine Machine.Meets.of_invariant
    (I := fun s : DbState => ∀ t', t' ≠ t → (s.session t').status.pending = none)
    (P := fun _ e => eventSession e = t) ?_ ?_ (fun _ _ => rfl) (Machine.meets_of_mem h)
  · rintro s e s' hI rfl hs t' ht'
    rw [step_session hs ht']
    exact hI t' ht'
  · rintro s e hI he
    cases e with
    | start t' r => trivial
    | exec t' out =>
      cases he
      cases out with
      | done =>
        rintro - t'' ht'' ⟨w, hw, -⟩
        have := hI t'' ht''
        rw [hw] at this
        cases this
      | _ => trivial

theorem ledgerOk_emptyDb (c : String) : LedgerOk c emptyDb :=
  ⟨fun _ => rfl, Nat.zero_le 1, fun _ he => nomatch he⟩

/-- A commit whose acknowledgement is lost, and the redelivery of the job. -/
def redelivery : List (Event Nat Request) :=
  let job : BalanceDebitJob := ⟨"1001", "c1", 1 / 4, "USD"⟩
  [.start 0 (.debit job), .exec 0 .done, .exec 0 .done, .exec 0 .done, .exec 0 .done,
   .exec 0 .unacknowledged, .exec 0 .done,
   .start 0 (.debit job), .exec 0 .done, .exec 0 .done, .exec 0 .done]

theorem debited_once_of_noOverlap_redelivery :
    ((Machine.run (step ⟨"USD", true⟩) (.init emptyDb) redelivery).map fun s =>
      (s.db.rows "1001", s.db.entries.length)) = some (some ⟨"USD", -2500⟩, 1) ∧
    Machine.Throughout (step ⟨"USD", true⟩) (DebitedOnce "c1") (.init emptyDb) redelivery :=
  ⟨by decide +kernel,
    debited_once_of_noOverlap _ (by decide) (ledgerOk_emptyDb _)
      (by simp [redelivery, CreditsNoCall])
      (noOverlap_of_single (t := 0) (by simp [redelivery, eventSession]))⟩

/-- Two workers hold the same job; both look for the call's row before either commits. -/
def overlappingDebits : List (Event Nat Request) :=
  let job : BalanceDebitJob := ⟨"1001", "c1", 1 / 4, "USD"⟩
  [.start 0 (.debit job), .start 1 (.debit job),
   .exec 0 .done, .exec 1 .done, .exec 0 .done, .exec 1 .done, .exec 0 .done,
   .exec 1 .done, .exec 0 .done, .exec 0 .done, .exec 1 .done, .exec 1 .done]

theorem debited_twice_overlapping :
    LedgerOk "c1" emptyDb ∧ (∀ e ∈ overlappingDebits, CreditsNoCall e) ∧
      ¬ Machine.Throughout (step ⟨"USD", true⟩) (DebitedOnce "c1") (.init emptyDb)
        overlappingDebits := by
  refine ⟨ledgerOk_emptyDb _, by simp [overlappingDebits, CreditsNoCall], fun h => ?_⟩
  have hlast : ((Machine.run (step ⟨"USD", true⟩) (.init emptyDb) overlappingDebits).map
      fun s => (callRows "c1" s.db.entries).length) = some 2 := by decide +kernel
  obtain ⟨s, hs, hrows⟩ := Option.map_eq_some_iff.mp hlast
  have := (h.last hs).oneRow
  omega

end CallNet.Wallet
