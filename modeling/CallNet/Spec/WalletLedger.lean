import CallNet.Engine.Wallet

/-!
# The ledger of the wallets

In the committed tables the balance of every extension is the sum of the amounts of its
ledger rows, after any interleaving of debits and credits, and a transaction that fails
changes neither table.

Each program is checked by itself against `ReadCommitted.SafeProg`: it writes the balance
of one extension from the row it has locked, and the ledger row it adds carries the
difference.  `conserved_of_safe` turns that into the statement about interleavings.
-/

namespace CallNet.Wallet

open ReadCommitted

/-- The balance a wallet row stands for: zero when there is none. -/
def balanceOf (row : Option UserBalance) : Int := (row.map UserBalance.balance).getD 0

/-- The sum of the amounts of an extension's ledger rows. -/
def ledgerSum (ext : String) (es : List BalanceTxn) : Int :=
  ((es.filter fun e => e.extension = ext).map BalanceTxn.amount).sum

/-- The balance of an extension equals the sum of its ledger rows. -/
def Conserved (ext : String) (row : Option UserBalance) (es : List BalanceTxn) : Prop :=
  balanceOf row = ledgerSum ext es

theorem ledgerSum_append (ext : String) (es es' : List BalanceTxn) :
    ledgerSum ext (es ++ es') = ledgerSum ext es + ledgerSum ext es' := by
  simp only [ledgerSum, List.filter_append, List.map_append, List.sum_append]

/-- What a transaction that writes one wallet row and one ledger row owes: the row it
    found changes by the amount it records. -/
theorem conserved_commit {ext : String} {row₀ : Option UserBalance} {bal : UserBalance}
    {e : BalanceTxn} {w : Tx String UserBalance BalanceTxn} {b : Base String UserBalance}
    (hb : b ext = some row₀) (hext : e.extension = ext) (hrow : w.rows ext = some bal)
    (hrows : ∀ k, k ≠ ext → w.rows k = none) (hes : w.entries = [e])
    (hbal : bal.balance = balanceOf row₀ + e.amount)
    (k : String) (row : Option UserBalance) (es : List BalanceTxn) (ha : b.Allows k row)
    (hc : Conserved k row es) : Conserved k ((w.rows k).or row) (es ++ w.entries) := by
  unfold Conserved at hc ⊢
  rw [ledgerSum_append, hes]
  by_cases hk : k = ext
  · subst hk
    have hrow₀ : row = row₀ := by
      rcases ha with ha | ha <;> rw [hb] at ha
      · cases ha
      · exact (Option.some.inj ha).symm
    have hsum : ledgerSum k [e] = e.amount := by
      simp only [ledgerSum, List.filter_cons, hext, decide_true, if_true, List.filter_nil,
        List.map_cons, List.map_nil, List.sum_singleton]
    rw [hrow, Option.some_or, hsum, ← hc, hrow₀, ← hbal]
    rfl
  · have hsum : ledgerSum k [e] = 0 := by
      have hne : ¬ e.extension = k := fun h => hk (h ▸ hext)
      simp only [ledgerSum, List.filter_cons, hne, decide_false, Bool.false_eq_true, if_false,
        List.filter_nil, List.map_nil, List.sum_nil]
    rw [hrows k hk, Option.none_or, hsum, hc, add_zero]

/-! ## Each program by itself -/

/-- Safety of a part of a program: whatever it ends in, `Q` holds. -/
abbrev SafeTo {α : Type} (Q : View String UserBalance BalanceTxn → Except BalanceError α → Prop)
    (p : WalletM α) (v : View String UserBalance BalanceTxn) : Prop :=
  Prog.Safe (S := Sql String UserBalance BalanceTxn ForCall) (Owes Conserved) ViewStep Q p v

/-- The handler only rolls back. -/
theorem safe_rollbackAndThrow {α : Type} (err : BalanceError)
    {Q : View String UserBalance BalanceTxn → Except BalanceError α → Prop}
    (hQ : ∀ v e, Q v (.error e)) (v : View String UserBalance BalanceTxn) :
    SafeTo Q (rollbackAndThrow err) v := by
  refine ⟨trivial, fun x v' _ => ?_⟩
  cases x <;> exact hQ v' err

/-- A program that ends with a statement of no debt is safe. -/
theorem safe_exec_last {o : WalletStmt} {v : View String UserBalance BalanceTxn}
    (howes : Owes Conserved v o)
    {Q : View String UserBalance BalanceTxn → Except BalanceError o.Answer → Prop}
    (hQ : ∀ v r, Q v r) : SafeTo Q (exec o) v :=
  ⟨howes, fun x v' _ => by cases x <;> exact hQ v' _⟩

/-- A body that rolls back on every exception is safe when its normal runs are. -/
theorem safe_rollingBack {α : Type} {body : WalletM α} {v : View String UserBalance BalanceTxn}
    (h : SafeTo (fun _ _ => True) body v) :
    SafeTo (fun _ _ => True) (body.tryCatch rollbackAndThrow) v := by
  refine Prog.safe_tryCatch.mpr (h.mono fun v r _ => ?_)
  cases r with
  | ok => trivial
  | error err => exact safe_rollbackAndThrow err (fun _ _ => trivial) v

theorem safe_debitForCall (job : BalanceDebitJob) :
    SafeTo (fun _ _ => True) (debitForCall job) (.idle, .none) := by
  unfold debitForCall
  dsimp only
  split
  · trivial
  · apply safe_rollingBack
    refine safe_query_bind (fun _ _ => trivial) ⟨_, rfl⟩ fun _ v hv => ?_
    cases hv
    refine safe_query_bind (fun _ _ => trivial) trivial fun existing v hv => ?_
    cases hv
    split
    · refine safe_exec_last ?_ fun _ _ => trivial
      trivial
    · refine safe_query_bind (fun _ _ => trivial) trivial fun _ v hv => ?_
      cases hv
      refine safe_query_bind (fun _ _ => trivial) trivial fun _ v hv => ?_
      obtain ⟨row₀, -, rfl⟩ := hv
      refine safe_exec_last ?_ fun _ _ => trivial
      rintro w b hw
      cases hw
      refine conserved_commit (Function.update_self ..) rfl (Function.update_self ..)
        (fun k hk => Function.update_of_ne hk ..) rfl ?_
      cases row₀ with
      | none => simp [balanceOf, Tx.empty]
      | some r => simp [balanceOf, Tx.empty, UserBalance.debit, sub_eq_add_neg]

/-- The wallet that `lockWallet` returns is the locked row, or a fresh zero row. -/
def Locked (ext : String) (v : View String UserBalance BalanceTxn) (bal : UserBalance) : Prop :=
  ∃ w b row₀, v = (.active w, b) ∧ b ext = some row₀ ∧ bal.balance = balanceOf row₀ ∧
    w.entries = [] ∧ ∀ k, k ≠ ext → w.rows k = none

/-- What `Credit` has done when it is about to commit. -/
def Credited (ext : String) (v : View String UserBalance BalanceTxn) : Prop :=
  ∃ w b row₀ bal e, v = (.active w, b) ∧ b ext = some row₀ ∧ e.extension = ext ∧
    w.rows ext = some bal ∧ (∀ k, k ≠ ext → w.rows k = none) ∧ w.entries = [e] ∧
    bal.balance = balanceOf row₀ + e.amount

theorem safe_lockWallet (ext currency : String) :
    SafeTo (fun v r => ∀ bal, r = .ok bal → Locked ext v bal) (lockWallet ext currency)
      (.active .empty, .none) := by
  refine safe_query_bind (fun _ _ _ h => nomatch h) trivial fun found v hv => ?_
  cases found with
  | none =>
    cases hv
    refine safe_query_bind (fun _ _ _ h => nomatch h) trivial fun _ v hv => ?_
    obtain ⟨-, rfl⟩ := hv
    intro bal hbal
    cases hbal
    exact ⟨_, _, none, rfl, Function.update_self .., rfl, rfl,
      fun k hk => Function.update_of_ne hk ..⟩
  | some r =>
    obtain ⟨row₀, -, hr, rfl⟩ := hv
    intro bal hbal
    cases hbal
    refine ⟨_, _, row₀, rfl, Function.update_self .., ?_, rfl, fun _ _ => rfl⟩
    rw [show row₀ = some r from hr]
    rfl

theorem safe_creditWallet (ext : String) (amount : Int) (currency reason callID : String) :
    SafeTo (fun v r => ∀ bal, r = .ok bal → Credited ext v)
      (creditWallet ext amount currency reason callID) (.active .empty, .none) := by
  refine Prog.safe_bind.mpr ((safe_lockWallet ext currency).mono fun v r hr => ?_)
  cases r with
  | error => exact fun _ h => nomatch h
  | ok bal =>
    obtain ⟨w, b, row₀, rfl, hb, hbal, hes, hrows⟩ := hr bal rfl
    refine safe_query_bind (fun _ _ _ h => nomatch h) trivial fun _ v hv => ?_
    obtain ⟨row₁, ha, rfl⟩ := hv
    refine safe_query_bind (fun _ _ _ h => nomatch h) trivial fun _ v hv => ?_
    cases hv
    intro bal' _
    have hrow₁ : row₁ = row₀ := by
      rcases ha with ha | ha <;> rw [hb] at ha
      · cases ha
      · exact (Option.some.inj ha).symm
    subst hrow₁
    -- `Save` writes the same row whether it updates or inserts
    have hsave : ∀ (row : Option UserBalance) (bal₁ : UserBalance),
        row.elim bal₁ (fun _ => bal₁) = bal₁ := fun row _ => by cases row <;> rfl
    exact ⟨_, _, row₁, _, _, rfl, Function.update_self .., rfl,
      (Function.update_self ..).trans (congrArg some (hsave _ _)),
      fun k hk => (Function.update_of_ne hk ..).trans (hrows k hk),
      congrArg (· ++ [_]) hes, congrArg (· + amount) hbal⟩

theorem safe_transaction {α : Type} {ext : String} {body : WalletM α}
    (h : SafeTo (fun v r => ∀ a, r = .ok a → Credited ext v ∨ ∃ b, v = (.active .empty, b)) body
      (.active .empty, .none)) :
    SafeTo (fun _ _ => True) (transaction body) (.idle, .none) := by
  refine safe_query_bind (fun _ _ => trivial) ⟨_, rfl⟩ fun _ v hv => ?_
  cases hv
  apply safe_rollingBack
  refine Prog.safe_bind.mpr (h.mono fun v r hr => ?_)
  cases r with
  | error => trivial
  | ok a =>
    refine safe_query_bind (fun _ _ => trivial) ?_ fun _ _ _ => trivial
    intro w b hv
    rcases hr a rfl with ⟨w', b', row₀, bal, e, rfl, hb, hext, hrow, hrows, hes, hbal⟩ | ⟨b', rfl⟩
    · cases hv
      exact conserved_commit hb hext hrow hrows hes hbal
    · cases hv
      intro k row es _ hc
      simpa only [Tx.empty, Option.none_or, List.append_nil] using hc

theorem safe_credit (ext : String) (amount : Int) (currency reason callID : String) :
    SafeTo (fun _ _ => True) (credit ext amount currency reason callID) (.idle, .none) := by
  have hcredit : SafeTo
      (fun v r => ∀ a, r = .ok a → Credited ext v ∨ ∃ b, v = (.active .empty, b))
      (creditWallet ext amount currency reason callID) (.active .empty, .none) :=
    (safe_creditWallet ext amount currency reason callID).mono fun v r h a ha => .inl (h a ha)
  apply safe_transaction
  split
  · refine safe_query_bind (fun _ _ _ h => by cases h) trivial fun existing v hv => ?_
    cases hv
    split
    · refine safe_query_bind (fun _ _ _ h => by cases h) trivial fun found v hv => ?_
      cases hv
      cases found with
      | none => exact fun _ h => by cases h
      | some bal => exact fun _ _ => .inr ⟨_, rfl⟩
    · exact hcredit
  · exact hcredit

theorem safe_topUp (svc : BalanceService) (ext : String) (amount : Rat) (reason : String) :
    SafeTo (fun _ _ => True) (svc.topUp ext amount reason) (.idle, .none) := by
  unfold BalanceService.topUp
  split
  · trivial
  · dsimp only
    split
    · trivial
    · exact safe_credit ..

theorem safe_request (svc : BalanceService) (r : Request) :
    SafeProg Conserved (r.prog svc) (.idle, .none) := by
  have hdiscard : ∀ p : WalletM UserBalance, SafeTo (fun _ _ => True) p (.idle, .none) →
      SafeProg Conserved (p.bind fun _ => .pure ()) (.idle, .none) := by
    intro p hp
    refine Prog.safe_bind.mpr (hp.mono fun v r _ => ?_)
    cases r <;> trivial
  cases r with
  | debit job => exact safe_debitForCall job
  | topUp ext amount reason => exact hdiscard _ (safe_topUp svc ext amount reason)
  | credit ext amount currency reason callID => exact hdiscard _ (safe_credit ..)

/-! ## Every interleaving -/

/-- From tables in which every balance is the sum of its ledger rows, every interleaving
    of debits and credits keeps them so in every state, and no failed transaction changes
    a table. -/
theorem ledger_conserved (svc : BalanceService) (db : Store String UserBalance BalanceTxn Nat)
    (h : ∀ ext, Conserved ext (db.rows ext) db.entries) (trace : List (Event Nat Request)) :
    Machine.Throughout (step svc) (fun s => ∀ ext, Conserved ext (s.db.rows ext) s.db.entries)
        (.init db) trace ∧
      Machine.Meets (step svc) (fun s e => ∀ s', step svc s e = some s' → FailureKeepsTables s s' e)
        (.init db) trace :=
  conserved_of_safe (safe_request svc) (.init h) trace

/-- A database without wallets. -/
def emptyDb : Store String UserBalance BalanceTxn Nat := ⟨fun _ => none, [], fun _ => none⟩

/-- A call's debit and a top-up race to create the same wallet; the top-up loses and fails. -/
def racingFirstInserts : List (Event Nat Request) :=
  [.start 0 (.debit ⟨"1001", "c1", 1 / 4, "USD"⟩), .start 1 (.topUp "1001" 10 ""),
   .exec 0 .done, .exec 1 .done, .exec 0 .done, .exec 1 .done, .exec 0 .done,
   .exec 0 .done, .exec 0 .done, .exec 1 .done, .exec 1 .done]

theorem ledger_conserved_racingFirstInserts :
    ((Machine.run (step ⟨"USD", true⟩) (.init emptyDb) racingFirstInserts).map fun s =>
      (s.db.rows "1001", s.db.entries.length)) = some (some ⟨"USD", -2500⟩, 1) ∧
    Machine.Throughout (step ⟨"USD", true⟩)
        (fun s => ∀ ext, Conserved ext (s.db.rows ext) s.db.entries)
        (.init emptyDb) racingFirstInserts ∧
      Machine.Meets (step ⟨"USD", true⟩)
        (fun s e => ∀ s', step ⟨"USD", true⟩ s e = some s' → FailureKeepsTables s s' e)
        (.init emptyDb) racingFirstInserts :=
  ⟨by decide +kernel, ledger_conserved ⟨"USD", true⟩ emptyDb (fun _ => rfl) racingFirstInserts⟩

end CallNet.Wallet
