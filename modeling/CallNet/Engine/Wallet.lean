import CallNet.ForStd.ReadCommitted
import CallNet.Engine.CallLog
import Mathlib.Algebra.BigOperators.Group.List.Basic
import Mathlib.Data.Rat.Floor

/-!
# Prepaid wallets

The two programs that write the tables `user_balances` and `balance_txns`:
`debitForCall` of the Node side (`services/postgres/balance.repo.ts`) and `Credit` with
its caller `TopUp` of the Go side (`repository/balance_repo.go`,
`service/balance_service.go`).

Amounts of money in the tables are `numeric(12,4)`, counted here in ten-thousandths.
Both callers round to that precision before they write, so a sum of amounts is exact.
-/

namespace CallNet.Wallet

open ReadCommitted

/-- A row of `user_balances`; its key is the extension. -/
structure UserBalance where
  currency : String
  /-- In ten-thousandths. -/
  balance : Int
deriving DecidableEq, Repr

/-- A row of `balance_txns`.  The amount is signed: negative for debits. -/
structure BalanceTxn where
  extension : String
  /-- In ten-thousandths. -/
  amount : Int
  currency : String
  reason : String
  callId : String
deriving DecidableEq, Repr

/-- The condition `call_id = ? AND reason = ?`. -/
structure ForCall where
  callId : String
  reason : String
deriving DecidableEq, Repr

/-- Whether a ledger row satisfies the condition. -/
def ForCall.sat (q : ForCall) (e : BalanceTxn) : Bool :=
  e.callId = q.callId ∧ e.reason = q.reason

abbrev WalletStmt := Stmt String UserBalance BalanceTxn ForCall

/-- Why a wallet operation fails. -/
inductive BalanceError where
  | sql (e : SqlError)
  | recordNotFound
  /-- `ErrBalanceDisabled` -/
  | disabled
  /-- `ErrBalanceAmount` -/
  | amount
deriving DecidableEq, Repr

/-- Programs over the wallet tables. -/
abbrev WalletM := Prog (Sql String UserBalance BalanceTxn ForCall) BalanceError

def exec (o : WalletStmt) : WalletM o.Answer := query .sql o

/-! ## Call debits (Node) -/

/-- Ledger reason stamped on per-call debits. -/
def CALL_REASON : String := "call"

/-- `catch`: roll back, whether or not that succeeds, and rethrow. -/
def rollbackAndThrow {α : Type} (err : BalanceError) : WalletM α := do
  ((exec .rollback).tryCatch fun _ => pure ())
  Prog.throw err

/-- The wallet after a debit; an empty currency takes that of the job. -/
def UserBalance.debit (amount : Int) (currency : String) (w : UserBalance) : UserBalance :=
  { balance := w.balance - amount
    currency := if w.currency = "" then currency else w.currency }

/-- Apply a per-call charge to a prepaid wallet. -/
def debitForCall (job : BalanceDebitJob) : WalletM Unit :=
  let amount := mathRound (job.amount * 10000)
  if job.extension = "" ∨ job.callId = "" ∨ ¬ 0 < amount then pure ()
  else
    (do
      exec .begin
      let existing ← exec (.countEntries ⟨job.callId, CALL_REASON⟩)
      if 0 < existing then exec .rollback
      else do
        exec (.insertEntry
          { extension := job.extension, amount := -amount, currency := job.currency,
            reason := CALL_REASON, callId := job.callId })
        exec (.upsertRow job.extension { currency := job.currency, balance := -amount }
          (UserBalance.debit amount job.currency))
        exec .commit).tryCatch
      rollbackAndThrow

/-! ## Credits (Go) -/

/-- `db.Transaction`: commit when the body succeeds, roll back when it fails. -/
def transaction {α : Type} (body : WalletM α) : WalletM α := do
  exec .begin
  (do
    let a ← body
    exec .commit
    pure a).tryCatch rollbackAndThrow

/-- Lock the wallet row, or create it, so that concurrent credits serialise. -/
def lockWallet (ext currency : String) : WalletM UserBalance := do
  match ← exec (.selectForUpdate ext) with
  | some bal => pure bal
  | none => do
    let bal : UserBalance := { currency, balance := 0 }
    exec (.insertRow ext bal)
    pure bal

/-- The part of `Credit` that changes the wallet and its ledger. -/
def creditWallet (ext : String) (amount : Int) (currency reason callID : String) :
    WalletM UserBalance := do
  let bal ← lockWallet ext currency
  let bal : UserBalance :=
    { balance := bal.balance + amount
      currency := if bal.currency = "" then currency else bal.currency }
  -- `Save` updates the row it has, or inserts it
  exec (.upsertRow ext bal fun _ => bal)
  let txnCurrency := if bal.currency = "" then currency else bal.currency
  exec (.insertEntry
    { extension := ext, amount, currency := txnCurrency, reason, callId := callID })
  pure bal

/-- Credit a wallet; a non-empty call id makes the credit apply at most once. -/
def credit (ext : String) (amount : Int) (currency reason callID : String) :
    WalletM UserBalance :=
  transaction do
    if callID ≠ "" then do
      let existing ← exec (.countEntries ⟨callID, reason⟩)
      if 0 < existing then do
        -- already applied: return the current wallet untouched
        match ← exec (.selectRow ext) with
        | some bal => pure bal
        | none => Prog.throw .recordNotFound
      else creditWallet ext amount currency reason callID
    else creditWallet ext amount currency reason callID

/-- The balance service: the workspace currency, and whether prepaid billing is on. -/
structure BalanceService where
  currency : String
  enabled : Bool

/-- `math.Round`: the nearest integer, halves away from zero. -/
def goRound (q : Rat) : Int := if 0 ≤ q then (q + 1 / 2).floor else -(-q + 1 / 2).floor

def BalanceService.topUp (s : BalanceService) (ext : String) (amount : Rat) (reason : String) :
    WalletM UserBalance :=
  if !s.enabled then Prog.throw .disabled
  else
    let amount := goRound (amount * 10000)
    if amount ≤ 0 then Prog.throw .amount
    else credit ext amount s.currency (if reason = "" then "topup" else reason) ""

/-! ## Requests -/

/-- What a session of the database may be asked for: a delivery of a debit job to the
    queue worker, a top-up through the API, or any other call of `Credit`. -/
inductive Request where
  | debit (job : BalanceDebitJob)
  | topUp (extension : String) (amount : Rat) (reason : String)
  | credit (extension : String) (amount : Int) (currency reason callID : String)

def Request.prog (svc : BalanceService) : Request → WalletM Unit
  | .debit job => debitForCall job
  | .topUp ext amount reason => do let _ ← svc.topUp ext amount reason
  | .credit ext amount currency reason callID => do
    let _ ← Wallet.credit ext amount currency reason callID

/-- The database with any number of sessions. -/
abbrev DbState := ReadCommitted.State String UserBalance BalanceTxn ForCall BalanceError Nat

/-- One step: a session takes a request, or performs its next statement. -/
def step (svc : BalanceService) (s : DbState) (e : Event Nat Request) : Option DbState :=
  s.step ForCall.sat (Request.prog svc) e

end CallNet.Wallet
