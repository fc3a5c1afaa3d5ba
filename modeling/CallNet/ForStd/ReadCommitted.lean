import CallNet.ForStd.Prog
import CallNet.ForStd.Machine
import Mathlib.Logic.Function.Basic

/-!
# Concurrent transactions at READ COMMITTED

A database with one keyed table (primary key `κ`, rows `ρ`) and one append-only table
(entries `τ`), used by any number of sessions `ι` at once.  Each session runs a program
over SQL statements; a statement is atomic and sees the latest committed data together
with the session's own uncommitted changes.  A written or locked row stays locked by
its transaction until that ends, and a statement that needs a row locked by another
transaction cannot proceed.  A unique violation is raised only against a committed row:
against an uncommitted one the insert waits.

`conserved_of_safe` is the rule for table invariants: when every program started is safe
in isolation, every interleaving of them keeps the invariant in the committed tables.
-/

namespace ReadCommitted

/-- SQL statements.  `φ` is the type of conditions on entries. -/
inductive Stmt (κ ρ τ φ : Type) where
  | begin
  | commit
  | rollback
  /-- `SELECT count(*) FROM entries WHERE q`. -/
  | countEntries (q : φ)
  | insertEntry (e : τ)
  | selectRow (k : κ)
  | selectForUpdate (k : κ)
  | insertRow (k : κ) (r : ρ)
  /-- `INSERT .. ON CONFLICT DO UPDATE`: insert `r`, or apply `f` to the row there is. -/
  | upsertRow (k : κ) (r : ρ) (f : ρ → ρ)

/-- What a statement answers when it succeeds. -/
@[reducible] def Stmt.Answer {κ ρ τ φ : Type} : Stmt κ ρ τ φ → Type
  | .countEntries _ => Nat
  | .selectRow _ | .selectForUpdate _ => Option ρ
  | _ => Unit

/-- Why a statement fails. -/
inductive SqlError where
  | uniqueViolation
  /-- The transaction has failed already and accepts only its end. -/
  | inFailedTransaction
  | noTransaction
  /-- Any other failure: a constraint, a deadlock, a timeout, a broken connection. -/
  | failed
deriving DecidableEq, Repr

/-- Statements as operations of a program. -/
def Sql (κ ρ τ φ : Type) : Signature where
  Op := Stmt κ ρ τ φ
  Ret o := Except SqlError o.Answer

variable {κ ρ τ φ ι ε : Type}

/-- Perform a statement; a failure is an exception of the program. -/
def query (wrap : SqlError → ε) (o : Stmt κ ρ τ φ) : Prog (Sql κ ρ τ φ) ε o.Answer :=
  .op o fun x => match x with
    | .ok a => .pure a
    | .error e => .throw (wrap e)

/-- The uncommitted changes of a transaction. -/
structure Tx (κ ρ τ : Type) where
  rows : κ → Option ρ
  entries : List τ

def Tx.empty : Tx κ ρ τ := ⟨fun _ => none, []⟩

/-- Where a session stands with its transaction. -/
inductive Status (κ ρ τ : Type) where
  | idle
  | active (w : Tx κ ρ τ)
  /-- A statement failed: the changes are gone and only an end is accepted. -/
  | aborted
  | committed
  | rolledBack

/-- The committed tables and the owner of each row lock. -/
structure Store (κ ρ τ ι : Type) where
  rows : κ → Option ρ
  entries : List τ
  locks : κ → Option ι

variable [DecidableEq ι]

/-- Drop the locks of a session. -/
def Store.release (db : Store κ ρ τ ι) (t : ι) : Store κ ρ τ ι :=
  { db with locks := fun k => if db.locks k = some t then none else db.locks k }

@[simp] theorem release_rows (db : Store κ ρ τ ι) (t : ι) : (db.release t).rows = db.rows := rfl

@[simp] theorem release_entries (db : Store κ ρ τ ι) (t : ι) :
    (db.release t).entries = db.entries := rfl

theorem release_locks_other {db : Store κ ρ τ ι} {t t' : ι} {k : κ} (hne : t' ≠ t)
    (h : db.locks k = some t') : (db.release t).locks k = some t' := by
  simp only [Store.release, h, Option.some.injEq, if_neg hne]

variable [DecidableEq κ]

/-- Make the changes of a session visible. -/
def Store.apply (db : Store κ ρ τ ι) (w : Tx κ ρ τ) : Store κ ρ τ ι :=
  { db with rows := fun k => (w.rows k).or (db.rows k), entries := db.entries ++ w.entries }

/-- Lock a row, unless another session holds it. -/
def Store.lock (db : Store κ ρ τ ι) (t : ι) (k : κ) : Option (Store κ ρ τ ι) :=
  if db.locks k = none ∨ db.locks k = some t then
    some { db with locks := Function.update db.locks k (some t) }
  else none

/-- The transaction with a new version of a row. -/
def Tx.write (w : Tx κ ρ τ) (k : κ) (r : ρ) : Tx κ ρ τ :=
  { w with rows := Function.update w.rows k (some r) }

/-- A failed statement: an open transaction is undone and unlocks its rows. -/
def Store.fail (db : Store κ ρ τ ι) (t : ι) : Status κ ρ τ → Store κ ρ τ ι × Status κ ρ τ
  | .active _ => (db.release t, .aborted)
  | st => (db, st)

/-- The effect of a statement inside an open transaction: the new store, the new
    status and the answer.  `none`: it waits for a lock. -/
def Store.execIn (sat : φ → τ → Bool) (db : Store κ ρ τ ι) (t : ι) (w : Tx κ ρ τ) :
    (o : Stmt κ ρ τ φ) → Option (Store κ ρ τ ι × Status κ ρ τ × Except SqlError o.Answer)
  | .begin => some (db, .active w, .ok ())
  | .commit => some ((db.apply w).release t, .committed, .ok ())
  | .rollback => some (db.release t, .rolledBack, .ok ())
  | .countEntries q => some (db, .active w, .ok ((db.entries ++ w.entries).countP (sat q)))
  | .insertEntry e => some (db, .active { w with entries := w.entries ++ [e] }, .ok ())
  | .selectRow k => some (db, .active w, .ok ((w.rows k).or (db.rows k)))
  | .selectForUpdate k =>
    match (w.rows k).or (db.rows k) with
    | none => some (db, .active w, .ok none)
    | some r => (db.lock t k).map fun db' => (db', .active w, .ok (some r))
  | .insertRow k r =>
    match (w.rows k).or (db.rows k) with
    | some _ => some (db.release t, .aborted, .error .uniqueViolation)
    | none => (db.lock t k).map fun db' => (db', .active (w.write k r), .ok ())
  | .upsertRow k r f =>
    (db.lock t k).map fun db' =>
      (db', .active (w.write k (((w.rows k).or (db.rows k)).elim r f)), .ok ())

/-- The effect of a statement in any status. -/
def Store.exec (sat : φ → τ → Bool) (db : Store κ ρ τ ι) (t : ι) (st : Status κ ρ τ)
    (o : Stmt κ ρ τ φ) : Option (Store κ ρ τ ι × Status κ ρ τ × Except SqlError o.Answer) :=
  match st, o with
  | .active w, o => db.execIn sat t w o
  | .aborted, .commit => some (db, .rolledBack, .ok ())
  | .aborted, .rollback => some (db, .rolledBack, .ok ())
  | .aborted, _ => some (db, .aborted, .error .inFailedTransaction)
  | _, .begin => some (db, .active .empty, .ok ())
  | st, .commit => some (db, st, .ok ())
  | st, .rollback => some (db, st, .ok ())
  | st, _ => some (db, st, .error .noTransaction)

/-! ## Sessions and their interleavings -/

/-- A session: its transaction and what is left of its program. -/
structure Session (κ ρ τ φ ε : Type) where
  status : Status κ ρ τ
  prog : Prog (Sql κ ρ τ φ) ε Unit

structure State (κ ρ τ φ ε ι : Type) where
  db : Store κ ρ τ ι
  session : ι → Session κ ρ τ φ ε

/-- How a statement turns out. -/
inductive Outcome where
  | done
  | fails
  /-- The statement takes effect but its answer does not arrive. -/
  | unacknowledged
deriving DecidableEq, Repr

/-- One step of the system: a session receives a request, or performs a statement. -/
inductive Event (ι R : Type) where
  | start (t : ι) (r : R)
  | exec (t : ι) (out : Outcome)

variable {R : Type}

/-- A session that has finished its program can take the next request. -/
def Session.free : Session κ ρ τ φ ε → Bool
  | ⟨.active _, _⟩ => false
  | ⟨_, .pure _⟩ => true
  | ⟨_, .throw _⟩ => true
  | ⟨_, .op _ _⟩ => false

/-- One step, for requests served by `prog`. -/
def State.step (sat : φ → τ → Bool) (prog : R → Prog (Sql κ ρ τ φ) ε Unit)
    (s : State κ ρ τ φ ε ι) : Event ι R → Option (State κ ρ τ φ ε ι)
  | .start t r =>
    if (s.session t).free then
      some { s with session := Function.update s.session t ⟨.idle, prog r⟩ }
    else none
  | .exec t out =>
    match (s.session t).prog with
    | .pure _ | .throw _ => none
    | .op o k =>
      match out with
      | .done =>
        (s.db.exec sat t (s.session t).status o).map fun (db, st, x) =>
          ⟨db, Function.update s.session t ⟨st, k x⟩⟩
      | .fails =>
        let (db, st) := s.db.fail t (s.session t).status
        some ⟨db, Function.update s.session t ⟨st, k (.error .failed)⟩⟩
      | .unacknowledged =>
        -- only a COMMIT outlives its connection
        match o, k with
        | .commit, k =>
          (s.db.exec sat t (s.session t).status .commit).map fun (db, st, _) =>
            ⟨db, Function.update s.session t ⟨st, k (.error .failed)⟩⟩
        | _, _ => none

/-! ## What a session can know -/

/-- The committed rows under a session's locks, as it found them. -/
abbrev Base (κ ρ : Type) := κ → Option (Option ρ)

/-- A session seen in isolation: its status and the rows it has locked. -/
abbrev View (κ ρ τ : Type) := Status κ ρ τ × Base κ ρ

/-- No row is locked. -/
def Base.none : Base κ ρ := fun _ => Option.none

/-- `r` may be the committed row of `k`. -/
def Base.Allows (b : Base κ ρ) (k : κ) (r : Option ρ) : Prop := b k = Option.none ∨ b k = some r

/-- The row of `k` is locked and was found to be `r`. -/
def Base.learn (b : Base κ ρ) (k : κ) (r : Option ρ) : Base κ ρ := Function.update b k (some r)

/-- What a statement may answer a session that has an open transaction, whatever the
    other sessions do, and its view afterwards. -/
def ActiveStep (w : Tx κ ρ τ) (b : Base κ ρ) :
    (o : Stmt κ ρ τ φ) → Except SqlError o.Answer → View κ ρ τ → Prop
  | .commit, .error _, v => v = (.aborted, .none) ∨ v = (.committed, .none)
  | _, .error _, v => v = (.aborted, .none)
  | .begin, .ok _, v => v = (.active w, b)
  | .commit, .ok _, v => v = (.committed, .none)
  | .rollback, .ok _, v => v = (.rolledBack, .none)
  | .countEntries _, .ok _, v => v = (.active w, b)
  | .insertEntry e, .ok _, v => v = (.active { w with entries := w.entries ++ [e] }, b)
  | .selectRow _, .ok _, v => v = (.active w, b)
  | .selectForUpdate k, .ok x, v =>
    match x with
    | none => v = (.active w, b)
    | some r => ∃ r₀, b.Allows k r₀ ∧ (w.rows k).or r₀ = some r ∧ v = (.active w, b.learn k r₀)
  | .insertRow k r, .ok _, v => b.Allows k none ∧ v = (.active (w.write k r), b.learn k none)
  | .upsertRow k r f, .ok _, v => ∃ r₀, b.Allows k r₀ ∧
      v = (.active (w.write k (((w.rows k).or r₀).elim r f)), b.learn k r₀)

/-- The same for any status.  Outside a transaction only `begin` has an effect. -/
def ViewStep (v : View κ ρ τ) (o : Stmt κ ρ τ φ) (x : Except SqlError o.Answer)
    (v' : View κ ρ τ) : Prop :=
  match v with
  | (.active w, b) => ActiveStep w b o x v'
  | (.aborted, _) => v' = (.aborted, .none) ∨ v' = (.rolledBack, .none)
  | (st, _) =>
    match o, x with
    | .begin, .ok _ => v' = (.active .empty, .none)
    | _, _ => v' = (st, .none)

/-- What a program owes to the invariant `I` of one key, its row and the entries: its
    only transaction opens first, and a commit keeps `I` whatever the entries and the
    rows it has not locked. -/
def Owes (I : κ → Option ρ → List τ → Prop) (v : View κ ρ τ) : Stmt κ ρ τ φ → Prop
  | .begin => ∃ b, v = (.idle, b)
  | .commit => ∀ w b, v = (.active w, b) →
      ∀ k r es, b.Allows k r → I k r es → I k ((w.rows k).or r) (es ++ w.entries)
  | _ => True

/-- A program that, run by itself, keeps its debt to `I`. -/
def SafeProg (I : κ → Option ρ → List τ → Prop) (p : Prog (Sql κ ρ τ φ) ε Unit)
    (v : View κ ρ τ) : Prop :=
  Prog.Safe (S := Sql κ ρ τ φ) (Owes I) ViewStep (fun _ _ => True) p v

/-- The rule of a statement, when nothing is asked of a program that ends in an exception. -/
theorem safe_query_bind {I : κ → Option ρ → List τ → Prop} {α : Type} {wrap : SqlError → ε}
    {Q : View κ ρ τ → Except ε α → Prop} (hQ : ∀ v e, Q v (.error e)) {o : Stmt κ ρ τ φ}
    {f : o.Answer → Prog (Sql κ ρ τ φ) ε α} {v : View κ ρ τ} (howes : Owes I v o)
    (hok : ∀ a v', ViewStep v o (.ok a) v' →
      Prog.Safe (S := Sql κ ρ τ φ) (Owes I) ViewStep Q (f a) v') :
    Prog.Safe (S := Sql κ ρ τ φ) (Owes I) ViewStep Q ((query wrap o).bind f) v := by
  refine ⟨howes, fun x v' hv => ?_⟩
  cases x with
  | ok a => exact hok a v' hv
  | error e => exact hQ v' (wrap e)

/-- The view is right about the store. -/
structure Agrees (db : Store κ ρ τ ι) (t : ι) (v : View κ ρ τ) : Prop where
  locked : ∀ k r, v.2 k = some r → db.locks k = some t ∧ db.rows k = r
  owned : ∀ w, v.1 = .active w → ∀ k, w.rows k ≠ none → v.2 k ≠ none

/-! ## Small facts about the store -/

theorem lock_eq_some {db db' : Store κ ρ τ ι} {t : ι} {k : κ} :
    db.lock t k = some db' ↔ (db.locks k = none ∨ db.locks k = some t) ∧
      db' = { db with locks := Function.update db.locks k (some t) } := by
  unfold Store.lock
  split
  · rename_i h
    exact ⟨fun e => ⟨h, (Option.some.inj e).symm⟩, fun e => congrArg some e.2.symm⟩
  · rename_i h
    simp only [h, false_and, reduceCtorEq]

/-- The entries an open transaction has written. -/
def Status.pending : Status κ ρ τ → Option (List τ)
  | .active w => some w.entries
  | _ => none

section

attribute [local simp] Store.exec Store.execIn State.step

/-- A commit publishes the entries of the transaction it ends. -/
theorem exec_commit {sat : φ → τ → Bool} {db db' : Store κ ρ τ ι} {t : ι}
    {st st' : Status κ ρ τ} {x : Except SqlError Unit}
    (h : db.exec sat t st .commit = some (db', st', x)) :
    db'.entries = db.entries ++ st.pending.getD [] ∧ st'.pending = none := by
  cases st <;> simp at h <;> obtain ⟨rfl, rfl, -⟩ := h
  case active w => exact ⟨rfl, rfl⟩
  all_goals exact ⟨(List.append_nil _).symm, rfl⟩

/-- A request starts in a session that is free. -/
theorem step_start {sat : φ → τ → Bool} {prog : R → Prog (Sql κ ρ τ φ) ε Unit}
    {s s' : State κ ρ τ φ ε ι} {t : ι} {r : R} (h : s.step sat prog (.start t r) = some s') :
    s' = { s with session := Function.update s.session t ⟨.idle, prog r⟩ } := by
  simp at h
  exact h.2.symm

end

/-- What a statement does to the store of others: nothing, or it takes or drops locks. -/
inductive Store.Touched (db : Store κ ρ τ ι) (t : ι) : Store κ ρ τ ι → Prop
  | kept : db.Touched t db
  | released : db.Touched t (db.release t)
  | locked {db' : Store κ ρ τ ι} (k : κ) (h : db.lock t k = some db') : db.Touched t db'

/-- A statement of an open transaction commits it, or touches no committed table and writes no
    entry, unless it inserts one. -/
theorem execIn_cases {sat : φ → τ → Bool} {db db' : Store κ ρ τ ι} {t : ι} {w : Tx κ ρ τ}
    {st' : Status κ ρ τ} {o : Stmt κ ρ τ φ} {x : Except SqlError o.Answer}
    (h : db.execIn sat t w o = some (db', st', x)) :
    (o = .commit ∧ st' = .committed ∧ db' = (db.apply w).release t) ∨
      db.Touched t db' ∧ ((∃ e, o = .insertEntry e) ∨
        ∀ es, st'.pending = some es → es = w.entries) := by
  cases o with
  | commit =>
    simp only [Store.execIn, Option.some.injEq, Prod.mk.injEq] at h
    exact .inl ⟨rfl, h.2.1.symm, h.1.symm⟩
  | rollback =>
    simp only [Store.execIn, Option.some.injEq, Prod.mk.injEq] at h
    obtain ⟨rfl, rfl, -⟩ := h
    exact .inr ⟨.released, .inr fun _ hes => nomatch hes⟩
  | insertEntry e =>
    simp only [Store.execIn, Option.some.injEq, Prod.mk.injEq] at h
    obtain ⟨rfl, -, -⟩ := h
    exact .inr ⟨.kept, .inl ⟨e, rfl⟩⟩
  | begin | countEntries q | selectRow k =>
    simp only [Store.execIn, Option.some.injEq, Prod.mk.injEq] at h
    obtain ⟨rfl, rfl, -⟩ := h
    exact .inr ⟨.kept, .inr fun _ hes => (Option.some.inj hes).symm⟩
  | selectForUpdate k =>
    simp only [Store.execIn] at h
    split at h
    · simp only [Option.some.injEq, Prod.mk.injEq] at h
      obtain ⟨rfl, rfl, -⟩ := h
      exact .inr ⟨.kept, .inr fun _ hes => (Option.some.inj hes).symm⟩
    · simp only [Option.map_eq_some_iff, Prod.mk.injEq] at h
      obtain ⟨_, hlock, rfl, rfl, -⟩ := h
      exact .inr ⟨.locked k hlock, .inr fun _ hes => (Option.some.inj hes).symm⟩
  | insertRow k r =>
    simp only [Store.execIn] at h
    split at h
    · simp only [Option.some.injEq, Prod.mk.injEq] at h
      obtain ⟨rfl, rfl, -⟩ := h
      exact .inr ⟨.released, .inr fun _ hes => nomatch hes⟩
    · simp only [Option.map_eq_some_iff, Prod.mk.injEq] at h
      obtain ⟨_, hlock, rfl, rfl, -⟩ := h
      exact .inr ⟨.locked k hlock, .inr fun _ hes => (Option.some.inj hes).symm⟩
  | upsertRow k r f =>
    simp only [Store.execIn, Option.map_eq_some_iff, Prod.mk.injEq] at h
    obtain ⟨_, hlock, rfl, rfl, -⟩ := h
    exact .inr ⟨.locked k hlock, .inr fun _ hes => (Option.some.inj hes).symm⟩

/-- The same of any statement: outside a transaction nothing is touched. -/
theorem exec_cases {sat : φ → τ → Bool} {db db' : Store κ ρ τ ι} {t : ι}
    {st st' : Status κ ρ τ} {o : Stmt κ ρ τ φ} {x : Except SqlError o.Answer}
    (h : db.exec sat t st o = some (db', st', x)) :
    (∃ w, st = .active w ∧ o = .commit ∧ st' = .committed ∧ db' = (db.apply w).release t) ∨
      db.Touched t db' ∧ ((∃ e, o = .insertEntry e) ∨
        ∀ es, st'.pending = some es → es = [] ∨ st.pending = some es) := by
  cases st with
  | active w =>
    obtain ⟨ho, hst, hdb⟩ | ⟨htouched, hinsert | hpending⟩ := execIn_cases h
    · exact .inl ⟨w, rfl, ho, hst, hdb⟩
    · exact .inr ⟨htouched, .inl hinsert⟩
    · exact .inr ⟨htouched, .inr fun es hes => .inr (congrArg some (hpending es hes).symm)⟩
  | _ =>
    right
    cases o <;> simp only [Store.exec, Option.some.injEq, Prod.mk.injEq] at h <;>
      obtain ⟨rfl, rfl, -⟩ := h
    all_goals refine ⟨.kept, .inr fun es hes => ?_⟩
    all_goals first | exact .inl (Option.some.inj hes).symm | exact nomatch hes

theorem Store.Touched.tables {db db' : Store κ ρ τ ι} {t : ι} (h : db.Touched t db') :
    db'.rows = db.rows ∧ db'.entries = db.entries := by
  cases h with
  | kept | released => exact ⟨rfl, rfl⟩
  | locked k hlock =>
    obtain ⟨-, rfl⟩ := lock_eq_some.mp hlock
    exact ⟨rfl, rfl⟩

/-- Locks of other sessions stay. -/
theorem Store.Touched.locks {db db' : Store κ ρ τ ι} {t t' : ι} (h : db.Touched t db')
    (hne : t' ≠ t) {k : κ} (hk : db.locks k = some t') : db'.locks k = some t' := by
  cases h with
  | kept => exact hk
  | released => exact release_locks_other hne hk
  | locked k' hlock =>
    obtain ⟨hfree, rfl⟩ := lock_eq_some.mp hlock
    have hkk : k ≠ k' := by
      rintro rfl
      simp only [hk, reduceCtorEq, Option.some.injEq, hne, or_self] at hfree
    simp only [Function.update_of_ne hkk, hk]

/-- A statement changes the committed tables only when it commits an open transaction. -/
theorem exec_tables {sat : φ → τ → Bool} {db db' : Store κ ρ τ ι} {t : ι}
    {st st' : Status κ ρ τ} {o : Stmt κ ρ τ φ} {x : Except SqlError o.Answer}
    (h : db.exec sat t st o = some (db', st', x)) :
    (db'.rows = db.rows ∧ db'.entries = db.entries) ∨
      ∃ w, st = .active w ∧ o = .commit ∧ st' = .committed ∧ db' = (db.apply w).release t := by
  obtain hcommit | ⟨htouched, -⟩ := exec_cases h
  · exact .inr hcommit
  · exact .inl htouched.tables

/-- A statement other than `insertEntry` and `commit` adds no entry anywhere. -/
theorem exec_pending {sat : φ → τ → Bool} {db db' : Store κ ρ τ ι} {t : ι}
    {st st' : Status κ ρ τ} {o : Stmt κ ρ τ φ} {x : Except SqlError o.Answer}
    (h : db.exec sat t st o = some (db', st', x)) (hi : ∀ e, o ≠ .insertEntry e)
    (hc : o ≠ .commit) :
    db'.entries = db.entries ∧ ∀ es, st'.pending = some es → es = [] ∨ st.pending = some es := by
  obtain ⟨_, _, hcommit, _⟩ | ⟨htouched, ⟨e, hinsert⟩ | hpending⟩ := exec_cases h
  · exact absurd hcommit hc
  · exact absurd hinsert (hi e)
  · exact ⟨htouched.tables.2, hpending⟩

/-- A statement of one session leaves the rows locked by another alone. -/
theorem Agrees.exec_frame {sat : φ → τ → Bool} {db db' : Store κ ρ τ ι} {t t' : ι}
    {st st' : Status κ ρ τ} {b : Base κ ρ} {o : Stmt κ ρ τ φ} {x : Except SqlError o.Answer}
    (ha : Agrees db t (st, b)) (h : db.exec sat t st o = some (db', st', x)) (hne : t' ≠ t)
    {k : κ} (hk : db.locks k = some t') : db'.locks k = some t' ∧ db'.rows k = db.rows k := by
  obtain ⟨w, rfl, rfl, rfl, rfl⟩ | ⟨htouched, -⟩ := exec_cases h
  · refine ⟨release_locks_other hne hk, ?_⟩
    -- a row the commit writes is locked by the committing session
    have hw : w.rows k = none := by
      by_contra hw
      obtain ⟨r, hr⟩ := Option.ne_none_iff_exists'.mp (ha.owned w rfl k hw)
      have := (ha.locked k r hr).1
      rw [hk] at this
      exact hne (Option.some.inj this)
    simp only [release_rows, Store.apply, hw, Option.none_or]
  · exact ⟨htouched.locks hne hk, congrFun htouched.tables.1 k⟩

/-- Locking a row keeps the view right, once it has learned the row. -/
theorem Agrees.learn {db db' : Store κ ρ τ ι} {t : ι} {w : Tx κ ρ τ} {b : Base κ ρ} {k : κ}
    (ha : Agrees db t (.active w, b)) (hl : db.lock t k = some db') (w' : Tx κ ρ τ)
    (hw : ∀ k', k' ≠ k → w'.rows k' = w.rows k') :
    b.Allows k (db.rows k) ∧ Agrees db' t (.active w', b.learn k (db.rows k)) := by
  obtain ⟨-, rfl⟩ := lock_eq_some.mp hl
  refine ⟨?_, ?_, ?_⟩
  · cases hb : b k with
    | none => exact .inl hb
    | some r => exact .inr (by rw [hb, (ha.locked k r hb).2])
  · intro k' r hr
    by_cases hk : k' = k
    · subst hk
      simp only [Base.learn, Function.update_self, Option.some.injEq] at hr
      exact ⟨Function.update_self .., hr⟩
    · simp only [Base.learn, Function.update_of_ne hk] at hr
      simp only [Function.update_of_ne hk]
      exact ha.locked k' r hr
  · intro w'' hw'' k' hk'
    cases hw''
    by_cases hk : k' = k
    · subst hk; simp only [Base.learn, Function.update_self, ne_eq, reduceCtorEq, not_false_eq_true]
    · simp only [Base.learn, Function.update_of_ne hk]
      exact ha.owned w rfl k' (hw k' hk ▸ hk')

omit [DecidableEq ι] [DecidableEq κ] in
/-- A session with no locked row is right about any store. -/
theorem Agrees.none (db : Store κ ρ τ ι) (t : ι) {st : Status κ ρ τ}
    (hst : ∀ w, st = .active w → w = .empty) : Agrees db t (st, .none) := by
  refine ⟨fun k r hr => (nomatch hr), fun w hw k hk => ?_⟩
  rw [hst w hw] at hk
  exact absurd rfl hk

theorem Tx.write_rows_ne {w : Tx κ ρ τ} {k k' : κ} {r : ρ} (h : k' ≠ k) :
    (w.write k r).rows k' = w.rows k' := Function.update_of_ne h ..

/-- A statement that proceeds is a step of its session's view. -/
theorem Agrees.exec {sat : φ → τ → Bool} {db db' : Store κ ρ τ ι} {t : ι}
    {st st' : Status κ ρ τ} {b : Base κ ρ} {o : Stmt κ ρ τ φ} {x : Except SqlError o.Answer}
    (ha : Agrees db t (st, b)) (h : db.exec sat t st o = some (db', st', x)) :
    ∃ b', ViewStep (st, b) o x (st', b') ∧ Agrees db' t (st', b') := by
  cases st with
  | active w =>
    simp only [Store.exec] at h
    cases o with
    | begin | countEntries q | selectRow k =>
      simp only [Store.execIn, Option.some.injEq, Prod.mk.injEq] at h
      obtain ⟨rfl, rfl, rfl⟩ := h
      exact ⟨b, rfl, ha⟩
    | commit | rollback =>
      simp only [Store.execIn, Option.some.injEq, Prod.mk.injEq] at h
      obtain ⟨rfl, rfl, rfl⟩ := h
      exact ⟨.none, rfl, .none _ _ (fun w hw => nomatch hw)⟩
    | insertEntry e =>
      simp only [Store.execIn, Option.some.injEq, Prod.mk.injEq] at h
      obtain ⟨rfl, rfl, rfl⟩ := h
      exact ⟨b, rfl, ha.locked, fun w' hw' k hk => by cases hw'; exact ha.owned w rfl k hk⟩
    | selectForUpdate k =>
      simp only [Store.execIn] at h
      split at h
      · simp only [Option.some.injEq, Prod.mk.injEq] at h
        obtain ⟨rfl, rfl, rfl⟩ := h
        exact ⟨b, rfl, ha⟩
      · rename_i r hr
        simp only [Option.map_eq_some_iff, Prod.mk.injEq] at h
        obtain ⟨db'', hl, rfl, rfl, rfl⟩ := h
        obtain ⟨hb, ha'⟩ := ha.learn hl w (fun _ _ => rfl)
        exact ⟨_, ⟨_, hb, hr, rfl⟩, ha'⟩
    | insertRow k r =>
      simp only [Store.execIn] at h
      split at h
      · simp only [Option.some.injEq, Prod.mk.injEq] at h
        obtain ⟨rfl, rfl, rfl⟩ := h
        exact ⟨.none, rfl, .none _ _ (fun w hw => nomatch hw)⟩
      · rename_i hr
        simp only [Option.map_eq_some_iff, Prod.mk.injEq] at h
        obtain ⟨db'', hl, rfl, rfl, rfl⟩ := h
        obtain ⟨hb, ha'⟩ := ha.learn hl (w.write k r) (fun _ hk => Tx.write_rows_ne hk)
        rw [(Option.or_eq_none_iff.mp hr).2] at hb ha'
        exact ⟨_, ⟨hb, rfl⟩, ha'⟩
    | upsertRow k r f =>
      simp only [Store.execIn, Option.map_eq_some_iff, Prod.mk.injEq] at h
      obtain ⟨db'', hl, rfl, rfl, rfl⟩ := h
      obtain ⟨hb, ha'⟩ := ha.learn hl _ (fun _ hk => Tx.write_rows_ne hk)
      exact ⟨_, ⟨_, hb, rfl⟩, ha'⟩
  | aborted =>
    cases o <;> simp only [Store.exec, Option.some.injEq, Prod.mk.injEq] at h <;>
      obtain ⟨rfl, rfl, rfl⟩ := h
    case commit | rollback =>
      exact ⟨.none, .inr rfl, .none _ _ (fun w hw => nomatch hw)⟩
    all_goals exact ⟨.none, .inl rfl, .none _ _ (fun w hw => nomatch hw)⟩
  | _ =>
    cases o <;> simp only [Store.exec, Option.some.injEq, Prod.mk.injEq] at h <;>
      obtain ⟨rfl, rfl, rfl⟩ := h
    case begin =>
      exact ⟨.none, rfl, .none _ _ (fun w hw => (Status.active.inj hw).symm)⟩
    all_goals exact ⟨.none, rfl, .none _ _ (fun w hw => nomatch hw)⟩

/-! ## Invariants of the committed tables -/

/-- The committed tables satisfy `I`, and every session is on its way to keep it. -/
structure State.Inv (I : κ → Option ρ → List τ → Prop) (s : State κ ρ τ φ ε ι) : Prop where
  tables : ∀ k, I k (s.db.rows k) s.db.entries
  sessions : ∀ t, ∃ b, Agrees s.db t ((s.session t).status, b) ∧
    SafeProg I (s.session t).prog ((s.session t).status, b)

/-- One session moves on; the rows locked by the others stay as they are. -/
theorem State.Inv.move {I : κ → Option ρ → List τ → Prop} {s : State κ ρ τ φ ε ι}
    (h : s.Inv I) {t : ι} {db' : Store κ ρ τ ι} {z : Session κ ρ τ φ ε}
    (htables : ∀ k, I k (db'.rows k) db'.entries)
    (hself : ∃ b, Agrees db' t (z.status, b) ∧ SafeProg I z.prog (z.status, b))
    (hframe : ∀ t', t' ≠ t → ∀ k, s.db.locks k = some t' →
      db'.locks k = some t' ∧ db'.rows k = s.db.rows k) :
    State.Inv I ⟨db', Function.update s.session t z⟩ := by
  refine ⟨htables, fun t' => ?_⟩
  by_cases ht : t' = t
  · subst ht
    simpa only [Function.update_self] using hself
  · simp only [Function.update_of_ne ht]
    obtain ⟨b, ha, hsafe⟩ := h.sessions t'
    refine ⟨b, ⟨fun k r hr => ?_, ha.owned⟩, hsafe⟩
    obtain ⟨hl, hr'⟩ := ha.locked k r hr
    obtain ⟨hl', hrows⟩ := hframe t' ht k hl
    exact ⟨hl', hrows.trans hr'⟩

/-- What the program owes at its commit keeps the invariant in the tables. -/
theorem State.Inv.tables_exec {I : κ → Option ρ → List τ → Prop} {s : State κ ρ τ φ ε ι}
    (h : s.Inv I) {sat : φ → τ → Bool} {t : ι} {b : Base κ ρ} {o : Stmt κ ρ τ φ}
    {db' : Store κ ρ τ ι} {st' : Status κ ρ τ} {x : Except SqlError o.Answer}
    (ha : Agrees s.db t ((s.session t).status, b))
    (howes : Owes I ((s.session t).status, b) o)
    (he : s.db.exec sat t (s.session t).status o = some (db', st', x)) (k : κ) :
    I k (db'.rows k) db'.entries := by
  rcases exec_tables he with ⟨hr, hes⟩ | ⟨w, hst, rfl, -, rfl⟩
  · rw [hr, hes]; exact h.tables k
  · refine howes w b (by rw [hst]) k (s.db.rows k) s.db.entries ?_ (h.tables k)
    cases hb : b k with
    | none => exact .inl hb
    | some r => exact .inr (by rw [hb, (ha.locked k r hb).2])

/-- The step rule: requests whose programs are safe in isolation keep the invariant. -/
theorem State.Inv.step {I : κ → Option ρ → List τ → Prop} {sat : φ → τ → Bool}
    {prog : R → Prog (Sql κ ρ τ φ) ε Unit}
    (hprog : ∀ r, SafeProg I (prog r) (.idle, .none))
    {s s' : State κ ρ τ φ ε ι} {e : Event ι R} (h : s.Inv I)
    (hs : s.step sat prog e = some s') : s'.Inv I := by
  cases e with
  | start t r =>
    obtain rfl := step_start hs
    exact h.move h.tables ⟨.none, .none _ _ (fun w hw => nomatch hw), hprog r⟩
      fun _ _ _ hk => ⟨hk, rfl⟩
  | exec t out =>
    obtain ⟨b, ha, hsafe⟩ := h.sessions t
    simp only [State.step] at hs
    split at hs
    · cases hs
    · cases hs
    · rename_i o k hp
      rw [hp] at hsafe
      obtain ⟨howes, hnext⟩ := hsafe
      cases out with
      | done =>
        simp only [Option.map_eq_some_iff, Prod.exists] at hs
        obtain ⟨db', st', x, he, rfl⟩ := hs
        obtain ⟨b', hv, ha'⟩ := ha.exec he
        exact h.move (h.tables_exec ha howes he) ⟨b', ha', hnext x _ hv⟩
          fun t' ht k hk => ha.exec_frame he ht hk
      | fails =>
        cases hs
        refine h.move ?_ ⟨.none, .none _ _ ?_, hnext _ _ ?_⟩ ?_
        · cases hst : (s.session t).status <;> exact h.tables
        · cases hst : (s.session t).status <;> intro w hw <;> cases hw
        · cases hst : (s.session t).status with
          | active w => cases o <;> first | rfl | exact .inl rfl
          | aborted => exact .inl rfl
          | _ => cases o <;> rfl
        · intro t' ht k hk
          cases hst : (s.session t).status with
          | active w => exact ⟨release_locks_other ht hk, rfl⟩
          | _ => exact ⟨hk, rfl⟩
      | unacknowledged =>
        dsimp only at hs
        split at hs
        · rename_i k'
          simp only [Option.map_eq_some_iff, Prod.exists] at hs
          obtain ⟨db', st', x, he, rfl⟩ := hs
          obtain ⟨b', hv, ha'⟩ := ha.exec he
          refine h.move (h.tables_exec ha howes he) ⟨b', ha', hnext _ _ ?_⟩
            fun t' ht k hk => ha.exec_frame he ht hk
          cases hst : (s.session t).status with
          | active w =>
            rw [hst] at hv he
            simp only [Store.exec, Store.execIn, Option.some.injEq, Prod.mk.injEq] at he
            obtain ⟨-, rfl, rfl⟩ := he
            exact .inr hv
          | _ => rw [hst] at hv; exact hv
        · cases hs

/-! ## Failed transactions -/

/-- The committed tables are the same. -/
def Store.SameTables (db db' : Store κ ρ τ ι) : Prop :=
  db'.rows = db.rows ∧ db'.entries = db.entries

/-- The session's transaction was undone. -/
def Status.Failed : Status κ ρ τ → Prop
  | .aborted | .rolledBack => True
  | _ => False

/-- A step that respects failures: the tables change only when a transaction none of whose
    statements failed commits; a failing statement changes no table and undoes its
    transaction; and an undone transaction stays undone until the session's next request. -/
structure FailureKeepsTables (s s' : State κ ρ τ φ ε ι) (e : Event ι R) : Prop where
  commits : ¬ s.db.SameTables s'.db → ∃ t w, (s.session t).status = .active w ∧
    (s'.session t).status = .committed ∧ s'.db = (s.db.apply w).release t
  fails : ∀ t, e = .exec t .fails → s.db.SameTables s'.db ∧
    ∀ w, (s.session t).status = .active w → (s'.session t).status = .aborted
  stays : ∀ t, (s.session t).status.Failed → (∀ r, e ≠ .start t r) →
    (s'.session t).status.Failed

/-- A failed transaction is not taken up again by a program that opens only one. -/
theorem failed_exec {sat : φ → τ → Bool} {db db' : Store κ ρ τ ι} {t : ι}
    {st st' : Status κ ρ τ} {o : Stmt κ ρ τ φ} {x : Except SqlError o.Answer}
    (hst : st.Failed) (ho : o ≠ .begin) (h : db.exec sat t st o = some (db', st', x)) :
    st'.Failed := by
  cases st with
  | aborted | rolledBack =>
    cases o <;> simp only [Store.exec, Option.some.injEq, Prod.mk.injEq] at h
    case begin => exact absurd rfl ho
    all_goals (rw [← h.2.1]; trivial)
  | _ => exact absurd hst id

theorem State.Inv.failureKeepsTables {I : κ → Option ρ → List τ → Prop} {sat : φ → τ → Bool}
    {prog : R → Prog (Sql κ ρ τ φ) ε Unit} {s s' : State κ ρ τ φ ε ι} {e : Event ι R}
    (h : s.Inv I) (hs : s.step sat prog e = some s') : FailureKeepsTables s s' e := by
  cases e with
  | start t r =>
    obtain rfl := step_start hs
    refine ⟨fun hne => absurd ⟨rfl, rfl⟩ hne, fun _ he => (nomatch he), fun t' hf hne => ?_⟩
    have ht : t' ≠ t := fun ht => hne r (ht ▸ rfl)
    simpa only [Function.update_of_ne ht] using hf
  | exec t out =>
    obtain ⟨b, ha, hsafe⟩ := h.sessions t
    simp only [State.step] at hs
    split at hs
    · cases hs
    · cases hs
    · rename_i o k hp
      rw [hp] at hsafe
      have hbegin : (s.session t).status.Failed → o ≠ .begin := by
        rintro hf rfl
        obtain ⟨b', hb'⟩ := hsafe.1
        rw [Prod.mk.injEq] at hb'
        rw [hb'.1] at hf
        exact hf
      have hexec : ∀ {db' st' x z}, s.db.exec sat t (s.session t).status o = some (db', st', x) →
          out ≠ .fails →
          FailureKeepsTables s ⟨db', Function.update s.session t ⟨st', z⟩⟩
            (.exec t out : Event ι R) := by
        intro db' st' x z he hout
        refine ⟨fun hne => ?_, fun t' ht' => ?_, fun t' hf _ => ?_⟩
        · rcases exec_tables he with hsame | ⟨w, hst, -, hst', hdb⟩
          · exact absurd hsame hne
          · exact ⟨t, w, hst, by simp only [Function.update_self, hst'], hdb⟩
        · cases ht'
          exact absurd rfl hout
        · by_cases ht : t' = t
          · subst ht
            simp only [Function.update_self]
            exact failed_exec hf (hbegin hf) he
          · simpa only [Function.update_of_ne ht] using hf
      cases out with
      | done =>
        simp only [Option.map_eq_some_iff, Prod.exists] at hs
        obtain ⟨db', st', x, he, rfl⟩ := hs
        exact hexec he (fun h => nomatch h)
      | fails =>
        cases hs
        have hsame : s.db.SameTables (s.db.fail t (s.session t).status).1 := by
          cases (s.session t).status <;> exact ⟨rfl, rfl⟩
        refine ⟨fun hne => absurd hsame hne, fun t' ht' => ⟨hsame, fun w hw => ?_⟩,
          fun t' hf _ => ?_⟩
        · cases ht'
          simp only [Function.update_self, hw, Store.fail]
        · by_cases ht : t' = t
          · subst ht
            simp only [Function.update_self]
            cases hst : (s.session t').status with
            | active w => rw [hst] at hf; exact hf.elim
            | _ => rw [hst] at hf; exact hf
          · simpa only [Function.update_of_ne ht] using hf
      | unacknowledged =>
        dsimp only at hs
        split at hs
        · simp only [Option.map_eq_some_iff, Prod.exists] at hs
          obtain ⟨db', st', x, he, rfl⟩ := hs
          exact hexec he (fun h => nomatch h)
        · cases hs

/-- The run rule: programs that are safe in isolation keep the invariant of the tables in
    every state of every interleaving, and no step lets a failed transaction change them. -/
theorem conserved_of_safe {I : κ → Option ρ → List τ → Prop} {sat : φ → τ → Bool}
    {prog : R → Prog (Sql κ ρ τ φ) ε Unit}
    (hprog : ∀ r, SafeProg I (prog r) (.idle, .none))
    {s : State κ ρ τ φ ε ι} (h : s.Inv I) (es : List (Event ι R)) :
    Machine.Throughout (State.step sat prog) (fun s => ∀ k, I k (s.db.rows k) s.db.entries) s es ∧
      Machine.Meets (State.step sat prog)
        (fun s e => ∀ s', s.step sat prog e = some s' → FailureKeepsTables s s' e) s es := by
  have hstep : ∀ (s : State κ ρ τ φ ε ι) (e : Event ι R) s', s.Inv I →
      s.step sat prog e = some s' → s'.Inv I := fun s e s' h hs => h.step hprog hs
  exact ⟨(Machine.throughout_of_invariant hstep h).mono fun s h => h.tables,
    .of_invariant (fun s e s' h _ => hstep s e s' h)
      (fun s e h _ s' hs => h.failureKeepsTables hs) h
      (Machine.meets_of_mem (H := fun _ => True) fun _ _ => trivial)⟩

/-- The system before any request, over given tables. -/
def State.init (db : Store κ ρ τ ι) : State κ ρ τ φ ε ι := ⟨db, fun _ => ⟨.idle, .pure ()⟩⟩

omit [DecidableEq ι] in
theorem State.Inv.init {I : κ → Option ρ → List τ → Prop} {db : Store κ ρ τ ι}
    (h : ∀ k, I k (db.rows k) db.entries) : (State.init db : State κ ρ τ φ ε ι).Inv I :=
  ⟨h, fun _ => ⟨.none, .none _ _ (fun _ hw => nomatch hw), trivial⟩⟩

end ReadCommitted
