import CallNet.ForStd.Machine
import CallNet.ForStd.OrdMap
import Mathlib.Data.List.Sort
import Mathlib.Data.String.Basic

/-!
# SQL migrations

`RunSQLMigrations` of `internal/database/migrate.go`, for any number of instances that boot on
one database.  Each database call is a step of its own.  A transaction is applied as a whole
when it commits; of its statements the database keeps the list.  An instance that crashes, or
whose call fails so that the boot ends with its error, loses its open transaction.
-/

namespace CallNet.SqlMigrations

structure DirEntry where
  name : String
  isDir : Bool
  content : String
deriving DecidableEq, Repr

/-- A directory; its entries have names of their own. -/
structure Dir where
  entries : List DirEntry
  distinct : (entries.map DirEntry.name).Nodup

/-- `filepath.Ext` -/
def ext (name : String) : List Char :=
  let reversed := name.toList.reverse
  let tail := reversed.takeWhile fun c => c ≠ '.' ∧ c ≠ '/'
  if (reversed.drop tail.length).head? = some '.' then '.' :: tail.reverse else []

/-- What `strings.EqualFold` takes a rune for, beside the letters of `.sql`. -/
def foldRune (c : Char) : Char := if c = '\u017f' then 's' else c.toLower

def isSqlFile (e : DirEntry) : Bool := !e.isDir && (ext e.name).map foldRune = ".sql".toList

/-- The files in the order of `sort.Strings`. -/
def Dir.files (dir : Dir) : List DirEntry :=
  (dir.entries.filter isSqlFile).insertionSort fun a b => a.name ≤ b.name

/-- `unicode.IsSpace` -/
def isSpace (c : Char) : Bool :=
  c ∈ ['\t', '\n', '\x0b', '\x0c', '\r', ' ', '\u0085', '\u00a0', '\u1680', '\u2028', '\u2029',
    '\u202f', '\u205f', '\u3000'] || ('\u2000' ≤ c && c ≤ '\u200a')

def trimSpace (s : List Char) : List Char :=
  ((s.dropWhile isSpace).reverse.dropWhile isSpace).reverse

/-- A SQL file as individual statements. -/
def splitStatements (sql : String) : List (List Char) :=
  let lines := (sql.toList.splitOn '\n').filter fun line =>
    !"--".toList.isPrefixOf (trimSpace line)
  ((lines.flatMap (· ++ ['\n'])).splitOn ';').filter fun part => trimSpace part ≠ []

/-- What the instances of one release share: the migrations directory, if there is one, and the
    checksum function. -/
structure Release where
  dir : Option Dir
  sha256Hex : String → String

def Release.files (r : Release) : List DirEntry := (r.dir.map Dir.files).getD []

structure Database where
  /-- `schema_migrations`, name to checksum, once the table exists. -/
  ledger : Option (OrdMap String String)
  /-- The committed transactions: the file of each and its statements. -/
  effects : List (String × List (List Char))

/-- The ledger row of a file. -/
def Database.row (db : Database) (name : String) : Option String :=
  db.ledger.bind fun ledger => ledger.get? name

/-- Where an instance is in `RunSQLMigrations`; a file is told by its place. -/
inductive Boot where
  /-- `ensureMigrationsTable` -/
  | ensuring
  /-- `migrationState` of a file -/
  | asking (file : Nat)
  /-- In the transaction of a file: the statements that were executed, and those that were not. -/
  | executing (file : Nat) (executed left : List (List Char))
  /-- The ledger row is written, unless there was one. -/
  | recorded (file : Nat) (executed : List (List Char)) (inserted : Bool)
  | done
  | failed
deriving DecidableEq, Repr

structure State where
  db : Database
  boots : List Boot

/-- An instance starts, takes its next database call, or comes to its end. -/
inductive Event where
  | boot
  | ensure (k : Nat)
  | ask (k : Nat)
  | exec (k : Nat)
  | record (k : Nat)
  | commit (k : Nat)
  /-- The instance crashes, or a call of it fails. -/
  | stop (k : Nat)
deriving DecidableEq, Repr

/-- The loop at a file, or past the last one. -/
def Release.enter (r : Release) (file : Nat) : Boot :=
  if file < r.files.length then .asking file else .done

/-- Another instance has the ledger row of the file written and not committed. -/
def State.heldByOther (s : State) (k file : Nat) : Bool :=
  s.boots.zipIdx.any fun
    | (.recorded file' _ true, k') => file' = file && k' ≠ k
    | _ => false

def State.setBoot (s : State) (k : Nat) (b : Boot) : State := { s with boots := s.boots.set k b }

def step (r : Release) (s : State) : Event → Option State
  | .boot => some { s with boots := s.boots ++ [if r.dir.isSome then .ensuring else .done] }
  | .ensure k =>
    match s.boots[k]? with
    | some .ensuring =>
      some ({ s with db := { s.db with ledger := some (s.db.ledger.getD .empty) } }.setBoot k
        (r.enter 0))
    | _ => none
  | .ask k =>
    match s.boots[k]? with
    | some (.asking file) => r.files[file]?.map fun f =>
      match s.db.row f.name with
      | some prev =>
        -- a file that changed after it was applied ends the boot
        s.setBoot k (if prev = r.sha256Hex f.content then r.enter (file + 1) else .failed)
      | none => s.setBoot k (.executing file [] (splitStatements f.content))
    | _ => none
  | .exec k =>
    match s.boots[k]? with
    | some (.executing file executed (stmt :: left)) =>
      some (s.setBoot k (.executing file (executed ++ [stmt]) left))
    | _ => none
  | .record k =>
    match s.boots[k]? with
    | some (.executing file executed []) => r.files[file]?.bind fun f =>
      -- the insert waits for the transaction that holds the row
      if s.heldByOther k file then none
      else some (s.setBoot k (.recorded file executed (s.db.row f.name).isNone))
    | _ => none
  | .commit k =>
    match s.boots[k]? with
    | some (.recorded file executed inserted) => r.files[file]?.map fun f =>
      let ledger := s.db.ledger.map fun ledger =>
        if inserted then ledger.set f.name (r.sha256Hex f.content) else ledger
      { s with db := { ledger := ledger, effects := s.db.effects ++ [(f.name, executed)] } }.setBoot
        k (r.enter (file + 1))
    | _ => none
  | .stop k =>
    match s.boots[k]? with
    | none | some .done | some .failed => none
    | some _ => some (s.setBoot k .failed)

/-- A database on which the first `n` files were applied. -/
def Database.upTo (r : Release) (n : Nat) : Database where
  ledger :=
    if n = 0 then none
    else some (.ofList ((r.files.take n).map fun f => (f.name, r.sha256Hex f.content)))
  effects := (r.files.take n).map fun f => (f.name, splitStatements f.content)

/-- No instance is running. -/
def start (r : Release) (n : Nat) : State := { db := .upTo r n, boots := [] }

end CallNet.SqlMigrations
