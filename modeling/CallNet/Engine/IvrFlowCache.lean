import Mathlib.Logic.Function.Basic
import CallNet.Engine.IvrFlow
import CallNet.ForStd.OrdMap

/-!
# IVR flows behind a shared cache

The flows that the API stores (`service/ivr_service.go`, `repository/ivr_repo.go`) and the
engine reads (`services/database.service.ts`): through a Redis cache that both programs
write, and by a set of extensions that the engine keeps in memory and updates when a change
of `ivr_flows` is notified (`services/postgres/ivr-notify.ts`).

A cache key is a hash of the extension, and a cached flow its JSON text; both are modelled by
what they stand for.  A flow's owner and times are left out.
-/

namespace CallNet

/-! ## The table -/

/-- The table `ivr_flows`, by id; its extensions are unique and not empty. -/
structure IvrFlowTable where
  rows : OrdMap String IvrFlowGraph
  unique : ∀ id id' r r', rows.get? id = some r → rows.get? id' = some r' →
    r.extension = r'.extension → id = id'
  nonempty : ∀ id r, rows.get? id = some r → r.extension ≠ ""

namespace IvrFlowTable

def empty : IvrFlowTable := ⟨.empty, nofun, nofun⟩

/-- No other flow has this extension. -/
def Free (t : IvrFlowTable) (row : IvrFlowGraph) : Prop :=
  ∀ e ∈ t.rows.entries, e.2.extension = row.extension → e.1 = row.id

instance (t : IvrFlowTable) (row : IvrFlowGraph) : Decidable (t.Free row) :=
  inferInstanceAs (Decidable (∀ e ∈ t.rows.entries, _))

theorem Free.get? {t : IvrFlowTable} {row : IvrFlowGraph} (h : t.Free row) {id : String}
    {r : IvrFlowGraph} (hget : t.rows.get? id = some r) (hext : r.extension = row.extension) :
    id = row.id := h (id, r) (OrdMap.mem_entries_iff.mpr hget) hext

/-- `Upsert`: insert the row, or update the one with its id. -/
def upsert (t : IvrFlowTable) (row : IvrFlowGraph) (hext : row.extension ≠ "")
    (hfree : t.Free row) : IvrFlowTable where
  rows := t.rows.set row.id row
  unique := by
    intro id id' r r' hget hget' heq
    rw [OrdMap.get?_set] at hget hget'
    split at hget <;> split at hget'
    · rename_i h h'
      rw [h, h']
    · rename_i h h'
      cases hget
      exact h.trans (hfree.get? hget' heq.symm).symm
    · rename_i h h'
      cases hget'
      exact (hfree.get? hget heq).trans h'.symm
    · exact t.unique id id' r r' hget hget' heq
  nonempty := by
    intro id r hget
    rw [OrdMap.get?_set] at hget
    split at hget
    · cases hget
      exact hext
    · exact t.nonempty id r hget

/-- `Delete` -/
def delete (t : IvrFlowTable) (id : String) : IvrFlowTable where
  rows := t.rows.delete id
  unique := by
    intro i i' r r' hget hget' heq
    rw [OrdMap.get?_delete] at hget hget'
    split at hget
    · cases hget
    · split at hget'
      · cases hget'
      · exact t.unique i i' r r' hget hget' heq
  nonempty := by
    intro i r hget
    rw [OrdMap.get?_delete] at hget
    split at hget
    · cases hget
    · exact t.nonempty i r hget

/-- The enabled flow of an extension. -/
def loadIvrFlowByExtension (t : IvrFlowTable) (extension : String) : Option IvrFlowGraph :=
  t.rows.values.find? fun r => r.extension = extension ∧ r.enabled

def loadEnabledIvrFlowExtensions (t : IvrFlowTable) : List String :=
  ((t.rows.values.filter IvrFlowGraph.enabled).map IvrFlowGraph.extension).filter (· ≠ "")

end IvrFlowTable

/-! ## Steps in flight -/

/-- A request to the API that has to delete a cache entry or a row yet. -/
inductive FlowRequest where
  /-- `Save` has stored its flow. -/
  | saved (extension : String)
  /-- `Delete` has read the extension of the flow. -/
  | deleting (id extension : String)
  /-- The cache entry is deleted, the row not yet. -/
  | dropped (id : String)
deriving DecidableEq, Repr

/-- The cache entry a request is going to delete. -/
def FlowRequest.drops : FlowRequest → Option String
  | .saved extension | .deleting _ extension => some extension
  | .dropped _ => none

/-- How far `syncIvrFlowExtension` has come. -/
inductive SyncPhase where
  | dropping
  | loading
  | loaded (flow : Option IvrFlowGraph)
deriving DecidableEq, Repr

structure FlowSync where
  extension : String
  phase : SyncPhase
deriving DecidableEq, Repr

/-- A `getIvrFlow` that missed the cache, and what it has read from the database. -/
structure FlowLookup where
  extension : String
  loaded : Option (Option IvrFlowGraph)
deriving DecidableEq, Repr

/-- The database, the cache, the engine's set and all that is in flight. -/
structure IvrFlowSystem where
  table : IvrFlowTable
  /-- A cached absence is the empty string in Redis. -/
  redis : String → Option (Option IvrFlowGraph)
  ivrFlowExtensions : List String
  /-- Sent, in this order, and not yet handled. -/
  notifications : List String
  requests : Nat → Option FlowRequest
  syncs : Nat → Option FlowSync
  lookups : Nat → Option FlowLookup

inductive IvrFlowEvent where
  /-- `Save` stores a flow; `row` is what the statement writes. -/
  | save (req : Nat) (row : IvrFlowGraph)
  /-- `Delete` looks the flow up. -/
  | delete (req : Nat) (id : String)
  /-- A request deletes its cache entry. -/
  | drop (req : Nat)
  /-- `Delete` deletes the row. -/
  | remove (req : Nat)
  /-- The next notification reaches the engine. -/
  | notified (id : Nat)
  | syncDrop (id : Nat)
  | syncLoad (id : Nat)
  | syncApply (id : Nat)
  /-- The database does not answer the sync. -/
  | syncFail (id : Nat)
  /-- A lookup finds nothing in the cache. -/
  | miss (id : Nat) (extension : String)
  | load (id : Nat)
  | fill (id : Nat)
  /-- The database does not answer the lookup. -/
  | fail (id : Nat)
  /-- A cache entry reaches its time to live. -/
  | expire (extension : String)

namespace IvrFlowSystem

/-- An engine that has just started; some flows and absences are in the cache. -/
def init (table : IvrFlowTable) (cached : String → Bool) : IvrFlowSystem where
  table
  redis := fun extension =>
    if cached extension then some (table.loadIvrFlowByExtension extension) else none
  ivrFlowExtensions := table.loadEnabledIvrFlowExtensions
  notifications := []
  requests := fun _ => none
  syncs := fun _ => none
  lookups := fun _ => none

def setRequest (s : IvrFlowSystem) (req : Nat) (r : Option FlowRequest) : IvrFlowSystem :=
  { s with requests := Function.update s.requests req r }

def setSync (s : IvrFlowSystem) (id : Nat) (sync : Option FlowSync) : IvrFlowSystem :=
  { s with syncs := Function.update s.syncs id sync }

def setLookup (s : IvrFlowSystem) (id : Nat) (l : Option FlowLookup) : IvrFlowSystem :=
  { s with lookups := Function.update s.lookups id l }

def setRedis (s : IvrFlowSystem) (extension : String) (entry : Option (Option IvrFlowGraph)) :
    IvrFlowSystem :=
  { s with redis := Function.update s.redis extension entry }

/-- The set after a sync has read the flow of an extension. -/
def applySync (s : IvrFlowSystem) (extension : String) (flow : Option IvrFlowGraph) :
    IvrFlowSystem :=
  { s with ivrFlowExtensions :=
      if flow.isSome then extension :: s.ivrFlowExtensions
      else s.ivrFlowExtensions.filter (· ≠ extension) }

def step (s : IvrFlowSystem) : IvrFlowEvent → Option IvrFlowSystem
  | .save req row =>
    if h : (s.requests req).isNone ∧ row.extension ≠ "" ∧ s.table.Free row then
      some ({ s with
              table := s.table.upsert row h.2.1 h.2.2
              notifications := s.notifications ++ [row.extension] }.setRequest req
                (some (.saved row.extension)))
    else none
  | .delete req id =>
    if (s.requests req).isNone then
      match s.table.rows.get? id with
      | some r => some (s.setRequest req (some (.deleting id r.extension)))
      | none => some (s.setRequest req (some (.dropped id)))
    else none
  | .drop req =>
    match s.requests req with
    | some (.saved extension) => some ((s.setRedis extension none).setRequest req none)
    | some (.deleting id extension) =>
      some ((s.setRedis extension none).setRequest req (some (.dropped id)))
    | _ => none
  | .remove req =>
    match s.requests req with
    | some (.dropped id) =>
      some ({ s with
              table := s.table.delete id
              notifications := s.notifications ++
                ((s.table.rows.get? id).map IvrFlowGraph.extension).toList }.setRequest req none)
    | _ => none
  | .notified id =>
    match s.syncs id, s.notifications with
    | none, extension :: rest =>
      some ({ s with notifications := rest }.setSync id (some ⟨extension, .dropping⟩))
    | _, _ => none
  | .syncDrop id =>
    match s.syncs id with
    | some ⟨extension, .dropping⟩ =>
      some ((s.setRedis extension none).setSync id (some ⟨extension, .loading⟩))
    | _ => none
  | .syncLoad id =>
    match s.syncs id with
    | some ⟨extension, .loading⟩ =>
      some (s.setSync id (some ⟨extension, .loaded (s.table.loadIvrFlowByExtension extension)⟩))
    | _ => none
  | .syncApply id =>
    match s.syncs id with
    | some ⟨extension, .loaded flow⟩ => some ((s.applySync extension flow).setSync id none)
    | _ => none
  | .syncFail id =>
    match s.syncs id with
    | some ⟨_, .loading⟩ => some (s.setSync id none)
    | _ => none
  | .miss id extension =>
    if (s.lookups id).isNone ∧ (s.redis extension).isNone then
      some (s.setLookup id (some ⟨extension, none⟩))
    else none
  | .load id =>
    match s.lookups id with
    | some ⟨extension, none⟩ =>
      some (s.setLookup id (some ⟨extension, some (s.table.loadIvrFlowByExtension extension)⟩))
    | _ => none
  | .fill id =>
    match s.lookups id with
    | some ⟨extension, some flow⟩ => some ((s.setRedis extension (some flow)).setLookup id none)
    | _ => none
  | .fail id =>
    match s.lookups id with
    | some ⟨_, none⟩ => some (s.setLookup id none)
    | _ => none
  | .expire extension => some (s.setRedis extension none)

/-- What `getIvrFlow` answers when nothing else happens meanwhile. -/
def getIvrFlow (s : IvrFlowSystem) (extension : String) : Option IvrFlowGraph :=
  match s.redis extension with
  | some cached => cached
  | none => s.table.loadIvrFlowByExtension extension

def isIvrFlowExtension (s : IvrFlowSystem) (extension : String) : Bool :=
  extension ∈ s.ivrFlowExtensions

end IvrFlowSystem

end CallNet
