import CallNet.Api.Saves

/-!
# Requests for IVR flows

`Save` and `Delete` of `handler/ivr_handler.go`, with any number of requests under way at
once: a request goes from one query of `repository/ivr_repo.go` to the next, and between two
of its queries others take place.  The cache of `service/ivr_service.go` is left out, with
the read that finds its entry; so are the other answers of the handler and the times of a
flow.
-/

namespace CallNet.Api

/-- `repo.Delete` -/
def Store.deleteFlow (s : Store) (id : String) : Store := { s with flows := s.flows.delete id }

/-- No other flow has this extension. -/
def Store.ExtensionFree (s : Store) (id extension : String) : Prop :=
  ∀ e ∈ s.flows.entries, e.2.extension = extension → e.1 = id

instance (s : Store) (id extension : String) : Decidable (s.ExtensionFree id extension) :=
  inferInstanceAs (Decidable (∀ e ∈ s.flows.entries, _))

namespace IvrHandler

/-- Who makes a request, by the claims of its token. -/
structure Caller where
  extension : String
  isAdmin : Bool
deriving DecidableEq, Repr

/-- `middleware.IsAdmin(c)` or the caller's own flow -/
def Caller.May (c : Caller) (flow : IvrFlow) : Prop :=
  c.isAdmin = true ∨ flow.ownerExtension = c.extension

instance (c : Caller) (flow : IvrFlow) : Decidable (c.May flow) :=
  inferInstanceAs (Decidable (_ ∨ _))

/-- How a request is answered. -/
inductive Answer where
  | badRequest
  | notFound
  | conflict (err : String)
  | internal
  | saved (id : String) (flow : IvrFlow)
  | deleted (id : String)
deriving DecidableEq, Repr

def Answer.status : Answer → Nat
  | .badRequest => 400
  | .notFound => 404
  | .conflict _ => 409
  | .internal => 500
  | .saved _ _ => 201
  | .deleted _ => 200

def Answer.message : Answer → String
  | .badRequest => "name and extension are required"
  | .notFound => "IVR flow not found"
  | .conflict err => "Failed to save IVR flow: " ++ err
  | .internal => "Failed to delete IVR flow"
  | .saved _ _ => "IVR flow saved"
  | .deleted _ => "IVR flow deleted"

/-- The query a request makes next. -/
inductive Stage where
  /-- `Save` reads the flow it is going to replace. -/
  | saving (id : String) (req : IvrFlowRequest)
  /-- `Save` stores its flow. -/
  | upserting (id : String) (flow : IvrFlow)
  /-- `Save` reads the flow again, for its times. -/
  | reloading (id : String) (flow : IvrFlow)
  /-- `Delete` reads the flow. -/
  | deleting (id : String)
  /-- `Delete` deletes the row. -/
  | removing (id : String)
  | answered (a : Answer)

structure Request where
  caller : Caller
  stage : Stage

/-- How a query turns out. -/
inductive Outcome where
  | done
  | fails (err : String)
  /-- The query takes effect but its answer does not arrive. -/
  | unacknowledged (err : String)
deriving DecidableEq, Repr

/-- What a read answers. -/
def Outcome.read (out : Outcome) (row : Option IvrFlow) : Except String (Option IvrFlow) :=
  match out with
  | .done => .ok row
  | .fails err | .unacknowledged err => .error err

/-- The flow a `Save` stores. -/
def flowOf (req : IvrFlowRequest) (owner : String) : IvrFlow where
  name := req.name
  extension := req.extension
  ownerExtension := owner
  enabled := req.enabled.getD true
  nodes := if req.nodes = "" then "[]" else req.nodes
  edges := if req.edges = "" then "[]" else req.edges

/-- `fmt.Sprintf("ivr_%d", time.Now().UnixNano())` -/
def newId (now : Nat) : String := "ivr_" ++ toString now

/-- `Save` as far as its first query; `param` is the id of the path, empty for `POST`. -/
def save (caller : Caller) (param : String) (req : IvrFlowRequest) (now : Nat) : Stage :=
  if req.name = "" ∨ req.extension = "" then .answered .badRequest
  else
    let id := if param ≠ "" then param else req.id
    if id ≠ "" then .saving id req
    else .upserting (newId now) (flowOf req caller.extension)

/-- `Save` after it has read the flow: any failed read counts as no flow. -/
def afterRead (caller : Caller) (id : String) (req : IvrFlowRequest) :
    Except String (Option IvrFlow) → Stage
  | .ok (some existing) =>
    if caller.May existing then .upserting id (flowOf req existing.ownerExtension)
    else .answered .notFound
  | .ok none | .error _ => .upserting id (flowOf req caller.extension)

/-- `Delete` after it has read the flow. -/
def afterDeleteRead (caller : Caller) (id : String) : Except String (Option IvrFlow) → Stage
  | .ok (some flow) => if caller.May flow then .removing id else .answered .notFound
  | .ok none => .answered .notFound
  | .error _ => .answered .internal

/-- The next query of a request; none when there is none, or it cannot turn out so. -/
def query (db : Store) (caller : Caller) : Stage → Outcome → Option (Store × Stage)
  | .saving id req, out => some (db, afterRead caller id req (out.read (db.getFlow id)))
  | .upserting id flow, out =>
    match out with
    | .fails err => some (db, .answered (.conflict err))
    | .done =>
      if db.ExtensionFree id flow.extension then
        some (db.upsertFlow id flow, .reloading id flow)
      else none
    | .unacknowledged err =>
      if db.ExtensionFree id flow.extension then
        some (db.upsertFlow id flow, .answered (.conflict err))
      else none
  | .reloading id flow, out =>
    match out.read (db.getFlow id) with
    | .ok (some saved) => some (db, .answered (.saved id saved))
    | .ok none | .error _ => some (db, .answered (.saved id flow))
  | .deleting id, out => some (db, afterDeleteRead caller id (out.read (db.getFlow id)))
  | .removing id, out =>
    match out with
    | .fails _ => some (db, .answered .internal)
    | .done => some (db.deleteFlow id, .answered (.deleted id))
    | .unacknowledged _ => some (db.deleteFlow id, .answered .internal)
  | .answered _, _ => none

/-- The stored rows, and every request there was. -/
structure State where
  db : Store
  requests : List Request

inductive Event where
  /-- A `Save` arrives; the clock shows `now`. -/
  | save (caller : Caller) (param : String) (req : IvrFlowRequest) (now : Nat)
  | delete (caller : Caller) (id : String)
  /-- A request makes its next query. -/
  | next (k : Nat) (out : Outcome)

namespace State

/-- No request yet. -/
def init (db : Store) : State := ⟨db, []⟩

def start (s : State) (r : Request) : State := { s with requests := s.requests ++ [r] }

def step (s : State) : Event → Option State
  | .save caller param req now => some (s.start ⟨caller, IvrHandler.save caller param req now⟩)
  | .delete caller id => some (s.start ⟨caller, .deleting id⟩)
  | .next k out =>
    match s.requests[k]? with
    | some r =>
      (query s.db r.caller r.stage out).map fun (db, stage) =>
        ⟨db, s.requests.set k { r with stage }⟩
    | none => none

end State

end IvrHandler

end CallNet.Api
