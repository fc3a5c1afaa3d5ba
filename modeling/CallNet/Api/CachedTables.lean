import CallNet.Api.SettingsCalls

/-!
# Requests on block lists and forwarding rules

`internal/service/block_service.go` and `forwarding_service.go` with their repositories, as one
machine: requests of any number take their repository and cache operations one after the other,
in any order.  Both services look the user up, write the repository and drop the cached view;
the reader of both fills the cache with what it read.  Repository operations may fail, and cache
operations succeed.
-/

namespace CallNet.Api

/-! ## Blocked numbers -/

inductive BlockWrite where
  | add (number : String)
  | remove (number : String)
deriving DecidableEq, Repr

namespace BlockRepo

def add (number : String) (numbers : List String) : List String := numbers ++ [number]

def remove (number : String) (numbers : List String) : List String :=
  numbers.filter fun n => n ≠ number

end BlockRepo

/-! ## Forwarding rules -/

inductive ForwardingType where
  | busy
  | noAnswer
  | unavailable
deriving DecidableEq, Repr

structure ForwardingRule where
  type : ForwardingType
  target : String
deriving DecidableEq, Repr

structure ForwardingResponse where
  busy : Option String := none
  noAnswer : Option String := none
  unavailable : Option String := none
deriving DecidableEq, Repr

namespace ForwardingRepo

def get (rules : List ForwardingRule) : ForwardingResponse :=
  rules.foldl (fun resp rule =>
    match rule.type with
    | .busy => { resp with busy := some rule.target }
    | .noAnswer => { resp with noAnswer := some rule.target }
    | .unavailable => { resp with unavailable := some rule.target }) {}

/-- An empty target removes the rule; there is one rule of each type. -/
def set (rule : ForwardingRule) (rules : List ForwardingRule) : List ForwardingRule :=
  if rule.target = "" then rules.filter fun r => r.type ≠ rule.type
  else if rules.any fun r => r.type = rule.type then
    rules.map fun r => if r.type = rule.type then { r with target := rule.target } else r
  else rules ++ [rule]

end ForwardingRepo

/-! ## The services -/

/-- A service before a table, with its writes, the rows of an extension and the cached view. -/
structure TableService (ω : Type) (ρ : Type) (ν : Type) where
  /-- The write begins with `GetByExtension` of the user. -/
  looksUpUser : ω → Bool
  write : ω → ρ → ρ
  response : ρ → ν

def blockService : TableService BlockWrite (List String) (List String) where
  looksUpUser := fun
    | .add _ => true
    | .remove _ => false
  write := fun
    | .add number => BlockRepo.add number
    | .remove number => BlockRepo.remove number
  response := id

def forwardingService : TableService ForwardingRule (List ForwardingRule) ForwardingResponse where
  looksUpUser := fun _ => true
  write := ForwardingRepo.set
  response := ForwardingRepo.get

inductive TableRequest (ω : Type) where
  | get
  | write (op : ω)

/-- The operation that a request awaits. -/
inductive TablePhase (ν : Type) where
  /-- `Get` of the cached view -/
  | looking
  /-- `Get` of the rows -/
  | reading
  /-- `GetByExtension` of the user -/
  | lookingUp
  /-- the write of the repository -/
  | writing
  /-- `Set` of the cached view, or `Del` -/
  | caching (content : Option ν)
  | returned (ok : Bool)

structure TableCall (ω : Type) (ν : Type) where
  extension : String
  request : TableRequest ω
  phase : TablePhase ν

structure TableSystem (ω : Type) (ρ : Type) (ν : Type) where
  users : String → Bool
  rows : String → ρ
  cached : String → Option ν
  calls : Nat → Option (TableCall ω ν)

inductive TableEvent (ω : Type) where
  | request (id : Nat) (extension : String) (request : TableRequest ω)
  | look (id : Nat)
  | read (id : Nat) (ok : Bool)
  | lookUser (id : Nat) (ok : Bool)
  | write (id : Nat) (ok : Bool)
  | cache (id : Nat)
  | cachedExpires (extension : String)

namespace TableSystem

variable {ω ρ ν : Type}

def init (users : String → Bool) (rows : String → ρ) : TableSystem ω ρ ν where
  users
  rows
  cached := fun _ => none
  calls := fun _ => none

def setPhase (s : TableSystem ω ρ ν) (id : Nat) (call : TableCall ω ν) (phase : TablePhase ν) :
    TableSystem ω ρ ν :=
  { s with calls := fun id' => if id' = id then some { call with phase } else s.calls id' }

/-- Where a request begins. -/
def begins (svc : TableService ω ρ ν) : TableRequest ω → TablePhase ν
  | .get => .looking
  | .write op => if svc.looksUpUser op then .lookingUp else .writing

def step (svc : TableService ω ρ ν) (s : TableSystem ω ρ ν) :
    TableEvent ω → Option (TableSystem ω ρ ν)
  | .request id extension request =>
    if (s.calls id).isSome then none
    else some (s.setPhase id ⟨extension, request, .looking⟩ (begins svc request))
  | .look id =>
    match s.calls id with
    | some ⟨ext, .get, .looking⟩ =>
      let phase := if (s.cached ext).isSome then .returned true else .reading
      some (s.setPhase id ⟨ext, .get, .looking⟩ phase)
    | _ => none
  | .read id ok =>
    match s.calls id with
    | some ⟨ext, .get, .reading⟩ =>
      let phase := if ok then .caching (some (svc.response (s.rows ext))) else .returned false
      some (s.setPhase id ⟨ext, .get, .reading⟩ phase)
    | _ => none
  | .lookUser id ok =>
    match s.calls id with
    | some ⟨ext, request, .lookingUp⟩ =>
      let phase := if ok ∧ s.users ext then .writing else .returned false
      some (s.setPhase id ⟨ext, request, .lookingUp⟩ phase)
    | _ => none
  | .write id ok =>
    match s.calls id with
    | some ⟨ext, .write op, .writing⟩ =>
      let call : TableCall ω ν := ⟨ext, .write op, .writing⟩
      if ok then
        some { s.setPhase id call (.caching none) with
          rows := fun ext' => if ext' = ext then svc.write op (s.rows ext) else s.rows ext' }
      else some (s.setPhase id call (.returned false))
    | _ => none
  | .cache id =>
    match s.calls id with
    | some ⟨ext, request, .caching content⟩ =>
      some { s.setPhase id ⟨ext, request, .caching content⟩ (.returned true) with
        cached := fun ext' => if ext' = ext then content else s.cached ext' }
    | _ => none
  | .cachedExpires ext =>
    some { s with cached := fun ext' => if ext' = ext then none else s.cached ext' }

end TableSystem

/-! ## The services together -/

/-- The services that keep a view of their tables in the cache, each under its own keys. -/
structure CachedServices where
  settings : SettingsSystem
  blocked : TableSystem BlockWrite (List String) (List String)
  forwarding : TableSystem ForwardingRule (List ForwardingRule) ForwardingResponse

inductive CachedEvent where
  | settings (e : SettingsEvent)
  | blocked (e : TableEvent BlockWrite)
  | forwarding (e : TableEvent ForwardingRule)

namespace CachedServices

def init (users : String → Bool) (settings : String → Option SettingsRow)
    (blocked : String → List String) (forwarding : String → List ForwardingRule) :
    CachedServices where
  settings := .init users settings
  blocked := .init users blocked
  forwarding := .init users forwarding

def step (twilio : Bool) (s : CachedServices) : CachedEvent → Option CachedServices
  | .settings e => (s.settings.step twilio e).map fun settings => { s with settings }
  | .blocked e => (s.blocked.step blockService e).map fun blocked => { s with blocked }
  | .forwarding e =>
    (s.forwarding.step forwardingService e).map fun forwarding => { s with forwarding }

end CachedServices

end CallNet.Api
