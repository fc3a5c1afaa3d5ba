import CallNet.ForStd.OrdMap

/-!
# The read cache of the web client

`web/app/lib/request-cache.ts`, with what `go-api.ts` and `api.ts` put on top of it: reads are
coalesced and kept for a while, and a write drops what it may have changed.  A request is under
way from its call until its `finally` has run; the server answers it somewhere in between, and
anything else may happen before the answer is stored.
-/

namespace CallNet.Web

/-! ## The cache -/

structure CacheEntry (D : Type) where
  ts : Int
  data : D
deriving DecidableEq, Repr

/-- The two maps of the module; a promise is known by its number. -/
structure RequestCache (D : Type) where
  cache : OrdMap String (CacheEntry D)
  inFlight : OrdMap String Nat

/-- Default freshness window for cached GET responses. -/
def DEFAULT_TTL : Int := 30000

/-- What a caller of `cachedGet` gets. -/
inductive Answer (D : Type) where
  | value (data : D)
  /-- The promise of a request that is under way. -/
  | pending (p : Nat)
  /-- The promise of a new request. -/
  | started (p : Nat)
deriving DecidableEq, Repr

namespace RequestCache

variable {D : Type}

def empty : RequestCache D := ⟨.empty, .empty⟩

/-- The fresh cached value of a key. -/
def hit (c : RequestCache D) (key : String) (ttl now : Int) : Option D :=
  if ttl > 0 then
    match c.cache.get? key with
    | some hit => if now - hit.ts < ttl then some hit.data else none
    | none => none
  else none

/-- Run the fetcher through the cache; it runs under the number `next`, if it has to. -/
def cachedGet (c : RequestCache D) (key : String) (ttl now : Int) (next : Nat) :
    Answer D × RequestCache D :=
  match c.hit key ttl now with
  | some data => (.value data, c)
  | none =>
    match c.inFlight.get? key with
    | some pending => (.pending pending, c)
    | none => (.started next, { c with inFlight := c.inFlight.set key next })

/-- What `then` does with the data. -/
def store (c : RequestCache D) (key : String) (ttl now : Int) (data : D) : RequestCache D :=
  if ttl > 0 then { c with cache := c.cache.set key ⟨now, data⟩ } else c

/-- What `finally` does. -/
def finish (c : RequestCache D) (key : String) : RequestCache D :=
  { c with inFlight := c.inFlight.delete key }

/-- Whether `invalidateCache` drops a key. -/
def dropped (start : Option String) (key : String) : Bool :=
  match start with
  | none => true
  | some start => start = "" || start.toList.isPrefixOf key.toList

/-- Drop cached responses: all of them, or those whose key begins so. -/
def invalidateCache (c : RequestCache D) (start : Option String) : RequestCache D :=
  { c with cache := c.cache.filter fun key _ => !dropped start key }

end RequestCache

/-! ## The clients -/

/-- The part of the cache that a write of the Go client drops. -/
def writeScope (endpoint : String) : Option String :=
  if "/auth".toList.isPrefixOf endpoint.toList then none
  else some ("g:/" ++
    String.ofList ((endpoint.toList.dropWhile (· = '/')).takeWhile (· ≠ '/')))

/-- Endpoints of the Node client that are never coalesced. -/
def NO_DEDUPE : List String := ["/metrics"]

/-- A call of one of the clients. -/
inductive Call where
  /-- `goRequest` with the method GET. -/
  | goGet (endpoint : String)
  /-- `request` of the Node client with the method GET. -/
  | nodeGet (endpoint : String)
deriving DecidableEq, Repr

/-- The key and the freshness window of a call, if it goes through the cache. -/
def Call.cached : Call → Option (String × Int)
  | .goGet endpoint => some ("g:" ++ endpoint, DEFAULT_TTL)
  | .nodeGet endpoint => if endpoint ∈ NO_DEDUPE then none else some ("n:" ++ endpoint, 0)

/-! ## The clients and the server -/

/-- How far a request has come. -/
inductive RequestStage (D : Type) where
  | sent
  /-- The server has answered, and the answer is on its way. -/
  | served (data : D)
  /-- `then` has run. -/
  | stored (data : D)
  /-- The request has failed; `then` does not run. -/
  | failed
  /-- `finally` has run. -/
  | finished
deriving DecidableEq, Repr

structure Request (D : Type) where
  key : String
  ttl : Int
  stage : RequestStage D
deriving DecidableEq, Repr

/-- A page and the server behind it, with what the server has held for a key since the page last
    dropped the key. -/
structure Page (D δ : Type) where
  db : δ
  cache : RequestCache D
  requests : List (Request D)
  since : String → List D

inductive PageEvent (δ : Type) where
  | get (call : Call) (now : Int)
  /-- The server answers a request. -/
  | serve (p : Nat)
  | fail (p : Nat)
  /-- The answer arrives. -/
  | arrive (p : Nat) (now : Int)
  | finish (p : Nat)
  /-- The server takes a write, of this page or of another one. -/
  | commit (db : δ)
  /-- The answer to a write of the Go client arrives. -/
  | written (endpoint : String)

namespace Page

variable {D δ : Type} (load : String → δ → D)

def init (db : δ) : Page D δ := ⟨db, .empty, [], fun key => [load key db]⟩

/-- The page with another stage of a request. -/
def setStage (s : Page D δ) (p : Nat) (stage : RequestStage D) : Page D δ :=
  { s with requests := s.requests.modify p fun r => { r with stage } }

def step (s : Page D δ) : PageEvent δ → Option (Page D δ)
  | .get call now =>
    match call.cached with
    -- the request goes to the network and is of no more interest here
    | none => some s
    | some (key, ttl) =>
      match s.cache.cachedGet key ttl now s.requests.length with
      | (.started _, cache) => some { s with cache, requests := s.requests ++ [⟨key, ttl, .sent⟩] }
      | (_, cache) => some { s with cache }
  | .serve p =>
    match s.requests[p]? with
    | some ⟨key, _, .sent⟩ => some (s.setStage p (.served (load key s.db)))
    | _ => none
  | .fail p =>
    match s.requests[p]? with
    | some ⟨_, _, .sent⟩ | some ⟨_, _, .served _⟩ => some (s.setStage p .failed)
    | _ => none
  | .arrive p now =>
    match s.requests[p]? with
    | some ⟨key, ttl, .served data⟩ =>
      some { s.setStage p (.stored data) with cache := s.cache.store key ttl now data }
    | _ => none
  | .finish p =>
    match s.requests[p]? with
    | some ⟨key, _, .stored _⟩ | some ⟨key, _, .failed⟩ =>
      some { s.setStage p .finished with cache := s.cache.finish key }
    | _ => none
  | .commit db => some { s with db, since := fun key => s.since key ++ [load key db] }
  | .written endpoint =>
    some { s with
      cache := s.cache.invalidateCache (writeScope endpoint)
      since := fun key =>
        if RequestCache.dropped (writeScope endpoint) key then [load key s.db] else s.since key }

end Page

end CallNet.Web
