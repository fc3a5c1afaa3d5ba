import CallNet.Engine.ApiKeyService

/-!
# The lists of an API key

A key is good only for the pages and the client addresses on its lists.  A key in dev mode skips
both lists for a request from this machine, and takes the `Origin` header, which any client
writes itself, as a sign of one.
-/

namespace CallNet.ApiKeyService

/-! ## The lists -/

section Lists

variable {rt : Runtime} {parseUrl : String → Option ParsedUrl}

/-- The origin is that of an entry of the list. -/
def OriginListed (rt : Runtime) (parseUrl : String → Option ParsedUrl) (allowed : List String)
    (origin : Option String) : Prop :=
  ∃ o, origin = some o ∧ o ≠ "" ∧
    ∃ a ∈ allowed, normalizeOrigin rt parseUrl a = normalizeOrigin rt parseUrl o

/-- An entry of the list covers the address; an empty list covers every address. -/
def IpListed (rt : Runtime) (allowed : List String) (ip : String) : Prop :=
  allowed = [] ∨ ip ≠ "" ∧ ∃ entry ∈ allowed, ipMatches rt entry ip = true

theorem originAllowed_iff {allowed : List String} {origin : Option String} :
    originAllowed rt parseUrl allowed origin = true ↔ OriginListed rt parseUrl allowed origin := by
  unfold originAllowed OriginListed
  split
  · constructor
    · intro h
      cases h
    · rintro ⟨o, ho, _⟩
      cases ho
  · constructor
    · intro h
      cases h
    · rintro ⟨o, ho, hne, _⟩
      exact absurd (Option.some.inj ho).symm hne
  · rename_i o hne
    rw [List.any_eq_true]
    constructor
    · rintro ⟨a, hmem, ha⟩
      exact ⟨o, rfl, fun h => hne h, a, hmem, of_decide_eq_true ha⟩
    · rintro ⟨o', ho, _, a, hmem, ha⟩
      obtain rfl := Option.some.inj ho
      exact ⟨a, hmem, decide_eq_true ha⟩

theorem ipAllowed_iff {allowed : List String} {ip : String} :
    ipAllowed rt allowed ip = true ↔ IpListed rt allowed ip := by
  unfold ipAllowed IpListed
  by_cases hallowed : allowed = []
  · rw [if_pos hallowed]
    exact iff_of_true rfl (.inl hallowed)
  · by_cases hip : ip = ""
    · rw [if_neg hallowed, if_pos hip]
      exact iff_of_false Bool.false_ne_true fun h =>
        h.elim hallowed fun hlisted => hlisted.1 hip
    · rw [if_neg hallowed, if_neg hip, List.any_eq_true]
      constructor
      · exact fun h => .inr ⟨hip, h⟩
      · exact fun h => h.elim (absurd · hallowed) And.right

end Lists

/-! ## What validation lets through -/

/-- A request, as far as validation looks at it. -/
structure KeyRequest where
  origin : Option String
  ip : String
deriving DecidableEq, Repr

section Requests

variable (rt : Runtime) (parseUrl : String → Option ParsedUrl) (counters : DayCounters)
  (today : String) (key : ResolvedApiKey) (req : KeyRequest)

/-- The request is from a page and from an address of the key's lists. -/
def Listed : Prop :=
  OriginListed rt parseUrl key.allowedOrigins req.origin ∧ IpListed rt key.allowedIps req.ip

/-- The request passes as one from this machine. -/
def Bypasses : Prop := key.devMode = true ∧ isLocalRequest rt parseUrl req.origin req.ip = true

/-- The key can be used today. -/
def Usable : Prop := key.active = true ∧ capReached counters today key = false

/-- What validation accepts. -/
theorem validate_ok_iff :
    (∃ k, validate rt parseUrl counters today (some key) req.origin req.ip = .ok k) ↔
      Usable counters today key ∧ (Bypasses rt parseUrl key req ∨ Listed rt parseUrl key req) := by
  unfold validate Usable Bypasses Listed
  rw [← originAllowed_iff, ← ipAllowed_iff]
  dsimp only
  cases key.active
  · simp
  · cases key.devMode <;> cases isLocalRequest rt parseUrl req.origin req.ip <;>
      cases originAllowed rt parseUrl key.allowedOrigins req.origin <;>
      cases ipAllowed rt key.allowedIps req.ip <;>
      cases capReached counters today key <;> simp

/-- An accepted request is on the lists. -/
def AcceptsOnlyListed : Prop :=
  (∃ k, validate rt parseUrl counters today (some key) req.origin req.ip = .ok k) →
    Listed rt parseUrl key req

variable {rt parseUrl counters today key req}

/-- Outside dev mode no header replaces the lists. -/
theorem acceptsOnlyListed_of_not_devMode (hdev : key.devMode = false) :
    AcceptsOnlyListed rt parseUrl counters today key req := by
  intro hok
  obtain ⟨_, hbypass | hlisted⟩ := (validate_ok_iff rt parseUrl counters today key req).mp hok
  · rw [hbypass.1] at hdev
    cases hdev
  · exact hlisted

/-- From a remote address the `Origin` header alone decides. -/
theorem bypasses_iff_of_remote (hremote : loopbackIp req.ip = false) :
    Bypasses rt parseUrl key req ↔
      key.devMode = true ∧ localOrigin rt parseUrl req.origin = true := by
  unfold Bypasses isLocalRequest
  rw [hremote, Bool.false_or]

/-- For a remote client the lists hold exactly where a key in dev mode that can be used today is
    not shown a local `Origin` by a client that is not on them. -/
theorem acceptsOnlyListed_iff (hremote : loopbackIp req.ip = false) :
    AcceptsOnlyListed rt parseUrl counters today key req ↔
      (Usable counters today key ∧ key.devMode = true ∧
          localOrigin rt parseUrl req.origin = true →
        Listed rt parseUrl key req) := by
  unfold AcceptsOnlyListed
  rw [validate_ok_iff, bypasses_iff_of_remote hremote]
  constructor
  · rintro h ⟨husable, hlocal⟩
    exact h ⟨husable, .inl hlocal⟩
  · rintro h ⟨husable, hlocal | hlisted⟩
    · exact h ⟨husable, hlocal⟩
    · exact hlisted

end Requests

/-! ## A forged header -/

/-- A key in dev mode for one page and one address. -/
def devKey : ResolvedApiKey :=
  { id := 1
    owner := "1001"
    allowedOrigins := ["https://shop.example"]
    allowedIps := ["198.51.100.7"]
    destination := "+14155550123"
    callerId := ""
    routeType := .trunk
    dailyCap := 0
    devMode := true
    active := true }

/-- The URLs of the example. -/
def exampleUrl (s : String) : Option ParsedUrl :=
  if s = "http://localhost" then some ⟨"http:", "localhost", "localhost"⟩
  else if s = "https://shop.example" then some ⟨"https:", "shop.example", "shop.example"⟩
  else none

def exampleRuntime : Runtime := ⟨fun _ => none, fun _ _ _ => none, fun _ => none, id⟩

/-- A remote client writes `Origin: http://localhost`. -/
def forged : KeyRequest := ⟨some "http://localhost", "203.0.113.9"⟩

/-- The forged header skips both lists. -/
theorem not_acceptsOnlyListed_forged : loopbackIp forged.ip = false ∧
    ¬AcceptsOnlyListed exampleRuntime exampleUrl .empty "2025-01-01" devKey forged := by
  refine ⟨by decide +kernel, fun h => ?_⟩
  have hok : validate exampleRuntime exampleUrl .empty "2025-01-01" (some devKey) forged.origin
      forged.ip = .ok devKey := by
    rfl
  obtain ⟨hlisted, _⟩ := h ⟨devKey, hok⟩
  rw [← originAllowed_iff] at hlisted
  revert hlisted
  decide +kernel

/-- A header that names no local host puts the key back on its lists. -/
theorem acceptsOnlyListed_foreign :
    AcceptsOnlyListed exampleRuntime exampleUrl .empty "2025-01-01" devKey
      ⟨some "https://shop.example", "198.51.100.7"⟩ :=
  (acceptsOnlyListed_iff (by decide +kernel)).mpr fun h => absurd h.2.2 (by decide +kernel)

end CallNet.ApiKeyService
