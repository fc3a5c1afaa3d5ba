import CallNet.ForStd.Machine
import CallNet.Web.RequestCache

/-!
# What the web client reads

Reads of one key share a request, and a write makes the client drop what it may have changed.
An answer is fresh when the server held it at the last time the client dropped the key, or later.

- `coalesced_throughout`: no two requests of one key are under way, and those who ask meanwhile
  share the one that is
- `answers_fresh_throughout_iff`: all answers are fresh exactly when no write is acknowledged
  while an older answer to a read of its family is on its way
-/

namespace CallNet.Web

variable {D δ : Type} {load : String → δ → D}

/-- The data that a request holds for those who wait for it. -/
def RequestStage.data? : RequestStage D → Option D
  | .served d | .stored d => some d
  | _ => none

/-- A write drops the reads of its family: those whose path has the same first segment. -/
theorem dropped_family {family rest rest' : String} (hne : family ≠ "")
    (hfamily : '/' ∉ family.toList) (hrest : rest.toList = [] ∨ ∃ cs, rest.toList = '/' :: cs) :
    RequestCache.dropped (writeScope ("/" ++ family ++ rest)) ("g:/" ++ family ++ rest') =
      true := by
  unfold writeScope
  split
  · rfl
  · have hkept : ∀ c ∈ family.toList, decide (c ≠ '/') = true := by
      intro c hc
      have hother : c ≠ '/' := fun heq => hfamily (heq ▸ hc)
      simpa using hother
    have hdrop : (("/" ++ family ++ rest).toList.dropWhile (· = '/')) =
        family.toList ++ rest.toList := by
      cases hlist : family.toList with
      | nil => exact absurd (String.toList_inj.mp hlist) hne
      | cons c cs =>
        have hother := hkept c (hlist ▸ List.mem_cons_self)
        have hslash : "/".toList = ['/'] := rfl
        rw [String.toList_append, String.toList_append, hlist, hslash]
        simp at hother
        simp [hother]
    have hsegment : ((("/" ++ family ++ rest).toList.dropWhile (· = '/')).takeWhile (· ≠ '/')) =
        family.toList := by
      rw [hdrop, List.takeWhile_append_of_pos hkept]
      obtain hnil | ⟨cs, hcons⟩ := hrest
      · simp [hnil]
      · simp [hcons]
    rw [hsegment, String.ofList_toList]
    simp [RequestCache.dropped]

namespace Page

/-! ## Requests under way -/

/-- The promises in the map are those of the requests that are under way. -/
structure Coherent (s : Page D δ) : Prop where
  inFlight : ∀ (key : String) (p : Nat), s.cache.inFlight.get? key = some p ↔
    ∃ r, s.requests[p]? = some r ∧ r.key = key ∧ r.stage ≠ .finished
  called : ∀ (p : Nat) (r : Request D), s.requests[p]? = some r →
    ∃ call : Call, call.cached = some (r.key, r.ttl)

/-- No two requests of one key are under way, and whoever asks for the key of one that is gets its
    promise, unless a fresh value is kept. -/
structure Coalesced (s : Page D δ) : Prop where
  one : ∀ (p p' : Nat) (r r' : Request D), s.requests[p]? = some r → s.requests[p']? = some r' →
    r.stage ≠ .finished → r'.stage ≠ .finished → r.key = r'.key → p = p'
  shared : ∀ (p : Nat) (r : Request D) (ttl now : Int), s.requests[p]? = some r →
    r.stage ≠ .finished → s.cache.hit r.key ttl now = none →
      s.cache.cachedGet r.key ttl now s.requests.length = (.pending p, s.cache)

theorem cachedGet_pending {c : RequestCache D} {key : String} {ttl now : Int} {p next : Nat}
    (hhit : c.hit key ttl now = none) (hp : c.inFlight.get? key = some p) :
    c.cachedGet key ttl now next = (.pending p, c) := by
  unfold RequestCache.cachedGet
  rw [hhit]
  dsimp only
  rw [hp]

theorem Coherent.coalesced {s : Page D δ} (h : s.Coherent) : s.Coalesced where
  one p p' r r' hr hr' hopen hopen' hkey := by
    have hp := (h.inFlight r.key p).mpr ⟨r, hr, rfl, hopen⟩
    have hp' := (h.inFlight r.key p').mpr ⟨r', hr', hkey.symm, hopen'⟩
    exact Option.some.inj (hp.symm.trans hp')
  shared p r ttl now hr hopen hhit :=
    cachedGet_pending hhit ((h.inFlight r.key p).mpr ⟨r, hr, rfl, hopen⟩)

theorem getElem?_setStage {s : Page D δ} {p q : Nat} {stage : RequestStage D} {r' : Request D}
    (h : (s.setStage p stage).requests[q]? = some r') :
    ∃ r, s.requests[q]? = some r ∧ r' = if q = p then { r with stage } else r := by
  have hmodify : (s.setStage p stage).requests[q]? =
      s.requests[q]?.map fun r => if q = p then { r with stage } else r := by
    rw [setStage, List.getElem?_modify]
    cases s.requests[q]? <;> simp [eq_comm]
  rw [hmodify] at h
  obtain ⟨r, hr, heq⟩ := Option.map_eq_some_iff.mp h
  exact ⟨r, hr, heq.symm⟩

theorem getElem?_setStage_of {s : Page D δ} {p q : Nat} {stage : RequestStage D} {r : Request D}
    (h : s.requests[q]? = some r) :
    (s.setStage p stage).requests[q]? = some (if q = p then { r with stage } else r) := by
  rw [setStage, List.getElem?_modify, h]
  by_cases hq : p = q <;> simp [hq, eq_comm]

theorem Coherent.called_setStage {s : Page D δ} (h : s.Coherent) {p q : Nat}
    {stage : RequestStage D} {r' : Request D}
    (hr' : (s.setStage p stage).requests[q]? = some r') :
    ∃ call : Call, call.cached = some (r'.key, r'.ttl) := by
  obtain ⟨r, hr, rfl⟩ := getElem?_setStage hr'
  obtain ⟨call, hcall⟩ := h.called q r hr
  refine ⟨call, hcall.trans ?_⟩
  split <;> rfl

/-- A request that goes on is under way as before. -/
theorem Coherent.setStage {s : Page D δ} (h : s.Coherent) {p : Nat} {r : Request D}
    (hr : s.requests[p]? = some r) (hopen : r.stage ≠ .finished) {stage : RequestStage D}
    (hstage : stage ≠ .finished) : (s.setStage p stage).Coherent where
  inFlight key q := by
    refine (h.inFlight key q).trans ?_
    constructor
    · rintro ⟨r', hr', hkey, hopen'⟩
      refine ⟨_, getElem?_setStage_of hr', ?_, ?_⟩
      · split <;> exact hkey
      · split
        · exact hstage
        · exact hopen'
    · rintro ⟨r', hr', hkey, hopen'⟩
      obtain ⟨r₀, hr₀, rfl⟩ := getElem?_setStage hr'
      by_cases hq : q = p
      · subst hq
        obtain rfl := Option.some.inj (hr.symm.trans hr₀)
        rw [if_pos rfl] at hkey
        exact ⟨r, hr, hkey, hopen⟩
      · rw [if_neg hq] at hkey hopen'
        exact ⟨r₀, hr₀, hkey, hopen'⟩
  called q r' hr' := h.called_setStage hr'

/-- A request that has ended leaves the map, and with it no other one. -/
theorem Coherent.finish {s : Page D δ} (h : s.Coherent) {p : Nat} {r : Request D}
    (hr : s.requests[p]? = some r) (hopen : r.stage ≠ .finished) :
    Coherent { s.setStage p .finished with cache := s.cache.finish r.key } where
  inFlight key q := by
    show (s.cache.inFlight.delete r.key).get? key = some q ↔ _
    rw [OrdMap.get?_delete]
    constructor
    · intro hq
      split at hq
      · exact nomatch hq
      · rename_i hne
        obtain ⟨r', hr', hkey, hopen'⟩ := (h.inFlight key q).mp hq
        have hqp : q ≠ p := by
          rintro rfl
          obtain rfl := Option.some.inj (hr.symm.trans hr')
          exact hne hkey.symm
        refine ⟨_, getElem?_setStage_of hr', ?_, ?_⟩
        · rw [if_neg hqp, hkey]
        · rw [if_neg hqp]
          exact hopen'
    · rintro ⟨r', hr', hkey, hopen'⟩
      obtain ⟨r₀, hr₀, rfl⟩ := getElem?_setStage hr'
      have hqp : q ≠ p := by
        rintro rfl
        rw [if_pos rfl] at hopen'
        exact hopen' rfl
      rw [if_neg hqp] at hkey hopen'
      -- another request of this key would be this one
      have hne : key ≠ r.key := fun heq =>
        hqp (h.coalesced.one q p r₀ r hr₀ hr hopen' hopen (hkey.trans heq))
      rw [if_neg hne]
      exact (h.inFlight key q).mpr ⟨r₀, hr₀, hkey, hopen'⟩
  called q r' hr' := h.called_setStage hr'

/-- A new request is the only one of its key. -/
theorem Coherent.start {s : Page D δ} (h : s.Coherent) {call : Call} {key : String} {ttl : Int}
    (hcall : call.cached = some (key, ttl)) (hnone : s.cache.inFlight.get? key = none) :
    Coherent
      { s with
        cache := { s.cache with inFlight := s.cache.inFlight.set key s.requests.length }
        requests := s.requests ++ [⟨key, ttl, .sent⟩] } where
  inFlight key' q := by
    show (s.cache.inFlight.set key s.requests.length).get? key' = some q ↔ _
    rw [OrdMap.get?_set]
    constructor
    · intro hq
      split at hq
      · rename_i heq
        obtain rfl := Option.some.inj hq
        exact ⟨⟨key, ttl, .sent⟩, by simp, heq.symm, by simp⟩
      · obtain ⟨r, hr, hkey, hopen⟩ := (h.inFlight key' q).mp hq
        exact ⟨r, List.getElem?_append_left (List.getElem?_eq_some_iff.mp hr).1 ▸ hr, hkey, hopen⟩
    · rintro ⟨r, hr, hkey, hopen⟩
      by_cases hlt : q < s.requests.length
      · rw [List.getElem?_append_left hlt] at hr
        -- an older request of the key would be in the map
        have hold := (h.inFlight key' q).mpr ⟨r, hr, hkey, hopen⟩
        have hne : key' ≠ key := by
          rintro rfl
          exact nomatch hold.symm.trans hnone
        rw [if_neg hne, hold]
      · rw [List.getElem?_append_right (by omega)] at hr
        have hq : q = s.requests.length := by
          have := (List.getElem?_eq_some_iff.mp hr).1
          simp at this
          omega
        subst hq
        simp at hr
        subst hr
        rw [if_pos hkey.symm]
  called q r hr := by
    by_cases hlt : q < s.requests.length
    · rw [List.getElem?_append_left hlt] at hr
      exact h.called q r hr
    · rw [List.getElem?_append_right (by omega)] at hr
      obtain rfl := List.mem_singleton.mp (List.mem_of_getElem? hr)
      exact ⟨call, hcall⟩

/-! ## Steps -/

theorem cachedGet_cases (c : RequestCache D) (key : String) (ttl now : Int) (next : Nat) :
    (∃ data, c.hit key ttl now = some data ∧ c.cachedGet key ttl now next = (.value data, c)) ∨
      (∃ p, c.inFlight.get? key = some p ∧ c.cachedGet key ttl now next = (.pending p, c)) ∨
      c.inFlight.get? key = none ∧ c.cachedGet key ttl now next =
        (.started next, { c with inFlight := c.inFlight.set key next }) := by
  unfold RequestCache.cachedGet
  cases hhit : c.hit key ttl now with
  | some data => exact .inl ⟨data, rfl, rfl⟩
  | none =>
    cases hpending : c.inFlight.get? key with
    | some p => exact .inr (.inl ⟨p, rfl, rfl⟩)
    | none => exact .inr (.inr ⟨rfl, rfl⟩)

section

attribute [local simp] step

/-- A read changes nothing, or it starts the only request of its key. -/
theorem get_cases {s s' : Page D δ} {call : Call} {now : Int}
    (h : step load s (.get call now) = some s') :
    s' = s ∨ ∃ key ttl, call.cached = some (key, ttl) ∧ s.cache.inFlight.get? key = none ∧
      s' = { s with
        cache := { s.cache with inFlight := s.cache.inFlight.set key s.requests.length }
        requests := s.requests ++ [⟨key, ttl, .sent⟩] } := by
  cases hcall : call.cached with
  | none => simp [hcall] at h; exact .inl h.symm
  | some cached =>
    obtain ⟨key, ttl⟩ := cached
    obtain ⟨_, _, hget⟩ | ⟨_, _, hget⟩ | ⟨hnone, hget⟩ :=
      cachedGet_cases s.cache key ttl now s.requests.length
    · simp [hcall, hget] at h; exact .inl h.symm
    · simp [hcall, hget] at h; exact .inl h.symm
    · simp [hcall, hget] at h; exact .inr ⟨key, ttl, rfl, hnone, h.symm⟩

theorem serve_cases {s s' : Page D δ} {p : Nat} (h : step load s (.serve p) = some s') :
    ∃ key ttl, s.requests[p]? = some ⟨key, ttl, .sent⟩ ∧
      s' = s.setStage p (.served (load key s.db)) := by
  simp at h
  split at h
  · exact ⟨_, _, ‹_›, (Option.some.inj h).symm⟩
  · exact nomatch h

theorem fail_cases {s s' : Page D δ} {p : Nat} (h : step load s (.fail p) = some s') :
    ∃ r, s.requests[p]? = some r ∧ r.stage ≠ .finished ∧ s' = s.setStage p .failed := by
  simp at h
  split at h
  · exact ⟨_, ‹_›, by simp, (Option.some.inj h).symm⟩
  · exact ⟨_, ‹_›, by simp, (Option.some.inj h).symm⟩
  · exact nomatch h

theorem arrive_cases {s s' : Page D δ} {p : Nat} {now : Int}
    (h : step load s (.arrive p now) = some s') :
    ∃ key ttl data, s.requests[p]? = some ⟨key, ttl, .served data⟩ ∧
      s' = { s.setStage p (.stored data) with cache := s.cache.store key ttl now data } := by
  simp at h
  split at h
  · exact ⟨_, _, _, ‹_›, (Option.some.inj h).symm⟩
  · exact nomatch h

theorem finish_cases {s s' : Page D δ} {p : Nat} (h : step load s (.finish p) = some s') :
    ∃ r, s.requests[p]? = some r ∧ r.stage ≠ .finished ∧
      s' = { s.setStage p .finished with cache := s.cache.finish r.key } := by
  simp at h
  split at h
  · exact ⟨_, ‹_›, by simp, (Option.some.inj h).symm⟩
  · exact ⟨_, ‹_›, by simp, (Option.some.inj h).symm⟩
  · exact nomatch h

end

theorem Coherent.of_inFlight {s s' : Page D δ} (h : s.Coherent)
    (hmap : s'.cache.inFlight = s.cache.inFlight) (hrequests : s'.requests = s.requests) :
    s'.Coherent := by
  constructor
  · rw [hmap, hrequests]
    exact h.inFlight
  · rw [hrequests]
    exact h.called

theorem store_inFlight (c : RequestCache D) (key : String) (ttl now : Int) (data : D) :
    (c.store key ttl now data).inFlight = c.inFlight := by
  unfold RequestCache.store
  split <;> rfl

theorem Coherent.step {s s' : Page D δ} {e : PageEvent δ} (h : s.Coherent)
    (hs : step load s e = some s') : s'.Coherent := by
  cases e with
  | get call now =>
    obtain rfl | ⟨key, ttl, hcall, hnone, rfl⟩ := get_cases hs
    · exact h
    · exact h.start hcall hnone
  | serve p =>
    obtain ⟨key, ttl, hr, rfl⟩ := serve_cases hs
    exact h.setStage hr (by simp) (by simp)
  | fail p =>
    obtain ⟨r, hr, hopen, rfl⟩ := fail_cases hs
    exact h.setStage hr hopen (by simp)
  | arrive p now =>
    obtain ⟨key, ttl, data, hr, rfl⟩ := arrive_cases hs
    have hstored : (s.setStage p (.stored data)).Coherent := h.setStage hr (by simp) (by simp)
    exact hstored.of_inFlight (store_inFlight ..) rfl
  | finish p =>
    obtain ⟨r, hr, hopen, rfl⟩ := finish_cases hs
    exact h.finish hr hopen
  | commit db =>
    obtain rfl := Option.some.inj hs
    exact h.of_inFlight rfl rfl
  | written endpoint =>
    obtain rfl := Option.some.inj hs
    exact h.of_inFlight rfl rfl

theorem coherent_init (db : δ) : (init load db).Coherent where
  inFlight key p := by simp [init, RequestCache.empty]
  called p r hr := by simp [init] at hr

/-- In every run of a page, all reads of a key while a request of it is under way share that
    request. -/
theorem coalesced_throughout (load : String → δ → D) (db : δ) (es : List (PageEvent δ)) :
    Machine.Throughout (step load) Coalesced (init load db) es :=
  (Machine.throughout_of_invariant (I := Coherent) (fun _ _ _ h hs => h.step hs)
    (coherent_init db)).mono fun _ h => h.coalesced

/-! ## Fresh answers -/

/-- What a caller is given, the server has held since the client last dropped the key. -/
def AnswerSince (s : Page D δ) (key : String) : Answer D → Prop
  | .value data => data ∈ s.since key
  | .pending p => ∀ r data, s.requests[p]? = some r → r.stage.data? = some data →
      data ∈ s.since key
  | .started _ => True

/-- Whoever asks now, at whatever time the clock shows, gets an answer that is fresh. -/
def Fresh (s : Page D δ) : Prop :=
  ∀ (call : Call) (key : String) (ttl now : Int), call.cached = some (key, ttl) →
    s.AnswerSince key (s.cache.cachedGet key ttl now s.requests.length).1

/-- No answer to a read of what a write may have changed is on its way when the write is
    acknowledged, unless it says what the server holds. -/
def Undisturbed (load : String → δ → D) (s : Page D δ) : PageEvent δ → Prop
  | .written endpoint => ∀ (p : Nat) (r : Request D) (data : D), s.requests[p]? = some r →
      RequestCache.dropped (writeScope endpoint) r.key = true → r.stage.data? = some data →
        data = load r.key s.db
  | _ => True

/-- All that is kept or on its way is fresh. -/
structure Inv (load : String → δ → D) (s : Page D δ) : Prop extends s.Coherent where
  held : ∀ key, load key s.db ∈ s.since key
  entries : ∀ key entry, s.cache.cache.get? key = some entry → entry.data ∈ s.since key
  answers : ∀ (p : Nat) (r : Request D) (data : D), s.requests[p]? = some r →
    r.stage.data? = some data → data ∈ s.since r.key

theorem Inv.fresh {s : Page D δ} (h : s.Inv load) : s.Fresh := by
  intro call key ttl now _
  obtain ⟨data, hhit, hget⟩ | ⟨p, hp, hget⟩ | ⟨_, hget⟩ :=
    cachedGet_cases s.cache key ttl now s.requests.length <;> rw [hget]
  · show data ∈ s.since key
    unfold RequestCache.hit at hhit
    split at hhit
    · split at hhit
      · rename_i entry hentry
        split at hhit
        · rw [← Option.some.inj hhit]
          exact h.entries key entry hentry
        · exact nomatch hhit
      · exact nomatch hhit
    · exact nomatch hhit
  · intro r data hr hdata
    obtain ⟨r', hr', hkey, _⟩ := (h.inFlight key p).mp hp
    obtain rfl := Option.some.inj (hr.symm.trans hr')
    exact hkey ▸ h.answers p r data hr hdata
  · trivial

theorem open_of_data {stage : RequestStage D} {data : D} (h : stage.data? = some data) :
    stage ≠ .finished := by
  rintro rfl
  exact nomatch h

/-- A request that has no new data brings none that is not fresh. -/
theorem Inv.answers_setStage {s : Page D δ} (h : s.Inv load) {p : Nat} {stage : RequestStage D}
    (hstage : ∀ (r : Request D) (data : D), s.requests[p]? = some r → stage.data? = some data →
      data ∈ s.since r.key)
    (q : Nat) (r : Request D) (data : D) (hr : (s.setStage p stage).requests[q]? = some r)
    (hdata : r.stage.data? = some data) : data ∈ s.since r.key := by
  obtain ⟨r₀, hr₀, rfl⟩ := getElem?_setStage hr
  by_cases hq : q = p
  · subst hq
    rw [if_pos rfl] at hdata ⊢
    exact hstage r₀ data hr₀ hdata
  · rw [if_neg hq] at hdata ⊢
    exact h.answers q r₀ data hr₀ hdata

theorem get?_store (c : RequestCache D) {key key' : String} {ttl now : Int} {data : D}
    {entry : CacheEntry D} (h : (c.store key ttl now data).cache.get? key' = some entry) :
    c.cache.get? key' = some entry ∨ key' = key ∧ entry.data = data := by
  unfold RequestCache.store at h
  split at h
  · rw [OrdMap.get?_set] at h
    split at h
    · rename_i hkey
      rw [← Option.some.inj h]
      exact .inr ⟨hkey, rfl⟩
    · exact .inl h
  · exact .inl h

theorem get?_invalidateCache (c : RequestCache D) (start : Option String) (key : String) :
    (c.invalidateCache start).cache.get? key =
      if RequestCache.dropped start key then none else c.cache.get? key := by
  show (c.cache.filter _).get? key = _
  rw [OrdMap.get?_filter]
  cases RequestCache.dropped start key <;> cases c.cache.get? key <;> rfl

theorem Inv.step {s s' : Page D δ} {e : PageEvent δ} (h : s.Inv load)
    (hguard : Undisturbed load s e) (hs : Page.step load s e = some s') : s'.Inv load := by
  have hcoherent := h.toCoherent.step hs
  cases e with
  | get call now =>
    obtain rfl | ⟨key, ttl, hcall, hnone, rfl⟩ := get_cases hs
    · exact h
    · refine { hcoherent with held := h.held, entries := h.entries, answers := ?_ }
      intro p r data hr hdata
      obtain hold | hnew := List.mem_append.mp (List.mem_of_getElem? hr)
      · obtain ⟨q, hq⟩ := List.getElem?_of_mem hold
        exact h.answers q r data hq hdata
      · rw [List.mem_singleton.mp hnew] at hdata
        exact nomatch hdata
  | serve p =>
    obtain ⟨key, ttl, hr, rfl⟩ := serve_cases hs
    refine { hcoherent with held := h.held, entries := h.entries, answers := ?_ }
    apply h.answers_setStage
    -- the answer is what the server holds now
    intro r data hr' hdata
    obtain rfl := Option.some.inj (hr.symm.trans hr')
    rw [← Option.some.inj hdata]
    exact h.held key
  | fail p =>
    obtain ⟨r, hr, hopen, rfl⟩ := fail_cases hs
    refine { hcoherent with held := h.held, entries := h.entries, answers := ?_ }
    exact h.answers_setStage fun _ _ _ hdata => nomatch hdata
  | arrive p now =>
    obtain ⟨key, ttl, data, hr, rfl⟩ := arrive_cases hs
    have hfresh : data ∈ s.since key := h.answers p _ data hr rfl
    refine { hcoherent with held := h.held, entries := ?_, answers := ?_ }
    · intro key' entry hentry
      obtain hold | ⟨rfl, rfl⟩ := get?_store s.cache hentry
      · exact h.entries key' entry hold
      · exact hfresh
    · apply h.answers_setStage
      intro r data' hr' hdata
      obtain rfl := Option.some.inj (hr.symm.trans hr')
      rw [← Option.some.inj hdata]
      exact hfresh
  | finish p =>
    obtain ⟨r, hr, hopen, rfl⟩ := finish_cases hs
    refine { hcoherent with held := h.held, entries := h.entries, answers := ?_ }
    exact h.answers_setStage fun _ _ _ hdata => nomatch hdata
  | commit db =>
    obtain rfl := Option.some.inj hs
    refine { hcoherent with held := ?_, entries := ?_, answers := ?_ }
    · exact fun key => List.mem_append_right _ (List.mem_singleton_self _)
    · exact fun key entry hentry => List.mem_append_left _ (h.entries key entry hentry)
    · exact fun p r data hr hdata => List.mem_append_left _ (h.answers p r data hr hdata)
  | written endpoint =>
    -- a dropped key starts anew from what is held: nothing of it is kept, and the guard speaks of
    -- what is on its way
    obtain rfl := Option.some.inj hs
    refine { hcoherent with held := ?_, entries := ?_, answers := ?_ }
    · intro key
      dsimp only
      split
      · exact List.mem_singleton_self _
      · exact h.held key
    · intro key entry hentry
      dsimp only at hentry ⊢
      rw [get?_invalidateCache] at hentry
      split at hentry
      · exact nomatch hentry
      · rename_i hkept
        rw [if_neg hkept]
        exact h.entries key entry hentry
    · intro p r data hr hdata
      dsimp only
      split
      · rename_i hdropped
        exact List.mem_singleton.mpr (hguard p r data hr hdropped hdata)
      · exact h.answers p r data hr hdata

/-- An old answer on its way is given to whoever asks once the write is acknowledged. -/
theorem Inv.undisturbed {s s' : Page D δ} {e : PageEvent δ} (h : s.Inv load)
    (hs : Page.step load s e = some s') (hfresh : s'.Fresh) : Undisturbed load s e := by
  cases e with
  | written endpoint =>
    intro p r data hr hdropped hdata
    have hs' := Option.some.inj hs
    obtain ⟨call, hcall⟩ := h.called p r hr
    have hp := (h.inFlight r.key p).mpr ⟨r, hr, rfl, open_of_data hdata⟩
    -- the value is gone and the promise is still there, so that whoever asks waits for it
    have hhit : (s.cache.invalidateCache (writeScope endpoint)).hit r.key r.ttl 0 = none := by
      unfold RequestCache.hit
      rw [get?_invalidateCache, if_pos hdropped]
      split <;> rfl
    have hget : (s.cache.invalidateCache (writeScope endpoint)).cachedGet r.key r.ttl 0
        s.requests.length = (.pending p, s.cache.invalidateCache (writeScope endpoint)) :=
      cachedGet_pending hhit hp
    have hanswer := hfresh call r.key r.ttl 0 hcall
    rw [← hs'] at hanswer
    dsimp only at hanswer
    rw [hget] at hanswer
    have hmem := hanswer r data hr hdata
    dsimp only at hmem
    rw [if_pos hdropped] at hmem
    exact List.mem_singleton.mp hmem
  | _ => trivial

theorem inv_init (db : δ) : (init load db).Inv load :=
  { coherent_init db with
    held := fun _ => List.mem_singleton_self _
    entries := fun _ _ hentry => nomatch hentry
    answers := fun p r data hr _ => by simp [init] at hr }

/-- Along a run, whoever asks gets a fresh answer exactly when no write is acknowledged while an
    older answer to a read of its family is on its way. -/
theorem answers_fresh_throughout_iff (load : String → δ → D) (db : δ) (es : List (PageEvent δ)) :
    Machine.Throughout (step load) Fresh (init load db) es ↔
      Machine.Meets (step load) (Undisturbed load) (init load db) es := by
  apply Machine.throughout_iff_meets (I := Inv load) (P := fun _ _ => True)
  · exact fun s h => h.fresh
  · exact fun s e s' h _ hguard hs => h.step hguard hs
  · exact fun s e s' h _ hs hfresh => h.undisturbed hs hfresh
  · intro s e hnone
    cases e with
    | written endpoint => exact nomatch hnone
    | _ => trivial
  · exact inv_init db
  · exact Machine.meets_of_mem fun _ _ => trivial

end Page

end CallNet.Web
