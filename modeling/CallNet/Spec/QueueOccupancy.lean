import CallNet.Engine.QueueService

/-!
# Occupancy of queue agents

An agent of a queue counts as occupied (`ringing` or `busy`) exactly when one live
caller of the queue is being rung at it or connected to it, and an occupied agent
is never offered to a second caller.

`recomputePresence` takes an occupied agent to `offline` or `paused`, and
`releaseRing`, `markCallerRinging` and `markCallerConnected` do not check that the
agent they move belongs to the caller they are given, so the property does not
hold of every run.  `occupancy_throughout_iff` says which runs keep it: those in
which no presence recomputation meets an occupied agent that is offline or paused,
and in which ringing, connecting and releasing follow one caller's own attempt.
-/

namespace CallNet.Acd

open Machine (Meets Throughout)

/-! ## The property -/

/-- The agent is being rung or is bridged. -/
def QueueAgent.OnCall (a : QueueAgent) : Prop := a.state = .ringing ∨ a.state = .busy

instance (a : QueueAgent) : Decidable a.OnCall :=
  inferInstanceAs (Decidable (_ ∨ _))

/-- The live caller `c` is being rung at `ext` or connected to it. -/
def Queue.Attached (q : Queue) (c ext : String) : Prop :=
  ∃ caller, q.callers.get? c = some caller ∧ caller.agent = some ext ∧
    (caller.state = .ringing ∨ caller.state = .connected)

/-- `ext` is on the roster of the queue. -/
def Queue.OnRoster (q : Queue) (ext : String) : Prop := ∃ a, q.agents.get? ext = some a

/-- An agent is on a call exactly when it is attached to exactly one live caller. -/
def Queue.Occupied (q : Queue) : Prop :=
  ∀ ext a, q.agents.get? ext = some a → (a.OnCall ↔ ∃! c, q.Attached c ext)

/-- No agent that is attached to a live caller is offered to another one. -/
def Queue.OffersIdle (q : Queue) : Prop :=
  ∀ exclude a, (q.nextAvailableAgent exclude).2 = some a → ∀ c, ¬ q.Attached c a.extension

/-- The occupancy property of the whole service. -/
def State.Occupancy (m : State) : Prop :=
  ∀ id q, m.service.queues.get? id = some q → q.Occupied ∧ q.OffersIdle

/-- How the service is driven: call ids of live callers are distinct, and only the
    agent that `nextAvailableAgent` just returned is rung. -/
def Protocol (m : State) (e : Env × Op) : Prop :=
  match e.2 with
  | .enqueue id c _ _ => ∀ q ∈ m.service.queues.get? id, q.callers.get? c = none
  | .markCallerRinging id _ ext => m.offered = some (id, ext)
  | _ => True

instance (m : State) (e : Env × Op) : Decidable (Protocol m e) := by
  unfold Protocol; split <;> infer_instance

/-- Every agent on a call is registered and not paused. -/
def Queue.Undisturbed (q : Queue) (env : Env) : Prop :=
  ∀ ext a, q.agents.get? ext = some a → a.OnCall →
    env.isRegistered a.extension = true ∧ a.paused = false

/-- What one operation needs to keep a queue's occupancy: presence is recomputed only
    while every agent on a call is registered and unpaused, and an agent is rung,
    connected or released only as part of the given caller's own attempt. -/
def Queue.KeepsAttempts (q : Queue) (env : Env) : Op → Prop
  | .markCallerRinging _ c _ => ∀ ext, q.OnRoster ext → ¬ q.Attached c ext
  | .releaseRing _ c ext =>
    ∀ a, q.agents.get? ext = some a → (q.Attached c ext ↔ a.state = .ringing)
  | .markCallerConnected _ c ext =>
    q.callers.get? c ≠ none →
      (∀ ext', q.OnRoster ext' → q.Attached c ext' → ext' = ext) ∧
      (q.OnRoster ext → ∀ c', q.Attached c' ext → c' = c)
  | .recomputePresence _ => q.Undisturbed env
  | .syncPresence => q.Undisturbed env
  | _ => True

/-- The queues an operation touches: the one it names, or all of them. -/
def Op.Touches (op : Op) (id : String) : Prop :=
  match op with
  | .enqueue i _ _ _ | .nextAvailableAgent i _ | .markCallerRinging i _ _ | .releaseRing i _ _
  | .markCallerConnected i _ _ | .dequeue i _ | .setAgentPaused i _ _ | .recomputePresence i =>
    id = i
  | .syncPresence => True

/-- `KeepsAttempts` in every queue the operation touches. -/
def KeepsAttempts (m : State) (e : Env × Op) : Prop :=
  ∀ id q, m.service.queues.get? id = some q → e.2.Touches id → q.KeepsAttempts e.1 e.2

/-! ## What each operation does to attachments and to agents -/

theorem Queue.attached_enqueue {q : Queue} {env : Env} {c f n : String}
    (hc : q.callers.get? c = none) (c' ext : String) :
    (q.enqueue env c f n).Attached c' ext ↔ q.Attached c' ext := by
  simp only [Queue.Attached, Queue.enqueue, OrdMap.get?_set]
  split
  · rename_i h; subst h; simp [hc]
  · rfl

theorem Queue.attached_markCallerRinging {q : Queue} {c a : String} {caller : QueueCaller}
    (hc : q.callers.get? c = some caller) (c' ext : String) :
    (q.markCallerRinging c a).Attached c' ext ↔
      if c' = c then ext = a else q.Attached c' ext := by
  simp only [Queue.Attached, Queue.markCallerRinging, hc, OrdMap.get?_set]
  split <;> simp [eq_comm]

theorem Queue.attached_markCallerConnected {q : Queue} {c a : String} {caller : QueueCaller}
    (hc : q.callers.get? c = some caller) (c' ext : String) :
    (q.markCallerConnected c a).Attached c' ext ↔
      if c' = c then ext = a else q.Attached c' ext := by
  simp only [Queue.Attached, Queue.markCallerConnected, hc, OrdMap.get?_set]
  split <;> simp [eq_comm]

theorem Queue.attached_releaseRing (q : Queue) (env : Env) (c a c' ext : String) :
    (q.releaseRing env c a).Attached c' ext ↔ q.Attached c' ext ∧ ¬ (c' = c ∧ ext = a) := by
  simp only [Queue.Attached, Queue.releaseRing, OrdMap.get?_modify]
  by_cases hcc : c' = c
  · subst hcc
    cases hg : q.callers.get? c' with
    | none => simp
    | some caller =>
      by_cases ha : caller.agent = some a
      · simp only [↓reduceIte, Option.map_some, ha, Option.some.injEq, exists_eq_left']
        simp only [reduceCtorEq, false_and, true_and, false_iff, not_and, not_not]
        exact fun h => h.1.symm
      · simp only [↓reduceIte, Option.map_some, ha, Option.some.injEq, exists_eq_left', true_and]
        constructor
        · rintro ⟨he, hs⟩
          exact ⟨⟨he, hs⟩, fun h => ha (h ▸ he)⟩
        · exact fun h => h.1
  · simp [hcc]

theorem Queue.attached_dequeue (q : Queue) (env : Env) (c c' ext : String) :
    (q.dequeue env c).Attached c' ext ↔ q.Attached c' ext ∧ c' ≠ c := by
  unfold Queue.dequeue
  cases hg : q.callers.get? c with
  | none =>
    simp only [ne_eq, iff_self_and]
    rintro ⟨caller, h, _⟩ rfl
    rw [hg] at h; cases h
  | some caller =>
    simp only [Queue.Attached, OrdMap.get?_delete]
    split
    · rename_i h; simp [h]
    · rename_i h; simp [h]

/-- Lookup in the roster after an operation, for the operations that move one agent. -/
theorem Queue.agents_dequeue {q : Queue} {c : String} {caller : QueueCaller}
    (hc : q.callers.get? c = some caller) (hne : q.agents.get? "" = none) (env : Env)
    (ext : String) :
    (q.dequeue env c).agents.get? ext =
      if caller.agent = some ext then (q.agents.get? ext).map fun a =>
        if a.state = .busy ∨ a.state = .ringing then freeAgent env a.extension a else a
      else q.agents.get? ext := by
  simp only [Queue.dequeue, hc]
  split
  · rename_i h; simp [h]
  · rename_i h
    by_cases he : ext = ""
    · subst he; simp [hne]
    · simp [h, Ne.symm he]
  · rename_i a _ h
    rw [OrdMap.get?_modify]
    simp only [h, Option.some.injEq, eq_comm]

/-! ## The inductive invariant of a queue -/

/-- The strengthening of `Occupied` that each operation preserves. -/
structure Queue.Inv (q : Queue) : Prop where
  keyed : ∀ ext a, q.agents.get? ext = some a → a.extension = ext
  agents_ne : q.agents.get? "" = none
  waiting : ∀ c caller ext, q.callers.get? c = some caller → caller.agent = some ext →
    caller.state = .ringing ∨ caller.state = .connected
  single : ∀ ext c c', q.OnRoster ext → q.Attached c ext → q.Attached c' ext → c = c'
  onCall : ∀ ext a, q.agents.get? ext = some a → (a.OnCall ↔ ∃ c, q.Attached c ext)

theorem longestIdle_mem {l : List QueueAgent} {a : QueueAgent} (h : longestIdle l = some a) :
    a ∈ l := by
  have key : ∀ (as : List QueueAgent) (best : QueueAgent),
      as.foldl (fun best a => if a.idleSince < best.idleSince then a else best) best ∈ best :: as := by
    intro as
    induction as with
    | nil => exact fun best => List.mem_singleton.mpr rfl
    | cons x xs ih =>
      intro best
      rw [List.foldl_cons]
      rcases List.mem_cons.mp (ih (if x.idleSince < best.idleSince then x else best)) with h | h
      · rw [h]; split <;> simp
      · simp [h]
  cases l with
  | nil => simp [longestIdle] at h
  | cons x xs =>
    simp only [longestIdle, Option.some.injEq] at h
    exact h ▸ key xs x

theorem Queue.mem_candidates {q : Queue} {exclude : List String} {a : QueueAgent} :
    a ∈ q.candidates exclude ↔
      (∃ ext, q.agents.get? ext = some a) ∧ a.state = .available ∧ a.extension ∉ exclude := by
  simp [Queue.candidates, OrdMap.mem_values_iff]

/-- The agent offered is an available one of the roster. -/
theorem Queue.nextAvailableAgent_available {q : Queue} {exclude : List String} {a : QueueAgent}
    (h : (q.nextAvailableAgent exclude).2 = some a) :
    (∃ ext, q.agents.get? ext = some a) ∧ a.state = .available := by
  have hmem : ∀ b ∈ q.candidates exclude,
      (∃ ext, q.agents.get? ext = some b) ∧ b.state = .available := fun b hb =>
    have hb' := Queue.mem_candidates.mp hb
    ⟨hb'.1, hb'.2.1⟩
  unfold Queue.nextAvailableAgent at h
  split at h
  · simp at h
  · rename_i c cs hc
    have hhead : c ∈ q.candidates exclude := by rw [hc]; exact List.mem_cons_self
    cases hs : q.strategy with
    | longestIdle =>
      simp only [hs] at h
      exact hmem a (hc ▸ longestIdle_mem h)
    | sequential =>
      simp only [hs, Option.some.injEq] at h
      exact h ▸ hmem c hhead
    | roundRobin =>
      simp only [hs] at h
      split at h
      · rename_i agent cursor hrr
        simp only [Option.some.injEq] at h
        subst h
        unfold Queue.nextRoundRobin at hrr
        obtain ⟨i, _, hi⟩ := List.exists_of_findSome?_eq_some hrr
        simp only at hi
        split at hi
        · simp at hi
        · rename_i ext _
          split at hi
          · simp at hi
          · rename_i agent' hget
            split at hi
            · rename_i hav
              simp only [Option.some.injEq, Prod.mk.injEq] at hi
              exact ⟨⟨ext, hi.1 ▸ hget⟩, hi.1 ▸ hav.1⟩
            · simp at hi
      · simp only [Option.some.injEq] at h
        exact h ▸ hmem c hhead

/-- Selecting an agent moves at most the round-robin cursor. -/
theorem Queue.nextAvailableAgent_frame (q : Queue) (exclude : List String) :
    (q.nextAvailableAgent exclude).1.agents = q.agents ∧
      (q.nextAvailableAgent exclude).1.callers = q.callers := by
  unfold Queue.nextAvailableAgent
  split
  · exact ⟨rfl, rfl⟩
  · split
    · exact ⟨rfl, rfl⟩
    · split <;> exact ⟨rfl, rfl⟩
    · exact ⟨rfl, rfl⟩

/-- The invariant gives the property. -/
theorem Queue.Inv.occupied {q : Queue} (h : q.Inv) : q.Occupied := by
  intro ext a ha
  rw [h.onCall ext a ha]
  constructor
  · rintro ⟨c, hc⟩
    exact ⟨c, hc, fun c' hc' => h.single ext c' c ⟨a, ha⟩ hc' hc⟩
  · rintro ⟨c, hc, _⟩
    exact ⟨c, hc⟩

theorem Queue.Inv.offersIdle {q : Queue} (h : q.Inv) : q.OffersIdle := by
  intro exclude a hn c hatt
  obtain ⟨⟨ext, hget⟩, hav⟩ := Queue.nextAvailableAgent_available hn
  have hkey := h.keyed ext a hget
  have hcall : a.OnCall := (h.onCall ext a hget).mpr ⟨c, hkey ▸ hatt⟩
  rcases hcall with hs | hs <;> rw [hav] at hs <;> cases hs

/-- The invariant reads agents and callers only. -/
theorem Queue.Inv.of_frame {q q' : Queue} (h : q.Inv) (ha : q'.agents = q.agents)
    (hc : q'.callers = q.callers) : q'.Inv := by
  obtain ⟨id, name, strategy, agents, callers, rr⟩ := q
  obtain ⟨id', name', strategy', agents', callers', rr'⟩ := q'
  simp only at ha hc
  subst ha hc
  exact ⟨h.keyed, h.agents_ne, h.waiting, h.single, h.onCall⟩

/-- A caller that carries an extension is attached to it. -/
theorem Queue.Inv.attached_iff {q : Queue} (h : q.Inv) {c ext : String} {caller : QueueCaller}
    (hc : q.callers.get? c = some caller) : q.Attached c ext ↔ caller.agent = some ext := by
  constructor
  · rintro ⟨caller', hc', ha, _⟩
    rw [hc] at hc'
    exact (Option.some.inj hc') ▸ ha
  · intro ha
    exact ⟨caller, hc, ha, h.waiting c caller ext hc ha⟩

/-- The obligations of an operation that changes agents and callers but keeps the
    roster: who is attached, and that being on a call still agrees with it. -/
theorem Queue.Inv.of_change {q q' : Queue} (h : q.Inv)
    (hroster : ∀ ext a', q'.agents.get? ext = some a' →
      ∃ a, q.agents.get? ext = some a ∧ a'.extension = a.extension)
    (hwaiting : ∀ c caller ext, q'.callers.get? c = some caller → caller.agent = some ext →
      caller.state = .ringing ∨ caller.state = .connected)
    (hsingle : ∀ ext c c', q.OnRoster ext → q'.Attached c ext → q'.Attached c' ext → c = c')
    (hcall : ∀ ext a a', q.agents.get? ext = some a → q'.agents.get? ext = some a' →
      (a'.OnCall ↔ ∃ c, q'.Attached c ext)) : q'.Inv := by
  refine ⟨?_, ?_, hwaiting, ?_, ?_⟩
  · intro ext a' ha'
    obtain ⟨a, ha, he⟩ := hroster ext a' ha'
    rw [he]; exact h.keyed ext a ha
  · cases hn : q'.agents.get? "" with
    | none => rfl
    | some a' =>
      obtain ⟨a, ha, -⟩ := hroster "" a' hn
      rw [h.agents_ne] at ha; cases ha
  · rintro ext c c' ⟨a', ha'⟩ hc hc'
    obtain ⟨a, ha, -⟩ := hroster ext a' ha'
    exact hsingle ext c c' ⟨a, ha⟩ hc hc'
  · intro ext a' ha'
    obtain ⟨a, ha, -⟩ := hroster ext a' ha'
    exact hcall ext a a' ha ha'

/-- Changing every agent by a function that keeps its extension and its being on a
    call keeps the invariant. -/
theorem Queue.Inv.of_mapVals {q : Queue} (h : q.Inv) {f : String → QueueAgent → QueueAgent}
    (hext : ∀ ext a, (f ext a).extension = a.extension)
    (hcall : ∀ ext a, q.agents.get? ext = some a → ((f ext a).OnCall ↔ a.OnCall)) :
    ({ q with agents := q.agents.mapVals f } : Queue).Inv := by
  refine h.of_change ?_ h.waiting h.single ?_
  · intro ext a' ha'
    simp only [OrdMap.get?_mapVals, Option.map_eq_some_iff] at ha'
    obtain ⟨a, ha, rfl⟩ := ha'
    exact ⟨a, ha, hext ext a⟩
  · intro ext a a' ha ha'
    simp only [OrdMap.get?_mapVals, ha, Option.map_some, Option.some.injEq] at ha'
    subst ha'
    rw [hcall ext a ha]
    exact h.onCall ext a ha

/-- The roster after an operation that moves the agent `ext` by `f` only. -/
theorem OrdMap.roster_modify {m : OrdMap String QueueAgent} {ext ext' : String}
    {f : QueueAgent → QueueAgent} {a' : QueueAgent} (hf : ∀ a, (f a).extension = a.extension)
    (h : (m.modify ext f).get? ext' = some a') :
    ∃ a, m.get? ext' = some a ∧ a'.extension = a.extension := by
  rw [OrdMap.get?_modify] at h
  split at h
  · simp only [Option.map_eq_some_iff] at h
    obtain ⟨a, ha, rfl⟩ := h
    exact ⟨a, ha, hf a⟩
  · exact ⟨a', h, rfl⟩

/-! ## Presence and pausing -/

theorem recomputeAgent_extension (env : Env) (a : QueueAgent) :
    (recomputeAgent env a).extension = a.extension := by
  unfold recomputeAgent; dsimp only; split <;> rfl

theorem recomputeAgent_state (env : Env) (a : QueueAgent) :
    (recomputeAgent env a).state = nextPresence env a := by
  unfold recomputeAgent
  dsimp only
  split
  · rfl
  · rename_i h; exact (not_not.mp h).symm

/-- Recomputing presence leaves an agent on its call only when it is registered and
    not paused, whatever the comment above the branch says about live calls. -/
theorem onCall_recomputeAgent (env : Env) (a : QueueAgent) :
    (recomputeAgent env a).OnCall ↔
      a.OnCall ∧ env.isRegistered a.extension = true ∧ a.paused = false := by
  simp only [QueueAgent.OnCall, recomputeAgent_state, nextPresence]
  cases env.isRegistered a.extension <;> cases a.paused <;> cases a.state <;> simp

theorem Queue.Inv.recomputePresence {q : Queue} {env : Env} (h : q.Inv)
    (hu : q.Undisturbed env) : (recomputePresence env q).1.Inv := by
  apply h.of_mapVals
  · exact fun _ a => recomputeAgent_extension env a
  · intro ext a ha
    rw [onCall_recomputeAgent]
    exact ⟨fun h => h.1, fun hc => ⟨hc, hu ext a ha hc⟩⟩

theorem Queue.Inv.undisturbed_of_recomputePresence {q : Queue} {env : Env} (h : q.Inv)
    (ho : (Acd.recomputePresence env q).1.Occupied) : q.Undisturbed env := by
  intro ext a ha hcall
  have hget : (Acd.recomputePresence env q).1.agents.get? ext = some (recomputeAgent env a) := by
    simp only [Acd.recomputePresence, OrdMap.get?_mapVals, ha, Option.map_some]
  have hex : ∃! c, q.Attached c ext := (h.occupied ext a ha).mp hcall
  exact ((onCall_recomputeAgent env a).mp ((ho ext _ hget).mpr hex)).2

theorem pauseAgent_extension (env : Env) (ext : String) (p : Bool) (a : QueueAgent) :
    (pauseAgent env ext p a).extension = a.extension := by
  unfold pauseAgent; split <;> rfl

theorem presenceState_idle (env : Env) (ext : String) (p : Bool) :
    ¬ (presenceState env ext p = .ringing ∨ presenceState env ext p = .busy) := by
  unfold presenceState
  cases env.isRegistered ext <;> cases p <;> simp

/-- Pausing never moves an agent onto or off a call. -/
theorem onCall_pauseAgent (env : Env) (ext : String) (p : Bool) (a : QueueAgent) :
    (pauseAgent env ext p a).OnCall ↔ a.OnCall := by
  unfold pauseAgent
  split
  · rename_i hs
    have hidle : ¬ a.OnCall := by
      rintro (hr | hr) <;> simp [hr] at hs
    exact iff_of_false (presenceState_idle env ext p) hidle
  · rfl

theorem Queue.Inv.setAgentPaused {q : Queue} (h : q.Inv) (env : Env) (ext : String) (p : Bool) :
    (q.setAgentPaused env ext p).1.Inv := by
  unfold Queue.setAgentPaused
  split
  · exact h
  · split
    · exact h
    · apply h.of_mapVals
      · intro ext' a
        split
        · exact pauseAgent_extension env ext p a
        · rfl
      · intro ext' a _
        split
        · exact onCall_pauseAgent env ext p a
        · rfl

/-! ## Caller lifecycle -/

theorem Queue.Inv.enqueue {q : Queue} (h : q.Inv) {c : String} (hc : q.callers.get? c = none)
    (env : Env) (f n : String) : (q.enqueue env c f n).Inv := by
  refine ⟨h.keyed, h.agents_ne, ?_, ?_, ?_⟩
  · intro c' caller ext hget ha
    simp only [Queue.enqueue, OrdMap.get?_set] at hget
    split at hget
    · cases hget; simp at ha
    · exact h.waiting c' caller ext hget ha
  · intro ext c₁ c₂ hr h₁ h₂
    rw [Queue.attached_enqueue hc] at h₁ h₂
    exact h.single ext c₁ c₂ hr h₁ h₂
  · intro ext a ha
    rw [h.onCall ext a ha]
    simp only [Queue.attached_enqueue hc]

/-- Ringing the agent just offered keeps the invariant when the caller is not already
    attached to an agent of the roster. -/
theorem Queue.Inv.markCallerRinging {q : Queue} (h : q.Inv) {c ext : String}
    (hidle : ∃ a, q.agents.get? ext = some a ∧ a.state = .available)
    (hk : ∀ ext', q.OnRoster ext' → ¬ q.Attached c ext') :
    (q.markCallerRinging c ext).Inv := by
  cases hc : q.callers.get? c with
  | none => simpa [Queue.markCallerRinging, hc] using h
  | some caller =>
    obtain ⟨agent, hagent, hav⟩ := hidle
    -- the agent is available, so no caller is attached to it
    have hfree : ∀ c', ¬ q.Attached c' ext := by
      intro c' hatt
      have := (h.onCall ext agent hagent).mpr ⟨c', hatt⟩
      rcases this with hs | hs <;> rw [hav] at hs <;> cases hs
    refine h.of_change ?_ ?_ ?_ ?_
    · intro ext' a' ha'
      simp only [Queue.markCallerRinging, hc] at ha'
      exact OrdMap.roster_modify (fun a => by split <;> rfl) ha'
    · intro c' caller' ext' hget ha
      simp only [Queue.markCallerRinging, hc, OrdMap.get?_set] at hget
      split at hget
      · cases hget; exact .inl rfl
      · exact h.waiting c' caller' ext' hget ha
    · intro ext' c₁ c₂ hr h₁ h₂
      rw [Queue.attached_markCallerRinging hc] at h₁ h₂
      split at h₁ <;> split at h₂
      · rename_i e₁ e₂; rw [e₁, e₂]
      · exact absurd (h₁ ▸ h₂) (hfree c₂)
      · exact absurd (h₂ ▸ h₁) (hfree c₁)
      · exact h.single ext' c₁ c₂ hr h₁ h₂
    · intro ext' a a' ha ha'
      simp only [Queue.markCallerRinging, hc, OrdMap.get?_modify, ha] at ha'
      simp only [Queue.attached_markCallerRinging hc]
      split at ha'
      · rename_i he
        subst he
        rw [hagent] at ha
        simp only [Option.map_some, Option.some.injEq] at ha ha'
        subst ha ha'
        rw [if_pos hav]
        exact iff_of_true (.inl rfl) ⟨c, by simp⟩
      · rename_i he
        cases ha'
        rw [h.onCall ext' a ha]
        constructor
        · rintro ⟨c', hatt⟩
          have hcc : c' ≠ c := fun e => hk ext' ⟨a, ha⟩ (e ▸ hatt)
          exact ⟨c', by rwa [if_neg hcc]⟩
        · rintro ⟨c', hatt⟩
          split at hatt
          · exact absurd hatt he
          · exact ⟨c', hatt⟩

/-- Ringing re-attaches the caller: an agent it was attached to stays on a call with
    nobody attached. -/
theorem Queue.Inv.unattached_of_markCallerRinging {q : Queue} (h : q.Inv) {c ext : String}
    (hidle : ∃ a, q.agents.get? ext = some a ∧ a.state = .available)
    (ho : (q.markCallerRinging c ext).Occupied) (ext' : String) (hr : q.OnRoster ext') :
    ¬ q.Attached c ext' := by
  intro hatt
  have hlive := hatt
  obtain ⟨caller, hc, -⟩ := hlive
  obtain ⟨agent, hagent, hav⟩ := hidle
  obtain ⟨a, ha⟩ := hr
  have hcall : a.OnCall := (h.onCall ext' a ha).mpr ⟨c, hatt⟩
  have hne : ext' ≠ ext := by
    rintro rfl
    rw [hagent] at ha
    cases ha
    rcases hcall with hs | hs <;> rw [hav] at hs <;> cases hs
  have ha' : (q.markCallerRinging c ext).agents.get? ext' = some a := by
    simp only [Queue.markCallerRinging, hc, OrdMap.get?_modify, if_neg hne, ha]
  obtain ⟨c', hatt', -⟩ := (ho ext' a ha').mp hcall
  rw [Queue.attached_markCallerRinging hc] at hatt'
  split at hatt'
  · exact hne hatt'
  · rename_i hcc
    exact hcc (h.single ext' c' c ⟨a, ha⟩ hatt' hatt)

theorem Queue.Inv.releaseRing {q : Queue} (h : q.Inv) {env : Env} {c ext : String}
    (hk : ∀ a, q.agents.get? ext = some a → (q.Attached c ext ↔ a.state = .ringing)) :
    (q.releaseRing env c ext).Inv := by
  refine h.of_change ?_ ?_ ?_ ?_
  · intro ext' a' ha'
    exact OrdMap.roster_modify (fun a => by split <;> rfl) ha'
  · intro c' caller' ext' hget ha
    simp only [Queue.releaseRing, OrdMap.get?_modify] at hget
    split at hget
    · simp only [Option.map_eq_some_iff] at hget
      obtain ⟨caller, hc, rfl⟩ := hget
      split at ha
      · simp at ha
      · rename_i hne
        rw [if_neg hne]
        exact h.waiting c' caller ext' hc ha
    · exact h.waiting c' caller' ext' hget ha
  · intro ext' c₁ c₂ hr h₁ h₂
    rw [Queue.attached_releaseRing] at h₁ h₂
    exact h.single ext' c₁ c₂ hr h₁.1 h₂.1
  · intro ext' a a' ha ha'
    simp only [Queue.releaseRing, OrdMap.get?_modify, ha] at ha'
    simp only [Queue.attached_releaseRing]
    split at ha'
    · rename_i he
      subst he
      simp only [Option.map_some, Option.some.injEq] at ha'
      subst ha'
      split
      · -- a ringing agent is released, and its one caller with it
        rename_i hs
        refine iff_of_false (presenceState_idle env _ _) ?_
        rintro ⟨c', hatt, hne⟩
        exact hne ⟨h.single ext' c' c ⟨a, ha⟩ hatt ((hk a ha).mpr hs), rfl⟩
      · -- an agent that is not ringing is not attached to the caller released
        rename_i hs
        have hno : ¬ q.Attached c ext' := fun hatt => hs ((hk a ha).mp hatt)
        rw [h.onCall ext' a ha]
        constructor
        · rintro ⟨c', hatt⟩
          exact ⟨c', hatt, fun e => hno (e.1 ▸ hatt)⟩
        · rintro ⟨c', hatt, -⟩
          exact ⟨c', hatt⟩
    · rename_i he
      cases ha'
      rw [h.onCall ext' a ha]
      simp only [he, and_false, not_false_eq_true, and_true]

/-- Releasing frees a ringing agent whoever it rings for, and detaches the caller even
    from an agent it does not free. -/
theorem Queue.Inv.ringing_of_releaseRing {q : Queue} (h : q.Inv) {env : Env} {c ext : String}
    (ho : (q.releaseRing env c ext).Occupied) {a : QueueAgent}
    (ha : q.agents.get? ext = some a) : q.Attached c ext ↔ a.state = .ringing := by
  constructor
  · intro hatt
    by_contra hs
    have ha' : (q.releaseRing env c ext).agents.get? ext = some a := by
      simp only [Queue.releaseRing, OrdMap.get?_modify, ha, if_true, Option.map_some, if_neg hs]
    obtain ⟨c', hatt', -⟩ := (ho ext a ha').mp ((h.onCall ext a ha).mpr ⟨c, hatt⟩)
    rw [Queue.attached_releaseRing] at hatt'
    exact hatt'.2 ⟨h.single ext c' c ⟨a, ha⟩ hatt'.1 hatt, rfl⟩
  · intro hs
    by_contra hatt
    have ha' : (q.releaseRing env c ext).agents.get? ext = some (freeAgent env ext a) := by
      simp only [Queue.releaseRing, OrdMap.get?_modify, ha, if_true, Option.map_some, if_pos hs]
    obtain ⟨c', hc', huniq⟩ := (h.occupied ext a ha).mp (.inl hs)
    have hidle : ¬ (freeAgent env ext a).OnCall := presenceState_idle env _ _
    refine hidle ((ho ext _ ha').mpr ⟨c', ?_, ?_⟩)
    · dsimp only
      rw [Queue.attached_releaseRing]
      exact ⟨hc', fun e => hatt (e.1 ▸ hc')⟩
    · intro c'' h''
      rw [Queue.attached_releaseRing] at h''
      exact huniq c'' h''.1

theorem Queue.Inv.markCallerConnected {q : Queue} (h : q.Inv) {c ext : String}
    (hk : q.callers.get? c ≠ none →
      (∀ ext', q.OnRoster ext' → q.Attached c ext' → ext' = ext) ∧
      (q.OnRoster ext → ∀ c', q.Attached c' ext → c' = c)) :
    (q.markCallerConnected c ext).Inv := by
  cases hc : q.callers.get? c with
  | none => simpa [Queue.markCallerConnected, hc] using h
  | some caller =>
    obtain ⟨hown, hsole⟩ := hk (by simp [hc])
    refine h.of_change ?_ ?_ ?_ ?_
    · intro ext' a' ha'
      simp only [Queue.markCallerConnected, hc] at ha'
      refine OrdMap.roster_modify ?_ ha'
      exact fun _ => rfl
    · intro c' caller' ext' hget ha
      simp only [Queue.markCallerConnected, hc, OrdMap.get?_set] at hget
      split at hget
      · cases hget; exact .inr rfl
      · exact h.waiting c' caller' ext' hget ha
    · intro ext' c₁ c₂ hr h₁ h₂
      rw [Queue.attached_markCallerConnected hc] at h₁ h₂
      split at h₁ <;> split at h₂
      · rename_i e₁ e₂; rw [e₁, e₂]
      · rename_i e₁ _
        subst h₁
        rw [e₁, hsole hr c₂ h₂]
      · rename_i _ e₂
        subst h₂
        rw [e₂, hsole hr c₁ h₁]
      · exact h.single ext' c₁ c₂ hr h₁ h₂
    · intro ext' a a' ha ha'
      simp only [Queue.markCallerConnected, hc, OrdMap.get?_modify, ha] at ha'
      simp only [Queue.attached_markCallerConnected hc]
      split at ha'
      · rename_i he
        simp only [Option.map_some, Option.some.injEq] at ha'
        subst ha'
        exact iff_of_true (.inr rfl) ⟨c, by simp [he]⟩
      · rename_i he
        cases ha'
        rw [h.onCall ext' a ha]
        constructor
        · rintro ⟨c', hatt⟩
          have hcc : c' ≠ c := fun e => he (hown ext' ⟨a, ha⟩ (e ▸ hatt))
          exact ⟨c', by rwa [if_neg hcc]⟩
        · rintro ⟨c', hatt⟩
          split at hatt
          · exact absurd hatt he
          · exact ⟨c', hatt⟩

/-- Connecting makes the agent busy and attached to this caller: an agent the caller was
    attached to, or a second caller attached to the agent, breaks the agreement. -/
theorem Queue.Inv.sole_of_markCallerConnected {q : Queue} (h : q.Inv) {c ext : String}
    (ho : (q.markCallerConnected c ext).Occupied) (hlive : q.callers.get? c ≠ none) :
    (∀ ext', q.OnRoster ext' → q.Attached c ext' → ext' = ext) ∧
      (q.OnRoster ext → ∀ c', q.Attached c' ext → c' = c) := by
  obtain ⟨caller, hc⟩ := Option.ne_none_iff_exists'.mp hlive
  constructor
  · rintro ext' ⟨a, ha⟩ hatt
    by_contra hne
    have ha' : (q.markCallerConnected c ext).agents.get? ext' = some a := by
      simp only [Queue.markCallerConnected, hc, OrdMap.get?_modify, if_neg hne, ha]
    obtain ⟨c', hatt', -⟩ := (ho ext' a ha').mp ((h.onCall ext' a ha).mpr ⟨c, hatt⟩)
    rw [Queue.attached_markCallerConnected hc] at hatt'
    split at hatt'
    · exact hne hatt'
    · rename_i hcc
      exact hcc (h.single ext' c' c ⟨a, ha⟩ hatt' hatt)
  · rintro ⟨a, ha⟩ c' hatt
    by_contra hcc
    have ha' : (q.markCallerConnected c ext).agents.get? ext =
        some { a with state := .busy, callsHandled := a.callsHandled + 1 } := by
      simp only [Queue.markCallerConnected, hc, OrdMap.get?_modify, ha, if_true, Option.map_some]
    obtain ⟨c₀, -, huniq⟩ := (ho ext _ ha').mp (.inr rfl)
    have h₁ := huniq c (by simp [Queue.attached_markCallerConnected hc])
    have h₂ := huniq c' (by
      dsimp only
      rw [Queue.attached_markCallerConnected hc, if_neg hcc]; exact hatt)
    exact hcc (h₂.trans h₁.symm)

theorem Queue.Inv.dequeue {q : Queue} (h : q.Inv) (env : Env) (c : String) :
    (q.dequeue env c).Inv := by
  cases hc : q.callers.get? c with
  | none => simpa [Queue.dequeue, hc] using h
  | some caller =>
    have hagents := Queue.agents_dequeue hc h.agents_ne env
    refine h.of_change ?_ ?_ ?_ ?_
    · intro ext' a' ha'
      rw [hagents] at ha'
      split at ha'
      · simp only [Option.map_eq_some_iff] at ha'
        obtain ⟨a, ha, rfl⟩ := ha'
        exact ⟨a, ha, by split <;> rfl⟩
      · exact ⟨a', ha', rfl⟩
    · intro c' caller' ext' hget ha
      simp only [Queue.dequeue, hc, OrdMap.get?_delete] at hget
      split at hget
      · cases hget
      · exact h.waiting c' caller' ext' hget ha
    · intro ext' c₁ c₂ hr h₁ h₂
      rw [Queue.attached_dequeue] at h₁ h₂
      exact h.single ext' c₁ c₂ hr h₁.1 h₂.1
    · intro ext' a a' ha ha'
      rw [hagents, ha] at ha'
      simp only [Queue.attached_dequeue]
      split at ha'
      · -- the agent the caller was attached to: on a call before, free after
        rename_i he
        have hatt : q.Attached c ext' := (h.attached_iff hc).mpr he
        have hcall : a.OnCall := (h.onCall ext' a ha).mpr ⟨c, hatt⟩
        simp only [Option.map_some, Option.some.injEq] at ha'
        subst ha'
        rw [if_pos hcall.symm]
        refine iff_of_false (presenceState_idle env _ _) ?_
        rintro ⟨c', hatt', hne⟩
        exact hne (h.single ext' c' c ⟨a, ha⟩ hatt' hatt)
      · rename_i he
        cases ha'
        rw [h.onCall ext' a ha]
        constructor
        · rintro ⟨c', hatt⟩
          refine ⟨c', hatt, ?_⟩
          rintro rfl
          exact he ((h.attached_iff hc).mp hatt)
        · rintro ⟨c', hatt, -⟩
          exact ⟨c', hatt⟩

/-! ## One operation on one queue -/

/-- What an operation does to a queue it touches. -/
def Queue.after (env : Env) (op : Op) (q : Queue) : Queue :=
  match op with
  | .enqueue _ c f n => q.enqueue env c f n
  | .nextAvailableAgent _ exclude => (q.nextAvailableAgent exclude).1
  | .markCallerRinging _ c a => q.markCallerRinging c a
  | .releaseRing _ c a => q.releaseRing env c a
  | .markCallerConnected _ c a => q.markCallerConnected c a
  | .dequeue _ c => q.dequeue env c
  | .setAgentPaused _ ext paused => (q.setAgentPaused env ext paused).1
  | .recomputePresence _ => (Acd.recomputePresence env q).1
  | .syncPresence => (Acd.recomputePresence env q).1

/-- What the protocol says about a queue the operation touches. -/
def Queue.Admits (q : Queue) : Op → Prop
  | .enqueue _ c _ _ => q.callers.get? c = none
  | .markCallerRinging _ _ ext => ∃ a, q.agents.get? ext = some a ∧ a.state = .available
  | _ => True

/-- An operation changes the queues it touches, each by itself, and no others. -/
theorem QueueService.get?_apply_touched {s : QueueService} {env : Env} {op : Op} {id : String}
    (h : op.Touches id) :
    (s.apply env op).queues.get? id = (s.queues.get? id).map (Queue.after env op) := by
  cases op with
  | syncPresence =>
    simp only [QueueService.apply, QueueService.syncPresence, OrdMap.get?_mapVals]; rfl
  | _ =>
    cases h
    simp only [QueueService.apply, QueueService.onQueue, OrdMap.get?_modify, if_true]; rfl

theorem QueueService.get?_apply_untouched {s : QueueService} {env : Env} {op : Op} {id : String}
    (h : ¬ op.Touches id) : (s.apply env op).queues.get? id = s.queues.get? id := by
  cases op with
  | syncPresence => exact absurd trivial h
  | _ => exact (OrdMap.get?_modify ..).trans (if_neg h)

/-- The step lemma of the invariant. -/
theorem Queue.Inv.after {q : Queue} {env : Env} {op : Op} (h : q.Inv) (ha : q.Admits op)
    (hk : q.KeepsAttempts env op) : (q.after env op).Inv := by
  cases op with
  | enqueue _ c f n => exact h.enqueue ha env f n
  | nextAvailableAgent _ exclude =>
    have hf := q.nextAvailableAgent_frame exclude
    exact h.of_frame hf.1 hf.2
  | markCallerRinging _ c a => exact h.markCallerRinging ha hk
  | releaseRing _ c a => exact h.releaseRing hk
  | markCallerConnected _ c a => exact h.markCallerConnected hk
  | dequeue _ c => exact h.dequeue env c
  | setAgentPaused _ ext paused => exact h.setAgentPaused env ext paused
  | recomputePresence _ => exact h.recomputePresence hk
  | syncPresence => exact h.recomputePresence hk

/-- The condition is needed: an operation that breaks it breaks the occupancy. -/
theorem Queue.Inv.keepsAttempts_of_after {q : Queue} {env : Env} {op : Op} (h : q.Inv)
    (ha : q.Admits op) (ho : (q.after env op).Occupied) : q.KeepsAttempts env op := by
  cases op with
  | markCallerRinging _ c a => exact h.unattached_of_markCallerRinging ha ho
  | releaseRing _ c a => exact fun _ hget => h.ringing_of_releaseRing ho hget
  | markCallerConnected _ c a => exact h.sole_of_markCallerConnected ho
  | recomputePresence _ => exact h.undisturbed_of_recomputePresence ho
  | syncPresence => exact h.undisturbed_of_recomputePresence ho
  | _ => trivial

/-! ## Runs of the service -/

/-- The invariant of the whole service: that of every queue, and the agent just
    offered is still available. -/
structure State.Inv (m : State) : Prop where
  queues : ∀ id q, m.service.queues.get? id = some q → q.Inv
  offered : ∀ id ext, m.offered = some (id, ext) → ∀ q, m.service.queues.get? id = some q →
    ∃ a, q.agents.get? ext = some a ∧ a.state = .available

theorem State.Inv.admits {m : State} {e : Env × Op} (h : m.Inv) (hP : Protocol m e)
    {id : String} {q : Queue} (hq : m.service.queues.get? id = some q) (ht : e.2.Touches id) :
    q.Admits e.2 := by
  obtain ⟨env, op⟩ := e
  cases op with
  | enqueue => cases ht; exact hP q hq
  | markCallerRinging => cases ht; exact h.offered _ _ hP q hq
  | _ => trivial

theorem State.Inv.occupancy {m : State} (h : m.Inv) : m.Occupancy :=
  fun id q hq => ⟨(h.queues id q hq).occupied, (h.queues id q hq).offersIdle⟩

theorem State.Inv.step {m m' : State} {e : Env × Op} (h : m.Inv) (hP : Protocol m e)
    (hk : KeepsAttempts m e) (hs : m.step e = some m') : m'.Inv := by
  simp only [State.step, Option.some.injEq] at hs
  subst hs
  refine ⟨?_, ?_⟩
  · intro id q' hq'
    dsimp only at hq'
    by_cases ht : e.2.Touches id
    · rw [QueueService.get?_apply_touched ht, Option.map_eq_some_iff] at hq'
      obtain ⟨q, hq, rfl⟩ := hq'
      exact (h.queues id q hq).after (h.admits hP hq ht) (hk id q hq ht)
    · rw [QueueService.get?_apply_untouched ht] at hq'
      exact h.queues id q' hq'
  · -- only `nextAvailableAgent` offers an agent, and it leaves the roster alone
    intro id ext hoff q' hq'
    obtain ⟨env, op⟩ := e
    cases op with
    | nextAvailableAgent i exclude =>
      simp only [Option.map_eq_some_iff, Prod.mk.injEq] at hoff
      obtain ⟨a, hn, rfl, rfl⟩ := hoff
      have ht : (Op.nextAvailableAgent i exclude).Touches i := rfl
      dsimp only at hq'
      rw [QueueService.get?_apply_touched ht, Option.map_eq_some_iff] at hq'
      obtain ⟨q, hq, rfl⟩ := hq'
      simp only [QueueService.nextAvailableAgent, hq, Option.bind_some] at hn
      obtain ⟨⟨ext, hget⟩, hav⟩ := Queue.nextAvailableAgent_available hn
      refine ⟨a, ?_, hav⟩
      rw [(h.queues i q hq).keyed ext a hget]
      exact (congrArg (OrdMap.get? · ext) (q.nextAvailableAgent_frame exclude).1).trans hget
    | _ => cases hoff

theorem State.Inv.keepsAttempts {m m' : State} {e : Env × Op} (h : m.Inv) (hP : Protocol m e)
    (hs : m.step e = some m') (ho : m'.Occupancy) : KeepsAttempts m e := by
  simp only [State.step, Option.some.injEq] at hs
  subst hs
  intro id q hq ht
  refine (h.queues id q hq).keepsAttempts_of_after (h.admits hP hq ht) (ho id _ ?_).1
  dsimp only
  rw [QueueService.get?_apply_touched ht, hq, Option.map_some]

theorem Queue.Inv.ofDefinition (now : Nat) (d : QueueDefinition) :
    (Queue.ofDefinition now d).Inv := by
  have hget : ∀ ext a, (Queue.ofDefinition now d).agents.get? ext = some a →
      ext ≠ "" ∧ a = newAgent now ext := by
    intro ext a h
    refine OrdMap.ofList_forall (P := fun ext a => ext ≠ "" ∧ a = newAgent now ext) ?_ h
    intro e he
    obtain ⟨x, hx, rfl⟩ := List.mem_map.mp he
    exact ⟨fun h => d.agents_ne (h ▸ hx), rfl⟩
  have hno : ∀ c ext, ¬ (Queue.ofDefinition now d).Attached c ext := by
    rintro c ext ⟨caller, hc, -⟩
    simp [Queue.ofDefinition] at hc
  refine ⟨?_, ?_, ?_, ?_, ?_⟩
  · intro ext a h
    rw [(hget ext a h).2]; rfl
  · cases h : (Queue.ofDefinition now d).agents.get? "" with
    | none => rfl
    | some a => exact absurd rfl (hget "" a h).1
  · intro c caller ext h
    simp [Queue.ofDefinition] at h
  · exact fun ext c c' _ h => absurd h (hno c ext)
  · intro ext a h
    rw [(hget ext a h).2]
    refine iff_of_false ?_ fun ⟨c, hc⟩ => hno c ext hc
    rintro (h | h) <;> cases h

theorem State.Inv.init (now : Nat) (defs : List QueueDefinition) : (State.init now defs).Inv := by
  refine ⟨?_, ?_⟩
  · intro id q hq
    refine OrdMap.ofList_forall (P := fun _ q => Queue.Inv q) ?_ hq
    intro e he
    obtain ⟨d, -, rfl⟩ := List.mem_map.mp he
    exact Queue.Inv.ofDefinition now d
  · intro id ext h
    cases h

/-- A run of the service from its construction keeps the occupancy of every queue in
    every state it visits exactly when all its operations keep to their attempts. -/
theorem occupancy_throughout_iff (now : Nat) (defs : List QueueDefinition)
    (trace : List (Env × Op)) (hP : Meets State.step Protocol (.init now defs) trace) :
    Throughout State.step State.Occupancy (.init now defs) trace ↔
      Meets State.step KeepsAttempts (.init now defs) trace :=
  Machine.throughout_iff_meets
    (fun _ h => h.occupancy)
    (fun _ _ _ h hP hk hs => h.step hP hk hs)
    (fun _ _ _ h hP hs ho => h.keepsAttempts hP hs ho)
    (fun _ _ h => nomatch h)
    (State.Inv.init now defs) hP

/-- One queue with one agent, as the default configuration declares. -/
def salesQueue : QueueDefinition :=
  { id := "sales", name := "Sales", agents := ["1001"], strategy := "sequential",
    agents_ne := by decide }

/-- A whole call: the caller is queued, rung at the agent, connected and dequeued. -/
def answeredCall : List (Env × Op) :=
  let online : Env := ⟨fun _ => true, 0⟩
  [(online, .syncPresence),
   (online, .enqueue "sales" "c1" "1002" "Caller"),
   (online, .nextAvailableAgent "sales" []),
   (online, .markCallerRinging "sales" "c1" "1001"),
   (online, .markCallerConnected "sales" "c1" "1001"),
   (online, .dequeue "sales" "c1")]

theorem occupancy_throughout_iff_answeredCall :
    Meets State.step Protocol (.init 0 [salesQueue]) answeredCall ∧
      (Throughout State.step State.Occupancy (.init 0 [salesQueue]) answeredCall ↔
        Meets State.step KeepsAttempts (.init 0 [salesQueue]) answeredCall) :=
  ⟨by decide, occupancy_throughout_iff 0 [salesQueue] answeredCall (by decide)⟩

/-- The agent's registration lapses during the call and comes back. -/
def presenceFlap : List (Env × Op) :=
  let online : Env := ⟨fun _ => true, 0⟩
  let offline : Env := ⟨fun _ => false, 0⟩
  [(online, .syncPresence),
   (online, .enqueue "sales" "c1" "1002" "Caller"),
   (online, .nextAvailableAgent "sales" []),
   (online, .markCallerRinging "sales" "c1" "1001"),
   (online, .markCallerConnected "sales" "c1" "1001"),
   (offline, .syncPresence),
   (online, .syncPresence)]

/-- After the flap the agent, still connected to `c1`, is offered to the next caller. -/
theorem occupancy_fails_presenceFlap :
    Meets State.step Protocol (.init 0 [salesQueue]) presenceFlap ∧
      ¬ Throughout State.step State.Occupancy (.init 0 [salesQueue]) presenceFlap := by
  refine ⟨by decide, fun h => ?_⟩
  have hlast : ((Machine.run State.step (.init 0 [salesQueue]) presenceFlap).bind fun m =>
      (m.service.queues.get? "sales").map fun q =>
        ((q.nextAvailableAgent []).2.map QueueAgent.extension,
          (q.callers.get? "c1").map fun c => (c.state, c.agent))) =
      some (some "1001", some (.connected, some "1001")) := by decide
  rw [Option.bind_eq_some_iff] at hlast
  obtain ⟨m, hm, hq⟩ := hlast
  rw [Option.map_eq_some_iff] at hq
  obtain ⟨q, hget, hq⟩ := hq
  simp only [Prod.mk.injEq, Option.map_eq_some_iff] at hq
  obtain ⟨⟨a, hoffer, hext⟩, ⟨caller, hc, hstate, hagent⟩⟩ := hq
  have hidle := ((h.last hm) "sales" q hget).2
  exact hidle [] a hoffer "c1" ⟨caller, hc, hext ▸ hagent, .inr hstate⟩

end CallNet.Acd
