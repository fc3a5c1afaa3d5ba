import CallNet.ForStd.Turns
import CallNet.Spec.QueueOccupancy
import Mathlib.Data.List.MinMax
import Mathlib.Data.List.ReduceOption

/-!
# Agent selection

Which agent a queue rings next: the one idle the longest, the next one after the last in
roster order, or the first one in roster order.

The round-robin cursor lives across calls while the candidates are filtered anew each
time.  Read as turns, the cursor is the last turn given and a selection gives the next
one whose agent may be rung (`nextRoundRobin_eq_some`), so a run of selections is a chain
of turns and its fairness is that of `Turns.Chain.nodup`.
-/

namespace CallNet.Acd

open Machine (Meets)
open Turns (Next Chain)

/-! ## What a selection owes -/

/-- The queue may ring `a`: it is on the roster, available and not excluded. -/
structure Queue.MayRing (q : Queue) (exclude : List String) (a : QueueAgent) : Prop where
  onRoster : q.agents.get? a.extension = some a
  available : a.state = .available
  allowed : a.extension ∉ exclude

/-- The agent `ext` is eligible: it is on the roster and available. -/
def Queue.Eligible (q : Queue) (ext : String) : Prop :=
  ∃ a, q.agents.get? ext = some a ∧ a.state = .available

/-- The place of an agent in roster order. -/
def Queue.position (q : Queue) (a : QueueAgent) : Nat := q.agents.keys.idxOf a.extension

/-- The agent whose turn it is when turns go round the roster. -/
def Queue.onTurn (q : Queue) (t : Nat) : Option String :=
  q.agents.keys[t % q.agents.keys.length]?

/-- It is the turn of an agent that may be rung. -/
def Queue.TurnFree (q : Queue) (exclude : List String) (t : Nat) : Prop :=
  ∃ a, q.onTurn t = some a.extension ∧ q.MayRing exclude a

/-- `a` is the best agent to ring by the strategy of the queue. -/
def Queue.Prefers (q : Queue) (exclude : List String) (a : QueueAgent) : Prop :=
  match q.strategy with
  | .longestIdle => ∀ b, q.MayRing exclude b → a.idleSince < b.idleSince ∨
      a.idleSince = b.idleSince ∧ q.position a ≤ q.position b
  | .roundRobin => ∃ t, Next (q.TurnFree exclude) q.rrCursor t ∧ q.onTurn t = some a.extension
  | .sequential => ∀ b, q.MayRing exclude b → q.position a ≤ q.position b

/-- A selection returns the best of the agents it may ring, and nothing exactly when
    every eligible agent is excluded. -/
structure Queue.SelectsBest (q : Queue) (exclude : List String) : Prop where
  none_iff : (q.nextAvailableAgent exclude).2 = none ↔ ∀ ext, q.Eligible ext → ext ∈ exclude
  best : ∀ a, (q.nextAvailableAgent exclude).2 = some a →
    q.MayRing exclude a ∧ q.Prefers exclude a

/-! ## The roster -/

/-- Every agent is stored under its own extension. -/
def Queue.Keyed (q : Queue) : Prop := ∀ ext a, q.agents.get? ext = some a → a.extension = ext

/-- An agent that is available has not opted out. -/
def Queue.Unpaused (q : Queue) : Prop :=
  ∀ ext a, q.agents.get? ext = some a → a.state = .available → a.paused = false

theorem Queue.mem_candidates_iff {q : Queue} (hk : q.Keyed) {exclude : List String}
    {a : QueueAgent} : a ∈ q.candidates exclude ↔ q.MayRing exclude a := by
  rw [Queue.mem_candidates]
  constructor
  · rintro ⟨⟨ext, hget⟩, hav, hex⟩
    exact ⟨(hk ext a hget).symm ▸ hget, hav, hex⟩
  · rintro ⟨hget, hav, hex⟩
    exact ⟨⟨_, hget⟩, hav, hex⟩

theorem Queue.keys_nodup (q : Queue) : q.agents.keys.Nodup := q.agents.nodup

/-- The agents are listed in roster order. -/
theorem Queue.values_extension {q : Queue} (hk : q.Keyed) :
    q.agents.values.map QueueAgent.extension = q.agents.keys := by
  simp only [OrdMap.values, OrdMap.keys, List.map_map]
  refine List.map_congr_left fun e he => ?_
  exact hk e.1 e.2 (OrdMap.mem_entries_iff.mp he)

theorem nodup_pairwise_idxOf {l : List String} (h : l.Nodup) :
    l.Pairwise fun a b => l.idxOf a < l.idxOf b := by
  rw [List.pairwise_iff_getElem]
  intro i j hi hj hij
  rwa [h.idxOf_getElem, h.idxOf_getElem]

/-- The candidates come in roster order. -/
theorem Queue.candidates_pairwise {q : Queue} (hk : q.Keyed) (exclude : List String) :
    (q.candidates exclude).Pairwise fun a b => q.position a < q.position b := by
  have hkeys : (q.agents.values.map QueueAgent.extension).Pairwise
      fun a b => q.agents.keys.idxOf a < q.agents.keys.idxOf b := by
    rw [Queue.values_extension hk]
    exact nodup_pairwise_idxOf q.keys_nodup
  exact (List.pairwise_map.mp hkeys).filter _

theorem Queue.mem_keys {q : Queue} {ext : String} {a : QueueAgent}
    (h : q.agents.get? ext = some a) : ext ∈ q.agents.keys :=
  List.mem_map.mpr ⟨(ext, a), OrdMap.mem_entries_iff.mpr h, rfl⟩

/-- An agent that may be rung has a place in the roster. -/
theorem Queue.MayRing.position_lt {q : Queue} {exclude : List String} {a : QueueAgent}
    (h : q.MayRing exclude a) : q.position a < q.agents.keys.length :=
  List.idxOf_lt_length_of_mem (Queue.mem_keys h.onRoster)

/-! ## The strategies -/

theorem longestIdle_eq_argmin (l : List QueueAgent) :
    longestIdle l = l.argmin QueueAgent.idleSince := by
  have key : ∀ (as : List QueueAgent) (best : QueueAgent),
      as.foldl (List.argAux fun b c => b.idleSince < c.idleSince) (some best) =
        some (as.foldl (fun best a => if a.idleSince < best.idleSince then a else best) best) := by
    intro as
    induction as with
    | nil => exact fun best => rfl
    | cons a as ih =>
      intro best
      have hstep : List.argAux (fun b c => b.idleSince < c.idleSince) (some best) a =
          some (if a.idleSince < best.idleSince then a else best) :=
        (apply_ite some _ _ _).symm
      rw [List.foldl_cons, List.foldl_cons, hstep, ih]
  cases l with
  | nil => rfl
  | cons a as => exact (key as a).symm

/-- Of the candidates the one idle the longest, the earliest in the roster among equals. -/
theorem Queue.longestIdle_prefers {q : Queue} (hk : q.Keyed) {exclude : List String}
    {a : QueueAgent} (h : longestIdle (q.candidates exclude) = some a) :
    a ∈ q.candidates exclude ∧ ∀ b ∈ q.candidates exclude, a.idleSince < b.idleSince ∨
      a.idleSince = b.idleSince ∧ q.position a ≤ q.position b := by
  rw [longestIdle_eq_argmin, ← Option.mem_def, List.mem_argmin_iff] at h
  obtain ⟨ha, hmin, hfirst⟩ := h
  refine ⟨ha, fun b hb => ?_⟩
  rcases Nat.lt_or_eq_of_le (hmin b hb) with hlt | heq
  · exact .inl hlt
  · refine .inr ⟨heq, ?_⟩
    have hidx := hfirst b hb heq.ge
    have hpos := List.pairwise_iff_getElem.mp (Queue.candidates_pairwise hk exclude) _ _
      (List.idxOf_lt_length_of_mem ha) (List.idxOf_lt_length_of_mem hb)
    rcases Nat.lt_or_eq_of_le hidx with hlt | heq
    · have := hpos hlt
      rw [List.getElem_idxOf, List.getElem_idxOf] at this
      exact this.le
    · rw [(List.idxOf_inj ha).mp heq]

/-- The head of the candidates is the first in the roster. -/
theorem Queue.head_prefers {q : Queue} (hk : q.Keyed) {exclude : List String} {c : QueueAgent}
    {cs : List QueueAgent} (h : q.candidates exclude = c :: cs) :
    ∀ b ∈ q.candidates exclude, q.position c ≤ q.position b := by
  have hpair := Queue.candidates_pairwise hk exclude
  rw [h] at hpair ⊢
  intro b hb
  rcases List.mem_cons.mp hb with rfl | hb
  · rfl
  · exact ((List.pairwise_cons.mp hpair).1 b hb).le

/-- What the round-robin loop returns at turn `t`, if the agent may be rung. -/
def Queue.tryTurn (q : Queue) (exclude : List String) (t : Nat) : Option (QueueAgent × Nat) :=
  let roster := q.agents.keys
  let cursor := t % roster.length
  match roster[cursor]? with
  | none => none
  | some ext =>
    match q.agents.get? ext with
    | none => none
    | some agent =>
      if agent.state = .available ∧ ext ∉ exclude then some (agent, cursor) else none

theorem Queue.nextRoundRobin_eq (q : Queue) (exclude : List String) :
    q.nextRoundRobin exclude = (List.range' 1 q.agents.keys.length).findSome? fun i =>
      q.tryTurn exclude (q.rrCursor + i) := rfl

theorem Queue.tryTurn_eq_some {q : Queue} (hk : q.Keyed) {exclude : List String} {t : Nat}
    {a : QueueAgent} {cursor : Nat} :
    q.tryTurn exclude t = some (a, cursor) ↔
      cursor = t % q.agents.keys.length ∧ q.onTurn t = some a.extension ∧
        q.MayRing exclude a := by
  unfold Queue.tryTurn Queue.onTurn
  dsimp only
  constructor
  · intro h
    split at h
    · cases h
    · rename_i ext hext
      split at h
      · cases h
      · rename_i agent hget
        split at h
        · rename_i hav
          cases h
          have := hk ext a hget
          subst this
          exact ⟨rfl, hext, hget, hav.1, hav.2⟩
        · cases h
  · rintro ⟨rfl, hext, hget, hav, hex⟩
    simp only [hext, hget]
    rw [if_pos ⟨hav, hex⟩]

theorem Queue.tryTurn_eq_none {q : Queue} (hk : q.Keyed) {exclude : List String} {t : Nat} :
    q.tryTurn exclude t = none ↔ ¬ q.TurnFree exclude t := by
  constructor
  · rintro h ⟨a, hturn, hring⟩
    rw [(Queue.tryTurn_eq_some hk).mpr ⟨rfl, hturn, hring⟩] at h
    cases h
  · intro h
    cases ht : q.tryTurn exclude t with
    | none => rfl
    | some r => exact absurd ⟨r.1, ((Queue.tryTurn_eq_some hk).mp ht).2⟩ h

/-- Turns go round the roster. -/
theorem Queue.turnFree_periodic (q : Queue) (exclude : List String) :
    Function.Periodic (q.TurnFree exclude) q.agents.keys.length := by
  intro t
  simp only [Queue.TurnFree, Queue.onTurn, Nat.add_mod_right]

/-- The round-robin loop gives the next turn whose agent may be rung. -/
theorem Queue.nextRoundRobin_eq_some {q : Queue} (hk : q.Keyed) {exclude : List String}
    {a : QueueAgent} {cursor : Nat} (h : q.nextRoundRobin exclude = some (a, cursor)) :
    ∃ t, Next (q.TurnFree exclude) q.rrCursor t ∧ cursor = t % q.agents.keys.length ∧
      q.onTurn t = some a.extension ∧ q.MayRing exclude a := by
  rw [Queue.nextRoundRobin_eq, List.findSome?_eq_some_iff] at h
  obtain ⟨before, i, after, hsplit, hi, hbefore⟩ := h
  obtain ⟨k, -, rfl, hafter⟩ := List.range'_eq_append_iff.mp hsplit
  have hik : i = 1 + k := by
    cases hlen : q.agents.keys.length - k with
    | zero => rw [hlen] at hafter; cases hafter
    | succ m =>
      rw [hlen, List.range'_succ] at hafter
      simpa using (List.cons.inj hafter).1
  subst hik
  obtain ⟨hcursor, hturn, hring⟩ := (Queue.tryTurn_eq_some hk).mp hi
  refine ⟨_, ⟨by omega, ⟨a, hturn, hring⟩, fun u hlow hhigh => ?_⟩, hcursor, hturn, hring⟩
  obtain ⟨j, rfl⟩ : ∃ j, u = q.rrCursor + j := ⟨u - q.rrCursor, by omega⟩
  exact (Queue.tryTurn_eq_none hk).mp (hbefore j (List.mem_range'_1.mpr (by omega)))

/-- It finds an agent whenever one may be rung. -/
theorem Queue.nextRoundRobin_ne_none {q : Queue} (hk : q.Keyed) {exclude : List String}
    {a : QueueAgent} (h : q.MayRing exclude a) : q.nextRoundRobin exclude ≠ none := by
  have hpos := h.position_lt
  have hturn : q.TurnFree exclude (q.position a) := by
    refine ⟨a, ?_, h⟩
    rw [Queue.onTurn, Nat.mod_eq_of_lt hpos, Queue.position, List.getElem?_idxOf]
    exact List.idxOf_lt_length_iff.mp hpos
  classical
  obtain ⟨t, hlow, hhigh, hfree⟩ :=
    Turns.exists_turn (q.turnFree_periodic exclude) hpos hturn q.rrCursor
  rw [Queue.nextRoundRobin_eq]
  intro hnone
  have hi := List.findSome?_eq_none_iff.mp hnone (t - q.rrCursor)
    (List.mem_range'_1.mpr (by omega))
  rw [show q.rrCursor + (t - q.rrCursor) = t by omega] at hi
  exact (Queue.tryTurn_eq_none hk).mp hi hfree

/-! ## One selection -/

theorem Queue.candidates_eq_nil_iff {q : Queue} (hk : q.Keyed) {exclude : List String} :
    q.candidates exclude = [] ↔ ∀ ext, q.Eligible ext → ext ∈ exclude := by
  rw [List.eq_nil_iff_forall_not_mem]
  constructor
  · rintro h ext ⟨a, hget, hav⟩
    by_contra hex
    have hext := hk ext a hget
    subst hext
    exact h a ((Queue.mem_candidates_iff hk).mpr ⟨hget, hav, hex⟩)
  · intro h a ha
    have hring := (Queue.mem_candidates_iff hk).mp ha
    exact hring.allowed (h _ ⟨a, hring.onRoster, hring.available⟩)

/-- A round-robin selection returns the agent of the next turn and moves the cursor there. -/
theorem Queue.nextAvailableAgent_turn {q : Queue} (hk : q.Keyed) (hs : q.strategy = .roundRobin)
    {exclude : List String} {a : QueueAgent} (h : (q.nextAvailableAgent exclude).2 = some a) :
    ∃ t, Next (q.TurnFree exclude) q.rrCursor t ∧ q.onTurn t = some a.extension ∧
      q.MayRing exclude a ∧
      (q.nextAvailableAgent exclude).1.rrCursor = t % q.agents.keys.length := by
  unfold Queue.nextAvailableAgent at h ⊢
  cases hc : q.candidates exclude with
  | nil => rw [hc] at h; cases h
  | cons c cs =>
    simp only [hc, hs] at h ⊢
    cases hrr : q.nextRoundRobin exclude with
    | none =>
      have hring := (Queue.mem_candidates_iff hk).mp (hc ▸ List.mem_cons_self)
      exact absurd hrr (Queue.nextRoundRobin_ne_none hk hring)
    | some r =>
      simp only [hrr, Option.some.injEq] at h ⊢
      subst h
      obtain ⟨t, hnext, hcursor, hturn, hring⟩ := Queue.nextRoundRobin_eq_some hk hrr
      exact ⟨t, hnext, hturn, hring, hcursor⟩

theorem Queue.nextAvailableAgent_none_iff {q : Queue} {exclude : List String} :
    (q.nextAvailableAgent exclude).2 = none ↔ q.candidates exclude = [] := by
  unfold Queue.nextAvailableAgent
  cases hc : q.candidates exclude with
  | nil => simp
  | cons c cs =>
    cases hs : q.strategy with
    | longestIdle => simp [longestIdle]
    | roundRobin => cases hrr : q.nextRoundRobin exclude <;> simp
    | sequential => simp

/-- A selection that returns nothing leaves the queue as it is. -/
theorem Queue.nextAvailableAgent_of_none {q : Queue} {exclude : List String}
    (h : (q.nextAvailableAgent exclude).2 = none) : (q.nextAvailableAgent exclude).1 = q := by
  have hc := Queue.nextAvailableAgent_none_iff.mp h
  simp only [Queue.nextAvailableAgent, hc]

theorem Queue.selectsBest {q : Queue} (hk : q.Keyed) (exclude : List String) :
    q.SelectsBest exclude := by
  refine ⟨Queue.nextAvailableAgent_none_iff.trans (Queue.candidates_eq_nil_iff hk), ?_⟩
  intro a h
  have hmem {b : QueueAgent} : q.MayRing exclude b → b ∈ q.candidates exclude :=
    (Queue.mem_candidates_iff hk).mpr
  have hne : q.candidates exclude ≠ [] := fun hnil => by
    rw [Queue.nextAvailableAgent_none_iff.mpr hnil] at h
    cases h
  obtain ⟨c, cs, hc⟩ := List.exists_cons_of_ne_nil hne
  unfold Queue.Prefers
  cases hs : q.strategy with
  | longestIdle =>
    simp only [Queue.nextAvailableAgent, hc, hs] at h
    rw [← hc] at h
    obtain ⟨ha, hbest⟩ := Queue.longestIdle_prefers hk h
    exact ⟨(Queue.mem_candidates_iff hk).mp ha, fun b hb => hbest b (hmem hb)⟩
  | roundRobin =>
    obtain ⟨t, hnext, hturn, hring, -⟩ := Queue.nextAvailableAgent_turn hk hs h
    exact ⟨hring, t, hnext, hturn⟩
  | sequential =>
    simp only [Queue.nextAvailableAgent, hc, hs, Option.some.injEq] at h
    subst h
    refine ⟨(Queue.mem_candidates_iff hk).mp (hc ▸ List.mem_cons_self), fun b hb => ?_⟩
    exact Queue.head_prefers hk hc b (hmem hb)

/-! ## What the other operations leave alone -/

/-- Between two states of a queue the roster, its order and the strategy stay, and what
    holds of the agents is kept. -/
structure Queue.Steady (q q' : Queue) : Prop where
  keys : q'.agents.keys = q.agents.keys
  strategy : q'.strategy = q.strategy
  keyed : q.Keyed → q'.Keyed
  unpaused : q.Unpaused → q'.Unpaused

theorem Queue.Steady.of_agents_eq {q q' : Queue} (ha : q'.agents = q.agents)
    (hs : q'.strategy = q.strategy) : q.Steady q' := by
  refine ⟨by rw [ha], hs, ?_, ?_⟩
  · intro hk; rwa [Queue.Keyed, ha]
  · intro hu; rwa [Queue.Unpaused, ha]

theorem Queue.Steady.of_mapVals (q : Queue) {f : String → QueueAgent → QueueAgent}
    {callers : OrdMap String QueueCaller} (hext : ∀ ext a, (f ext a).extension = a.extension)
    (hpaused : ∀ ext a, (a.state = .available → a.paused = false) →
      (f ext a).state = .available → (f ext a).paused = false) :
    q.Steady { q with agents := q.agents.mapVals f, callers } := by
  refine ⟨?_, rfl, ?_, ?_⟩
  · simp only [OrdMap.keys, OrdMap.mapVals, List.map_map]
    rfl
  · intro hk ext a' hget
    rw [OrdMap.get?_mapVals, Option.map_eq_some_iff] at hget
    obtain ⟨a, hget, rfl⟩ := hget
    exact (hext ext a).trans (hk ext a hget)
  · intro hu ext a' hget hav
    rw [OrdMap.get?_mapVals, Option.map_eq_some_iff] at hget
    obtain ⟨a, hget, rfl⟩ := hget
    exact hpaused ext a (hu ext a hget) hav

/-- The case of one agent changed. -/
theorem Queue.Steady.of_modify (q : Queue) {ext : String} {f : QueueAgent → QueueAgent}
    {callers : OrdMap String QueueCaller} (hext : ∀ a, (f a).extension = a.extension)
    (hpaused : ∀ a, (a.state = .available → a.paused = false) →
      (f a).state = .available → (f a).paused = false) :
    q.Steady { q with agents := q.agents.modify ext f, callers } := by
  refine Queue.Steady.of_mapVals q ?_ ?_
  · intro k a
    split
    · exact hext a
    · rfl
  · intro k a h
    split
    · exact hpaused a h
    · exact h

/-- Presence makes an agent available only when it is not paused. -/
theorem presenceState_available {env : Env} {ext : String} {paused : Bool}
    (h : presenceState env ext paused = .available) : paused = false := by
  cases paused with
  | false => rfl
  | true =>
    unfold presenceState at h
    split at h <;> cases h

theorem freeAgent_unpaused {env : Env} {ext : String} {a : QueueAgent}
    (h : (freeAgent env ext a).state = .available) : (freeAgent env ext a).paused = false :=
  presenceState_available h

/-- An agent that is freed under some condition. -/
theorem Queue.Steady.of_free (q : Queue) (env : Env) {ext : String}
    {callers : OrdMap String QueueCaller} {c : QueueAgent → Prop} [DecidablePred c] (extOf : QueueAgent → String) :
    q.Steady { q with
      agents := q.agents.modify ext fun a => if c a then freeAgent env (extOf a) a else a
      callers } := by
  refine .of_modify q (fun a => ?_) fun a h hav => ?_
  · split <;> rfl
  · split at hav
    · rename_i hs
      rw [if_pos hs]
      exact freeAgent_unpaused hav
    · rename_i hs
      rw [if_neg hs]
      exact h hav

theorem recomputeAgent_unpaused {env : Env} {a : QueueAgent}
    (h : (recomputeAgent env a).state = .available) : (recomputeAgent env a).paused = false := by
  have hpaused : (recomputeAgent env a).paused = a.paused := by
    unfold recomputeAgent; dsimp only; split <;> rfl
  rw [recomputeAgent_state] at h
  rw [hpaused]
  unfold nextPresence at h
  cases hp : a.paused with
  | false => rfl
  | true =>
    rw [hp] at h
    split at h <;> simp at h

theorem pauseAgent_unpaused {env : Env} {ext : String} {paused : Bool} {a : QueueAgent}
    (h : (pauseAgent env ext paused a).state = .available) :
    (pauseAgent env ext paused a).paused = false := by
  unfold pauseAgent at h ⊢
  split at h
  · rename_i hs
    rw [if_pos hs]
    exact presenceState_available h
  · rename_i hs
    exact absurd (.inl h) hs

/-- No operation moves an agent in the roster, and none makes a paused one available. -/
theorem Queue.steady_after (q : Queue) (env : Env) (op : Op) : q.Steady (q.after env op) := by
  cases op with
  | enqueue _ c f n => exact .of_agents_eq rfl rfl
  | nextAvailableAgent _ exclude =>
    refine .of_agents_eq (q.nextAvailableAgent_frame exclude).1 ?_
    simp only [Queue.after, Queue.nextAvailableAgent]
    split
    · rfl
    · split
      · rfl
      · split <;> rfl
      · rfl
  | markCallerRinging _ c ext =>
    simp only [Queue.after, Queue.markCallerRinging]
    split
    · exact .of_agents_eq rfl rfl
    · refine .of_modify q (fun a => ?_) fun a h hav => ?_
      · split <;> rfl
      · split at hav
        · cases hav
        · rename_i hs
          exact absurd hav hs
  | releaseRing _ c ext => exact .of_free q env fun _ => ext
  | markCallerConnected _ c ext =>
    simp only [Queue.after, Queue.markCallerConnected]
    split
    · exact .of_agents_eq rfl rfl
    · exact .of_modify q (fun _ => rfl) fun _ _ hav => by cases hav
  | dequeue _ c =>
    simp only [Queue.after, Queue.dequeue]
    split
    · exact .of_agents_eq rfl rfl
    · split
      · exact .of_agents_eq rfl rfl
      · exact .of_agents_eq rfl rfl
      · exact .of_free q env QueueAgent.extension
  | setAgentPaused _ ext paused =>
    simp only [Queue.after, Queue.setAgentPaused]
    split
    · exact .of_agents_eq rfl rfl
    · split
      · exact .of_agents_eq rfl rfl
      · exact .of_modify q (pauseAgent_extension env ext paused)
          fun _ _ hav => pauseAgent_unpaused hav
  | recomputePresence _ =>
    exact .of_mapVals q (fun _ => recomputeAgent_extension env)
      fun _ _ _ hav => recomputeAgent_unpaused hav
  | syncPresence =>
    exact .of_mapVals q (fun _ => recomputeAgent_extension env)
      fun _ _ _ hav => recomputeAgent_unpaused hav

/-! ## Runs of the service -/

/-- The agents an operation excludes, if it is a selection of the queue `id`. -/
def Op.selects? (id : String) : Op → Option (List String)
  | .nextAvailableAgent i exclude => if i = id then some exclude else none
  | _ => none

/-- What the selections of the queue `id` return along a run. -/
def selections (id : String) : State → List (Env × Op) → List (Option QueueAgent)
  | _, [] => []
  | m, e :: es =>
    let later := match m.step e with
      | some m' => selections id m' es
      | none => []
    match e.2.selects? id with
    | some exclude => m.service.nextAvailableAgent id exclude :: later
    | none => later

/-- A selection of the queue `id` excludes nothing and finds the agents of `E` eligible. -/
def SelectsAmong (id : String) (E : Finset String) (m : State) (e : Env × Op) : Prop :=
  ∀ exclude, e.2.selects? id = some exclude →
    exclude = [] ∧ ∀ q, m.service.queues.get? id = some q → ∀ ext, q.Eligible ext ↔ ext ∈ E

/-- The cursor is at the agent returned last, or at the start when there is none. -/
def Queue.CursorAt (q : Queue) : Option QueueAgent → Prop
  | none => q.rrCursor = 0
  | some a => q.onTurn q.rrCursor = some a.extension

/-- One operation, seen from one queue: the roster stays, and the cursor moves only in a
    selection of this queue. -/
theorem State.step_queue {m m' : State} {e : Env × Op} {id : String} {q : Queue}
    (hq : m.service.queues.get? id = some q) (hs : m.step e = some m') :
    ∃ q', m'.service.queues.get? id = some q' ∧ q.Steady q' ∧
      match e.2.selects? id with
      | some exclude => q' = (q.nextAvailableAgent exclude).1 ∧
          m.service.nextAvailableAgent id exclude = (q.nextAvailableAgent exclude).2
      | none => q'.rrCursor = q.rrCursor := by
  simp only [State.step, Option.some.injEq] at hs
  subst hs
  dsimp only
  by_cases ht : e.2.Touches id
  · -- of the operations on this queue only a selection writes the cursor
    refine ⟨q.after e.1 e.2, ?_, q.steady_after e.1 e.2, ?_⟩
    · rw [QueueService.get?_apply_touched ht, hq, Option.map_some]
    · obtain ⟨env, op⟩ := e
      cases op with
      | nextAvailableAgent i exclude =>
        cases ht
        simp only [Op.selects?, if_true, Queue.after, QueueService.nextAvailableAgent, hq,
          Option.bind_some, and_self]
      | markCallerRinging _ c ext =>
        simp only [Op.selects?, Queue.after, Queue.markCallerRinging]
        split <;> rfl
      | markCallerConnected _ c ext =>
        simp only [Op.selects?, Queue.after, Queue.markCallerConnected]
        split <;> rfl
      | dequeue _ c =>
        simp only [Op.selects?, Queue.after, Queue.dequeue]
        split <;> rfl
      | setAgentPaused _ ext paused =>
        simp only [Op.selects?, Queue.after, Queue.setAgentPaused]
        split
        · rfl
        · split <;> rfl
      | _ => rfl
  · refine ⟨q, ?_, .of_agents_eq rfl rfl, ?_⟩
    · rw [QueueService.get?_apply_untouched ht, hq]
    · have hno : e.2.selects? id = none := by
        cases hop : e.2 with
        | nextAvailableAgent i exclude =>
          rw [hop] at ht
          exact if_neg fun h => ht h.symm
        | _ => rfl
      rw [hno]

/-- No operation creates a queue. -/
theorem State.queue_before {m m' : State} {e : Env × Op} {id : String} {q' : Queue}
    (hs : m.step e = some m') (hq' : m'.service.queues.get? id = some q') :
    ∃ q, m.service.queues.get? id = some q ∧ q.Steady q' := by
  cases hq : m.service.queues.get? id with
  | some q =>
    obtain ⟨q'', hq'', hsteady, -⟩ := State.step_queue hq hs
    cases hq'.symm.trans hq''
    exact ⟨q, rfl, hsteady⟩
  | none =>
    simp only [State.step, Option.some.injEq] at hs
    subst hs
    dsimp only at hq'
    by_cases ht : e.2.Touches id
    · rw [QueueService.get?_apply_touched ht, hq] at hq'
      cases hq'
    · rw [QueueService.get?_apply_untouched ht, hq] at hq'
      cases hq'

theorem queue_at_start {es : List (Env × Op)} {m m' : State} {id : String} {q' : Queue}
    (hrun : Machine.run State.step m es = some m') (hq' : m'.service.queues.get? id = some q') :
    ∃ q, m.service.queues.get? id = some q ∧ q'.strategy = q.strategy := by
  induction es generalizing m with
  | nil => cases hrun; exact ⟨q', hq', rfl⟩
  | cons e es ih =>
    obtain ⟨m₁, hstep, hrest⟩ := Machine.run_cons.mp hrun
    obtain ⟨q₁, hq₁, hs₁⟩ := ih hrest
    obtain ⟨q, hq, hsteady⟩ := State.queue_before hstep hq₁
    exact ⟨q, hq, hs₁.trans hsteady.strategy⟩

theorem queue_of_init {now : Nat} {defs : List QueueDefinition} {id : String} {q : Queue}
    (hq : (State.init now defs).service.queues.get? id = some q) :
    ∃ d, q = .ofDefinition now d := by
  refine OrdMap.ofList_forall (P := fun _ q => ∃ d, q = Queue.ofDefinition now d) ?_ hq
  intro e he
  obtain ⟨d, -, rfl⟩ := List.mem_map.mp he
  exact ⟨d, rfl⟩

theorem Queue.unpaused_ofDefinition (now : Nat) (d : QueueDefinition) :
    (Queue.ofDefinition now d).Unpaused := by
  intro ext a hget _
  refine OrdMap.ofList_forall (P := fun _ a => QueueAgent.paused a = false) ?_ hget
  intro e he
  obtain ⟨x, -, rfl⟩ := List.mem_map.mp he
  rfl

/-- In every state a run from the construction reaches, agents are stored under their own
    extensions and an available one has not opted out. -/
theorem roster_of_run {now : Nat} {defs : List QueueDefinition} {history : List (Env × Op)}
    {m : State} (hm : Machine.run State.step (.init now defs) history = some m) {id : String}
    {q : Queue} (hq : m.service.queues.get? id = some q) : q.Keyed ∧ q.Unpaused := by
  have hinv : ∀ id q, m.service.queues.get? id = some q → q.Keyed ∧ q.Unpaused := by
    refine Machine.run_invariant
      (I := fun m => ∀ id q, m.service.queues.get? id = some q → q.Keyed ∧ q.Unpaused) ?_ ?_ hm
    · intro m e m' h hs id q' hq'
      obtain ⟨q, hq, hsteady⟩ := State.queue_before hs hq'
      exact ⟨hsteady.keyed (h id q hq).1, hsteady.unpaused (h id q hq).2⟩
    · intro id q hq
      obtain ⟨d, rfl⟩ := queue_of_init hq
      exact ⟨(Queue.Inv.ofDefinition now d).keyed, Queue.unpaused_ofDefinition now d⟩
  exact hinv id q hq

/-- The cursor does not leave the roster entry it is at. -/
theorem Queue.CursorAt.congr {q q' : Queue} {last : Option QueueAgent} (h : q.CursorAt last)
    (hsteady : q.Steady q') (hc : q'.rrCursor = q.rrCursor) : q'.CursorAt last := by
  cases last with
  | none => exact hc.trans h
  | some a =>
    rw [Queue.CursorAt, Queue.onTurn, hsteady.keys, hc]
    exact h

/-- A round-robin selection leaves the cursor at the agent it returns. -/
theorem Queue.CursorAt.select {q : Queue} {last : Option QueueAgent} (h : q.CursorAt last)
    (hk : q.Keyed) (hs : q.strategy = .roundRobin) (exclude : List String) :
    (q.nextAvailableAgent exclude).1.CursorAt ((q.nextAvailableAgent exclude).2.or last) := by
  cases hsel : (q.nextAvailableAgent exclude).2 with
  | none => rwa [Queue.nextAvailableAgent_of_none hsel]
  | some a =>
    obtain ⟨t, -, hturn, -, hcursor⟩ := Queue.nextAvailableAgent_turn hk hs hsel
    rw [Option.some_or, Queue.CursorAt, Queue.onTurn, (q.nextAvailableAgent_frame exclude).1,
      hcursor, Nat.mod_mod]
    exact hturn

/-- Along a run the cursor stays at the agent that was returned last. -/
theorem cursorAt_run {id : String} {es : List (Env × Op)} {m m' : State} {q q' : Queue}
    {last : Option QueueAgent} (hk : q.Keyed) (hs : q.strategy = .roundRobin)
    (hq : m.service.queues.get? id = some q) (hq' : m'.service.queues.get? id = some q')
    (hrun : Machine.run State.step m es = some m') (h : q.CursorAt last) :
    q'.CursorAt ((selections id m es).reduceOption.getLast?.or last) := by
  induction es generalizing m q last with
  | nil =>
    cases hrun
    cases hq.symm.trans hq'
    exact h
  | cons e es ih =>
    obtain ⟨m₁, hstep, hrest⟩ := Machine.run_cons.mp hrun
    obtain ⟨q₁, hq₁, hsteady, hmove⟩ := State.step_queue hq hstep
    have hk₁ := hsteady.keyed hk
    have hs₁ := hsteady.strategy.trans hs
    simp only [selections, hstep]
    cases hsel : e.2.selects? id with
    | none =>
      rw [hsel] at hmove
      exact ih hk₁ hs₁ hq₁ hrest (h.congr hsteady hmove)
    | some exclude =>
      simp only [hsel] at hmove
      obtain ⟨rfl, hanswer⟩ := hmove
      -- the answer of this selection is the last one, until a later selection finds somebody
      have hrec := ih hk₁ hs₁ hq₁ hrest (h.select hk hs exclude)
      dsimp only
      rw [hanswer]
      cases hr : (q.nextAvailableAgent exclude).2 with
      | none => rwa [List.reduceOption_cons_of_none, ← Option.none_or (o := last), ← hr]
      | some a =>
        rw [hr] at hrec
        rw [List.reduceOption_cons_of_some, List.getLast?_cons]
        cases hl : (selections id m₁ es).reduceOption.getLast? with
        | none => simpa [hl] using hrec
        | some b => simpa [hl] using hrec

/-- The turns of the eligible agents of a roster. -/
def EligibleTurn (roster : List String) (E : Finset String) (t : Nat) : Prop :=
  ∃ ext ∈ E, roster[t % roster.length]? = some ext

theorem eligibleTurn_periodic (roster : List String) (E : Finset String) :
    Function.Periodic (EligibleTurn roster E) roster.length := by
  intro t
  simp only [EligibleTurn, Nat.add_mod_right]

/-- With nothing excluded the free turns are those of the eligible agents. -/
theorem Queue.turnFree_iff {q : Queue} (hk : q.Keyed) {E : Finset String}
    (hE : ∀ ext, q.Eligible ext ↔ ext ∈ E) (t : Nat) :
    q.TurnFree [] t ↔ EligibleTurn q.agents.keys E t := by
  constructor
  · rintro ⟨a, hturn, hring⟩
    exact ⟨a.extension, (hE _).mp ⟨a, hring.onRoster, hring.available⟩, hturn⟩
  · rintro ⟨ext, hext, hturn⟩
    obtain ⟨a, hget, hav⟩ := (hE ext).mpr hext
    have heq := hk ext a hget
    subst heq
    exact ⟨a, hturn, hget, hav, List.not_mem_nil⟩

/-- The selections among a nonempty, unchanged set of eligible agents are a chain of turns,
    however the service is driven between them. -/
theorem chain_of_run {id : String} {E : Finset String} (hne : E.Nonempty)
    {es : List (Env × Op)} {m : State} {q : Queue} (hk : q.Keyed)
    (hs : q.strategy = .roundRobin) (hq : m.service.queues.get? id = some q)
    (h : Meets State.step (SelectsAmong id E) m es) (k : Nat) :
    ∃ ts, Chain (EligibleTurn q.agents.keys E) (q.rrCursor + k * q.agents.keys.length) ts ∧
      (selections id m es).map (Option.map QueueAgent.extension) =
        ts.map (fun t => q.agents.keys[t % q.agents.keys.length]?) ∧
      (ts ≠ [] → ∀ ext ∈ E, ext ∈ q.agents.keys) := by
  induction es generalizing m q k with
  | nil => exact ⟨[], List.isChain_singleton _, rfl, fun h => absurd rfl h⟩
  | cons e es ih =>
    obtain ⟨m₁, hstep⟩ : ∃ m₁, m.step e = some m₁ := ⟨_, rfl⟩
    obtain ⟨q₁, hq₁, hsteady, hmove⟩ := State.step_queue hq hstep
    have hk₁ := hsteady.keyed hk
    have hs₁ := hsteady.strategy.trans hs
    obtain ⟨hnow, hlater⟩ := h
    rw [hstep] at hlater
    simp only [selections, hstep]
    cases hsel : e.2.selects? id with
    | none =>
      simp only [hsel] at hmove
      have hrec := ih hk₁ hs₁ hq₁ hlater k
      rwa [hsteady.keys, hmove] at hrec
    | some exclude =>
      simp only [hsel] at hmove
      obtain ⟨rfl, hanswer⟩ := hmove
      obtain ⟨rfl, hE⟩ := hnow exclude hsel
      have hE := hE q hq
      obtain ⟨ext, hext⟩ := hne
      have hsome : (q.nextAvailableAgent []).2 ≠ none := fun hnone =>
        List.not_mem_nil (((Queue.selectsBest hk []).none_iff.mp hnone) ext ((hE ext).mpr hext))
      obtain ⟨a, ha⟩ := Option.ne_none_iff_exists'.mp hsome
      obtain ⟨t, hnext, hturn, -, hcursor⟩ := Queue.nextAvailableAgent_turn hk hs ha
      -- the absolute turn given, `k` rounds after the cursor's own count
      have hnext' := (hnext.congr (Queue.turnFree_iff hk hE)).add_rounds
        (eligibleTurn_periodic q.agents.keys E) k
      -- the cursor keeps the remainder of `t` only, so the whole rounds go to `k`
      have hrec := ih hk₁ hs₁ hq₁ hlater (t / q.agents.keys.length + k)
      rw [hsteady.keys, hcursor] at hrec
      obtain ⟨ts, hchain, hpicks, -⟩ := hrec
      have hround : t % q.agents.keys.length +
          (t / q.agents.keys.length + k) * q.agents.keys.length =
          t + k * q.agents.keys.length := by
        rw [Nat.add_mul, ← Nat.add_assoc, Nat.mul_comm (t / _), Nat.mod_add_div]
      rw [hround] at hchain
      refine ⟨_ :: ts, List.isChain_cons_cons.mpr ⟨hnext', hchain⟩, ?_, fun _ ext hext => ?_⟩
      · dsimp only
        rw [hanswer, ha, List.map_cons, List.map_cons, hpicks, Nat.add_mul_mod_self_right]
        exact congrArg (· :: _) hturn.symm
      · obtain ⟨b, hget, -⟩ := (hE ext).mpr hext
        exact Queue.mem_keys hget

/-- One round of the roster has a turn for every eligible agent. -/
theorem card_le_count {roster : List String} {E : Finset String} (hE : ∀ ext ∈ E, ext ∈ roster)
    [DecidablePred (EligibleTurn roster E)] :
    E.card ≤ Nat.count (EligibleTurn roster E) roster.length := by
  rw [Nat.count_eq_card_filter_range]
  refine Finset.card_le_card_of_injOn (fun ext => roster.idxOf ext) ?_ ?_
  · intro ext hext
    have hlt := List.idxOf_lt_length_of_mem (hE ext hext)
    rw [Finset.coe_filter]
    refine ⟨Finset.mem_range.mpr hlt, ext, hext, ?_⟩
    rw [Nat.mod_eq_of_lt hlt, List.getElem?_idxOf (hE ext hext)]
  · intro ext hext ext' _ heq
    exact (List.idxOf_inj (hE ext hext)).mp heq

/-- The turns of eligible agents name them. -/
theorem agents_of_turns {roster : List String} {E : Finset String} {ts : List Nat}
    (h : ∀ t ∈ ts, EligibleTurn roster E t) :
    ∃ picks : List String, ts.map (fun t => roster[t % roster.length]?) = picks.map some ∧
      ∀ ext ∈ picks, ext ∈ E := by
  induction ts with
  | nil => exact ⟨[], rfl, fun _ h => nomatch h⟩
  | cons t ts ih =>
    obtain ⟨ext, hext, hturn⟩ := h t List.mem_cons_self
    obtain ⟨picks, hpicks, hmem⟩ := ih fun t ht => h t (List.mem_cons_of_mem _ ht)
    refine ⟨ext :: picks, ?_, List.forall_mem_cons.mpr ⟨hext, hmem⟩⟩
    rw [List.map_cons, List.map_cons, hturn, hpicks]

/-- Turns of different places belong to different agents. -/
theorem nodup_agents {roster : List String} (hr : roster.Nodup) {ts : List Nat}
    (hts : (ts.map (· % roster.length)).Nodup) {picks : List String}
    (hp : ts.map (fun t => roster[t % roster.length]?) = picks.map some) : picks.Nodup := by
  have hplaces : ((ts.map (· % roster.length)).map (roster[·]?)).Nodup := by
    refine (List.nodup_map_iff_inj_on hts).mpr fun i hi j hj heq => ?_
    obtain ⟨t, ht, rfl⟩ := List.mem_map.mp hi
    have hsome : roster[t % roster.length]? ∈ picks.map some := by
      rw [← hp]
      exact List.mem_map.mpr ⟨t, ht, rfl⟩
    obtain ⟨ext, -, hext⟩ := List.mem_map.mp hsome
    exact (List.getElem?_inj (List.getElem?_eq_some_iff.mp hext.symm).1 hr).mp heq
  rw [List.map_map] at hplaces
  rw [show ((roster[·]?) ∘ (· % roster.length)) = fun t => roster[t % roster.length]? from rfl,
    hp] at hplaces
  exact hplaces.of_map some

/-- Among an unchanged set of eligible agents no agent is selected twice until all of them
    have been. -/
theorem selections_distinct {id : String} {E : Finset String} {window : List (Env × Op)}
    {m : State} {q : Queue} (hk : q.Keyed) (hs : q.strategy = .roundRobin)
    (hq : m.service.queues.get? id = some q)
    (h : Meets State.step (SelectsAmong id E) m window)
    (hlen : (selections id m window).length ≤ E.card) :
    ∃ picks : List String, (selections id m window).map (Option.map QueueAgent.extension) =
      picks.map some ∧ picks.Nodup ∧ ∀ ext ∈ picks, ext ∈ E := by
  classical
  rcases E.eq_empty_or_nonempty with rfl | hne
  · rw [Finset.card_empty, Nat.le_zero, List.length_eq_zero_iff] at hlen
    exact ⟨[], by rw [hlen]; rfl, List.nodup_nil, fun _ h => nomatch h⟩
  · obtain ⟨ts, hchain, hpicks, hroster⟩ := chain_of_run hne hk hs hq h 0
    obtain ⟨picks, hsome, hmem⟩ := agents_of_turns fun t ht => hchain.holds ht
    refine ⟨picks, hpicks.trans hsome, ?_, hmem⟩
    cases ts with
    | nil => rw [List.map_eq_nil_iff.mp hsome.symm]; exact List.nodup_nil
    | cons t ts =>
      have hcount := card_le_count (hroster (List.cons_ne_nil t ts))
      have hlength := congrArg List.length hpicks
      rw [List.length_map, List.length_map] at hlength
      have hle : (t :: ts).length ≤ E.card := hlength ▸ hlen
      exact nodup_agents q.keys_nodup
        (hchain.nodup (eligibleTurn_periodic _ E) (hle.trans hcount)) hsome

/-- After any history: a selection returns the best agent it may ring, by the strategy of
    the queue, and nothing exactly when every eligible agent is excluded; the round-robin
    cursor is at the agent returned last; and as many round-robin selections as there are
    eligible agents return different agents, while the eligible agents stay the same and
    nothing is excluded. -/
theorem agent_selection {now : Nat} {defs : List QueueDefinition} {history : List (Env × Op)}
    {m : State} (hm : Machine.run State.step (.init now defs) history = some m) {id : String}
    {q : Queue} (hq : m.service.queues.get? id = some q) :
    (∀ exclude, q.SelectsBest exclude) ∧
    q.Unpaused ∧
    (q.strategy = .roundRobin →
      q.CursorAt (selections id (.init now defs) history).reduceOption.getLast?) ∧
    (q.strategy = .roundRobin → ∀ (E : Finset String) (window : List (Env × Op)),
      Meets State.step (SelectsAmong id E) m window →
      (selections id m window).length ≤ E.card →
      ∃ picks : List String, (selections id m window).map (Option.map QueueAgent.extension) =
        picks.map some ∧ picks.Nodup ∧ ∀ ext ∈ picks, ext ∈ E) := by
  obtain ⟨hk, hu⟩ := roster_of_run hm hq
  refine ⟨Queue.selectsBest hk, hu, fun hs => ?_,
    fun hs E window h hlen => selections_distinct hk hs hq h hlen⟩
  obtain ⟨q₀, hq₀, hsame⟩ := queue_at_start hm hq
  obtain ⟨d, rfl⟩ := queue_of_init hq₀
  have hstart : (Queue.ofDefinition now d).CursorAt none := rfl
  have hcursor := cursorAt_run (Queue.Inv.ofDefinition now d).keyed (hsame.symm.trans hs) hq₀ hq
    hm hstart
  rwa [Option.or_none] at hcursor

/-- Two agents who take turns. -/
def supportQueue : QueueDefinition :=
  { id := "support", name := "Support", agents := ["1001", "1002"], strategy := "round-robin",
    agents_ne := by decide }

/-- The support queue once both agents have registered. -/
def supportOnline : Queue :=
  (recomputePresence ⟨fun _ => true, 0⟩ (.ofDefinition 0 supportQueue)).1

def supportState : State := ⟨⟨.ofList [("support", supportOnline)]⟩, none⟩

/-- Two selections, between which presence is synchronised again. -/
def supportWindow : List (Env × Op) :=
  let online : Env := ⟨fun _ => true, 5⟩
  [(online, .nextAvailableAgent "support" []), (online, .syncPresence),
   (online, .nextAvailableAgent "support" [])]

theorem eligible_supportOnline {q : Queue} (hq : q.agents = supportOnline.agents)
    (ext : String) : q.Eligible ext ↔ ext ∈ ({"1001", "1002"} : Finset String) := by
  rw [Queue.Eligible, hq, Finset.mem_insert, Finset.mem_singleton]
  constructor
  · rintro ⟨a, hget, -⟩
    have hmem : ext ∈ ["1001", "1002"] := Queue.mem_keys (q := supportOnline) hget
    simpa using hmem
  · rintro (rfl | rfl)
    · exact ⟨_, rfl, rfl⟩
    · exact ⟨_, rfl, rfl⟩

theorem agent_selection_support :
    supportOnline.SelectsBest ["1002"] ∧
      ∃ picks : List String, (selections "support" supportState supportWindow).map
        (Option.map QueueAgent.extension) = picks.map some ∧ picks.Nodup ∧
        ∀ ext ∈ picks, ext ∈ ({"1001", "1002"} : Finset String) := by
  have hrun : Machine.run State.step (.init 0 [supportQueue])
      [(⟨fun _ => true, 0⟩, .syncPresence)] = some supportState := rfl
  have hq : supportState.service.queues.get? "support" = some supportOnline := rfl
  refine ⟨(agent_selection hrun hq).1 ["1002"],
    (agent_selection hrun hq).2.2.2 rfl {"1001", "1002"} supportWindow ?_ (by decide)⟩
  refine ⟨fun exclude h => ?_, fun exclude h => ?_, fun exclude h => ?_, trivial⟩
  · cases h
    exact ⟨rfl, fun q hq => by cases hq; exact eligible_supportOnline rfl⟩
  · cases h
  · cases h
    exact ⟨rfl, fun q hq => by cases hq; exact eligible_supportOnline rfl⟩

/-- The cursor starts at the first agent, so the second one is rung first. -/
example : (selections "support" supportState supportWindow).map
    (Option.map QueueAgent.extension) = [some "1002", some "1001"] := by decide

end CallNet.Acd
