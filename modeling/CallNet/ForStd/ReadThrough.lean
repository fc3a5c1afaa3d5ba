import Mathlib.Logic.Function.Basic
import CallNet.ForStd.Machine

/-!
# Read-through caches

A cache in front of a database.  A lookup that misses reads the database and stores what it
read, a row or the absence of one; a notice drops the entries it covers.  The read and the
storing are separate steps, so commits and notices may come between them.

An entry is fresh when the database held it at the last notice that covered its key, or
later.  `fresh_throughout_iff` says exactly when all entries are fresh once the lookups that
a notice has overtaken are over.

- `Fresh.step`: a timely step keeps the entries fresh
- `Fresh.timely`: a step into fresh entries is timely
- `fresh_throughout_iff`: the two over whole runs
-/

namespace ReadThrough

/-- What the database holds for a key, and which keys a notice covers. -/
structure Source (κ : Type u) (ν : κ → Type v) (δ : Type w) (ι : Type x) where
  load : (key : κ) → δ → ν key
  covers : ι → κ → Bool

/-- A lookup in flight. -/
structure Lookup (κ : Type u) (ν : κ → Type v) where
  key : κ
  /-- What it has read, once the database has answered. -/
  value : Option (ν key)
  /-- A notice has covered its key since it began. -/
  overtaken : Bool

structure State (κ : Type u) (ν : κ → Type v) (δ : Type w) where
  db : δ
  cache : (key : κ) → Option (ν key)
  lookups : Nat → Option (Lookup κ ν)
  /-- What the database has held for a key at the last notice that covered it and since. -/
  since : (key : κ) → List (ν key)

inductive Event (κ : Type u) (δ : Type w) (ι : Type x) where
  /-- A lookup misses. -/
  | start (id : Nat) (key : κ)
  /-- The database answers. -/
  | read (id : Nat)
  /-- The answer is stored. -/
  | finish (id : Nat)
  /-- The database does not answer; nothing is stored. -/
  | fail (id : Nat)
  | commit (db : δ)
  | invalidate (notice : ι)

section

variable {κ : Type u} {ν : κ → Type v} {δ : Type w} {ι : Type x} (src : Source κ ν δ ι)

/-- An empty cache. -/
def init (db : δ) : State κ ν δ where
  db
  cache := fun _ => none
  lookups := fun _ => none
  since := fun key => [src.load key db]

/-- A notice overtakes the lookups of the keys it covers. -/
def Lookup.overtakenBy (notice : ι) (l : Lookup κ ν) : Lookup κ ν :=
  { l with overtaken := l.overtaken || src.covers notice l.key }

/-- The lookups with another state of one of them. -/
def State.setLookup (s : State κ ν δ) (id : Nat) (l : Option (Lookup κ ν)) : State κ ν δ :=
  { s with lookups := Function.update s.lookups id l }

/-- No lookup of the key that a notice has overtaken is in flight, but for `except`. -/
def State.Settled (s : State κ ν δ) (key : κ) (except : Nat → Prop) : Prop :=
  ∀ id l, s.lookups id = some l → ¬ except id → l.key = key → l.overtaken = false

/-- Once the lookups of a key that a notice has overtaken are over, its entry holds nothing
    older than what the database held at the last notice. -/
def Fresh (s : State κ ν δ) : Prop :=
  ∀ key, s.Settled key (fun _ => False) → ∀ value, s.cache key = some value → value ∈ s.since key

/-- The last of the overtaken lookups of a key stores a value that the database has held
    since the notice, or fails and leaves such a value behind. -/
def Timely (s : State κ ν δ) : Event κ δ ι → Prop
  | .finish id => ∀ key value overtaken, s.lookups id = some ⟨key, some value, overtaken⟩ →
      s.Settled key (· = id) → value ∈ s.since key
  | .fail id => ∀ key, s.lookups id = some ⟨key, none, true⟩ → s.Settled key (· = id) →
      ∀ value, s.cache key = some value → value ∈ s.since key
  | _ => True

variable {src}

theorem State.setLookup_self (s : State κ ν δ) (id : Nat) (l : Option (Lookup κ ν)) :
    (s.setLookup id l).lookups id = l := Function.update_self ..

theorem State.setLookup_of_ne (s : State κ ν δ) {id id' : Nat} (l : Option (Lookup κ ν))
    (h : id' ≠ id) : (s.setLookup id l).lookups id' = s.lookups id' := Function.update_of_ne h ..

theorem fresh_init (db : δ) : Fresh (init src db) := by
  intro key _ value h
  cases h

/-- The others are settled once one lookup is over. -/
theorem State.Settled.of_ended {s : State κ ν δ} {id : Nat} {key : κ}
    (h : (s.setLookup id none).Settled key fun _ => False) : s.Settled key (· = id) := by
  intro id' l hl hne hkey
  have hsame : (s.setLookup id none).lookups id' = some l := by
    rw [State.setLookup_of_ne _ _ hne, hl]
  exact h id' l hsame (fun hf => hf) hkey

theorem State.Settled.ended {s : State κ ν δ} {id : Nat} {key : κ} (h : s.Settled key (· = id)) :
    (s.setLookup id none).Settled key fun _ => False := by
  intro id' l hl _ hkey
  by_cases hid : id' = id
  · rw [hid, State.setLookup_self] at hl
    cases hl
  · rw [State.setLookup_of_ne _ _ hid] at hl
    exact h id' l hl hid hkey

end

section

variable {κ : Type u} [DecidableEq κ] {ν : κ → Type v} {δ : Type w} {ι : Type x}
variable (src : Source κ ν δ ι)

def step (s : State κ ν δ) : Event κ δ ι → Option (State κ ν δ)
  | .start id key =>
    if (s.lookups id).isNone ∧ (s.cache key).isNone then
      some (s.setLookup id (some ⟨key, none, false⟩))
    else none
  | .read id =>
    match s.lookups id with
    | some ⟨key, none, overtaken⟩ =>
      some (s.setLookup id (some ⟨key, some (src.load key s.db), overtaken⟩))
    | _ => none
  | .finish id =>
    match s.lookups id with
    | some ⟨key, some value, _⟩ =>
      some { s.setLookup id none with cache := Function.update s.cache key (some value) }
    | _ => none
  | .fail id =>
    match s.lookups id with
    | some ⟨_, none, _⟩ => some (s.setLookup id none)
    | _ => none
  | .commit db => some { s with db, since := fun key => src.load key db :: s.since key }
  | .invalidate notice =>
    some
      { s with
        cache := fun key => if src.covers notice key then none else s.cache key
        lookups := fun id => (s.lookups id).map (Lookup.overtakenBy src notice)
        since := fun key => if src.covers notice key then [src.load key s.db] else s.since key }

variable {src}

section

attribute [local simp] step

/-- An event that cannot happen is timely. -/
theorem timely_of_step_eq_none {s : State κ ν δ} {e : Event κ δ ι}
    (hstep : step src s e = none) : Timely s e := by
  cases e with
  | finish id =>
    intro key value overtaken hlookup
    simp [hlookup] at hstep
  | fail id =>
    intro key hlookup
    simp [hlookup] at hstep
  | _ => trivial

end

/-- A timely step keeps the entries fresh. -/
theorem Fresh.step {s s' : State κ ν δ} {e : Event κ δ ι} (h : Fresh s) (htimely : Timely s e)
    (hstep : ReadThrough.step src s e = some s') : Fresh s' := by
  cases e with
  | start id key =>
    simp only [ReadThrough.step] at hstep
    split at hstep
    · rename_i hfree
      cases hstep
      intro key' hsettled
      apply h key'
      -- the lookups that were in flight still are
      intro id' l hl hx hkey
      have hne : id' ≠ id := by
        intro heq
        rw [heq, Option.isNone_iff_eq_none.mp hfree.1] at hl
        cases hl
      have hsame : (s.setLookup id (some ⟨key, none, false⟩)).lookups id' = some l := by
        rw [State.setLookup_of_ne _ _ hne, hl]
      exact hsettled id' l hsame hx hkey
    · cases hstep
  | read id =>
    simp only [ReadThrough.step] at hstep
    split at hstep
    · rename_i key overtaken hlookup
      cases hstep
      intro key' hsettled
      apply h key'
      intro id' l hl hx hkey
      by_cases hid : id' = id
      · -- the lookup that reads keeps its key and its flag
        subst hid
        rw [hlookup] at hl
        cases hl
        exact hsettled id' ⟨key, some (src.load key s.db), overtaken⟩
          (State.setLookup_self ..) hx hkey
      · have hsame : (s.setLookup id (some ⟨key, some (src.load key s.db), overtaken⟩)).lookups id' =
            some l := by
          rw [State.setLookup_of_ne _ _ hid, hl]
        exact hsettled id' l hsame hx hkey
    · cases hstep
  | finish id =>
    simp only [ReadThrough.step] at hstep
    split at hstep
    · rename_i key value overtaken hlookup
      cases hstep
      intro key' hsettled value' hcache
      have hothers : s.Settled key' (· = id) := State.Settled.of_ended hsettled
      by_cases hkey : key' = key
      · subst hkey
        simp only [Function.update_self, Option.some.injEq] at hcache
        rw [← hcache]
        exact htimely key' value overtaken hlookup hothers
      · -- another key's entry is untouched, and the lookup was none of its own
        simp only [Function.update_of_ne hkey] at hcache
        apply h key' _ value' hcache
        intro id' l hl _ hk
        by_cases hid : id' = id
        · rw [hid, hlookup] at hl
          cases hl
          exact absurd hk.symm hkey
        · exact hothers id' l hl hid hk
    · cases hstep
  | fail id =>
    simp only [ReadThrough.step] at hstep
    split at hstep
    · rename_i key overtaken hlookup
      cases hstep
      intro key' hsettled value' hcache
      have hothers : s.Settled key' (· = id) := State.Settled.of_ended hsettled
      by_cases hlast : key' = key ∧ overtaken = true
      · obtain ⟨rfl, rfl⟩ := hlast
        exact htimely key' hlookup hothers value' hcache
      · apply h key' _ value' hcache
        intro id' l hl _ hk
        by_cases hid : id' = id
        · rw [hid, hlookup] at hl
          cases hl
          by_contra hovertaken
          exact hlast ⟨hk.symm, by simpa using hovertaken⟩
        · exact hothers id' l hl hid hk
    · cases hstep
  | commit db =>
    simp only [ReadThrough.step, Option.some.injEq] at hstep
    subst hstep
    intro key hsettled value hcache
    exact List.mem_cons_of_mem _ (h key hsettled value hcache)
  | invalidate notice =>
    simp only [ReadThrough.step, Option.some.injEq] at hstep
    subst hstep
    intro key hsettled value hcache
    simp only at hcache ⊢
    by_cases hcovered : src.covers notice key = true
    · simp [hcovered] at hcache
    · simp only [hcovered, Bool.false_eq_true, if_false] at hcache ⊢
      apply h key _ value hcache
      intro id l hl hx hkey
      have hmapped := hsettled id (l.overtakenBy src notice) (by simp [hl]) hx hkey
      simp only [Lookup.overtakenBy, Bool.or_eq_false_iff] at hmapped
      exact hmapped.1

/-- A step into fresh entries is timely. -/
theorem Fresh.timely {s s' : State κ ν δ} {e : Event κ δ ι}
    (hstep : ReadThrough.step src s e = some s') (h : Fresh s') : Timely s e := by
  cases e with
  | finish id =>
    intro key value overtaken hlookup hothers
    simp only [ReadThrough.step, hlookup, Option.some.injEq] at hstep
    subst hstep
    exact h key hothers.ended value (Function.update_self ..)
  | fail id =>
    intro key hlookup hothers value hcache
    simp only [ReadThrough.step, hlookup, Option.some.injEq] at hstep
    subst hstep
    exact h key hothers.ended value hcache
  | _ => trivial

/-- The entries are fresh along a run exactly when all its events are timely. -/
theorem fresh_throughout_iff (db : δ) (es : List (Event κ δ ι)) :
    Machine.Throughout (step src) Fresh (init src db) es ↔
      Machine.Meets (step src) Timely (init src db) es := by
  apply Machine.throughout_iff_meets (I := Fresh) (P := fun _ _ => True)
  · exact fun s h => h
  · exact fun s e s' h _ htimely hstep => h.step htimely hstep
  · exact fun s e s' _ _ hstep h => h.timely hstep
  · exact fun s e hnone => timely_of_step_eq_none hnone
  · exact fresh_init db
  · exact Machine.meets_of_mem fun _ _ => trivial

end

end ReadThrough
