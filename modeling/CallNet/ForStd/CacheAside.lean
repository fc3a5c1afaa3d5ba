import CallNet.ForStd.Machine

/-!
# Caches beside a database

Processes read a database and put what they read into a cache; others write the database, and
after that put a value into the cache or drop the entry.  The two steps of each are separate.

A view says what a state shows of this: what the database holds for a key, what the cache
holds, and which processes have written the key without having touched the cache since.  The
entries are settled when each one is absent or what the database holds, but for the keys that
some process still owes a cache operation.

- `View.settled_iff`: a step keeps the entries settled exactly when it is timely
- `View.Settled.coherent`: settled entries, once no process owes an operation
- `owed_of_quiet`, `owed_of_commit`, `owed_of_set`: the operations due, when calls owe them
-/

namespace CacheAside

structure View (σ : Type u) (κ : Type v) (ν : Type w) (ι : Type x) where
  /-- What a read of the database would put into the cache. -/
  content : σ → κ → Option ν
  cached : σ → κ → Option ν
  /-- The process has written the key and not yet done its cache operation. -/
  due : σ → κ → ι → Prop

/-- What a step does to what a view shows. -/
inductive Effect (κ : Type v) (ν : Type w) (ι : Type x) where
  | keeps
  | commits (id : ι) (key : κ)
  /-- The entry is set, or dropped. -/
  | sets (id : ι) (key : κ) (value : Option ν)
  | expires (key : κ)

namespace Effect

variable {κ : Type v} {ν : Type w} {ι : Type x} [DecidableEq κ]

/-- The entry of a key after the step. -/
def cached (before : κ → Option ν) (key : κ) : Effect κ ν ι → Option ν
  | .sets _ key' value => if key = key' then value else before key
  | .expires key' => if key = key' then none else before key
  | .keeps | .commits .. => before key

/-- The operations that are due after the step. -/
def due (before : κ → ι → Prop) (key : κ) (id : ι) : Effect κ ν ι → Prop
  | .commits id' key' => (key = key' ∧ id = id') ∨ before key id
  | .sets id' key' _ => ¬ (key = key' ∧ id = id') ∧ before key id
  | .keeps | .expires _ => before key id

end Effect

namespace View

variable {σ : Type u} {κ : Type v} {ν : Type w} {ι : Type x} (V : View σ κ ν ι)

/-- Every entry is absent or current, but for the keys with an operation due. -/
def Settled (s : σ) : Prop :=
  ∀ key, (∃ id, V.due s key id) ∨ V.cached s key = none ∨ V.cached s key = V.content s key

/-- Every entry is absent or current. -/
def Coherent (s : σ) : Prop :=
  ∀ key, V.cached s key = none ∨ V.cached s key = V.content s key

/-- A value that is set is current, or another process has an operation due on its key. -/
def Timely (s : σ) : Effect κ ν ι → Prop
  | .sets id key (some value) => V.content s key = some value ∨ ∃ id', id' ≠ id ∧ V.due s key id'
  | _ => True

/-- The step has the effect. -/
structure Has [DecidableEq κ] (s s' : σ) (e : Effect κ ν ι) : Prop where
  content : ∀ key, V.content s' key = V.content s key ∨ ∃ id, e = .commits id key
  cached : ∀ key, V.cached s' key = e.cached (V.cached s) key
  due : ∀ key id, V.due s' key id ↔ e.due (V.due s) key id

variable {V} {s s' : σ} {e : Effect κ ν ι}

theorem Settled.coherent (h : V.Settled s) (hdue : ∀ key id, ¬ V.due s key id) : V.Coherent s := by
  intro key
  rcases h key with ⟨id, hid⟩ | hentry
  · exact absurd hid (hdue key id)
  · exact hentry

theorem settled_of_empty (h : ∀ key, V.cached s key = none) : V.Settled s :=
  fun key => .inr (.inl (h key))

/-- A key whose content, entry and operations due are as before. -/
theorem Settled.of_same (h : V.Settled s) {key : κ} (hcontent : V.content s' key = V.content s key)
    (hcached : V.cached s' key = V.cached s key) (hdue : ∀ id, V.due s key id → V.due s' key id) :
    (∃ id, V.due s' key id) ∨ V.cached s' key = none ∨ V.cached s' key = V.content s' key := by
  rw [hcontent, hcached]
  exact (h key).imp_left fun ⟨id, hid⟩ => ⟨id, hdue id hid⟩

variable [DecidableEq κ]

/-- A step keeps the entries settled exactly when it is timely. -/
theorem settled_iff (h : V.Settled s) (heffect : V.Has s s' e) : V.Settled s' ↔ V.Timely s e := by
  obtain ⟨hcontent, hcached, hdue⟩ := heffect
  cases e with
  | keeps =>
    refine iff_of_true (fun key => ?_) trivial
    have hsame := (hcontent key).resolve_right nofun
    exact h.of_same hsame (hcached key) fun id => (hdue key id).mpr
  | commits id key =>
    refine iff_of_true (fun key' => ?_) trivial
    by_cases hkey : key' = key
    · exact .inl ⟨id, (hdue key' id).mpr (.inl ⟨hkey, rfl⟩)⟩
    · have hsame : V.content s' key' = V.content s key' := by
        refine (hcontent key').resolve_right ?_
        rintro ⟨id', heq⟩
        cases heq
        exact hkey rfl
      exact h.of_same hsame (hcached key') fun id' hid' => (hdue key' id').mpr (.inr hid')
  | sets id key value =>
    have hsame : ∀ key', V.content s' key' = V.content s key' := fun key' =>
      (hcontent key').resolve_right nofun
    have hothers : ∀ key', key' ≠ key →
        (∃ id, V.due s' key' id) ∨ V.cached s' key' = none ∨ V.cached s' key' = V.content s' key' := by
      intro key' hkey
      have hentry := hcached key'
      simp only [Effect.cached, if_neg hkey] at hentry
      exact h.of_same (hsame key') hentry fun id' hid' =>
        (hdue key' id').mpr ⟨fun heq => hkey heq.1, hid'⟩
    have hentry := hcached key
    simp only [Effect.cached, if_true] at hentry
    have hdueKey : ∀ id', V.due s' key id' ↔ id' ≠ id ∧ V.due s key id' := by
      intro id'
      rw [hdue key id']
      simp only [Effect.due, true_and, ne_eq]
    cases value with
    | none =>
      refine iff_of_true (fun key' => ?_) trivial
      by_cases hkey : key' = key
      · rw [hkey]
        exact .inr (.inl hentry)
      · exact hothers key' hkey
    | some value =>
      constructor
      · intro hsettled
        rcases hsettled key with ⟨id', hid'⟩ | hnone | hcurrent
        · have hother := (hdueKey id').mp hid'
          exact .inr ⟨id', hother⟩
        · rw [hentry] at hnone
          cases hnone
        · rw [hentry, hsame key] at hcurrent
          exact .inl hcurrent.symm
      · intro htimely key'
        by_cases hkey : key' = key
        · rw [hkey]
          rcases htimely with hcurrent | ⟨id', hne, hid'⟩
          · refine .inr (.inr ?_)
            rw [hentry, hsame key, hcurrent]
          · exact .inl ⟨id', (hdueKey id').mpr ⟨hne, hid'⟩⟩
        · exact hothers key' hkey
  | expires key =>
    refine iff_of_true (fun key' => ?_) trivial
    have hsame := (hcontent key').resolve_right nofun
    have hentry := hcached key'
    by_cases hkey : key' = key
    · simp only [Effect.cached, if_pos hkey] at hentry
      exact .inr (.inl hentry)
    · simp only [Effect.cached, if_neg hkey] at hentry
      exact h.of_same hsame hentry fun id => (hdue key' id).mpr

end View

/-! ## Operations that calls owe -/

section

variable {κ : Type u} {ι : Type v} {C : Type w} {calls calls' : ι → Option C} {owes : C → Option κ}
variable {id : ι} {call : C} {key₀ : κ}

/-- The operation that is due is that of a call which owes it. -/
def Owed (calls : ι → Option C) (owes : C → Option κ) (key : κ) (id : ι) : Prop :=
  (calls id).bind owes = some key

variable [DecidableEq ι]

theorem owed_update (hcalls : ∀ id', calls' id' = if id' = id then some call else calls id')
    (key : κ) (id' : ι) : Owed calls' owes key id' ↔
      if id' = id then owes call = some key else Owed calls owes key id' := by
  unfold Owed
  rw [hcalls id']
  split <;> exact Iff.rfl

/-- A call that owes nothing goes on to owe nothing. -/
theorem owed_of_quiet (hcalls : ∀ id', calls' id' = if id' = id then some call else calls id')
    (hbefore : (calls id).bind owes = none) (hafter : owes call = none) (key : κ) (id' : ι) :
    Owed calls' owes key id' ↔ Owed calls owes key id' := by
  rw [owed_update hcalls]
  split
  · rename_i heq
    rw [heq, Owed, hbefore, hafter]
  · exact Iff.rfl

/-- A call comes to owe an operation. -/
theorem owed_of_commit (hcalls : ∀ id', calls' id' = if id' = id then some call else calls id')
    (hbefore : (calls id).bind owes = none) (hafter : owes call = some key₀) (key : κ) (id' : ι) :
    Owed calls' owes key id' ↔ (key = key₀ ∧ id' = id) ∨ Owed calls owes key id' := by
  rw [owed_update hcalls]
  by_cases heq : id' = id
  · rw [if_pos heq, heq, Owed, hbefore, hafter, Option.some.injEq]
    simp [eq_comm]
  · simp [heq]

/-- A call does what it owed, if it owed anything. -/
theorem owed_of_set (hcalls : ∀ id', calls' id' = if id' = id then some call else calls id')
    (hbefore : ∀ key, (calls id).bind owes = some key → key = key₀) (hafter : owes call = none)
    (key : κ) (id' : ι) :
    Owed calls' owes key id' ↔ ¬ (key = key₀ ∧ id' = id) ∧ Owed calls owes key id' := by
  rw [owed_update hcalls]
  by_cases heq : id' = id
  · rw [if_pos heq, heq, hafter]
    refine iff_of_false nofun ?_
    rintro ⟨hother, howed⟩
    exact hother ⟨hbefore key howed, rfl⟩
  · simp [heq]

end

end CacheAside
