import Mathlib.Data.List.Nodup

/-!
# Insertion-ordered maps

`OrdMap κ α` is a finite map that remembers the order in which its keys were
first inserted.  Setting a present key replaces the value in place, setting an
absent key appends it, and deleting a key forgets its position.

Every key occurs once.  The `nodup` field carries that fact, so an entry found by
position and an entry found by key are the same entry.
-/

/-- A finite map whose entries are kept in insertion order. -/
structure OrdMap (κ : Type u) (α : Type v) where
  entries : List (κ × α)
  nodup : (entries.map Prod.fst).Nodup

namespace OrdMap

variable {κ : Type u} {α : Type v} [DecidableEq κ]

/-- The map without entries. -/
def empty : OrdMap κ α := ⟨[], List.nodup_nil⟩

/-- The value stored under `k`. -/
def get? (m : OrdMap κ α) (k : κ) : Option α :=
  (m.entries.find? fun e => e.1 = k).map Prod.snd

/-- Whether `k` is a key. -/
def has (m : OrdMap κ α) (k : κ) : Bool := (m.get? k).isSome

/-- The keys, in insertion order. -/
def keys (m : OrdMap κ α) : List κ := m.entries.map Prod.fst

/-- The values, in insertion order of their keys. -/
def values (m : OrdMap κ α) : List α := m.entries.map Prod.snd

/-- The number of entries. -/
def size (m : OrdMap κ α) : Nat := m.entries.length

/-- Apply `f` to every value, keeping keys and order. -/
def mapVals {β : Type w} (f : κ → α → β) (m : OrdMap κ α) : OrdMap κ β :=
  ⟨m.entries.map fun e => (e.1, f e.1 e.2), by
    rw [List.map_map]; exact m.nodup⟩

/-- Remove `k`. -/
def delete (m : OrdMap κ α) (k : κ) : OrdMap κ α :=
  ⟨m.entries.filter fun e => e.1 ≠ k, m.nodup.sublist (List.filter_sublist.map _)⟩

private theorem not_mem_keys_of_get?_eq_none {m : OrdMap κ α} {k : κ}
    (h : m.get? k = none) : k ∉ m.entries.map Prod.fst := by
  simp only [get?, Option.map_eq_none_iff, List.find?_eq_none, decide_eq_true_eq] at h
  simp only [List.mem_map, not_exists, not_and]
  exact fun e he hk => h e he hk

/-- Store `v` under `k`: in place when `k` is present, at the end otherwise. -/
def set (m : OrdMap κ α) (k : κ) (v : α) : OrdMap κ α :=
  if h : m.get? k = none then
    ⟨m.entries ++ [(k, v)], by
      rw [List.map_append, List.nodup_append]
      refine ⟨m.nodup, List.nodup_singleton _, ?_⟩
      rintro a ha b hb rfl
      simp only [List.map_cons, List.map_nil, List.mem_singleton] at hb
      exact not_mem_keys_of_get?_eq_none h (hb ▸ ha)⟩
  else m.mapVals fun k' v' => if k' = k then v else v'

/-- Keep the entries that satisfy `p`. -/
def filter (p : κ → α → Bool) (m : OrdMap κ α) : OrdMap κ α :=
  ⟨m.entries.filter fun e => p e.1 e.2, m.nodup.sublist (List.filter_sublist.map _)⟩

/-- Replace the value under `k`, if there is one, by its image under `f`. -/
def modify (m : OrdMap κ α) (k : κ) (f : α → α) : OrdMap κ α :=
  m.mapVals fun k' v => if k' = k then f v else v

/-- The map built by setting the pairs of a list one after the other. -/
def ofList (l : List (κ × α)) : OrdMap κ α := l.foldl (fun m e => m.set e.1 e.2) empty

/-! ## Lookup after each operation -/

@[simp] theorem get?_empty (k : κ) : (empty : OrdMap κ α).get? k = none := rfl

@[simp] theorem get?_mapVals {β : Type w} (f : κ → α → β) (m : OrdMap κ α) (k : κ) :
    (m.mapVals f).get? k = (m.get? k).map (f k) := by
  obtain ⟨l, hl⟩ := m
  simp only [get?, mapVals]
  clear hl
  induction l with
  | nil => rfl
  | cons e l ih =>
    by_cases he : e.1 = k
    · subst he; simp
    · simpa [List.find?_cons, he] using ih

@[simp] theorem get?_delete_self (m : OrdMap κ α) (k : κ) : (m.delete k).get? k = none := by
  simp [get?, delete, List.find?_eq_none]

theorem get?_delete_ne (m : OrdMap κ α) {k k' : κ} (h : k' ≠ k) :
    (m.delete k).get? k' = m.get? k' := by
  obtain ⟨l, hl⟩ := m
  simp only [get?, delete]
  clear hl
  induction l with
  | nil => rfl
  | cons e l ih =>
    by_cases he : e.1 = k
    · have hne : e.1 ≠ k' := fun h' => h (h' ▸ he)
      simpa [List.filter_cons, List.find?_cons, he, hne, Ne.symm h] using ih
    · by_cases he' : e.1 = k'
      · simp [he', h]
      · simpa [List.filter_cons, List.find?_cons, he, he'] using ih

@[simp] theorem get?_set_self (m : OrdMap κ α) (k : κ) (v : α) : (m.set k v).get? k = some v := by
  unfold set
  split
  · rename_i h
    have hn : m.entries.find? (fun e => e.1 = k) = none := by simpa [get?] using h
    simp [get?, List.find?_append, hn]
  · rename_i h
    obtain ⟨w, hw⟩ := Option.ne_none_iff_exists'.mp h
    simp [hw]

theorem get?_set_ne (m : OrdMap κ α) {k k' : κ} (v : α) (h : k' ≠ k) :
    (m.set k v).get? k' = m.get? k' := by
  unfold set
  split
  · simp [get?, List.find?_append, Ne.symm h]
  · simp only [get?_mapVals, if_neg h, Option.map_id']

theorem get?_set (m : OrdMap κ α) (k k' : κ) (v : α) :
    (m.set k v).get? k' = if k' = k then some v else m.get? k' := by
  split
  · rename_i h; subst h; exact get?_set_self m k' v
  · rename_i h; exact get?_set_ne m v h

/-- A new key goes to the end. -/
theorem values_set_new {m : OrdMap κ α} {k : κ} (v : α) (h : m.get? k = none) :
    (m.set k v).values = m.values ++ [v] := by
  unfold set
  rw [dif_pos h]
  simp only [values, List.map_append, List.map_cons, List.map_nil]

theorem get?_delete (m : OrdMap κ α) (k k' : κ) :
    (m.delete k).get? k' = if k' = k then none else m.get? k' := by
  split
  · rename_i h; subst h; exact get?_delete_self m k'
  · rename_i h; exact get?_delete_ne m h

theorem get?_modify (m : OrdMap κ α) (k k' : κ) (f : α → α) :
    (m.modify k f).get? k' = if k' = k then (m.get? k').map f else m.get? k' := by
  rw [modify, get?_mapVals]
  split
  · rfl
  · exact Option.map_id'

/-! ## Entries by key and by position -/

theorem mem_entries_iff {m : OrdMap κ α} {k : κ} {v : α} :
    (k, v) ∈ m.entries ↔ m.get? k = some v := by
  obtain ⟨l, hl⟩ := m
  simp only [get?]
  induction l with
  | nil => simp
  | cons e l ih =>
    rw [List.map_cons, List.nodup_cons] at hl
    by_cases he : e.1 = k
    · -- the head is the entry of `k`; no later entry has its key
      have htail : (k, v) ∉ l := fun hm =>
        hl.1 (he ▸ List.mem_map.mpr ⟨(k, v), hm, rfl⟩)
      obtain ⟨k', v'⟩ := e
      simp only at he
      subst he
      simp [htail, eq_comm]
    · have hne : (k, v) ≠ e := fun h' => he (h' ▸ rfl)
      simp only [List.mem_cons, hne, false_or, List.find?_cons, he, decide_false]
      exact ih hl.2

theorem get?_filter (p : κ → α → Bool) (m : OrdMap κ α) (k : κ) :
    (m.filter p).get? k = (m.get? k).filter (p k) := by
  apply Option.ext
  intro v
  rw [← mem_entries_iff, Option.filter_eq_some_iff, ← mem_entries_iff]
  simp only [filter, List.mem_filter]

theorem mem_values_iff {m : OrdMap κ α} {v : α} :
    v ∈ m.values ↔ ∃ k, m.get? k = some v := by
  simp only [values, List.mem_map, Prod.exists, exists_eq_right, mem_entries_iff]

/-! ## The values up to order -/

/-- The value of a key, and the values of the others. -/
theorem values_perm {m : OrdMap κ α} {k : κ} {v : α} (h : m.get? k = some v) :
    m.values.Perm (v :: (m.delete k).values) := by
  obtain ⟨l, hl⟩ := m
  simp only [get?, values, delete] at h ⊢
  induction l with
  | nil => cases h
  | cons e l ih =>
    rw [List.map_cons, List.nodup_cons] at hl
    by_cases he : e.1 = k
    · subst he
      have hv : e.2 = v := by simpa using h
      have htail : l.filter (fun e' => e'.1 ≠ e.1) = l := by
        refine List.filter_eq_self.mpr fun e' he' => decide_eq_true fun heq => hl.1 ?_
        exact heq ▸ List.mem_map_of_mem he'
      rw [List.filter_cons_of_neg (by simp), htail, List.map_cons, hv]
    · have hrest : (l.find? fun e => e.1 = k).map Prod.snd = some v := by
        simpa [List.find?_cons, he] using h
      rw [List.filter_cons_of_pos (by simpa using he), List.map_cons, List.map_cons]
      exact ((ih hl.2 hrest).cons e.2).trans (List.Perm.swap v e.2 _)

theorem delete_of_absent {m : OrdMap κ α} {k : κ} (h : m.get? k = none) :
    (m.delete k).values = m.values := by
  have habsent := not_mem_keys_of_get?_eq_none h
  have hkept : (m.entries.filter fun e => e.1 ≠ k) = m.entries :=
    List.filter_eq_self.mpr fun e he =>
      decide_eq_true fun heq => habsent (heq ▸ List.mem_map_of_mem he)
  exact congrArg (List.map Prod.snd) hkept

theorem delete_set_values (m : OrdMap κ α) (k : κ) (v : α) :
    ((m.set k v).delete k).values = (m.delete k).values := by
  unfold set
  split
  · simp [values, delete, List.filter_append]
  · simp only [values, delete, mapVals, List.filter_map, List.map_map]
    refine List.map_congr_left fun e he => ?_
    have hne : e.1 ≠ k := by simpa using (List.mem_filter.mp he).2
    simp [hne]

/-- After an entry was stored, the values are the new one and those of the other keys. -/
theorem values_set_perm (m : OrdMap κ α) (k : κ) (v : α) :
    (m.set k v).values.Perm (v :: (m.delete k).values) :=
  delete_set_values m k v ▸ values_perm (get?_set_self m k v)

/-- The values of all keys are those of `k` and of the other keys. -/
theorem values_perm_toList (m : OrdMap κ α) (k : κ) :
    m.values.Perm ((m.get? k).toList ++ (m.delete k).values) := by
  cases h : m.get? k with
  | none => exact .of_eq (delete_of_absent h).symm
  | some v => exact values_perm h

theorem size_eq_zero_iff {m : OrdMap κ α} : m.size = 0 ↔ ∀ k, m.get? k = none := by
  unfold size
  rw [List.length_eq_zero_iff]
  constructor
  · intro hempty k
    simp [get?, hempty]
  · intro hnone
    refine List.eq_nil_iff_forall_not_mem.mpr fun e he => ?_
    have hget := mem_entries_iff.mp he
    rw [hnone] at hget
    cases hget

/-- The number of values with a property, counted by the keys that have one. -/
theorem countP_values_eq_length {m : OrdMap κ α} {p : α → Bool} {ks : List κ} (hks : ks.Nodup)
    (hmem : ∀ k, k ∈ ks ↔ ∃ v, m.get? k = some v ∧ p v) : m.values.countP p = ks.length := by
  have hnodup : ((m.entries.filter fun e => p e.2).map Prod.fst).Nodup :=
    m.nodup.sublist (List.filter_sublist.map _)
  have hperm : ((m.entries.filter fun e => p e.2).map Prod.fst).Perm ks := by
    refine (List.perm_ext_iff_of_nodup hnodup hks).mpr fun k => ?_
    rw [hmem k]
    constructor
    · rintro hk
      obtain ⟨e, he, rfl⟩ := List.mem_map.mp hk
      obtain ⟨he, hp⟩ := List.mem_filter.mp he
      exact ⟨e.2, mem_entries_iff.mp he, hp⟩
    · rintro ⟨v, hv, hp⟩
      exact List.mem_map.mpr ⟨(k, v), List.mem_filter.mpr ⟨mem_entries_iff.mpr hv, hp⟩, rfl⟩
  calc m.values.countP p
    _ = (m.entries.filter fun e => p e.2).length := by
        rw [values, List.countP_map, List.countP_eq_length_filter]; rfl
    _ = ks.length := by rw [← hperm.length_eq, List.length_map]

/-- A property of every pair of a list holds of every entry of the map built from it. -/
theorem ofList_forall {P : κ → α → Prop} {l : List (κ × α)} (h : ∀ e ∈ l, P e.1 e.2)
    {k : κ} {v : α} (hk : (ofList l).get? k = some v) : P k v := by
  have key : ∀ (l : List (κ × α)) (m : OrdMap κ α), (∀ e ∈ l, P e.1 e.2) →
      (∀ k v, m.get? k = some v → P k v) →
      ∀ k v, (l.foldl (fun m e => m.set e.1 e.2) m).get? k = some v → P k v := by
    intro l
    induction l with
    | nil => exact fun m _ hm => hm
    | cons e l ih =>
      intro m hl hm
      apply ih (m.set e.1 e.2) fun e' he' => hl e' (List.mem_cons_of_mem _ he')
      intro k v hk
      rw [get?_set] at hk
      split at hk
      · rename_i hke
        cases hk
        exact hke ▸ hl e List.mem_cons_self
      · exact hm k v hk
  exact key l empty h (by simp) k v hk

/-- The keys of a map built from a list are those of the list. -/
theorem isSome_get?_ofList (l : List (κ × α)) (k : κ) :
    ((ofList l).get? k).isSome = true ↔ k ∈ l.map Prod.fst := by
  have key : ∀ (l : List (κ × α)) (m : OrdMap κ α),
      ((l.foldl (fun m e => m.set e.1 e.2) m).get? k).isSome = true ↔
        k ∈ l.map Prod.fst ∨ (m.get? k).isSome = true := by
    intro l
    induction l with
    | nil => simp
    | cons e l ih =>
      intro m
      rw [List.foldl_cons, ih, get?_set, List.map_cons, List.mem_cons]
      split
      · rename_i heq
        simp [heq]
      · rename_i hne
        simp [hne]
  rw [ofList, key l empty]
  simp

/-- The map built from pairs with distinct keys has these pairs. -/
theorem get?_ofList {l : List (κ × α)} (hl : (l.map Prod.fst).Nodup) {k : κ} {v : α} :
    (ofList l).get? k = some v ↔ (k, v) ∈ l := by
  have key : ∀ (l : List (κ × α)) (m : OrdMap κ α), (l.map Prod.fst).Nodup →
      ((l.foldl (fun m e => m.set e.1 e.2) m).get? k = some v ↔
        (k, v) ∈ l ∨ (k ∉ l.map Prod.fst ∧ m.get? k = some v)) := by
    intro l
    induction l with
    | nil => simp
    | cons e l ih =>
      intro m hl
      rw [List.map_cons, List.nodup_cons] at hl
      rw [List.foldl_cons, ih _ hl.2, get?_set]
      obtain ⟨k', v'⟩ := e
      by_cases hk : k = k'
      · subst hk
        have habsent : ∀ w, (k, w) ∉ l := fun w hm =>
          hl.1 (List.mem_map.mpr ⟨(k, w), hm, rfl⟩)
        simp [habsent, eq_comm]
      · simp [hk]
  exact (key l empty hl).trans (by simp)

end OrdMap
