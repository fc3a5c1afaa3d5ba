import CallNet.ForStd.OrdMap
import Mathlib.Data.List.Dedup
import Mathlib.Data.List.Perm.Subperm

/-!
# A bounded memory of keys

A set of keys in insertion order that forgets a batch of its oldest ones when it grows over its
capacity.  `Remembers` says which part of the history of marked keys the set holds, and
`Spaced` what that gives for a user who marks only keys that are not in the set: between two
marks of one key lie many distinct others.
-/

namespace RecentKeys

variable {κ : Type u} [DecidableEq κ]

/-- Remove the `n` oldest keys. -/
def dropOldest (n : Nat) (m : OrdMap κ Unit) : OrdMap κ Unit :=
  ⟨m.entries.drop n, m.nodup.sublist ((List.drop_sublist n _).map _)⟩

/-- Add `k`, and drop the oldest `batch` keys when there are more than `capacity`. -/
def mark (capacity batch : Nat) (m : OrdMap κ Unit) (k : κ) : OrdMap κ Unit :=
  let m := m.set k ()
  if m.size > capacity then dropOldest batch m else m

omit [DecidableEq κ] in
@[simp] theorem keys_dropOldest (n : Nat) (m : OrdMap κ Unit) :
    (dropOldest n m).keys = m.keys.drop n := List.map_drop

omit [DecidableEq κ] in
theorem length_keys {α : Type v} (m : OrdMap κ α) : m.keys.length = m.size := List.length_map _

theorem mem_keys_iff {m : OrdMap κ Unit} {k : κ} : k ∈ m.keys ↔ m.has k := by
  simp only [OrdMap.keys, List.mem_map, OrdMap.has, Option.isSome_iff_exists]
  constructor
  · rintro ⟨e, he, rfl⟩
    exact ⟨e.2, OrdMap.mem_entries_iff.mp he⟩
  · rintro ⟨v, hv⟩
    exact ⟨(k, v), OrdMap.mem_entries_iff.mpr hv, rfl⟩

/-- A key that is not there goes to the end. -/
theorem keys_set_new {m : OrdMap κ Unit} {k : κ} (h : ¬ m.has k) :
    (m.set k ()).keys = m.keys ++ [k] := by
  have hnone : m.get? k = none := by simpa [OrdMap.has] using h
  unfold OrdMap.set
  rw [dif_pos hnone]
  simp only [OrdMap.keys, List.map_append, List.map_cons, List.map_nil]

/-- The set holds the last keys of the history `log`: all of them, or else at least as many as
    an eviction leaves. -/
structure Remembers (capacity batch : Nat) (log : List κ) (m : OrdMap κ Unit) : Prop where
  suffix : ∃ d ≤ log.length, m.keys = log.drop d ∧ (d = 0 ∨ capacity < m.size + batch)
  bounded : m.size ≤ capacity

/-- Between two marks of one key lie more than `n` distinct keys. -/
def Spaced (n : Nat) (log : List κ) : Prop :=
  ∀ (i j : Nat) (k : κ), i < j → log[i]? = some k → log[j]? = some k →
    n < ((log.take j).drop (i + 1)).dedup.length

variable {capacity batch : Nat} {log : List κ} {m : OrdMap κ Unit} {k : κ}

omit [DecidableEq κ] in
theorem remembers_empty : Remembers capacity batch ([] : List κ) .empty where
  suffix := ⟨0, Nat.le_refl _, rfl, .inl rfl⟩
  bounded := Nat.zero_le _

theorem Remembers.mark (h : Remembers capacity batch log m) (hk : ¬ m.has k)
    (hbatch : 0 < batch) :
    Remembers capacity batch (log ++ [k]) (mark capacity batch m k) := by
  obtain ⟨d, hd, hkeys, hfull⟩ := h.suffix
  have hbound := h.bounded
  have hset : (m.set k ()).keys = (log ++ [k]).drop d := by
    rw [keys_set_new hk, hkeys, List.drop_append_of_le_length hd]
  have hsize : (m.set k ()).size = m.size + 1 := by
    rw [← length_keys, keys_set_new hk, List.length_append, length_keys]
    rfl
  simp only [RecentKeys.mark, hsize]
  split
  · -- the eviction starts from one key more than the capacity
    have hdrop : (dropOldest batch (m.set k ())).size = m.size + 1 - batch := by
      rw [← length_keys, keys_dropOldest, List.length_drop, length_keys, hsize]
    refine ⟨⟨min (d + batch) (log ++ [k]).length, Nat.min_le_right .., ?_, ?_⟩, by omega⟩
    · rw [keys_dropOldest, hset, List.drop_drop]
      rcases Nat.le_total (d + batch) (log ++ [k]).length with hle | hle
      · rw [Nat.min_eq_left hle]
      · rw [Nat.min_eq_right hle, List.drop_of_length_le hle, List.drop_length]
    · right
      omega
  · refine ⟨⟨d, ?_, hset, ?_⟩, by omega⟩
    · simp only [List.length_append, List.length_cons, List.length_nil]
      omega
    · omega

/-- A forgotten key has more distinct successors than an eviction leaves room for. -/
theorem Remembers.forgotten {n : Nat} (h : Remembers capacity batch log m)
    (hn : n + batch ≤ capacity) {i : Nat} (hi : log[i]? = some k) (hk : ¬ m.has k) :
    n < (log.drop (i + 1)).dedup.length := by
  obtain ⟨d, -, hkeys, hfull⟩ := h.suffix
  have hlt : i < d := by
    by_contra hge
    apply hk
    rw [← mem_keys_iff, hkeys]
    refine List.mem_of_getElem? (i := i - d) ?_
    rw [List.getElem?_drop, Nat.add_sub_cancel' (Nat.le_of_not_lt hge), hi]
  -- the keys still held are distinct and all of them newer
  have hsub : m.keys.Subperm (log.drop (i + 1)).dedup := by
    refine List.subperm_of_subset m.nodup fun x hx => List.mem_dedup.mpr ?_
    rw [hkeys] at hx
    exact (List.drop_subset_drop_left _ hlt) hx
  have hle := hsub.length_le
  rw [length_keys] at hle
  omega

theorem spaced_nil (n : Nat) : Spaced n ([] : List κ) := by
  intro i j k _ hi
  simp at hi

theorem Spaced.concat {n : Nat} (h : Spaced n log) (hm : Remembers capacity batch log m)
    (hn : n + batch ≤ capacity) (hk : ¬ m.has k) : Spaced n (log ++ [k]) := by
  intro i j k' hij hi hj
  have hjlt : j < (log ++ [k]).length := (List.getElem?_eq_some_iff.mp hj).1
  rw [List.length_append, List.length_singleton] at hjlt
  rw [List.getElem?_append_left (by omega)] at hi
  rw [List.take_append_of_le_length (by omega)]
  rcases Nat.lt_or_ge j log.length with hlt | hge
  · rw [List.getElem?_append_left hlt] at hj
    exact h i j k' hij hi hj
  · have hj' : j = log.length := by omega
    subst hj'
    rw [List.getElem?_append_right (Nat.le_refl _), Nat.sub_self] at hj
    cases hj
    rw [List.take_length]
    exact hm.forgotten hn hi hk

end RecentKeys
