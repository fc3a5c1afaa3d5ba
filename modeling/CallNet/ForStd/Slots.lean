/-!
# Lists as tables

A list whose entries are told by their place, after one entry was set or one came to its end.
-/

namespace List

variable {α : Type u} {l : List α} {a b : α} {i n : Nat}

theorem lt_length_of_getElem? (h : l[n]? = some b) : n < l.length :=
  (getElem?_eq_some_iff.mp h).1

/-- An entry stays in its place when another comes to the end. -/
theorem getElem?_concat_left (h : l[n]? = some b) : (l ++ [a])[n]? = some b :=
  (getElem?_append_left (lt_length_of_getElem? h)).trans h

theorem getElem?_concat_cases (h : (l ++ [a])[n]? = some b) :
    (n < l.length ∧ l[n]? = some b) ∨ (n = l.length ∧ b = a) := by
  have hn := lt_length_of_getElem? h
  rw [length_append, length_singleton] at hn
  rcases Nat.lt_or_ge n l.length with hlt | hge
  · exact .inl ⟨hlt, by rwa [getElem?_append_left hlt] at h⟩
  · rw [getElem?_append_right hge] at h
    exact .inr ⟨by omega, mem_singleton.mp (mem_of_getElem? h)⟩

theorem getElem?_set_cases (h : (l.set i a)[n]? = some b) :
    (n = i ∧ b = a) ∨ (n ≠ i ∧ l[n]? = some b) := by
  by_cases hn : n = i
  · subst hn
    rw [getElem?_set_self (by simpa using lt_length_of_getElem? h)] at h
    exact .inl ⟨rfl, (Option.some.inj h).symm⟩
  · rw [getElem?_set_ne (Ne.symm hn)] at h
    exact .inr ⟨hn, h⟩

/-- The entry of a place that was there. -/
theorem getElem?_set_at (h : l[i]? = some b) : (l.set i a)[i]? = some a :=
  getElem?_set_self (lt_length_of_getElem? h)

theorem eq_of_mem_of_length_le_one (h : l.length ≤ 1) (ha : a ∈ l) (hb : b ∈ l) : a = b := by
  obtain ⟨i, hi⟩ := getElem?_of_mem ha
  obtain ⟨j, hj⟩ := getElem?_of_mem hb
  have hi' := lt_length_of_getElem? hi
  have hj' := lt_length_of_getElem? hj
  obtain rfl : i = j := by omega
  exact Option.some.inj (hi.symm.trans hj)

theorem length_le_one_of_nodup (hl : l.Nodup) (h : ∀ a ∈ l, ∀ b ∈ l, a = b) : l.length ≤ 1 := by
  match l, hl, h with
  | [], _, _ => exact Nat.zero_le _
  | [_], _, _ => exact Nat.le_refl _
  | a :: b :: l, hl, h =>
    have hab := h a mem_cons_self b (mem_cons_of_mem _ mem_cons_self)
    rw [hab, nodup_cons] at hl
    exact absurd mem_cons_self hl.1

end List
