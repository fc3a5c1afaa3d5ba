import Mathlib.Data.List.Infix

/-!
# Prefix codes

Texts with code words at their ends, as the encodings of single characters are.

* Where no word begins another, the word at the front of a text is the one that a search finds
  (`PrefixFree.find?_append`).
* Where no word ends another, a text that ends with none stays apart from the words behind it
  (`SuffixFree.eq_nil_of_append`).
* Where the beginning of a word stands nowhere else in one, words behind a text do not change
  what it begins with (`FreeStart.append`).
-/

namespace List

variable {α : Type u} {words : List (List α)}

/-- No word is empty or begins another. -/
structure PrefixFree (words : List (List α)) : Prop where
  nonempty : ∀ w ∈ words, w ≠ []
  eq_of_prefix : ∀ w ∈ words, ∀ w' ∈ words, w <+: w' → w = w'

/-- No word is empty or ends another. -/
structure SuffixFree (words : List (List α)) : Prop where
  nonempty : ∀ w ∈ words, w ≠ []
  eq_of_suffix : ∀ w ∈ words, ∀ w' ∈ words, w <:+ w' → w = w'

/-- The text begins with no word. -/
def FreeStart (words : List (List α)) (s : List α) : Prop := ∀ w ∈ words, ¬w <+: s

/-- The text ends with no word. -/
def FreeEnd (words : List (List α)) (s : List α) : Prop := ∀ w ∈ words, ¬w <:+ s

instance [DecidableEq α] (words : List (List α)) (s : List α) : Decidable (FreeStart words s) :=
  inferInstanceAs (Decidable (∀ w ∈ words, ¬w <+: s))

instance [DecidableEq α] (words : List (List α)) (s : List α) : Decidable (FreeEnd words s) :=
  inferInstanceAs (Decidable (∀ w ∈ words, ¬w <:+ s))

/-- The word at the front is the one that is found. -/
theorem PrefixFree.find?_append [BEq α] [LawfulBEq α] (hfree : PrefixFree words) {w : List α}
    (hw : w ∈ words) (s : List α) : words.find? (·.isPrefixOf (w ++ s)) = some w := by
  cases hfound : words.find? (·.isPrefixOf (w ++ s)) with
  | none =>
    have hnot := find?_eq_none.mp hfound w hw
    have hpre := isPrefixOf_iff_prefix.mpr (prefix_append w s)
    exact absurd hpre hnot
  | some v =>
    have hv := mem_of_find?_eq_some hfound
    have hpre := isPrefixOf_iff_prefix.mp
      (find?_some (p := fun v : List α => v.isPrefixOf (w ++ s)) hfound)
    obtain hvw | hwv := prefix_or_prefix_of_prefix hpre (prefix_append w s)
    · rw [hfree.eq_of_prefix v hv w hw hvw]
    · rw [hfree.eq_of_prefix w hw v hv hwv]

/-- A text that ends with no word is no part of a row of words, unless it is empty. -/
theorem SuffixFree.eq_nil_of_append (hfree : SuffixFree words) {s : List α}
    (hs : FreeEnd words s) {pad ws : List (List α)} (hpad : ∀ w ∈ pad, w ∈ words)
    (hws : ∀ w ∈ ws, w ∈ words) (h : s ++ pad.flatten = ws.flatten) : s = [] := by
  -- from the end, both rows have the same words
  induction pad using reverseRecOn generalizing ws with
  | nil =>
    rw [flatten_nil, append_nil] at h
    obtain rfl | ⟨ws, w, rfl⟩ := eq_nil_or_concat ws
    · exact h
    · rw [concat_eq_append, flatten_append, flatten_singleton] at h
      exact absurd (h ▸ suffix_append ws.flatten w) (hs w (hws w (by simp)))
  | append_singleton pad p ih =>
    have hp := hpad p (by simp)
    rw [flatten_append, flatten_singleton, ← append_assoc] at h
    obtain rfl | ⟨ws, w, rfl⟩ := eq_nil_or_concat ws
    · exact absurd (append_eq_nil_iff.mp h).2 (hfree.nonempty p hp)
    · have hw := hws w (by simp)
      rw [concat_eq_append, flatten_append, flatten_singleton] at h
      have hsame : p = w := by
        have hpsuf : p <:+ ws.flatten ++ w := h ▸ suffix_append _ p
        obtain hpw | hwp := suffix_or_suffix_of_suffix hpsuf (suffix_append ws.flatten w)
        · exact hfree.eq_of_suffix p hp w hw hpw
        · exact (hfree.eq_of_suffix w hw p hp hwp).symm
      subst hsame
      apply @ih ws
      · intro v hv
        exact hpad v (mem_append_left _ hv)
      · intro v hv
        exact hws v (by simp [hv])
      · exact append_cancel_right h

/-- What a row of words begins with, one of them does. -/
theorem exists_head?_of_flatten {pad : List (List α)} {b : α} {more : List α}
    (h : pad.flatten = b :: more) : ∃ p ∈ pad, p.head? = some b := by
  induction pad with
  | nil => exact nomatch h
  | cons p pad ih =>
    cases p with
    | nil =>
      obtain ⟨p, hp, hhead⟩ := ih h
      exact ⟨p, mem_cons_of_mem _ hp, hhead⟩
    | cons a p =>
      have hab : a = b := (cons.inj h).1
      exact ⟨a :: p, mem_cons_self, by rw [head?_cons, hab]⟩

/-- Words behind a text do not complete a word at its front. -/
theorem FreeStart.append (hstart : ∀ w ∈ words, ∀ b ∈ w.tail, ∀ p ∈ words, p.head? ≠ some b)
    {s : List α} (hs : FreeStart words s) (hne : s ≠ []) {pad : List (List α)}
    (hpad : ∀ w ∈ pad, w ∈ words) : FreeStart words (s ++ pad.flatten) := by
  intro w hw hpre
  obtain hws | ⟨u, rfl⟩ := prefix_or_prefix_of_prefix hpre (prefix_append s pad.flatten)
  · exact hs w hw hws
  · -- the rest of the word would begin the row of words
    rw [prefix_append_right_inj] at hpre
    cases u with
    | nil => exact hs _ hw (by rw [append_nil])
    | cons b u =>
      have htail : b ∈ (s ++ b :: u).tail := by
        rw [tail_append_of_ne_nil hne]
        simp
      obtain ⟨more, hmore⟩ := hpre
      obtain ⟨p, hp, hhead⟩ := exists_head?_of_flatten hmore.symm
      exact hstart _ hw b htail p (hpad p hp) hhead

end List
