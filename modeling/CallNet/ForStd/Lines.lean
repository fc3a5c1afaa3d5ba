import Mathlib.Data.List.Basic

/-!
# Lines of a stream

A stream of lines that each end in a separator, the last one possibly unfinished.  The pieces
between separators are `List.splitOn`; here are the complete lines among them, and how they
grow with the stream.

- `completeLines_append`: the lines of a stream that goes on after a whole line
- `completeLines_subset_append`: a complete line stays one
- `splitOn_of_whole`: the pieces of a stream of whole lines are its lines
-/

namespace List

variable {α : Type u} {sep : α} {xs ys : List α}

/-- The stream ends where a line ends. -/
def Whole (sep : α) (xs : List α) : Prop := xs = [] ∨ xs.getLast? = some sep

theorem whole_nil (sep : α) : Whole sep [] := .inl rfl

theorem whole_iff_exists : Whole sep xs ↔ xs = [] ∨ ∃ init, xs = init ++ [sep] := by
  unfold Whole
  rw [getLast?_eq_some_iff]

/-- What follows whole lines is whole if all is. -/
theorem whole_of_append (h : Whole sep (xs ++ ys)) : Whole sep ys := by
  rcases h with hnil | hlast
  · exact .inl (append_eq_nil_iff.mp hnil).2
  · cases ys with
    | nil => exact whole_nil sep
    | cons y ys =>
      rw [getLast?_append_cons] at hlast
      exact .inr hlast

/-- A stream is its whole lines and an unfinished one. -/
theorem exists_whole_append (sep : α) (xs : List α) :
    ∃ lines rest, xs = lines ++ rest ∧ Whole sep lines ∧ sep ∉ rest := by
  induction xs with
  | nil => exact ⟨[], [], rfl, whole_nil sep, not_mem_nil⟩
  | cons x xs ih =>
    obtain ⟨lines, rest, rfl, hwhole, hrest⟩ := ih
    rcases whole_iff_exists.mp hwhole with rfl | ⟨init, rfl⟩
    · by_cases hx : x = sep
      · refine ⟨[sep], rest, by rw [hx]; rfl, .inr rfl, hrest⟩
      · refine ⟨[], x :: rest, rfl, whole_nil sep, ?_⟩
        rw [mem_cons, not_or]
        exact ⟨fun heq => hx heq.symm, hrest⟩
    · exact ⟨x :: init ++ [sep], rest, rfl, whole_iff_exists.mpr (.inr ⟨x :: init, rfl⟩), hrest⟩

variable [BEq α]

/-- The lines that the stream has finished. -/
def completeLines (sep : α) (xs : List α) : List (List α) := (xs.splitOn sep).dropLast

variable [LawfulBEq α]

theorem splitOn_append_sep (xs ys : List α) :
    (xs ++ sep :: ys).splitOn sep = xs.splitOn sep ++ ys.splitOn sep :=
  splitOn_append_cons_of_beq xs ys (beq_self_eq_true sep)

theorem completeLines_append_sep (xs ys : List α) :
    completeLines sep (xs ++ sep :: ys) = xs.splitOn sep ++ completeLines sep ys := by
  rw [completeLines, splitOn_append_sep, dropLast_append_of_ne_nil (splitOn_ne_nil sep ys),
    completeLines]

theorem completeLines_snoc_sep (xs : List α) : completeLines sep (xs ++ [sep]) = xs.splitOn sep := by
  have hnil : completeLines sep [] = ([] : List (List α)) := rfl
  rw [completeLines_append_sep, hnil, append_nil]

/-- The pieces of a stream of whole lines are the lines, and the empty rest. -/
theorem splitOn_of_whole (h : Whole sep xs) : xs.splitOn sep = completeLines sep xs ++ [[]] := by
  rcases whole_iff_exists.mp h with rfl | ⟨init, rfl⟩
  · rfl
  · rw [completeLines_snoc_sep, splitOn_append_sep]
    rfl

/-- The lines of a stream that goes on after a whole line. -/
theorem completeLines_append (h : Whole sep xs) :
    completeLines sep (xs ++ ys) = completeLines sep xs ++ completeLines sep ys := by
  rcases whole_iff_exists.mp h with rfl | ⟨init, rfl⟩
  · rfl
  · rw [append_assoc, singleton_append, completeLines_append_sep, completeLines_snoc_sep]

theorem completeLines_of_not_mem (h : sep ∉ xs) : completeLines sep xs = [] := by
  rw [completeLines, splitOn_eq_singleton h]
  rfl

/-- A complete line stays one when the stream grows. -/
theorem completeLines_subset_append (xs ys : List α) :
    completeLines sep xs ⊆ completeLines sep (xs ++ ys) := by
  obtain ⟨lines, rest, rfl, hwhole, hrest⟩ := exists_whole_append sep xs
  rw [append_assoc, completeLines_append hwhole, completeLines_append hwhole,
    completeLines_of_not_mem hrest, append_nil]
  exact subset_append_left ..

theorem completeLines_take_subset (n : Nat) : completeLines sep (xs.take n) ⊆ completeLines sep xs := by
  have hgrows : completeLines sep (xs.take n) ⊆ completeLines sep (xs.take n ++ xs.drop n) :=
    completeLines_subset_append _ _
  rwa [take_append_drop] at hgrows

end List
