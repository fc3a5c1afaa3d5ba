import Mathlib.Data.List.Infix
import Mathlib.Data.List.MinMax
import Mathlib.Order.Nat

/-!
# Peaks over a run

Two maxima a run is measured by: the highest value that a quantity takes over the prefixes of
a run (`peak`), and the largest number of events that fall in a window of fixed width ending
at one of them (`burst`).  The lemmas say how each grows by one event, and what may be
forgotten of a sorted list of times.
-/

namespace List

/-- The largest of a list of numbers, `0` for the empty list. -/
def highest (l : List Nat) : Nat := l.foldr max 0

theorem highest_append (l l' : List Nat) : (l ++ l').highest = max l.highest l'.highest := by
  induction l with
  | nil => simp [highest]
  | cons a l ih =>
    calc (a :: (l ++ l')).highest
      _ = max a (l ++ l').highest := rfl
      _ = max a (max l.highest l'.highest) := by rw [ih]
      _ = max (max a l.highest) l'.highest := (max_assoc ..).symm

@[simp] theorem highest_singleton (a : Nat) : [a].highest = a := by simp [highest]

theorem le_highest {l : List Nat} {a : Nat} (h : a ∈ l) : a ≤ l.highest :=
  le_max_of_le h le_rfl

theorem highest_le {l : List Nat} {b : Nat} (h : ∀ a ∈ l, a ≤ b) : l.highest ≤ b :=
  max_le_of_forall_le l b h

/-! ## A quantity over all prefixes -/

/-- The highest value of `f` on a prefix of `l`. -/
def peak (f : List α → Nat) (l : List α) : Nat := (l.inits.map f).highest

@[simp] theorem peak_nil (f : List α → Nat) : peak f [] = f [] := by simp [peak]

theorem peak_concat (f : List α → Nat) (l : List α) (a : α) :
    peak f (l ++ [a]) = max (peak f l) (f (l ++ [a])) := by
  simp [peak, inits_append, highest_append]

theorem le_peak (f : List α → Nat) (l : List α) : f l ≤ peak f l :=
  le_highest (mem_map_of_mem ((mem_inits l l).mpr prefix_rfl))

/-! ## Events in a window -/

/-- The number of times of `l` in `[t - width, t]`. -/
def countWithin (width t : Nat) (l : List Nat) : Nat :=
  l.countP fun x => t ≤ x + width ∧ x ≤ t

/-- The largest number of times in a window that ends at one of them. -/
def burst (width : Nat) (l : List Nat) : Nat := (l.map fun t => l.countWithin width t).highest

/-- One more time, not before the others, can only make the window that ends at it the
    fullest. -/
theorem burst_concat {width t : Nat} {l : List Nat} (hlast : ∀ x ∈ l, x ≤ t) :
    burst width (l ++ [t]) = max (burst width l) (countWithin width t (l ++ [t])) := by
  have hgrow : ∀ s, countWithin width s l ≤ countWithin width s (l ++ [t]) := fun s => by
    simp only [countWithin, countP_append]
    exact Nat.le_add_right ..
  -- a window that ends before `t` is as full as it was
  have hold : ∀ s ∈ l, countWithin width s (l ++ [t]) ≤
      max (burst width l) (countWithin width t (l ++ [t])) := by
    intro s hs
    rcases (hlast s hs).eq_or_lt with rfl | hlt
    · exact le_max_right ..
    · have hout : countWithin width s [t] = 0 := by
        simp only [countWithin, countP_singleton, decide_eq_true_eq]
        exact if_neg fun h => absurd h.2 (not_le.mpr hlt)
      have hsame : countWithin width s (l ++ [t]) = countWithin width s l := by
        have happ : countWithin width s (l ++ [t]) =
            countWithin width s l + countWithin width s [t] := countP_append
        rw [happ, hout, Nat.add_zero]
      rw [hsame]
      exact le_max_of_le_left (le_highest (mem_map_of_mem hs))
  apply le_antisymm
  · refine highest_le fun a ha => ?_
    obtain ⟨s, hs, rfl⟩ := mem_map.mp ha
    rcases mem_append.mp hs with hs | hs
    · exact hold s hs
    · exact mem_singleton.mp hs ▸ le_max_right ..
  · refine max_le (highest_le fun a ha => ?_) (le_highest (mem_map_of_mem (by simp)))
    obtain ⟨s, hs, rfl⟩ := mem_map.mp ha
    exact (hgrow s).trans (le_highest (mem_map_of_mem (mem_append_left _ hs)))

/-- Of a sorted list, the entries from a bound on. -/
theorem dropWhile_lt_eq_filter {l : List Nat} (hl : l.Pairwise (· ≤ ·)) (c : Nat) :
    l.dropWhile (· < c) = l.filter (c ≤ ·) := by
  induction l with
  | nil => rfl
  | cons a l ih =>
    rw [pairwise_cons] at hl
    by_cases ha : a < c
    · rw [dropWhile_cons_of_pos (by simpa using ha), ih hl.2,
        filter_cons_of_neg (by simpa using ha)]
    · have hall : ∀ x ∈ a :: l, c ≤ x := by
        intro x hx
        rcases mem_cons.mp hx with rfl | hx
        · exact Nat.le_of_not_lt ha
        · exact (Nat.le_of_not_lt ha).trans (hl.1 x hx)
      rw [dropWhile_cons_of_neg (by simpa using ha)]
      exact (filter_eq_self.mpr fun x hx => decide_eq_true (hall x hx)).symm

/-- The window that ends at the last time, counted among the entries kept from a bound that
    the window does not reach below. -/
theorem length_filter_eq_countWithin {width t c : Nat} {l : List Nat} (hlast : ∀ x ∈ l, x ≤ t)
    (hc : c = t - width) : (l.filter (c ≤ ·)).length = countWithin width t l := by
  rw [countWithin, countP_eq_length_filter]
  refine congrArg length (filter_congr fun x hx => ?_)
  have hle := hlast x hx
  simp only [decide_eq_decide]
  omega

end List
