import Mathlib.Data.List.Induction
import CallNet.Engine.Rating

/-!
# Longest-prefix match

`longestPrefixMatch` keeps the best rate seen so far and answers with a rate whose prefix is
longest among those the digits start with, whatever order the rates come in.
-/

namespace CallNet

/-- The digits start with the prefix of the rate; an empty prefix matches nothing. -/
def RateRow.Matches (rate : RateRow) (digits : List Char) : Prop :=
  rate.ratePrefix ≠ "" ∧ rate.ratePrefix.toList.isPrefixOf digits = true

instance (rate : RateRow) (digits : List Char) : Decidable (rate.Matches digits) :=
  inferInstanceAs (Decidable (_ ∧ _))

/-- A matching rate, and none that matches has a longer prefix. -/
structure LongestMatch (rates : List RateRow) (digits : List Char) (rate : RateRow) : Prop where
  mem : rate ∈ rates
  starts : rate.Matches digits
  longest : ∀ r ∈ rates, r.Matches digits → r.ratePrefix.length ≤ rate.ratePrefix.length

theorem longestPrefixMatch_concat (rates : List RateRow) (rate : RateRow) (digits : List Char) :
    longestPrefixMatch (rates ++ [rate]) digits =
      if rate.ratePrefix ≠ "" ∧ rate.ratePrefix.toList.isPrefixOf digits then
        match longestPrefixMatch rates digits with
        | none => some rate
        | some b => if b.ratePrefix.length < rate.ratePrefix.length then some rate
          else longestPrefixMatch rates digits
      else longestPrefixMatch rates digits := List.foldl_concat ..

/-- A match is a rate of the list. -/
theorem longestPrefixMatch_mem {rates : List RateRow} {digits : List Char} {rate : RateRow}
    (h : longestPrefixMatch rates digits = some rate) : rate ∈ rates := by
  induction rates using List.reverseRecOn with
  | nil => cases h
  | append_singleton rates last ih =>
    rw [longestPrefixMatch_concat] at h
    repeat' split at h
    all_goals first
      | exact List.mem_append_left _ (ih h)
      | (cases h; exact List.mem_append_right _ List.mem_cons_self)

/-- There is a match when some rate has a prefix of the digits. -/
theorem longestPrefixMatch_isSome {rates : List RateRow} {digits : List Char} {rate : RateRow}
    (hmem : rate ∈ rates) (hne : rate.ratePrefix ≠ "")
    (hstarts : rate.ratePrefix.toList.isPrefixOf digits = true) :
    (longestPrefixMatch rates digits).isSome = true := by
  induction rates using List.reverseRecOn with
  | nil => cases hmem
  | append_singleton rates last ih =>
    rw [longestPrefixMatch_concat]
    rcases List.mem_append.mp hmem with hmem | hmem
    · have hsome := ih hmem
      repeat' split
      all_goals first | rfl | exact hsome
    · obtain rfl := List.mem_singleton.mp hmem
      rw [if_pos ⟨hne, hstarts⟩]
      cases longestPrefixMatch rates digits with
      | none => rfl
      | some b =>
        dsimp only
        split <;> rfl

theorem longestPrefixMatch_eq_none_iff {rates : List RateRow} {digits : List Char} :
    longestPrefixMatch rates digits = none ↔ ∀ r ∈ rates, ¬ r.Matches digits := by
  constructor
  · intro h r hr hmatch
    have hsome := longestPrefixMatch_isSome hr hmatch.1 hmatch.2
    rw [h] at hsome
    cases hsome
  · intro h
    induction rates using List.reverseRecOn with
    | nil => rfl
    | append_singleton rates last ih =>
      have hlast : ¬ (last.ratePrefix ≠ "" ∧ last.ratePrefix.toList.isPrefixOf digits = true) :=
        h last (List.mem_append_right _ List.mem_cons_self)
      rw [longestPrefixMatch_concat, if_neg hlast]
      exact ih fun r hr => h r (List.mem_append_left _ hr)

/-- What is found is a longest match. -/
theorem longestMatch_of_eq_some {rates : List RateRow} {digits : List Char} {rate : RateRow}
    (h : longestPrefixMatch rates digits = some rate) : LongestMatch rates digits rate := by
  induction rates using List.reverseRecOn generalizing rate with
  | nil => cases h
  | append_singleton rates last ih =>
    have hlast : last ∈ rates ++ [last] := List.mem_append_right _ List.mem_cons_self
    rw [longestPrefixMatch_concat] at h
    split at h
    · rename_i hmatch
      cases hbest : longestPrefixMatch rates digits with
      | none =>
        -- the last rate is the first that matches
        simp only [hbest, Option.some.injEq] at h
        subst h
        refine ⟨hlast, hmatch, fun r hr hr' => ?_⟩
        rcases List.mem_append.mp hr with hr | hr
        · exact absurd hr' (longestPrefixMatch_eq_none_iff.mp hbest r hr)
        · rw [List.mem_singleton.mp hr]
      | some best =>
        have hlongest := ih hbest
        simp only [hbest] at h
        split at h
        · -- the last rate is better than the best before it
          rename_i hlt
          cases h
          refine ⟨hlast, hmatch, fun r hr hr' => ?_⟩
          rcases List.mem_append.mp hr with hr | hr
          · have hle := hlongest.longest r hr hr'
            omega
          · rw [List.mem_singleton.mp hr]
        · rename_i hge
          cases h
          refine ⟨List.mem_append_left _ hlongest.mem, hlongest.starts, fun r hr hr' => ?_⟩
          rcases List.mem_append.mp hr with hr | hr
          · exact hlongest.longest r hr hr'
          · rw [List.mem_singleton.mp hr]
            omega
    · rename_i hmatch
      have hlongest := ih h
      refine ⟨List.mem_append_left _ hlongest.mem, hlongest.starts, fun r hr hr' => ?_⟩
      rcases List.mem_append.mp hr with hr | hr
      · exact hlongest.longest r hr hr'
      · rw [List.mem_singleton.mp hr] at hr'
        exact absurd hr' hmatch

/-- No digits, no match. -/
theorem longestPrefixMatch_nil (rates : List RateRow) : longestPrefixMatch rates [] = none := by
  rw [longestPrefixMatch_eq_none_iff]
  intro r _ hmatch
  have hempty : r.ratePrefix.toList = [] := by
    cases hchars : r.ratePrefix.toList with
    | nil => rfl
    | cons c cs =>
      have hstarts := hmatch.2
      rw [hchars] at hstarts
      cases hstarts
  exact hmatch.1 (String.toList_eq_nil_iff.mp hempty)

end CallNet
