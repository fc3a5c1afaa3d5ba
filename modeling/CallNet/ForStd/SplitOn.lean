import Mathlib.Data.String.Basic

/-!
# Splitting strings at a character

`String.splitOn` at a separator of one character is `List.splitOn` on the characters.
-/

namespace String

/-- The separator matches at once or not at all, so a part is what stands between two of them. -/
theorem splitOnAux_singleton (a : Char) (l m r : List Char) (acc : List String) :
    splitOnAux (ofList (l ++ m ++ r)) (ofList [a]) ⟨utf8Len l⟩ ⟨utf8Len l + utf8Len m⟩ 0 acc =
      acc.reverse ++ (List.splitOnPPrepend (· == a) r m.reverse).map ofList := by
  induction r generalizing l m acc with
  | nil =>
    have hextract := extract_of_valid l m []
    have hend : Pos.Raw.atEnd (ofList (l ++ m ++ [])) ⟨utf8Len l + utf8Len m⟩ = true := by
      simp only [atEnd_iff, rawEndPos_ofList, utf8Len_append, Pos.Raw.mk_le_mk, utf8Len_nil]
      omega
    rw [splitOnAux, if_pos hend, hextract]
    simp
  | cons c r ih =>
    have hget := get_of_valid (l ++ m) (c :: r)
    have hnext := next_of_valid (l ++ m) c r
    have hextract := extract_of_valid l m (c :: r)
    rw [utf8Len_append] at hget hnext
    have hsep : Pos.Raw.get (ofList [a]) 0 = a := get_of_valid [] [a]
    have hsepNext : Pos.Raw.next (ofList [a]) 0 = ⟨a.utf8Size⟩ := by
      simpa using next_of_valid [] a []
    have hsepEnd : Pos.Raw.atEnd (ofList [a]) ⟨a.utf8Size⟩ = true := by
      simp only [atEnd_iff, rawEndPos_ofList, utf8Len_cons, Pos.Raw.mk_le_mk, utf8Len_nil]
      omega
    have hsize : 0 < c.utf8Size := c.utf8Size_pos
    have hend : ¬ Pos.Raw.atEnd (ofList (l ++ m ++ c :: r)) ⟨utf8Len l + utf8Len m⟩ = true := by
      simp only [atEnd_iff, rawEndPos_ofList, utf8Len_append, Pos.Raw.mk_le_mk, utf8Len_cons]
      omega
    rw [splitOnAux, if_neg hend]
    simp only [hget, hnext, hsep, hsepNext, hsepEnd, List.headD_cons, if_true]
    by_cases hc : c = a
    · -- the part `m` is complete
      subst hc
      rw [if_pos (beq_self_eq_true c)]
      have hback : Pos.Raw.unoffsetBy ⟨utf8Len l + utf8Len m + c.utf8Size⟩ ⟨c.utf8Size⟩ =
          (⟨utf8Len l + utf8Len m⟩ : Pos.Raw) := by
        simp [Pos.Raw.unoffsetBy]
      have hrest := ih (l ++ m ++ [c]) [] (ofList m :: acc)
      have hlen : utf8Len (l ++ m ++ [c]) = utf8Len l + utf8Len m + c.utf8Size := by
        simp [Nat.add_assoc]
      have hsplit : l ++ m ++ c :: r = l ++ m ++ [c] ++ [] ++ r := by simp
      rw [utf8Len_nil, Nat.add_zero, hlen, ← hsplit] at hrest
      rw [hback, hextract, hrest, List.splitOnPPrepend_cons_eq_if, if_pos (beq_self_eq_true c)]
      simp
    · rw [if_neg (by simpa using hc)]
      have hback : Pos.Raw.unoffsetBy (⟨utf8Len l + utf8Len m⟩ : Pos.Raw) 0 =
          ⟨utf8Len l + utf8Len m⟩ := by
        simp [Pos.Raw.unoffsetBy]
      have hlen : utf8Len (m ++ [c]) = utf8Len m + c.utf8Size := by simp
      have hsplit : l ++ m ++ c :: r = l ++ (m ++ [c]) ++ r := by simp
      have hrest := ih l (m ++ [c]) acc
      rw [hlen, ← Nat.add_assoc, ← hsplit] at hrest
      rw [hback, hnext, hrest, List.splitOnPPrepend_cons_eq_if, if_neg (by simpa using hc)]
      simp

theorem splitOn_singleton (s : String) (a : Char) :
    s.splitOn (ofList [a]) = (s.toList.splitOn a).map ofList := by
  have hne : (ofList [a] == "") = false := by
    rw [beq_eq_false_iff_ne]
    intro h
    have hchars := congrArg toList h
    simp at hchars
  have hparts := splitOnAux_singleton a [] [] s.toList []
  unfold splitOn
  rw [hne]
  simpa [List.splitOn] using hparts

end String
