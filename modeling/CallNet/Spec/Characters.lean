import CallNet.Engine.DialPlan
import Mathlib.Tactic.IntervalCases

/-!
# Characters of dialed numbers

The character classes of the dial plan by what they contain, and the texts that trimming and
the search for a prefix leave alone.
-/

namespace CallNet

theorem isDigit_iff {c : Char} :
    isDigit c = true ↔ c ∈ ['0', '1', '2', '3', '4', '5', '6', '7', '8', '9'] := by
  constructor
  · intro h
    unfold isDigit at h
    simp only [decide_eq_true_eq, Char.le_def, UInt32.le_iff_toNat_le] at h
    obtain ⟨hlow, hhigh⟩ := h
    have hlow' : 48 ≤ c.toNat := hlow
    have hhigh' : c.toNat ≤ 57 := hhigh
    rw [← Char.ofNat_toNat c]
    generalize c.toNat = n at hlow' hhigh'
    interval_cases n <;> decide
  · intro h
    have hall : ['0', '1', '2', '3', '4', '5', '6', '7', '8', '9'].all isDigit = true := by decide
    exact List.all_eq_true.mp hall c h

/-- A number is written with digits. -/
theorem isDigit_of_mem_toDigits {n : Nat} {c : Char} (h : c ∈ Nat.toDigits 10 n) :
    isDigit c = true := by
  have hc := Nat.isDigit_of_mem_toDigits (by omega) (by omega) h
  unfold isDigit
  simpa [Char.isDigit, Char.le_def] using hc

theorem isSpace_of_isDigit {c : Char} (h : isDigit c = true) : isSpace c = false := by
  have hall : ['0', '1', '2', '3', '4', '5', '6', '7', '8', '9'].all (!isSpace ·) = true := by
    decide
  have hc := List.all_eq_true.mp hall c (isDigit_iff.mp h)
  simpa using hc

/-- The letters and digits. -/
def alnums : List Char :=
  "0123456789abcdefghijklmnopqrstuvwxyzABCDEFGHIJKLMNOPQRSTUVWXYZ".toList

/-- A string literal is decoded once. -/
theorem alnums_eq : alnums =
    ['0', '1', '2', '3', '4', '5', '6', '7', '8', '9', 'a', 'b', 'c', 'd', 'e', 'f', 'g', 'h',
      'i', 'j', 'k', 'l', 'm', 'n', 'o', 'p', 'q', 'r', 's', 't', 'u', 'v', 'w', 'x', 'y', 'z',
      'A', 'B', 'C', 'D', 'E', 'F', 'G', 'H', 'I', 'J', 'K', 'L', 'M', 'N', 'O', 'P', 'Q', 'R',
      'S', 'T', 'U', 'V', 'W', 'X', 'Y', 'Z'] :=
  String.toList_ofList

/-- The characters of the list are alphanumeric, in both cases. -/
theorem alnums_spec {c : Char} (h : c ∈ alnums) :
    isAlnum c = true ∧ isAlnum c.toLower = true ∧ c.toLower.toLower = c.toLower := by
  have hall : alnums.all fun c =>
      isAlnum c && (isAlnum c.toLower && c.toLower.toLower == c.toLower) := by
    rw [alnums_eq]
    decide
  have hone := List.all_eq_true.mp hall c h
  simp only [Bool.and_eq_true, beq_iff_eq] at hone
  exact hone

theorem isAlnum_iff {c : Char} : isAlnum c = true ↔ c ∈ alnums := by
  have hsmall : ∀ n < 123, isAlnum (Char.ofNat n) = true → Char.ofNat n ∈ alnums := by
    rw [alnums_eq]
    decide
  constructor
  · intro h
    have hle : c.toNat < 123 := by
      unfold isAlnum isDigit at h
      simp only [decide_eq_true_eq, Char.le_def, UInt32.le_iff_toNat_le] at h
      rcases h with ⟨-, h⟩ | ⟨-, h⟩ | ⟨-, h⟩
      · exact Nat.lt_of_le_of_lt h (by decide)
      · exact Nat.lt_of_le_of_lt h (by decide)
      · exact Nat.lt_of_le_of_lt h (by decide)
    have hc := hsmall c.toNat hle
    rw [Char.ofNat_toNat] at hc
    exact hc h
  · intro h
    exact (alnums_spec h).1

theorem isAlnum_toLower {c : Char} (h : isAlnum c = true) : isAlnum c.toLower = true :=
  (alnums_spec (isAlnum_iff.mp h)).2.1

theorem toLower_toLower {c : Char} (h : isAlnum c = true) : c.toLower.toLower = c.toLower :=
  (alnums_spec (isAlnum_iff.mp h)).2.2

/-! ## Separators -/

/-- What the dial plan drops from a dialed string: white space, hyphens and parentheses. -/
def isSeparator (c : Char) : Bool := isSpace c ∨ c = '-' ∨ c = '(' ∨ c = ')'

theorem isSeparator_of_isAlnum {c : Char} (h : isAlnum c = true) : isSeparator c = false := by
  have hall : alnums.all (fun c => isSeparator c = false) = true := by
    rw [alnums_eq]
    decide
  simpa using List.all_eq_true.mp hall c (isAlnum_iff.mp h)

theorem isAlnum_of_isDigit {c : Char} (h : isDigit c = true) : isAlnum c = true := by
  unfold isAlnum
  rw [h]
  rfl

theorem isSpace_of_isAlnum {c : Char} (h : isAlnum c = true) : isSpace c = false := by
  have hseparator := isSeparator_of_isAlnum h
  unfold isSeparator at hseparator
  simp only [decide_eq_false_iff_not, not_or] at hseparator
  exact Bool.eq_false_iff.mpr hseparator.1

/-! ## White space and prefixes -/

theorem dropWhile_of_no_space {cs : List Char} (h : ∀ c ∈ cs, isSpace c = false) :
    cs.dropWhile isSpace = cs := by
  cases cs with
  | nil => rfl
  | cons c cs =>
    have hspace := h c List.mem_cons_self
    rw [List.dropWhile_cons_of_neg (by rw [hspace]; exact Bool.noConfusion)]

/-- Trimming leaves a text without white space alone. -/
theorem trim_of_no_space {s : String} (h : ∀ c ∈ s.toList, isSpace c = false) : trim s = s := by
  unfold trim
  rw [dropWhile_of_no_space h,
    dropWhile_of_no_space fun c hc => h c (List.mem_reverse.mp hc), List.reverse_reverse,
    String.ofList_toList]

theorem stripPrefix?_eq_some : ∀ {p cs rest : List Char},
    stripPrefix? p cs = some rest ↔ cs = p ++ rest
  | [], cs, rest => by simp [stripPrefix?]
  | p :: ps, [], rest => by simp [stripPrefix?]
  | p :: ps, c :: cs, rest => by
    unfold stripPrefix?
    split
    · rename_i hpc
      rw [stripPrefix?_eq_some, List.cons_append, List.cons.injEq, hpc]
      simp
    · rename_i hpc
      have hne : c ≠ p := fun h => hpc h.symm
      simp [hne]

theorem stripPrefix?_append (p s : List Char) : stripPrefix? p (p ++ s) = some s :=
  stripPrefix?_eq_some.mpr rfl

end CallNet
