import CallNet.Api.AuthService
import CallNet.Spec.DialNormalization
import Mathlib.Data.List.TakeWhile

/-!
# Assigned extensions

Signup takes the first of a thousand and one candidates that no user has.  All of them have
five to seven digits, but the dial plan has other uses for some of those strings: toll-free
prefixes are looked at before extensions.  `signup_extension_iff` says which users can be
dialed.
-/

namespace CallNet

open Api

/-- Five to seven digits. -/
structure IsExtension (s : String) : Prop where
  digits : ∀ c ∈ s.toList, isDigit c = true
  five_le : 5 ≤ s.toList.length
  le_seven : s.toList.length ≤ 7

/-! ## Candidates -/

section Candidates

variable {mobile : String}

theorem mem_leftpad {n : Nat} {a c : Char} {cs : List Char} (h : c ∈ cs.leftpad n a) :
    c = a ∨ c ∈ cs := by
  unfold List.leftpad at h
  exact (List.mem_append.mp h).imp_left List.eq_of_mem_replicate

theorem isExtension_leftpad {width : Nat} {cs : List Char} (hcs : ∀ c ∈ cs, isDigit c = true)
    (hlo : 5 ≤ width) (hhi : width ≤ 7) (hlength : cs.length ≤ 7) :
    IsExtension (String.ofList (cs.leftpad width '0')) := by
  refine ⟨fun c hc => ?_, ?_, ?_⟩
  · rw [String.toList_ofList] at hc
    rcases mem_leftpad hc with rfl | hc
    · rfl
    · exact hcs c hc
  · rw [String.toList_ofList, List.length_leftpad]
    omega
  · rw [String.toList_ofList, List.length_leftpad]
    omega

theorem isExtension_generateExtension (mobile : String) :
    IsExtension (generateExtension mobile) := by
  unfold generateExtension
  extract_lets digits last
  have hdigits : ∀ c ∈ digits, isDigit c = true := fun c hc => (List.mem_filter.mp hc).2
  refine isExtension_leftpad (fun c hc => ?_) (by omega) (by omega) ?_
  · -- the last seven digits are among them
    show isDigit c = true
    simp only [last] at hc
    split at hc
    · exact hdigits c (List.mem_of_mem_drop hc)
    · exact hdigits c hc
  · simp only [last]
    split
    · rw [List.length_drop]
      omega
    · omega

theorem isExtension_zeroPad {width n : Nat} (hlo : 5 ≤ width) (hhi : width ≤ 7)
    (hn : n < 10 ^ width) : IsExtension (zeroPad width n) := by
  unfold zeroPad
  rw [Nat.toString_eq_repr, Nat.toList_repr]
  have h := (Nat.length_toDigits_le_iff (by omega) (by omega)).mpr hn
  exact isExtension_leftpad (fun c hc => isDigit_of_mem_toDigits hc) hlo hhi (by omega)

theorem ofDigitChars_lt {cs : List Char} (h : ∀ c ∈ cs, isDigit c = true) :
    Nat.ofDigitChars 10 cs 0 < 10 ^ cs.length := by
  induction cs with
  | nil => simp
  | cons c cs ih =>
    -- a digit is at most nine
    have hc : c.toNat ≤ 57 := by
      have hd := h c List.mem_cons_self
      unfold isDigit at hd
      simp only [decide_eq_true_eq, Char.le_def, UInt32.le_iff_toNat_le] at hd
      exact hd.2
    have hcs := ih fun d hd => h d (List.mem_cons_of_mem c hd)
    rw [Nat.ofDigitChars_cons, Nat.ofDigitChars_eq_ofDigitChars_zero, List.length_cons,
      Nat.pow_succ]
    have hdigit : 10 * 0 + (c.toNat - '0'.toNat) ≤ 9 := by
      show 10 * 0 + (c.toNat - 48) ≤ 9
      omega
    calc 10 ^ cs.length * (10 * 0 + (c.toNat - '0'.toNat)) + Nat.ofDigitChars 10 cs 0
        < 10 ^ cs.length * 9 + 10 ^ cs.length :=
          Nat.add_lt_add_of_le_of_lt (Nat.mul_le_mul_left _ hdigit) hcs
      _ = 10 ^ cs.length * 10 := by omega

/-- An extension is always a number. -/
theorem atoi_extension {s : String} (h : IsExtension s) :
    atoi s = some ((Nat.ofDigitChars 10 s.toList 0 : Nat) : Int) := by
  have hlo := h.five_le
  have hne : s.toList ≠ [] := by
    intro hnil
    rw [hnil] at hlo
    simp at hlo
  have hvalue : digitsValue s.toList = some (Nat.ofDigitChars 10 s.toList 0) := by
    unfold digitsValue
    rw [if_pos ⟨hne, fun c hc => of_decide_eq_true (h.digits c hc)⟩]
    rfl
  have hbound : Nat.ofDigitChars 10 s.toList 0 < 2 ^ 63 :=
    calc Nat.ofDigitChars 10 s.toList 0
        < 10 ^ s.toList.length := ofDigitChars_lt h.digits
      _ ≤ 10 ^ 7 := Nat.pow_le_pow_right (by omega) h.le_seven
      _ < 2 ^ 63 := by decide
  -- an extension has no sign
  unfold atoi
  split
  · rename_i hs
    have hd := h.digits '-' (by rw [hs]; exact List.mem_cons_self)
    cases hd
  · rename_i hs
    have hd := h.digits '+' (by rw [hs]; exact List.mem_cons_self)
    cases hd
  · rw [hvalue, Option.bind_some, if_pos hbound]

/-- The `i`-th extension that signup tries for a mobile number: the one its digits give, and
    then the numbers after that, in the same width. -/
def candidate (mobile : String) : Nat → String
  | 0 => generateExtension mobile
  | i + 1 =>
    let base := generateExtension mobile
    zeroPad base.length ((Nat.ofDigitChars 10 base.toList 0 + (i + 1)) % 10 ^ base.length)

theorem isExtension_candidate (mobile : String) : ∀ i, IsExtension (candidate mobile i)
  | 0 => isExtension_generateExtension mobile
  | i + 1 => by
    have hbase := isExtension_generateExtension mobile
    exact isExtension_zeroPad hbase.five_le hbase.le_seven (Nat.mod_lt _ (Nat.pow_pos (by omega)))

/-- Signup takes the first candidate that no user has, or the first of all when a thousand and
    one are taken. -/
theorem uniqueExtension_cases (found : String → Bool) (mobile : String) :
    (∃ i ≤ 1000, found (candidate mobile i) = false ∧
        (∀ j < i, found (candidate mobile j) = true) ∧
        uniqueExtension found mobile = candidate mobile i) ∨
      (∀ i ≤ 1000, found (candidate mobile i) = true) ∧
        uniqueExtension found mobile = candidate mobile 0 := by
  have hbase := isExtension_generateExtension mobile
  unfold uniqueExtension
  extract_lets base width mod
  by_cases hfirst : found base = false
  · rw [if_pos hfirst]
    exact .inl ⟨0, by omega, hfirst, fun j hj => absurd hj (Nat.not_lt_zero j), rfl⟩
  rw [if_neg hfirst, atoi_extension hbase]
  have hfirst : found (candidate mobile 0) = true := eq_true_of_ne_false hfirst
  -- the bound of the width is never reached
  have hprobes : (List.range' 1 1000).takeWhile (· < mod) = List.range' 1 1000 := by
    have hmod : 10 ^ 5 ≤ mod := Nat.pow_le_pow_right (by omega) hbase.five_le
    refine List.takeWhile_eq_self_iff.mpr fun i hi => ?_
    have hi := List.mem_range'_1.mp hi
    exact decide_eq_true (by omega)
  have hcands : ((List.range' 1 1000).map fun i =>
      zeroPad width (((Nat.ofDigitChars 10 base.toList 0 : Int).toNat + i) % mod)) =
        (List.range' 1 1000).map (candidate mobile) := by
    refine List.map_congr_left fun i hi => ?_
    obtain ⟨j, rfl⟩ : ∃ j, i = j + 1 := ⟨i - 1, by have := List.mem_range'_1.mp hi; omega⟩
    rfl
  dsimp only
  rw [hprobes, hcands, List.find?_map]
  cases hfind : (List.range' 1 1000).find? ((fun cand => found cand = false) ∘ candidate mobile) with
  | none =>
    -- all of them are taken
    have hnone := List.find?_range'_eq_none.mp hfind
    refine .inr ⟨fun i hi => ?_, rfl⟩
    rcases Nat.eq_zero_or_pos i with rfl | hpos
    · exact hfirst
    · simpa using hnone i hpos (by omega)
  | some i =>
    -- the first that is free
    obtain ⟨hfree, hmem, hbefore⟩ := List.find?_range'_eq_some.mp hfind
    have hi := List.mem_range'_1.mp hmem
    refine .inl ⟨i, by omega, by simpa using hfree, fun j hj => ?_, rfl⟩
    rcases Nat.eq_zero_or_pos j with rfl | hpos
    · exact hfirst
    · simpa using hbefore j hpos hj

end Candidates

/-! ## Dialing an extension -/

section Dialing

variable {emergencyNumbers : List String} {s : String}

/-- The prefixes of toll-free numbers. -/
def tollFreeWords : List String := ["1800", "800", "888", "877", "866", "855", "844", "833"]

def BeginsTollFree (s : String) : Prop := ∃ word ∈ tollFreeWords, word.toList <+: s.toList

instance : Decidable (BeginsTollFree s) :=
  inferInstanceAs (Decidable (∃ word ∈ tollFreeWords, word.toList <+: s.toList))

/-- Of the strings of an extension's length, the IVR pattern has those with a toll-free
    prefix. -/
theorem ivrPattern_iff (h : IsExtension s) : ivrPattern s.toList = true ↔ BeginsTollFree s := by
  have hlo := h.five_le
  have hhi := h.le_seven
  -- `5000` is too short, and the numbers of ten digits are too long
  have hfive : (s.toList == "5000".toList) = false := by
    refine beq_eq_false_iff_ne.mpr fun hs => ?_
    rw [hs] at hlo
    exact absurd hlo (by decide)
  have hlong : ∀ rest, stripPrefix? "18".toList s.toList = some rest → rest.length ≠ 8 := by
    intro rest hrest
    have hlength := congrArg List.length (stripPrefix?_eq_some.mp hrest)
    have htwo : "18".toList.length = 2 := rfl
    rw [List.length_append, htwo] at hlength
    omega
  have hshort : ∀ word ∈ tollFreeWords, word.toList.length ≤ 4 := by decide
  unfold ivrPattern
  rw [hfive, Bool.false_or, Bool.or_eq_true, List.any_eq_true]
  constructor
  · rintro (hmatch | ⟨word, hword, hmatch⟩)
    · split at hmatch
      · rename_i rest hrest
        have hlength := (Bool.and_eq_true_iff.mp hmatch).2
        exact absurd (eq_of_beq hlength) (hlong rest hrest)
      · cases hmatch
    · split at hmatch
      · rename_i rest hrest
        exact ⟨word, hword, rest, (stripPrefix?_eq_some.mp hrest).symm⟩
      · cases hmatch
  · rintro ⟨word, hword, rest, hrest⟩
    refine .inr ⟨word, hword, ?_⟩
    rw [stripPrefix?_eq_some.mpr hrest.symm]
    -- the pattern asks for another digit after the prefix
    have hdigits : rest.all isDigit = true := by
      refine List.all_eq_true.mpr fun c hc => h.digits c ?_
      rw [← hrest]
      exact List.mem_append_right _ hc
    have hne : rest ≠ [] := by
      intro hnil
      have hlength := congrArg List.length hrest
      rw [hnil, List.append_nil] at hlength
      have := hshort word hword
      omega
    simp [hdigits, hne]

theorem IsExtension.cleanDialed (h : IsExtension s) : cleanDialed s = s :=
  cleanDialed_of_forall fun c hc => isSeparator_of_isAlnum (isAlnum_of_isDigit (h.digits c hc))

theorem IsExtension.wordPattern {word : String} {w : Char} {ws : List Char} {lo hi : Nat}
    (h : IsExtension s) (hword : word.toList = w :: ws) (hw : isDigit w = false) :
    wordPattern word lo hi s.toList = none := by
  have hlo := h.five_le
  cases hs : s.toList with
  | nil =>
    rw [hs] at hlo
    cases hlo
  | cons c cs =>
    have hc : isDigit c = true := h.digits c (by rw [hs]; exact List.mem_cons_self)
    -- a digit has no lower case of its own
    have hlower : isDigit c.toLower = true := by
      have hall : ['0', '1', '2', '3', '4', '5', '6', '7', '8', '9'].all
          (fun c => isDigit c.toLower) = true := by decide
      exact List.all_eq_true.mp hall c (isDigit_iff.mp hc)
    refine wordPattern_of_head hword fun heq => ?_
    rw [heq, hlower] at hw
    cases hw

/-- An extension is dialed as what it is unless it is an emergency number or begins like a
    toll-free one. -/
theorem resolve_extension_iff (h : IsExtension s) :
    (resolve emergencyNumbers s).type = .internal ∧ (resolve emergencyNumbers s).target = s ↔
      s ∉ emergencyNumbers ∧ ¬ BeginsTollFree s := by
  have hroom : conferencePattern s.toList = none := h.wordPattern rfl rfl
  have hqueue : queuePattern s.toList = none := h.wordPattern rfl rfl
  have hinternal : internalPattern s.toList = true := by
    have hall : s.toList.all isDigit = true := List.all_eq_true.mpr h.digits
    have hlo := h.five_le
    exact decide_eq_true ⟨hall, by omega, h.le_seven⟩
  -- the emergency numbers come first, then the toll-free prefixes, then the extensions
  unfold resolve
  simp only [h.cleanDialed, hroom, hqueue, hinternal, if_true]
  by_cases hemergency : s ∈ emergencyNumbers
  · simp [hemergency]
  · by_cases hivr : ivrPattern s.toList = true
    · have htoll := (ivrPattern_iff h).mp hivr
      simp [hemergency, hivr, htoll]
    · have htoll : ¬ BeginsTollFree s := fun htoll => hivr ((ivrPattern_iff h).mpr htoll)
      simp [hemergency, hivr, htoll]

end Dialing

/-! ## Signup -/

section Signup

variable {hash : String → Option String} {rejects : User → Bool} {users : List User}
  {name mobile password : String} {user : User}

/-- No user has the extension. -/
def Free (users : List User) (ext : String) : Prop := ∀ u ∈ users, u.extension ≠ ext

instance (users : List User) (ext : String) : Decidable (Free users ext) :=
  inferInstanceAs (Decidable (∀ u ∈ users, u.extension ≠ ext))

theorem free_iff {ext : String} :
    Free users ext ↔ (users.any fun u => u.extension = ext) = false := by
  simp [Free]

theorem signup_extension (h : signup hash rejects users name mobile password = .ok user) :
    user.extension = uniqueExtension (fun ext => users.any fun u => u.extension = ext)
      (normalizeMobile mobile) := by
  unfold signup at h
  dsimp only at h
  split at h
  · cases h
  · split at h
    · cases h
    · split at h
      · cases h
        rfl
      · cases h

/-- What an assigned extension is. -/
theorem signup_cases (h : signup hash rejects users name mobile password = .ok user) :
    (∃ i ≤ 1000, Free users (candidate (normalizeMobile mobile) i) ∧
        (∀ j < i, ¬ Free users (candidate (normalizeMobile mobile) j)) ∧
        user.extension = candidate (normalizeMobile mobile) i) ∨
      (∀ i ≤ 1000, ¬ Free users (candidate (normalizeMobile mobile) i)) ∧
        user.extension = candidate (normalizeMobile mobile) 0 := by
  rw [signup_extension h]
  simp only [free_iff, Bool.not_eq_false]
  exact uniqueExtension_cases (fun ext => users.any fun u => u.extension = ext) _

/-- The new user has an extension of its own, and whoever dials it is routed to it, if and only if
    the first free candidate is neither an emergency number nor toll-free. -/
theorem signup_extension_iff (emergencyNumbers : List String)
    (h : signup hash rejects users name mobile password = .ok user) :
    Free users user.extension ∧
        (resolve emergencyNumbers user.extension).type = .internal ∧
        (resolve emergencyNumbers user.extension).target = user.extension ↔
      ∃ i ≤ 1000, Free users (candidate (normalizeMobile mobile) i) ∧
        (∀ j < i, ¬ Free users (candidate (normalizeMobile mobile) j)) ∧
        candidate (normalizeMobile mobile) i ∉ emergencyNumbers ∧
        ¬ BeginsTollFree (candidate (normalizeMobile mobile) i) := by
  have hresolve (i : Nat) :
      (resolve emergencyNumbers (candidate (normalizeMobile mobile) i)).type = .internal ∧
          (resolve emergencyNumbers (candidate (normalizeMobile mobile) i)).target =
            candidate (normalizeMobile mobile) i ↔
        candidate (normalizeMobile mobile) i ∉ emergencyNumbers ∧
          ¬ BeginsTollFree (candidate (normalizeMobile mobile) i) :=
    resolve_extension_iff (isExtension_candidate (normalizeMobile mobile) i)
  rcases signup_cases h with ⟨i, hi, hfree, hbefore, hext⟩ | ⟨htaken, hext⟩
  · rw [hext]
    constructor
    · rintro ⟨-, hroute⟩
      exact ⟨i, hi, hfree, hbefore, (hresolve i).mp hroute⟩
    · rintro ⟨k, hk, hfree', hbefore', hroute⟩
      -- there is one first free candidate
      have hki : k = i := by
        rcases Nat.lt_trichotomy k i with hlt | heq | hgt
        · exact absurd hfree' (hbefore k hlt)
        · exact heq
        · exact absurd hfree (hbefore' i hgt)
      subst hki
      exact ⟨hfree, (hresolve k).mpr hroute⟩
  · -- every candidate is taken, the assigned one too
    constructor
    · rintro ⟨hfree, -⟩
      rw [hext] at hfree
      exact absurd hfree (htaken 0 (by omega))
    · rintro ⟨i, hi, hfree, -⟩
      exact absurd hfree (htaken i hi)

/-- Two users whose numbers end in the same seven digits. -/
def aliceUser : User :=
  { extension := "0000001", username := "0000001", name := "Alice", mobile := "+919000000001"
    password := "hashed" }

def bobUser : User :=
  { extension := "0000002", username := "0000002", name := "Bob", mobile := "+919010000001"
    password := "hashed" }

theorem signup_extension_iff_second :
    Free [aliceUser] bobUser.extension ∧
        (resolve ["911", "112"] bobUser.extension).type = .internal ∧
        (resolve ["911", "112"] bobUser.extension).target = bobUser.extension ↔
      ∃ i ≤ 1000, Free [aliceUser] (candidate (normalizeMobile "+91 90100-00001") i) ∧
        (∀ j < i, ¬ Free [aliceUser] (candidate (normalizeMobile "+91 90100-00001") j)) ∧
        candidate (normalizeMobile "+91 90100-00001") i ∉ ["911", "112"] ∧
        ¬ BeginsTollFree (candidate (normalizeMobile "+91 90100-00001") i) := by
  have hatoi : atoi "0000001" = some 1 := by
    have hbase : generateExtension "0000001" = "0000001" := by decide +kernel
    rw [atoi_extension (hbase ▸ isExtension_generateExtension "0000001")]
    decide +kernel
  have hext : uniqueExtension (fun ext => [aliceUser].any fun u => u.extension = ext)
      (normalizeMobile "+91 90100-00001") = "0000002" := by
    have hbase : generateExtension (normalizeMobile "+91 90100-00001") = "0000001" := by
      decide +kernel
    unfold uniqueExtension
    simp only [hbase, hatoi]
    decide +kernel
  have h : signup (fun _ => some "hashed") (fun _ => false) [aliceUser] "Bob" "+91 90100-00001"
      "secret" = .ok bobUser := by
    unfold signup
    simp only [hext]
    decide +kernel
  exact signup_extension_iff ["911", "112"] h

/-- A mobile number whose last seven digits begin with 800: calls to its user go to an IVR. -/
theorem signup_tollFree_extension :
    ∃ user, signup (fun _ => some "hashed") (fun _ => false) [] "Carol" "+1 555 800 1234" "secret" =
        .ok user ∧ user.extension = "8001234" ∧
      (resolve ["911", "112", "100", "101", "102", "108"] user.extension).type = .ivr := by
  refine ⟨{ extension := "8001234", username := "8001234", name := "Carol"
            mobile := "+15558001234", password := "hashed" }, ?_, rfl, ?_⟩
  · decide +kernel
  · decide +kernel

end Signup

end CallNet
