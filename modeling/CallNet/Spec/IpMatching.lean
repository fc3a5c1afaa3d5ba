import CallNet.Engine.ApiKeyService
import CallNet.ForStd.SplitOn
import CallNet.Spec.Characters
import Mathlib.Algebra.Order.Field.Power
import Mathlib.Data.List.TakeWhile
import Mathlib.Data.Rat.Floor
import Mathlib.Tactic.IntervalCases
import Mathlib.Tactic.Linarith

/-!
# Address ranges

The trunk and the API keys read the same notation for a range of addresses, each with another
number parser.  On well-formed ranges both match exactly the addresses of the range
(`ipMatching_iff`); the parsers accept malformed ones as well, and not the same ones.
-/

namespace CallNet

/-! ## Numerals -/

/-- A decimal numeral and its value. -/
structure IsNumeral (ds : List Char) (v : Nat) : Prop where
  ne_nil : ds ≠ []
  digits : ∀ c ∈ ds, isDigit c = true
  value : digitsIn 10 ds = v

/-- The numbers of an address are doubles. -/
theorem toDouble_of_lt : ∀ n < 256, toDouble (n : Nat) = some (n : Rat) := by
  decide +kernel

/-! ### Rounding -/

theorem sub_half_le_roundEven (q : Rat) : q - 1 / 2 ≤ roundEven q := by
  have hbelow : q < (q.floor : Rat) + 1 := by
    have h := Rat.lt_floor_add_one q
    push_cast at h
    exact h
  unfold roundEven
  dsimp only
  split
  · linarith
  · split
    · push_cast
      linarith
    · split
      · linarith
      · push_cast
        linarith

/-- Rounding halves no natural number. -/
theorem half_le_nearestDouble (n : Nat) : (n : Rat) / 2 ≤ nearestDouble n := by
  unfold nearestDouble
  split
  · rename_i hzero
    rw [hzero]
    norm_num
  · rename_i hne
    have hn : n ≠ 0 := fun h => hne (by rw [h]; rfl)
    dsimp only
    -- the step between neighbours is far below the number
    have hexp : binaryExponent n ≤ (n.log2 : Int) := by
      unfold binaryExponent
      rw [Rat.num_natCast, Rat.den_natCast, Int.toNat_natCast]
      have hone : Nat.log2 1 = 0 := by decide
      rw [hone]
      dsimp only
      split <;> omega
    have hmax : max (-1074) (binaryExponent (n : Rat) - 52) ≤ (n.log2 : Int) := by
      omega
    have hpos : (0 : Rat) < 2 ^ max (-1074) (binaryExponent (n : Rat) - 52) := by positivity
    have hulp : (2 : Rat) ^ max (-1074) (binaryExponent (n : Rat) - 52) ≤ n := by
      calc (2 : Rat) ^ max (-1074) (binaryExponent (n : Rat) - 52)
          ≤ 2 ^ (n.log2 : Int) := zpow_le_zpow_right₀ (by norm_num) hmax
        _ = ((2 ^ n.log2 : Nat) : Rat) := by push_cast; exact zpow_natCast _ _
        _ ≤ n := by exact_mod_cast Nat.log2_self_le hn
    have hround := mul_le_mul_of_nonneg_right
      (sub_half_le_roundEven ((n : Rat) / 2 ^ max (-1074) (binaryExponent (n : Rat) - 52))) hpos.le
    rw [sub_mul, div_mul_cancel₀ _ hpos.ne'] at hround
    linarith

/-- A number of at most 32 that was read is a whole one, and no other was written. -/
theorem toNat_num_le {s : String} {q : Rat} (h : parseInt10 s = some q) (hle : q ≤ 32) :
    q.num.toNat ≤ 32 := by
  unfold parseInt10 at h
  dsimp only at h
  split at h
  · cases h
  · obtain ⟨r, hr, rfl⟩ := Option.map_eq_some_iff.mp h
    generalize digitsIn 10 _ = n at hr
    have hhalf := half_le_nearestDouble n
    have hround : nearestDouble n = r := by
      unfold toDouble at hr
      split at hr
      · exact Option.some.inj hr
      · cases hr
    have hn : (0 : Rat) ≤ n := Nat.cast_nonneg n
    split at hle
    · rename_i hneg
      have hnum : (-r).num ≤ 0 := Rat.num_nonpos.mpr (by linarith)
      rw [if_pos hneg]
      omega
    · rename_i hneg
      have hsmall : (n : Rat) < 256 := by linarith
      have hexact := toDouble_of_lt n (by exact_mod_cast hsmall)
      rw [hr] at hexact
      obtain rfl := Option.some.inj hexact
      rw [if_neg hneg, Rat.num_natCast, Int.toNat_natCast]
      exact_mod_cast hle

/-! ### What the parsers make of a numeral -/

namespace IsNumeral

variable {ds : List Char} {v : Nat} (h : IsNumeral ds v)
include h

theorem not_mem {c : Char} (hc : isDigit c = false) : c ∉ ds := by
  intro hmem
  rw [h.digits c hmem] at hc
  cases hc

theorem takeWhile_eq : ds.takeWhile isDigit = ds := by
  rw [List.takeWhile_eq_self_iff]
  exact h.digits

theorem dropWhile_eq : ds.dropWhile isDigit = [] := by
  rw [List.dropWhile_eq_nil_iff]
  exact h.digits

theorem no_space : ∀ c ∈ ds, isSpace c = false := fun c hc => isSpace_of_isDigit (h.digits c hc)

theorem dropWhile_isSpace : ds.dropWhile isSpace = ds := dropWhile_of_no_space h.no_space

theorem trim_eq : trim (String.ofList ds) = String.ofList ds :=
  trim_of_no_space (by rw [String.toList_ofList]; exact h.no_space)

theorem takeSign_eq : takeSign ds = (false, ds) := by
  unfold takeSign
  split
  · exact absurd List.mem_cons_self (h.not_mem (by decide))
  · exact absurd List.mem_cons_self (h.not_mem (by decide))
  · rfl

theorem prefixedLiteral_eq : prefixedLiteral ds = none := by
  unfold prefixedLiteral
  split
  all_goals first
    | exact absurd (List.mem_cons_of_mem _ List.mem_cons_self) (h.not_mem (by decide))
    | rfl

theorem unsignedDecimal_eq : unsignedDecimal ds = some (v : Rat) := by
  unfold unsignedDecimal
  rw [h.takeWhile_eq, h.dropWhile_eq]
  simp only [List.append_nil, if_neg h.ne_nil, exponentFactor, Option.map_some, h.value,
    List.length_nil, Rat.mul_one]
  simp

theorem jsNumber_eq (hv : v < 256) : jsNumber (String.ofList ds) = some (v : Rat) := by
  unfold jsNumber
  rw [h.trim_eq, String.toList_ofList]
  split
  · exact absurd rfl h.ne_nil
  · rw [h.prefixedLiteral_eq, h.takeSign_eq]
    simp only [h.unsignedDecimal_eq, Option.bind_some, toDouble_of_lt v hv, Option.map_some,
      Bool.false_eq_true, if_false]

theorem parseInt10_eq (hv : v < 256) : parseInt10 (String.ofList ds) = some (v : Rat) := by
  unfold parseInt10
  rw [String.toList_ofList, h.dropWhile_isSpace, h.takeSign_eq]
  simp only [h.takeWhile_eq, if_neg h.ne_nil, h.value, toDouble_of_lt v hv, Option.map_some,
    Bool.false_eq_true, if_false]

end IsNumeral

theorem digitsIn_ten {ds : List Char} (h : ∀ c ∈ ds, isDigit c = true) :
    digitsIn 10 ds = Nat.ofDigitChars 10 ds 0 := by
  unfold digitsIn
  generalize 0 = value
  induction ds generalizing value with
  | nil => simp
  | cons c ds ih =>
    have hc : digitValue c = c.toNat - '0'.toNat := by
      unfold digitValue
      rw [if_pos (h c List.mem_cons_self)]
    rw [List.foldl_cons, hc, ih (fun d hd => h d (List.mem_cons_of_mem c hd)),
      Nat.ofDigitChars_cons]

/-- The text of a number is a numeral. -/
theorem isNumeral_toString (n : Nat) : IsNumeral (toString n).toList n := by
  rw [Nat.toString_eq_repr, Nat.toList_repr]
  have hdigits : ∀ c ∈ Nat.toDigits 10 n, isDigit c = true := fun c => isDigit_of_mem_toDigits
  refine ⟨Nat.toDigits_ne_nil, hdigits, ?_⟩
  rw [digitsIn_ten hdigits, Nat.ofDigitChars_ten_toDigits]

/-! ## Addresses -/

/-- An IPv4 address. -/
structure Ipv4 where
  a : BitVec 8
  b : BitVec 8
  c : BitVec 8
  d : BitVec 8
deriving DecidableEq, Repr

namespace Ipv4

def bits (x : Ipv4) : BitVec 32 := x.a ++ x.b ++ x.c ++ x.d

def text (x : Ipv4) : String :=
  toString x.a.toNat ++ "." ++ toString x.b.toNat ++ "." ++ toString x.c.toNat ++ "." ++
    toString x.d.toNat

/-- The first `n` bits are the same. -/
def SamePrefix (n : Nat) (x y : Ipv4) : Prop := ∀ i < n, x.bits.getMsbD i = y.bits.getMsbD i

theorem bits_toNat (x : Ipv4) : x.bits.toNat =
    ((x.a.toNat * 256 + x.b.toNat) * 256 + x.c.toNat) * 256 + x.d.toNat := by
  have hshift : ∀ {w : Nat} (u : BitVec w) (v : BitVec 8),
      (u ++ v).toNat = u.toNat * 256 + v.toNat := by
    intro w u v
    rw [BitVec.toNat_append, ← Nat.shiftLeft_add_eq_or_of_lt v.isLt, Nat.shiftLeft_eq]
  show (x.a ++ x.b ++ x.c ++ x.d).toNat = _
  rw [hshift, hshift, hshift]

theorem testBit_shiftRight (z : BitVec 32) (k i : Nat) :
    (z.toNat >>> k).testBit i = z.getLsbD (k + i) := by
  rw [Nat.testBit_shiftRight]
  rfl

/-- The first bits are what is left when the last ones are shifted out. -/
theorem samePrefix_iff {n : Nat} (hn : n ≤ 32) (x y : Ipv4) :
    SamePrefix n x y ↔ x.bits.toNat >>> (32 - n) = y.bits.toNat >>> (32 - n) := by
  constructor
  · intro h
    apply Nat.eq_of_testBit_eq
    intro i
    rw [testBit_shiftRight, testBit_shiftRight]
    by_cases hi : i < n
    · have hsame := h (n - 1 - i) (by omega)
      rw [BitVec.getMsbD_eq_getLsbD, BitVec.getMsbD_eq_getLsbD] at hsame
      have hplace : 32 - 1 - (n - 1 - i) = 32 - n + i := by omega
      rw [hplace] at hsame
      simpa [show n - 1 - i < 32 by omega] using hsame
    · rw [BitVec.getLsbD_of_ge _ _ (by omega), BitVec.getLsbD_of_ge _ _ (by omega)]
  · intro h i hi
    have hsame : (x.bits.toNat >>> (32 - n)).testBit (n - 1 - i) =
        (y.bits.toNat >>> (32 - n)).testBit (n - 1 - i) := by rw [h]
    rw [testBit_shiftRight, testBit_shiftRight] at hsame
    rw [BitVec.getMsbD_eq_getLsbD, BitVec.getMsbD_eq_getLsbD]
    have hplace : 32 - 1 - i = 32 - n + (n - 1 - i) := by omega
    rw [hplace, hsame]

/-- Masking leaves the first bits. -/
theorem mask_iff {n : Nat} (hn : n ≤ 32) (x y : BitVec 32) :
    x &&& ApiKeyService.mask n = y &&& ApiKeyService.mask n ↔
      x.toNat >>> (32 - n) = y.toNat >>> (32 - n) := by
  have hmask : ∀ k < 33, ApiKeyService.mask k = BitVec.allOnes 32 <<< (32 - k) := by
    decide
  have hbit : ∀ (z : BitVec 32) (i : Nat), (z &&& ApiKeyService.mask n).getLsbD i =
      (z.getLsbD i && decide (32 - n ≤ i)) := by
    intro z i
    rw [hmask n (by omega), BitVec.getLsbD_and, BitVec.getLsbD_shiftLeft, BitVec.getLsbD_allOnes]
    by_cases hi : i < 32
    · have hlate : decide (32 - n ≤ i) = !decide (i < 32 - n) := by
        rw [← decide_not]
        exact decide_eq_decide.mpr Nat.not_lt.symm
      rw [hlate, decide_eq_true hi, decide_eq_true (show i - (32 - n) < 32 by omega),
        Bool.true_and, Bool.and_true]
    · rw [BitVec.getLsbD_of_ge _ _ (Nat.not_lt.mp hi), Bool.false_and, Bool.false_and]
  constructor
  · intro h
    apply Nat.eq_of_testBit_eq
    intro i
    have hsame := congrArg (fun z : BitVec 32 => z.getLsbD (32 - n + i)) h
    simp only [hbit, Nat.le_add_right, decide_true, Bool.and_true] at hsame
    rw [testBit_shiftRight, testBit_shiftRight, hsame]
  · intro h
    apply BitVec.eq_of_getLsbD_eq
    intro i hi
    rw [hbit, hbit]
    by_cases hlow : 32 - n ≤ i
    · have hsame : (x.toNat >>> (32 - n)).testBit (i - (32 - n)) =
          (y.toNat >>> (32 - n)).testBit (i - (32 - n)) := by rw [h]
      rw [testBit_shiftRight, testBit_shiftRight, Nat.add_sub_cancel' hlow] at hsame
      rw [hsame]
    · simp only [hlow, decide_false, Bool.and_false]

/-! ### Texts -/

theorem toList_text (x : Ipv4) : x.text.toList =
    (toString x.a.toNat).toList ++ '.' :: ((toString x.b.toNat).toList ++
      '.' :: ((toString x.c.toNat).toList ++ '.' :: (toString x.d.toNat).toList)) := by
  have hdot : ".".toList = ['.'] := rfl
  simp only [text, String.toList_append, hdot, List.append_assoc, List.cons_append,
    List.nil_append]

end Ipv4

/-- Four numerals between dots. -/
def IsDotted (s : List Char) (x : Ipv4) : Prop :=
  ∃ a b c d, s = a ++ '.' :: (b ++ '.' :: (c ++ '.' :: d)) ∧ IsNumeral a x.a.toNat ∧
    IsNumeral b x.b.toNat ∧ IsNumeral c x.c.toNat ∧ IsNumeral d x.d.toNat

theorem isDotted_text (x : Ipv4) : IsDotted x.text.toList x :=
  ⟨_, _, _, _, x.toList_text, isNumeral_toString _, isNumeral_toString _, isNumeral_toString _,
    isNumeral_toString _⟩

/-- Nothing but digits and dots. -/
theorem IsDotted.chars {s : List Char} {x : Ipv4} (h : IsDotted s x) {ch : Char} (hmem : ch ∈ s) :
    isDigit ch = true ∨ ch = '.' := by
  obtain ⟨a, b, c, d, rfl, ha, hb, hc, hd⟩ := h
  simp only [List.mem_append, List.mem_cons] at hmem
  rcases hmem with hmem | rfl | hmem | rfl | hmem | rfl | hmem
  · exact .inl (ha.digits ch hmem)
  · exact .inr rfl
  · exact .inl (hb.digits ch hmem)
  · exact .inr rfl
  · exact .inl (hc.digits ch hmem)
  · exact .inr rfl
  · exact .inl (hd.digits ch hmem)

theorem IsDotted.not_mem {s : List Char} {x : Ipv4} (h : IsDotted s x) {ch : Char}
    (hdigit : isDigit ch = false) (hdot : ch ≠ '.') : ch ∉ s := by
  intro hmem
  rcases h.chars hmem with hch | hch
  · rw [hdigit] at hch
    cases hch
  · exact hdot hch

theorem IsDotted.splitOn {s : List Char} {x : Ipv4} (h : IsDotted s x) :
    ∃ a b c d, s.splitOn '.' = [a, b, c, d] ∧ IsNumeral a x.a.toNat ∧
      IsNumeral b x.b.toNat ∧ IsNumeral c x.c.toNat ∧ IsNumeral d x.d.toNat := by
  obtain ⟨a, b, c, d, rfl, ha, hb, hc, hd⟩ := h
  have hdot : isDigit '.' = false := by decide
  refine ⟨a, b, c, d, ?_, ha, hb, hc, hd⟩
  rw [List.splitOn_append_cons_self_of_not_mem (ha.not_mem hdot),
    List.splitOn_append_cons_self_of_not_mem (hb.not_mem hdot),
    List.splitOn_append_cons_self_of_not_mem (hc.not_mem hdot),
    List.splitOn_eq_singleton (hd.not_mem hdot)]

theorem stripV4Mapped_text (x : Ipv4) : ApiKeyService.stripV4Mapped x.text = x.text := by
  unfold ApiKeyService.stripV4Mapped
  split
  · rename_i heq
    have hcolon : ':' ∈ x.text.toList := heq ▸ List.mem_cons_self
    exact absurd hcolon ((isDotted_text x).not_mem (by decide) (by decide))
  · rfl

/-! ## The number of an address -/

/-- The runtime with its number parser. -/
def Runtime.js (rt : Runtime) : Runtime := { rt with toNumber := jsNumber }

@[simp] theorem Runtime.js_toNumber (rt : Runtime) : rt.js.toNumber = jsNumber := by
  simp only [Runtime.js]

section Numbers

variable {rt : Runtime} {s : String} {x : Ipv4}

theorem ipToInt_dotted (h : IsDotted s.toList x) : ipToInt rt.js s = some x.bits.toNat := by
  obtain ⟨a, b, c, d, hsplit, ha, hb, hc, hd⟩ := h.splitOn
  have hoctet : ∀ {ds : List Char} {v : BitVec 8}, IsNumeral ds v.toNat →
      ((jsNumber (String.ofList ds)).bind fun o =>
        if o.den = 1 ∧ 0 ≤ o.num ∧ o.num ≤ 255 then some o.num.toNat else none) =
        some v.toNat := by
    intro ds v hds
    have hv := v.isLt
    rw [hds.jsNumber_eq hv, Option.bind_some]
    have hin : ((v.toNat : Rat)).den = 1 ∧ 0 ≤ (v.toNat : Rat).num ∧ (v.toNat : Rat).num ≤ 255 := by
      rw [Rat.den_natCast, Rat.num_natCast]
      exact ⟨rfl, Int.natCast_nonneg _, by omega⟩
    rw [if_pos hin, Rat.num_natCast, Int.toNat_natCast]
  have hparts : s.splitOn "." = [a, b, c, d].map String.ofList := by
    rw [← hsplit]
    exact String.splitOn_singleton s '.'
  unfold ipToInt
  rw [hparts]
  simp only [Runtime.js, List.map_cons, List.map_nil, hoctet ha, hoctet hb, hoctet hc, hoctet hd,
    Ipv4.bits_toNat]

/-- What is read as an address is the number of one. -/
theorem exists_of_ipToInt {n : Nat} (h : ipToInt rt.js s = some n) :
    ∃ x : Ipv4, x.bits.toNat = n := by
  have hoctet : ∀ {o : Option Rat} {n : Nat}, (o.bind fun o =>
      if o.den = 1 ∧ 0 ≤ o.num ∧ o.num ≤ 255 then some o.num.toNat else none) = some n →
        n < 256 := by
    intro o n ho
    obtain ⟨q, _, hq⟩ := Option.bind_eq_some_iff.mp ho
    split at hq
    · rename_i hin
      have hn := Option.some.inj hq
      omega
    · cases hq
  unfold ipToInt at h
  dsimp only at h
  split at h
  · rename_i a b c d heq
    obtain rfl := Option.some.inj h
    -- each part is an octet
    obtain ⟨p, ps, hp, hpa, hps⟩ := List.map_eq_cons_iff.mp heq
    obtain ⟨q, qs, rfl, hqb, hqs⟩ := List.map_eq_cons_iff.mp hps
    obtain ⟨r, rs, rfl, hrc, hrs⟩ := List.map_eq_cons_iff.mp hqs
    obtain ⟨t, ts, rfl, htd, _⟩ := List.map_eq_cons_iff.mp hrs
    have ha := hoctet hpa
    have hb := hoctet hqb
    have hc := hoctet hrc
    have hd := hoctet htd
    refine ⟨⟨.ofNat 8 a, .ofNat 8 b, .ofNat 8 c, .ofNat 8 d⟩, ?_⟩
    rw [Ipv4.bits_toNat]
    simp only [BitVec.toNat_ofNat]
    omega
  · cases h

end Numbers

/-! ## What the parsers make of an entry -/

/-- A well-formed range: an address, and how many of its first bits count. -/
def IsRange (entry : String) (net : Ipv4) (n : Nat) : Prop :=
  n ≤ 32 ∧ ∃ range length, entry.toList = range ++ '/' :: length ∧ IsDotted range net ∧
    IsNumeral length n

/-- What the trunk reads: a number of up to 32 bits between the first two slashes, and before
    them four octets. -/
def TrunkReads (rt : Runtime) (entry : String) (net n : Nat) : Prop :=
  ∃ range bits rest, entry.splitOn "/" = range :: bits :: rest ∧
    jsNumber bits = some (n : Rat) ∧ n ≤ 32 ∧ ipToInt rt.js range = some net

/-- What the keys read: after the first slash anything that begins with a number of at most 32,
    negative ones being none, and before it four octets. -/
def KeyReads (rt : Runtime) (entry : String) (net n : Nat) : Prop :=
  ∃ bits : Rat,
    parseInt10 (String.ofList ((entry.toList.dropWhile (· ≠ '/')).drop 1)) = some bits ∧
    bits ≤ 32 ∧ bits.num.toNat = n ∧
    ipToInt rt.js (String.ofList (entry.toList.takeWhile (· ≠ '/'))) = some net

section Readers

variable {rt : Runtime} {entry : String} {net n : Nat}

theorem not_mem_text (x : Ipv4) : '/' ∉ x.text.toList :=
  (isDotted_text x).not_mem (by decide) (by decide)

theorem ne_text (hslash : '/' ∈ entry.toList) (x : Ipv4) : entry ≠ x.text :=
  fun h => not_mem_text x (h ▸ hslash)

theorem text_ne_empty (x : Ipv4) : x.text ≠ "" := by
  intro h
  obtain ⟨a, b, c, d, hchars, ha, _⟩ := isDotted_text x
  rw [h] at hchars
  cases a with
  | nil => exact ha.ne_nil rfl
  | cons c a => cases hchars

/-- The parts around the first slash. -/
theorem parts_eq {before after : List Char} (hparts : entry.toList = before ++ '/' :: after)
    (hbefore : '/' ∉ before) :
    entry.splitOn "/" = String.ofList before :: (after.splitOn '/').map String.ofList ∧
      entry.toList.takeWhile (· ≠ '/') = before ∧
      (entry.toList.dropWhile (· ≠ '/')).drop 1 = after := by
  have hstop : ∀ c ∈ before, decide (c ≠ '/') = true := fun c hc =>
    decide_eq_true fun heq => hbefore (heq ▸ hc)
  refine ⟨?_, ?_, ?_⟩
  · have hsplit : entry.splitOn "/" = (entry.toList.splitOn '/').map String.ofList :=
      String.splitOn_singleton entry '/'
    rw [hsplit, hparts, List.splitOn_append_cons_self_of_not_mem hbefore, List.map_cons]
  · rw [hparts, List.takeWhile_append_of_pos hstop]
    simp
  · rw [hparts, List.dropWhile_append_of_pos hstop]
    simp

/-- The trunk matches what shares the first bits with what it reads. -/
theorem trunk_matches_iff (hslash : '/' ∈ entry.toList) (x : Ipv4) :
    ipMatches rt.js x.text entry = true ↔
      ∃ net n, TrunkReads rt entry net n ∧ x.bits.toNat >>> (32 - n) = net >>> (32 - n) := by
  obtain ⟨before, after, hparts, hbefore⟩ := List.eq_append_cons_of_mem hslash
  obtain ⟨hsplit, _, _⟩ := parts_eq hparts hbefore
  obtain ⟨bits, rest, hafter⟩ : ∃ bits rest, after.splitOn '/' = bits :: rest :=
    List.exists_cons_of_ne_nil (List.splitOn_ne_nil '/' after)
  rw [hafter, List.map_cons] at hsplit
  have htext := text_ne_empty x
  have hentry : entry ≠ "" := by
    rintro rfl
    cases hslash
  unfold ipMatches
  rw [if_neg (not_or.mpr ⟨htext, hentry⟩), hsplit]
  simp only [Runtime.js_toNumber, ipToInt_dotted (isDotted_text x)]
  constructor
  · intro h
    split at h
    · cases h
    · rename_i q hq
      split at h
      · rename_i hin
        split at h
        · rename_i ipInt rangeInt hip hrange
          obtain rfl := Option.some.inj hip
          have hcast : q = (q.num.toNat : Rat) := by
            have hnum : ((q.num.toNat : Int) : Rat) = (q.num : Rat) := by
              rw [Int.toNat_of_nonneg hin.2.1]
            rw [← Int.cast_natCast, hnum]
            exact (Rat.coe_int_num_of_den_eq_one hin.1).symm
          refine ⟨rangeInt, q.num.toNat, ⟨_, _, _, hsplit, ?_, by omega, hrange⟩,
            beq_iff_eq.mp h⟩
          rw [← hcast]
          exact hq
        · cases h
      · cases h
  · rintro ⟨net, n, ⟨range', bits', rest', hsplit', hq, hn, hrange⟩, hsame⟩
    rw [hsplit] at hsplit'
    obtain ⟨rfl, htail⟩ := List.cons.inj hsplit'
    obtain ⟨rfl, _⟩ := List.cons.inj htail
    have hin : ((n : Rat)).den = 1 ∧ 0 ≤ (n : Rat).num ∧ (n : Rat).num ≤ 32 := by
      rw [Rat.den_natCast, Rat.num_natCast]
      exact ⟨rfl, Int.natCast_nonneg _, by omega⟩
    simp only [hq, hrange]
    rw [if_pos hin, Rat.num_natCast, Int.toNat_natCast]
    exact beq_iff_eq.mpr hsame

/-- The keys match what shares the first bits with what they read. -/
theorem key_matches_iff (hslash : '/' ∈ entry.toList) (x : Ipv4) :
    ApiKeyService.ipMatches rt.js entry x.text = true ↔
      ∃ net n, KeyReads rt entry net n ∧ x.bits.toNat >>> (32 - n) = net >>> (32 - n) := by
  have hne : entry ≠ x.text := ne_text hslash x
  unfold ApiKeyService.ipMatches
  rw [stripV4Mapped_text]
  dsimp only
  rw [if_neg (not_or.mpr ⟨hne, hne⟩), if_neg (not_not_intro hslash)]
  have hip : ApiKeyService.ipv4ToInt rt.js x.text = some x.bits.toNat :=
    ipToInt_dotted (isDotted_text x)
  have hshift : ∀ (y : Nat), y < 2 ^ 32 → y >>> 32 = 0 := fun y hy =>
    Nat.shiftRight_eq_zero y 32 hy
  have hofNat : ∀ y < 2 ^ 32, (BitVec.ofNat 32 y).toNat = y := fun y hy => by
    rw [BitVec.toNat_ofNat, Nat.mod_eq_of_lt hy]
  rw [hip]
  constructor
  · intro h
    split at h
    · cases h
    · rename_i q hq
      split at h
      · rename_i a b hrange hb
        obtain rfl := Option.some.inj hb
        obtain ⟨y, hy⟩ := exists_of_ipToInt hrange
        split at h
        · rename_i hzero
          -- a number that is not positive leaves no bit to compare
          have hnum : q.num.toNat = 0 := by
            have hnonpos : q.num ≤ 0 := Rat.num_nonpos.mpr hzero
            omega
          refine ⟨a, 0, ⟨q, hq, hzero.trans (Nat.ofNat_nonneg 32), hnum, hrange⟩, ?_⟩
          rw [hshift _ x.bits.isLt, ← hy, hshift _ y.bits.isLt]
        · split at h
          · cases h
          · rename_i hbound
            have hle : q ≤ 32 := not_lt.mp hbound
            refine ⟨a, q.num.toNat, ⟨q, hq, hle, rfl, hrange⟩, ?_⟩
            rw [beq_iff_eq, Ipv4.mask_iff (toNat_num_le hq hle), hofNat a (hy ▸ y.bits.isLt),
              hofNat _ x.bits.isLt] at h
            exact h.symm
      · cases h
  · rintro ⟨net, n, ⟨q, hq, hle, hn, hrange⟩, hsame⟩
    have hrange' : ApiKeyService.ipv4ToInt rt.js
        (String.ofList (entry.toList.takeWhile (· ≠ '/'))) = some net := hrange
    simp only [hq, hrange']
    split
    · rfl
    · obtain ⟨y, hy⟩ := exists_of_ipToInt hrange
      rw [if_neg (not_lt.mpr hle), beq_iff_eq, Ipv4.mask_iff (toNat_num_le hq hle),
        hofNat net (hy ▸ y.bits.isLt), hofNat _ x.bits.isLt, hn]
      exact hsame.symm

/-! ### Well-formed ranges -/

theorem IsRange.trunkReads {x : Ipv4} (h : IsRange entry x n) :
    TrunkReads rt entry x.bits.toNat n := by
  obtain ⟨hn, range, length, hparts, hrange, hlength⟩ := h
  have hslash : isDigit '/' = false := by decide
  obtain ⟨hsplit, _, _⟩ := parts_eq hparts (hrange.not_mem hslash (by decide))
  rw [List.splitOn_eq_singleton (hlength.not_mem hslash)] at hsplit
  have hrange' : IsDotted (String.ofList range).toList x := by
    rw [String.toList_ofList]
    exact hrange
  exact ⟨_, _, _, hsplit, hlength.jsNumber_eq (by omega), hn, ipToInt_dotted hrange'⟩

theorem IsRange.keyReads {x : Ipv4} (h : IsRange entry x n) : KeyReads rt entry x.bits.toNat n := by
  obtain ⟨hn, range, length, hparts, hrange, hlength⟩ := h
  obtain ⟨_, hbefore, hafter⟩ := parts_eq hparts (hrange.not_mem (by decide) (by decide))
  have hrange' : IsDotted (String.ofList range).toList x := by
    rw [String.toList_ofList]
    exact hrange
  refine ⟨n, ?_, by exact_mod_cast hn, ?_, ?_⟩
  · rw [hafter]
    exact hlength.parseInt10_eq (by omega)
  · rw [Rat.num_natCast, Int.toNat_natCast]
  · rw [hbefore]
    exact ipToInt_dotted hrange'

theorem IsRange.mem {x : Ipv4} (h : IsRange entry x n) : '/' ∈ entry.toList := by
  obtain ⟨_, range, length, hparts, _, _⟩ := h
  rw [hparts]
  exact List.mem_append_right _ List.mem_cons_self

/-! ### The parsers read one range at most -/

theorem TrunkReads.unique {net' n' : Nat} (h : TrunkReads rt entry net n)
    (h' : TrunkReads rt entry net' n') : net' = net ∧ n' = n := by
  obtain ⟨range, bits, rest, hsplit, hbits, _, hnet⟩ := h
  obtain ⟨range', bits', rest', hsplit', hbits', _, hnet'⟩ := h'
  rw [hsplit] at hsplit'
  obtain ⟨rfl, htail⟩ := List.cons.inj hsplit'
  obtain ⟨rfl, _⟩ := List.cons.inj htail
  rw [hbits] at hbits'
  rw [hnet] at hnet'
  exact ⟨(Option.some.inj hnet').symm, by exact_mod_cast (Option.some.inj hbits').symm⟩

theorem KeyReads.unique {net' n' : Nat} (h : KeyReads rt entry net n)
    (h' : KeyReads rt entry net' n') : net' = net ∧ n' = n := by
  obtain ⟨bits, hbits, _, rfl, hnet⟩ := h
  obtain ⟨bits', hbits', _, rfl, hnet'⟩ := h'
  rw [hbits] at hbits'
  rw [hnet] at hnet'
  obtain rfl := Option.some.inj hbits'
  exact ⟨(Option.some.inj hnet').symm, rfl⟩

theorem TrunkReads.exists_match (h : TrunkReads rt entry net n) (hslash : '/' ∈ entry.toList) :
    ∃ x : Ipv4, ipMatches rt.js x.text entry = true := by
  obtain ⟨_, _, _, _, _, _, hnet⟩ := id h
  obtain ⟨x, hx⟩ := exists_of_ipToInt hnet
  exact ⟨x, (trunk_matches_iff hslash x).mpr ⟨net, n, h, by rw [hx]⟩⟩

theorem KeyReads.exists_match (h : KeyReads rt entry net n) (hslash : '/' ∈ entry.toList) :
    ∃ x : Ipv4, ApiKeyService.ipMatches rt.js entry x.text = true := by
  obtain ⟨_, _, _, _, hnet⟩ := id h
  obtain ⟨x, hx⟩ := exists_of_ipToInt hnet
  exact ⟨x, (key_matches_iff hslash x).mpr ⟨net, n, h, by rw [hx]⟩⟩

end Readers

/-! ## The two matchers -/

/-- What an entry should match, for the trunk and for the keys. -/
structure IpMatching (rt : Runtime) (entry : String) : Prop where
  /-- A well-formed range matches the addresses with its first bits. -/
  range : ∀ net n, IsRange entry net n → ∀ x,
    (ipMatches rt.js x.text entry = true ↔ net.SamePrefix n x) ∧
      (ApiKeyService.ipMatches rt.js entry x.text = true ↔ net.SamePrefix n x)
  /-- Without a slash it matches itself. -/
  single : '/' ∉ entry.toList → ∀ x : Ipv4,
    (ipMatches rt.js x.text entry = true ↔ x.text = entry) ∧
      (ApiKeyService.ipMatches rt.js entry x.text = true ↔ x.text = entry)
  /-- Any other entry matches no address. -/
  malformed : '/' ∈ entry.toList → (¬∃ net n, IsRange entry net n) → ∀ x : Ipv4,
    ipMatches rt.js x.text entry = false ∧ ApiKeyService.ipMatches rt.js entry x.text = false
  agree : ∀ x : Ipv4, ipMatches rt.js x.text entry = ApiKeyService.ipMatches rt.js entry x.text

/-- The entry is no malformed range that one of the parsers takes for a range. -/
def NotMisread (rt : Runtime) (entry : String) : Prop :=
  '/' ∈ entry.toList → (¬∃ net n, IsRange entry net n) → ∀ net n,
    ¬TrunkReads rt entry net n ∧ ¬KeyReads rt entry net n

section Matchers

variable (rt : Runtime) {entry : String} {net : Ipv4} {n : Nat}

theorem trunk_matches_range (h : IsRange entry net n) (x : Ipv4) :
    ipMatches rt.js x.text entry = true ↔ net.SamePrefix n x := by
  have hn : n ≤ 32 := h.1
  rw [trunk_matches_iff h.mem, Ipv4.samePrefix_iff hn]
  constructor
  · rintro ⟨net', n', hreads, hsame⟩
    have hrange : TrunkReads rt entry net.bits.toNat n := h.trunkReads
    obtain ⟨rfl, rfl⟩ := hrange.unique hreads
    exact hsame.symm
  · intro hsame
    exact ⟨_, _, h.trunkReads, hsame.symm⟩

theorem key_matches_range (h : IsRange entry net n) (x : Ipv4) :
    ApiKeyService.ipMatches rt.js entry x.text = true ↔ net.SamePrefix n x := by
  have hn : n ≤ 32 := h.1
  rw [key_matches_iff h.mem, Ipv4.samePrefix_iff hn]
  constructor
  · rintro ⟨net', n', hreads, hsame⟩
    have hrange : KeyReads rt entry net.bits.toNat n := h.keyReads
    obtain ⟨rfl, rfl⟩ := hrange.unique hreads
    exact hsame.symm
  · intro hsame
    exact ⟨_, _, h.keyReads, hsame.symm⟩

theorem trunk_matches_single (hslash : '/' ∉ entry.toList) (x : Ipv4) :
    ipMatches rt.js x.text entry = true ↔ x.text = entry := by
  have hsplit : entry.splitOn "/" = [entry] := by
    have h : entry.splitOn "/" = (entry.toList.splitOn '/').map String.ofList :=
      String.splitOn_singleton entry '/'
    rw [h, List.splitOn_eq_singleton hslash, List.map_singleton, String.ofList_toList]
  unfold ipMatches
  rw [hsplit]
  dsimp only
  split
  · rename_i hempty
    constructor
    · intro h
      cases h
    · rintro rfl
      exact absurd (hempty.elim id id) (text_ne_empty x)
  · rw [decide_eq_true_iff]

theorem key_matches_single (hslash : '/' ∉ entry.toList) (x : Ipv4) :
    ApiKeyService.ipMatches rt.js entry x.text = true ↔ x.text = entry := by
  unfold ApiKeyService.ipMatches
  rw [stripV4Mapped_text]
  dsimp only
  by_cases h : entry = x.text
  · rw [if_pos (.inl h)]
    exact iff_of_true rfl h.symm
  · rw [if_neg (not_or.mpr ⟨h, h⟩), if_pos hslash]
    exact iff_of_false Bool.false_ne_true (Ne.symm h)

theorem not_matches (hslash : '/' ∈ entry.toList)
    (h : ∀ net n, ¬TrunkReads rt entry net n ∧ ¬KeyReads rt entry net n) (x : Ipv4) :
    ipMatches rt.js x.text entry = false ∧
      ApiKeyService.ipMatches rt.js entry x.text = false := by
  constructor
  · rw [← Bool.not_eq_true, trunk_matches_iff hslash]
    rintro ⟨net, n, hreads, _⟩
    exact (h net n).1 hreads
  · rw [← Bool.not_eq_true, key_matches_iff hslash]
    rintro ⟨net, n, hreads, _⟩
    exact (h net n).2 hreads

/-- The matchers do what they should exactly on the entries that are not misread. -/
theorem ipMatching_iff (rt : Runtime) (entry : String) :
    IpMatching rt entry ↔ NotMisread rt entry := by
  constructor
  · intro h hslash hrange net n
    constructor
    · intro hreads
      obtain ⟨x, hx⟩ := hreads.exists_match hslash
      rw [(h.malformed hslash hrange x).1] at hx
      cases hx
    · intro hreads
      obtain ⟨x, hx⟩ := hreads.exists_match hslash
      rw [(h.malformed hslash hrange x).2] at hx
      cases hx
  · intro h
    have hmalformed : '/' ∈ entry.toList → (¬∃ net n, IsRange entry net n) → ∀ x : Ipv4,
        ipMatches rt.js x.text entry = false ∧
          ApiKeyService.ipMatches rt.js entry x.text = false :=
      fun hslash hrange x => not_matches rt hslash (h hslash hrange) x
    have hagree : ∀ x : Ipv4, (ipMatches rt.js x.text entry = true ↔
        ApiKeyService.ipMatches rt.js entry x.text = true) := by
      intro x
      by_cases hslash : '/' ∈ entry.toList
      · by_cases hrange : ∃ net n, IsRange entry net n
        · obtain ⟨net, n, hrange⟩ := hrange
          rw [trunk_matches_range rt hrange, key_matches_range rt hrange]
        · obtain ⟨htrunk, hkey⟩ := hmalformed hslash hrange x
          rw [htrunk, hkey]
      · rw [trunk_matches_single rt hslash, key_matches_single rt hslash]
    exact {
      range := fun net n hrange x =>
        ⟨trunk_matches_range rt hrange x, key_matches_range rt hrange x⟩
      single := fun hslash x =>
        ⟨trunk_matches_single rt hslash x, key_matches_single rt hslash x⟩
      malformed := hmalformed
      agree := fun x => Bool.eq_iff_iff.mpr (hagree x) }

end Matchers

/-! ### Misread entries -/

section Misread

variable (rt : Runtime)

theorem ipToInt_network : ipToInt rt.js "203.0.113.0" = some 3405803776 := by
  have htext : Ipv4.text ⟨203, 0, 113, 0⟩ = "203.0.113.0" := by decide
  have hbits : (Ipv4.bits ⟨203, 0, 113, 0⟩).toNat = 3405803776 := by decide
  have hdotted := isDotted_text ⟨203, 0, 113, 0⟩
  rw [htext] at hdotted
  rw [ipToInt_dotted hdotted, hbits]

/-- To the trunk a length that is missing is 0. -/
theorem trunkReads_noLength : TrunkReads rt "203.0.113.0/" 3405803776 0 := by
  have hsplit : "203.0.113.0/".splitOn "/" = ["203.0.113.0", ""] :=
    (String.splitOn_singleton _ '/').trans (by decide)
  exact ⟨_, _, _, hsplit, by decide, by omega, ipToInt_network rt⟩

theorem not_keyReads_noLength (net n : Nat) : ¬KeyReads rt "203.0.113.0/" net n := by
  rintro ⟨bits, hbits, _⟩
  have hnone : parseInt10 (String.ofList (("203.0.113.0/".toList.dropWhile (· ≠ '/')).drop 1)) =
      none := by decide
  rw [hnone] at hbits
  cases hbits

/-- To the keys a negative length is 0. -/
theorem keyReads_negative : KeyReads rt "203.0.113.0/-1" 3405803776 0 := by
  have hrange : String.ofList ("203.0.113.0/-1".toList.takeWhile (· ≠ '/')) = "203.0.113.0" := by
    decide
  refine ⟨-1, by decide +kernel, by decide, by decide, ?_⟩
  rw [hrange]
  exact ipToInt_network rt

theorem not_trunkReads_negative (net n : Nat) : ¬TrunkReads rt "203.0.113.0/-1" net n := by
  rintro ⟨range, bits, rest, hsplit, hbits, _⟩
  have hparts : "203.0.113.0/-1".splitOn "/" = ["203.0.113.0", "-1"] :=
    (String.splitOn_singleton _ '/').trans (by decide)
  rw [hparts] at hsplit
  obtain ⟨_, htail⟩ := List.cons.inj hsplit
  obtain ⟨rfl, _⟩ := List.cons.inj htail
  have hminus : jsNumber "-1" = some (-1) := by decide +kernel
  rw [hminus] at hbits
  have hneg : (n : Rat) = -1 := (Option.some.inj hbits).symm
  have hn : (0 : Rat) ≤ n := Nat.cast_nonneg n
  linarith

/-- Without a length the trunk matches every address and the keys none. -/
theorem not_ipMatching_noLength : ¬IpMatching rt "203.0.113.0/" := by
  intro h
  have htrunk : ipMatches rt.js (Ipv4.text ⟨8, 8, 8, 8⟩) "203.0.113.0/" = true :=
    (trunk_matches_iff (by decide) _).mpr ⟨_, _, trunkReads_noLength rt, by decide⟩
  rw [h.agree, key_matches_iff (by decide)] at htrunk
  obtain ⟨net, n, hreads, _⟩ := htrunk
  exact not_keyReads_noLength rt net n hreads

/-- With a negative length the keys match every address and the trunk none. -/
theorem not_ipMatching_negative : ¬IpMatching rt "203.0.113.0/-1" := by
  intro h
  have hkey : ApiKeyService.ipMatches rt.js "203.0.113.0/-1" (Ipv4.text ⟨8, 8, 8, 8⟩) = true :=
    (key_matches_iff (by decide) _).mpr ⟨_, _, keyReads_negative rt, by decide⟩
  rw [← h.agree, trunk_matches_iff (by decide)] at hkey
  obtain ⟨net, n, hreads, _⟩ := hkey
  exact not_trunkReads_negative rt net n hreads

end Misread

/-- Each of the parsers misreads an entry of its own. -/
theorem not_ipMatching_misread :
    ¬IpMatching ⟨fun _ => none, fun _ _ _ => none, fun _ => none, id⟩ "203.0.113.0/" ∧
      ¬IpMatching ⟨fun _ => none, fun _ _ _ => none, fun _ => none, id⟩ "203.0.113.0/-1" :=
  ⟨not_ipMatching_noLength _, not_ipMatching_negative _⟩

end CallNet
