import CallNet.ForStd.Minifloat
import CallNet.Spec.Resampling
import CallNet.Streaming.AudioCodec

/-!
# Mu-law companding

The magnitude of a sample, raised by `BIAS` and in units of 8, is coded as a small floating-point
number with four bits behind the leading one; a byte is decoded to the middle of its step.

Main results:

- `mulaw_tandem`: a byte that is decoded and encoded again is the same byte, but for the second
  zero; the samples are the same always
- `companding`: what a buffer of samples becomes on the way to the carrier and back
-/

namespace CallNet.Streaming

open LittleEndian Minifloat

/-! ## The operators on 32-bit integers -/

theorem toInt_ofInt {a : Int} (hlow : -2 ^ 31 ≤ a) (hhigh : a < 2 ^ 31) :
    (BitVec.ofInt 32 a).toInt = a := by
  rw [BitVec.toInt_ofInt]
  exact Int.bmod_eq_of_le (by omega) (by omega)

theorem shiftRight_eq {a : Int} (hlow : -2 ^ 31 ≤ a) (hhigh : a < 2 ^ 31) {n : Nat} (hn : n < 32) :
    shiftRight a n = a / 2 ^ n := by
  have hcount : ((n : Int) % 32).toNat = n := by omega
  unfold shiftRight
  rw [hcount, BitVec.toInt_sshiftRight, toInt_ofInt hlow hhigh, Int.shiftRight_eq_div_pow]
  norm_cast

theorem shiftRight_natCast {a n : Nat} (ha : a < 2 ^ 31) (hn : n < 32) :
    shiftRight a n = (a / 2 ^ n : Nat) := by
  rw [shiftRight_eq (by omega) (by omega) hn]
  norm_cast

/-- The number of samples that the source counts, for every buffer below the bound. -/
theorem length_shiftRight {pcm : Buffer} (h : pcm.length < 2 ^ 31) :
    shiftRight pcm.length 1 = (pcm.length / 2 : Nat) :=
  shiftRight_natCast h (show 1 < 32 by decide)

theorem shiftLeft_natCast {a n : Nat} (ha : a * 2 ^ n < 2 ^ 31) (hn : n < 32) :
    shiftLeft a n = (a * 2 ^ n : Nat) := by
  have hpow := Nat.two_pow_pos n
  have hle := Nat.le_mul_of_pos_right a hpow
  have hnat : (BitVec.ofInt 32 a <<< n).toNat = a * 2 ^ n := by
    rw [BitVec.toNat_shiftLeft, BitVec.ofInt_natCast, BitVec.toNat_ofNat,
      Nat.mod_eq_of_lt (show a < 2 ^ 32 by omega), Nat.shiftLeft_eq, Nat.mod_eq_of_lt (by omega)]
  have hcount : ((n : Int) % 32).toNat = n := by omega
  unfold shiftLeft
  rw [hcount, BitVec.toInt_eq_toNat_of_lt (by omega), hnat]

theorem bitOr_natCast {a b : Nat} (ha : a < 2 ^ 31) (hb : b < 2 ^ 31) :
    bitOr a b = (a ||| b : Nat) := by
  have hor := Nat.or_lt_two_pow ha hb
  have hnat : (BitVec.ofInt 32 a ||| BitVec.ofInt 32 b).toNat = a ||| b := by
    rw [BitVec.toNat_or, BitVec.ofInt_natCast, BitVec.ofInt_natCast, BitVec.toNat_ofNat,
      BitVec.toNat_ofNat, Nat.mod_eq_of_lt (by omega), Nat.mod_eq_of_lt (by omega)]
  unfold bitOr
  rw [BitVec.toInt_eq_toNat_of_lt (by omega), hnat]

theorem bitNot_eq {a : Int} (hlow : -2 ^ 31 ≤ a) (hhigh : a < 2 ^ 31) : bitNot a = -a - 1 := by
  unfold bitNot
  rw [BitVec.toInt_not, BitVec.toNat_ofInt]
  simp only [Int.bmod]
  omega

/-- A mask takes a field of bits. -/
theorem and_field (x k m : Nat) : x &&& (2 ^ m - 1) * 2 ^ k = x / 2 ^ k % 2 ^ m * 2 ^ k := by
  apply Nat.eq_of_testBit_eq
  intro i
  rw [← Nat.shiftLeft_eq, ← Nat.shiftLeft_eq, ← Nat.shiftRight_eq_div_pow]
  simp only [Nat.testBit_and, Nat.testBit_shiftLeft, Nat.testBit_two_pow_sub_one,
    Nat.testBit_mod_two_pow, Nat.testBit_shiftRight]
  by_cases hi : k ≤ i
  · rw [Nat.add_sub_cancel' hi, Bool.and_comm (Nat.testBit x i)]
    simp [hi]
  · simp [hi]

theorem bitAnd_field (a mask : Int) {k m : Nat} (h : k + m ≤ 31)
    (hmask : ((2 ^ m - 1) * 2 ^ k : Nat) = mask) :
    bitAnd a mask = ((a % 2 ^ 32).toNat / 2 ^ k % 2 ^ m * 2 ^ k : Nat) := by
  have hpow : 2 ^ m * 2 ^ k ≤ 2 ^ 31 := by
    rw [← Nat.pow_add, Nat.add_comm]
    exact Nat.pow_le_pow_right (by decide) h
  have hfield : (a % 2 ^ 32).toNat / 2 ^ k % 2 ^ m * 2 ^ k < 2 ^ m * 2 ^ k :=
    Nat.mul_lt_mul_of_pos_right (Nat.mod_lt _ (Nat.two_pow_pos m)) (Nat.two_pow_pos k)
  have hones : (2 ^ m - 1) * 2 ^ k < 2 ^ m * 2 ^ k :=
    Nat.mul_lt_mul_of_pos_right (Nat.sub_lt (Nat.two_pow_pos m) (by decide)) (Nat.two_pow_pos k)
  have hnat : (BitVec.ofInt 32 a &&& BitVec.ofInt 32 ((2 ^ m - 1) * 2 ^ k : Nat)).toNat =
      (a % 2 ^ 32).toNat / 2 ^ k % 2 ^ m * 2 ^ k := by
    rw [BitVec.toNat_and, BitVec.ofInt_natCast, BitVec.toNat_ofNat, BitVec.toNat_ofInt,
      Nat.mod_eq_of_lt (by omega), and_field]
    norm_cast
  unfold bitAnd
  rw [← hmask, BitVec.toInt_eq_toNat_of_lt (by omega), hnat]

/-! ## Bytes -/

/-- The middle of the step of a code, without the bias. -/
def magnitude (c : Nat) : Int := 8 * lower 4 c + 4 * step 4 c - 132

/-- The sign bit of a sample. -/
def signBit (v : Int) : Int := if v < 0 then 0x80 else 0

theorem bitAnd_sign {v : Int} (h : IsInt16 v) : bitAnd (shiftRight v 8) 0x80 = signBit v := by
  obtain ⟨hlow, hhigh⟩ := h
  have hshift : shiftRight v 8 = v / 256 :=
    shiftRight_eq (by omega) (by omega) (show 8 < 32 by decide)
  rw [hshift, bitAnd_field (v / 256) 0x80 (show 7 + 1 ≤ 31 by decide) rfl]
  unfold signBit
  split <;> omega

theorem bitAnd_byte (a : Int) : bitAnd a 0xff = a % 256 := by
  rw [bitAnd_field a 0xff (show 0 + 8 ≤ 31 by decide) rfl]
  omega

theorem bitAnd_low (a : Int) : bitAnd a 0x0f = a % 16 := by
  rw [bitAnd_field a 0x0f (show 0 + 4 ≤ 31 by decide) rfl]
  omega

theorem expLut_eq : EXP_LUT = 0 :: (List.range 255).map fun i => ((i + 1).log2 : Int) := by
  decide +kernel

theorem expLut_getD {i : Nat} (hpos : 0 < i) (hlt : i < 256) : EXP_LUT.getD i 0 = i.log2 := by
  obtain ⟨j, rfl⟩ : ∃ j, i = j + 1 := ⟨i - 1, by omega⟩
  rw [expLut_eq, List.getD_cons_succ, List.getD_eq_getElem?_getD, List.getElem?_map,
    List.getElem?_range (by omega)]
  rfl

/-- A byte is put together of the sign bit, the segment and the lowest bits. -/
theorem byte_fields {c : Nat} (hc : c < 128) {sign : Nat} (hsign : sign = 0x80 ∨ sign = 0) :
    bitAnd (bitNot (bitOr (bitOr sign (shiftLeft (c / 16 : Nat) 4)) (c % 16 : Nat))) 0xff =
      255 - sign - c := by
  have hshift := shiftLeft_natCast (a := c / 16) (n := 4) (by omega) (by decide)
  -- the three fields have no bit in common, so that they are added up
  have hlow : (sign + c / 16 * 2 ^ 4) ||| c % 16 = sign + c := by
    have hor := Nat.two_pow_add_eq_or_of_lt (i := 4) (b := c % 16) (by omega) (sign / 16 + c / 16)
    have hmul : 2 ^ 4 * (sign / 16 + c / 16) = sign + c / 16 * 2 ^ 4 := by omega
    rw [hmul] at hor
    omega
  have hhigh : sign ||| c / 16 * 2 ^ 4 = sign + c / 16 * 2 ^ 4 := by
    have hor := Nat.two_pow_add_eq_or_of_lt (i := 7) (b := c / 16 * 2 ^ 4) (by omega) (sign / 128)
    have hmul : 2 ^ 7 * (sign / 128) = sign := by omega
    rw [hmul] at hor
    exact hor.symm
  rw [Nat.cast_ofNat] at hshift
  rw [hshift, bitOr_natCast (by omega) (by omega), hhigh, bitOr_natCast (by omega) (by omega),
    hlow, bitNot_eq (by omega) (by omega), bitAnd_byte]
  omega

/-- A byte is decoded to the middle of its step. -/
theorem decodeSample_eq {u : Nat} (hu : u < 256) :
    decodeSample u = if u < 128 then -magnitude (127 - u) else magnitude (255 - u) := by
  have hbyte : bitAnd (bitNot u) 0xff = (255 - u : Nat) := by
    rw [bitNot_eq (by omega) (by omega), bitAnd_byte]
    omega
  generalize hx : 255 - u = x at hbyte
  have hlow : bitAnd x 0x0f = (x % 16 : Nat) := by
    rw [bitAnd_low]
    omega
  have hmantissa := shiftLeft_natCast (a := x % 16) (n := 3) (by omega) (by decide)
  have hsegment : shiftRight (bitAnd x 0x70) 4 = (x / 16 % 8 : Nat) := by
    rw [bitAnd_field x 0x70 (show 4 + 3 ≤ 31 by decide) rfl]
    refine (shiftRight_natCast (n := 4) (by omega) (by decide)).trans ?_
    omega
  have hsign : bitAnd x 0x80 ≠ 0 ↔ u < 128 := by
    rw [bitAnd_field x 0x80 (show 7 + 1 ≤ 31 by decide) rfl]
    omega
  -- no bit is shifted out of the 32
  have hpow : 2 ^ (x / 16 % 8) ≤ 2 ^ 7 := Nat.pow_le_pow_right (by decide) (by omega)
  have hbound : (x % 16 * 2 ^ 3 + 132) * 2 ^ (x / 16 % 8) ≤ 252 * 2 ^ 7 :=
    Nat.mul_le_mul (by omega) hpow
  have hlevel := shiftLeft_natCast (a := x % 16 * 2 ^ 3 + 132) (n := x / 16 % 8) (by omega)
    (by omega)
  -- the sign bit is above the code
  have hmagnitude : ∀ c, c % 128 = x % 128 → c < 128 →
      (((x % 16 * 2 ^ 3 + 132) * 2 ^ (x / 16 % 8) : Nat) : Int) - 132 = magnitude c := by
    intro c hc hlt
    have hm : x % 16 = c % 2 ^ 4 := by omega
    have he : x / 16 % 8 = c / 2 ^ 4 := by omega
    unfold magnitude lower step
    rw [hm, he]
    push_cast
    ring
  unfold decodeSample BIAS
  rw [Nat.cast_add, Nat.cast_ofNat] at hlevel
  rw [Nat.cast_ofNat] at hmantissa
  simp only [hbyte, hlow, hmantissa, hsegment, hlevel, hsign]
  split
  · rw [← hmagnitude (127 - u) (by omega) (by omega)]
    ring
  · exact hmagnitude x rfl (by omega)

/-! ## One sample -/

/-- The magnitude of a sample as it is coded. -/
def biased (v : Int) : Nat := min v.natAbs 32635 + 132

/-- The code of a sample, without the sign. -/
def sampleCode (v : Int) : Nat := code 4 (biased v / 8)

theorem biased_bounds (v : Int) : 132 ≤ biased v ∧ biased v ≤ 32767 := by
  unfold biased
  omega

theorem sixteen_le (v : Int) : 2 ^ 4 ≤ biased v / 8 := by
  have := (biased_bounds v).1
  omega

theorem sampleCode_lt (v : Int) : sampleCode v < 128 := by
  by_contra hge
  have htop : lower 4 128 ≤ biased v / 8 := (lower_le_iff (sixteen_le v)).mpr (by
    unfold sampleCode at hge
    omega)
  have hlower : lower 4 128 = 4096 := by decide
  have := (biased_bounds v).2
  omega

/-- The segment and the bits behind the leading one are the code. -/
theorem encodeSample_eq {v : Int} (h : IsInt16 v) :
    encodeSample v = 255 - signBit v - sampleCode v := by
  have habs : (if (if signBit v ≠ 0 then -v else v) > CLIP then CLIP
      else (if signBit v ≠ 0 then -v else v)) + BIAS = biased v := by
    obtain ⟨hlow, hhigh⟩ := h
    unfold signBit CLIP BIAS biased
    omega
  obtain ⟨hlow, hhigh⟩ := biased_bounds v
  have hlead : biased v / 2 ^ 7 = biased v / 8 / 2 ^ 4 := by omega
  have hdiv : sampleCode v / 16 = (biased v / 8).log2 - 4 := code_div (sixteen_le v)
  -- the table has the place of the leading bit, which is the segment of the code
  have hlog : (biased v / 2 ^ 7).log2 = sampleCode v / 16 := by
    rw [hdiv, hlead, Nat.log2_eq_log_two, Nat.log2_eq_log_two, Nat.log_div_base_pow]
  have hexponent : EXP_LUT.getD (bitAnd (shiftRight (biased v) 7) 0xff).toNat 0 =
      (sampleCode v / 16 : Nat) := by
    have hshift := shiftRight_natCast (a := biased v) (n := 7) (by omega) (by decide)
    have hbyte : ((biased v / 2 ^ 7 : Nat) % 256 : Int) = (biased v / 2 ^ 7 : Nat) := by omega
    rw [Nat.cast_ofNat] at hshift
    rw [hshift, bitAnd_byte, hbyte, Int.toNat_natCast, expLut_getD (by omega) (by omega), hlog]
  -- the shift puts the leading bit just above the mask
  have hmantissa : bitAnd (shiftRight (biased v) ((sampleCode v / 16 : Nat) + 3)) 0x0f =
      (sampleCode v % 16 : Nat) := by
    have hlt := sampleCode_lt v
    have hshift := shiftRight_natCast (a := biased v) (n := sampleCode v / 16 + 3) (by omega)
      (by omega)
    have hsmall := Nat.div_le_self (biased v) (2 ^ (sampleCode v / 16 + 3))
    have hmod : sampleCode v % 2 ^ 4 = biased v / 8 / 2 ^ (sampleCode v / 16) - 2 ^ 4 := by
      rw [hdiv]
      exact code_mod (sixteen_le v)
    have hlead := leading_bounds (sixteen_le v)
    rw [← hdiv] at hlead
    have hparts : biased v / 2 ^ (sampleCode v / 16 + 3) =
        biased v / 8 / 2 ^ (sampleCode v / 16) := by
      rw [Nat.pow_add, Nat.mul_comm, Nat.div_div_eq_div_mul]
    rw [Nat.cast_add, Nat.cast_ofNat] at hshift
    rw [hshift, hparts, bitAnd_low]
    omega
  have hsign : (signBit v).toNat = 0x80 ∨ (signBit v).toNat = 0 := by
    unfold signBit
    split <;> simp
  have hcast : ((signBit v).toNat : Int) = signBit v := by
    unfold signBit
    split <;> rfl
  have hcode := byte_fields (sampleCode_lt v) hsign
  rw [hcast] at hcode
  unfold encodeSample
  simp only [bitAnd_sign h, habs, hexponent, hmantissa]
  exact hcode

theorem magnitude_mono {c d : Nat} (h : c ≤ d) : magnitude c ≤ magnitude d := by
  have hlower := (lower_strictMono 4).monotone h
  have hstep : step 4 c ≤ step 4 d := Nat.pow_le_pow_right (by decide) (Nat.div_le_div_right h)
  unfold magnitude
  omega

theorem magnitude_zero : magnitude 0 = 0 := rfl

theorem magnitude_bounds {c : Nat} (hc : c < 128) : 0 ≤ magnitude c ∧ magnitude c ≤ 32632 := by
  constructor
  · exact magnitude_zero ▸ magnitude_mono (Nat.zero_le c)
  · have hlast : lower 4 c + step 4 c ≤ 4096 := by
      rw [← lower_succ]
      exact (lower_strictMono 4).monotone (show c + 1 ≤ 128 from hc)
    have := step_pos 4 c
    unfold magnitude
    omega

/-- The middle of a step is in the step. -/
theorem sampleCode_magnitude {c : Nat} (hc : c < 128) {v : Int} (hv : v.natAbs = magnitude c) :
    sampleCode v = c := by
  have hbounds := magnitude_bounds hc
  have hpos := step_pos 4 c
  have hbiased : biased v = 8 * lower 4 c + 4 * step 4 c := by
    unfold biased
    unfold magnitude at hv hbounds
    omega
  apply code_eq <;> omega

theorem decodeSample_encodeSample {v : Int} (h : IsInt16 v) :
    decodeSample (encodeSample v) =
      if v < 0 then -magnitude (sampleCode v) else magnitude (sampleCode v) := by
  have hlt := sampleCode_lt v
  rw [encodeSample_eq h]
  unfold signBit
  split
  · have hbyte : (255 - 0x80 - sampleCode v : Int) = (127 - sampleCode v : Nat) := by omega
    rw [hbyte, decodeSample_eq (by omega), if_pos (by omega), Nat.sub_sub_self (by omega)]
  · have hbyte : (255 - 0 - sampleCode v : Int) = (255 - sampleCode v : Nat) := by omega
    rw [hbyte, decodeSample_eq (by omega), if_neg (by omega), Nat.sub_sub_self (by omega)]

theorem isInt16_decodeSample {u : Nat} (hu : u < 256) : IsInt16 (decodeSample u) := by
  rw [decodeSample_eq hu]
  split
  · have := magnitude_bounds (show 127 - u < 128 by omega)
    exact ⟨by omega, by omega⟩
  · have := magnitude_bounds (show 255 - u < 128 by omega)
    exact ⟨by omega, by omega⟩

/-- Every byte is the code of its sample, but for the second zero. -/
theorem encodeSample_decodeSample {u : Nat} (hu : u < 256) :
    encodeSample (decodeSample u) = if u = 0x7F then 0xFF else u := by
  rw [encodeSample_eq (isInt16_decodeSample hu)]
  have hdecoded := decodeSample_eq hu
  by_cases hsign : u < 128
  · have hc : 127 - u < 128 := by omega
    have hbounds := magnitude_bounds hc
    rw [if_pos hsign] at hdecoded
    rw [sampleCode_magnitude hc (by omega), signBit, hdecoded]
    -- the second zero is decoded to zero, which has no sign
    by_cases hzero : u = 0x7F
    · subst hzero
      rfl
    · have hpos : magnitude 1 ≤ magnitude (127 - u) := magnitude_mono (by omega)
      have hone : magnitude 1 = 8 := rfl
      rw [if_pos (by omega), if_neg hzero]
      omega
  · have hc : 255 - u < 128 := by omega
    have hbounds := magnitude_bounds hc
    rw [if_neg hsign] at hdecoded
    rw [sampleCode_magnitude hc (by omega), signBit, hdecoded, if_neg (by omega),
      if_neg (by omega)]
    omega

/-! ## The error -/

/-- A sample in the range that the code has. -/
def clip (v : Int) : Int := max (-CLIP) (min CLIP v)

/-- The error is at most a part in 32 of the biased magnitude. -/
theorem companding_error {v : Int} (h : IsInt16 v) :
    32 * (decodeSample (encodeSample v) - clip v).natAbs ≤ (clip v).natAbs + 132 := by
  have hx := sixteen_le v
  have hlow := lower_code_le hx
  have hhigh := lt_lower_code_add hx
  have hpart := two_pow_mul_step_le 4 (code 4 (biased v / 8))
  have hmagnitude : magnitude (sampleCode v) =
      8 * lower 4 (code 4 (biased v / 8)) + 4 * step 4 (code 4 (biased v / 8)) - 132 := rfl
  have hclip : clip v = if v < 0 then 132 - (biased v : Int) else biased v - 132 := by
    unfold clip CLIP biased
    split <;> omega
  rw [decodeSample_encodeSample h, hclip, hmagnitude]
  split <;> omega

theorem magnitude_sampleCode_mono {v w : Int} (h : v.natAbs ≤ w.natAbs) :
    magnitude (sampleCode v) ≤ magnitude (sampleCode w) := by
  apply magnitude_mono
  apply code_mono (sixteen_le v)
  unfold biased
  omega

theorem natAbs_companded {v : Int} (h : IsInt16 v) :
    ((decodeSample (encodeSample v)).natAbs : Int) = magnitude (sampleCode v) := by
  have hpos := (magnitude_bounds (sampleCode_lt v)).1
  rw [decodeSample_encodeSample h]
  split <;> omega

/-- A louder sample is never the quieter one. -/
theorem companding_loudness {v w : Int} (hv : IsInt16 v) (hw : IsInt16 w)
    (h : v.natAbs ≤ w.natAbs) :
    (decodeSample (encodeSample v)).natAbs ≤ (decodeSample (encodeSample w)).natAbs := by
  have hmono := magnitude_sampleCode_mono h
  rw [← natAbs_companded hv, ← natAbs_companded hw] at hmono
  exact Int.ofNat_le.mp hmono

theorem companding_mono {v w : Int} (hv : IsInt16 v) (hw : IsInt16 w) (h : v ≤ w) :
    decodeSample (encodeSample v) ≤ decodeSample (encodeSample w) := by
  have hpos := (magnitude_bounds (sampleCode_lt v)).1
  have hpos' := (magnitude_bounds (sampleCode_lt w)).1
  rw [decodeSample_encodeSample hv, decodeSample_encodeSample hw]
  -- below zero the larger magnitude is the smaller sample
  by_cases hneg : w < 0
  · have hmono : magnitude (sampleCode w) ≤ magnitude (sampleCode v) :=
      magnitude_sampleCode_mono (by omega)
    rw [if_pos (by omega), if_pos hneg]
    omega
  · rw [if_neg hneg]
    split
    · omega
    · exact magnitude_sampleCode_mono (by omega)

/-! ## Buffers -/

def encodeByte (v : Int) : UInt8 := UInt8.ofNat (encodeSample v).toNat

def decodeByte (b : UInt8) : Int := decodeSample b.toNat

theorem toNat_encodeByte {v : Int} (h : IsInt16 v) :
    ((encodeByte v).toNat : Int) = encodeSample v := by
  have hlt := sampleCode_lt v
  have hbyte : (encodeByte v).toNat = (encodeSample v).toNat % 256 := UInt8.toNat_ofNat
  rw [hbyte, encodeSample_eq h]
  unfold signBit
  split <;> omega

theorem decodeByte_encodeByte {v : Int} (h : IsInt16 v) :
    decodeByte (encodeByte v) = decodeSample (encodeSample v) := by
  rw [decodeByte, toNat_encodeByte h]

theorem isInt16_decodeByte (b : UInt8) : IsInt16 (decodeByte b) :=
  isInt16_decodeSample b.toNat_lt

theorem encodeByte_decodeByte (b : UInt8) :
    encodeByte (decodeByte b) = if b = 0x7F then 0xFF else b := by
  apply UInt8.toNat_inj.mp
  have hcode := (toNat_encodeByte (isInt16_decodeByte b)).trans
    (encodeSample_decodeSample b.toNat_lt)
  have hseven : b = 0x7F ↔ b.toNat = 0x7F := UInt8.toNat_inj.symm
  by_cases h : b = 0x7F
  · rw [if_pos h]
    rw [if_pos (hseven.mp h)] at hcode
    exact Int.ofNat_inj.mp hcode
  · rw [if_neg h]
    rw [if_neg (fun hb => h (hseven.mpr hb))] at hcode
    exact Int.ofNat_inj.mp hcode

theorem decodeByte_zeros : decodeByte 0x7F = decodeByte 0xFF := by decide

/-- Only the samples just below zero have the second zero for their code. -/
theorem encodeByte_eq_negativeZero {v : Int} (h : IsInt16 v) :
    encodeByte v = 0x7F ↔ -3 ≤ v ∧ v < 0 := by
  have hcode : sampleCode v = 0 ↔ biased v < 136 := by
    have hnext := lower_le_iff (c := 1) (sixteen_le v)
    have hlower : lower 4 1 = 17 := rfl
    have hlow := (biased_bounds v).1
    unfold sampleCode
    omega
  have hlt := sampleCode_lt v
  have hbyte := toNat_encodeByte h
  rw [encodeSample_eq h] at hbyte
  have hseven : encodeByte v = 0x7F ↔ (encodeByte v).toNat = 0x7F := UInt8.toNat_inj.symm
  rw [hseven]
  unfold biased at hcode
  unfold signBit at hbyte
  split at hbyte <;> omega

theorem muLawToPcm16_eq (memory : Memory) (mulaw : Buffer) :
    muLawToPcm16 memory mulaw = some (samples (mulaw.map decodeByte)) := by
  have hvalue : ∀ i < mulaw.length, (mulaw[i]?.bind fun b => DECODE_TABLE[b.toNat]?) =
      some (decodeByte (mulaw.getD i 0)) := by
    intro i hi
    have hb := mulaw[i].toNat_lt
    have hint := isInt16_decodeByte mulaw[i]
    -- an entry of the table is a decoded sample as 16 bits hold it
    have hsigned : signed (decodeSample mulaw[i].toNat % 65536).toNat = decodeByte mulaw[i] := by
      unfold decodeByte at hint ⊢
      obtain ⟨hlow, hhigh⟩ := hint
      unfold signed
      split <;> omega
    rw [List.getElem?_eq_getElem hi, List.getD_eq_getElem _ _ hi]
    show DECODE_TABLE[mulaw[i].toNat]? = _
    unfold DECODE_TABLE
    rw [List.getElem?_map, List.getElem?_range (show mulaw[i].toNat < 256 from hb)]
    exact congrArg some hsigned
  have hlist : (List.range mulaw.length).map (fun i => decodeByte (mulaw.getD i 0)) =
      mulaw.map decodeByte := by
    apply List.ext_getElem
    · simp
    · intro i _ hi
      simp [List.getElem?_eq_getElem (show i < mulaw.length by simpa using hi)]
  unfold muLawToPcm16
  rw [foldlM_write hvalue (fun _ _ => isInt16_decodeByte _) (memory.length_allocUnsafe _), hlist]

theorem pcm16ToMuLaw_eq (memory : Memory) (pcm : Buffer) :
    pcm16ToMuLaw memory pcm = some ((samplesOf pcm).map encodeByte) := by
  have hvalue : ∀ i < pcm.length / 2, readInt16LE pcm (2 * i : Nat) =
      some ((readInt16 pcm (2 * i)).getD 0) := by
    intro i hi
    rw [readInt16LE, if_neg (by omega), Int.toNat_natCast]
    exact readInt16_samplesOf pcm hi
  unfold pcm16ToMuLaw samplesOf
  rw [List.map_map]
  exact foldlM_set hvalue (memory.length_allocUnsafe _)

theorem isInt16_of_mem_decoded {mulaw : Buffer} {v : Int} (h : v ∈ mulaw.map decodeByte) :
    IsInt16 v := by
  obtain ⟨b, _, rfl⟩ := List.mem_map.mp h
  exact isInt16_decodeByte b

/-- Bytes that are decoded and encoded again are the same, but for the second zero. -/
theorem encoded_decoded (mulaw : Buffer) :
    (samplesOf (samples (mulaw.map decodeByte))).map encodeByte = mulaw ↔ 0x7F ∉ mulaw := by
  rw [samplesOf_samples fun _ => isInt16_of_mem_decoded, List.map_map]
  constructor
  · intro h hmem
    rw [← h] at hmem
    obtain ⟨b, _, hb⟩ := List.mem_map.mp hmem
    rw [Function.comp_apply, encodeByte_decodeByte] at hb
    split at hb
    · exact absurd hb (by decide)
    · contradiction
  · intro h
    refine (List.map_congr_left fun b hb => ?_).trans (List.map_id mulaw)
    show encodeByte (decodeByte b) = b
    rw [encodeByte_decodeByte, if_neg (fun heq : b = 0x7F => h (heq ▸ hb))]

/-- Decoded and encoded again, audio of the carrier is the same, but for the second zero; and the
    samples do not change any more. -/
theorem mulaw_tandem (memory₁ memory₂ memory₃ : Memory) (mulaw : Buffer) :
    ∃ pcm again, muLawToPcm16 memory₁ mulaw = some pcm ∧
      pcm16ToMuLaw memory₂ pcm = some again ∧
      (again = mulaw ↔ 0x7F ∉ mulaw) ∧ muLawToPcm16 memory₃ again = some pcm := by
  refine ⟨_, _, muLawToPcm16_eq memory₁ mulaw, pcm16ToMuLaw_eq memory₂ _, encoded_decoded mulaw, ?_⟩
  rw [muLawToPcm16_eq, samplesOf_samples fun _ => isInt16_of_mem_decoded, List.map_map,
    List.map_map]
  congr 2
  apply List.map_congr_left
  intro b _
  show decodeByte (encodeByte (decodeByte b)) = decodeByte b
  rw [encodeByte_decodeByte]
  split
  · rename_i h
    rw [h, decodeByte_zeros]
  · rfl

theorem readInt16_decoded {pcm : Buffer} {i : Nat} {v : Int} (h : readInt16 pcm (2 * i) = some v) :
    readInt16 (samples ((samplesOf pcm).map fun v => decodeSample (encodeSample v))) (2 * i) =
      some (decodeSample (encodeSample v)) := by
  have hints : ∀ d ∈ (samplesOf pcm).map fun v => decodeSample (encodeSample v), IsInt16 d := by
    intro d hd
    obtain ⟨w, hw, rfl⟩ := List.mem_map.mp hd
    rw [← decodeByte_encodeByte (isInt16_of_mem_samplesOf hw)]
    exact isInt16_decodeByte _
  rw [readInt16_samples hints, List.getElem?_map, getElem?_samplesOf h]
  rfl

/-- What becomes of audio on the way to the carrier and back: there are as many samples, each with
    its sign and near its value, in the same order, and the louder of two is never quieter; on a
    second way the bytes are the same unless a sample was just below zero. -/
theorem companding (memory₁ memory₂ memory₃ : Memory) (pcm : Buffer) :
    ∃ mulaw out, pcm16ToMuLaw memory₁ pcm = some mulaw ∧ muLawToPcm16 memory₂ mulaw = some out ∧
      out.length = 2 * (pcm.length / 2) ∧
      (∀ i v, readInt16 pcm (2 * i) = some v → ∃ d, readInt16 out (2 * i) = some d ∧
        32 * (d - clip v).natAbs ≤ (clip v).natAbs + 132 ∧ (v < 0 → d ≤ 0) ∧ (0 ≤ v → 0 ≤ d) ∧
        ∀ j w, readInt16 pcm (2 * j) = some w → ∃ e, readInt16 out (2 * j) = some e ∧
          (v ≤ w → d ≤ e) ∧ (v.natAbs ≤ w.natAbs → d.natAbs ≤ e.natAbs)) ∧
      (pcm16ToMuLaw memory₃ out = some mulaw ↔
        ∀ i v, readInt16 pcm (2 * i) = some v → v < -3 ∨ 0 ≤ v) := by
  have hints := fun v (hv : v ∈ samplesOf pcm) => isInt16_of_mem_samplesOf hv
  have hbytes : ((samplesOf pcm).map encodeByte).map decodeByte =
      (samplesOf pcm).map fun v => decodeSample (encodeSample v) := by
    rw [List.map_map]
    exact List.map_congr_left fun v hv => decodeByte_encodeByte (hints v hv)
  refine ⟨_, _, pcm16ToMuLaw_eq memory₁ pcm, muLawToPcm16_eq memory₂ _, ?_, ?_, ?_⟩
  · simp [samplesOf]
  · rw [hbytes]
    intro i v hv
    have hint := isInt16_of_readInt16 hv
    have hpos := (magnitude_bounds (sampleCode_lt v)).1
    refine ⟨_, readInt16_decoded hv, companding_error hint, ?_, ?_, ?_⟩
    · intro hneg
      rw [decodeSample_encodeSample hint, if_pos hneg]
      omega
    · intro hnonneg
      rw [decodeSample_encodeSample hint, if_neg (by omega)]
      exact hpos
    · intro j w hw
      have hint' := isInt16_of_readInt16 hw
      exact ⟨_, readInt16_decoded hw, companding_mono hint hint', companding_loudness hint hint'⟩
  · rw [pcm16ToMuLaw_eq, Option.some_inj, encoded_decoded, List.mem_map, not_exists]
    constructor
    · intro h i v hv
      have hcode := encodeByte_eq_negativeZero (isInt16_of_readInt16 hv)
      have hne : ¬encodeByte v = 0x7F := fun heq => h v ⟨mem_samplesOf.mpr ⟨i, hv⟩, heq⟩
      rw [hcode] at hne
      omega
    · rintro h v ⟨hv, heq⟩
      obtain ⟨i, hi⟩ := mem_samplesOf.mp hv
      have hcode := (encodeByte_eq_negativeZero (hints v hv)).mp heq
      have := h i v hi
      omega

/-! ## Telephone audio -/

/-- There are no samples of a buffer without one. -/
theorem resamplePcm16_nil {memory : Memory} {pcm out : Buffer} {inRate outRate : Rat}
    (h : resamplePcm16 memory pcm inRate outRate = some out) (hpcm : pcm.length / 2 = 0) :
    out.length / 2 = 0 := by
  unfold resamplePcm16 at h
  split at h
  · rw [← Option.some.inj h, hpcm]
  · rw [if_pos hpcm] at h
    rw [← Option.some.inj h]
    rfl

/-- The number of moments of a file at which there is a sample for every channel. -/
def WavFile.frames (file : WavFile) : Nat := file.data.length / (2 * file.format.channels)

/-- Every well-formed file becomes audio of the carrier: there is no error, there is a byte for
    each sample at 8 kHz, and what is at 8 kHz already is coded sample by sample. -/
theorem telephone_audio (memory : Memory) (file : WavFile) {turns : Nat}
    (hturns : file.chunks.length ≤ turns) :
    ∃ mulaw, wavToMulaw8k memory turns file.bytes = some (.ok mulaw) ∧
      (mulaw.length : Int) = (if file.frames = 0 then 0
        else max 1 (mathRound (file.frames * 8000 / file.format.sampleRate))) ∧
      (file.format.channels = 1 → file.format.sampleRate = 8000 →
        mulaw = (samplesOf file.data).map encodeByte) := by
  obtain ⟨mono, hmono, hframes⟩ := toMono_ok memory file.data file.format.channels
  have hrate : (0 : Rat) < file.format.sampleRate := Nat.cast_pos.mpr file.format.sampleRate_pos
  obtain ⟨out, hout, hresampled⟩ : ∃ out,
      resamplePcm16 memory mono file.format.sampleRate 8000 = some out ∧
        Resampled mono file.format.sampleRate 8000 out := resamplePcm16_ok memory mono hrate
  have hpcm : pcm16ToMulaw8k memory ⟨file.data, file.format.sampleRate, file.format.channels⟩ =
      some ((samplesOf out).map encodeByte) := by
    unfold pcm16ToMulaw8k
    simp only [hmono, hout, pcm16ToMuLaw_eq, bind, Option.bind]
  have hone : file.format.channels ≤ 1 → mono = file.data := by
    intro hle
    rw [toMono, if_pos hle] at hmono
    exact (Option.some.inj hmono).symm
  have hcount : mono.length / 2 = file.frames := by
    by_cases hle : file.format.channels ≤ 1
    · have hchannels := file.format.channels_pos
      rw [hone hle, WavFile.frames, show file.format.channels = 1 by omega]
    · rw [hframes (by omega)]
      exact Nat.mul_div_cancel_left _ (by decide)
  refine ⟨(samplesOf out).map encodeByte, ?_, ?_, ?_⟩
  · unfold wavToMulaw8k
    rw [file.parseWav_bytes hturns]
    simp only [Option.map_some, Except.bind, hpcm]
  · have hlength : ((samplesOf out).map encodeByte).length = out.length / 2 := by
      simp [samplesOf]
    rw [hlength, ← hcount]
    by_cases hzero : mono.length / 2 = 0
    · rw [if_pos hzero, resamplePcm16_nil hout hzero]
      rfl
    · rw [if_neg hzero]
      exact hresampled.count (by omega)
  · intro hchannels height
    have hsame : resamplePcm16 memory mono file.format.sampleRate 8000 = some mono := by
      rw [resamplePcm16, if_pos (by rw [height]; rfl)]
    rw [← hone (by omega), ← Option.some.inj (hsame.symm.trans hout)]

theorem telephone_audio_announcement :
    ∃ mulaw, wavToMulaw8k ⟨fun n => List.replicate n 0, fun _ => List.length_replicate⟩ 3
        announcement.bytes = some (.ok mulaw) ∧
      (mulaw.length : Int) = max 1 (mathRound ((2 : Nat) * 8000 / (24000 : Nat))) := by
  obtain ⟨mulaw, hmulaw, hlength, -⟩ :=
    telephone_audio ⟨fun n => List.replicate n 0, fun _ => List.length_replicate⟩ announcement
      (show announcement.chunks.length ≤ 3 by decide)
  exact ⟨mulaw, hmulaw, hlength⟩

end CallNet.Streaming
