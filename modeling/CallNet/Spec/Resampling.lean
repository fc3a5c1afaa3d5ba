import CallNet.Spec.RateEstimate
import CallNet.Spec.WavDecoding
import Mathlib.Tactic.Ring

/-!
# Mixing and resampling

The loops of `toMono` and `resamplePcm16` read samples that are there and write samples that fit
into 16 bits, at both ends and for every length and every ratio of rates: no access raises an
error.
-/

namespace CallNet.Streaming

open LittleEndian

/-! ## Rounding -/

theorem mathRound_intCast (n : Int) : mathRound n = n := by
  unfold mathRound
  apply Int.le_antisymm
  · apply Int.lt_add_one_iff.mp
    rw [Rat.floor_lt_iff]
    push_cast
    linarith
  · rw [Rat.le_floor_iff]
    linarith

/-- What lies between two whole numbers is rounded to a number between them. -/
theorem mathRound_mem {low high : Int} {x : Rat} (hlow : low ≤ x) (hhigh : x ≤ high) :
    low ≤ mathRound x ∧ mathRound x ≤ high := by
  constructor
  · rw [← mathRound_intCast low]
    exact mathRound_mono hlow
  · rw [← mathRound_intCast high]
    exact mathRound_mono hhigh

theorem isInt16_mathRound {x : Rat} (hlow : -32768 ≤ x) (hhigh : x ≤ 32767) :
    IsInt16 (mathRound x) :=
  mathRound_mem (by exact_mod_cast hlow) (by exact_mod_cast hhigh)

theorem cast_isInt16 {v : Int} (h : IsInt16 v) : (-32768 : Rat) ≤ v ∧ (v : Rat) ≤ 32767 := by
  constructor
  · exact_mod_cast h.1
  · exact_mod_cast h.2

/-! ## Mixing -/

/-- The sample of a place that is there. -/
theorem exists_readInt16LE {pcm : Buffer} {k : Nat} (h : 2 * k + 2 ≤ pcm.length) :
    ∃ v, readInt16LE pcm (k * 2 : Nat) = some v ∧ IsInt16 v := by
  obtain ⟨v, hv⟩ := exists_readInt16 pcm (show k * 2 + 2 ≤ pcm.length by omega)
  refine ⟨v, ?_, isInt16_of_readInt16 hv⟩
  unfold readInt16LE
  rw [if_neg (by omega)]
  exact hv

/-- The sum of the first samples of a frame, and its bounds. -/
theorem exists_frameSum {pcm : Buffer} {channels i : Nat}
    (hframe : 2 * ((i + 1) * channels) ≤ pcm.length) :
    ∀ m ≤ channels, ∃ sum : Int, (List.range m).foldlM
      (fun sum c => do
        let v ← readInt16LE pcm ((i * channels + c) * 2 : Nat)
        pure (sum + v)) (0 : Int) = some sum ∧ -32768 * m ≤ sum ∧ sum ≤ 32767 * m := by
  intro m hm
  induction m with
  | zero => exact ⟨0, rfl, by omega, by omega⟩
  | succ m ih =>
    obtain ⟨sum, hsum, hlow, hhigh⟩ := ih (by omega)
    have hplace : 2 * (i * channels + m) + 2 ≤ pcm.length := by
      have hnext : (i + 1) * channels = i * channels + channels := Nat.succ_mul i channels
      omega
    obtain ⟨v, hv, hrange⟩ := exists_readInt16LE hplace
    refine ⟨sum + v, ?_, ?_, ?_⟩
    · rw [List.range_succ, List.foldlM_append, hsum]
      show ((readInt16LE pcm ((i * channels + m) * 2 : Nat)).bind fun v => some (sum + v)).bind
        some = _
      rw [hv]
      rfl
    · have := hrange.1
      push_cast
      omega
    · have := hrange.2
      push_cast
      omega

/-- The average of a frame that is there is a sample. -/
theorem exists_mixFrame {pcm : Buffer} {channels i : Nat} (hchannels : 0 < channels)
    (hi : i < pcm.length / (2 * channels)) :
    ∃ v, mixFrame pcm channels i = some v ∧ IsInt16 v := by
  have hframe : 2 * ((i + 1) * channels) ≤ pcm.length := by
    have hmul : (i + 1) * (2 * channels) ≤ pcm.length :=
      (Nat.le_div_iff_mul_le (by omega)).mp hi
    calc 2 * ((i + 1) * channels) = (i + 1) * (2 * channels) := by ring
      _ ≤ pcm.length := hmul
  obtain ⟨sum, hsum, hlow, hhigh⟩ := exists_frameSum hframe channels (Nat.le_refl _)
  have hpos : (0 : Rat) < channels := by exact_mod_cast hchannels
  refine ⟨mathRound (sum / channels), ?_, isInt16_mathRound ?_ ?_⟩
  · unfold mixFrame
    rw [hsum]
    rfl
  · rw [le_div_iff₀ hpos]
    exact_mod_cast hlow
  · rw [div_le_iff₀ hpos]
    exact_mod_cast hhigh

/-- Mixing raises no error, and makes one sample of each frame. -/
theorem toMono_ok (memory : Memory) (pcm : Buffer) (channels : Nat) :
    ∃ out, toMono memory pcm channels = some out ∧
      (1 < channels → out.length = 2 * (pcm.length / (2 * channels))) := by
  by_cases hone : channels ≤ 1
  · refine ⟨pcm, ?_, fun h => by omega⟩
    rw [toMono, if_pos hone]
  · have hframe : ∀ i < pcm.length / (2 * channels),
        mixFrame pcm channels i = some ((mixFrame pcm channels i).getD 0) ∧
          IsInt16 ((mixFrame pcm channels i).getD 0) := by
      intro i hi
      obtain ⟨v, hv, hrange⟩ := exists_mixFrame (by omega) hi
      rw [hv]
      exact ⟨rfl, hrange⟩
    refine ⟨samples ((List.range (pcm.length / (2 * channels))).map fun i =>
      (mixFrame pcm channels i).getD 0), ?_, ?_⟩
    · rw [toMono, if_neg hone]
      exact foldlM_write (fun i hi => (hframe i hi).1) (fun i hi => (hframe i hi).2)
        (memory.length_allocUnsafe _)
    · intro _
      simp

/-! ## Resampling -/

/-- The sample between two others is a sample. -/
theorem isInt16_between {a b : Int} {frac : Rat} (ha : IsInt16 a) (hb : IsInt16 b)
    (hlow : 0 ≤ frac) (hhigh : frac ≤ 1) : IsInt16 (mathRound (a + (b - a) * frac)) := by
  obtain ⟨halow, hahigh⟩ := cast_isInt16 ha
  obtain ⟨hblow, hbhigh⟩ := cast_isInt16 hb
  have hmix : (a : Rat) + (b - a) * frac = a * (1 - frac) + b * frac := by ring
  rw [hmix]
  have hrest : 0 ≤ 1 - frac := by linarith
  apply isInt16_mathRound
  · have h1 := mul_le_mul_of_nonneg_right halow hrest
    have h2 := mul_le_mul_of_nonneg_right hblow hlow
    linarith
  · have h1 := mul_le_mul_of_nonneg_right hahigh hrest
    have h2 := mul_le_mul_of_nonneg_right hbhigh hlow
    linarith

/-- The neighbours of a position that there are. -/
theorem exists_neighbours {pcm : Buffer} {n k : Nat} (hn : n = pcm.length / 2) (hk : k < n) :
    ∃ a b, readInt16LE pcm (k * 2 : Nat) = some a ∧ IsInt16 a ∧ IsInt16 b ∧
      (if (k : Int) + 1 < n then readInt16LE pcm ((k + 1) * 2) else some a) = some b := by
  obtain ⟨a, ha, harange⟩ := exists_readInt16LE (show 2 * k + 2 ≤ pcm.length by omega)
  by_cases hnext : (k : Int) + 1 < n
  · obtain ⟨b, hb, hbrange⟩ := exists_readInt16LE (show 2 * (k + 1) + 2 ≤ pcm.length by omega)
    refine ⟨a, b, ha, harange, hbrange, ?_⟩
    rw [if_pos hnext, ← hb]
    rfl
  · exact ⟨a, a, ha, harange, harange, if_neg hnext⟩

theorem interpolate_eq {pcm : Buffer} {n i k : Nat} {ratio : Rat} {a b : Int}
    (hk : (i * ratio).floor = k) (ha : readInt16LE pcm (k * 2 : Nat) = some a)
    (hb : (if (k : Int) + 1 < n then readInt16LE pcm ((k + 1) * 2) else some a) = some b) :
    interpolate pcm n ratio i = some (mathRound (a + (b - a) * (i * ratio - k))) := by
  have hoffset : (k : Int) * 2 = (k * 2 : Nat) := by
    push_cast
    rfl
  unfold interpolate
  simp only [hk, hoffset, ha, Option.bind_eq_bind, Option.bind_some]
  rw [hb]
  rfl

/-- A position from the first sample to the last one has a sample. -/
theorem exists_interpolate {pcm : Buffer} {n i : Nat} {ratio : Rat} (hn : n = pcm.length / 2)
    (hlow : 0 ≤ i * ratio) (hhigh : i * ratio ≤ (n : Rat) - 1) :
    ∃ v, interpolate pcm n ratio i = some v ∧ IsInt16 v := by
  have hidx : 0 ≤ (i * ratio).floor := Rat.le_floor_iff.mpr (by exact_mod_cast hlow)
  obtain ⟨k, hk⟩ := Int.eq_ofNat_of_zero_le hidx
  have hbelow : (k : Rat) ≤ i * ratio := by
    have hfloor := Rat.floor_le (i * ratio)
    rw [hk] at hfloor
    exact_mod_cast hfloor
  have habove : i * ratio ≤ (k : Rat) + 1 := by
    have hfloor := Rat.lt_floor_add_one (i * ratio)
    rw [hk] at hfloor
    push_cast at hfloor
    linarith
  have hkn : k < n := by
    have : (k : Rat) < n := by linarith
    exact_mod_cast this
  obtain ⟨a, b, ha, harange, hbrange, hb⟩ := exists_neighbours hn hkn
  exact ⟨_, interpolate_eq hk ha hb,
    isInt16_between harange hbrange (by linarith) (by linarith)⟩

/-- At a whole position the sample is taken as it is. -/
theorem interpolate_whole {pcm : Buffer} {n i k : Nat} {ratio : Rat} (hn : n = pcm.length / 2)
    (hk : k < n) (hpos : i * ratio = k) : interpolate pcm n ratio i = readInt16 pcm (2 * k) := by
  have hfloor : (i * ratio).floor = k := by
    rw [hpos]
    exact Rat.floor_intCast k
  obtain ⟨a, b, ha, -, -, hb⟩ := exists_neighbours hn hk
  have hread : readInt16 pcm (2 * k) = some a := by
    unfold readInt16LE at ha
    rw [if_neg (by omega)] at ha
    rw [Nat.mul_comm 2 k]
    exact ha
  rw [interpolate_eq hfloor ha hb, hread, hpos, sub_self, mul_zero, add_zero, mathRound_intCast]

/-- What is made of a buffer: how many samples there are, and the first and the last. -/
structure Resampled (pcm : Buffer) (inRate outRate : Rat) (out : Buffer) : Prop where
  count : 0 < pcm.length / 2 →
    ((out.length / 2 : Nat) : Int) = max 1 (mathRound ((pcm.length / 2 : Nat) * outRate / inRate))
  first : 0 < pcm.length / 2 → readInt16 out 0 = readInt16 pcm 0
  last : 0 < pcm.length / 2 → 2 ≤ out.length / 2 →
    readInt16 out (2 * (out.length / 2 - 1)) = readInt16 pcm (2 * (pcm.length / 2 - 1))

/-- The positions of the new samples are those from the first sample to the last. -/
theorem position_le {n m i : Nat} (hn : 0 < n) (hi : i < m) :
    0 ≤ (i : Rat) * (((n : Rat) - 1) / max 1 ((m : Rat) - 1)) ∧
      (i : Rat) * (((n : Rat) - 1) / max 1 ((m : Rat) - 1)) ≤ (n : Rat) - 1 := by
  have hn' : (1 : Rat) ≤ n := by exact_mod_cast hn
  have hi' : (i : Rat) + 1 ≤ m := by exact_mod_cast hi
  have hi0 : (0 : Rat) ≤ i := Nat.cast_nonneg i
  have hmax : 0 < max 1 ((m : Rat) - 1) := lt_of_lt_of_le one_pos (le_max_left _ _)
  have hile : (i : Rat) ≤ max 1 ((m : Rat) - 1) := le_trans (by linarith) (le_max_right _ _)
  have hspan : 0 ≤ (n : Rat) - 1 := by linarith
  constructor
  · exact mul_nonneg hi0 (div_nonneg hspan hmax.le)
  · rw [← mul_div_assoc, div_le_iff₀ hmax, mul_comm]
    exact mul_le_mul_of_nonneg_left hile hspan

/-- The last position is that of the last sample. -/
theorem position_last {n m : Nat} (hm : 2 ≤ m) :
    ((m - 1 : Nat) : Rat) * (((n : Rat) - 1) / max 1 ((m : Rat) - 1)) = (n : Rat) - 1 := by
  have hm' : (2 : Rat) ≤ m := by exact_mod_cast hm
  have hcast : ((m - 1 : Nat) : Rat) = (m : Rat) - 1 := by
    rw [Nat.cast_sub (by omega), Nat.cast_one]
  rw [hcast, max_eq_right (by linarith), mul_div_cancel₀]
  linarith

/-- Samples that are interpolated from the first position to the last one. -/
theorem resampled_samples {pcm : Buffer} {inRate outRate ratio : Rat} {n m : Nat} {v : Nat → Int}
    (hn : n = pcm.length / 2)
    (hm : (m : Int) = max 1 (mathRound (n * outRate / inRate)))
    (hv : ∀ i < m, interpolate pcm n ratio i = some (v i)) (hrange : ∀ i < m, IsInt16 (v i))
    (hlast : 2 ≤ m → ((m - 1 : Nat) : Rat) * ratio = (n : Rat) - 1) :
    Resampled pcm inRate outRate (samples ((List.range m).map v)) := by
  have hlength : (samples ((List.range m).map v)).length / 2 = m := by simp
  have hread : ∀ k < m, readInt16 (samples ((List.range m).map v)) (2 * k) = some (v k) := by
    intro k hk
    rw [readInt16_samples (by simpa using hrange), List.getElem?_map, List.getElem?_range hk]
    rfl
  constructor
  · intro _
    rw [hlength, ← hn, hm]
  · intro hpos
    have hm0 : 0 < m := by omega
    have hzero : ((0 : Nat) : Rat) * ratio = (0 : Nat) := by rw [Nat.cast_zero, zero_mul]
    rw [← interpolate_whole hn (hn ▸ hpos) hzero, hv 0 hm0]
    exact hread 0 hm0
  · intro hpos htwo
    rw [hlength] at htwo ⊢
    have hwhole : ((m - 1 : Nat) : Rat) * ratio = (n - 1 : Nat) := by
      rw [hlast htwo, Nat.cast_sub (by omega), Nat.cast_one]
    rw [hread (m - 1) (by omega), ← hn, ← interpolate_whole hn (by omega) hwhole,
      hv (m - 1) (by omega)]

/-- Resampling raises no error, and keeps both ends. -/
theorem resamplePcm16_ok (memory : Memory) (pcm : Buffer) {inRate outRate : Rat}
    (hin : 0 < inRate) :
    ∃ out, resamplePcm16 memory pcm inRate outRate = some out ∧
      Resampled pcm inRate outRate out := by
  by_cases hsame : inRate = outRate
  · refine ⟨pcm, by rw [resamplePcm16, if_pos hsame], ?_, fun _ => rfl, fun _ _ => rfl⟩
    intro hpos
    rw [← hsame, mul_div_cancel_right₀ _ hin.ne']
    have hround := mathRound_intCast (pcm.length / 2 : Nat)
    rw [Int.cast_natCast] at hround
    rw [hround]
    omega
  · by_cases hzero : pcm.length / 2 = 0
    · refine ⟨[], ?_, by omega, by omega, by omega⟩
      unfold resamplePcm16
      simp only [if_neg hsame, if_pos hzero]
    · obtain ⟨m, hm⟩ : ∃ m : Nat, (m : Int) =
          max 1 (mathRound ((pcm.length / 2 : Nat) * outRate / inRate)) :=
        ⟨(max 1 (mathRound ((pcm.length / 2 : Nat) * outRate / inRate))).toNat, by omega⟩
      have hpositions : ∀ i < m, ∃ v, interpolate pcm (pcm.length / 2)
          (((pcm.length / 2 : Nat) - 1 : Rat) / max 1 (m - 1 : Rat)) i = some v ∧ IsInt16 v := by
        intro i hi
        obtain ⟨hlow, hhigh⟩ := position_le (Nat.pos_of_ne_zero hzero) hi
        exact exists_interpolate rfl hlow hhigh
      generalize hratio : (((pcm.length / 2 : Nat) - 1 : Rat) / max 1 (m - 1 : Rat)) = ratio
        at hpositions
      have hv : ∀ i < m, interpolate pcm (pcm.length / 2) ratio i =
          some ((interpolate pcm (pcm.length / 2) ratio i).getD 0) ∧
            IsInt16 ((interpolate pcm (pcm.length / 2) ratio i).getD 0) := by
        intro i hi
        obtain ⟨v, hv, hrange⟩ := hpositions i hi
        rw [hv]
        exact ⟨rfl, hrange⟩
      refine ⟨_, ?_, resampled_samples rfl hm (fun i hi => (hv i hi).1) (fun i hi => (hv i hi).2)
        fun htwo => hratio ▸ position_last htwo⟩
      unfold resamplePcm16
      simp only [if_neg hsame, if_neg hzero, ← hm, Int.toNat_natCast, hratio]
      exact foldlM_write (fun i hi => (hv i hi).1) (fun i hi => (hv i hi).2)
        (memory.length_allocUnsafe _)

/-! ## Decoding and resampling -/

/-- Every well-formed file is decoded, on every buffer the walk ends, and mixing and resampling
    raise no error. -/
theorem audio_decoding :
    (∀ (file : WavFile) (turns : Nat), file.chunks.length ≤ turns →
      parseWav turns file.bytes =
        some (.ok ⟨file.data, file.format.sampleRate, file.format.channels⟩)) ∧
    (∀ buf : Buffer, ∃ r, ∀ turns ≥ buf.length, parseWav turns buf = some r) ∧
    (∀ (memory : Memory) (pcm : Buffer) (channels : Nat), ∃ out,
      toMono memory pcm channels = some out ∧
        (1 < channels → out.length = 2 * (pcm.length / (2 * channels)))) ∧
    (∀ (memory : Memory) (pcm : Buffer) (inRate outRate : Rat), 0 < inRate → 0 < outRate →
      ∃ out, resamplePcm16 memory pcm inRate outRate = some out ∧
        Resampled pcm inRate outRate out) :=
  ⟨fun file _ hturns => file.parseWav_bytes hturns, parseWav_ends, toMono_ok,
    fun memory pcm _ _ hin _ => resamplePcm16_ok memory pcm hin⟩

/-- Two samples before the format, and a chunk of odd size between them. -/
def announcement : WavFile where
  size := 52
  chunks :=
    [{ id := dataId, body := [0x10, 0x00, 0xF0, 0xFF], pad := 0
       length_id := rfl, ascii_id := by simp [dataId], length_body := by simp },
      { id := [0x4C, 0x49, 0x53, 0x54], body := [0x49, 0x4E, 0x46], pad := 0
        length_id := rfl, ascii_id := by simp, length_body := by simp },
      { id := fmtId, body := PcmFormat.body ⟨1, 1, 24000, 48000, 2, [], by simp, by simp, by simp,
          by simp⟩, pad := 0
        length_id := rfl, ascii_id := by simp [fmtId], length_body := by simp [PcmFormat.body] }]
  format := ⟨1, 1, 24000, 48000, 2, [], by simp, by simp, by simp, by simp⟩
  data := [0x10, 0x00, 0xF0, 0xFF]
  one_format := rfl
  one_data := rfl

theorem audio_decoding_announcement :
    parseWav 3 announcement.bytes = some (.ok ⟨[0x10, 0x00, 0xF0, 0xFF], 24000, 1⟩) ∧
      ∃ out, resamplePcm16 ⟨fun n => List.replicate n 0, fun _ => List.length_replicate⟩
          [0x10, 0x00, 0xF0, 0xFF] 24000 8000 = some out ∧
        Resampled [0x10, 0x00, 0xF0, 0xFF] 24000 8000 out :=
  ⟨audio_decoding.1 announcement 3 (by decide),
    audio_decoding.2.2.2 _ _ 24000 8000 (by norm_num) (by norm_num)⟩

end CallNet.Streaming
