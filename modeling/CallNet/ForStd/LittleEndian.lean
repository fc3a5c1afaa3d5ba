import Mathlib.Algebra.Group.Nat.Defs
import Mathlib.Data.List.Basic
import Mathlib.Data.List.GetD
import Mathlib.Data.Nat.Basic

/-!
# Little-endian numbers in byte buffers

* `ofNat` writes a number, `toNat` reads one, `readUInt` reads one at an offset.
* `readInt16` and `writeInt16` are the accesses to signed 16-bit samples; `none` is an access
  out of range.
* `samples` is the buffer of some samples: `readInt16_samples` reads it, and `foldlM_write` says
  that a loop which writes one sample after the other leaves it, whatever was in the buffer.
-/

namespace LittleEndian

abbrev Buffer := List UInt8

/-! ## Unsigned numbers -/

/-- The `k` lowest bytes of a number. -/
def ofNat : Nat → Nat → Buffer
  | 0, _ => []
  | k + 1, n => UInt8.ofNat n :: ofNat k (n / 256)

def toNat : Buffer → Nat
  | [] => 0
  | b :: bs => b.toNat + 256 * toNat bs

@[simp] theorem length_ofNat (k n : Nat) : (ofNat k n).length = k := by
  induction k generalizing n with
  | zero => rfl
  | succ k ih => simp [ofNat, ih]

theorem toNat_ofNat {k n : Nat} (h : n < 256 ^ k) : toNat (ofNat k n) = n := by
  induction k generalizing n with
  | zero =>
    have : n = 0 := by omega
    exact this.symm
  | succ k ih =>
    have hdiv : n / 256 < 256 ^ k := by
      rw [Nat.pow_succ] at h
      omega
    show (UInt8.ofNat n).toNat + 256 * toNat (ofNat k (n / 256)) = n
    rw [ih hdiv]
    have hmod : (UInt8.ofNat n).toNat = n % 256 := UInt8.toNat_ofNat
    omega

/-- `k` bytes at an offset. -/
def readUInt (buf : Buffer) (k offset : Nat) : Option Nat :=
  if offset + k ≤ buf.length then some (toNat ((buf.drop offset).take k)) else none

/-- A number that was written is read where it stands. -/
theorem readUInt_append (before after : Buffer) {k n : Nat} (h : n < 256 ^ k) :
    readUInt (before ++ (ofNat k n ++ after)) k before.length = some n := by
  have hroom : before.length + k ≤ (before ++ (ofNat k n ++ after)).length := by
    simp only [List.length_append, length_ofNat]
    omega
  have htake : (ofNat k n ++ after).take k = ofNat k n := List.take_left' (length_ofNat k n)
  rw [readUInt, if_pos hroom, List.drop_left, htake, toNat_ofNat h]

/-! ## Signed 16-bit samples -/

def IsInt16 (v : Int) : Prop := -32768 ≤ v ∧ v ≤ 32767

instance (v : Int) : Decidable (IsInt16 v) := inferInstanceAs (Decidable (_ ∧ _))

/-- The sample of a number below 2^16. -/
def signed (n : Nat) : Int := if n < 32768 then n else n - 65536

/-- The two bytes of a sample. -/
def int16 (v : Int) : Buffer := ofNat 2 (v % 65536).toNat

@[simp] theorem length_int16 (v : Int) : (int16 v).length = 2 := length_ofNat 2 _

def readInt16 (buf : Buffer) (offset : Nat) : Option Int := (readUInt buf 2 offset).map signed

def writeInt16 (buf : Buffer) (v : Int) (offset : Nat) : Option Buffer :=
  if IsInt16 v ∧ offset + 2 ≤ buf.length then
    some (buf.take offset ++ (int16 v ++ buf.drop (offset + 2)))
  else none

theorem readInt16_append (before after : Buffer) {v : Int} (h : IsInt16 v) :
    readInt16 (before ++ (int16 v ++ after)) before.length = some v := by
  obtain ⟨hlow, hhigh⟩ := h
  have hbound : (v % 65536).toNat < 256 ^ 2 := by omega
  rw [readInt16, int16, readUInt_append before after hbound]
  show some (signed (v % 65536).toNat) = some v
  unfold signed
  split <;> congr 1 <;> omega

/-- What is read is a sample. -/
theorem isInt16_of_readInt16 {buf : Buffer} {offset : Nat} {v : Int}
    (h : readInt16 buf offset = some v) : IsInt16 v := by
  unfold readInt16 readUInt at h
  split at h
  · rename_i hroom
    obtain rfl := Option.some.inj h
    have hlength : ((buf.drop offset).take 2).length = 2 := by
      rw [List.length_take, List.length_drop]
      omega
    obtain ⟨a, b, hab⟩ := List.length_eq_two.mp hlength
    have ha := a.toNat_lt
    have hb := b.toNat_lt
    have hvalue : toNat [a, b] = a.toNat + 256 * b.toNat := rfl
    rw [hab, hvalue]
    show -32768 ≤ signed _ ∧ signed _ ≤ 32767
    unfold signed
    split <;> omega
  · exact nomatch h

/-- There is a sample wherever there are two bytes. -/
theorem exists_readInt16 (buf : Buffer) {offset : Nat} (h : offset + 2 ≤ buf.length) :
    ∃ v, readInt16 buf offset = some v := by
  unfold readInt16 readUInt
  rw [if_pos h]
  exact ⟨_, rfl⟩

/-! ## Buffers of samples -/

def samples (vs : List Int) : Buffer := vs.flatMap int16

@[simp] theorem length_samples (vs : List Int) : (samples vs).length = 2 * vs.length := by
  induction vs with
  | nil => rfl
  | cons v vs ih =>
    show (int16 v ++ samples vs).length = _
    rw [List.length_append, ih, length_int16, List.length_cons]
    omega

theorem readInt16_samples {vs : List Int} (h : ∀ v ∈ vs, IsInt16 v) (k : Nat) :
    readInt16 (samples vs) (2 * k) = vs[k]? := by
  by_cases hk : k < vs.length
  · have hsplit : samples vs = samples (vs.take k) ++ (int16 vs[k] ++ samples (vs.drop (k + 1))) := by
      unfold samples
      rw [← List.flatMap_cons, ← List.flatMap_append, List.getElem_cons_drop,
        List.take_append_drop]
    have hlength : (samples (vs.take k)).length = 2 * k := by
      rw [length_samples, List.length_take_of_le (by omega)]
    rw [hsplit, ← hlength, readInt16_append _ _ (h _ (List.getElem_mem hk)),
      List.getElem?_eq_getElem hk]
  · have hroom : ¬2 * k + 2 ≤ (samples vs).length := by
      rw [length_samples]
      omega
    rw [readInt16, readUInt, if_neg hroom, List.getElem?_eq_none (by omega)]
    rfl

/-- A loop that writes the samples in their order. -/
theorem foldlM_write {n : Nat} {value : Nat → Option Int} {v : Nat → Int}
    (hvalue : ∀ i < n, value i = some (v i)) (hrange : ∀ i < n, IsInt16 (v i)) {buf : Buffer}
    (hbuf : buf.length = 2 * n) :
    (List.range n).foldlM
      (fun out i => (value i).bind fun v => writeInt16 out v (2 * i)) buf =
        some (samples ((List.range n).map v)) := by
  -- after `m` steps the first `m` samples are written, and the rest is as it was
  have hsteps : ∀ m ≤ n, (List.range m).foldlM
      (fun out i => (value i).bind fun v => writeInt16 out v (2 * i)) buf =
        some (samples ((List.range m).map v) ++ buf.drop (2 * m)) := by
    intro m hm
    induction m with
    | zero => rfl
    | succ m ih =>
      have hwritten : (samples ((List.range m).map v)).length = 2 * m := by simp
      have hroom : 2 * m + 2 ≤ (samples ((List.range m).map v) ++ buf.drop (2 * m)).length := by
        rw [List.length_append, hwritten, List.length_drop]
        omega
      rw [List.range_succ, List.foldlM_append, ih (by omega)]
      show ((value m).bind fun v => writeInt16 _ v (2 * m)).bind some = _
      rw [hvalue m (by omega)]
      show (writeInt16 _ (v m) (2 * m)).bind some = _
      rw [writeInt16, if_pos ⟨hrange m (by omega), hroom⟩]
      have htake : (samples ((List.range m).map v) ++ buf.drop (2 * m)).take (2 * m) =
          samples ((List.range m).map v) := by
        rw [← hwritten]
        exact List.take_left
      have hdrop : (samples ((List.range m).map v) ++ buf.drop (2 * m)).drop (2 * m + 2) =
          buf.drop (2 * (m + 1)) := by
        have hpast : (samples ((List.range m).map v)).drop (2 * m + 2) = [] :=
          List.drop_eq_nil_of_le (by omega)
        rw [List.drop_append, hpast, hwritten, List.nil_append, List.drop_drop]
        congr 1
        omega
      rw [htake, hdrop]
      simp [samples]
  rw [hsteps n (Nat.le_refl n), ← hbuf, List.drop_length, List.append_nil]

/-- The samples of a buffer. -/
def samplesOf (buf : Buffer) : List Int :=
  (List.range (buf.length / 2)).map fun i => (readInt16 buf (2 * i)).getD 0

theorem readInt16_samplesOf (buf : Buffer) {i : Nat} (hi : i < buf.length / 2) :
    readInt16 buf (2 * i) = some ((readInt16 buf (2 * i)).getD 0) := by
  obtain ⟨v, hv⟩ := exists_readInt16 buf (show 2 * i + 2 ≤ buf.length by omega)
  rw [hv]
  rfl

theorem getElem?_samplesOf {buf : Buffer} {i : Nat} {v : Int}
    (h : readInt16 buf (2 * i) = some v) : (samplesOf buf)[i]? = some v := by
  have hroom : i < buf.length / 2 := by
    by_contra hout
    rw [readInt16, readUInt, if_neg (by omega)] at h
    exact nomatch h
  rw [samplesOf, List.getElem?_map, List.getElem?_range hroom]
  show some ((readInt16 buf (2 * i)).getD 0) = some v
  rw [h]
  rfl

theorem mem_samplesOf {buf : Buffer} {v : Int} :
    v ∈ samplesOf buf ↔ ∃ i, readInt16 buf (2 * i) = some v := by
  constructor
  · intro h
    obtain ⟨i, hi, rfl⟩ := List.mem_map.mp h
    exact ⟨i, readInt16_samplesOf buf (List.mem_range.mp hi)⟩
  · rintro ⟨i, hi⟩
    exact List.mem_of_getElem? (getElem?_samplesOf hi)

theorem isInt16_of_mem_samplesOf {buf : Buffer} {v : Int} (h : v ∈ samplesOf buf) : IsInt16 v := by
  obtain ⟨i, hi⟩ := mem_samplesOf.mp h
  exact isInt16_of_readInt16 hi

theorem samplesOf_samples {vs : List Int} (h : ∀ v ∈ vs, IsInt16 v) :
    samplesOf (samples vs) = vs := by
  have hlength : (samples vs).length / 2 = vs.length := by simp
  apply List.ext_getElem
  · simp [samplesOf]
  · intro i _ hi
    simp [samplesOf, readInt16_samples h, List.getElem?_eq_getElem hi]

/-- A loop that writes the bytes in their order. -/
theorem foldlM_set {α : Type} {n : Nat} {value : Nat → Option α} {v : Nat → α} {f : α → UInt8}
    (hvalue : ∀ i < n, value i = some (v i)) {buf : Buffer} (hbuf : buf.length = n) :
    (List.range n).foldlM (fun out i => (value i).map fun x => out.set i (f x)) buf =
      some ((List.range n).map fun i => f (v i)) := by
  have hsteps : ∀ m ≤ n, (List.range m).foldlM
      (fun out i => (value i).map fun x => out.set i (f x)) buf =
        some ((List.range m).map (fun i => f (v i)) ++ buf.drop m) := by
    intro m hm
    induction m with
    | zero => rfl
    | succ m ih =>
      rw [List.range_succ, List.foldlM_append, ih (by omega)]
      show ((value m).map fun x => List.set _ m (f x)).bind some = _
      rw [hvalue m (by omega), List.drop_eq_getElem_cons (by omega), List.map_append]
      have hwritten : ((List.range m).map fun i => f (v i)).length = m := by simp
      show some (List.set _ m (f (v m))) = _
      rw [List.set_append_right _ _ (by omega), hwritten, Nat.sub_self, List.set_cons_zero]
      simp
  rw [hsteps n (Nat.le_refl n), ← hbuf, List.drop_length, List.append_nil]

end LittleEndian
