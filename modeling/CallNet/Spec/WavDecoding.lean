import CallNet.Streaming.AudioUtil

/-!
# Decoding WAV files

The walk over the chunks takes its steps from sizes that stand in the file. It ends on every
buffer, and on a file that is laid out as it should be it finds the format and the samples,
wherever they are among the other chunks.
-/

namespace CallNet.Streaming

open LittleEndian

/-! ## The walk ends -/

/-- Every turn of the loop goes on by the header of a chunk at least. -/
theorem readChunk_offset {buf : Buffer} {offset : Nat} {s : WavState} {next : WavState × Nat}
    (h : readChunk buf offset s = some next) : offset + 8 ≤ next.2 := by
  unfold readChunk at h
  simp only [Option.bind_eq_bind, Option.bind_eq_some_iff] at h
  obtain ⟨size, -, s', -, hnext⟩ := h
  obtain rfl := Option.some.inj hnext
  show offset + 8 ≤ offset + 8 + size + size % 2
  omega

/-- As many turns as there are bytes left are enough, and more change nothing. -/
theorem walkChunks_ends (buf : Buffer) (n : Nat) : ∀ (offset : Nat) (s : WavState),
    buf.length ≤ offset + n → ∃ r, ∀ turns ≥ n, walkChunks buf turns offset s = some r := by
  induction n with
  | zero =>
    intro offset s hn
    refine ⟨.ok s, fun turns _ => ?_⟩
    unfold walkChunks
    rw [if_neg (by omega)]
  | succ n ih =>
    intro offset s hn
    by_cases hmore : offset + 8 ≤ buf.length
    · cases hread : readChunk buf offset s with
      | none =>
        refine ⟨.error .rangeError, fun turns hturns => ?_⟩
        obtain ⟨turns, rfl⟩ := Nat.exists_eq_add_of_le' (Nat.le_trans (Nat.le_add_left 1 n) hturns)
        unfold walkChunks
        rw [if_pos hmore]
        simp only [hread]
      | some next =>
        have hnext := readChunk_offset hread
        obtain ⟨r, hr⟩ := ih next.2 next.1 (by omega)
        refine ⟨r, fun turns hturns => ?_⟩
        obtain ⟨turns, rfl⟩ := Nat.exists_eq_add_of_le' (Nat.le_trans (Nat.le_add_left 1 n) hturns)
        unfold walkChunks
        rw [if_pos hmore]
        simp only [hread]
        exact hr turns (by omega)
    · refine ⟨.ok s, fun turns _ => ?_⟩
      unfold walkChunks
      rw [if_neg hmore]

theorem parseWav_ends (buf : Buffer) :
    ∃ r, ∀ turns ≥ buf.length, parseWav turns buf = some r := by
  unfold parseWav
  split
  · exact ⟨_, fun _ _ => rfl⟩
  · obtain ⟨r, hr⟩ := walkChunks_ends buf buf.length 12 .start (by omega)
    refine ⟨r.bind WavState.finish, fun turns hturns => ?_⟩
    rw [hr turns hturns]
    rfl

/-! ## Files -/

def fmtId : Buffer := [0x66, 0x6D, 0x74, 0x20]

def dataId : Buffer := [0x64, 0x61, 0x74, 0x61]

/-- A chunk: the id is of four ASCII characters, and a body of odd size is padded. -/
structure WavChunk where
  id : Buffer
  body : Buffer
  pad : UInt8
  length_id : id.length = 4
  ascii_id : ∀ b ∈ id, b.toNat < 128
  length_body : body.length < 2 ^ 32

def WavChunk.padding (c : WavChunk) : Buffer := if c.body.length % 2 = 1 then [c.pad] else []

def WavChunk.bytes (c : WavChunk) : Buffer :=
  c.id ++ (ofNat 4 c.body.length ++ (c.body ++ c.padding))

/-- The format of 16-bit PCM, as a `fmt ` chunk has it. -/
structure PcmFormat where
  tag : Nat
  channels : Nat
  sampleRate : Nat
  byteRate : Nat
  blockAlign : Nat
  extension : Buffer
  channels_pos : 0 < channels
  channels_lt : channels < 2 ^ 16
  sampleRate_pos : 0 < sampleRate
  sampleRate_lt : sampleRate < 2 ^ 32

def PcmFormat.body (f : PcmFormat) : Buffer :=
  ofNat 2 f.tag ++ (ofNat 2 f.channels ++ (ofNat 4 f.sampleRate ++ (ofNat 4 f.byteRate ++
    (ofNat 2 f.blockAlign ++ (ofNat 2 16 ++ f.extension)))))

/-- A RIFF/WAVE file: any chunks in any order, one of them the format and one the samples. -/
structure WavFile where
  size : Nat
  chunks : List WavChunk
  format : PcmFormat
  data : Buffer
  one_format : (chunks.filter fun c => c.id = fmtId).map WavChunk.body = [format.body]
  one_data : (chunks.filter fun c => c.id = dataId).map WavChunk.body = [data]

def WavFile.bytes (file : WavFile) : Buffer :=
  [0x52, 0x49, 0x46, 0x46] ++ (ofNat 4 file.size ++
    ([0x57, 0x41, 0x56, 0x45] ++ file.chunks.flatMap WavChunk.bytes))

/-! ## Reading a chunk -/

/-- The characters of an ASCII id. -/
theorem ascii_append (before after : Buffer) {id : Buffer} (hlength : id.length = 4) :
    ascii (before ++ (id ++ after)) before.length (before.length + 4) =
      String.ofList (id.map fun b => Char.ofNat (b.toNat % 128)) := by
  unfold ascii
  rw [List.drop_left, Nat.add_sub_cancel_left, List.take_left' hlength]

theorem char_ascii_inj {a b : UInt8} (ha : a.toNat < 128) (hb : b.toNat < 128)
    (h : Char.ofNat (a.toNat % 128) = Char.ofNat (b.toNat % 128)) : a = b := by
  have hchar : ∀ n < 128, (Char.ofNat n).toNat = n := by decide
  have htoNat := congrArg Char.toNat h
  rw [hchar _ (by omega), hchar _ (by omega)] at htoNat
  apply UInt8.toNat_inj.mp
  omega

/-- Different ids are different strings. -/
theorem ascii_eq_iff {id id' : Buffer} (hlength : id.length = id'.length)
    (hid : ∀ b ∈ id, b.toNat < 128) (hid' : ∀ b ∈ id', b.toNat < 128) :
    String.ofList (id.map fun b => Char.ofNat (b.toNat % 128)) =
      String.ofList (id'.map fun b => Char.ofNat (b.toNat % 128)) ↔ id = id' := by
  rw [String.ofList_inj]
  constructor
  · intro h
    induction id generalizing id' with
    | nil =>
      cases id' with
      | nil => rfl
      | cons b' id' => exact nomatch hlength
    | cons b id ih =>
      cases id' with
      | nil => exact nomatch hlength
      | cons b' id' =>
        simp only [List.forall_mem_cons] at hid hid'
        simp only [List.map_cons, List.cons.injEq] at h
        rw [char_ascii_inj hid.1 hid'.1 h.1,
          ih (Nat.succ.inj hlength) hid.2 hid'.2 h.2]
  · rintro rfl
    rfl

/-- What the loop takes from a chunk. -/
def WavState.take (s : WavState) (f : PcmFormat) (c : WavChunk) : WavState :=
  if c.id = fmtId then { s with channels := f.channels, sampleRate := f.sampleRate, bitsPerSample := 16 }
  else if c.id = dataId then { s with pcm := some c.body }
  else s

theorem WavChunk.length_bytes (c : WavChunk) :
    c.bytes.length = 8 + c.body.length + c.body.length % 2 := by
  have hpadding : c.padding.length = c.body.length % 2 := by
    unfold WavChunk.padding
    split
    · rename_i hodd
      rw [hodd]
      rfl
    · rename_i heven
      show 0 = _
      omega
  unfold WavChunk.bytes
  rw [List.length_append, List.length_append, List.length_append, length_ofNat, c.length_id,
    hpadding]
  omega

/-- A number is read where it stands in the buffer. -/
theorem readUInt_at (before : Buffer) {buf after : Buffer} {k n offset : Nat}
    (hbuf : buf = before ++ (ofNat k n ++ after)) (hoffset : offset = before.length)
    (hn : n < 256 ^ k) : readUInt buf k offset = some n := by
  rw [hbuf, hoffset, readUInt_append before after hn]

/-- The fields of a format, behind whatever stands before it. -/
theorem chunk_format (s : WavState) (f : PcmFormat) (before after : Buffer) (size : Nat) :
    s.chunk (before ++ (f.body ++ after)) "fmt " before.length size =
      some { s with channels := f.channels, sampleRate := f.sampleRate, bitsPerSample := 16 } := by
  have hchannels : readUInt (before ++ (f.body ++ after)) 2 (before.length + 2) =
      some f.channels := by
    apply readUInt_at (before ++ ofNat 2 f.tag) (by simp [PcmFormat.body]; rfl) (by simp)
    exact f.channels_lt
  have hrate : readUInt (before ++ (f.body ++ after)) 4 (before.length + 4) =
      some f.sampleRate := by
    apply readUInt_at (before ++ (ofNat 2 f.tag ++ ofNat 2 f.channels))
      (by simp [PcmFormat.body]; rfl) (by simp)
    exact f.sampleRate_lt
  have hbits : readUInt (before ++ (f.body ++ after)) 2 (before.length + 14) = some 16 := by
    apply readUInt_at (before ++ (ofNat 2 f.tag ++ (ofNat 2 f.channels ++
      (ofNat 4 f.sampleRate ++ (ofNat 4 f.byteRate ++ ofNat 2 f.blockAlign)))))
      (by simp [PcmFormat.body]; rfl) (by simp)
    decide
  unfold WavState.chunk
  rw [if_pos rfl, hchannels, hrate, hbits]
  show some { s with
    channels := orDefault f.channels 1, sampleRate := orDefault f.sampleRate 8000,
    bitsPerSample := orDefault 16 16 : WavState } = _
  rw [orDefault, if_neg (Nat.ne_of_gt f.channels_pos), orDefault,
    if_neg (Nat.ne_of_gt f.sampleRate_pos)]
  rfl

/-- The body of a chunk, behind whatever stands before it. -/
theorem chunk_data (s : WavState) (before body after : Buffer) :
    s.chunk (before ++ (body ++ after)) "data" before.length body.length =
      some { s with pcm := some body } := by
  unfold WavState.chunk
  rw [if_neg (by decide), if_pos rfl]
  have hstop : min (before.length + body.length) (before ++ (body ++ after)).length =
      (before ++ body).length := by
    simp only [List.length_append]
    omega
  rw [hstop, ← List.append_assoc, List.take_left, List.drop_left]

theorem ascii_fmtId : String.ofList (fmtId.map fun b => Char.ofNat (b.toNat % 128)) = "fmt " := rfl

theorem ascii_dataId : String.ofList (dataId.map fun b => Char.ofNat (b.toNat % 128)) = "data" :=
  rfl

/-- The id that the loop compares is that of the chunk. -/
theorem WavChunk.ascii_iff (c : WavChunk) (id : Buffer) (hlength : id.length = 4)
    (hid : ∀ b ∈ id, b.toNat < 128) (before after : Buffer) :
    ascii (before ++ (c.bytes ++ after)) before.length (before.length + 4) =
      String.ofList (id.map fun b => Char.ofNat (b.toNat % 128)) ↔ c.id = id := by
  rw [WavChunk.bytes, List.append_assoc, ascii_append _ _ c.length_id,
    ascii_eq_iff (c.length_id.trans hlength.symm) c.ascii_id hid]

/-- What the loop takes from a chunk, whichever it is. -/
theorem chunk_bytes (s : WavState) {f : PcmFormat} (before after : Buffer) {c : WavChunk}
    (hf : c.id = fmtId → c.body = f.body) :
    s.chunk (before ++ (c.bytes ++ after))
      (ascii (before ++ (c.bytes ++ after)) before.length (before.length + 4))
      (before.length + 8) c.body.length = some (s.take f c) := by
  have hbuf : before ++ (c.bytes ++ after) =
      (before ++ (c.id ++ ofNat 4 c.body.length)) ++ (c.body ++ (c.padding ++ after)) := by
    simp [WavChunk.bytes]
  have hlength : before.length + 8 = (before ++ (c.id ++ ofNat 4 c.body.length)).length := by
    simp [c.length_id]
  have hfmt := c.ascii_iff fmtId rfl (by simp [fmtId]) before after
  have hdata := c.ascii_iff dataId rfl (by simp [dataId]) before after
  rw [ascii_fmtId] at hfmt
  rw [ascii_dataId] at hdata
  unfold WavState.take
  by_cases hisFmt : c.id = fmtId
  · rw [hfmt.mpr hisFmt, if_pos hisFmt, hbuf, hlength, hf hisFmt, chunk_format]
  · rw [if_neg hisFmt]
    by_cases hisData : c.id = dataId
    · rw [hdata.mpr hisData, if_pos hisData, hbuf, hlength, chunk_data]
    · -- an unknown chunk is passed over
      rw [if_neg hisData]
      unfold WavState.chunk
      rw [if_neg fun h => hisFmt (hfmt.mp h), if_neg fun h => hisData (hdata.mp h)]

/-- One turn of the loop takes what it should from a chunk, and goes on behind it. -/
theorem readChunk_bytes (s : WavState) {f : PcmFormat} (before after : Buffer) {c : WavChunk}
    (hf : c.id = fmtId → c.body = f.body) :
    readChunk (before ++ (c.bytes ++ after)) before.length s =
      some (s.take f c, before.length + c.bytes.length) := by
  have hsize : readUInt (before ++ (c.bytes ++ after)) 4 (before.length + 4) =
      some c.body.length := by
    apply readUInt_at (before ++ c.id) (by simp [WavChunk.bytes]; rfl)
      (by simp [c.length_id])
    exact c.length_body
  unfold readChunk
  simp only [hsize, Option.bind_eq_bind, Option.bind_some, chunk_bytes s before after hf]
  show some (_, before.length + 8 + c.body.length + c.body.length % 2) = _
  rw [c.length_bytes]
  congr 2
  omega

/-! ## Whole files -/

/-- The walk over some chunks takes from one after the other. -/
theorem walkChunks_bytes {f : PcmFormat} (chunks : List WavChunk)
    (hf : ∀ c ∈ chunks, c.id = fmtId → c.body = f.body) (before : Buffer) (s : WavState)
    {turns : Nat} (hturns : chunks.length ≤ turns) :
    walkChunks (before ++ chunks.flatMap WavChunk.bytes) turns before.length s =
      some (.ok (chunks.foldl (fun s c => s.take f c) s)) := by
  induction chunks generalizing before s turns with
  | nil =>
    unfold walkChunks
    rw [if_neg (by simp)]
    rfl
  | cons c chunks ih =>
    simp only [List.forall_mem_cons] at hf
    obtain ⟨turns, rfl⟩ := Nat.exists_eq_add_of_le' (Nat.le_trans (Nat.le_add_left 1 _) hturns)
    have hroom : before.length + 8 ≤
        (before ++ (c.bytes ++ chunks.flatMap WavChunk.bytes)).length := by
      rw [List.length_append, List.length_append, c.length_bytes]
      omega
    rw [List.flatMap_cons]
    unfold walkChunks
    rw [if_pos hroom]
    simp only [readChunk_bytes s before _ hf.1]
    have hmore : chunks.length ≤ turns := by simpa using hturns
    have hrest := ih hf.2 (before ++ c.bytes) (s.take f c) hmore
    rw [List.length_append, List.append_assoc] at hrest
    exact hrest

/-- The samples that are found are those of the last data chunk. -/
theorem pcm_foldl (f : PcmFormat) (chunks : List WavChunk) (s : WavState) :
    (chunks.foldl (fun s c => s.take f c) s).pcm =
      (((chunks.filter fun c => c.id = dataId).map WavChunk.body).getLast?).or s.pcm := by
  induction chunks generalizing s with
  | nil => rfl
  | cons c chunks ih =>
    rw [List.foldl_cons, ih]
    unfold WavState.take
    by_cases hisData : c.id = dataId
    · have hnotFmt : c.id ≠ fmtId := by
        rw [hisData]
        decide
      rw [if_neg hnotFmt, if_pos hisData, List.filter_cons_of_pos (by simpa using hisData),
        List.map_cons, List.getLast?_cons]
      cases ((chunks.filter fun c => c.id = dataId).map WavChunk.body).getLast? <;> rfl
    · rw [List.filter_cons_of_neg (by simpa using hisData), if_neg hisData]
      split <;> rfl

/-- The variables have the format of the file. -/
structure WavState.HasFormat (s : WavState) (f : PcmFormat) : Prop where
  channels : s.channels = f.channels
  sampleRate : s.sampleRate = f.sampleRate
  bitsPerSample : s.bitsPerSample = 16

theorem WavState.HasFormat.take {s : WavState} {f : PcmFormat} (h : s.HasFormat f)
    (c : WavChunk) : (s.take f c).HasFormat f := by
  unfold WavState.take
  split
  · exact ⟨rfl, rfl, rfl⟩
  · split
    · exact ⟨h.channels, h.sampleRate, h.bitsPerSample⟩
    · exact h

theorem WavState.HasFormat.foldl {s : WavState} {f : PcmFormat} (h : s.HasFormat f)
    (chunks : List WavChunk) : (chunks.foldl (fun s c => s.take f c) s).HasFormat f := by
  induction chunks generalizing s with
  | nil => exact h
  | cons c chunks ih => exact ih (h.take c)

/-- A format chunk sets the variables, and the chunks behind it leave them so. -/
theorem hasFormat_foldl {f : PcmFormat} {chunks : List WavChunk}
    (h : ∃ c ∈ chunks, c.id = fmtId) (s : WavState) :
    (chunks.foldl (fun s c => s.take f c) s).HasFormat f := by
  induction chunks generalizing s with
  | nil =>
    obtain ⟨c, hc, -⟩ := h
    exact nomatch hc
  | cons c chunks ih =>
    by_cases hisFmt : c.id = fmtId
    · have hset : (s.take f c).HasFormat f := by
        unfold WavState.take
        rw [if_pos hisFmt]
        exact ⟨rfl, rfl, rfl⟩
      exact hset.foldl chunks
    · apply ih
      obtain ⟨c', hc', hid⟩ := h
      obtain rfl | hmem := List.mem_cons.mp hc'
      · exact absurd hid hisFmt
      · exact ⟨c', hmem, hid⟩

namespace WavFile

variable (file : WavFile)

theorem body_of_fmt {c : WavChunk} (hc : c ∈ file.chunks) (hid : c.id = fmtId) :
    c.body = file.format.body := by
  have hmem : c.body ∈ (file.chunks.filter fun c => c.id = fmtId).map WavChunk.body :=
    List.mem_map_of_mem (List.mem_filter.mpr ⟨hc, by simpa using hid⟩)
  rw [file.one_format] at hmem
  exact List.mem_singleton.mp hmem

theorem exists_fmt : ∃ c ∈ file.chunks, c.id = fmtId := by
  have hmem : file.format.body ∈ (file.chunks.filter fun c => c.id = fmtId).map WavChunk.body := by
    rw [file.one_format]
    exact List.mem_singleton.mpr rfl
  obtain ⟨c, hc, -⟩ := List.mem_map.mp hmem
  obtain ⟨hin, hid⟩ := List.mem_filter.mp hc
  exact ⟨c, hin, by simpa using hid⟩

/-- A file is of the right kind, by its header. -/
theorem header : 12 ≤ file.bytes.length ∧ ascii file.bytes 0 4 = "RIFF" ∧
    ascii file.bytes 8 12 = "WAVE" := by
  have hsize : ofNat 4 file.size = [UInt8.ofNat file.size, UInt8.ofNat (file.size / 256),
      UInt8.ofNat (file.size / 256 / 256), UInt8.ofNat (file.size / 256 / 256 / 256)] := rfl
  unfold bytes
  rw [hsize]
  refine ⟨?_, rfl, rfl⟩
  simp only [List.length_append, List.length_cons, List.length_nil]
  omega

/-- The data, the rate and the channels are found in every file, in any layout. -/
theorem parseWav_bytes {turns : Nat} (hturns : file.chunks.length ≤ turns) :
    parseWav turns file.bytes =
      some (.ok ⟨file.data, file.format.sampleRate, file.format.channels⟩) := by
  obtain ⟨hlength, hriff, hwave⟩ := file.header
  have hwalk := walkChunks_bytes file.chunks (fun c => file.body_of_fmt)
    ([0x52, 0x49, 0x46, 0x46] ++ (ofNat 4 file.size ++ [0x57, 0x41, 0x56, 0x45])) .start hturns
  have hbytes : [0x52, 0x49, 0x46, 0x46] ++ (ofNat 4 file.size ++ [0x57, 0x41, 0x56, 0x45]) ++
      file.chunks.flatMap WavChunk.bytes = file.bytes := by
    simp [bytes]
  have hstart : ([0x52, 0x49, 0x46, 0x46] ++
      (ofNat 4 file.size ++ [0x57, 0x41, 0x56, 0x45])).length = 12 := by
    simp
  rw [hbytes, hstart] at hwalk
  have hformat := hasFormat_foldl (f := file.format) file.exists_fmt .start
  have hpcm := pcm_foldl file.format file.chunks .start
  rw [file.one_data] at hpcm
  have hother : ¬(file.bytes.length < 12 ∨ ascii file.bytes 0 4 ≠ "RIFF" ∨
      ascii file.bytes 8 12 ≠ "WAVE") := by
    rw [hriff, hwave]
    simpa using hlength
  rw [parseWav, if_neg hother, hwalk]
  show some (WavState.finish _) = _
  unfold WavState.finish
  rw [hpcm]
  show some (if _ then _ else _) = _
  rw [if_neg (by simp [hformat.bitsPerSample]), hformat.sampleRate, hformat.channels]
  rfl

end WavFile

end CallNet.Streaming
