import CallNet.Streaming.AudioUtil

/-!
# The mu-law codec

`trunk/streaming/audio.codec.ts`: G.711 mu-law and linear PCM16; and the end of
`ai/providers/audio.util.ts`, which makes telephone audio of what a vendor returns. As there,
PCM16 buffers are shorter than 2^31 bytes.
-/

namespace CallNet.Streaming

open LittleEndian

/-! ## Operators of JavaScript on 32-bit integers -/

def bitAnd (a b : Int) : Int := (BitVec.ofInt 32 a &&& BitVec.ofInt 32 b).toInt

def bitOr (a b : Int) : Int := (BitVec.ofInt 32 a ||| BitVec.ofInt 32 b).toInt

def bitNot (a : Int) : Int := (~~~BitVec.ofInt 32 a).toInt

/-- `a >> n` -/
def shiftRight (a n : Int) : Int := ((BitVec.ofInt 32 a).sshiftRight (n % 32).toNat).toInt

/-- `a << n` -/
def shiftLeft (a n : Int) : Int := (BitVec.ofInt 32 a <<< (n % 32).toNat).toInt

/-! ## One sample -/

def BIAS : Int := 0x84

def CLIP : Int := 32635

/-- `EXP_LUT[(sample >> 7) & 0xFF]` is the segment of the exponent. -/
def EXP_LUT : List Int :=
  [(2, 0), (2, 1), (4, 2), (8, 3), (16, 4), (32, 5), (64, 6), (128, 7)].flatMap fun segment =>
    List.replicate segment.1 segment.2

/-- Encode one 16-bit linear sample to a mu-law byte. -/
def encodeSample (sample : Int) : Int :=
  let sign := bitAnd (shiftRight sample 8) 0x80
  let sample := if sign ≠ 0 then -sample else sample
  let sample := if sample > CLIP then CLIP else sample
  let sample := sample + BIAS
  let exponent := EXP_LUT.getD (bitAnd (shiftRight sample 7) 0xff).toNat 0
  let mantissa := bitAnd (shiftRight sample (exponent + 3)) 0x0f
  bitAnd (bitNot (bitOr (bitOr sign (shiftLeft exponent 4)) mantissa)) 0xff

/-- Decode one mu-law byte to a 16-bit linear sample. -/
def decodeSample (uVal : Int) : Int :=
  let uVal := bitAnd (bitNot uVal) 0xff
  let t := shiftLeft (bitAnd uVal 0x0f) 3 + BIAS
  let t := shiftLeft t (shiftRight (bitAnd uVal 0x70) 4)
  if bitAnd uVal 0x80 ≠ 0 then BIAS - t else t - BIAS

/-- The elements of an `Int16Array`. -/
def DECODE_TABLE : List Int :=
  (List.range 256).map fun i : Nat => signed (decodeSample i % 65536).toNat

/-! ## Buffers -/

/-- Convert a buffer of mu-law bytes to little-endian PCM16. -/
def muLawToPcm16 (memory : Memory) (mulaw : Buffer) : Option Buffer :=
  (List.range mulaw.length).foldlM
    (fun out i => (mulaw[i]?.bind fun b => DECODE_TABLE[b.toNat]?).bind fun v =>
      writeInt16 out v (2 * i))
    (memory.allocUnsafe (2 * mulaw.length))

/-- Convert a buffer of little-endian PCM16 to mu-law bytes, without a trailing odd byte. -/
def pcm16ToMuLaw (memory : Memory) (pcm : Buffer) : Option Buffer :=
  -- `pcm.length >> 1`, which is negative from 2^31 bytes on
  let samples := pcm.length / 2
  (List.range samples).foldlM
    (fun out i => (readInt16LE pcm (2 * i : Nat)).map fun v =>
      out.set i (UInt8.ofNat (encodeSample v).toNat))
    (memory.allocUnsafe samples)

/-! ## Telephone audio -/

/-- Mono mu-law at 8 kHz. -/
def pcm16ToMulaw8k (memory : Memory) (audio : Pcm16Audio) : Option Buffer := do
  let mono ← toMono memory audio.pcm audio.channels
  let resampled ← resamplePcm16 memory mono audio.sampleRate 8000
  pcm16ToMuLaw memory resampled

/-- Parse a WAV container, in at most so many turns of its loop, and convert the audio. -/
def wavToMulaw8k (memory : Memory) (turns : Nat) (wav : Buffer) :
    Option (Except WavError Buffer) :=
  (parseWav turns wav).map fun r => r.bind fun audio =>
    match pcm16ToMulaw8k memory audio with
    | some mulaw => .ok mulaw
    | none => .error .rangeError

end CallNet.Streaming
