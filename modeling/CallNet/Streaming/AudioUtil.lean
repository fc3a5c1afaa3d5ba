import CallNet.Engine.CallLog
import CallNet.ForStd.LittleEndian
import Mathlib.Algebra.Order.Ring.Unbundled.Rat

/-!
# Audio of speech vendors

`trunk/streaming/ai/providers/audio.util.ts`: the WAV files and the PCM16 audio that vendors
return, mixed to one channel and resampled for the telephony stream. Positions between samples
are exact fractions, and buffers are shorter than 2^31 bytes where their length is halved by a
shift of 32-bit integers.
-/

namespace CallNet.Streaming

open LittleEndian

/-! ## Buffers of Node -/

/-- `buf.toString("ascii", start, stop)`; the highest bit of a byte is not looked at. -/
def ascii (buf : Buffer) (start stop : Nat) : String :=
  String.ofList (((buf.drop start).take (stop - start)).map fun b => Char.ofNat (b.toNat % 128))

/-- `buf.readInt16LE(offset)`; `none` is the `RangeError`. -/
def readInt16LE (buf : Buffer) (offset : Int) : Option Int :=
  if offset < 0 then none else readInt16 buf offset.toNat

/-- `Buffer.allocUnsafe`, with whatever the memory holds. -/
structure Memory where
  allocUnsafe : Nat → Buffer
  length_allocUnsafe : ∀ n, (allocUnsafe n).length = n

/-! ## WAV files -/

/-- Parsed PCM payload extracted from a container. -/
structure Pcm16Audio where
  pcm : Buffer
  sampleRate : Nat
  channels : Nat
deriving DecidableEq, Repr

/-- What `parseWav` throws. -/
inductive WavError where
  | error (message : String)
  | rangeError
deriving DecidableEq, Repr

/-- The variables of the loop over the chunks. -/
structure WavState where
  channels : Nat
  sampleRate : Nat
  bitsPerSample : Nat
  pcm : Option Buffer
deriving DecidableEq, Repr

def WavState.start : WavState := ⟨1, 8000, 16, none⟩

/-- `n || d` -/
def orDefault (n d : Nat) : Nat := if n = 0 then d else n

/-- The variables after a chunk whose body has this place and announced size. -/
def WavState.chunk (s : WavState) (buf : Buffer) (id : String) (body size : Nat) :
    Option WavState :=
  if id = "fmt " then do
    let channels ← readUInt buf 2 (body + 2)
    let sampleRate ← readUInt buf 4 (body + 4)
    let bitsPerSample ← readUInt buf 2 (body + 14)
    pure { s with
      channels := orDefault channels 1
      sampleRate := orDefault sampleRate 8000
      bitsPerSample := orDefault bitsPerSample 16 }
  else if id = "data" then
    some { s with pcm := some ((buf.take (min (body + size) buf.length)).drop body) }
  else some s

/-- One turn of the loop: the variables and the offset after it. -/
def readChunk (buf : Buffer) (offset : Nat) (s : WavState) : Option (WavState × Nat) := do
  let id := ascii buf offset (offset + 4)
  let size ← readUInt buf 4 (offset + 4)
  let body := offset + 8
  let s ← s.chunk buf id body size
  -- chunks are word-aligned: an odd size carries a trailing pad byte
  pure (s, body + size + size % 2)

/-- The loop over the chunks; `none` when the turns run out. -/
def walkChunks (buf : Buffer) : Nat → Nat → WavState → Option (Except WavError WavState)
  | turns, offset, s =>
    if offset + 8 ≤ buf.length then
      match turns with
      | 0 => none
      | turns + 1 =>
        match readChunk buf offset s with
        | none => some (.error .rangeError)
        | some (s, offset) => walkChunks buf turns offset s
    else some (.ok s)

/-- What is made of the variables after the loop. -/
def WavState.finish (s : WavState) : Except WavError Pcm16Audio :=
  match s.pcm with
  | none => .error (.error "WAV has no data chunk")
  | some pcm =>
    if s.bitsPerSample ≠ 16 then
      .error (.error ("unsupported WAV bit depth: " ++ toString s.bitsPerSample))
    else .ok ⟨pcm, s.sampleRate, s.channels⟩

/-- Parse a RIFF/WAVE buffer, in at most so many turns of the loop. -/
def parseWav (turns : Nat) (buf : Buffer) : Option (Except WavError Pcm16Audio) :=
  if buf.length < 12 ∨ ascii buf 0 4 ≠ "RIFF" ∨ ascii buf 8 12 ≠ "WAVE" then
    some (.error (.error "not a WAV (RIFF/WAVE) buffer"))
  else
    (walkChunks buf turns 12 .start).map fun r => r.bind WavState.finish

/-! ## Mixing and resampling -/

/-- The average of a frame. -/
def mixFrame (pcm : Buffer) (channels i : Nat) : Option Int := do
  let sum ← (List.range channels).foldlM
    (fun sum c => do
      let v ← readInt16LE pcm ((i * channels + c) * 2 : Nat)
      pure (sum + v)) (0 : Int)
  pure (mathRound (sum / channels))

/-- Mix interleaved multi-channel PCM16 down to mono by averaging channels. -/
def toMono (memory : Memory) (pcm : Buffer) (channels : Nat) : Option Buffer :=
  if channels ≤ 1 then some pcm
  else
    let frames := pcm.length / (2 * channels)
    (List.range frames).foldlM
      (fun out i => (mixFrame pcm channels i).bind fun v => writeInt16 out v (2 * i))
      (memory.allocUnsafe (2 * frames))

/-- The sample at position `i * ratio`, between its neighbours. -/
def interpolate (pcm : Buffer) (inSamples : Nat) (ratio : Rat) (i : Nat) : Option Int := do
  let pos := i * ratio
  let idx := pos.floor
  let frac := pos - idx
  let a ← readInt16LE pcm (idx * 2)
  let b ← (if idx + 1 < inSamples then readInt16LE pcm ((idx + 1) * 2) else some a)
  pure (mathRound (a + (b - a) * frac))

/-- Resample mono PCM16 by linear interpolation. -/
def resamplePcm16 (memory : Memory) (pcm : Buffer) (inRate outRate : Rat) : Option Buffer :=
  if inRate = outRate then some pcm
  else
    -- `pcm.length >> 1`, which is negative from 2^31 bytes on
    let inSamples := pcm.length / 2
    if inSamples = 0 then some []
    else
      let outSamples := (max 1 (mathRound (inSamples * outRate / inRate))).toNat
      let ratio : Rat := (inSamples - 1 : Rat) / max 1 (outSamples - 1 : Rat)
      (List.range outSamples).foldlM
        (fun out i => (interpolate pcm inSamples ratio i).bind fun v => writeInt16 out v (2 * i))
        (memory.allocUnsafe (2 * outSamples))

end CallNet.Streaming
