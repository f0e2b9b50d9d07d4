import AdTerminal.Library.BigEndian
import AdTerminal.Library.Simulation

/-! What the demuxer reads of a sequence parameter set: the bytes without the emulation prevention, and in
their bits the size of the pictures. -/

namespace AdTerminal.Rtmp

open BigEndian Simulation

/-- What demuxing a tag fails with. -/
inductive AvcError
  | hlsDecodeError
  | hlsAvcTryOthers
  | hlsTryMp3
  | kernelStreamInit
  | avcNaluUev
  /-- an assertion that does not hold -/
  | assertion
  deriving DecidableEq, Repr

/-- The bits of a byte, the highest first. -/
def bitsOfByte (b : UInt8) : List Bool :=
  [b.toNat.testBit 7, b.toNat.testBit 6, b.toNat.testBit 5, b.toNat.testBit 4, b.toNat.testBit 3, b.toNat.testBit 2,
    b.toNat.testBit 1, b.toNat.testBit 0]

def bitsOfBytes (bytes : List UInt8) : List Bool :=
  bytes.flatMap bitsOfByte

/-- A reader of the bits that are left. -/
abbrev BitReading (α : Type) : Type := EStateM AvcError (List Bool) α

namespace SrsBitStream

/-- The caller has to see to it that there is a bit left. -/
def readBit : BitReading Bool := fun bits =>
  match bits with
  | [] => .error .assertion []
  | b :: bits => .ok b bits

end SrsBitStream

open SrsBitStream

def srsAvcNaluReadBit : BitReading Bool := fun bits =>
  if bits = [] then .error .avcNaluUev bits else readBit.run bits

/-- `leadingZeroBits` bits as a number, the highest first. -/
def readBits : Nat → BitReading Nat
  | 0 => return 0
  | n + 1 => do
    let b ← readBit
    let rest ← readBits n
    return b.toNat * 2 ^ n + rest

/-- The loop for the leading zeros, up to the first one or to the end of the bits. -/
def leadingZeroBits : List Bool → Nat × List Bool
  | [] => (0, [])
  | true :: bits => (0, bits)
  | [false] => (0, [])
  | false :: bits => ((leadingZeroBits bits).1 + 1, (leadingZeroBits bits).2)

def srsAvcNaluReadUev : BitReading Nat := fun bits =>
  if bits = [] then .error .avcNaluUev bits
  else
    let (zeros, bits) := leadingZeroBits bits
    if 31 ≤ zeros then .error .avcNaluUev bits
    else (do return 2 ^ zeros - 1 + (← readBits zeros) : BitReading Nat).run bits

/-- The same reading several times over. -/
def readEach (read : BitReading Unit) : Nat → BitReading Unit
  | 0 => return ()
  | n + 1 => do
    read
    readEach read n

def skipUev : BitReading Unit := do
  let _ ← srsAvcNaluReadUev
  return ()

def skipBit : BitReading Unit := do
  let _ ← srsAvcNaluReadBit
  return ()

/-- The profiles whose parameter sets have the chroma format and the bit depths. -/
def chromaProfiles : List Nat := [100, 110, 122, 244, 44, 83, 86, 118, 128]

/-- The fields of those profiles. -/
def readChroma : BitReading Unit := do
  let chromaFormatIdc ← srsAvcNaluReadUev
  if chromaFormatIdc = 3 then skipBit else pure ()
  skipUev
  skipUev
  skipBit
  if ← srsAvcNaluReadBit then readEach skipBit (if chromaFormatIdc ≠ 3 then 8 else 12) else pure ()

def readPicOrderCnt : BitReading Unit := do
  let picOrderCntType ← srsAvcNaluReadUev
  if picOrderCntType = 0 then skipUev
  else if picOrderCntType = 1 then
    skipBit
    skipUev
    skipUev
    let numRefFrames ← srsAvcNaluReadUev
    readEach skipUev numRefFrames
  else pure ()

/-- A number of macroblocks less one as pixels, in an `int`. -/
def pixels (mbsMinus1 : Nat) : Int :=
  ((mbsMinus1 + 1) * 16 : Int).bmod (2 ^ 32)

/-- The bits behind the level, up to the width and the height. -/
def readSpsBits (profileIdc : Nat) : BitReading (Int × Int) := do
  -- the id of the set
  skipUev
  if profileIdc ∈ chromaProfiles then readChroma else pure ()
  skipUev
  readPicOrderCnt
  skipUev
  skipBit
  let picWidthInMbsMinus1 ← srsAvcNaluReadUev
  let picHeightInMapUnitsMinus1 ← srsAvcNaluReadUev
  return (pixels picWidthInMbsMinus1, pixels picHeightInMapUnitsMinus1)

def avcDemuxSpsRbsp (rbsp : List UInt8) : Except AvcError (Int × Int) :=
  match rbsp with
  | [] => .error .kernelStreamInit
  | profileIdc :: flags :: levelIdc :: rest =>
    if profileIdc = 0 then .error .hlsDecodeError
    else if flags.toNat &&& 0x03 ≠ 0 then .error .hlsDecodeError
    else if levelIdc = 0 then .error .hlsDecodeError
    else match (readSpsBits profileIdc.toNat).run (bitsOfBytes rest) with
    | .ok size _ => .ok size
    | .error e _ => .error e
  | _ => .error .hlsDecodeError

/-- The loop that drops the emulation prevention: behind two zeros a three is dropped, and the byte after it
is kept whatever it is. `taken` holds the bytes so far, the last one first. -/
def dropEmulation : List UInt8 → List UInt8 → List UInt8
  | taken, [] => taken.reverse
  | taken, b :: bytes =>
    if 2 < taken.length ∧ taken.getD 1 0 = 0 ∧ taken.getD 0 0 = 0 ∧ b = 3 then
      match bytes with
      | [] => taken.reverse
      | next :: bytes => dropEmulation (next :: taken) bytes
    else dropEmulation (b :: taken) bytes

def avcDemuxSps : List UInt8 → Except AvcError (Option (Int × Int))
  | [] => .ok none
  | nutv :: bytes =>
    -- forbidden_zero_bit
    if (nutv.toNat >>> 7) &&& 0x01 ≠ 0 then .error .hlsDecodeError
    -- nal_ref_idc
    else if (nutv.toNat >>> 5) &&& 0x03 = 0 then .error .hlsDecodeError
    else if nutv.toNat &&& 0x1f ≠ 7 then .error .hlsDecodeError
    else (avcDemuxSpsRbsp (dropEmulation [] bytes)).map some

end AdTerminal.Rtmp
