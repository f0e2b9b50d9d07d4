import AdTerminal.Library.RegisterBus
import Mathlib.Data.UInt

/-! The card reader's driver. It talks to the RC522 chip through its registers, and the chip may
answer each read with any byte. -/

namespace AdTerminal.Rfid
open RegisterBus

/-- The registers that the exchanges with a card use. -/
inductive Register where
  | commandReg
  | comIEnReg
  | comIrqReg
  | errorReg
  | status2Reg
  | fifoDataReg
  | fifoLevelReg
  | controlReg
  | bitFramingReg
  | collReg
  | txControlReg
  deriving DecidableEq, Repr

namespace Register

def address : Register → UInt8
  | commandReg => 0x01
  | comIEnReg => 0x02
  | comIrqReg => 0x04
  | errorReg => 0x06
  | status2Reg => 0x08
  | fifoDataReg => 0x09
  | fifoLevelReg => 0x0A
  | controlReg => 0x0C
  | bitFramingReg => 0x0D
  | collReg => 0x0E
  | txControlReg => 0x14

/-- The byte that `WriteRawRC` sends ahead of the data: bits 6 to 1 are the address. -/
def writeByte (addr : Register) : UInt8 := addr.address <<< 1 &&& 0x7E

/-- The byte that `ReadRawRC` sends, with bit 7 set. -/
def readByte (addr : Register) : UInt8 := (addr.address <<< 1 ||| 0x80) &&& 0xFE

/-- The bytes on the wire tell the registers apart. -/
theorem writeByte_injective : Function.Injective writeByte := by
  intro first second
  cases first <;> cases second <;> decide

theorem readByte_injective : Function.Injective readByte := by
  intro first second
  cases first <;> cases second <;> decide

end Register

abbrev Driver := Bus Register UInt8

def PCD_IDLE : UInt8 := 0x00
def PCD_AUTHENT : UInt8 := 0x0E
def PCD_TRANSCEIVE : UInt8 := 0x0C

def MI_OK : UInt8 := 0
def MI_ERR : UInt8 := 0xFE
def MI_NOTAGERR : UInt8 := 0xFF

def MAXRLEN : UInt8 := 18

def writeRawRC (addr : Register) (data : UInt8) : Driver Unit := Bus.write addr data

def readRawRC (addr : Register) : Driver UInt8 := Bus.read addr

def setBitMask (reg : Register) (mask : UInt8) : Driver Unit := do
  let tmp := (← readRawRC reg) ||| mask
  writeRawRC reg (tmp ||| mask)

def clearBitMask (reg : Register) (mask : UInt8) : Driver Unit := do
  let tmp := (← readRawRC reg) &&& ~~~mask
  writeRawRC reg tmp

/-- What an exchange returns and stores: `pOutData` are the bytes it stores there, in order, and
`pOutLenBit` is nothing as long as it is not written. -/
structure Exchange where
  status : UInt8
  pOutData : List UInt8 := []
  pOutLenBit : Option UInt32 := none
  deriving DecidableEq, Repr

/-- `(n-1)*8 + lastBits` or `n*8`, computed as an `int` and stored as an `unsigned int`. -/
def outLenBit (n lastBits : UInt8) : UInt32 :=
  if lastBits ≠ 0 then (n.toUInt32 - 1) * 8 + lastBits.toUInt32 else n.toUInt32 * 8

/-- How many bytes are taken from the FIFO at that level. -/
def outLenByte (n : UInt8) : UInt8 :=
  let n := if n = 0 then 1 else n
  if n > MAXRLEN then MAXRLEN else n

theorem toNat_outLenByte (level : UInt8) :
    (outLenByte level).toNat = if level.toNat = 0 then 1 else min level.toNat 18 := by
  by_cases none : level = 0
  · subst none
    rfl
  · have some : level.toNat ≠ 0 := fun zero => none (UInt8.toNat_inj.mp zero)
    rw [if_neg some]
    simp only [outLenByte, if_neg none]
    by_cases more : level > MAXRLEN
    · have above : 18 < level.toNat := UInt8.lt_iff_toNat_lt.mp more
      rw [if_pos more, min_eq_right above.le]
      rfl
    · have below : level.toNat ≤ 18 := UInt8.le_iff_toNat_le.mp (UInt8.not_lt.mp more)
      rw [if_neg more, min_eq_left below]

/-- The subtraction wraps around for an empty FIFO. -/
theorem toNat_outLenBit (level : UInt8) {lastBits : UInt8} (small : lastBits.toNat < 8) :
    (outLenBit level lastBits).toNat =
      if lastBits.toNat = 0 then 8 * level.toNat
      else if level.toNat = 0 then 4294967288 + lastBits.toNat
      else 8 * (level.toNat - 1) + lastBits.toNat := by
  have bound := level.toNat_lt
  unfold outLenBit
  by_cases none : lastBits = 0
  · simp [none]
    omega
  · have some : lastBits.toNat ≠ 0 := fun zero => none (UInt8.toNat_inj.mp zero)
    rw [if_pos none, if_neg some]
    simp [UInt32.toNat_add, UInt32.toNat_mul, UInt32.toNat_sub]
    split <;> omega

/-- What follows the poll, when it has not run out. `n` is the last value of the poll. -/
def receive (command irqEn n : UInt8) : Driver Exchange := do
  if (← readRawRC .errorReg) &&& 0x1B = 0 then
    let status := if n &&& irqEn &&& 0x01 ≠ 0 then MI_NOTAGERR else MI_OK
    if command = PCD_TRANSCEIVE then
      let n ← readRawRC .fifoLevelReg
      let lastBits := (← readRawRC .controlReg) &&& 0x07
      let pOutData ← Bus.readMany .fifoDataReg (outLenByte n).toNat
      pure { status, pOutData, pOutLenBit := some (outLenBit n lastBits) }
    else pure { status }
  else pure { status := MI_ERR }

/-- `irqEn` and `waitFor` of a command. -/
def interrupts (command : UInt8) : UInt8 × UInt8 :=
  if command = PCD_AUTHENT then (0x12, 0x10)
  else if command = PCD_TRANSCEIVE then (0x77, 0x30)
  else (0x00, 0x00)

/-- The poll counts down from 6000, and the first read is made in any case. -/
def pcdComMF522 (command : UInt8) (pInData : Nat → UInt8) (inLenByte : UInt8) : Driver Exchange := do
  let irqEn := (interrupts command).1
  let waitFor := (interrupts command).2
  writeRawRC .comIEnReg (irqEn ||| 0x80)
  clearBitMask .comIrqReg 0x80
  writeRawRC .commandReg PCD_IDLE
  setBitMask .fifoLevelReg 0x80
  Bus.writeMany .fifoDataReg ((List.range inLenByte.toNat).map pInData)
  writeRawRC .commandReg command
  (if command = PCD_TRANSCEIVE then setBitMask .bitFramingReg 0x80 else pure ())
  let (n, i) ← Bus.poll .comIrqReg (fun n => n &&& 0x01 ≠ 0 ∨ n &&& waitFor ≠ 0) 5999
  clearBitMask .bitFramingReg 0x80
  let exchange ← (if i ≠ 0 then receive command irqEn n else pure { status := MI_ERR })
  setBitMask .controlReg 0x80
  writeRawRC .commandReg PCD_IDLE
  pure exchange

end AdTerminal.Rfid
