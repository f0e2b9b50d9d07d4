import AdTerminal.Rfid.CardNumber

/-! The id made of a card number. The operators bind otherwise than the formula is written. -/

namespace AdTerminal.Rfid

/-- The sum as Java reads it, of the bytes from the one of highest weight. A mask is shifted before
it meets its byte, and the last one meets the sum. -/
def idOfBytes (b₀ b₁ b₂ b₃ : Int8) : Int32 :=
  ((b₀.toInt32 &&& ((0xff : Int32) <<< 24)) + (b₁.toInt32 &&& ((0xff : Int32) <<< 16)) +
    (b₂.toInt32 &&& ((0xff : Int32) <<< 8)) + b₃.toInt32) &&& 0xff

/-- Of what `ReadCardNum` returns. -/
def getRfidId (readCardNum : Option (Vector Int8 4)) (isBigEndian : Bool) : Int64 :=
  match readCardNum with
  | none => 0
  | some bytes =>
    if isBigEndian then (idOfBytes bytes[0] bytes[1] bytes[2] bytes[3]).toInt64
    else (idOfBytes bytes[3] bytes[2] bytes[1] bytes[0]).toInt64

/-- A byte taken as 0..255. -/
def byteValue (byte : Int8) : Nat := byte.toUInt8.toNat

/-- The bytes from the one of highest weight. -/
def byWeight (isBigEndian : Bool) (bytes : Vector Int8 4) : Vector Int8 4 :=
  if isBigEndian then bytes else bytes.reverse

/-- The number that the bytes are the digits of. -/
def numberOf (digits : Vector Int8 4) : Nat :=
  byteValue digits[0] * 2 ^ 24 + byteValue digits[1] * 2 ^ 16 + byteValue digits[2] * 2 ^ 8 + byteValue digits[3]

theorem byteValue_inj {byte other : Int8} : byteValue byte = byteValue other ↔ byte = other := by
  constructor
  · intro same
    exact Int8.toBitVec_inj.mp (BitVec.eq_of_toNat_eq same)
  · exact congrArg byteValue

theorem byteValue_eq_zero {byte : Int8} : byteValue byte = 0 ↔ byte = 0 := @byteValue_inj byte 0

/-- A sign-extended byte keeps its eight low bits. -/
theorem toInt32_mod (byte : Int8) : byte.toInt32.toBitVec.toNat % 256 = byteValue byte := by
  have kept : (byte.toBitVec.signExtend 32).setWidth 8 = byte.toBitVec := by grind
  have low := congrArg BitVec.toNat kept
  rwa [BitVec.toNat_setWidth] at low

/-- A mask that is shifted by eight or more takes the low bits away. -/
theorem masked_mod (value mask : Int32) (shifted : mask.toBitVec.toNat % 256 = 0) :
    (value &&& mask).toBitVec.toNat % 256 = 0 := by
  rw [Int32.toBitVec_and, BitVec.toNat_and, show 256 = 2 ^ 8 from rfl, Nat.and_mod_two_pow]
  exact (congrArg _ shifted).trans (Nat.and_zero _)

theorem toInt_and_0xff (value : Int32) : (value &&& 0xff).toInt = value.toBitVec.toNat % 256 := by
  have low : (value &&& 0xff).toBitVec.toNat = value.toBitVec.toNat % 256 := by
    rw [Int32.toBitVec_and, BitVec.toNat_and]
    exact Nat.and_two_pow_sub_one_eq_mod _ 8
  rw [← Int32.toInt_toBitVec, BitVec.toInt_eq_toNat_of_lt, low]
  · rfl
  · omega

/-- Only the last byte is left. -/
theorem toInt_idOfBytes (b₀ b₁ b₂ b₃ : Int8) : (idOfBytes b₀ b₁ b₂ b₃).toInt = byteValue b₃ := by
  have high := masked_mod b₀.toInt32 ((0xff : Int32) <<< 24) (by decide)
  have middle := masked_mod b₁.toInt32 ((0xff : Int32) <<< 16) (by decide)
  have low := masked_mod b₂.toInt32 ((0xff : Int32) <<< 8) (by decide)
  have last := toInt32_mod b₃
  rw [idOfBytes, toInt_and_0xff]
  simp only [Int32.toBitVec_add, BitVec.toNat_add]
  omega

theorem toInt_getRfidId (bytes : Vector Int8 4) (isBigEndian : Bool) :
    (getRfidId (some bytes) isBigEndian).toInt = byteValue (byWeight isBigEndian bytes)[3] := by
  cases isBigEndian
  · simp [getRfidId, byWeight, toInt_idOfBytes]
  · exact (Int32.toInt_toInt64 _).trans (toInt_idOfBytes _ _ _ _)

theorem byWeight_reverse (bytes : Vector Int8 4) (isBigEndian : Bool) :
    byWeight isBigEndian bytes.reverse = byWeight (!isBigEndian) bytes := by
  cases isBigEndian
  · exact Vector.reverse_reverse bytes
  · rfl

/-- The id is the number that the bytes are the digits of. -/
def Decodes (bytes : Vector Int8 4) (isBigEndian : Bool) : Prop :=
  (getRfidId (some bytes) isBigEndian).toInt = numberOf (byWeight isBigEndian bytes)

/-- Different numbers get different ids. -/
def Separates (bytes other : Vector Int8 4) (isBigEndian : Bool) : Prop :=
  bytes ≠ other → getRfidId (some bytes) isBigEndian ≠ getRfidId (some other) isBigEndian

theorem decodes_iff (bytes : Vector Int8 4) (isBigEndian : Bool) : Decodes bytes isBigEndian ↔
    (byWeight isBigEndian bytes)[0] = 0 ∧ (byWeight isBigEndian bytes)[1] = 0 ∧ (byWeight isBigEndian bytes)[2] = 0 := by
  rw [Decodes, toInt_getRfidId, numberOf, ← byteValue_eq_zero, ← byteValue_eq_zero, ← byteValue_eq_zero]
  omega

theorem getRfidId_eq_iff (bytes other : Vector Int8 4) (isBigEndian : Bool) :
    getRfidId (some bytes) isBigEndian = getRfidId (some other) isBigEndian ↔
      (byWeight isBigEndian bytes)[3] = (byWeight isBigEndian other)[3] := by
  rw [← Int64.toInt_inj, toInt_getRfidId, toInt_getRfidId, Nat.cast_inj, byteValue_inj]

/-- For every card number and both orders: the id is the number exactly if the three bytes of higher
weight are zero, two numbers are told apart exactly if they differ in the byte of lowest weight, and
to reverse the bytes always exchanges the two ids. -/
theorem getRfidId_decodes_iff (bytes other : Vector Int8 4) (isBigEndian : Bool) :
    (Decodes bytes isBigEndian ↔ (byWeight isBigEndian bytes)[0] = 0 ∧ (byWeight isBigEndian bytes)[1] = 0 ∧
        (byWeight isBigEndian bytes)[2] = 0) ∧
      (Separates bytes other isBigEndian ↔
        bytes = other ∨ (byWeight isBigEndian bytes)[3] ≠ (byWeight isBigEndian other)[3]) ∧
      getRfidId (some bytes.reverse) isBigEndian = getRfidId (some bytes) (!isBigEndian) := by
  refine ⟨decodes_iff bytes isBigEndian, ?_, ?_⟩
  · rw [Separates, Ne, Ne, getRfidId_eq_iff]
    exact not_imp_comm.trans (by tauto)
  · rw [← Int64.toInt_inj, toInt_getRfidId, toInt_getRfidId, byWeight_reverse]

/-- Cards of different numbers get the id 120, which is neither number. -/
theorem same_id : getRfidId (some #v[0x12, 0x34, 0x56, 0x78]) true = 120 ∧
    getRfidId (some #v[0, 0, 0, 0x78]) true = 120 ∧ ¬ Decodes #v[0x12, 0x34, 0x56, 0x78] true ∧
      ¬ Separates #v[0x12, 0x34, 0x56, 0x78] #v[0, 0, 0, 0x78] true := by
  unfold Decodes Separates
  decide +kernel

end AdTerminal.Rfid
