import Mathlib.Data.Nat.Bitwise

/-! Numbers written as a fixed number of bytes, the most significant byte first. -/

namespace AdTerminal.BigEndian

/-- The low `width` bytes of a number. -/
def bigEndian : Nat → Nat → List UInt8
  | 0, _ => []
  | width + 1, n => UInt8.ofNat (n / 256 ^ width) :: bigEndian width n

/-- The number that the bytes spell. -/
def ofBigEndian : List UInt8 → Nat
  | [] => 0
  | b :: bytes => b.toNat * 256 ^ bytes.length + ofBigEndian bytes

/-- The same bytes, the least significant one first. -/
def littleEndian (width n : Nat) : List UInt8 :=
  (bigEndian width n).reverse

def ofLittleEndian (bytes : List UInt8) : Nat :=
  ofBigEndian bytes.reverse

@[simp] theorem length_bigEndian (width n : Nat) : (bigEndian width n).length = width := by
  induction width with
  | zero => rfl
  | succ width ih => rw [bigEndian, List.length_cons, ih]

@[simp] theorem length_littleEndian (width n : Nat) : (littleEndian width n).length = width := by
  rw [littleEndian, List.length_reverse, length_bigEndian]

/-- Reading back keeps the low bytes of the number. -/
@[simp] theorem ofBigEndian_bigEndian (width n : Nat) : ofBigEndian (bigEndian width n) = n % 256 ^ width := by
  induction width with
  | zero => rw [Nat.pow_zero, Nat.mod_one]; rfl
  | succ width ih =>
    have byte : (UInt8.ofNat (n / 256 ^ width)).toNat = n / 256 ^ width % 256 := UInt8.toNat_ofNat'
    have split := @Nat.mod_mul (256 ^ width) 256 n
    rw [bigEndian, ofBigEndian, length_bigEndian, ih, byte, pow_succ, split, Nat.mul_comm, Nat.add_comm]

@[simp] theorem ofLittleEndian_littleEndian (width n : Nat) :
    ofLittleEndian (littleEndian width n) = n % 256 ^ width := by
  rw [ofLittleEndian, littleEndian, List.reverse_reverse, ofBigEndian_bigEndian]

theorem ofBigEndian_bigEndian_of_lt {width n : Nat} (small : n < 256 ^ width) :
    ofBigEndian (bigEndian width n) = n := by
  rw [ofBigEndian_bigEndian, Nat.mod_eq_of_lt small]

theorem ofLittleEndian_littleEndian_of_lt {width n : Nat} (small : n < 256 ^ width) :
    ofLittleEndian (littleEndian width n) = n := by
  rw [ofLittleEndian_littleEndian, Nat.mod_eq_of_lt small]

end AdTerminal.BigEndian
