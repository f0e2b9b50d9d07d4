import AdTerminal.Rtmp.ChunkStreams
import AdTerminal.Rtmp.SrsProtocol
import Mathlib.Tactic.IntervalCases

/-! What the reader does with one chunk that a peer sends, function by function. -/

namespace AdTerminal.Rtmp

open BigEndian Simulation

namespace SrsProtocol

/-- The reader with these bytes still to come. -/
def atBytes (p : SrsProtocol Wire) (bytes : List UInt8) : SrsProtocol Wire :=
  { p with inBuffer := ⟨bytes⟩ }

def setChunk {β : Type} (p : SrsProtocol β) (cid : Nat) (chunk : SrsChunkStream) : SrsProtocol β :=
  { p with chunkStreams := Function.update p.chunkStreams cid chunk }

@[simp] theorem atBytes_atBytes (p : SrsProtocol Wire) (bytes more : List UInt8) :
    (p.atBytes bytes).atBytes more = p.atBytes more := rfl

@[simp] theorem chunkStreams_atBytes (p : SrsProtocol Wire) (bytes : List UInt8) :
    (p.atBytes bytes).chunkStreams = p.chunkStreams := rfl

@[simp] theorem inChunkSize_atBytes (p : SrsProtocol Wire) (bytes : List UInt8) :
    (p.atBytes bytes).inChunkSize = p.inChunkSize := rfl

@[simp] theorem inChunkSize_setChunk {β : Type} (p : SrsProtocol β) (cid : Nat) (chunk : SrsChunkStream) :
    (p.setChunk cid chunk).inChunkSize = p.inChunkSize := rfl

@[simp] theorem responses_atBytes (p : SrsProtocol Wire) (bytes : List UInt8) :
    (p.atBytes bytes).responses = p.responses := rfl

@[simp] theorem responses_setChunk {β : Type} (p : SrsProtocol β) (cid : Nat) (chunk : SrsChunkStream) :
    (p.setChunk cid chunk).responses = p.responses := rfl

@[simp] theorem inBuffer_setChunk {β : Type} (p : SrsProtocol β) (cid : Nat) (chunk : SrsChunkStream) :
    (p.setChunk cid chunk).inBuffer = p.inBuffer := rfl

@[simp] theorem chunkStreams_setChunk_self {β : Type} (p : SrsProtocol β) (cid : Nat) (chunk : SrsChunkStream) :
    (p.setChunk cid chunk).chunkStreams cid = chunk :=
  Function.update_self ..

theorem chunkStreams_setChunk_ne {β : Type} (p : SrsProtocol β) {cid other : Nat} (different : other ≠ cid)
    (chunk : SrsChunkStream) : (p.setChunk cid chunk).chunkStreams other = p.chunkStreams other :=
  Function.update_of_ne different ..

@[simp] theorem setChunk_setChunk {β : Type} (p : SrsProtocol β) (cid : Nat) (chunk chunk' : SrsChunkStream) :
    (p.setChunk cid chunk).setChunk cid chunk' = p.setChunk cid chunk' := by
  simp only [setChunk, Function.update_idem]

@[simp] theorem setChunk_atBytes (p : SrsProtocol Wire) (cid : Nat) (chunk : SrsChunkStream) (bytes : List UInt8) :
    (p.atBytes bytes).setChunk cid chunk = (p.setChunk cid chunk).atBytes bytes := rfl

end SrsProtocol

section Primitives

variable {β : Type}

@[simp] theorem run_getChunk (cid : Nat) (p : SrsProtocol β) :
    (getChunk cid).run p = .ok (p.chunkStreams cid) p := rfl

@[simp] theorem run_getInChunkSize (p : SrsProtocol β) : getInChunkSize.run p = .ok p.inChunkSize p := rfl

@[simp] theorem run_modifyChunk (cid : Nat) (f : SrsChunkStream → SrsChunkStream) (p : SrsProtocol β) :
    (modifyChunk cid f).run p = .ok () (p.setChunk cid (f (p.chunkStreams cid))) := rfl

@[simp] theorem run_throw {α : Type} (e : SrsError) (p : SrsProtocol β) :
    (throw e : Reading β α).run p = .error e p := rfl

end Primitives

theorem readSlice_atBytes {n : Nat} {bytes : List UInt8} (long : bytes.length = n) (p : SrsProtocol Wire)
    (rest : List UInt8) : (readSlice n).run (p.atBytes (bytes ++ rest)) = .ok bytes (p.atBytes rest) := by
  subst long
  simp [readSlice, onBuffer, ByteSource.read, SrsProtocol.atBytes, EStateM.run]

theorem peekSlice_atBytes {n : Nat} {bytes : List UInt8} (long : bytes.length = n) (p : SrsProtocol Wire)
    (rest : List UInt8) :
    (peekSlice n).run (p.atBytes (bytes ++ rest)) = .ok bytes (p.atBytes (bytes ++ rest)) := by
  subst long
  simp [peekSlice, onBuffer, ByteSource.peek, SrsProtocol.atBytes, EStateM.run]

theorem read1Byte_atBytes (b : UInt8) (p : SrsProtocol Wire) (rest : List UInt8) :
    read1Byte.run (p.atBytes (b :: rest)) = .ok b (p.atBytes rest) := by
  have slice := @readSlice_atBytes 1 [b] rfl p rest
  rw [List.singleton_append] at slice
  rw [read1Byte, bind_ok slice]
  rfl

/-- Bytes that are there are read; where there are too few of them, the read fails and they stay. -/
theorem readSlice_short {n : Nat} {p : SrsProtocol Wire} (short : p.inBuffer.bytes.length < n) :
    (readSlice n).run p = .error .socketRead p := by
  have few : ¬ n ≤ p.inBuffer.bytes.length := by omega
  simp [readSlice, onBuffer, ByteSource.read, EStateM.run, if_neg few]

/-- The two bits of the kind and the six of the id in one byte. -/
theorem basicByte {fmt low : Nat} (kinds : fmt < 4) (small : low < 64) :
    (UInt8.ofNat (fmt * 64 + low)).toNat &&& 0x3f = low ∧ ((UInt8.ofNat (fmt * 64 + low)).toNat >>> 6) &&& 0x03 = fmt := by
  have byte : (UInt8.ofNat (fmt * 64 + low)).toNat = fmt * 64 + low := by
    rw [UInt8.toNat_ofNat', Nat.mod_eq_of_lt (by omega)]
  have low6 : ∀ n : Nat, n &&& 0x3f = n % 64 := fun n => Nat.and_two_pow_sub_one_eq_mod n 6
  have low2 : ∀ n : Nat, n &&& 0x03 = n % 4 := fun n => Nat.and_two_pow_sub_one_eq_mod n 2
  rw [byte, low6, low2, Nat.shiftRight_eq_div_pow]
  omega

theorem readBasicHeader_atBytes {fmt cid : Nat} (kinds : fmt < 4) (least : 2 ≤ cid) (most : cid < 65600)
    (p : SrsProtocol Wire) (rest : List UInt8) :
    readBasicHeader.run (p.atBytes (basicHeader fmt cid ++ rest)) = .ok (fmt, cid) (p.atBytes rest) := by
  unfold readBasicHeader basicHeader
  by_cases one : cid < 64
  · obtain ⟨low, high⟩ := basicByte kinds one
    rw [if_pos one, List.singleton_append, bind_ok (read1Byte_atBytes ..)]
    rw [low, high, if_pos (by omega)]
    rfl
  rw [if_neg one]
  by_cases two : cid < 320
  · obtain ⟨low, high⟩ := @basicByte fmt 0 kinds (by decide)
    rw [Nat.add_zero] at low high
    have byte : (UInt8.ofNat (cid - 64)).toNat = cid - 64 := by
      rw [UInt8.toNat_ofNat', Nat.mod_eq_of_lt (by omega)]
    rw [if_pos two, List.cons_append, List.singleton_append, bind_ok (read1Byte_atBytes ..)]
    rw [low, high, if_neg (by decide), if_pos rfl, bind_ok (read1Byte_atBytes ..), byte]
    exact congrArg (fun cid => EStateM.Result.ok (fmt, cid) _) (by omega)
  · obtain ⟨low, high⟩ := @basicByte fmt 1 kinds (by decide)
    have first : (UInt8.ofNat (cid - 64)).toNat = (cid - 64) % 256 := UInt8.toNat_ofNat'
    have second : (UInt8.ofNat ((cid - 64) / 256)).toNat = (cid - 64) / 256 := by
      rw [UInt8.toNat_ofNat', Nat.mod_eq_of_lt (by omega)]
    have slice := @readSlice_atBytes 2 [UInt8.ofNat (cid - 64), UInt8.ofNat ((cid - 64) / 256)] rfl p rest
    rw [if_neg two, List.cons_append, bind_ok (read1Byte_atBytes ..)]
    rw [low, high, if_neg (by decide), if_neg (by decide), bind_ok slice]
    simp only [List.headD_cons, List.getD_cons_succ, List.getD_cons_zero, first, second, EStateM.run_pure]
    exact congrArg (fun cid => EStateM.Result.ok (fmt, cid) _) (by omega)

end AdTerminal.Rtmp
