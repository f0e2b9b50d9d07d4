import AdTerminal.Rfid.Rc522

/-! One exchange with the chip: how it ends, and whether the length it reports is that of the bytes
it has stored. -/

namespace AdTerminal.Rfid
open RegisterBus Bus

variable {chip : Chip Register UInt8}

theorem and_or_self (value mask : UInt8) : (value ||| mask) &&& mask = mask := by
  rw [← UInt8.toBitVec_inj]
  ext i
  simp only [UInt8.toBitVec_and, UInt8.toBitVec_or, BitVec.getElem_and, BitVec.getElem_or]
  cases value.toBitVec[i] <;> cases mask.toBitVec[i] <;> rfl

theorem and_not_and (value mask : UInt8) : value &&& ~~~mask &&& mask = 0 := by
  rw [← UInt8.toBitVec_inj]
  ext i
  simp only [UInt8.toBitVec_and, UInt8.toBitVec_not, BitVec.getElem_and, BitVec.getElem_not]
  cases value.toBitVec[i] <;> cases mask.toBitVec[i] <;> simp

theorem adds_readRawRC (addr : Register) : Adds chip (readRawRC addr) fun value log => log = [.read addr value] :=
  (Adds.read addr).imp fun _ _ asked => asked.1

theorem adds_writeRawRC (addr : Register) (data : UInt8) :
    Adds chip (writeRawRC addr data) fun _ log => log = [.write addr data] :=
  Adds.write addr data

theorem adds_setBitMask (reg : Register) (mask : UInt8) : Adds chip (setBitMask reg mask) fun _ log =>
    ∃ value, log = [.read reg value, .write reg (value ||| mask)] := by
  refine (adds_readRawRC reg).bind fun value _ first => (adds_writeRawRC reg _).imp fun _ _ second => ⟨value, ?_⟩
  have twice : value ||| mask ||| mask = value ||| mask := by rw [UInt8.or_assoc, UInt8.or_self]
  rw [first, second, twice]
  rfl

theorem adds_clearBitMask (reg : Register) (mask : UInt8) : Adds chip (clearBitMask reg mask) fun _ log =>
    ∃ value, log = [.read reg value, .write reg (value &&& ~~~mask)] := by
  refine (adds_readRawRC reg).bind fun value _ first => (adds_writeRawRC reg _).imp fun _ _ second => ⟨value, ?_⟩
  rw [first, second]
  rfl

/-- The three ways through the receive part. -/
inductive Received (command irqEn n : UInt8) : Exchange → Log Register UInt8 → Prop
  | failed (error : UInt8) (errors : error &&& 0x1B ≠ 0) :
    Received command irqEn n { status := MI_ERR } [.read .errorReg error]
  | silent (error : UInt8) (clear : error &&& 0x1B = 0) (other : command ≠ PCD_TRANSCEIVE) :
    Received command irqEn n { status := if n &&& irqEn &&& 0x01 ≠ 0 then MI_NOTAGERR else MI_OK }
      [.read .errorReg error]
  | stored (error level control : UInt8) (pOutData : List UInt8) (clear : error &&& 0x1B = 0)
    (transceive : command = PCD_TRANSCEIVE) (length : pOutData.length = (outLenByte level).toNat) :
    Received command irqEn n
      { status := if n &&& irqEn &&& 0x01 ≠ 0 then MI_NOTAGERR else MI_OK
        pOutData
        pOutLenBit := some (outLenBit level (control &&& 0x07)) }
      (.read .errorReg error :: .read .fifoLevelReg level :: .read .controlReg control ::
        pOutData.map (.read .fifoDataReg))

theorem adds_receive (command irqEn n : UInt8) : Adds chip (receive command irqEn n) (Received command irqEn n) := by
  refine (adds_readRawRC .errorReg).bind fun error _ asked => ?_
  subst asked
  refine .ite (fun clear => .ite (fun transceive => ?_) fun other => ?_) fun errors => ?_
  · refine (adds_readRawRC .fifoLevelReg).bind fun level _ first => ?_
    refine (adds_readRawRC .controlReg).bind fun control _ second => ?_
    refine (Adds.readMany Register.fifoDataReg _).bind fun pOutData _ third => .pure ?_
    obtain ⟨length, rfl⟩ := third
    subst first second
    simpa using Received.stored error level control pOutData clear transceive length
  · exact .pure (.silent error clear other)
  · exact .pure (.failed error errors)

/-- An exchange: the preparation, the poll, what is received, and the end. -/
inductive Exchanged (chip : Chip Register UInt8) (command : UInt8) (frame : List UInt8) (exchange : Exchange) :
    Log Register UInt8 → Prop
  | ran (irq fifo framing control n : UInt8) (started tail : Log Register UInt8) (polls : List UInt8)
    (starts : started = [] ∨ ∃ value, started = [.read .bitFramingReg value, .write .bitFramingReg (value ||| 0x80)])
    (polled : polls.length ≤ 6000)
    (answered : Answers chip .comIrqReg n)
    (ends : exchange = { status := MI_ERR } ∧ tail = [] ∧ polls.length = 6000 ∨
      (n &&& 0x01 ≠ 0 ∨ n &&& (interrupts command).2 ≠ 0) ∧ Received command (interrupts command).1 n exchange tail) :
    Exchanged chip command frame exchange
      ([.write .comIEnReg ((interrupts command).1 ||| 0x80), .read .comIrqReg irq,
          .write .comIrqReg (irq &&& ~~~0x80), .write .commandReg PCD_IDLE, .read .fifoLevelReg fifo,
          .write .fifoLevelReg (fifo ||| 0x80)] ++ frame.map (.write .fifoDataReg) ++ [.write .commandReg command] ++
        started ++ polls.map (.read .comIrqReg) ++
        [.read .bitFramingReg framing, .write .bitFramingReg (framing &&& ~~~0x80)] ++ tail ++
        [.read .controlReg control, .write .controlReg (control ||| 0x80), .write .commandReg PCD_IDLE])

theorem adds_pcdComMF522 (command : UInt8) (pInData : Nat → UInt8) (inLenByte : UInt8) :
    Adds chip (pcdComMF522 command pInData inLenByte)
      (Exchanged chip command ((List.range inLenByte.toNat).map pInData)) := by
  refine (adds_writeRawRC .comIEnReg _).bind fun _ _ enabled => ?_
  refine (adds_clearBitMask .comIrqReg 0x80).bind fun _ _ cleared => ?_
  refine (adds_writeRawRC .commandReg _).bind fun _ _ idle => ?_
  refine (adds_setBitMask .fifoLevelReg 0x80).bind fun _ _ flushed => ?_
  refine (Adds.writeMany Register.fifoDataReg _).bind fun _ _ filled => ?_
  refine (adds_writeRawRC .commandReg command).bind fun _ _ commanded => ?_
  have starting : Adds chip (if command = PCD_TRANSCEIVE then setBitMask .bitFramingReg 0x80 else pure ()) fun _ log =>
      log = [] ∨ ∃ value, log = [.read .bitFramingReg value, .write .bitFramingReg (value ||| 0x80)] :=
    .ite (fun _ => (adds_setBitMask _ _).imp fun _ _ set => Or.inr set) fun _ => .pure (Or.inl rfl)
  refine starting.bind fun _ _ starts => ?_
  refine (Adds.poll Register.comIrqReg _ 5999).bind fun (n, i) _ polled => ?_
  refine (adds_clearBitMask .bitFramingReg 0x80).bind fun _ _ stopped => ?_
  have receiving : Adds chip (if i ≠ 0 then receive command (interrupts command).1 n else pure { status := MI_ERR })
      fun exchange tail => exchange = { status := MI_ERR } ∧ tail = [] ∧ i = 0 ∨
        i ≠ 0 ∧ Received command (interrupts command).1 n exchange tail :=
    .ite (fun left => (adds_receive _ _ _).imp fun _ _ received => Or.inr ⟨left, received⟩)
      fun none => .pure (Or.inl ⟨rfl, rfl, not_not.mp none⟩)
  refine receiving.bind fun exchange tail ends => ?_
  refine (adds_setBitMask .controlReg 0x80).bind fun _ _ halted => ?_
  refine (adds_writeRawRC .commandReg _).bind fun _ _ off => .pure ?_
  obtain ⟨irq, rfl⟩ := cleared
  obtain ⟨fifo, rfl⟩ := flushed
  obtain ⟨polls, rfl, length, answered, enough⟩ := polled
  obtain ⟨framing, rfl⟩ := stopped
  obtain ⟨control, rfl⟩ := halted
  subst enabled idle filled commanded off
  have ends' := ends.imp (fun (out : _ ∧ _ ∧ i = 0) => (⟨out.1, out.2.1, by omega⟩ : _ ∧ _ ∧ polls.length = 6000))
    fun received => (⟨of_decide_eq_true (enough received.1), received.2⟩ : _ ∧ _)
  have ran := @Exchanged.ran chip command ((List.range inLenByte.toNat).map pInData) exchange irq fifo framing control n
    _ tail polls starts (by omega) answered ends'
  simpa only [List.append_assoc, List.cons_append, List.nil_append, List.append_nil] using ran

section
variable {command irqEn n : UInt8} {frame : List UInt8} {exchange : Exchange} {ran : Log Register UInt8}

theorem outLenByte_le (level : UInt8) : (outLenByte level).toNat ≤ 18 := by
  rw [toNat_outLenByte]
  split
  next => decide
  next => exact min_le_right _ _

theorem Received.length_le (received : Received command irqEn n exchange ran) : exchange.pOutData.length ≤ 18 := by
  cases received with
  | failed => exact Nat.zero_le _
  | silent => exact Nat.zero_le _
  | stored error level control pOutData clear transceive length => exact length.trans_le (outLenByte_le level)

/-- The receive part writes nothing, and does not look at the interrupts. -/
theorem Received.quiet (received : Received command irqEn n exchange ran) (reg : Register) :
    writesTo reg ran = [] ∧ readsOf .comIrqReg ran = [] := by
  cases received with
  | failed => exact ⟨rfl, rfl⟩
  | silent => exact ⟨rfl, rfl⟩
  | stored error level control pOutData =>
    exact ⟨writesTo_map_read pOutData, by simp [readsOf_map_read]⟩

theorem Exchanged.length_le (exchanged : Exchanged chip command frame exchange ran) : exchange.pOutData.length ≤ 18 := by
  obtain ⟨_, _, _, _, _, _, _, _, _, _, _, ends⟩ := exchanged
  rcases ends with ⟨rfl, _⟩ | ⟨_, received⟩
  · exact Nat.zero_le _
  · exact received.length_le

/-- The interrupts are read once to clear them, and then polled until one is on or the count is
down. -/
theorem Exchanged.polls (exchanged : Exchanged chip command frame exchange ran) :
    ∃ cleared polls, readsOf .comIrqReg ran = cleared :: polls ∧ polls.length ≤ 6000 ∧
      ∃ n, Answers chip .comIrqReg n ∧
        (polls.length = 6000 ∨ n &&& 0x01 ≠ 0 ∨ n &&& (interrupts command).2 ≠ 0) := by
  obtain ⟨irq, fifo, framing, control, n, started, tail, polls, starts, polled, answered, ends⟩ := exchanged
  have started_none : readsOf .comIrqReg started = [] := by
    rcases starts with rfl | ⟨value, rfl⟩ <;> rfl
  have tail_none : readsOf .comIrqReg tail = [] := by
    rcases ends with ⟨_, rfl, _⟩ | ⟨_, received⟩
    · rfl
    · exact (received.quiet .comIrqReg).2
  refine ⟨irq, polls, ?_, polled, n, answered, ends.imp (fun out => out.2.2) fun received => received.1⟩
  simp [readsOf_map_read, readsOf_map_write, started_none, tail_none]

/-- The last writes, whatever was received. -/
theorem Exchanged.last_writes (exchanged : Exchanged chip command frame exchange ran) :
    (writesTo .commandReg ran).getLast? = some PCD_IDLE ∧
      (∃ value, (writesTo .bitFramingReg ran).getLast? = some (value &&& ~~~0x80)) ∧
      ∃ value, (writesTo .controlReg ran).getLast? = some (value ||| 0x80) := by
  obtain ⟨irq, fifo, framing, control, n, started, tail, polls, starts, polled, answered, ends⟩ := exchanged
  have tail_none : ∀ reg, writesTo reg tail = [] := by
    intro reg
    rcases ends with ⟨_, rfl, _⟩ | ⟨_, received⟩
    · rfl
    · exact (received.quiet reg).1
  refine ⟨?_, ⟨framing, ?_⟩, control, ?_⟩ <;>
    simp [writesTo_map_read, tail_none, List.getLast?_cons, List.getLast?_append]

end

/-- The end of an exchange: a bounded poll, a bounded buffer, the chip idle, no transmission
going on and the timer stopped. -/
structure EndsIdle (limit : Nat) (exchange : Exchange) (ran : Log Register UInt8) : Prop where
  reads : (readsOf .comIrqReg ran).length ≤ limit
  stores : exchange.pOutData.length ≤ 18
  idle : (writesTo .commandReg ran).getLast? = some PCD_IDLE
  sent : ∃ value, (writesTo .bitFramingReg ran).getLast? = some value ∧ value &&& 0x80 = 0
  halted : ∃ value, (writesTo .controlReg ran).getLast? = some value ∧ value &&& 0x80 = 0x80

/-- Whatever the chip answers, the exchange ends, with at most 6000 reads after the one that
clears the interrupts, and leaves the chip idle. -/
theorem pcdComMF522_ends_idle (chip : Chip Register UInt8) (log : Log Register UInt8) (command : UInt8)
    (pInData : Nat → UInt8) (inLenByte : UInt8) :
    EndsIdle 6001 ((pcdComMF522 command pInData inLenByte).result chip log)
        ((pcdComMF522 command pInData inLenByte).added chip log) ∧
      ∃ cleared polls, readsOf .comIrqReg ((pcdComMF522 command pInData inLenByte).added chip log) = cleared :: polls ∧
        polls.length ≤ 6000 := by
  have exchanged := @adds_pcdComMF522 chip command pInData inLenByte log
  obtain ⟨cleared, polls, reads, polled, _⟩ := exchanged.polls
  obtain ⟨idle, ⟨framing, sent⟩, control, halted⟩ := exchanged.last_writes
  refine ⟨⟨?_, exchanged.length_le, idle, ⟨_, sent, and_not_and _ _⟩, _, halted, and_or_self _ _⟩,
    cleared, polls, reads, polled⟩
  rw [reads, List.length_cons]
  exact Nat.succ_le_succ polled

/-- The request of `PcdRequest`, to a chip that never interrupts. -/
theorem silent_reads_more : ¬ EndsIdle 6000 ((pcdComMF522 PCD_TRANSCEIVE (fun _ => 0x52) 1).result (fun _ _ => 0) [])
    ((pcdComMF522 PCD_TRANSCEIVE (fun _ => 0x52) 1).added (fun _ _ => 0) []) := by
  intro ends
  have few := ends.reads
  have exchanged := @adds_pcdComMF522 (fun _ _ => 0) PCD_TRANSCEIVE (fun _ => 0x52) 1 []
  obtain ⟨cleared, polls, reads, polled, n, ⟨_, answered⟩, ran_out⟩ := exchanged.polls
  have zero : n = 0 := answered.symm
  subst zero
  have all : polls.length = 6000 := ran_out.resolve_right (by decide)
  rw [reads, List.length_cons, all] at few
  omega

/-- The level of the FIFO that the chip reports when the receive part asks for it. -/
def reportedLevel (ran : Log Register UInt8) : UInt8 := (readsOf .fifoLevelReg ran).getLastD 0

/-- The number of valid bits in the last byte, as the chip reports it to the receive part. -/
def reportedBits (ran : Log Register UInt8) : UInt8 := (readsOf .controlReg ran).headD 0 &&& 0x07

/-- The length that is written is one of bytes that were received. -/
def LengthMatches (exchange : Exchange) (ran : Log Register UInt8) : Prop :=
  ∃ bits, exchange.pOutLenBit = some bits ∧ bits.toNat ≤ 8 * (readsOf .fifoDataReg ran).length

theorem outLenBit_le_iff (level : UInt8) {lastBits : UInt8} (small : lastBits.toNat < 8) :
    (outLenBit level lastBits).toNat ≤ 8 * (outLenByte level).toNat ↔ level ≤ 18 ∧ (level = 0 → lastBits = 0) := by
  have bound := level.toNat_lt
  rw [toNat_outLenByte, toNat_outLenBit level small, UInt8.le_iff_toNat_le, ← UInt8.toNat_inj, ← UInt8.toNat_inj]
  show _ ↔ level.toNat ≤ 18 ∧ (level.toNat = 0 → lastBits.toNat = 0)
  split <;> split <;> omega

/-- An exchange that returns `MI_OK` has received something, if it is a transceive. -/
theorem Exchanged.stored {frame : List UInt8} {exchange : Exchange} {ran : Log Register UInt8}
    (exchanged : Exchanged chip PCD_TRANSCEIVE frame exchange ran) (ok : exchange.status = MI_OK) :
    exchange.pOutLenBit = some (outLenBit (reportedLevel ran) (reportedBits ran)) ∧
      readsOf .fifoDataReg ran = exchange.pOutData ∧
      exchange.pOutData.length = (outLenByte (reportedLevel ran)).toNat := by
  obtain ⟨irq, fifo, framing, control, n, started, tail, polls, starts, polled, answered, ends⟩ := exchanged
  have started_none : ∀ reg, reg ≠ .bitFramingReg → readsOf reg started = [] := by
    intro reg other
    rcases starts with rfl | ⟨value, rfl⟩
    · rfl
    · simp [other.symm]
  rcases ends with ⟨rfl, _⟩ | ⟨_, received⟩
  · exact absurd ok (by decide)
  · cases received with
    | failed => exact absurd ok (by decide)
    | silent _ _ other => exact absurd rfl other
    | stored error level control' pOutData clear transceive length =>
      refine ⟨?_, ?_, ?_⟩ <;>
        simp [reportedLevel, reportedBits, readsOf_map_read, readsOf_map_write, started_none, length]

theorem reportedBits_lt (ran : Log Register UInt8) : (reportedBits ran).toNat < 8 := by
  rw [reportedBits, UInt8.toNat_and]
  exact Nat.lt_succ_of_le Nat.and_le_right

/-- For every behaviour of the chip: the length written by a transceive that returns `MI_OK` is
that of bytes received exactly if the reported level is at most 18, and no bits are reported for
an empty FIFO. -/
theorem length_matches_iff (chip : Chip Register UInt8) (log : Log Register UInt8) (pInData : Nat → UInt8)
    (inLenByte : UInt8) (ok : ((pcdComMF522 PCD_TRANSCEIVE pInData inLenByte).result chip log).status = MI_OK) :
    let exchange := (pcdComMF522 PCD_TRANSCEIVE pInData inLenByte).result chip log
    let ran := (pcdComMF522 PCD_TRANSCEIVE pInData inLenByte).added chip log
    LengthMatches exchange ran ↔ reportedLevel ran ≤ 18 ∧ (reportedLevel ran = 0 → reportedBits ran = 0) := by
  intro exchange ran
  obtain ⟨bits, reads, length⟩ := (@adds_pcdComMF522 chip PCD_TRANSCEIVE pInData inLenByte log).stored ok
  rw [← outLenBit_le_iff (reportedLevel ran) (reportedBits_lt ran), ← length, ← reads]
  constructor
  · rintro ⟨written, same, fits⟩
    cases bits.symm.trans same
    exact fits
  · exact fun fits => ⟨_, bits, fits⟩

/-- A chip that interrupts at once, without an error, with that FIFO and those bits. -/
def answering (level control : UInt8) : Chip Register UInt8
  | _, .comIrqReg => 0x30
  | _, .fifoLevelReg => level
  | _, .controlReg => control
  | _, _ => 0

theorem two_bytes_match :
    LengthMatches ((pcdComMF522 PCD_TRANSCEIVE (fun _ => 0x52) 1).result (answering 2 0) [])
      ((pcdComMF522 PCD_TRANSCEIVE (fun _ => 0x52) 1).added (answering 2 0) []) :=
  (length_matches_iff (answering 2 0) [] (fun _ => 0x52) 1 (by decide)).mpr (by decide)

/-- Three bits of an empty FIFO: the length is 4294967291, of one byte that is stored. -/
theorem empty_wraps :
    ((pcdComMF522 PCD_TRANSCEIVE (fun _ => 0x52) 1).result (answering 0 3) []).status = MI_OK ∧
      ¬ LengthMatches ((pcdComMF522 PCD_TRANSCEIVE (fun _ => 0x52) 1).result (answering 0 3) [])
        ((pcdComMF522 PCD_TRANSCEIVE (fun _ => 0x52) 1).added (answering 0 3) []) := by
  refine ⟨by decide, ?_⟩
  rintro ⟨bits, written, fits⟩
  have wrapped : bits = 4294967291 := by
    have same : ((pcdComMF522 PCD_TRANSCEIVE (fun _ => 0x52) 1).result (answering 0 3) []).pOutLenBit =
      some 4294967291 := by decide
    exact Option.some.inj (written.symm.trans same)
  subst wrapped
  exact absurd fits (by decide)

end AdTerminal.Rfid
