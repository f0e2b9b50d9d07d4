import AdTerminal.Rfid.Exchange

/-! How a card number is read. One buffer on the stack holds the request and then the response. -/

namespace AdTerminal.Rfid
open RegisterBus Bus

def PICC_ANTICOLL1 : UInt8 := 0x93

/-- What a call finds in the memory of its variables that are not initialised. -/
structure Locals where
  ucComMF522Buf : Nat → UInt8
  unLen : UInt32

/-- The buffer after the bytes of an exchange are stored in it. -/
def stored (buffer : Nat → UInt8) (pOutData : List UInt8) : Nat → UInt8 := fun i => pOutData[i]?.getD (buffer i)

structure Request where
  status : UInt8
  pTagType : Option (UInt8 × UInt8) := none

def pcdRequest (locals : Locals) (reqCode : UInt8) : Driver Request := do
  clearBitMask .status2Reg 0x08
  writeRawRC .bitFramingReg 0x07
  setBitMask .txControlReg 0x03
  let buffer := Function.update locals.ucComMF522Buf 0 reqCode
  let exchange ← pcdComMF522 PCD_TRANSCEIVE buffer 1
  let buffer := stored buffer exchange.pOutData
  let unLen := exchange.pOutLenBit.getD locals.unLen
  if exchange.status = MI_OK ∧ unLen = 0x10 then pure { status := exchange.status, pTagType := some (buffer 0, buffer 1) }
  else pure { status := MI_ERR }

structure Anticoll where
  status : UInt8
  /-- Nothing as long as it is not written. -/
  pSnr : Option (Vector UInt8 4) := none

/-- The registers are set up ahead of the exchange. -/
def startAnticoll : Driver Unit := do
  clearBitMask .status2Reg 0x08
  writeRawRC .bitFramingReg 0x00
  clearBitMask .collReg 0x80

def anticollFrame (locals : Locals) : Nat → UInt8 :=
  Function.update (Function.update locals.ucComMF522Buf 0 PICC_ANTICOLL1) 1 0x20

/-- `snr_check` of the four bytes. -/
def snrCheck (pSnr : Vector UInt8 4) : UInt8 := pSnr.foldl (· ^^^ ·) 0

/-- What follows the exchange. The four bytes are written before they are checked. -/
def checkSnr (locals : Locals) (exchange : Exchange) : Anticoll :=
  if exchange.status = MI_OK then
    let buffer := stored (anticollFrame locals) exchange.pOutData
    let pSnr := #v[buffer 0, buffer 1, buffer 2, buffer 3]
    { status := if snrCheck pSnr ≠ buffer 4 then MI_ERR else MI_OK, pSnr := some pSnr }
  else { status := exchange.status }

def pcdAnticoll (locals : Locals) : Driver Anticoll := do
  startAnticoll
  let exchange ← pcdComMF522 PCD_TRANSCEIVE (anticollFrame locals) 2
  setBitMask .collReg 0x80
  pure (checkSnr locals exchange)

/-- The result, and `UID` as far as it is read. What is printed is left out. -/
def autoReader (locals : Fin 3 → Locals) : Driver (Int × Vector UInt8 4) := do
  let request ← pcdRequest (locals 0) 0x52
  if request.status = MI_OK then
    let anticoll ← pcdAnticoll (locals 1)
    let uid := anticoll.pSnr.getD (.replicate 4 0)
    if anticoll.status = MI_OK then
      let _ ← pcdRequest (locals 2) 0x52
      pure (4, uid)
    else pure (0, uid)
  else pure (0, .replicate 4 0)

/-- `ReadCardNum`, with the bytes as Java sees them. -/
def readCardNum (locals : Fin 3 → Locals) : Driver (Option (Vector Int8 4)) := do
  let (len, uid) ← autoReader locals
  if len ≤ 0 then pure none else pure (some (uid.map UInt8.toInt8))

section
variable (chip : Chip Register UInt8) (log : Log Register UInt8) (locals : Fin 3 → Locals)

/-- The log at the exchange of `PcdAnticoll`, in a run of `Auto_Reader`. -/
def anticollLog : Log Register UInt8 :=
  log ++ (pcdRequest (locals 0) 0x52 >>= fun _ => startAnticoll).added chip log

def anticollExchange : Driver Exchange := pcdComMF522 PCD_TRANSCEIVE (anticollFrame (locals 1)) 2

/-- What that exchange adds. -/
def anticollRan : Log Register UInt8 := (anticollExchange locals).added chip (anticollLog chip log locals)

/-- The buffer after that exchange. -/
def anticollBuffer : Nat → UInt8 :=
  stored (anticollFrame (locals 1)) ((anticollExchange locals).result chip (anticollLog chip log locals)).pOutData

end

section
variable {chip : Chip Register UInt8} {log : Log Register UInt8} {locals : Fin 3 → Locals}

theorem result_pcdAnticoll (locals : Locals) : (pcdAnticoll locals).result chip log = checkSnr locals
    ((pcdComMF522 PCD_TRANSCEIVE (anticollFrame locals) 2).result chip (log ++ startAnticoll.added chip log)) :=
  rfl

/-- Only the number that passes the check is returned. -/
theorem result_autoReader (returned : ((autoReader locals).result chip log).1 = 4) :
    let anticoll := (pcdAnticoll (locals 1)).result chip (log ++ (pcdRequest (locals 0) 0x52).added chip log)
    anticoll.status = MI_OK ∧ ((autoReader locals).result chip log).2 = anticoll.pSnr.getD (.replicate 4 0) := by
  intro anticoll
  by_cases request : ((pcdRequest (locals 0) 0x52).result chip log).status = MI_OK
  · by_cases ok : anticoll.status = MI_OK
    · refine ⟨ok, ?_⟩
      simp [autoReader, request, anticoll, ok]
    · simp [autoReader, request, anticoll, ok] at returned
  · simp [autoReader, request] at returned

theorem checkSnr_ok {locals : Locals} {exchange : Exchange} (ok : (checkSnr locals exchange).status = MI_OK) :
    let buffer := stored (anticollFrame locals) exchange.pOutData
    exchange.status = MI_OK ∧ (checkSnr locals exchange).pSnr = some #v[buffer 0, buffer 1, buffer 2, buffer 3] ∧
      snrCheck #v[buffer 0, buffer 1, buffer 2, buffer 3] = buffer 4 := by
  intro buffer
  unfold checkSnr at ok ⊢
  by_cases answered : exchange.status = MI_OK
  · rw [if_pos answered] at ok ⊢
    refine ⟨answered, rfl, not_not.mp fun different => ?_⟩
    exact absurd ((if_pos different).symm.trans ok) (by decide)
  · rw [if_neg answered] at ok
    exact absurd ok answered

/-- A card number comes from an exchange that returned `MI_OK`, and passes the check. -/
theorem autoReader_returned (returned : ((autoReader locals).result chip log).1 = 4) :
    let buffer := anticollBuffer chip log locals
    ((anticollExchange locals).result chip (anticollLog chip log locals)).status = MI_OK ∧
      ((autoReader locals).result chip log).2 = #v[buffer 0, buffer 1, buffer 2, buffer 3] ∧
        snrCheck #v[buffer 0, buffer 1, buffer 2, buffer 3] = buffer 4 := by
  obtain ⟨ok, uid⟩ := result_autoReader returned
  have same : log ++ (pcdRequest (locals 0) 0x52).added chip log ++
      startAnticoll.added chip (log ++ (pcdRequest (locals 0) 0x52).added chip log) = anticollLog chip log locals := by
    rw [anticollLog, added_bind, List.append_assoc]
  rw [result_pcdAnticoll, same] at ok uid
  obtain ⟨answered, written, checked⟩ := checkSnr_ok ok
  rw [written] at uid
  exact ⟨answered, uid, checked⟩

/-- As far as bytes are stored, the buffer holds these. -/
theorem take_stored {buffer : Nat → UInt8} {pOutData : List UInt8} {count : Nat} (received : count ≤ pOutData.length) :
    pOutData.take count = (List.range count).map (stored buffer pOutData) := by
  apply List.ext_getElem
  · simp [received]
  · intro i inside _
    have present : i < pOutData.length := by
      rw [List.length_take] at inside
      omega
    simp [stored, List.getElem?_eq_getElem present]

/-- The four bytes of a number and its check byte were the first ones read from the FIFO. -/
def AllReceived (uid : Vector UInt8 4) (ran : Log Register UInt8) : Prop :=
  (readsOf .fifoDataReg ran).take 5 = uid.toList ++ [snrCheck uid]

/-- For every behaviour of the chip and every content of the stack, in every run that returns a
card number: all of it was received in the exchange of `PcdAnticoll` exactly if the level that the
chip reported there is at least five. -/
theorem reported_received_iff (returned : ((autoReader locals).result chip log).1 = 4) :
    AllReceived ((autoReader locals).result chip log).2 (anticollRan chip log locals) ↔
      5 ≤ reportedLevel (anticollRan chip log locals) := by
  obtain ⟨ok, uid, checked⟩ := autoReader_returned returned
  obtain ⟨-, reads, length⟩ :=
    (@adds_pcdComMF522 chip PCD_TRANSCEIVE (anticollFrame (locals 1)) 2 (anticollLog chip log locals)).stored ok
  rw [toNat_outLenByte] at length
  rw [AllReceived, uid, checked, anticollBuffer, UInt8.le_iff_toNat_le]
  unfold anticollRan anticollExchange at *
  rw [reads]
  constructor
  · intro received
    have five := congrArg List.length received
    simp only [List.length_take, List.length_append, Vector.length_toList, List.length_singleton] at five
    show 5 ≤ _
    split at length <;> omega
  · intro enough
    have long : 5 ≤ (5 : UInt8).toNat := le_rfl
    exact take_stored (by split at length <;> omega)

end

/-- A chip with a card that answers the anticollision frame with so many bytes, and all other frames
with two. The bytes of each answer are these. -/
def card (level : UInt8) (data : List UInt8) : Chip Register UInt8
  | _, .comIrqReg => 0x30
  | log, .fifoLevelReg => if .write .fifoDataReg PICC_ANTICOLL1 ∈ log then level else 2
  | log, .fifoDataReg =>
    data.getD (readsOf .fifoDataReg (log.reverse.takeWhile (· ≠ .write .fifoDataReg PICC_ANTICOLL1))).length 0
  | _, _ => 0

/-- What an earlier call may have left on the stack. -/
def leftOver : Locals where
  ucComMF522Buf i := if i = 2 then 0x11 else if i = 3 then 0x22 else if i = 4 then 0x17 else 0
  unLen := 0

theorem five_received :
    AllReceived ((autoReader fun _ => leftOver).result (card 5 [0x12, 0x34, 0x56, 0x78, 0x08]) []).2
      (anticollRan (card 5 [0x12, 0x34, 0x56, 0x78, 0x08]) [] fun _ => leftOver) :=
  (reported_received_iff (by decide +kernel)).mpr (by decide +kernel)

/-- One byte is received. The number is completed by the request and by what the stack held. -/
theorem one_received : (autoReader fun _ => leftOver).result (card 1 [0x04]) [] = (4, #v[0x04, 0x20, 0x11, 0x22]) ∧
    ¬ AllReceived #v[0x04, 0x20, 0x11, 0x22] (anticollRan (card 1 [0x04]) [] fun _ => leftOver) := by
  unfold AllReceived
  decide +kernel

end AdTerminal.Rfid
