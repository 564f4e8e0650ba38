import Rocket68.Ops.Arith

/-!
# Logic, shifts and rotates (`ops_logic.c`)
-/

namespace M68k

open Trap TrapM

variable {σ : Type}

/-! ## AND, OR, EOR -/

/-- The addressing modes AND and OR reject. -/
def andOrRejects (opmode mode reg : Fin 8) : Bool :=
  if regToEa opmode then notMemoryAlterable mode reg else notData mode reg

/-- AND and OR: `op` combines destination and source. -/
def execAndOr (op : U32 → U32 → U32) (opcode : U16) : M σ Unit := do
  let regIdx := field opcode 9
  let opmode := field opcode 6
  let mode := field opcode 3
  let reg := field opcode 0
  let size := opmodeSize opmode
  if opmode = 3 ∨ opmode = 7 then
    pure ()
  else if andOrRejects opmode mode reg then
    exception 4
  else do
    let ea ← calcEa mode reg size
    if regToEa opmode then do
      let result := op ea.value (← getD regIdx)
      storeEa ea size result
      modifySr (flagsLogic result size)
    else do
      let dest ← getD regIdx
      let result := op dest ea.value
      setD regIdx (mergeSized size dest result)
      modifySr (flagsLogic result size)

/-- `m68k_exec_and`. -/
def execAnd : U16 → M σ Unit := execAndOr (· &&& ·)

/-- `m68k_exec_or`. -/
def execOr : U16 → M σ Unit := execAndOr (· ||| ·)

/-- `m68k_exec_eor`. -/
def execEor (opcode : U16) : M σ Unit := do
  let regIdx := field opcode 9
  let opmode := field opcode 6
  let mode := field opcode 3
  let reg := field opcode 0
  let size := opmodeSize opmode
  if !regToEa opmode then
    pure ()
  else if notDataAlterable mode reg then
    exception 4
  else do
    let ea ← calcEa mode reg size
    let result := ea.value ^^^ (← getD regIdx)
    storeEa ea size result
    modifySr (flagsLogic result size)

/-! ## NOT, CLR, TST -/

/-- `m68k_exec_not`. -/
def execNot : U16 → M σ Unit := execUnary fun ea size => do
  let result := ~~~ea.value
  storeEa ea size result
  modifySr (flagsLogic result size)

/-- `m68k_exec_clr`: a memory operand, already read by the resolution, is read
again before it is written. -/
def execClr : U16 → M σ Unit := execUnary fun ea size => do
  if ea.isData then do
    setD ea.regNum ((← getD ea.regNum) &&& ~~~valueMask size)
    modifySr fun sr => (sr &&& ~~~nzvc) ||| srZ
  else do
    let _ ← readSize ea.address size
    writeSize ea.address 0 size
    modifySr fun sr => (sr &&& ~~~nzvc) ||| srZ

/-- `m68k_exec_tst`. -/
def execTst : U16 → M σ Unit := execUnary fun ea size =>
  modifySr (flagsLogic ea.value size)

/-! ## Shifts and rotates -/

/-- The variables of the shift loops. -/
structure ShiftState where
  result : U32
  carry : Bool
  overflow : Bool
  extend : Bool
  deriving DecidableEq, Repr

/-- One iteration: types 0 arithmetic, 1 logical, 2 rotate through X, 3 rotate;
`dr` is set for left. -/
def shiftStep (type : Fin 4) (dr : Bool) (size : M68kSize) (st : ShiftState) : ShiftState :=
  let lsb := st.result &&& 1 != 0
  let msb := signBit size st.result
  let left := (st.result <<< 1) &&& valueMask size
  let right := st.result >>> 1
  match type, dr with
  | 0, false =>
      { st with result := right ||| (st.result &&& msbMask size), carry := lsb }
  | 0, true =>
      { st with
        result := left
        carry := msb
        overflow := st.overflow || msb != signBit size left }
  | 1, false => { st with result := right, carry := lsb }
  | 1, true => { st with result := left, carry := msb }
  | 2, false =>
      { st with
        result := if st.extend then right ||| msbMask size else right
        carry := lsb
        extend := lsb }
  | 2, true =>
      { st with
        result := if st.extend then left ||| 1 else left
        carry := msb
        extend := msb }
  | 3, false => { st with result := if lsb then right ||| msbMask size else right, carry := lsb }
  | 3, true => { st with result := if msb then left ||| 1 else left, carry := msb }

/-- `for (int i = 0; i < count; i++)`. -/
def shiftLoop (type : Fin 4) (dr : Bool) (size : M68kSize) : Nat → ShiftState → ShiftState
  | 0, st => st
  | n + 1, st => shiftLoop type dr size n (shiftStep type dr size st)

/-- The status register after the loops. -/
def flagsShift (type : Fin 4) (size : M68kSize) (st : ShiftState) (sr : U16) : U16 :=
  let sr :=
    match type with
    | 0 => setIf st.overflow srV (setIf st.carry (srC ||| srX) (sr &&& ~~~nzvcx))
    | 1 => setIf st.carry (srC ||| srX) (sr &&& ~~~nzvcx)
    | 2 => setIf st.extend srX (setIf st.carry srC (sr &&& ~~~nzvcx))
    | 3 => setIf st.carry srC (sr &&& ~~~nzvc)
  setIf (st.result == 0) srZ (setIf (signBit size st.result) srN sr)

/-- The status register of a register shift by zero. -/
def flagsShiftZero (type : Fin 4) (size : M68kSize) (result : U32) (sr : U16) : U16 :=
  setIf (type == 2 && sr &&& srX != 0) srC
    (setIf (result == 0) srZ (setIf (signBit size result) srN (sr &&& ~~~nzvc)))

/-- The loop variables before the first iteration. -/
def shiftInit (value : U32) (sr : U16) : ShiftState :=
  { result := value, carry := false, overflow := false, extend := sr &&& srX != 0 }

/-- The memory form: one bit, word size. Bit 11 of the opcode is not looked
at. -/
def execShiftMemory (opcode : U16) : M σ Unit := do
  let type : Fin 4 := ((opcode >>> 9).setWidth 2).toFin
  let mode := field opcode 3
  let reg := field opcode 0
  if notMemoryAlterable mode reg then
    exception 4
  else do
    let ea ← calcEa mode reg .word
    let st := shiftLoop type (opcode.getLsbD 8) .word 1
      (shiftInit (ea.value &&& valueMask .word) (← getSr))
    modifySr (flagsShift type .word st)
    writeSize ea.address st.result .word

/-- The shift count of the register form. -/
def shiftCount (opcode : U16) : M σ Nat := do
  let count := field opcode 9
  if opcode.getLsbD 5 then
    pure ((← getD count) &&& 63).toNat
  else
    pure (if count = 0 then 8 else count)

/-- The register form. -/
def execShiftRegister (opcode : U16) : M σ Unit := do
  let type : Fin 4 := ((opcode >>> 3).setWidth 2).toFin
  let reg := field opcode 0
  let size := (sizeOf? (sizeBits opcode)).getD .long
  let count ← shiftCount opcode
  let value := (← getD reg) &&& valueMask size
  if count = 0 then
    modifySr (flagsShiftZero type size value)
  else do
    let st := shiftLoop type (opcode.getLsbD 8) size count (shiftInit value (← getSr))
    modifySr (flagsShift type size st)
    setDSized reg size st.result

/-- `m68k_exec_shift`. -/
def execShift (opcode : U16) : M σ Unit :=
  if sizeBits opcode = 3 then execShiftMemory opcode else execShiftRegister opcode

/-! ## ANDI, ORI, EORI -/

/-- The immediate logic group: `ccr` and `status` are the opcodes of the forms
on CCR and on SR. -/
def execImmediateLogic (op : U32 → U32 → U32) (op16 : U16 → U16 → U16) (ccr status : U16)
    (opcode : U16) : M σ Unit := do
  if opcode = ccr then do
    let imm := (← fetch) &&& 0x1F
    modifySr fun sr => (sr &&& ~~~0x1F) ||| op16 (sr &&& 0x1F) imm
  else if opcode = status then
    privileged do
      let imm ← fetch
      setSr (op16 (← getSr) imm)
  else
    execImmediate op (fun _ _ result size => flagsLogic result size) opcode

/-- `m68k_exec_andi`. -/
def execAndi : U16 → M σ Unit := execImmediateLogic (· &&& ·) (· &&& ·) 0x023C 0x027C

/-- `m68k_exec_ori`. -/
def execOri : U16 → M σ Unit := execImmediateLogic (· ||| ·) (· ||| ·) 0x003C 0x007C

/-- `m68k_exec_eori`. -/
def execEori : U16 → M σ Unit := execImmediateLogic (· ^^^ ·) (· ^^^ ·) 0x0A3C 0x0A7C

end M68k
