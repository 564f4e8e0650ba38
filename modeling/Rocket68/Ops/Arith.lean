import Rocket68.Flags

/-!
# Arithmetic (`ops_arith.c`)

ADD and SUB, ADDQ and SUBQ, ADDX and SUBX, and ADDI, SUBI and the immediate
logic group differ only in the operation and in the flag update, so each family
is one definition and each member is that definition at its own values.
-/

namespace M68k

open Trap TrapM

variable {σ : Type}

/-! ## ADD, SUB and the address forms -/

/-- The operand size of the standard opmode field. -/
def opmodeSize : Fin 8 → M68kSize
  | 0 | 4 => .byte
  | 1 | 3 | 5 => .word
  | 2 | 6 | 7 => .long

/-- `dir_reg_to_ea`. -/
def regToEa (opmode : Fin 8) : Bool := opmode == 4 || opmode == 5 || opmode == 6

/-- The addressing modes ADD and SUB reject. -/
def addSubRejects (opmode mode reg : Fin 8) : Bool :=
  if opmode = 3 ∨ opmode = 7 then mode == 7 && reg > 4
  else if regToEa opmode then notMemoryAlterable mode reg
  else (mode == 1 && opmodeSize opmode == .byte) || (mode == 7 && reg > 4)

/-- ADD has an empty branch for an address register destination, which its
mode check never lets through. -/
def storeAdd (ea : Ea) (size : M68kSize) (value : U32) : M σ Unit :=
  if ea.isData then setDSized ea.regNum size value
  else if ea.isReg then pure ()
  else writeSize ea.address value size

/-- ADD and SUB: `op` combines destination and source. -/
def execAddSub (op : U32 → U32 → U32) (flags : U32 → U32 → U32 → M68kSize → U16 → U16)
    (store : Ea → M68kSize → U32 → M σ Unit) (opcode : U16) : M σ Unit := do
  let regIdx := field opcode 9
  let opmode := field opcode 6
  let mode := field opcode 3
  let reg := field opcode 0
  let size := opmodeSize opmode
  if addSubRejects opmode mode reg then
    exception 4
  else do
    let ea ← calcEa mode reg size
    if opmode = 3 ∨ opmode = 7 then do
      let src := if size = .word then sext16 ea.value else ea.value
      setA regIdx (op (← getA regIdx) src)
    else if regToEa opmode then do
      let src ← getD regIdx
      let result := op ea.value src
      store ea size result
      modifySr (flags src ea.value result size)
    else do
      let dest ← getD regIdx
      let result := op dest ea.value
      setD regIdx (mergeSized size dest result)
      modifySr (flags ea.value dest result size)

/-- `m68k_exec_add`. -/
def execAdd : U16 → M σ Unit := execAddSub (· + ·) flagsAdd storeAdd

/-- `m68k_exec_sub`. -/
def execSub : U16 → M σ Unit := execAddSub (· - ·) flagsSub storeEa

/-! ## ADDQ, SUBQ -/

/-- The quick immediate: field value 0 stands for 8. -/
def quickData (opcode : U16) : U32 :=
  if field opcode 9 = 0 then 8 else BitVec.ofNat 32 (field opcode 9)

/-- The destinations ADDQ and SUBQ reject. -/
def quickRejects (size : M68kSize) (mode reg : Fin 8) : Bool :=
  (mode == 1 && size == .byte) || (mode == 7 && reg > 1)

/-- ADDQ and SUBQ. -/
def execQuick (op : U32 → U32 → U32) (flags : U32 → U32 → U32 → M68kSize → U16 → U16)
    (opcode : U16) : M σ Unit := do
  let data := quickData opcode
  let mode := field opcode 3
  let reg := field opcode 0
  match sizeOf? (sizeBits opcode) with
  | none => pure ()
  | some size =>
      if quickRejects size mode reg then
        exception 4
      else if mode = 1 then do
        setA reg (op (← getA reg) data)
      else do
        let ea ← calcEa mode reg size
        let result := op ea.value data
        storeEa ea size result
        modifySr (flags data ea.value result size)

/-- `m68k_exec_addq`. -/
def execAddq : U16 → M σ Unit := execQuick (· + ·) flagsAdd

/-- `m68k_exec_subq`. -/
def execSubq : U16 → M σ Unit := execQuick (· - ·) flagsSub

/-! ## ADDX, SUBX -/

/-- `addx_read_predec`. -/
def addxReadPredec (reg : Fin 8) (size : M68kSize) : M σ U32 := do
  if size = .long then do
    let base := (← getA reg) - 4
    let lo ← read16 (base + 2)
    let hi ← read16 base
    setA reg base
    pure ((hi.setWidth 32 <<< 16) ||| lo.setWidth 32)
  else do
    setA reg ((← getA reg) - stepSize reg size)
    readSize (← getA reg) size

/-- `(cpu->sr & M68K_SR_X) ? 1 : 0`. -/
def extendBit (sr : U16) : U32 := if sr &&& srX != 0 then 1 else 0

/-- The two operands of the memory form of ADDX and SUBX, source first. -/
def addxOperands (rx ry : Fin 8) (size : M68kSize) : M σ (U32 × U32) := do
  latchFaultPc ((← getPc) + 2)
  charge 6
  let src ← addxReadPredec ry size
  charge (if size = .long then 8 else 4)
  let dest ← addxReadPredec rx size
  pure (src, dest)

/-- ADDX and SUBX: `op` combines destination, source and X. -/
def execExtended (op : U32 → U32 → U32 → U32)
    (flags : U32 → U32 → U32 → M68kSize → U16 → U16) (opcode : U16) : M σ Unit := do
  let rx := field opcode 9
  let ry := field opcode 0
  match sizeOf? (sizeBits opcode) with
  | none => pure ()
  | some size =>
      if opcode.getLsbD 3 then do
        let (src, dest) ← addxOperands rx ry size
        let result := op dest src (extendBit (← getSr))
        writeSize (← getA rx) result size
        modifySr fun sr => keepZ size result sr (flags src dest result size sr)
      else do
        let src ← getD ry
        let dest ← getD rx
        let result := op dest src (extendBit (← getSr))
        setDSized rx size result
        modifySr fun sr => keepZ size result sr (flags src dest result size sr)

/-- `m68k_exec_addx`. -/
def execAddx : U16 → M σ Unit := execExtended (fun d s x => d + s + x) flagsAdd

/-- `m68k_exec_subx`. -/
def execSubx : U16 → M σ Unit := execExtended (fun d s x => d - s - x) flagsSub

/-! ## MULU, MULS -/

/-- `for (; d; d >>= 1) if (d & 1) m++;` over a 16-bit word. -/
def countOnes : Nat → U16 → Int → Int
  | 0, _, m => m
  | n + 1, d, m => countOnes n (d >>> 1) (if d.getLsbD 0 then m + 1 else m)

/-- The multiply cost: one bits of the operand, or bit transitions. -/
def mulCycles (isSigned : Bool) (op2 : U32) : Int :=
  let d := if isSigned then ((op2 <<< 1) ^^^ op2).setWidth 16 else op2.setWidth 16
  2 * countOnes 16 d 17 + 4

/-- `m68k_exec_mul`. -/
def execMul (opcode : U16) : M σ Unit := do
  let regIdx := field opcode 9
  let isSigned := field opcode 6 == 7
  let mode := field opcode 3
  let reg := field opcode 0
  if notData mode reg then
    exception 4
  else do
    let ea ← calcEa mode reg .word
    let op1 := (← getD regIdx) &&& 0xFFFF
    let op2 := ea.value &&& 0xFFFF
    let result := if isSigned then sext16 op1 * sext16 op2 else op1 * op2
    charge (mulCycles isSigned op2)
    setD regIdx result
    modifySr (flagsLogic result .long)

/-! ## DIVU, DIVS -/

/-- The quotient bit walk of the signed timing: 15 iterations over `aquot`. -/
def divsQuotientWalk : Nat → U32 → Int → Int
  | 0, _, m => m
  | n + 1, aquot, m => divsQuotientWalk n (aquot <<< 1) (if aquot.getLsbD 15 then m else m + 1)

/-- The DIVS cost. -/
def divsCycles (dividend : U32) (divisor : U16) : Int :=
  let sd := dividend.toInt
  let sv := divisor.toInt
  let m : Int := if sd < 0 then 7 else 6
  let adividend := if sd < 0 then -dividend else dividend
  let advisor := if sv < 0 then -(divisor.signExtend 32) else divisor.signExtend 32
  if adividend >>> 16 ≥ advisor then (m + 2) * 2
  else
    let m := m + 55
    let m := if sv ≥ 0 then m + (if sd < 0 then 1 else -1) else m
    2 * divsQuotientWalk 15 (adividend / advisor) m

/-- The restoring division walk of the unsigned timing. -/
def divuWalk (hdivisor : U32) : Nat → U32 → Int → Int
  | 0, _, m => m
  | n + 1, d, m =>
      if d.getLsbD 31 then
        divuWalk hdivisor n ((d <<< 1) - hdivisor) m
      else if d <<< 1 ≥ hdivisor then
        divuWalk hdivisor n ((d <<< 1) - hdivisor) (m + 1)
      else
        divuWalk hdivisor n (d <<< 1) (m + 2)

/-- The DIVU cost. -/
def divuCycles (dividend divisor : U32) : Int :=
  if dividend >>> 16 ≥ divisor then 10
  else 2 * divuWalk (divisor <<< 16) 15 dividend 38

/-- N and Z of a 16-bit quotient, V and C clear. -/
def flagsQuotient (quotient : U32) (sr : U16) : U16 :=
  setIf (quotient == 0) srZ (setIf (quotient &&& 0x8000 != 0) srN (sr &&& ~~~nzvc))

/-- The flags of an overflowing division. -/
def flagsDivOverflow (sr : U16) : U16 := (sr &&& ~~~nzvc) ||| srV ||| srN

/-- Remainder and quotient of the signed division, truncated toward zero. -/
def divsResult (dividend : U32) (divisor : U16) : Int × Int :=
  (dividend.toInt.tdiv divisor.toInt, dividend.toInt.tmod divisor.toInt)

/-- `m68k_exec_div`. -/
def execDiv (opcode : U16) : M σ Unit := do
  let regIdx := field opcode 9
  let isSigned := field opcode 6 == 7
  let mode := field opcode 3
  let reg := field opcode 0
  if notData mode reg then
    exception 4
  else do
    let ea ← calcEa mode reg .word
    let divisorRaw := ea.value &&& 0xFFFF
    let dividend ← getD regIdx
    if divisorRaw = 0 then
      exception 5
    else if isSigned then do
      let divisor := divisorRaw.setWidth 16
      let (sQuot, sRem) := divsResult dividend divisor
      charge (divsCycles dividend divisor)
      if sQuot < -32768 ∨ sQuot > 32767 then
        modifySr flagsDivOverflow
      else do
        let quotient := BitVec.ofInt 32 sQuot &&& 0xFFFF
        let remainder := BitVec.ofInt 32 sRem &&& 0xFFFF
        setD regIdx ((remainder <<< 16) ||| quotient)
        modifySr (flagsQuotient quotient)
    else do
      let quotient := dividend / divisorRaw
      let remainder := dividend % divisorRaw
      charge (divuCycles dividend divisorRaw)
      if quotient > 0xFFFF then
        modifySr flagsDivOverflow
      else do
        setD regIdx ((remainder <<< 16) ||| (quotient &&& 0xFFFF))
        modifySr (flagsQuotient quotient)

/-! ## CMP, CMPA, CMPM, CMPI -/

/-- CMPM: the long source increment commits one word before its read. -/
def execCmpm (regIdx reg : Fin 8) (size : M68kSize) : M σ Unit := do
  latchFaultPc ((← getPc) + 2)
  charge 4
  let srcAddr ← getA reg
  let srcVal ←
    if size = .long then do
      setA reg ((← getA reg) + 2)
      let v ← readSize srcAddr size
      setA reg ((← getA reg) + 2)
      pure v
    else do
      setA reg ((← getA reg) + stepSize reg size)
      readSize srcAddr size
  charge (if size = .long then 8 else 4)
  let destVal ← readSize (← getA regIdx) size
  setA regIdx ((← getA regIdx) + stepSize regIdx size)
  modifySr (flagsCmp srcVal destVal (destVal - srcVal) size)

/-- The encodings CMP rejects past the CMPM test. -/
def cmpRejects (opmode mode reg : Fin 8) : Bool :=
  regToEa opmode || (mode == 1 && opmode == 0) || (mode == 7 && reg > 4)

/-- `m68k_exec_cmp`. -/
def execCmp (opcode : U16) : M σ Unit := do
  let regIdx := field opcode 9
  let opmode := field opcode 6
  let mode := field opcode 3
  let reg := field opcode 0
  let size := opmodeSize opmode
  if regToEa opmode ∧ mode = 1 then
    execCmpm regIdx reg size
  else if cmpRejects opmode mode reg then
    exception 4
  else do
    let ea ← calcEa mode reg size
    if opmode = 3 ∨ opmode = 7 then do
      let dest ← getA regIdx
      let src := if size = .word then sext16 ea.value else ea.value
      modifySr (flagsCmp src dest (dest - src) .long)
    else do
      let dest := (← getD regIdx) &&& valueMask size
      let src := ea.value &&& valueMask size
      modifySr (flagsCmp src dest (dest - src) size)

/-- The immediate operand of the immediate group. -/
def fetchImmediate : M68kSize → M σ U32
  | .byte => do pure ((← fetch).setWidth 32 &&& 0xFF)
  | .word => do pure ((← fetch).setWidth 32)
  | .long => fetchLong

/-- `m68k_exec_cmpi`. -/
def execCmpi (opcode : U16) : M σ Unit := do
  let mode := field opcode 3
  let reg := field opcode 0
  match sizeOf? (sizeBits opcode) with
  | none => pure ()
  | some size =>
      if notDataAlterable mode reg then
        exception 4
      else do
        let src ← fetchImmediate size
        charge (if size = .long then 8 else 4)
        let ea ← calcEa mode reg size
        modifySr (flagsCmp src ea.value (ea.value - src) size)

/-! ## The immediate group -/

/-- ADDI, SUBI and the general form of ANDI, ORI and EORI. -/
def execImmediate (op : U32 → U32 → U32)
    (flags : U32 → U32 → U32 → M68kSize → U16 → U16) (opcode : U16) : M σ Unit := do
  let mode := field opcode 3
  let reg := field opcode 0
  match sizeOf? (sizeBits opcode) with
  | none => pure ()
  | some size =>
      if notDataAlterable mode reg then
        exception 4
      else do
        let imm ← fetchImmediate size
        charge (if size = .long then 8 else 4)
        let ea ← calcEa mode reg size
        let result := op ea.value imm
        storeEa ea size result
        modifySr (flags imm ea.value result size)

/-- `m68k_exec_addi`. -/
def execAddi : U16 → M σ Unit := execImmediate (· + ·) flagsAdd

/-- `m68k_exec_subi`. -/
def execSubi : U16 → M σ Unit := execImmediate (· - ·) flagsSub

/-! ## NEG, NEGX, EXT -/

/-- The one-operand instructions: size and mode checks, then `body` on the
resolved operand. -/
def execUnary (body : Ea → M68kSize → M σ Unit) (opcode : U16) : M σ Unit := do
  let mode := field opcode 3
  let reg := field opcode 0
  match sizeOf? (sizeBits opcode) with
  | none => pure ()
  | some size =>
      if notDataAlterable mode reg then
        exception 4
      else do
        let ea ← calcEa mode reg size
        body ea size

/-- `m68k_exec_neg`. -/
def execNeg : U16 → M σ Unit := execUnary fun ea size => do
  let result := 0 - ea.value
  storeEa ea size result
  modifySr (flagsSub ea.value 0 result size)

/-- The flags of NEGX. -/
def flagsNegx (src result : U32) (size : M68kSize) (sr : U16) : U16 :=
  let oldZ := sr &&& srZ != 0
  let sm := signBit size src
  let rm := signBit size result
  let sr := setIf rm srN (sr &&& ~~~nzvcx)
  let sr := setIf (zeroSized size result && oldZ) srZ sr
  setIf (sm || rm) (srC ||| srX) (setIf (sm && rm) srV sr)

/-- `m68k_exec_negx`. -/
def execNegx : U16 → M σ Unit := execUnary fun ea size => do
  let result := 0 - ea.value - extendBit (← getSr)
  storeEa ea size result
  modifySr (flagsNegx ea.value result size)

/-- `m68k_exec_ext`. -/
def execExt (opcode : U16) : M σ Unit := do
  let opmode := field opcode 6
  let reg := field opcode 0
  if opmode = 2 then do
    let result := sext8 (← getD reg) &&& 0xFFFF
    setD reg (((← getD reg) &&& 0xFFFF0000) ||| result)
    modifySr (flagsLogic result .word)
  else if opmode = 3 then do
    let result := sext16 (← getD reg)
    setD reg result
    modifySr (flagsLogic result .long)

/-! ## Decimal arithmetic -/

/-- The operands of ABCD and SBCD, source first. -/
def bcdOperands (rx ry : Fin 8) (rm : Bool) : M σ (U32 × U32) := do
  if rm then do
    setA ry ((← getA ry) - stepSize ry .byte)
    let src ← read8 (← getA ry)
    setA rx ((← getA rx) - stepSize rx .byte)
    let dest ← read8 (← getA rx)
    pure (src.setWidth 32, dest.setWidth 32)
  else do
    let src := (← getD ry) &&& 0xFF
    let dest := (← getD rx) &&& 0xFF
    pure (src, dest)

/-- Result byte, carry and overflow of a decimal addition. -/
def abcdResult (src dest x : U32) : U8 × Bool × Bool :=
  let binRes := (src &&& 0xFF) + (dest &&& 0xFF) + x
  let lowAdd := (src &&& 0x0F) + (dest &&& 0x0F) + x
  let res := if lowAdd > 9 then binRes + 6 else binRes
  let c := decide (binRes > 0xFF) || decide (res > 0xFF) || decide (res &&& 0xF0 > 0x90)
  let res := if c then res + 0x60 else res
  let result : U8 := res.setWidth 8
  (result, c, (~~~binRes &&& result.setWidth 32) &&& 0x80 != 0)

/-- Result byte and carry of a decimal subtraction, with the binary result. -/
def decimalSub (src dest x : U32) : U8 × Bool × U32 :=
  let binRes := (dest &&& 0xFF) - (src &&& 0xFF) - x
  let lowSub := (dest &&& 0x0F) - (src &&& 0x0F) - x
  let res := if lowSub.msb then binRes - 6 else binRes
  let cSub := binRes.msb
  let res := if cSub then res - 0x60 else res
  ((res &&& 0xFF).setWidth 8, cSub || res.msb, binRes)

/-- Result byte, carry and overflow of SBCD. -/
def sbcdResult (src dest x : U32) : U8 × Bool × Bool :=
  let (result, c, binRes) := decimalSub src dest x
  let v := (~~~(result.setWidth 32) &&& (binRes &&& 0xFF)) &&& 0x80 != 0
  let v := if v && (~~~src &&& dest) &&& 0x80 != 0 && c then false else v
  (result, c, v)

/-- Result byte, carry and overflow of NBCD. -/
def nbcdResult (dest x : U32) : U8 × Bool × Bool :=
  let (result, c, binRes) := decimalSub dest 0 x
  (result, c, (~~~(result.setWidth 32) &&& (binRes &&& 0xFF)) &&& 0x80 != 0)

/-- The condition codes of a decimal result. -/
def flagsBcd (r : U8 × Bool × Bool) (sr : U16) : U16 :=
  let (result, c, v) := r
  let sr := sr &&& ~~~(srN ||| srV ||| srC ||| srX)
  let sr := setIf c (srC ||| srX) (setIf v srV (setIf (result &&& 0x80 != 0) srN sr))
  if result != 0 then sr &&& ~~~srZ else sr

/-- ABCD and SBCD. -/
def execBcd (op : U32 → U32 → U32 → U8 × Bool × Bool) (opcode : U16) : M σ Unit := do
  let rx := field opcode 9
  let rm := opcode.getLsbD 3
  let ry := field opcode 0
  let (src, dest) ← bcdOperands rx ry rm
  let r := op src dest (extendBit (← getSr))
  modifySr (flagsBcd r)
  if rm then
    write8 (← getA rx) r.1
  else
    setD rx (((← getD rx) &&& 0xFFFFFF00) ||| r.1.setWidth 32)

/-- `m68k_exec_abcd`. -/
def execAbcd : U16 → M σ Unit := execBcd abcdResult

/-- `m68k_exec_sbcd`. -/
def execSbcd : U16 → M σ Unit := execBcd sbcdResult

/-- `m68k_exec_nbcd`. -/
def execNbcd (opcode : U16) : M σ Unit := do
  let mode := field opcode 3
  let reg := field opcode 0
  if notDataAlterable mode reg then
    exception 4
  else do
    let ea ← calcEa mode reg .byte
    let r := nbcdResult (ea.value &&& 0xFF) (extendBit (← getSr))
    modifySr (flagsBcd r)
    if ea.isData then
      setD ea.regNum (((← getD ea.regNum) &&& 0xFFFFFF00) ||| r.1.setWidth 32)
    else
      write8 ea.address r.1

end M68k
