import Rocket68.Flags

/-!
# Control flow and privileged instructions (`ops_control.c`)
-/

namespace M68k

open Trap TrapM

variable {σ : Type}

/-- `m68k_check_condition`. -/
def checkCondition (sr : U16) (condition : Fin 16) : Bool :=
  let c := sr &&& srC != 0
  let v := sr &&& srV != 0
  let z := sr &&& srZ != 0
  let n := sr &&& srN != 0
  match (condition : Nat) with
  | 0 => true
  | 1 => false
  | 2 => !c && !z
  | 3 => c || z
  | 4 => !c
  | 5 => c
  | 6 => !z
  | 7 => z
  | 8 => !v
  | 9 => v
  | 10 => !n
  | 11 => n
  | 12 => (n && v) || (!n && !v)
  | 13 => (n && !v) || (!n && v)
  | 14 => (n && v && !z) || (!n && !v && !z)
  | 15 => z || (n && !v) || (!n && v)
  | _ => false

/-- `(opcode >> 8) & 0xF`. -/
def conditionField (opcode : U16) : Fin 16 := ((opcode >>> 8).setWidth 4).toFin

/-! ## Branches -/

/-- The displacement of Bcc: the low byte, or a word when that is zero. -/
def branchDisplacement (opcode : U16) : M σ U32 := do
  if opcode &&& 0xFF = 0 then do
    pure ((← fetch).signExtend 32)
  else
    pure (sext8 (opcode.setWidth 32))

/-- The branch target: relative to the displacement word when there is one. -/
def branchTarget (opcode : U16) (pc disp : U32) : U32 :=
  if opcode &&& 0xFF = 0 then pc - 2 + disp else pc + disp

/-- BSR: the return address is pushed before the target prefetch faults. -/
def execBsr (target : U32) : M σ Unit := do
  push32 (← getPc)
  if isOdd target then do
    raiseOddTargetFault target target
    charge 18
  else do
    if ← isUnmappedTarget target then do
      raiseBusTargetFault target target
      charge 18
    else do
      setPc target
      charge 18

/-- A taken Bcc. -/
def takeBranch (target : U32) : M σ Unit := do
  let unmapped ← isUnmappedTarget target
  if unmapped && !isOdd target then do
    raiseBusTargetFault target ((← getPpc) + 2)
    charge 10
  else do
    setPc target
    charge 10

/-- `m68k_exec_bcc`. -/
def execBcc (opcode : U16) : M σ Unit := do
  let cond := conditionField opcode
  let disp ← branchDisplacement opcode
  let target := branchTarget opcode (← getPc) disp
  if cond = 1 then
    execBsr target
  else do
    if checkCondition (← getSr) cond then
      takeBranch target
    else
      charge (if opcode &&& 0xFF = 0 then 12 else 8)

/-- A looping DBcc: a faulted branch suppresses the counter writeback. -/
def dbccLoop (reg : Fin 8) (counter target : U32) : M σ Unit := do
  if isOdd target then do
    charge 10
    raiseOddTargetFault target (← getPc)
  else do
    if ← isUnmappedTarget target then do
      charge 10
      raiseBusTargetFault target (← getPc)
    else do
      setD reg counter
      charge 10
      setPc target

/-- `m68k_exec_dbcc`. -/
def execDbcc (opcode : U16) : M σ Unit := do
  let reg := field opcode 0
  let displacement ← fetch
  if checkCondition (← getSr) (conditionField opcode) then
    charge 12
  else do
    let old ← getD reg
    let val : U16 := old.setWidth 16 - 1
    let counter := (old &&& 0xFFFF0000) ||| val.setWidth 32
    if val != 0xFFFF then
      dbccLoop reg counter ((← getPc) - 2 + displacement.signExtend 32)
    else do
      setD reg counter
      charge 14

/-- `m68k_exec_scc`. -/
def execScc (opcode : U16) : M σ Unit := do
  let mode := field opcode 3
  let reg := field opcode 0
  if notDataAlterable mode reg then
    exception 4
  else do
    let result := checkCondition (← getSr) (conditionField opcode)
    let val : U8 := if result then 0xFF else 0x00
    let ea ← calcEaAddr mode reg .byte
    if ea.isData then do
      setD ea.regNum (((← getD ea.regNum) &&& 0xFFFFFF00) ||| val.setWidth 32)
      charge (if result then 6 else 4)
    else do
      write8 ea.address val
      charge 8

/-! ## Jumps and returns -/

/-- JSR: the target prefetch faults before the return address is pushed. -/
def jumpSubroutine (target : U32) : M σ Unit := do
  if isOdd target then
    raiseOddTargetFault target (← getPc)
  else do
    if ← isUnmappedTarget target then
      raiseBusTargetFault target (← getPc)
    else do
      push32 (← getPc)
      setPc target

/-- JMP. -/
def jump (target : U32) : M σ Unit := do
  let unmapped ← isUnmappedTarget target
  if !isOdd target && unmapped then
    raiseBusTargetFault target ((← getPpc) + 2)
  else
    setPc target

/-- `m68k_exec_jmp`: JSR has bit 6 clear. -/
def execJmp (opcode : U16) : M σ Unit := do
  let ea ← calcEaCtl (field opcode 3) (field opcode 0) true
  if !opcode.getLsbD 6 then jumpSubroutine ea.address else jump ea.address

/-- `m68k_exec_rts`. -/
def execRts (_opcode : U16) : M σ Unit := do
  setPc (← pop32)

/-- `m68k_exec_rtr`. -/
def execRtr (_opcode : U16) : M σ Unit := do
  let ccr ← pop16
  let returnPc ← pop32
  modifySr fun sr => (sr &&& 0xFF00) ||| (ccr &&& 0x1F)
  setPc returnPc

/-- `m68k_exec_rtd`. -/
def execRtd (_opcode : U16) : M σ Unit := do
  let retAddr ← pop32
  let disp ← fetch
  setA 7 ((← getA 7) + disp.signExtend 32)
  setPc retAddr

/-- A format error: vector 14 with the PC back at the opcode. -/
def formatError : M σ Unit := do
  modify fun s => { s with pc := s.pc - 2 }
  exception 14

/-- RTE on the 68010: the format word is checked before anything commits. -/
def rte68010 : M σ Unit := do
  let sp ← getA 7
  let fmt ← read16 (sp + 6)
  if fmt &&& 0xF000 != 0 then
    formatError
  else do
    let newSr ← read16 sp
    let newPc ← read32 (sp + 2)
    setA 7 (sp + 8)
    setSr newSr
    setPc newPc

/-- RTE on the 68000. -/
def rte68000 : M σ Unit := do
  let newSr ← pop16
  let newPc ← pop32
  setSr newSr
  setPc newPc

/-- `m68k_exec_rte`. -/
def execRte (_opcode : U16) : M σ Unit :=
  privileged do
    if (← getModel).is68010 then rte68010 else rte68000

/-! ## Traps -/

/-- `m68k_exec_trap`. -/
def execTrap (opcode : U16) : M σ Unit := exception (32 + (opcode &&& 0xF).toNat)

/-- `m68k_exec_trapv`. -/
def execTrapv (_opcode : U16) : M σ Unit := do
  if (← getSr) &&& srV != 0 then exception 7

/-- The cost of a CHK trap. -/
def chkTrapCost (src bound : U16) : Int :=
  if src.toInt > bound.toInt then 38 else if (bound - src).msb then 38 else 40

/-- `m68k_exec_chk`. -/
def execChk (opcode : U16) : M σ Unit := do
  let regIdx := field opcode 9
  let mode := field opcode 3
  let reg := field opcode 0
  if notData mode reg then
    exception 4
  else do
    let ea ← calcEa mode reg .word
    let src : U16 := (← getD regIdx).setWidth 16
    let bound : U16 := ea.value.setWidth 16
    modifySr fun sr => setIf src.msb srN (sr &&& ~~~nzvc)
    if 0 ≤ src.toInt ∧ src.toInt ≤ bound.toInt then
      pure ()
    else do
      charge (chkTrapCost src bound)
      exception 6

/-- `m68k_exec_bkpt`. -/
def execBkpt (_opcode : U16) : M σ Unit := exception 4

/-! ## STOP, RESET, MOVEC -/

/-- `m68k_exec_stop`. -/
def execStop (_opcode : U16) : M σ Unit :=
  privileged do
    let imm ← fetch
    setSr imm
    modify fun s => { s with stopped := true }

/-- The host's RESET hook. -/
def resetHook : M σ Unit := do
  match (← env).resetCb with
  | some cb => call cb
  | none => pure ()

/-- `m68k_exec_reset`. -/
def execReset (_opcode : U16) : M σ Unit := privileged resetHook

/-- The control registers MOVEC knows. -/
inductive ControlReg where
  | sfc
  | dfc
  | usp
  | vbr
  deriving DecidableEq, Repr

/-- The control register field of the MOVEC extension word. -/
def controlReg? (ext : U16) : Option ControlReg :=
  let ctrlReg := ext &&& 0xFFF
  if ctrlReg = 0x000 then some .sfc
  else if ctrlReg = 0x001 then some .dfc
  else if ctrlReg = 0x800 then some .usp
  else if ctrlReg = 0x801 then some .vbr
  else none

def readControl (c : ControlReg) (s : M68kCpu σ) : U32 :=
  match c with
  | .sfc => s.sfc
  | .dfc => s.dfc
  | .usp => s.usp
  | .vbr => s.vbr

def writeControl (c : ControlReg) (v : U32) (s : M68kCpu σ) : M68kCpu σ :=
  match c with
  | .sfc => { s with sfc := v }
  | .dfc => { s with dfc := v }
  | .usp => { s with usp := v }
  | .vbr => { s with vbr := v }

/-- `m68k_exec_movec`. -/
def execMovec (opcode : U16) : M σ Unit :=
  privileged do
    let ext ← fetch
    let isAddr := ext.getLsbD 15
    let regNum := field ext 12
    match controlReg? ext with
    | none => exception 4
    | some c =>
        if opcode &&& 1 != 0 then do
          let v ← if isAddr then getA regNum else getD regNum
          modify (writeControl c v)
        else do
          let v ← gets (readControl c)
          if isAddr then setA regNum v else setD regNum v

end M68k
