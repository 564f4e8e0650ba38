import Rocket68.Ops.Move
import Rocket68.Ops.Logic
import Rocket68.Ops.Bit
import Rocket68.Ops.Control

/-!
# The step function

Interrupt sampling, the decoder and the exit of `m68k_step_ex`. The decoder is
one function per opcode line, each an if-chain in the order of the source; a
line returns the cycles the exit charges.
-/

namespace M68k

open Trap TrapM

variable {σ : Type}

/-! ## Initialisation -/

/-- `m68k_init`. -/
def init (memory : U32 → U8) (memorySize : U32) (host : σ) : M68kCpu σ where
  dRegs := fun _ => 0
  aRegs := fun _ => 0
  pc := 0
  ppc := 0
  sr := 0
  ir := 0
  memory := memory
  memorySize := memorySize
  irqLevel := 0
  nmiPending := false
  usp := 0
  ssp := 0
  stopped := false
  tracePending := false
  exceptionThrown := 0
  exceptionDepth := 0
  inAddressError := false
  inBusError := false
  faultAddress := 0
  faultPc := 0
  faultIr := 0
  faultSsw := 0
  faultProgramAccess := false
  faultValid := false
  faultPcValid := false
  faultBusWord := 0
  faultBusWordValid := false
  operandProgramSpace := false
  group0Fault := false
  faultTrapActive := false
  model := .m68000
  vbr := 0
  sfc := 0
  dfc := 0
  targetCycles := 0
  cyclesRemaining := 0
  host := host
  log := []

/-- The assignments of `m68k_reset` before its vector fetches. -/
def clearForReset (s : M68kCpu σ) : M68kCpu σ :=
  { s with
    dRegs := fun _ => 0
    aRegs := fun _ => 0
    sr := 0x2700
    usp := 0
    stopped := false
    tracePending := false
    exceptionThrown := 0
    irqLevel := 0
    nmiPending := false
    inAddressError := false
    inBusError := false
    faultProgramAccess := false
    faultValid := false
    group0Fault := false
    faultTrapActive := false
    exceptionDepth := 0
    ppc := 0
    ir := 0
    vbr := 0 }

/-- `m68k_reset`. -/
def reset : M σ Unit := do
  modify clearForReset
  let sp ← read32 0
  setA 7 sp
  let pc ← read32 4
  modify fun s => { s with pc := pc }

/-! ## Interrupts -/

/-- `m68k_set_irq`. -/
def setIrq (level : Nat) (s : M68kCpu σ) : M68kCpu σ :=
  { s with
    nmiPending := if level = 7 ∧ s.irqLevel ≠ 7 then true else s.nmiPending
    irqLevel := level }

/-- The condition under which `check_interrupts` services the request. -/
def interruptDue (s : M68kCpu σ) : Bool :=
  s.irqLevel != 0 && (if s.irqLevel = 7 then s.nmiPending else decide (s.irqLevel > s.mask))

/-- `M68K_INT_ACK_AUTOVECTOR`. -/
def intAckAutovector : U32 := 0xFFFFFFFF
/-- `M68K_INT_ACK_SPURIOUS`. -/
def intAckSpurious : U32 := 0xFFFFFFFE

/-- The vector of an acknowledge response. -/
def ackVector (ack : U32) (level : Nat) : Nat :=
  if ack = intAckAutovector then 24 + level
  else if ack = intAckSpurious then 24
  else (ack &&& 0xFF).toNat

/-- The acknowledge cycle: function code 7, then the host's answer. -/
def acknowledge (level : Nat) : M σ Nat := do
  match (← env).fcCb with
  | some cb => call (cb 7)
  | none => pure ()
  match (← env).intAck with
  | some cb => do
      let ack ← call (cb level)
      pure (ackVector ack level)
  | none => pure (24 + level)

/-- The state changes after the exception of a serviced interrupt; `held` says
that an INT ACK callback holds the line. -/
def finishInterrupt (level : Nat) (held : Bool) (s : M68kCpu σ) : M68kCpu σ :=
  { s with
    sr := (s.sr &&& ~~~(0x0700 : U16)) ||| (BitVec.ofNat 16 level <<< 8)
    nmiPending := false
    irqLevel := if held then s.irqLevel else 0
    stopped := false }

/-- `check_interrupts`. -/
def checkInterrupts : M σ Bool := do
  if ← gets interruptDue then do
    let level ← gets (·.irqLevel)
    let vector ← acknowledge level
    exception vector
    modify (finishInterrupt level (← env).intAck.isSome)
    pure true
  else
    pure false

/-! ## Timing helpers -/

/-- `imm_alu_cycles`. -/
def immAluCycles (opcode : U16) : Int :=
  let isLong := sizeBits opcode == 2
  if opcode &&& 0x38 = 0 then (if isLong then 8 else 4) else (if isLong then 12 else 8)

/-- A register or immediate operand. -/
def regOrImmediate (mode reg : Fin 8) : Bool := mode ≤ 1 || (mode == 7 && reg == 4)

/-- `alu_base_cycles`; `dir` is set for register to effective address. -/
def aluBaseCycles (dir : Bool) (size : M68kSize) (mode reg : Fin 8) : Int :=
  if !dir then
    if size = .long then (if regOrImmediate mode reg then 8 else 6) else 4
  else if mode = 0 then
    if size = .long then 8 else 4
  else
    if size = .long then 12 else 8

/-- The cost of ADDA and SUBA. -/
def addressAluCycles (opmode mode reg : Fin 8) : Int :=
  if opmode = 7 then (if regOrImmediate mode reg then 8 else 6) else 8

/-- The cost of NEGX, CLR, NEG and NOT. -/
def unaryCycles (opcode : U16) : Int :=
  let isLong := sizeBits opcode == 2
  if field opcode 3 = 0 then (if isLong then 6 else 4) else (if isLong then 12 else 8)

/-- The cost of ADDX and SUBX. -/
def extendedCycles (opmode mode : Fin 8) : Int :=
  let isLong := opmode == 6
  if mode = 1 then (if isLong then 16 else 8) else (if isLong then 8 else 4)

/-- The cost of ADDQ and SUBQ. -/
def quickCycles (opcode : U16) : Int :=
  let isLong := sizeBits opcode == 2
  match field opcode 3 with
  | 1 => 8
  | 0 => if isLong then 8 else 4
  | _ => if isLong then 12 else 8

/-- The cost of CMP, CMPA and CMPM. -/
def cmpCycles (opmode mode : Fin 8) : Int :=
  if opmode = 3 ∨ opmode = 7 then 6
  else if regToEa opmode ∧ mode = 1 then (if opmode = 6 then 8 else 4)
  else if opmode = 2 then 6
  else 4

/-! ## Decoding -/

/-- A handler followed by its cost. -/
def costed (body : M σ Unit) (cycles : Int) : M σ Int := do
  body
  pure cycles

/-- `m68k_exception(cpu, 4); cycles = 34`. -/
def illegalOpcode : M σ Int := costed (exception 4) 34

/-- The bit operation of the size field. -/
def execBit (opcode : U16) : M σ Unit :=
  match sizeBits opcode with
  | 0 => execBtst opcode
  | 1 => execBchg opcode
  | 2 => execBclr opcode
  | 3 => execBset opcode

/-- The bit operations with an immediate bit number. -/
def staticBit (opcode : U16) : M σ Int := do
  let breg := opcode &&& 0x38 == 0
  let bhi : Int ← if breg then do
      pure (if (← peekWord (← getPc)) &&& 31 ≥ 16 then 1 else 0)
    else pure 0
  costed (execBit opcode) <|
    match sizeBits opcode with
    | 0 => if breg then 10 else 8
    | 2 => if breg then 12 + 2 * bhi else 12
    | _ => if breg then 10 + 2 * bhi else 12

/-- The bit operations with a bit number register. -/
def dynamicBit (opcode : U16) : M σ Int := do
  let bitHi : Int := if (← getD (field opcode 9)) &&& 31 ≥ 16 then 1 else 0
  let regDest := opcode &&& 0x38 == 0
  let immDest := opcode &&& 0x3F == 0x3C
  costed (execBit opcode) <|
    match sizeBits opcode with
    | 0 => if regDest then 6 else if immDest then 6 else 4
    | 2 => if regDest then 8 + 2 * bitHi else 8
    | _ => if regDest then 6 + 2 * bitHi else 8

/-- The immediate ALU encodings with size code 3. -/
def immediateSize3 (opcode : U16) : Bool :=
  let top4 := conditionField opcode
  sizeBits opcode == 3 &&
    (top4 == 0x0 || top4 == 0x2 || top4 == 0x4 || top4 == 0x6 || top4 == 0xA || top4 == 0xC)

/-- Line 0: immediate, bit, MOVEP and MOVES. -/
def line0 (opcode : U16) : M σ Int := do
  let top4 := conditionField opcode
  if immediateSize3 opcode then
    illegalOpcode
  else if top4 = 0xE then do
    if !(← getModel).is68010 || sizeBits opcode == 3 then
      illegalOpcode
    else
      costed (execMoves opcode) 4
  else if top4 = 0x0 then
    costed (execOri opcode) (if opcode &&& 0xFFBF = 0x003C then 20 else immAluCycles opcode)
  else if top4 = 0x2 then
    costed (execAndi opcode) (if opcode &&& 0xFFBF = 0x023C then 20 else immAluCycles opcode)
  else if top4 = 0x4 then
    costed (execSubi opcode) (immAluCycles opcode)
  else if top4 = 0x6 then
    costed (execAddi opcode) (immAluCycles opcode)
  else if top4 = 0xA then
    costed (execEori opcode) (if opcode &&& 0xFFBF = 0x0A3C then 20 else immAluCycles opcode)
  else if top4 = 0xC then
    costed (execCmpi opcode)
      (if sizeBits opcode = 2 ∧ opcode &&& 0x38 = 0 then 6 else 4)
  else if top4 = 0x8 then
    staticBit opcode
  else if field opcode 3 = 1 then
    costed (execMovep opcode) (if opcode.getLsbD 6 then 24 else 16)
  else
    dynamicBit opcode

/-- Lines 1 to 3: MOVE. -/
def lineMove (opcode : U16) : M σ Int :=
  costed (execMove opcode)
    (if field opcode 6 = 4 then (if (opcode >>> 12) &&& 3 = 2 then 2 else 0) else 4)

/-- An instruction of the 68010, illegal on the 68000. -/
def only68010 (body : M σ Unit) (cycles : Int) : M σ Int := do
  if !(← getModel).is68010 then illegalOpcode else costed body cycles

/-- JSR: a faulted target skips the push and its cost. -/
def lineJsr (opcode : U16) : M σ Int := do
  execJmp opcode
  let thrown ← gets (·.exceptionThrown)
  pure (if thrown = 2 ∨ thrown = 3 then 0 else 8)

/-- The second half of line 4, reached when no earlier mask matched. -/
def line4Rest (opcode : U16) : M σ Int := do
  let regDest := opcode &&& 0x38 == 0
  let mode := field opcode 3
  if opcode &&& 0xFB80 = 0x4880 then
    if mode = 0 then costed (execExt opcode) 4 else costed (execMovem opcode) 0
  else if opcode &&& 0xFFF8 = 0x4E50 then costed (execLink opcode) 16
  else if opcode &&& 0xFFF8 = 0x4E58 then costed (execUnlk opcode) 8
  else if opcode &&& 0xFFC0 = 0x4AC0 then costed (execTas opcode) (if regDest then 4 else 10)
  else if opcode &&& 0xFFC0 = 0x4800 then costed (execNbcd opcode) (if regDest then 6 else 8)
  else if opcode &&& 0xFFC0 = 0x4840 then
    if mode = 0 then costed (execSwap opcode) 4 else costed (execPea opcode) 8
  else if opcode &&& 0xFF00 = 0x4A00 then costed (execTst opcode) 4
  else if opcode &&& 0xFF00 = 0x4000 then costed (execNegx opcode) (unaryCycles opcode)
  else if opcode &&& 0xFFC0 = 0x42C0 then
    only68010 (execMoveSr opcode) (if regDest then 4 else 8)
  else if opcode &&& 0xFF00 = 0x4200 then costed (execClr opcode) (unaryCycles opcode)
  else if opcode &&& 0xFF00 = 0x4400 then costed (execNeg opcode) (unaryCycles opcode)
  else if opcode &&& 0xFF00 = 0x4600 then costed (execNot opcode) (unaryCycles opcode)
  else illegalOpcode

/-- Line 4. -/
def line4 (opcode : U16) : M σ Int := do
  if opcode = 0x4E70 then costed (execReset opcode) 132
  else if opcode = 0x4E71 then pure 4
  else if opcode = 0x4E72 then costed (execStop opcode) 4
  else if opcode = 0x4E73 then costed (execRte opcode) 20
  else if opcode = 0x4E75 then costed (execRts opcode) 16
  else if opcode = 0x4E76 then costed (execTrapv opcode) 4
  else if opcode = 0x4E77 then costed (execRtr opcode) 20
  else if opcode = 0x4E74 then only68010 (execRtd opcode) 16
  else if opcode = 0x4E7A ∨ opcode = 0x4E7B then only68010 (execMovec opcode) 12
  else if opcode &&& 0xFFF8 = 0x4848 then only68010 (execBkpt opcode) 4
  else if opcode &&& 0xFFF0 = 0x4E40 then costed (execTrap opcode) 34
  else if opcode &&& 0xFFF0 = 0x4E60 then costed (execMoveUsp opcode) 4
  else if opcode &&& 0xFFC0 = 0x4E80 then lineJsr opcode
  else if opcode &&& 0xFFC0 = 0x4EC0 then costed (execJmp opcode) 0
  else if opcode &&& 0xFFC0 = 0x40C0 then
    costed (execMoveSr opcode) (if opcode &&& 0x38 = 0 then 6 else 8)
  else if opcode &&& 0xFFC0 = 0x44C0 then costed (execMoveCcr opcode) 12
  else if opcode &&& 0xFFC0 = 0x46C0 then costed (execMoveSr opcode) 12
  else if opcode &&& 0xF1C0 = 0x4180 then costed (execChk opcode) 10
  else if opcode &&& 0xF1C0 = 0x41C0 then costed (execLea opcode) 0
  else line4Rest opcode

/-- Line 5: ADDQ, SUBQ, Scc and DBcc. -/
def line5 (opcode : U16) : M σ Int :=
  if opcode &&& 0x00C0 = 0x00C0 then
    if field opcode 3 = 1 then costed (execDbcc opcode) 0 else costed (execScc opcode) 0
  else
    costed (if opcode &&& 0x0100 != 0 then execSubq opcode else execAddq opcode)
      (quickCycles opcode)

/-- Line 7: MOVEQ. -/
def line7 (opcode : U16) : M σ Int :=
  if opcode &&& 0xF100 = 0x7000 then costed (execMoveq opcode) 4 else illegalOpcode

/-- Line 8: DIV, SBCD and OR. -/
def line8 (opcode : U16) : M σ Int :=
  let opmode := field opcode 6
  let mode := field opcode 3
  if opmode = 3 ∨ opmode = 7 then costed (execDiv opcode) 0
  else if opmode = 4 ∧ (mode = 0 ∨ mode = 1) then
    costed (execSbcd opcode) (if mode = 1 then 18 else 6)
  else
    costed (execOr opcode)
      (aluBaseCycles (opcode.getLsbD 8) (opmodeSize opmode) mode (field opcode 0))

/-- Lines 9 and D: SUB and ADD, with their address and extended forms. -/
def lineAddSub (extended standard : U16 → M σ Unit) (opcode : U16) : M σ Int :=
  let opmode := field opcode 6
  let mode := field opcode 3
  let reg := field opcode 0
  if regToEa opmode ∧ (mode = 0 ∨ mode = 1) then
    costed (extended opcode) (extendedCycles opmode mode)
  else
    costed (standard opcode)
      (if opmode = 3 ∨ opmode = 7 then addressAluCycles opmode mode reg
        else aluBaseCycles (opcode.getLsbD 8) (opmodeSize opmode) mode reg)

/-- Line 9. -/
def line9 : U16 → M σ Int := lineAddSub execSubx execSub

/-- Line D. -/
def lineD : U16 → M σ Int := lineAddSub execAddx execAdd

/-- Line B: CMP, CMPA, CMPM and EOR. -/
def lineB (opcode : U16) : M σ Int :=
  let opmode := field opcode 6
  let mode := field opcode 3
  if regToEa opmode ∧ mode ≠ 1 then
    costed (execEor opcode) (aluBaseCycles true (opmodeSize opmode) mode (field opcode 0))
  else
    costed (execCmp opcode) (cmpCycles opmode mode)

/-- The EXG encodings. -/
def isExg (opcode : U16) : Bool :=
  let opmode := field opcode 6
  let low := (opcode >>> 3) &&& 0x1F
  (opmode == 5 && low == 0x08) || (opmode == 5 && low == 0x09) || (opmode == 6 && low == 0x11)

/-- Line C: MUL, ABCD, EXG and AND. -/
def lineC (opcode : U16) : M σ Int :=
  let opmode := field opcode 6
  let mode := field opcode 3
  if opmode = 3 ∨ opmode = 7 then costed (execMul opcode) 0
  else if opmode = 4 ∧ (mode = 0 ∨ mode = 1) then
    costed (execAbcd opcode) (if mode = 1 then 18 else 6)
  else if isExg opcode then costed (execExg opcode) 6
  else
    costed (execAnd opcode)
      (aluBaseCycles (opcode.getLsbD 8) (opmodeSize opmode) mode (field opcode 0))

/-- The cost of line E, from the shift count before execution. -/
def shiftCycles (opcode : U16) : M σ Int := do
  if opcode &&& 0x00C0 = 0x00C0 then pure 8
  else do
    let count ← shiftCount opcode
    pure ((if sizeBits opcode = 2 then 8 else 6) + 2 * (count : Int))

/-- Line E: shifts and rotates. -/
def lineE (opcode : U16) : M σ Int := do
  let cycles ← shiftCycles opcode
  costed (execShift opcode) cycles

/-- The opcode's line, `opcode >> 12`. -/
def lineOf (opcode : U16) : Fin 16 := ((opcode >>> 12).setWidth 4).toFin

/-- The instruction decoder. -/
def dispatch (opcode : U16) : M σ Int :=
  match (lineOf opcode : Nat) with
  | 0x0 => line0 opcode
  | 0x1 | 0x2 | 0x3 => lineMove opcode
  | 0x4 => line4 opcode
  | 0x5 => line5 opcode
  | 0x6 => costed (execBcc opcode) 0
  | 0x7 => line7 opcode
  | 0x8 => line8 opcode
  | 0x9 => line9 opcode
  | 0xA => costed (exception 10) 34
  | 0xB => lineB opcode
  | 0xC => lineC opcode
  | 0xD => lineD opcode
  | 0xE => lineE opcode
  | _ => costed (exception 11) 34

/-! ## The step -/

/-- The guards and latches `m68k_step_ex` clears, and a fresh observation. -/
def beginStep (s : M68kCpu σ) : M68kCpu σ :=
  { s with
    exceptionThrown := 0
    inAddressError := false
    inBusError := false
    faultProgramAccess := false
    faultValid := false
    group0Fault := false
    faultTrapActive := false
    log := [] }

/-- The instruction hook. -/
def instrHook : M σ Unit := do
  match (← env).instrHookCb with
  | some cb => do
      let pc ← getPc
      call (cb pc)
  | none => pure ()

/-- Exceptions raised during execution replace the instruction's cost. -/
def exceptionCost (thrown : Nat) (cycles : Int) : Int :=
  match thrown with
  | 4 => 34
  | 5 => 38
  | 6 => 0
  | 7 | 8 => 34
  | _ => cycles

/-- `cpu->fault_trap_active = b`. -/
def setTrapActive (b : Bool) : M σ Unit := modify fun s => { s with faultTrapActive := b }

/-- A transfer to an odd address faults on the target prefetch. -/
def checkTarget : M σ Unit := do
  let s ← gets id
  if isOdd s.pc && !s.inAddressError then
    raiseOddTargetFault s.pc (s.ppc + 2)

/-- The trace exception of an instruction that began with T set. -/
def deliverTrace (check traceActive : Bool) : M σ Unit := do
  let s ← gets id
  if !s.group0Fault && check && traceActive && !s.stopped then
    exception 9

/-- The code at `done:`. -/
def finishStep (check traceActive : Bool) (cycles : Int) : M σ Unit := do
  setTrapActive false
  let cycles := exceptionCost (← gets (·.exceptionThrown)) cycles
  checkTarget
  deliverTrace check traceActive
  charge cycles

/-- The latches set before the opcode fetch. -/
def armTrap (s : M68kCpu σ) : M68kCpu σ :=
  { s with faultTrapActive := true, ppc := s.pc, faultPcValid := false }

/-- Fetch, decode and execute, under the armed trap. -/
def execInstruction (check traceActive : Bool) : M σ Unit := do
  modify armTrap
  let opcode ← fetch
  if ← gets (·.group0Fault) then do
    setTrapActive false
    charge 54
  else do
    modify fun s => { s with ir := opcode }
    let cycles ← dispatch opcode
    finishStep check traceActive cycles

/-- The `setjmp` return of an aborted instruction. -/
def abortInstruction : M σ Unit := do
  setTrapActive false
  charge (if ← gets (·.group0Fault) then 54 else 34)

/-- `check_exceptions && check_interrupts(cpu)`. -/
def serviceInterrupts (check : Bool) : M σ Bool :=
  if check then checkInterrupts else pure false

/-- `m68k_step_ex`. -/
def stepEx (check : Bool) : M σ Unit := do
  modify beginStep
  if ← gets (·.stopped) then do
    if ← serviceInterrupts check then charge 44 else charge 4
  else do
    if ← serviceInterrupts check then
      charge 44
    else do
      let traceActive ← gets (·.traced)
      instrHook
      catchTrap (execInstruction check traceActive) abortInstruction

/-- `m68k_step`. -/
def step : M σ Unit := stepEx true

end M68k
