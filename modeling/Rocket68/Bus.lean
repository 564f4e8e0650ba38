import Rocket68.Cpu

/-!
# Memory access and exception processing

`m68k_exception` pushes a frame and fetches a vector through the memory access
functions, and these raise address and bus errors through `m68k_exception`. The
recursion is opened here: every access takes `raise`, the exception function
one nesting level down, and `exceptionAt` ties the knot with a level count.
Each nested activation holds one more of the two re-entry guards, so the count
of `exception` is never used up unless a callback clears a guard.
-/

namespace M68k

open Trap TrapM

variable {σ : Type}

/-! ## Addresses -/

/-- `mask_address_24`. -/
def maskAddress24 (address : U32) : U32 := address &&& 0x00FFFFFF

/-- `is_valid_address`. -/
def isValidAddress (s : M68kCpu σ) (address : U32) : Bool := address < s.memorySize

/-- `address & 1`. -/
def isOdd (address : U32) : Bool := address &&& 1 != 0

/-- The big-endian word at a masked address. -/
def wordAt (memory : U32 → U8) (address : U32) : U16 :=
  ((memory address).setWidth 16 <<< 8) ||| (memory (address + 1)).setWidth 16

/-- The big-endian long word at a masked address. -/
def longAt (memory : U32 → U8) (address : U32) : U32 :=
  ((memory address).setWidth 32 <<< 24) ||| ((memory (address + 1)).setWidth 32 <<< 16) |||
    ((memory (address + 2)).setWidth 32 <<< 8) ||| (memory (address + 3)).setWidth 32

/-- Memory after a byte store. -/
def storeByte (memory : U32 → U8) (address : U32) (value : U8) : U32 → U8 :=
  Function.update memory address value

/-- Memory after a big-endian word store. -/
def storeWord (memory : U32 → U8) (address : U32) (value : U16) : U32 → U8 :=
  storeByte (storeByte memory address ((value >>> 8).setWidth 8)) (address + 1)
    (value.setWidth 8)

/-- Memory after a big-endian long word store. -/
def storeLong (memory : U32 → U8) (address : U32) (value : U32) : U32 → U8 :=
  storeByte (storeByte (storeByte (storeByte memory
    address ((value >>> 24).setWidth 8)) (address + 1) ((value >>> 16).setWidth 8))
    (address + 2) ((value >>> 8).setWidth 8)) (address + 3) (value.setWidth 8)

/-! ## Bus helpers -/

/-- `current_fc`. -/
def currentFc (s : M68kCpu σ) (isProgram : Bool) : Nat :=
  let isProgram := isProgram || s.operandProgramSpace
  if s.supervisor then (if isProgram then 6 else 5) else (if isProgram then 2 else 1)

/-- `set_fc`. -/
def setFc (isProgram : Bool) : M σ Unit := do
  match (← env).fcCb with
  | some cb => call fun s => cb (currentFc s isProgram) s
  | none => pure ()

/-- `apply_wait_bus`. -/
def applyWaitBus (address : U32) (size : M68kSize) (isWrite : Bool) : M σ Unit := do
  match (← env).waitBus with
  | some cb =>
      let wait ← call (cb address size isWrite)
      if wait > 0 then charge wait
  | none => pure ()

/-- `capture_access_fault`. -/
def captureAccessFault (address : U32) (isWrite isProgram : Bool) (s : M68kCpu σ) :
    M68kCpu σ :=
  let fc := BitVec.ofNat 16 (currentFc s isProgram) &&& 7
  let rw : U16 := if isWrite then 0 else 0x10
  let ir := if s.faultBusWordValid then s.faultBusWord else s.ir
  { s with
    faultAddress := address
    faultIr := ir
    faultSsw := (ir &&& 0xFFE0) ||| rw ||| fc
    faultProgramAccess := isProgram
    faultValid := true
    group0Fault := true }

/-- `abort_faulted_instruction`: only a fault raised outside exception
processing unwinds the instruction. -/
def abortFaultedInstruction : M σ Unit := do
  if ← gets fun s => s.faultTrapActive && s.group0Fault && s.exceptionDepth == 0 then
    escape

def setInAddressError (b : Bool) : M σ Unit := modify fun s => { s with inAddressError := b }
def setInBusError (b : Bool) : M σ Unit := modify fun s => { s with inBusError := b }

/-- `m68k_set_pc`. -/
def setPc (pc : U32) : M σ Unit := do
  modify fun s => { s with pc := pc }
  match (← env).pcChangedCb with
  | some cb => call (cb pc)
  | none => pure ()

/-- The state change of `m68k_set_sr`. -/
def withSr (newSr : U16) (s : M68kCpu σ) : M68kCpu σ :=
  let newSr := newSr &&& srMask
  let newS := newSr &&& srS != 0
  let s := if s.supervisor != newS then
      (if newS then
        { s with usp := s.aRegs 7, aRegs := Function.update s.aRegs 7 s.ssp }
      else
        { s with ssp := s.aRegs 7, aRegs := Function.update s.aRegs 7 s.usp })
    else s
  { s with sr := newSr }

/-- `m68k_set_sr`. -/
def setSr (newSr : U16) : M σ Unit := modify (withSr newSr)

section Access

/-! ## Accesses over an exception function -/

variable (raise : Nat → M σ Unit)

/-- The address error branch shared by the word and long accesses. -/
def addressFault (kind : Access) (rawAddress : U32) : M σ Unit := do
  modify (captureAccessFault rawAddress (kind == .write) (kind == .fetch))
  note (.fault kind rawAddress)
  setInAddressError true
  raise 3
  setInAddressError false
  abortFaultedInstruction

/-- The bus error branch shared by all accesses. -/
def busFault (kind : Access) (rawAddress : U32) : M σ Unit := do
  modify (captureAccessFault rawAddress (kind == .write) (kind == .fetch))
  note (.fault kind rawAddress)
  setInBusError true
  raise 2
  setInBusError false
  abortFaultedInstruction

/-- `m68k_read_8`. -/
def read8With (rawAddress : U32) : M σ U8 := do
  note (.access .read .byte rawAddress)
  let address := maskAddress24 rawAddress
  applyWaitBus address .byte false
  setFc false
  match (← env).read8Cb with
  | some cb => call (cb address)
  | none =>
      let s ← gets id
      if isValidAddress s address then
        pure (s.memory address)
      else if !s.inBusError then do
        busFault raise .read rawAddress
        pure 0
      else
        pure 0

/-- `m68k_read_16`. -/
def read16With (rawAddress : U32) : M σ U16 := do
  note (.access .read .word rawAddress)
  let address := maskAddress24 rawAddress
  applyWaitBus address .word false
  setFc false
  let s ← gets id
  if isOdd address && !s.inAddressError then do
    addressFault raise .read rawAddress
    pure 0
  else
    match (← env).read16Cb with
    | some cb => call (cb address)
    | none =>
        if isValidAddress s address && isValidAddress s (address + 1) then
          pure (wordAt s.memory address)
        else if !s.inBusError then do
          busFault raise .read rawAddress
          pure 0
        else
          pure 0

/-- `m68k_read_32`. -/
def read32With (rawAddress : U32) : M σ U32 := do
  note (.access .read .long rawAddress)
  let address := maskAddress24 rawAddress
  applyWaitBus address .long false
  setFc false
  let s ← gets id
  if isOdd address && !s.inAddressError then do
    addressFault raise .read rawAddress
    pure 0
  else
    match (← env).read32Cb with
    | some cb => call (cb address)
    | none =>
        if isValidAddress s address && isValidAddress s (address + 3) then
          pure (longAt s.memory address)
        else if !s.inBusError then do
          busFault raise .read rawAddress
          pure 0
        else
          pure 0

/-- `m68k_write_8`. -/
def write8With (rawAddress : U32) (value : U8) : M σ Unit := do
  note (.access .write .byte rawAddress)
  let address := maskAddress24 rawAddress
  applyWaitBus address .byte true
  setFc false
  match (← env).write8Cb with
  | some cb => call (cb address value)
  | none =>
      let s ← gets id
      if isValidAddress s address then
        modify fun s => { s with memory := storeByte s.memory address value }
      else if !s.inBusError then
        busFault raise .write rawAddress
      else
        pure ()

/-- `m68k_write_16`. -/
def write16With (rawAddress : U32) (value : U16) : M σ Unit := do
  note (.access .write .word rawAddress)
  let address := maskAddress24 rawAddress
  applyWaitBus address .word true
  setFc false
  let s ← gets id
  if isOdd address && !s.inAddressError then
    addressFault raise .write rawAddress
  else
    match (← env).write16Cb with
    | some cb => call (cb address value)
    | none =>
        if isValidAddress s address && isValidAddress s (address + 1) then
          modify fun s => { s with memory := storeWord s.memory address value }
        else if !s.inBusError then
          busFault raise .write rawAddress
        else
          pure ()

/-- `m68k_write_32`. -/
def write32With (rawAddress : U32) (value : U32) : M σ Unit := do
  note (.access .write .long rawAddress)
  let address := maskAddress24 rawAddress
  applyWaitBus address .long true
  setFc false
  let s ← gets id
  if isOdd address && !s.inAddressError then
    addressFault raise .write rawAddress
  else
    match (← env).write32Cb with
    | some cb => call (cb address value)
    | none =>
        if isValidAddress s address && isValidAddress s (address + 3) then
          modify fun s => { s with memory := storeLong s.memory address value }
        else if !s.inBusError then
          busFault raise .write rawAddress
        else
          pure ()

/-- `m68k_push_32`. -/
def push32With (value : U32) : M σ Unit := do
  setA 7 ((← getA 7) - 4)
  write32With raise (← getA 7) value

/-- `m68k_push_16`. -/
def push16With (value : U16) : M σ Unit := do
  setA 7 ((← getA 7) - 2)
  write16With raise (← getA 7) value

/-- The 14-byte bus and address error frame. -/
def pushGroup0Frame (oldPc : U32) (oldSr : U16) : M σ Unit := do
  let s ← gets id
  let ir := if s.faultValid then s.faultIr else s.ir
  let faultAddress := if s.faultValid then s.faultAddress else 0
  let ssw := if s.faultValid then s.faultSsw else 0
  push32With raise oldPc
  push16With raise oldSr
  push16With raise ir
  push32With raise faultAddress
  push16With raise ssw

/-- The normal frame, with a format/vector word on the 68010. -/
def pushFrame (vector : Nat) (oldPc : U32) (oldSr : U16) : M σ Unit := do
  if (← getModel).is68010 then
    push16With raise (BitVec.ofNat 16 (vector * 4))
  push32With raise oldPc
  push16With raise oldSr

/-- The PC `m68k_exception` stacks. -/
def stackedPc (vector : Nat) (s : M68kCpu σ) : U32 :=
  if (vector = 2 ∨ vector = 3) ∧ s.faultPcValid then s.faultPc
  else if vector = 4 ∨ vector = 8 ∨ vector = 10 ∨ vector = 11 then s.ppc
  else s.pc

/-- The `exception_thrown` and `exception_depth` bookkeeping on entry. -/
def enterException (vector : Nat) (s : M68kCpu σ) : M68kCpu σ :=
  { s with
    exceptionThrown := if s.exceptionThrown = 0 then vector else s.exceptionThrown
    exceptionDepth := s.exceptionDepth + 1
    log := .exception vector :: s.log }

/-- The latches cleared once the frame is pushed. -/
def clearFaultLatches (s : M68kCpu σ) : M68kCpu σ :=
  { s with
    faultProgramAccess := false
    faultValid := false
    faultPcValid := false
    faultBusWordValid := false
    operandProgramSpace := false }

/-- `m68k_exception` past the illegal opcode callback. -/
def processException (vector : Nat) : M σ Unit := do
  modify (enterException vector)
  let oldSr ← getSr
  let oldPc ← gets (stackedPc vector)
  setSr ((oldSr ||| srS) &&& ~~~srT)
  if vector = 2 ∨ vector = 3 then
    pushGroup0Frame raise oldPc oldSr
  else
    pushFrame raise vector oldPc oldSr
  modify clearFaultLatches
  let vbr ← gets (·.vbr)
  let vectorAddr ← read32With raise (vbr + BitVec.ofNat 32 vector * 4)
  setPc vectorAddr
  modify fun s => { s with exceptionDepth := s.exceptionDepth - 1 }

/-- The illegal opcode callback's claim on vector 4. -/
def illegalClaimed (vector : Nat) : M σ Bool := do
  if vector = 4 then
    match (← env).illgCb with
    | some cb =>
        let ir ← gets (·.ir)
        let r ← call (cb ir)
        pure (r != 0)
    | none => pure false
  else
    pure false

end Access

/-- `m68k_exception` with `n` nesting levels available. -/
def exceptionAt : Nat → Nat → M σ Unit
  | 0, _ => stuck
  | n + 1, vector => do
      if ← illegalClaimed vector then pure ()
      else processException (exceptionAt n) vector

/-- `m68k_exception`. Two guards allow two nested activations. -/
def exception (vector : Nat) : M σ Unit := exceptionAt 3 vector

def read8 (address : U32) : M σ U8 := read8With exception address
def read16 (address : U32) : M σ U16 := read16With exception address
def read32 (address : U32) : M σ U32 := read32With exception address
def write8 (address : U32) (value : U8) : M σ Unit := write8With exception address value
def write16 (address : U32) (value : U16) : M σ Unit := write16With exception address value
def write32 (address : U32) (value : U32) : M σ Unit := write32With exception address value
def push32 (value : U32) : M σ Unit := push32With exception value

/-- `m68k_pop_32`. -/
def pop32 : M σ U32 := do
  let value ← read32 (← getA 7)
  setA 7 ((← getA 7) + 4)
  pure value

/-- `m68k_pop_16`. -/
def pop16 : M σ U16 := do
  let value ← read16 (← getA 7)
  setA 7 ((← getA 7) + 2)
  pure value

/-- `m68k_fetch`. With a held bus error guard an unmapped word reads as 0 and
the PC still advances. -/
def fetch : M σ U16 := do
  note (.access .fetch .word (← getPc))
  setFc true
  let rawFetchAddr ← getPc
  let fetchAddr := maskAddress24 rawFetchAddr
  applyWaitBus fetchAddr .word false
  let s ← gets id
  if isOdd fetchAddr && !s.inAddressError then do
    addressFault exception .fetch rawFetchAddr
    pure 0
  else
    match (← env).read16Cb with
    | some cb => do
        let opcode ← call (cb fetchAddr)
        modify fun s => { s with pc := s.pc + 2 }
        pure opcode
    | none =>
        if isValidAddress s fetchAddr && isValidAddress s (fetchAddr + 1) then do
          modify fun s => { s with pc := s.pc + 2 }
          pure (wordAt s.memory fetchAddr)
        else if !s.inBusError then do
          busFault exception .fetch rawFetchAddr
          pure 0
        else do
          modify fun s => { s with pc := s.pc + 2 }
          pure 0

/-- `m68k_read_size`. -/
def readSize (address : U32) : M68kSize → M σ U32
  | .byte => do pure ((← read8 address).setWidth 32)
  | .word => do pure ((← read16 address).setWidth 32)
  | .long => read32 address

/-- `m68k_write_size`. -/
def writeSize (address value : U32) : M68kSize → M σ Unit
  | .byte => write8 address (value.setWidth 8)
  | .word => write16 address (value.setWidth 16)
  | .long => write32 address value

/-- `m68k_peek_word`. -/
def peekWord (address : U32) : M σ U16 := do
  let address := maskAddress24 address
  match (← env).read16Cb with
  | some cb => call (cb address)
  | none =>
      let s ← gets id
      if address + 1 < s.memorySize then pure (wordAt s.memory address) else pure 0

/-! ## Faults raised by handlers -/

/-- `m68k_raise_illegal_ea`. -/
def raiseIllegalEa : M σ Unit := do
  exception 4
  if ← gets fun s => s.faultTrapActive && s.exceptionDepth == 0 then escape

/-- `m68k_raise_odd_target_fault`. -/
def raiseOddTargetFault (target faultPc : U32) : M σ Unit := do
  charge 50
  modify (captureAccessFault target false true)
  latchFaultPc faultPc
  setInAddressError true
  exception 3
  setInAddressError false

/-- `m68k_raise_bus_target_fault`. -/
def raiseBusTargetFault (target faultPc : U32) : M σ Unit := do
  charge 50
  modify (captureAccessFault target false true)
  latchFaultPc faultPc
  setInBusError true
  exception 2
  setInBusError false

/-- `m68k_is_unmapped_target`. -/
def isUnmappedTarget (target : U32) : M σ Bool := do
  match (← env).read16Cb with
  | some _ => pure false
  | none =>
      let fetchAddr := maskAddress24 target
      gets fun s => !isValidAddress s fetchAddr || !isValidAddress s (fetchAddr + 1)

end M68k
