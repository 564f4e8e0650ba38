import Rocket68.Trap.Basic

/-!
# The CPU context

`M68kCpu` is the context record of `m68k.h`, with three changes of
representation. The bytes behind the bound memory pointer are a field, so that
a state holds everything a run reads. `host` is whatever the host keeps for its
callbacks. `log` is an observation of the current step (bus accesses, access
faults, exceptions taken), newest first; no function of the model reads it.

Callbacks live in `Host`, the environment of every computation, because a
callback is a function of the context it is stored in.
-/

namespace M68k

open Trap

abbrev U8 := BitVec 8
abbrev U16 := BitVec 16
abbrev U32 := BitVec 32

-- Opcode fields are numerals of `Fin 8`, `Fin 4` and `Fin 16`.
instance neZeroField : NeZero (8 : Nat) := ⟨by decide⟩
instance neZeroSize : NeZero (4 : Nat) := ⟨by decide⟩
instance neZeroLine : NeZero (16 : Nat) := ⟨by decide⟩

/-- Operand size. -/
inductive M68kSize where
  | byte
  | word
  | long
  deriving DecidableEq, Repr

/-- Operand size in bytes (the value of the enumerator). -/
def M68kSize.bytes : M68kSize → U32
  | .byte => 1
  | .word => 2
  | .long => 4

/-- CPU model selection. -/
inductive M68kModel where
  | m68000
  | m68010
  deriving DecidableEq, Repr

/-- `model >= M68K_MODEL_68010`. -/
def M68kModel.is68010 : M68kModel → Bool
  | .m68000 => false
  | .m68010 => true

/-- The kinds of bus access. -/
inductive Access where
  | fetch
  | read
  | write
  deriving DecidableEq, Repr

/-- What a step shows to an observer. Addresses are as the caller gave them,
before the 24-bit mask. -/
inductive Event where
  | access (kind : Access) (size : M68kSize) (address : U32)
  | fault (kind : Access) (address : U32)
  | exception (vector : Nat)
  deriving DecidableEq, Repr

/-- The CPU context. -/
structure M68kCpu (σ : Type) where
  dRegs : Fin 8 → U32
  aRegs : Fin 8 → U32
  pc : U32
  ppc : U32
  sr : U16
  ir : U16
  memory : U32 → U8
  memorySize : U32
  irqLevel : Nat
  nmiPending : Bool
  usp : U32
  ssp : U32
  stopped : Bool
  tracePending : Bool
  exceptionThrown : Nat
  exceptionDepth : Int
  inAddressError : Bool
  inBusError : Bool
  faultAddress : U32
  faultPc : U32
  faultIr : U16
  faultSsw : U16
  faultProgramAccess : Bool
  faultValid : Bool
  faultPcValid : Bool
  faultBusWord : U16
  faultBusWordValid : Bool
  operandProgramSpace : Bool
  group0Fault : Bool
  faultTrapActive : Bool
  model : M68kModel
  vbr : U32
  sfc : U32
  dfc : U32
  targetCycles : Int
  cyclesRemaining : Int
  host : σ
  log : List Event

/-- The callbacks a host may install. Each sees the context and may change it. -/
structure Host (σ : Type) where
  waitBus : Option (U32 → M68kSize → Bool → M68kCpu σ → M68kCpu σ × Int)
  intAck : Option (Nat → M68kCpu σ → M68kCpu σ × U32)
  fcCb : Option (Nat → M68kCpu σ → M68kCpu σ × Unit)
  instrHookCb : Option (U32 → M68kCpu σ → M68kCpu σ × Unit)
  pcChangedCb : Option (U32 → M68kCpu σ → M68kCpu σ × Unit)
  resetCb : Option (M68kCpu σ → M68kCpu σ × Unit)
  tasCb : Option (M68kCpu σ → M68kCpu σ × Int)
  illgCb : Option (U16 → M68kCpu σ → M68kCpu σ × Int)
  read8Cb : Option (U32 → M68kCpu σ → M68kCpu σ × U8)
  read16Cb : Option (U32 → M68kCpu σ → M68kCpu σ × U16)
  read32Cb : Option (U32 → M68kCpu σ → M68kCpu σ × U32)
  write8Cb : Option (U32 → U8 → M68kCpu σ → M68kCpu σ × Unit)
  write16Cb : Option (U32 → U16 → M68kCpu σ → M68kCpu σ × Unit)
  write32Cb : Option (U32 → U32 → M68kCpu σ → M68kCpu σ × Unit)

/-- No callback installed. -/
def Host.none (σ : Type) : Host σ where
  waitBus := .none
  intAck := .none
  fcCb := .none
  instrHookCb := .none
  pcChangedCb := .none
  resetCb := .none
  tasCb := .none
  illgCb := .none
  read8Cb := .none
  read16Cb := .none
  read32Cb := .none
  write8Cb := .none
  write16Cb := .none
  write32Cb := .none

/-- Computations of the emulator. -/
abbrev M (σ : Type) := TrapM (Host σ) (M68kCpu σ)

/-! ## Status register bits -/

/-- `M68K_SR_C`. -/
def srC : U16 := 0x0001
/-- `M68K_SR_V`. -/
def srV : U16 := 0x0002
/-- `M68K_SR_Z`. -/
def srZ : U16 := 0x0004
/-- `M68K_SR_N`. -/
def srN : U16 := 0x0008
/-- `M68K_SR_X`. -/
def srX : U16 := 0x0010
/-- `M68K_SR_S`. -/
def srS : U16 := 0x2000
/-- The trace bit. -/
def srT : U16 := 0x8000
/-- The bits `m68k_set_sr` keeps. -/
def srMask : U16 := 0xA71F

variable {σ : Type}

/-- Supervisor state. -/
def M68kCpu.supervisor (s : M68kCpu σ) : Bool := s.sr &&& srS != 0

/-- Trace enabled. -/
def M68kCpu.traced (s : M68kCpu σ) : Bool := s.sr &&& srT != 0

/-- The interrupt mask. -/
def M68kCpu.mask (s : M68kCpu σ) : Nat := ((s.sr >>> 8) &&& 7).toNat

/-- The user stack pointer, wherever it is banked. -/
def M68kCpu.userSp (s : M68kCpu σ) : U32 := if s.supervisor then s.usp else s.aRegs 7

/-- The supervisor stack pointer, wherever it is banked. -/
def M68kCpu.supervisorSp (s : M68kCpu σ) : U32 := if s.supervisor then s.aRegs 7 else s.ssp

/-! ## Reading and writing the context -/

def getD (r : Fin 8) : M σ U32 := .gets (·.dRegs r)
def getA (r : Fin 8) : M σ U32 := .gets (·.aRegs r)
def getPc : M σ U32 := .gets (·.pc)
def getPpc : M σ U32 := .gets (·.ppc)
def getSr : M σ U16 := .gets (·.sr)
def getModel : M σ M68kModel := .gets (·.model)

def setD (r : Fin 8) (v : U32) : M σ Unit :=
  .modify fun s => { s with dRegs := Function.update s.dRegs r v }

def setA (r : Fin 8) (v : U32) : M σ Unit :=
  .modify fun s => { s with aRegs := Function.update s.aRegs r v }

/-- An assignment to the condition codes in `cpu->sr`, as a function of the
old status register. -/
def modifySr (f : U16 → U16) : M σ Unit := .modify fun s => { s with sr := f s.sr }

/-- `cpu->cycles_remaining -= n`. -/
def charge (n : Int) : M σ Unit :=
  .modify fun s => { s with cyclesRemaining := s.cyclesRemaining - n }

/-- `cpu->fault_pc = v; cpu->fault_pc_valid = true`. -/
def latchFaultPc (v : U32) : M σ Unit :=
  .modify fun s => { s with faultPc := v, faultPcValid := true }

/-- `cpu->operand_program_space = b`. -/
def setProgramSpace (b : Bool) : M σ Unit :=
  .modify fun s => { s with operandProgramSpace := b }

/-- The state with one more observed event. -/
def M68kCpu.noted (e : Event) (s : M68kCpu σ) : M68kCpu σ := { s with log := e :: s.log }

def note (e : Event) : M σ Unit := .modify (·.noted e)

/-! ## Opcode fields -/

/-- `(opcode >> shift) & 0x7`. -/
def field (opcode : U16) (shift : Nat) : Fin 8 := ((opcode >>> shift).setWidth 3).toFin

/-- The two-bit size field `(opcode >> 6) & 0x3`. -/
def sizeBits (opcode : U16) : Fin 4 := ((opcode >>> 6).setWidth 2).toFin

/-- The size code of most instructions: 0 byte, 1 word, 2 long, 3 none. -/
def sizeOf? : Fin 4 → Option M68kSize
  | 0 => some .byte
  | 1 => some .word
  | 2 => some .long
  | 3 => .none

/-- `(u32)(s32)(s16)v`. -/
def sext16 (v : U32) : U32 := (v.setWidth 16).signExtend 32

/-- `(u32)(s32)(s8)v`. -/
def sext8 (v : U32) : U32 := (v.setWidth 8).signExtend 32

end M68k
