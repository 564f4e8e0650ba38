import Rocket68.Bus

/-!
# Effective addresses

`calcEaEx` is the resolution routine behind every operand; the four public
entries differ in the cycles they charge and in whether the operand is read.
-/

namespace M68k

open Trap TrapM

variable {σ : Type}

/-- `M68kEA`. -/
structure Ea where
  value : U32 := 0
  address : U32 := 0
  isReg : Bool := false
  regNum : Fin 8 := 0
  isAddr : Bool := false
  deriving DecidableEq, Repr

/-- `ea.is_reg && !ea.is_addr`. -/
def Ea.isData (ea : Ea) : Bool := ea.isReg && !ea.isAddr

/-! ## Timing tables -/

/-- `m68k_ea_cycle_table`: word and long costs by mode index. -/
def eaCycleTable : List (Int × Int) :=
  [(0, 0), (0, 0), (4, 8), (4, 8), (6, 10), (8, 12),
   (10, 14), (8, 12), (12, 16), (8, 12), (10, 14), (4, 8)]

/-- The row of `eaCycleTable`, if the mode has one. -/
def eaCycleIndex (mode reg : Fin 8) : Option Nat :=
  if mode ≤ 6 then some mode
  else if reg ≤ 4 then some (7 + reg)
  else none

/-- `m68k_ea_cycles`. -/
def eaCycles (mode reg : Fin 8) (size : M68kSize) : Int :=
  match eaCycleIndex mode reg with
  | none => 0
  | some i =>
      let row := eaCycleTable.getD i (0, 0)
      if size = .long then row.2 else row.1

/-- `lea_ea_cycles` and `jmp_ea_cycles`. -/
def leaEaCycles : List Int := [4, 8, 12, 8, 12, 8, 12]
def jmpEaCycles : List Int := [8, 10, 14, 10, 12, 10, 14]

/-- The row of the control timing tables, if the mode has one. -/
def controlEaIndex (mode reg : Fin 8) : Option Nat :=
  match mode with
  | 2 => some 0
  | 5 => some 1
  | 6 => some 2
  | 7 => if reg ≤ 3 then some (3 + reg) else none
  | _ => none

/-- `m68k_control_ea_cycles`. -/
def controlEaCycles (mode reg : Fin 8) (isJmp : Bool) : Int :=
  match controlEaIndex mode reg with
  | none => 0
  | some i => (if isJmp then jmpEaCycles else leaEaCycles).getD i 0

/-- `m68k_movem_ea_cycles`. -/
def movemEaCycles (mode reg : Fin 8) (memToReg : Bool) : Int :=
  match mode with
  | 2 => if memToReg then 12 else 8
  | 3 => 12
  | 4 => 8
  | 5 => if memToReg then 16 else 12
  | 6 => if memToReg then 18 else 14
  | 7 =>
      match reg with
      | 0 => if memToReg then 16 else 12
      | 1 => if memToReg then 20 else 16
      | 2 => 16
      | 3 => 18
      | _ => 0
  | _ => 0

/-! ## Resolution -/

/-- The offset `set_fault_pc` adds to the PC, for the modes it latches. -/
def faultPcOffset (mode reg : Fin 8) (size : M68kSize) : Option U32 :=
  match mode with
  | 2 | 3 | 5 | 6 => some 0
  | 4 => some (if size = .long then 0 else 2)
  | 7 =>
      if reg = 1 then some 4
      else if reg = 0 then some 2
      else if reg = 2 ∨ reg = 3 then some 0
      else none
  | _ => none

/-- `set_fault_pc`. -/
def setFaultPc (mode reg : Fin 8) (size : M68kSize) : M σ Unit := do
  match faultPcOffset mode reg size with
  | some offset => latchFaultPc ((← getPc) + offset)
  | none => pure ()

/-- `(size == SIZE_BYTE && reg == 7) ? 2 : size`. -/
def stepSize (reg : Fin 8) (size : M68kSize) : U32 :=
  if size = .byte ∧ reg = 7 then 2 else size.bytes

/-- The index register of a brief extension word. -/
def indexValue (ext : U16) : M σ U32 := do
  let xnRegNum := field ext 12
  let xnVal ← if ext.getLsbD 15 then getA xnRegNum else getD xnRegNum
  pure (if ext.getLsbD 11 then xnVal else sext16 xnVal)

/-- The operand of a memory mode, read when `fetchValue` asks for it. -/
def eaMemory (address : U32) (size : M68kSize) (fetchValue : Bool) : M σ Ea := do
  let value ← if fetchValue then readSize address size else pure 0
  pure { value := value, address := address }

/-- The operand of a PC-relative mode: the read asserts program space. -/
def eaProgram (address : U32) (size : M68kSize) (fetchValue : Bool) : M σ Ea := do
  if fetchValue then do
    setProgramSpace true
    let value ← readSize address size
    setProgramSpace false
    pure { value := value, address := address }
  else
    pure { address := address }

/-- Two extension words, high half first. -/
def fetchLong : M σ U32 := do
  let high ← fetch
  let low ← fetch
  pure ((high.setWidth 32 <<< 16) ||| low.setWidth 32)

/-- The immediate operand of `m68k_calc_ea_ex`. -/
def eaImmediate (size : M68kSize) : M σ Ea := do
  match size with
  | .long => do pure { value := ← fetchLong, isReg := true }
  | .word => do pure { value := (← fetch).setWidth 32, isReg := true }
  | .byte => do pure { value := (← fetch).setWidth 32 &&& 0xFF, isReg := true }

/-- The mode 7 submodes of `m68k_calc_ea_ex`. -/
def calcEaMode7 (reg : Fin 8) (size : M68kSize) (fetchValue : Bool) : M σ Ea := do
  match reg with
  | 0 => eaMemory (sext16 ((← fetch).setWidth 32)) size fetchValue
  | 1 => eaMemory (← fetchLong) size fetchValue
  | 2 => do
      let disp ← fetch
      eaProgram ((← getPc) - 2 + disp.signExtend 32) size fetchValue
  | 3 => do
      let ext ← fetch
      let pcBase := (← getPc) - 2
      let xnVal ← indexValue ext
      eaProgram (pcBase + xnVal + sext8 (ext.setWidth 32)) size fetchValue
  | 4 => eaImmediate size
  | _ => do
      raiseIllegalEa
      pure {}

/-- `m68k_calc_ea_ex`. Byte and word postincrements commit before the operand
read and survive its fault; long postincrements commit after it. -/
def calcEaEx (mode reg : Fin 8) (size : M68kSize) (fetchValue : Bool) : M σ Ea := do
  setFaultPc mode reg size
  match mode with
  | 0 => do pure { isReg := true, regNum := reg, value := ← getD reg }
  | 1 => do pure { isReg := true, regNum := reg, isAddr := true, value := ← getA reg }
  | 2 => eaMemory (← getA reg) size fetchValue
  | 3 => do
      let address ← getA reg
      if fetchValue && size == .long then do
        let value ← readSize address size
        setA reg ((← getA reg) + size.bytes)
        pure { value := value, address := address }
      else do
        setA reg (address + stepSize reg size)
        eaMemory address size fetchValue
  | 4 => do
      let address := (← getA reg) - stepSize reg size
      setA reg address
      eaMemory address size fetchValue
  | 5 => do
      let disp ← fetch
      eaMemory ((← getA reg) + disp.signExtend 32) size fetchValue
  | 6 => do
      let ext ← fetch
      let xnVal ← indexValue ext
      eaMemory ((← getA reg) + xnVal + sext8 (ext.setWidth 32)) size fetchValue
  | 7 => calcEaMode7 reg size fetchValue

/-- `m68k_calc_ea`. -/
def calcEa (mode reg : Fin 8) (size : M68kSize) : M σ Ea := do
  let full := eaCycles mode reg size
  let pre := if size = .long then eaCycles mode reg .word else full
  charge pre
  let ea ← calcEaEx mode reg size true
  charge (full - pre)
  pure ea

/-- `m68k_calc_ea_addr`. -/
def calcEaAddr (mode reg : Fin 8) (size : M68kSize) : M σ Ea := do
  charge (eaCycles mode reg size)
  calcEaEx mode reg size false

/-- The modes `m68k_calc_ea_ctl` rejects. -/
def notControl (mode reg : Fin 8) : Bool :=
  mode < 2 || mode == 3 || mode == 4 || (mode == 7 && reg > 3)

/-- `m68k_calc_ea_ctl`. -/
def calcEaCtl (mode reg : Fin 8) (isJmp : Bool) : M σ Ea := do
  if notControl mode reg then do
    raiseIllegalEa
    pure {}
  else do
    charge (controlEaCycles mode reg isJmp)
    calcEaEx mode reg .long false

/-- `m68k_calc_ea_addr_nocost`. -/
def calcEaAddrNocost (mode reg : Fin 8) (size : M68kSize) : M σ Ea :=
  calcEaEx mode reg size false

end M68k
