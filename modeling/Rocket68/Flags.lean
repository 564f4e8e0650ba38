import Rocket68.Ea

/-!
# Condition codes

The `update_flags_*` helpers, each as a function from the old status register
to the new one, and the operand masks they share with the handlers.
-/

namespace M68k

open Trap TrapM

variable {σ : Type}

/-- The sign bit of an operand size. -/
def msbMask : M68kSize → U32
  | .byte => 0x80
  | .word => 0x8000
  | .long => 0x80000000

/-- The value bits of an operand size. -/
def valueMask : M68kSize → U32
  | .byte => 0xFF
  | .word => 0xFFFF
  | .long => 0xFFFFFFFF

/-- `(current & ~mask) | (value & mask)`. -/
def mergeSized (size : M68kSize) (current value : U32) : U32 :=
  (current &&& ~~~valueMask size) ||| (value &&& valueMask size)

/-- `v & msb_mask`. -/
def signBit (size : M68kSize) (v : U32) : Bool := v &&& msbMask size != 0

/-- `(v & value_mask) == 0`. -/
def zeroSized (size : M68kSize) (v : U32) : Bool := v &&& valueMask size == 0

/-- `if (c) sr |= bit`. -/
def setIf (c : Bool) (bit sr : U16) : U16 := if c then sr ||| bit else sr

/-- N, Z, V and C. -/
def nzvc : U16 := srN ||| srZ ||| srV ||| srC
/-- N, Z, V, C and X. -/
def nzvcx : U16 := nzvc ||| srX

/-- N and Z of a result, over cleared bits. -/
def flagsNz (size : M68kSize) (result : U32) (sr : U16) : U16 :=
  setIf (zeroSized size result) srZ (setIf (signBit size result) srN sr)

/-- `update_flags_add`. -/
def flagsAdd (src dest result : U32) (size : M68kSize) (sr : U16) : U16 :=
  let sm := signBit size src
  let dm := signBit size dest
  let rm := signBit size result
  let sr := flagsNz size result (sr &&& ~~~nzvcx)
  let sr := setIf ((sm && dm && !rm) || (!sm && !dm && rm)) srV sr
  setIf ((sm && dm) || (!rm && dm) || (sm && !rm)) (srC ||| srX) sr

/-- The overflow and borrow of a subtraction. -/
def subOverflow (size : M68kSize) (src dest result : U32) : Bool :=
  let sm := signBit size src
  let dm := signBit size dest
  let rm := signBit size result
  (!sm && dm && !rm) || (sm && !dm && rm)

def subBorrow (size : M68kSize) (src dest result : U32) : Bool :=
  let sm := signBit size src
  let dm := signBit size dest
  let rm := signBit size result
  (sm && !dm) || (rm && !dm) || (sm && rm)

/-- `update_flags_sub`. -/
def flagsSub (src dest result : U32) (size : M68kSize) (sr : U16) : U16 :=
  let sr := flagsNz size result (sr &&& ~~~nzvcx)
  let sr := setIf (subOverflow size src dest result) srV sr
  setIf (subBorrow size src dest result) (srC ||| srX) sr

/-- `update_flags_cmp`. -/
def flagsCmp (src dest result : U32) (size : M68kSize) (sr : U16) : U16 :=
  let sr := flagsNz size result (sr &&& ~~~nzvc)
  let sr := setIf (subOverflow size src dest result) srV sr
  setIf (subBorrow size src dest result) srC sr

/-- `update_flags_logic`. -/
def flagsLogic (result : U32) (size : M68kSize) (sr : U16) : U16 :=
  flagsNz size result (sr &&& ~~~nzvc)

/-- ADDX, SUBX: Z survives only a zero result. -/
def keepZ (size : M68kSize) (result : U32) (old new : U16) : U16 :=
  if zeroSized size result && old &&& srZ != 0 then new ||| srZ else new &&& ~~~srZ

/-- Write a result of the given size into a data register. -/
def setDSized (r : Fin 8) (size : M68kSize) (value : U32) : M σ Unit := do
  setD r (mergeSized size (← getD r) value)

/-- Write a result back through its effective address. -/
def storeEa (ea : Ea) (size : M68kSize) (value : U32) : M σ Unit :=
  if ea.isData then setDSized ea.regNum size value
  else writeSize ea.address value size

/-- The modes a data alterable destination excludes. -/
def notDataAlterable (mode reg : Fin 8) : Bool := mode == 1 || (mode == 7 && reg > 1)

/-- The modes a data source excludes. -/
def notData (mode reg : Fin 8) : Bool := mode == 1 || (mode == 7 && reg > 4)

/-- The modes a memory alterable destination excludes. -/
def notMemoryAlterable (mode reg : Fin 8) : Bool := mode < 2 || (mode == 7 && reg > 1)

/-- The privilege check of the supervisor instructions: in user state the PC
goes back to the opcode and vector 8 is taken. -/
def privilegeViolation : M σ Unit := do
  modify fun s => { s with pc := s.pc - 2 }
  exception 8

/-- `if (!(cpu->sr & M68K_SR_S)) { privilege violation; return; }`. -/
def privileged (body : M σ Unit) : M σ Unit := do
  if (← getSr) &&& srS == 0 then privilegeViolation else body

end M68k
