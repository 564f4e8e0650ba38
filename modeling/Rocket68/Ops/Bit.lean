import Rocket68.Flags

/-!
# Bit manipulation (`ops_bit.c`)
-/

namespace M68k

open Trap TrapM

variable {σ : Type}

/-- `get_bit_mask`. -/
def getBitMask (bitNum : U32) (isRegister : Bool) : U32 :=
  (1 : U32) <<< (bitNum &&& (if isRegister then 31 else 7))

/-- The bit number: a register, or the low byte of the next word. -/
def bitNumber (opcode : U16) : M σ U32 := do
  if opcode &&& 0x0100 != 0 then
    getD (field opcode 9)
  else do
    pure ((← fetch).setWidth 32 &&& 0xFF)

/-- Z from the tested bit. -/
def flagsBit (data mask : U32) (sr : U16) : U16 :=
  if data &&& mask != 0 then sr &&& ~~~srZ else sr ||| srZ

/-- The modes BTST rejects; the dynamic form takes an immediate operand. -/
def btstRejects (isDynamic : Bool) (mode reg : Fin 8) : Bool :=
  mode == 1 || (mode == 7 && (reg > 4 || (!isDynamic && reg == 4)))

/-- `m68k_exec_btst`. -/
def execBtst (opcode : U16) : M σ Unit := do
  let mode := field opcode 3
  let reg := field opcode 0
  if btstRejects (opcode &&& 0x0100 != 0) mode reg then
    exception 4
  else do
    let mask := getBitMask (← bitNumber opcode) (mode == 0)
    if mode = 0 then do
      let data ← getD reg
      modifySr (flagsBit data mask)
    else do
      let ea ← calcEa mode reg .byte
      modifySr (flagsBit (ea.value &&& 0xFF) mask)

/-- BSET, BCLR and BCHG: `op` combines the operand and the bit mask. -/
def execBitOp (op : U32 → U32 → U32) (opcode : U16) : M σ Unit := do
  let mode := field opcode 3
  let reg := field opcode 0
  if notDataAlterable mode reg then
    exception 4
  else do
    let mask := getBitMask (← bitNumber opcode) (mode == 0)
    if mode = 0 then do
      let data ← getD reg
      modifySr (flagsBit data mask)
      setD reg (op data mask)
    else do
      let ea ← calcEa mode reg .byte
      let data := ea.value &&& 0xFF
      modifySr (flagsBit data mask)
      write8 ea.address ((op data mask).setWidth 8)

/-- `m68k_exec_bset`. -/
def execBset : U16 → M σ Unit := execBitOp (· ||| ·)

/-- `m68k_exec_bclr`. -/
def execBclr : U16 → M σ Unit := execBitOp fun data mask => data &&& ~~~mask

/-- `m68k_exec_bchg`. -/
def execBchg : U16 → M σ Unit := execBitOp (· ^^^ ·)

/-- The TAS callback's permission to write back. -/
def tasAllowsWrite : M σ Bool := do
  match (← env).tasCb with
  | some cb => do
      let r ← call cb
      pure (r != 0)
  | none => pure true

/-- The condition codes of TAS. -/
def flagsTas (data : U32) (sr : U16) : U16 :=
  setIf (data &&& 0x80 != 0) srN (setIf (data == 0) srZ (sr &&& ~~~nzvc))

/-- `m68k_exec_tas`. -/
def execTas (opcode : U16) : M σ Unit := do
  let mode := field opcode 3
  let reg := field opcode 0
  if notDataAlterable mode reg then
    exception 4
  else do
    let ea ← calcEa mode reg .byte
    let data := ea.value &&& 0xFF
    modifySr (flagsTas data)
    let written := data ||| 0x80
    if ← tasAllowsWrite then
      if ea.isData then
        setD ea.regNum (((← getD ea.regNum) &&& 0xFFFFFF00) ||| written)
      else
        write8 ea.address (written.setWidth 8)

end M68k
