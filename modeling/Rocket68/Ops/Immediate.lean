import Rocket68.Ops.Logic

/-!
# The immediate group under either order of evaluation

ADDI, SUBI, ANDI, ORI and EORI fetch the two words of a long immediate in one expression,
`((u32)m68k_fetch(cpu) << 16) | m68k_fetch(cpu)`, and the language leaves it to the
compiler which of the two calls is made first. Here the handlers take that order as a
parameter.
-/

namespace M68k

open Trap TrapM

variable {σ : Type}

/-- The order in which the operands of a binary operator are evaluated. -/
inductive OperandOrder where
  | leftFirst
  | rightFirst
  deriving DecidableEq, Repr

/-- A binary operator whose operands are calls. -/
def binaryIn {α β γ : Type} (order : OperandOrder) (f : α → β → γ) (left : M σ α) (right : M σ β) :
    M σ γ :=
  match order with
  | .leftFirst => do
      let a ← left
      let b ← right
      pure (f a b)
  | .rightFirst => do
      let b ← right
      let a ← left
      pure (f a b)

/-- `(high << 16) | low`. -/
def longOf (high low : U16) : U32 := (high.setWidth 32 <<< 16) ||| low.setWidth 32

/-- `((u32)m68k_fetch(cpu) << 16) | m68k_fetch(cpu)`. -/
def longImmediateIn (order : OperandOrder) : M σ U32 := binaryIn order longOf fetch fetch

/-- The immediate operand of the immediate group. -/
def fetchImmediateIn (order : OperandOrder) : M68kSize → M σ U32
  | .byte => do pure ((← fetch).setWidth 32 &&& 0xFF)
  | .word => do pure ((← fetch).setWidth 32)
  | .long => longImmediateIn order

/-- What the immediate group does with its operand. -/
def immediateBody (op : U32 → U32 → U32) (flags : U32 → U32 → U32 → M68kSize → U16 → U16)
    (size : M68kSize) (mode reg : Fin 8) (imm : U32) : M σ Unit := do
  charge (if size = .long then 8 else 4)
  let ea ← calcEa mode reg size
  let result := op ea.value imm
  storeEa ea size result
  modifySr (flags imm ea.value result size)

/-- ADDI, SUBI and the general form of ANDI, ORI and EORI. -/
def execImmediateIn (order : OperandOrder) (op : U32 → U32 → U32)
    (flags : U32 → U32 → U32 → M68kSize → U16 → U16) (opcode : U16) : M σ Unit := do
  let mode := field opcode 3
  let reg := field opcode 0
  match sizeOf? (sizeBits opcode) with
  | none => pure ()
  | some size =>
      if notDataAlterable mode reg then
        exception 4
      else do
        let imm ← fetchImmediateIn order size
        immediateBody op flags size mode reg imm

/-- ANDI, ORI and EORI with their forms on CCR and on SR. -/
def execImmediateLogicIn (order : OperandOrder) (op : U32 → U32 → U32) (op16 : U16 → U16 → U16)
    (ccr status : U16) (opcode : U16) : M σ Unit := do
  if opcode = ccr then do
    let imm := (← fetch) &&& 0x1F
    modifySr fun sr => (sr &&& ~~~0x1F) ||| op16 (sr &&& 0x1F) imm
  else if opcode = status then
    privileged do
      let imm ← fetch
      setSr (op16 (← getSr) imm)
  else
    execImmediateIn order op (fun _ _ result size => flagsLogic result size) opcode

/-- The instructions with the one-expression fetch. -/
inductive ImmediateOp where
  | addi
  | subi
  | andi
  | ori
  | eori
  deriving DecidableEq, Repr

namespace ImmediateOp

/-- What the instruction computes of its destination and its immediate. -/
def compute : ImmediateOp → U32 → U32 → U32
  | .addi => (· + ·)
  | .subi => (· - ·)
  | .andi => (· &&& ·)
  | .ori => (· ||| ·)
  | .eori => (· ^^^ ·)

/-- The condition codes it leaves. -/
def codes : ImmediateOp → U32 → U32 → U32 → M68kSize → U16 → U16
  | .addi => flagsAdd
  | .subi => flagsSub
  | .andi | .ori | .eori => fun _ _ result size => flagsLogic result size

/-- `m68k_exec_addi`, `m68k_exec_subi`, `m68k_exec_andi`, `m68k_exec_ori` and
`m68k_exec_eori`, as a compiler with that order runs them. -/
def exec (order : OperandOrder) : ImmediateOp → U16 → M σ Unit
  | .addi => execImmediateIn order (· + ·) flagsAdd
  | .subi => execImmediateIn order (· - ·) flagsSub
  | .andi => execImmediateLogicIn order (· &&& ·) (· &&& ·) 0x023C 0x027C
  | .ori => execImmediateLogicIn order (· ||| ·) (· ||| ·) 0x003C 0x007C
  | .eori => execImmediateLogicIn order (· ^^^ ·) (· ^^^ ·) 0x0A3C 0x0A7C

end ImmediateOp

end M68k
