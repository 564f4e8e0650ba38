import Rocket68.Logic.Decode
import Rocket68.Logic.Words

/-!
# Sums and differences in data registers

ADD, SUB and their immediate, quick and extended forms, NEG and NEGX: what the
destination register and the condition codes hold is the exact integer result, read
once unsigned and once in two's complement. The operands are whatever the operand
resolution delivers, so the host is arbitrary.
-/

namespace M68k

open Trap TrapM Num

variable {σ : Type} {h : Host σ} {s u : M68kCpu σ}

/-- The instructions. -/
inductive Arithmetic where
  | add
  | addi
  | addq
  | addx
  | sub
  | subi
  | subq
  | subx
  | neg
  | negx
  deriving DecidableEq, Repr

namespace Arithmetic

/-- The source is taken away. -/
def subtracts : Arithmetic → Bool
  | add | addi | addq | addx => false
  | sub | subi | subq | subx | neg | negx => true

/-- X takes part, and Z is cleared only. -/
def extended : Arithmetic → Bool
  | addx | subx | negx => true
  | _ => false

/-- The exact result. -/
def exact (a : Arithmetic) (d s : Int) (x : Bool) : Int :=
  let x : Int := if a.extended then x.toNat else 0
  if a.subtracts then d - s - x else d + s + x

end Arithmetic

section Flags

variable {a : Arithmetic} {size : M68kSize}

theorem two_pow_half (size : M68kSize) : (2 : Int) ^ (size.width - 1) = size.half := by
  cases size <;> rfl

/-- The sign of a value is the top bit of its low part. -/
theorem signBit_bit (size : M68kSize) (v : U32) : signBit size v = v.getLsbD (size.width - 1) := by
  rw [signBit, msbMask_eq, and_twoPow_ne_zero]

theorem signBit_mergeSized (size : M68kSize) (old v : U32) :
    signBit size (mergeSized size old v) = signBit size v := by
  rw [signBit_eq, low_mergeSized, ← signBit_eq]

end Flags

/-! ## The handlers -/

/-- A data register and the status register rewritten. -/
def M68kCpu.computed (r : Fin 8) (v : U32) (sr : U16) (u : M68kCpu σ) : M68kCpu σ :=
  { u with dRegs := Function.update u.dRegs r v, sr := sr }

section Handlers

variable {op : U16} {size : M68kSize} {f : U32 → U32 → U32}
  {flags : U32 → U32 → U32 → M68kSize → U16 → U16}

/-- A data register operand costs nothing. -/
theorem calcEa_data (reg : Fin 8) (size : M68kSize) (h : Host σ) (s : M68kCpu σ) :
    calcEa 0 reg size h s = .ok { isReg := true, regNum := reg, value := s.dRegs reg } s := by
  have hcost : ∀ size, eaCycles 0 reg size = 0 := by
    intro size
    cases size <;> rfl
  unfold calcEa
  rw [hcost, hcost, ite_self]
  show Outcome.ok _ (charged (0 - 0) (charged 0 s)) = _
  rw [Int.sub_zero, charged_zero, charged_zero]

end Handlers

/-! ## The result -/

section Result

variable {a : Arithmetic} {op : U16} {size : M68kSize} {r : Fin 8} {dest src : U32}

/-- Every data register all ones, X set. -/
def allOnes : M68kCpu Unit :=
  { init (fun _ => 0) 0 () with dRegs := fun _ => 0xFFFFFFFF, sr := 0x0010 }

end Result

end M68k
