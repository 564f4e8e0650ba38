import Rocket68.Ops.Arith
import Rocket68.Num.Carry

/-!
# Operands as words

The handlers compute on 32-bit values whose upper bits are left over from whatever the
register held. Here their operands are read as words of the operand size, and the
condition codes as five booleans; the flag formulas are then those of `Num.Carry`.
-/

namespace M68k

open Num

/-- The bits of an operand size. -/
def M68kSize.width : M68kSize → Nat
  | .byte => 8
  | .word => 16
  | .long => 32

/-- Half the number of values of an operand size. -/
def M68kSize.half : M68kSize → Nat
  | .byte => 0x80
  | .word => 0x8000
  | .long => 0x80000000

/-- The low bits of a value, as many as the operand has. -/
def low (size : M68kSize) (v : U32) : Nat := v.toNat % 2 ^ size.width

/-- The condition codes. -/
structure Ccr where
  x : Bool
  n : Bool
  z : Bool
  v : Bool
  c : Bool
  deriving DecidableEq, Repr

def ccr (sr : U16) : Ccr where
  x := sr &&& srX != 0
  n := sr &&& srN != 0
  z := sr &&& srZ != 0
  v := sr &&& srV != 0
  c := sr &&& srC != 0

variable {size : M68kSize}

theorem two_pow_width (size : M68kSize) : 2 ^ size.width = 2 * size.half := by
  cases size <;> rfl

theorem half_pos (size : M68kSize) : 0 < size.half := by
  cases size <;> decide

theorem low_lt (size : M68kSize) (v : U32) : low size v < 2 * size.half := by
  rw [← two_pow_width]
  exact Nat.mod_lt _ (Nat.two_pow_pos _)

/-- The test of a single bit. -/
theorem and_twoPow_ne_zero {w : Nat} (v : BitVec w) (i : Nat) :
    (v &&& BitVec.twoPow w i != 0) = v.getLsbD i := by
  rw [BitVec.and_twoPow]
  cases h : v.getLsbD i with
  | false => simp
  | true =>
    rw [if_pos rfl, bne_iff_ne]
    intro hzero
    have hbit := congrArg (BitVec.getLsbD · i) hzero
    simp [BitVec.lt_of_getLsbD h] at hbit

theorem msbMask_eq (size : M68kSize) : msbMask size = BitVec.twoPow 32 (size.width - 1) := by
  cases size <;> decide

theorem valueMask_toNat (size : M68kSize) : (valueMask size).toNat = 2 ^ size.width - 1 := by
  cases size <;> rfl

theorem and_valueMask (size : M68kSize) (v : U32) : (v &&& valueMask size).toNat = low size v := by
  rw [BitVec.toNat_and, valueMask_toNat, Nat.and_two_pow_sub_one_eq_mod]
  rfl

theorem signBit_eq (size : M68kSize) (v : U32) :
    signBit size v = negative size.half (low size v) := by
  rw [signBit, msbMask_eq, and_twoPow_ne_zero, negative, low, BitVec.getLsbD,
    Nat.testBit_eq_decide_div_mod_eq, Bool.eq_iff_iff, decide_eq_true_eq, decide_eq_true_eq]
  cases size <;> simp only [M68kSize.width, M68kSize.half] <;> omega

theorem zeroSized_eq (size : M68kSize) (v : U32) :
    zeroSized size v = decide (low size v = 0) := by
  rw [zeroSized, ← and_valueMask, Bool.eq_iff_iff, beq_iff_eq, decide_eq_true_eq]
  exact ⟨fun h => by rw [h]; rfl, fun h => BitVec.eq_of_toNat_eq h⟩

/-! ## Sums and differences -/

theorem toNat_ite (x : Bool) : (if x then 1 else 0 : U32).toNat = x.toNat := by
  cases x <;> rfl

theorem low_add (size : M68kSize) (d s : U32) (x : Bool) :
    low size (d + s + if x then 1 else 0) =
      (low size d + low size s + x.toNat) % 2 ^ size.width := by
  rw [low, low, low, BitVec.toNat_add, BitVec.toNat_add, toNat_ite]
  cases size <;> simp only [M68kSize.width] <;> omega

theorem low_sub (size : M68kSize) (d s : U32) (x : Bool) :
    (low size (d - s - if x then 1 else 0) : Int) =
      ((low size d : Int) - low size s - x.toNat) % 2 ^ size.width := by
  have hx : x.toNat < 2 := by cases x <;> decide
  rw [low, low, low, BitVec.toNat_sub, BitVec.toNat_sub, toNat_ite]
  cases size <;> simp only [M68kSize.width] <;> omega

/-- The sum of two operands and a carry. -/
theorem adds (size : M68kSize) (d s : U32) (x : Bool) :
    Adds size.half (low size d) (low size s) x (low size (d + s + if x then 1 else 0))
      (decide (2 * size.half ≤ low size d + low size s + x.toNat)) := by
  have hx : x.toNat < 2 := by cases x <;> decide
  have hd := low_lt size d
  have hs := low_lt size s
  refine ⟨hd, hs, low_lt size _, ?_⟩
  rw [low_add, two_pow_width]
  by_cases hcarry : 2 * size.half ≤ low size d + low size s + x.toNat
  · rw [Nat.mod_eq_sub_mod hcarry, Nat.mod_eq_of_lt (by omega), decide_eq_true hcarry,
      Bool.toNat_true]
    omega
  · rw [Nat.mod_eq_of_lt (by omega), decide_eq_false hcarry, Bool.toNat_false]
    omega

/-- The difference of two operands and a borrow. -/
theorem subtracts (size : M68kSize) (d s : U32) (x : Bool) :
    Subtracts size.half (low size d) (low size s) x (low size (d - s - if x then 1 else 0))
      (decide (low size d < low size s + x.toNat)) := by
  have hx : x.toNat < 2 := by cases x <;> decide
  have hd := low_lt size d
  have hs := low_lt size s
  have hlow := low_sub size d s x
  have hpow : (2 : Int) ^ size.width = 2 * size.half := by
    have h := two_pow_width size
    exact_mod_cast h
  rw [hpow] at hlow
  refine ⟨hd, hs, low_lt size _, ?_⟩
  by_cases hborrow : low size d < low size s + x.toNat
  · rw [← Int.add_emod_right, Int.emod_eq_of_lt (by omega) (by omega)] at hlow
    rw [decide_eq_true hborrow, Bool.toNat_true]
    omega
  · rw [Int.emod_eq_of_lt (by omega) (by omega)] at hlow
    rw [decide_eq_false hborrow, Bool.toNat_false]
    omega

/-! ## Partial writes -/

theorem mergeSized_and (size : M68kSize) (old v : U32) :
    mergeSized size old v &&& valueMask size = v &&& valueMask size := by
  ext i hi
  simp only [mergeSized, BitVec.getElem_and, BitVec.getElem_or, BitVec.getElem_not]
  cases (valueMask size)[i] <;> simp

theorem low_mergeSized (size : M68kSize) (old v : U32) :
    low size (mergeSized size old v) = low size v := by
  rw [← and_valueMask, mergeSized_and, and_valueMask]

/-- The bits above the operand stay. -/
theorem mergeSized_above (size : M68kSize) (old v : U32) :
    mergeSized size old v &&& ~~~valueMask size = old &&& ~~~valueMask size := by
  ext i hi
  simp only [mergeSized, BitVec.getElem_and, BitVec.getElem_or, BitVec.getElem_not]
  cases (valueMask size)[i] <;> simp

/-! ## Condition codes -/

theorem ccr_eq (sr : U16) : ccr sr = ⟨sr.getLsbD 4, sr.getLsbD 3, sr.getLsbD 2, sr.getLsbD 1,
    sr.getLsbD 0⟩ := by
  have hx : srX = BitVec.twoPow 16 4 := by decide
  have hn : srN = BitVec.twoPow 16 3 := by decide
  have hz : srZ = BitVec.twoPow 16 2 := by decide
  have hv : srV = BitVec.twoPow 16 1 := by decide
  have hc : srC = BitVec.twoPow 16 0 := by decide
  simp only [ccr, hx, hn, hz, hv, hc, and_twoPow_ne_zero]

@[simp] theorem getElem_setIf (b : Bool) (bit sr : U16) {i : Nat} (hi : i < 16) :
    (setIf b bit sr)[i] = (sr[i] || (b && bit[i])) := by
  cases b <;> simp [setIf]

theorem ccr_flagsAdd (src dest result : U32) (size : M68kSize) (sr : U16) :
    ccr (flagsAdd src dest result size sr) =
      { x := (signBit size src && signBit size dest) ||
          (!signBit size result && signBit size dest) || (signBit size src && !signBit size result)
        n := signBit size result
        z := zeroSized size result
        v := (signBit size src && signBit size dest && !signBit size result) ||
          (!signBit size src && !signBit size dest && signBit size result)
        c := (signBit size src && signBit size dest) ||
          (!signBit size result && signBit size dest) ||
          (signBit size src && !signBit size result) } := by
  simp [ccr_eq, flagsAdd, flagsNz, nzvcx, nzvc, srX, srN, srZ, srV, srC]

theorem ccr_flagsSub (src dest result : U32) (size : M68kSize) (sr : U16) :
    ccr (flagsSub src dest result size sr) =
      { x := subBorrow size src dest result
        n := signBit size result
        z := zeroSized size result
        v := subOverflow size src dest result
        c := subBorrow size src dest result } := by
  simp [ccr_eq, flagsSub, flagsNz, nzvcx, nzvc, srX, srN, srZ, srV, srC]

theorem ccr_flagsCmp (src dest result : U32) (size : M68kSize) (sr : U16) :
    ccr (flagsCmp src dest result size sr) =
      { x := (ccr sr).x
        n := signBit size result
        z := zeroSized size result
        v := subOverflow size src dest result
        c := subBorrow size src dest result } := by
  simp [ccr_eq, flagsCmp, flagsNz, nzvc, srN, srZ, srV, srC]

theorem ccr_keepZ (size : M68kSize) (result : U32) (old new : U16) :
    ccr (keepZ size result old new) =
      { ccr new with z := zeroSized size result && (ccr old).z } := by
  have hold : (old &&& srZ != 0) = (ccr old).z := rfl
  rw [keepZ, hold]
  cases zeroSized size result && (ccr old).z <;> simp [ccr_eq, srZ]

end M68k
