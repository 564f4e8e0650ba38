import Rocket68.Theorems.Arithmetic
import Rocket68.Num.Shift

/-!
# Shifts and rotates of a data register

The handler moves one bit per iteration. Each of its eight loops is followed here by the
loop of `Num.Shift` with the same step, and inherits its closed form. The rotates through
X turn a word of one more bit, with X on top.
-/

namespace M68k

open Trap TrapM Num

variable {σ : Type} {h : Host σ} {s : M68kCpu σ} {size : M68kSize}

/-! ## The closed forms -/

/-- The word and X, X on top. -/
def withExtend (w : Nat) (x : Bool) (v : Nat) : Nat := x.toNat * 2 ^ w + v

/-- What `n` iterations make of `v`. -/
def ShiftsTo (type : Fin 4) (left : Bool) (size : M68kSize) (n v : Nat) (x : Bool) (r : Nat) :
    Prop :=
  let w := size.width
  match type, left with
  | 0, true | 1, true => r = v * 2 ^ n % 2 ^ w
  | 0, false => signed size.half r = signed size.half v / 2 ^ n
  | 1, false => r = v / 2 ^ n
  | 2, true => r = rotatedLeft (w + 1) (withExtend w x v) (n % (w + 1)) % 2 ^ w
  | 2, false => r = rotatedRight (w + 1) (withExtend w x v) (n % (w + 1)) % 2 ^ w
  | 3, true => r = rotatedLeft w v (n % w)
  | 3, false => r = rotatedRight w v (n % w)

/-- The bit that leaves in the last of `n` iterations; of a rotate through X, the bit that
has come to be X. -/
def lastOut (type : Fin 4) (left : Bool) (w n v : Nat) (x : Bool) : Bool :=
  match type, left with
  | 0, true | 1, true => decide (n ≤ w) && v.testBit (w - n)
  | 0, false => if w ≤ n then v.testBit (w - 1) else v.testBit (n - 1)
  | 1, false => decide (n ≤ w) && v.testBit (n - 1)
  | 2, true => (rotatedLeft (w + 1) (withExtend w x v) (n % (w + 1))).testBit w
  | 2, false => (rotatedRight (w + 1) (withExtend w x v) (n % (w + 1))).testBit w
  | 3, true => v.testBit (w - 1 - (n - 1) % w)
  | 3, false => v.testBit ((n - 1) % w)

/-- The register and the status register after a shift by `n`. -/
structure Shifted (type : Fin 4) (left : Bool) (size : M68kSize) (n : Nat) (old new : U32)
    (sr sr' : U16) : Prop where
  result : ShiftsTo type left size n (low size old) (ccr sr).x (low size new)
  above : new &&& ~~~valueMask size = old &&& ~~~valueMask size
  carry : 0 < n → (ccr sr').c = lastOut type left size.width n (low size old) (ccr sr).x
  extend : 0 < n → (ccr sr').x = if type = 3 then (ccr sr).x else (ccr sr').c
  zeroCount : n = 0 → (ccr sr').x = (ccr sr).x ∧ (ccr sr').c = (decide (type = 2) && (ccr sr).x)
  overflow : (ccr sr').v = true ↔ type = 0 ∧ left = true ∧
    ¬(-2 ^ (size.width - 1) ≤ signed size.half (low size old) * 2 ^ n ∧
      signed size.half (low size old) * 2 ^ n < 2 ^ (size.width - 1))
  negative : (ccr sr').n = new.getLsbD (size.width - 1)
  zero : (ccr sr').z = decide (low size new = 0)

/-! ## One iteration -/

section Iteration

variable {r : U32}

theorem half_eq (size : M68kSize) : size.half = 2 ^ (size.width - 1) := by
  cases size <;> rfl

theorem width_pos (size : M68kSize) : 0 < size.width := by
  cases size <;> decide

/-- A value of the operand size, and nothing above it. -/
def Sized (size : M68kSize) (r : U32) : Prop := r.toNat < 2 ^ size.width

theorem Sized.low (hr : Sized size r) : low size r = r.toNat := Nat.mod_eq_of_lt hr

theorem Sized.sign (hr : Sized size r) :
    signBit size r = negative (2 ^ (size.width - 1)) r.toNat := by
  rw [signBit_eq, hr.low, half_eq]

theorem lsb_eq (r : U32) : (r &&& 1 != 0) = decide (r.toNat % 2 = 1) := by
  rw [show (1 : U32) = BitVec.twoPow 32 0 from rfl, and_twoPow_ne_zero, BitVec.getLsbD,
    Nat.testBit_zero]

theorem left_toNat (size : M68kSize) (r : U32) :
    ((r <<< 1) &&& valueMask size).toNat = shiftLeft size.width r.toNat := by
  rw [and_valueMask, M68k.low, BitVec.toNat_shiftLeft, Nat.shiftLeft_eq, shiftLeft]
  cases size <;> simp only [M68kSize.width] <;> omega

theorem right_toNat (r : U32) : (r >>> 1).toNat = r.toNat / 2 := by
  rw [BitVec.toNat_ushiftRight]
  rfl

theorem Sized.right_lt (hr : Sized size r) : r.toNat / 2 < 2 ^ (size.width - 1) := by
  have hpow := two_pow_pred (width_pos size)
  unfold Sized at hr
  omega

theorem msbMask_toNat (size : M68kSize) : (msbMask size).toNat = 2 ^ (size.width - 1) := by
  cases size <;> rfl

/-- A bit put on top of a value halved. -/
theorem Sized.or_msb (hr : Sized size r) :
    ((r >>> 1) ||| msbMask size).toNat = r.toNat / 2 + 2 ^ (size.width - 1) := by
  have hadd := Nat.two_pow_add_eq_or_of_lt hr.right_lt 1
  rw [Nat.mul_one] at hadd
  rw [BitVec.toNat_or, right_toNat, msbMask_toNat, Nat.or_comm, ← hadd, Nat.add_comm]

/-- A bit put below a value doubled. -/
theorem or_lsb (size : M68kSize) (r : U32) :
    (((r <<< 1) &&& valueMask size) ||| 1).toNat = shiftLeft size.width r.toNat + 1 := by
  have heven : shiftLeft size.width r.toNat = 2 * (shiftLeft size.width r.toNat / 2) := by
    rw [shiftLeft]
    cases size <;> simp only [M68kSize.width] <;> omega
  rw [BitVec.toNat_or, left_toNat]
  generalize shiftLeft size.width r.toNat = v at heven
  have hadd := Nat.two_pow_add_eq_or_of_lt (by decide : 1 < 2 ^ 1) (v / 2)
  rw [pow_one, ← heven] at hadd
  exact hadd.symm

theorem and_msb (size : M68kSize) (r : U32) :
    r &&& msbMask size = if signBit size r then msbMask size else 0 := by
  rw [signBit_bit, msbMask_eq, BitVec.and_twoPow]
  rfl

/-- The step of each word operation on numbers. -/
def wordStep (type : Fin 4) (left : Bool) (w : Nat) : Nat → Nat :=
  match type, left with
  | 0, true | 1, true => shiftLeft w
  | 0, false => shiftSigned (2 ^ (w - 1))
  | 1, false => shiftRight
  | _, true => rotateLeft w
  | _, false => rotateRight w

/-- The bit a step lets out. -/
def wordOut (left : Bool) (w v : Nat) : Bool :=
  if left then negative (2 ^ (w - 1)) v else decide (v % 2 = 1)

/-- One iteration of a shift or a plain rotate. -/
theorem shiftStep_word {type : Fin 4} (htype : type ≠ 2) (left : Bool) {st : ShiftState}
    (hr : Sized size st.result) :
    (shiftStep type left size st).result.toNat = wordStep type left size.width st.result.toNat ∧
      (shiftStep type left size st).carry = wordOut left size.width st.result.toNat ∧
      (shiftStep type left size st).extend = st.extend := by
  match type, left with
  | 0, false =>
    refine ⟨?_, lsb_eq _, rfl⟩
    show ((st.result >>> 1) ||| (st.result &&& msbMask size)).toNat = shiftSigned _ _
    rw [and_msb, hr.sign, shiftSigned]
    cases negative (2 ^ (size.width - 1)) st.result.toNat with
    | false =>
      simp
      rfl
    | true =>
      rw [if_pos rfl, hr.or_msb, Bool.toNat_true, Nat.mul_one]
  | 0, true => exact ⟨left_toNat _ _, hr.sign, rfl⟩
  | 1, false => exact ⟨right_toNat _, lsb_eq _, rfl⟩
  | 1, true => exact ⟨left_toNat _ _, hr.sign, rfl⟩
  | 2, _ => exact absurd rfl htype
  | 3, false =>
    refine ⟨?_, lsb_eq _, rfl⟩
    show (if st.result &&& 1 != 0 then _ else _ : U32).toNat = rotateRight _ _
    rw [lsb_eq, rotateRight]
    rcases Nat.mod_two_eq_zero_or_one st.result.toNat with hbit | hbit
    · rw [hbit, if_neg (by decide), right_toNat]
      omega
    · rw [hbit, if_pos (by decide), hr.or_msb]
      omega
  | 3, true =>
    refine ⟨?_, hr.sign, rfl⟩
    show (if signBit size st.result then _ else _ : U32).toNat = rotateLeft _ _
    rw [hr.sign, rotateLeft]
    cases negative (2 ^ (size.width - 1)) st.result.toNat with
    | false =>
      rw [if_neg Bool.false_ne_true, left_toNat, shiftLeft]
      rfl
    | true =>
      rw [if_pos rfl, or_lsb, shiftLeft]
      rfl

end Iteration

/-! ## The loops -/

section Loops

variable {type : Fin 4} {left : Bool} {st : ShiftState}

theorem shiftLoop_succ (type : Fin 4) (left : Bool) (size : M68kSize) (n : Nat) (st : ShiftState) :
    shiftLoop type left size (n + 1) st =
      shiftStep type left size (shiftLoop type left size n st) := by
  induction n generalizing st with
  | zero => rfl
  | succ n ih => exact ih (shiftStep type left size st)

theorem wordStep_lt (type : Fin 4) (left : Bool) {w v : Nat} (hw : 0 < w) (hv : v < 2 ^ w) :
    wordStep type left w v < 2 ^ w := by
  have hpow := two_pow_pred hw
  have hrotateLeft : rotateLeft w v < 2 ^ w := by
    rw [rotateLeft, hpow]
    have hmod : 2 * v % (2 * 2 ^ (w - 1)) = 2 * (v % 2 ^ (w - 1)) := Nat.mul_mod_mul_left _ _ _
    have hlt := Nat.mod_lt v (Nat.two_pow_pos (w - 1))
    have hbit := Bool.toNat_le (negative (2 ^ (w - 1)) v)
    omega
  have hrotateRight : rotateRight w v < 2 ^ w := by
    rw [rotateRight]
    rcases Nat.mod_two_eq_zero_or_one v with hbit | hbit <;> rw [hbit] <;> omega
  have hsigned : shiftSigned (2 ^ (w - 1)) v < 2 ^ w := by
    rw [hpow]
    exact shiftSigned_lt (by omega)
  have hdouble : 2 * v % 2 ^ w < 2 ^ w := Nat.mod_lt _ (Nat.two_pow_pos _)
  have htype : ∀ t : Fin 4, t = 0 ∨ t = 1 ∨ t = 2 ∨ t = 3 := by decide
  rcases htype type with rfl | rfl | rfl | rfl <;> cases left
  · exact hsigned
  · exact hdouble
  · exact Nat.lt_of_le_of_lt (Nat.div_le_self v 2) hv
  · exact hdouble
  · exact hrotateRight
  · exact hrotateLeft
  · exact hrotateRight
  · exact hrotateLeft

/-- Every loop but the rotates through X. -/
theorem shiftLoop_word (left : Bool) (htype : type ≠ 2) (hr : Sized size st.result) (n : Nat) :
    Sized size (shiftLoop type left size n st).result ∧
      (shiftLoop type left size n st).result.toNat =
        (wordStep type left size.width)^[n] st.result.toNat ∧
      (shiftLoop type left size n st).extend = st.extend := by
  induction n with
  | zero => exact ⟨hr, rfl, rfl⟩
  | succ n ih =>
    obtain ⟨hsized, hvalue, hextend⟩ := ih
    obtain ⟨hstep, -, hkeep⟩ := shiftStep_word htype left hsized
    rw [shiftLoop_succ, Function.iterate_succ_apply', ← hvalue]
    refine ⟨?_, hstep, hkeep.trans hextend⟩
    rw [Sized, hstep]
    exact wordStep_lt type left (width_pos size) hsized

theorem shiftLoop_word_carry (htype : type ≠ 2) (hr : Sized size st.result) (n : Nat) :
    (shiftLoop type left size (n + 1) st).carry =
      wordOut left size.width ((wordStep type left size.width)^[n] st.result.toNat) := by
  obtain ⟨hsized, hvalue, -⟩ := shiftLoop_word left htype hr n
  rw [shiftLoop_succ, (shiftStep_word htype left hsized).2.1, hvalue]

/-- The overflow of ASL collects the changes of sign. -/
theorem shiftLoop_overflow (hr : Sized size st.result) (n : Nat) :
    (shiftLoop 0 true size n st).overflow =
      (st.overflow || signChanges size.width st.result.toNat n) := by
  induction n with
  | zero => rw [signChanges, Bool.or_false]; rfl
  | succ n ih =>
    obtain ⟨hsized, hvalue, -⟩ := shiftLoop_word true (show (0 : Fin 4) ≠ 2 by decide) hr n
    obtain ⟨hsized', hvalue', -⟩ :=
      shiftLoop_word true (show (0 : Fin 4) ≠ 2 by decide) hr (n + 1)
    have hstep : (shiftLoop 0 true size (n + 1) st).overflow =
        ((shiftLoop 0 true size n st).overflow ||
          (signBit size (shiftLoop 0 true size n st).result !=
            signBit size (shiftLoop 0 true size (n + 1) st).result)) := by
      rw [shiftLoop_succ]
      rfl
    rw [hstep, ih, hsized.sign, hsized'.sign, hvalue, hvalue', signChanges, Bool.or_assoc]
    rfl

/-- Every other loop leaves the overflow alone. -/
theorem shiftLoop_overflow_other (hother : ¬(type = 0 ∧ left = true)) (n : Nat) :
    (shiftLoop type left size n st).overflow = st.overflow := by
  induction n with
  | zero => rfl
  | succ n ih =>
    rw [shiftLoop_succ, ← ih]
    match type, left with
    | 0, true => exact absurd ⟨rfl, rfl⟩ hother
    | 0, false | 1, false | 1, true | 2, false | 2, true | 3, false | 3, true => rfl

/-! ### Through X -/

/-- The word of X and the result. -/
def extendedWord (size : M68kSize) (st : ShiftState) : Nat :=
  withExtend size.width st.extend st.result.toNat

theorem withExtend_lt {w v : Nat} (x : Bool) (hv : v < 2 ^ w) : withExtend w x v < 2 ^ (w + 1) := by
  have hbit := Bool.toNat_le x
  rw [withExtend, pow_succ]
  nlinarith

theorem withExtend_mod {w v : Nat} (x : Bool) (hv : v < 2 ^ w) : withExtend w x v % 2 ^ w = v := by
  rw [withExtend, Nat.add_comm, Nat.add_mul_mod_self_right, Nat.mod_eq_of_lt hv]

theorem withExtend_top {w v : Nat} (x : Bool) (hv : v < 2 ^ w) :
    (withExtend w x v).testBit w = x := by
  cases x with
  | false =>
    rw [withExtend, Bool.toNat_false, Nat.zero_mul, Nat.zero_add]
    exact Nat.testBit_lt_two_pow hv
  | true =>
    rw [withExtend, Bool.toNat_true, Nat.one_mul, Nat.testBit_two_pow_add_eq,
      Nat.testBit_lt_two_pow hv]
    rfl

/-- One iteration turns the word of X and the result by one place. -/
theorem shiftStep_extend (left : Bool) (hr : Sized size st.result) :
    Sized size (shiftStep 2 left size st).result ∧
      extendedWord size (shiftStep 2 left size st) =
        (if left then rotateLeft (size.width + 1) else rotateRight (size.width + 1))
          (extendedWord size st) ∧
      (shiftStep 2 left size st).carry = (shiftStep 2 left size st).extend := by
  have hpow := two_pow_pred (width_pos size)
  have hhalf := hr.right_lt
  have hlt : st.result.toNat < 2 ^ size.width := hr
  cases left with
  | false =>
    have hvalue : (shiftStep 2 false size st).result.toNat =
        st.result.toNat / 2 + st.extend.toNat * 2 ^ (size.width - 1) := by
      show (if st.extend then _ else _ : U32).toNat = _
      cases st.extend with
      | false => rw [if_neg Bool.false_ne_true, right_toNat]; simp
      | true => rw [if_pos rfl, hr.or_msb]; simp
    have hextend : (shiftStep 2 false size st).extend = decide (st.result.toNat % 2 = 1) :=
      lsb_eq _
    have hbit := Bool.toNat_le st.extend
    refine ⟨?_, ?_, rfl⟩
    · rw [Sized, hvalue]
      nlinarith
    · rw [extendedWord, extendedWord, hvalue, hextend, if_neg Bool.false_ne_true, rotateRight,
        withExtend, withExtend, Nat.add_sub_cancel]
      generalize 2 ^ (size.width - 1) = half at hpow hhalf
      rw [hpow]
      have hdiv : (st.extend.toNat * (2 * half) + st.result.toNat) / 2 =
          st.extend.toNat * half + st.result.toNat / 2 := by
        rw [Nat.mul_left_comm, Nat.mul_add_div (by decide)]
      have hmod : (st.extend.toNat * (2 * half) + st.result.toNat) % 2 =
          st.result.toNat % 2 := by
        rw [Nat.mul_left_comm, Nat.mul_add_mod]
      rw [hdiv, hmod]
      rcases Nat.mod_two_eq_zero_or_one st.result.toNat with hlow | hlow <;> rw [hlow] <;>
        simp <;> ring
  | true =>
    have hvalue : (shiftStep 2 true size st).result.toNat =
        shiftLeft size.width st.result.toNat + st.extend.toNat := by
      show (if st.extend then _ else _ : U32).toNat = _
      cases st.extend with
      | false => rw [if_neg Bool.false_ne_true, left_toNat]; rfl
      | true => rw [if_pos rfl, or_lsb]; rfl
    have hextend : (shiftStep 2 true size st).extend =
        negative (2 ^ (size.width - 1)) st.result.toNat := hr.sign
    have hbit := Bool.toNat_le st.extend
    have heven : shiftLeft size.width st.result.toNat =
        2 * (st.result.toNat % 2 ^ (size.width - 1)) := by
      rw [shiftLeft, hpow, Nat.mul_mod_mul_left]
    have hmod := Nat.mod_lt st.result.toNat (Nat.two_pow_pos (size.width - 1))
    refine ⟨?_, ?_, rfl⟩
    · rw [Sized, hvalue, heven]
      omega
    · have hturn : 2 * extendedWord size st % 2 ^ (size.width + 1) = 2 * st.result.toNat := by
        rw [pow_succ', Nat.mul_mod_mul_left, extendedWord, withExtend_mod _ hlt]
      have htop : negative (2 ^ (size.width + 1 - 1)) (extendedWord size st) = st.extend := by
        have hword : extendedWord size st < 2 ^ (size.width + 1) := withExtend_lt _ hlt
        rw [negative_testBit hword (by omega)]
        exact withExtend_top _ hlt
      rw [if_pos rfl, rotateLeft, hturn, htop, extendedWord, withExtend, hvalue, hextend, heven]
      generalize 2 ^ (size.width - 1) = half at hpow hhalf hmod
      rw [hpow]
      rw [hpow] at hlt
      cases hneg : negative half st.result.toNat with
      | false =>
        rw [negative, decide_eq_false_iff_not] at hneg
        rw [Nat.mod_eq_of_lt (by omega), Bool.toNat_false]
        omega
      | true =>
        rw [negative, decide_eq_true_eq] at hneg
        rw [Nat.mod_eq_sub_mod hneg, Nat.mod_eq_of_lt (by omega), Bool.toNat_true]
        omega

/-- The rotates through X. -/
theorem shiftLoop_extend (left : Bool) (hr : Sized size st.result) (n : Nat) :
    Sized size (shiftLoop 2 left size n st).result ∧
      extendedWord size (shiftLoop 2 left size n st) =
        (if left then rotatedLeft (size.width + 1) else rotatedRight (size.width + 1))
          (extendedWord size st) (n % (size.width + 1)) ∧
      (0 < n → (shiftLoop 2 left size n st).carry = (shiftLoop 2 left size n st).extend) := by
  have hiterate : Sized size (shiftLoop 2 left size n st).result ∧
      extendedWord size (shiftLoop 2 left size n st) =
        (if left then rotateLeft (size.width + 1) else rotateRight (size.width + 1))^[n]
          (extendedWord size st) ∧
      (0 < n → (shiftLoop 2 left size n st).carry = (shiftLoop 2 left size n st).extend) := by
    induction n with
    | zero => exact ⟨hr, rfl, fun hn => absurd hn (by decide)⟩
    | succ n ih =>
      obtain ⟨hsized, hword, hcarry⟩ := shiftStep_extend left ih.1
      rw [shiftLoop_succ, Function.iterate_succ_apply', ← ih.2.1]
      exact ⟨hsized, hword, fun _ => hcarry⟩
  refine ⟨hiterate.1, hiterate.2.1.trans ?_, hiterate.2.2⟩
  have hlt : extendedWord size st < 2 ^ (size.width + 1) := withExtend_lt _ hr
  cases left with
  | false => exact rotateRight_iterate hlt (by omega) n
  | true => exact rotateLeft_iterate hlt (by omega) n

end Loops

/-! ## The register form -/

section Register

variable {op : U16} {type : Fin 4} {left : Bool}

theorem ccr_flagsShift (type : Fin 4) (size : M68kSize) (st : ShiftState) (sr : U16) :
    ccr (flagsShift type size st sr) =
      { x := if type = 3 then (ccr sr).x else if type = 2 then st.extend else st.carry
        n := signBit size st.result
        z := st.result == 0
        v := decide (type = 0) && st.overflow
        c := st.carry } := by
  match type with
  | 0 => simp [ccr_eq, flagsShift, nzvcx, nzvc, srX, srN, srZ, srV, srC]
  | 1 => simp [ccr_eq, flagsShift, nzvcx, nzvc, srX, srN, srZ, srV, srC]
  | 2 => simp [ccr_eq, flagsShift, nzvcx, nzvc, srX, srN, srZ, srV, srC]
  | 3 => simp [ccr_eq, flagsShift, nzvc, srN, srZ, srV, srC]

theorem ccr_flagsShiftZero (type : Fin 4) (size : M68kSize) (result : U32) (sr : U16) :
    ccr (flagsShiftZero type size result sr) =
      { x := (ccr sr).x
        n := signBit size result
        z := result == 0
        v := false
        c := decide (type = 2) && (ccr sr).x } := by
  have hx : (sr &&& srX != 0) = (ccr sr).x := rfl
  have htype : (type == 2) = decide (type = 2) := rfl
  rw [flagsShiftZero, hx, htype]
  simp [ccr_eq, nzvc, srN, srZ, srV, srC]

theorem sized_masked (size : M68kSize) (v : U32) : Sized size (v &&& valueMask size) := by
  rw [Sized, and_valueMask]
  exact Nat.mod_lt _ (Nat.two_pow_pos _)

theorem Sized.zero_iff {r : U32} (hr : Sized size r) : (r == 0) = decide (M68k.low size r = 0) := by
  rw [hr.low, Bool.eq_iff_iff, beq_iff_eq, decide_eq_true_eq, ← BitVec.toNat_inj]
  rfl

/-- The loops' result, in closed form. -/
theorem shiftLoop_result (size : M68kSize) (type : Fin 4) (left : Bool) (v : U32) (n : Nat)
    (sr : U16) :
    Sized size (shiftLoop type left size n (shiftInit (v &&& valueMask size) sr)).result ∧
      ShiftsTo type left size n (low size v) (ccr sr).x
        (shiftLoop type left size n (shiftInit (v &&& valueMask size) sr)).result.toNat := by
  have hr : Sized size (shiftInit (v &&& valueMask size) sr).result := sized_masked size v
  have hlt : low size v < 2 ^ size.width := Nat.mod_lt _ (Nat.two_pow_pos _)
  have hvalue : (shiftInit (v &&& valueMask size) sr).result.toNat = low size v :=
    and_valueMask size v
  have hw := width_pos size
  by_cases htype : type = 2
  · subst htype
    obtain ⟨hsized, hword, -⟩ := shiftLoop_extend left hr n
    have hresult := congrArg (· % 2 ^ size.width) hword
    have hinit : extendedWord size (shiftInit (v &&& valueMask size) sr) =
        withExtend size.width (ccr sr).x (low size v) := by
      rw [extendedWord, hvalue]
      rfl
    simp only [extendedWord, withExtend_mod _ hsized] at hresult
    rw [← extendedWord, hinit] at hresult
    refine ⟨hsized, ?_⟩
    cases left with
    | false => exact hresult
    | true => exact hresult
  · obtain ⟨hsized, hword, -⟩ := shiftLoop_word left htype hr n
    rw [hvalue] at hword
    refine ⟨hsized, ?_⟩
    match type, left with
    | 0, false =>
      show signed size.half _ = signed size.half _ / _
      rw [hword, half_eq]
      exact (shiftSigned_iterate (by have := two_pow_pred hw; omega) n).2
    | 0, true | 1, true => exact hword.trans (shiftLeft_iterate _ _ _ hlt)
    | 1, false => exact hword.trans (shiftRight_iterate _ _)
    | 2, _ => exact absurd rfl htype
    | 3, false => exact hword.trans (rotateRight_iterate hlt hw n)
    | 3, true => exact hword.trans (rotateLeft_iterate hlt hw n)

/-- The loops' carry is the last bit out, and X with it. -/
theorem shiftLoop_carry (type : Fin 4) (left : Bool) (v : U32) {n : Nat} (hn : 0 < n) (sr : U16) :
    (shiftLoop type left size n (shiftInit (v &&& valueMask size) sr)).carry =
        lastOut type left size.width n (low size v) (ccr sr).x ∧
      (type = 2 → (shiftLoop type left size n (shiftInit (v &&& valueMask size) sr)).extend =
        (shiftLoop type left size n (shiftInit (v &&& valueMask size) sr)).carry) := by
  have hr : Sized size (shiftInit (v &&& valueMask size) sr).result := sized_masked size v
  have hlt : low size v < 2 ^ size.width := Nat.mod_lt _ (Nat.two_pow_pos _)
  have hvalue : (shiftInit (v &&& valueMask size) sr).result.toNat = low size v :=
    and_valueMask size v
  have hw := width_pos size
  by_cases htype : type = 2
  · subst htype
    obtain ⟨hsized, hword, hcarry⟩ := shiftLoop_extend left hr n
    refine ⟨?_, fun _ => (hcarry hn).symm⟩
    have hinit : extendedWord size (shiftInit (v &&& valueMask size) sr) =
        withExtend size.width (ccr sr).x (low size v) := by
      rw [extendedWord, hvalue]
      rfl
    have htop := withExtend_top (shiftLoop 2 left size n
      (shiftInit (v &&& valueMask size) sr)).extend hsized
    rw [← extendedWord, hword, hinit] at htop
    rw [hcarry hn, ← htop]
    cases left <;> rfl
  · obtain ⟨m, rfl⟩ : ∃ m, n = m + 1 := ⟨n - 1, by omega⟩
    refine ⟨?_, fun h => absurd h htype⟩
    rw [shiftLoop_word_carry htype hr, hvalue]
    match type, left with
    | 0, false =>
      refine (shiftSigned_out hlt hw m).trans ?_
      show _ = if size.width ≤ m + 1 then _ else _
      split <;> congr 1 <;> omega
    | 0, true | 1, true =>
      refine (shiftLeft_out hlt hw m).trans ?_
      show _ = (decide (m + 1 ≤ size.width) && (low size v).testBit (size.width - (m + 1)))
      rw [Nat.sub_sub, Nat.add_comm 1 m]
      rfl
    | 1, false =>
      refine (shiftRight_out _ m).trans ?_
      show _ = (decide (m + 1 ≤ size.width) && (low size v).testBit m)
      by_cases hm : m + 1 ≤ size.width
      · simp [hm]
      · have hpow : low size v < 2 ^ m :=
          Nat.lt_of_lt_of_le hlt (Nat.pow_le_pow_right (by decide) (by omega))
        simp [hm, Nat.testBit_lt_two_pow hpow]
    | 2, _ => exact absurd rfl htype
    | 3, false => exact rotateRight_out hlt hw m
    | 3, true => exact rotateLeft_out hlt hw m

/-- The count of the register form: a register modulo 64, or 1 to 8. -/
def countOf (op : U16) (s : M68kCpu σ) : Nat :=
  if op.getLsbD 5 then (s.dRegs (field op 9) &&& 63).toNat
  else if field op 9 = 0 then 8 else field op 9

/-- The operation of the register form. -/
def shiftType (op : U16) : Fin 4 := ((op >>> 3).setWidth 2).toFin

theorem countOf_le (op : U16) (s : M68kCpu σ) : countOf op s ≤ 63 := by
  have hmask : (s.dRegs (field op 9) &&& 63).toNat ≤ 63 := by
    rw [BitVec.toNat_and]
    exact Nat.and_le_right
  have hfield := (field op 9).isLt
  unfold countOf
  split
  · exact hmask
  · split <;> omega

theorem shiftCount_run (op : U16) (h : Host σ) (s : M68kCpu σ) :
    shiftCount op h s = .ok (countOf op s) s := by
  unfold shiftCount countOf
  cases hbit : op.getLsbD 5 <;> rfl

theorem dispatch_shift (hline : lineOf op = 0xE) (hsize : sizeOf? (sizeBits op) = some size)
    (h : Host σ) (s : M68kCpu σ) :
    ∃ cycles, dispatch op h s = costed (execShiftRegister op) cycles h s := by
  have hbits : sizeBits op ≠ 3 := by
    intro hbits
    rw [hbits] at hsize
    cases hsize
  refine ⟨(if sizeBits op = 2 then 8 else 6) + 2 * (countOf op s : Int), ?_⟩
  unfold dispatch
  rw [hline]
  show lineE op h s = _
  have hcycles : shiftCycles op h s =
      .ok ((if sizeBits op = 2 then 8 else 6) + 2 * (countOf op s : Int)) s := by
    rw [shiftCycles, if_neg (sizeOf?_mask hsize), bind_ok (shiftCount_run op h s)]
    rfl
  rw [lineE, bind_ok hcycles, execShift, if_neg hbits]

/-- The status register after the loops describes their closed form. -/
theorem shifted_of_loop (type : Fin 4) (left : Bool) (old : U32) {n : Nat} (hn : 0 < n)
    (sr : U16) :
    Shifted type left size n old
      (mergeSized size old
        (shiftLoop type left size n (shiftInit (old &&& valueMask size) sr)).result) sr
      (flagsShift type size
        (shiftLoop type left size n (shiftInit (old &&& valueMask size) sr)) sr) := by
  obtain ⟨hsized, hresult⟩ := shiftLoop_result _ type left old n sr
  obtain ⟨hcarry, hextend⟩ := shiftLoop_carry type left old hn sr
  have hr : Sized size (shiftInit (old &&& valueMask size) sr).result := sized_masked size old
  have hvalue : (shiftInit (old &&& valueMask size) sr).result.toNat = low size old :=
    and_valueMask size old
  have hlt : low size old < 2 ^ size.width := Nat.mod_lt _ (Nat.two_pow_pos _)
  have hpow : (2 : Int) ^ (size.width - 1) = (2 ^ (size.width - 1) : Nat) := by push_cast; rfl
  constructor
  · rw [low_mergeSized, hsized.low]
    exact hresult
  · exact mergeSized_above _ _ _
  · intro _
    rw [ccr_flagsShift]
    exact hcarry
  · intro _
    rw [ccr_flagsShift]
    show (if type = 3 then _ else if type = 2 then _ else _) = if type = 3 then _ else _
    split
    · rfl
    · split
      · next h => exact hextend h
      · rfl
  · intro hzero
    omega
  · rw [ccr_flagsShift, hpow, half_eq]
    show (decide (type = 0) && _) = true ↔ _
    by_cases hasl : type = 0 ∧ left = true
    · obtain ⟨rfl, rfl⟩ := hasl
      have hchanges := (signChanges_iff (width_pos size) hlt n).1
      rw [shiftLoop_overflow hr n, hvalue]
      show (true && (false || _)) = true ↔ _
      rw [Bool.false_or, Bool.true_and, hchanges]
      simp only [true_and]
    · rw [shiftLoop_overflow_other hasl n]
      show (decide (type = 0) && false) = true ↔ _
      rw [Bool.and_false]
      constructor
      · intro hfalse
        cases hfalse
      · rintro ⟨htype, hleft, -⟩
        exact absurd ⟨htype, hleft⟩ hasl
  · rw [ccr_flagsShift, ← signBit_bit, signBit_mergeSized]
  · rw [ccr_flagsShift, low_mergeSized]
    exact hsized.zero_iff

/-- A shift by zero touches the condition codes only. -/
theorem shifted_zero (type : Fin 4) (left : Bool) (old : U32) (sr : U16) :
    Shifted type left size 0 old old sr (flagsShiftZero type size (old &&& valueMask size) sr) := by
  obtain ⟨-, hresult⟩ := shiftLoop_result size type left old 0 sr
  have hvalue : (shiftLoop type left size 0 (shiftInit (old &&& valueMask size) sr)).result.toNat =
      low size old := and_valueMask size old
  have hhalf := half_pos size
  have hlt := low_lt size old
  rw [hvalue] at hresult
  have hsign : signBit size (old &&& valueMask size) = signBit size old := by
    rw [signBit_eq, signBit_eq, (sized_masked size old).low, and_valueMask]
  refine ⟨hresult, rfl, fun hn => absurd hn (by decide), fun hn => absurd hn (by decide),
    fun _ => ?_, ?_, ?_, ?_⟩
  · rw [ccr_flagsShiftZero]
    exact ⟨rfl, rfl⟩
  · rw [ccr_flagsShiftZero, two_pow_half, pow_zero, mul_one]
    have hfits : -(size.half : Int) ≤ signed size.half (low size old) ∧
        signed size.half (low size old) < size.half := by
      unfold signed
      split <;> omega
    simp [hfits]
  · rw [ccr_flagsShiftZero, ← signBit_bit, hsign]
  · rw [ccr_flagsShiftZero, (sized_masked size old).zero_iff, (sized_masked size old).low,
      and_valueMask]

theorem execShiftRegister_zero (hsize : sizeOf? (sizeBits op) = some size)
    (hzero : countOf op s = 0) :
    execShiftRegister op h s = .ok ()
      { s with sr :=
        flagsShiftZero (shiftType op) size (s.dRegs (field op 0) &&& valueMask size) s.sr } := by
  unfold execShiftRegister
  dsimp only
  rw [bind_ok (shiftCount_run op h s), getD, gets_bind, hsize, Option.getD_some, if_pos hzero]
  rfl

theorem execShiftRegister_loop (hsize : sizeOf? (sizeBits op) = some size)
    (hzero : countOf op s ≠ 0) :
    execShiftRegister op h s = .ok () (s.computed (field op 0)
      (mergeSized size (s.dRegs (field op 0)) (shiftLoop (shiftType op) (op.getLsbD 8) size
        (countOf op s) (shiftInit (s.dRegs (field op 0) &&& valueMask size) s.sr)).result)
      (flagsShift (shiftType op) size (shiftLoop (shiftType op) (op.getLsbD 8) size
        (countOf op s) (shiftInit (s.dRegs (field op 0) &&& valueMask size) s.sr)) s.sr)) := by
  unfold execShiftRegister
  dsimp only
  rw [bind_ok (shiftCount_run op h s), getD, gets_bind, hsize, Option.getD_some, if_neg hzero]
  rfl

/-- **The shift loops equal their closed forms.** For every size, value, count and X the
register form writes the closed form of its operation and the condition codes that go
with it, and nothing else. -/
theorem shift_closed_form (hline : lineOf op = 0xE) (hsize : sizeOf? (sizeBits op) = some size) :
    countOf op s ≤ 63 ∧ ∃ cycles t, dispatch op h s = .ok cycles t ∧
      t = s.computed (field op 0) (t.dRegs (field op 0)) t.sr ∧
      Shifted (shiftType op) (op.getLsbD 8) size (countOf op s) (s.dRegs (field op 0))
        (t.dRegs (field op 0)) s.sr t.sr := by
  refine ⟨countOf_le op s, ?_⟩
  obtain ⟨cycles, hdispatch⟩ := dispatch_shift hline hsize h s
  refine ⟨cycles, ?_⟩
  by_cases hzero : countOf op s = 0
  · refine ⟨_, hdispatch.trans (costed_ok (execShiftRegister_zero hsize hzero) cycles), ?_, ?_⟩
    · rw [M68kCpu.computed, Function.update_eq_self]
    · rw [hzero]
      exact shifted_zero _ _ _ _
  · have hwritten (v : U32) (sr : U16) :
        (s.computed (field op 0) v sr).dRegs (field op 0) = v := Function.update_self _ _ _
    refine ⟨_, hdispatch.trans (costed_ok (execShiftRegister_loop hsize hzero) cycles), ?_, ?_⟩
    · rw [hwritten]
      rfl
    · rw [hwritten]
      exact shifted_of_loop _ _ _ (Nat.pos_of_ne_zero hzero) _

/-- ASL.W #3,D0 with every register all ones. -/
theorem shift_closed_form_asl :
    countOf 0xE740 allOnes ≤ 63 ∧ ∃ cycles t, dispatch 0xE740 (Host.none Unit) allOnes =
        .ok cycles t ∧
      t = allOnes.computed 0 (t.dRegs 0) t.sr ∧
      Shifted 0 true .word 3 (allOnes.dRegs 0) (t.dRegs 0) allOnes.sr t.sr :=
  @shift_closed_form Unit (Host.none Unit) allOnes .word 0xE740 rfl rfl

end Register

end M68k
