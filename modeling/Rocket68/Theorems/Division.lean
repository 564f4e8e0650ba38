import Rocket68.Theorems.Arithmetic
import Rocket68.Num.Restoring

/-!
# Division

DIVU and DIVS divide a data register by a word. The quotient is truncated toward zero
and the remainder has the sign of the dividend; a quotient that needs more than 16 bits
leaves the register alone. The timing code has an overflow test of its own, on the high
word of the dividend, and it is compared here with the one that decides the result.
-/

namespace M68k

open Trap TrapM Num

variable {σ : Type} {h : Host σ} {s u : M68kCpu σ}

/-! ## Truncated division -/

/-- `q` and `r` are quotient and remainder of `n` by `d`, truncated toward zero. -/
structure Truncates (n d q r : Int) : Prop where
  identity : n = q * d + r
  small : r.natAbs < d.natAbs
  sign : r = 0 ∨ (0 < r ∧ 0 < n) ∨ (r < 0 ∧ n < 0)

theorem truncates_tdiv {d : Int} (n : Int) (hd : d ≠ 0) : Truncates n d (n.tdiv d) (n.tmod d) where
  identity := by
    have hdiv := Int.tmod_add_tdiv_mul n d
    omega
  small := by
    rw [Int.natAbs_tmod]
    exact Nat.mod_lt _ (Int.natAbs_pos.mpr hd)
  sign := by
    rcases Int.lt_trichotomy n 0 with hn | hn | hn
    · have hneg := Int.tmod_nonneg d (a := -n) (by omega)
      rw [Int.neg_tmod] at hneg
      omega
    · left
      rw [hn, Int.zero_tmod]
    · have hpos := Int.tmod_nonneg d (Int.le_of_lt hn)
      omega

/-! ## Operands and results as integers -/

/-- The dividend, signed for DIVS. -/
def dividendOf (isSigned : Bool) (v : U32) : Int := if isSigned then v.toInt else v.toNat

/-- A divisor, quotient or remainder word, signed for DIVS. -/
def wordOf (isSigned : Bool) (v : U16) : Int := if isSigned then v.toInt else v.toNat

/-- A quotient that fits in 16 bits. -/
def quotientFits (isSigned : Bool) (q : Int) : Prop :=
  if isSigned then -32768 ≤ q ∧ q ≤ 32767 else 0 ≤ q ∧ q ≤ 65535

/-- The absolute dividend and divisor of the DIVS timing. -/
def absDividend (dividend : U32) : U32 := if dividend.toInt < 0 then -dividend else dividend

def absDivisor (divisor : U16) : U32 :=
  if divisor.toInt < 0 then -(divisor.signExtend 32) else divisor.signExtend 32

/-- The overflow test of the timing code. -/
def earlyOverflow (isSigned : Bool) (dividend : U32) (divisor : U16) : Prop :=
  if isSigned then absDividend dividend >>> 16 ≥ absDivisor divisor
  else dividend >>> 16 ≥ divisor.setWidth 32

instance (isSigned : Bool) (dividend : U32) (divisor : U16) :
    Decidable (earlyOverflow isSigned dividend divisor) := by
  unfold earlyOverflow
  infer_instance

theorem absDividend_toNat (dividend : U32) :
    (absDividend dividend).toNat = dividend.toInt.natAbs := by
  have hlt := dividend.isLt
  rw [absDividend]
  by_cases hneg : dividend.toInt < 0
  · rw [if_pos hneg, BitVec.toNat_neg]
    rw [BitVec.toInt_eq_toNat_cond] at hneg ⊢
    split at hneg <;> split <;> omega
  · rw [if_neg hneg]
    rw [BitVec.toInt_eq_toNat_cond] at hneg ⊢
    split at hneg <;> split <;> omega

theorem signExtend_toInt (divisor : U16) : (divisor.signExtend 32).toInt = divisor.toInt := by
  rw [BitVec.toInt_signExtend_of_le (by decide)]

theorem absDivisor_toNat (divisor : U16) : (absDivisor divisor).toNat = divisor.toInt.natAbs := by
  have heq : absDivisor divisor = absDividend (divisor.signExtend 32) := by
    rw [absDivisor, absDividend, signExtend_toInt]
  rw [heq, absDividend_toNat, signExtend_toInt]

/-! ## The two overflow tests -/

theorem ushiftRight_toNat (v : U32) : (v >>> 16).toNat = v.toNat / 65536 := by
  rw [BitVec.toNat_ushiftRight, Nat.shiftRight_eq_div_pow]

/-- The early test of DIVU is the exact one. -/
theorem earlyOverflow_unsigned (dividend : U32) {divisor : U16} (hd : divisor ≠ 0) :
    earlyOverflow false dividend divisor ↔
      ¬quotientFits false ((dividendOf false dividend).tdiv (wordOf false divisor)) := by
  have hpos : 0 < divisor.toNat := by
    rw [Nat.pos_iff_ne_zero]
    intro hzero
    exact hd (BitVec.eq_of_toNat_eq hzero)
  have hquot : (dividendOf false dividend).tdiv (wordOf false divisor) =
      (dividend.toNat / divisor.toNat : Nat) := by
    show Int.tdiv (dividend.toNat : Int) (divisor.toNat : Int) = _
    rw [Int.ofNat_tdiv]
  have htest : earlyOverflow false dividend divisor ↔ divisor.toNat ≤ dividend.toNat / 65536 := by
    show divisor.setWidth 32 ≤ dividend >>> 16 ↔ _
    rw [BitVec.le_def, ushiftRight_toNat, BitVec.toNat_setWidth_of_le (by decide)]
  rw [htest, hquot, Nat.le_div_iff_mul_le (by decide)]
  have hlarge : 65536 ≤ dividend.toNat / divisor.toNat ↔
      divisor.toNat * 65536 ≤ dividend.toNat := by
    rw [Nat.le_div_iff_mul_le hpos, Nat.mul_comm]
  show _ ↔ ¬(0 ≤ ((dividend.toNat / divisor.toNat : Nat) : Int) ∧ _ ≤ 65535)
  generalize dividend.toNat / divisor.toNat = q at hlarge
  omega

/-- The early test of DIVS is sufficient. -/
theorem earlyOverflow_signed {dividend : U32} {divisor : U16} (hd : divisor ≠ 0)
    (hearly : earlyOverflow true dividend divisor) :
    ¬quotientFits true ((dividendOf true dividend).tdiv (wordOf true divisor)) := by
  have hne : divisor.toInt ≠ 0 := fun hzero => hd (BitVec.eq_of_toInt_eq hzero)
  have hpos : 0 < divisor.toInt.natAbs := Int.natAbs_pos.mpr hne
  have htest : divisor.toInt.natAbs ≤ dividend.toInt.natAbs / 65536 := by
    have hle : absDivisor divisor ≤ absDividend dividend >>> 16 := hearly
    rwa [BitVec.le_def, ushiftRight_toNat, absDividend_toNat, absDivisor_toNat] at hle
  rw [Nat.le_div_iff_mul_le (by decide)] at htest
  have hlarge : 65536 ≤ dividend.toInt.natAbs / divisor.toInt.natAbs := by
    rw [Nat.le_div_iff_mul_le hpos, Nat.mul_comm]
    exact htest
  have habs : (dividend.toInt.tdiv divisor.toInt).natAbs =
      dividend.toInt.natAbs / divisor.toInt.natAbs := Int.natAbs_tdiv _ _
  show ¬(-32768 ≤ dividend.toInt.tdiv divisor.toInt ∧ dividend.toInt.tdiv divisor.toInt ≤ 32767)
  omega

/-! ## No intermediate overflow -/

/-- The intermediate values of the handler and of its timing code. `sv` and `sd` are the
signed operands: the 64-bit signed division has a divisor other than 0 and a quotient in
range, the negations of the timing code are exact in their types, the unsigned divisions
have a divisor other than 0, and the cycle counters stay small in every iteration. -/
structure DivideSafe (dividend : U32) (divisor : U16) : Prop where
  signedDivisor : divisor.toInt ≠ 0
  quotient : -2 ^ 63 ≤ dividend.toInt.tdiv divisor.toInt ∧
    dividend.toInt.tdiv divisor.toInt < 2 ^ 63
  negDividend : -2 ^ 63 ≤ -dividend.toInt ∧ -dividend.toInt < 2 ^ 63
  dividendMagnitude : (absDividend dividend).toNat = dividend.toInt.natAbs
  negDivisor : -2 ^ 31 ≤ -divisor.toInt ∧ -divisor.toInt < 2 ^ 31
  divisorMagnitude : (absDivisor divisor).toNat = divisor.toInt.natAbs
  timingDivisor : absDivisor divisor ≠ 0
  unsignedDivisor : divisor.setWidth 32 ≠ (0 : U32)
  signedCounter : ∀ n ≤ 15, ∀ aquot m, 0 ≤ m → m ≤ 63 →
    0 ≤ divsQuotientWalk n aquot m ∧ divsQuotientWalk n aquot m ≤ 78
  unsignedCounter : ∀ n ≤ 15, ∀ d, 0 ≤ divuWalk (divisor.setWidth 32 <<< 16) n d 38 ∧
    divuWalk (divisor.setWidth 32 <<< 16) n d 38 ≤ 68

/-- Each iteration adds one at most. -/
theorem divsQuotientWalk_bounds (n : Nat) (aquot : U32) (m : Int) :
    m ≤ divsQuotientWalk n aquot m ∧ divsQuotientWalk n aquot m ≤ m + n := by
  induction n generalizing aquot m with
  | zero => simp [divsQuotientWalk]
  | succ n ih =>
    have hsame := ih (aquot <<< 1) m
    have hone := ih (aquot <<< 1) (m + 1)
    rw [divsQuotientWalk]
    split <;> omega

/-- Each iteration adds two at most. -/
theorem divuWalk_bounds (hdivisor : U32) (n : Nat) (d : U32) (m : Int) :
    m ≤ divuWalk hdivisor n d m ∧ divuWalk hdivisor n d m ≤ m + 2 * n := by
  induction n generalizing d m with
  | zero => simp [divuWalk]
  | succ n ih =>
    have hsame := ih ((d <<< 1) - hdivisor) m
    have hone := ih ((d <<< 1) - hdivisor) (m + 1)
    have htwo := ih (d <<< 1) (m + 2)
    rw [divuWalk]
    split
    · omega
    · split <;> omega

theorem divide_safe (dividend : U32) {divisor : U16} (hd : divisor ≠ 0) :
    DivideSafe dividend divisor := by
  have hne : divisor.toInt ≠ 0 := fun hzero => hd (BitVec.eq_of_toInt_eq hzero)
  have hlo := BitVec.le_toInt dividend
  have hhi := BitVec.toInt_lt (x := dividend)
  have hlo' := BitVec.le_toInt divisor
  have hhi' := BitVec.toInt_lt (x := divisor)
  have hquot := Int.natAbs_tdiv_le_natAbs dividend.toInt divisor.toInt
  refine ⟨hne, by omega, by omega, absDividend_toNat _, by omega, absDivisor_toNat _, ?_, ?_,
    ?_, ?_⟩
  · intro hzero
    have habs := absDivisor_toNat divisor
    rw [hzero] at habs
    exact hne (Int.natAbs_eq_zero.mp habs.symm)
  · intro hzero
    apply hd
    apply BitVec.eq_of_toNat_eq
    have hnat := congrArg BitVec.toNat hzero
    rwa [BitVec.toNat_setWidth_of_le (by decide)] at hnat
  · intro n hn aquot m hm hm'
    have hwalk := divsQuotientWalk_bounds n aquot m
    omega
  · intro n hn d
    have hwalk := divuWalk_bounds (divisor.setWidth 32 <<< 16) n d 38
    omega

/-! ## The result -/

/-- The register and the status register after a division by something other than 0. -/
structure Divided (isSigned : Bool) (dividend : U32) (q r : Int) (new : U32) (sr sr' : U16) :
    Prop where
  fits : quotientFits isSigned q → wordOf isSigned (new.setWidth 16) = q ∧
    wordOf isSigned ((new >>> 16).setWidth 16) = r ∧
    ccr sr' = { x := (ccr sr).x, n := new.getLsbD 15, z := decide (q = 0), v := false, c := false }
  overflows : ¬quotientFits isSigned q → new = dividend ∧
    ccr sr' = { x := (ccr sr).x, n := true, z := false, v := true, c := false }

theorem ccr_flagsDivOverflow (sr : U16) : ccr (flagsDivOverflow sr) =
    { x := (ccr sr).x, n := true, z := false, v := true, c := false } := by
  simp [ccr_eq, flagsDivOverflow, nzvc, srN, srZ, srV, srC]

theorem ccr_flagsQuotient (quotient : U32) (sr : U16) : ccr (flagsQuotient quotient sr) =
    { x := (ccr sr).x, n := quotient.getLsbD 15, z := quotient == 0, v := false, c := false } := by
  have hmask : (0x8000 : U32) = BitVec.twoPow 32 15 := by decide
  rw [flagsQuotient, hmask, and_twoPow_ne_zero]
  simp [ccr_eq, nzvc, srN, srZ, srV, srC]

theorem getLsbD_lowMask (i : Nat) : (0xFFFF : U32).getLsbD i = decide (i < 16) := by
  show Nat.testBit (2 ^ 16 - 1) i = _
  exact Nat.testBit_two_pow_sub_one 16 i

/-- Remainder and quotient packed in a register. -/
theorem packed_low (hi lo : U32) :
    ((hi <<< 16) ||| (lo &&& 0xFFFF)).setWidth 16 = lo.setWidth 16 := by
  apply BitVec.eq_of_getLsbD_eq
  intro i hlt
  simp only [BitVec.getLsbD_setWidth, BitVec.getLsbD_or, BitVec.getLsbD_shiftLeft,
    BitVec.getLsbD_and, getLsbD_lowMask]
  simp [hlt]

theorem packed_high (hi lo : U32) :
    (((hi <<< 16) ||| (lo &&& 0xFFFF)) >>> 16).setWidth 16 = hi.setWidth 16 := by
  apply BitVec.eq_of_getLsbD_eq
  intro i hlt
  simp only [BitVec.getLsbD_setWidth, BitVec.getLsbD_ushiftRight, BitVec.getLsbD_or,
    BitVec.getLsbD_shiftLeft, BitVec.getLsbD_and, getLsbD_lowMask]
  simp [hlt, show 16 + i < 32 by omega]

theorem packed_sign (hi lo : U32) :
    ((hi <<< 16) ||| (lo &&& 0xFFFF)).getLsbD 15 = (lo &&& 0xFFFF).getLsbD 15 := by
  simp only [BitVec.getLsbD_or, BitVec.getLsbD_shiftLeft]
  simp

/-- A remainder and a quotient that fit, in the register. -/
theorem divided_of_fits {isSigned : Bool} {dividend hi lo : U32} {q r : Int} {sr : U16}
    (hq : quotientFits isSigned q) (hlo : wordOf isSigned (lo.setWidth 16) = q)
    (hhi : wordOf isSigned (hi.setWidth 16) = r) :
    Divided isSigned dividend q r ((hi <<< 16) ||| (lo &&& 0xFFFF)) sr
      (flagsQuotient (lo &&& 0xFFFF) sr) where
  fits := by
    intro _
    refine ⟨by rw [packed_low, hlo], by rw [packed_high, hhi], ?_⟩
    -- Z is computed from the masked quotient, N from its top bit
    have hzero : (lo &&& 0xFFFF == 0) = decide (q = 0) := by
      have hword : wordOf isSigned (lo.setWidth 16) = 0 ↔ lo.setWidth 16 = 0 := by
        cases isSigned with
        | false =>
          show ((lo.setWidth 16).toNat : Int) = 0 ↔ _
          rw [← BitVec.toNat_inj]
          exact Int.natCast_eq_zero
        | true =>
          show (lo.setWidth 16).toInt = 0 ↔ _
          rw [← BitVec.toInt_inj]
          rfl
      have hmask : lo &&& 0xFFFF = 0 ↔ lo.setWidth 16 = 0 := by
        have hnat : (lo &&& 0xFFFF).toNat = (lo.setWidth 16).toNat := by
          rw [show (0xFFFF : U32) = valueMask .word from rfl, and_valueMask, low,
            BitVec.toNat_setWidth]
          rfl
        rw [← BitVec.toNat_inj, ← BitVec.toNat_inj, hnat]
        rfl
      rw [Bool.eq_iff_iff, beq_iff_eq, decide_eq_true_eq, hmask, ← hword, hlo]
    rw [ccr_flagsQuotient, packed_sign, hzero]
  overflows := fun hover => absurd hq hover

theorem divided_of_overflow {isSigned : Bool} {dividend : U32} {q r : Int} {sr : U16}
    (hq : ¬quotientFits isSigned q) :
    Divided isSigned dividend q r dividend sr (flagsDivOverflow sr) where
  fits := fun hfits => absurd hfits hq
  overflows := fun _ => ⟨rfl, ccr_flagsDivOverflow sr⟩

/-! ## The handler -/

section Handler

variable {op : U16} {ea : Ea}

theorem costed_congr {m n : M σ Unit} (hrun : m h s = n h u) (cycles : Int) :
    costed m cycles h s = costed n cycles h u := by
  rw [costed, costed]
  cases hn : n h u with
  | ok a t => rw [bind_ok (hrun.trans hn), bind_ok hn]
  | trap t => rw [bind_trap (hrun.trans hn), bind_trap hn]
  | diverge => rw [bind_diverge (hrun.trans hn), bind_diverge hn]

theorem divisorRaw_eq (v : U32) : v &&& 0xFFFF = (v.setWidth 16).setWidth 32 := by
  apply BitVec.eq_of_toNat_eq
  rw [show (0xFFFF : U32) = valueMask .word from rfl, and_valueMask, low,
    BitVec.toNat_setWidth_of_le (by decide), BitVec.toNat_setWidth]
  rfl

theorem setWidth_eq_zero (d : U16) : d.setWidth 32 = (0 : U32) ↔ d = 0 := by
  rw [← BitVec.toNat_inj, ← BitVec.toNat_inj, BitVec.toNat_setWidth_of_le (by decide)]
  rfl

theorem dispatch_div {isSigned : Bool} (hline : lineOf op = 8)
    (hopmode : field op 6 = if isSigned then 7 else 3) :
    (dispatch op : M σ Int) = costed (execDiv op) 0 := by
  have hdiv : field op 6 = 3 ∨ field op 6 = 7 := by
    cases isSigned with
    | false => exact .inl hopmode
    | true => exact .inr hopmode
  unfold dispatch
  rw [hline]
  show line8 op = _
  rw [line8, if_pos hdiv]

/-- The handler once its operand is delivered. -/
def divideBody (isSigned : Bool) (regIdx : Fin 8) (dividend : U32) (divisor : U16) : M σ Unit :=
  if divisor.setWidth 32 = (0 : U32) then
    exception 5
  else if isSigned then do
    let (sQuot, sRem) := divsResult dividend divisor
    charge (divsCycles dividend divisor)
    if sQuot < -32768 ∨ sQuot > 32767 then
      modifySr flagsDivOverflow
    else do
      let quotient := BitVec.ofInt 32 sQuot &&& 0xFFFF
      let remainder := BitVec.ofInt 32 sRem &&& 0xFFFF
      setD regIdx ((remainder <<< 16) ||| quotient)
      modifySr (flagsQuotient quotient)
  else do
    let quotient := dividend / divisor.setWidth 32
    let remainder := dividend % divisor.setWidth 32
    charge (divuCycles dividend (divisor.setWidth 32))
    if quotient > 0xFFFF then
      modifySr flagsDivOverflow
    else do
      setD regIdx ((remainder <<< 16) ||| (quotient &&& 0xFFFF))
      modifySr (flagsQuotient quotient)

theorem execDiv_run {isSigned : Bool} (hopmode : field op 6 = if isSigned then 7 else 3)
    (hlegal : notData (field op 3) (field op 0) = false)
    (hea : calcEa (field op 3) (field op 0) .word h s = .ok ea u) :
    execDiv op h s =
      divideBody isSigned (field op 9) (u.dRegs (field op 9)) (ea.value.setWidth 16) h u := by
  have hround (d : U16) : (d.setWidth 32).setWidth 16 = d := by
    apply BitVec.eq_of_toNat_eq
    simp
  have hsigned : (field op 6 == 7) = isSigned := by
    rw [hopmode]
    cases isSigned <;> rfl
  unfold execDiv
  dsimp only
  rw [hlegal, if_neg Bool.false_ne_true, bind_ok hea, getD, gets_bind, hsigned,
    divisorRaw_eq ea.value, hround]
  rfl

/-- The unsigned result. -/
theorem divideBody_unsigned (r : Fin 8) {divisor : U16} (hd : divisor ≠ 0) (h : Host σ)
    (u : M68kCpu σ) :
    ∃ v sr, divideBody false r (u.dRegs r) divisor h u =
        .ok () (charged (divuCycles (u.dRegs r) (divisor.setWidth 32)) (u.computed r v sr)) ∧
      Divided false (u.dRegs r) ((dividendOf false (u.dRegs r)).tdiv (wordOf false divisor))
        ((dividendOf false (u.dRegs r)).tmod (wordOf false divisor)) v u.sr sr := by
  have hwide : divisor.setWidth 32 ≠ (0 : U32) := fun hzero => hd ((setWidth_eq_zero _).mp hzero)
  have hdivisor : (divisor.setWidth 32 : U32).toNat = divisor.toNat :=
    BitVec.toNat_setWidth_of_le (by decide)
  have hquot : (dividendOf false (u.dRegs r)).tdiv (wordOf false divisor) =
      ((u.dRegs r / divisor.setWidth 32).toNat : Int) := by
    rw [BitVec.toNat_udiv, hdivisor]
    rfl
  have hrem : (dividendOf false (u.dRegs r)).tmod (wordOf false divisor) =
      ((u.dRegs r % divisor.setWidth 32).toNat : Int) := by
    rw [BitVec.toNat_umod, hdivisor]
    rfl
  have hpos : 0 < divisor.toNat := Nat.pos_of_ne_zero fun hzero => hd (BitVec.eq_of_toNat_eq hzero)
  have hsmall : (u.dRegs r % divisor.setWidth 32).toNat < 65536 := by
    rw [BitVec.toNat_umod, hdivisor]
    exact Nat.lt_trans (Nat.mod_lt _ hpos) divisor.isLt
  unfold divideBody
  rw [if_neg hwide, if_neg Bool.false_ne_true, hquot, hrem]
  generalize u.dRegs r / divisor.setWidth 32 = q
  generalize u.dRegs r % divisor.setWidth 32 = rem at hsmall
  by_cases hover : q > 0xFFFF
  -- overflow: the register stays as it is
  · have hlarge : 65535 < q.toNat := hover
    refine ⟨u.dRegs r, flagsDivOverflow u.sr, ?_, divided_of_overflow ?_⟩
    · rw [charge, modify_bind, if_pos hover, M68kCpu.computed, Function.update_eq_self]
      rfl
    · show ¬(0 ≤ (q.toNat : Int) ∧ (q.toNat : Int) ≤ 65535)
      omega
  · have hfits : q.toNat ≤ 65535 := Nat.not_lt.mp hover
    have hmask : q &&& 0xFFFF = q := by
      apply BitVec.eq_of_toNat_eq
      rw [show (0xFFFF : U32) = valueMask .word from rfl, and_valueMask]
      exact Nat.mod_eq_of_lt (by show q.toNat < 65536; omega)
    refine ⟨(rem <<< 16) ||| (q &&& 0xFFFF), flagsQuotient (q &&& 0xFFFF) u.sr, ?_,
      divided_of_fits ?_ ?_ ?_⟩
    · rw [charge, modify_bind, if_neg hover, hmask]
      rfl
    · exact ⟨Int.natCast_nonneg _, by omega⟩
    · show ((q.setWidth 16).toNat : Int) = _
      rw [BitVec.toNat_setWidth, Nat.mod_eq_of_lt (by omega)]
    · show ((rem.setWidth 16).toNat : Int) = _
      rw [BitVec.toNat_setWidth, Nat.mod_eq_of_lt (by omega)]

/-- A small integer survives its word. -/
theorem setWidth_ofInt {i : Int} (hlo : -32768 ≤ i) (hhi : i ≤ 32767) :
    ((BitVec.ofInt 32 i).setWidth 16 : U16).toInt = i := by
  rw [BitVec.toInt_setWidth, BitVec.toNat_ofInt, Int.bmod_def]
  simp only [Int.toNat_of_nonneg (Int.emod_nonneg i (by decide : ((2 ^ 32 : Nat) : Int) ≠ 0))]
  split <;> omega

/-- The signed result. -/
theorem divideBody_signed (r : Fin 8) {divisor : U16} (hd : divisor ≠ 0) (h : Host σ)
    (u : M68kCpu σ) :
    ∃ n v sr, divideBody true r (u.dRegs r) divisor h u = .ok () (charged n (u.computed r v sr)) ∧
      Divided true (u.dRegs r) ((dividendOf true (u.dRegs r)).tdiv (wordOf true divisor))
        ((dividendOf true (u.dRegs r)).tmod (wordOf true divisor)) v u.sr sr := by
  have hwide : divisor.setWidth 32 ≠ (0 : U32) := fun hzero => hd ((setWidth_eq_zero _).mp hzero)
  have hne : divisor.toInt ≠ 0 := fun hzero => hd (BitVec.eq_of_toInt_eq hzero)
  have htrunc := truncates_tdiv (u.dRegs r).toInt hne
  have hlo := BitVec.le_toInt divisor
  have hhi := BitVec.toInt_lt (x := divisor)
  have hsmall := htrunc.small
  show ∃ n v sr, divideBody true r (u.dRegs r) divisor h u =
      .ok () (charged n (u.computed r v sr)) ∧
    Divided true (u.dRegs r) ((u.dRegs r).toInt.tdiv divisor.toInt)
      ((u.dRegs r).toInt.tmod divisor.toInt) v u.sr sr
  unfold divideBody divsResult
  rw [if_neg hwide, if_pos rfl]
  generalize (u.dRegs r).toInt.tdiv divisor.toInt = q
  generalize (u.dRegs r).toInt.tmod divisor.toInt = rem at hsmall
  refine ⟨divsCycles (u.dRegs r) divisor, ?_⟩
  by_cases hover : q < -32768 ∨ q > 32767
  · refine ⟨u.dRegs r, flagsDivOverflow u.sr, ?_, divided_of_overflow ?_⟩
    · dsimp only
      rw [charge, modify_bind, if_pos hover, M68kCpu.computed, Function.update_eq_self]
      rfl
    · show ¬(-32768 ≤ q ∧ q ≤ 32767)
      omega
  · refine ⟨((BitVec.ofInt 32 rem &&& 0xFFFF) <<< 16) ||| (BitVec.ofInt 32 q &&& 0xFFFF),
      flagsQuotient (BitVec.ofInt 32 q &&& 0xFFFF) u.sr, ?_, divided_of_fits ?_ ?_ ?_⟩
    · dsimp only
      rw [charge, modify_bind, if_neg hover]
      rfl
    · show -32768 ≤ q ∧ q ≤ 32767
      omega
    · exact setWidth_ofInt (by omega) (by omega)
    -- the code masks the remainder before the shift, which the word does not see
    · have hmask : (BitVec.ofInt 32 rem &&& 0xFFFF).setWidth 16 =
          (BitVec.ofInt 32 rem).setWidth 16 := by
        have hlow := packed_low 0 (BitVec.ofInt 32 rem)
        simpa using hlow
      rw [hmask]
      exact setWidth_ofInt (by omega) (by omega)

/-- The divide of `dividend` by `divisor`, from the state `u` that delivered them. -/
structure DividesExactly (isSigned : Bool) (op : U16) (r : Fin 8) (divisor : U16) (h : Host σ)
    (s u : M68kCpu σ) : Prop where
  /-- Zero divide: vector 5, and no register is written. -/
  zero : divisor = 0 → dispatch op h s = costed (exception 5) 0 h u ∧
    ∀ k, h = ackHost k → 0 ≤ u.exceptionDepth → ∃ t, dispatch op h s = .ok 0 t ∧
      Processed 5 u t ∧ t.dRegs = u.dRegs ∧ (ccr t.sr).x = (ccr u.sr).x
  safe : divisor ≠ 0 → DivideSafe (u.dRegs r) divisor
  result : divisor ≠ 0 → ∃ t n q rem, dispatch op h s = .ok 0 t ∧
    t = charged n (u.computed r (t.dRegs r) t.sr) ∧
    Truncates (dividendOf isSigned (u.dRegs r)) (wordOf isSigned divisor) q rem ∧
    Divided isSigned (u.dRegs r) q rem (t.dRegs r) u.sr t.sr ∧
    (earlyOverflow isSigned (u.dRegs r) divisor → ¬quotientFits isSigned q) ∧
    (isSigned = false → ¬quotientFits isSigned q → earlyOverflow isSigned (u.dRegs r) divisor)

/-- The extend bit is not the exception's to change. -/
theorem ccr_handlerSr (sr : U16) : ccr (handlerSr sr) = ccr sr := by
  have hkeep (i : Nat) (hi : i < 5) : (handlerSr sr).getLsbD i = sr.getLsbD i := by
    have hset : ∀ j : Fin 5, srS.getLsbD j = false ∧ (~~~srT).getLsbD j = true ∧
        srMask.getLsbD j = true := by decide
    obtain ⟨h1, h2, h3⟩ := hset ⟨i, hi⟩
    simp only [handlerSr, BitVec.getLsbD_and, BitVec.getLsbD_or, h1, h2, h3, Bool.or_false,
      Bool.and_true]
  rw [ccr_eq, ccr_eq, hkeep 4 (by decide), hkeep 3 (by decide), hkeep 2 (by decide),
    hkeep 1 (by decide), hkeep 0 (by decide)]

theorem wordOf_ne_zero {isSigned : Bool} {divisor : U16} (hd : divisor ≠ 0) :
    wordOf isSigned divisor ≠ 0 := by
  intro hzero
  apply hd
  cases isSigned with
  | false =>
    apply BitVec.eq_of_toNat_eq
    exact Int.natCast_eq_zero.mp hzero
  | true => exact BitVec.eq_of_toInt_eq hzero

/-- **Division is correct and total.** -/
theorem division_correct {isSigned : Bool} (hline : lineOf op = 8)
    (hopmode : field op 6 = if isSigned then 7 else 3)
    (hlegal : notData (field op 3) (field op 0) = false)
    (hea : calcEa (field op 3) (field op 0) .word h s = .ok ea u) :
    DividesExactly isSigned op (field op 9) (ea.value.setWidth 16) h s u := by
  have hbody : dispatch op h s = costed (divideBody isSigned (field op 9) (u.dRegs (field op 9))
      (ea.value.setWidth 16)) 0 h u := by
    rw [dispatch_div hline hopmode]
    exact costed_congr (execDiv_run hopmode hlegal hea) 0
  constructor
  · intro hzero
    have hraise : dispatch op h s = costed (exception 5) 0 h u := by
      rw [hbody, hzero]
      rfl
    refine ⟨hraise, ?_⟩
    rintro k rfl hdepth
    obtain ⟨t, ht, hp⟩ := exception_processed (k := k) 5 hdepth
    refine ⟨t, hraise.trans (costed_ok ht 0), hp, congrArg Kept.dRegs hp.kept, ?_⟩
    rw [hp.sr, ccr_handlerSr]
  · intro hd
    exact divide_safe _ hd
  · intro hd
    have hrun : ∃ n v sr, divideBody isSigned (field op 9) (u.dRegs (field op 9))
        (ea.value.setWidth 16) h u = .ok () (charged n (u.computed (field op 9) v sr)) ∧
        Divided isSigned (u.dRegs (field op 9))
          ((dividendOf isSigned (u.dRegs (field op 9))).tdiv
            (wordOf isSigned (ea.value.setWidth 16)))
          ((dividendOf isSigned (u.dRegs (field op 9))).tmod
            (wordOf isSigned (ea.value.setWidth 16))) v u.sr sr := by
      cases isSigned with
      | false => exact ⟨_, divideBody_unsigned _ hd h u⟩
      | true => exact divideBody_signed _ hd h u
    obtain ⟨n, v, sr, hok, hdivided⟩ := hrun
    have hv : (charged n (u.computed (field op 9) v sr)).dRegs (field op 9) = v :=
      Function.update_self _ _ _
    refine ⟨charged n (u.computed (field op 9) v sr), n, _, _, ?_, ?_,
      truncates_tdiv _ (wordOf_ne_zero hd), ?_, ?_, ?_⟩
    · rw [hbody]
      exact costed_ok hok 0
    · rw [hv]
      rfl
    · rw [hv]
      exact hdivided
    -- the early test of the code is exact for DIVU and sufficient for DIVS
    · cases isSigned with
      | false => exact (earlyOverflow_unsigned _ hd).mp
      | true => exact earlyOverflow_signed hd
    · rintro rfl
      exact (earlyOverflow_unsigned _ hd).mpr

/-- DIVU D1,D0 with every register all ones. -/
theorem division_correct_divu :
    DividesExactly false 0x80C1 0 0xFFFF (Host.none Unit) allOnes allOnes :=
  @division_correct Unit (Host.none Unit) allOnes allOnes 0x80C1 _ false rfl rfl rfl
    (calcEa_data _ _ _ _)

end Handler

/-! ## The timing walk of DIVU -/

section Walk

/-- The walk subtracts the shifted divisor: at once when the top bit is about to be lost. -/
def divuSubtracts (hdivisor d : U32) : Bool := d.getLsbD 31 || decide (hdivisor ≤ d <<< 1)

/-- One iteration on the partial remainder. -/
def divuNext (hdivisor d : U32) : U32 :=
  if divuSubtracts hdivisor d then (d <<< 1) - hdivisor else d <<< 1

/-- What one iteration adds to `m`. -/
def divuCost (hdivisor d : U32) : Int :=
  if d.getLsbD 31 then 0 else if divuSubtracts hdivisor d then 1 else 2

/-- The partial remainder before iteration `i`. -/
def divuRemainder (dividend : U32) (divisor : U16) (i : Nat) : U32 :=
  (divuNext (divisor.setWidth 32 <<< 16))^[i] dividend

theorem divuWalk_step (hdivisor : U32) (n : Nat) (d : U32) (m : Int) :
    divuWalk hdivisor (n + 1) d m = divuWalk hdivisor n (divuNext hdivisor d)
      (m + divuCost hdivisor d) := by
  rw [divuWalk, divuNext, divuCost, divuSubtracts]
  cases d.getLsbD 31 with
  | true => simp
  | false => by_cases hle : hdivisor ≤ d <<< 1 <;> simp [hle]

/-- The walk adds up its iterations. -/
theorem divuWalk_sum (hdivisor : U32) (n : Nat) (d : U32) (m : Int) :
    divuWalk hdivisor n d m =
      m + ((List.range n).map fun i => divuCost hdivisor ((divuNext hdivisor)^[i] d)).sum := by
  induction n generalizing d m with
  | zero => simp [divuWalk]
  | succ n ih =>
    rw [divuWalk_step, ih, List.range_succ_eq_map, List.map_cons, List.sum_cons, List.map_map,
      Int.add_assoc]
    rfl

/-- The bit that the doubling loses was worth subtracting for, and the subtraction wraps
back over it: the truncated state is the exact remainder. -/
theorem divuNext_toNat {hdivisor d : U32} (hd : d.toNat < hdivisor.toNat) :
    (divuNext hdivisor d).toNat = restore hdivisor.toNat d.toNat ∧
      (divuSubtracts hdivisor d = true ↔ hdivisor.toNat ≤ 2 * d.toNat) := by
  have hlt := d.isLt
  have hlt' := hdivisor.isLt
  have hshift : (d <<< 1).toNat = 2 * d.toNat % 2 ^ 32 := by
    rw [BitVec.toNat_shiftLeft, Nat.shiftLeft_eq, Nat.mul_comm, pow_one]
  have htop : d.getLsbD 31 = decide (2 ^ 31 ≤ d.toNat) := by
    exact (BitVec.msb_eq_getLsbD_last d).symm.trans (BitVec.msb_eq_decide d)
  have hiff : divuSubtracts hdivisor d = true ↔ hdivisor.toNat ≤ 2 * d.toNat := by
    rw [divuSubtracts, htop, Bool.or_eq_true, decide_eq_true_eq, decide_eq_true_eq, BitVec.le_def,
      hshift]
    omega
  refine ⟨?_, hiff⟩
  rw [divuNext, restore]
  by_cases hle : hdivisor.toNat ≤ 2 * d.toNat
  · rw [if_pos (hiff.mpr hle), if_pos hle, BitVec.toNat_sub, hshift]
    omega
  · rw [if_neg (hiff.not.mpr hle), if_neg hle, hshift]
    omega

variable {dividend : U32} {divisor : U16}

theorem high_lt (hhigh : dividend >>> 16 < divisor.setWidth 32) :
    dividend.toNat < divisor.toNat * 2 ^ 16 ∧ 0 < divisor.toNat := by
  rw [BitVec.lt_def, ushiftRight_toNat, BitVec.toNat_setWidth_of_le (by decide)] at hhigh
  omega

theorem hdivisor_toNat (divisor : U16) :
    (divisor.setWidth 32 <<< 16 : U32).toNat = divisor.toNat * 2 ^ 16 := by
  have hlt := divisor.isLt
  rw [BitVec.toNat_shiftLeft, BitVec.toNat_setWidth_of_le (by decide), Nat.shiftLeft_eq,
    Nat.mod_eq_of_lt (by omega)]

/-- The truncated walk follows restoring division exactly. -/
theorem divuRemainder_toNat (hhigh : dividend >>> 16 < divisor.setWidth 32) (i : Nat) :
    (divuRemainder dividend divisor i).toNat =
      (restore (divisor.toNat * 2 ^ 16))^[i] dividend.toNat ∧
    (divuRemainder dividend divisor i).toNat < divisor.toNat * 2 ^ 16 := by
  induction i with
  | zero => exact ⟨rfl, (high_lt hhigh).1⟩
  | succ i ih =>
    obtain ⟨hexact, hlt⟩ := ih
    have hnext := divuNext_toNat (Nat.lt_of_lt_of_eq hlt (hdivisor_toNat _).symm)
    rw [hdivisor_toNat] at hnext
    have hstep : divuRemainder dividend divisor (i + 1) =
        divuNext (divisor.setWidth 32 <<< 16) (divuRemainder dividend divisor i) :=
      Function.iterate_succ_apply' _ _ _
    rw [hstep, hnext.1, Function.iterate_succ_apply', ← hexact]
    exact ⟨rfl, restore_lt hlt⟩

/-- Bit `i` of the quotient, from the top down. -/
def quotientBit (dividend : U32) (divisor : U16) (i : Nat) : Bool :=
  (dividend.toNat / divisor.toNat).testBit (15 - i)

theorem divuSubtracts_iff (hhigh : dividend >>> 16 < divisor.setWidth 32) {i : Nat} (hi : i < 15) :
    divuSubtracts (divisor.setWidth 32 <<< 16) (divuRemainder dividend divisor i) =
      quotientBit dividend divisor i := by
  obtain ⟨hexact, hlt⟩ := divuRemainder_toNat hhigh i
  obtain ⟨hbound, hpos⟩ := high_lt hhigh
  have hnext := (divuNext_toNat (Nat.lt_of_lt_of_eq hlt (hdivisor_toNat _).symm)).2
  rw [hdivisor_toNat, hexact] at hnext
  rw [Bool.eq_iff_iff, hnext]
  exact restores_quotient hpos hbound (by omega)

/-- How many of the quotient bits 15 to 1 are zero. -/
def zeroBits (dividend : U32) (divisor : U16) : Nat :=
  (List.range 15).countP fun i => !quotientBit dividend divisor i

/-- How many of them are one and were produced with the top bit of the partial remainder
clear. -/
def clearOnes (dividend : U32) (divisor : U16) : Nat :=
  (List.range 15).countP fun i =>
    quotientBit dividend divisor i && !(divuRemainder dividend divisor i).getLsbD 31

/-- What one iteration costs, told from the quotient bit. -/
theorem divuCost_eq (hhigh : dividend >>> 16 < divisor.setWidth 32) {i : Nat} (hi : i < 15) :
    divuCost (divisor.setWidth 32 <<< 16) (divuRemainder dividend divisor i) =
      2 * (!quotientBit dividend divisor i).toNat +
        (quotientBit dividend divisor i &&
          !(divuRemainder dividend divisor i).getLsbD 31).toNat := by
  have hbit := divuSubtracts_iff hhigh hi
  rw [divuCost, hbit]
  cases htop : (divuRemainder dividend divisor i).getLsbD 31 with
  | true =>
    -- the lost bit decides the quotient bit too
    rw [divuSubtracts, htop, Bool.true_or] at hbit
    rw [← hbit]
    rfl
  | false => cases quotientBit dividend divisor i <;> rfl

/-- A sum of costs counts both kinds of iterations. -/
theorem sum_costs (p q : Nat → Bool) (l : List Nat) :
    (l.map fun i => (2 * (p i).toNat + (q i).toNat : Int)).sum = 2 * l.countP p + l.countP q := by
  induction l with
  | nil => rfl
  | cons i l ih =>
    rw [List.map_cons, List.sum_cons, ih, List.countP_cons, List.countP_cons]
    cases p i <;> cases q i <;> simp <;> omega

/-- **The DIVU timing walk is restoring division.** Each of its decisions is a bit of the
quotient, although the 33rd bit of the partial remainder is dropped, and the charge counts
the zeros among them and the ones that were not decided by the dropped bit. -/
theorem divu_walk (hhigh : dividend >>> 16 < divisor.setWidth 32) :
    (∀ i, i < 15 → divuSubtracts (divisor.setWidth 32 <<< 16) (divuRemainder dividend divisor i) =
      quotientBit dividend divisor i) ∧
    divuCycles dividend (divisor.setWidth 32) =
      76 + 4 * zeroBits dividend divisor + 2 * clearOnes dividend divisor ∧
    Even (divuCycles dividend (divisor.setWidth 32)) ∧
    76 ≤ divuCycles dividend (divisor.setWidth 32) ∧
    divuCycles dividend (divisor.setWidth 32) ≤ 136 ∧
    ∀ (r : Fin 8) (h : Host σ) (u : M68kCpu σ), u.dRegs r = dividend →
      ∃ v sr, divideBody false r dividend divisor h u =
        .ok () (charged (divuCycles dividend (divisor.setWidth 32)) (u.computed r v sr)) := by
  have hcosts : ((List.range 15).map fun i => divuCost (divisor.setWidth 32 <<< 16)
      (divuRemainder dividend divisor i)).sum =
      2 * zeroBits dividend divisor + clearOnes dividend divisor := by
    rw [zeroBits, clearOnes, ← sum_costs]
    congr 1
    apply List.map_congr_left
    intro i hi
    exact divuCost_eq hhigh (List.mem_range.mp hi)
  have hcycles : divuCycles dividend (divisor.setWidth 32) =
      76 + 4 * zeroBits dividend divisor + 2 * clearOnes dividend divisor := by
    have hwalk : divuWalk (divisor.setWidth 32 <<< 16) 15 dividend 38 = 38 + _ :=
      divuWalk_sum _ 15 dividend 38
    rw [divuCycles, if_neg (BitVec.not_le.mpr hhigh), hwalk]
    show 2 * (38 + ((List.range 15).map fun i => divuCost (divisor.setWidth 32 <<< 16)
      (divuRemainder dividend divisor i)).sum) = _
    rw [hcosts]
    omega
  -- a step is a zero or a one, so at most fifteen are charged
  have hcount : zeroBits dividend divisor + clearOnes dividend divisor ≤ 15 := by
    have hall := List.length_eq_countP_add_countP (quotientBit dividend divisor)
      (l := List.range 15)
    have hones : clearOnes dividend divisor ≤ _ :=
      List.countP_mono_left (q := quotientBit dividend divisor) fun i _ h =>
        (Bool.and_eq_true _ _ ▸ h).1
    rw [List.length_range] at hall
    simp only [Bool.not_eq_true, Bool.decide_eq_false] at hall
    rw [zeroBits]
    omega
  refine ⟨fun i hi => divuSubtracts_iff hhigh hi, hcycles, ?_, ?_, ?_, ?_⟩
  · rw [hcycles]
    exact ⟨38 + 2 * zeroBits dividend divisor + clearOnes dividend divisor, by ring⟩
  · omega
  · omega
  · intro r h u hu
    have hpos := (high_lt hhigh).2
    have hd : divisor ≠ 0 := by
      rintro rfl
      exact Nat.lt_irrefl 0 hpos
    obtain ⟨v, sr, hrun, -⟩ := divideBody_unsigned r hd h u
    rw [hu] at hrun
    exact ⟨v, sr, hrun⟩

/-- The walk whose first partial remainder has its top bit set. -/
theorem divu_walk_top : divuSubtracts (0xFFFF <<< 16) 0xFFFE0000 = quotientBit 0xFFFE0000 0xFFFF 0 ∧
    divuCycles 0xFFFE0000 0xFFFF ≤ 136 := by
  have hhigh : (0xFFFE0000 : U32) >>> 16 < (0xFFFF : U16).setWidth 32 := by decide
  have h := divu_walk (σ := Unit) hhigh
  exact ⟨h.1 0 (by decide), h.2.2.2.2.1⟩

end Walk

end M68k
