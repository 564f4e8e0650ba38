import Rocket68.Logic.Limbs
import Rocket68.Theorems.Multiprecision

/-!
# Decimal arithmetic

ABCD, SBCD and NBCD correct a binary sum or difference of two digits at a time. A byte of
valid digits is a digit in base 100, and the instructions add and subtract such digits;
byte after byte they add and subtract numbers of any length.
-/

namespace M68k

open Trap TrapM Num

variable {σ : Type} {k : Option (Nat → M68kCpu σ → M68kCpu σ × U32)} {s t u v : M68kCpu σ}
  {rx ry : Fin 8} {op : U16}

/-! ## Digits -/

/-- A packed BCD byte: both digits below ten. -/
def Packed (b : Nat) : Prop := b % 16 < 10 ∧ b / 16 < 10

instance (b : Nat) : Decidable (Packed b) := inferInstanceAs (Decidable (_ ∧ _))

/-- The number a packed byte stands for. -/
def decimal (b : Nat) : Nat := 10 * (b / 16) + b % 16

theorem digit_toNat (v : U32) : (v &&& 0x0F).toNat = v.toNat % 16 := by
  have hmask : (0x0F : U32).toNat = 2 ^ 4 - 1 := rfl
  rw [BitVec.toNat_and, hmask, Nat.and_two_pow_sub_one_eq_mod]

theorem byte_toNat (v : U32) : (v &&& 0xFF).toNat = v.toNat % 256 := by
  have hmask : (0xFF : U32).toNat = 2 ^ 8 - 1 := rfl
  rw [BitVec.toNat_and, hmask, Nat.and_two_pow_sub_one_eq_mod]

/-- The decimal carry test on the high digit. -/
theorem highDigit_carry : ∀ v : Fin 1024,
    decide ((BitVec.ofNat 32 v : U32) &&& 0xF0 > 0x90) = decide (10 ≤ v.val / 16 % 16) := by
  decide +kernel

/-! ## A decimal sum of bytes -/

/-- Correction of a binary sum to a decimal one: the low digit, then the carry of the high. -/
def sumCorrected (s d x : Nat) : Nat := if 9 < s % 16 + d % 16 + x then s + d + x + 6 else s + d + x

def sumCarries (s d x : Nat) : Bool :=
  decide (255 < s + d + x) || decide (255 < sumCorrected s d x) ||
    decide (10 ≤ sumCorrected s d x / 16 % 16)

theorem abcdResult_toNat {src dest : U32} (x : Bool) (hs : src.toNat < 256)
    (hd : dest.toNat < 256) :
    (abcdResult src dest (if x then 1 else 0)).2.1 = sumCarries src.toNat dest.toNat x.toNat ∧
    (abcdResult src dest (if x then 1 else 0)).1.toNat =
      (if sumCarries src.toNat dest.toNat x.toNat then
        sumCorrected src.toNat dest.toNat x.toNat + 0x60
      else sumCorrected src.toNat dest.toNat x.toNat) % 256 := by
  have hx : x.toNat < 2 := by cases x <;> decide
  have hbin : ((src &&& 0xFF) + (dest &&& 0xFF) + if x then 1 else 0).toNat =
      src.toNat + dest.toNat + x.toNat := by
    rw [BitVec.toNat_add, BitVec.toNat_add, byte_toNat, byte_toNat, toNat_ite]
    omega
  have hlow : ((src &&& 0x0F) + (dest &&& 0x0F) + if x then 1 else 0).toNat =
      src.toNat % 16 + dest.toNat % 16 + x.toNat := by
    rw [BitVec.toNat_add, BitVec.toNat_add, digit_toNat, digit_toNat, toNat_ite]
    omega
  have hnine : (9 : U32).toNat = 9 := rfl
  have hlimit : (0xFF : U32).toNat = 255 := rfl
  simp only [abcdResult]
  generalize (src &&& 0xFF) + (dest &&& 0xFF) + (if x then 1 else 0) = bin at *
  generalize (src &&& 0x0F) + (dest &&& 0x0F) + (if x then 1 else 0) = low at *
  have hres : (if low > 9 then bin + 6 else bin).toNat =
      sumCorrected src.toNat dest.toNat x.toNat := by
    have hsix : (6 : U32).toNat = 6 := rfl
    simp only [gt_iff_lt, BitVec.lt_def, hlow, hnine, sumCorrected]
    split
    · rw [BitVec.toNat_add, hbin, hsix, Nat.mod_eq_of_lt (by omega)]
    · exact hbin
  generalize (if low > 9 then bin + 6 else bin) = res at *
  have hcarry : (decide (bin > 0xFF) || decide (res > 0xFF) || decide (res &&& 0xF0 > 0x90)) =
      sumCarries src.toNat dest.toNat x.toNat := by
    have hhigh := highDigit_carry ⟨res.toNat, by rw [hres, sumCorrected]; split <;> omega⟩
    rw [BitVec.ofNat_toNat, BitVec.setWidth_eq] at hhigh
    rw [hhigh]
    simp only [gt_iff_lt, BitVec.lt_def, hbin, hres, hlimit, sumCarries]
  rw [hcarry]
  refine ⟨rfl, ?_⟩
  rw [BitVec.toNat_setWidth]
  have hsixty : (0x60 : U32).toNat = 0x60 := rfl
  split
  · rw [BitVec.toNat_add, hres, hsixty]
    omega
  · rw [hres]

/-- The sum with its low digit corrected: the high digits and the decimal carry into them,
over a low digit. -/
theorem sumCorrected_digits {s d x : Nat} (hx : x < 2) (hs : Packed s) (hd : Packed d) :
    ∃ high digit, sumCorrected s d x = 16 * high + digit ∧ digit < 10 ∧ high < 20 ∧
      10 * high + digit = decimal d + decimal s + x := by
  obtain ⟨hslow, hshigh⟩ := hs
  obtain ⟨hdlow, hdhigh⟩ := hd
  by_cases hlow : 9 < s % 16 + d % 16 + x
  · refine ⟨s / 16 + d / 16 + 1, s % 16 + d % 16 + x - 10, ?_, by omega, by omega, ?_⟩
    · rw [sumCorrected, if_pos hlow]
      omega
    · rw [decimal, decimal]
      omega
  · refine ⟨s / 16 + d / 16, s % 16 + d % 16 + x, ?_, by omega, by omega, ?_⟩
    · rw [sumCorrected, if_neg hlow]
      omega
    · rw [decimal, decimal]
      omega

theorem abcdResult_packed {src dest : U32} (x : Bool) (hs : src.toNat < 256)
    (hd : dest.toNat < 256) (hsrc : Packed src.toNat) (hdest : Packed dest.toNat) :
    Packed (abcdResult src dest (if x then 1 else 0)).1.toNat ∧
      Sums 100 (decimal dest.toNat) (decimal src.toNat) x
        (decimal (abcdResult src dest (if x then 1 else 0)).1.toNat)
        (abcdResult src dest (if x then 1 else 0)).2.1 := by
  have hx : x.toNat < 2 := by cases x <;> decide
  obtain ⟨hcarry, hresult⟩ := abcdResult_toNat x hs hd
  obtain ⟨high, digit, hcorrected, hdigit, hhigh, hsum⟩ := sumCorrected_digits hx hsrc hdest
  -- the three tests of the code agree with one on the corrected high digit
  have hdecides : sumCarries src.toNat dest.toNat x.toNat = decide (10 ≤ high) := by
    have hbinary :
        src.toNat + dest.toNat + x.toNat ≤ sumCorrected src.toNat dest.toNat x.toNat := by
      rw [sumCorrected]
      split <;> omega
    rw [sumCarries, ← Bool.decide_or, ← Bool.decide_or, decide_eq_decide]
    rw [hcorrected] at hbinary ⊢
    have hdiv : (16 * high + digit) / 16 = high := by omega
    rw [hdiv]
    omega
  have hdecimal (n : Nat) (h : n < 10) : decimal (16 * n + digit) = 10 * n + digit := by
    rw [decimal]
    omega
  have hpacked (n : Nat) (h : n < 10) : Packed (16 * n + digit) := by
    constructor <;> omega
  rw [hcarry, hresult, hdecides, hcorrected]
  have hdlt : decimal dest.toNat < 100 := by
    obtain ⟨hlow, hupper⟩ := hdest
    rw [decimal]
    omega
  have hslt : decimal src.toNat < 100 := by
    obtain ⟨hlow, hupper⟩ := hsrc
    rw [decimal]
    omega
  by_cases hc : 10 ≤ high
  -- a carry: adding 0x60 drops ten from the high digit
  · have hvalue : (16 * high + digit + 0x60) % 256 = 16 * (high - 10) + digit := by omega
    rw [decide_eq_true hc, if_pos rfl, hvalue, hdecimal _ (by omega)]
    refine ⟨hpacked _ (by omega), hdlt, hslt, by omega, ?_⟩
    rw [Bool.toNat_true]
    omega
  · have hvalue : (16 * high + digit) % 256 = 16 * high + digit := by omega
    rw [decide_eq_false hc, if_neg Bool.false_ne_true, hvalue, hdecimal _ (by omega)]
    refine ⟨hpacked _ (by omega), hdlt, hslt, by omega, ?_⟩
    rw [Bool.toNat_false]
    omega

/-! ## A decimal difference of bytes -/

/-- A difference of small numbers on 32 bits. -/
theorem sub_toNat (d s : U32) (x : Bool) :
    ((d - s - if x then 1 else 0).toNat : Int) =
      ((d.toNat : Int) - s.toNat - x.toNat) % 2 ^ 32 := by
  have hlow (v : U32) : low .long v = v.toNat := Nat.mod_eq_of_lt v.isLt
  have h := low_sub .long d s x
  rw [hlow, hlow, hlow] at h
  exact h

theorem msb_iff (v : U32) : v.msb = decide (2 ^ 31 ≤ v.toNat) := BitVec.msb_eq_decide v

/-- A binary difference with its low digit corrected: a high digit, negative when the whole
borrows, over a low digit. -/
theorem differenceCorrected_digits {s d x : Nat} {bin lowSub : U32} (hx : x < 2) (hs : Packed s)
    (hd : Packed d) (hbin : (bin.toNat : Int) = ((d : Int) - s - x) % 2 ^ 32)
    (hlow : (lowSub.toNat : Int) = (((d % 16 : Nat) : Int) - (s % 16 : Nat) - x) % 2 ^ 32) :
    ∃ (high : Int) (digit : Nat),
      ((if lowSub.msb then bin - 6 else bin).toNat : Int) = (16 * high + digit) % 2 ^ 32 ∧
      digit < 10 ∧ -10 ≤ high ∧ high < 10 ∧ bin.msb = decide (high < 0) ∧
      10 * high + digit = (decimal d : Int) - decimal s - x := by
  obtain ⟨hslow, hshigh⟩ := hs
  obtain ⟨hdlow, hdhigh⟩ := hd
  have hborrow : lowSub.msb = decide (d % 16 < s % 16 + x) := by
    rw [msb_iff, decide_eq_decide]
    omega
  have hsix : (6 : U32).toNat = 6 := rfl
  rw [msb_iff bin, decimal, decimal, hborrow]
  by_cases hlt : d % 16 < s % 16 + x
  -- the low digit borrows, and the correction pays it back as ten
  · refine ⟨(d / 16 : Nat) - (s / 16 : Nat) - 1, d % 16 + 10 - s % 16 - x, ?_, by omega, by omega,
      by omega, ?_, by omega⟩
    · rw [decide_eq_true hlt, if_pos rfl, BitVec.toNat_sub, hsix]
      omega
    · rw [decide_eq_decide]
      omega
  · refine ⟨(d / 16 : Nat) - (s / 16 : Nat), d % 16 - s % 16 - x, ?_, by omega, by omega, by omega,
      ?_, by omega⟩
    · rw [decide_eq_false hlt, if_neg Bool.false_ne_true]
      omega
    · rw [decide_eq_decide]
      omega

/-- The high digit brought back into range. -/
theorem high_borrowed {res : U32} {high : Int} {digit : Nat}
    (hres : (res.toNat : Int) = (16 * high + digit) % 2 ^ 32) (hdigit : digit < 10)
    (hleast : -10 ≤ high) (hneg : high < 0) :
    (res - 0x60).toNat % 256 = 16 * (high + 10).toNat + digit := by
  have hsixty : (0x60 : U32).toNat = 0x60 := rfl
  obtain ⟨n, hn⟩ : ∃ n : Nat, high = n - 10 := ⟨(high + 10).toNat, by omega⟩
  subst hn
  have hten : ((n : Int) - 10 + 10).toNat = n := by omega
  rw [hten, BitVec.toNat_sub, hsixty]
  omega

theorem high_kept {res : U32} {high : Int} {digit : Nat}
    (hres : (res.toNat : Int) = (16 * high + digit) % 2 ^ 32) (hdigit : digit < 10)
    (hmost : high < 10) (hneg : ¬high < 0) : res.toNat = 16 * high.toNat + digit := by
  omega

theorem packed_digits {high digit : Nat} (hhigh : high < 10) (hdigit : digit < 10) :
    Packed (16 * high + digit) ∧ decimal (16 * high + digit) = 10 * high + digit := by
  rw [Packed, decimal]
  omega

theorem Packed.decimal_lt {b : Nat} (h : Packed b) : decimal b < 100 := by
  obtain ⟨hlow, hhigh⟩ := h
  rw [decimal]
  omega

theorem decimalSub_packed {src dest : U32} (x : Bool) (hs : src.toNat < 256)
    (hd : dest.toNat < 256) (hsrc : Packed src.toNat) (hdest : Packed dest.toNat) :
    Packed (decimalSub src dest (if x then 1 else 0)).1.toNat ∧
      Differs 100 (decimal dest.toNat) (decimal src.toNat) x
        (decimal (decimalSub src dest (if x then 1 else 0)).1.toNat)
        (decimalSub src dest (if x then 1 else 0)).2.1 := by
  have hx : x.toNat < 2 := by cases x <;> decide
  have hbin := sub_toNat (dest &&& 0xFF) (src &&& 0xFF) x
  have hlow := sub_toNat (dest &&& 0x0F) (src &&& 0x0F) x
  rw [byte_toNat, byte_toNat, Nat.mod_eq_of_lt hs, Nat.mod_eq_of_lt hd] at hbin
  rw [digit_toNat, digit_toNat] at hlow
  obtain ⟨high, digit, hres, hdigit, hleast, hmost, hnegative, hsum⟩ :=
    differenceCorrected_digits hx hsrc hdest hbin hlow
  have hdlt := hdest.decimal_lt
  have hslt := hsrc.decimal_lt
  have hbyte (v : U32) : ((v &&& 0xFF).setWidth 8 : U8).toNat = v.toNat % 256 := by
    rw [BitVec.toNat_setWidth, byte_toNat]
    omega
  simp only [decimalSub]
  rw [hbyte, hnegative]
  generalize (if BitVec.msb (_ : U32) then (_ : U32) - 6 else _) = res at hres ⊢
  clear hbin hlow hnegative hbyte hsrc hdest hs hd
  by_cases hneg : high < 0
  · obtain ⟨hpacked, hdecimal⟩ := packed_digits (show (high + 10).toNat < 10 by omega) hdigit
    rw [decide_eq_true hneg, if_pos rfl, high_borrowed hres hdigit hleast hneg, hdecimal,
      Bool.true_or]
    refine ⟨hpacked, hdlt, hslt, by omega, ?_⟩
    rw [Bool.toNat_true]
    omega
  · have hvalue := high_kept hres hdigit hmost hneg
    obtain ⟨hpacked, hdecimal⟩ := packed_digits (show high.toNat < 10 by omega) hdigit
    have hmod : res.toNat % 256 = 16 * high.toNat + digit := by omega
    have hplus : res.msb = false := by
      rw [msb_iff, decide_eq_false_iff_not]
      omega
    rw [decide_eq_false hneg, if_neg Bool.false_ne_true, hmod, hdecimal, hplus, Bool.or_false]
    refine ⟨hpacked, hdlt, hslt, by omega, ?_⟩
    rw [Bool.toNat_false]
    omega

/-! ## The handlers -/

/-- The law of a decimal instruction. -/
def decimalLaw (f : U32 → U32 → U32 → U8 × Bool × Bool) : LimbLaw where
  result src dest c := (f src dest (if c.x then 1 else 0)).1.setWidth 32
  codes src dest c :=
    let r := f src dest (if c.x then 1 else 0)
    { x := r.2.1, n := r.1 &&& 0x80 != 0, z := r.1 == 0 && c.z, v := r.2.2, c := r.2.1 }

theorem ccr_flagsBcd (r : U8 × Bool × Bool) (sr : U16) :
    ccr (flagsBcd r sr) =
      { x := r.2.1, n := r.1 &&& 0x80 != 0, z := r.1 == 0 && (ccr sr).z, v := r.2.2
        c := r.2.1 } := by
  obtain ⟨result, c, v⟩ := r
  by_cases hzero : result = 0
  · subst hzero
    simp [ccr_eq, flagsBcd, srX, srN, srV, srC]
  · simp [ccr_eq, flagsBcd, srX, srN, srZ, srV, srC, show ¬result = 0#8 from hzero]

section Handlers

variable {f : U32 → U32 → U32 → U8 × Bool × Bool}

/-- After a byte was read below a register. -/
def M68kCpu.lowered (r : Fin 8) (s : M68kCpu σ) : M68kCpu σ :=
  { s with aRegs := Function.update s.aRegs r (s.aRegs r - M68kSize.byte.bytes) }.noted
    (.access .read .byte (s.aRegs r - M68kSize.byte.bytes))

/-- The byte below a register. -/
theorem predec8_hit {α : Type} {r : Fin 8} (hr : r ≠ 7)
    (h : Fits s .byte (s.aRegs r - M68kSize.byte.bytes)) (next : U8 → M σ α) :
    (getA r >>= fun a => setA r (a - stepSize r .byte) >>= fun _ => getA r >>= fun a =>
      read8 a >>= next) (ackHost k) s =
      next (s.memory (maskAddress24 (s.aRegs r - M68kSize.byte.bytes))) (ackHost k)
        (s.lowered r) := by
  simp only [getA, setA, gets_bind, modify_bind, stepSize_ordinary hr, Function.update_self]
  exact bind_ok (read8_hit (h.of_memorySize rfl).accessible)

theorem bcdOperands_hit (hx : rx ≠ 7) (hy : ry ≠ 7) (hne : rx ≠ ry)
    (hsrc : Fits s .byte (s.aRegs ry - M68kSize.byte.bytes))
    (hdest : Fits s .byte (s.aRegs rx - M68kSize.byte.bytes)) :
    bcdOperands rx ry true (ackHost k) s =
      .ok (limbBelow .byte s ry 0, limbBelow .byte s rx 0) ((s.lowered ry).lowered rx) := by
  have hkeep : (s.lowered ry).aRegs rx = s.aRegs rx := Function.update_of_ne hne _ _
  have hsecond : Fits (s.lowered ry) .byte ((s.lowered ry).aRegs rx - M68kSize.byte.bytes) := by
    rw [hkeep]
    exact hdest.of_memorySize rfl
  unfold bcdOperands
  rw [if_pos rfl]
  refine (predec8_hit hy hsrc _).trans ((predec8_hit hx hsecond _).trans ?_)
  rw [hkeep, limbBelow_zero, limbBelow_zero]
  rfl

/-- The two registers, lowered. -/
theorem lowered_lowered (hne : rx ≠ ry) {r : Fin 8} (hr : Lowers rx (some ry) r) :
    ((s.lowered ry).lowered rx).aRegs r = s.aRegs r - M68kSize.byte.bytes := by
  have hkeep : (s.lowered ry).aRegs rx = s.aRegs rx := Function.update_of_ne hne _ _
  rcases hr with rfl | hr
  · exact (Function.update_self _ _ _).trans (congrArg (· - M68kSize.byte.bytes) hkeep)
  · cases hr
    exact (Function.update_of_ne (Ne.symm hne) _ _).trans (Function.update_self _ _ _)

theorem execBcd_follows {cycles : Int}
    (hdispatch : (dispatch op : M σ Int) = costed (execBcd f op) cycles) (hmode : field op 3 = 1)
    (hx : field op 9 ≠ 7) (hy : field op 0 ≠ 7) (hne : field op 9 ≠ field op 0) :
    FollowsLaw k op (decimalLaw f) .byte (field op 9) (some (field op 0)) := by
  intro s hexec hfits
  have hform : op.getLsbD 3 = true := by
    rw [memoryForm_eq, hmode]
    rfl
  have hsrc : Fits (fetched s) .byte _ := (hfits _ (.inr rfl)).of_memorySize rfl
  have hdest : Fits (fetched s) .byte _ := (hfits _ (.inl rfl)).of_memorySize rfl
  let read := ((fetched s).lowered (field op 0)).lowered (field op 9)
  let result := f (limbBelow .byte s (field op 0) 0) (limbBelow .byte s (field op 9) 0)
    (extendBit s.sr)
  -- both registers have stepped down when the result is written
  have hrx : read.aRegs (field op 9) = s.aRegs (field op 9) - M68kSize.byte.bytes :=
    lowered_lowered hne (.inl rfl)
  have hwrite := write8_hit (k := k) (s := { read with sr := flagsBcd result read.sr }) result.1
    (hdest.of_memorySize rfl).accessible
  have hrun : execBcd f op (ackHost k) (fetched s) =
      write8 (s.aRegs (field op 9) - M68kSize.byte.bytes) result.1 (ackHost k)
        { read with sr := flagsBcd result read.sr } := by
    unfold execBcd
    dsimp only
    rw [hform, bind_ok (bcdOperands_hit hx hy hne hsrc hdest)]
    simp only [getSr, getA, gets_bind, modifySr, modify_bind, if_true]
    show write8 (read.aRegs (field op 9)) result.1 (ackHost k) _ = _
    rw [hrx]
    rfl
  have hstep := hexec.step (hdispatch ▸ costed_ok (hrun.trans hwrite) cycles :) rfl hexec.even
  refine ⟨_, hstep, fun r hr => lowered_lowered hne hr, ?_, rfl, ?_⟩
  · have hbyte : (result.1.setWidth 32 : U32).setWidth 8 = result.1 := by
      rw [BitVec.setWidth_setWidth_of_le _ (by decide), BitVec.setWidth_eq]
    show storeByte s.memory _ result.1 = storeByte s.memory _ ((result.1.setWidth 32).setWidth 8)
    rw [hbyte]
  · show ccr (flagsBcd result s.sr) = _
    rw [ccr_flagsBcd]
    rfl

theorem loadSized_byte_lt (m : U32 → U8) (a : U32) : (loadSized .byte m a).toNat < 256 := by
  show ((m a).setWidth 32).toNat < 256
  rw [BitVec.toNat_setWidth_of_le (by decide)]
  exact (m a).isLt

theorem and_byte {v : U32} (h : v.toNat < 256) : v &&& 0xFF = v := by
  apply BitVec.eq_of_toNat_eq
  rw [byte_toNat, Nat.mod_eq_of_lt h]

/-- The operand `-(An)`. -/
theorem calcEa_predec_hit {size : M68kSize} {r : Fin 8}
    (h : Fits s size (s.aRegs r - stepSize r size)) :
    ∃ u, calcEa 4 r size (ackHost k) s =
        .ok { value := loadSized size s.memory (maskAddress24 (s.aRegs r - stepSize r size)),
              address := s.aRegs r - stepSize r size } u ∧
      Undisturbed s u ∧ u.memory = s.memory ∧
      u.aRegs = Function.update s.aRegs r (s.aRegs r - stepSize r size) := by
  let pre := if size = .long then eaCycles 4 r .word else eaCycles 4 r size
  let latched := { charged pre s with
    faultPc := s.pc + if size = M68kSize.long then 0 else 2, faultPcValid := true }
  let moved := { latched with aRegs := Function.update s.aRegs r (s.aRegs r - stepSize r size) }
  have hread := readSize_hit (k := k) (s := moved) (h.of_memorySize rfl).accessible
  have hresolve : calcEaEx 4 r size true (ackHost k) (charged pre s) =
      .ok { value := loadSized size s.memory (maskAddress24 (s.aRegs r - stepSize r size)),
            address := s.aRegs r - stepSize r size }
        (moved.noted (.access .read size (s.aRegs r - stepSize r size))) := by
    show (readSize (s.aRegs r - stepSize r size) size >>= fun v =>
      (pure { value := v, address := s.aRegs r - stepSize r size } : M σ Ea)) (ackHost k) moved = _
    exact (bind_ok hread).trans rfl
  refine ⟨charged (eaCycles 4 r size - pre)
    (moved.noted (.access .read size (s.aRegs r - stepSize r size))), ?_,
    ⟨rfl, rfl, rfl, rfl, rfl⟩, rfl, rfl⟩
  unfold calcEa
  rw [charge, modify_bind]
  exact (bind_ok hresolve).trans rfl

theorem execNbcd_follows (hop : op &&& 0xFFC0 = 0x4800) (hmode : field op 3 = 4)
    (hx : field op 0 ≠ 7) :
    FollowsLaw k op (decimalLaw fun _ dest x => nbcdResult dest x) .byte (field op 0) none := by
  intro s hexec hfits
  have hstep := stepSize_ordinary hx .byte
  have hdest : Fits (fetched s) .byte
      ((fetched s).aRegs (field op 0) - stepSize (field op 0) .byte) := by
    rw [hstep]
    exact (hfits _ (.inl rfl)).of_memorySize rfl
  obtain ⟨v, hread, hkept, hmemory, haddress⟩ := calcEa_predec_hit (k := k) hdest
  rw [hstep] at hread haddress hdest
  have hrx : v.aRegs (field op 0) = s.aRegs (field op 0) - M68kSize.byte.bytes := by
    rw [haddress]
    exact Function.update_self _ _ _
  let result := nbcdResult (limbBelow .byte s (field op 0) 0) (extendBit s.sr)
  have hwrite := write8_hit (k := k) (s := { v with sr := flagsBcd result v.sr }) result.1
    (hdest.of_memorySize hkept.memorySize).accessible
  have hrun : execNbcd op (ackHost k) (fetched s) =
      write8 (s.aRegs (field op 0) - M68kSize.byte.bytes) result.1 (ackHost k)
        { v with sr := flagsBcd result v.sr } := by
    have hlegal : notDataAlterable 4 (field op 0) = false := rfl
    unfold execNbcd
    dsimp only
    rw [hmode, hlegal, if_neg Bool.false_ne_true, bind_ok hread]
    simp only [getSr, gets_bind, modifySr, modify_bind, Ea.isData, Bool.false_and]
    rw [if_neg Bool.false_ne_true, hkept.sr, and_byte (loadSized_byte_lt _ _)]
    -- the handler masks a byte that is already one
    show write8 _ _ _ _ = write8 _ (nbcdResult (limbBelow .byte (fetched s) _ 0) _).1 _ _
    rw [limbBelow_zero]
    rfl
  have hthrown : v.exceptionThrown = 0 := hkept.thrown
  have hstep := hexec.step
    ((dispatch_nbcd hop).symm ▸ costed_ok (hrun.trans hwrite) _ :) hthrown
    (by
      show isOdd v.pc = false
      rw [hkept.pc]
      exact hexec.even)
  refine ⟨_, hstep, ?_, ?_, hkept.memorySize, ?_⟩
  · rintro r (rfl | hr)
    · exact hrx
    · cases hr
  · have hbyte : (result.1.setWidth 32 : U32).setWidth 8 = result.1 := by
      rw [BitVec.setWidth_setWidth_of_le _ (by decide), BitVec.setWidth_eq]
    show storeByte v.memory _ result.1 = storeByte s.memory _ ((result.1.setWidth 32).setWidth 8)
    rw [hbyte, hmemory]
    rfl
  · show ccr (flagsBcd result v.sr) = _
    rw [ccr_flagsBcd, hkept.sr]
    rfl

end Handlers

/-! ## The whole numbers -/

/-- The instructions. -/
inductive DecimalOp where
  | abcd
  | sbcd
  | nbcd
  deriving DecidableEq, Repr

namespace DecimalOp

/-- The exact result for a destination and a source. -/
def exact : DecimalOp → Int → Int → Int
  | abcd, d, s => d + s
  | sbcd, d, s => d - s
  | nbcd, d, _ => -d

/-- Result byte, carry and overflow. -/
def result : DecimalOp → U32 → U32 → U32 → U8 × Bool × Bool
  | abcd => abcdResult
  | sbcd => sbcdResult
  | nbcd => fun _ dest x => nbcdResult dest x

/-- The relation of operands, carries and result. -/
def relation : DecimalOp → Nat → Nat → Nat → Bool → Nat → Bool → Prop
  | abcd => Sums
  | sbcd => Differs
  | nbcd => fun m d _ => Differs m 0 d

theorem relation_chains (i : DecimalOp) : Chains i.relation := by
  cases i with
  | abcd => exact Sums.chains
  | sbcd => exact Differs.chains
  | nbcd =>
    refine ⟨Differs.nil, fun low high => ?_⟩
    have hwhole := Differs.append low high
    rw [Nat.zero_mul, Nat.add_zero] at hwhole
    exact hwhole

end DecimalOp

/-- The instruction is ABCD -(Ay),-(Ax), SBCD -(Ay),-(Ax) or NBCD -(Ax). -/
inductive DecimalForm : DecimalOp → U16 → Fin 8 → Option (Fin 8) → Prop
  | abcd {op : U16} (hline : lineOf op = 0xC) (hopmode : field op 6 = 4) (hmode : field op 3 = 1) :
      DecimalForm .abcd op (field op 9) (some (field op 0))
  | sbcd {op : U16} (hline : lineOf op = 8) (hopmode : field op 6 = 4) (hmode : field op 3 = 1) :
      DecimalForm .sbcd op (field op 9) (some (field op 0))
  | nbcd {op : U16} (hpattern : op &&& 0xFFC0 = 0x4800) (hmode : field op 3 = 4) :
      DecimalForm .nbcd op (field op 0) none

/-- The registers are distinct ones of A0 to A6. -/
structure Ordinary (rx : Fin 8) (ry : Option (Fin 8)) : Prop where
  notStack : ∀ r, Lowers rx ry r → r ≠ 7
  distinct : ∀ r, ry = some r → rx ≠ r

section Whole

variable {i : DecimalOp} {src : Option (Fin 8)}

theorem DecimalForm.follows (hop : DecimalForm i op rx src) (ho : Ordinary rx src) :
    FollowsLaw k op (decimalLaw i.result) .byte rx src := by
  cases hop with
  | abcd hline hopmode hmode =>
    exact execBcd_follows (dispatch_abcd hline hopmode (.inr hmode)) hmode
      (ho.notStack _ (.inl rfl)) (ho.notStack _ (.inr rfl)) (ho.distinct _ rfl)
  | sbcd hline hopmode hmode =>
    exact execBcd_follows (dispatch_sbcd hline hopmode (.inr hmode)) hmode
      (ho.notStack _ (.inl rfl)) (ho.notStack _ (.inr rfl)) (ho.distinct _ rfl)
  | nbcd hpattern hmode => exact execNbcd_follows hpattern hmode (ho.notStack _ (.inl rfl))

/-- One byte of digits. -/
theorem DecimalOp.result_packed (i : DecimalOp) {src dest : U32} (x : Bool) (hs : src.toNat < 256)
    (hd : dest.toNat < 256) (hsrc : Packed src.toNat) (hdest : Packed dest.toNat) :
    Packed (i.result src dest (if x then 1 else 0)).1.toNat ∧
      i.relation 100 (decimal dest.toNat) (decimal src.toNat) x
        (decimal (i.result src dest (if x then 1 else 0)).1.toNat)
        (i.result src dest (if x then 1 else 0)).2.1 := by
  cases i with
  | abcd => exact abcdResult_packed x hs hd hsrc hdest
  | sbcd => exact decimalSub_packed x hs hd hsrc hdest
  | nbcd =>
    exact decimalSub_packed x hd (by decide : (0 : U32).toNat < 256) hdest ⟨by decide, by decide⟩

/-- The digits from a place on are valid. -/
def Digits (m : U32 → U8) (p n : Nat) : Prop := ∀ i, p ≤ i → i < p + n → Packed (byteAt m i)

/-- The decimal number in `n` bytes. -/
def decimalAt (m : U32 → U8) (p n : Nat) : Nat := value 100 (fun i => decimal (byteAt m i)) p n

/-- The number below the source register, if there is one. -/
def sourceNumber (s : M68kCpu σ) (n : Nat) : Option (Fin 8) → Nat
  | none => 0
  | some r => decimalAt s.memory (start (s.aRegs r) n) n

/-- What the executions leave, for the exact result `e` of numbers of `2 * n` digits. -/
structure DecimalExact (e : Int) (n r : Nat) (after : Ccr) : Prop where
  value : (r : Int) = e % 10 ^ (2 * n)
  carry : after.c = true ↔ ¬(0 ≤ e ∧ e < 10 ^ (2 * n))
  extend : after.x = after.c
  zero : after.z = true ↔ r = 0

theorem numberAt_one (m : U32 → U8) (p : Nat) : numberAt m p 1 = byteAt m p := by
  simp [numberAt, value]

theorem decimal_eq_zero {b : Nat} : decimal b = 0 ↔ b = 0 := by
  rw [decimal]
  omega

/-- A number below a register, byte after byte. -/
theorem decimalAt_limbs (m : U32 → U8) (a : U32) (n : Nat) :
    decimalAt m (start a n) n =
      little 100 (fun j => decimal (byteAt m (limbPlace .byte a n (j + 1)))) n := by
  have h := value_limbs 100 (fun i => decimal (byteAt m i)) .byte a (Nat.le_refl n)
  rw [limbPlace_last] at h
  simpa [M68kSize.count, value, decimalAt] using h

/-- The byte of the walk at a place. -/
theorem laid_byte {n j : Nat} {r : Fin 8} (hl : Laid s .byte rx src n) (hr : Lowers rx src r)
    (hj : j < n) :
    (limbBelow .byte s r j).toNat = byteAt s.memory (limbPlace .byte (s.aRegs r) n (j + 1)) := by
  rw [hl.limbBelow hr hj]
  exact numberAt_one _ _

theorem walked_byte {law : LimbLaw} {n j : Nat} (hw : Walked law .byte rx src s n n t)
    (hj : j < n) :
    byteAt t.memory (limbPlace .byte (s.aRegs rx) n (j + 1)) =
      low .byte (limbResult law .byte rx src s j) := by
  rw [← hw.limbs j hj]
  exact (numberAt_one _ _).symm

theorem limbResult_decimal (f : U32 → U32 → U32 → U8 × Bool × Bool) (s : M68kCpu σ) (j : Nat) :
    low .byte (limbResult (decimalLaw f) .byte rx src s j) =
      (f (sourceBelow .byte s j src) (limbBelow .byte s rx j)
        (if (codesAfter (decimalLaw f) .byte rx src s j).x then 1 else 0)).1.toNat := by
  show (BitVec.setWidth 32 _).toNat % 2 ^ 8 = _
  rw [BitVec.toNat_setWidth_of_le (by decide), Nat.mod_eq_of_lt (BitVec.isLt _)]

/-- Each byte of the result is a digit of base 100, its carry the next one's. -/
theorem walked_digit {n j : Nat} (hw : Walked (decimalLaw i.result) .byte rx src s n n t)
    (hl : Laid s .byte rx src n)
    (hdigits : ∀ r, Lowers rx src r → Digits s.memory (start (s.aRegs r) n) n) (hj : j < n) :
    Packed (byteAt t.memory (limbPlace .byte (s.aRegs rx) n (j + 1))) ∧
      i.relation 100 (decimal (byteAt s.memory (limbPlace .byte (s.aRegs rx) n (j + 1))))
        (decimal (sourceBelow .byte s j src).toNat)
        (codesAfter (decimalLaw i.result) .byte rx src s j).x
        (decimal (byteAt t.memory (limbPlace .byte (s.aRegs rx) n (j + 1))))
        (codesAfter (decimalLaw i.result) .byte rx src s (j + 1)).x := by
  have hin (r : Fin 8) (hr : Lowers rx src r) : Packed (limbBelow .byte s r j).toNat := by
    have hplace := limbPlace_le .byte (s.aRegs r) hj
    have hcount : n * M68kSize.byte.count = n := Nat.mul_one n
    rw [hcount] at hplace
    rw [laid_byte hl hr hj]
    exact hdigits r hr _ hplace.1 hplace.2
  have hsource : (sourceBelow .byte s j src).toNat < 256 ∧
      Packed (sourceBelow .byte s j src).toNat := by
    cases hsrc : src with
    | none =>
      show (0 : U32).toNat < 256 ∧ Packed (0 : U32).toNat
      exact ⟨by decide, by decide, by decide⟩
    | some r => exact ⟨loadSized_byte_lt _ _, hin r (.inr hsrc)⟩
  have hbyte := i.result_packed (codesAfter (decimalLaw i.result) .byte rx src s j).x hsource.1
    (loadSized_byte_lt _ _ : (limbBelow .byte s rx j).toNat < 256) hsource.2 (hin rx (.inl rfl))
  rw [walked_byte hw hj, ← laid_byte hl (.inl rfl) hj, limbResult_decimal]
  exact hbyte

/-- Z survives while the bytes of the result are zero. -/
theorem walked_zero {n j : Nat} (hw : Walked (decimalLaw i.result) .byte rx src s n n t)
    (hj : j < n) :
    (codesAfter (decimalLaw i.result) .byte rx src s (j + 1)).z =
      (decide (decimal (byteAt t.memory (limbPlace .byte (s.aRegs rx) n (j + 1))) = 0) &&
        (codesAfter (decimalLaw i.result) .byte rx src s j).z) := by
  have hzero (v : U8) : (v == 0) = decide (v.toNat = 0) := by
    rw [Bool.eq_iff_iff, beq_iff_eq, decide_eq_true_eq]
    exact ⟨fun h => by rw [h]; rfl, fun h => BitVec.eq_of_toNat_eq h⟩
  rw [walked_byte hw hj, limbResult_decimal]
  show ((_ : U8) == 0 && _) = _
  rw [hzero]
  congr 1
  rw [decide_eq_decide]
  exact decimal_eq_zero.symm

/-- The source of the walk as one number. -/
theorem sourceNumber_limbs {n : Nat} (hl : Laid s .byte rx src n) :
    sourceNumber s n src = little 100 (fun j => decimal (sourceBelow .byte s j src).toNat) n := by
  cases hsrc : src with
  | none =>
    show 0 = _
    clear hl hsrc
    induction n with
    | zero => rfl
    | succ n ih =>
      rw [little, ← ih]
      show 0 = decimal 0 * 100 ^ n + 0
      rw [decimal]
      simp
  | some r =>
    show decimalAt _ _ _ = _
    rw [decimalAt_limbs]
    apply little_congr
    intro j hj
    rw [← laid_byte hl (.inr hsrc) hj]
    rfl

/-- The relation, as an exact result. -/
theorem DecimalOp.exact_of_relation {n d e r : Nat} {after : Ccr}
    (h : i.relation (100 ^ n) d e false r after.x) (hcarry : after.c = after.x)
    (hzero : after.z = decide (r = 0)) : DecimalExact (i.exact d e) n r after := by
  have hten : (10 : Int) ^ (2 * n) = (100 ^ n : Nat) := by
    rw [pow_mul]
    norm_cast
  have hz : after.z = true ↔ r = 0 := by rw [hzero, decide_eq_true_eq]
  cases i with
  | abcd =>
    have hvalue := Sums.mod_eq h
    refine ⟨?_, ?_, hcarry.symm, hz⟩
    · rw [hten, hvalue, Bool.toNat_false, Nat.add_zero]
      exact_mod_cast rfl
    · rw [hten, hcarry, Sums.carry_iff h, Bool.toNat_false]
      show _ ↔ ¬(0 ≤ (d : Int) + e ∧ (d : Int) + e < _)
      omega
  | sbcd =>
    have hvalue := Differs.mod_eq h
    have hdest := Differs.dest h
    refine ⟨?_, ?_, hcarry.symm, hz⟩
    · rw [hten, hvalue, Bool.toNat_false, Nat.cast_zero, Int.sub_zero]
      rfl
    · rw [hten, hcarry, Differs.borrow_iff h, Bool.toNat_false]
      show _ ↔ ¬(0 ≤ (d : Int) - e ∧ (d : Int) - e < _)
      omega
  | nbcd =>
    have hvalue := Differs.mod_eq h
    have hdest := Differs.src h
    refine ⟨?_, ?_, hcarry.symm, hz⟩
    · rw [hten, hvalue, Bool.toNat_false, Nat.cast_zero, Int.sub_zero, Int.zero_sub]
      rfl
    · rw [hten, hcarry, Differs.borrow_iff h, Bool.toNat_false]
      show _ ↔ ¬(0 ≤ -(d : Int) ∧ -(d : Int) < _)
      omega

/-- **Decimal arithmetic on numbers of any length.** As many executions as the numbers have
bytes, begun with X clear and Z set, leave the valid digits of the decimal result, C and X
when it does not fit, and Z when it is zero. -/
theorem decimal_exact {n : Nat} (hop : DecimalForm i op rx src) (ho : Ordinary rx src) (hn : 1 ≤ n)
    (hl : Laid s .byte rx src n)
    (hdigits : ∀ r, Lowers rx src r → Digits s.memory (start (s.aRegs r) n) n)
    (hextend : (ccr s.sr).x = false) (hzero : (ccr s.sr).z = true)
    (hrun : Executions k op rx src s n t) :
    Digits t.memory (start (s.aRegs rx) n) n ∧
      DecimalExact (i.exact (decimalAt s.memory (start (s.aRegs rx) n) n) (sourceNumber s n src)) n
        (decimalAt t.memory (start (s.aRegs rx) n) n) (ccr t.sr) := by
  have hw := hrun.walked hl (hop.follows ho) (Nat.le_refl n)
  have hchain := i.relation_chains.run fun j hj => (walked_digit hw hl hdigits hj).2
  rw [← decimalAt_limbs, ← decimalAt_limbs, ← sourceNumber_limbs hl, ← hw.codes] at hchain
  have hsticky := little_sticky
    (z := fun j => (codesAfter (decimalLaw i.result) .byte rx src s j).z)
    (by decide : 0 < 100) fun j hj => walked_zero hw hj
  rw [← decimalAt_limbs, ← hw.codes] at hsticky
  refine ⟨?_, ?_⟩
  · intro q hq hlt
    have hplace : q = limbPlace .byte (s.aRegs rx) n (start (s.aRegs rx) n + n - 1 - q + 1) := by
      simp only [limbPlace, M68kSize.count, Nat.mul_one]
      omega
    rw [hplace]
    exact (walked_digit hw hl hdigits (by omega)).1
  · have hcarry : (ccr t.sr).c = (ccr t.sr).x := by
      obtain ⟨m, rfl⟩ : ∃ m, n = m + 1 := ⟨n - 1, by omega⟩
      rw [hw.codes]
      rfl
    have hstart : (codesAfter (decimalLaw i.result) .byte rx src s 0) = ccr s.sr := rfl
    rw [hstart, hextend] at hchain
    rw [hstart, hzero, Bool.and_true] at hsticky
    exact i.exact_of_relation hchain hcarry hsticky

/-- ABCD -(A1),-(A0), twice, on 199 and 1. -/
def decimalProgram : M68kCpu Unit :=
  { init (fun a => if a = 0x100 ∨ a = 0x102 then 0xC1 else if a = 0x101 ∨ a = 0x103 then 0x09 else
      if a = 0x1000 ∨ a = 0x2001 then 1 else if a = 0x1001 then 0x99 else 0) 0x3000 () with
    sr := 0x2704
    aRegs := fun r => if r = 0 then 0x1002 else 0x2002
    pc := 0x100 }

theorem decimalProgram_executions : ∃ t, Executions none 0xC109 0 (some 1) decimalProgram 2 t :=
  Executions.two ⟨rfl, rfl, rfl, rfl, rfl, rfl⟩ (by decide +kernel) (by decide +kernel)

theorem decimalProgram_laid : Laid decimalProgram .byte 0 (some 1) 2 := by
  refine ⟨?_, ?_, fun _ _ => .inl rfl⟩
  · rintro r (rfl | hr)
    · exact ⟨by decide, by decide⟩
    · cases hr
      exact ⟨by decide, by decide⟩
  · rintro r hr
    cases hr
    decide

theorem decimalProgram_digits (r : Fin 8) (hr : Lowers 0 (some 1) r) :
    Digits decimalProgram.memory (start (decimalProgram.aRegs r) 2) 2 := by
  have hall : ∀ p ∈ [0x1000, 0x1001, 0x2000, 0x2001],
      Packed (byteAt decimalProgram.memory p) := by decide
  have hplace : start (decimalProgram.aRegs 0) 2 = 0x1000 := by decide
  have hplace' : start (decimalProgram.aRegs 1) 2 = 0x2000 := by decide
  intro p hp hlt
  apply hall
  rcases hr with rfl | hr
  · rw [hplace] at hp hlt
    simp only [List.mem_cons]
    omega
  · cases hr
    rw [hplace'] at hp hlt
    simp only [List.mem_cons]
    omega

theorem decimal_exact_abcd : ∃ t, Executions none 0xC109 0 (some 1) decimalProgram 2 t ∧
    DecimalExact
      (decimalAt decimalProgram.memory 0x1000 2 + decimalAt decimalProgram.memory 0x2000 2) 2
      (decimalAt t.memory 0x1000 2) (ccr t.sr) := by
  obtain ⟨t, hrun⟩ := decimalProgram_executions
  have hform : DecimalForm .abcd 0xC109 0 (some 1) := .abcd rfl rfl rfl
  have hordinary : Ordinary 0 (some 1) := by
    refine ⟨?_, ?_⟩
    · rintro r (rfl | hr)
      · decide
      · cases hr
        decide
    · rintro r hr
      cases hr
      decide
  have hplace : start (decimalProgram.aRegs 0) 2 = 0x1000 := by decide
  have hplace' : start (decimalProgram.aRegs 1) 2 = 0x2000 := by decide
  have hexact := (decimal_exact hform hordinary (by decide) decimalProgram_laid
    decimalProgram_digits rfl rfl hrun).2
  rw [sourceNumber, hplace, hplace'] at hexact
  exact ⟨t, hrun, hexact⟩

end Whole

end M68k
