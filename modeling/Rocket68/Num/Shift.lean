import Rocket68.Num.Carry
import Mathlib.Logic.Function.Iterate
import Mathlib.Tactic.Ring

/-!
# Shifts and rotates, one bit at a time

A word has `w` bits and is a number below `2 ^ w`. Each operation moves one bit; the
closed form of a repeated operation, and the bit that leaves in its last step, are
derived here by induction on the count.
-/

namespace Num

variable {w v : Nat}

/-! ## One bit -/

def shiftLeft (w v : Nat) : Nat := 2 * v % 2 ^ w

def shiftRight (v : Nat) : Nat := v / 2

/-- The sign is copied. -/
def shiftSigned (h v : Nat) : Nat := v / 2 + h * (negative h v).toNat

/-- The top bit comes back below. -/
def rotateLeft (w v : Nat) : Nat := 2 * v % 2 ^ w + (negative (2 ^ (w - 1)) v).toNat

/-- The bottom bit comes back on top. -/
def rotateRight (w v : Nat) : Nat := v / 2 + v % 2 * 2 ^ (w - 1)

/-! ## Closed forms -/

/-- Rotation left by `k` places. -/
def rotatedLeft (w v k : Nat) : Nat := v % 2 ^ (w - k) * 2 ^ k + v / 2 ^ (w - k)

/-- Rotation right by `k` places. -/
def rotatedRight (w v k : Nat) : Nat := v / 2 ^ k + v % 2 ^ k * 2 ^ (w - k)

theorem two_pow_pred (hw : 0 < w) : 2 ^ w = 2 * 2 ^ (w - 1) := by
  rw [← pow_succ', Nat.sub_add_cancel hw]

theorem shiftLeft_iterate (w v n : Nat) (hv : v < 2 ^ w) :
    (shiftLeft w)^[n] v = v * 2 ^ n % 2 ^ w := by
  induction n with
  | zero => simp [Nat.mod_eq_of_lt hv]
  | succ n ih =>
    rw [Function.iterate_succ_apply', ih, shiftLeft, Nat.mul_mod_mod, pow_succ]
    congr 1
    ring

theorem shiftRight_iterate (v n : Nat) : shiftRight^[n] v = v / 2 ^ n := by
  induction n with
  | zero => simp
  | succ n ih =>
    rw [Function.iterate_succ_apply', ih, shiftRight, Nat.div_div_eq_div_mul, pow_succ]

/-! ### Signed -/

theorem shiftSigned_lt {h : Nat} (hv : v < 2 * h) : shiftSigned h v < 2 * h := by
  unfold shiftSigned negative
  by_cases hneg : h ≤ v
  · simp only [hneg, decide_true, Bool.toNat_true]
    omega
  · simp only [hneg, decide_false, Bool.toNat_false]
    omega

theorem negative_shiftSigned {h : Nat} (hv : v < 2 * h) :
    negative h (shiftSigned h v) = negative h v := by
  unfold shiftSigned negative
  by_cases hneg : h ≤ v
  · simp only [hneg, decide_true, Bool.toNat_true, decide_eq_true_eq]
    omega
  · simp only [hneg, decide_false, Bool.toNat_false, decide_eq_false_iff_not]
    omega

/-- One step halves the signed value, rounding down. -/
theorem signed_shiftSigned {h : Nat} (hv : v < 2 * h) :
    signed h (shiftSigned h v) = signed h v / 2 := by
  have hkeep := negative_shiftSigned hv
  cases hneg : negative h v with
  | false =>
    rw [hneg] at hkeep
    rw [signed_of_nonnegative hkeep, signed_of_nonnegative hneg, shiftSigned, hneg]
    simp
  | true =>
    rw [hneg] at hkeep
    rw [signed_of_negative hkeep, signed_of_negative hneg, shiftSigned, hneg]
    simp only [Bool.toNat_true]
    omega

theorem shiftSigned_iterate {h : Nat} (hv : v < 2 * h) (n : Nat) :
    (shiftSigned h)^[n] v < 2 * h ∧ signed h ((shiftSigned h)^[n] v) = signed h v / 2 ^ n := by
  induction n with
  | zero => simpa using hv
  | succ n ih =>
    rw [Function.iterate_succ_apply']
    refine ⟨shiftSigned_lt ih.1, ?_⟩
    rw [signed_shiftSigned ih.1, ih.2, Int.ediv_ediv_of_nonneg (by positivity), pow_succ]

/-! ### Rotation -/

/-- One more place to the left, and the bit that goes round. -/
theorem rotateLeft_rotatedLeft (hv : v < 2 ^ w) {k : Nat} (hk : k < w) :
    negative (2 ^ (w - 1)) (rotatedLeft w v k) = v.testBit (w - 1 - k) ∧
      rotateLeft w (rotatedLeft w v k) = rotatedLeft w v (k + 1) := by
  obtain ⟨j, rfl⟩ : ∃ j, w = k + j + 1 := ⟨w - k - 1, by omega⟩
  have hidx : k + j + 1 - 1 - k = j := by omega
  have hhigh : k + j + 1 - k = j + 1 := by omega
  have hlow : k + j + 1 - (k + 1) = j := by omega
  have hpred : k + j + 1 - 1 = k + j := by omega
  -- `v` is `a`, a bit `b` and `c`, from the top.
  have hb : v.testBit j = decide (v / 2 ^ j % 2 = 1) := Nat.testBit_eq_decide_div_mod_eq
  have hdiv : v / 2 ^ (j + 1) = v / 2 ^ j / 2 := by
    rw [Nat.div_div_eq_div_mul, pow_succ]
  have hmod : v % 2 ^ (j + 1) = v / 2 ^ j % 2 * 2 ^ j + v % 2 ^ j := by
    rw [pow_succ, Nat.mod_mul, Nat.add_comm, Nat.mul_comm]
  have ha : v / 2 ^ (j + 1) < 2 ^ k := by
    rw [Nat.div_lt_iff_lt_mul (Nat.two_pow_pos _), ← pow_add]
    exact lt_of_lt_of_eq hv (by congr 1)
  have hc : v % 2 ^ j < 2 ^ j := Nat.mod_lt _ (Nat.two_pow_pos _)
  have hrest : v % 2 ^ j * 2 ^ k + v / 2 ^ (j + 1) < 2 ^ (k + j) := by
    calc v % 2 ^ j * 2 ^ k + v / 2 ^ (j + 1) < v % 2 ^ j * 2 ^ k + 2 ^ k := by omega
      _ = (v % 2 ^ j + 1) * 2 ^ k := by ring
      _ ≤ 2 ^ j * 2 ^ k := Nat.mul_le_mul_right _ hc
      _ = 2 ^ (k + j) := by rw [pow_add, Nat.mul_comm]
  have hsplit : rotatedLeft (k + j + 1) v k =
      v / 2 ^ j % 2 * 2 ^ (k + j) + (v % 2 ^ j * 2 ^ k + v / 2 ^ (j + 1)) := by
    rw [rotatedLeft, hhigh, hmod, pow_add]
    ring
  have hnext : rotatedLeft (k + j + 1) v (k + 1) =
      2 * (v % 2 ^ j * 2 ^ k + v / 2 ^ (j + 1)) + v / 2 ^ j % 2 := by
    rw [rotatedLeft, hlow, hdiv, pow_succ]
    have := Nat.div_add_mod (v / 2 ^ j) 2
    nlinarith
  rw [hnext, hsplit, rotateLeft, hidx, hb, hpred]
  generalize v % 2 ^ j * 2 ^ k + v / 2 ^ (j + 1) = rest at hrest
  have hpow : 2 ^ (k + j + 1) = 2 * 2 ^ (k + j) := pow_succ' 2 (k + j)
  rw [hpow]
  generalize 2 ^ (k + j) = h at hrest
  rcases Nat.mod_two_eq_zero_or_one (v / 2 ^ j) with hbit | hbit
  · rw [hbit]
    have hneg : negative h (0 * h + rest) = false := by
      rw [negative, decide_eq_false_iff_not]
      omega
    rw [hneg]
    refine ⟨by simp, ?_⟩
    rw [Nat.mod_eq_of_lt (by omega)]
    simp
  · rw [hbit]
    have hneg : negative h (1 * h + rest) = true := by
      rw [negative, decide_eq_true_eq]
      omega
    rw [hneg]
    refine ⟨by simp, ?_⟩
    have htwice : 2 * (1 * h + rest) = 2 * rest + 2 * h := by ring
    rw [htwice, Nat.add_mod_right, Nat.mod_eq_of_lt (by omega)]
    rfl

/-- One more place to the right, and the bit that goes round. -/
theorem rotateRight_rotatedRight {k : Nat} (hk : k < w) :
    rotatedRight w v k % 2 = v / 2 ^ k % 2 ∧
      rotateRight w (rotatedRight w v k) = rotatedRight w v (k + 1) := by
  obtain ⟨j, rfl⟩ : ∃ j, w = k + j + 1 := ⟨w - k - 1, by omega⟩
  have hhigh : k + j + 1 - k = j + 1 := by omega
  have hlow : k + j + 1 - (k + 1) = j := by omega
  have hpred : k + j + 1 - 1 = k + j := by omega
  have hdiv : v / 2 ^ (k + 1) = v / 2 ^ k / 2 := by
    rw [Nat.div_div_eq_div_mul, pow_succ]
  have hmod : v % 2 ^ (k + 1) = v / 2 ^ k % 2 * 2 ^ k + v % 2 ^ k := by
    rw [pow_succ, Nat.mod_mul, Nat.add_comm, Nat.mul_comm]
  have hsplit : rotatedRight (k + j + 1) v k = v / 2 ^ k + 2 * (v % 2 ^ k * 2 ^ j) := by
    rw [rotatedRight, hhigh, pow_succ]
    ring
  have hnext : rotatedRight (k + j + 1) v (k + 1) =
      v / 2 ^ k / 2 + v % 2 ^ k * 2 ^ j + v / 2 ^ k % 2 * 2 ^ (k + j) := by
    rw [rotatedRight, hlow, hdiv, hmod, pow_add]
    ring
  rw [hnext, rotateRight, hsplit, hpred]
  generalize v % 2 ^ k * 2 ^ j = rest
  constructor
  · omega
  · have hhalf : (v / 2 ^ k + 2 * rest) / 2 = v / 2 ^ k / 2 + rest := by omega
    have hbit : (v / 2 ^ k + 2 * rest) % 2 = v / 2 ^ k % 2 := by omega
    rw [hhalf, hbit]

/-- A full turn. -/
theorem rotatedLeft_full (w v : Nat) : rotatedLeft w v w = v := by
  simp [rotatedLeft, Nat.mod_one]

theorem rotatedRight_full (hv : v < 2 ^ w) : rotatedRight w v w = v := by
  simp [rotatedRight, Nat.div_eq_of_lt hv, Nat.mod_eq_of_lt hv]

theorem rotatedLeft_zero (hv : v < 2 ^ w) : rotatedLeft w v 0 = v := by
  simp [rotatedLeft, Nat.div_eq_of_lt hv, Nat.mod_eq_of_lt hv]

theorem rotatedRight_zero (w v : Nat) : rotatedRight w v 0 = v := by
  simp [rotatedRight, Nat.mod_one]

theorem rotateLeft_iterate (hv : v < 2 ^ w) (hw : 0 < w) (n : Nat) :
    (rotateLeft w)^[n] v = rotatedLeft w v (n % w) := by
  induction n with
  | zero => rw [Nat.zero_mod, rotatedLeft_zero hv]; rfl
  | succ n ih =>
    rw [Function.iterate_succ_apply', ih, (rotateLeft_rotatedLeft hv (Nat.mod_lt n hw)).2]
    by_cases hturn : n % w + 1 = w
    · -- The count comes round to a full turn.
      have hzero : (n + 1) % w = 0 := by
        rw [← Nat.mod_add_mod, hturn, Nat.mod_self]
      rw [hturn, hzero, rotatedLeft_full, rotatedLeft_zero hv]
    · have hlt := Nat.mod_lt n hw
      have hnext : (n + 1) % w = n % w + 1 := by
        rw [← Nat.mod_add_mod, Nat.mod_eq_of_lt (by omega)]
      rw [hnext]

theorem rotateRight_iterate (hv : v < 2 ^ w) (hw : 0 < w) (n : Nat) :
    (rotateRight w)^[n] v = rotatedRight w v (n % w) := by
  induction n with
  | zero => rw [Nat.zero_mod, rotatedRight_zero]; rfl
  | succ n ih =>
    rw [Function.iterate_succ_apply', ih, (rotateRight_rotatedRight (Nat.mod_lt n hw)).2]
    by_cases hturn : n % w + 1 = w
    · have hzero : (n + 1) % w = 0 := by
        rw [← Nat.mod_add_mod, hturn, Nat.mod_self]
      rw [hturn, hzero, rotatedRight_full hv, rotatedRight_zero]
    · have hlt := Nat.mod_lt n hw
      have hnext : (n + 1) % w = n % w + 1 := by
        rw [← Nat.mod_add_mod, Nat.mod_eq_of_lt (by omega)]
      rw [hnext]

/-! ## The bit that leaves last -/

/-- The sign of a word is its top bit. -/
theorem negative_testBit (hv : v < 2 ^ w) (hw : 0 < w) :
    negative (2 ^ (w - 1)) v = v.testBit (w - 1) := by
  have hpow := two_pow_pred hw
  rw [negative, Nat.testBit_eq_decide_div_mod_eq, decide_eq_decide]
  have hdiv : v / 2 ^ (w - 1) < 2 := by
    rw [Nat.div_lt_iff_lt_mul (Nat.two_pow_pos _), ← hpow]
    exact hv
  have hle : 1 ≤ v / 2 ^ (w - 1) ↔ 2 ^ (w - 1) ≤ v := by
    rw [Nat.le_div_iff_mul_le (Nat.two_pow_pos _), Nat.one_mul]
  rw [← hle]
  generalize v / 2 ^ (w - 1) = q at hdiv
  omega

theorem shiftLeft_out (hv : v < 2 ^ w) (hw : 0 < w) (n : Nat) :
    negative (2 ^ (w - 1)) ((shiftLeft w)^[n] v) = (decide (n < w) && v.testBit (w - 1 - n)) := by
  have hlt : (shiftLeft w)^[n] v < 2 ^ w := by
    rw [shiftLeft_iterate _ _ _ hv]
    exact Nat.mod_lt _ (Nat.two_pow_pos _)
  rw [negative_testBit hlt hw, shiftLeft_iterate _ _ _ hv, Nat.testBit_mod_two_pow,
    ← Nat.shiftLeft_eq, Nat.testBit_shiftLeft]
  have hle : (n ≤ w - 1) = (n < w) := propext (by omega)
  simp [hle, show w - 1 < w by omega]

theorem shiftRight_out (v n : Nat) : decide (shiftRight^[n] v % 2 = 1) = v.testBit n := by
  rw [shiftRight_iterate, Nat.testBit_eq_decide_div_mod_eq]

theorem rotateLeft_out (hv : v < 2 ^ w) (hw : 0 < w) (n : Nat) :
    negative (2 ^ (w - 1)) ((rotateLeft w)^[n] v) = v.testBit (w - 1 - n % w) := by
  rw [rotateLeft_iterate hv hw]
  exact (rotateLeft_rotatedLeft hv (Nat.mod_lt n hw)).1

theorem rotateRight_out (hv : v < 2 ^ w) (hw : 0 < w) (n : Nat) :
    decide ((rotateRight w)^[n] v % 2 = 1) = v.testBit (n % w) := by
  rw [rotateRight_iterate hv hw, (rotateRight_rotatedRight (Nat.mod_lt n hw)).1,
    Nat.testBit_eq_decide_div_mod_eq]

/-- The bits of a signed shift, the sign repeated. -/
theorem shiftSigned_testBit (hv : v < 2 ^ w) (hw : 0 < w) {i : Nat} (hi : i < w) :
    (shiftSigned (2 ^ (w - 1)) v).testBit i = v.testBit (min (i + 1) (w - 1)) := by
  have hpow := two_pow_pred hw
  have hhalf : v / 2 < 2 ^ (w - 1) := by omega
  have hdiv : (v / 2).testBit i = v.testBit (i + 1) := (Nat.testBit_succ v i).symm
  rw [shiftSigned, negative_testBit hv hw]
  by_cases htop : i = w - 1
  · subst htop
    have hmin : min (w - 1 + 1) (w - 1) = w - 1 := by omega
    rw [hmin]
    cases v.testBit (w - 1) with
    | false =>
      rw [Bool.toNat_false, Nat.mul_zero, Nat.add_zero]
      exact Nat.testBit_lt_two_pow hhalf
    | true =>
      rw [Bool.toNat_true, Nat.mul_one, Nat.add_comm, Nat.testBit_two_pow_add_eq,
        Nat.testBit_lt_two_pow hhalf]
      rfl
  · have hmin : min (i + 1) (w - 1) = i + 1 := by omega
    rw [hmin]
    cases v.testBit (w - 1) with
    | false => rw [Bool.toNat_false, Nat.mul_zero, Nat.add_zero, hdiv]
    | true =>
      rw [Bool.toNat_true, Nat.mul_one, Nat.add_comm, Nat.testBit_two_pow_add_gt (by omega), hdiv]

theorem shiftSigned_out (hv : v < 2 ^ w) (hw : 0 < w) (n : Nat) :
    decide ((shiftSigned (2 ^ (w - 1)))^[n] v % 2 = 1) = v.testBit (min n (w - 1)) := by
  have hpow := two_pow_pred hw
  have hbits : ∀ i < w, ((shiftSigned (2 ^ (w - 1)))^[n] v).testBit i =
      v.testBit (min (i + n) (w - 1)) := by
    induction n with
    | zero =>
      intro i hi
      rw [Function.iterate_zero_apply]
      congr 1
      omega
    | succ n ih =>
      intro i hi
      have hlt := (shiftSigned_iterate (h := 2 ^ (w - 1)) (v := v) (by omega) n).1
      rw [Function.iterate_succ_apply', shiftSigned_testBit (by omega) hw hi, ih _ (by omega)]
      congr 1
      omega
  have hzero := hbits 0 hw
  rw [Nat.testBit_zero, Nat.zero_add] at hzero
  exact hzero

/-! ## Overflow of a shift to the left -/

/-- The sign changes in one of the first `n` steps. -/
def signChanges (w v : Nat) : Nat → Bool
  | 0 => false
  | n + 1 => signChanges w v n ||
      (negative (2 ^ (w - 1)) ((shiftLeft w)^[n] v) !=
        negative (2 ^ (w - 1)) ((shiftLeft w)^[n + 1] v))

/-- One step doubles the signed value when that fits, and changes the sign when not. -/
theorem shiftLeft_signed (hw : 0 < w) (hv : v < 2 ^ w) :
    ((negative (2 ^ (w - 1)) v != negative (2 ^ (w - 1)) (shiftLeft w v)) = true ↔
      ¬(-(2 ^ (w - 1) : Nat) ≤ 2 * signed (2 ^ (w - 1)) v ∧
        2 * signed (2 ^ (w - 1)) v < (2 ^ (w - 1) : Nat))) ∧
    (-(2 ^ (w - 1) : Nat) ≤ 2 * signed (2 ^ (w - 1)) v ∧
        2 * signed (2 ^ (w - 1)) v < (2 ^ (w - 1) : Nat) →
      signed (2 ^ (w - 1)) (shiftLeft w v) = 2 * signed (2 ^ (w - 1)) v) := by
  have hpow := two_pow_pred hw
  rw [shiftLeft, hpow]
  rw [hpow] at hv
  generalize 2 ^ (w - 1) = h at hv
  have hlt : 2 * v % (2 * h) < 2 * h := Nat.mod_lt _ (by omega)
  have hrange : 2 * v % (2 * h) = 2 * v ∨ 2 * v % (2 * h) + 2 * h = 2 * v := by
    by_cases hsmall : 2 * v < 2 * h
    · exact .inl (Nat.mod_eq_of_lt hsmall)
    · right
      rw [Nat.mod_eq_sub_mod (by omega), Nat.mod_eq_of_lt (by omega)]
      omega
  generalize 2 * v % (2 * h) = next at hlt hrange
  have htrue (u : Nat) : negative h u = true ↔ h ≤ u := decide_eq_true_iff
  have hfalse (u : Nat) : negative h u = false ↔ u < h := by
    rw [negative, decide_eq_false_iff_not]
    omega
  cases hv' : negative h v <;> cases hn : negative h next
  case false.false =>
    rw [hfalse] at hv' hn
    rw [signed_of_nonnegative ((hfalse v).mpr hv'), signed_of_nonnegative ((hfalse next).mpr hn)]
    simp
    omega
  case false.true =>
    rw [hfalse] at hv'
    rw [htrue] at hn
    rw [signed_of_nonnegative ((hfalse v).mpr hv'), signed_of_negative ((htrue next).mpr hn)]
    simp
    omega
  case true.false =>
    rw [htrue] at hv'
    rw [hfalse] at hn
    rw [signed_of_negative ((htrue v).mpr hv'), signed_of_nonnegative ((hfalse next).mpr hn)]
    simp
    omega
  case true.true =>
    rw [htrue] at hv' hn
    rw [signed_of_negative ((htrue v).mpr hv'), signed_of_negative ((htrue next).mpr hn)]
    simp
    omega

/-- The sign changes on the way exactly when the product does not fit. -/
theorem signChanges_iff (hw : 0 < w) (hv : v < 2 ^ w) (n : Nat) :
    (signChanges w v n = true ↔
      ¬(-(2 ^ (w - 1) : Nat) ≤ signed (2 ^ (w - 1)) v * 2 ^ n ∧
        signed (2 ^ (w - 1)) v * 2 ^ n < (2 ^ (w - 1) : Nat))) ∧
    (signChanges w v n = false →
      signed (2 ^ (w - 1)) ((shiftLeft w)^[n] v) = signed (2 ^ (w - 1)) v * 2 ^ n) := by
  have hpow := two_pow_pred hw
  have hpos := Nat.two_pow_pos (w - 1)
  induction n with
  | zero =>
    have hsigned : -(2 ^ (w - 1) : Nat) ≤ signed (2 ^ (w - 1)) v ∧
        signed (2 ^ (w - 1)) v < (2 ^ (w - 1) : Nat) := by
      unfold signed
      split <;> omega
    simp only [signChanges, Bool.false_eq_true, pow_zero, mul_one, false_iff, not_not,
      Function.iterate_zero_apply]
    exact ⟨hsigned, fun _ => trivial⟩
  | succ n ih =>
    have hlt : (shiftLeft w)^[n] v < 2 ^ w := by
      rw [shiftLeft_iterate _ _ _ hv]
      exact Nat.mod_lt _ (Nat.two_pow_pos _)
    have hstep := shiftLeft_signed hw hlt
    have hdouble : signed (2 ^ (w - 1)) v * 2 ^ (n + 1) = 2 * (signed (2 ^ (w - 1)) v * 2 ^ n) := by
      rw [pow_succ]
      ring
    rw [signChanges, Function.iterate_succ_apply', hdouble]
    cases hchanged : signChanges w v n with
    | true =>
      have hlarge := ih.1.mp hchanged
      simp only [Bool.true_or, true_iff, Bool.true_eq_false, false_implies, and_true]
      omega
    | false =>
      rw [ih.2 hchanged] at hstep
      rw [Bool.false_or]
      refine ⟨hstep.1, fun hsame => hstep.2 ?_⟩
      rw [← not_not (a := _ ∧ _), ← hstep.1, hsame]
      exact Bool.false_ne_true

end Num
