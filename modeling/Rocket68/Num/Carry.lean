import Mathlib.Tactic.Linarith
import Mathlib.Tactic.Ring
import Rocket68.Num.Positional

/-!
# Words, carries and signs

A word has `2 * h` values, those from `h` on negative in two's complement. `Adds` and
`Subtracts` say what a word adder and subtractor leave: a word and a carry, the two
together exact. How carry and signed overflow show in the three sign bits is derived
once, for words of any width; and an adder over the carry of another is an adder of the
long words the two halves make up, so that the same facts hold of numbers of any number
of limbs.
-/

namespace Num

/-- A word read in two's complement. -/
def signed (h v : Nat) : Int := if v < h then v else v - 2 * h

/-- `r` and the carry `c` are the sum of `d`, `s` and the carry in. -/
structure Adds (h d s : Nat) (x : Bool) (r : Nat) (c : Bool) : Prop where
  dest : d < 2 * h
  src : s < 2 * h
  result : r < 2 * h
  exact : r + 2 * h * c.toNat = d + s + x.toNat

/-- `r` and the borrow `c` are the difference of `d` and `s` and the borrow in. -/
structure Subtracts (h d s : Nat) (x : Bool) (r : Nat) (c : Bool) : Prop where
  dest : d < 2 * h
  src : s < 2 * h
  result : r < 2 * h
  exact : r + s + x.toNat = d + 2 * h * c.toNat

variable {h d s r h' d' s' r' : Nat} {x c c' : Bool}

/-- The sign bit of a word. -/
def negative (h v : Nat) : Bool := decide (h ≤ v)

theorem signed_of_nonnegative {v : Nat} (hv : negative h v = false) : signed h v = v := by
  rw [negative, decide_eq_false_iff_not] at hv
  exact if_pos (by omega)

theorem signed_of_negative {v : Nat} (hv : negative h v = true) :
    signed h v = v - 2 * h := by
  rw [negative, decide_eq_true_eq] at hv
  exact if_neg (by omega)

/-! ## Sums -/

namespace Adds

theorem carry_iff (H : Adds h d s x r c) : c = true ↔ 2 * h ≤ d + s + x.toNat := by
  have hexact := H.exact
  have hresult := H.result
  cases c <;> simp only [Bool.toNat_false, Bool.toNat_true] at hexact <;> simp <;> omega

theorem mod_eq (H : Adds h d s x r c) : r = (d + s + x.toNat) % (2 * h) := by
  rw [← H.exact, Nat.add_mul_mod_self_left, Nat.mod_eq_of_lt H.result]

/-- The carry out, from the sign bits. -/
theorem carry_eq (H : Adds h d s x r c) :
    c = ((negative h s && negative h d) || (!negative h r && negative h d) ||
      (negative h s && !negative h r)) := by
  obtain ⟨hd, hs, hr, hexact⟩ := H
  rw [Bool.eq_iff_iff]
  simp only [negative, Bool.or_eq_true, Bool.and_eq_true, Bool.not_eq_true', decide_eq_true_eq,
    decide_eq_false_iff_not]
  cases c <;> cases x <;>
    simp only [Bool.toNat_false, Bool.toNat_true, Bool.false_eq_true, false_iff, true_iff]
      at hexact ⊢ <;> omega

/-- Signed overflow, from the sign bits. -/
theorem overflow_iff (H : Adds h d s x r c) :
    ((negative h s && negative h d && !negative h r) ||
      (!negative h s && !negative h d && negative h r)) = true ↔
      ¬(-(h : Int) ≤ signed h d + signed h s + x.toNat ∧
        signed h d + signed h s + x.toNat < h) := by
  obtain ⟨hd, hs, hr, hexact⟩ := H
  simp only [signed, negative, Bool.or_eq_true, Bool.and_eq_true, Bool.not_eq_true',
    decide_eq_true_eq, decide_eq_false_iff_not]
  cases c <;> cases x <;> simp only [Bool.toNat_false, Bool.toNat_true] at hexact ⊢ <;>
    split <;> split <;> omega

end Adds

namespace Subtracts

theorem borrow_iff (H : Subtracts h d s x r c) : c = true ↔ d < s + x.toNat := by
  have hexact := H.exact
  have hresult := H.result
  have hdest := H.dest
  cases c <;> simp only [Bool.toNat_false, Bool.toNat_true] at hexact <;> simp <;> omega

/-- The borrow out, from the sign bits. -/
theorem borrow_eq (H : Subtracts h d s x r c) :
    c = ((negative h s && !negative h d) || (negative h r && !negative h d) ||
      (negative h s && negative h r)) := by
  obtain ⟨hd, hs, hr, hexact⟩ := H
  rw [Bool.eq_iff_iff]
  simp only [negative, Bool.or_eq_true, Bool.and_eq_true, Bool.not_eq_true', decide_eq_true_eq,
    decide_eq_false_iff_not]
  cases c <;> cases x <;>
    simp only [Bool.toNat_false, Bool.toNat_true, Bool.false_eq_true, false_iff, true_iff]
      at hexact ⊢ <;> omega

/-- Signed overflow, from the sign bits. -/
theorem overflow_iff (H : Subtracts h d s x r c) :
    ((!negative h s && negative h d && !negative h r) ||
      (negative h s && !negative h d && negative h r)) = true ↔
      ¬(-(h : Int) ≤ signed h d - signed h s - x.toNat ∧
        signed h d - signed h s - x.toNat < h) := by
  obtain ⟨hd, hs, hr, hexact⟩ := H
  simp only [signed, negative, Bool.or_eq_true, Bool.and_eq_true, Bool.not_eq_true',
    decide_eq_true_eq, decide_eq_false_iff_not]
  cases c <;> cases x <;> simp only [Bool.toNat_false, Bool.toNat_true] at hexact ⊢ <;>
    split <;> split <;> omega

theorem zero_iff (H : Subtracts h d s false r c) : r = 0 ↔ d = s := by
  obtain ⟨hd, hs, hr, hexact⟩ := H
  cases c <;> simp only [Bool.toNat_false, Bool.toNat_true] at hexact <;> omega

/-- The sign of the difference, corrected by the overflow, is the signed order. -/
theorem less_iff (H : Subtracts h d s false r c) :
    (negative h r ^^ ((!negative h s && negative h d && !negative h r) ||
      (negative h s && !negative h d && negative h r))) = true ↔ signed h d < signed h s := by
  obtain ⟨hd, hs, hr, hexact⟩ := H
  have hsign (v : Nat) : negative h v = !decide (v < h) := by
    rw [negative, ← decide_not, decide_eq_decide]
    omega
  by_cases hnd : d < h <;> by_cases hns : s < h <;> by_cases hnr : r < h <;>
    simp only [hsign, signed, hnd, hns, hnr, decide_true, decide_false, Bool.not_true,
      Bool.not_false, Bool.and_true, Bool.and_false, Bool.or_true, Bool.or_false,
      Bool.xor_true, Bool.xor_false, Bool.false_eq_true, false_iff, true_iff,
      if_true, if_false] <;>
    cases c <;> simp only [Bool.toNat_false, Bool.toNat_true] at hexact <;> omega

end Subtracts

/-! ## Several limbs

The same with any modulus `m` in the place of `2 * h`, so that a chain can begin with no
limb at all. -/

/-- `r` and the carry `c` are the sum of `d` and `s`, numbers below `m`, and `x`. -/
structure Sums (m d s : Nat) (x : Bool) (r : Nat) (c : Bool) : Prop where
  dest : d < m
  src : s < m
  result : r < m
  exact : r + m * c.toNat = d + s + x.toNat

/-- `r` and the borrow `c` are the difference of `d` and `s`, numbers below `m`, and `x`. -/
structure Differs (m d s : Nat) (x : Bool) (r : Nat) (c : Bool) : Prop where
  dest : d < m
  src : s < m
  result : r < m
  exact : r + s + x.toNat = d + m * c.toNat

variable {m m' : Nat}

theorem Adds.sums (H : Adds h d s x r c) : Sums (2 * h) d s x r c :=
  ⟨H.dest, H.src, H.result, H.exact⟩

theorem Subtracts.differs (H : Subtracts h d s x r c) : Differs (2 * h) d s x r c :=
  ⟨H.dest, H.src, H.result, H.exact⟩

theorem Sums.adds (H : Sums (2 * h) d s x r c) : Adds h d s x r c :=
  ⟨H.dest, H.src, H.result, H.exact⟩

theorem Differs.subtracts (H : Differs (2 * h) d s x r c) : Subtracts h d s x r c :=
  ⟨H.dest, H.src, H.result, H.exact⟩

/-- No limb: the carry passes. -/
theorem Sums.nil (x : Bool) : Sums 1 0 0 x 0 x := by
  refine ⟨by decide, by decide, by decide, ?_⟩
  omega

theorem Differs.nil (x : Bool) : Differs 1 0 0 x 0 x := by
  refine ⟨by decide, by decide, by decide, ?_⟩
  omega

/-- A limb on top of a number stays below the product of the moduli. -/
theorem append_lt {m m' a b : Nat} (ha : a < m') (hb : b < m) : a * m + b < m' * m := by
  calc a * m + b < a * m + m := by omega
    _ = (a + 1) * m := by ring
    _ ≤ m' * m := Nat.mul_le_mul_right m ha

/-- The adder of a limb over the carry of the limbs below. -/
theorem Sums.append (low : Sums m d s x r c) (high : Sums m' d' s' c r' c') :
    Sums (m' * m) (d' * m + d) (s' * m + s) x (r' * m + r) c' := by
  refine ⟨append_lt high.dest low.dest, append_lt high.src low.src,
    append_lt high.result low.result, ?_⟩
  calc r' * m + r + m' * m * c'.toNat = (r' + m' * c'.toNat) * m + r := by ring
    _ = (d' + s' + c.toNat) * m + r := by rw [high.exact]
    _ = (d' + s') * m + (r + m * c.toNat) := by ring
    _ = (d' + s') * m + (d + s + x.toNat) := by rw [low.exact]
    _ = d' * m + d + (s' * m + s) + x.toNat := by ring

theorem Differs.append (low : Differs m d s x r c) (high : Differs m' d' s' c r' c') :
    Differs (m' * m) (d' * m + d) (s' * m + s) x (r' * m + r) c' := by
  refine ⟨append_lt high.dest low.dest, append_lt high.src low.src,
    append_lt high.result low.result, ?_⟩
  calc r' * m + r + (s' * m + s) + x.toNat = (r' + s') * m + (r + s + x.toNat) := by ring
    _ = (r' + s') * m + (d + m * c.toNat) := by rw [low.exact]
    _ = (r' + s' + c.toNat) * m + d := by ring
    _ = (d' + m' * c'.toNat) * m + d := by rw [high.exact]
    _ = d' * m + d + m' * m * c'.toNat := by ring

/-- A step with a carry in and a carry out, of which chains are made. -/
structure Chains (R : Nat → Nat → Nat → Bool → Nat → Bool → Prop) : Prop where
  nil : ∀ x, R 1 0 0 x 0 x
  append : ∀ {m m' d s r d' s' r' : Nat} {x c c' : Bool}, R m d s x r c → R m' d' s' c r' c' →
    R (m' * m) (d' * m + d) (s' * m + s) x (r' * m + r) c'

theorem Sums.chains : Chains Sums := ⟨Sums.nil, Sums.append⟩

theorem Differs.chains : Chains Differs := ⟨Differs.nil, Differs.append⟩

/-- The carries of a chain make one step of the whole numbers. -/
theorem Chains.run {R : Nat → Nat → Nat → Bool → Nat → Bool → Prop} (hR : Chains R) {B n : Nat}
    {d s r : Nat → Nat} {c : Nat → Bool}
    (h : ∀ j, j < n → R B (d j) (s j) (c j) (r j) (c (j + 1))) :
    R (B ^ n) (little B d n) (little B s n) (c 0) (little B r n) (c n) := by
  induction n with
  | zero => exact hR.nil _
  | succ n ih =>
    rw [pow_succ']
    exact hR.append (ih fun j hj => h j (by omega)) (h n (by omega))

theorem Sums.mod_eq (H : Sums m d s x r c) : r = (d + s + x.toNat) % m := by
  rw [← H.exact, Nat.add_mul_mod_self_left, Nat.mod_eq_of_lt H.result]

theorem Sums.carry_iff (H : Sums m d s x r c) : c = true ↔ m ≤ d + s + x.toNat := by
  have hexact := H.exact
  have hresult := H.result
  cases c <;> simp only [Bool.toNat_false, Bool.toNat_true] at hexact <;> simp <;> omega

theorem Differs.borrow_iff (H : Differs m d s x r c) : c = true ↔ d < s + x.toNat := by
  have hexact := H.exact
  have hresult := H.result
  have hdest := H.dest
  cases c <;> simp only [Bool.toNat_false, Bool.toNat_true] at hexact <;> simp <;> omega

theorem Differs.mod_eq (H : Differs m d s x r c) : (r : Int) = ((d : Int) - s - x.toNat) % m := by
  have hexact := H.exact
  have hresult := H.result
  have heq : (d : Int) - s - x.toNat = r + m * (-(c.toNat : Int)) := by
    have hcast : (r : Int) + s + x.toNat = d + m * c.toNat := by exact_mod_cast hexact
    linarith
  rw [heq, Int.add_mul_emod_self_left, Int.emod_eq_of_lt (by omega) (by omega)]

/-- The sign of a number is that of its top limb. -/
theorem negative_append {a b : Nat} (hb : b < m) :
    negative (h * m) (a * m + b) = negative h a := by
  rw [negative, negative, decide_eq_decide]
  constructor
  · intro hle
    by_contra hlt
    have hstep : (a + 1) * m ≤ h * m := Nat.mul_le_mul_right m (by omega)
    have hsplit : (a + 1) * m = a * m + m := by ring
    omega
  · intro hle
    have hstep := Nat.mul_le_mul_right m hle
    omega

end Num
