import Mathlib.Tactic.Ring
import Mathlib.Tactic.Linarith

/-!
# Numbers written in a row of digits

`value B d p n` is the number whose base `B` digits, most significant first, are the `n`
values of `d` from place `p` on.
-/

namespace Num

/-- The digits at `p`, `p + 1`, …, `p + n - 1` as a number in base `B`. -/
def value (B : Nat) (d : Nat → Nat) (p : Nat) : Nat → Nat
  | 0 => 0
  | n + 1 => B * value B d p n + d (p + n)

variable {B : Nat} {d d' : Nat → Nat} {p n m : Nat}

/-- A number is its leading digits over its trailing ones. -/
theorem value_add (B : Nat) (d : Nat → Nat) (p n m : Nat) :
    value B d p (n + m) = value B d p n * B ^ m + value B d (p + n) m := by
  induction m with
  | zero => simp [value]
  | succ m ih =>
    rw [← Nat.add_assoc, value, ih, value, pow_succ, Nat.add_assoc p n m]
    ring

theorem value_congr (h : ∀ i, p ≤ i → i < p + n → d i = d' i) :
    value B d p n = value B d' p n := by
  induction n with
  | zero => rfl
  | succ n ih =>
    rw [value, value, ih fun i hi hlt => h i hi (by omega), h (p + n) (by omega) (by omega)]

theorem value_lt (h : ∀ i, p ≤ i → i < p + n → d i < B) : value B d p n < B ^ n := by
  induction n with
  | zero => simp [value]
  | succ n ih =>
    have hhigh := ih fun i hi hlt => h i hi (by omega)
    have hlow := h (p + n) (by omega) (by omega)
    calc value B d p (n + 1) < B * value B d p n + B := by
          rw [value]
          omega
      _ = B * (value B d p n + 1) := by ring
      _ ≤ B * B ^ n := Nat.mul_le_mul_left B hhigh
      _ = B ^ (n + 1) := (pow_succ' B n).symm

/-- The first `n` digits of `d`, least significant first, as a number in base `B`. -/
def little (B : Nat) (d : Nat → Nat) : Nat → Nat
  | 0 => 0
  | n + 1 => d n * B ^ n + little B d n

theorem little_congr (h : ∀ i, i < n → d i = d' i) : little B d n = little B d' n := by
  induction n with
  | zero => rfl
  | succ n ih => rw [little, little, h n (by omega), ih fun i hi => h i (by omega)]

theorem little_lt (h : ∀ i, i < n → d i < B) : little B d n < B ^ n := by
  induction n with
  | zero => simp [little]
  | succ n ih =>
    have hrest := ih fun i hi => h i (by omega)
    have htop := h n (by omega)
    calc little B d (n + 1) < d n * B ^ n + B ^ n := by
          rw [little]
          omega
      _ = (d n + 1) * B ^ n := by ring
      _ ≤ B * B ^ n := Nat.mul_le_mul_right _ htop
      _ = B ^ (n + 1) := (pow_succ' B n).symm

/-- A flag that each digit but a zero clears says, at the end, whether the number is zero. -/
theorem little_sticky {z : Nat → Bool} (hB : 0 < B)
    (h : ∀ i, i < n → z (i + 1) = (decide (d i = 0) && z i)) :
    z n = (decide (little B d n = 0) && z 0) := by
  induction n with
  | zero => rw [little, decide_eq_true rfl, Bool.true_and]
  | succ n ih =>
    have hpow : B ^ n ≠ 0 := Nat.pos_iff_ne_zero.mp (Nat.pow_pos hB)
    rw [h n (by omega), ih fun i hi => h i (by omega), ← Bool.and_assoc, ← Bool.decide_and, little]
    congr 1
    rw [decide_eq_decide, Nat.add_eq_zero_iff, Nat.mul_eq_zero, or_iff_left hpow]

end Num
