import Rocket68.Num.Shift

/-!
# Restoring division

One step doubles the partial remainder and subtracts the divisor when it fits. Begun with
a dividend below the divisor, the partial remainder is always the residue of the shifted
dividend, and the decisions are the bits of the quotient from the top down.
-/

namespace Num

variable {D n d w i : Nat}

/-- One step. -/
def restore (D r : Nat) : Nat := if D ≤ 2 * r then 2 * r - D else 2 * r

theorem restore_lt {r : Nat} (hr : r < D) : restore D r < D := by
  unfold restore
  split <;> omega

theorem restore_mod (hD : 0 < D) (n : Nat) : restore D (n % D) = 2 * n % D := by
  have hlt := Nat.mod_lt n hD
  rw [restore, ← Nat.mul_mod_mod 2 n D]
  generalize n % D = r at hlt ⊢
  split
  · next hle => rw [Nat.mod_eq_sub_mod hle, Nat.mod_eq_of_lt (by omega)]
  · next hless => rw [Nat.mod_eq_of_lt (by omega)]

/-- The partial remainder after `i` steps. -/
theorem restore_iterate (hn : n < D) (i : Nat) : (restore D)^[i] n = n * 2 ^ i % D := by
  induction i with
  | zero => rw [Function.iterate_zero, id, pow_zero, Nat.mul_one, Nat.mod_eq_of_lt hn]
  | succ i ih =>
    rw [Function.iterate_succ_apply', ih, restore_mod (by omega), pow_succ]
    congr 1
    ring

/-- A step subtracts when the next digit of the quotient is one. -/
theorem restores_iff (hD : 0 < D) (n : Nat) : D ≤ 2 * (n % D) ↔ 2 * n / D % 2 = 1 := by
  have hlt := Nat.mod_lt n hD
  have hsplit : 2 * n = 2 * (n % D) + D * (2 * (n / D)) := by
    have hdiv := Nat.mod_add_div n D
    have hmul : D * (2 * (n / D)) = 2 * (D * (n / D)) := by ring
    omega
  rw [hsplit, Nat.add_mul_div_left _ _ hD]
  by_cases hle : D ≤ 2 * (n % D)
  · have hone : 2 * (n % D) / D = 1 := by
      rw [Nat.div_eq_iff hD]
      omega
    rw [hone]
    omega
  · rw [Nat.div_eq_of_lt (by omega)]
    omega

/-- The decisions of a division by `d`, with the divisor shifted by `w` places. -/
theorem restores_quotient (hd : 0 < d) (hn : n < d * 2 ^ w) (hi : i < w) :
    d * 2 ^ w ≤ 2 * (restore (d * 2 ^ w))^[i] n ↔ (n / d).testBit (w - 1 - i) = true := by
  have hshift : 2 * (n * 2 ^ i) / (d * 2 ^ w) = n / d / 2 ^ (w - 1 - i) := by
    have hleft : 2 * (n * 2 ^ i) = n * 2 ^ (i + 1) := by
      rw [pow_succ]
      ring
    have hright : d * 2 ^ w = d * 2 ^ (w - 1 - i) * 2 ^ (i + 1) := by
      rw [Nat.mul_assoc, ← pow_add]
      congr 2
      omega
    rw [hleft, hright, Nat.mul_div_mul_right _ _ (Nat.two_pow_pos _), Nat.div_div_eq_div_mul]
  rw [restore_iterate hn, restores_iff (Nat.mul_pos hd (Nat.two_pow_pos w)), hshift,
    Nat.testBit_eq_decide_div_mod_eq, decide_eq_true_eq]

end Num
