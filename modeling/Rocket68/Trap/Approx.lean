import Rocket68.Trap.Wp

/-!
# Approximation

A recursion opened by a level count computes the same outcome at every level
that suffices. `m ⊑ n` is spelled `Approx m n`: where `m` does not run out of
levels, `n` does what `m` does.
-/

namespace Trap.TrapM

variable {E S α β : Type}

/-- Where `m` does not run out, `n` agrees with it. -/
def Approx (m n : TrapM E S α) : Prop := ∀ e s, m e s = .diverge ∨ n e s = m e s

theorem Approx.refl (m : TrapM E S α) : Approx m m := fun _ _ => .inr rfl

theorem Approx.trans {m n o : TrapM E S α} (h : Approx m n) (h' : Approx n o) : Approx m o := by
  intro e s
  rcases h e s with hm | hn
  · exact .inl hm
  · rcases h' e s with hn' | ho
    · exact .inl (hn ▸ hn')
    · exact .inr (ho.trans hn)

theorem approx_stuck (m : TrapM E S α) : Approx stuck m := fun _ _ => .inl rfl

theorem Approx.bind {m n : TrapM E S α} {f g : α → TrapM E S β} (h : Approx m n)
    (hf : ∀ a, Approx (f a) (g a)) : Approx (m >>= f) (n >>= g) := by
  intro e s
  rcases h e s with hm | hn
  · exact .inl (bind_diverge hm)
  · cases hm : m e s with
    | ok a t =>
      rw [bind_ok hm, bind_ok (hn.trans hm)]
      exact hf a e t
    | trap t =>
      rw [bind_trap hm, bind_trap (hn.trans hm)]
      exact .inr rfl
    | diverge => exact .inl (bind_diverge hm)

/-- Only the rest of a sequence differs. -/
theorem Approx.seq {m : TrapM E S α} {f g : α → TrapM E S β} (hf : ∀ a, Approx (f a) (g a)) :
    Approx (m >>= f) (m >>= g) := (Approx.refl m).bind hf

theorem Approx.ite {c : Prop} [Decidable c] {m n m' n' : TrapM E S α} (h : Approx m m')
    (h' : Approx n n') : Approx (if c then m else n) (if c then m' else n') := by
  split
  · exact h
  · exact h'

/-- A chain of approximations. -/
theorem approx_of_le {m : Nat → TrapM E S α} (h : ∀ n, Approx (m n) (m (n + 1))) {n n' : Nat}
    (hn : n ≤ n') : Approx (m n) (m n') := by
  induction hn with
  | refl => exact .refl _
  | step _ ih => exact ih.trans (h _)

end Trap.TrapM
