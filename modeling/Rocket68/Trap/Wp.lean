import Rocket68.Trap.Basic

/-!
# Weakest preconditions

`wp m e Q R` holds of the states from which `m` returns into `Q` or escapes into
`R`. Running out of nesting satisfies no postcondition.
-/

namespace Trap.TrapM

variable {E S α β : Type}

/-- The weakest precondition of `m` for a normal return in `Q` and an escape in
`R`. -/
def wp (m : TrapM E S α) (e : E) (Q : α → S → Prop) (R : S → Prop) (s : S) : Prop :=
  match m e s with
  | .ok a t => Q a t
  | .trap t => R t
  | .diverge => False

variable {e : E} {s : S} {R R' : S → Prop}

@[simp] theorem wp_pure {a : α} {Q : α → S → Prop} :
    wp (pure a) e Q R s ↔ Q a s := Iff.rfl

@[simp] theorem wp_gets {f : S → α} {Q : α → S → Prop} :
    wp (gets f) e Q R s ↔ Q (f s) s := Iff.rfl

@[simp] theorem wp_modify {f : S → S} {Q : Unit → S → Prop} :
    wp (modify f) e Q R s ↔ Q () (f s) := Iff.rfl

@[simp] theorem wp_env {Q : E → S → Prop} : wp env e Q R s ↔ Q e s := Iff.rfl

@[simp] theorem wp_escape {Q : α → S → Prop} : wp escape e Q R s ↔ R s := Iff.rfl

@[simp] theorem wp_bind {m : TrapM E S α} {f : α → TrapM E S β} {Q : β → S → Prop} :
    wp (m >>= f) e Q R s ↔ wp m e (fun a t => wp (f a) e Q R t) R s := by
  show (match (match m e s with
    | .ok a t => f a e t
    | .trap t => .trap t
    | .diverge => .diverge) with
    | .ok b t => Q b t
    | .trap t => R t
    | .diverge => False) ↔ _
  unfold wp
  cases m e s <;> rfl

@[simp] theorem wp_catchTrap {m h : TrapM E S α} {Q : α → S → Prop} :
    wp (catchTrap m h) e Q R s ↔ wp m e Q (fun t => wp h e Q R t) s := by
  unfold wp catchTrap
  cases m e s <;> rfl

/-- Weaken both postconditions. -/
theorem wp_mono {m : TrapM E S α} {Q Q' : α → S → Prop} (h : wp m e Q R s)
    (hQ : ∀ a t, Q a t → Q' a t) (hR : ∀ t, R t → R' t) : wp m e Q' R' s := by
  unfold wp at h ⊢
  cases hm : m e s with
  | ok a t => simp only [hm] at h ⊢; exact hQ a t h
  | trap t => simp only [hm] at h ⊢; exact hR t h
  | diverge => simp only [hm] at h

theorem wp_ite {c : Prop} [Decidable c] {m n : TrapM E S α} {Q : α → S → Prop}
    (hm : c → wp m e Q R s) (hn : ¬c → wp n e Q R s) :
    wp (if c then m else n) e Q R s := by
  split
  · next h => exact hm h
  · next h => exact hn h

/-- A computation known to return. -/
theorem wp_of_ok {m : TrapM E S α} {a : α} {t : S} {Q : α → S → Prop} (h : m e s = .ok a t) :
    wp m e Q R s ↔ Q a t := by
  unfold wp
  rw [h]

/-- A computation known to escape. -/
theorem wp_of_trap {m : TrapM E S α} {t : S} {Q : α → S → Prop} (h : m e s = .trap t) :
    wp m e Q R s ↔ R t := by
  unfold wp
  rw [h]

/-- What a triple says of a computation that returned. -/
theorem wp_ok {m : TrapM E S α} {a : α} {t : S} {Q : α → S → Prop} (h : wp m e Q R s)
    (hm : m e s = .ok a t) : Q a t := (wp_of_ok hm).mp h

/-- Without an escape the computation returns. -/
theorem exists_ok_of_wp {m : TrapM E S α} {Q : α → S → Prop}
    (h : wp m e Q (fun _ => False) s) : ∃ a t, m e s = .ok a t ∧ Q a t := by
  unfold wp at h
  cases hm : m e s with
  | ok a t => rw [hm] at h; exact ⟨a, t, rfl, h⟩
  | trap t => rw [hm] at h; exact h.elim
  | diverge => rw [hm] at h; exact h.elim

/-! ## Evaluation -/

theorem ok_of_exec? {m : TrapM E S Unit} {t : S} (h : exec? m e s = some t) :
    m e s = .ok () t := by
  unfold exec? at h
  cases hm : m e s with
  | ok a t' => rw [hm] at h; cases h; rfl
  | trap t' => rw [hm] at h; cases h
  | diverge => rw [hm] at h; cases h

theorem gets_bind {f : S → α} {g : α → TrapM E S β} : (gets f >>= g) e s = g (f s) e s := rfl

theorem modify_bind {f : S → S} {g : Unit → TrapM E S β} :
    (modify f >>= g) e s = g () e (f s) := rfl

theorem env_bind {g : E → TrapM E S β} : (env >>= g) e s = g e e s := rfl

theorem ite_run {c : Prop} [Decidable c] {m n : TrapM E S α} :
    (if c then m else n) e s = if c then m e s else n e s := by
  split <;> rfl

theorem bind_ok {m : TrapM E S α} {f : α → TrapM E S β} {a : α} {t : S}
    (h : m e s = .ok a t) : (m >>= f) e s = f a e t := by
  show (match m e s with
    | .ok a t => f a e t
    | .trap t => .trap t
    | .diverge => .diverge) = _
  rw [h]

theorem bind_trap {m : TrapM E S α} {f : α → TrapM E S β} {t : S}
    (h : m e s = .trap t) : (m >>= f) e s = .trap t := by
  show (match m e s with
    | .ok a t => f a e t
    | .trap t => .trap t
    | .diverge => .diverge) = _
  rw [h]

theorem bind_diverge {m : TrapM E S α} {f : α → TrapM E S β} (h : m e s = .diverge) :
    (m >>= f) e s = .diverge := by
  show (match m e s with
    | .ok a t => f a e t
    | .trap t => .trap t
    | .diverge => .diverge) = _
  rw [h]

/-- Sequencing depends on the runs of its parts only, in whatever environments. -/
theorem bind_congr_run {m n : TrapM E S α} {f g : α → TrapM E S β} {e' : E} {s' : S}
    (h : m e s = n e' s') (hfg : ∀ a t, f a e t = g a e' t) :
    (m >>= f) e s = (n >>= g) e' s' := by
  cases hn : n e' s' with
  | ok a t => rw [bind_ok (h.trans hn), bind_ok hn, hfg]
  | trap t => rw [bind_trap (h.trans hn), bind_trap hn]
  | diverge => rw [bind_diverge (h.trans hn), bind_diverge hn]

/-! ## Values returned -/

/-- Whatever `m` returns satisfies `P`, in every environment and from every state. -/
def Returns (m : TrapM E S α) (P : α → Prop) : Prop := ∀ e s a t, m e s = .ok a t → P a

namespace Returns

variable {m n : TrapM E S α} {P : α → Prop} {Q : β → Prop}

theorem pure {a : α} (h : P a) : Returns (Pure.pure a : TrapM E S α) P := by
  intro e s b t hb
  cases hb
  exact h

theorem bind {f : α → TrapM E S β} (hm : Returns m P) (hf : ∀ a, P a → Returns (f a) Q) :
    Returns (m >>= f) Q := by
  intro e s b t hb
  cases hrun : m e s with
  | ok a u =>
    rw [bind_ok hrun] at hb
    exact hf a (hm e s a u hrun) e u b t hb
  | trap u =>
    rw [bind_trap hrun] at hb
    cases hb
  | diverge =>
    rw [bind_diverge hrun] at hb
    cases hb

/-- What is returned is what the last part returns. -/
theorem after {f : α → TrapM E S β} (h : ∀ a, Returns (f a) Q) : Returns (m >>= f) Q :=
  bind (P := fun _ => True) (fun _ _ _ _ _ => trivial) fun a _ => h a

theorem ite {c : Prop} [Decidable c] (hm : Returns m P) (hn : Returns n P) :
    Returns (if c then m else n) P := by
  split
  · exact hm
  · exact hn

/-- A continuation matters on the returned values only. -/
theorem bind_congr {f g : α → TrapM E S β} (h : Returns m P) (hfg : ∀ a, P a → f a = g a) :
    m >>= f = m >>= g := by
  refine TrapM.ext fun e s => ?_
  cases hm : m e s with
  | ok a t => rw [bind_ok hm, bind_ok hm, hfg a (h e s a t hm)]
  | trap t => rw [bind_trap hm, bind_trap hm]
  | diverge => rw [bind_diverge hm, bind_diverge hm]

end Returns

theorem catchTrap_ok {m h : TrapM E S α} {a : α} {t : S} (hm : m e s = .ok a t) :
    catchTrap m h e s = .ok a t := by
  unfold catchTrap
  rw [hm]

theorem catchTrap_trap {m h : TrapM E S α} {t : S} (hm : m e s = .trap t) :
    catchTrap m h e s = h e t := by
  unfold catchTrap
  rw [hm]

end Trap.TrapM
