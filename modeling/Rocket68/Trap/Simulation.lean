import Rocket68.Trap.Wp

/-!
# Two runs side by side

`Simulates c P Q T m n`: from states related by `P`, the run of `m` in the left
environment and that of `n` in the right one end the same way, with the same value:
both return in states related by `Q`, or both escape in states related by `T`. The
left run may be given up instead. Then it ends in `c.lost`, which no program of the
simulation leaves again.
-/

namespace Trap

variable {E S α β : Type}

/-- Every way in which the outcome ends lies in `D`. -/
def Outcome.Ends (D : S → Prop) : Outcome S α → Prop
  | .ok _ s => D s
  | .trap s => D s
  | .diverge => True

/-- Outcomes of one kind, with one value and related states; or the first is given
up. -/
inductive Outcome.Sim (D : S → Prop) (Q T : S → S → Prop) :
    Outcome S α → Outcome S α → Prop
  | ok {a : α} {s t : S} (h : Q s t) : Sim D Q T (.ok a s) (.ok a t)
  | trap {s t : S} (h : T s t) : Sim D Q T (.trap s) (.trap t)
  | diverge : Sim D Q T .diverge .diverge
  | lost {o o' : Outcome S α} (h : o.Ends D) : Sim D Q T o o'

/-- Two environments, and the states in which the left run is given up. -/
structure Pairing (E S : Type) where
  left : E
  right : E
  lost : S → Prop

namespace TrapM

/-- The left run of `m` and the right run of `n` correspond. -/
structure Simulates (c : Pairing E S) (P Q T : S → S → Prop) (m n : TrapM E S α) : Prop where
  stays : ∀ s, c.lost s → (m c.left s).Ends c.lost
  runs : ∀ s t, P s t → Outcome.Sim c.lost Q T (m c.left s) (n c.right t)

variable {c : Pairing E S} {P P' Q Q' T T' W : S → S → Prop}

/-- A program is entered in a lost state only to end in one. -/
theorem ends_bind {D : S → Prop} {e : E} {m : TrapM E S α} {f : α → TrapM E S β} {s : S}
    (hm : (m e s).Ends D) (hf : ∀ a t, D t → (f a e t).Ends D) : ((m >>= f) e s).Ends D := by
  cases h : m e s with
  | ok a t =>
    rw [h] at hm
    rw [bind_ok h]
    exact hf a t hm
  | trap t =>
    rw [h] at hm
    rw [bind_trap h]
    exact hm
  | diverge =>
    rw [bind_diverge h]
    exact trivial

theorem simulates_pure (a : α) : Simulates c P P T (pure a) (pure a) :=
  ⟨fun _ h => h, fun _ _ h => .ok h⟩

theorem simulates_gets {f : S → α} (hf : ∀ s t, P s t → f t = f s) :
    Simulates c P P T (gets f) (gets f) := by
  refine ⟨fun _ h => h, fun s t h => ?_⟩
  show Outcome.Sim c.lost P T (.ok (f s) s) (.ok (f t) t)
  rw [hf s t h]
  exact .ok h

/-- A look whose value the rest may rely on. -/
theorem simulates_gets_bind {f : S → α} {g h : α → TrapM E S β} (hf : ∀ s t, P s t → f t = f s)
    (hg : ∀ a, Simulates c (fun s t => P s t ∧ f s = a) Q T (g a) (h a)) :
    Simulates c P Q T (gets f >>= g) (gets f >>= h) := by
  refine ⟨fun s hs => (hg (f s)).stays s hs, fun s t hp => ?_⟩
  show Outcome.Sim c.lost Q T (g (f s) c.left s) (h (f t) c.right t)
  rw [hf s t hp]
  exact (hg (f s)).runs s t ⟨hp, rfl⟩

theorem simulates_modify {f : S → S} (hD : ∀ s, c.lost s → c.lost (f s))
    (hf : ∀ s t, P s t → Q (f s) (f t)) : Simulates c P Q T (modify f) (modify f) :=
  ⟨hD, fun s t h => .ok (hf s t h)⟩

theorem simulates_call {f : S → S × α} (hD : ∀ s, c.lost s → c.lost (f s).1)
    (hf : ∀ s t, P s t → Q (f s).1 (f t).1 ∧ (f t).2 = (f s).2) :
    Simulates c P Q T (call f) (call f) := by
  refine ⟨hD, fun s t h => ?_⟩
  show Outcome.Sim c.lost Q T (.ok (f s).2 (f s).1) (.ok (f t).2 (f t).1)
  rw [(hf s t h).2]
  exact .ok (hf s t h).1

theorem simulates_escape : Simulates c P Q P (escape : TrapM E S α) escape :=
  ⟨fun _ h => h, fun _ _ h => .trap h⟩

theorem simulates_stuck : Simulates c P Q T (stuck : TrapM E S α) stuck :=
  ⟨fun _ _ => trivial, fun _ _ _ => .diverge⟩

/-- Reading the environment. -/
theorem simulates_env {f g : E → TrapM E S α} (h : Simulates c P Q T (f c.left) (g c.right)) :
    Simulates c P Q T (env >>= f) (env >>= g) :=
  ⟨h.stays, h.runs⟩

/-- An armed trap at a pair of states. -/
theorem sim_catchTrap {m n h k : TrapM E S α} {s t : S}
    (hm : Outcome.Sim c.lost Q W (m c.left s) (n c.right t)) (hh : Simulates c W Q T h k) :
    Outcome.Sim c.lost Q T (catchTrap m h c.left s) (catchTrap n k c.right t) := by
  unfold TrapM.catchTrap
  generalize m c.left s = o at hm ⊢
  generalize n c.right t = o' at hm ⊢
  cases hm with
  | ok h => exact .ok h
  | trap h => exact hh.runs _ _ h
  | diverge => exact .diverge
  | @lost o _ h =>
    refine .lost ?_
    cases o with
    | ok a t => exact h
    | trap t => exact hh.stays t h
    | diverge => exact trivial

namespace Simulates

theorem bind {m n : TrapM E S α} {f g : α → TrapM E S β} (hm : Simulates c P W T m n)
    (hf : ∀ a, Simulates c W Q T (f a) (g a)) : Simulates c P Q T (m >>= f) (n >>= g) := by
  refine ⟨fun s hs => ends_bind (hm.stays s hs) fun a t => (hf a).stays t, fun s t h => ?_⟩
  have key := hm.runs s t h
  generalize hs : m c.left s = o at key
  generalize ht : n c.right t = o' at key
  cases key with
  | ok h =>
    rw [bind_ok hs, bind_ok ht]
    exact (hf _).runs _ _ h
  | trap h =>
    rw [bind_trap hs, bind_trap ht]
    exact .trap h
  | diverge =>
    rw [bind_diverge hs, bind_diverge ht]
    exact .diverge
  | lost h => exact .lost (ends_bind (hs ▸ h) fun a t => (hf a).stays t)

theorem mono {m n : TrapM E S α} (h : Simulates c P Q T m n) (hP : ∀ s t, P' s t → P s t)
    (hQ : ∀ s t, Q s t → Q' s t) (hT : ∀ s t, T s t → T' s t) : Simulates c P' Q' T' m n := by
  refine ⟨h.stays, fun s t hp => ?_⟩
  have key := h.runs s t (hP s t hp)
  generalize m c.left s = o at key ⊢
  generalize n c.right t = o' at key ⊢
  cases key with
  | ok h => exact .ok (hQ _ _ h)
  | trap h => exact .trap (hT _ _ h)
  | diverge => exact .diverge
  | lost h => exact .lost h

/-- What the left run establishes by itself. -/
theorem and_wp {m n : TrapM E S α} {V : S → Prop} (h : Simulates c P Q T m n)
    (hw : ∀ s t, P s t → wp m c.left (fun _ => V) (fun _ => True) s) :
    Simulates c P (fun s t => Q s t ∧ V s) T m n := by
  refine ⟨h.stays, fun s t hp => ?_⟩
  have key := h.runs s t hp
  have hv := hw s t hp
  unfold wp at hv
  generalize m c.left s = o at key hv ⊢
  generalize n c.right t = o' at key ⊢
  cases key with
  | ok h => exact .ok ⟨h, hv⟩
  | trap h => exact .trap h
  | diverge => exact .diverge
  | lost h => exact .lost h

theorem ite {p : Prop} [Decidable p] {m m' n n' : TrapM E S α} (hm : p → Simulates c P Q T m n)
    (hn : ¬p → Simulates c P Q T m' n') :
    Simulates c P Q T (if p then m else m') (if p then n else n') := by
  split
  · next h => exact hm h
  · next h => exact hn h

theorem catchTrap {m n h k : TrapM E S α} (hm : Simulates c P Q W m n)
    (hh : Simulates c W Q T h k) : Simulates c P Q T (catchTrap m h) (catchTrap n k) := by
  refine ⟨fun s hs => ?_, fun s t hp => sim_catchTrap (hm.runs s t hp) hh⟩
  have key := hm.stays s hs
  unfold TrapM.catchTrap
  generalize m c.left s = o at key ⊢
  cases o with
  | ok a t => exact key
  | trap t => exact hh.stays t key
  | diverge => exact trivial

/-- A left run that is always given up. -/
theorem of_ends {m n : TrapM E S α} (h : ∀ s, (m c.left s).Ends c.lost) :
    Simulates c P Q T m n :=
  ⟨fun s _ => h s, fun s _ _ => .lost (h s)⟩

end Simulates

/-- Sequencing at a pair of states, where the value of the left run is known. -/
theorem sim_bind {m n : TrapM E S α} {f g : α → TrapM E S β} {s t : S}
    (hm : Outcome.Sim c.lost W T (m c.left s) (n c.right t))
    (hstays : ∀ a s', c.lost s' → (f a c.left s').Ends c.lost)
    (hf : ∀ a s' t', m c.left s = .ok a s' → W s' t' →
      Outcome.Sim c.lost Q T (f a c.left s') (g a c.right t')) :
    Outcome.Sim c.lost Q T ((m >>= f) c.left s) ((n >>= g) c.right t) := by
  generalize hs : m c.left s = o at hm hf
  generalize ht : n c.right t = o' at hm
  cases hm with
  | ok h =>
    rw [bind_ok hs, bind_ok ht]
    exact hf _ _ _ rfl h
  | trap h =>
    rw [bind_trap hs, bind_trap ht]
    exact .trap h
  | diverge =>
    rw [bind_diverge hs, bind_diverge ht]
    exact .diverge
  | lost h => exact .lost (ends_bind (hs ▸ h) hstays)

end TrapM

end Trap
