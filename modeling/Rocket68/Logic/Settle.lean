import Rocket68.Logic.Cost

/-!
# Every instruction is paid for

`Settles h m` says that the charges of an opcode line and the cost it returns
come to at least 4 cycles, whatever exception replaced that cost. Most members
return 4 or more. The others (`Pays`) either charge that much themselves or
throw an exception with a cost of its own.
-/

namespace M68k

open Trap TrapM

variable {σ α β : Type}

/-! ## Costs after exceptions -/

theorem exceptionCost_nonneg (thrown : Nat) {c : Int} (hc : 0 ≤ c) :
    0 ≤ exceptionCost thrown c := by
  unfold exceptionCost
  split <;> omega

/-- Only CHK makes an instruction free. -/
theorem exceptionCost_ge {thrown : Nat} (ht : thrown ≠ 6) {c : Int} (hc : 4 ≤ c) :
    4 ≤ exceptionCost thrown c := by
  unfold exceptionCost
  split <;> omega

/-- The exceptions that replace the cost by their own. -/
def Priced (thrown : Nat) : Prop := thrown = 4 ∨ thrown = 5 ∨ thrown = 7 ∨ thrown = 8

theorem exceptionCost_priced {thrown : Nat} (h : Priced thrown) (c : Int) :
    34 ≤ exceptionCost thrown c := by
  rcases h with rfl | rfl | rfl | rfl <;> simp only [exceptionCost] <;> decide

/-! ## Settling -/

/-- From an instruction that has thrown nothing yet, charges and cost come to at
least 4 cycles. -/
def Settles (h : Host σ) (m : M σ Int) : Prop :=
  ∀ s, s.exceptionThrown = 0 →
    wp m h (fun c t => t.targetCycles = s.targetCycles ∧ t.faultTrapActive = s.faultTrapActive ∧
      t.cyclesRemaining + 4 ≤ s.cyclesRemaining + exceptionCost t.exceptionThrown c)
      (fun t => Unwound 8 s t) s

/-- `m` charges 4 cycles or throws an exception with a cost. -/
def Pays (h : Host σ) (m : M σ α) : Prop :=
  ∀ s, s.exceptionThrown = 0 →
    wp m h (fun _ t => Spent 2 0 s t ∧
      (t.cyclesRemaining + 4 ≤ s.cyclesRemaining ∨ Priced t.exceptionThrown))
      (fun t => Unwound 8 s t) s

section

variable {h : Host σ}

theorem Pays.of_spends {n : Int} {m : M σ α} (hn : 4 ≤ n) (hm : Spends h 2 n 8 m) : Pays h m :=
  fun s _ => wp_mono (hm s (clearGuards_le s)) (fun _ _ ht => ⟨ht.mono (by omega),
    .inl (by
      have hcost := ht.cost
      omega)⟩) fun _ ht => ht

/-- What has been paid stays paid. -/
theorem Pays.andThen {m : M σ α} {f : α → M σ β} (hm : Pays h m)
    (hf : ∀ a, Spends h 2 0 8 (f a)) : Pays h (m >>= f) := fun s hs => by
  rw [wp_bind]
  refine wp_mono (hm s hs) ?_ fun _ ht => ht
  rintro a t ⟨hst, hpaid⟩
  refine wp_mono (hf a t (clearGuards_le t)) (fun _ u hu => ⟨hst.trans hu, ?_⟩)
    fun _ hu => Unwound.after hu hst
  rcases hpaid with hcost | hpriced
  · have hcost' := hu.cost
    exact .inl (by omega)
  · have hne : t.exceptionThrown ≠ 0 := by
      rcases hpriced with h | h | h | h <;> omega
    rw [← hu.thrown hne] at hpriced
    exact .inr hpriced

theorem Pays.ite {c : Prop} [Decidable c] {m n : M σ α} (hm : c → Pays h m) (hn : ¬c → Pays h n) :
    Pays h (if c then m else n) := by
  split
  · next hc => exact hm hc
  · next hc => exact hn hc

theorem Settles.ite {c : Prop} [Decidable c] {m n : M σ Int} (hm : c → Settles h m)
    (hn : ¬c → Settles h n) : Settles h (if c then m else n) := by
  split
  · next hc => exact hm hc
  · next hc => exact hn hc

theorem Settles.get {f : M68kCpu σ → α} {g : α → M σ Int} (hg : ∀ a, Settles h (g a)) :
    Settles h (gets f >>= g) := fun s hs => hg (f s) s hs

/-- A cost of 4 or more settles a body that takes nothing back. -/
theorem Settles.costed {body : M σ Unit} {c : Int} (hc : 4 ≤ c) (hb : Spends h 2 0 8 body) :
    Settles h (costed body c) := fun s hs => by
  refine wp_bind.mpr (wp_mono (hb s (clearGuards_le s)) (fun _ t ht => ⟨ht.target, ht.trap, ?_⟩)
    fun _ ht => ht)
  have hcost := ht.cost
  have hmin := exceptionCost_ge (ht.fresh hs) hc
  omega

/-- A body that pays settles without a cost. -/
theorem Settles.paid {body : M σ Unit} {c : Int} (hc : 0 ≤ c) (hb : Pays h body) :
    Settles h (M68k.costed body c) := fun s hs => by
  refine wp_bind.mpr (wp_mono (hb s hs) ?_ fun _ ht => ht)
  rintro _ t ⟨hst, hpaid⟩
  refine ⟨hst.target, hst.trap, ?_⟩
  rcases hpaid with hcost | hpriced
  · have hmin := exceptionCost_nonneg t.exceptionThrown hc
    omega
  · have hcost := hst.cost
    have hmin := exceptionCost_priced hpriced c
    omega

/-! ## Instructions that only spend -/

/-- The grade of an instruction that takes no cycles back and does not trap. -/
def Grade.plain (opcode : U16) : Grade where
  supervisor := true
  interleaved := true
  illegal := true
  trap := false
  usp := true
  stack := true
  refunds := false
  marks := true
  peeks := true
  relative := isRelative opcode
  inside := false

instance (opcode : U16) : Outside (Grade.plain opcode) := ⟨rfl⟩

theorem writes_plain {opcode : U16} (r : Fin 8) : (Grade.plain opcode).Writes r :=
  Grade.writes_supervisor rfl r

theorem writes_pair_plain {opcode : U16} (rx ry : Fin 8) :
    (Grade.plain opcode).Writes rx ∧ (Grade.plain opcode).Writes ry :=
  ⟨writes_plain rx, writes_plain ry⟩

theorem operand_plain {opcode : U16} :
    (Grade.plain opcode).Operand (field opcode 3) (field opcode 0) := .of_supervisor rfl rfl

variable (hh : Honest h) {opcode : U16} {p q : Phase}
include hh

theorem spends_plain {k : Int} {m : M σ α} (hm : Micro (Grade.plain opcode) p q m) (hk : 0 ≤ k) :
    Spends h 2 0 k m := hm.spends hh hk rfl rfl rfl

theorem settles_plain {body : M σ Unit} {c : Int} (hm : Micro (Grade.plain opcode) p q body)
    (hc : 4 ≤ c) : Settles h (costed body c) := .costed hc (spends_plain hh hm (by decide))

theorem pays_exception {v : Nat} (hv : Priced v) : Pays h (exception v) := fun s hs => by
  have h0 : v ≠ 0 := by rcases hv with rfl | rfl | rfl | rfl <;> decide
  have h6 : v ≠ 6 := by rcases hv with rfl | rfl | rfl | rfl <;> decide
  refine wp_mono (exception_enters hh (by decide) v s) (fun _ t ht => ⟨ht.of_enter h6, .inr ?_⟩)
    fun _ ht => ht
  rwa [ht.thrown_of_enter hs h0]

theorem pays_illegalEa : Pays h (raiseIllegalEa : M σ Unit) := by
  refine (pays_exception hh (.inl rfl)).andThen fun _ s _ => ?_
  rw [wp_bind, wp_gets]
  exact wp_ite (fun ha => ⟨(Bool.and_eq_true_iff.mp ha).1, rfl, by omega⟩) fun _ => .refl s

theorem settles_illegal : Settles h (illegalOpcode : M σ Int) :=
  .paid (by decide) (pays_exception hh (.inl rfl))

theorem settles_only68010 {body : M σ Unit} {c : Int} (hm : Micro (Grade.plain opcode) p q body)
    (hc : 4 ≤ c) : Settles h (only68010 body c) :=
  .get fun _ => .ite (fun _ => settles_illegal hh) fun _ => settles_plain hh hm hc

/-! ## Tables -/

end

theorem le_ite {c : Prop} [Decidable c] {n x y : Int} (hx : n ≤ x) (hy : n ≤ y) :
    n ≤ if c then x else y := by
  split
  · exact hx
  · exact hy

theorem immAluCycles_ge (opcode : U16) : 4 ≤ immAluCycles opcode :=
  le_ite (le_ite (by decide) (by decide)) (le_ite (by decide) (by decide))

theorem aluBaseCycles_ge (dir : Bool) (size : M68kSize) (mode reg : Fin 8) :
    4 ≤ aluBaseCycles dir size mode reg :=
  le_ite (le_ite (le_ite (by decide) (by decide)) (by decide))
    (le_ite (le_ite (by decide) (by decide)) (le_ite (by decide) (by decide)))

theorem addressAluCycles_ge (opmode mode reg : Fin 8) : 4 ≤ addressAluCycles opmode mode reg :=
  le_ite (le_ite (by decide) (by decide)) (by decide)

theorem unaryCycles_ge (opcode : U16) : 4 ≤ unaryCycles opcode :=
  le_ite (le_ite (by decide) (by decide)) (le_ite (by decide) (by decide))

theorem extendedCycles_ge (opmode mode : Fin 8) : 4 ≤ extendedCycles opmode mode :=
  le_ite (le_ite (by decide) (by decide)) (le_ite (by decide) (by decide))

theorem quickCycles_ge (opcode : U16) : 4 ≤ quickCycles opcode := by
  unfold quickCycles
  dsimp only
  split
  · decide
  · exact le_ite (by decide) (by decide)
  · exact le_ite (by decide) (by decide)

theorem cmpCycles_ge (opmode mode : Fin 8) : 4 ≤ cmpCycles opmode mode :=
  le_ite (by decide) (le_ite (le_ite (by decide) (by decide)) (le_ite (by decide) (by decide)))

end M68k
