import Rocket68.Logic.Operand

/-!
# Plans

The plan of an instruction: its operands from left to right, the accesses to each of them,
and the registers it writes besides. All operands are read before any is written. `Effect`
is what a plan predicts of an instruction that no exception cuts short.
-/

namespace M68k

open Trap TrapM

variable {σ : Type} {k : Option (Nat → M68kCpu σ → M68kCpu σ × U32)} {c d e : Core}

/-! ## Data registers -/

/-- The bits of an operand. -/
def M68kSize.bits : M68kSize → Nat
  | .byte => 8
  | .word => 16
  | .long => 32

/-- At most one data register has changed, and in its low `size` only. -/
def Confined (size : M68kSize) (d d' : Fin 8 → U32) : Prop :=
  ∃ r, (∀ q, q ≠ r → d' q = d q) ∧
    ∀ i, size.bits ≤ i → (d' r).getLsbD i = (d r).getLsbD i

theorem Confined.refl (size : M68kSize) (d : Fin 8 → U32) : Confined size d d :=
  ⟨0, fun _ _ => rfl, fun _ _ => rfl⟩

theorem Confined.update {size : M68kSize} {d : Fin 8 → U32} (r : Fin 8) {v : U32}
    (h : ∀ i, size.bits ≤ i → v.getLsbD i = (d r).getLsbD i) :
    Confined size d (Function.update d r v) := by
  refine ⟨r, fun q hq => Function.update_of_ne hq v d, fun i hi => ?_⟩
  rw [Function.update_self]
  exact h i hi

/-- A register has no bits above a long. -/
theorem Confined.update_long (d : Fin 8 → U32) (r : Fin 8) (v : U32) :
    Confined .long d (Function.update d r v) :=
  .update r fun i hi => by
    rw [BitVec.getLsbD_of_ge v i hi, BitVec.getLsbD_of_ge (d r) i hi]

theorem valueMask_bits (size : M68kSize) {i : Nat} (h : size.bits ≤ i) :
    (valueMask size).getLsbD i = false := by
  have hlt : (valueMask size).toNat < 2 ^ size.bits := by cases size <;> decide
  rw [BitVec.getLsbD]
  exact Nat.testBit_lt_two_pow (Nat.lt_of_lt_of_le hlt (Nat.pow_le_pow_right (by decide) h))

theorem mergeSized_bits (size : M68kSize) (old v : U32) {i : Nat} (h : size.bits ≤ i) :
    (mergeSized size old v).getLsbD i = old.getLsbD i := by
  by_cases hi : i < 32
  · rw [mergeSized, BitVec.getLsbD_or, BitVec.getLsbD_and, BitVec.getLsbD_and,
      BitVec.getLsbD_not, valueMask_bits size h]
    simp [hi]
  · rw [BitVec.getLsbD_of_ge _ i (by omega), BitVec.getLsbD_of_ge old i (by omega)]

theorem Confined.merge (size : M68kSize) (d : Fin 8 → U32) (r : Fin 8) (v : U32) :
    Confined size d (Function.update d r (mergeSized size (d r) v)) :=
  .update r fun _ hi => mergeSized_bits size (d r) v hi

/-- The upper bits are kept by a mask. -/
theorem Confined.masked {size : M68kSize} (d : Fin 8 → U32) (r : Fin 8) {keep low : U32}
    (hkeep : ∀ i : Fin 32, size.bits ≤ i → keep.getLsbD i = true)
    (hlow : low.toNat < 2 ^ size.bits) :
    Confined size d (Function.update d r ((d r &&& keep) ||| low)) :=
  .update r fun i hi => by
    have hzero : low.getLsbD i = false :=
      Nat.testBit_lt_two_pow (Nat.lt_of_lt_of_le hlow (Nat.pow_le_pow_right (by decide) hi))
    by_cases h32 : i < 32
    · rw [BitVec.getLsbD_or, BitVec.getLsbD_and, hkeep ⟨i, h32⟩ hi, hzero, Bool.and_true,
        Bool.or_false]
    · rw [BitVec.getLsbD_of_ge _ i (by omega), BitVec.getLsbD_of_ge (d r) i (by omega)]

/-! ## Plans -/

/-- The accesses to an operand: size and distance from the effective address of each. -/
structure Use where
  reads : List (M68kSize × U32) := []
  writes : List (M68kSize × U32) := []

namespace Use

/-- One read of the whole operand. -/
def read (size : M68kSize) : Use := { reads := [(size, 0)] }

/-- One write of the whole operand. -/
def write (size : M68kSize) : Use := { writes := [(size, 0)] }

/-- One read, and one write back. -/
def modify (size : M68kSize) : Use := { reads := [(size, 0)], writes := [(size, 0)] }

end Use

/-- An operand and its use. -/
abbrev Part := Operand × Use

/-- An immediate of the given size, as an operand. -/
def immediate (size : M68kSize) : Part := (⟨7, 4, size⟩, {})

/-- Accesses at distances from `a`, in order of time. -/
def accessesAt (kind : Access) (a : U32) (pieces : List (M68kSize × U32)) :
    List (Access × M68kSize × U32) :=
  pieces.map fun p => (kind, p.1, a + p.2)

namespace Part

/-- The state past an operand, its reads noted. -/
def resolve (p : Part) (c : Core) : Core :=
  { p.1.next c with
    traffic := (if p.1.inMemory then accessesAt .read (p.1.address c) p.2.reads else []).reverse ++
      c.traffic }

/-- The writes to an operand. -/
def stores (p : Part) (c : Core) : List (Access × M68kSize × U32) :=
  if p.1.inMemory then accessesAt .write (p.1.address c) p.2.writes else []

end Part

/-- The state past all operands. -/
def resolveAll : List Part → Core → Core
  | [], c => c
  | p :: rest, c => resolveAll rest (p.resolve c)

/-- The writes to all operands. -/
def storesOf : List Part → Core → List (Access × M68kSize × U32)
  | [], _ => []
  | p :: rest, c => p.stores c ++ storesOf rest (p.resolve c)

/-- What an instruction is expected to do: `size`, if given, bounds the change of the data
registers, `written` holds the address registers it writes besides the steps of its operands, and
`sequential` says that it goes on behind its last extension word. -/
structure Plan where
  parts : List Part
  size : Option M68kSize := some .long
  written : List (Fin 8) := []
  sequential : Bool := true

/-- From `c` to `d` the instruction did what was planned. -/
structure Effect (p : Plan) (c d : Core) : Prop where
  data : ∀ size, p.size = some size → Confined size c.dRegs d.dRegs
  aRegs : ∀ q, q ∉ p.written → d.aRegs q = (resolveAll p.parts c).aRegs q
  pc : p.sequential = true → d.pc = (resolveAll p.parts c).pc
  traffic : d.traffic = (storesOf p.parts c).reverse ++ (resolveAll p.parts c).traffic

/-! ## Steps of a plan -/

/-- A resolved operand is one part of a plan. -/
theorem Located.resolved {o : Operand} {fetchValue : Bool} {ea : Ea}
    (h : Located o fetchValue ea c d) {u : Use}
    (hu : u.reads = if fetchValue then [(o.size, 0)] else []) : d = Part.resolve (o, u) c := by
  rw [h.core]
  cases fetchValue <;> cases hm : o.inMemory <;>
    simp [Part.resolve, accessesAt, Core.seen, hm, hu, Operand.next]

theorem stores_nil {part : Part} (h : part.2.writes = []) (c : Core) : part.stores c = [] := by
  rw [Part.stores, h]
  exact ite_self _

/-- A part that is not written comes first. -/
theorem Effect.after {part : Part} {p : Plan} (hwrites : part.2.writes = [])
    (h : Effect p (part.resolve c) d) : Effect { p with parts := part :: p.parts } c d where
  data := h.data
  aRegs := h.aRegs
  pc := h.pc
  traffic := by
    rw [h.traffic]
    show _ = (part.stores c ++ storesOf p.parts (part.resolve c)).reverse ++ _
    rw [stores_nil hwrites]
    rfl

/-- The only operand was resolved, and what follows stays within the plan. -/
theorem Effect.of_resolved {part : Part} {size : Option M68kSize} {written : List (Fin 8)}
    {sequential : Bool} (hd : d = part.resolve c)
    (hdata : ∀ z, size = some z → Confined z d.dRegs e.dRegs)
    (haRegs : ∀ q, q ∉ written → e.aRegs q = d.aRegs q)
    (hpc : sequential = true → e.pc = d.pc)
    (htraffic : e.traffic = (part.stores c).reverse ++ d.traffic) :
    Effect ⟨[part], size, written, sequential⟩ c e := by
  subst hd
  refine ⟨hdata, haRegs, hpc, ?_⟩
  rw [htraffic]
  show _ = (part.stores c ++ []).reverse ++ _
  rw [List.append_nil]
  rfl

/-- As the resolution routine resolves it. -/
theorem Effect.of_located {o : Operand} {fetchValue : Bool} {ea : Ea} {u : Use}
    {size : Option M68kSize} {written : List (Fin 8)} {sequential : Bool}
    (h : Located o fetchValue ea c d)
    (hu : u.reads = if fetchValue then [(o.size, 0)] else [])
    (hdata : ∀ z, size = some z → Confined z d.dRegs e.dRegs)
    (haRegs : ∀ q, q ∉ written → e.aRegs q = d.aRegs q)
    (hpc : sequential = true → e.pc = d.pc)
    (htraffic : e.traffic = (Part.stores (o, u) c).reverse ++ d.traffic) :
    Effect ⟨[(o, u)], size, written, sequential⟩ c e :=
  .of_resolved (h.resolved hu) hdata haRegs hpc htraffic

/-- Outside memory an operand is not accessed, whatever its use. -/
theorem resolve_register {o : Operand} (h : o.inMemory = false) (u u' : Use) (c : Core) :
    Part.resolve (o, u) c = Part.resolve (o, u') c := by
  simp only [Part.resolve, h, Bool.false_eq_true, if_false]

theorem stores_register {o : Operand} (h : o.inMemory = false) (u : Use) (c : Core) :
    Part.stores (o, u) c = [] := by
  simp only [Part.stores, h, Bool.false_eq_true, if_false]

/-- A read by the handler itself, on top of what the resolution read. -/
theorem Located.reread {o : Operand} {fetchValue : Bool} {ea : Ea} {u : Use}
    (h : Located o fetchValue ea c d) (hmemory : o.inMemory = true)
    (hu : u.reads = (if fetchValue then [(o.size, 0)] else []) ++ [(o.size, 0)]) :
    d.seen .read o.size ea.address = Part.resolve (o, u) c := by
  rw [h.core, h.address hmemory]
  cases fetchValue <;>
    simp [Part.resolve, accessesAt, Core.seen, hmemory, hu, Operand.next]

/-- An instruction without operands. -/
theorem Effect.of_nothing {size : Option M68kSize} {written : List (Fin 8)} {sequential : Bool}
    (hdata : ∀ z, size = some z → Confined z c.dRegs d.dRegs)
    (haRegs : ∀ q, q ∉ written → d.aRegs q = c.aRegs q) (hpc : sequential = true → d.pc = c.pc)
    (htraffic : d.traffic = c.traffic) : Effect ⟨[], size, written, sequential⟩ c d :=
  ⟨hdata, haRegs, hpc, htraffic⟩

/-! ## Plans of programs -/

/-- Without an exception `m` does what is planned for the state it starts in. -/
def Planned (k : Option (Nat → M68kCpu σ → M68kCpu σ × U32)) {α : Type} (m : M σ α)
    (p : Core → Plan) : Prop :=
  Yields k m fun _ c d => Effect (p c) c d

namespace Planned

variable {α : Type} {m n : M σ α} {p q : Core → Plan}

theorem of_throws (h : Throws k m) : Planned k m p := Yields.of_throws h

theorem exception {v : Nat} (hv : v ≠ 0) : Planned k (M68k.exception v : M σ Unit) p :=
  of_throws (exception_throws hv)

/-- A choice of the plan's own. -/
theorem choose {b : Prop} [Decidable b] (hm : b → Planned k m p) (hn : ¬b → Planned k n q) :
    Planned k (if b then m else n) fun c => if b then p c else q c := by
  split
  · next h => exact (hm h).mono fun _ _ _ he => by simpa only [if_pos h] using he
  · next h => exact (hn h).mono fun _ _ _ he => by simpa only [if_neg h] using he

theorem ite {b : Prop} [Decidable b] (hm : b → Planned k m p) (hn : ¬b → Planned k n p) :
    Planned k (if b then m else n) p := Yields.ite hm hn

theorem costed {body : M σ Unit} {n : Int} (h : Planned k body p) :
    Planned k (M68k.costed body n) p := Yields.bind h fun _ => .pure fun _ _ hc => hc

theorem privileged {body : M σ Unit} (h : Planned k body p) : Planned k (M68k.privileged body) p :=
  privileged_yields h

end Planned

end M68k
