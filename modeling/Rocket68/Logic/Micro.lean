import Rocket68.Logic.Frame

/-!
# The shape of an instruction

Every handler is a sequence of the operations below, and the order in which it
may use them decides what a fault or a trap leaves behind: an instruction
decodes, resolves and reads its operands, commits, and is finished once an
exception is taken. `Micro g p q m` says that `m` keeps this discipline from
phase `p` to phase `q`; it is proved once per handler, and every statement about
all instructions is an induction over it.

The grade `g` records what a particular instruction may do beyond the common
discipline.
-/

namespace M68k

open Trap TrapM

variable {σ α β : Type}

/-! ## Phases and grades -/

/-- How far an instruction has come. -/
inductive Phase where
  | decode
  | operand
  | commit
  | switched
  | finished
  deriving DecidableEq, Repr

def Phase.rank : Phase → Nat
  | .decode => 0
  | .operand => 1
  | .commit => 2
  | .switched => 3
  | .finished => 4

instance : LE Phase := ⟨fun p q => p.rank ≤ q.rank⟩

instance (p q : Phase) : Decidable (p ≤ q) := inferInstanceAs (Decidable (p.rank ≤ q.rank))

theorem Phase.le_refl (p : Phase) : p ≤ p := Nat.le_refl _

theorem Phase.le_trans {p q r : Phase} (h : p ≤ q) (h' : q ≤ r) : p ≤ r := Nat.le_trans h h'

theorem Phase.eq_of_le {p q : Phase} (h : p ≤ q) (h' : q ≤ p) : p = q := by
  have h₁ : p.rank ≤ q.rank := h
  have h₂ : q.rank ≤ p.rank := h'
  cases p <;> cases q <;> first | rfl | (simp [rank] at h₁ h₂)

theorem Phase.eq_decode {p : Phase} (h : p ≤ .decode) : p = .decode :=
  eq_of_le h (Nat.zero_le _)

/-- The order of the phases, found by instance resolution. -/
class Before (p q : Phase) : Prop where
  le : p ≤ q

instance (p : Phase) : Before p p := ⟨p.le_refl⟩

instance (p : Phase) : Before .decode p := ⟨Nat.zero_le _⟩

instance (p : Phase) : Before p .finished := ⟨by cases p <;> decide⟩

instance : Before .operand .commit := ⟨by decide⟩

instance : Before .operand .switched := ⟨by decide⟩

instance : Before .commit .switched := ⟨by decide⟩

theorem before {p q : Phase} [h : Before p q] : p ≤ q := h.le

/-- The phase after an address register is written. -/
def Phase.touched : Phase → Phase
  | .decode => .operand
  | p => p

theorem Phase.le_touched (p : Phase) : p ≤ p.touched := by
  cases p <;> decide

theorem touched_le {p : Phase} (h : p ≤ .operand) : p.touched ≤ .operand := by
  cases p <;> first | decide | exact h

theorem touched_le_commit {p : Phase} (h : p ≤ .commit) : p.touched ≤ .commit := by
  cases p <;> first | decide | exact h

/-- The phase after the PC is written. -/
def Phase.committed : Phase → Phase
  | .decode | .operand => .commit
  | p => p

theorem Phase.le_committed (p : Phase) : p ≤ p.committed := by
  cases p <;> decide

theorem commit_of_operand {p : Phase} (h : p ≤ .operand) : p ≤ .commit :=
  Phase.le_trans h before

instance (p : Phase) [Before p .operand] : Before p.touched .operand := ⟨touched_le before⟩

instance (p : Phase) [Before p .commit] : Before p.touched .commit := ⟨touched_le_commit before⟩

instance (p : Phase) [Before p .commit] : Before p.touched .switched :=
  ⟨Phase.le_trans (touched_le_commit before) before⟩

/-- What an instruction may do. -/
structure Grade where
  /-- It began in supervisor state. -/
  supervisor : Bool
  /-- Its reads may follow its writes (MOVEM). -/
  interleaved : Bool
  /-- Its encoding may be rejected. -/
  illegal : Bool
  /-- It may trap. -/
  trap : Bool
  /-- It may write the user stack pointer. -/
  usp : Bool
  /-- In user state it may write A7. -/
  stack : Bool
  /-- It may take cycles back (the refunds of MOVE and MOVEM). -/
  refunds : Bool
  /-- It may mark a write with the next prefetch word (MOVE to `-(An)`). -/
  marks : Bool
  /-- It may look at memory it does not access (the next prefetch, a branch target). -/
  peeks : Bool
  /-- Its operand is PC-relative. -/
  relative : Bool
  /-- It is inside the program space bracket. -/
  inside : Bool
  deriving DecidableEq, Repr

/-- The grade of a read of a PC-relative operand. -/
def Grade.bracketed (g : Grade) : Grade := { g with inside := true }

/-- The instruction may write `r`. -/
def Grade.Writes (g : Grade) (r : Fin 8) : Prop := r = 7 → g.supervisor = true ∨ g.stack = true

theorem Grade.writes_supervisor {g : Grade} (h : g.supervisor = true) (r : Fin 8) : g.Writes r :=
  fun _ => .inl h

/-- No program space bracket is open. -/
class Outside (g : Grade) : Prop where
  inside : g.inside = false

/-- Operands are read inside the bracket exactly when they are PC-relative. -/
class Reading (g : Grade) : Prop where
  inside : g.inside = g.relative

/-- The vectors an instruction forces on itself once executed: zero divide, CHK,
TRAPV, format error and TRAP. -/
def TrapVector (v : Nat) : Prop := v = 5 ∨ v = 6 ∨ v = 7 ∨ v = 14 ∨ (32 ≤ v ∧ v ≤ 47)

/-- From `sr` to `sr'` only condition codes change; unused bits are never set. -/
def CcrOnly (sr sr' : U16) : Prop :=
  ∀ i, 5 ≤ i → sr'.getLsbD i = sr.getLsbD i ∨ (i < 8 ∧ sr'.getLsbD i = false)

/-- The phases in which an operand may be read. -/
def ReadPhase (g : Grade) (p : Phase) : Prop :=
  p ≤ .operand ∨ (g.interleaved = true ∧ p ≤ .commit)

/-! ## What a handler reads -/

/-- The registers a handler may look at. -/
structure Regs where
  dRegs : Fin 8 → U32
  aRegs : Fin 8 → U32
  pc : U32
  ppc : U32
  sr : U16
  exceptionThrown : Nat
  model : M68kModel
  usp : U32
  vbr : U32
  sfc : U32
  dfc : U32

def regs (s : M68kCpu σ) : Regs where
  dRegs := s.dRegs
  aRegs := s.aRegs
  pc := s.pc
  ppc := s.ppc
  sr := s.sr
  exceptionThrown := s.exceptionThrown
  model := s.model
  usp := s.usp
  vbr := s.vbr
  sfc := s.sfc
  dfc := s.dfc

/-- `f` looks at the registers only. -/
def Visible (f : M68kCpu σ → α) : Prop := ∀ s t, regs s = regs t → f s = f t

theorem visible_dRegs (r : Fin 8) : Visible fun s : M68kCpu σ => s.dRegs r :=
  fun _ _ h => congrFun (congrArg Regs.dRegs h) r

theorem visible_aRegs (r : Fin 8) : Visible fun s : M68kCpu σ => s.aRegs r :=
  fun _ _ h => congrFun (congrArg Regs.aRegs h) r

theorem visible_pc : Visible (M68kCpu.pc (σ := σ)) := fun _ _ h => congrArg Regs.pc h

theorem visible_ppc : Visible (M68kCpu.ppc (σ := σ)) := fun _ _ h => congrArg Regs.ppc h

theorem visible_sr : Visible (M68kCpu.sr (σ := σ)) := fun _ _ h => congrArg Regs.sr h

theorem visible_model : Visible (M68kCpu.model (σ := σ)) := fun _ _ h => congrArg Regs.model h

theorem visible_usp : Visible (M68kCpu.usp (σ := σ)) := fun _ _ h => congrArg Regs.usp h

theorem visible_exceptionThrown : Visible (M68kCpu.exceptionThrown (σ := σ)) :=
  fun _ _ h => congrArg Regs.exceptionThrown h

theorem visible_readControl (c : ControlReg) : Visible (readControl (σ := σ) c) :=
  fun _ _ h => by
    cases c with
    | sfc => exact congrArg Regs.sfc h
    | dfc => exact congrArg Regs.dfc h
    | usp => exact congrArg Regs.usp h
    | vbr => exact congrArg Regs.vbr h

/-! ## Operations -/

/-- The primitive operations of the handlers, with the phases between which each
may stand. -/
inductive Op (g : Grade) : Phase → Phase → {α : Type} → M σ α → Prop
  | get {p : Phase} {α : Type} {f : M68kCpu σ → α} (hf : Visible f) : Op g p p (gets f)
  | charge {p : Phase} {n : Int} (hn : 0 ≤ n ∨ g.refunds = true) : Op g p p (charge n)
  | latchFaultPc {p : Phase} (hp : p ≤ .commit) (v : U32) : Op g p p (latchFaultPc v)
  | dropBusWord {p : Phase} (hp : p ≤ .commit) : Op g p p dropBusWord
  | dropProgramSpace [Outside g] {p : Phase} (hp : p ≤ .commit) : Op g p p (setProgramSpace false)
  | rewind {p : Phase} (hp : p ≤ .commit) : Op g p p (modify fun s => { s with pc := s.pc - 2 })
  | peekWord (hk : g.peeks = true) {p : Phase} (address : U32) : Op g p p (peekWord address)
  | isUnmappedTarget (hk : g.peeks = true) {p : Phase} (target : U32) :
      Op g p p (isUnmappedTarget target)
  | tasAllowsWrite {p : Phase} (hp : p ≤ .commit) : Op g p p tasAllowsWrite
  | resetHook {p : Phase} (hp : p ≤ .commit) : Op g p p resetHook
  | fetch [Outside g] {p : Phase} (hp : p ≤ .operand) : Op g p p fetch
  | read8 [Reading g] {p : Phase} (hp : ReadPhase g p) (address : U32) : Op g p p (read8 address)
  | read16 [Reading g] {p : Phase} (hp : ReadPhase g p) (address : U32) :
      Op g p p (read16 address)
  | read32 [Reading g] {p : Phase} (hp : ReadPhase g p) (address : U32) :
      Op g p p (read32 address)
  | write8 [Outside g] {p : Phase} (hp : p ≤ .commit) (address : U32) (v : U8) :
      Op g p .commit (write8 address v)
  | write16 [Outside g] {p : Phase} (hp : p ≤ .commit) (address : U32) (v : U16) :
      Op g p .commit (write16 address v)
  | write32 [Outside g] {p : Phase} (hp : p ≤ .commit) (address : U32) (v : U32) :
      Op g p .commit (write32 address v)
  | setA {p : Phase} (hp : p ≤ .commit) {r : Fin 8} (hr : g.Writes r) (v : U32) :
      Op g p p.touched (setA r v)
  | setD {p : Phase} (hp : p ≤ .commit) (r : Fin 8) (v : U32) : Op g p .commit (setD r v)
  | modifySr {p : Phase} (hp : p ≤ .commit) {f : U16 → U16} (hf : ∀ sr, CcrOnly sr (f sr)) :
      Op g p .commit (modifySr f)
  | setPc {p : Phase} (hp : p ≤ .switched) (v : U32) : Op g p p.committed (setPc v)
  | setSr {p : Phase} (hs : g.supervisor = true) (hp : p ≤ .commit) (v : U16) :
      Op g p .switched (setSr v)
  | setUsp {p : Phase} (hs : g.supervisor = true) (hu : g.usp = true) (hp : p ≤ .commit)
      (v : U32) : Op g p .commit (modify fun s => { s with usp := v })
  | writeControl {p : Phase} (hs : g.supervisor = true) (hp : p ≤ .commit) {c : ControlReg}
      (hu : c = .usp → g.usp = true) (v : U32) : Op g p .commit (modify (writeControl c v))
  | stop {p : Phase} (hs : g.supervisor = true) (hp : p ≤ .switched) :
      Op g p .switched (modify fun s => { s with stopped := true })
  | illegal [Outside g] (hi : g.illegal = true) : Op g .decode .finished (exception 4)
  | illegalEa [Outside g] (hi : g.illegal = true) : Op g .decode .decode raiseIllegalEa
  | violation [Outside g] {v : Nat} (hv : v = 8 ∨ v = 10 ∨ v = 11) :
      Op g .decode .finished (exception v)
  | trap [Outside g] {p : Phase} {v : Nat} (ht : g.trap = true) (hv : TrapVector v)
      (hp : p ≤ .commit) : Op g p .finished (exception v)
  | oddTarget [Outside g] {p : Phase} (hp : p ≤ .commit) (target faultPc : U32) :
      Op g p .finished (raiseOddTargetFault target faultPc)
  | busTarget [Outside g] {p : Phase} (hp : p ≤ .commit) (target faultPc : U32) :
      Op g p .finished (raiseBusTargetFault target faultPc)

/-- Programs made of operations in phase order. The two latches that mark what an
access is for are set only around the accesses they mark. -/
inductive Micro : Grade → Phase → Phase → {α : Type} → M σ α → Prop
  | op {g : Grade} {p q : Phase} {α : Type} {m : M σ α} (h : Op g p q m) : Micro g p q m
  | pure {g : Grade} {p : Phase} {α : Type} (a : α) : Micro g p p (pure a)
  | seq {g : Grade} {p q r : Phase} {α β : Type} {m : M σ α} {f : α → M σ β}
      (hm : Micro g p r m) (hf : ∀ a, Micro g r q (f a)) : Micro g p q (m >>= f)
  | weaken {g : Grade} {p p' q q' : Phase} {α : Type} {m : M σ α} (hp : p ≤ p') (hq : q' ≤ q)
      (h : Micro g p' q' m) : Micro g p q m
  | privileged {g : Grade} [Outside g] {q : Phase} {body : M σ Unit}
      (h : g.supervisor = true → Micro g .decode q body) :
      Micro g .decode .finished (privileged body)
  | programSpace {g : Grade} [Outside g] {p q r : Phase} {α β : Type} {body : M σ α}
      {f : α → M σ β} (hrel : g.relative = true) (hp : p ≤ .commit)
      (hr : r ≤ .commit) (hbody : Micro g.bracketed p r body)
      (hf : ∀ a, Micro g r q (f a)) :
      Micro g p q (setProgramSpace true >>= fun _ => body >>= fun a =>
        setProgramSpace false >>= fun _ => f a)
  | busWord {g : Grade} {p q r : Phase} {β : Type} {w : U16} {body : M σ Unit}
      {f : Unit → M σ β} (hm : g.marks = true) (hp : p ≤ .commit) (hr : r ≤ .commit)
      (hbody : Micro g p r body)
      (hf : ∀ a, Micro g r q (f a)) :
      Micro g p q (latchBusWord w >>= fun _ => body >>= fun _ =>
        dropBusWord >>= fun a => f a)

namespace Micro

variable {g : Grade} {p q r : Phase} {m n : M σ α}

/-- An operation, then the rest. -/
theorem step {f : α → M σ β} (h : Op g p r m) (hf : ∀ a, Micro g r q (f a)) :
    Micro g p q (m >>= f) := .seq (.op h) hf

/-- End earlier than required. -/
theorem ending (hq : r ≤ q) (h : Micro g p r m) : Micro g p q m :=
  .weaken (Phase.le_refl p) hq h

theorem upTo [Before r q] (h : Micro g p r m) : Micro g p q m := .ending before h

/-- A last operation. -/
theorem last [Before r q] (h : Op g p r m) : Micro g p q m := .ending before (.op h)

/-- A last value. -/
theorem ret [Before p q] (a : α) : Micro g p q (Pure.pure a : M σ α) := .ending before (.pure a)

/-- In sequence, where the second part relies on what the first returns. -/
theorem seqOf [Inhabited β] {P : α → Prop} {f : α → M σ β} (hm : Micro g p r m)
    (hret : Returns m P) (hr : r ≤ q) (hf : ∀ a, P a → Micro g r q (f a)) :
    Micro g p q (m >>= f) := by
  classical
  have hguarded : m >>= f = m >>= fun a => if P a then f a else Pure.pure default :=
    hret.bind_congr fun a ha => (if_pos ha).symm
  rw [hguarded]
  refine .seq hm fun a => ?_
  split
  · next ha => exact hf a ha
  · exact .ending hr (.pure _)

theorem ite {c : Prop} [Decidable c] (hm : c → Micro g p q m) (hn : ¬c → Micro g p q n) :
    Micro g p q (if c then m else n) := by
  split
  · next h => exact hm h
  · next h => exact hn h

section Getters

variable {f : U32 → M σ β}

theorem getD {r : Fin 8} (h : ∀ v, Micro g p q (f v)) : Micro g p q (M68k.getD r >>= f) :=
  .step (.get (visible_dRegs r)) h

theorem getA {r : Fin 8} (h : ∀ v, Micro g p q (f v)) : Micro g p q (M68k.getA r >>= f) :=
  .step (.get (visible_aRegs r)) h

theorem getPc (h : ∀ v, Micro g p q (f v)) : Micro g p q (M68k.getPc >>= f) :=
  .step (.get visible_pc) h

theorem getPpc (h : ∀ v, Micro g p q (f v)) : Micro g p q (M68k.getPpc >>= f) :=
  .step (.get visible_ppc) h

end Getters

theorem getSr {f : U16 → M σ β} (h : ∀ v, Micro g p q (f v)) :
    Micro g p q (M68k.getSr >>= f) := .step (.get visible_sr) h

theorem getModel {f : M68kModel → M σ β} (h : ∀ v, Micro g p q (f v)) :
    Micro g p q (M68k.getModel >>= f) := .step (.get visible_model) h

theorem charge {n : Int} {f : Unit → M σ β} (hn : 0 ≤ n) (h : ∀ v, Micro g p q (f v)) :
    Micro g p q (M68k.charge n >>= f) := .step (.charge (.inl hn)) h

theorem refund {n : Int} {f : Unit → M σ β} (hr : g.refunds = true)
    (h : ∀ v, Micro g p q (f v)) : Micro g p q (M68k.charge n >>= f) :=
  .step (.charge (.inr hr)) h

end Micro

end M68k
