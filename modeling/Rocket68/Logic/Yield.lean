import Rocket68.Logic.Frame
import Rocket68.Trap.Simulation

/-!
# Runs without an exception

`Yields k m R`: a run of `m` that ends with no exception thrown began with none, and `R`
relates its value, the state before and the state after. Of a run that meets an exception
nothing is said but that it shows: `exception_thrown` stays set to the end of the step. So
every access may be taken to hit, and what is left of an instruction is its plain effect.
-/

namespace M68k

open Trap TrapM

variable {σ α β : Type} {k : Option (Nat → M68kCpu σ → M68kCpu σ × U32)}

/-! ## Thrown exceptions stay thrown -/

/-- `m` ends with an exception thrown. -/
def Throws (k : Option (Nat → M68kCpu σ → M68kCpu σ × U32)) (m : M σ α) : Prop :=
  ∀ s, (m (ackHost k) s).Ends fun t => t.exceptionThrown ≠ 0

/-- `m` leaves no exception unthrown. -/
def Sticks (k : Option (Nat → M68kCpu σ → M68kCpu σ × U32)) (m : M σ α) : Prop :=
  ∀ s, s.exceptionThrown ≠ 0 → (m (ackHost k) s).Ends fun t => t.exceptionThrown ≠ 0

theorem Throws.bind {m : M σ α} {f : α → M σ β} (hm : Throws k m) (hf : ∀ a, Sticks k (f a)) :
    Throws k (m >>= f) := fun s => ends_bind (hm s) fun a t ht => hf a t ht

/-- What comes before does not matter. -/
theorem Throws.modify {f : M68kCpu σ → M68kCpu σ} {g : Unit → M σ β} (hg : Throws k (g ())) :
    Throws k (TrapM.modify f >>= g) := fun s => hg (f s)

namespace Sticks

variable {m n : M σ α}

theorem pure (a : α) : Sticks k (Pure.pure a : M σ α) := fun _ hs => hs

theorem gets (f : M68kCpu σ → α) : Sticks k (TrapM.gets f) := fun _ hs => hs

theorem escape : Sticks k (TrapM.escape : M σ α) := fun _ hs => hs

theorem modify {f : M68kCpu σ → M68kCpu σ}
    (hf : ∀ s, (f s).exceptionThrown = s.exceptionThrown) : Sticks k (TrapM.modify f) :=
  fun s hs => (hf s).trans_ne hs

theorem seq {f : α → M σ β} (hm : Sticks k m) (hf : ∀ a, Sticks k (f a)) :
    Sticks k (m >>= f) := fun s hs => ends_bind (hm s hs) fun a t ht => hf a t ht

theorem ite {c : Prop} [Decidable c] (hm : c → Sticks k m) (hn : ¬c → Sticks k n) :
    Sticks k (if c then m else n) := by
  split
  · next hc => exact hm hc
  · next hc => exact hn hc

end Sticks

section Raising

variable {raise : Nat → M σ Unit} (hr : ∀ v, v ≠ 0 → Throws k (raise v))

theorem abort_sticks : Sticks k (abortFaultedInstruction : M σ Unit) :=
  .seq (.gets _) fun _ => .ite (fun _ => .escape) fun _ => .pure _

include hr

theorem addressFault_throws (kind : Access) (address : U32) :
    Throws k (addressFault raise kind address) :=
  .modify <| .modify <| .modify <| (hr 3 (by decide)).bind fun _ =>
    .seq (.modify fun _ => rfl) fun _ => abort_sticks

theorem busFault_throws (kind : Access) (address : U32) :
    Throws k (busFault raise kind address) :=
  .modify <| .modify <| .modify <| (hr 2 (by decide)).bind fun _ =>
    .seq (.modify fun _ => rfl) fun _ => abort_sticks

/-- An access leaves what was thrown thrown. -/
theorem flatAccess_sticks (kind : Access) (size : M68kSize) (address : U32)
    {hit miss : M68kCpu σ → M68kCpu σ × α} (dead : α)
    (hhit : ∀ s, (hit s).1.exceptionThrown = s.exceptionThrown)
    (hmiss : ∀ s, (miss s).1.exceptionThrown = s.exceptionThrown) :
    Sticks k (flatAccess raise kind size address hit miss dead) := by
  intro s hs
  rw [flatAccess_run]
  split
  · exact (addressFault_throws hr kind address).bind (fun _ => .pure dead) _
  split
  · exact (hhit _).trans_ne hs
  split
  · exact (busFault_throws hr kind address).bind (fun _ => .pure dead) _
  · exact (hmiss _).trans_ne hs

theorem read32With_sticks (address : U32) : Sticks k (read32With raise address) := fun s hs => by
  rw [read32With_flat]
  exact flatAccess_sticks hr _ _ _ _ (fun _ => rfl) (fun _ => rfl) s hs

theorem write16With_sticks (address : U32) (value : U16) :
    Sticks k (write16With raise address value) := fun s hs => by
  rw [write16With_flat]
  exact flatAccess_sticks hr _ _ _ _ (fun _ => rfl) (fun _ => rfl) s hs

theorem write32With_sticks (address value : U32) :
    Sticks k (write32With raise address value) := fun s hs => by
  rw [write32With_flat]
  exact flatAccess_sticks hr _ _ _ _ (fun _ => rfl) (fun _ => rfl) s hs

theorem push16With_sticks (value : U16) : Sticks k (push16With raise value) :=
  .seq (.gets _) fun _ => .seq (.modify fun _ => rfl) fun _ => .seq (.gets _) fun _ =>
    write16With_sticks hr _ _

theorem push32With_sticks (value : U32) : Sticks k (push32With raise value) :=
  .seq (.gets _) fun _ => .seq (.modify fun _ => rfl) fun _ => .seq (.gets _) fun _ =>
    write32With_sticks hr _ _

theorem pushGroup0Frame_sticks (oldPc : U32) (oldSr : U16) :
    Sticks k (pushGroup0Frame raise oldPc oldSr) :=
  .seq (.gets _) fun _ => .seq (push32With_sticks hr _) fun _ =>
    .seq (push16With_sticks hr _) fun _ => .seq (push16With_sticks hr _) fun _ =>
      .seq (push32With_sticks hr _) fun _ => push16With_sticks hr _

theorem pushFrame_sticks (vector : Nat) (oldPc : U32) (oldSr : U16) :
    Sticks k (pushFrame raise vector oldPc oldSr) := by
  have hrest : Sticks k (push32With raise oldPc >>= fun _ => push16With raise oldSr) :=
    .seq (push32With_sticks hr _) fun _ => push16With_sticks hr _
  exact .seq (.gets _) fun _ => .ite (fun _ => .seq (push16With_sticks hr _) fun _ => hrest)
    fun _ => hrest

end Raising

theorem withSr_thrown (v : U16) (s : M68kCpu σ) :
    (withSr v s).exceptionThrown = s.exceptionThrown := by rw [withSr_eq]

/-- From its entry on an exception is thrown. -/
theorem throws_of_entered {vector : Nat} (hv : vector ≠ 0) {rest : Unit → M σ α}
    (hrest : Sticks k (rest ())) : Throws k (modify (enterException vector) >>= rest) := by
  intro s
  refine hrest (enterException vector s) ?_
  show (if s.exceptionThrown = 0 then vector else s.exceptionThrown) ≠ 0
  split
  · exact hv
  · next hs => exact hs

theorem processException_throws {raise : Nat → M σ Unit} (hr : ∀ v, v ≠ 0 → Throws k (raise v))
    {vector : Nat} (hv : vector ≠ 0) : Throws k (processException raise vector) := by
  have hend : Sticks k (do
      TrapM.modify clearFaultLatches
      let vbr ← TrapM.gets (·.vbr)
      let vectorAddr ← read32With raise (vbr + BitVec.ofNat 32 vector * 4)
      setPc vectorAddr
      TrapM.modify fun s => { s with exceptionDepth := s.exceptionDepth - 1 }) :=
    .seq (.modify fun _ => rfl) fun _ => .seq (.gets _) fun _ =>
      .seq (read32With_sticks hr _) fun _ => .seq (.seq (.modify fun _ => rfl) fun _ => .pure _)
        fun _ => .modify fun _ => rfl
  exact throws_of_entered hv <| .seq (.gets _) fun oldSr => .seq (.gets _) fun oldPc =>
    .seq (.modify (withSr_thrown _)) fun _ => .ite
      (fun _ => .seq (pushGroup0Frame_sticks hr _ _) fun _ => hend)
      fun _ => .seq (pushFrame_sticks hr _ _ _) fun _ => hend

/-- Every exception but vector 0 shows. -/
theorem exceptionAt_throws (n : Nat) : ∀ v, v ≠ 0 → Throws k (exceptionAt n v) := by
  induction n with
  | zero => exact fun _ _ _ => trivial
  | succ n ih =>
    intro v hv s
    have hclaim : illegalClaimed v (ackHost k) s = .ok false s := by
      rw [illegalClaimed, ite_run]
      split <;> rfl
    show ((illegalClaimed v >>= fun claimed =>
      if claimed then pure () else processException (exceptionAt n) v) (ackHost k) s).Ends _
    rw [bind_ok hclaim]
    exact processException_throws ih hv s

theorem exception_throws {v : Nat} (hv : v ≠ 0) : Throws k (exception v) :=
  exceptionAt_throws 3 v hv

/-! ## The judgement -/

/-- The re-entry guards are clear. -/
def unguarded (s : M68kCpu σ) : Bool := !s.inAddressError && !s.inBusError

/-- A data access of an observed event. -/
def Event.data? : Event → Option (Access × M68kSize × U32)
  | .access .read size address => some (.read, size, address)
  | .access .write size address => some (.write, size, address)
  | _ => none

/-- What the plain effect of an instruction is about. `traffic` holds the data accesses of the
step, newest first. -/
@[ext] structure Core where
  dRegs : Fin 8 → U32
  aRegs : Fin 8 → U32
  pc : U32
  sr : U16
  memory : U32 → U8
  usp : U32
  ssp : U32
  model : M68kModel
  traffic : List (Access × M68kSize × U32)

def core (s : M68kCpu σ) : Core where
  dRegs := s.dRegs
  aRegs := s.aRegs
  pc := s.pc
  sr := s.sr
  memory := s.memory
  usp := s.usp
  ssp := s.ssp
  model := s.model
  traffic := s.log.filterMap Event.data?

/-- A run from `s` shows an exception, or is as `R` says. -/
def Plain (R : α → Core → Core → Prop) (s : M68kCpu σ) : Outcome (M68kCpu σ) α → Prop
  | .ok a t => t.exceptionThrown = 0 →
      s.exceptionThrown = 0 ∧ (unguarded s = true → unguarded t = true ∧ R a (core s) (core t))
  | .trap t => t.exceptionThrown ≠ 0
  | .diverge => True

theorem plain_of_thrown {R : α → Core → Core → Prop} {s : M68kCpu σ}
    {o : Outcome (M68kCpu σ) α} (h : o.Ends fun t => t.exceptionThrown ≠ 0) : Plain R s o := by
  cases o with
  | ok a t => exact fun ht => absurd ht h
  | trap t => exact h
  | diverge => trivial

/-- A run of `m` without an exception is as `R` says. -/
def Yields (k : Option (Nat → M68kCpu σ → M68kCpu σ × U32)) (m : M σ α)
    (R : α → Core → Core → Prop) : Prop :=
  ∀ s, Plain R s (m (ackHost k) s)

/-- The fields the judgement itself speaks of. -/
def alarms (s : M68kCpu σ) : Nat × Bool × Bool :=
  (s.exceptionThrown, s.inAddressError, s.inBusError)

theorem unguarded_congr {s t : M68kCpu σ} (h : alarms t = alarms s) :
    unguarded t = unguarded s :=
  congrArg (fun x : Nat × Bool × Bool => !x.2.1 && !x.2.2) h

namespace Yields

variable {m n : M σ α} {R S : α → Core → Core → Prop}

theorem ok (h : Yields k m R) {s t : M68kCpu σ} {a : α} (hm : m (ackHost k) s = .ok a t)
    (ht : t.exceptionThrown = 0) :
    s.exceptionThrown = 0 ∧
      (unguarded s = true → unguarded t = true ∧ R a (core s) (core t)) := by
  have key := h s
  rw [hm] at key
  exact key ht

theorem trap (h : Yields k m R) {s t : M68kCpu σ} (hm : m (ackHost k) s = .trap t) :
    t.exceptionThrown ≠ 0 := by
  have key := h s
  rw [hm] at key
  exact key

/-- From an exact run. -/
theorem of_run {f : M68kCpu σ → α} {g : M68kCpu σ → M68kCpu σ}
    (hm : ∀ s, m (ackHost k) s = .ok (f s) (g s)) (hg : ∀ s, alarms (g s) = alarms s)
    (hR : ∀ s, R (f s) (core s) (core (g s))) : Yields k m R := by
  intro s
  rw [hm]
  intro ht
  have hthrown : (g s).exceptionThrown = s.exceptionThrown := congrArg Prod.fst (hg s)
  exact ⟨hthrown ▸ ht, fun hs => ⟨(unguarded_congr (hg s)).trans hs, hR s⟩⟩

/-- Nothing is asked of a run that throws. -/
theorem of_throws (h : Throws k m) : Yields k m R := fun s => plain_of_thrown (h s)

theorem mono (h : Yields k m S) (hR : ∀ a c d, S a c d → R a c d) : Yields k m R := by
  intro s
  have key := h s
  generalize m (ackHost k) s = o at key ⊢
  cases o with
  | ok a t =>
    intro ht
    obtain ⟨hs, hkey⟩ := key ht
    exact ⟨hs, fun hg => ⟨(hkey hg).1, hR a _ _ (hkey hg).2⟩⟩
  | trap t => exact key
  | diverge => trivial

/-- The rest is run with what the first part yields. -/
theorem bind {f : α → M σ β} {R : β → Core → Core → Prop} (hm : Yields k m S)
    (hf : ∀ a, Yields k (f a) fun b d e => ∀ c, S a c d → R b c e) : Yields k (m >>= f) R := by
  intro s
  cases hrun : m (ackHost k) s with
  | ok a t =>
    rw [bind_ok hrun]
    have hrest := hf a t
    generalize f a (ackHost k) t = o at hrest ⊢
    cases o with
    | ok b u =>
      intro hu
      obtain ⟨ht, hrest⟩ := hrest hu
      obtain ⟨hs, hfirst⟩ := hm.ok hrun ht
      exact ⟨hs, fun hg => ⟨(hrest (hfirst hg).1).1,
        (hrest (hfirst hg).1).2 _ (hfirst hg).2⟩⟩
    | trap u => exact hrest
    | diverge => trivial
  | trap t =>
    rw [bind_trap hrun]
    exact hm.trap hrun
  | diverge =>
    rw [bind_diverge hrun]
    trivial

theorem pure {a : α} (hR : ∀ c, R a c c) : Yields k (Pure.pure a : M σ α) R :=
  of_run (f := fun _ => a) (g := id) (fun _ => rfl) (fun _ => rfl) fun s => hR (core s)

/-- A look at the state that the rest may rely on. -/
theorem gets {f : M68kCpu σ → α} {p : Core → α} {g : α → M σ β} {R : β → Core → Core → Prop}
    (hf : ∀ s, f s = p (core s)) (hg : ∀ a, Yields k (g a) fun b c d => p c = a → R b c d) :
    Yields k (TrapM.gets f >>= g) R :=
  .bind (S := fun a c d => d = c ∧ p c = a)
    (of_run (f := f) (g := id) (fun _ => rfl) (fun _ => rfl) fun s => ⟨rfl, (hf s).symm⟩)
    fun a => (hg a).mono fun _ _ _ h c hc => by
      obtain ⟨rfl, ha⟩ := hc
      exact h ha

/-- A look at the state whose outcome does not matter. -/
theorem look {f : M68kCpu σ → α} {g : α → M σ β} {R : β → Core → Core → Prop}
    (hg : ∀ a, Yields k (g a) R) : Yields k (TrapM.gets f >>= g) R :=
  .bind (S := fun _ c d => d = c)
    (of_run (f := f) (g := id) (fun _ => rfl) (fun _ => rfl) fun _ => rfl)
    fun a => (hg a).mono fun _ _ _ h c hc => by
      subst hc
      exact h

theorem modify {f : M68kCpu σ → M68kCpu σ} {p : Core → Core} {R : Unit → Core → Core → Prop}
    (ha : ∀ s, alarms (f s) = alarms s) (hf : ∀ s, core (f s) = p (core s))
    (hR : ∀ c, R () c (p c)) : Yields k (TrapM.modify f) R :=
  of_run (f := fun _ => ()) (g := f) (fun _ => rfl) ha fun s => (hf s).symm ▸ hR (core s)

/-- An update, then the rest. -/
theorem update {f : M68kCpu σ → M68kCpu σ} {p : Core → Core} {g : Unit → M σ β}
    {R : β → Core → Core → Prop} (ha : ∀ s, alarms (f s) = alarms s)
    (hf : ∀ s, core (f s) = p (core s))
    (hg : Yields k (g ()) fun b d e => ∀ c, p c = d → R b c e) :
    Yields k (TrapM.modify f >>= g) R :=
  .bind (S := fun _ c d => p c = d) (.modify ha hf fun _ => rfl) fun _ => hg

/-- An update of latches or counters, then the rest. -/
theorem skip {f : M68kCpu σ → M68kCpu σ} {g : Unit → M σ β} {R : β → Core → Core → Prop}
    (ha : ∀ s, alarms (f s) = alarms s) (hf : ∀ s, core (f s) = core s)
    (hg : Yields k (g ()) R) : Yields k (TrapM.modify f >>= g) R :=
  .update (p := id) ha hf (hg.mono fun _ _ _ h c hc => by
    subst hc
    exact h)

theorem ite {c : Prop} [Decidable c] (hm : c → Yields k m R) (hn : ¬c → Yields k n R) :
    Yields k (if c then m else n) R := by
  split
  · next hc => exact hm hc
  · next hc => exact hn hc

theorem getD {r : Fin 8} {f : U32 → M σ β} {R : β → Core → Core → Prop}
    (hf : ∀ v, Yields k (f v) fun b c d => c.dRegs r = v → R b c d) :
    Yields k (M68k.getD r >>= f) R := .gets (p := fun c => c.dRegs r) (fun _ => rfl) hf

theorem getA {r : Fin 8} {f : U32 → M σ β} {R : β → Core → Core → Prop}
    (hf : ∀ v, Yields k (f v) fun b c d => c.aRegs r = v → R b c d) :
    Yields k (M68k.getA r >>= f) R := .gets (p := fun c => c.aRegs r) (fun _ => rfl) hf

theorem getPc {f : U32 → M σ β} {R : β → Core → Core → Prop}
    (hf : ∀ v, Yields k (f v) fun b c d => c.pc = v → R b c d) :
    Yields k (M68k.getPc >>= f) R := .gets (p := Core.pc) (fun _ => rfl) hf

theorem getSr {f : U16 → M σ β} {R : β → Core → Core → Prop}
    (hf : ∀ v, Yields k (f v) fun b c d => c.sr = v → R b c d) :
    Yields k (M68k.getSr >>= f) R := .gets (p := Core.sr) (fun _ => rfl) hf

theorem setD {r : Fin 8} {v : U32} {R : Unit → Core → Core → Prop}
    (hR : ∀ c, R () c { c with dRegs := Function.update c.dRegs r v }) :
    Yields k (M68k.setD r v : M σ Unit) R :=
  .modify (p := fun c => { c with dRegs := Function.update c.dRegs r v }) (fun _ => rfl)
    (fun _ => rfl) hR

theorem setA {r : Fin 8} {v : U32} {R : Unit → Core → Core → Prop}
    (hR : ∀ c, R () c { c with aRegs := Function.update c.aRegs r v }) :
    Yields k (M68k.setA r v : M σ Unit) R :=
  .modify (p := fun c => { c with aRegs := Function.update c.aRegs r v }) (fun _ => rfl)
    (fun _ => rfl) hR

/-- A register is assigned, then the rest. -/
theorem assignD {r : Fin 8} {v : U32} {g : Unit → M σ β} {R : β → Core → Core → Prop}
    (hg : Yields k (g ()) fun b d e =>
      ∀ c, ({ c with dRegs := Function.update c.dRegs r v } : Core) = d → R b c e) :
    Yields k (M68k.setD r v >>= g) R :=
  .update (p := fun c => { c with dRegs := Function.update c.dRegs r v }) (fun _ => rfl)
    (fun _ => rfl) hg

theorem assignA {r : Fin 8} {v : U32} {g : Unit → M σ β} {R : β → Core → Core → Prop}
    (hg : Yields k (g ()) fun b d e =>
      ∀ c, ({ c with aRegs := Function.update c.aRegs r v } : Core) = d → R b c e) :
    Yields k (M68k.setA r v >>= g) R :=
  .update (p := fun c => { c with aRegs := Function.update c.aRegs r v }) (fun _ => rfl)
    (fun _ => rfl) hg

theorem assignSr {f : U16 → U16} {g : Unit → M σ β} {R : β → Core → Core → Prop}
    (hg : Yields k (g ()) fun b d e => ∀ c, ({ c with sr := f c.sr } : Core) = d → R b c e) :
    Yields k (M68k.modifySr f >>= g) R :=
  .update (p := fun c => { c with sr := f c.sr }) (fun _ => rfl) (fun _ => rfl) hg

theorem modifySr {f : U16 → U16} {R : Unit → Core → Core → Prop}
    (hR : ∀ c, R () c { c with sr := f c.sr }) : Yields k (M68k.modifySr f : M σ Unit) R :=
  .modify (p := fun c => { c with sr := f c.sr }) (fun _ => rfl) (fun _ => rfl) hR

theorem charge {n : Int} {R : Unit → Core → Core → Prop} (hR : ∀ c, R () c c) :
    Yields k (M68k.charge n : M σ Unit) R :=
  .modify (p := id) (fun _ => rfl) (fun _ => rfl) hR

end Yields

/-! ## Accesses -/

/-- The core after a data access. -/
def Core.seen (kind : Access) (size : M68kSize) (address : U32) (c : Core) : Core :=
  { c with traffic := (kind, size, address) :: c.traffic }

/-- An access without a fault is a hit. -/
theorem flatAccess_yields {kind : Access} {size : M68kSize} {address : U32}
    {hit miss : M68kCpu σ → M68kCpu σ × α} {dead : α} {f : Core → α} {g : Core → Core}
    (hhit : ∀ s, alarms (hit s).1 = alarms s) (hmiss : ∀ s, alarms (miss s).1 = alarms s)
    (hvalue : ∀ s, (hit (s.noted (.access kind size address))).2 = f (core s))
    (hcore : ∀ s, core (hit (s.noted (.access kind size address))).1 = g (core s)) :
    Yields k (flatAccess exception kind size address hit miss dead) fun a c d =>
      a = f c ∧ d = g c := by
  have hthrows : ∀ v, v ≠ 0 → Throws k (exception (σ := σ) v) := fun _ => exception_throws
  intro s
  rw [flatAccess_run]
  by_cases hodd : (misaligned size address && !s.inAddressError) = true
  · rw [if_pos hodd]
    exact plain_of_thrown ((addressFault_throws hthrows kind address).bind (fun _ => .pure dead) _)
  rw [if_neg hodd]
  by_cases hmapped : mapped s size address = true
  · rw [if_pos hmapped]
    intro ht
    have halarms := hhit (s.noted (.access kind size address))
    have hthrown := congrArg Prod.fst halarms
    exact ⟨hthrown.symm.trans ht, fun hs =>
      ⟨(unguarded_congr halarms).trans hs, hvalue s, hcore s⟩⟩
  rw [if_neg hmapped]
  by_cases hbus : (!s.inBusError) = true
  · rw [if_pos hbus]
    exact plain_of_thrown ((busFault_throws hthrows kind address).bind (fun _ => .pure dead) _)
  · rw [if_neg hbus]
    intro ht
    have hthrown := congrArg Prod.fst (hmiss (s.noted (.access kind size address)))
    refine ⟨hthrown.symm.trans ht, fun hs => ?_⟩
    simp only [unguarded, Bool.and_eq_true] at hs
    exact absurd hs.2 hbus

theorem read8_yields (address : U32) : Yields k (read8 address : M σ U8) fun a c d =>
    a = c.memory (maskAddress24 address) ∧ d = c.seen .read .byte address := fun s => by
  rw [read8, read8With_flat]
  exact flatAccess_yields (g := Core.seen .read .byte address) (fun _ => rfl) (fun _ => rfl)
    (fun _ => rfl) (fun _ => rfl) s

theorem read16_yields (address : U32) : Yields k (read16 address : M σ U16) fun a c d =>
    a = wordAt c.memory (maskAddress24 address) ∧ d = c.seen .read .word address := fun s => by
  rw [read16, read16With_flat]
  exact flatAccess_yields (g := Core.seen .read .word address) (fun _ => rfl) (fun _ => rfl)
    (fun _ => rfl) (fun _ => rfl) s

theorem read32_yields (address : U32) : Yields k (read32 address : M σ U32) fun a c d =>
    a = longAt c.memory (maskAddress24 address) ∧ d = c.seen .read .long address := fun s => by
  rw [read32, read32With_flat]
  exact flatAccess_yields (g := Core.seen .read .long address) (fun _ => rfl) (fun _ => rfl)
    (fun _ => rfl) (fun _ => rfl) s

theorem readSize_yields (address : U32) (size : M68kSize) :
    Yields k (readSize address size : M σ U32) fun a c d =>
      a = loadSized size c.memory (maskAddress24 address) ∧ d = c.seen .read size address := by
  cases size with
  | byte =>
    refine .bind (read8_yields address) fun v => .pure fun d c hc => ?_
    exact ⟨congrArg (BitVec.setWidth 32) hc.1, hc.2⟩
  | word =>
    refine .bind (read16_yields address) fun v => .pure fun d c hc => ?_
    exact ⟨congrArg (BitVec.setWidth 32) hc.1, hc.2⟩
  | long => exact read32_yields address

/-- The core after a write. -/
def Core.stored (size : M68kSize) (address value : U32) (c : Core) : Core :=
  { c.seen .write size address with
    memory := storeSized size c.memory (maskAddress24 address) value }

namespace Core

variable (size : M68kSize) (address value : U32) (c : Core)

@[simp] theorem stored_dRegs : (c.stored size address value).dRegs = c.dRegs := rfl

@[simp] theorem stored_aRegs : (c.stored size address value).aRegs = c.aRegs := rfl

@[simp] theorem stored_pc : (c.stored size address value).pc = c.pc := rfl

@[simp] theorem stored_traffic :
    (c.stored size address value).traffic = (.write, size, address) :: c.traffic := rfl

end Core

theorem write8_yields (address : U32) (value : U8) :
    Yields k (write8 address value : M σ Unit) fun _ c d =>
      d = c.stored .byte address (value.setWidth 32) := fun s => by
  have hbyte : (value.setWidth 32).setWidth 8 = value := by simp
  rw [write8, write8With_flat]
  refine Yields.mono (flatAccess_yields (f := fun _ => ())
    (g := Core.stored .byte address (value.setWidth 32)) (fun _ => rfl) (fun _ => rfl)
    (fun _ => rfl) fun s => ?_) (fun _ _ _ h => h.2) s
  rw [Core.stored, storeSized, hbyte]
  rfl

theorem write16_yields (address : U32) (value : U16) :
    Yields k (write16 address value : M σ Unit) fun _ c d =>
      d = c.stored .word address (value.setWidth 32) := fun s => by
  have hword : (value.setWidth 32).setWidth 16 = value := by simp
  rw [write16, write16With_flat]
  refine Yields.mono (flatAccess_yields (f := fun _ => ())
    (g := Core.stored .word address (value.setWidth 32)) (fun _ => rfl) (fun _ => rfl)
    (fun _ => rfl) fun s => ?_) (fun _ _ _ h => h.2) s
  rw [Core.stored, storeSized, hword]
  rfl

theorem write32_yields (address value : U32) :
    Yields k (write32 address value : M σ Unit) fun _ c d =>
      d = c.stored .long address value := fun s => by
  rw [write32, write32With_flat]
  exact Yields.mono (flatAccess_yields (f := fun _ => ()) (g := Core.stored .long address value)
    (fun _ => rfl) (fun _ => rfl) (fun _ => rfl) fun _ => rfl) (fun _ _ _ h => h.2) s

theorem writeSize_yields (address value : U32) (size : M68kSize) :
    Yields k (writeSize address value size : M σ Unit) fun _ c d =>
      d = c.stored size address value := by
  cases size with
  | byte =>
    refine (write8_yields address _).mono fun _ c d h => ?_
    rw [h, Core.stored, Core.stored, storeSized, storeSized]
    simp only [BitVec.setWidth_setWidth_of_le _ (by decide : 8 ≤ 32), BitVec.setWidth_eq]
  | word =>
    refine (write16_yields address _).mono fun _ c d h => ?_
    rw [h, Core.stored, Core.stored, storeSized, storeSized]
    simp only [BitVec.setWidth_setWidth_of_le _ (by decide : 16 ≤ 32), BitVec.setWidth_eq]
  | long => exact write32_yields address value

/-- The word the PC points to. -/
def Core.word (c : Core) : U16 := wordAt c.memory (maskAddress24 c.pc)

theorem fetch_yields : Yields k (fetch : M σ U16) fun a c d =>
    a = c.word ∧ d = { c with pc := c.pc + 2 } := fun s => by
  rw [fetch_flat]
  exact flatAccess_yields
    (f := fun c => wordAt c.memory (maskAddress24 s.pc))
    (g := fun c => { c with pc := c.pc + 2 }) (fun _ => rfl) (fun _ => rfl) (fun _ => rfl)
    (fun _ => rfl) s

theorem push32_yields (value : U32) : Yields k (push32 value : M σ Unit) fun _ c d =>
    d = ({ c with aRegs := Function.update c.aRegs 7 (c.aRegs 7 - 4) } : Core).stored .long
      (c.aRegs 7 - 4) value := by
  refine .getA fun sp => .assignA <| .getA fun a => ?_
  refine (write32_yields a value).mono fun _ c d h ha c' hc hsp => ?_
  subst hc hsp
  rw [h, ← ha]
  simp only [Function.update_self]

theorem pop32_yields : Yields k (pop32 : M σ U32) fun a c d =>
    a = longAt c.memory (maskAddress24 (c.aRegs 7)) ∧
      d = { c.seen .read .long (c.aRegs 7) with
        aRegs := Function.update c.aRegs 7 (c.aRegs 7 + 4) } := by
  refine .getA fun sp => .bind (read32_yields sp) fun v => .getA fun a => .assignA <| .pure ?_
  rintro _ c rfl rfl d ⟨rfl, rfl⟩ rfl
  exact ⟨rfl, rfl⟩

theorem pop16_yields : Yields k (pop16 : M σ U16) fun a c d =>
    a = wordAt c.memory (maskAddress24 (c.aRegs 7)) ∧
      d = { c.seen .read .word (c.aRegs 7) with
        aRegs := Function.update c.aRegs 7 (c.aRegs 7 + 2) } := by
  refine .getA fun sp => .bind (read16_yields sp) fun v => .getA fun a => .assignA <| .pure ?_
  rintro _ c rfl rfl d ⟨rfl, rfl⟩ rfl
  exact ⟨rfl, rfl⟩

theorem setPc_yields (pc : U32) : Yields k (setPc pc : M σ Unit) fun _ c d =>
    d = { c with pc := pc } :=
  .of_run (f := fun _ => ()) (g := fun s => { s with pc := pc }) (fun _ => rfl) (fun _ => rfl)
    fun _ => rfl

theorem peekWord_yields (address : U32) : Yields k (peekWord address : M σ U16) fun _ c d =>
    d = c :=
  .of_run (f := fun s =>
    if maskAddress24 address + 1 < s.memorySize then wordAt s.memory (maskAddress24 address) else 0)
    (g := id) (fun s => by
      show (if maskAddress24 address + 1 < s.memorySize then _ else _ : M σ U16) _ s = _
      rw [ite_run]
      split <;> rfl) (fun _ => rfl) fun _ => rfl

theorem isUnmappedTarget_yields (target : U32) :
    Yields k (isUnmappedTarget target : M σ Bool) fun _ c d => d = c :=
  .of_run (f := fun s => !isValidAddress s (maskAddress24 target) ||
    !isValidAddress s (maskAddress24 target + 1)) (g := id) (fun _ => rfl) (fun _ => rfl)
    fun _ => rfl

theorem tasAllowsWrite_yields : Yields k (tasAllowsWrite : M σ Bool) fun a c d =>
    a = true ∧ d = c :=
  .of_run (f := fun _ => true) (g := id) (fun _ => rfl) (fun _ => rfl) fun _ => ⟨rfl, rfl⟩

theorem resetHook_yields : Yields k (resetHook : M σ Unit) fun _ c d => d = c :=
  .of_run (f := fun _ => ()) (g := id) (fun _ => rfl) (fun _ => rfl) fun _ => rfl

/-! ## The status register -/

namespace Core

/-- The stack pointers, wherever they are banked. -/
def userSp (c : Core) : U32 := if c.sr &&& srS != 0 then c.usp else c.aRegs 7
def supervisorSp (c : Core) : U32 := if c.sr &&& srS != 0 then c.aRegs 7 else c.ssp

/-- Loading the status register banks A7. -/
def loadSr (v : U16) (c : Core) : Core :=
  let supervisor := v &&& srMask &&& srS != 0
  { c with
    sr := v &&& srMask
    usp := if supervisor then c.userSp else c.usp
    ssp := if supervisor then c.ssp else c.supervisorSp
    aRegs := Function.update c.aRegs 7 (if supervisor then c.supervisorSp else c.userSp) }

/-- The other address registers are not banked. -/
theorem loadSr_aRegs (v : U16) (c : Core) {q : Fin 8} (hq : q ≠ 7) :
    (c.loadSr v).aRegs q = c.aRegs q := Function.update_of_ne hq _ _

end Core

theorem setSr_yields (v : U16) : Yields k (setSr v : M σ Unit) fun _ c d => d = c.loadSr v :=
  .modify (p := Core.loadSr v) (fun s => by rw [withSr_eq]; rfl) (fun s => by rw [withSr_eq]; rfl)
    fun _ => rfl

/-! ## Exceptions an instruction raises -/

theorem raiseIllegalEa_throws : Throws k (raiseIllegalEa : M σ Unit) :=
  (exception_throws (by decide)).bind fun _ =>
    .seq (.gets _) fun _ => .ite (fun _ => .escape) fun _ => .pure _

theorem raiseOddTargetFault_throws (target faultPc : U32) :
    Throws k (raiseOddTargetFault target faultPc : M σ Unit) :=
  .modify <| .modify <| .modify <| .modify <| (exception_throws (by decide)).bind fun _ =>
    .modify fun _ => rfl

theorem raiseBusTargetFault_throws (target faultPc : U32) :
    Throws k (raiseBusTargetFault target faultPc : M σ Unit) :=
  .modify <| .modify <| .modify <| .modify <| (exception_throws (by decide)).bind fun _ =>
    .modify fun _ => rfl

theorem privilegeViolation_throws : Throws k (privilegeViolation : M σ Unit) :=
  .modify (exception_throws (by decide))

theorem privileged_yields {body : M σ Unit} {R : Unit → Core → Core → Prop}
    (h : Yields k body R) : Yields k (privileged body) R :=
  .look fun _ => .ite (fun _ => .of_throws privilegeViolation_throws) fun _ => h

end M68k
