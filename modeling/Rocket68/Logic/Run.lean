import Rocket68.Logic.Dispatch

/-!
# Instructions as runs

`Trans` is the abstract machine behind the handlers: what one operation may do
to the context, by phase. `Micro.run` refines it: under a host without bus
callbacks a disciplined program either returns through a `Run` of transitions,
or is unwound by an `Abort` from a state such a run reaches.
-/

namespace M68k

open Trap TrapM

variable {σ α β : Type}

/-! ## States of a running instruction -/

/-- The fault trap is armed and nothing has gone wrong yet. -/
structure Running (s : M68kCpu σ) : Prop where
  trapActive : s.faultTrapActive = true
  depth : s.exceptionDepth = 0
  addressGuard : s.inAddressError = false
  busGuard : s.inBusError = false
  group0 : s.group0Fault = false
  thrown : s.exceptionThrown = 0

/-- The vector of an access that is not accessible. -/
def faultVector (size : M68kSize) (address : U32) : Nat := if misaligned size address then 3 else 2

/-- After `cycles_remaining -= n`. -/
def charged (n : Int) (s : M68kCpu σ) : M68kCpu σ :=
  { s with cyclesRemaining := s.cyclesRemaining - n }

/-- The latches of a target prefetch that faults. -/
def captureTarget (target faultPc : U32) (s : M68kCpu σ) : M68kCpu σ :=
  { captureAccessFault target false true (charged 50 s) with
    faultPc := faultPc
    faultPcValid := true }

/-- The state from which a target prefetch raises exception `v`. -/
def targetFaulting (v : Nat) (target faultPc : U32) (s : M68kCpu σ) : M68kCpu σ :=
  holdGuard v true (captureTarget target faultPc s)

/-- The state from which a faulting access raises its exception. -/
def faulting (kind : Access) (size : M68kSize) (address : U32) (s : M68kCpu σ) : M68kCpu σ :=
  holdGuard (faultVector size address) true
    (captureFault kind address (s.noted (.access kind size address)))

@[simp] theorem targetFaulting_log (v : Nat) (target faultPc : U32) (s : M68kCpu σ) :
    (targetFaulting v target faultPc s).log = s.log := holdGuard_log _ _ _

@[simp] theorem faulting_log (kind : Access) (size : M68kSize) (address : U32) (s : M68kCpu σ) :
    (faulting kind size address s).log =
      .fault kind address :: .access kind size address :: s.log := holdGuard_log _ _ _

/-- `t` differs from `s` in latches only. -/
def Latched (s t : M68kCpu σ) : Prop :=
  t = { s with
    faultPc := t.faultPc
    faultPcValid := t.faultPcValid
    faultBusWord := t.faultBusWord
    faultBusWordValid := t.faultBusWordValid
    operandProgramSpace := t.operandProgramSpace }

/-- A marker latch set in `t` was set in `s`. -/
structure Unmarked (s t : M68kCpu σ) : Prop where
  busWord : t.faultBusWordValid = true → s.faultBusWordValid = true
  programSpace : t.operandProgramSpace = true → s.operandProgramSpace = true

theorem Unmarked.refl (s : M68kCpu σ) : Unmarked s s := ⟨id, id⟩

theorem Unmarked.trans {s t u : M68kCpu σ} (h : Unmarked s t) (h' : Unmarked t u) :
    Unmarked s u := ⟨h.busWord ∘ h'.busWord, h.programSpace ∘ h'.programSpace⟩

theorem unmarked_of_clear {s t : M68kCpu σ} (h : latchesClear t) : Unmarked s t := by
  obtain ⟨-, -, -, hw, hp⟩ := h
  constructor
  · intro ht
    rw [hw] at ht
    cases ht
  · intro ht
    rw [hp] at ht
    cases ht

section

variable (k : Option (Nat → M68kCpu σ → M68kCpu σ × U32)) (g : Grade)

/-- One operation of an instruction. -/
inductive Trans : Phase → Phase → M68kCpu σ → M68kCpu σ → Prop
  | charge {p : Phase} {s : M68kCpu σ} {n : Int} (hn : 0 ≤ n ∨ g.refunds = true) :
      Trans p p s (charged n s)
  | latch {p : Phase} {s t : M68kCpu σ} (hp : p ≤ .commit) (h : Latched s t) : Trans p p s t
  | rewind {p : Phase} {s : M68kCpu σ} (hp : p ≤ .commit) : Trans p p s { s with pc := s.pc - 2 }
  | fetch {p : Phase} {s : M68kCpu σ} (hp : p ≤ .operand) (hacc : accessible s .word s.pc = true) :
      Trans p p s { s.noted (.access .fetch .word s.pc) with pc := s.pc + 2 }
  | read {p : Phase} {s : M68kCpu σ} (hp : ReadPhase g p) {size : M68kSize} {address : U32}
      (hacc : accessible s size address = true) :
      Trans p p s (s.noted (.access .read size address))
  | setA {p : Phase} {s : M68kCpu σ} (hp : p ≤ .commit) {r : Fin 8} (hr : g.Writes r) (v : U32) :
      Trans p p.touched s { s with aRegs := Function.update s.aRegs r v }
  | setD {p : Phase} {s : M68kCpu σ} (hp : p ≤ .commit) (r : Fin 8) (v : U32) :
      Trans p .commit s { s with dRegs := Function.update s.dRegs r v }
  | ccr {p : Phase} {s : M68kCpu σ} (hp : p ≤ .commit) {sr : U16} (h : CcrOnly s.sr sr) :
      Trans p .commit s { s with sr := sr }
  | write {p : Phase} {s : M68kCpu σ} (hp : p ≤ .commit) {size : M68kSize} {address : U32}
      (value : U32) (hacc : accessible s size address = true) :
      Trans p .commit s { s.noted (.access .write size address) with
        memory := storeSized size s.memory (maskAddress24 address) value }
  | jump {p : Phase} {s : M68kCpu σ} (hp : p ≤ .switched) (v : U32) :
      Trans p p.committed s { s with pc := v }
  | setSr {p : Phase} {s : M68kCpu σ} (hs : g.supervisor = true) (hp : p ≤ .commit) (v : U16) :
      Trans p .switched s (withSr v s)
  | setUsp {p : Phase} {s : M68kCpu σ} (hs : g.supervisor = true) (hu : g.usp = true)
      (hp : p ≤ .commit) (v : U32) : Trans p .commit s { s with usp := v }
  | control {p : Phase} {s : M68kCpu σ} (hs : g.supervisor = true) (hp : p ≤ .commit)
      {c : ControlReg} (hu : c = .usp → g.usp = true) (v : U32) :
      Trans p .commit s (writeControl c v s)
  | stop {p : Phase} {s : M68kCpu σ} (hs : g.supervisor = true) (hp : p ≤ .switched) :
      Trans p .switched s { s with stopped := true }
  | raised {s t : M68kCpu σ} {v : Nat} (hv : v = 8 ∨ v = 10 ∨ v = 11 ∨ (v = 4 ∧ g.illegal = true))
      (h : exception v (ackHost k) s = .ok () t) : Trans .decode .finished s t
  | trapped {p : Phase} {s t : M68kCpu σ} {v : Nat} (ht : g.trap = true) (hv : TrapVector v)
      (hp : p ≤ .commit) (h : exception v (ackHost k) s = .ok () t) : Trans p .finished s t
  | targetFault {p : Phase} {s t : M68kCpu σ} {v : Nat} (hv : v = 2 ∨ v = 3) (hp : p ≤ .commit)
      (target faultPc : U32)
      (h : exception v (ackHost k) (targetFaulting v target faultPc s) = .ok () t) :
      Trans p .finished s (holdGuard v false t)

/-- The unwinding of an instruction by a fault or by an invalid effective
address. -/
inductive Abort : Phase → M68kCpu σ → M68kCpu σ → Prop
  | fault {p : Phase} {s t : M68kCpu σ} {kind : Access} {size : M68kSize} {address : U32}
      (hp : p ≤ .commit) (hread : kind ≠ .write → ReadPhase g p)
      (hacc : accessible s size address = false)
      (h : exception (faultVector size address) (ackHost k) (faulting kind size address s) =
        .ok () t) : Abort p s (holdGuard (faultVector size address) false t)
  | illegalEa {s t : M68kCpu σ} (hi : g.illegal = true)
      (h : exception 4 (ackHost k) s = .ok () t) : Abort .decode s t

/-- A sequence of transitions. -/
inductive Run : Phase → Phase → M68kCpu σ → M68kCpu σ → Prop
  | refl {p : Phase} {s : M68kCpu σ} : Run p p s s
  | skip {p p' q : Phase} {s t : M68kCpu σ} (hp : p ≤ p') (h : Run p' q s t) : Run p q s t
  | step {p r q : Phase} {s t u : M68kCpu σ} (h : Trans k g p r s t) (h' : Run r q t u) :
      Run p q s u

end

variable {k : Option (Nat → M68kCpu σ → M68kCpu σ × U32)} {g : Grade} {p q r : Phase}
  {s t u : M68kCpu σ}

theorem Trans.le (h : Trans k g p q s t) : p ≤ q := by
  cases h with
  | setA => exact p.le_touched
  | charge | latch | rewind | fetch | read => exact p.le_refl
  | jump => exact p.le_committed
  | setSr _ hp => exact Phase.le_trans hp before
  | setD hp | ccr hp | write hp | setUsp _ _ hp | control _ hp | stop _ hp => exact hp
  | raised => decide
  | trapped _ _ hp | targetFault _ hp => exact Phase.le_trans hp before

theorem Run.le (h : Run k g p q s t) : p ≤ q := by
  induction h with
  | refl => exact Phase.le_refl _
  | skip hp _ ih => exact Phase.le_trans hp ih
  | step h _ ih => exact Phase.le_trans h.le ih

theorem Trans.run (h : Trans k g p q s t) : Run k g p q s t := .step h .refl

theorem Run.trans (h : Run k g p r s t) (h' : Run k g r q t u) : Run k g p q s u := by
  induction h with
  | refl => exact h'
  | skip hp _ ih => exact .skip hp (ih h')
  | step ht _ ih => exact .step ht (ih h')

/-- The bracket matters to the discipline only. -/
theorem Trans.unbracketed (h : Trans k g.bracketed p q s t) : Trans k g p q s t := by
  cases h with
  | charge hn => exact .charge hn
  | latch hp h => exact .latch hp h
  | rewind hp => exact .rewind hp
  | fetch hp hacc => exact .fetch hp hacc
  | read hp hacc => exact .read (g := g) hp hacc
  | setA hp hr v => exact .setA (g := g) hp hr v
  | setD hp r v => exact .setD hp r v
  | ccr hp h => exact .ccr hp h
  | write hp value hacc => exact .write hp value hacc
  | jump hp v => exact .jump hp v
  | setSr hs hp v => exact .setSr (g := g) hs hp v
  | setUsp hs hu hp v => exact .setUsp (g := g) hs hu hp v
  | control hs hp hu v => exact .control (g := g) hs hp hu v
  | stop hs hp => exact .stop hs hp
  | raised hv h => exact .raised hv h
  | trapped ht hv hp h => exact .trapped ht hv hp h
  | targetFault hv hp target faultPc h => exact .targetFault hv hp target faultPc h

theorem Run.unbracketed (h : Run k g.bracketed p q s t) : Run k g p q s t := by
  induction h with
  | refl => exact .refl
  | skip hp _ ih => exact .skip hp ih
  | step ht _ ih => exact .step ht.unbracketed ih

theorem Abort.unbracketed (h : Abort k g.bracketed p s t) : Abort k g p s t := by
  cases h with
  | fault hp hread hacc h => exact .fault hp hread hacc h
  | illegalEa hi h => exact .illegalEa hi h

/-- A property kept by every transition, and inherited by later phases, is kept
by a run. -/
theorem Run.preserves {J : Phase → M68kCpu σ → Prop}
    (hmono : ∀ {p q s}, p ≤ q → J p s → J q s)
    (hstep : ∀ {p q s t}, Trans k g p q s t → J p s → J q t) (h : Run k g p q s t) (hs : J p s) :
    J q t := by
  induction h with
  | refl => exact hs
  | skip hp _ ih => exact ih (hmono hp hs)
  | step ht _ ih => exact ih (hstep ht hs)

/-- Until it is finished an instruction keeps running. -/
theorem Trans.running (h : Trans k g p q s t) (hq : q ≤ .commit) (hs : Running s) :
    Running t := by
  cases h with
  | latch _ h => rw [h]; exact ⟨hs.1, hs.2, hs.3, hs.4, hs.5, hs.6⟩
  | @control _ _ _ _ c => cases c <;> exact ⟨hs.1, hs.2, hs.3, hs.4, hs.5, hs.6⟩
  | setSr | raised | trapped | targetFault => exact absurd hq (by decide)
  | charge | rewind | fetch | read | setA | setD | ccr | write | jump | setUsp | stop =>
    exact ⟨hs.1, hs.2, hs.3, hs.4, hs.5, hs.6⟩

theorem Run.running (h : Run k g p q s t) (hq : q ≤ .commit) (hs : Running s) : Running t := by
  induction h with
  | refl => exact hs
  | skip _ _ ih => exact ih hq hs
  | step ht h ih => exact ih hq (ht.running (Phase.le_trans h.le hq) hs)

/-- Decoding does not touch the status register. -/
theorem Trans.decode_sr (h : Trans k g p q s t) (hq : q = .decode) : t.sr = s.sr := by
  cases h with
  | latch _ h => rw [h]
  | setA | jump => cases p <;> cases hq
  | setD | ccr | write | setSr | setUsp | control | stop | raised | trapped
  | targetFault => cases hq
  | charge | rewind | fetch | read => rfl

theorem Run.decode_sr (h : Run k g p q s t) (hq : q = .decode) : t.sr = s.sr := by
  induction h with
  | refl => rfl
  | skip _ _ ih => exact ih hq
  | step ht h ih => exact (ih hq).trans (ht.decode_sr (Phase.eq_decode (hq ▸ h.le)))

/-- Depth 0 and no guard held. -/
structure Steady (s : M68kCpu σ) : Prop where
  depth : s.exceptionDepth = 0
  addressGuard : s.inAddressError = false
  busGuard : s.inBusError = false

theorem Steady.guardHeld (h : Steady s) (v : Nat) : guardHeld v s = false := by
  unfold M68k.guardHeld
  split
  · exact h.addressGuard
  · exact h.busGuard

theorem Running.steady (h : Running s) : Steady s := ⟨h.depth, h.addressGuard, h.busGuard⟩

theorem steady_of_kept (h : kept t = kept s) (hs : Steady s) : Steady t where
  depth := (congrArg Kept.exceptionDepth h).trans hs.depth
  addressGuard := (congrArg Kept.inAddressError h).trans hs.addressGuard
  busGuard := (congrArg Kept.inBusError h).trans hs.busGuard

/-! ## Refinement of the operations -/

/-- The registers of a held guard. -/
theorem holdGuard_kept (v : Nat) (b : Bool) (s : M68kCpu σ) :
    (holdGuard v b s).faultTrapActive = s.faultTrapActive ∧
      (holdGuard v b s).exceptionDepth = s.exceptionDepth ∧
      (holdGuard v b s).group0Fault = s.group0Fault := by
  unfold holdGuard
  split <;> exact ⟨rfl, rfl, rfl⟩

/-- At depth 0 under an armed trap a captured fault unwinds. -/
theorem raiseFault_escapes {v : Nat} (ha : s.faultTrapActive = true)
    (hg : s.group0Fault = true) (hd : s.exceptionDepth = 0) :
    ∃ t, exception v (ackHost k) s = .ok () t ∧
      raiseFaultWith exception v (ackHost k) s = .trap (holdGuard v false t) := by
  obtain ⟨t, ht, hp⟩ := exception_processed (k := k) v (s := s) (by omega)
  obtain ⟨ha', hd', hg'⟩ := holdGuard_kept v false t
  have hactive : (holdGuard v false t).faultTrapActive = true :=
    ha'.trans ((congrArg Kept.faultTrapActive hp.kept).trans ha)
  have hdepth : (holdGuard v false t).exceptionDepth = 0 :=
    hd'.trans ((congrArg Kept.exceptionDepth hp.kept).trans hd)
  have hgroup : (holdGuard v false t).group0Fault = true := hg'.trans (hp.group0 hg)
  refine ⟨t, ht, ?_⟩
  rw [raiseFaultWith, bind_ok ht, modify_bind]
  simp only [abortFaultedInstruction, gets_bind, hactive, hgroup, hdepth, beq_self_eq_true,
    Bool.and_self, if_true]
  rfl

/-- An exception from a steady state. -/
theorem exception_steady {v : Nat} (hs : Steady s) (h : exception v (ackHost k) s = .ok () t) :
    Processed v s t := by
  obtain ⟨t', ht', hp⟩ := exception_processed (k := k) v (Int.le_of_eq hs.depth.symm)
  rw [h] at ht'
  cases ht'
  exact hp

/-- An exception from a steady state whose own guard is taken for it. -/
theorem exception_guarded {v : Nat} (hs : Steady s)
    (h : exception v (ackHost k) (holdGuard v true s) = .ok () t) :
    Processed v (holdGuard v true s) t ∧ kept (holdGuard v false t) = kept s := by
  obtain ⟨t', ht', hp⟩ := exception_processed (k := k) v (s := holdGuard v true s)
    (by rw [(holdGuard_kept _ _ _).2.1]; exact Int.le_of_eq hs.depth.symm)
  rw [h] at ht'
  cases ht'
  exact ⟨hp, released_kept hp.kept (hs.guardHeld v)⟩

/-- What no instruction changes. -/
structure Wiring (σ : Type) where
  ppc : U32
  ir : U16
  memorySize : U32
  irqLevel : Nat
  nmiPending : Bool
  tracePending : Bool
  exceptionDepth : Int
  inAddressError : Bool
  inBusError : Bool
  model : M68kModel
  targetCycles : Int
  host : σ

def wiring (s : M68kCpu σ) : Wiring σ where
  ppc := s.ppc
  ir := s.ir
  memorySize := s.memorySize
  irqLevel := s.irqLevel
  nmiPending := s.nmiPending
  tracePending := s.tracePending
  exceptionDepth := s.exceptionDepth
  inAddressError := s.inAddressError
  inBusError := s.inBusError
  model := s.model
  targetCycles := s.targetCycles
  host := s.host

theorem wiring_of_kept (h : kept t = kept s) : wiring t = wiring s :=
  congrArg (fun x : Kept σ =>
    (⟨x.ppc, x.ir, x.memorySize, x.irqLevel, x.nmiPending, x.tracePending, x.exceptionDepth,
      x.inAddressError, x.inBusError, x.model, x.targetCycles, x.host⟩ : Wiring σ)) h

theorem steady_of_wiring (h : wiring t = wiring s) (hs : Steady s) : Steady t where
  depth := (congrArg Wiring.exceptionDepth h).trans hs.depth
  addressGuard := (congrArg Wiring.inAddressError h).trans hs.addressGuard
  busGuard := (congrArg Wiring.inBusError h).trans hs.busGuard

theorem wiring_charged (n : Int) (s : M68kCpu σ) : wiring (charged n s) = wiring s := rfl

theorem wiring_withSr (v : U16) (s : M68kCpu σ) : wiring (withSr v s) = wiring s := by
  rw [withSr_eq]
  rfl

/-- An exception on a target prefetch keeps what any exception keeps, once its
cycles are charged. -/
theorem targetFault_kept {v : Nat} {target faultPc : U32} (hs : Steady s)
    (h : exception v (ackHost k) (targetFaulting v target faultPc s) = .ok () t) :
    Processed v (targetFaulting v target faultPc s) t ∧
      kept (holdGuard v false t) = kept (charged 50 s) :=
  exception_guarded (s := captureTarget target faultPc s) ⟨hs.1, hs.2, hs.3⟩ h

/-- So does one on an access. -/
theorem accessFault_kept {kind : Access} {size : M68kSize} {address : U32} (hs : Steady s)
    (h : exception (faultVector size address) (ackHost k) (faulting kind size address s) =
      .ok () t) :
    Processed (faultVector size address) (faulting kind size address s) t ∧
      kept (holdGuard (faultVector size address) false t) = kept s :=
  exception_guarded (s := captureFault kind address (s.noted (.access kind size address)))
    ⟨hs.1, hs.2, hs.3⟩ h

theorem Trans.wiring (h : Trans k g p q s t) (hs : Steady s) :
    M68k.wiring t = M68k.wiring s := by
  cases h with
  | latch _ h => rw [h]; rfl
  | setSr _ _ v => exact wiring_withSr v s
  | @control _ _ _ _ c => cases c <;> rfl
  | raised _ h => exact wiring_of_kept (exception_steady hs h).kept
  | trapped _ _ _ h => exact wiring_of_kept (exception_steady hs h).kept
  | targetFault _ _ _ _ h =>
    exact (wiring_of_kept (targetFault_kept hs h).2).trans (wiring_charged _ _)
  | charge | rewind | fetch | read | setA | setD | ccr | write | jump | setUsp | stop => rfl

theorem Run.wiring (h : Run k g p q s t) (hs : Steady s) : M68k.wiring t = M68k.wiring s :=
  h.preserves (J := fun _ u => M68k.wiring u = M68k.wiring s) (fun _ h => h)
    (fun ht hu => (ht.wiring (steady_of_wiring hu hs)).trans hu) rfl

theorem Run.steady (h : Run k g p q s t) (hs : Steady s) : Steady t :=
  steady_of_wiring (h.wiring hs) hs

/-- Unwinding changes nothing that exceptions keep. -/
theorem Abort.kept (h : Abort k g p s t) (hs : Steady s) : M68k.kept t = M68k.kept s := by
  cases h with
  | fault _ _ _ h => exact (accessFault_kept hs h).2
  | illegalEa _ h => exact (exception_steady hs h).kept

theorem Abort.wiring (h : Abort k g p s t) (hs : Steady s) : M68k.wiring t = M68k.wiring s :=
  wiring_of_kept (h.kept hs)

/-- An access of a running instruction hits, or unwinds through its exception. -/
theorem flatAccess_running (hs : Running s) (kind : Access) (size : M68kSize) (address : U32)
    (hit miss : M68kCpu σ → M68kCpu σ × α) (dead : α) :
    wp (flatAccess exception kind size address hit miss dead) (ackHost k)
      (fun v t => accessible s size address = true ∧
        v = (hit (s.noted (.access kind size address))).2 ∧
        t = (hit (s.noted (.access kind size address))).1)
      (fun t => accessible s size address = false ∧
        ∃ u, exception (faultVector size address) (ackHost k) (faulting kind size address s) =
          .ok () u ∧ t = holdGuard (faultVector size address) false u) s := by
  obtain ⟨hactive, hdepth, hgroup⟩ := holdGuard_kept (faultVector size address) true
    (captureFault kind address (s.noted (.access kind size address)))
  obtain ⟨u, hu, hescape⟩ := raiseFault_escapes (k := k) (v := faultVector size address)
    (hactive.trans hs.trapActive) hgroup (hdepth.trans hs.depth)
  unfold wp
  rw [flatAccess_run, hs.addressGuard, hs.busGuard]
  simp only [Bool.not_false, Bool.and_true, if_true]
  by_cases hodd : misaligned size address = true
  · have hv : faultVector size address = 3 := if_pos hodd
    rw [if_pos hodd, bind_trap (t := holdGuard (faultVector size address) false u)
      (by rw [addressFault_run, ← hv, hescape])]
    exact ⟨by rw [accessible, hodd]; rfl, u, hu, rfl⟩
  · have hodd' : misaligned size address = false := by simpa using hodd
    have hv : faultVector size address = 2 := if_neg hodd
    rw [if_neg hodd]
    by_cases hmap : mapped s size address = true
    · rw [if_pos hmap]
      exact ⟨by rw [accessible, hodd', hmap]; rfl, rfl, rfl⟩
    · have hmap' : mapped s size address = false := by simpa using hmap
      rw [if_neg hmap, bind_trap (t := holdGuard (faultVector size address) false u)
        (by rw [busFault_run, ← hv, hescape])]
      exact ⟨by rw [accessible, hodd', hmap']; rfl, u, hu, rfl⟩

/-- The opcode fetch of a running instruction. -/
theorem fetch_hit (hs : Running s) (hacc : accessible s .word s.pc = true) :
    fetch (ackHost k) s = .ok (wordAt s.memory (maskAddress24 s.pc))
      { s.noted (.access .fetch .word s.pc) with pc := s.pc + 2 } := by
  have h := flatAccess_running (k := k) hs .fetch .word s.pc
    (fun t => ({ t with pc := t.pc + 2 }, wordAt t.memory (maskAddress24 s.pc)))
    (fun t => ({ t with pc := t.pc + 2 }, 0)) 0
  rw [fetch_flat]
  unfold wp at h
  split at h
  · next heq => rw [heq, h.2.1, h.2.2]; rfl
  · rw [hacc] at h
    cases h.1
  · exact h.elim

theorem fetch_miss (hs : Running s) (hacc : accessible s .word s.pc = false) :
    ∃ u, exception (faultVector .word s.pc) (ackHost k) (faulting .fetch .word s.pc s) =
        .ok () u ∧
      fetch (ackHost k) s = .trap (holdGuard (faultVector .word s.pc) false u) := by
  have h := flatAccess_running (k := k) hs .fetch .word s.pc
    (fun t => ({ t with pc := t.pc + 2 }, wordAt t.memory (maskAddress24 s.pc)))
    (fun t => ({ t with pc := t.pc + 2 }, 0)) 0
  rw [fetch_flat]
  unfold wp at h
  split at h
  · rw [hacc] at h
    cases h.1
  · next heq =>
    obtain ⟨-, u, hu, rfl⟩ := h
    exact ⟨u, hu, heq⟩
  · exact h.elim

theorem peekWord_run (address : U32) (s : M68kCpu σ) :
    ∃ v, peekWord address (ackHost k) s = .ok v s := by
  simp only [peekWord, ackHost, Host.none, env_bind, gets_bind, ite_run]
  split <;> exact ⟨_, rfl⟩

theorem isUnmappedTarget_run (target : U32) (s : M68kCpu σ) :
    isUnmappedTarget target (ackHost k) s = .ok (!mapped s .word target) s := by
  show Outcome.ok _ s = Outcome.ok _ s
  simp only [mapped, Bool.not_and]

/-- An invalid effective address always unwinds. -/
theorem raiseIllegalEa_run (hs : Running s) :
    ∃ t, exception 4 (ackHost k) s = .ok () t ∧ raiseIllegalEa (ackHost k) s = .trap t := by
  obtain ⟨t, ht, hp⟩ := exception_processed (k := k) 4 (s := s) (Int.le_of_eq hs.depth.symm)
  have hactive : t.faultTrapActive = true :=
    (congrArg Kept.faultTrapActive hp.kept).trans hs.trapActive
  have hdepth : t.exceptionDepth = 0 := (congrArg Kept.exceptionDepth hp.kept).trans hs.depth
  refine ⟨t, ht, ?_⟩
  rw [raiseIllegalEa, bind_ok ht]
  simp only [gets_bind, hactive, hdepth, beq_self_eq_true, Bool.and_self, if_true]
  rfl

theorem raiseTargetFault_run {v : Nat} (target faultPc : U32) (h : 0 ≤ s.exceptionDepth) :
    ∃ t, exception v (ackHost k) (targetFaulting v target faultPc s) = .ok () t := by
  obtain ⟨t, ht, -⟩ := exception_processed (k := k) v
    (s := targetFaulting v target faultPc s) (by
      rw [targetFaulting, (holdGuard_kept _ _ _).2.1]
      exact h)
  exact ⟨t, ht⟩

/-- Every operation is a run, or unwinds as `Abort` says; none sets a marker latch. -/
theorem Op.run {m : M σ α} (h : Op g p q m) (hs : p ≤ .commit → Running s) :
    wp m (ackHost k) (fun _ t => Run k g p q s t ∧ Unmarked s t) (fun t => Abort k g p s t) s := by
  -- reads and writes hit, or unwind through the exception of their fault
  have hread {size : M68kSize} {address : U32} {hit miss : M68kCpu σ → M68kCpu σ × α} {dead : α}
      (hp : ReadPhase g p) (hhit : ∀ u, (hit u).1 = u) :
      wp (flatAccess exception .read size address hit miss dead) (ackHost k)
        (fun _ t => Run k g p p s t ∧ Unmarked s t) (fun t => Abort k g p s t) s := by
    have hc : p ≤ .commit := hp.elim (Phase.le_trans · before) (·.2)
    refine wp_mono (flatAccess_running (hs hc) .read size address hit miss dead) ?_ ?_
    · rintro a t ⟨hacc, -, rfl⟩
      rw [hhit]
      exact ⟨(Trans.read hp hacc).run, id, id⟩
    · rintro t ⟨hacc, u, hu, rfl⟩
      exact .fault hc (fun _ => hp) hacc hu
  have hwrite {size : M68kSize} {address : U32} (value : U32)
      {hit miss : M68kCpu σ → M68kCpu σ × Unit} (hp : p ≤ .commit)
      (hhit : ∀ u, (hit u).1 =
        { u with memory := storeSized size u.memory (maskAddress24 address) value }) :
      wp (flatAccess exception .write size address hit miss ()) (ackHost k)
        (fun _ t => Run k g p .commit s t ∧ Unmarked s t) (fun t => Abort k g p s t) s := by
    refine wp_mono (flatAccess_running (hs hp) .write size address hit miss ()) ?_ ?_
    · rintro a t ⟨hacc, -, rfl⟩
      rw [hhit]
      exact ⟨(Trans.write hp value hacc).run, id, id⟩
    · rintro t ⟨hacc, u, hu, rfl⟩
      exact .fault hp (fun h => absurd rfl h) hacc hu
  have hexception (v : Nat) (hd : 0 ≤ s.exceptionDepth)
      (ht : ∀ t, exception v (ackHost k) s = .ok () t → Trans k g p .finished s t) :
      wp (exception v : M σ Unit) (ackHost k) (fun _ t => Run k g p .finished s t ∧ Unmarked s t)
        (fun t => Abort k g p s t) s := by
    obtain ⟨t, hok, hproc⟩ := exception_processed (k := k) v hd
    exact (wp_of_ok hok).mpr ⟨(ht t hok).run, unmarked_of_clear hproc.latches⟩
  -- a refused branch target raises its exception and ends the instruction
  have htarget (v : Nat) (target faultPc : U32) {m : M σ Unit} (hp : p ≤ .commit)
      (hv : v = 2 ∨ v = 3)
      (hm : ∀ t, exception v (ackHost k) (targetFaulting v target faultPc s) = .ok () t →
        m (ackHost k) s = .ok () (holdGuard v false t)) :
      wp m (ackHost k) (fun _ t => Run k g p .finished s t ∧ Unmarked s t)
        (fun t => Abort k g p s t) s := by
    obtain ⟨t, ht⟩ := raiseTargetFault_run (k := k) (v := v) target faultPc
      (Int.le_of_eq (hs hp).depth.symm)
    have hproc := (targetFault_kept (hs hp).steady ht).1
    refine (wp_of_ok (hm t ht)).mpr ⟨(Trans.targetFault hv hp target faultPc ht).run, ?_⟩
    rw [holdGuard_eq]
    exact unmarked_of_clear hproc.latches
  have hdepth (hp : p ≤ .commit) : 0 ≤ s.exceptionDepth := Int.le_of_eq (hs hp).depth.symm
  have hnever {b : Bool} (h : false = true) : b = true := by cases h
  cases h with
  | get hf => exact ⟨.refl, id, id⟩
  | charge hn => exact ⟨(Trans.charge hn).run, id, id⟩
  | latchFaultPc hp v =>
    exact ⟨Trans.run (t := { s with faultPc := v, faultPcValid := true }) (.latch hp rfl), id, id⟩
  | dropBusWord hp =>
    exact ⟨Trans.run (t := { s with faultBusWordValid := false }) (.latch hp rfl), hnever, id⟩
  | dropProgramSpace hp =>
    exact ⟨Trans.run (t := { s with operandProgramSpace := false }) (.latch hp rfl), id, hnever⟩
  | rewind hp => exact ⟨(Trans.rewind hp).run, id, id⟩
  | peekWord _ address =>
    obtain ⟨v, hv⟩ := peekWord_run (k := k) address s
    exact (wp_of_ok hv).mpr ⟨.refl, id, id⟩
  | isUnmappedTarget _ target =>
    exact (wp_of_ok (isUnmappedTarget_run target s)).mpr ⟨.refl, id, id⟩
  | tasAllowsWrite hp => exact ⟨.refl, id, id⟩
  | resetHook hp => exact ⟨.refl, id, id⟩
  | fetch hp =>
    have hc : p ≤ .commit := Phase.le_trans hp before
    unfold wp
    rw [fetch_flat]
    refine wp_mono (flatAccess_running (hs hc) .fetch .word s.pc _ _ _) ?_ ?_
    · rintro a t ⟨hacc, -, rfl⟩
      exact ⟨(Trans.fetch hp hacc).run, id, id⟩
    · rintro t ⟨hacc, u, hu, rfl⟩
      exact .fault hc (fun _ => .inl hp) hacc hu
  | read8 hp address =>
    unfold wp M68k.read8
    rw [read8With_flat]
    exact hread hp fun _ => rfl
  | read16 hp address =>
    unfold wp M68k.read16
    rw [read16With_flat]
    exact hread hp fun _ => rfl
  | read32 hp address =>
    unfold wp M68k.read32
    rw [read32With_flat]
    exact hread hp fun _ => rfl
  | write8 hp address v =>
    unfold wp M68k.write8
    rw [write8With_flat]
    exact hwrite (v.setWidth 32) hp fun _ => by simp [storeSized]
  | write16 hp address v =>
    unfold wp M68k.write16
    rw [write16With_flat]
    exact hwrite (v.setWidth 32) hp fun _ => by simp [storeSized]
  | write32 hp address v =>
    unfold wp M68k.write32
    rw [write32With_flat]
    exact hwrite v hp fun _ => rfl
  | setA hp hr v => exact ⟨(Trans.setA hp hr v).run, id, id⟩
  | setD hp r v => exact ⟨(Trans.setD hp r v).run, id, id⟩
  | modifySr hp hf => exact ⟨(Trans.ccr hp (hf s.sr)).run, id, id⟩
  | setPc hp v => exact ⟨(Trans.jump hp v).run, id, id⟩
  | setSr hsup hp v =>
    refine ⟨(Trans.setSr hsup hp v).run, ?_⟩
    show Unmarked s (withSr v s)
    rw [withSr_eq]
    exact ⟨id, id⟩
  | setUsp hsup hu hp v => exact ⟨(Trans.setUsp hsup hu hp v).run, id, id⟩
  | @writeControl _ hsup hp c hu v =>
    exact ⟨(Trans.control hsup hp hu v).run, by cases c <;> exact id, by cases c <;> exact id⟩
  | stop hsup hp => exact ⟨(Trans.stop hsup hp).run, id, id⟩
  | illegal hi =>
    exact hexception 4 (hdepth before) fun t h =>
      .raised (.inr (.inr (.inr ⟨rfl, hi⟩))) h
  | illegalEa hi =>
    obtain ⟨t, ht, hescape⟩ := raiseIllegalEa_run (k := k) (hs before)
    exact (wp_of_trap hescape).mpr (.illegalEa hi ht)
  | violation hv =>
    exact hexception _ (hdepth before) fun t h => .raised (by omega) h
  | trap ht hv hp => exact hexception _ (hdepth hp) fun t h => .trapped ht hv hp h
  | oddTarget hp target faultPc =>
    exact htarget 3 target faultPc hp (.inr rfl) fun t ht => (bind_ok ht).trans rfl
  | busTarget hp target faultPc =>
    exact htarget 2 target faultPc hp (.inl rfl) fun t ht => (bind_ok ht).trans rfl

/-- An abort after a run. -/
def Unwinds (k : Option (Nat → M68kCpu σ → M68kCpu σ × U32)) (g : Grade) (p : Phase)
    (s t : M68kCpu σ) : Prop :=
  ∃ r u, Run k g p r s u ∧ Running u ∧ Abort k g r u t

theorem Unwinds.wiring (h : Unwinds k g p s t) (hs : Steady s) :
    M68k.wiring t = M68k.wiring s := by
  obtain ⟨r, u, hrun, hu, habort⟩ := h
  exact (habort.wiring hu.steady).trans (hrun.wiring hs)

theorem Run.unwinds (h : Run k g p r s t) (h' : Unwinds k g r t u) : Unwinds k g p s u := by
  obtain ⟨q, v, hrun, hv, habort⟩ := h'
  exact ⟨q, v, h.trans hrun, hv, habort⟩

theorem Abort.le (h : Abort k g p s t) : p ≤ .commit := by
  cases h with
  | fault hp => exact hp
  | illegalEa => decide

theorem Unwinds.unbracketed (h : Unwinds k g.bracketed p s t) : Unwinds k g p s t := by
  obtain ⟨r, u, hrun, hu, habort⟩ := h
  exact ⟨r, u, hrun.unbracketed, hu, habort.unbracketed⟩

/-- Disciplined programs refine runs. -/
theorem Micro.run {m : M σ α} (h : Micro g p q m) (hs : p ≤ .commit → Running s)
    (hsup : p = .decode → s.supervisor = g.supervisor) :
    wp m (ackHost k) (fun _ t => Run k g p q s t ∧ Unmarked s t)
      (fun t => Unwinds k g p s t) s := by
  induction h generalizing s with
  | op h =>
    exact wp_mono (h.run hs) (fun _ _ h => h) fun t h => ⟨_, s, .refl, hs h.le, h⟩
  | pure a => exact ⟨.refl, .refl s⟩
  | seq _ _ ihm ihf =>
    rw [wp_bind]
    refine wp_mono (ihm hs hsup) (fun a t ht => ?_) fun _ h => h
    obtain ⟨ht, hmark⟩ := ht
    refine wp_mono (ihf a (fun hr => ht.running hr (hs (Phase.le_trans ht.le hr))) fun hr => ?_)
      (fun _ _ h => ⟨ht.trans h.1, hmark.trans h.2⟩) fun _ h => ht.unwinds h
    have hp := Phase.eq_decode (hr ▸ ht.le)
    rw [← hsup hp]
    simp only [supervisor_eq, ht.decode_sr hr]
  | weaken hp hq _ ih =>
    have hs' := fun h => hs (Phase.le_trans hp h)
    refine wp_mono (ih hs' fun h => hsup (Phase.eq_decode (h ▸ hp)))
      (fun _ t ht => ⟨.skip hp (ht.1.trans (.skip hq .refl)), ht.2⟩) fun t ht => ?_
    obtain ⟨r, u, hrun, hu, habort⟩ := ht
    exact ⟨r, u, .skip hp hrun, hu, habort⟩
  | @privileged g _ q body _ ih =>
    have hrun := hs before
    rw [M68k.privileged, M68k.getSr, wp_bind, wp_gets]
    refine wp_ite (fun _ => ?_) fun hS => ?_
    · -- User state: the violation is itself a disciplined program.
      obtain ⟨t, ht, hproc⟩ := exception_processed (k := k) 8 (s := { s with pc := s.pc - 2 })
        (Int.le_of_eq hrun.depth.symm)
      have hviolation : M68k.privilegeViolation (ackHost k) s = .ok () t := ht
      exact (wp_of_ok hviolation).mpr ⟨.step (.rewind before) (Trans.raised (.inl rfl) ht).run,
        unmarked_of_clear hproc.latches⟩
    · have hsupervisor : g.supervisor = true := by
        rw [← hsup rfl]
        simpa [M68kCpu.supervisor] using hS
      exact wp_mono (ih hsupervisor hs hsup)
        (fun _ t ht => ⟨ht.1.trans (.skip (by cases q <;> decide) .refl), ht.2⟩) fun _ h => h
  | @programSpace g _ p q r _ _ body f hrel hp hr hbody _ ihb ihf =>
    have hopen : Trans k g p p s { s with operandProgramSpace := true } := .latch hp rfl
    have hrunning := hopen.running hp (hs hp)
    rw [wp_bind]
    show wp _ _ _ _ { s with operandProgramSpace := true }
    rw [wp_bind]
    refine wp_mono (ihb (fun _ => hrunning) hsup) (fun a t ht => ?_)
      fun t ht => hopen.run.unwinds ht.unbracketed
    obtain ⟨hbodyRun, hmark⟩ := ht
    have hbodyRun := hopen.run.trans hbodyRun.unbracketed
    have hclose : Trans k g r r t { t with operandProgramSpace := false } := .latch hr rfl
    have hall := hbodyRun.trans hclose.run
    rw [wp_bind]
    show wp _ _ _ _ { t with operandProgramSpace := false }
    refine wp_mono (ihf a (fun _ => hall.running hr (hs hp)) fun hd => ?_)
      (fun _ u h => ⟨hall.trans h.1, ?_⟩) fun _ h => hall.unwinds h
    · rw [← hsup (Phase.eq_decode (hd ▸ hall.le))]
      exact congrArg (fun sr : U16 => sr &&& srS != 0) (hall.decode_sr hd)
    · refine Unmarked.trans (t := { t with operandProgramSpace := false }) ?_ h.2
      exact ⟨hmark.busWord, by intro h; cases h⟩
  | @busWord g p q r _ w body f _ hp hr hbody _ ihb ihf =>
    have hopen : Trans k g p p s { s with faultBusWord := w, faultBusWordValid := true } :=
      .latch hp rfl
    have hrunning := hopen.running hp (hs hp)
    rw [wp_bind]
    show wp _ _ _ _ { s with faultBusWord := w, faultBusWordValid := true }
    rw [wp_bind]
    refine wp_mono (ihb (fun _ => hrunning) hsup) (fun a t ht => ?_)
      fun t ht => hopen.run.unwinds ht
    obtain ⟨hbodyRun, hmark⟩ := ht
    have hclose : Trans k g r r t { t with faultBusWordValid := false } := .latch hr rfl
    have hall := hopen.run.trans (hbodyRun.trans hclose.run)
    rw [wp_bind]
    show wp _ _ _ _ { t with faultBusWordValid := false }
    refine wp_mono (ihf () (fun _ => hall.running hr (hs hp)) fun hd => ?_)
      (fun _ u h => ⟨hall.trans h.1, ?_⟩) fun _ h => hall.unwinds h
    · rw [← hsup (Phase.eq_decode (hd ▸ hall.le))]
      exact congrArg (fun sr : U16 => sr &&& srS != 0) (hall.decode_sr hd)
    · refine Unmarked.trans (t := { t with faultBusWordValid := false }) ?_ h.2
      exact ⟨(by intro h; cases h), hmark.programSpace⟩

end M68k
