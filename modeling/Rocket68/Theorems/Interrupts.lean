import Rocket68.Logic.Step
import Rocket68.Logic.Delivery

/-!
# Interrupt entry

When `m68k_step_ex` services a request, what it leaves on the stack and in the
registers, and where RTE then resumes. The vector number of the acknowledge
reaches `m68k_exception`, which treats six numbers as instruction faults, and lets the
illegal opcode callback claim one of them; for these an interrupt does not enter as
an interrupt.
-/

namespace M68k

open Trap TrapM

variable {σ : Type} {s t : M68kCpu σ}

/-! ## The host at interrupt entry -/

/-- The INT ACK callback of a host that answers without touching the CPU. -/
def hostAck (ack : Option (Nat → σ → σ × U32)) : Option (Nat → M68kCpu σ → M68kCpu σ × U32) :=
  ack.map fun answer level s =>
    ({ s with host := (answer level s.host).1 }, (answer level s.host).2)

/-- The callbacks of interrupt entry, on the host's own state. -/
structure EntryHost (σ : Type) where
  intAck : Option (Nat → σ → σ × U32)
  illgCb : Option (U16 → σ → σ × Int)

/-- A host with the callbacks of interrupt entry and no others. -/
def EntryHost.host (c : EntryHost σ) : Host σ :=
  { ackHost (hostAck c.intAck) with
    illgCb := c.illgCb.map fun claims ir s =>
      ({ s with host := (claims ir s.host).1 }, (claims ir s.host).2) }

/-- The illegal opcode callback, where exception `v` consults it: the context after
it, and whether it claims the exception. -/
def EntryHost.consult (c : EntryHost σ) (v : Nat) (s : M68kCpu σ) : M68kCpu σ × Bool :=
  match c.illgCb with
  | some claims =>
      if v = 4 then
        ({ s with host := (claims s.ir s.host).1 }, (claims s.ir s.host).2 != 0)
      else (s, false)
  | none => (s, false)

/-- The vector the host answers with. -/
def answeredVector (c : EntryHost σ) (s : M68kCpu σ) : Nat :=
  (acknowledged (hostAck c.intAck) s.irqLevel (beginStep s)).2

/-- The host's answers to the request of `s`: the context after them, and whether the
exception of the interrupt is claimed as an illegal opcode. -/
def answered (c : EntryHost σ) (s : M68kCpu σ) : M68kCpu σ × Bool :=
  c.consult (answeredVector c s) (acknowledged (hostAck c.intAck) s.irqLevel (beginStep s)).1

/-- The context in which the exception of an interrupt is processed. -/
def interrupted (c : EntryHost σ) (s : M68kCpu σ) : M68kCpu σ := (answered c s).1

/-- The host claims the exception of the interrupt. -/
def claimed (c : EntryHost σ) (s : M68kCpu σ) : Bool := (answered c s).2

theorem illegalClaimed_entry (c : EntryHost σ) (v : Nat) (s : M68kCpu σ) :
    illegalClaimed v c.host s = .ok (c.consult v s).2 (c.consult v s).1 := by
  obtain ⟨ack, illg⟩ := c
  unfold illegalClaimed EntryHost.consult
  cases illg with
  | none => split <;> rfl
  | some claims =>
    by_cases hv : v = 4
    · subst hv
      rfl
    · simp only [if_neg hv]
      rfl

theorem applyWaitBus_entry (c : EntryHost σ) (address : U32) (size : M68kSize) (isWrite : Bool)
    (s : M68kCpu σ) : applyWaitBus address size isWrite c.host s = .ok () s := rfl

theorem setFc_entry (c : EntryHost σ) (isProgram : Bool) (s : M68kCpu σ) :
    setFc isProgram c.host s = .ok () s := rfl

/-- The callbacks of interrupt entry see no access. -/
theorem EntryHost.flat (c : EntryHost σ) : FlatHost c.host where
  write16 raise address value s := by
    simp only [write16With, flatAccess, note, modify_bind, gets_bind, isOdd_mask,
      bind_ok (applyWaitBus_entry _ _ _ _ _), bind_ok (setFc_entry _ _ _)]
    simp only [EntryHost.host, ackHost, Host.none, env_bind, ite_run, bind_pure_unit]
    rfl
  write32 raise address value s := by
    simp only [write32With, flatAccess, note, modify_bind, gets_bind, isOdd_mask,
      bind_ok (applyWaitBus_entry _ _ _ _ _), bind_ok (setFc_entry _ _ _)]
    simp only [EntryHost.host, ackHost, Host.none, env_bind, ite_run, bind_pure_unit]
    rfl
  read32 raise address s := by
    simp only [read32With, flatAccess, note, modify_bind, gets_bind, isOdd_mask,
      bind_ok (applyWaitBus_entry _ _ _ _ _), bind_ok (setFc_entry _ _ _)]
    simp only [EntryHost.host, ackHost, Host.none, env_bind, ite_run]
    rfl
  setPc _ _ := rfl

/-- A claimed exception changes nothing. -/
theorem exception_claimed {c : EntryHost σ} {v : Nat} (h : (c.consult v s).2 = true) :
    exception v c.host s = .ok () (c.consult v s).1 := by
  rw [exception, exceptionAt, bind_ok (illegalClaimed_entry c v s), h]
  rfl

/-- An unclaimed one whose accesses raise nothing is delivered. -/
theorem exception_unclaimed {c : EntryHost σ} {v : Nat} (h : (c.consult v s).2 = false)
    (hf : exceptionFaults v (c.consult v s).1 = false) :
    exception v c.host s = .ok () (delivered v (c.consult v s).1) := by
  rw [exception, exceptionAt, bind_ok (illegalClaimed_entry c v s), h, if_neg Bool.false_ne_true]
  exact processException_delivers _ c.flat hf

/-! ## Interrupt entry -/

/-- The step is the service of an interrupt and nothing else. -/
def TakesInterrupt (c : EntryHost σ) (s : M68kCpu σ) : Prop :=
  ∃ u, checkInterrupts c.host (beginStep s) = .ok true u ∧
    stepEx true c.host s = .ok () (charged 44 u)

/-- From `s` to `t` by an interrupt of level `level` through vector `v`. -/
structure InterruptEntered (v level : Nat) (s t : M68kCpu σ) : Prop where
  dRegs : t.dRegs = s.dRegs
  lowA : Function.update t.aRegs 7 0 = Function.update s.aRegs 7 0
  userSp : t.userSp = s.userSp
  ppc : t.ppc = s.ppc
  ir : t.ir = s.ir
  unfetched : ∀ size address, .access .fetch size address ∉ t.log
  sp : t.supervisorSp = s.supervisorSp - normalBytes s.model
  frame : Holds t.memory s.model t.supervisorSp s.sr s.pc v
  memory : ∀ a, ¬InFrame s.supervisorSp (if s.model.is68010 then 8 else 6) a →
    t.memory a = s.memory a
  running : t.stopped = false
  supervisor : t.supervisor = true
  untraced : t.traced = false
  mask : t.mask = level
  pc : t.pc = longAt t.memory (maskAddress24 (s.vbr + BitVec.ofNat 32 v * 4))
  resumes : ∀ opcode, ∃ u, execRte opcode (Host.none σ) t = .ok () u ∧ u.pc = s.pc ∧
    u.sr = s.sr ∧ u.aRegs = s.aRegs ∧ u.userSp = s.userSp ∧ u.supervisorSp = s.supervisorSp

/-- The law of interrupt entry at `s`. -/
structure EntersInterrupts (c : EntryHost σ) (s : M68kCpu σ) : Prop where
  taken_iff : TakesInterrupt c s ↔
    (1 ≤ s.irqLevel ∧ s.irqLevel ≤ 6 ∧ s.mask < s.irqLevel) ∨
      (s.irqLevel = 7 ∧ s.nmiPending = true)
  entered : TakesInterrupt c s → ∃ t, stepEx true c.host s = .ok () t ∧
    InterruptEntered (answeredVector c s) s.irqLevel s t

/-- The vectors with a frame or a stacked PC of their own. -/
def entersAsInterrupt (v : Nat) (s : M68kCpu σ) : Bool :=
  v != 2 && v != 3 && (!(v == 4 || v == 8 || v == 10 || v == 11) || s.ppc == s.pc)

/-! ## When an interrupt is taken -/

theorem interruptDue_iff (hirq : s.irqLevel ≤ 7) :
    interruptDue s = true ↔
      (1 ≤ s.irqLevel ∧ s.irqLevel ≤ 6 ∧ s.mask < s.irqLevel) ∨
        (s.irqLevel = 7 ∧ s.nmiPending = true) := by
  rw [interruptDue, Bool.and_eq_true, bne_iff_ne]
  by_cases h7 : s.irqLevel = 7
  · rw [if_pos h7]
    constructor
    · rintro ⟨-, hnmi⟩
      exact .inr ⟨h7, hnmi⟩
    · rintro (⟨-, h6, -⟩ | ⟨-, hnmi⟩)
      · omega
      · exact ⟨by omega, hnmi⟩
  · rw [if_neg h7, decide_eq_true_eq]
    constructor
    · rintro ⟨h0, hmask⟩
      exact .inl ⟨by omega, by omega, hmask⟩
    · rintro (⟨h1, -, hmask⟩ | ⟨h, -⟩)
      · exact ⟨by omega, hmask⟩
      · exact absurd h h7

/-! ## The context an interrupt interrupts -/

/-- The callbacks change the host's own state at most. -/
structure AsBefore (s t : M68kCpu σ) : Prop where
  dRegs : t.dRegs = s.dRegs
  aRegs : t.aRegs = s.aRegs
  userSp : t.userSp = s.userSp
  supervisorSp : t.supervisorSp = s.supervisorSp
  pc : t.pc = s.pc
  ppc : t.ppc = s.ppc
  ir : t.ir = s.ir
  sr : t.sr = s.sr
  memory : t.memory = s.memory
  memorySize : t.memorySize = s.memorySize
  model : t.model = s.model
  vbr : t.vbr = s.vbr
  log : t.log = []

theorem consult_asBefore (c : EntryHost σ) (v : Nat) (h : AsBefore s t) :
    AsBefore s (c.consult v t).1 := by
  unfold EntryHost.consult
  split
  · split
    · exact ⟨h.1, h.2, h.3, h.4, h.5, h.6, h.7, h.8, h.9, h.10, h.11, h.12, h.13⟩
    · exact h
  · exact h

theorem interrupted_asBefore (c : EntryHost σ) (s : M68kCpu σ) : AsBefore s (interrupted c s) := by
  refine consult_asBefore c _ ?_
  cases c.intAck <;> exact ⟨rfl, rfl, rfl, rfl, rfl, rfl, rfl, rfl, rfl, rfl, rfl, rfl, rfl⟩

theorem AsBefore.fits (h : AsBefore s t) {v : Nat} (sp : U32) :
    M68k.fits t sp (frameOf v t) = M68k.fits s sp (frameOf v s) :=
  fits_frameOf h.model h.memorySize sp

theorem AsBefore.delivers (h : AsBefore s t) {v : Nat}
    (hframe : M68k.fits s s.supervisorSp (frameOf v s) = true) (hvector : hasVector v s = true) :
    exceptionFaults v t = false := by
  refine exceptionFaults_of_fits ?_ ?_
  · rw [h.supervisorSp, h.fits]
    exact hframe
  · exact (hasVector_congr h.vbr h.memorySize).trans hvector

/-! ## The status register of an interrupt handler -/

theorem finishInterrupt_mask {level : Nat} (hl : level ≤ 7) (held : Bool) (t : M68kCpu σ) :
    (finishInterrupt level held t).mask = level := by
  have hbits : ∀ l : Fin 8, ∀ i : Fin 3,
      (BitVec.ofNat 16 l <<< 8).getLsbD (8 + i) = (BitVec.ofNat 16 l).getLsbD i := by decide
  have hclear : ∀ i : Fin 3, (~~~(0x0700 : U16)).getLsbD (8 + i) = false := by decide
  have hseven : ∀ i : Fin 16, (7 : U16).getLsbD i = decide ((i : Nat) < 3) := by decide
  have hhigh : ∀ l : Fin 8, ∀ i : Fin 16, 3 ≤ (i : Nat) →
      (BitVec.ofNat 16 l).getLsbD i = false := by decide
  have hsr : ((finishInterrupt level held t).sr >>> 8) &&& 7 = BitVec.ofNat 16 level := by
    apply BitVec.eq_of_getLsbD_eq
    intro i hi
    rw [BitVec.getLsbD_and, hseven ⟨i, hi⟩, BitVec.getLsbD_ushiftRight, finishInterrupt,
      BitVec.getLsbD_or, BitVec.getLsbD_and]
    by_cases h3 : i < 3
    · rw [hclear ⟨i, h3⟩, hbits ⟨level, by omega⟩ ⟨i, h3⟩]
      simp [h3]
    · rw [hhigh ⟨level, by omega⟩ ⟨i, hi⟩ (by simpa using h3)]
      simp [h3]
  rw [M68kCpu.mask, hsr, BitVec.toNat_ofNat]
  omega

theorem finishInterrupt_traced {level : Nat} (hl : level ≤ 7) (held : Bool) (t : M68kCpu σ) :
    (finishInterrupt level held t).traced = t.traced := by
  have hbit : ∀ l : Fin 8, (BitVec.ofNat 16 l <<< 8).getLsbD 15 = false := by decide
  rw [traced_eq, traced_eq, finishInterrupt, BitVec.getLsbD_or, hbit ⟨level, by omega⟩]
  simp

/-! ## The step -/

/-- Where the processing of an interrupt's exception leads. -/
def entering (c : EntryHost σ) (s : M68kCpu σ) : M68kCpu σ :=
  charged 44 (finishInterrupt s.irqLevel c.intAck.isSome
    (delivered (answeredVector c s) (interrupted c s)))

/-- Where a claimed one leads. -/
def vetoed (c : EntryHost σ) (s : M68kCpu σ) : M68kCpu σ :=
  charged 44 (finishInterrupt s.irqLevel c.intAck.isSome (interrupted c s))

/-- A due request is acknowledged and its exception raised. -/
theorem takesInterrupt_of_raised {c : EntryHost σ} (hdue : interruptDue s = true)
    (h : exception (answeredVector c s) c.host
      (acknowledged (hostAck c.intAck) s.irqLevel (beginStep s)).1 = .ok () t) :
    TakesInterrupt c s ∧
      stepEx true c.host s = .ok () (charged 44
        (finishInterrupt s.irqLevel c.intAck.isSome t)) := by
  have hack : acknowledge s.irqLevel c.host (beginStep s) =
      .ok (answeredVector c s) (acknowledged (hostAck c.intAck) s.irqLevel (beginStep s)).1 := by
    obtain ⟨ack, illg⟩ := c
    cases ack <;> rfl
  have hheld : c.host.intAck.isSome = c.intAck.isSome := by
    obtain ⟨ack, illg⟩ := c
    cases ack <;> rfl
  have hcheck : checkInterrupts c.host (beginStep s) =
      .ok true (finishInterrupt s.irqLevel c.intAck.isSome t) := by
    have hdue' : interruptDue (beginStep s) = true := hdue
    have hlevel : (beginStep s).irqLevel = s.irqLevel := rfl
    simp only [checkInterrupts, gets_bind, hdue', if_true, hlevel]
    rw [bind_ok hack, bind_ok h, ← hheld]
    rfl
  have hstep := stepEx_serviced hcheck
  exact ⟨⟨_, hcheck, hstep⟩, hstep⟩

theorem takesInterrupt_of_due {c : EntryHost σ}
    (hframe : M68k.fits s s.supervisorSp (frameOf (answeredVector c s) s) = true)
    (hvector : hasVector (answeredVector c s) s = true) (hdue : interruptDue s = true) :
    TakesInterrupt c s ∧
      stepEx true c.host s = .ok () (if claimed c s then vetoed c s else entering c s) := by
  by_cases hclaimed : claimed c s = true
  · rw [if_pos hclaimed]
    exact takesInterrupt_of_raised hdue (exception_claimed hclaimed)
  · rw [if_neg hclaimed]
    have hunclaimed : (answered c s).2 = false := by simpa [claimed] using hclaimed
    exact takesInterrupt_of_raised hdue (exception_unclaimed hunclaimed
      ((interrupted_asBefore c s).delivers hframe hvector))

theorem takesInterrupt_iff {c : EntryHost σ}
    (hframe : M68k.fits s s.supervisorSp (frameOf (answeredVector c s) s) = true)
    (hvector : hasVector (answeredVector c s) s = true) :
    TakesInterrupt c s ↔ interruptDue s = true := by
  constructor
  · rintro ⟨u, hu, -⟩
    by_contra hdue
    have hdue' : interruptDue s = false := by simpa using hdue
    rw [checkInterrupts_not_due (s := beginStep s) hdue'] at hu
    cases hu
  · exact fun hdue => (takesInterrupt_of_due hframe hvector hdue).1

/-- A claimed interrupt pushes no frame. -/
theorem vetoed_not_entered (c : EntryHost σ) (hirq : s.irqLevel ≤ 7) {v level : Nat} :
    ¬InterruptEntered v level s (vetoed c s) := by
  intro h
  obtain ⟨-, -, hssp⟩ := finishInterrupt_userSp hirq c.intAck.isSome (interrupted c s)
  have hsp : s.supervisorSp - normalBytes s.model = s.supervisorSp :=
    h.sp.symm.trans (hssp.trans (interrupted_asBefore c s).supervisorSp)
  have hsize : normalBytes s.model = 6 ∨ normalBytes s.model = 8 := by
    cases s.model
    · exact .inl rfl
    · exact .inr rfl
  rcases hsize with h | h <;> rw [h] at hsp <;> bv_omega

/-- What shows of the frame and the registers once service is finished. -/
theorem entering_shows (c : EntryHost σ) (hirq : s.irqLevel ≤ 7) :
    (entering c s).supervisor = true ∧
      (entering c s).supervisorSp =
        (delivered (answeredVector c s) (interrupted c s)).aRegs 7 ∧
      (entering c s).userSp = s.userSp ∧ (entering c s).traced = false ∧
      (entering c s).mask = s.irqLevel := by
  have hd := delivered_supervisor (answeredVector c s) (interrupted c s)
  have hkept := delivered_kept (answeredVector c s) (interrupted c s)
  obtain ⟨hsup, husp, hssp⟩ := finishInterrupt_userSp hirq c.intAck.isSome
    (delivered (answeredVector c s) (interrupted c s))
  have huser := (congrArg Kept.userSp hkept).trans (interrupted_asBefore c s).userSp
  have hmask := finishInterrupt_mask hirq c.intAck.isSome
    (delivered (answeredVector c s) (interrupted c s))
  refine ⟨hsup.trans hd, hssp.trans (if_pos hd), husp.trans huser, ?_, hmask⟩
  have htraced := finishInterrupt_traced hirq c.intAck.isSome
    (delivered (answeredVector c s) (interrupted c s))
  refine htraced.trans ?_
  rw [traced_eq, delivered_sr]
  exact handlerSr_untraced _

/-- An interrupt through an ordinary vector enters as the law says. -/
theorem interruptEntered_of_ordinary {c : EntryHost σ} (hirq : s.irqLevel ≤ 7)
    (hsr : s.sr &&& srMask = s.sr) (hv : answeredVector c s < 256)
    (hframe : M68k.fits s s.supervisorSp (frameOf (answeredVector c s) s) = true)
    (hvector : hasVector (answeredVector c s) s = true)
    (hordinary : entersAsInterrupt (answeredVector c s) s = true) :
    InterruptEntered (answeredVector c s) s.irqLevel s (entering c s) := by
  have hbefore := interrupted_asBefore c s
  have hkept := delivered_kept (answeredVector c s) (interrupted c s)
  obtain ⟨hsup, hsp, huser, htraced, hmask⟩ := entering_shows c hirq
  simp only [entersAsInterrupt, Bool.and_eq_true, bne_iff_ne, Bool.or_eq_true,
    Bool.not_eq_true', beq_iff_eq, Bool.or_eq_false_iff, beq_eq_false_iff_ne] at hordinary
  obtain ⟨⟨hv2, hv3⟩, hpc⟩ := hordinary
  have hv' : answeredVector c s ≠ 2 ∧ answeredVector c s ≠ 3 := ⟨hv2, hv3⟩
  -- the frame resumes at the PC, so a vector that stacks the PPC has them equal
  have hstacked : stackedPc (answeredVector c s) (interrupted c s) = s.pc := by
    rw [stackedPc, if_neg (by omega), hbefore.pc, hbefore.ppc]
    split
    · next h =>
      rcases hpc with hnot | heq
      · omega
      · exact heq
    · rfl
  have hframe' : M68k.fits (interrupted c s) (interrupted c s).supervisorSp
      (frameOf (answeredVector c s) (interrupted c s)) = true := by
    rw [hbefore.supervisorSp, hbefore.fits]
    exact hframe
  obtain ⟨ha7, hpop, hholds⟩ := delivered_frame hv' hframe'
  have hmodel : (delivered (answeredVector c s) (interrupted c s)).model = s.model :=
    (congrArg Kept.model hkept).trans hbefore.model
  have hlow : Function.update (entering c s).aRegs 7 0 = Function.update s.aRegs 7 0 :=
    (congrArg Kept.lowA hkept).trans (by rw [kept, hbefore.aRegs])
  rw [hbefore.supervisorSp, hbefore.model] at ha7
  rw [hmodel, hstacked, hbefore.sr] at hholds
  refine
    { dRegs := (congrArg Kept.dRegs hkept).trans hbefore.dRegs
      lowA := hlow
      userSp := huser
      ppc := (congrArg Kept.ppc hkept).trans hbefore.ppc
      ir := (congrArg Kept.ir hkept).trans hbefore.ir
      unfetched := ?_
      sp := hsp.trans ha7
      frame := by rw [hsp]; exact hholds
      memory := ?_
      running := rfl
      supervisor := hsup
      untraced := htraced
      mask := hmask
      pc := ?_
      resumes := ?_ }
  · intro size address hmem
    obtain ⟨evs, hlog, hevs⟩ := delivered_log (answeredVector c s) (interrupted c s)
    have hmem' : Event.access .fetch size address ∈
        (delivered (answeredVector c s) (interrupted c s)).log := hmem
    rw [hlog, hbefore.log] at hmem'
    -- neither the delivery nor the acknowledgement fetches
    rcases List.mem_append.mp hmem' with h | h
    · obtain ⟨kind, _, _, hkind, heq⟩ := hevs _ h
      cases heq
      exact hkind rfl
    · rw [List.mem_singleton] at h
      cases h
  · intro a ha
    have hout : ¬InFrame (interrupted c s).supervisorSp
        (frameLength (frameOf (answeredVector c s) (interrupted c s))) a := by
      rw [(frameSize_normal hv' _).2, hbefore.supervisorSp, hbefore.model]
      exact ha
    exact (delivered_memory hout).trans (congrFun hbefore.memory a)
  · have hvector' : hasVector (answeredVector c s) (interrupted c s) = true :=
      (hasVector_congr hbefore.vbr hbefore.memorySize).trans hvector
    have hpc' := delivered_pc hvector'
    rw [vectorAddress, hbefore.vbr] at hpc'
    exact hpc'
  · intro opcode
    have hpop' : Poppable (entering c s) ((entering c s).aRegs 7) :=
      ⟨hpop.sr, hpop.pc, hpop.vector⟩
    have hholds' : Holds (entering c s).memory (entering c s).model ((entering c s).aRegs 7)
        s.sr s.pc (answeredVector c s) := by
      have hmodel' : (entering c s).model = s.model := hmodel
      rw [hmodel']
      exact hholds
    obtain ⟨log, hrte⟩ := execRte_run (k := none) opcode (by omega) hsup hpop' hholds'
    -- RTE pops what was pushed, so A7 ends where it began
    have hrestored : (entering c s).aRegs 7 + normalBytes (entering c s).model =
        s.supervisorSp := by
      have ha7' : (entering c s).aRegs 7 = s.supervisorSp - normalBytes s.model := ha7
      have hmodel' : (entering c s).model = s.model := hmodel
      rw [ha7', hmodel']
      exact BitVec.sub_add_cancel _ _
    rw [hrestored] at hrte
    obtain ⟨hsr', haregs, husp', hssp'⟩ := resumed_restores s.pc log hsr hsup huser hlow
    exact ⟨_, hrte, rfl, hsr', haregs, husp', hssp'⟩

/-- An interrupt that entered as the law says went through an ordinary vector. -/
theorem ordinary_of_interruptEntered {c : EntryHost σ} (hirq : s.irqLevel ≤ 7)
    (hframe : M68k.fits s s.supervisorSp (frameOf (answeredVector c s) s) = true)
    (h : InterruptEntered (answeredVector c s) s.irqLevel s (entering c s)) :
    entersAsInterrupt (answeredVector c s) s = true := by
  have hbefore := interrupted_asBefore c s
  have ha7 := delivered_a7 (answeredVector c s) (interrupted c s)
  obtain ⟨-, hsp, -⟩ := entering_shows c hirq
  have hsize := (hsp.symm.trans h.sp).symm.trans ha7
  rw [frameSize_frameOf, hbefore.supervisorSp, hbefore.model] at hsize
  -- the room taken tells a short frame from that of a bus or address error
  have hsize' : normalBytes s.model = frameBytes s.model (answeredVector c s) := by
    generalize normalBytes s.model = x at hsize ⊢
    generalize frameBytes s.model (answeredVector c s) = y at hsize ⊢
    bv_omega
  have hv' : answeredVector c s ≠ 2 ∧ answeredVector c s ≠ 3 := by
    rw [← not_or]
    intro hv
    rw [frameBytes, if_pos hv] at hsize'
    cases hmodel : s.model <;> rw [hmodel] at hsize' <;> exact absurd hsize' (by decide)
  have hframe' : M68k.fits (interrupted c s) (interrupted c s).supervisorSp
      (frameOf (answeredVector c s) (interrupted c s)) = true := by
    rw [hbefore.supervisorSp, hbefore.fits]
    exact hframe
  obtain ⟨-, -, hholds⟩ := delivered_frame hv' hframe'
  have hframePc := h.frame.pc
  rw [hsp] at hframePc
  have hstacked : stackedPc (answeredVector c s) (interrupted c s) = s.pc :=
    hholds.pc.symm.trans hframePc
  rw [stackedPc, if_neg (by omega), hbefore.pc, hbefore.ppc] at hstacked
  simp only [entersAsInterrupt, Bool.and_eq_true, bne_iff_ne, Bool.or_eq_true,
    Bool.not_eq_true', beq_iff_eq, Bool.or_eq_false_iff, beq_eq_false_iff_ne]
  refine ⟨hv', ?_⟩
  by_cases hspecial : answeredVector c s = 4 ∨ answeredVector c s = 8 ∨
      answeredVector c s = 10 ∨ answeredVector c s = 11
  · rw [if_pos hspecial] at hstacked
    exact .inr hstacked
  · exact .inl (by omega)

theorem answeredVector_lt {c : EntryHost σ} (hirq : s.irqLevel ≤ 7) : answeredVector c s < 256 := by
  obtain ⟨ack, illg⟩ := c
  cases ack with
  | none =>
    show 24 + s.irqLevel < 256
    omega
  | some answer =>
    show ackVector _ s.irqLevel < 256
    unfold ackVector
    split
    · omega
    · split
      · omega
      · have hmask := BitVec.toNat_and (answer s.irqLevel (beginStep s).host).2 0xFF
        have hle := Nat.and_le_right
          (n := (answer s.irqLevel (beginStep s).host).2.toNat) (m := 0xFF)
        exact Nat.lt_of_le_of_lt (hmask ▸ hle) (by decide)

/-- Interrupts enter as the law says exactly when a due interrupt is answered
with an ordinary vector, or the last instruction was at the PC, and its exception is
not claimed as an illegal opcode. -/
theorem entersInterrupts_iff {c : EntryHost σ} (hirq : s.irqLevel ≤ 7)
    (hsr : s.sr &&& srMask = s.sr)
    (hframe : M68k.fits s s.supervisorSp (frameOf (answeredVector c s) s) = true)
    (hvector : hasVector (answeredVector c s) s = true) :
    EntersInterrupts c s ↔
      (interruptDue s = true →
        entersAsInterrupt (answeredVector c s) s = true ∧ claimed c s = false) := by
  have htaken := (takesInterrupt_iff hframe hvector).trans (interruptDue_iff hirq)
  constructor
  · intro h hdue
    obtain ⟨htakes, hstep⟩ := takesInterrupt_of_due hframe hvector hdue
    obtain ⟨t, ht, hentered⟩ := h.entered htakes
    rw [hstep] at ht
    cases ht
    by_cases hclaimed : claimed c s = true
    · rw [if_pos hclaimed] at hentered
      exact absurd hentered (vetoed_not_entered c hirq)
    · rw [if_neg hclaimed] at hentered
      exact ⟨ordinary_of_interruptEntered hirq hframe hentered, by simpa using hclaimed⟩
  · intro h
    refine ⟨htaken, fun htakes => ?_⟩
    have hdue := (takesInterrupt_iff hframe hvector).mp htakes
    obtain ⟨hordinary, hclaimed⟩ := h hdue
    have hstep := (takesInterrupt_of_due hframe hvector hdue).2
    rw [hclaimed, if_neg Bool.false_ne_true] at hstep
    exact ⟨_, hstep, interruptEntered_of_ordinary hirq hsr (answeredVector_lt hirq) hframe hvector
      hordinary⟩

/-- A request acknowledged with vector 4, after an instruction at 0x100 and with the
PC at `pc`. -/
def vectoredRequest (pc : U32) : M68kCpu Unit :=
  { init (fun _ => 0) 0x1000 () with irqLevel := 1, ssp := 0x800, pc := pc, ppc := 0x100 }

/-- A host that acknowledges with vector 4 and answers `claim` to an illegal opcode. -/
def vectorFour (claim : Int) : EntryHost Unit where
  intAck := some fun _ host => (host, 4)
  illgCb := some fun _ host => (host, claim)

theorem entersInterrupts_iff_vectored :
    EntersInterrupts (vectorFour 0) (vectoredRequest 0x100) ↔
      (interruptDue (vectoredRequest 0x100) = true →
        entersAsInterrupt 4 (vectoredRequest 0x100) = true ∧
          claimed (vectorFour 0) (vectoredRequest 0x100) = false) :=
  entersInterrupts_iff (by decide) (by decide) (by decide) (by decide)

theorem interrupt_loses_pc :
    ¬∀ (c : EntryHost Unit) (s : M68kCpu Unit), s.irqLevel ≤ 7 → s.sr &&& srMask = s.sr →
      M68k.fits s s.supervisorSp (frameOf (answeredVector c s) s) = true →
      hasVector (answeredVector c s) s = true → EntersInterrupts c s := by
  intro h
  have hframe : M68k.fits (vectoredRequest 0x102) (vectoredRequest 0x102).supervisorSp
      (frameOf (answeredVector (vectorFour 0) (vectoredRequest 0x102)) (vectoredRequest 0x102)) =
      true := by decide
  have hvector : hasVector (answeredVector (vectorFour 0) (vectoredRequest 0x102))
      (vectoredRequest 0x102) = true := by decide
  obtain ⟨htakes, hstep⟩ := takesInterrupt_of_due hframe hvector (by decide)
  obtain ⟨t, ht, hentered⟩ :=
    (h (vectorFour 0) (vectoredRequest 0x102) (by decide) (by decide) hframe hvector).entered htakes
  rw [hstep, if_neg (by decide)] at ht
  cases ht
  have hordinary := ordinary_of_interruptEntered (by decide) hframe hentered
  revert hordinary
  decide

end M68k
