import Rocket68.Logic.Run

/-!
# Inversion of the step function

`m68k_step_ex` services an interrupt, idles while stopped, or runs one
instruction; an instruction is unwound or ends at `done:`. `Stepped` says once
what each of these does, and `stepEx_cases` that a step does nothing else.
-/

namespace M68k

open Trap TrapM

variable {σ : Type} {k : Option (Nat → M68kCpu σ → M68kCpu σ × U32)} {s t : M68kCpu σ}

/-! ## Interrupt service -/

/-- The context and the vector after the acknowledge cycle. -/
def acknowledged (k : Option (Nat → M68kCpu σ → M68kCpu σ × U32)) (level : Nat)
    (s : M68kCpu σ) : M68kCpu σ × Nat :=
  match k with
  | some cb => ((cb level s).1, ackVector (cb level s).2 level)
  | none => (s, 24 + level)

theorem acknowledge_run (level : Nat) (s : M68kCpu σ) :
    acknowledge level (ackHost k) s =
      .ok (acknowledged k level s).2 (acknowledged k level s).1 := by
  cases k <;> rfl

theorem checkInterrupts_not_due {host : Host σ} (h : interruptDue s = false) :
    checkInterrupts host s = .ok false s := by
  simp only [checkInterrupts, gets_bind, h, Bool.false_eq_true, if_false]
  rfl

/-- A due request is acknowledged and its exception processed. -/
theorem checkInterrupts_due (h : interruptDue s = true)
    (ht : exception (acknowledged k s.irqLevel s).2 (ackHost k) (acknowledged k s.irqLevel s).1 =
      .ok () t) :
    checkInterrupts (ackHost k) s =
      .ok true (finishInterrupt s.irqLevel k.isSome t) := by
  simp only [checkInterrupts, gets_bind, h, if_true]
  rw [bind_ok (acknowledge_run s.irqLevel s), bind_ok ht]
  rfl

/-- Interrupt service stays in supervisor state. -/
theorem finishInterrupt_userSp {level : Nat} (hl : level ≤ 7) (held : Bool) (t : M68kCpu σ) :
    (finishInterrupt level held t).supervisor = t.supervisor ∧
      (finishInterrupt level held t).userSp = t.userSp ∧
      (finishInterrupt level held t).supervisorSp = t.supervisorSp := by
  have hbit : ∀ l : Fin 8, (BitVec.ofNat 16 l <<< 8).getLsbD 13 = false := by decide
  have hsup : (finishInterrupt level held t).supervisor = t.supervisor := by
    rw [supervisor_eq, supervisor_eq, finishInterrupt, BitVec.getLsbD_or,
      hbit ⟨level, by omega⟩]
    simp
  refine ⟨hsup, ?_, ?_⟩
  · simp only [M68kCpu.userSp, hsup]
    rfl
  · simp only [M68kCpu.supervisorSp, hsup]
    rfl

/-! ## The instruction -/

/-- The state under the armed trap, before the opcode fetch. -/
def armed (s : M68kCpu σ) : M68kCpu σ := armTrap (beginStep s)

/-- The instruction word at the PC. -/
def opcodeAt (s : M68kCpu σ) : U16 := wordAt s.memory (maskAddress24 s.pc)

/-- The state in which the decoder starts. -/
def fetched (s : M68kCpu σ) : M68kCpu σ :=
  { (armed s).noted (.access .fetch .word s.pc) with pc := s.pc + 2, ir := opcodeAt s }

theorem armed_running (hd : s.exceptionDepth = 0) : Running (armed s) :=
  ⟨rfl, hd, rfl, rfl, rfl, rfl⟩

theorem fetched_running (hd : s.exceptionDepth = 0) : Running (fetched s) :=
  ⟨rfl, hd, rfl, rfl, rfl, rfl⟩

theorem fetched_supervisor (s : M68kCpu σ) : (fetched s).supervisor = s.supervisor := rfl

/-- After an unwound instruction. -/
def aborted (t : M68kCpu σ) : M68kCpu σ :=
  { t with
    faultTrapActive := false
    cyclesRemaining := t.cyclesRemaining - (if t.group0Fault then 54 else 34) }

theorem abortInstruction_run (h : Host σ) (t : M68kCpu σ) :
    abortInstruction h t = .ok () (aborted t) := rfl

/-! ## The exit -/

/-- The state at `done:`, with the trap disarmed. -/
def disarmed (s : M68kCpu σ) : M68kCpu σ := { s with faultTrapActive := false }

/-- The condition of the trace exception. -/
def traceDue (check trace : Bool) (s : M68kCpu σ) : Bool :=
  !s.group0Fault && check && trace && !s.stopped

/-- From `done:` to the end of the step. -/
inductive Finishes (k : Option (Nat → M68kCpu σ → M68kCpu σ × U32)) (check trace : Bool)
    (cycles : Int) (s : M68kCpu σ) : M68kCpu σ → Prop
  | oddTarget {t : M68kCpu σ} (hodd : isOdd s.pc = true)
      (h : exception 3 (ackHost k) (targetFaulting 3 s.pc (s.ppc + 2) (disarmed s)) = .ok () t) :
      Finishes k check trace cycles s
        (charged (exceptionCost s.exceptionThrown cycles) (holdGuard 3 false t))
  | traced {t : M68kCpu σ} (heven : isOdd s.pc = false) (hdue : traceDue check trace s = true)
      (h : exception 9 (ackHost k) (disarmed s) = .ok () t) :
      Finishes k check trace cycles s (charged (exceptionCost s.exceptionThrown cycles) t)
  | plain (heven : isOdd s.pc = false) (hdue : traceDue check trace s = false) :
      Finishes k check trace cycles s
        (charged (exceptionCost s.exceptionThrown cycles) (disarmed s))

theorem deliverTrace_due {check trace : Bool} (h : traceDue check trace s = true) :
    deliverTrace check trace (ackHost k) s = exception 9 (ackHost k) s := by
  simp only [traceDue] at h
  simp only [deliverTrace, gets_bind, id, h, if_true]

theorem deliverTrace_not_due {check trace : Bool} (h : traceDue check trace s = false) :
    deliverTrace check trace (ackHost k) s = .ok () s := by
  simp only [traceDue] at h
  simp only [deliverTrace, gets_bind, id, h, Bool.false_eq_true, if_false]
  rfl

theorem finishStep_cases (check trace : Bool) (cycles : Int) (hd : 0 ≤ s.exceptionDepth)
    (hg : s.inAddressError = false) :
    ∃ t, finishStep check trace cycles (ackHost k) s = .ok () t ∧
      Finishes k check trace cycles s t := by
  have hrun : finishStep check trace cycles (ackHost k) s =
      (checkTarget >>= fun _ => deliverTrace check trace >>= fun _ =>
        charge (exceptionCost s.exceptionThrown cycles)) (ackHost k) (disarmed s) := rfl
  have hg' : (disarmed s).inAddressError = false := hg
  rw [hrun]
  cases hpc : isOdd s.pc with
  | true =>
    obtain ⟨t, ht⟩ := raiseTargetFault_run (k := k) (v := 3) s.pc (s.ppc + 2) (s := disarmed s) hd
    obtain ⟨t', ht', hp⟩ := exception_processed (k := k) 3
      (s := targetFaulting 3 s.pc (s.ppc + 2) (disarmed s))
      (by rw [targetFaulting, (holdGuard_kept _ _ _).2.1]; exact hd)
    have hgroup0 : (holdGuard 3 false t).group0Fault = true := by
      have heq : t' = t := by rw [ht] at ht'; cases ht'; rfl
      rw [← heq]
      exact hp.group0 rfl
    have hcheck : checkTarget (ackHost k) (disarmed s) = .ok () (holdGuard 3 false t) := by
      have hpc' : isOdd (disarmed s).pc = true := hpc
      simp only [checkTarget, gets_bind, id, hg', hpc', Bool.not_false, Bool.and_self, if_true]
      exact (bind_ok ht).trans rfl
    have hnone : traceDue check trace (holdGuard 3 false t) = false := by
      rw [traceDue, hgroup0]
      rfl
    refine ⟨_, ?_, .oddTarget hpc ht⟩
    rw [bind_ok hcheck, bind_ok (deliverTrace_not_due hnone)]
    rfl
  | false =>
    have hcheck : checkTarget (ackHost k) (disarmed s) = .ok () (disarmed s) := by
      have hpc' : isOdd (disarmed s).pc = false := hpc
      simp only [checkTarget, gets_bind, id, hpc', Bool.false_and, Bool.false_eq_true, if_false]
      rfl
    rw [bind_ok hcheck]
    cases hdue : traceDue check trace s with
    | true =>
      obtain ⟨t, ht, -⟩ := exception_processed (k := k) 9 (s := disarmed s) hd
      have hdeliver : deliverTrace check trace (ackHost k) (disarmed s) = .ok () t :=
        (deliverTrace_due (s := disarmed s) hdue).trans ht
      exact ⟨_, (bind_ok hdeliver).trans rfl, .traced hpc hdue ht⟩
    | false =>
      exact ⟨_, (bind_ok (deliverTrace_not_due (s := disarmed s) hdue)).trans rfl,
        .plain hpc hdue⟩

/-! ## The whole step -/

/-- From a step boundary to the next one. -/
inductive Stepped (k : Option (Nat → M68kCpu σ → M68kCpu σ × U32)) (g : Grade) (check : Bool)
    (s : M68kCpu σ) : M68kCpu σ → Prop
  | idle (hstop : s.stopped = true) (hdue : (check && interruptDue s) = false) :
      Stepped k g check s (charged 4 (beginStep s))
  | interrupt {t : M68kCpu σ} (hcheck : check = true) (hdue : interruptDue s = true)
      (h : exception (acknowledged k s.irqLevel (beginStep s)).2 (ackHost k)
        (acknowledged k s.irqLevel (beginStep s)).1 = .ok () t) :
      Stepped k g check s (charged 44 (finishInterrupt s.irqLevel k.isSome t))
  | fetchFault {t : M68kCpu σ} (hstop : s.stopped = false)
      (hdue : (check && interruptDue s) = false) (hacc : accessible s .word s.pc = false)
      (h : exception (faultVector .word s.pc) (ackHost k)
        (faulting .fetch .word s.pc (armed s)) = .ok () t) :
      Stepped k g check s (aborted (holdGuard (faultVector .word s.pc) false t))
  | unwound {t : M68kCpu σ} (hstop : s.stopped = false)
      (hdue : (check && interruptDue s) = false) (hacc : accessible s .word s.pc = true)
      (hrun : dispatch (opcodeAt s) (ackHost k) (fetched s) = .trap t)
      (h : Unwinds k g .decode (fetched s) t) : Stepped k g check s (aborted t)
  | completed {c : Int} {t u : M68kCpu σ} (hstop : s.stopped = false)
      (hdue : (check && interruptDue s) = false) (hacc : accessible s .word s.pc = true)
      (hrun : dispatch (opcodeAt s) (ackHost k) (fetched s) = .ok c t)
      (h : Run k g .decode .finished (fetched s) t) (hmark : Unmarked (fetched s) t)
      (hfin : Finishes k check s.traced c t u) : Stepped k g check s u

theorem Finishes.wiring {check trace : Bool} {cycles : Int}
    (h : Finishes k check trace cycles s t) (hs : Steady s) : M68k.wiring t = M68k.wiring s := by
  have hs' : Steady (disarmed s) := ⟨hs.1, hs.2, hs.3⟩
  cases h with
  | oddTarget _ h =>
    have hkept := (targetFault_kept hs' h).2
    exact (wiring_charged _ _).trans (wiring_of_kept (s := charged 50 (disarmed s)) hkept)
  | traced _ _ h =>
    have hkept := (exception_steady hs' h).kept
    exact (wiring_charged _ _).trans (wiring_of_kept (s := disarmed s) hkept)
  | plain => rfl

/-- The instruction at the PC keeps the discipline of grade `g`. -/
def Follows (k : Option (Nat → M68kCpu σ → M68kCpu σ × U32)) (g : Grade) (s : M68kCpu σ) : Prop :=
  wp (dispatch (opcodeAt s)) (ackHost k)
    (fun _ t => Run k g .decode .finished (fetched s) t ∧ Unmarked (fetched s) t)
    (fun t => Unwinds k g .decode (fetched s) t) (fetched s)

theorem follows_of_covers {g : Grade} (hd : s.exceptionDepth = 0) (hg : g.Covers (opcodeAt s))
    (hsup : g.supervisor = s.supervisor) : Follows k g s :=
  (Micro.dispatch hg).run (fun _ => fetched_running hd)
    fun _ => (fetched_supervisor s).trans hsup.symm

/-- Every instruction from a boundary ends in a way `Stepped` lists. -/
theorem instruction_cases {check : Bool} {g : Grade} (hd : s.exceptionDepth = 0)
    (hf : accessible s .word s.pc = true → Follows k g s) (hstop : s.stopped = false)
    (hdue : (check && interruptDue s) = false) :
    ∃ t, catchTrap (execInstruction check s.traced) abortInstruction (ackHost k) (beginStep s) =
      .ok () t ∧ Stepped k g check s t := by
  cases hacc : accessible s .word s.pc with
  | false =>
    obtain ⟨u, hu, hfetch⟩ := fetch_miss (k := k) (armed_running hd) hacc
    have hexec : execInstruction check s.traced (ackHost k) (beginStep s) =
        .trap (holdGuard (faultVector .word s.pc) false u) := by
      rw [execInstruction, modify_bind]
      exact bind_trap hfetch
    exact ⟨_, (catchTrap_trap hexec).trans rfl, .fetchFault hstop hdue hacc hu⟩
  | true =>
    have hexec : execInstruction check s.traced (ackHost k) (beginStep s) =
        (dispatch (opcodeAt s) >>= finishStep check s.traced) (ackHost k) (fetched s) := by
      rw [execInstruction, modify_bind]
      exact (bind_ok (fetch_hit (k := k) (armed_running hd) hacc)).trans rfl
    have hrun := hf hacc
    unfold Follows wp at hrun
    cases hdispatch : dispatch (opcodeAt s) (ackHost k) (fetched s) with
    | ok c t =>
      rw [hdispatch] at hrun
      obtain ⟨hrun, hmark⟩ := hrun
      have hsteady := hrun.steady (fetched_running hd).steady
      obtain ⟨u, hu, hfin⟩ := finishStep_cases (k := k) check s.traced c
        (Int.le_of_eq hsteady.depth.symm) hsteady.addressGuard
      exact ⟨u, catchTrap_ok (hexec.trans ((bind_ok hdispatch).trans hu)),
        .completed hstop hdue hacc hdispatch hrun hmark hfin⟩
    | trap t =>
      rw [hdispatch] at hrun
      exact ⟨aborted t, (catchTrap_trap (hexec.trans (bind_trap hdispatch))).trans rfl,
        .unwound (t := t) hstop hdue hacc hdispatch hrun⟩
    | diverge =>
      rw [hdispatch] at hrun
      exact hrun.elim

/-- A step is the service of an interrupt, or one instruction. -/
theorem stepEx_run (check : Bool) {host : Host σ} (s : M68kCpu σ) : stepEx check host s =
    (if s.stopped then
      (serviceInterrupts check >>= fun b => if b then charge 44 else charge 4)
    else
      (serviceInterrupts check >>= fun b => if b then charge 44 else
        (gets (·.traced) >>= fun trace => instrHook >>= fun _ =>
          catchTrap (execInstruction check trace) abortInstruction)))
      host (beginStep s) := rfl

/-- A serviced interrupt is the whole step. -/
theorem stepEx_serviced {host : Host σ} (h : checkInterrupts host (beginStep s) = .ok true t) :
    stepEx true host s = .ok () (charged 44 t) := by
  have hservice : serviceInterrupts true host (beginStep s) = .ok true t := by
    rw [serviceInterrupts, if_pos rfl]
    exact h
  rw [stepEx_run, ite_run]
  split <;> exact (bind_ok hservice).trans rfl

/-- The step that services an interrupt. -/
theorem stepEx_interrupt (hi : interruptDue s = true)
    (ht : exception (acknowledged k s.irqLevel (beginStep s)).2 (ackHost k)
      (acknowledged k s.irqLevel (beginStep s)).1 = .ok () t) :
    stepEx true (ackHost k) s = .ok () (charged 44 (finishInterrupt s.irqLevel k.isSome t)) :=
  stepEx_serviced (checkInterrupts_due (s := beginStep s) hi ht)

/-- Every step from a boundary returns, in a way `Stepped` lists. -/
theorem stepEx_follows {g : Grade} (check : Bool) (hd : s.exceptionDepth = 0)
    (hack : (acknowledged k s.irqLevel (beginStep s)).1.exceptionDepth = 0)
    (hf : accessible s .word s.pc = true → Follows k g s) :
    ∃ t, stepEx check (ackHost k) s = .ok () t ∧ Stepped k g check s t := by
  cases hdue : check && interruptDue s with
  | true =>
    obtain ⟨hc, hi⟩ := Bool.and_eq_true_iff.mp hdue
    obtain ⟨t, ht, -⟩ := exception_processed (k := k) (acknowledged k s.irqLevel (beginStep s)).2
      (Int.le_of_eq hack.symm)
    subst hc
    exact ⟨_, stepEx_interrupt hi ht, .interrupt rfl hi ht⟩
  | false =>
    have hservice :
        serviceInterrupts check (ackHost k) (beginStep s) = .ok false (beginStep s) := by
      cases check with
      | false => rfl
      | true => exact checkInterrupts_not_due (s := beginStep s) hdue
    rw [stepEx_run, ite_run]
    cases hstop : s.stopped with
    | true => exact ⟨_, (bind_ok hservice).trans rfl, .idle hstop hdue⟩
    | false =>
      obtain ⟨t, ht, hst⟩ := instruction_cases (k := k) hd hf hstop hdue
      exact ⟨t, (bind_ok hservice).trans ht, hst⟩

theorem stepEx_cases {g : Grade} (check : Bool) (hd : s.exceptionDepth = 0)
    (hack : (acknowledged k s.irqLevel (beginStep s)).1.exceptionDepth = 0)
    (hg : g.Covers (opcodeAt s)) (hsup : g.supervisor = s.supervisor) :
    ∃ t, stepEx check (ackHost k) s = .ok () t ∧ Stepped k g check s t :=
  stepEx_follows check hd hack fun _ => follows_of_covers hd hg hsup

end M68k
