import Rocket68.Logic.Lines
import Rocket68.Timeslice

/-!
# Every step costs time

The exit of a step, an abandoned instruction and the entry of an interrupt all charge what
they cost, so the balance of the timeslice falls by 4 or more in every step, and the run loop
comes to an end.
-/

namespace M68k

open Trap TrapM

variable {σ : Type} {h : Host σ} {s t u : M68kCpu σ} {check : Bool}

/-! ## The step -/

section Step

variable (hh : Honest h)
include hh

omit hh in
/-- Without a trap to take, nothing unwinds. -/
theorem Spends.returns {α : Type} {n : Int} {m : M σ α} (hm : Spends h 2 n 0 m)
    (hs : s.faultTrapActive = false) : wp m h (fun _ t => Spent 2 n s t) (fun _ => False) s :=
  wp_mono (hm s (clearGuards_le s)) (fun _ _ ht => ht) fun _ ht =>
    absurd (ht.armed.symm.trans hs) (by decide)

/-- The exit charges the cost, or that of the exception in its place. -/
theorem finishStep_charges (trace : Bool) (c : Int) (s : M68kCpu σ) :
    wp (finishStep check trace c) h (fun _ t => t.targetCycles = s.targetCycles ∧
      t.cyclesRemaining + exceptionCost s.exceptionThrown c ≤ s.cyclesRemaining)
      (fun _ => False) s := by
  have htarget : Spends h 2 0 0 (checkTarget : M σ Unit) := fun t ht => wp_ite
    (fun _ => (raiseOddTargetFault_spends hh (Int.le_refl 0) _ _).mono (by decide)
      (Int.le_refl 0) t ht)
    fun _ => .refl t
  have htrace : Spends h 2 0 0 (deliverTrace check trace : M σ Unit) := fun t ht => wp_ite
    (fun _ => exception_spends hh (Int.le_refl 0) (by decide) t ht) fun _ => .refl t
  have hrest := Spends.seq htarget fun _ => .seq htrace fun _ =>
    .charge (exceptionCost s.exceptionThrown c)
  refine wp_bind.mpr (wp_modify.mpr (wp_bind.mpr (wp_gets.mpr ?_)))
  refine wp_mono (hrest.returns rfl) (fun _ t ht => ⟨ht.target, ht.cost⟩) fun _ => id

/-- Under the armed trap: fetch, dispatch and exit. -/
theorem execInstruction_pays (trace : Bool) (hs : s.exceptionThrown = 0) :
    wp (execInstruction check trace) h (fun _ t => t.targetCycles = s.targetCycles ∧
      t.cyclesRemaining + 4 ≤ s.cyclesRemaining)
      (fun t => t.targetCycles = s.targetCycles ∧ t.cyclesRemaining ≤ s.cyclesRemaining + 8) s := by
  refine wp_bind.mpr (wp_modify.mpr (wp_bind.mpr ?_))
  refine wp_mono (fetch_marks hh (k := 8) (by decide) _) ?_ fun _ ht => ⟨ht.target, ht.cost⟩
  rintro opcode t ⟨hst, hmarks⟩
  have hspent : t.cyclesRemaining + 0 ≤ s.cyclesRemaining := hst.cost
  refine wp_bind.mpr (wp_gets.mpr (wp_ite (fun _ => ?_) fun hgroup0 => ?_))
  · refine wp_bind.mpr (wp_modify.mpr (wp_modify.mpr ⟨hst.target, ?_⟩))
    show t.cyclesRemaining - 54 + 4 ≤ s.cyclesRemaining
    omega
  -- A fetch that faulted is marked, so here nothing has been thrown yet.
  have hfresh : t.exceptionThrown = 0 := (hmarks hs).resolve_right hgroup0
  refine wp_bind.mpr (wp_modify.mpr (wp_bind.mpr ?_))
  refine wp_mono (dispatch_settles hh _ hfresh) ?_ fun u hu => ?_
  · rintro c u ⟨htarget, htrap, hsettled⟩
    refine wp_mono (finishStep_charges hh trace c u) ?_ fun _ => False.elim
    rintro _ v ⟨hv, hcost⟩
    have hsettled : u.cyclesRemaining + 4 ≤ t.cyclesRemaining + exceptionCost u.exceptionThrown c :=
      hsettled
    exact ⟨hv.trans (htarget.trans hst.target), by omega⟩
  · have hcost : u.cyclesRemaining ≤ t.cyclesRemaining + 8 := hu.cost
    exact ⟨hu.target.trans hst.target, by omega⟩

omit hh in
/-- An abandoned instruction may have taken back 8 cycles; its exception costs more. -/
theorem abortInstruction_charges (s : M68kCpu σ) :
    wp (abortInstruction : M σ Unit) h (fun _ t => t.targetCycles = s.targetCycles ∧
      t.cyclesRemaining + 34 ≤ s.cyclesRemaining) (fun _ => False) s := by
  refine wp_bind.mpr (wp_modify.mpr (wp_bind.mpr (wp_gets.mpr (wp_modify.mpr ⟨rfl, ?_⟩))))
  have hcost : (34 : Int) ≤ if s.group0Fault = true then 54 else 34 :=
    le_ite (by decide) (by decide)
  show s.cyclesRemaining - _ + 34 ≤ s.cyclesRemaining
  omega

/-- An interrupt is taken at no gain of cycles; if none is due the state stays. -/
theorem serviceInterrupts_spends (check : Bool) (hs : s.faultTrapActive = false) :
    wp (serviceInterrupts check) h (fun taken t => t.targetCycles = s.targetCycles ∧
      t.cyclesRemaining ≤ s.cyclesRemaining ∧ (taken = false → t = s)) (fun _ => False) s := by
  have hstay : wp (Pure.pure false : M σ Bool) h (fun taken t => t.targetCycles = s.targetCycles ∧
      t.cyclesRemaining ≤ s.cyclesRemaining ∧ (taken = false → t = s)) (fun _ => False) s :=
    ⟨rfl, Int.le_refl _, fun _ => rfl⟩
  have hacknowledge (level : Nat) : Spends h 2 0 0 (acknowledge level) := by
    refine .env ?_
    dsimp only
    split
    case' h_1 cb hcb => refine .seq (.call (hh.fcCb cb hcb 7)) fun _ => ?_
    -- with or without that callback, the host or the level answers
    all_goals
      refine .env ?_
      split
      · next cb hcb => exact .seq (.call (hh.intAck cb hcb level)) fun _ => .pure _
      · exact .pure _
  refine wp_ite (fun _ => wp_bind.mpr (wp_gets.mpr (wp_ite (fun _ => ?_) fun _ => hstay))) fun _ =>
    hstay
  refine wp_bind.mpr (wp_gets.mpr (wp_bind.mpr ?_))
  refine wp_mono ((hacknowledge s.irqLevel).returns hs) (fun vector t hst => ?_) fun _ => id
  have htrap : t.faultTrapActive = false := hst.trap.trans hs
  refine wp_bind.mpr (wp_mono (exception_enters hh (Int.le_refl 0) vector t) (fun _ u hu => ?_)
    fun _ hu => absurd (hu.armed.symm.trans htrap) (by decide))
  have hcost : t.cyclesRemaining + 0 ≤ s.cyclesRemaining := hst.cost
  have hcost' : u.cyclesRemaining + 0 ≤ t.cyclesRemaining := hu.cost
  refine wp_bind.mpr (wp_env.mpr (wp_bind.mpr (wp_modify.mpr
    ⟨hu.target.trans hst.target, ?_, fun htaken => nomatch htaken⟩)))
  show u.cyclesRemaining ≤ s.cyclesRemaining
  omega

theorem instrHook_ledger (s : M68kCpu σ) :
    wp (instrHook : M σ Unit) h (fun _ t => ledger t = ledger s) (fun _ => False) s := by
  refine wp_bind.mpr (wp_env.mpr ?_)
  split
  · next cb hcb => exact hh.instrHookCb cb hcb s.pc s
  · exact rfl

theorem stepEx_pays (check : Bool) (s : M68kCpu σ) :
    wp (stepEx check) h (fun _ t => t.targetCycles = s.targetCycles ∧
      t.cyclesRemaining + 4 ≤ s.cyclesRemaining) (fun _ => False) s := by
  have hservice := serviceInterrupts_spends hh check (s := beginStep s) rfl
  refine wp_bind.mpr (wp_modify.mpr (wp_bind.mpr (wp_gets.mpr (wp_ite (fun _ => ?_) fun _ => ?_))))
  -- stopped: an interrupt costs 44 cycles, waiting for one costs 4
  · refine wp_bind.mpr (wp_mono hservice ?_ fun _ => id)
    rintro taken t ⟨htarget, hcost, -⟩
    have hcost : t.cyclesRemaining ≤ s.cyclesRemaining := hcost
    refine wp_ite (fun _ => wp_modify.mpr ⟨htarget, ?_⟩) fun _ => wp_modify.mpr ⟨htarget, ?_⟩
    · show t.cyclesRemaining - 44 + 4 ≤ s.cyclesRemaining
      omega
    · show t.cyclesRemaining - 4 + 4 ≤ s.cyclesRemaining
      omega
  -- running: an interrupt is the whole step
  · refine wp_bind.mpr (wp_mono hservice ?_ fun _ => id)
    rintro taken t ⟨htarget, hcost, hstay⟩
    have hcost : t.cyclesRemaining ≤ s.cyclesRemaining := hcost
    refine wp_ite (fun _ => wp_modify.mpr ⟨htarget, ?_⟩) fun htaken => ?_
    · show t.cyclesRemaining - 44 + 4 ≤ s.cyclesRemaining
      omega
    obtain rfl := hstay (by simpa using htaken)
    refine wp_bind.mpr (wp_gets.mpr (wp_bind.mpr (wp_mono (instrHook_ledger hh _) ?_ fun _ => id)))
    intro _ t ht
    have hthrown : t.exceptionThrown = 0 := congrArg Ledger.exceptionThrown ht
    have htarget' : t.targetCycles = s.targetCycles := congrArg Ledger.targetCycles ht
    have hcycles : t.cyclesRemaining = s.cyclesRemaining := congrArg Ledger.cyclesRemaining ht
    -- What an aborted instruction took back, its exception pays.
    refine wp_catchTrap.mpr (wp_mono (execInstruction_pays hh _ hthrown) ?_ ?_)
    · rintro _ u ⟨hu, hpaid⟩
      exact ⟨hu.trans htarget', by omega⟩
    · rintro u ⟨hu, hback⟩
      refine wp_mono (abortInstruction_charges u) ?_ fun _ => id
      rintro _ v ⟨hv, hpaid⟩
      exact ⟨hv.trans (hu.trans htarget'), by omega⟩

/-- A step returns, and costs 4 cycles or more; what is left is counted if the cost fits. -/
theorem step_costs_cycles (check : Bool) (s : M68kCpu σ) (hs : IsInt s.cyclesRemaining) :
    ∃ t cost, stepEx check h s = .ok () t ∧ t.targetCycles = s.targetCycles ∧ 4 ≤ cost ∧
      t.cyclesRemaining = s.cyclesRemaining - cost ∧
        (cost ≤ s.cyclesRemaining + 2 ^ 31 → IsInt t.cyclesRemaining) := by
  obtain ⟨_, t, ht, htarget, hcost⟩ := exists_ok_of_wp (stepEx_pays hh check s)
  refine ⟨t, s.cyclesRemaining - t.cyclesRemaining, ht, htarget, by omega, by omega, fun hfit => ?_⟩
  obtain ⟨-, hhigh⟩ := hs
  exact ⟨by omega, by omega⟩

end Step

/-- A host without callbacks has none that could touch the account. -/
theorem honest_none : Honest (Host.none σ) where
  waitBus := nofun
  intAck := nofun
  fcCb := nofun
  instrHookCb := nofun
  pcChangedCb := nofun
  resetCb := nofun
  tasCb := nofun
  illgCb := nofun
  read8Cb := nofun
  read16Cb := nofun
  read32Cb := nofun
  write8Cb := nofun
  write16Cb := nofun
  write32Cb := nofun

/-- On zeroed memory: ORI.B #0,D0. -/
theorem step_costs_cycles_init : ∃ t,
    stepEx true (Host.none Unit) (init (fun _ => 0) 0x1000 ()) = .ok () t ∧
      t.targetCycles = 0 ∧ t.cyclesRemaining = -8 ∧ IsInt t.cyclesRemaining := by
  obtain ⟨t, cost, ht, htarget, -, hleft, hfit⟩ :=
    step_costs_cycles honest_none true (init (fun _ => 0) 0x1000 ()) (by decide)
  have hrun : (exec? (stepEx true) (Host.none Unit) (init (fun _ => 0) 0x1000 ())).map
      (·.cyclesRemaining) = some (-8) := by decide
  rw [exec?, ht] at hrun
  have hcost : t.cyclesRemaining = -8 := Option.some.inj hrun
  have hleft : t.cyclesRemaining = 0 - cost := hleft
  have hroom : cost ≤ 0 + 2 ^ 31 := by omega
  exact ⟨t, ht, htarget, hcost, hfit hroom⟩

/-! ## The run loop -/

/-- The states in which the run loop from `s` looks at the balance. -/
inductive Passes (h : Host σ) : M68kCpu σ → M68kCpu σ → Prop
  | here (s : M68kCpu σ) : Passes h s s
  | later {s t v : M68kCpu σ} (hs : 0 < s.cyclesRemaining) (hstep : step h s = .ok () t)
      (rest : Passes h t v) : Passes h s v

/-- No step of the run loop from `s` costs more than `k` cycles. -/
def StepsCost (h : Host σ) (k : Int) (s : M68kCpu σ) : Prop :=
  ∀ v w, Passes h s v → 0 < v.cyclesRemaining → step h v = .ok () w →
    v.cyclesRemaining ≤ w.cyclesRemaining + k

theorem StepsCost.spent {k : Int} (hs : s.cyclesRemaining ≤ 0) : StepsCost h k s := by
  rintro v w (_ | ⟨hpos, -, -⟩) hv -
  · omega
  · omega

theorem StepsCost.step {k : Int} (hstep : step h s = .ok () t)
    (hcost : s.cyclesRemaining ≤ t.cyclesRemaining + k) (ht : StepsCost h k t) :
    StepsCost h k s := by
  rintro v w (_ | ⟨-, hfirst, rest⟩) hv hw
  · cases hstep.symm.trans hw
    exact hcost
  · cases hstep.symm.trans hfirst
    exact ht v w rest hv hw

end M68k
