import Rocket68.Logic.Step

/-!
# The step boundary

Between two steps no fault is in flight: the trap is disarmed, the re-entry
guards and the latches that steer fault reporting are clear, and the status
register holds implemented bits only. Every exit of `m68k_step_ex` restores
this.
-/

namespace M68k

open Trap TrapM

variable {σ : Type} {k : Option (Nat → M68kCpu σ → M68kCpu σ × U32)} {g : Grade} {p q : Phase}
  {s t u : M68kCpu σ}

/-- Only the implemented bits of a status register are set. -/
def Masked (sr : U16) : Prop := sr &&& ~~~srMask = 0

/-- The invariant of a step boundary. -/
structure Settled (s : M68kCpu σ) : Prop where
  trapActive : s.faultTrapActive = false
  addressGuard : s.inAddressError = false
  busGuard : s.inBusError = false
  programSpace : s.operandProgramSpace = false
  busWord : s.faultBusWordValid = false
  faultValid : s.faultValid = false
  depth : s.exceptionDepth = 0
  irqLevel : s.irqLevel ≤ 7
  sr : Masked s.sr

/-! ## The status register -/

theorem masked_iff {sr : U16} :
    Masked sr ↔ ∀ i, i < 16 → srMask.getLsbD i = false → sr.getLsbD i = false := by
  constructor
  · intro h i hi hmask
    have hbit := congrArg (BitVec.getLsbD · i) h
    simp only [BitVec.getLsbD_and, BitVec.getLsbD_not, hmask, hi, decide_true, Bool.not_false,
      Bool.and_true] at hbit
    rw [hbit]
    exact BitVec.getLsbD_zero
  · intro h
    apply BitVec.eq_of_getLsbD_eq
    intro i hi
    by_cases hmask : srMask.getLsbD i = true
    · simp [hmask]
    · simp [h i hi (by simpa using hmask)]

theorem masked_and (v : U16) : Masked (v &&& srMask) := by
  rw [masked_iff]
  intro i _ hmask
  simp [hmask]

theorem masked_handlerSr (sr : U16) : Masked (handlerSr sr) := masked_and _

theorem CcrOnly.masked {sr sr' : U16} (h : CcrOnly sr sr') (hs : Masked sr) : Masked sr' := by
  have hlow : ∀ i : Fin 5, srMask.getLsbD i = true := by decide
  rw [masked_iff] at hs ⊢
  intro i hi hmask
  by_cases h5 : 5 ≤ i
  · rcases h i h5 with heq | ⟨-, hclear⟩
    · rw [heq]
      exact hs i hi hmask
    · exact hclear
  · rw [hlow ⟨i, by omega⟩] at hmask
    cases hmask

/-- An interrupt level fits the mask field. -/
theorem masked_level {level : Nat} (hl : level ≤ 7) {sr : U16} (hs : Masked sr) :
    Masked ((sr &&& ~~~(0x0700 : U16)) ||| (BitVec.ofNat 16 level <<< 8)) := by
  have hlevel : ∀ l : Fin 8, ∀ i : Fin 16, srMask.getLsbD i = false →
      (BitVec.ofNat 16 l <<< 8).getLsbD i = false := by decide
  rw [masked_iff] at hs ⊢
  intro i hi hmask
  rw [BitVec.getLsbD_or, BitVec.getLsbD_and, hs i hi hmask,
    hlevel ⟨level, by omega⟩ ⟨i, hi⟩ hmask]
  rfl

/-! ## Instructions -/

/-- The part of the invariant that holds inside an instruction. -/
structure Orderly (s : M68kCpu σ) : Prop where
  faultValid : s.faultValid = false
  sr : Masked s.sr

theorem Processed.orderly {v : Nat} (h : Processed v s t) : Orderly t where
  faultValid := h.latches.2.1
  sr := by
    rw [h.sr]
    exact masked_handlerSr _

theorem Trans.orderly (h : Trans k g p q s t) (hs : Steady s) (ho : Orderly s) : Orderly t := by
  cases h with
  | latch _ h =>
    rw [h]
    exact ⟨ho.faultValid, ho.sr⟩
  | ccr _ h => exact ⟨ho.faultValid, h.masked ho.sr⟩
  | setSr _ _ v =>
    rw [withSr_eq]
    exact ⟨ho.faultValid, masked_and v⟩
  | @control _ _ _ _ c => cases c <;> exact ⟨ho.faultValid, ho.sr⟩
  | raised _ h => exact (exception_steady hs h).orderly
  | trapped _ _ _ h => exact (exception_steady hs h).orderly
  | targetFault _ _ _ _ h =>
    have hp := (targetFault_kept hs h).1.orderly
    rw [holdGuard_eq]
    exact ⟨hp.faultValid, hp.sr⟩
  | charge | rewind | fetch | read | setA | setD | write | jump | setUsp | stop =>
    exact ⟨ho.faultValid, ho.sr⟩

theorem Run.orderly (h : Run k g p q s t) (hs : Steady s) (ho : Orderly s) : Orderly t := by
  have hboth := h.preserves (J := fun _ t => Steady t ∧ Orderly t) (fun _ h => h)
    (fun ht h => ⟨steady_of_wiring (ht.wiring h.1) h.1, ht.orderly h.1 h.2⟩) ⟨hs, ho⟩
  exact hboth.2

/-! ## Exits -/

/-- An exception taken at depth 0 settles everything but the trap. -/
theorem Processed.settled {v : Nat} (h : Processed v s t) (hs : Steady s)
    (htrap : s.faultTrapActive = false) (hirq : s.irqLevel ≤ 7) : Settled t := by
  have hsteady := steady_of_kept h.kept hs
  obtain ⟨-, hvalid, -, hword, hspace⟩ := h.latches
  have htrap' : t.faultTrapActive = s.faultTrapActive := congrArg Kept.faultTrapActive h.kept
  have hirq' : t.irqLevel = s.irqLevel := congrArg Kept.irqLevel h.kept
  exact ⟨htrap'.trans htrap, hsteady.addressGuard, hsteady.busGuard, hspace, hword, hvalid,
    hsteady.depth, hirq' ▸ hirq, h.orderly.sr⟩

theorem Settled.charged (h : Settled s) (n : Int) : Settled (charged n s) :=
  ⟨h.1, h.2, h.3, h.4, h.5, h.6, h.7, h.8, h.9⟩

/-- The latches are clear after an unwinding. -/
theorem Abort.latches (h : Abort k g p s t) (hs : Steady s) : latchesClear t ∧ Masked t.sr := by
  cases h with
  | fault _ _ _ h =>
    have hp := (accessFault_kept hs h).1
    rw [holdGuard_eq]
    exact ⟨hp.latches, hp.orderly.sr⟩
  | illegalEa _ h =>
    have hp := exception_steady hs h
    exact ⟨hp.latches, hp.orderly.sr⟩

/-- So an unwound step ends settled. -/
theorem Abort.settled (h : Abort k g p s t) (hs : Steady s) (hirq : s.irqLevel ≤ 7) :
    Settled (aborted t) := by
  have hsteady := steady_of_kept (h.kept hs) hs
  have hirq' : t.irqLevel = s.irqLevel := congrArg Kept.irqLevel (h.kept hs)
  obtain ⟨⟨-, hvalid, -, hword, hspace⟩, hsr⟩ := h.latches hs
  exact ⟨rfl, hsteady.addressGuard, hsteady.busGuard, hspace, hword, hvalid, hsteady.depth,
    hirq' ▸ hirq, hsr⟩

/-- The exit of an executed instruction. -/
theorem Finishes.settled {check trace : Bool} {cycles : Int}
    (h : Finishes k check trace cycles s t) (hs : Steady s) (ho : Orderly s)
    (hmark : s.faultBusWordValid = false ∧ s.operandProgramSpace = false)
    (hirq : s.irqLevel ≤ 7) : Settled t := by
  have hs' : Steady (disarmed s) := ⟨hs.1, hs.2, hs.3⟩
  cases h with
  | oddTarget _ h =>
    obtain ⟨hp, hkept⟩ := targetFault_kept hs' h
    have hsteady := steady_of_kept (s := charged 50 (disarmed s)) hkept ⟨hs.1, hs.2, hs.3⟩
    have htrap : (holdGuard 3 false _).faultTrapActive = false :=
      congrArg Kept.faultTrapActive hkept
    have hirq' : (holdGuard 3 false _).irqLevel = s.irqLevel := congrArg Kept.irqLevel hkept
    rw [holdGuard_eq] at hsteady htrap hirq' ⊢
    obtain ⟨-, hvalid, -, hword, hspace⟩ := hp.latches
    exact ⟨htrap, hsteady.addressGuard, hsteady.busGuard, hspace, hword, hvalid, hsteady.depth,
      Nat.le_trans (Nat.le_of_eq hirq') hirq, hp.orderly.sr⟩
  | traced _ _ h => exact ((exception_steady hs' h).settled hs' rfl hirq).charged _
  | plain =>
    exact ⟨rfl, hs.addressGuard, hs.busGuard, hmark.2, hmark.1, ho.faultValid, hs.depth, hirq,
      ho.sr⟩

theorem Stepped.settled {check : Bool} (h : Stepped none g check s t) (hs : Settled s) :
    Settled t := by
  have hrunning := fetched_running (s := s) hs.depth
  cases h with
  | idle =>
    exact ⟨rfl, rfl, rfl, hs.programSpace, hs.busWord, rfl, hs.depth, hs.irqLevel, hs.sr⟩
  | interrupt _ _ h =>
    have hsteady : Steady (beginStep s) := ⟨hs.depth, rfl, rfl⟩
    have ht := (exception_steady hsteady h).settled hsteady rfl hs.irqLevel
    exact ⟨ht.1, ht.2, ht.3, ht.4, ht.5, ht.6, ht.7, Nat.zero_le _,
      masked_level hs.irqLevel ht.sr⟩
  | fetchFault _ _ hacc h =>
    have habort : Abort none (Grade.of s.supervisor (opcodeAt s)) .decode (armed s)
        (holdGuard (faultVector .word s.pc) false _) :=
      .fault before (fun _ => .inl before) hacc h
    exact habort.settled (armed_running hs.depth).steady hs.irqLevel
  | unwound _ _ _ _ h =>
    obtain ⟨r, u, hrun, hu, habort⟩ := h
    have hirq : u.irqLevel = s.irqLevel := congrArg Wiring.irqLevel (hrun.wiring hrunning.steady)
    exact habort.settled hu.steady (Nat.le_trans (Nat.le_of_eq hirq) hs.irqLevel)
  | @completed c u _ _ _ _ _ hrun hmark hfin =>
    have hirq : u.irqLevel = s.irqLevel := congrArg Wiring.irqLevel (hrun.wiring hrunning.steady)
    have hclear : u.faultBusWordValid = false ∧ u.operandProgramSpace = false := by
      constructor
      · rw [Bool.eq_false_iff]
        intro h
        have hbefore := hmark.busWord h
        exact Bool.false_ne_true (hs.busWord.symm.trans hbefore)
      · rw [Bool.eq_false_iff]
        intro h
        have hbefore := hmark.programSpace h
        exact Bool.false_ne_true (hs.programSpace.symm.trans hbefore)
    exact hfin.settled (hrun.steady hrunning.steady) (hrun.orderly hrunning.steady ⟨rfl, hs.sr⟩)
      hclear (Nat.le_trans (Nat.le_of_eq hirq) hs.irqLevel)

/-- A checked step returns to the boundary. -/
theorem Settled.step (hs : Settled s) : ∃ t, step (Host.none σ) s = .ok () t ∧ Settled t := by
  obtain ⟨t, ht, hst⟩ := stepEx_cases (k := none) (g := .of s.supervisor (opcodeAt s)) true
    hs.depth hs.depth (Grade.of_covers _ _) rfl
  exact ⟨t, ht, hst.settled hs⟩

/-- Every exit of `m68k_step_ex` leads back to the boundary. -/
theorem stepEx_settled (check : Bool) (hs : Settled s) :
    ∃ t, stepEx check (Host.none σ) s = .ok () t ∧ Settled t := by
  obtain ⟨t, ht, hst⟩ := stepEx_cases (k := none) (g := .of s.supervisor (opcodeAt s)) check
    hs.depth hs.depth (Grade.of_covers _ _) rfl
  exact ⟨t, ht, hst.settled hs⟩

theorem stepEx_settled_init :
    ∃ t, stepEx true (Host.none Unit) (init (fun _ => 0x4E) 0x1000 ()) = .ok () t ∧ Settled t :=
  stepEx_settled true ⟨rfl, rfl, rfl, rfl, rfl, rfl, rfl, Nat.zero_le _, rfl⟩

end M68k
