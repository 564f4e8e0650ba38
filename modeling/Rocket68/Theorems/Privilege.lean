import Rocket68.Logic.Step

/-!
# User code is contained

A step from user state either takes an exception, and then runs the handler the
vector table names, or leaves everything a supervisor owns as it was. The
invariant of an instruction is `Contained`; the run theorem lifts it to user
programs of any length under any interrupt requests.
-/

namespace M68k

open Trap TrapM

variable {σ : Type} {k : Option (Nat → M68kCpu σ → M68kCpu σ × U32)} {g : Grade} {p q : Phase}
  {s t u : M68kCpu σ}

/-! ## User states and the table -/

/-- A context between two steps. -/
structure Boundary (s : M68kCpu σ) : Prop where
  depth : s.exceptionDepth = 0
  irqLevel : s.irqLevel ≤ 7

/-- The table and the address spaces of the supervisor are as they were. -/
def Shielded (s t : M68kCpu σ) : Prop :=
  t.vbr = s.vbr ∧ t.sfc = s.sfc ∧ t.dfc = s.dfc ∧ t.model = s.model

/-- No exception was taken, and the rest of the supervisor's state stands. Mask
0xA700 selects T, S and the interrupt mask. -/
structure Untouched (s t : M68kCpu σ) : Prop where
  quiet : ∀ v, .exception v ∉ t.log
  sr : t.sr &&& 0xA700 = s.sr &&& 0xA700
  ssp : t.ssp = s.ssp
  stopped : t.stopped = s.stopped
  irqLevel : t.irqLevel = s.irqLevel
  nmiPending : t.nmiPending = s.nmiPending

/-- The PC is the table's long word for an exception of the step, 0 where
fetching it faulted. -/
def FromTable (t : M68kCpu σ) : Prop :=
  ∃ v < 256, .exception v ∈ t.log ∧
    ((mapped t .long (t.vbr + BitVec.ofNat 32 v * 4) = true ∧
        t.pc = longAt t.memory (maskAddress24 (t.vbr + BitVec.ofNat 32 v * 4))) ∨
      (accessible t .long (t.vbr + BitVec.ofNat 32 v * 4) = false ∧ t.pc = 0))

/-- At the first instruction of a handler. -/
structure Handling (t : M68kCpu σ) : Prop where
  supervisor : t.supervisor = true
  untraced : t.traced = false
  running : t.stopped = false
  vectored : FromTable t

/-! ## Entering a handler -/

theorem entry_cases (t : M68kCpu σ) (address : U32) :
    (mapped t .long address = true ∧ entry t address = longAt t.memory (maskAddress24 address)) ∨
      (accessible t .long address = false ∧ entry t address = 0) := by
  unfold entry accessible
  simp only [misaligned]
  cases mapped t .long address <;> cases isOdd address <;> cases t.inAddressError <;> simp

theorem Handling.charged (h : Handling t) (n : Int) : Handling (charged n t) := ⟨h.1, h.2, h.3, h.4⟩

theorem Handling.aborted (h : Handling t) : Handling (aborted t) := ⟨h.1, h.2, h.3, h.4⟩

theorem Handling.disarmed (h : Handling t) : Handling (disarmed t) := ⟨h.1, h.2, h.3, h.4⟩

theorem Handling.holdGuard (h : Handling t) (v : Nat) (b : Bool) : Handling (holdGuard v b t) := by
  unfold M68k.holdGuard
  split <;> exact ⟨h.1, h.2, h.3, h.4⟩

theorem Processed.fromTable {v : Nat} (h : Processed v s t) (hv : v < 256) : FromTable t := by
  have hvbr : t.vbr = s.vbr := congrArg Kept.vbr h.kept
  obtain ⟨evs, hlog, -⟩ := h.log
  refine ⟨v, hv, by rw [hlog]; simp, ?_⟩
  rw [hvbr, h.pc]
  exact entry_cases t _

theorem Processed.handling {v : Nat} (h : Processed v s t) (hv : v < 256)
    (hstop : s.stopped = false) : Handling t where
  supervisor := by rw [supervisor_eq, h.sr]; exact handlerSr_supervisor _
  untraced := by rw [traced_eq, h.sr]; exact handlerSr_untraced _
  running := (congrArg Kept.stopped h.kept).trans hstop
  vectored := h.fromTable hv

/-- Interrupt service raises the mask and leaves S and T alone. -/
theorem Processed.handling_interrupt {v level : Nat} (h : Processed v s t) (hv : v < 256)
    (hl : level ≤ 7) (held : Bool) : Handling (finishInterrupt level held t) := by
  have hmask : ∀ l : Fin 8, (BitVec.ofNat 16 l <<< 8).getLsbD 13 = false ∧
      (BitVec.ofNat 16 l <<< 8).getLsbD 15 = false := by decide
  obtain ⟨h13, h15⟩ := hmask ⟨level, by omega⟩
  have hsr (i : Nat) (hi : (0x0700 : U16).getLsbD i = false) (hi' : i < 16)
      (hlevel : (BitVec.ofNat 16 level <<< 8).getLsbD i = false) :
      (finishInterrupt level held t).sr.getLsbD i = (handlerSr s.sr).getLsbD i := by
    simp only [finishInterrupt, h.sr, BitVec.getLsbD_or, BitVec.getLsbD_and, BitVec.getLsbD_not,
      hi, hlevel, Bool.not_false, Bool.or_false, hi', decide_true, Bool.and_self, Bool.and_true]
  refine ⟨?_, ?_, rfl, h.fromTable hv⟩
  · rw [supervisor_eq, hsr 13 (by decide) (by decide) h13]
    exact handlerSr_supervisor _
  · rw [traced_eq, hsr 15 (by decide) (by decide) h15]
    exact handlerSr_untraced _

/-! ## One operation of user code -/

/-- The system byte is out of reach of the condition code operations. -/
theorem CcrOnly.keeps_system {sr sr' : U16} (h : CcrOnly sr sr') :
    sr' &&& 0xA700 = sr &&& 0xA700 := by
  have hlow : ∀ i : Fin 16, (i : Nat) < 8 → (0xA700 : U16)[i] = false := by decide
  ext i hi
  rw [BitVec.getElem_and, BitVec.getElem_and]
  by_cases h8 : i < 8
  · rw [show (0xA700 : U16)[i] = false from hlow ⟨i, hi⟩ h8, Bool.and_false, Bool.and_false]
  · obtain heq | ⟨hlt, -⟩ := h i (by omega)
    · rw [BitVec.getLsbD_eq_getElem hi, BitVec.getLsbD_eq_getElem hi] at heq
      rw [heq]
    · exact absurd hlt h8

/-- A finished instruction only charges. -/
theorem Trans.finished (h : Trans k g .finished q s t) :
    q = .finished ∧ ∃ n, t = M68k.charged n s := by
  cases h with
  | charge _ => exact ⟨rfl, _, rfl⟩
  | latch hp | rewind hp | setA hp | setD hp | ccr hp | write hp | jump hp | setSr _ hp
  | setUsp _ _ hp | control _ hp | stop _ hp | trapped _ _ hp | targetFault _ hp | fetch hp =>
    exact absurd hp (by decide)
  | read hp => rcases hp with hp | ⟨-, hp⟩ <;> exact absurd hp (by decide)

/-- What a supervisor's transition alone may change. -/
theorem Trans.user_fixed (h : Trans k g p q s t) (hg : g.supervisor = false) (hs : Steady s) :
    t.vbr = s.vbr ∧ t.sfc = s.sfc ∧ t.dfc = s.dfc ∧ t.stopped = s.stopped := by
  have hkept {u v : M68kCpu σ} (h : kept v = kept u) :
      v.vbr = u.vbr ∧ v.sfc = u.sfc ∧ v.dfc = u.dfc ∧ v.stopped = u.stopped :=
    ⟨congrArg Kept.vbr h, congrArg Kept.sfc h, congrArg Kept.dfc h, congrArg Kept.stopped h⟩
  cases h with
  | latch _ h => rw [h]; exact ⟨rfl, rfl, rfl, rfl⟩
  | setSr hs' | setUsp hs' | control hs' | stop hs' => rw [hg] at hs'; cases hs'
  | raised _ h => exact hkept (exception_steady hs h).kept
  | trapped _ _ _ h => exact hkept (exception_steady hs h).kept
  | targetFault _ _ _ _ h => exact hkept (u := charged 50 s) (targetFault_kept hs h).2
  | charge | rewind | fetch | read | setA | setD | ccr | write | jump =>
    exact ⟨rfl, rfl, rfl, rfl⟩

theorem TrapVector.lt {v : Nat} (h : TrapVector v) : v < 256 := by
  unfold TrapVector at h
  omega

/-- An operation of user code keeps the system byte and the supervisor stack, or
enters a handler. -/
theorem Trans.user_step (h : Trans k g p q s t) (hg : g.supervisor = false) (hs : Steady s)
    (hstop : s.stopped = false) :
    (t.sr &&& 0xA700 = s.sr &&& 0xA700 ∧ t.ssp = s.ssp ∧
      ∀ v, .exception v ∈ t.log → .exception v ∈ s.log) ∨ (q = .finished ∧ Handling t) := by
  have hnoted {kind : Access} {size : M68kSize} {address : U32} (v : Nat)
      (h : Event.exception v ∈ .access kind size address :: s.log) : .exception v ∈ s.log := by
    simpa using h
  cases h with
  | latch _ h => rw [h]; exact .inl ⟨rfl, rfl, fun _ => id⟩
  | charge | rewind | setA | setD | jump => exact .inl ⟨rfl, rfl, fun _ => id⟩
  | fetch | read | write => exact .inl ⟨rfl, rfl, hnoted⟩
  | ccr _ h => exact .inl ⟨h.keeps_system, rfl, fun _ => id⟩
  | setSr hs' | setUsp hs' | control hs' | stop hs' => rw [hg] at hs'; cases hs'
  | raised hv h => exact .inr ⟨rfl, (exception_steady hs h).handling (by omega) hstop⟩
  | trapped _ hv _ h => exact .inr ⟨rfl, (exception_steady hs h).handling hv.lt hstop⟩
  | targetFault hv _ _ _ h =>
    have hp := (targetFault_kept hs h).1
    rw [targetFaulting, holdGuard_eq] at hp
    exact .inr ⟨rfl, (hp.handling (by omega) hstop).holdGuard _ _⟩

/-! ## Contained instructions -/

/-- During an instruction of user code begun in `s`. -/
structure Contained (s : M68kCpu σ) (p : Phase) (t : M68kCpu σ) : Prop where
  wiring : wiring t = wiring s
  vbr : t.vbr = s.vbr
  sfc : t.sfc = s.sfc
  dfc : t.dfc = s.dfc
  stopped : t.stopped = s.stopped
  sr_or_handling : (t.sr &&& 0xA700 = s.sr &&& 0xA700 ∧ t.ssp = s.ssp ∧
    ∀ v, .exception v ∉ t.log) ∨ (p = .finished ∧ Handling t)

theorem Contained.step (h : Trans k g p q t u) (hg : g.supervisor = false) (hs : Steady s)
    (hstop : s.stopped = false) (hc : Contained s p t) : Contained s q u := by
  have ht := steady_of_wiring hc.wiring hs
  obtain ⟨hvbr, hsfc, hdfc, hstopped⟩ := h.user_fixed hg ht
  refine ⟨(h.wiring ht).trans hc.wiring, hvbr.trans hc.vbr, hsfc.trans hc.sfc,
    hdfc.trans hc.dfc, hstopped.trans hc.stopped, ?_⟩
  obtain ⟨hsr, hssp, hlog⟩ | ⟨rfl, hhandling⟩ := hc.sr_or_handling
  · obtain ⟨hsr', hssp', hlog'⟩ | hhandling := h.user_step hg ht (hc.stopped.trans hstop)
    · exact .inl ⟨hsr'.trans hsr, hssp'.trans hssp, fun v hv => hlog v (hlog' v hv)⟩
    · exact .inr hhandling
  · obtain ⟨rfl, n, rfl⟩ := h.finished
    exact .inr ⟨rfl, hhandling.charged n⟩

theorem Run.contained (h : Run k g p q t u) (hg : g.supervisor = false) (hs : Steady s)
    (hstop : s.stopped = false) (hc : Contained s p t) : Contained s q u :=
  h.preserves (J := Contained s)
    (fun {p q t} hpq hc => ⟨hc.1, hc.2, hc.3, hc.4, hc.5, hc.6.imp_right fun ⟨hp, hh⟩ =>
      ⟨by subst hp; cases q <;> first | rfl | exact absurd hpq (by decide), hh⟩⟩)
    (fun ht hc => hc.step ht hg hs hstop) hc

/-- The unwinding of user code ends in a handler. -/
theorem Abort.handling (h : Abort k g p s t) (hs : Steady s) (hstop : s.stopped = false) :
    Handling t := by
  cases h with
  | fault _ _ _ h =>
    have hp := (accessFault_kept hs h).1
    rw [faulting, holdGuard_eq] at hp
    have hv (size : M68kSize) (address : U32) : faultVector size address < 256 := by
      unfold faultVector
      split <;> decide
    exact (hp.handling (hv _ _) hstop).holdGuard _ _
  | illegalEa _ h => exact (exception_steady hs h).handling (by decide) hstop

/-! ## Contained steps and runs -/

theorem shielded_of_kept (h : kept t = kept s) : Shielded s t :=
  ⟨congrArg Kept.vbr h, congrArg Kept.sfc h, congrArg Kept.dfc h, congrArg Kept.model h⟩

theorem Contained.shielded (h : Contained s p t) : Shielded s t :=
  ⟨h.vbr, h.sfc, h.dfc, congrArg Wiring.model h.wiring⟩

theorem Shielded.trans (h : Shielded s t) (h' : Shielded t u) : Shielded s u := by
  obtain ⟨hvbr, hsfc, hdfc, hmodel⟩ := h
  obtain ⟨hvbr', hsfc', hdfc', hmodel'⟩ := h'
  exact ⟨hvbr'.trans hvbr, hsfc'.trans hsfc, hdfc'.trans hdfc, hmodel'.trans hmodel⟩

theorem fetched_contained (s : M68kCpu σ) : Contained (fetched s) .decode (fetched s) :=
  ⟨rfl, rfl, rfl, rfl, rfl, .inl ⟨rfl, rfl, fun _ h => by cases h with | tail _ h => cases h⟩⟩

/-- The exit of a contained instruction. -/
theorem Contained.finishes {check trace : Bool} {cycles : Int}
    (hc : Contained (fetched s) .finished t) (h : Finishes k check trace cycles t u)
    (hs : Boundary s) (hstop : s.stopped = false) :
    Boundary u ∧ Shielded s u ∧ (Handling u ∨ Untouched s u) := by
  have ht : Steady t := steady_of_wiring hc.wiring (fetched_running hs.depth).steady
  have hwiring := (h.wiring ht).trans hc.wiring
  have hb : Boundary u := ⟨(congrArg Wiring.exceptionDepth hwiring).trans hs.depth,
    Nat.le_trans (Nat.le_of_eq (congrArg Wiring.irqLevel hwiring)) hs.irqLevel⟩
  have ht' : Steady (disarmed t) := ⟨ht.1, ht.2, ht.3⟩
  have hstop' : t.stopped = false := hc.stopped.trans hstop
  cases h with
  | oddTarget _ h =>
    obtain ⟨hp, hkept⟩ := targetFault_kept ht' h
    rw [targetFaulting, holdGuard_eq] at hp
    have hshield := shielded_of_kept hkept
    exact ⟨hb, hc.shielded.trans hshield,
      .inl (((hp.handling (by decide) hstop').holdGuard _ _).charged _)⟩
  | traced _ _ h =>
    have hp := exception_steady ht' h
    have hshield := shielded_of_kept hp.kept
    exact ⟨hb, hc.shielded.trans hshield,
      .inl ((hp.handling (by decide) hstop').charged _)⟩
  | plain =>
    refine ⟨hb, hc.shielded, ?_⟩
    obtain ⟨hsr, hssp, hlog⟩ | ⟨-, hhandling⟩ := hc.sr_or_handling
    · exact .inr ⟨hlog, hsr, hssp, hc.stopped, congrArg Wiring.irqLevel hc.wiring,
        congrArg Wiring.nmiPending hc.wiring⟩
    · exact .inl (hhandling.disarmed.charged _)

/-- One step of user code. -/
theorem Stepped.contained {check : Bool} (h : Stepped none g check s t) (hs : Boundary s)
    (hg : g.supervisor = false) :
    Boundary t ∧ Shielded s t ∧ (Handling t ∨ Untouched s t) := by
  have hrunning := fetched_running (s := s) hs.depth
  cases h with
  | idle => exact ⟨⟨hs.depth, hs.irqLevel⟩, ⟨rfl, rfl, rfl, rfl⟩,
      .inr ⟨fun _ h => (List.not_mem_nil h).elim, rfl, rfl, rfl, rfl, rfl⟩⟩
  | interrupt _ _ h =>
    have hsteady : Steady (beginStep s) := ⟨hs.depth, rfl, rfl⟩
    have hp := exception_steady hsteady h
    have hlevel := hs.irqLevel
    -- an interrupt enters supervisor state through its autovector
    have hv : (acknowledged none s.irqLevel (beginStep s)).2 < 256 := by
      simp only [acknowledged]
      omega
    have hshield := shielded_of_kept hp.kept
    exact ⟨⟨(congrArg Kept.exceptionDepth hp.kept).trans hs.depth, Nat.zero_le _⟩, hshield,
      .inl ((hp.handling_interrupt hv hlevel _).charged _)⟩
  | fetchFault hstop _ _ h =>
    have habort : Abort none g .decode (armed s) (holdGuard (faultVector .word s.pc) false _) :=
      .fault (by decide) (fun _ => .inl (by decide)) ‹_› h
    have hsteady := (armed_running (s := s) hs.depth).steady
    have hkept := habort.kept hsteady
    have hshield := shielded_of_kept hkept
    exact ⟨⟨(congrArg Kept.exceptionDepth hkept).trans hs.depth,
        Nat.le_trans (Nat.le_of_eq (congrArg Kept.irqLevel hkept)) hs.irqLevel⟩,
      hshield, .inl (habort.handling hsteady hstop).aborted⟩
  | unwound hstop _ _ _ h =>
    obtain ⟨r, u, hrun, hu, habort⟩ := h
    -- contained up to the abort, which enters supervisor state
    have hc := hrun.contained hg hrunning.steady hstop (fetched_contained s)
    have hkept := habort.kept hu.steady
    have hshield := shielded_of_kept hkept
    have hwiring := (wiring_of_kept hkept).trans hc.wiring
    exact ⟨⟨(congrArg Wiring.exceptionDepth hwiring).trans hs.depth,
        Nat.le_trans (Nat.le_of_eq (congrArg Wiring.irqLevel hwiring)) hs.irqLevel⟩,
      hc.shielded.trans hshield,
      .inl (habort.handling hu.steady (hc.stopped.trans hstop)).aborted⟩
  | completed hstop _ _ _ h _ hfin =>
    exact (h.contained hg hrunning.steady hstop (fetched_contained s)).finishes hfin hs hstop

theorem user_step (hs : Boundary s) (hu : s.supervisor = false) :
    ∃ t, step (Host.none σ) s = .ok () t ∧ Boundary t ∧ Shielded s t ∧
      (Handling t ∨ Untouched s t) := by
  obtain ⟨t, ht, hst⟩ := stepEx_cases (k := none)
    (g := .of false (opcodeAt s)) true hs.depth hs.depth
    (Grade.of_covers _ _) hu.symm
  exact ⟨t, ht, hst.contained hs rfl⟩

/-- The states a program begun in user state `s` passes through up to its first
supervisor state, under any requests of the host. -/
inductive UserRun (s : M68kCpu σ) : M68kCpu σ → Prop
  | start : UserRun s s
  | irq {t : M68kCpu σ} (h : UserRun s t) {level : Nat} (hl : level ≤ 7) :
      UserRun s (setIrq level t)
  | step {t u : M68kCpu σ} (h : UserRun s t) (hu : t.supervisor = false)
      (hstep : M68k.step (Host.none σ) t = .ok () u) : UserRun s u

theorem UserRun.contained (h : UserRun s t) (hs : Boundary s) (hu : s.supervisor = false) :
    Boundary t ∧ Shielded s t ∧ (t.supervisor = true → Handling t) := by
  induction h with
  | start => exact ⟨hs, ⟨rfl, rfl, rfl, rfl⟩, fun h => by rw [hu] at h; cases h⟩
  | irq _ hl ih =>
    obtain ⟨hb, hp, hh⟩ := ih
    exact ⟨⟨hb.depth, hl⟩, hp,
      fun h => ⟨(hh h).1, (hh h).2, (hh h).3, (hh h).4⟩⟩
  | step _ hu' hstep ih =>
    obtain ⟨hb, hp, -⟩ := ih
    obtain ⟨v, hv, hb', hp', hend⟩ := user_step hb hu'
    rw [hstep] at hv
    cases hv
    refine ⟨hb', hp.trans hp', fun hsup => ?_⟩
    obtain hh | hq := hend
    · exact hh
    · have hbit (v : U16) : v.getLsbD 13 = (v &&& 0xA700).getLsbD 13 := by simp
      rw [supervisor_eq, hbit, hq.sr, ← hbit, ← supervisor_eq, hu'] at hsup
      cases hsup

/-- Privilege containment: of one step of user code, and of a user program of
any length. -/
theorem user_contained (hs : Boundary s) (hu : s.supervisor = false) :
    (∃ t, step (Host.none σ) s = .ok () t ∧ Shielded s t ∧ (Handling t ∨ Untouched s t)) ∧
      ∀ t, UserRun s t → Shielded s t ∧ (t.supervisor = true → Handling t) := by
  refine ⟨?_, fun t ht => (ht.contained hs hu).2⟩
  obtain ⟨t, ht, -, h⟩ := user_step hs hu
  exact ⟨t, ht, h⟩

theorem user_contained_trap :
    (∃ t, step (Host.none Unit) (init (fun _ => 0x4E) 0x1000 ()) = .ok () t ∧
        Shielded (init (fun _ => 0x4E) 0x1000 ()) t ∧
        (Handling t ∨ Untouched (init (fun _ => 0x4E) 0x1000 ()) t)) ∧
      ∀ t, UserRun (init (fun _ => 0x4E) 0x1000 ()) t →
        Shielded (init (fun _ => 0x4E) 0x1000 ()) t ∧ (t.supervisor = true → Handling t) :=
  user_contained ⟨rfl, by decide⟩ rfl

end M68k
