import Rocket68.Logic.Targets

/-!
# Transfers to bad targets

A transfer to an odd address faults on the prefetch of its target, whatever
instruction computes it. A transfer to unmapped memory does so too, except that a
return moves the PC there first and leaves the fault to the next step. The
transfers that check their target before anything else can be restarted.
-/

namespace M68k

open Trap TrapM

variable {σ : Type} {s t u w : M68kCpu σ} {v : Nat} {kind : Transfer} {target : U32}

/-! ## The prefetch fault of a step -/

/-- From the return of exception `v`, raised for a target and left in `w`, to the end
of the step from `s`: through the rest of the handler, or past it. -/
inductive Leaves (v : Nat) (s w : M68kCpu σ) : M68kCpu σ → Prop
  | handler {n c : Int} {t : M68kCpu σ}
      (h : Finishes none true s.traced c (charged n (holdGuard v false w)) t) : Leaves v s w t
  | exit (c : Int) : Leaves v s w (charged c (holdGuard v false w))

/-- The instruction begun in `s` has met nothing and prefetches its target with the
registers and the memory of `before`. -/
structure Prefetching (before s u : M68kCpu σ) : Prop where
  steady : Steady u
  wiring : wiring u = wiring (fetched s)
  quiet : Quiet u.log
  busWord : u.faultBusWordValid = s.faultBusWordValid
  programmed : programmed u = programmed before

/-- The step from `s` to `t` took exception `v` for the prefetch of `target`: its
instruction raised it with the registers and the memory of `before`, before anything
else went wrong. What it latched is the target and a program space read, and stands
unless the step met another fault. -/
structure PrefetchFault (v : Nat) (target : U32) (before s t : M68kCpu σ) : Prop where
  raised : ∃ u w faultPc, Prefetching before s u ∧
    exception v (Host.none σ) (targetFaulting v target faultPc u) = .ok () w ∧ Leaves v s w t
  oldest : ∃ newer older, Quiet older ∧ t.log = newer ++ .exception v :: older ∧
    (Quiet newer → t.faultAddress = target ∧
      t.faultSsw = statusWord t.faultIr false (functionCode before.supervisor true))

/-- A step ends in what an exception left. -/
structure EndsIn (w t : M68kCpu σ) : Prop where
  programmed : programmed t = programmed w
  pc : t.pc = w.pc
  log : t.log = w.log
  address : t.faultAddress = w.faultAddress
  ir : t.faultIr = w.faultIr
  ssw : t.faultSsw = w.faultSsw

theorem endsIn_released (v : Nat) (w : M68kCpu σ) : EndsIn w (holdGuard v false w) := by
  rw [holdGuard_eq]
  exact ⟨rfl, rfl, rfl, rfl, rfl, rfl⟩

/-- What is charged and disarmed after an exception shows in none of this. -/
theorem EndsIn.exit (h : EndsIn w u) (c n : Int) : EndsIn w (charged c (disarmed (charged n u))) :=
  ⟨h.1, h.2, h.3, h.4, h.5, h.6⟩

theorem programmed_targetFaulting (v : Nat) (target faultPc : U32) (u : M68kCpu σ) :
    programmed (targetFaulting v target faultPc u) = programmed u := by
  rw [targetFaulting, holdGuard_eq]
  rfl

theorem supervisor_of_programmed (h : programmed u = programmed s) : u.supervisor = s.supervisor :=
  congrArg (fun p : Programmed => p.sr &&& srS != 0) h

/-- Only an odd handler address goes wrong after the exception. -/
theorem Leaves.endsIn (h : Leaves v s w t) (hs : Steady (holdGuard v false w))
    (hgroup : w.group0Fault = true) :
    EndsIn w t ∨ isOdd w.pc = true ∧ ∃ evs, t.log = evs ++ .exception 3 :: w.log := by
  have hend := endsIn_released v w
  cases h with
  | exit c => exact .inl ⟨hend.1, hend.2, hend.3, hend.4, hend.5, hend.6⟩
  | @handler n c t h =>
    cases h with
    -- an odd handler address: the exit of the step raises an address error of its own
    | @oddTarget u' hodd h' =>
      obtain ⟨hproc, -⟩ := targetFault_kept (k := none)
        (s := disarmed (charged n (holdGuard v false w))) ⟨hs.1, hs.2, hs.3⟩ h'
      obtain ⟨evs, hlog, -⟩ := hproc.log
      refine .inr ⟨(congrArg isOdd hend.pc).symm.trans hodd, evs, ?_⟩
      show (holdGuard 3 false u').log = _
      rw [holdGuard_log, hlog, targetFaulting_log, ← hend.log]
      rfl
    | traced _ hdue =>
      -- a group 0 fault suppresses the trace
      have hgroup' : (charged n (holdGuard v false w)).group0Fault = true :=
        (holdGuard_kept v false w).2.2.trans hgroup
      rw [traceDue, hgroup'] at hdue
      cases hdue
    | plain => exact .inl (hend.exit _ n)

/-- An exception that nothing faults in keeps the latched access. -/
theorem delivered_latched (v : Nat) (u : M68kCpu σ) :
    (delivered v u).faultAddress = u.faultAddress ∧ (delivered v u).faultIr = u.faultIr ∧
      (delivered v u).faultSsw = u.faultSsw := by
  show (pushed (frameOf v u) (entered v u)).faultAddress = _ ∧
    (pushed (frameOf v u) (entered v u)).faultIr = _ ∧
    (pushed (frameOf v u) (entered v u)).faultSsw = _
  rw [pushed_eq, entered_eq]
  exact ⟨rfl, rfl, rfl⟩

theorem Quiet.calm {newer older : List Event} (hn : Quiet newer) (ho : Quiet older) (v : Nat) :
    faultsInHandling (newer ++ .exception v :: older) = false := by
  have hold := faultsInHandling_accesses [] ho
  rw [List.append_nil] at hold
  rw [faultsInHandling_accesses _ hn]
  exact hold

section Prefetching

variable {before : M68kCpu σ} {faultPc : U32}

theorem Underway.prefetching (hu : Underway s u) (h : programmed u = programmed before) :
    Prefetching before s u := ⟨hu.running.steady, hu.wiring, hu.quiet, hu.busWord, h⟩

theorem Prefetching.supervisor (hu : Prefetching before s u) : u.supervisor = before.supervisor :=
  supervisor_of_programmed hu.programmed

/-- The state after the exception of a target. -/
theorem Prefetching.raises (hu : Prefetching before s u)
    (h : exception v (Host.none σ) (targetFaulting v target faultPc u) = .ok () w) :
    Steady (holdGuard v false w) ∧ w.group0Fault = true ∧
      ∃ evs, w.log = evs ++ .exception v :: u.log := by
  obtain ⟨hproc, hkept⟩ := targetFault_kept (k := none) hu.steady h
  refine ⟨steady_of_kept (s := charged 50 u) hkept
    ⟨hu.steady.depth, hu.steady.addressGuard, hu.steady.busGuard⟩, ?_, ?_⟩
  · exact hproc.group0 (by rw [targetFaulting, holdGuard_eq]; rfl)
  · obtain ⟨evs, hlog, -⟩ := hproc.log
    rw [targetFaulting_log] at hlog
    exact ⟨evs, hlog⟩

theorem prefetchFault_of (hu : Prefetching before s u)
    (h : exception v (Host.none σ) (targetFaulting v target faultPc u) = .ok () w)
    (hleaves : Leaves v s w t) : PrefetchFault v target before s t := by
  refine ⟨⟨u, w, faultPc, hu, h, hleaves⟩, ?_⟩
  obtain ⟨hsteady, hgroup, evs, hlog⟩ := hu.raises h
  rcases hleaves.endsIn hsteady hgroup with hends | ⟨-, evs', hlog'⟩
  -- the step ends with the exception
  · refine ⟨evs, u.log, hu.quiet, hends.log.trans hlog, fun hquiet => ?_⟩
    have hdepth : (targetFaulting v target faultPc u).exceptionDepth = 0 :=
      (holdGuard_kept _ true _).2.1.trans hu.steady.depth
    have hcalm : faultsInHandling w.log = false := by
      rw [hlog]
      exact hquiet.calm hu.quiet v
    rw [← ackHost_none] at h
    have hw := delivered_of_calm hdepth h hcalm
    obtain ⟨haddress, hir, hssw⟩ := delivered_latched v (targetFaulting v target faultPc u)
    obtain ⟨-, haddress', hir', hssw'⟩ := targetFaulting_latches v target faultPc u
    rw [hends.address, hends.ir, hends.ssw, hw, haddress, hir, hssw, haddress', hir', hssw',
      hu.supervisor]
    exact ⟨rfl, rfl⟩
  -- an odd handler: another exception follows, and the processing was not quiet
  · refine ⟨evs' ++ .exception 3 :: evs, u.log, hu.quiet, ?_, fun hquiet => ?_⟩
    · rw [hlog', hlog, List.append_assoc]
      rfl
    · exact absurd (List.mem_append_right _ List.mem_cons_self) (hquiet.no_exception 3)

end Prefetching

/-! ## The end of the step -/

/-- Only a target that its handler refused or that is odd is prefetched. -/
def Transfer.prefetches (kind : Transfer) (target : U32) (s : M68kCpu σ) : Prop :=
  (kind.returns = true → isOdd target = true) ∧
    (kind = .bsr → accessible s .long (s.aRegs 7 - 4) = true)

theorem targetVector_cases (target : U32) : targetVector target = 2 ∨ targetVector target = 3 := by
  unfold targetVector
  split
  · exact .inr rfl
  · exact .inl rfl

/-- An odd PC at the end of the instruction is the fault of the step. -/
theorem moved_prefetches {before : M68kCpu σ} {check trace : Bool} {c : Int} (hu : Underway s u)
    (hbefore : programmed u = programmed before) (hodd : isOdd u.pc = true)
    (hfin : Finishes none check trace c u t) : PrefetchFault 3 u.pc before s t := by
  cases hfin with
  | oddTarget _ h =>
    have hu' : Prefetching before s (disarmed u) :=
      { steady := ⟨hu.running.depth, hu.running.addressGuard, hu.running.busGuard⟩
        wiring := hu.wiring
        quiet := hu.quiet
        busWord := hu.busWord
        programmed := hbefore }
    exact prefetchFault_of hu' h (.exit _)
  | traced heven =>
    rw [hodd] at heven
    cases heven
  | plain heven =>
    rw [hodd] at heven
    cases heven

/-- An even one is not. -/
theorem moved_quiet {before : M68kCpu σ} {check trace : Bool} {c : Int} (hu : Underway s u)
    (heven : isOdd u.pc = false) (hfin : Finishes none check trace c u t) (hv : v = 2 ∨ v = 3) :
    ¬PrefetchFault v target before s t := by
  intro hfault
  obtain ⟨evs, older, hquiet, hold, -⟩ := hfault.oldest
  cases hfin with
  | oddTarget hodd =>
    rw [heven] at hodd
    cases hodd
  | traced _ _ h =>
    have hsteady : Steady (disarmed u) :=
      ⟨hu.running.depth, hu.running.addressGuard, hu.running.busGuard⟩
    obtain ⟨evs', hlog, -⟩ := (exception_steady (k := none) hsteady h).log
    have heq := hlog.symm.trans hold
    obtain ⟨rfl, -⟩ := oldest_exception hu.quiet.no_exception hquiet.no_exception heq
    omega
  | plain =>
    have hmem : Event.exception v ∈ u.log := by
      have hlog : u.log = evs ++ .exception v :: older := hold
      rw [hlog]
      simp
    exact hu.quiet.no_exception v hmem

/-- A BSR that cannot push its return address does not prefetch its target. -/
theorem unpushed_quiet {before : M68kCpu σ} (h : Unpushed none kind s t) :
    ¬PrefetchFault v target before s (aborted t) := by
  obtain ⟨-, -, u, w, hu, hw, rfl⟩ := h
  intro hfault
  obtain ⟨evs, older, hquiet, hold, -⟩ := hfault.oldest
  obtain ⟨evs', hlog, -⟩ := (accessFault_kept (k := none) hu.running.steady hw).1.log
  have hlog' : (aborted (holdGuard (faultVector .long (s.aRegs 7 - 4)) false w)).log = w.log :=
    holdGuard_log _ _ _
  rw [faulting_log] at hlog
  have heq := hlog.symm.trans (hlog'.symm.trans hold)
  have hnone : ∀ x, Event.exception x ∉ .fault .write (s.aRegs 7 - 4) ::
      .access .write .long (s.aRegs 7 - 4) :: u.log := by
    intro x hmem
    simp only [List.mem_cons, reduceCtorEq, false_or] at hmem
    exact hu.quiet.no_exception x hmem
  obtain ⟨-, hrest⟩ := oldest_exception hnone hquiet.no_exception heq
  exact hquiet.no_fault .write (s.aRegs 7 - 4) (hrest ▸ List.mem_cons_self)

/-- The step that executes a transfer to a bad target. -/
theorem transfer_steps (hs : Boundary s) (hstop : s.stopped = false)
    (hdue : interruptDue s = false) (hacc : accessible s .word s.pc = true)
    (h : Transfers s kind target) (hbad : badTarget s target = true) :
    ∃ t, step (Host.none σ) s = .ok () t ∧
      ((∃ c t', Landed none kind target s t' ∧ Finishes none true s.traced c t' t) ∨
        ∃ t', Unpushed none kind s t' ∧ t = aborted t') := by
  obtain ⟨t, ht, hst⟩ := stepEx_cases (k := none) (g := .of s.supervisor (opcodeAt s)) true
    hs.depth hs.depth (Grade.of_covers _ _) rfl
  have hlands := h.lands (k := none) hs.depth hbad
  refine ⟨t, ht, ?_⟩
  cases hst with
  | idle hstop' =>
    rw [hstop] at hstop'
    cases hstop'
  | interrupt _ hdue' =>
    rw [hdue] at hdue'
    cases hdue'
  | fetchFault _ _ hacc' =>
    rw [hacc] at hacc'
    cases hacc'
  | unwound _ _ _ hrun => exact .inr ⟨_, (wp_of_trap hrun).mp hlands, rfl⟩
  | completed _ _ _ hrun _ _ hfin => exact .inl ⟨_, _, (wp_of_ok hrun).mp hlands, hfin⟩

/-- A target its transfer landed on is prefetched, or not at all. -/
theorem Landed.prefetchFault_iff {t' : M68kCpu σ} {trace : Bool} {c : Int}
    (h : Landed none kind target s t') (htrace : trace = s.traced)
    (hfin : Finishes none true trace c t' t) :
    PrefetchFault (targetVector target) target (kind.reached s) s t ↔ kind.prefetches target s := by
  subst htrace
  have hv := targetVector_cases target
  cases h with
  -- refused in the transfer's own handler
  | refused hkind hpush hu hreached h =>
    refine ⟨fun _ => ⟨fun hret => ?_, hpush⟩,
      fun _ => prefetchFault_of (hu.prefetching hreached) h (.handler hfin)⟩
    rw [hkind] at hret
    cases hret
  -- the PC was moved: only the check at the end of the instruction is left
  | moved hbsr hodd hu hreached hpc =>
    subst hpc
    rcases Bool.eq_false_or_eq_true (isOdd t'.pc) with hpc | heven
    · have hthree : targetVector t'.pc = 3 := if_pos hpc
      rw [hthree]
      exact ⟨fun _ => ⟨fun _ => hpc, fun h => absurd h hbsr⟩,
        fun _ => moved_prefetches hu hreached hpc hfin⟩
    · refine ⟨fun hfault => absurd hfault (moved_quiet hu heven hfin hv), fun hpre => ?_⟩
      have hret : kind.returns = true := by
        rcases hodd with hodd | hret
        · rw [heven] at hodd
          cases hodd
        · exact hret
      rw [hpre.1 hret] at heven
      cases heven

/-- A transfer to a bad target faults on its prefetch exactly when it is not a
return to an even address and its return address, if any, was pushed. -/
theorem target_prefetch_faults (hs : Boundary s) (hstop : s.stopped = false)
    (hdue : interruptDue s = false) (hacc : accessible s .word s.pc = true)
    (h : Transfers s kind target) (hbad : badTarget s target = true) :
    ∃ t, step (Host.none σ) s = .ok () t ∧
      (PrefetchFault (targetVector target) target (kind.reached s) s t ↔
        kind.prefetches target s) := by
  obtain ⟨t, ht, hends⟩ := transfer_steps hs hstop hdue hacc h hbad
  refine ⟨t, ht, ?_⟩
  rcases hends with ⟨c, t', hland, hfin⟩ | ⟨t', hunpushed, rfl⟩
  · exact hland.prefetchFault_iff rfl hfin
  · refine ⟨fun hfault => absurd hfault (unpushed_quiet hunpushed), fun hpre => ?_⟩
    obtain ⟨hbsr, hacc', -⟩ := hunpushed
    rw [hpre.2 hbsr] at hacc'
    cases hacc'

/-- JMP (A0) to 0x2000 on a 4 KiB machine whose bus error handler is at 0x400. -/
def jmpUnmapped : M68kCpu Unit :=
  { init (fun a => if a = 0x100 then 0x4E else if a = 0x101 then 0xD0 else
      if a = 0xA then 4 else 0) 0x1000 () with
    sr := 0x2000
    aRegs := fun r => if r = 0 then 0x2000 else 0x800
    pc := 0x100 }

theorem jmpUnmapped_transfers : Transfers jmpUnmapped .jmp 0x2000 := .jmp rfl rfl

theorem target_prefetch_faults_jmp :
    ∃ t, step (Host.none Unit) jmpUnmapped = .ok () t ∧
      PrefetchFault 2 0x2000 jmpUnmapped jmpUnmapped t := by
  obtain ⟨t, ht, hiff⟩ := target_prefetch_faults ⟨rfl, by decide⟩ rfl rfl rfl
    jmpUnmapped_transfers rfl
  exact ⟨t, ht, hiff.mpr ⟨by rintro ⟨⟩, by rintro ⟨⟩⟩⟩

/-- A return to unmapped memory: RTS with 0x2000 on the stack of a 4 KiB machine. -/
def rtsUnmapped : M68kCpu Unit :=
  { init (fun a => if a = 0x100 then 0x4E else if a = 0x101 then 0x75 else
      if a = 0x802 then 0x20 else 0) 0x1000 () with
    sr := 0x2000
    aRegs := fun _ => 0x800
    pc := 0x100 }

theorem rtsUnmapped_transfers : Transfers rtsUnmapped .rts 0x2000 :=
  .rts (s := rtsUnmapped) rfl rfl

/-- Its step takes no bus error: the RTS completes. -/
theorem rts_reaches_unmapped :
    ¬∀ (s : M68kCpu Unit) (kind : Transfer) (target : U32), Boundary s → s.stopped = false →
      interruptDue s = false → accessible s .word s.pc = true → Transfers s kind target →
      isOdd target = false → mapped s .word target = false →
      ∃ t, step (Host.none Unit) s = .ok () t ∧ PrefetchFault 2 target (kind.reached s) s t := by
  intro hclaim
  obtain ⟨t, ht, hfault⟩ := hclaim rtsUnmapped .rts 0x2000 ⟨rfl, by decide⟩ rfl rfl rfl
    rtsUnmapped_transfers rfl rfl
  obtain ⟨evs, older, -, hold, -⟩ := hfault.oldest
  have hlog : (exec? (step (σ := Unit)) (Host.none Unit) rtsUnmapped).map (·.log) =
      some [.access .read .long 0x800, .access .fetch .word 0x100] := by decide +kernel
  rw [exec?, ht] at hlog
  have hlog' : t.log = [.access .read .long 0x800, .access .fetch .word 0x100] :=
    Option.some.inj hlog
  have hmem : Event.exception 2 ∈ t.log := by
    rw [hold]
    simp
  rw [hlog'] at hmem
  simp at hmem

/-! ## Served prefetch faults -/

/-- The stack and the vector table of `s` serve exception `v` of `target`: the frame
fits, the vector is mapped and, read with the frame on the stack, holds an even
handler address. -/
structure ServesFault (v : Nat) (target : U32) (s : M68kCpu σ) : Prop where
  frame : fits s s.supervisorSp (frameOf v s) = true
  vector : hasVector v s = true
  handler : ∀ memory ssw ir pc, (∀ a, ¬InFrame s.supervisorSp 14 a → memory a = s.memory a) →
    GroupFrame memory (s.supervisorSp - 14) ssw target ir s.sr pc →
    isOdd (longAt memory (maskAddress24 (vectorAddress v s))) = false

/-- The last byte of a long word tells whether it is odd. -/
theorem isOdd_longAt (memory : U32 → U8) (a : U32) :
    isOdd (longAt memory a) = (memory (a + 3)).getLsbD 0 := by
  have hone : (1 : U32) = BitVec.twoPow 32 0 := by decide
  have hbit (x : U32) : isOdd x = x.getLsbD 0 := by
    rw [isOdd, hone, BitVec.and_twoPow]
    cases x.getLsbD 0 <;> decide
  rw [hbit, longAt]
  simp

/-- An even handler address that the frame does not overwrite. -/
theorem servesFault_of_table (hframe : fits s s.supervisorSp (frameOf v s) = true)
    (hvector : hasVector v s = true)
    (heven : isOdd (longAt s.memory (maskAddress24 (vectorAddress v s))) = false)
    (hout : ¬InFrame s.supervisorSp 14 (maskAddress24 (vectorAddress v s) + 3)) :
    ServesFault v target s := by
  refine ⟨hframe, hvector, fun memory _ _ _ hmemory _ => ?_⟩
  rw [isOdd_longAt] at heven ⊢
  rw [hmemory _ hout]
  exact heven

/-- A served prefetch fault is delivered, and the step ends there. -/
theorem PrefetchFault.delivers {before : M68kCpu σ} (h : PrefetchFault v target before s t)
    (hv : v = 2 ∨ v = 3) (hsize : before.memorySize = s.memorySize)
    (hserves : ServesFault v target before) :
    ∃ u faultPc, Prefetching before s u ∧
      programmed t = programmed (delivered v (targetFaulting v target faultPc u)) ∧
      t.supervisorSp = before.supervisorSp - 14 ∧
      GroupFrame t.memory (before.supervisorSp - 14)
        (statusWord (capturedWord u) false (functionCode before.supervisor true)) target
        (capturedWord u) before.sr (stackedPc v (targetFaulting v target faultPc u)) := by
  obtain ⟨u, w, faultPc, hu, hrun, hleaves⟩ := h.raised
  refine ⟨u, faultPc, hu, ?_⟩
  obtain ⟨hsteady, hgroup, -⟩ := hu.raises hrun
  let x := targetFaulting v target faultPc u
  have hx : programmed x = programmed before :=
    (programmed_targetFaulting v target faultPc u).trans hu.programmed
  have hxsize : x.memorySize = before.memorySize := by
    have hfixed : x.memorySize = u.memorySize := by
      show (targetFaulting v target faultPc u).memorySize = _
      rw [targetFaulting, holdGuard_eq]
      rfl
    exact hfixed.trans ((congrArg Wiring.memorySize hu.wiring).trans hsize.symm)
  have hsp := supervisorSp_of_programmed hx
  have hsr : x.sr = before.sr := congrArg Programmed.sr hx
  have hvbr : x.vbr = before.vbr := congrArg Programmed.vbr hx
  have hsizes : (frameOf v x).map Prod.fst = (frameOf v before).map Prod.fst := by
    unfold frameOf
    rw [if_pos hv, if_pos hv]
    rfl
  -- what is assumed of `before` holds where the fault is raised
  have hframe : fits x x.supervisorSp (frameOf v x) = true := by
    rw [hsp, fits_sizes hsizes, fits_congr hxsize]
    exact hserves.frame
  have hvector : hasVector v x = true := (hasVector_congr hvbr hxsize).trans hserves.vector
  have hdelivers := exception_delivers none (exceptionFaults_of_fits hframe hvector)
  rw [ackHost_none] at hdelivers
  have hw : w = delivered v x := by
    rw [hdelivers] at hrun
    cases hrun
    rfl
  obtain ⟨hvalid, haddress, hir, hssw⟩ := targetFaulting_latches v target faultPc u
  have hstands : GroupFrame (delivered v x).memory (before.supervisorSp - 14)
      (statusWord (capturedWord u) false (functionCode before.supervisor true)) target
      (capturedWord u) before.sr (stackedPc v x) := by
    have hgroupFrame := delivered_groupFrame hv hvalid hframe
    rwa [haddress, hir, hssw, hsp, hsr, hu.supervisor] at hgroupFrame
  have hlength : frameLength (frameOf v x) = 14 := by
    rw [frameOf, if_pos hv]
    rfl
  -- the handler's address is read with the frame on the stack
  have heven : isOdd w.pc = false := by
    rw [hw, delivered_pc hvector, vectorAddress, hvbr]
    refine hserves.handler _ _ _ _ (fun a ha => ?_) hstands
    have hout : ¬InFrame x.supervisorSp (frameLength (frameOf v x)) a := by
      rw [hlength, hsp]
      exact ha
    exact (delivered_memory hout).trans (congrFun (congrArg Programmed.memory hx) a)
  rcases hleaves.endsIn hsteady hgroup with hends | ⟨hodd, -⟩
  · have hprogrammed : programmed t = programmed (delivered v x) := by
      rw [hends.programmed, hw]
    refine ⟨hprogrammed, ?_, ?_⟩
    · rw [supervisorSp_of_programmed hprogrammed, delivered_supervisorSp, frameBytes,
        if_pos hv, hsp]
    rw [show t.memory = (delivered v x).memory from congrArg Programmed.memory hprogrammed]
    exact hstands
  · rw [heven] at hodd
    cases hodd

/-! ## Restartable transfers -/

/-- The exception of the step from `s` left its fourteen-byte frame, with the target
as the fault address, and nothing else. -/
structure Restartable (target : U32) (s t : M68kCpu σ) : Prop where
  dRegs : t.dRegs = s.dRegs
  lowA : Function.update t.aRegs 7 0 = Function.update s.aRegs 7 0
  userSp : t.userSp = s.userSp
  supervisor : t.supervisor = true
  supervisorSp : t.supervisorSp = s.supervisorSp - 14
  memory : ∀ a, ¬InFrame s.supervisorSp 14 a → t.memory a = s.memory a
  address : longAt t.memory (maskAddress24 (t.supervisorSp + 2)) = target

/-- The registers and the memory after a served prefetch fault. -/
theorem PrefetchFault.restartable (h : PrefetchFault v target s s t) (hv : v = 2 ∨ v = 3)
    (hserves : ServesFault v target s) : Restartable target s t := by
  obtain ⟨u, faultPc, hu, hprogrammed, hsp', hstands⟩ := h.delivers hv rfl hserves
  let x := targetFaulting v target faultPc u
  have hx : programmed x = programmed s :=
    (programmed_targetFaulting v target faultPc u).trans hu.programmed
  have hsp := supervisorSp_of_programmed hx
  have hkept := delivered_kept v x
  have haRegs : t.aRegs = (delivered v x).aRegs := congrArg Programmed.aRegs hprogrammed
  have hmemory : t.memory = (delivered v x).memory := congrArg Programmed.memory hprogrammed
  have hsup : t.supervisor = true :=
    (supervisor_of_programmed hprogrammed).trans (delivered_supervisor v x)
  have hlength : frameLength (frameOf v x) = 14 := by
    rw [frameOf, if_pos hv]
    rfl
  refine
    { dRegs := ?_
      lowA := ?_
      userSp := ?_
      supervisor := hsup
      supervisorSp := hsp'
      memory := ?_
      address := ?_ }
  · exact (congrArg Programmed.dRegs hprogrammed).trans
      ((congrArg Kept.dRegs hkept).trans (congrArg Programmed.dRegs hx))
  · have hlow : x.aRegs = s.aRegs := congrArg Programmed.aRegs hx
    rw [haRegs, ← hlow]
    exact congrArg Kept.lowA hkept
  · exact (userSp_of_programmed hprogrammed).trans
      ((congrArg Kept.userSp hkept).trans (userSp_of_programmed hx))
  · intro a ha
    have hout : ¬InFrame x.supervisorSp (frameLength (frameOf v x)) a := by
      rw [hlength, hsp]
      exact ha
    rw [hmemory]
    exact (delivered_memory hout).trans (congrFun (congrArg Programmed.memory hx) a)
  · rw [hsp']
    exact hstands.address

/-- A taken Bcc, a looping DBcc, a JMP or a JSR to a bad target leaves the frame of
its prefetch fault and nothing else, where the stack and the vector table serve it. -/
theorem refused_transfer_restarts (hs : Boundary s) (hstop : s.stopped = false)
    (hdue : interruptDue s = false) (hacc : accessible s .word s.pc = true)
    (h : Transfers s kind target) (hkind : kind.restarts = true) (hbad : badTarget s target = true)
    (hserves : ServesFault (targetVector target) target s) :
    ∃ t, step (Host.none σ) s = .ok () t ∧
      PrefetchFault (targetVector target) target s s t ∧ Restartable target s t := by
  obtain ⟨t, ht, hends⟩ := transfer_steps hs hstop hdue hacc h hbad
  have hnot : kind ≠ .bsr ∧ kind.returns = false := by
    cases kind <;> first | exact absurd hkind (by decide) | exact ⟨by decide, rfl⟩
  rcases hends with ⟨c, t', hland, hfin⟩ | ⟨t', hunpushed, -⟩
  · have hpre : kind.prefetches target s := by
      refine ⟨fun hret => ?_, fun hbsr => absurd hbsr hnot.1⟩
      rw [hnot.2] at hret
      cases hret
    have hfault := (hland.prefetchFault_iff rfl hfin).mpr hpre
    rw [Transfer.reached_of_restarts hkind] at hfault
    exact ⟨t, ht, hfault, hfault.restartable (targetVector_cases target) hserves⟩
  -- only a BSR pushes before it prefetches
  · exact absurd hunpushed.1 hnot.1

/-- The stack and the vector table of `jmpUnmapped` serve its bus error. -/
theorem jmpUnmapped_serves : ServesFault 2 0x2000 jmpUnmapped := by
  refine servesFault_of_table rfl rfl rfl ?_
  rintro ⟨i, hi, heq⟩
  have hnone : ∀ i : Fin 14, maskAddress24 (0x800 - BitVec.ofNat 32 (i + 1)) ≠ 0xB := by decide
  exact hnone ⟨i, hi⟩ heq.symm

theorem refused_transfer_restarts_jmp :
    ∃ t, step (Host.none Unit) jmpUnmapped = .ok () t ∧
      PrefetchFault 2 0x2000 jmpUnmapped jmpUnmapped t ∧
      Restartable 0x2000 jmpUnmapped t :=
  refused_transfer_restarts ⟨rfl, by decide⟩ rfl rfl rfl jmpUnmapped_transfers rfl rfl
    jmpUnmapped_serves

end M68k
