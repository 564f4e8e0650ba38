import Rocket68.Logic.Capture
import Rocket68.Theorems.Targets
import Rocket68.Theorems.Boundary

/-!
# The frame of a faulting access

What a bus or address error frame says of the access that raised it: its direction,
its address space and mode, its full address, the instruction word and the status
register. The frame of a bad branch target says the same of the prefetch.
-/

namespace M68k

open Trap TrapM

variable {σ : Type} {k : Option (Nat → M68kCpu σ → M68kCpu σ × U32)} {g : Grade}
  {s t u w : M68kCpu σ} {v : Nat} {kind : Access} {size : M68kSize} {address : U32}

/-- The first exception of a step is `v`, raised for this access. -/
def FirstFault (v : Nat) (kind : Access) (size : M68kSize) (address : U32)
    (log : List Event) : Prop :=
  ∃ newer older, older.any Event.isException = false ∧
    log = newer ++ .exception v :: .fault kind address :: .access kind size address :: older

/-- The fourteen bytes at the supervisor stack pointer describe an access: the
status word shows the top of the instruction word, the direction and the function
code of the access in its own mode. -/
def Framed (isWrite supervisor program : Bool) (address : U32) (ir sr : U16)
    (t : M68kCpu σ) : Prop :=
  ∃ ssw pc, GroupFrame t.memory t.supervisorSp ssw address ir sr pc ∧
    ssw &&& 0xFFE0 = ir &&& 0xFFE0 ∧ ssw.getLsbD 4 = !isWrite ∧
    ssw &&& 7 = functionCode supervisor program

theorem framed_of_statusWord {isWrite supervisor program : Bool} {ir sr : U16} {pc : U32}
    (h : GroupFrame t.memory t.supervisorSp
      (statusWord ir isWrite (functionCode supervisor program)) address ir sr pc) :
    Framed isWrite supervisor program address ir sr t := by
  have hcode : functionCode supervisor program &&& 7 = functionCode supervisor program := by
    cases supervisor <;> cases program <;> rfl
  refine ⟨_, pc, h, statusWord_top ir _ isWrite, statusWord_read ir _ isWrite, ?_⟩
  rw [statusWord_space, hcode]

/-! ## The frame of a delivered fault -/

/-- What a delivered group 0 exception leaves at its stack pointer. -/
theorem framed_delivered (hv : v = 2 ∨ v = 3) (hd : u.exceptionDepth = 0)
    (h : exception v (ackHost k) u = .ok () w) (hcalm : faultsInHandling w.log = false)
    (hvalid : u.faultValid = true) (hsize : u.memorySize = s.memorySize)
    (hfits : fits s (w.supervisorSp + 14) (frameOf 2 s) = true) :
    ∃ pc, GroupFrame w.memory w.supervisorSp u.faultSsw u.faultAddress u.faultIr u.sr pc := by
  have hw := delivered_of_calm hd h hcalm
  have hsp : w.supervisorSp = u.supervisorSp - 14 := by
    rw [hw, delivered_supervisorSp, frameBytes, if_pos hv]
  have hsizes : (frameOf v u).map Prod.fst = (frameOf 2 s).map Prod.fst := by
    have htwo : 2 = 2 ∨ 2 = 3 := .inl rfl
    unfold frameOf
    rw [if_pos hv, if_pos htwo]
    rfl
  have hframe : fits u u.supervisorSp (frameOf v u) = true := by
    rw [hsp, BitVec.sub_add_cancel] at hfits
    rw [fits_sizes hsizes, fits_congr hsize]
    exact hfits
  rw [hsp, hw]
  exact ⟨_, delivered_groupFrame hv hvalid hframe⟩

theorem handlerSr_low (sr : U16) : handlerSr sr &&& 0x1F = sr &&& 0x1F := by
  apply BitVec.eq_of_getLsbD_eq
  intro i hi
  have hlow : ∀ i : Fin 16, (0x1F : U16).getLsbD i = true →
      srMask.getLsbD i = true ∧ srS.getLsbD i = false ∧ srT.getLsbD i = false := by decide
  rw [handlerSr]
  simp only [BitVec.getLsbD_and, BitVec.getLsbD_or, BitVec.getLsbD_not, hi, decide_true]
  by_cases h5 : (0x1F : U16).getLsbD i = true
  · obtain ⟨hmask, hS, hT⟩ := hlow ⟨i, hi⟩ h5
    simp only [hmask, hS, hT, h5, Bool.or_false, Bool.not_false, Bool.and_true]
  · have h5' : (0x1F : U16).getLsbD i = false := by simpa using h5
    rw [h5', Bool.and_false, Bool.and_false]

/-- The system byte of one status register and the condition codes of another. -/
theorem sr_split {sr sr' sr'' : U16} (hhigh : ∀ i, 5 ≤ i → sr.getLsbD i = sr'.getLsbD i)
    (hlow : sr &&& 0x1F = sr'' &&& 0x1F) : sr = (sr' &&& 0xFFE0) ||| (sr'' &&& 0x1F) := by
  rw [← hlow]
  apply BitVec.eq_of_getLsbD_eq
  intro i hi
  have hmasks : ∀ i : Fin 16, (0xFFE0 : U16).getLsbD i = decide (5 ≤ i.val) ∧
      (0x1F : U16).getLsbD i = decide (i.val < 5) := by decide
  obtain ⟨h1, h2⟩ := hmasks ⟨i, hi⟩
  simp only [BitVec.getLsbD_or, BitVec.getLsbD_and, h1, h2]
  by_cases h5 : 5 ≤ i
  · have hnot : ¬i < 5 := by omega
    simp [h5, hnot, hhigh i h5]
  · have hlt : i < 5 := by omega
    simp [h5, hlt]

/-- The frame of an access that unwound its instruction. -/
theorem Struck.framed (hu : Struck kind address s u)
    (h : exception (faultVector size address) (ackHost k) (faulting kind size address u) =
      .ok () w) (hcalm : faultsInHandling w.log = false)
    (hfits : fits s (w.supervisorSp + 14) (frameOf 2 s) = true) :
    Framed (kind == .write) s.supervisor
      (kind == .fetch || (kind == .read && isRelative (opcodeAt s))) address
      (frameWord kind address s) ((s.sr &&& 0xFFE0) ||| (w.sr &&& 0x1F)) w := by
  obtain ⟨hvalid, haddress, hir, hssw⟩ := faulting_latches kind size address u
  obtain ⟨hsr, -, -, hsize⟩ := faulting_eq kind size address u
  have hdepth : (faulting kind size address u).exceptionDepth = 0 :=
    (holdGuard_kept _ true _).2.1.trans hu.running.depth
  have hsup : u.supervisor = s.supervisor := by
    rw [supervisor_eq, supervisor_eq]
    exact hu.sr 13 (by decide)
  have hw := delivered_of_calm hdepth h hcalm
  have hlow : u.sr &&& 0x1F = w.sr &&& 0x1F := by
    rw [hw, delivered_sr, handlerSr_low, hsr]
  obtain ⟨pc, hframe⟩ := framed_delivered (faultVector_cases size address) hdepth h hcalm hvalid
    (hsize.trans hu.memorySize) hfits
  rw [hssw, haddress, hir, hsr, hu.word, hu.space, hsup, sr_split hu.sr hlow] at hframe
  exact framed_of_statusWord hframe

/-! ## The accesses of an instruction -/

theorem not_firstFault (h : Handled t.log) : ¬FirstFault v kind size address t.log := by
  rintro ⟨newer, older, holder, hlog⟩
  have hlog' : t.log =
      (newer ++ [.exception v]) ++ .fault kind address :: .access kind size address :: older := by
    rw [hlog, List.append_assoc]
    rfl
  have hany := h _ _ _ _ hlog'
  rw [List.any_cons, holder] at hany
  cases hany

/-- The first fault of the log is the one that unwound the instruction. -/
theorem firstFault_unique {kind' : Access} {size' : M68kSize} {address' : U32} {v' : Nat}
    {newer older : List Event} (hquiet : Quiet older)
    (hlog : t.log = newer ++ .exception v' :: .fault kind' address' ::
      .access kind' size' address' :: older)
    (h : FirstFault v kind size address t.log) :
    v = v' ∧ kind = kind' ∧ size = size' ∧ address = address' := by
  obtain ⟨newer', older', holder, hlog'⟩ := h
  have hnone {k : Access} {z : M68kSize} {a : U32} {log : List Event}
      (hlog : ∀ w, Event.exception w ∉ log) (w : Nat) :
      Event.exception w ∉ .fault k a :: .access k z a :: log := by
    intro hmem
    simp only [List.mem_cons, reduceCtorEq, false_or] at hmem
    exact hlog w hmem
  have holder' (w : Nat) : Event.exception w ∉ older' := by
    intro hmem
    rw [List.any_eq_false] at holder
    exact holder _ hmem rfl
  obtain ⟨hv, hrest⟩ := oldest_exception (hnone holder') (hnone hquiet.no_exception)
    (hlog'.symm.trans hlog)
  obtain ⟨-, hrest⟩ := List.cons_eq_cons.mp hrest
  obtain ⟨haccess, -⟩ := List.cons_eq_cons.mp hrest
  obtain ⟨rfl, rfl, rfl⟩ := Event.access.inj haccess
  exact ⟨hv, rfl, rfl, rfl⟩

/-- A refused effective address is no fault. -/
theorem refused_handled (hu : Quiet u.log) (hd : u.exceptionDepth = 0)
    (h : exception 4 (ackHost k) u = .ok () t) : Handled t.log := by
  have hlog : Handled u.log := by
    intro newer kind address older heq
    exact absurd (heq ▸ List.mem_append_right _ List.mem_cons_self) (hu.no_fault kind address)
  obtain ⟨t', ht', hproc⟩ := exception_processed (k := k) 4 (Int.le_of_eq hd.symm)
  rw [h] at ht'
  cases ht'
  exact hproc.handled hlog

/-- What the step from `s` to `t` owes to its first fault. -/
def Describes (s t : M68kCpu σ) : Prop :=
  ∀ v kind size address, FirstFault v kind size address t.log →
    v = faultVector size address ∧
      (faultsInHandling t.log = false → fits s (t.supervisorSp + 14) (frameOf 2 s) = true →
        Framed (kind == .write) s.supervisor
          (kind == .fetch || (kind == .read && isRelative (opcodeAt s))) address
          (frameWord kind address s) ((s.sr &&& 0xFFE0) ||| (t.sr &&& 0x1F)) t)

theorem describes_of_handled (h : Handled t.log) : Describes s t := by
  intro v kind size address hf
  exact absurd hf (not_firstFault h)

theorem Struck.describes (hu : Struck kind address s u)
    (h : exception (faultVector size address) (ackHost k) (faulting kind size address u) =
      .ok () w) : Describes s (aborted (holdGuard (faultVector size address) false w)) := by
  intro v' kind' size' address' hf
  obtain ⟨hproc, -⟩ := accessFault_kept hu.running.steady h
  obtain ⟨evs, hevs, -⟩ := hproc.log
  rw [faulting_log] at hevs
  have hlog : (aborted (holdGuard (faultVector size address) false w)).log = w.log :=
    holdGuard_log _ _ _
  obtain ⟨rfl, rfl, rfl, rfl⟩ := firstFault_unique hu.quiet (hlog.trans hevs) hf
  refine ⟨rfl, fun hcalm hfits => ?_⟩
  have hkeep : (aborted (holdGuard (faultVector size' address') false w)).supervisorSp =
        w.supervisorSp ∧
      (aborted (holdGuard (faultVector size' address') false w)).memory = w.memory ∧
      (aborted (holdGuard (faultVector size' address') false w)).sr = w.sr := by
    rw [holdGuard_eq]
    exact ⟨rfl, rfl, rfl⟩
  obtain ⟨hsp, hmemory, hsr⟩ := hkeep
  rw [hsp] at hfits
  obtain ⟨ssw, pc, hframe, hstatus⟩ := hu.framed h (hlog ▸ hcalm) hfits
  refine ⟨ssw, pc, ?_, hstatus⟩
  rw [hsp, hmemory, hsr]
  exact hframe

/-- The opcode fetch. -/
theorem struck_fetch (hs : Settled s) (hacc : accessible s .word s.pc = false) :
    Struck .fetch s.pc s (armed s) where
  running := armed_running hs.depth
  memorySize := rfl
  space := hs.programSpace
  word := by
    have hword : capturedWord (armed s) = if s.faultBusWordValid then s.faultBusWord else s.ir :=
      rfl
    rw [hword, hs.busWord, frameWord, hacc]
    rfl
  quiet := by
    intro e he
    cases he
  sr _ _ := rfl

theorem Stepped.describes {check : Bool} (h : Stepped none g check s t) (hs : Settled s) :
    Describes s t := by
  have hrunning := fetched_running (s := s) hs.depth
  have hstart : Handled (fetched s).log := handled_access handled_nil
  have hunused : ∀ i, 5 ≤ i → i < 8 → s.sr.getLsbD i = false := by
    intro i h5 h8
    have hmask : ∀ i : Fin 8, 5 ≤ i.val → srMask.getLsbD i = false := by decide
    exact masked_iff.mp hs.sr i (by omega) (hmask ⟨i, h8⟩ h5)
  cases h with
  | idle => exact describes_of_handled handled_nil
  | interrupt _ _ h =>
    have hsteady : Steady (beginStep s) := ⟨hs.depth, rfl, rfl⟩
    exact describes_of_handled ((exception_steady hsteady h).handled handled_nil)
  | fetchFault _ _ hacc h => exact (struck_fetch hs hacc).describes h
  | unwound _ _ hacc hrun _ =>
    have hstrikes := (wp_of_trap hrun).mp
      (dispatch_strikes (k := none) hs.depth hs.programSpace hs.busWord hunused hacc)
    cases hstrikes with
    | fault hu h => exact hu.describes h
    | illegalEa hu hd h =>
      have hlog := refused_handled hu hd h
      exact describes_of_handled hlog
  | completed _ _ _ _ hrun _ hfin =>
    exact describes_of_handled (hfin.handled (hrun.steady hrunning.steady)
      (hrun.handled hrunning.steady hstart))

/-! ## The targets of transfers -/

/-- The frame of a served prefetch fault describes the prefetch. -/
theorem PrefetchFault.framed {before : M68kCpu σ} {target : U32} (hs : Settled s)
    (h : PrefetchFault v target before s t) (hv : v = 2 ∨ v = 3)
    (hsize : before.memorySize = s.memorySize) (hserves : ServesFault v target before) :
    Framed false before.supervisor true target (opcodeAt s) before.sr t := by
  obtain ⟨u, faultPc, hu, -, hsp, hstands⟩ := h.delivers hv hsize hserves
  have hword : capturedWord u = opcodeAt s := by
    rw [capturedWord, hu.busWord, hs.busWord]
    exact congrArg Wiring.ir hu.wiring
  rw [hword, ← hsp] at hstands
  exact framed_of_statusWord hstands

/-- The frame of the first bus or address error of a step describes the access, be
it a fetch, a read, a write or the prefetch of a target, that raised it. -/
theorem fault_frames (hs : Settled s) :
    ∃ t, step (Host.none σ) s = .ok () t ∧ Describes s t ∧
      ∀ kind target, s.stopped = false → interruptDue s = false →
        accessible s .word s.pc = true → Transfers s kind target → badTarget s target = true →
        kind.prefetches target s →
        PrefetchFault (targetVector target) target (kind.reached s) s t ∧
          (ServesFault (targetVector target) target (kind.reached s) →
            Framed false (kind.reached s).supervisor true target (opcodeAt s)
              (kind.reached s).sr t) := by
  obtain ⟨t, ht, hst⟩ := stepEx_cases (k := none) (g := .of s.supervisor (opcodeAt s)) true
    hs.depth hs.depth (Grade.of_covers _ _) rfl
  refine ⟨t, ht, hst.describes hs, ?_⟩
  intro kind target hstop hdue hacc h hbad hpre
  have hfault : PrefetchFault (targetVector target) target (kind.reached s) s t := by
    obtain ⟨t', ht', hends⟩ := transfer_steps ⟨hs.depth, hs.irqLevel⟩ hstop hdue hacc h hbad
    rw [ackHost_none] at ht
    cases ht.symm.trans ht'
    rcases hends with ⟨c, t'', hland, hfin⟩ | ⟨t'', hunpushed, -⟩
    · exact (hland.prefetchFault_iff rfl hfin).mpr hpre
    · obtain ⟨hbsr, hacc', -⟩ := hunpushed
      rw [hpre.2 hbsr] at hacc'
      cases hacc'
  exact ⟨hfault, hfault.framed hs (targetVector_cases target) (kind.reached_memorySize s)⟩

/-- MOVE.W D0,-(A0) to an odd address, before the word 0x1234. -/
def moveOdd : M68kCpu Unit :=
  { init (fun a => if a = 0x100 then 0x31 else if a = 0x102 then 0x12 else if a = 0x103 then 0x34
      else 0) 0x1000 () with
    sr := 0x2004
    aRegs := fun r => if r = 0 then 0x803 else 0x800
    pc := 0x100 }

theorem moveOdd_settled : Settled moveOdd :=
  ⟨rfl, rfl, rfl, rfl, rfl, rfl, rfl, Nat.zero_le _, rfl⟩

theorem jmpUnmapped_settled : Settled jmpUnmapped :=
  ⟨rfl, rfl, rfl, rfl, rfl, rfl, rfl, Nat.zero_le _, rfl⟩

/-- The frame of `moveOdd`, and that of `jmpUnmapped`. -/
theorem fault_frames_move :
    (∃ t, step (Host.none Unit) moveOdd = .ok () t ∧
      Framed true true false 0x801 0x1234 0x2004 t) ∧
    ∃ t, step (Host.none Unit) jmpUnmapped = .ok () t ∧
      Framed false true true 0x2000 0x4ED0 0x2000 t := by
  constructor
  · obtain ⟨t, ht, hdescribes, -⟩ := fault_frames moveOdd_settled
    have hrun : (exec? (step (σ := Unit)) (Host.none Unit) moveOdd).map
        (fun t => (t.log, t.supervisorSp, t.sr)) =
        some (oddSourceEvents ++ [.exception 3, .fault .write 0x801, .access .write .word 0x801,
          .access .fetch .word 0x100], 0x7F2, 0x2004) := by decide +kernel
    simp only [exec?, ht, Option.map_some, Option.some.injEq, Prod.mk.injEq] at hrun
    obtain ⟨hlog, hsp, hsr⟩ := hrun
    have hcalm : faultsInHandling t.log = false := by
      rw [hlog]
      rfl
    have hfits : fits moveOdd (t.supervisorSp + 14) (frameOf 2 moveOdd) = true := by
      rw [hsp]
      rfl
    have hframed := (hdescribes 3 .write .word 0x801 ⟨_, _, rfl, hlog⟩).2 hcalm hfits
    rw [hsr] at hframed
    exact ⟨t, ht, hframed⟩
  · obtain ⟨t, ht, -, htargets⟩ := fault_frames jmpUnmapped_settled
    obtain ⟨-, hframed⟩ := htargets .jmp 0x2000 rfl rfl rfl jmpUnmapped_transfers rfl
      ⟨by rintro ⟨⟩, by rintro ⟨⟩⟩
    exact ⟨t, ht, hframed jmpUnmapped_serves⟩

end M68k
