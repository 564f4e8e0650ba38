import Rocket68.Theorems.Stacks

/-!
# Precise traps and clean aborts

An illegal or privileged instruction is rejected while it still decodes, so its
trap leaves the programmer's model as it was. A read that faults comes before
every write of its instruction, so its abort leaves data registers and memory as
they were.
-/

namespace M68k

open Trap TrapM

variable {σ : Type} {k : Option (Nat → M68kCpu σ → M68kCpu σ × U32)} {g : Grade} {p q : Phase}
  {s t u : M68kCpu σ} {v : Nat}

/-! ## Precise traps -/

/-- Trap `v` of the instruction at the PC of `s` left its frame behind and
nothing else. -/
structure Precise (v : Nat) (s t : M68kCpu σ) : Prop where
  dRegs : t.dRegs = s.dRegs
  lowA : Function.update t.aRegs 7 0 = Function.update s.aRegs 7 0
  userSp : t.userSp = s.userSp
  supervisor : t.supervisor = true
  supervisorSp : t.supervisorSp = s.supervisorSp - normalBytes s.model
  vbr : t.vbr = s.vbr
  sfc : t.sfc = s.sfc
  dfc : t.dfc = s.dfc
  memory : ∀ a, ¬InFrame s.supervisorSp (if s.model.is68010 then 8 else 6) a →
    t.memory a = s.memory a
  frame : Holds t.memory s.model t.supervisorSp s.sr s.pc v

/-- The handler address exception `v` of the next instruction fetches, once its
frame is pushed. -/
def handlerAddress (v : Nat) (s : M68kCpu σ) : U32 := (delivered v (armed s)).pc

/-! ## Decoding -/

/-- The programmer's model and the memory. -/
structure Programmed where
  dRegs : Fin 8 → U32
  aRegs : Fin 8 → U32
  sr : U16
  usp : U32
  ssp : U32
  vbr : U32
  sfc : U32
  dfc : U32
  memory : U32 → U8

def programmed (s : M68kCpu σ) : Programmed where
  dRegs := s.dRegs
  aRegs := s.aRegs
  sr := s.sr
  usp := s.usp
  ssp := s.ssp
  vbr := s.vbr
  sfc := s.sfc
  dfc := s.dfc
  memory := s.memory

/-- Decoding changes none of it. -/
theorem Trans.programmed (h : Trans k g p q s t) (hq : q = .decode) :
    programmed t = programmed s := by
  cases h with
  | latch _ h => rw [h]; rfl
  | setA | jump => cases p <;> cases hq
  | setD | ccr | write | setSr | setUsp | control | stop | raised | trapped
  | targetFault => cases hq
  | charge | rewind | fetch | read => rfl

theorem userSp_of_programmed (h : programmed t = programmed s) : t.userSp = s.userSp := by
  have hsr : t.sr = s.sr := congrArg Programmed.sr h
  have haRegs : t.aRegs = s.aRegs := congrArg Programmed.aRegs h
  have husp : t.usp = s.usp := congrArg Programmed.usp h
  have hsup : t.supervisor = s.supervisor := congrArg (fun sr : U16 => sr &&& srS != 0) hsr
  rw [M68kCpu.userSp, M68kCpu.userSp, hsup, haRegs, husp]

theorem supervisorSp_of_programmed (h : programmed t = programmed s) :
    t.supervisorSp = s.supervisorSp := by
  have hsr : t.sr = s.sr := congrArg Programmed.sr h
  have haRegs : t.aRegs = s.aRegs := congrArg Programmed.aRegs h
  have hssp : t.ssp = s.ssp := congrArg Programmed.ssp h
  have hsup : t.supervisor = s.supervisor := congrArg (fun sr : U16 => sr &&& srS != 0) hsr
  rw [M68kCpu.supervisorSp, M68kCpu.supervisorSp, hsup, haRegs, hssp]

/-- What pushes leave in memory depends on memory and stack pointer only. -/
theorem pushed_memory_congr (frame : List (M68kSize × U32)) (hm : t.memory = s.memory)
    (hsize : t.memorySize = s.memorySize) (ha7 : t.aRegs 7 = s.aRegs 7) :
    (pushed frame t).memory = (pushed frame s).memory := by
  induction frame generalizing s t with
  | nil => exact hm
  | cons e rest ih =>
    have hmapped (address : U32) : mapped t e.1 address = mapped s e.1 address := by
      simp only [mapped, isValidAddress, hsize]
    refine ih ?_ hsize ?_
    · show (if mapped t e.1 (t.aRegs 7 - e.1.bytes) then
          storeSized e.1 t.memory (maskAddress24 (t.aRegs 7 - e.1.bytes)) e.2 else t.memory) = _
      rw [hmapped, hm, ha7]
      rfl
    · rw [pushedOne_a7, pushedOne_a7, ha7]

/-! ## Rejection -/

/-- During an instruction begun in `s`: it decodes, or it has been rejected by
trap `v`, or it is past being rejected. -/
structure Rejecting (v : Nat) (s : M68kCpu σ) (p : Phase) (t : M68kCpu σ) : Prop where
  wiring : wiring t = wiring (fetched s)
  decoding : p = .decode → programmed t = programmed s
  taken : .exception v ∈ t.log → p = .finished ∧ Precise v s t ∧ t.pc = handlerAddress v s

theorem stackedPc_rejected (hv : RejectVector v) (s : M68kCpu σ) : stackedPc v s = s.ppc := by
  have hnormal := hv.normal
  unfold RejectVector at hv
  rw [stackedPc, if_neg (by omega), if_pos hv]

/-- A trap raised while decoding is precise. -/
theorem precise_of_raised (hv : RejectVector v)
    (hframe : fits s s.supervisorSp (frameOf v s) = true) (hvector : hasVector v s = true)
    (hwiring : wiring t = wiring (fetched s)) (hdecoding : programmed t = programmed s)
    (h : exception v (ackHost k) t = .ok () u) : Precise v s u ∧ u.pc = handlerAddress v s := by
  have hv' := hv.normal
  have hmodel : t.model = s.model := congrArg Wiring.model hwiring
  have hsize : t.memorySize = s.memorySize := congrArg Wiring.memorySize hwiring
  have hppc : t.ppc = s.pc := congrArg Wiring.ppc hwiring
  have hvbr : t.vbr = s.vbr := congrArg Programmed.vbr hdecoding
  have hsr : t.sr = s.sr := congrArg Programmed.sr hdecoding
  have hmemory : t.memory = s.memory := congrArg Programmed.memory hdecoding
  have hsp := supervisorSp_of_programmed hdecoding
  have hframe' : fits t t.supervisorSp (frameOf v t) = true := by
    rw [hsp, fits_frameOf hmodel hsize]
    exact hframe
  have hvector' := (hasVector_congr hvbr hsize).trans hvector
  rw [exception_delivers k (exceptionFaults_of_fits hframe' hvector')] at h
  cases h
  have hkept := delivered_kept v t
  have hstacked : stackedPc v t = s.pc := (stackedPc_rejected hv t).trans hppc
  obtain ⟨ha7, -, hholds⟩ := delivered_frame hv' hframe'
  have hsup := delivered_supervisor v t
  have hsp' : (delivered v t).supervisorSp = (delivered v t).aRegs 7 := if_pos hsup
  refine ⟨?_, ?_⟩
  · refine
      { dRegs := (congrArg Kept.dRegs hkept).trans (congrArg Programmed.dRegs hdecoding)
        lowA := ?_
        userSp := (congrArg Kept.userSp hkept).trans (userSp_of_programmed hdecoding)
        supervisor := hsup
        supervisorSp := ?_
        vbr := (congrArg Kept.vbr hkept).trans hvbr
        sfc := (congrArg Kept.sfc hkept).trans (congrArg Programmed.sfc hdecoding)
        dfc := (congrArg Kept.dfc hkept).trans (congrArg Programmed.dfc hdecoding)
        memory := ?_
        frame := ?_ }
    · have haRegs : t.aRegs = s.aRegs := congrArg Programmed.aRegs hdecoding
      rw [← haRegs]
      exact congrArg Kept.lowA hkept
    · rw [hsp', ha7, hsp, hmodel]
    · intro a ha
      have hout : ¬InFrame t.supervisorSp (frameLength (frameOf v t)) a := by
        rw [(frameSize_normal hv' t).2, hsp, hmodel]
        exact ha
      exact (delivered_memory hout).trans (congrFun hmemory a)
    · have hmodel' : (delivered v t).model = s.model := (congrArg Kept.model hkept).trans hmodel
      rw [hmodel', hstacked, hsr] at hholds
      rw [hsp']
      exact hholds
  · -- The same frame goes to the same place, so the same entry is read.
    have hframes : frameOf v t = frameOf v (armed s) := by
      have harmed : stackedPc v (armed s) = s.pc := stackedPc_rejected hv _
      rw [frameOf_normal hv', frameOf_normal hv', hstacked, harmed, hmodel, hsr]
      rfl
    have hpushed : (delivered v t).memory = (delivered v (armed s)).memory := by
      show (pushed (frameOf v t) (entered v t)).memory =
        (pushed (frameOf v (armed s)) (entered v (armed s))).memory
      rw [hframes]
      refine pushed_memory_congr _ ?_ ?_ ?_
      · rw [entered_eq, entered_eq]
        exact hmemory
      · rw [entered_eq, entered_eq]
        exact hsize
      · rw [entered_a7, entered_a7]
        exact hsp
    rw [handlerAddress, delivered_pc hvector', delivered_pc (s := armed s) hvector, hpushed,
      vectorAddress, vectorAddress, hvbr]
    rfl

/-- Charging cycles and disarming the trap show in no register. -/
theorem Precise.charged (h : Precise v s t) (n : Int) : Precise v s (charged n t) :=
  ⟨h.1, h.2, h.3, h.4, h.5, h.6, h.7, h.8, h.9, h.10⟩

theorem Precise.disarmed (h : Precise v s t) : Precise v s (disarmed t) :=
  ⟨h.1, h.2, h.3, h.4, h.5, h.6, h.7, h.8, h.9, h.10⟩

theorem Precise.aborted (h : Precise v s t) : Precise v s (aborted t) :=
  ⟨h.1, h.2, h.3, h.4, h.5, h.6, h.7, h.8, h.9, h.10⟩

section

variable (hv : RejectVector v) (hd : s.exceptionDepth = 0)
  (hframe : fits s s.supervisorSp (frameOf v s) = true) (hvector : hasVector v s = true)

include hv hd hframe hvector

theorem Trans.rejecting (h : Trans k g p q t u) (hc : Rejecting v s p t) : Rejecting v s q u := by
  have ht := steady_of_wiring hc.wiring (fetched_running hd).steady
  -- a trap was taken only where the instruction has finished
  have hnot (hp : p ≤ .switched) : .exception v ∉ t.log := by
    intro hmem
    obtain ⟨rfl, -⟩ := hc.taken hmem
    exact absurd hp (by decide)
  have hprogrammed (hq : q = .decode) : M68k.programmed u = M68k.programmed s :=
    (h.programmed hq).trans (hc.decoding (Phase.eq_decode (hq ▸ h.le)))
  refine ⟨(h.wiring ht).trans hc.wiring, hprogrammed, fun hmem => ?_⟩
  have hnoted {kind : Access} {size : M68kSize} {address : U32}
      (h : Event.exception v ∈ .access kind size address :: t.log) : .exception v ∈ t.log := by
    simpa using h
  cases h with
  | charge =>
    obtain ⟨hp, hprecise, hpc⟩ := hc.taken hmem
    exact ⟨hp, hprecise.charged _, hpc⟩
  | latch hp h =>
    rw [h] at hmem
    exact absurd hmem (hnot (Phase.le_trans hp before))
  | rewind hp | setA hp | setD hp | ccr hp | setUsp _ _ hp =>
    exact absurd hmem (hnot (Phase.le_trans hp before))
  | @control _ _ _ hp c =>
    have hmem' : .exception v ∈ t.log := by cases c <;> exact hmem
    exact absurd hmem' (hnot (Phase.le_trans hp before))
  | setSr _ hp =>
    rw [withSr_eq] at hmem
    exact absurd hmem (hnot (Phase.le_trans hp before))
  | jump hp | stop _ hp => exact absurd hmem (hnot hp)
  | fetch hp => exact absurd (hnoted hmem) (hnot (Phase.le_trans hp before))
  | read hp =>
    have hc : p ≤ .commit := hp.elim (Phase.le_trans · before) (·.2)
    exact absurd (hnoted hmem) (hnot (Phase.le_trans hc before))
  | write hp => exact absurd (hnoted hmem) (hnot (Phase.le_trans hp before))
  | raised _ h =>
    rcases (exception_steady ht h).taken hv hmem with rfl | hold
    · exact ⟨rfl, precise_of_raised hv hframe hvector hc.wiring (hc.decoding rfl) h⟩
    · exact absurd hold (hnot before)
  | trapped _ hv' hp h =>
    rcases (exception_steady ht h).taken hv hmem with rfl | hold
    · unfold RejectVector at hv
      unfold TrapVector at hv'
      omega
    · exact absurd hold (hnot (Phase.le_trans hp before))
  | targetFault hv' hp _ _ h =>
    have hproc := (targetFault_kept ht h).1
    rw [holdGuard_log] at hmem
    rcases hproc.taken hv hmem with rfl | hold
    · have hnormal := hv.normal
      omega
    · rw [targetFaulting_log] at hold
      exact absurd hold (hnot (Phase.le_trans hp before))

theorem Run.rejecting (h : Run k g p q t u) (hc : Rejecting v s p t) : Rejecting v s q u :=
  h.preserves (J := Rejecting v s)
    (fun hpq hc => ⟨hc.wiring, fun hq => hc.decoding (Phase.eq_decode (hq ▸ hpq)), fun hmem => by
      obtain ⟨rfl, h⟩ := hc.taken hmem
      exact ⟨Phase.eq_of_le before hpq, h⟩⟩)
    (fun ht hc => ht.rejecting hv hd hframe hvector hc) hc

end

theorem faultVector_cases (size : M68kSize) (address : U32) :
    faultVector size address = 2 ∨ faultVector size address = 3 := by
  unfold faultVector
  split
  · exact .inr rfl
  · exact .inl rfl

/-- Bus and address errors are not reject vectors. -/
theorem not_taken_of_fault {w : Nat} (hv : RejectVector v) (hw : w = 2 ∨ w = 3)
    (h : Processed w s t) (hs : .exception v ∉ s.log) : .exception v ∉ t.log := by
  intro hmem
  have hnormal := hv.normal
  rcases h.taken hv hmem with rfl | hold
  · omega
  · exact hs hold

theorem not_taken_of_access (hv : RejectVector v) {kind : Access} {size : M68kSize} {address : U32}
    (hs : Steady s)
    (h : exception (faultVector size address) (ackHost k) (faulting kind size address s) =
      .ok () t) (hold : .exception v ∉ s.log) :
    .exception v ∉ (holdGuard (faultVector size address) false t).log := by
  rw [holdGuard_log]
  refine not_taken_of_fault hv (faultVector_cases _ _) (accessFault_kept hs h).1 ?_
  simpa using hold

/-- A step that takes a reject vector is precise. -/
theorem Stepped.precise {check : Bool} (h : Stepped none g check s t) (hs : Boundary s)
    (hv : RejectVector v) (htrace : s.traced = false)
    (hframe : fits s s.supervisorSp (frameOf v s) = true) (hvector : hasVector v s = true)
    (heven : isOdd (handlerAddress v s) = false) (hmem : .exception v ∈ t.log) :
    Precise v s t := by
  have hrunning := fetched_running (s := s) hs.depth
  have hstart : Rejecting v s .decode (fetched s) :=
    ⟨rfl, fun _ => rfl, fun h => by cases h with | tail _ h => cases h⟩
  cases h with
  | idle => cases hmem
  | interrupt _ _ h =>
    have hirq := hs.irqLevel
    rcases (exception_steady (s := beginStep s) ⟨hs.depth, rfl, rfl⟩ h).taken hv
      hmem with heq | hold
    · have hack : v = 24 + s.irqLevel := heq
      unfold RejectVector at hv
      omega
    · cases hold
  | fetchFault _ _ _ h =>
    exact absurd hmem (not_taken_of_access hv (armed_running hs.depth).steady h List.not_mem_nil)
  | unwound _ _ _ _ h =>
    obtain ⟨r, u, hrun, hu, habort⟩ := h
    have hc := hrun.rejecting hv hs.depth hframe hvector hstart
    cases habort with
    | fault hp _ _ h =>
      refine absurd hmem (not_taken_of_access hv hu.steady h fun hold => ?_)
      obtain ⟨rfl, -⟩ := hc.taken hold
      exact absurd hp (by decide)
    | illegalEa _ h =>
      rcases (exception_steady hu.steady h).taken hv hmem with rfl | hold
      · exact (precise_of_raised hv hframe hvector hc.wiring (hc.decoding rfl) h).1.aborted
      · obtain ⟨hp, -⟩ := hc.taken hold
        cases hp
  | @completed c u _ _ _ _ _ hrun _ hfin =>
    have hc := hrun.rejecting hv hs.depth hframe hvector hstart
    have hsteady := hrun.steady hrunning.steady
    have hsteady' : Steady (disarmed u) := ⟨hsteady.1, hsteady.2, hsteady.3⟩
    cases hfin with
    | @oddTarget w hodd h =>
      have hmem' : .exception v ∈ (holdGuard 3 false w).log := hmem
      rw [holdGuard_log] at hmem'
      have hproc := (targetFault_kept hsteady' h).1
      by_cases hold : .exception v ∈ u.log
      -- after a rejection the PC is the handler's, which is even
      · obtain ⟨-, -, hpc⟩ := hc.taken hold
        rw [hpc, heven] at hodd
        cases hodd
      · refine absurd hmem' (not_taken_of_fault hv (.inr rfl) hproc ?_)
        rw [targetFaulting_log]
        exact hold
    | traced _ hdue =>
      rw [htrace] at hdue
      simp [traceDue] at hdue
    | plain => exact (hc.taken hmem).2.1.disarmed.charged _

/-- Illegal and privileged traps are precise. -/
theorem trap_precise (hs : Boundary s) (hv : RejectVector v) (htrace : s.traced = false)
    (hframe : fits s s.supervisorSp (frameOf v s) = true) (hvector : hasVector v s = true)
    (heven : isOdd (handlerAddress v s) = false) :
    ∃ t, step (Host.none σ) s = .ok () t ∧ (.exception v ∈ t.log → Precise v s t) := by
  obtain ⟨t, ht, hst⟩ := stepEx_cases (k := none) (g := .of s.supervisor (opcodeAt s)) true
    hs.depth hs.depth (Grade.of_covers _ _) rfl
  exact ⟨t, ht, hst.precise hs hv htrace hframe hvector heven⟩

/-- An invalid TST, in memory full of such words. -/
def invalidTst : M68kCpu Unit :=
  { init (fun _ => 0x4A) 0x1000 () with sr := 0x2000, aRegs := fun _ => 0x800 }

theorem trap_precise_illegal : ∃ t, step (Host.none Unit) invalidTst = .ok () t ∧
    .exception 4 ∈ t.log ∧ Precise 4 invalidTst t := by
  obtain ⟨t, ht, hprecise⟩ := trap_precise (s := invalidTst) (v := 4) ⟨rfl, by decide⟩ (.inl rfl)
    (by decide) (by decide) (by decide) (by decide)
  have hrun : (exec? (step (σ := Unit)) (Host.none Unit) invalidTst).map
      (fun t => decide (.exception 4 ∈ t.log)) = some true := by decide
  simp only [exec?, ht, Option.map_some, Option.some.injEq, decide_eq_true_eq] at hrun
  exact ⟨t, ht, hrun, hprecise hrun⟩

/-- An invalid TST under an odd vector base. -/
def oddVectorBase : M68kCpu Unit :=
  { init (fun _ => 0x4A) 0x1000 () with sr := 0x2000, aRegs := fun _ => 0x800, vbr := 1 }

theorem trap_imprecise :
    ¬∀ (s : M68kCpu Unit) (v : Nat), Boundary s → RejectVector v → s.traced = false →
      fits s s.supervisorSp (frameOf v s) = true → mapped s .long (vectorAddress v s) = true →
      isOdd (handlerAddress v s) = false →
      ∃ t, step (Host.none Unit) s = .ok () t ∧ (.exception v ∈ t.log → Precise v s t) := by
  intro h
  obtain ⟨t, ht, hprecise⟩ := h oddVectorBase 4 ⟨rfl, by decide⟩ (.inl rfl) (by decide)
    (by decide) (by decide) (by decide)
  have hrun : (exec? (step (σ := Unit)) (Host.none Unit) oddVectorBase).map
      (fun t => (t.supervisorSp, decide (.exception 4 ∈ t.log))) = some (0x7EC, true) := by decide
  simp only [exec?, ht, Option.map_some, Option.some.injEq, Prod.mk.injEq,
    decide_eq_true_eq] at hrun
  have hsp := (hprecise hrun.2).supervisorSp
  rw [hrun.1] at hsp
  exact absurd hsp (by decide)

/-! ## An aborted read -/

/-- A read of the instruction itself faulted, exception `v` was raised for it, and
the events of `newer` followed. -/
def FaultedRead (newer : List Event) (v : Nat) (t : M68kCpu σ) : Prop :=
  ∃ kind address older, kind ≠ .write ∧ older.any Event.isException = false ∧
    t.log = newer ++ .exception v :: .fault kind address :: older

/-- The events are accesses, and all of them reach memory. -/
def Reaching (s : M68kCpu σ) (log : List Event) : Prop :=
  ∀ e ∈ log, ∃ kind size address, e = .access kind size address ∧ mapped s size address = true

/-- The instruction of `s` was aborted with nothing but the 14-byte frame of
exception `v` to show for it. -/
structure AbortedCleanly (v : Nat) (s t : M68kCpu σ) : Prop where
  fault : v = 2 ∨ v = 3
  dRegs : t.dRegs = s.dRegs
  sr : wordAt t.memory (maskAddress24 (t.supervisorSp + 8)) = s.sr
  memory : ∀ a, ¬InFrame (t.supervisorSp + 14) 14 a → t.memory a = s.memory a
  vector : mapped s .long (vectorAddress v s) = true
  pc : t.pc = longAt t.memory (maskAddress24 (vectorAddress v s))

/-! ## Faults in the log -/

/-- Every fault is newer than some exception. -/
def Handled (log : List Event) : Prop :=
  ∀ newer kind address older, log = newer ++ .fault kind address :: older →
    older.any Event.isException = true

theorem handled_nil : Handled [] := by
  intro newer kind address older h
  exact absurd h.symm (by simp)

theorem handled_cons {e : Event} {log : List Event} (he : ∀ kind address, e ≠ .fault kind address)
    (h : Handled log) : Handled (e :: log) := by
  intro newer kind address older heq
  cases newer with
  | nil => exact absurd (List.cons.inj heq).1 (he kind address)
  | cons e' newer => exact h newer kind address older (List.cons.inj heq).2

theorem handled_access {kind : Access} {size : M68kSize} {address : U32} {log : List Event}
    (h : Handled log) : Handled (.access kind size address :: log) :=
  handled_cons (fun _ _ h => by cases h) h

/-- Whatever follows an exception is handled. -/
theorem handled_append (evs : List Event) {log : List Event} (h : Handled log)
    (hany : log.any Event.isException = true) : Handled (evs ++ log) := by
  intro newer kind address older heq
  rcases List.append_eq_append_iff.mp heq with ⟨as, -, hlog⟩ | ⟨bs, -, holder⟩
  · exact h as kind address older hlog
  · cases bs with
    | nil => exact h [] kind address older holder.symm
    | cons e bs =>
      rw [List.cons_append] at holder
      rw [(List.cons.inj holder).2, List.any_append, hany, Bool.or_true]

/-- A log with one exception splits at it in one way. -/
theorem split_exception {evs log newer older : List Event} {v w : Nat}
    (h : evs ++ .exception w :: log = newer ++ .exception v :: older)
    (hnewer : newer.any Event.isException = false) (holder : older.any Event.isException = false) :
    evs = newer ∧ w = v ∧ log = older := by
  induction newer generalizing evs with
  | nil =>
    cases evs with
    | nil =>
      obtain ⟨hv, hlog⟩ := List.cons.inj h
      exact ⟨rfl, Event.exception.inj hv, hlog⟩
    | cons e evs =>
      rw [List.cons_append, List.nil_append] at h
      rw [← (List.cons.inj h).2, List.any_append] at holder
      simp [Event.isException] at holder
  | cons e newer ih =>
    rw [List.any_cons, Bool.or_eq_false_iff] at hnewer
    cases evs with
    | nil =>
      rw [← (List.cons.inj h).1] at hnewer
      cases hnewer.1
    | cons e' evs =>
      obtain ⟨he, h⟩ := List.cons.inj h
      obtain ⟨rfl, hv, hlog⟩ := ih h hnewer.2
      exact ⟨by rw [he], hv, hlog⟩

theorem Processed.handled (h : Processed v s t) (hs : Handled s.log) : Handled t.log := by
  obtain ⟨evs, hlog, -⟩ := h.log
  rw [hlog]
  exact handled_append evs (handled_cons (fun _ _ h => by cases h) hs) rfl

theorem Trans.handled (h : Trans k g p q s t) (hs : Steady s) (hlog : Handled s.log) :
    Handled t.log := by
  cases h with
  | latch _ h =>
    rw [h]
    exact hlog
  | charge | rewind | setA | setD | ccr | jump | setUsp | stop => exact hlog
  | fetch | read | write => exact handled_access hlog
  | setSr =>
    rw [withSr_eq]
    exact hlog
  | @control _ _ _ _ c => cases c <;> exact hlog
  | raised _ h => exact (exception_steady hs h).handled hlog
  | trapped _ _ _ h => exact (exception_steady hs h).handled hlog
  | targetFault _ _ _ _ h =>
    have hproc := (targetFault_kept hs h).1
    rw [holdGuard_log]
    exact hproc.handled ((targetFaulting_log _ _ _ _).symm ▸ hlog)

theorem Run.handled (h : Run k g p q s t) (hs : Steady s) (hlog : Handled s.log) :
    Handled t.log := by
  have hboth := h.preserves (J := fun _ t => Steady t ∧ Handled t.log) (fun _ h => h)
    (fun ht h => ⟨steady_of_wiring (ht.wiring h.1) h.1, ht.handled h.1 h.2⟩) ⟨hs, hlog⟩
  exact hboth.2

/-! ## Up to the operands -/

/-- What no instruction writes before its operands are read. -/
structure Unwritten (s t : M68kCpu σ) : Prop where
  dRegs : t.dRegs = s.dRegs
  sr : t.sr = s.sr
  vbr : t.vbr = s.vbr
  memory : t.memory = s.memory

theorem Trans.unwritten (h : Trans k g p q t u) (hq : q ≤ .operand) (hs : Unwritten s t) :
    Unwritten s u := by
  cases h with
  | latch _ h =>
    rw [h]
    exact ⟨hs.1, hs.2, hs.3, hs.4⟩
  | charge | rewind | fetch | read | setA => exact ⟨hs.1, hs.2, hs.3, hs.4⟩
  | jump => cases p <;> exact absurd hq (by decide)
  | setD | ccr | write | setSr | setUsp | control | stop | raised | trapped | targetFault =>
    exact absurd hq (by decide)

theorem Run.unwritten (h : Run k g p q t u) (hq : q ≤ .operand) (hs : Unwritten s t) :
    Unwritten s u := by
  induction h with
  | refl => exact hs
  | skip _ _ ih => exact ih hq hs
  | step ht h ih => exact ih hq (ht.unwritten (Phase.le_trans h.le hq) hs)

/-! ## Clean aborts -/

theorem Reaching.quiet {log : List Event} (h : Reaching s log) :
    log.any Event.isException = false := by
  rw [List.any_eq_false]
  intro e he
  obtain ⟨kind, size, address, rfl, -⟩ := h e he
  exact Bool.false_ne_true

theorem faulting_eq (kind : Access) (size : M68kSize) (address : U32) (s : M68kCpu σ) :
    (faulting kind size address s).sr = s.sr ∧ (faulting kind size address s).vbr = s.vbr ∧
      (faulting kind size address s).memory = s.memory ∧
      (faulting kind size address s).memorySize = s.memorySize := by
  rw [faulting, holdGuard_eq]
  exact ⟨rfl, rfl, rfl, rfl⟩

/-- An exception followed by accesses that reach memory was delivered. -/
theorem delivered_of_reaching {w : Nat} (hd : t.exceptionDepth = 0)
    (h : exception w (ackHost k) t = .ok () u) {newer older : List Event}
    (hlog : u.log = newer ++ .exception v :: older) (hreach : Reaching s newer)
    (holder : older.any Event.isException = false) :
    v = w ∧ u = delivered w t ∧ exceptionFaults w t = false ∧
      newer = .access .read .long (vectorAddress w t) :: pushEvents t.supervisorSp
        (frameOf w t) := by
  obtain ⟨u', hu', -, hpost⟩ := exception_returns (k := k) w (Int.le_of_eq hd.symm)
  rw [h] at hu'
  cases hu'
  by_cases hfaults : exceptionFaults w t = true
  · -- A nested fault shows among the events after the exception.
    rw [if_pos hfaults] at hpost
    obtain ⟨evs, hevs, kind, address, hmem⟩ := hpost
    have hentered : (entered w t).log = .exception w :: t.log := by
      rw [entered_eq]
      rfl
    rw [hevs, hentered] at hlog
    obtain ⟨rfl, -, -⟩ := split_exception hlog hreach.quiet holder
    obtain ⟨_, _, _, heq, -⟩ := hreach _ hmem
    cases heq
  · rw [if_neg hfaults] at hpost
    rw [hpost, delivered_events] at hlog
    obtain ⟨heq, rfl, -⟩ := split_exception hlog hreach.quiet holder
    exact ⟨rfl, hpost, by simpa using hfaults, heq.symm⟩

/-- The frame of a bus or address error pushes the status register second. -/
theorem sr_mem_pushEvents {w : Nat} (hw : w = 2 ∨ w = 3) (sp : U32) (t : M68kCpu σ) :
    .access .write .word (sp - 6) ∈ pushEvents sp (frameOf w t) := by
  have hsix : sp - 6 = sp - 4 - 2 := by bv_omega
  rw [frameOf, if_pos hw, pushEvents, pushEvents, hsix]
  exact List.mem_append_left _ (List.mem_append_right _ (List.mem_singleton_self _))

/-- The exception of a read that faults before anything is written. -/
theorem clean_of_abort {kind : Access} {size : M68kSize} {address : U32} (hs : Steady t)
    (hun : Unwritten s t) (hsize : t.memorySize = s.memorySize)
    (h : exception (faultVector size address) (ackHost k) (faulting kind size address t) =
      .ok () u) {newer : List Event}
    (hf : FaultedRead newer v (holdGuard (faultVector size address) false u))
    (hreach : Reaching s newer) :
    AbortedCleanly v s (holdGuard (faultVector size address) false u) := by
  obtain ⟨hsr, hvbr, hmemory, hmemorySize⟩ := faulting_eq kind size address t
  have hcases := faultVector_cases size address
  have hkept := (accessFault_kept hs h).2
  obtain ⟨kind', address', older, -, holder, hlog⟩ := hf
  rw [holdGuard_log] at hlog
  have hdepth : (faulting kind size address t).exceptionDepth = 0 :=
    (holdGuard_kept _ true _).2.1.trans hs.depth
  obtain ⟨rfl, rfl, hfaults, rfl⟩ := delivered_of_reaching hdepth h hlog hreach holder
  generalize faultVector size address = v at *
  generalize faulting kind size address t = w at *
  -- The frame and the vector are among the accesses that reached memory.
  obtain ⟨_, _, _, hvecEq, hvec⟩ := hreach _ List.mem_cons_self
  cases hvecEq
  obtain ⟨_, _, _, hsrEq, hsrMapped⟩ :=
    hreach _ (List.mem_cons_of_mem _ (sr_mem_pushEvents hcases w.supervisorSp w))
  cases hsrEq
  have hmapped (z : M68kSize) (a : U32) : mapped w z a = mapped s z a := by
    have hwsize : w.memorySize = s.memorySize := hmemorySize.trans hsize
    simp only [mapped, isValidAddress, hwsize]
  have hvecAt : vectorAddress v w = vectorAddress v s := by
    rw [vectorAddress, vectorAddress, hvbr.trans hun.vbr]
  have hread : faultsAt .long (vectorAddress v w) w = false := by
    rw [exceptionFaults, Bool.or_eq_false_iff] at hfaults
    exact hfaults.2
  have hheld : (holdGuard v false (delivered v w)).supervisorSp = w.supervisorSp - 14 ∧
      (holdGuard v false (delivered v w)).memory = (delivered v w).memory ∧
      (holdGuard v false (delivered v w)).pc = (delivered v w).pc := by
    rw [holdGuard_eq]
    refine ⟨?_, rfl, rfl⟩
    have hsp := delivered_supervisorSp v w
    rw [frameBytes, if_pos hcases] at hsp
    exact hsp
  obtain ⟨hsp, hmem, hpc⟩ := hheld
  refine
    { fault := hcases
      dRegs := (congrArg Kept.dRegs hkept).trans hun.dRegs
      sr := ?_
      memory := ?_
      vector := hvecAt ▸ hvec
      pc := ?_ }
  · have height : w.supervisorSp - 14 + 8 = w.supervisorSp - 6 := by bv_omega
    rw [hmem, hsp, height, delivered_group0_sr hcases ((hmapped _ _).trans hsrMapped), hsr]
    exact hun.sr
  · intro a ha
    have hlength : frameLength (frameOf v w) = 14 := by
      rw [frameOf, if_pos hcases]
      rfl
    have hback : w.supervisorSp - 14 + 14 = w.supervisorSp := BitVec.sub_add_cancel _ _
    rw [hsp, hback, ← hlength] at ha
    rw [hmem, delivered_memory ha, hmemory, hun.memory]
  · rw [hpc, hmem, delivered_pc_of_mapped hread ((hmapped _ _).trans hvec), hvecAt]

theorem not_faultedRead {newer : List Event} (h : Handled t.log) : ¬FaultedRead newer v t := by
  rintro ⟨kind, address, older, -, holder, hlog⟩
  have hlog' : t.log = (newer ++ [.exception v]) ++ .fault kind address :: older := by
    rw [hlog, List.append_assoc]
    rfl
  rw [h _ _ _ _ hlog'] at holder
  cases holder

/-- A fault of the exit is not one of the instruction's accesses. -/
theorem Finishes.handled {check trace : Bool} {cycles : Int}
    (h : Finishes k check trace cycles s t) (hs : Steady s) (hlog : Handled s.log) :
    Handled t.log := by
  have hs' : Steady (disarmed s) := ⟨hs.1, hs.2, hs.3⟩
  cases h with
  | @oddTarget w _ h =>
    have hproc := (targetFault_kept hs' h).1
    have hhandled : Handled (holdGuard 3 false w).log := by
      rw [holdGuard_log]
      exact hproc.handled ((targetFaulting_log _ _ _ _).symm ▸ hlog)
    exact hhandled
  | traced _ _ h =>
    have hhandled := (exception_steady hs' h).handled hlog
    exact hhandled
  | plain => exact hlog

/-- A step in which a read of the instruction faults aborts it cleanly. -/
theorem Stepped.abortedCleanly {check : Bool} (h : Stepped none g check s t) (hs : Boundary s)
    (hg : g.interleaved = false) {newer : List Event} (hf : FaultedRead newer v t)
    (hreach : Reaching s newer) : AbortedCleanly v s t := by
  have hrunning := fetched_running (s := s) hs.depth
  have hstart : Handled (fetched s).log := handled_access handled_nil
  cases h with
  | idle => exact absurd hf (not_faultedRead handled_nil)
  | interrupt _ _ h =>
    have hhandled := (exception_steady (s := beginStep s)
      ⟨hs.depth, rfl, rfl⟩ h).handled handled_nil
    exact absurd hf (not_faultedRead hhandled)
  | fetchFault _ _ _ h =>
    have hclean := clean_of_abort (s := s) (armed_running hs.depth).steady
      ⟨rfl, rfl, rfl, rfl⟩ rfl h
      hf hreach
    exact ⟨hclean.1, hclean.2, hclean.3, hclean.4, hclean.5, hclean.6⟩
  | unwound _ _ _ _ h =>
    obtain ⟨r, u, hrun, hu, habort⟩ := h
    have hlog := hrun.handled hrunning.steady hstart
    cases habort with
    | @fault _ _ w kind size address _ hread _ h =>
      -- The fault of the log is the one that unwound the instruction.
      have hkind : kind ≠ .write := by
        obtain ⟨kind', address', older, hne, holder, heq⟩ := hf
        have hlog' : (holdGuard (faultVector size address) false w).log =
          newer ++ .exception v :: .fault kind' address' :: older := heq
        rw [holdGuard_log] at hlog'
        have hdepth : (faulting kind size address u).exceptionDepth = 0 :=
          (holdGuard_kept _ true _).2.1.trans hu.depth
        obtain ⟨-, rfl, -, rfl⟩ := delivered_of_reaching hdepth h hlog' hreach holder
        rw [delivered_events, faulting_log] at hlog'
        obtain ⟨-, -, hown⟩ := split_exception hlog' hreach.quiet holder
        rw [(Event.fault.inj (List.cons.inj hown).1).1]
        exact hne
      have hoperand : r ≤ .operand := by
        rcases hread hkind with hp | ⟨hi, -⟩
        · exact hp
        · rw [hg] at hi
          cases hi
      have hun := hrun.unwritten hoperand (s := s) ⟨rfl, rfl, rfl, rfl⟩
      have hsize : u.memorySize = s.memorySize :=
        congrArg Wiring.memorySize (hrun.wiring hrunning.steady)
      have hclean := clean_of_abort hu.steady hun hsize h hf hreach
      exact ⟨hclean.1, hclean.2, hclean.3, hclean.4, hclean.5, hclean.6⟩
    | illegalEa _ h =>
      have hhandled := (exception_steady hu.steady h).handled hlog
      exact absurd hf (not_faultedRead hhandled)
  | completed _ _ _ _ hrun _ hfin =>
    have hhandled := hfin.handled (hrun.steady hrunning.steady)
      (hrun.handled hrunning.steady hstart)
    exact absurd hf (not_faultedRead hhandled)

/-- A faulting read aborts every instruction but MOVEM cleanly. -/
theorem read_fault_aborts (hs : Boundary s) (hmovem : isMovem (opcodeAt s) = false) :
    ∃ t, step (Host.none σ) s = .ok () t ∧ ∀ newer v, FaultedRead newer v t →
      Reaching s newer → AbortedCleanly v s t := by
  obtain ⟨t, ht, hst⟩ := stepEx_cases (k := none) (g := .of s.supervisor (opcodeAt s)) true
    hs.depth hs.depth (Grade.of_covers _ _) rfl
  exact ⟨t, ht, fun _ _ hf hreach => hst.abortedCleanly hs hmovem hf hreach⟩

/-- A MOVE whose source is at an odd address, with its vector base. -/
def oddSource (vbr : U32) : M68kCpu Unit :=
  { init (fun _ => 0x30) 0x1000 () with
    sr := 0x2000
    aRegs := fun i => if i = 7 then 0x800 else 0x801
    vbr := vbr }

/-- The accesses of its address error: the frame, then the vector. -/
def oddSourceEvents : List Event :=
  [.access .read .long 0xC, .access .write .word 0x7F2, .access .write .long 0x7F4,
    .access .write .word 0x7F8, .access .write .word 0x7FA, .access .write .long 0x7FC]

theorem read_fault_aborts_odd :
    ∃ t, step (Host.none Unit) (oddSource 0) = .ok () t ∧ AbortedCleanly 3 (oddSource 0) t := by
  obtain ⟨t, ht, hclean⟩ := read_fault_aborts (s := oddSource 0) ⟨rfl, by decide⟩ (by decide)
  have hlog : (exec? (step (σ := Unit)) (Host.none Unit) (oddSource 0)).map M68kCpu.log =
      some (oddSourceEvents ++ [.exception 3, .fault .read 0x831, .access .read .word 0x831,
        .access .fetch .word 2, .access .fetch .word 0]) := by decide +kernel
  simp only [exec?, ht, Option.map_some, Option.some.injEq] at hlog
  have hreach : Reaching (oddSource 0) oddSourceEvents := by
    intro e he
    fin_cases he <;> exact ⟨_, _, _, rfl, rfl⟩
  exact ⟨t, ht, hclean _ 3 ⟨.read, 0x831, _, by decide, rfl, hlog⟩ hreach⟩

/-- A vector that is not mapped is fetched under a fault of its own. -/
theorem read_fault_nested :
    ¬∀ s : M68kCpu Unit, Boundary s → s.traced = false → isMovem (opcodeAt s) = false →
      ∃ t, step (Host.none Unit) s = .ok () t ∧ ∀ newer v, FaultedRead newer v t →
        (∀ address, .fault .write address ∉ newer) → AbortedCleanly v s t := by
  intro h
  obtain ⟨t, ht, hclean⟩ := h (oddSource 0x2000) ⟨rfl, by decide⟩ (by decide) (by decide)
  let nested : List Event :=
    [.access .read .long 0x2008, .access .write .word 0x7E4, .access .write .long 0x7E6,
      .access .write .word 0x7EA, .access .write .word 0x7EC, .access .write .long 0x7EE,
      .exception 2, .fault .read 0x200C, .access .read .long 0x200C]
  have hlog : (exec? (step (σ := Unit)) (Host.none Unit) (oddSource 0x2000)).map M68kCpu.log =
      some (nested ++ oddSourceEvents.tail ++ [.exception 3, .fault .read 0x831,
        .access .read .word 0x831, .access .fetch .word 2, .access .fetch .word 0]) := by
    decide +kernel
  simp only [exec?, ht, Option.map_some, Option.some.injEq] at hlog
  have hquiet (address : U32) : .fault .write address ∉ nested ++ oddSourceEvents.tail := by
    simp [nested, oddSourceEvents]
  have hvector := (hclean _ 3 ⟨.read, 0x831, _, by decide, rfl, hlog⟩ hquiet).vector
  exact absurd hvector (by decide)

end M68k
