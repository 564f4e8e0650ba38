import Rocket68.Theorems.Privilege
import Rocket68.Logic.Delivery

/-!
# The two stack pointers

Each mode has a stack pointer of its own; A7 shows the one of the current mode.
`m68k_set_sr` moves them and changes neither, so the user stack pointer of a
process survives every handler that does not write it, and the supervisor
stack pointer changes in user state by the frames of exceptions alone.
-/

namespace M68k

open Trap TrapM

variable {σ : Type} {k : Option (Nat → M68kCpu σ → M68kCpu σ × U32)} {g : Grade} {p q : Phase}
  {s t u : M68kCpu σ}

/-! ## The user stack pointer in supervisor state -/

/-- The next step executes MOVE An,USP or a MOVEC to USP. -/
def executesUspWrite (check : Bool) (s : M68kCpu σ) : Bool :=
  !s.stopped && !(check && interruptDue s) && accessible s .word s.pc &&
    (opcodeAt s &&& 0xFFF8 == 0x4E60 ||
      (opcodeAt s == 0x4E7B && s.model.is68010 && accessible s .word (s.pc + 2) &&
        controlReg? (wordAt s.memory (maskAddress24 (s.pc + 2))) == some .usp))

/-- During an instruction of supervisor code that does not write the user stack
pointer. -/
structure Banked (s : M68kCpu σ) (p : Phase) (t : M68kCpu σ) : Prop where
  userSp : t.userSp = s.userSp
  supervisor : p ≤ .commit → t.supervisor = true

theorem userSp_of_kept (h : kept t = kept s) : t.userSp = s.userSp := congrArg Kept.userSp h

theorem userSp_supervisor (h : s.supervisor = true) : s.userSp = s.usp := if_pos h

/-- In supervisor state the user stack pointer is `usp`, whatever A7 becomes. -/
theorem banked_of_fields (hc : Banked s p t) (hp : p ≤ .commit) (husp : u.usp = t.usp)
    (hsr : u.supervisor = t.supervisor) : Banked s q u := by
  have hsup := hc.supervisor hp
  refine ⟨?_, fun _ => hsr.trans hsup⟩
  rw [userSp_supervisor (hsr.trans hsup), husp, ← userSp_supervisor hsup]
  exact hc.userSp

theorem CcrOnly.supervisor {sr sr' : U16} (h : CcrOnly sr sr') :
    sr'.getLsbD 13 = sr.getLsbD 13 := by
  rcases h 13 (by decide) with heq | ⟨hlt, -⟩
  · exact heq
  · exact absurd hlt (by decide)

theorem Trans.banked (h : Trans k g p q t u) (hg : g.usp = false) (ht : Steady t)
    (hc : Banked s p t) : Banked s q u := by
  have hfinished {q : Phase} (hq : ¬q ≤ .commit) (hu : u.userSp = t.userSp) : Banked s q u :=
    ⟨hu.trans hc.userSp, fun h => absurd h hq⟩
  cases h with
  | latch hp h => rw [h]; exact banked_of_fields hc hp rfl rfl
  | rewind hp | setA hp | setD hp | write hp => exact banked_of_fields hc hp rfl rfl
  | charge => exact ⟨hc.userSp, hc.supervisor⟩
  | fetch hp => exact banked_of_fields hc (Phase.le_trans hp before) rfl rfl
  | read hp =>
    exact banked_of_fields hc (hp.elim (Phase.le_trans · before) (·.2)) rfl rfl
  | ccr hp h =>
    refine banked_of_fields hc hp rfl ?_
    rw [supervisor_eq, supervisor_eq]
    exact h.supervisor
  | jump hp =>
    exact ⟨hc.userSp, fun h => hc.supervisor (Phase.le_trans p.le_committed h)⟩
  | setSr _ _ v => exact hfinished (by decide) (withSr_banks v t).1
  | setUsp _ hu => rw [hg] at hu; cases hu
  | @control _ _ _ hp c hu =>
    refine banked_of_fields hc hp ?_ (by cases c <;> rfl)
    cases c with
    | usp => rw [hg] at hu; cases hu rfl
    | sfc | dfc | vbr => rfl
  | stop => exact hfinished (by decide) rfl
  | raised _ h => exact hfinished (by decide) (userSp_of_kept (exception_steady ht h).kept)
  | trapped _ _ _ h => exact hfinished (by decide) (userSp_of_kept (exception_steady ht h).kept)
  | targetFault _ _ _ _ h =>
    have hkept := (targetFault_kept ht h).2
    exact hfinished (by decide) (userSp_of_kept (s := charged 50 t) hkept)

theorem Run.banked (h : Run k g p q t u) (hg : g.usp = false) (ht : Steady t)
    (hc : Banked s p t) : Banked s q u := by
  have hboth := h.preserves (J := fun p t => Steady t ∧ Banked s p t)
    (fun hpq h => ⟨h.1, h.2.userSp, fun hq => h.2.supervisor (Phase.le_trans hpq hq)⟩)
    (fun ht h => ⟨steady_of_wiring (ht.wiring h.1) h.1, ht.banked hg h.1 h.2⟩) ⟨ht, hc⟩
  exact hboth.2

/-- The exit of a step changes no user stack pointer. -/
theorem Finishes.userSp {check trace : Bool} {cycles : Int}
    (h : Finishes k check trace cycles s t) (hs : Steady s) : t.userSp = s.userSp := by
  have hs' : Steady (disarmed s) := ⟨hs.1, hs.2, hs.3⟩
  cases h with
  | oddTarget _ h =>
    have husp := userSp_of_kept (targetFault_kept hs' h).2
    exact husp
  | traced _ _ h =>
    have husp := userSp_of_kept (exception_steady hs' h).kept
    exact husp
  | plain => rfl

/-- The user stack pointer as the next instruction leaves it, whatever it ends in. -/
def leftUserSp (check : Bool) (s : M68kCpu σ) : U32 :=
  if s.stopped || (check && interruptDue s) || !accessible s .word s.pc then s.userSp
  else
    match dispatch (opcodeAt s) (Host.none σ) (fetched s) with
    | .ok _ t => t.userSp
    | .trap t => t.userSp
    | .diverge => s.userSp

/-- A step without an instruction. -/
theorem leftUserSp_unexecuted {check : Bool}
    (h : (s.stopped || (check && interruptDue s) || !accessible s .word s.pc) = true) :
    leftUserSp check s = s.userSp := if_pos h

/-- Exceptions change no user stack pointer: it is what the instruction left. -/
theorem Stepped.leftUserSp {check : Bool} (h : Stepped none g check s t) (hs : Boundary s) :
    t.userSp = leftUserSp check s := by
  have hrunning := fetched_running (s := s) hs.depth
  cases h with
  | idle hstop => exact (leftUserSp_unexecuted (by rw [hstop]; rfl)).symm
  | @interrupt u hcheck hdue h =>
    have husp := userSp_of_kept (exception_steady (s := beginStep s) ⟨hs.depth, rfl, rfl⟩ h).kept
    have hkeep := (finishInterrupt_userSp hs.irqLevel false u).2.1
    rw [leftUserSp_unexecuted (by rw [hcheck, hdue]; simp)]
    exact hkeep.trans husp
  | fetchFault _ _ hacc h =>
    have habort : Abort none g .decode (armed s) (holdGuard (faultVector .word s.pc) false _) :=
      .fault before (fun _ => .inl before) hacc h
    have husp := userSp_of_kept (habort.kept (armed_running hs.depth).steady)
    rw [leftUserSp_unexecuted (by rw [hacc]; simp)]
    exact husp
  -- the instruction ran, and `leftUserSp` reads its outcome
  | unwound hstop hdue hacc hrun =>
    rw [M68k.leftUserSp, hstop, hdue, hacc, if_neg (by decide)]
    rw [ackHost_none] at hrun
    rw [hrun]
    rfl
  | completed hstop hdue hacc hdispatch hrun _ hfin =>
    rw [M68k.leftUserSp, hstop, hdue, hacc, if_neg (by decide)]
    rw [ackHost_none] at hdispatch
    rw [hdispatch]
    exact hfin.userSp (hrun.steady hrunning.steady)

/-- A step of supervisor code; only an instruction that is executed can write. -/
theorem Stepped.userSp {check : Bool} (h : Stepped none g check s t) (hs : Boundary s)
    (hg : s.stopped = false → (check && interruptDue s) = false → g.usp = false)
    (hsup : s.supervisor = true) : t.userSp = s.userSp := by
  have hleft := h.leftUserSp hs
  have hrunning := fetched_running (s := s) hs.depth
  have hstart : Banked s .decode (fetched s) := ⟨rfl, fun _ => hsup⟩
  cases h with
  | idle hstop => rwa [leftUserSp_unexecuted (by rw [hstop]; rfl)] at hleft
  | interrupt hcheck hdue =>
    rwa [leftUserSp_unexecuted (by rw [hcheck, hdue]; simp)] at hleft
  | fetchFault _ _ hacc => rwa [leftUserSp_unexecuted (by rw [hacc]; simp)] at hleft
  | unwound hstop hdue _ _ h =>
    obtain ⟨r, u, hrun, hu, habort⟩ := h
    exact (userSp_of_kept (habort.kept hu.steady)).trans
      (hrun.banked (hg hstop hdue) hrunning.steady hstart).userSp
  | completed hstop hdue _ _ hrun _ hfin =>
    exact (hfin.userSp (hrun.steady hrunning.steady)).trans
      (hrun.banked (hg hstop hdue) hrunning.steady hstart).userSp

/-- A step ends at a boundary. -/
theorem Stepped.boundary {check : Bool} (h : Stepped none g check s t) (hs : Boundary s) :
    Boundary t := by
  have hrunning := fetched_running (s := s) hs.depth
  have hwired {u v : M68kCpu σ} (h : wiring v = wiring u) (hu : Boundary u) : Boundary v :=
    ⟨(congrArg Wiring.exceptionDepth h).trans hu.depth,
      Nat.le_trans (Nat.le_of_eq (congrArg Wiring.irqLevel h)) hu.irqLevel⟩
  have hfetched : Boundary (fetched s) := ⟨hs.depth, hs.irqLevel⟩
  cases h with
  | idle => exact ⟨hs.depth, hs.irqLevel⟩
  | interrupt _ _ h =>
    have hkept := (exception_steady (s := beginStep s) ⟨hs.depth, rfl, rfl⟩ h).kept
    exact ⟨(congrArg Kept.exceptionDepth hkept).trans hs.depth, Nat.zero_le _⟩
  | fetchFault _ _ hacc h =>
    have habort : Abort none g .decode (armed s) (holdGuard (faultVector .word s.pc) false _) :=
      .fault before (fun _ => .inl before) hacc h
    have ht := hwired (habort.wiring (armed_running hs.depth).steady) ⟨hs.depth, hs.irqLevel⟩
    exact ⟨ht.depth, ht.irqLevel⟩
  | unwound _ _ _ _ h =>
    have ht := hwired (h.wiring hrunning.steady) hfetched
    exact ⟨ht.depth, ht.irqLevel⟩
  | completed _ _ _ _ hrun _ hfin =>
    have hsteady := hrun.steady hrunning.steady
    exact hwired ((hfin.wiring hsteady).trans (hrun.wiring hrunning.steady)) hfetched

theorem dispatch_movec : dispatch 0x4E7B = (only68010 (execMovec 0x4E7B) 12 : M σ Int) := rfl

/-- A MOVEC to another control register does not need the right to write the
user stack pointer. -/
theorem follows_movec [Outside g] (hd : s.exceptionDepth = 0) (hsup : s.supervisor = true)
    (hg : g.supervisor = true) (hill : g.illegal = true) (hop : opcodeAt s = 0x4E7B)
    (hreg : s.model.is68010 = true → accessible s .word (s.pc + 2) = true →
      controlReg? (wordAt s.memory (maskAddress24 (s.pc + 2))) ≠ some .usp) : Follows k g s := by
  have hrunning := fetched_running (s := s) hd
  have hsame : (fetched s).supervisor = g.supervisor := hsup.trans hg.symm
  rw [Follows, hop, dispatch_movec, only68010, M68k.getModel, wp_bind, wp_gets]
  refine wp_ite (fun _ => ?_) fun hmodel => ?_
  · have hmicro : Micro g .decode .finished (illegalOpcode : M σ Int) :=
      .step (.illegal hill) fun _ => .pure _
    exact hmicro.run (fun _ => hrunning) fun _ => hsame
  · obtain ⟨f, hf, hrest⟩ := Micro.execMovec_shape (σ := σ) (g := g) 0x4E7B
    rw [costed, wp_bind, hf, M68k.privileged, M68k.getSr, wp_bind, wp_gets]
    refine wp_ite (fun hS => ?_) fun _ => wp_bind.mpr ?_
    -- the privilege check passes in supervisor state
    · have huser : (fetched s).supervisor = false := by simpa [M68kCpu.supervisor] using hS
      rw [hsame, hg] at huser
      cases huser
    -- the extension word names the control register
    · cases hacc : accessible s .word (s.pc + 2) with
      | false =>
        obtain ⟨u, hu, hmiss⟩ := fetch_miss (k := k) hrunning hacc
        exact (wp_of_trap hmiss).mpr ⟨.decode, fetched s, .refl, hrunning,
          .fault before (fun _ => .inl before) hacc hu⟩
      | true =>
        have hstep : Trans k g .decode .decode (fetched s) _ := .fetch before hacc
        have hmodel' : (fetched s).model.is68010 = true := by simpa using hmodel
        have hword := hreg hmodel' hacc
        refine (wp_of_ok (fetch_hit (k := k) hrunning hacc)).mpr ?_
        refine wp_mono ((hrest _ hill hg fun _ h => absurd h hword).run
          (fun h => hstep.running before hrunning) fun _ => hsame) ?_ ?_
        · rintro _ t ⟨hrun, hmark⟩
          exact ⟨.step hstep hrun, hmark.busWord, hmark.programSpace⟩
        · exact fun t h => hstep.run.unwinds h

/-- In supervisor state a step keeps the user stack pointer, unless it executes
one of the two instructions that write it. -/
theorem supervisor_step (check : Bool) (hs : Boundary s) (hsup : s.supervisor = true)
    (hu : executesUspWrite check s = false) :
    ∃ t, stepEx check (Host.none σ) s = .ok () t ∧ Boundary t ∧ t.userSp = s.userSp := by
  by_cases hrun : s.stopped = false ∧ (check && interruptDue s) = false
  -- an instruction is executed, under a grade that does not allow a write of USP
  · obtain ⟨hstop, hdue⟩ := hrun
    let g : Grade := { Grade.of s.supervisor (opcodeAt s) with usp := false }
    have hf (hacc : accessible s .word s.pc = true) : Follows none g s := by
      simp only [executesUspWrite, hstop, hdue, hacc, Bool.not_false, Bool.true_and,
        Bool.or_eq_false_iff, beq_eq_false_iff_ne] at hu
      obtain ⟨husp, hmovec⟩ := hu
      by_cases hop : opcodeAt s = 0x4E7B
      · have : Outside g := ⟨rfl⟩
        refine follows_movec hs.depth hsup hsup ?_ hop fun hmodel hacc' hreg => ?_
        · show (Grade.of s.supervisor (opcodeAt s)).illegal = true
          rw [hop]
          rfl
        · rw [hop, hmodel, hacc', hreg] at hmovec
          exact absurd hmovec (by decide)
      · have hnot : mayWriteUsp (opcodeAt s) = false := by
          simp only [mayWriteUsp, Bool.or_eq_false_iff, beq_eq_false_iff_ne]
          exact ⟨husp, hop⟩
        have heq : g = Grade.of s.supervisor (opcodeAt s) := by
          show { Grade.of s.supervisor (opcodeAt s) with usp := false } = _
          rw [← hnot]
          rfl
        rw [heq]
        exact follows_of_covers hs.depth (Grade.of_covers _ _) rfl
    obtain ⟨t, ht, hst⟩ := stepEx_follows (k := none) check hs.depth hs.depth hf
    exact ⟨t, ht, hst.boundary hs, hst.userSp hs (fun _ _ => rfl) hsup⟩
  -- none is
  · obtain ⟨t, ht, hst⟩ := stepEx_cases (k := none) (g := .of s.supervisor (opcodeAt s)) check
      hs.depth hs.depth (Grade.of_covers _ _) rfl
    exact ⟨t, ht, hst.boundary hs, hst.userSp hs (fun h h' => absurd ⟨h, h'⟩ hrun) hsup⟩

/-! ## The supervisor stack pointer in user state -/

def Event.isException : Event → Bool
  | .exception _ => true
  | _ => false

/-- An access faulted during exception processing: a fault was raised after an
exception was entered. -/
def faultsInHandling : List Event → Bool
  | [] => false
  | .fault _ _ :: older => older.any Event.isException || faultsInHandling older
  | _ :: older => faultsInHandling older

/-- The total size of the frames of the exceptions in a log. -/
def framesSize (model : M68kModel) : List Event → U32
  | [] => 0
  | .exception v :: older => frameBytes model v + framesSize model older
  | _ :: older => framesSize model older

/-- During an instruction of user code begun in `s`. -/
structure Departing (s : M68kCpu σ) (p : Phase) (t : M68kCpu σ) : Prop where
  model : t.model = s.model
  lowered : faultsInHandling t.log = false →
    t.supervisorSp = s.supervisorSp - framesSize s.model t.log
  taken : t.supervisor = t.log.any Event.isException
  user : p ≤ .switched → t.supervisor = false

theorem faultsInHandling_accesses {evs : List Event} (log : List Event)
    (h : ∀ e ∈ evs, ∃ kind size address, e = .access kind size address) :
    faultsInHandling (evs ++ log) = faultsInHandling log := by
  induction evs with
  | nil => rfl
  | cons e evs ih =>
    obtain ⟨kind, size, address, rfl⟩ := h e List.mem_cons_self
    exact ih fun e he => h e (List.mem_cons_of_mem _ he)

theorem framesSize_accesses {evs : List Event} (model : M68kModel) (log : List Event)
    (h : ∀ e ∈ evs, ∃ kind size address, e = .access kind size address) :
    framesSize model (evs ++ log) = framesSize model log := by
  induction evs with
  | nil => rfl
  | cons e evs ih =>
    obtain ⟨kind, size, address, rfl⟩ := h e List.mem_cons_self
    exact ih fun e he => h e (List.mem_cons_of_mem _ he)

/-- A fault newer than an exception. -/
theorem faultsInHandling_of_mem {evs log : List Event} {kind : Access} {address : U32}
    (h : .fault kind address ∈ evs) (hlog : log.any Event.isException = true) :
    faultsInHandling (evs ++ log) = true := by
  have hany (xs : List Event) : (xs ++ log).any Event.isException = true := by
    rw [List.any_append, hlog, Bool.or_true]
  induction evs with
  | nil => cases h
  | cons e evs ih =>
    rcases List.mem_cons.mp h with rfl | hmem
    · show ((evs ++ log).any Event.isException || faultsInHandling (evs ++ log)) = true
      rw [hany, Bool.true_or]
    · cases e with
      | fault _ _ =>
        show ((evs ++ log).any Event.isException || faultsInHandling (evs ++ log)) = true
        rw [hany, Bool.true_or]
      | access _ _ _ | exception _ => exact ih hmem

/-- Nothing faulted in handling up to an earlier event either. -/
theorem faultsInHandling_older {evs log : List Event}
    (h : faultsInHandling (evs ++ log) = false) : faultsInHandling log = false := by
  induction evs with
  | nil => exact h
  | cons e evs ih =>
    cases e with
    | fault _ _ => exact ih (Bool.or_eq_false_iff.mp h).2
    | access _ _ _ | exception _ => exact ih h

/-- Without exceptions there is no handling to fault in, and no frame. -/
theorem quiet_log (model : M68kModel) {log : List Event} (h : log.any Event.isException = false) :
    faultsInHandling log = false ∧ framesSize model log = 0 := by
  induction log with
  | nil => exact ⟨rfl, rfl⟩
  | cons e log ih =>
    rw [List.any_cons, Bool.or_eq_false_iff] at h
    obtain ⟨hfaults, hsize⟩ := ih h.2
    cases e with
    | access _ _ _ => exact ⟨hfaults, hsize⟩
    | fault _ _ =>
      refine ⟨?_, hsize⟩
      show (log.any Event.isException || faultsInHandling log) = false
      rw [h.2, hfaults]
      rfl
    | exception v => cases h.1

/-- The supervisor stack after an exception that nothing faulted in. -/
theorem delivered_supervisorSp (v : Nat) (s : M68kCpu σ) :
    (delivered v s).supervisorSp = s.supervisorSp - frameBytes s.model v := by
  rw [M68kCpu.supervisorSp, if_pos (delivered_supervisor v s), delivered_a7, frameSize_frameOf]

/-- An exception in which nothing faults is delivered. -/
theorem delivered_of_calm {v : Nat} (hd : s.exceptionDepth = 0)
    (h : exception v (ackHost k) s = .ok () t) (hquiet : faultsInHandling t.log = false) :
    t = delivered v s := by
  obtain ⟨t', ht', -, hpost⟩ := exception_returns (k := k) v (Int.le_of_eq hd.symm)
  rw [h] at ht'
  cases ht'
  by_cases hf : exceptionFaults v s = true
  · rw [if_pos hf] at hpost
    obtain ⟨evs, hlog, kind, address, hmem⟩ := hpost
    have hentered : (entered v s).log = .exception v :: s.log := by
      rw [entered_eq]
      rfl
    rw [hlog, faultsInHandling_of_mem hmem (by rw [hentered]; rfl)] at hquiet
    cases hquiet
  · rw [if_neg hf] at hpost
    exact hpost

/-- An exception lowers the supervisor stack by its frame, unless it faults. -/
theorem exception_lowers {v : Nat} (hd : s.exceptionDepth = 0)
    (h : exception v (ackHost k) s = .ok () t) (hquiet : faultsInHandling t.log = false) :
    faultsInHandling s.log = false ∧ t.supervisorSp = s.supervisorSp - frameBytes s.model v ∧
      ∀ model, framesSize model t.log = frameBytes model v + framesSize model s.log := by
  have hdelivered := delivered_of_calm hd h hquiet
  subst hdelivered
  obtain ⟨evs, hlog, hkinds⟩ := delivered_log v s
  have hevs : ∀ e ∈ evs, ∃ kind size address, e = .access kind size address := by
    intro e he
    obtain ⟨kind, size, address, -, heq⟩ := hkinds e he
    exact ⟨kind, size, address, heq⟩
  rw [hlog, faultsInHandling_accesses _ hevs] at hquiet
  refine ⟨hquiet, delivered_supervisorSp v s, fun model => ?_⟩
  rw [hlog, framesSize_accesses model _ hevs]
  rfl

/-- An exception during an instruction of user code, or at its exit. -/
theorem Departing.exception (h : Departing s p t) {v : Nat} (hd : t.exceptionDepth = 0)
    (he : M68k.exception v (Host.none σ) t = .ok () u) : Departing s .finished u := by
  obtain ⟨u', hu', hp⟩ := exception_processed (k := none) v (Int.le_of_eq hd.symm)
  rw [ackHost_none, he] at hu'
  cases hu'
  have hmodel : u.model = t.model := congrArg Kept.model hp.kept
  obtain ⟨evs, hlog, -⟩ := hp.log
  refine ⟨hmodel.trans h.model, fun hquiet => ?_, ?_, fun hq => absurd hq (by decide)⟩
  · obtain ⟨hbefore, hsp, hsize⟩ := exception_lowers (k := none) hd he hquiet
    rw [hsp, h.lowered hbefore, hsize, h.model, BitVec.sub_sub, BitVec.add_comm]
  · rw [supervisor_eq, hp.sr, handlerSr_supervisor, hlog]
    simp [Event.isException]

/-- States that show the same of the stacks. -/
theorem Departing.congr (h : Departing s p t) (hlog : u.log = t.log) (hmodel : u.model = t.model)
    (hsup : u.supervisor = t.supervisor) (hssp : u.supervisorSp = t.supervisorSp) :
    Departing s p u := by
  refine ⟨hmodel.trans h.model, ?_, ?_, fun hp => hsup.trans (h.user hp)⟩
  · rw [hlog, hssp]
    exact h.lowered
  · rw [hsup, hlog]
    exact h.taken

theorem Departing.mono (h : Departing s p t) (hpq : p ≤ q) : Departing s q t :=
  ⟨h.model, h.lowered, h.taken, fun hq => h.user (Phase.le_trans hpq hq)⟩

/-- In user state the supervisor stack pointer is `ssp`, whatever A7 becomes. -/
theorem Departing.advance (h : Departing s p t) (hp : p ≤ .switched) (hmodel : u.model = t.model)
    (hsup : u.supervisor = t.supervisor) (hssp : u.ssp = t.ssp) (evs : List Event)
    (hlog : u.log = evs ++ t.log) (hevs : ∀ e ∈ evs, Event.isException e = false) :
    Departing s q u := by
  have htu := h.user hp
  have hu : u.supervisor = false := hsup.trans htu
  have hquiet : t.log.any Event.isException = false := h.taken.symm.trans htu
  have hany : u.log.any Event.isException = false := by
    rw [hlog, List.any_append, hquiet, Bool.or_false, List.any_eq_false]
    exact fun e he => by simp [hevs e he]
  have hsp : t.supervisorSp = t.ssp := by simp [M68kCpu.supervisorSp, htu]
  have hlowered := h.lowered (quiet_log s.model hquiet).1
  refine ⟨hmodel.trans h.model, fun _ => ?_, hu.trans hany.symm, fun _ => hu⟩
  rw [(quiet_log _ hquiet).2, hsp] at hlowered
  rw [(quiet_log _ hany).2]
  simpa [M68kCpu.supervisorSp, hu, hssp] using hlowered

theorem departing_start (hu : s.supervisor = false) (hmodel : t.model = s.model)
    (hsup : t.supervisor = s.supervisor) (hssp : t.supervisorSp = s.supervisorSp)
    (hlog : t.log.any Event.isException = false) : Departing s p t := by
  have hu' := hsup.trans hu
  refine ⟨hmodel, fun _ => ?_, hu'.trans hlog.symm, fun _ => hu'⟩
  rw [(quiet_log _ hlog).2, hssp]
  simp

theorem Departing.held (h : Departing s p t) (v : Nat) (b : Bool) :
    Departing s p (holdGuard v b t) := by
  rw [holdGuard_eq]
  exact h.congr rfl rfl rfl rfl

theorem Departing.targetFault (h : Departing s p t) (hd : t.exceptionDepth = 0)
    {v : Nat} {target faultPc : U32}
    (he : M68k.exception v (Host.none σ) (targetFaulting v target faultPc t) = .ok () u) :
    Departing s .finished (holdGuard v false u) := by
  have hcapture : Departing s p (captureTarget target faultPc t) := h.congr rfl rfl rfl rfl
  have hdepth : (targetFaulting v target faultPc t).exceptionDepth = 0 :=
    (holdGuard_kept v true _).2.1.trans hd
  exact ((hcapture.held v true).exception hdepth he).held v false

theorem Trans.departing (h : Trans none g p q t u) (hg : g.supervisor = false) (ht : Steady t)
    (hd : Departing s p t) : Departing s q u := by
  have hnone : ∀ e ∈ ([] : List Event), Event.isException e = false :=
    fun _ h => absurd h List.not_mem_nil
  have haccess (kind : Access) (size : M68kSize) (address : U32) :
      ∀ e ∈ [Event.access kind size address], Event.isException e = false :=
    fun e he => by rw [List.mem_singleton.mp he]; rfl
  have hswitched {p : Phase} (h : p ≤ .commit) : p ≤ .switched := Phase.le_trans h before
  cases h with
  | charge => exact hd.congr rfl rfl rfl rfl
  | latch hp h =>
    rw [h]
    exact hd.advance (hswitched hp) rfl rfl rfl [] rfl hnone
  | rewind hp | setA hp | setD hp => exact hd.advance (hswitched hp) rfl rfl rfl [] rfl hnone
  | jump hp => exact hd.advance hp rfl rfl rfl [] rfl hnone
  | ccr hp h =>
    refine hd.advance (hswitched hp) rfl ?_ rfl [] rfl hnone
    rw [supervisor_eq, supervisor_eq]
    exact h.supervisor
  | fetch hp =>
    exact hd.advance (Phase.le_trans hp before) rfl rfl rfl [_] rfl (haccess _ _ _)
  | read hp =>
    have hp' := hp.elim (Phase.le_trans · before) (fun h => hswitched h.2)
    exact hd.advance hp' rfl rfl rfl [_] rfl (haccess _ _ _)
  | write hp => exact hd.advance (hswitched hp) rfl rfl rfl [_] rfl (haccess _ _ _)
  | setSr hs | setUsp hs | control hs | stop hs => rw [hg] at hs; cases hs
  | raised _ h => exact hd.exception ht.depth h
  | trapped _ _ _ h => exact hd.exception ht.depth h
  | targetFault _ _ _ _ h => exact hd.targetFault ht.depth h

theorem Run.departing (h : Run none g p q t u) (hg : g.supervisor = false) (ht : Steady t)
    (hd : Departing s p t) : Departing s q u := by
  have hboth := h.preserves (J := fun p t => Steady t ∧ Departing s p t)
    (fun hpq h => ⟨h.1, h.2.mono hpq⟩)
    (fun ht h => ⟨steady_of_wiring (ht.wiring h.1) h.1, ht.departing hg h.1 h.2⟩) ⟨ht, hd⟩
  exact hboth.2

/-- A fault unwinds user code into a handler. -/
theorem Departing.fault (h : Departing s p t) (hp : p ≤ .switched) (ht : Steady t)
    {kind : Access} {size : M68kSize} {address : U32}
    (he : M68k.exception (faultVector size address) (Host.none σ)
      (faulting kind size address t) = .ok () u) :
    Departing s .finished (holdGuard (faultVector size address) false u) := by
  have hcapture : Departing s p
      (captureFault kind address (t.noted (.access kind size address))) := by
    refine h.advance hp rfl rfl rfl [.fault kind address, .access kind size address] rfl ?_
    intro e he
    rcases List.mem_cons.mp he with rfl | he
    · rfl
    · rw [List.mem_singleton.mp he]
      rfl
  have hdepth : (faulting kind size address t).exceptionDepth = 0 :=
    (holdGuard_kept _ true _).2.1.trans ht.depth
  exact ((hcapture.held _ true).exception hdepth he).held _ false

theorem Abort.departing (h : Abort none g p t u) (ht : Steady t) (hd : Departing s p t) :
    Departing s .finished u := by
  cases h with
  | fault hp _ _ h => exact hd.fault (Phase.le_trans hp before) ht h
  | illegalEa _ h => exact hd.exception ht.depth h

theorem Finishes.departing {check trace : Bool} {cycles : Int}
    (h : Finishes none check trace cycles t u) (ht : Steady t) (hd : Departing s .finished t) :
    Departing s .finished u := by
  have hdisarmed : Departing s .finished (disarmed t) := hd.congr rfl rfl rfl rfl
  cases h with
  | oddTarget _ h => exact (hdisarmed.targetFault ht.depth h).congr rfl rfl rfl rfl
  | traced _ _ h => exact (hdisarmed.exception ht.depth h).congr rfl rfl rfl rfl
  | plain => exact hdisarmed.congr rfl rfl rfl rfl

/-- A step of user code. -/
theorem Stepped.departing {check : Bool} (h : Stepped none g check s t) (hs : Boundary s)
    (hg : g.supervisor = false) (hu : s.supervisor = false) : Departing s .finished t := by
  have hrunning := fetched_running (s := s) hs.depth
  have hbegin (p : Phase) : Departing s p (beginStep s) :=
    departing_start hu rfl rfl rfl rfl
  have harmed (p : Phase) : Departing s p (armed s) := departing_start hu rfl rfl rfl rfl
  have hfetched (p : Phase) : Departing s p (fetched s) := departing_start hu rfl rfl rfl rfl
  cases h with
  | idle => exact (hbegin _).congr rfl rfl rfl rfl
  | @interrupt u _ _ h =>
    have hdeparting := (hbegin .finished).exception hs.depth h
    obtain ⟨hsup, -, hssp⟩ := finishInterrupt_userSp hs.irqLevel false u
    exact (hdeparting.congr (u := finishInterrupt s.irqLevel false u) rfl rfl hsup hssp).congr
      rfl rfl rfl rfl
  | fetchFault _ _ _ h =>
    have hdeparting := (harmed .decode).fault before (armed_running hs.depth).steady h
    exact hdeparting.congr rfl rfl rfl rfl
  | unwound _ _ _ _ h =>
    obtain ⟨r, u, hrun, hrunning', habort⟩ := h
    have hdeparting := habort.departing hrunning'.steady
      (hrun.departing hg hrunning.steady (hfetched .decode))
    exact hdeparting.congr rfl rfl rfl rfl
  | completed _ _ _ _ hrun _ hfin =>
    exact hfin.departing (hrun.steady hrunning.steady)
      (hrun.departing hg hrunning.steady (hfetched .decode))

/-- A step of user code lowers the supervisor stack by the frames it pushed. -/
theorem user_step_departing (check : Bool) (hs : Boundary s) (hu : s.supervisor = false) :
    ∃ t, stepEx check (Host.none σ) s = .ok () t ∧ Boundary t ∧ Departing s .finished t := by
  obtain ⟨t, ht, hst⟩ := stepEx_cases (k := none) (g := .of false (opcodeAt s)) check hs.depth
    hs.depth (Grade.of_covers _ _) hu.symm
  exact ⟨t, ht, hst.boundary hs, hst.departing hs rfl hu⟩

/-! ## The A7 of user code -/

/-- The next step executes an instruction that may write A7. -/
def executesStackMove (check : Bool) (s : M68kCpu σ) : Bool :=
  !s.stopped && !(check && interruptDue s) && accessible s .word s.pc && mayMoveStack (opcodeAt s)

/-- The vectors of instructions that are not executed. -/
def RejectVector (v : Nat) : Prop := v = 4 ∨ v = 8 ∨ v = 10 ∨ v = 11

theorem Processed.taken {v w : Nat} (h : Processed w s t) (hv : RejectVector v)
    (hmem : .exception v ∈ t.log) : v = w ∨ .exception v ∈ s.log := by
  obtain ⟨evs, hlog, honly⟩ := h.log
  rw [hlog] at hmem
  rcases List.mem_append.mp hmem with hevs | hold
  · rcases honly v hevs with rfl | rfl <;> simp [RejectVector] at hv
  · rcases List.mem_cons.mp hold with heq | hold
    · exact .inl (Event.exception.inj heq)
    · exact .inr hold

theorem RejectVector.normal {v : Nat} (hv : RejectVector v) : v ≠ 2 ∧ v ≠ 3 := by
  unfold RejectVector at hv
  omega

/-- An instruction was rejected. -/
def Rejected (log : List Event) : Prop := ∃ v, RejectVector v ∧ .exception v ∈ log

theorem not_rejected_of_quiet {log : List Event} (h : log.any Event.isException = false) :
    ¬Rejected log := by
  rintro ⟨v, -, hmem⟩
  rw [List.any_eq_false] at h
  exact h _ hmem rfl

/-- During an instruction of user code begun in `s`: A7 is not yet written, or the
instruction may write it and is past being rejected. -/
structure Staying (g : Grade) (s : M68kCpu σ) (p : Phase) (t : M68kCpu σ) : Prop where
  userSp : g.stack = false ∨ p = .decode ∨ Rejected t.log → t.userSp = s.userSp
  executed : p ≤ .switched → ¬Rejected t.log

/-- What does not write A7 keeps it. -/
theorem Staying.advance (h : Staying g s p t) (hp : p ≤ .switched) (hpq : p ≤ q)
    (husp : u.userSp = t.userSp) (hlog : Rejected u.log → Rejected t.log) : Staying g s q u := by
  refine ⟨fun hcond => husp.trans (h.userSp ?_), fun _ hrejected => h.executed hp (hlog hrejected)⟩
  rcases hcond with hstack | hq | hrejected
  · exact .inl hstack
  · exact .inr (.inl (Phase.eq_decode (hq ▸ hpq)))
  · exact .inr (.inr (hlog hrejected))

/-- An exception keeps A7; one that rejects the instruction comes before it is written. -/
theorem Staying.processed (h : Staying g s p t) (hp : p ≤ .switched) {v : Nat} {w : M68kCpu σ}
    (hproc : Processed v w u) (hw : ∀ v, .exception v ∈ w.log → .exception v ∈ t.log)
    {x : M68kCpu σ} (hx : x.userSp = t.userSp)
    (hlog : x.log = u.log) (hreject : RejectVector v → p = .decode) : Staying g s .finished x := by
  refine ⟨fun hcond => hx.trans (h.userSp ?_), fun hq => absurd hq (by decide)⟩
  rcases hcond with hstack | hq | ⟨v', hv', hmem⟩
  · exact .inl hstack
  · cases hq
  · rw [hlog] at hmem
    rcases hproc.taken hv' hmem with rfl | hold
    · exact .inr (.inl (hreject hv'))
    · exact absurd ⟨v', hv', hw v' hold⟩ (h.executed hp)

theorem Staying.mono (h : Staying g s p t) (hpq : p ≤ q) : Staying g s q t where
  userSp hcond := h.userSp <| by
    rcases hcond with hstack | hq | hrejected
    · exact .inl hstack
    · exact .inr (.inl (Phase.eq_decode (hq ▸ hpq)))
    · exact .inr (.inr hrejected)
  executed hq := h.executed (Phase.le_trans hpq hq)

theorem rejected_access {kind : Access} {size : M68kSize} {address : U32} {log : List Event}
    (h : Rejected (.access kind size address :: log)) : Rejected log := by
  obtain ⟨v, hv, hmem⟩ := h
  exact ⟨v, hv, by simpa using hmem⟩

theorem Trans.staying (h : Trans none g p q t u) (hg : g.supervisor = false) (ht : Steady t)
    (hd : Departing s p t) (hc : Staying g s p t) : Staying g s q u := by
  have hle := h.le
  have hswitched {p : Phase} (h : p ≤ .commit) : p ≤ .switched := Phase.le_trans h before
  have hfault {v : Nat} (hv : v = 2 ∨ v = 3) (hreject : RejectVector v) : p = .decode := by
    have hnormal := hreject.normal
    omega
  cases h with
  | charge => exact ⟨fun hcond => hc.userSp hcond, hc.executed⟩
  | latch hp h =>
    rw [h]
    exact hc.advance (hswitched hp) hle rfl id
  | rewind hp | setD hp => exact hc.advance (hswitched hp) hle rfl id
  | @setA p t hp r hr v =>
    have huser := hd.user (hswitched hp)
    refine ⟨fun hcond => ?_, fun _ => hc.executed (hswitched hp)⟩
    rcases hcond with hstack | hq | hrejected
    -- the grade does not allow a write of A7
    · have h7 : r ≠ 7 := fun h7 => by
        rcases hr h7 with hsup | hyes
        · rw [hg] at hsup
          cases hsup
        · rw [hstack] at hyes
          cases hyes
      have hkept : Function.update t.aRegs r v 7 = t.aRegs 7 := Function.update_of_ne h7.symm _ _
      have hsp := hc.userSp (.inl hstack)
      simp only [M68kCpu.userSp, huser] at hsp
      have hsame : M68kCpu.supervisor { t with aRegs := Function.update t.aRegs r v } = false :=
        huser
      rw [M68kCpu.userSp, if_neg (by rw [hsame]; decide)]
      exact hkept.trans hsp
    · cases p <;> cases hq
    -- an operation of the instruction ran, so it was not rejected
    · exact absurd hrejected (hc.executed (hswitched hp))
  | jump hp => exact hc.advance hp hle rfl id
  | @ccr _ _ hp sr h =>
    refine hc.advance (hswitched hp) hle ?_ id
    have hsame : M68kCpu.supervisor { t with sr := sr } = t.supervisor := by
      rw [supervisor_eq, supervisor_eq]
      exact h.supervisor
    rw [M68kCpu.userSp, M68kCpu.userSp, hsame]
  | fetch hp => exact hc.advance (Phase.le_trans hp before) hle rfl rejected_access
  | read hp =>
    have hp' := hp.elim (Phase.le_trans · before) (fun h => hswitched h.2)
    exact hc.advance hp' hle rfl rejected_access
  | write hp => exact hc.advance (hswitched hp) hle rfl rejected_access
  | setSr hs | setUsp hs | control hs | stop hs => rw [hg] at hs; cases hs
  | raised _ h =>
    have hproc := exception_steady ht h
    exact hc.processed before hproc (fun _ => id) (userSp_of_kept hproc.kept) rfl fun _ => rfl
  | trapped _ hv hp h =>
    have hproc := exception_steady ht h
    refine hc.processed (hswitched hp) hproc (fun _ => id) (userSp_of_kept hproc.kept) rfl
      fun hreject => ?_
    unfold RejectVector at hreject
    unfold TrapVector at hv
    omega
  | targetFault hv hp _ _ h =>
    obtain ⟨hproc, hkept⟩ := targetFault_kept ht h
    exact hc.processed (hswitched hp) hproc (fun _ hold => by rwa [targetFaulting_log] at hold)
      (userSp_of_kept (s := charged 50 t) hkept) (holdGuard_log _ _ _) (hfault hv)

theorem Run.staying (h : Run none g p q t u) (hg : g.supervisor = false) (ht : Steady t)
    (hd : Departing s p t) (hc : Staying g s p t) : Staying g s q u := by
  have hall := h.preserves (J := fun p t => Steady t ∧ Departing s p t ∧ Staying g s p t)
    (fun hpq h => ⟨h.1, h.2.1.mono hpq, h.2.2.mono hpq⟩)
    (fun ht h => ⟨steady_of_wiring (ht.wiring h.1) h.1, ht.departing hg h.1 h.2.1,
      ht.staying hg h.1 h.2.1 h.2.2⟩) ⟨ht, hd, hc⟩
  exact hall.2.2

theorem Abort.staying (h : Abort none g p t u) (ht : Steady t) (hc : Staying g s p t) :
    Staying g s .finished u := by
  cases h with
  | @fault _ _ _ _ size address hp _ _ h =>
    obtain ⟨hproc, hkept⟩ := accessFault_kept ht h
    refine hc.processed (Phase.le_trans hp before) hproc (fun _ hold => ?_) (userSp_of_kept hkept)
      (holdGuard_log _ _ _) fun hreject => ?_
    · simpa using hold
    · have hnormal := hreject.normal
      unfold faultVector at hnormal
      split at hnormal <;> omega
  | illegalEa _ h =>
    have hproc := exception_steady ht h
    exact hc.processed before hproc (fun _ => id) (userSp_of_kept hproc.kept) rfl fun _ => rfl

theorem Finishes.rejected {check trace : Bool} {cycles : Int}
    (h : Finishes none check trace cycles t u) (ht : Steady t) (hu : Rejected u.log) :
    Rejected t.log := by
  have ht' : Steady (disarmed t) := ⟨ht.1, ht.2, ht.3⟩
  obtain ⟨v, hv, hmem⟩ := hu
  refine ⟨v, hv, ?_⟩
  cases h with
  | @oddTarget w _ h =>
    have hmem' : .exception v ∈ (holdGuard 3 false w).log := hmem
    rw [holdGuard_log] at hmem'
    rcases (targetFault_kept ht' h).1.taken hv hmem' with rfl | hold
    · exact absurd rfl hv.normal.2
    · rwa [targetFaulting_log] at hold
  | traced _ _ h =>
    rcases (exception_steady ht' h).taken hv hmem with rfl | hold
    · unfold RejectVector at hv
      omega
    · exact hold
  | plain => exact hmem

/-- A step of user code that does not execute a move of A7 keeps it. -/
theorem Stepped.staying {check : Bool} (h : Stepped none g check s t) (hs : Boundary s)
    (hg : g.supervisor = false) (hu : s.supervisor = false)
    (hstack : g.stack = mayMoveStack (opcodeAt s))
    (hcond : executesStackMove check s = false ∨ Rejected t.log) : t.userSp = s.userSp := by
  have hleft := h.leftUserSp hs
  have hrunning := fetched_running (s := s) hs.depth
  have hd : Departing s .decode (fetched s) := departing_start hu rfl rfl rfl rfl
  have hstart : Staying g s .decode (fetched s) :=
    ⟨fun _ => rfl, fun _ => not_rejected_of_quiet rfl⟩
  have hquiet (hstop : s.stopped = false) (hdue : (check && interruptDue s) = false)
      (hacc : accessible s .word s.pc = true) {w : M68kCpu σ}
      (hw : Rejected t.log → Rejected w.log) :
      g.stack = false ∨ Phase.finished = .decode ∨ Rejected w.log := by
    rcases hcond with hmove | hrejected
    · refine .inl (hstack.trans ?_)
      simpa [executesStackMove, hstop, hdue, hacc] using hmove
    · exact .inr (.inr (hw hrejected))
  cases h with
  | idle hstop => rwa [leftUserSp_unexecuted (by rw [hstop]; rfl)] at hleft
  | interrupt hcheck hdue => rwa [leftUserSp_unexecuted (by rw [hcheck, hdue]; simp)] at hleft
  | fetchFault _ _ hacc => rwa [leftUserSp_unexecuted (by rw [hacc]; simp)] at hleft
  | unwound hstop hdue hacc _ h =>
    obtain ⟨r, w, hrun, hw, habort⟩ := h
    have hstay := habort.staying hw.steady (hrun.staying hg hrunning.steady hd hstart)
    exact hstay.userSp (hquiet hstop hdue hacc id)
  | completed hstop hdue hacc _ hrun _ hfin =>
    have hsteady := hrun.steady hrunning.steady
    have hstay := hrun.staying hg hrunning.steady hd hstart
    exact (hfin.userSp hsteady).trans
      (hstay.userSp (hquiet hstop hdue hacc (hfin.rejected hsteady)))

/-! ## Runs through handlers -/

/-- From supervisor state `s`, by supervisor steps that do not write the user
stack pointer and requests of the host, up to the first user state. -/
inductive HandlerRun (s : M68kCpu σ) : M68kCpu σ → Prop
  | start : HandlerRun s s
  | irq {t : M68kCpu σ} (h : HandlerRun s t) {level : Nat} (hl : level ≤ 7) :
      HandlerRun s (setIrq level t)
  | step {t u : M68kCpu σ} (check : Bool) (h : HandlerRun s t) (hsup : t.supervisor = true)
      (hu : executesUspWrite check t = false)
      (hstep : stepEx check (Host.none σ) t = .ok () u) : HandlerRun s u

theorem HandlerRun.userSp (h : HandlerRun s t) (hs : Boundary s) :
    Boundary t ∧ t.userSp = s.userSp := by
  induction h with
  | start => exact ⟨hs, rfl⟩
  | irq _ hl ih => exact ⟨⟨ih.1.depth, hl⟩, ih.2⟩
  | step check _ hsup hu hstep ih =>
    obtain ⟨u', hu', hb, hsp⟩ := supervisor_step check ih.1 hsup hu
    rw [hstep] at hu'
    cases hu'
    exact ⟨hb, hsp.trans ih.2⟩

/-- Stack pointer banking: of the bank switch and of exceptions, of supervisor
steps, of user steps, and of every run from user state through handlers back to
user state. It resumes with the A7 that the interrupted instruction left, which is the
A7 before the step unless that instruction was executed and has A7 for a destination. -/
theorem stacks_banked :
    (∀ (v : U16) (s : M68kCpu σ),
        (withSr v s).userSp = s.userSp ∧ (withSr v s).supervisorSp = s.supervisorSp) ∧
      (∀ (check : Bool) (s : M68kCpu σ), Boundary s → s.supervisor = true →
        executesUspWrite check s = false →
        ∃ t, stepEx check (Host.none σ) s = .ok () t ∧ t.userSp = s.userSp) ∧
      (∀ (check : Bool) (s : M68kCpu σ), Boundary s → s.supervisor = false →
        ∃ t, stepEx check (Host.none σ) s = .ok () t ∧
          (t.log.any Event.isException = false → t.supervisorSp = s.supervisorSp) ∧
          (faultsInHandling t.log = false →
            t.supervisorSp = s.supervisorSp - framesSize s.model t.log)) ∧
      (∀ (v : Nat) (s t : M68kCpu σ), s.exceptionDepth = 0 → s.supervisor = false →
        exception v (Host.none σ) s = .ok () t → t.userSp = s.aRegs 7) ∧
      (∀ (check : Bool) (s t u : M68kCpu σ), Boundary s → s.supervisor = false →
        stepEx check (Host.none σ) s = .ok () t → t.supervisor = true → HandlerRun t u →
        u.supervisor = false →
        u.aRegs 7 = t.userSp ∧ u.aRegs 7 = leftUserSp check s ∧
          (executesStackMove check s = false ∨ Rejected t.log → u.aRegs 7 = s.aRegs 7)) := by
  have huserSp {s : M68kCpu σ} (h : s.supervisor = false) : s.userSp = s.aRegs 7 := by
    simp [M68kCpu.userSp, h]
  refine ⟨withSr_banks, ?_, ?_, ?_, ?_⟩
  -- a step in supervisor state
  · intro check s hs hsup hu
    obtain ⟨t, ht, -, hsp⟩ := supervisor_step check hs hsup hu
    exact ⟨t, ht, hsp⟩
  -- a step in user state
  · intro check s hs hu
    obtain ⟨t, ht, -, hd⟩ := user_step_departing check hs hu
    refine ⟨t, ht, fun hquiet => ?_, hd.lowered⟩
    obtain ⟨hfaults, hsize⟩ := quiet_log s.model hquiet
    rw [hd.lowered hfaults, hsize]
    simp
  · intro v s t hd hu h
    obtain ⟨t', ht', hp⟩ := exception_processed (k := none) v (Int.le_of_eq hd.symm)
    rw [ackHost_none, h] at ht'
    cases ht'
    exact (userSp_of_kept hp.kept).trans (huserSp hu)
  -- a run through the handlers, back to user state
  · intro check s t u hs hu hstep hsup hrun huser
    obtain ⟨t', ht', hst⟩ := stepEx_cases (k := none) (g := .of false (opcodeAt s)) check hs.depth
      hs.depth (Grade.of_covers _ _) hu.symm
    rw [ackHost_none, hstep] at ht'
    cases ht'
    have hkeep : u.aRegs 7 = t.userSp :=
      (huserSp huser).symm.trans (hrun.userSp (hst.boundary hs)).2
    exact ⟨hkeep, hkeep.trans (hst.leftUserSp hs), fun hcond =>
      hkeep.trans ((hst.staying hs rfl hu rfl hcond).trans (huserSp hu))⟩

/-- TRAP #0 in user state, with both stacks in memory; the handler is RTE. -/
def trapUser : M68kCpu Unit :=
  { init (fun a => if a = 0x82 then 0x02 else if a = 0x100 ∨ a = 0x200 then 0x4E else
      if a = 0x101 then 0x40 else if a = 0x201 then 0x73 else 0) 0x1000 () with
    aRegs := fun r => if r = 7 then 0x900 else 0
    ssp := 0x800
    pc := 0x100 }

theorem stacks_banked_trap :
    ∃ t u, stepEx true (Host.none Unit) trapUser = .ok () t ∧ t.supervisor = true ∧
      t.supervisorSp = 0x800 - 6 ∧ stepEx true (Host.none Unit) t = .ok () u ∧
      u.supervisor = false ∧ u.aRegs 7 = 0x900 := by
  obtain ⟨-, hsupervisor, huser, -, hrun⟩ := stacks_banked (σ := Unit)
  have hs : Boundary trapUser := ⟨rfl, by decide⟩
  obtain ⟨t, ht, -, hlowered⟩ := huser true trapUser hs rfl
  have hfirst : (exec? (stepEx (σ := Unit) true) (Host.none Unit) trapUser).map (fun t =>
      (t.supervisor, executesUspWrite true t, t.exceptionDepth, t.irqLevel,
        faultsInHandling t.log, framesSize .m68000 t.log)) =
      some (true, false, 0, 0, false, 6) := by decide +kernel
  simp only [exec?, ht, Option.map_some, Option.some.injEq, Prod.mk.injEq] at hfirst
  obtain ⟨hsup, husp, hdepth, hirq, hcalm, hsize⟩ := hfirst
  obtain ⟨u, hu, -⟩ := hsupervisor true t ⟨hdepth, by omega⟩ hsup husp
  have hsecond : (exec? (stepEx (σ := Unit) true >>= fun _ => stepEx true) (Host.none Unit)
      trapUser).map (fun u => u.supervisor) = some false := by decide +kernel
  rw [exec?, bind_ok ht, hu] at hsecond
  have hback : u.supervisor = false := by simpa using hsecond
  refine ⟨t, u, ht, hsup, ?_, hu, hback, ?_⟩
  · rw [hlowered hcalm]
    exact congrArg (0x800 - ·) hsize
  · exact (hrun true trapUser t u hs rfl ht hsup (.step true .start hsup husp hu) hback).2.2
      (.inl (by decide))

end M68k
