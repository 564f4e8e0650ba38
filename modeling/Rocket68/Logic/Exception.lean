import Rocket68.Logic.Access

/-!
# Exception processing terminates and touches little

`Kept` collects what no exception changes, however its frame and vector
accesses fault. `Processed` is what `m68k_exception` establishes on arbitrary
states, and `Handles` that it does so within a number of nesting levels: an
access inside exception processing then returns to it.
-/

namespace M68k

open Trap TrapM

variable {σ α : Type}

/-! ## The status register of a handler -/

/-- The status register exception processing installs. -/
def handlerSr (sr : U16) : U16 := ((sr ||| srS) &&& ~~~srT) &&& srMask

theorem and_srS (sr : U16) : (sr &&& srS != 0) = sr.getLsbD 13 := by
  have h : srS = BitVec.twoPow 16 13 := by decide
  rw [h, BitVec.and_twoPow]
  cases sr.getLsbD 13 <;> decide

theorem and_srT (sr : U16) : (sr &&& srT != 0) = sr.getLsbD 15 := by
  have h : srT = BitVec.twoPow 16 15 := by decide
  rw [h, BitVec.and_twoPow]
  cases sr.getLsbD 15 <;> decide

theorem supervisor_eq (s : M68kCpu σ) : s.supervisor = s.sr.getLsbD 13 := and_srS s.sr

theorem traced_eq (s : M68kCpu σ) : s.traced = s.sr.getLsbD 15 := and_srT s.sr

theorem handlerSr_supervisor (sr : U16) : (handlerSr sr).getLsbD 13 = true := by
  simp [handlerSr, srS, srT, srMask]

theorem handlerSr_untraced (sr : U16) : (handlerSr sr).getLsbD 15 = false := by
  simp [handlerSr, srS, srT, srMask]

theorem handlerSr_idem (sr : U16) : handlerSr (handlerSr sr) = handlerSr sr := by
  ext i hi
  simp only [handlerSr, BitVec.getElem_and, BitVec.getElem_or, BitVec.getElem_not]
  cases sr[i] <;> cases srS[i] <;> cases srT[i] <;> cases srMask[i] <;> rfl

/-! ## What exceptions keep -/

/-- The part of the context no exception changes. -/
@[ext] structure Kept (σ : Type) where
  dRegs : Fin 8 → U32
  lowA : Fin 8 → U32
  userSp : U32
  ppc : U32
  ir : U16
  memorySize : U32
  irqLevel : Nat
  nmiPending : Bool
  stopped : Bool
  tracePending : Bool
  exceptionDepth : Int
  inAddressError : Bool
  inBusError : Bool
  faultTrapActive : Bool
  model : M68kModel
  vbr : U32
  sfc : U32
  dfc : U32
  targetCycles : Int
  cyclesRemaining : Int
  host : σ

def kept (s : M68kCpu σ) : Kept σ where
  dRegs := s.dRegs
  lowA := Function.update s.aRegs 7 0
  userSp := s.userSp
  ppc := s.ppc
  ir := s.ir
  memorySize := s.memorySize
  irqLevel := s.irqLevel
  nmiPending := s.nmiPending
  stopped := s.stopped
  tracePending := s.tracePending
  exceptionDepth := s.exceptionDepth
  inAddressError := s.inAddressError
  inBusError := s.inBusError
  faultTrapActive := s.faultTrapActive
  model := s.model
  vbr := s.vbr
  sfc := s.sfc
  dfc := s.dfc
  targetCycles := s.targetCycles
  cyclesRemaining := s.cyclesRemaining
  host := s.host

/-- The fault latches are clear. -/
def latchesClear (s : M68kCpu σ) : Prop :=
  s.faultProgramAccess = false ∧ s.faultValid = false ∧ s.faultPcValid = false ∧
    s.faultBusWordValid = false ∧ s.operandProgramSpace = false

/-- The exceptions among some events are bus and address errors. -/
def onlyFaults (evs : List Event) : Prop := ∀ v, .exception v ∈ evs → v = 2 ∨ v = 3

theorem onlyFaults_append {xs ys : List Event} (hx : onlyFaults xs) (hy : onlyFaults ys) :
    onlyFaults (xs ++ ys) := fun v hv =>
  (List.mem_append.mp hv).elim (hx v) (hy v)

theorem onlyFaults_cons {e : Event} {evs : List Event} (he : ∀ v, e = .exception v → v = 2 ∨ v = 3)
    (h : onlyFaults evs) : onlyFaults (e :: evs) := fun v hv =>
  (List.mem_cons.mp hv).elim (fun heq => he v heq.symm) (h v)

/-- From `s` to `t` inside exception processing. -/
structure Inside (s t : M68kCpu σ) : Prop where
  kept : kept t = kept s
  sr : t.sr = s.sr
  thrown : s.exceptionThrown ≠ 0 → t.exceptionThrown = s.exceptionThrown
  group0 : s.group0Fault = true → t.group0Fault = true
  latches : latchesClear s → latchesClear t
  log : ∃ evs, t.log = evs ++ s.log ∧ onlyFaults evs

theorem Inside.refl (s : M68kCpu σ) : Inside s s where
  kept := rfl
  sr := rfl
  thrown _ := rfl
  group0 := id
  latches := id
  log := ⟨[], rfl, fun _ h => absurd h List.not_mem_nil⟩

theorem Inside.trans {s t u : M68kCpu σ} (h : Inside s t) (h' : Inside t u) : Inside s u where
  kept := h'.kept.trans h.kept
  sr := h'.sr.trans h.sr
  thrown hs := by rw [h'.thrown (by rwa [h.thrown hs]), h.thrown hs]
  group0 hs := h'.group0 (h.group0 hs)
  latches hs := h'.latches (h.latches hs)
  log := by
    obtain ⟨xs, hxs, hx⟩ := h.log
    obtain ⟨ys, hys, hy⟩ := h'.log
    exact ⟨ys ++ xs, by rw [hys, hxs, List.append_assoc], onlyFaults_append hy hx⟩

/-- The long word at a vector, 0 where its fetch faults or misses. -/
def entry (s : M68kCpu σ) (address : U32) : U32 :=
  if (isOdd address && !s.inAddressError) || !mapped s .long address then 0
  else longAt s.memory (maskAddress24 address)

/-- From `s` to `t` through the processing of exception `v`. -/
structure Processed (v : Nat) (s t : M68kCpu σ) : Prop where
  kept : kept t = kept s
  sr : t.sr = handlerSr s.sr
  pc : t.pc = entry t (s.vbr + BitVec.ofNat 32 v * 4)
  thrown : s.exceptionThrown ≠ 0 → t.exceptionThrown = s.exceptionThrown
  first : s.exceptionThrown = 0 → v ≠ 0 → t.exceptionThrown = v
  group0 : s.group0Fault = true → t.group0Fault = true
  latches : latchesClear t
  log : ∃ evs, t.log = evs ++ .exception v :: s.log ∧ onlyFaults evs

/-- The number of re-entry guards not held. -/
def clearGuards (s : M68kCpu σ) : Nat :=
  (if s.inAddressError then 0 else 1) + (if s.inBusError then 0 else 1)

/-- Inside exception processing: supervisor state, not traced. -/
structure InHandler (s : M68kCpu σ) : Prop where
  supervisor : s.supervisor = true
  sr : handlerSr s.sr = s.sr

theorem Inside.inHandler {s t : M68kCpu σ} (h : Inside s t) (hs : InHandler s) : InHandler t where
  supervisor := by rw [supervisor_eq, h.sr, ← supervisor_eq]; exact hs.supervisor
  sr := by rw [h.sr]; exact hs.sr

theorem Inside.depth {s t : M68kCpu σ} (h : Inside s t) : t.exceptionDepth = s.exceptionDepth :=
  congrArg Kept.exceptionDepth h.kept

theorem Inside.clearGuards {s t : M68kCpu σ} (h : Inside s t) : clearGuards t = clearGuards s := by
  have ha := congrArg Kept.inAddressError h.kept
  have hb := congrArg Kept.inBusError h.kept
  simp only [M68k.kept] at ha hb
  simp only [M68k.clearGuards, ha, hb]

/-! ## The re-entry guards -/

/-- Hold the re-entry guard of vector `v`: 3 the address error guard, 2 the bus
error guard. -/
def holdGuard (v : Nat) (b : Bool) (s : M68kCpu σ) : M68kCpu σ :=
  if v = 3 then { s with inAddressError := b } else { s with inBusError := b }

/-- A guard is the only thing `holdGuard` sets. -/
theorem holdGuard_eq (v : Nat) (b : Bool) (s : M68kCpu σ) :
    holdGuard v b s =
      { s with
        inAddressError := if v = 3 then b else s.inAddressError
        inBusError := if v = 3 then s.inBusError else b } := by
  unfold holdGuard
  split <;> rfl

@[simp] theorem holdGuard_log (v : Nat) (b : Bool) (s : M68kCpu σ) :
    (holdGuard v b s).log = s.log := by
  rw [holdGuard_eq]

/-- The guard of vector `v`. -/
def guardHeld (v : Nat) (s : M68kCpu σ) : Bool := if v = 3 then s.inAddressError else s.inBusError

/-- An exception under its own guard keeps what any exception keeps, once the
guard is released. -/
theorem released_kept {v : Nat} {s t : M68kCpu σ} (h : kept t = kept (holdGuard v true s))
    (hg : guardHeld v s = false) : kept (holdGuard v false t) = kept s := by
  unfold holdGuard guardHeld at *
  by_cases hv : v = 3
  · rw [if_pos hv] at h hg ⊢
    show { kept t with inAddressError := false } = kept s
    rw [h, ← hg]
    rfl
  · rw [if_neg hv] at h hg ⊢
    show { kept t with inBusError := false } = kept s
    rw [h, ← hg]
    rfl

/-- Holding a guard leaves one clear guard less. -/
theorem clearGuards_holdGuard {v : Nat} {s : M68kCpu σ} (hg : guardHeld v s = false) :
    clearGuards (holdGuard v true s) < clearGuards s := by
  unfold guardHeld at hg
  rw [holdGuard_eq]
  by_cases hv : v = 3
  · rw [if_pos hv] at hg
    simp [clearGuards, hv, hg]
  · rw [if_neg hv] at hg
    simp [clearGuards, hv, hg]

/-! ## Faults inside exception processing -/

/-- Both fault branches, from the state with their guard held. -/
def raiseFaultWith (raise : Nat → M σ Unit) (v : Nat) : M σ Unit := do
  raise v
  modify (holdGuard v false)
  abortFaultedInstruction

/-- The latches of an access that faults. -/
def captureFault (kind : Access) (address : U32) (s : M68kCpu σ) : M68kCpu σ :=
  (captureAccessFault address (kind == .write) (kind == .fetch) s).noted (.fault kind address)

theorem addressFault_run (raise : Nat → M σ Unit) (kind : Access) (address : U32) (h : Host σ)
    (s : M68kCpu σ) :
    addressFault raise kind address h s =
      raiseFaultWith raise 3 h (holdGuard 3 true (captureFault kind address s)) := rfl

theorem busFault_run (raise : Nat → M σ Unit) (kind : Access) (address : U32) (h : Host σ)
    (s : M68kCpu σ) :
    busFault raise kind address h s =
      raiseFaultWith raise 2 h (holdGuard 2 true (captureFault kind address s)) := rfl

section Handles

variable (k : Option (Nat → M68kCpu σ → M68kCpu σ × U32))

/-- `raise` processes exceptions wherever fewer than `n` guards are clear, and
unwinds at most from a negative depth. -/
def Handles (n : Nat) (raise : Nat → M σ Unit) : Prop :=
  ∀ v s, clearGuards s < n →
    wp (raise v) (ackHost k) (fun _ t => Processed v s t) (fun _ => s.exceptionDepth < 0) s

variable {k} {n : Nat} {raise : Nat → M σ Unit}

/-- An unwinding starts at depth 0. -/
theorem abortFaultedInstruction_wp (s : M68kCpu σ) :
    wp abortFaultedInstruction (ackHost k) (fun _ t => t = s)
      (fun _ => s.exceptionDepth < 1) s := by
  rw [abortFaultedInstruction, wp_bind, wp_gets]
  refine wp_ite (fun h => ?_) fun _ => rfl
  simp only [Bool.and_eq_true, beq_iff_eq] at h
  exact (by omega : s.exceptionDepth < 1)

/-- A fault below an activation of `m68k_exception` returns to it. -/
theorem raiseFault_inside (hraise : Handles k n raise) {v : Nat} (hv : v = 2 ∨ v = 3)
    (kind : Access) (address : U32) {s : M68kCpu σ} (hs : InHandler s)
    (hg : guardHeld v s = false) (hn : clearGuards s ≤ n) :
    wp (raiseFaultWith raise v) (ackHost k)
      (fun _ t => Inside s t ∧
        ∃ evs, t.log = evs ++ .fault kind address :: s.log)
      (fun _ => s.exceptionDepth < 1) (holdGuard v true (captureFault kind address s)) := by
  have hg' : guardHeld v (captureFault kind address s) = false := hg
  have hdepth : (holdGuard v true (captureFault kind address s)).exceptionDepth =
      s.exceptionDepth := by
    rw [holdGuard_eq]
    rfl
  rw [raiseFaultWith, wp_bind]
  refine wp_mono (hraise v _ (Nat.lt_of_lt_of_le (clearGuards_holdGuard hg') hn)) ?_ ?_
  · intro _ t hp
    have hkept : kept (holdGuard v false t) = kept s :=
      released_kept (s := captureFault kind address s) hp.kept hg'
    rw [holdGuard_eq] at hp
    obtain ⟨evs, hlog, honly⟩ := hp.log
    have hinside : Inside s (holdGuard v false t) := by
      refine ⟨hkept, ?_, ?_, ?_, ?_, ?_⟩
      all_goals rw [holdGuard_eq]
      · exact hp.sr.trans hs.sr
      · exact hp.thrown
      · exact fun _ => hp.group0 rfl
      · exact fun _ => hp.latches
      · refine ⟨evs ++ [.exception v, .fault kind address], ?_, onlyFaults_append honly ?_⟩
        · simp [hlog, captureFault, M68kCpu.noted, captureAccessFault]
        · intro w hw
          simp only [List.mem_cons, Event.exception.injEq, reduceCtorEq, List.not_mem_nil,
            or_false] at hw
          exact hw ▸ hv
    rw [wp_bind, wp_modify]
    refine wp_mono (abortFaultedInstruction_wp (holdGuard v false t)) ?_ ?_
    · intro _ u hu
      subst hu
      refine ⟨hinside, evs ++ [.exception v], ?_⟩
      rw [holdGuard_eq]
      simp [hlog, captureFault, M68kCpu.noted, captureAccessFault]
    · intro _ h
      rwa [hinside.depth] at h
  · intro _ h
    rw [hdepth] at h
    omega

/-- Noting an access keeps everything. -/
theorem inside_noted (s : M68kCpu σ) (kind : Access) (size : M68kSize) (address : U32) :
    Inside s (s.noted (.access kind size address)) where
  kept := rfl
  sr := rfl
  thrown _ := rfl
  group0 := id
  latches := id
  log := ⟨[.access kind size address], rfl,
    onlyFaults_cons (fun _ h => by cases h) fun _ h => absurd h List.not_mem_nil⟩

/-- An access raises an exception. -/
def faultsAt (size : M68kSize) (address : U32) (s : M68kCpu σ) : Bool :=
  (misaligned size address && !s.inAddressError) || (!mapped s size address && !s.inBusError)

theorem faultsAt_of_accessible {size : M68kSize} {address : U32} {s : M68kCpu σ}
    (h : accessible s size address = true) : faultsAt size address s = false := by
  unfold accessible at h
  simp only [Bool.and_eq_true, Bool.not_eq_true'] at h
  simp [faultsAt, h.1, h.2]

/-- An access that raises nothing hits mapped memory, or misses under a held bus
error guard. -/
theorem flatAccess_unfaulted (raise : Nat → M σ Unit) (kind : Access) {size : M68kSize}
    {address : U32} (hit miss : M68kCpu σ → M68kCpu σ × α) (dead : α) (h : Host σ)
    {s : M68kCpu σ} (hf : faultsAt size address s = false) :
    flatAccess raise kind size address hit miss dead h s =
      if mapped s size address then
        .ok (hit (s.noted (.access kind size address))).2
          (hit (s.noted (.access kind size address))).1
      else
        .ok (miss (s.noted (.access kind size address))).2
          (miss (s.noted (.access kind size address))).1 := by
  rw [faultsAt, Bool.or_eq_false_iff] at hf
  obtain ⟨hodd, hbus⟩ := hf
  rw [flatAccess_run, hodd, if_neg Bool.false_ne_true]
  by_cases hmap : mapped s size address = true
  · rw [if_pos hmap, if_pos hmap]
  · have hmap' : mapped s size address = false := by simpa using hmap
    rw [hmap', Bool.not_false, Bool.true_and] at hbus
    rw [if_neg hmap, if_neg hmap, hbus, if_neg Bool.false_ne_true]

/-- An access to accessible memory hits, whatever guards are held. -/
theorem flatAccess_hit (raise : Nat → M σ Unit) (kind : Access) {size : M68kSize}
    {address : U32} (hit miss : M68kCpu σ → M68kCpu σ × α) (dead : α) (h : Host σ)
    {s : M68kCpu σ} (hacc : accessible s size address = true) :
    flatAccess raise kind size address hit miss dead h s =
      .ok (hit (s.noted (.access kind size address))).2
        (hit (s.noted (.access kind size address))).1 := by
  rw [flatAccess_unfaulted raise kind hit miss dead h (faultsAt_of_accessible hacc),
    if_pos (Bool.and_eq_true_iff.mp hacc).2]

theorem read16_hit (k : Option (Nat → M68kCpu σ → M68kCpu σ × U32)) {address : U32}
    {s : M68kCpu σ} (h : accessible s .word address = true) :
    read16 address (ackHost k) s =
      .ok (wordAt s.memory (maskAddress24 address)) (s.noted (.access .read .word address)) := by
  rw [read16, read16With_flat, flatAccess_hit _ _ _ _ _ _ h]
  rfl

theorem read32_hit (k : Option (Nat → M68kCpu σ → M68kCpu σ × U32)) {address : U32}
    {s : M68kCpu σ} (h : accessible s .long address = true) :
    read32 address (ackHost k) s =
      .ok (longAt s.memory (maskAddress24 address)) (s.noted (.access .read .long address)) := by
  rw [read32, read32With_flat, flatAccess_hit _ _ _ _ _ _ h]
  rfl

/-- A fault was raised between `s` and `t`. -/
def Faulted (s t : M68kCpu σ) : Prop :=
  ∃ evs, t.log = evs ++ s.log ∧ ∃ kind address, .fault kind address ∈ evs

theorem Faulted.after {s t u : M68kCpu σ} (h : Faulted t u) (hst : Inside s t) : Faulted s u := by
  obtain ⟨evs, hlog, kind, address, hmem⟩ := h
  obtain ⟨evs', hlog', -⟩ := hst.log
  exact ⟨evs ++ evs', by rw [hlog, hlog', List.append_assoc], kind, address,
    List.mem_append_left _ hmem⟩

theorem Faulted.before {s t u : M68kCpu σ} (h : Faulted s t) (htu : Inside t u) : Faulted s u := by
  obtain ⟨evs, hlog, kind, address, hmem⟩ := h
  obtain ⟨evs', hlog', -⟩ := htu.log
  exact ⟨evs' ++ evs, by rw [hlog', hlog, List.append_assoc], kind, address,
    List.mem_append_right _ hmem⟩

/-- An access inside exception processing returns: with `dead` after a fault,
as `hit` says on mapped memory, as `miss` says under a held bus error guard. -/
theorem flatAccess_inside (hraise : Handles k n raise) (kind : Access) (size : M68kSize)
    (address : U32) (hit miss : M68kCpu σ → M68kCpu σ × α) (dead : α) {s : M68kCpu σ}
    (hs : InHandler s) (hn : clearGuards s ≤ n)
    (hhit : ∀ u, Inside u (hit u).1) (hmiss : ∀ u, Inside u (miss u).1) :
    wp (flatAccess raise kind size address hit miss dead) (ackHost k)
      (fun a t => Inside s t ∧
        if faultsAt size address s then a = dead ∧ Faulted s t
        else if mapped s size address then
          a = (hit (s.noted (.access kind size address))).2 ∧
            t = (hit (s.noted (.access kind size address))).1
        else
          a = (miss (s.noted (.access kind size address))).2 ∧
            t = (miss (s.noted (.access kind size address))).1)
      (fun _ => s.exceptionDepth < 1) s := by
  have hnoted := inside_noted s kind size address
  have hin := hnoted.inHandler hs
  have hle : clearGuards (s.noted (.access kind size address)) ≤ n := hnoted.clearGuards ▸ hn
  have hfault {v : Nat} (hv : v = 2 ∨ v = 3) (hfaults : faultsAt size address s = true)
      (hg : guardHeld v s = false) :
      wp (raiseFaultWith raise v >>= fun _ => pure dead) (ackHost k)
        (fun a t => Inside s t ∧ if faultsAt size address s then a = dead ∧ Faulted s t
          else if mapped s size address then
            a = (hit (s.noted (.access kind size address))).2 ∧
              t = (hit (s.noted (.access kind size address))).1
          else
            a = (miss (s.noted (.access kind size address))).2 ∧
              t = (miss (s.noted (.access kind size address))).1)
        (fun _ => s.exceptionDepth < 1)
        (holdGuard v true (captureFault kind address (s.noted (.access kind size address)))) := by
    refine wp_bind.mpr (wp_mono (raiseFault_inside hraise hv kind address hin hg hle) ?_ ?_)
    · intro _ t ⟨hinside, evs, hlog⟩
      refine ⟨hnoted.trans hinside, ?_⟩
      rw [if_pos hfaults]
      exact ⟨rfl, evs ++ [.fault kind address,
        .access kind size address], by simp [hlog, M68kCpu.noted],
        kind, address, by simp⟩
    · exact fun _ h => h
  unfold wp
  rw [flatAccess_run]
  by_cases hodd : (misaligned size address && !s.inAddressError) = true
  · rw [if_pos hodd]
    refine hfault (.inr rfl) (by rw [faultsAt, hodd, Bool.true_or]) ?_
    show s.inAddressError = false
    simpa using (Bool.and_eq_true_iff.mp hodd).2
  · rw [if_neg hodd]
    have hodd' : (misaligned size address && !s.inAddressError) = false := by simpa using hodd
    by_cases hmap : mapped s size address = true
    · have hnot : faultsAt size address s = false := by simp [faultsAt, hodd', hmap]
      simp only [if_pos hmap, hnot, Bool.false_eq_true, if_false]
      exact ⟨hnoted.trans (hhit _), trivial, trivial⟩
    · rw [if_neg hmap]
      have hmap' : mapped s size address = false := by simpa using hmap
      by_cases hbus : (!s.inBusError) = true
      · rw [if_pos hbus]
        refine hfault (.inl rfl) (by simp [faultsAt, hodd', hmap', hbus]) ?_
        show s.inBusError = false
        simpa using hbus
      · have hnot : faultsAt size address s = false := by
          simp only [Bool.not_eq_true', Bool.not_eq_false] at hbus
          simp [faultsAt, hodd', hbus]
        simp only [if_neg hbus, hnot, if_neg hmap, Bool.false_eq_true, if_false]
        exact ⟨hnoted.trans (hmiss _), trivial, trivial⟩

end Handles

end M68k
