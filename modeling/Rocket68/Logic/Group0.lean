import Rocket68.Logic.Delivery
import Rocket68.Logic.Step

/-!
# Bus and address error frames

The fourteen bytes of a group 0 frame, read back where they were pushed, and what
the latches of a faulting access put into them.
-/

namespace M68k

open Trap TrapM

variable {σ : Type} {k : Option (Nat → M68kCpu σ → M68kCpu σ × U32)} {s t u : M68kCpu σ} {v : Nat}

theorem mapped_of_memorySize (h : t.memorySize = s.memorySize) (size : M68kSize) (address : U32) :
    mapped t size address = mapped s size address := by
  simp only [mapped, isValidAddress, h]

theorem accessible_of_memorySize (h : t.memorySize = s.memorySize) (size : M68kSize)
    (address : U32) : accessible t size address = accessible s size address := by
  rw [accessible, accessible, mapped_of_memorySize h]

/-! ## Reading pushes back -/

/-- Bytes from the stack pointer up lie above what is pushed next. -/
theorem pushed_memory_above {frame : List (M68kSize × U32)} (h : frameLength frame < 2 ^ 16)
    (s : M68kCpu σ) {n : U32} (hn : n.toNat < 2 ^ 16) :
    (pushed frame s).memory (maskAddress24 (s.aRegs 7) + n) =
      s.memory (maskAddress24 (s.aRegs 7) + n) := by
  apply pushed_memory
  rintro ⟨i, hi, heq⟩
  rw [maskAddress24_add] at heq
  have hnat := congrArg BitVec.toNat heq
  simp only [maskAddress24_toNat, BitVec.toNat_add, BitVec.toNat_sub, BitVec.toNat_ofNat] at hnat
  omega

theorem longAt_pushed {frame : List (M68kSize × U32)} (h : frameLength frame < 2 ^ 16)
    (s : M68kCpu σ) :
    longAt (pushed frame s).memory (maskAddress24 (s.aRegs 7)) =
      longAt s.memory (maskAddress24 (s.aRegs 7)) := by
  have hword : wordAt (pushed frame s).memory (maskAddress24 (s.aRegs 7) + 2) =
      wordAt s.memory (maskAddress24 (s.aRegs 7) + 2) := by
    have h3 : maskAddress24 (s.aRegs 7) + 2 + 1 = maskAddress24 (s.aRegs 7) + 3 := by bv_omega
    apply wordAt_congr (pushed_memory_above h s (by decide))
    rw [h3]
    exact pushed_memory_above h s (by decide)
  exact longAt_congr (wordAt_pushed h s) hword

/-- A pushed word, read back. -/
theorem wordAt_pushed_cons {value : U32} {rest : List (M68kSize × U32)}
    (hrest : frameLength rest < 2 ^ 16)
    (hacc : accessible s .word (s.aRegs 7 - 2) = true) :
    wordAt (pushed ((.word, value) :: rest) s).memory (maskAddress24 (s.aRegs 7 - 2)) =
      value.setWidth 16 := by
  have ha7 : (pushedOne .word value s).aRegs 7 = s.aRegs 7 - 2 := pushedOne_a7 .word value s
  have hread := wordAt_pushed hrest (pushedOne .word value s)
  rw [ha7, @pushedOne_memory_mapped _ .word _ _ hacc] at hread
  exact hread.trans (wordAt_storeWord _ _ _)

/-- A pushed long word, read back. -/
theorem longAt_pushed_cons {value : U32} {rest : List (M68kSize × U32)}
    (hrest : frameLength rest < 2 ^ 16)
    (hacc : accessible s .long (s.aRegs 7 - 4) = true) :
    longAt (pushed ((.long, value) :: rest) s).memory (maskAddress24 (s.aRegs 7 - 4)) = value := by
  have ha7 : (pushedOne .long value s).aRegs 7 = s.aRegs 7 - 4 := pushedOne_a7 .long value s
  have hread := longAt_pushed hrest (pushedOne .long value s)
  rw [ha7, @pushedOne_memory_mapped _ .long _ _ hacc] at hread
  exact hread.trans (longAt_storeLong _ _ _)

/-- The entries of a frame stand in memory below `sp`. -/
def Stands (memory : U32 → U8) : U32 → List (M68kSize × U32) → Prop
  | _, [] => True
  | sp, (size, value) :: rest =>
      (match size with
        | .byte => True
        | .word => wordAt memory (maskAddress24 (sp - 2)) = value.setWidth 16
        | .long => longAt memory (maskAddress24 (sp - 4)) = value) ∧
      Stands memory (sp - size.bytes) rest

/-- What fits is pushed. -/
theorem stands_pushed {frame : List (M68kSize × U32)} (h : frameLength frame < 2 ^ 16)
    (hfits : fits s (s.aRegs 7) frame = true) :
    Stands (pushed frame s).memory (s.aRegs 7) frame := by
  induction frame generalizing s with
  | nil => trivial
  | cons e rest ih =>
      obtain ⟨size, value⟩ := e
      obtain ⟨hacc, hrest⟩ := fits_cons hfits
      have hlength : frameLength ((size, value) :: rest) = size.bytes.toNat + frameLength rest := by
        simp [frameLength]
      have hlen : frameLength rest < 2 ^ 16 := by omega
      have hnext :
          fits (pushedOne size value s) ((pushedOne size value s).aRegs 7) rest = true := by
        rw [pushedOne_a7]
        exact (fits_congr (s := s) (t := pushedOne size value s) rfl _ _).trans hrest
      refine ⟨?_, ?_⟩
      · cases size with
        | byte => trivial
        | word => exact wordAt_pushed_cons hlen hacc
        | long => exact longAt_pushed_cons hlen hacc
      · have htail := ih hlen hnext
        rw [pushedOne_a7] at htail
        exact htail

/-! ## The frame -/

/-- A bus or address error frame at `sp`. -/
structure GroupFrame (memory : U32 → U8) (sp : U32) (ssw : U16) (address : U32) (ir sr : U16)
    (pc : U32) : Prop where
  ssw : wordAt memory (maskAddress24 sp) = ssw
  address : longAt memory (maskAddress24 (sp + 2)) = address
  ir : wordAt memory (maskAddress24 (sp + 6)) = ir
  sr : wordAt memory (maskAddress24 (sp + 8)) = sr
  pc : longAt memory (maskAddress24 (sp + 10)) = pc

theorem groupFrame_of_stands {memory : U32 → U8} {ssw ir sr : U16} {address pc sp : U32}
    (h : Stands memory sp [(.long, pc), (.word, sr.setWidth 32), (.word, ir.setWidth 32),
      (.long, address), (.word, ssw.setWidth 32)]) :
    GroupFrame memory (sp - 14) ssw address ir sr pc := by
  obtain ⟨hpc, hsr, hir, haddress, hssw, -⟩ := h
  have hword (w : U16) : (w.setWidth 32).setWidth 16 = w := by simp
  have e₀ : sp - 14 + 10 = sp - 4 := by bv_omega
  have e₁ : sp - 14 + 8 = sp - 4 - 2 := by bv_omega
  have e₂ : sp - 14 + 6 = sp - 4 - 2 - 2 := by bv_omega
  have e₄ : sp - 14 = sp - 4 - 2 - 2 - 4 - 2 := by
    simp only [BitVec.sub_sub]
    rfl
  have e₃ : sp - 14 + 2 = sp - 4 - 2 - 2 - 4 := by rw [e₄, BitVec.sub_add_cancel]
  refine ⟨?_, ?_, ?_, ?_, ?_⟩
  · rw [e₄]
    exact Eq.trans hssw (hword ssw)
  · rw [e₃]
    exact haddress
  · rw [e₂]
    exact Eq.trans hir (hword ir)
  · rw [e₁]
    exact Eq.trans hsr (hword sr)
  · rw [e₀]
    exact hpc

/-- The frame a delivered bus or address error leaves. -/
theorem delivered_groupFrame (hv : v = 2 ∨ v = 3) (hvalid : s.faultValid = true)
    (hframe : fits s s.supervisorSp (frameOf v s) = true) :
    GroupFrame (delivered v s).memory (s.supervisorSp - 14) s.faultSsw s.faultAddress s.faultIr
      s.sr (stackedPc v s) := by
  have hfits := (fits_entered v s).trans hframe
  rw [frameOf, if_pos hv, hvalid] at hfits
  have hstands := stands_pushed (by show 14 < 2 ^ 16; decide) hfits
  rw [entered_a7] at hstands
  show GroupFrame (pushed (frameOf v s) (entered v s)).memory _ _ _ _ _ _
  rw [frameOf, if_pos hv, hvalid]
  exact groupFrame_of_stands hstands

/-! ## The oldest exception of a step -/

/-- Accesses only: no fault and no exception. -/
def Quiet (log : List Event) : Prop := ∀ e ∈ log, ∃ kind size address, e = .access kind size address

theorem Quiet.cons {log : List Event} (h : Quiet log) (kind : Access) (size : M68kSize)
    (address : U32) : Quiet (.access kind size address :: log) := by
  intro e he
  rcases List.mem_cons.mp he with rfl | hmem
  · exact ⟨kind, size, address, rfl⟩
  · exact h e hmem

theorem Quiet.no_exception {log : List Event} (h : Quiet log) (v : Nat) : .exception v ∉ log := by
  intro hmem
  obtain ⟨kind, size, address, heq⟩ := h _ hmem
  cases heq

theorem Quiet.no_fault {log : List Event} (h : Quiet log) (kind : Access) (address : U32) :
    .fault kind address ∉ log := by
  intro hmem
  obtain ⟨kind', size, address', heq⟩ := h _ hmem
  cases heq

/-- A log has one oldest exception. -/
theorem oldest_exception {a b q q' : List Event} {v v' : Nat} (hq : ∀ w, .exception w ∉ q)
    (hq' : ∀ w, .exception w ∉ q') (h : a ++ .exception v :: q = b ++ .exception v' :: q') :
    v = v' ∧ q = q' := by
  induction a generalizing b with
  | nil =>
    cases b with
    | nil =>
      obtain ⟨hhead, htail⟩ := List.cons_eq_cons.mp h
      exact ⟨Event.exception.inj hhead, htail⟩
    | cons e b =>
      obtain ⟨-, htail⟩ := List.cons_eq_cons.mp h
      exact absurd (htail ▸ List.mem_append_right b List.mem_cons_self) (hq v')
  | cons e a ih =>
    cases b with
    | nil =>
      obtain ⟨-, htail⟩ := List.cons_eq_cons.mp h
      exact absurd (htail ▸ List.mem_append_right a List.mem_cons_self) (hq' v)
    | cons e' b =>
      obtain ⟨-, htail⟩ := List.cons_eq_cons.mp h
      exact ih htail

/-! ## The status word -/

/-- The status word of a group 0 frame: the top of the instruction word, the
direction and the function code. -/
def statusWord (ir : U16) (isWrite : Bool) (fc : U16) : U16 :=
  (ir &&& 0xFFE0) ||| (if isWrite then 0 else 0x10) ||| (fc &&& 7)

/-- The function code of an address space. -/
def functionCode (supervisor program : Bool) : U16 :=
  if supervisor then (if program then 6 else 5) else (if program then 2 else 1)

section StatusWord

variable (ir fc : U16) (isWrite : Bool)

theorem statusWord_top : statusWord ir isWrite fc &&& 0xFFE0 = ir &&& 0xFFE0 := by
  have hrw : (if isWrite then (0 : U16) else 0x10) &&& 0xFFE0 = 0 := by cases isWrite <;> rfl
  have hfc : fc &&& 7 &&& 0xFFE0 = 0 := by
    rw [BitVec.and_assoc]
    exact BitVec.and_zero
  rw [statusWord, BitVec.and_comm, BitVec.and_or_distrib_left, BitVec.and_or_distrib_left,
    BitVec.and_comm _ (ir &&& 0xFFE0), BitVec.and_comm _ (if isWrite then _ else _), hrw,
    BitVec.and_comm _ (fc &&& 7), hfc, BitVec.and_assoc]
  simp

theorem statusWord_read : (statusWord ir isWrite fc).getLsbD 4 = !isWrite := by
  rw [statusWord]
  cases isWrite <;> simp

theorem statusWord_space : statusWord ir isWrite fc &&& 7 = fc &&& 7 := by
  have hrw : (if isWrite then (0 : U16) else 0x10) &&& 7 = 0 := by cases isWrite <;> rfl
  have hir : ir &&& 0xFFE0 &&& 7 = 0 := by
    rw [BitVec.and_assoc]
    exact BitVec.and_zero
  rw [statusWord, BitVec.and_comm, BitVec.and_or_distrib_left, BitVec.and_or_distrib_left,
    BitVec.and_comm _ (ir &&& 0xFFE0), BitVec.and_comm _ (if isWrite then _ else _), hrw, hir,
    BitVec.and_comm _ (fc &&& 7), BitVec.and_assoc]
  simp

end StatusWord

/-- The instruction word a fault captures. -/
def capturedWord (s : M68kCpu σ) : U16 := if s.faultBusWordValid then s.faultBusWord else s.ir

/-- The status word a fault captures. -/
theorem capture_ssw (address : U32) (isWrite isProgram : Bool) (s : M68kCpu σ) :
    (captureAccessFault address isWrite isProgram s).faultSsw =
      statusWord (capturedWord s) isWrite
        (functionCode s.supervisor (isProgram || s.operandProgramSpace)) := by
  have hfc : BitVec.ofNat 16 (currentFc s isProgram) &&& 7 =
      functionCode s.supervisor (isProgram || s.operandProgramSpace) &&& 7 := by
    rw [currentFc, functionCode]
    cases s.supervisor <;> cases (isProgram || s.operandProgramSpace) <;> decide
  show (capturedWord s &&& 0xFFE0) ||| _ ||| (BitVec.ofNat 16 (currentFc s isProgram) &&& 7) = _
  rw [hfc]
  rfl

/-- What a faulting access latches. -/
theorem faulting_latches (kind : Access) (size : M68kSize) (address : U32) (s : M68kCpu σ) :
    (faulting kind size address s).faultValid = true ∧
      (faulting kind size address s).faultAddress = address ∧
      (faulting kind size address s).faultIr = capturedWord s ∧
      (faulting kind size address s).faultSsw = statusWord (capturedWord s) (kind == .write)
        (functionCode s.supervisor (kind == .fetch || s.operandProgramSpace)) := by
  rw [faulting, holdGuard_eq]
  exact ⟨rfl, rfl, rfl, capture_ssw address (kind == .write) (kind == .fetch)
    (s.noted (.access kind size address))⟩

/-- What a target prefetch latches. -/
theorem targetFaulting_latches (v : Nat) (target faultPc : U32) (s : M68kCpu σ) :
    (targetFaulting v target faultPc s).faultValid = true ∧
      (targetFaulting v target faultPc s).faultAddress = target ∧
      (targetFaulting v target faultPc s).faultIr = capturedWord s ∧
      (targetFaulting v target faultPc s).faultSsw =
        statusWord (capturedWord s) false (functionCode s.supervisor true) := by
  rw [targetFaulting, holdGuard_eq]
  exact ⟨rfl, rfl, rfl, capture_ssw target false true (charged 50 s)⟩

end M68k
