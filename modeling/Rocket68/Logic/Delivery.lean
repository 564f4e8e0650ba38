import Rocket68.Logic.Frame
import Rocket68.Logic.Memory

/-!
# What a delivered exception leaves behind

The bytes of a frame, read back where they were pushed, and the context after
an exception whose accesses raise nothing.
-/

namespace M68k

open Trap TrapM

variable {σ : Type}

/-! ## The bytes of a frame -/

/-- Byte `a` is one of the `n` below stack pointer `sp`. -/
def InFrame (sp : U32) (n : Nat) (a : U32) : Prop :=
  ∃ i < n, maskAddress24 a = maskAddress24 (sp - BitVec.ofNat 32 (i + 1))

/-- The size of a frame, as a number. -/
def frameLength (frame : List (M68kSize × U32)) : Nat := (frame.map fun e => e.1.bytes.toNat).sum

/-- The bytes one push writes. -/
theorem pushedOne_memory {size : M68kSize} (value : U32) {s : M68kCpu σ} {a : U32}
    (h : ¬InFrame (s.aRegs 7) size.bytes.toNat a) :
    (pushedOne size value s).memory a = s.memory a := by
  have hne (i : U32) (hi : i.toNat < size.bytes.toNat) :
      a ≠ maskAddress24 (s.aRegs 7 - size.bytes) + i := by
    intro heq
    apply h
    refine ⟨size.bytes.toNat - 1 - i.toNat, by omega, ?_⟩
    rw [heq, maskAddress24_add]
    congr 1
    apply BitVec.eq_of_toNat_eq
    have hsize : size.bytes.toNat ≤ 4 := by cases size <;> decide
    simp only [BitVec.toNat_add, BitVec.toNat_sub, BitVec.toNat_ofNat]
    omega
  have h0 : a ≠ maskAddress24 (s.aRegs 7 - size.bytes) := by
    have hfirst := hne 0 (by cases size <;> decide)
    simpa using hfirst
  show (if mapped s size (s.aRegs 7 - size.bytes) then
      storeSized size s.memory (maskAddress24 (s.aRegs 7 - size.bytes)) value
    else s.memory) a = s.memory a
  split
  · cases size with
    | byte => exact Function.update_of_ne h0 _ _
    | word => exact storeWord_other _ _ _ h0 (hne 1 (by decide))
    | long =>
      exact storeLong_other _ _ _ h0 (hne 1 (by decide)) (hne 2 (by decide)) (hne 3 (by decide))
  · rfl

/-- Pushing changes the bytes of the frame only. -/
theorem pushed_memory {frame : List (M68kSize × U32)} {s : M68kCpu σ} {a : U32}
    (h : ¬InFrame (s.aRegs 7) (frameLength frame) a) : (pushed frame s).memory a = s.memory a := by
  induction frame generalizing s with
  | nil => rfl
  | cons e rest ih =>
    have hlength : frameLength (e :: rest) = e.1.bytes.toNat + frameLength rest := by
      simp [frameLength]
    have hfirst : ¬InFrame (s.aRegs 7) e.1.bytes.toNat a := by
      rintro ⟨i, hi, heq⟩
      exact h ⟨i, by omega, heq⟩
    have hrest : ¬InFrame ((pushedOne e.1 e.2 s).aRegs 7) (frameLength rest) a := by
      rintro ⟨i, hi, heq⟩
      refine h ⟨e.1.bytes.toNat + i, by omega, ?_⟩
      rw [heq, pushedOne_a7]
      congr 1
      apply BitVec.eq_of_toNat_eq
      simp only [BitVec.toNat_sub, BitVec.toNat_ofNat]
      omega
    rw [pushed, ih hrest, pushedOne_memory e.2 hfirst]

/-- The word at the stack pointer lies above what is pushed next. -/
theorem wordAt_pushed {frame : List (M68kSize × U32)} (h : frameLength frame < 2 ^ 16)
    (s : M68kCpu σ) :
    wordAt (pushed frame s).memory (maskAddress24 (s.aRegs 7)) =
      wordAt s.memory (maskAddress24 (s.aRegs 7)) := by
  have hout (n : U32) (hn : n.toNat < 2) :
      ¬InFrame (s.aRegs 7) (frameLength frame) (maskAddress24 (s.aRegs 7) + n) := by
    rintro ⟨i, hi, heq⟩
    rw [maskAddress24_add] at heq
    have hnat := congrArg BitVec.toNat heq
    simp only [maskAddress24_toNat, BitVec.toNat_add, BitVec.toNat_sub, BitVec.toNat_ofNat] at hnat
    omega
  have h0 : ¬InFrame (s.aRegs 7) (frameLength frame) (maskAddress24 (s.aRegs 7)) := by
    simpa using hout 0 (by decide)
  exact wordAt_congr (pushed_memory h0) (pushed_memory (hout 1 (by decide)))

/-! ## The normal frame -/

/-- The size of the normal frame. -/
def normalBytes (model : M68kModel) : U32 := if model.is68010 then 8 else 6

theorem frameOf_normal {v : Nat} (hv : v ≠ 2 ∧ v ≠ 3) (s : M68kCpu σ) :
    frameOf v s =
      if s.model.is68010 then
        [(.word, (BitVec.ofNat 16 (v * 4)).setWidth 32), (.long, stackedPc v s),
          (.word, s.sr.setWidth 32)]
      else [(.long, stackedPc v s), (.word, s.sr.setWidth 32)] := by
  rw [frameOf, if_neg (by omega)]

/-- A normal frame holds the status register, then the PC, then on the 68010 the
vector. -/
structure Holds (memory : U32 → U8) (model : M68kModel) (sp : U32) (sr : U16) (pc : U32)
    (v : Nat) : Prop where
  sr : wordAt memory (maskAddress24 sp) = sr
  pc : longAt memory (maskAddress24 (sp + 2)) = pc
  vector : model.is68010 = true →
    wordAt memory (maskAddress24 (sp + 6)) = BitVec.ofNat 16 (v * 4)

/-- The accesses RTE makes to a normal frame. -/
structure Poppable (s : M68kCpu σ) (sp : U32) : Prop where
  sr : accessible s .word sp = true
  pc : accessible s .long (sp + 2) = true
  vector : s.model.is68010 = true → accessible s .word (sp + 6) = true

theorem pushedOne_memory_mapped {size : M68kSize} {value : U32} {s : M68kCpu σ}
    (h : accessible s size (s.aRegs 7 - size.bytes) = true) :
    (pushedOne size value s).memory =
      storeSized size s.memory (maskAddress24 (s.aRegs 7 - size.bytes)) value :=
  if_pos (Bool.and_eq_true_iff.mp h).2

theorem accessible_pushedOne (size size' : M68kSize) (value address : U32) (s : M68kCpu σ) :
    accessible (pushedOne size value s) size' address = accessible s size' address := rfl

theorem fits_cons {size : M68kSize} {value sp : U32} {rest : List (M68kSize × U32)} {s : M68kCpu σ}
    (h : fits s sp ((size, value) :: rest) = true) :
    accessible s size (sp - size.bytes) = true ∧ fits s (sp - size.bytes) rest = true :=
  Bool.and_eq_true_iff.mp h

/-- The two pushes every normal frame ends with. -/
theorem pushed_pc_sr (sp pc : U32) (sr : U16) {s : M68kCpu σ} (hsp : s.aRegs 7 = sp + 6)
    (hfits : fits s (s.aRegs 7) [(.long, pc), (.word, sr.setWidth 32)] = true) :
    (pushed [(.long, pc), (.word, sr.setWidth 32)] s).memory =
      storeWord (storeLong s.memory (maskAddress24 (sp + 2)) pc) (maskAddress24 sp) sr := by
  obtain ⟨hlong, hrest⟩ := fits_cons hfits
  obtain ⟨hword, -⟩ := fits_cons hrest
  have hpc : s.aRegs 7 - M68kSize.long.bytes = sp + 2 := by
    rw [hsp]
    show sp + 6 - 4 = sp + 2
    bv_omega
  have hsr : (pushedOne .long pc s).aRegs 7 - M68kSize.word.bytes = sp := by
    rw [pushedOne_a7, hpc]
    show sp + 2 - 2 = sp
    bv_omega
  have hword' : accessible (pushedOne .long pc s) .word
      ((pushedOne .long pc s).aRegs 7 - M68kSize.word.bytes) = true := by
    rw [accessible_pushedOne, pushedOne_a7]
    exact hword
  rw [pushed, pushed, pushed, pushedOne_memory_mapped hword', pushedOne_memory_mapped hlong, hsr,
    hpc]
  simp [storeSized]

/-- What the pushes of a normal frame leave. -/
theorem holds_pushed {v : Nat} (hv : v ≠ 2 ∧ v ≠ 3) {s t : M68kCpu σ}
    (hfits : fits t (t.aRegs 7) (frameOf v s) = true) :
    Holds (pushed (frameOf v s) t).memory s.model (t.aRegs 7 - normalBytes s.model) s.sr
      (stackedPc v s) v := by
  rw [frameOf_normal hv] at hfits ⊢
  have hoffset (sp : U32) : Offset sp 0 (maskAddress24 sp) := by
    have h := offset_mask sp 0
    simpa using h
  cases hmodel : s.model with
  | m68000 =>
    rw [hmodel, if_neg (by decide)] at hfits
    rw [if_neg (by decide), pushed_pc_sr (t.aRegs 7 - normalBytes .m68000) _ _
      (by show _ = _ - 6 + 6; bv_omega) hfits]
    -- the short frame: PC, then SR below it
    refine ⟨wordAt_storeWord _ _ _, ?_, fun h => by cases h⟩
    exact (longAt_storeWord_apart (offset_mask _ 2) (hoffset _) (by omega) (by omega) (by omega)
      _).trans (longAt_storeLong _ _ _)
  | m68010 =>
    rw [hmodel, if_pos (by decide)] at hfits
    rw [if_pos (by decide), pushed]
    -- the 68010 pushes the vector offset first
    obtain ⟨hword, hrest⟩ := fits_cons hfits
    have hvector : t.aRegs 7 - M68kSize.word.bytes = t.aRegs 7 - normalBytes .m68010 + 6 := by
      show t.aRegs 7 - 2 = t.aRegs 7 - 8 + 6
      bv_omega
    rw [pushed_pc_sr (t.aRegs 7 - normalBytes .m68010) _ _
      ((pushedOne_a7 _ _ _).trans hvector) (by rw [pushedOne_a7]; exact hrest),
      pushedOne_memory_mapped hword, hvector]
    refine ⟨wordAt_storeWord _ _ _, ?_, fun _ => ?_⟩
    · exact (longAt_storeWord_apart (offset_mask _ 2) (hoffset _) (by omega) (by omega) (by omega)
        _).trans (longAt_storeLong _ _ _)
    · refine (wordAt_storeWord_apart (offset_mask _ 6) (hoffset _) (by omega) (by omega)
        (by omega) _).trans ?_
      refine (wordAt_storeLong_apart (offset_mask _ 6) (offset_mask _ 2) (by omega) (by omega)
        (by omega) _).trans ?_
      simp [storeSized, wordAt_storeWord]

/-! ## Delivered exceptions -/

theorem fits_congr {s t : M68kCpu σ} (h : t.memorySize = s.memorySize) (sp : U32)
    (frame : List (M68kSize × U32)) : fits t sp frame = fits s sp frame := by
  induction frame generalizing sp with
  | nil => rfl
  | cons e rest ih => simp only [fits, ih, accessible, mapped, isValidAddress, h]

/-- Only the sizes of a frame decide where it fits. -/
theorem fits_sizes {s : M68kCpu σ} {frame frame' : List (M68kSize × U32)}
    (h : frame.map Prod.fst = frame'.map Prod.fst) (sp : U32) :
    fits s sp frame = fits s sp frame' := by
  induction frame generalizing frame' sp with
  | nil =>
    cases frame' with
    | nil => rfl
    | cons e rest => cases h
  | cons e rest ih =>
    cases frame' with
    | nil => cases h
    | cons e' rest' =>
      obtain ⟨hsize, hrest⟩ := List.cons_eq_cons.mp h
      obtain ⟨size, value⟩ := e
      obtain ⟨size', value'⟩ := e'
      cases hsize
      rw [fits, fits, ih hrest]

theorem frameOf_sizes {v : Nat} {s t : M68kCpu σ} (hmodel : t.model = s.model) :
    (frameOf v t).map Prod.fst = (frameOf v s).map Prod.fst := by
  unfold frameOf
  rw [hmodel]
  by_cases hv : v = 2 ∨ v = 3
  · rw [if_pos hv, if_pos hv]
    rfl
  · rw [if_neg hv, if_neg hv]
    cases s.model <;> rfl

theorem fits_frameOf {v : Nat} {s t : M68kCpu σ} (hmodel : t.model = s.model)
    (hsize : t.memorySize = s.memorySize) (sp : U32) :
    fits t sp (frameOf v t) = fits s sp (frameOf v s) :=
  (fits_sizes (frameOf_sizes hmodel) sp).trans (fits_congr hsize sp _)

theorem pushFaults_of_fits {frame : List (M68kSize × U32)} {s : M68kCpu σ}
    (h : fits s (s.aRegs 7) frame = true) : pushFaults frame s = false := by
  induction frame generalizing s with
  | nil => rfl
  | cons e rest ih =>
    obtain ⟨hacc, hrest⟩ := fits_cons h
    have htail : fits (pushedOne e.1 e.2 s) ((pushedOne e.1 e.2 s).aRegs 7) rest = true := by
      rw [pushedOne_a7]
      exact (fits_congr (s := s) (t := pushedOne e.1 e.2 s) rfl _ _).trans hrest
    rw [pushFaults, ih htail, faultsAt_of_accessible hacc]
    rfl

theorem entered_a7 (v : Nat) (s : M68kCpu σ) : (entered v s).aRegs 7 = s.supervisorSp := by
  rw [entered_eq]
  exact Function.update_self (7 : Fin 8) _ s.aRegs

theorem fits_entered (v : Nat) (s : M68kCpu σ) :
    fits (entered v s) ((entered v s).aRegs 7) (frameOf v s) =
      fits s s.supervisorSp (frameOf v s) := by
  rw [entered_a7]
  refine fits_congr ?_ _ _
  rw [entered_eq]
  rfl

/-- The vector table has an entry for `v`: the base is even and the entry mapped. -/
def hasVector (v : Nat) (s : M68kCpu σ) : Bool :=
  !isOdd s.vbr && mapped s .long (vectorAddress v s)

theorem hasVector_congr {v : Nat} {s t : M68kCpu σ} (hvbr : t.vbr = s.vbr)
    (hsize : t.memorySize = s.memorySize) : hasVector v t = hasVector v s := by
  rw [hasVector, hasVector, vectorAddress, vectorAddress, hvbr]
  simp only [mapped, isValidAddress, hsize]

theorem isOdd_vectorAddress (v : Nat) (s : M68kCpu σ) :
    isOdd (vectorAddress v s) = isOdd s.vbr := by
  rw [isOdd_toNat, isOdd_toNat, vectorAddress]
  have hfour : (4 : U32).toNat = 4 := rfl
  congr 1
  simp only [BitVec.toNat_add, BitVec.toNat_mul, BitVec.toNat_ofNat, hfour, eq_iff_iff]
  omega

theorem accessible_vector {v : Nat} {s : M68kCpu σ} (h : hasVector v s = true) :
    accessible s .long (vectorAddress v s) = true := by
  rw [accessible, misaligned, isOdd_vectorAddress]
  exact h

/-- An exception whose frame and vector are accessible is delivered. -/
theorem exceptionFaults_of_fits {v : Nat} {s : M68kCpu σ}
    (hframe : fits s s.supervisorSp (frameOf v s) = true) (hvector : hasVector v s = true) :
    exceptionFaults v s = false := by
  rw [exceptionFaults, pushFaults_of_fits ((fits_entered v s).trans hframe),
    faultsAt_of_accessible (accessible_vector hvector)]
  rfl

theorem delivered_sr (v : Nat) (s : M68kCpu σ) : (delivered v s).sr = handlerSr s.sr := by
  show (pushed (frameOf v s) (entered v s)).sr = _
  rw [pushed_sr, entered_eq]

theorem delivered_supervisor (v : Nat) (s : M68kCpu σ) : (delivered v s).supervisor = true := by
  rw [supervisor_eq, delivered_sr]
  exact handlerSr_supervisor _

theorem delivered_a7 (v : Nat) (s : M68kCpu σ) :
    (delivered v s).aRegs 7 = s.supervisorSp - frameSize (frameOf v s) := by
  show (pushed (frameOf v s) (entered v s)).aRegs 7 = _
  rw [pushed_a7, entered_a7]

theorem delivered_kept (v : Nat) (s : M68kCpu σ) : kept (delivered v s) = kept s := by
  have hpushed : kept (pushed (frameOf v s) (entered v s)) = kept (entered v s) := by
    rw [pushed_eq]
    exact (inside_setA7 (entered_inHandler v s) _).kept
  show { kept (pushed (frameOf v s) (entered v s)) with
    exceptionDepth := (kept (pushed (frameOf v s) (entered v s))).exceptionDepth - 1 } = kept s
  rw [hpushed, kept_entered]
  simp only [Int.add_sub_cancel]
  rfl

/-- A delivered exception is observed as its pushes and its vector fetch. -/
theorem delivered_events (v : Nat) (s : M68kCpu σ) :
    (delivered v s).log =
      .access .read .long (vectorAddress v s) :: pushEvents s.supervisorSp (frameOf v s) ++
        .exception v :: s.log := by
  have hentered : (entered v s).log = .exception v :: s.log := by
    rw [entered_eq]
    rfl
  show .access .read .long (vectorAddress v s) :: (pushed (frameOf v s) (entered v s)).log = _
  rw [pushed_events, hentered, entered_a7]
  rfl

theorem delivered_log (v : Nat) (s : M68kCpu σ) :
    ∃ evs, (delivered v s).log = evs ++ .exception v :: s.log ∧
      ∀ e ∈ evs, ∃ kind size address, kind ≠ .fetch ∧ e = .access kind size address := by
  refine ⟨_, delivered_events v s, fun e he => ?_⟩
  rcases List.mem_cons.mp he with rfl | hmem
  · exact ⟨_, _, _, by decide, rfl⟩
  · obtain ⟨size, address, heq⟩ := mem_pushEvents hmem
    exact ⟨_, _, _, by decide, heq⟩

/-- The PC of a delivered exception is the long word at its vector, where that is
mapped. -/
theorem delivered_pc_of_mapped {v : Nat} {s : M68kCpu σ}
    (hf : faultsAt .long (vectorAddress v s) s = false)
    (hm : mapped s .long (vectorAddress v s) = true) :
    (delivered v s).pc = longAt (delivered v s).memory (maskAddress24 (vectorAddress v s)) := by
  have hfixed : (framed v s).memorySize = s.memorySize ∧
      (framed v s).inAddressError = s.inAddressError := by
    rw [framed, pushed_eq, entered_eq]
    exact ⟨rfl, rfl⟩
  obtain ⟨hsize, haddr⟩ := hfixed
  have hmapped : mapped (framed v s) .long (vectorAddress v s) = true := by
    rw [← hm]
    simp only [mapped, isValidAddress, hsize]
  have hodd : (isOdd (vectorAddress v s) && !s.inAddressError) = false := by
    rw [faultsAt, Bool.or_eq_false_iff] at hf
    exact hf.1
  show entry (framed v s) (vectorAddress v s) = longAt (framed v s).memory _
  rw [entry, haddr, hodd, hmapped]
  rfl

theorem delivered_pc {v : Nat} {s : M68kCpu σ} (hvector : hasVector v s = true) :
    (delivered v s).pc = longAt (delivered v s).memory (maskAddress24 (vectorAddress v s)) :=
  delivered_pc_of_mapped (faultsAt_of_accessible (accessible_vector hvector))
    (Bool.and_eq_true_iff.mp hvector).2

/-- A delivered exception changes the bytes of its frame only. -/
theorem delivered_memory {v : Nat} {s : M68kCpu σ} {a : U32}
    (h : ¬InFrame s.supervisorSp (frameLength (frameOf v s)) a) :
    (delivered v s).memory a = s.memory a := by
  have hentered : (entered v s).memory = s.memory := by
    rw [entered_eq]
    rfl
  show (pushed (frameOf v s) (entered v s)).memory a = s.memory a
  rw [pushed_memory (by rwa [entered_a7]), hentered]

theorem frameSize_normal {v : Nat} (hv : v ≠ 2 ∧ v ≠ 3) (s : M68kCpu σ) :
    frameSize (frameOf v s) = normalBytes s.model ∧
      frameLength (frameOf v s) = if s.model.is68010 then 8 else 6 := by
  rw [frameOf_normal hv]
  cases s.model <;> exact ⟨rfl, rfl⟩

/-- A delivered exception leaves a frame that RTE can pop. -/
theorem delivered_frame {v : Nat} (hv : v ≠ 2 ∧ v ≠ 3) {s : M68kCpu σ}
    (hframe : fits s s.supervisorSp (frameOf v s) = true) :
    (delivered v s).aRegs 7 = s.supervisorSp - normalBytes s.model ∧
      Poppable (delivered v s) ((delivered v s).aRegs 7) ∧
      Holds (delivered v s).memory (delivered v s).model ((delivered v s).aRegs 7) s.sr
        (stackedPc v s) v := by
  have ha7 : (delivered v s).aRegs 7 = s.supervisorSp - normalBytes s.model :=
    (delivered_a7 v s).trans (by rw [(frameSize_normal hv s).1])
  have hmodel : (delivered v s).model = s.model := congrArg Kept.model (delivered_kept v s)
  have hsize : (delivered v s).memorySize = s.memorySize :=
    congrArg Kept.memorySize (delivered_kept v s)
  have hholds := holds_pushed hv ((fits_entered v s).trans hframe)
  rw [entered_a7] at hholds
  refine ⟨ha7, ?_, ?_⟩
  · have hacc (size : M68kSize) (address : U32) :
        accessible (delivered v s) size address = accessible s size address := by
      simp only [accessible, mapped, isValidAddress, hsize]
    rw [ha7]
    rw [frameOf_normal hv] at hframe
    cases h : s.model with
    | m68000 =>
      rw [h, if_neg (by decide)] at hframe
      obtain ⟨hlong, hrest⟩ := fits_cons hframe
      obtain ⟨hword, -⟩ := fits_cons hrest
      have hpc : s.supervisorSp - 6 + 2 = s.supervisorSp - 4 := by bv_omega
      have hsr : s.supervisorSp - 6 = s.supervisorSp - 4 - 2 := by bv_omega
      refine ⟨?_, ?_, fun h' => ?_⟩
      · rw [hacc]
        exact hsr ▸ hword
      · rw [hacc]
        exact hpc ▸ hlong
      · rw [hmodel, h] at h'
        cases h'
    | m68010 =>
      rw [h, if_pos (by decide)] at hframe
      obtain ⟨hvector, hrest⟩ := fits_cons hframe
      obtain ⟨hlong, hrest⟩ := fits_cons hrest
      obtain ⟨hword, -⟩ := fits_cons hrest
      have hvec : s.supervisorSp - 8 + 6 = s.supervisorSp - 2 := by bv_omega
      have hpc : s.supervisorSp - 8 + 2 = s.supervisorSp - 2 - 4 := by bv_omega
      have hsr : s.supervisorSp - 8 = s.supervisorSp - 2 - 4 - 2 := by bv_omega
      refine ⟨?_, ?_, fun _ => ?_⟩
      · rw [hacc]
        exact hsr ▸ hword
      · rw [hacc]
        exact hpc ▸ hlong
      · rw [hacc]
        exact hvec ▸ hvector
  · rw [ha7, hmodel]
    exact hholds

/-- The status register in the frame of a bus or address error, where its push
reached memory. -/
theorem delivered_group0_sr {v : Nat} (hv : v = 2 ∨ v = 3) {s : M68kCpu σ}
    (hm : mapped s .word (s.supervisorSp - 6) = true) :
    wordAt (delivered v s).memory (maskAddress24 (s.supervisorSp - 6)) = s.sr := by
  let u := pushedOne .long (stackedPc v s) (entered v s)
  let rest : List (M68kSize × U32) :=
    [(.word, (if s.faultValid then s.faultIr else s.ir).setWidth 32),
    (.long, if s.faultValid then s.faultAddress else 0),
    (.word, (if s.faultValid then s.faultSsw else 0).setWidth 32)]
  have hpushed : pushed (frameOf v s) (entered v s) =
      pushed rest (pushedOne .word (s.sr.setWidth 32) u) := by
    rw [frameOf, if_pos hv, pushed, pushed]
  have hsix : s.supervisorSp - 4 - 2 = s.supervisorSp - 6 := by bv_omega
  have hsp : u.aRegs 7 - M68kSize.word.bytes = s.supervisorSp - 6 := by
    rw [pushedOne_a7, entered_a7]
    exact hsix
  have ha7 : (pushedOne .word (s.sr.setWidth 32) u).aRegs 7 = s.supervisorSp - 6 :=
    (pushedOne_a7 _ _ _).trans hsp
  have hsize : u.memorySize = s.memorySize := by
    show (entered v s).memorySize = s.memorySize
    rw [entered_eq]
    rfl
  -- SR goes out second; the pushes after it lie below and leave it
  have hmapped : mapped u .word (u.aRegs 7 - M68kSize.word.bytes) = true := by
    rw [hsp, ← hm]
    simp only [mapped, isValidAddress, hsize]
  have hstored : wordAt (pushedOne .word (s.sr.setWidth 32) u).memory
      (maskAddress24 (s.supervisorSp - 6)) = s.sr := by
    rw [pushedOne, if_pos hmapped, hsp]
    simp [storeSized, wordAt_storeWord]
  have hrest : frameLength rest < 2 ^ 16 := by
    show 8 < 2 ^ 16
    decide
  have hkept := wordAt_pushed hrest (pushedOne .word (s.sr.setWidth 32) u)
  rw [ha7, hstored, ← hpushed] at hkept
  exact hkept

/-! ## RTE -/

section Rte

variable {k : Option (Nat → M68kCpu σ → M68kCpu σ × U32)} {s : M68kCpu σ}

/-- The context RTE resumes, with its stack pointer at `sp`. -/
def resumed (sr : U16) (pc sp : U32) (log : List Event) (s : M68kCpu σ) : M68kCpu σ :=
  { withSr sr { s with aRegs := Function.update s.aRegs 7 sp, log := log } with pc := pc }

theorem privileged_run (h : Host σ) (hsup : s.supervisor = true) (body : M σ Unit) :
    privileged body h s = body h s := by
  have hS : (s.sr &&& srS == 0) = false := by simpa [M68kCpu.supervisor] using hsup
  simp only [privileged, getSr, gets_bind, hS, Bool.false_eq_true, if_false]

/-- After a pop. -/
def popped (size : M68kSize) (s : M68kCpu σ) : M68kCpu σ :=
  { s.noted (.access .read size (s.aRegs 7)) with
    aRegs := Function.update s.aRegs 7 (s.aRegs 7 + size.bytes) }

@[simp] theorem popped_a7 (size : M68kSize) (s : M68kCpu σ) :
    (popped size s).aRegs 7 = s.aRegs 7 + size.bytes := by
  simp [popped]

theorem pop16_hit (h : accessible s .word (s.aRegs 7) = true) :
    pop16 (ackHost k) s =
      .ok (wordAt s.memory (maskAddress24 (s.aRegs 7))) (popped .word s) := by
  rw [pop16, getA, gets_bind, bind_ok (read16_hit k h)]
  rfl

theorem pop32_hit (h : accessible s .long (s.aRegs 7) = true) :
    pop32 (ackHost k) s =
      .ok (longAt s.memory (maskAddress24 (s.aRegs 7))) (popped .long s) := by
  rw [pop32, getA, gets_bind, bind_ok (read32_hit k h)]
  rfl

theorem rte68000_run {v : Nat} {sr : U16} {pc : U32} (hpop : Poppable s (s.aRegs 7))
    (hholds : Holds s.memory s.model (s.aRegs 7) sr pc v) :
    ∃ log, rte68000 (ackHost k) s = .ok () (resumed sr pc (s.aRegs 7 + 6) log s) := by
  have ha7 : (popped .word s).aRegs 7 = s.aRegs 7 + 2 := popped_a7 .word s
  have hlong : accessible (popped .word s) .long ((popped .word s).aRegs 7) = true := by
    rw [ha7]
    exact hpop.pc
  have hpc : longAt (popped .word s).memory (maskAddress24 ((popped .word s).aRegs 7)) = pc := by
    rw [ha7]
    exact hholds.pc
  have hpopped : popped .long (popped .word s) =
      { s with
        aRegs := Function.update s.aRegs 7 (s.aRegs 7 + 6)
        log := (popped .long (popped .word s)).log } := by
    have hadd : s.aRegs 7 + M68kSize.word.bytes + M68kSize.long.bytes = s.aRegs 7 + 6 := by
      rw [BitVec.add_assoc]
      rfl
    simp only [popped, M68kCpu.noted, Function.update_self, Function.update_idem, hadd]
  refine ⟨(popped .long (popped .word s)).log, ?_⟩
  rw [rte68000, bind_ok (pop16_hit hpop.sr), bind_ok (pop32_hit hlong), hholds.sr, hpc, hpopped]
  rfl

/-- The format nibble of a pushed vector word is 0. -/
theorem format_zero {v : Nat} (hv : v < 1024) : BitVec.ofNat 16 (v * 4) &&& 0xF000 = 0 := by
  have hlow : ∀ i : Fin 12, (0xF000 : U16).getLsbD i = false := by decide
  apply BitVec.eq_of_getLsbD_eq
  intro i hi
  rw [BitVec.getLsbD_and]
  by_cases h12 : i < 12
  · rw [hlow ⟨i, h12⟩, Bool.and_false]
    exact BitVec.getLsbD_zero.symm
  · have hpow : 2 ^ 12 ≤ 2 ^ i := Nat.pow_le_pow_right (by decide) (by omega)
    have hbit : (v * 4).testBit i = false := Nat.testBit_lt_two_pow (by omega)
    rw [BitVec.getLsbD_ofNat, hbit, Bool.and_false, Bool.false_and]
    exact BitVec.getLsbD_zero.symm

theorem rte68010_run {v : Nat} {sr : U16} {pc : U32} (hv : v < 1024)
    (hmodel : s.model.is68010 = true) (hpop : Poppable s (s.aRegs 7))
    (hholds : Holds s.memory s.model (s.aRegs 7) sr pc v) :
    ∃ log, rte68010 (ackHost k) s = .ok () (resumed sr pc (s.aRegs 7 + 8) log s) := by
  let t := s.noted (.access .read .word (s.aRegs 7 + 6))
  let u := t.noted (.access .read .word (s.aRegs 7))
  have hvector := read16_hit k (s := s) (hpop.vector hmodel)
  have hword : read16 (s.aRegs 7) (ackHost k) t = .ok sr u := by
    rw [read16_hit k (s := t) hpop.sr, ← hholds.sr]
    rfl
  have hlong : read32 (s.aRegs 7 + 2) (ackHost k) u =
      .ok pc (u.noted (.access .read .long (s.aRegs 7 + 2))) := by
    rw [read32_hit k (s := u) hpop.pc, ← hholds.pc]
    rfl
  have hformat : (BitVec.ofNat 16 (v * 4) &&& 0xF000 != 0) = false := by
    rw [format_zero hv]
    rfl
  rw [hholds.vector hmodel] at hvector
  refine ⟨.access .read .long (s.aRegs 7 + 2) :: u.log, ?_⟩
  rw [rte68010, getA, gets_bind, bind_ok hvector, hformat, if_neg Bool.false_ne_true,
    bind_ok hword, bind_ok hlong, setA, modify_bind]
  -- Nested updates are flattened first: `rfl` would compare them field by field.
  simp only [t, u, M68kCpu.noted]
  rfl

/-- RTE pops a normal frame. -/
theorem execRte_run (opcode : U16) {v : Nat} {sr : U16} {pc : U32} (hv : v < 1024)
    (hsup : s.supervisor = true) (hpop : Poppable s (s.aRegs 7))
    (hholds : Holds s.memory s.model (s.aRegs 7) sr pc v) :
    ∃ log, execRte opcode (ackHost k) s =
      .ok () (resumed sr pc (s.aRegs 7 + normalBytes s.model) log s) := by
  rw [execRte, privileged_run _ hsup, getModel, gets_bind]
  cases hmodel : s.model with
  | m68000 =>
    rw [if_neg (by decide)]
    exact rte68000_run hpop hholds
  | m68010 =>
    rw [if_pos (by decide)]
    exact rte68010_run hv (by rw [hmodel]; rfl) hpop hholds

/-- Resuming from a handler state with the stack pointers of `s`. -/
theorem resumed_restores {t : M68kCpu σ} (pc : U32) (log : List Event)
    (hsr : s.sr &&& srMask = s.sr)
    (hsup : t.supervisor = true) (husp : t.userSp = s.userSp)
    (hlow : Function.update t.aRegs 7 0 = Function.update s.aRegs 7 0) :
    (resumed s.sr pc s.supervisorSp log t).sr = s.sr ∧
      (resumed s.sr pc s.supervisorSp log t).aRegs = s.aRegs ∧
      (resumed s.sr pc s.supervisorSp log t).userSp = s.userSp ∧
      (resumed s.sr pc s.supervisorSp log t).supervisorSp = s.supervisorSp := by
  let w : M68kCpu σ := { t with aRegs := Function.update t.aRegs 7 s.supervisorSp, log := log }
  have hw : w.supervisor = true := hsup
  have hwuser : w.userSp = s.userSp := by
    rw [← husp, M68kCpu.userSp, if_pos hw, M68kCpu.userSp, if_pos hsup]
  have hwsuper : w.supervisorSp = s.supervisorSp := by
    rw [M68kCpu.supervisorSp, if_pos hw]
    exact Function.update_self (7 : Fin 8) _ t.aRegs
  obtain ⟨huser, hsuper⟩ := withSr_banks s.sr w
  refine ⟨?_, ?_, huser.trans hwuser, hsuper.trans hwsuper⟩
  · show (withSr s.sr w).sr = s.sr
    rw [withSr_eq]
    exact hsr
  · show (withSr s.sr w).aRegs = s.aRegs
    -- A7 comes back from the bank that SR selects
    have hbank : (if s.supervisor = true then s.supervisorSp else s.userSp) = s.aRegs 7 := by
      cases h : s.supervisor <;> simp [M68kCpu.userSp, M68kCpu.supervisorSp, h]
    have hupdate (x : U32) : Function.update t.aRegs 7 x = Function.update s.aRegs 7 x := by
      have h := congrArg (Function.update · 7 x) hlow
      simpa using h
    rw [withSr_eq, hsr]
    show Function.update (Function.update t.aRegs 7 s.supervisorSp) 7
      (if s.supervisor = true then w.supervisorSp else w.userSp) = s.aRegs
    rw [hwuser, hwsuper, hbank, Function.update_idem, hupdate]
    simp

end Rte

end M68k
