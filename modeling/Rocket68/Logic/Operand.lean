import Rocket68.Logic.Yield

/-!
# Operands

What an effective address names, and what resolving it moves: the extension words it takes
and the step of `(An)+` and `-(An)`. `calcEaEx_yields` says once that the resolution routine
of the source does this and no more.
-/

namespace M68k

open Trap TrapM

variable {σ : Type} {k : Option (Nat → M68kCpu σ → M68kCpu σ × U32)}

/-- An effective address field with the size it is used at. -/
structure Operand where
  mode : Fin 8
  reg : Fin 8
  size : M68kSize
  deriving DecidableEq, Repr

/-- The second word from the PC on. -/
def Core.nextWord (c : Core) : U16 := wordAt c.memory (maskAddress24 (c.pc + 2))

/-- Two words from the PC on, high half first. -/
def Core.long (c : Core) : U32 := (c.word.setWidth 32 <<< 16) ||| c.nextWord.setWidth 32

/-- The index register of a brief extension word, sized. -/
def Core.index (c : Core) (ext : U16) : U32 :=
  let x := if ext.getLsbD 15 then c.aRegs (field ext 12) else c.dRegs (field ext 12)
  if ext.getLsbD 11 then x else sext16 x

/-- The immediate of the given size from the PC on. -/
def Core.immediate (size : M68kSize) (c : Core) : U32 :=
  match size with
  | .byte => c.word.setWidth 32 &&& 0xFF
  | .word => c.word.setWidth 32
  | .long => c.long

namespace Operand

/-- The bytes of the extension words. -/
def extension (o : Operand) : U32 :=
  match o.mode with
  | 5 | 6 => 2
  | 7 =>
      match o.reg with
      | 0 | 2 | 3 => 2
      | 1 => 4
      | 4 => if o.size = .long then 4 else 2
      | _ => 0
  | _ => 0

/-- Neither a register nor an immediate. -/
def inMemory (o : Operand) : Bool := 2 ≤ o.mode && !(o.mode == 7 && 4 ≤ o.reg)

/-- The effective address, from the state in which its extension words come next. -/
def address (o : Operand) (c : Core) : U32 :=
  match o.mode with
  | 2 | 3 => c.aRegs o.reg
  | 4 => c.aRegs o.reg - stepSize o.reg o.size
  | 5 => c.aRegs o.reg + c.word.signExtend 32
  | 6 => c.aRegs o.reg + c.index c.word + sext8 (c.word.setWidth 32)
  | 7 =>
      match o.reg with
      | 0 => sext16 (c.word.setWidth 32)
      | 1 => c.long
      | 2 => c.pc + c.word.signExtend 32
      | 3 => c.pc + c.index c.word + sext8 (c.word.setWidth 32)
      | _ => 0
  | _ => 0

/-- The address registers after `(An)+` or `-(An)`. -/
def stepped (o : Operand) (aRegs : Fin 8 → U32) : Fin 8 → U32 :=
  match o.mode with
  | 3 => Function.update aRegs o.reg (aRegs o.reg + stepSize o.reg o.size)
  | 4 => Function.update aRegs o.reg (aRegs o.reg - stepSize o.reg o.size)
  | _ => aRegs

/-- The value of the operand, from the state in which its extension words come next. -/
def value (o : Operand) (c : Core) : U32 :=
  if o.mode = 0 then c.dRegs o.reg
  else if o.mode = 1 then c.aRegs o.reg
  else if o.inMemory then loadSized o.size c.memory (maskAddress24 (o.address c))
  else c.immediate o.size

/-- The state past the operand. -/
def next (o : Operand) (c : Core) : Core :=
  { c with aRegs := o.stepped c.aRegs, pc := c.pc + o.extension }

end Operand

/-- The operand `o` was resolved to `ea`, and read if `fetchValue` asked for it. -/
structure Located (o : Operand) (fetchValue : Bool) (ea : Ea) (c d : Core) : Prop where
  legal : o.mode = 7 → o.reg ≤ 4
  core : d = if fetchValue && o.inMemory then (o.next c).seen .read o.size (o.address c)
    else o.next c
  isReg : ea.isReg = !o.inMemory
  isAddr : ea.isAddr = (o.mode == 1)
  regNum : o.mode < 2 → ea.regNum = o.reg
  address : o.inMemory = true → ea.address = o.address c
  dataValue : o.mode = 0 → ea.value = c.dRegs o.reg
  addressValue : o.mode = 1 → ea.value = c.aRegs o.reg
  memoryValue : o.inMemory = true → fetchValue = true →
    ea.value = loadSized o.size c.memory (maskAddress24 (o.address c))
  immediateValue : o.mode = 7 → o.inMemory = false → ea.value = c.immediate o.size

/-- A read operand has its value. -/
theorem Located.value {o : Operand} {ea : Ea} {c d : Core} (h : Located o true ea c d) :
    ea.value = o.value c := by
  unfold Operand.value
  by_cases h0 : o.mode = 0
  · rw [if_pos h0, h.dataValue h0]
  by_cases h1 : o.mode = 1
  · rw [if_neg h0, if_pos h1, h.addressValue h1]
  by_cases hmemory : o.inMemory = true
  · rw [if_neg h0, if_neg h1, if_pos hmemory, h.memoryValue hmemory rfl]
  · have key : ∀ mode reg : Fin 8, mode ≠ 0 → mode ≠ 1 →
        ¬(2 ≤ mode && !(mode == 7 && 4 ≤ reg)) = true → mode = 7 := by decide
    rw [if_neg h0, if_neg h1, if_neg hmemory]
    exact h.immediateValue (key _ _ h0 h1 hmemory) (Bool.eq_false_iff.mpr hmemory)

/-! ## Resolution -/

/-- An operand found in memory at `a`. -/
structure Found (a : U32) (size : M68kSize) (fetchValue : Bool) (ea : Ea) (c d : Core) : Prop where
  core : d = if fetchValue then c.seen .read size a else c
  isReg : ea.isReg = false
  isAddr : ea.isAddr = false
  address : ea.address = a
  value : fetchValue = true → ea.value = loadSized size c.memory (maskAddress24 a)

theorem eaMemory_yields (address : U32) (size : M68kSize) (fetchValue : Bool) :
    Yields k (eaMemory address size fetchValue : M σ Ea) (Found address size fetchValue) := by
  unfold eaMemory
  cases fetchValue with
  | true =>
    refine .bind (readSize_yields address size) fun v => .pure ?_
    rintro _ c ⟨rfl, rfl⟩
    exact ⟨rfl, rfl, rfl, rfl, fun _ => rfl⟩
  | false => exact .pure fun c => ⟨rfl, rfl, rfl, rfl, nofun⟩

theorem eaProgram_yields (address : U32) (size : M68kSize) (fetchValue : Bool) :
    Yields k (eaProgram address size fetchValue : M σ Ea) (Found address size fetchValue) := by
  unfold eaProgram
  cases fetchValue with
  | true =>
    refine .skip (fun _ => rfl) (fun _ => rfl) <| .bind (readSize_yields address size) fun v =>
      .skip (fun _ => rfl) (fun _ => rfl) <| .pure ?_
    rintro _ c ⟨rfl, rfl⟩
    exact ⟨rfl, rfl, rfl, rfl, fun _ => rfl⟩
  | false => exact .pure fun c => ⟨rfl, rfl, rfl, rfl, nofun⟩

/-- The modes of memory operands. -/
theorem Operand.modes_of_memory {o : Operand} (h : o.inMemory = true) :
    (o.mode = 7 → o.reg ≤ 4) ∧ (o.mode == 1) = false ∧ ¬o.mode < 2 ∧ o.mode ≠ 0 ∧ o.mode ≠ 1 := by
  have key : ∀ mode reg : Fin 8, (2 ≤ mode && !(mode == 7 && 4 ≤ reg)) = true →
      (mode = 7 → reg ≤ 4) ∧ (mode == 1) = false ∧ ¬mode < 2 ∧ mode ≠ 0 ∧ mode ≠ 1 := by decide
  exact key o.mode o.reg h

/-- An operand of a memory mode, found past its extension words. -/
theorem Found.located {o : Operand} {a : U32} {fetchValue : Bool} {ea : Ea} {c d : Core}
    (h : Found a o.size fetchValue ea (o.next c) d) (hmemory : o.inMemory = true)
    (ha : a = o.address c) : Located o fetchValue ea c d := by
  subst ha
  obtain ⟨hlegal, haddr, hreg, h0, h1⟩ := Operand.modes_of_memory hmemory
  refine ⟨hlegal, ?_, ?_, ?_, fun hm => absurd hm hreg, fun _ => h.address,
    fun hm => absurd hm h0, fun hm => absurd hm h1, fun _ hf => h.value hf,
    fun _ hnot => absurd (hmemory.symm.trans hnot) (by decide)⟩
  · rw [h.core, hmemory, Bool.and_true]
  · rw [h.isReg, hmemory]
    rfl
  · rw [h.isAddr, haddr]

theorem indexValue_yields (ext : U16) : Yields k (indexValue ext : M σ U32) fun a c d =>
    a = c.index ext ∧ d = c := by
  unfold indexValue
  by_cases h : ext.getLsbD 15 = true
  · simp only [if_pos h]
    refine .getA fun v => .pure fun c hv => ⟨?_, rfl⟩
    rw [Core.index, if_pos h, hv]
  · simp only [if_neg h]
    refine .getD fun v => .pure fun c hv => ⟨?_, rfl⟩
    rw [Core.index, if_neg h, hv]

theorem fetchLong_yields : Yields k (fetchLong : M σ U32) fun a c d =>
    a = c.long ∧ d = { c with pc := c.pc + 4 } := by
  refine .bind fetch_yields fun high => .bind fetch_yields fun low => .pure ?_
  rintro _ c ⟨rfl, rfl⟩ d ⟨rfl, rfl⟩
  refine ⟨rfl, ?_⟩
  have hpc : d.pc + 2 + 2 = d.pc + 4 := by rw [BitVec.add_assoc]; rfl
  rw [hpc]

theorem eaImmediate_yields (size : M68kSize) :
    Yields k (eaImmediate size : M σ Ea) (Located ⟨7, 4, size⟩ false) := by
  have hlocated (c : Core) (v : U32) (hv : v = c.immediate size) :
      Located ⟨7, 4, size⟩ false { value := v, isReg := true } c
        { c with pc := c.pc + Operand.extension ⟨7, 4, size⟩ } :=
    ⟨fun _ => Nat.le_refl 4, rfl, rfl, rfl, nofun, nofun, nofun, nofun, nofun, fun _ _ => hv⟩
  cases size with
  | byte =>
    refine .bind fetch_yields fun v => .pure ?_
    rintro _ c ⟨rfl, rfl⟩
    exact hlocated c _ rfl
  | word =>
    refine .bind fetch_yields fun v => .pure ?_
    rintro _ c ⟨rfl, rfl⟩
    exact hlocated c _ rfl
  | long =>
    refine .bind fetchLong_yields fun v => .pure ?_
    rintro _ c ⟨rfl, rfl⟩
    exact hlocated c _ rfl

theorem setFaultPc_yields (mode reg : Fin 8) (size : M68kSize) :
    Yields k (setFaultPc mode reg size : M σ Unit) fun _ c d => d = c := by
  unfold setFaultPc
  split
  · exact .look fun _ => .modify (p := id) (fun _ => rfl) (fun _ => rfl) fun _ => rfl
  · exact .pure fun _ => rfl

theorem calcEaMode7_yields (reg : Fin 8) (size : M68kSize) (fetchValue : Bool) :
    Yields k (calcEaMode7 reg size fetchValue : M σ Ea) (Located ⟨7, reg, size⟩ fetchValue) := by
  unfold calcEaMode7
  split
  · refine .bind fetch_yields fun w => (eaMemory_yields _ size fetchValue).mono ?_
    rintro ea d e h c ⟨rfl, rfl⟩
    exact h.located (o := ⟨7, 0, size⟩) rfl rfl
  · refine .bind fetchLong_yields fun v => (eaMemory_yields _ size fetchValue).mono ?_
    rintro ea d e h c ⟨rfl, rfl⟩
    exact h.located (o := ⟨7, 1, size⟩) rfl rfl
  · refine .bind fetch_yields fun disp => .getPc fun pc =>
      (eaProgram_yields _ size fetchValue).mono ?_
    rintro ea d e h rfl c ⟨rfl, rfl⟩
    refine h.located (o := ⟨7, 2, size⟩) rfl ?_
    show c.pc + 2 - 2 + _ = c.pc + _
    rw [BitVec.add_sub_cancel]
  · refine .bind fetch_yields fun ext => .getPc fun pc => .bind (indexValue_yields ext) fun x =>
      (eaProgram_yields _ size fetchValue).mono ?_
    rintro ea d e h c ⟨rfl, rfl⟩ rfl c' ⟨rfl, rfl⟩
    refine h.located (o := ⟨7, 3, size⟩) rfl ?_
    show c'.pc + 2 - 2 + _ + _ = c'.pc + _ + _
    rw [BitVec.add_sub_cancel]
    rfl
  · refine (eaImmediate_yields size).mono fun ea c d h => ?_
    cases fetchValue with
    | false => exact h
    | true => exact ⟨h.1, h.2, h.3, h.4, h.5, h.6, h.7, h.8, nofun, h.10⟩
  · exact .of_throws (raiseIllegalEa_throws.bind fun _ => .pure _)

/-- A mode without extension words or step. -/
theorem next_eq {mode : Fin 8} (h : mode ≤ 2) (reg : Fin 8) (size : M68kSize) (c : Core) :
    (⟨mode, reg, size⟩ : Operand).next c = c := by
  have key : ∀ mode : Fin 8, mode ≤ 2 → mode = 0 ∨ mode = 1 ∨ mode = 2 := by decide
  have hpc : c.pc + 0 = c.pc := BitVec.add_zero _
  rcases key mode h with rfl | rfl | rfl <;>
    simp only [Operand.next, Operand.stepped, Operand.extension, hpc]

/-- A register operand. -/
theorem located_register {mode reg : Fin 8} {size : M68kSize} (h : mode < 2) {fetchValue : Bool}
    {ea : Ea} {c : Core} (hreg : ea.isReg = true) (haddr : ea.isAddr = (mode == 1))
    (hnum : ea.regNum = reg) (hdata : mode = 0 → ea.value = c.dRegs reg)
    (haddress : mode = 1 → ea.value = c.aRegs reg) :
    Located ⟨mode, reg, size⟩ fetchValue ea c c := by
  have key : ∀ mode reg : Fin 8, mode < 2 →
      (2 ≤ mode && !(mode == 7 && 4 ≤ reg)) = false ∧ mode ≤ 2 ∧ mode ≠ 7 := by decide
  obtain ⟨hmemory, hle, h7⟩ := key mode reg h
  have hmemory' : (⟨mode, reg, size⟩ : Operand).inMemory = false := hmemory
  refine ⟨fun hm => absurd hm h7, ?_, ?_, haddr, fun _ => hnum, ?_, hdata, haddress, ?_,
    fun hm => absurd hm h7⟩
  · rw [hmemory', Bool.and_false, if_neg Bool.false_ne_true, next_eq hle]
  · rw [hreg, hmemory']
    rfl
  · exact fun hm => absurd (hmemory'.symm.trans hm) Bool.false_ne_true
  · exact fun hm => absurd (hmemory'.symm.trans hm) Bool.false_ne_true

theorem Core.pc_zero (c : Core) : { c with pc := c.pc + 0 } = c := by
  have h : c.pc + 0 = c.pc := BitVec.add_zero _
  rw [h]

/-- The resolution routine, as far as exceptions do not cut it short. -/
theorem calcEaEx_yields (mode reg : Fin 8) (size : M68kSize) (fetchValue : Bool) :
    Yields k (calcEaEx mode reg size fetchValue : M σ Ea)
      (Located ⟨mode, reg, size⟩ fetchValue) := by
  unfold calcEaEx
  refine .bind (setFaultPc_yields mode reg size) fun _ => Yields.mono
    (S := Located ⟨mode, reg, size⟩ fetchValue) ?_ (by rintro ea c d h _ rfl; exact h)
  split
  · refine .getD fun v => .pure fun c hv => ?_
    exact located_register (by decide) rfl rfl rfl (fun _ => hv.symm) nofun
  · refine .getA fun v => .pure fun c hv => ?_
    exact located_register (by decide) rfl rfl rfl nofun fun _ => hv.symm
  · refine .getA fun v => (eaMemory_yields v size fetchValue).mono fun ea c d h hv => ?_
    have hnext : (⟨2, reg, size⟩ : Operand).next c = c := next_eq (by decide) reg size c
    exact Found.located (o := ⟨2, reg, size⟩) (by rw [hnext]; exact h) rfl hv.symm
  · refine .getA fun v => .ite (fun hlong => ?_) fun _ => ?_
    · simp only [Bool.and_eq_true, beq_iff_eq] at hlong
      obtain ⟨rfl, rfl⟩ := hlong
      refine .bind (readSize_yields v .long) fun x => .getA fun a => .assignA <| .pure ?_
      rintro _ d rfl rfl c ⟨rfl, rfl⟩ rfl
      exact ⟨nofun, (Core.pc_zero _).symm, rfl, rfl, nofun, fun _ => rfl, nofun, nofun,
        fun _ _ => rfl, nofun⟩
    · refine .assignA <| (eaMemory_yields v size fetchValue).mono ?_
      rintro ea d e h c rfl rfl
      have hnext : (⟨3, reg, size⟩ : Operand).next c = { c with
          aRegs := Function.update c.aRegs reg (c.aRegs reg + stepSize reg size) } :=
        Core.pc_zero { c with
          aRegs := Function.update c.aRegs reg (c.aRegs reg + stepSize reg size) }
      exact Found.located (o := ⟨3, reg, size⟩) (by rw [hnext]; exact h) rfl rfl
  · refine .getA fun v => .assignA <| (eaMemory_yields _ size fetchValue).mono ?_
    rintro ea d e h c rfl rfl
    have hnext : (⟨4, reg, size⟩ : Operand).next c = { c with
        aRegs := Function.update c.aRegs reg (c.aRegs reg - stepSize reg size) } :=
      Core.pc_zero { c with
        aRegs := Function.update c.aRegs reg (c.aRegs reg - stepSize reg size) }
    exact Found.located (o := ⟨4, reg, size⟩) (by rw [hnext]; exact h) rfl rfl
  · refine .bind fetch_yields fun disp => .getA fun a => (eaMemory_yields _ size fetchValue).mono ?_
    rintro ea d e h rfl c ⟨rfl, rfl⟩
    exact Found.located (o := ⟨5, reg, size⟩) h rfl rfl
  · refine .bind fetch_yields fun ext => .bind (indexValue_yields ext) fun x => .getA fun a =>
      (eaMemory_yields _ size fetchValue).mono ?_
    rintro ea d e h rfl c ⟨rfl, rfl⟩ c' ⟨rfl, rfl⟩
    exact Found.located (o := ⟨6, reg, size⟩) h rfl rfl
  · exact calcEaMode7_yields reg size fetchValue

theorem calcEa_yields (mode reg : Fin 8) (size : M68kSize) :
    Yields k (calcEa mode reg size : M σ Ea) (Located ⟨mode, reg, size⟩ true) := by
  refine .skip (fun _ => rfl) (fun _ => rfl) <| .bind (calcEaEx_yields mode reg size true)
    fun ea => .skip (fun _ => rfl) (fun _ => rfl) <| .pure fun d c h => h

theorem calcEaAddr_yields (mode reg : Fin 8) (size : M68kSize) :
    Yields k (calcEaAddr mode reg size : M σ Ea) (Located ⟨mode, reg, size⟩ false) :=
  .skip (fun _ => rfl) (fun _ => rfl) <| calcEaEx_yields mode reg size false

/-- A control operand is in memory. -/
theorem calcEaCtl_yields (mode reg : Fin 8) (isJmp : Bool) :
    Yields k (calcEaCtl mode reg isJmp : M σ Ea) fun ea c d =>
      notControl mode reg = false ∧ Located ⟨mode, reg, .long⟩ false ea c d :=
  .ite (fun _ => .of_throws (raiseIllegalEa_throws.bind fun _ => .pure _)) fun h =>
    .skip (fun _ => rfl) (fun _ => rfl) <| (calcEaEx_yields mode reg .long false).mono
      fun _ _ _ hl => ⟨Bool.eq_false_iff.mpr h, hl⟩

theorem calcEaAddrNocost_yields (mode reg : Fin 8) (size : M68kSize) :
    Yields k (calcEaAddrNocost mode reg size : M σ Ea) (Located ⟨mode, reg, size⟩ false) :=
  calcEaEx_yields mode reg size false

end M68k
