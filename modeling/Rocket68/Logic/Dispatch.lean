import Rocket68.Logic.Transfers

/-!
# The discipline of the decoder

`mayReject` collects the encoding checks of the handlers along the if-chain of
the decoder: the opcodes for which some run raises vector 4. On the 68000 every
such run does (`Rocket68.Logic.Reject`).
-/

namespace M68k

open Trap TrapM

variable {σ : Type}

/-! ## Which encodings are rejected -/

/-- The bit operations' check. -/
def bitRejects (opcode : U16) : Bool :=
  if sizeBits opcode = 0 then
    btstRejects (opcode &&& 0x0100 != 0) (field opcode 3) (field opcode 0)
  else notDataAlterable (field opcode 3) (field opcode 0)

/-- The immediate logic group's check. -/
def immediateLogicRejects (ccr status opcode : U16) : Bool :=
  opcode != ccr && opcode != status && dataAlterableRejects opcode

def line0Rejects (opcode : U16) : Bool :=
  let top4 := conditionField opcode
  if immediateSize3 opcode then true
  else if top4 = 0xE then true
  else if top4 = 0x0 then immediateLogicRejects 0x003C 0x007C opcode
  else if top4 = 0x2 then immediateLogicRejects 0x023C 0x027C opcode
  else if top4 = 0x4 ∨ top4 = 0x6 ∨ top4 = 0xC then dataAlterableRejects opcode
  else if top4 = 0xA then immediateLogicRejects 0x0A3C 0x0A7C opcode
  else if top4 = 0x8 then bitRejects opcode
  else if field opcode 3 = 1 then false
  else bitRejects opcode

def lineMoveRejects (opcode : U16) : Bool :=
  match moveSize? opcode with
  | none => false
  | some size =>
      moveDestRejects (field opcode 6) (field opcode 9) size ||
        (field opcode 3 == 7 && decide (4 < field opcode 0))

/-- MOVEM's encodings. -/
def isMovem (opcode : U16) : Bool :=
  opcode &&& 0xFB80 == 0x4880 && field opcode 3 != 0

def line4RestRejects (opcode : U16) : Bool :=
  let mode := field opcode 3
  let reg := field opcode 0
  if opcode &&& 0xFB80 = 0x4880 then
    mode != 0 && movemRejects (opcode &&& 0x0400 != 0) mode reg
  else if opcode &&& 0xFFF8 = 0x4E50 then false
  else if opcode &&& 0xFFF8 = 0x4E58 then false
  else if opcode &&& 0xFFC0 = 0x4AC0 then notDataAlterable mode reg
  else if opcode &&& 0xFFC0 = 0x4800 then notDataAlterable mode reg
  else if opcode &&& 0xFFC0 = 0x4840 then mode != 0 && notControl mode reg
  else if opcode &&& 0xFF00 = 0x4A00 then dataAlterableRejects opcode
  else if opcode &&& 0xFF00 = 0x4000 then dataAlterableRejects opcode
  else if opcode &&& 0xFFC0 = 0x42C0 then true
  else if opcode &&& 0xFF00 = 0x4200 then dataAlterableRejects opcode
  else if opcode &&& 0xFF00 = 0x4400 then dataAlterableRejects opcode
  else if opcode &&& 0xFF00 = 0x4600 then dataAlterableRejects opcode
  else true

/-- The instructions of the 68010 in the first half of line 4. -/
def isOnly68010 (opcode : U16) : Bool :=
  opcode == 0x4E74 || opcode == 0x4E7A || opcode == 0x4E7B || opcode &&& 0xFFF8 == 0x4848

/-- The one-word instructions of line 4 without an operand check. -/
def isImplied (opcode : U16) : Bool :=
  opcode == 0x4E70 || opcode == 0x4E71 || opcode == 0x4E72 || opcode == 0x4E73 ||
    opcode == 0x4E75 || opcode == 0x4E76 || opcode == 0x4E77

def line4Rejects (opcode : U16) : Bool :=
  let mode := field opcode 3
  let reg := field opcode 0
  if isImplied opcode then false
  else if isOnly68010 opcode then true
  else if opcode &&& 0xFFF0 = 0x4E40 then false
  else if opcode &&& 0xFFF0 = 0x4E60 then false
  else if opcode &&& 0xFFC0 = 0x4E80 then notControl mode reg
  else if opcode &&& 0xFFC0 = 0x4EC0 then notControl mode reg
  else if opcode &&& 0xFFC0 = 0x40C0 then moveSrRejects opcode
  else if opcode &&& 0xFFC0 = 0x44C0 then notData mode reg
  else if opcode &&& 0xFFC0 = 0x46C0 then moveSrRejects opcode
  else if opcode &&& 0xF1C0 = 0x4180 then notData mode reg
  else if opcode &&& 0xF1C0 = 0x41C0 then notControl mode reg
  else line4RestRejects opcode

def line5Rejects (opcode : U16) : Bool :=
  let mode := field opcode 3
  let reg := field opcode 0
  if opcode &&& 0x00C0 = 0x00C0 then mode != 1 && notDataAlterable mode reg
  else
    match sizeOf? (sizeBits opcode) with
    | none => false
    | some size => quickRejects size mode reg

def lineAndOrRejects (opcode : U16) : Bool :=
  let opmode := field opcode 6
  let mode := field opcode 3
  let reg := field opcode 0
  if opmode = 3 ∨ opmode = 7 then notData mode reg
  else if opmode = 4 ∧ (mode = 0 ∨ mode = 1) then false
  else andOrRejects opmode mode reg

def lineAddSubRejects (opcode : U16) : Bool :=
  let opmode := field opcode 6
  let mode := field opcode 3
  if regToEa opmode ∧ (mode = 0 ∨ mode = 1) then false
  else addSubRejects opmode mode (field opcode 0)

def lineBRejects (opcode : U16) : Bool :=
  let opmode := field opcode 6
  let mode := field opcode 3
  let reg := field opcode 0
  if regToEa opmode ∧ mode ≠ 1 then notDataAlterable mode reg
  else if regToEa opmode ∧ mode = 1 then false
  else cmpRejects opmode mode reg

def lineCRejects (opcode : U16) : Bool := !isExg opcode && lineAndOrRejects opcode

def lineERejects (opcode : U16) : Bool :=
  sizeBits opcode == 3 && notMemoryAlterable (field opcode 3) (field opcode 0)

/-- The opcodes that some state rejects with vector 4. -/
def mayReject (opcode : U16) : Bool :=
  match (lineOf opcode : Nat) with
  | 0x0 => line0Rejects opcode
  | 0x1 | 0x2 | 0x3 => lineMoveRejects opcode
  | 0x4 => line4Rejects opcode
  | 0x5 => line5Rejects opcode
  | 0x7 => opcode &&& 0xF100 != 0x7000
  | 0x8 => lineAndOrRejects opcode
  | 0x9 | 0xD => lineAddSubRejects opcode
  | 0xB => lineBRejects opcode
  | 0xC => lineCRejects opcode
  | 0xE => lineERejects opcode
  | _ => false

/-- The opcodes that may trap: DIVU, DIVS, CHK, TRAP, TRAPV and RTE. -/
def mayTrap (opcode : U16) : Bool :=
  (lineOf opcode == 8 && (field opcode 6 == 3 || field opcode 6 == 7)) ||
    opcode &&& 0xF1C0 == 0x4180 || opcode &&& 0xFFF0 == 0x4E40 || opcode == 0x4E76 ||
    opcode == 0x4E73

theorem isOnly68010_iff {opcode : U16} : isOnly68010 opcode = true ↔
    ((opcode = 0x4E74 ∨ opcode = 0x4E7A) ∨ opcode = 0x4E7B) ∨ opcode &&& 0xFFF8 = 0x4848 := by
  simp only [isOnly68010, Bool.or_eq_true, beq_iff_eq]

/-- The members of line 4 that may trap. -/
theorem mayTrap_of {opcode : U16} (h : opcode &&& 0xF1C0 = 0x4180 ∨ opcode &&& 0xFFF0 = 0x4E40 ∨
    opcode = 0x4E76 ∨ opcode = 0x4E73) : mayTrap opcode = true := by
  simp only [mayTrap, Bool.or_eq_true, Bool.and_eq_true, beq_iff_eq]
  rcases h with h | h | h | h
  · exact .inl (.inl (.inl (.inr h)))
  · exact .inl (.inl (.inr h))
  · exact .inl (.inr h)
  · exact .inr h

/-- The opcodes that may take cycles back: MOVE and MOVEM. -/
def mayRefund (opcode : U16) : Bool :=
  lineOf opcode == 1 || lineOf opcode == 2 || lineOf opcode == 3 || isMovem opcode

/-- The opcodes that may mark a write with the next prefetch word: byte and word
MOVE to `-(An)`. -/
def mayMark (opcode : U16) : Bool :=
  (lineOf opcode == 1 || lineOf opcode == 3) && field opcode 6 == 4

/-- The opcodes that may look at memory they do not access: MOVE to `-(An)`, the bit
operations with an immediate number on a register, and the branches and jumps that
check their target. -/
def mayPeek (opcode : U16) : Bool :=
  mayMark opcode || lineOf opcode == 6 ||
    (lineOf opcode == 0 && conditionField opcode == 8 && opcode &&& 0x38 == 0) ||
    (lineOf opcode == 5 && opcode &&& 0xC0 == 0xC0 && field opcode 3 == 1) ||
    opcode &&& 0xFFC0 == 0x4E80 || opcode &&& 0xFFC0 == 0x4EC0

/-- The opcodes that may write the user stack pointer: MOVE An,USP and MOVEC to a
control register. -/
def mayWriteUsp (opcode : U16) : Bool :=
  opcode &&& 0xFFF8 == 0x4E60 || opcode == 0x4E7B

/-! ## Which encodings write A7 -/

/-- The operand is `(A7)+` or `-(A7)`. -/
def stepsStack (opcode : U16) : Bool :=
  field opcode 0 == 7 && (field opcode 3 == 3 || field opcode 3 == 4)

def namesStack (opcode : U16) : Bool := field opcode 9 == 7 || field opcode 0 == 7

/-- MOVEA to A7, and MOVE to `(A7)+` or `-(A7)`. -/
def lineMoveStack (opcode : U16) : Bool :=
  stepsStack opcode || (field opcode 9 == 7 &&
    (field opcode 6 == 1 || field opcode 6 == 3 || field opcode 6 == 4))

/-- RTD, RTS, RTR, JSR, LINK, UNLK, PEA, LEA to A7, and MOVEM from memory. -/
def line4Stack (opcode : U16) : Bool :=
  stepsStack opcode || decide (opcode = 0x4E74 ∨ opcode = 0x4E75 ∨ opcode = 0x4E77 ∨
    opcode &&& 0xFFC0 = 0x4E80 ∨ opcode &&& 0xFFF8 = 0x4E50 ∨ opcode &&& 0xFFF8 = 0x4E58 ∨
    (opcode &&& 0xFFC0 = 0x4840 ∧ field opcode 3 ≠ 0) ∨
    (opcode &&& 0xF1C0 = 0x41C0 ∧ field opcode 9 = 7) ∨
    (isMovem opcode = true ∧ (opcode &&& 0x0400 != 0) = true))

/-- The memory forms of the extended and decimal instructions, and CMPM. -/
def pairStack (opcode : U16) : Bool := field opcode 3 == 1 && namesStack opcode

/-- ADDA and SUBA to A7, and the memory forms of ADDX and SUBX. -/
def lineAddSubStack (opcode : U16) : Bool :=
  let opmode := field opcode 6
  stepsStack opcode || ((opmode == 3 || opmode == 7) && field opcode 9 == 7) ||
    (regToEa opmode && pairStack opcode)

/-- The exchanges with A7. -/
def exgStack (opcode : U16) : Bool :=
  let low := (opcode >>> 3) &&& 0x1F
  isExg opcode && ((low == 0x09 && namesStack opcode) || (low == 0x11 && field opcode 0 == 7))

/-- The opcodes that may write A7 in user state. -/
def mayMoveStack (opcode : U16) : Bool :=
  match (lineOf opcode : Nat) with
  | 0x1 | 0x2 | 0x3 => lineMoveStack opcode
  | 0x4 => line4Stack opcode
  | 0x5 => stepsStack opcode || (field opcode 3 == 1 && field opcode 0 == 7)
  | 0x6 => conditionField opcode == 1
  | 0x8 => stepsStack opcode || (field opcode 6 == 4 && pairStack opcode)
  | 0x9 | 0xD => lineAddSubStack opcode
  | 0xB => stepsStack opcode || (regToEa (field opcode 6) && pairStack opcode)
  | 0xC => stepsStack opcode || (field opcode 6 == 4 && pairStack opcode) || exgStack opcode
  | 0x0 | 0xE => stepsStack opcode
  | _ => false

/-- Bit 3 belongs to the mode field. -/
theorem memoryForm_eq (op : U16) : op.getLsbD 3 = (field op 3).val.testBit 0 := by
  show _ = ((op >>> 3).setWidth 3).getLsbD 0
  rw [BitVec.getLsbD_setWidth, BitVec.getLsbD_ushiftRight]
  rfl

theorem Grade.writes_of {g : Grade} {r : Fin 8} (h : r = 7 → g.stack = true) : g.Writes r :=
  fun h7 => .inr (h h7)

theorem Grade.operand_of {g : Grade} {opcode : U16} (hrel : g.relative = isRelative opcode)
    (hs : stepsStack opcode = true → g.stack = true) :
    g.Operand (field opcode 3) (field opcode 0) where
  relative := hrel
  steps hmode := writes_of fun h7 => hs (by
    rcases hmode with hmode | hmode <;> simp [stepsStack, h7, hmode])

/-- The registers of a memory form. -/
theorem Grade.writes_pair {g : Grade} {opcode : U16} (hs : pairStack opcode = true → g.stack = true)
    (hmode : field opcode 3 = 1) : g.Writes (field opcode 9) ∧ g.Writes (field opcode 0) :=
  ⟨writes_of fun h7 => hs (by simp [pairStack, namesStack, hmode, h7]),
    writes_of fun h7 => hs (by simp [pairStack, namesStack, hmode, h7])⟩

/-- The members of line 4 that may write A7. -/
theorem line4Stack_of {opcode : U16} (h : opcode = 0x4E74 ∨ opcode = 0x4E75 ∨ opcode = 0x4E77 ∨
    opcode &&& 0xFFC0 = 0x4E80 ∨ opcode &&& 0xFFF8 = 0x4E50 ∨ opcode &&& 0xFFF8 = 0x4E58 ∨
    (opcode &&& 0xFFC0 = 0x4840 ∧ field opcode 3 ≠ 0) ∨
    (opcode &&& 0xF1C0 = 0x41C0 ∧ field opcode 9 = 7) ∨
    (isMovem opcode = true ∧ (opcode &&& 0x0400 != 0) = true)) : line4Stack opcode = true := by
  rw [line4Stack, decide_eq_true h, Bool.or_true]

theorem exgStack_of {opcode : U16} (hexg : isExg opcode = true)
    (h : ((opcode >>> 3) &&& 0x1F = 0x09 ∧ namesStack opcode = true) ∨
      ((opcode >>> 3) &&& 0x1F = 0x11 ∧ field opcode 0 = 7)) : exgStack opcode = true := by
  simp only [exgStack, hexg, Bool.true_and, Bool.or_eq_true, Bool.and_eq_true, beq_iff_eq]
  exact h

theorem namesStack_of {opcode : U16} (h : field opcode 9 = 7 ∨ field opcode 0 = 7) :
    namesStack opcode = true := by
  simpa [namesStack] using h

/-- Bit 3 marks the memory forms among the modes 0 and 1. -/
theorem mode_of_memoryForm {opcode : U16} (h : field opcode 3 = 0 ∨ field opcode 3 = 1)
    (hbit : opcode.getLsbD 3 = true) : field opcode 3 = 1 := by
  rcases h with h | h
  · rw [memoryForm_eq, h] at hbit
    cases hbit
  · exact h

/-- The grade under which an opcode runs. -/
structure Grade.Covers (g : Grade) (opcode : U16) : Prop where
  interleaved : isMovem opcode = true → g.interleaved = true
  illegal : mayReject opcode = true → g.illegal = true
  trap : mayTrap opcode = true → g.trap = true
  usp : mayWriteUsp opcode = true → g.usp = true
  stack : mayMoveStack opcode = true → g.stack = true
  refunds : mayRefund opcode = true → g.refunds = true
  marks : mayMark opcode = true → g.marks = true
  peeks : mayPeek opcode = true → g.peeks = true
  relative : g.relative = isRelative opcode
  inside : g.inside = false

/-- The least grade of an opcode. -/
def Grade.of (supervisor : Bool) (opcode : U16) : Grade where
  supervisor := supervisor
  interleaved := isMovem opcode
  illegal := mayReject opcode
  trap := mayTrap opcode
  usp := mayWriteUsp opcode
  stack := mayMoveStack opcode
  refunds := mayRefund opcode
  marks := mayMark opcode
  peeks := mayPeek opcode
  relative := isRelative opcode
  inside := false

theorem Grade.of_covers (supervisor : Bool) (opcode : U16) :
    (Grade.of supervisor opcode).Covers opcode :=
  ⟨id, id, id, id, id, id, id, id, rfl, rfl⟩

theorem not_relative_of_mode {opcode : U16} (h : field opcode 3 ≠ 7) :
    isRelative opcode = false := by
  simp [isRelative, relativeMode, h]

/-- The mode field lies inside the mask 0xFFF8. -/
theorem field_masked (opcode : U16) : field (opcode &&& 0xFFF8) 3 = field opcode 3 := by
  unfold field
  congr 1
  ext i hi
  have hmask : ∀ i : Fin 3, (0xFFF8 : U16).getLsbD (3 + i) = true := by decide
  have h := hmask ⟨i, hi⟩
  simp only [BitVec.getElem_setWidth, BitVec.getLsbD_ushiftRight, BitVec.getLsbD_and, h,
    Bool.and_true]

theorem mayRefund_of_line {opcode : U16}
    (h : lineOf opcode = 1 ∨ lineOf opcode = 2 ∨ lineOf opcode = 3) : mayRefund opcode = true := by
  rcases h with h | h | h <;> simp [mayRefund, h]

/-- MOVE An,USP among the moves of the user stack pointer. -/
theorem mayWriteUsp_of {opcode : U16} (h : opcode &&& 0xFFF0 = 0x4E60) (h8 : opcode &&& 0x8 = 0) :
    mayWriteUsp opcode = true := by
  have hsplit : (0xFFF8 : U16) = 0xFFF0 ||| 0x8 := by decide
  have heq : opcode &&& 0xFFF8 = 0x4E60 := by
    rw [hsplit, BitVec.and_or_distrib_left, h, h8]
    rfl
  rw [mayWriteUsp, heq]
  rfl

/-- The opcodes outside MOVE that peek. -/
theorem mayPeek_of {opcode : U16} (h : mayMark opcode = true ∨ lineOf opcode = 6 ∨
    ((lineOf opcode = 0 ∧ conditionField opcode = 8) ∧ opcode &&& 0x38 = 0) ∨
    ((lineOf opcode = 5 ∧ opcode &&& 0xC0 = 0xC0) ∧ field opcode 3 = 1) ∨
    opcode &&& 0xFFC0 = 0x4E80 ∨ opcode &&& 0xFFC0 = 0x4EC0) : mayPeek opcode = true := by
  simp only [mayPeek, Bool.or_eq_true, Bool.and_eq_true, beq_iff_eq]
  rcases h with h | h | h | h | h | h
  · exact .inl (.inl (.inl (.inl (.inl h))))
  · exact .inl (.inl (.inl (.inl (.inr h))))
  · exact .inl (.inl (.inl (.inr h)))
  · exact .inl (.inl (.inr h))
  · exact .inl (.inr h)
  · exact .inr h

theorem mayRefund_of_movem {opcode : U16} (h : isMovem opcode = true) :
    mayRefund opcode = true := by
  simp [mayRefund, h]

/-- JMP has bit 6 set. -/
theorem jmp_not_jsr {opcode : U16} (h : opcode &&& 0xFFC0 = 0x4EC0) : opcode.getLsbD 6 = true := by
  have hbit := congrArg (fun v : U16 => v.getLsbD 6) h
  simpa using hbit

/-- Line 2 is the long MOVE. -/
theorem moveSize?_of_line {opcode : U16} (h : (lineOf opcode : Nat) = 2) :
    moveSize? opcode = some .long := by
  have hsize : ((opcode >>> 12).setWidth 2).toFin = (2 : Fin 4) := by
    apply Fin.ext
    have hline : (opcode >>> 12).toNat % 16 = 2 := h
    show (opcode >>> 12).toNat % 4 = 2
    omega
  rw [moveSize?, hsize]
  rfl

namespace Micro

variable {g : Grade} {opcode : U16}

theorem costed {p : Phase} {body : M σ Unit} (h : Micro g p .finished body) (cycles : Int) :
    Micro g p .finished (costed body cycles) := .seq h fun _ => .pure _

variable [Outside g]

theorem illegalOpcode (hi : g.illegal = true) :
    Micro g .decode .finished (illegalOpcode : M σ Int) := .costed (.op (.illegal hi)) _

theorem only68010 {body : M σ Unit} (hi : g.illegal = true)
    (h : Micro g .decode .finished body) (cycles : Int) :
    Micro g .decode .finished (only68010 body cycles) :=
  .getModel fun _ => .ite (fun _ => .illegalOpcode hi) fun _ => .costed h _

theorem execBit (hrel : g.Operand (field opcode 3) (field opcode 0))
    (hill : bitRejects opcode = true → g.illegal = true) :
    Micro g .decode .finished (execBit opcode : M σ Unit) := by
  unfold M68k.execBit
  unfold bitRejects at hill
  split
  · next h => exact .execBtst _ hrel fun hr => hill (by rw [if_pos h, hr])
  · next h => exact .execBitOp _ hrel fun hr => hill (by rw [h, if_neg (by decide), hr])
  · next h => exact .execBitOp _ hrel fun hr => hill (by rw [h, if_neg (by decide), hr])
  · next h => exact .execBitOp _ hrel fun hr => hill (by rw [h, if_neg (by decide), hr])

theorem staticBit (hrel : g.Operand (field opcode 3) (field opcode 0))
    (hk : opcode &&& 0x38 = 0 → g.peeks = true)
    (hill : bitRejects opcode = true → g.illegal = true) :
    Micro g .decode .finished (staticBit opcode : M σ Int) :=
  .ite (fun h => .getPc fun _ => .step (.peekWord (hk (eq_of_beq h)) _) fun _ =>
    .seq (.pure _) fun _ =>
      .costed (.execBit hrel hill) _)
    fun _ => .seq (.pure _) fun _ => .costed (.execBit hrel hill) _

theorem dynamicBit (hrel : g.Operand (field opcode 3) (field opcode 0))
    (hill : bitRejects opcode = true → g.illegal = true) :
    Micro g .decode .finished (dynamicBit opcode : M σ Int) :=
  .getD fun _ => .costed (.execBit hrel hill) _

omit [Outside g] in
theorem immediateLogic_illegal {ccr status : U16}
    (hill : immediateLogicRejects ccr status opcode = true → g.illegal = true) (hc : opcode ≠ ccr)
    (hs : opcode ≠ status) (h : dataAlterableRejects opcode = true) : g.illegal = true :=
  hill (by simp [immediateLogicRejects, hc, hs, h])

theorem line0 (hrel : g.Operand (field opcode 3) (field opcode 0))
    (hk : conditionField opcode = 8 → opcode &&& 0x38 = 0 → g.peeks = true)
    (hill : line0Rejects opcode = true → g.illegal = true) :
    Micro g .decode .finished (line0 opcode : M σ Int) := by
  unfold line0Rejects at hill
  refine .ite (fun h3 => .illegalOpcode (hill (if_pos h3))) fun h3 => ?_
  rw [if_neg h3] at hill
  refine .ite (fun hE => ?_) fun hE => ?_
  · have hi := hill (if_pos hE)
    exact .getModel fun _ => .ite (fun _ => .illegalOpcode hi) fun _ =>
      .costed (.execMoves _ hrel hi) _
  rw [if_neg hE] at hill
  refine .ite (fun h0 => ?_) fun h0 => ?_
  · rw [if_pos h0] at hill
    exact .costed (.execOri _ hrel (immediateLogic_illegal hill)) _
  rw [if_neg h0] at hill
  refine .ite (fun h2 => ?_) fun h2 => ?_
  · rw [if_pos h2] at hill
    exact .costed (.execAndi _ hrel (immediateLogic_illegal hill)) _
  rw [if_neg h2] at hill
  refine .ite (fun h4 => ?_) fun h4 => ?_
  · rw [if_pos (.inl h4)] at hill
    exact .costed (.execImmediate _ hrel (fun s d r size sr => .flagsSub s d r size sr) hill) _
  refine .ite (fun h6 => ?_) fun h6 => ?_
  · rw [if_pos (.inr (.inl h6))] at hill
    exact .costed (.execImmediate _ hrel (fun s d r size sr => .flagsAdd s d r size sr) hill) _
  refine .ite (fun hA => ?_) fun hA => ?_
  · rw [if_neg (by rw [hA]; decide), if_pos hA] at hill
    exact .costed (.execEori _ hrel (immediateLogic_illegal hill)) _
  refine .ite (fun hC => ?_) fun hC => ?_
  · rw [if_pos (.inr (.inr hC))] at hill
    exact .costed (.execCmpi _ hrel hill) _
  rw [if_neg (by simp [h4, h6, hC]), if_neg hA] at hill
  refine .ite (fun h8 => ?_) fun h8 => ?_
  · rw [if_pos h8] at hill
    exact .staticBit hrel (hk h8) hill
  rw [if_neg h8] at hill
  refine .ite (fun hm => ?_) fun hm => ?_
  · have : Reading g := .of Outside.inside
      (hrel.relative.trans (not_relative_of_mode (by rw [hm]; decide)))
    exact .costed (.execMovep _) _
  rw [if_neg hm] at hill
  exact .dynamicBit hrel hill

theorem lineMove (hrel : g.Operand (field opcode 3) (field opcode 0)) (hr : g.refunds = true)
    (hmark : field opcode 6 = 4 → moveSize? opcode ≠ some .long →
      g.marks = true ∧ g.peeks = true)
    (hs : lineMoveStack opcode = true → g.stack = true)
    (hill : lineMoveRejects opcode = true → g.illegal = true) :
    Micro g .decode .finished (lineMove opcode : M σ Int) := by
  have hdest (hmode : field opcode 6 = 1 ∨ field opcode 6 = 3 ∨ field opcode 6 = 4) :
      g.Writes (field opcode 9) := Grade.writes_of fun h7 => hs (by
    rcases hmode with hmode | hmode | hmode <;> simp [lineMoveStack, h7, hmode])
  refine .costed (.execMove _ hrel hr hmark hdest fun size hsize hr => hill ?_) _
  simp only [lineMoveRejects, hsize, Bool.or_eq_true, Bool.and_eq_true, beq_iff_eq,
    decide_eq_true_eq]
  exact hr

theorem line4Rest (hrel : g.Operand (field opcode 3) (field opcode 0))
    (hr : isMovem opcode = true → g.refunds = true)
    (hi : isMovem opcode = true → g.interleaved = true)
    (hs : line4Stack opcode = true → g.stack = true)
    (hill : line4RestRejects opcode = true → g.illegal = true) :
    Micro g .decode .finished (line4Rest opcode : M σ Int) := by
  unfold line4RestRejects at hill
  refine .ite (fun h => ?_) fun h => ?_
  · rw [if_pos h] at hill
    refine .ite (fun _ => .costed (.execExt _) _) fun hm => ?_
    have hmovem : isMovem opcode = true := by
      simp only [isMovem, Bool.and_eq_true, beq_iff_eq, bne_iff_ne]
      exact ⟨h, hm⟩
    refine .costed (.execMovem _ hrel (hr hmovem) (hi hmovem) (fun hdir r =>
      Grade.writes_of fun _ => hs (line4Stack_of
        (.inr (.inr (.inr (.inr (.inr (.inr (.inr (.inr ⟨hmovem, hdir⟩)))))))))) ?_) _
    · exact fun hr => hill (by rw [hr, Bool.and_true]; exact bne_iff_ne.mpr hm)
  rw [if_neg h] at hill
  refine .ite (fun h => .costed (.execLink _ fun r => Grade.writes_of fun _ =>
    hs (line4Stack_of (.inr (.inr (.inr (.inr (.inl h))))))) _) fun h => ?_
  rw [if_neg h] at hill
  refine .ite (fun h => ?_) fun h => ?_
  · have : Reading g := .of Outside.inside (hrel.relative.trans (not_relative_of_mode (by
      rw [← field_masked, h]
      decide)))
    exact .costed (.execUnlk _ fun r => Grade.writes_of fun _ =>
      hs (line4Stack_of (.inr (.inr (.inr (.inr (.inr (.inl h)))))))) _
  rw [if_neg h] at hill
  refine .ite (fun h => .costed (.execTas _ hrel (by rwa [if_pos h] at hill)) _) fun h => ?_
  rw [if_neg h] at hill
  refine .ite (fun h => .costed (.execNbcd _ hrel (by rwa [if_pos h] at hill)) _) fun h => ?_
  rw [if_neg h] at hill
  refine .ite (fun h => ?_) fun h => ?_
  · rw [if_pos h] at hill
    exact .ite (fun _ => .costed (.execSwap _) _) fun hm => .costed (.execPea _
      (Grade.writes_of fun _ => hs (line4Stack_of
        (.inr (.inr (.inr (.inr (.inr (.inr (.inl ⟨h, hm⟩))))))))) fun hr =>
        hill (by rw [hr, Bool.and_true]; exact bne_iff_ne.mpr hm)) _
  rw [if_neg h] at hill
  refine .ite (fun h => .costed (.execTst _ hrel (by rwa [if_pos h] at hill)) _) fun h => ?_
  rw [if_neg h] at hill
  refine .ite (fun h => .costed (.execNegx _ hrel (by rwa [if_pos h] at hill)) _) fun h => ?_
  rw [if_neg h] at hill
  refine .ite (fun h => ?_) fun h => ?_
  · have hi := hill (if_pos h)
    exact .only68010 hi (.execMoveSr _ hrel fun _ => hi) _
  rw [if_neg h] at hill
  refine .ite (fun h => .costed (.execClr _ hrel (by rwa [if_pos h] at hill)) _) fun h => ?_
  rw [if_neg h] at hill
  refine .ite (fun h => .costed (.execNeg _ hrel (by rwa [if_pos h] at hill)) _) fun h => ?_
  rw [if_neg h] at hill
  refine .ite (fun h => .costed (.execNot _ hrel (by rwa [if_pos h] at hill)) _) fun h => ?_
  exact .illegalOpcode (hill (if_neg h))

theorem line4 (hrel : g.Operand (field opcode 3) (field opcode 0))
    (hr : isMovem opcode = true → g.refunds = true)
    (hi : isMovem opcode = true → g.interleaved = true)
    (ht : mayTrap opcode = true → g.trap = true) (hu : mayWriteUsp opcode = true → g.usp = true)
    (hk : opcode &&& 0xFFC0 = 0x4E80 ∨ opcode &&& 0xFFC0 = 0x4EC0 → g.peeks = true)
    (hs : line4Stack opcode = true → g.stack = true)
    (hill : line4Rejects opcode = true → g.illegal = true) :
    Micro g .decode .finished (line4 opcode : M σ Int) := by
  unfold line4Rejects at hill
  have hread {c : U16} (hc : isRelative c = false) (h : opcode = c) : Reading g :=
    .of Outside.inside (hrel.relative.trans (h ▸ hc))
  refine .ite (fun _ => .costed (.execReset _) _) fun h1 => ?_
  refine .ite (fun _ => .ret _) fun h2 => ?_
  refine .ite (fun _ => .costed (.execStop _) _) fun h3 => ?_
  refine .ite (fun h => have := hread (by decide) h
    .costed (.execRte _ (ht (mayTrap_of (.inr (.inr (.inr h)))))) _) fun h4 => ?_
  have h7 (h : line4Stack opcode = true) : g.Writes 7 := Grade.writes_of fun _ => hs h
  refine .ite (fun h => have := hread (by decide) h;
    .costed (.execRts _ (h7 (line4Stack_of (.inr (.inl h))))) _) fun h5 => ?_
  refine .ite (fun h => .costed (.execTrapv _ (ht (mayTrap_of (.inr (.inr (.inl h)))))) _)
    fun h6 => ?_
  refine .ite (fun h => have := hread (by decide) h;
    .costed (.execRtr _ (h7 (line4Stack_of (.inr (.inr (.inl h)))))) _)
    fun h7' => ?_
  rw [if_neg (by simp only [isImplied, Bool.or_eq_true, beq_iff_eq, h1, h2, h3, h4, h5, h6, h7',
    or_self, not_false_eq_true])] at hill
  refine .ite (fun h => have := hread (by decide) h
    .only68010 (hill (if_pos (isOnly68010_iff.mpr (.inl (.inl (.inl h))))))
      (.execRtd _ (h7 (line4Stack_of (.inl h)))) _)
    fun h8 => ?_
  refine .ite (fun h => ?_) fun h9 => ?_
  · have hi := hill (if_pos (isOnly68010_iff.mpr (.inl (h.elim (.inl ∘ .inr) .inr))))
    refine .only68010 hi (.execMovec _ hi fun hodd => hu ?_) _
    rcases h with h | h
    · rw [h] at hodd
      exact absurd rfl hodd
    · rw [h]
      rfl
  refine .ite (fun h => ?_) fun h10 => ?_
  · have hi := hill (if_pos (isOnly68010_iff.mpr (.inr h)))
    exact .only68010 hi (.execBkpt _ hi) _
  rw [if_neg fun h => (isOnly68010_iff.mp h).elim
    (Or.elim · (Or.elim · h8 (h9 ∘ .inl)) (h9 ∘ .inr)) h10] at hill
  refine .ite (fun h => .costed (.execTrap _ (ht (mayTrap_of (.inr (.inl h))))) _) fun h => ?_
  rw [if_neg h] at hill
  refine .ite (fun h => .costed (.execMoveUsp _ fun h8 => hu (mayWriteUsp_of h h8)) _) fun h => ?_
  rw [if_neg h] at hill
  refine .ite (fun h => .seq (.execJmp (hk (.inl h)) _
    (fun _ => h7 (line4Stack_of (.inr (.inr (.inr (.inl h))))))
      (by rwa [if_pos h] at hill)) fun _ =>
    .step (.get visible_exceptionThrown) fun _ => .ret _) fun h => ?_
  rw [if_neg h] at hill
  refine .ite (fun h => .costed (.execJmp (hk (.inr h)) _
    (fun h6 => absurd h6 (by rw [jmp_not_jsr h]; decide)) (by rwa [if_pos h] at hill)) _)
      fun h => ?_
  rw [if_neg h] at hill
  refine .ite (fun h => .costed (.execMoveSr _ hrel (by rwa [if_pos h] at hill)) _) fun h => ?_
  rw [if_neg h] at hill
  refine .ite (fun h => .costed (.execMoveCcr _ hrel (by rwa [if_pos h] at hill)) _) fun h => ?_
  rw [if_neg h] at hill
  refine .ite (fun h => .costed (.execMoveSr _ hrel (by rwa [if_pos h] at hill)) _) fun h => ?_
  rw [if_neg h] at hill
  refine .ite (fun h => .costed (.execChk _ hrel (ht (mayTrap_of (.inl h)))
    (by rwa [if_pos h] at hill)) _) fun h => ?_
  rw [if_neg h] at hill
  refine .ite (fun h => .costed (.execLea _ (Grade.writes_of fun h9 =>
    hs (line4Stack_of (.inr (.inr (.inr (.inr (.inr (.inr (.inr (.inl ⟨h, h9⟩))))))))))
      (by rwa [if_pos h] at hill)) _) fun h => ?_
  rw [if_neg h] at hill
  exact .line4Rest hrel hr hi hs hill

theorem line5 (hrel : g.Operand (field opcode 3) (field opcode 0))
    (hk : opcode &&& 0xC0 = 0xC0 → field opcode 3 = 1 → g.peeks = true)
    (hdest : field opcode 3 = 1 → g.Writes (field opcode 0))
    (hill : line5Rejects opcode = true → g.illegal = true) :
    Micro g .decode .finished (line5 opcode : M σ Int) := by
  unfold line5Rejects at hill
  refine .ite (fun h => ?_) fun h => ?_
  · rw [if_pos h] at hill
    exact .ite (fun hm => .costed (.execDbcc (hk h hm) _) _) fun hm =>
      .costed (.execScc _ hrel.steps fun hr => hill (by simp [hm, hr])) _
  · rw [if_neg h] at hill
    have hq : ∀ size, sizeOf? (sizeBits opcode) = some size →
        quickRejects size (field opcode 3) (field opcode 0) = true → g.illegal = true :=
      fun size hsize hr => hill (by simp only [hsize, hr])
    exact .costed (.ite (fun _ => .execQuick _ hrel (fun s d r size sr =>
      .flagsSub s d r size sr) hdest
      hq) fun _ => .execQuick _ hrel (fun s d r size sr => .flagsAdd s d r size sr) hdest
      hq) _

theorem line7 (hill : (opcode &&& 0xF100 != 0x7000) = true → g.illegal = true) :
    Micro g .decode .finished (line7 opcode : M σ Int) :=
  .ite (fun _ => .costed (.execMoveq _) _) fun h => .illegalOpcode (hill (by simpa using h))

omit [Outside g] in
/-- The check AND and OR make once the decoder has excluded the other forms. -/
private theorem andOr_illegal (hill : lineAndOrRejects opcode = true → g.illegal = true)
    (h : ¬(field opcode 6 = 3 ∨ field opcode 6 = 7))
    (h' : ¬(field opcode 6 = 4 ∧ (field opcode 3 = 0 ∨ field opcode 3 = 1)))
    (hr : andOrRejects (field opcode 6) (field opcode 3) (field opcode 0) = true) :
    g.illegal = true :=
  hill (by rw [lineAndOrRejects, if_neg h, if_neg h', hr])

/-- The register and predecrement forms read outside the bracket. -/
theorem reading_of_low (hrel : g.Operand (field opcode 3) (field opcode 0))
    (h : field opcode 3 = 0 ∨ field opcode 3 = 1) : Reading g :=
  .of Outside.inside (hrel.relative.trans
    (not_relative_of_mode (by rcases h with h | h <;> rw [h] <;> decide)))

theorem line8 (hrel : g.Operand (field opcode 3) (field opcode 0))
    (ht : lineOf opcode = 8 → mayTrap opcode = true → g.trap = true)
    (h8 : lineOf opcode = 8)
    (hs : field opcode 6 = 4 → pairStack opcode = true → g.stack = true)
    (hill : lineAndOrRejects opcode = true → g.illegal = true) :
    Micro g .decode .finished (line8 opcode : M σ Int) := by
  refine .ite (fun h => ?_) fun h => .ite (fun h => have := reading_of_low hrel h.2
      .costed (.execBcd _ fun hbit =>
        Grade.writes_pair (hs h.1) (mode_of_memoryForm h.2 hbit)) _)
    fun h' => ?_
  · have htrap : mayTrap opcode = true := by
      rcases h with h | h <;> simp [mayTrap, h8, h]
    exact .costed (.execDiv _ hrel (ht h8 htrap) fun hr =>
      hill (by rw [lineAndOrRejects, if_pos h, hr])) _
  · exact .costed (.execAndOr _ hrel fun hm hr => andOr_illegal hill h h' hr) _

theorem lineAddSub {extended standard : U16 → M σ Unit}
    (hrel : g.Operand (field opcode 3) (field opcode 0))
    (hext : Reading g → (opcode.getLsbD 3 = true → g.Writes (field opcode 9) ∧
      g.Writes (field opcode 0)) → Micro g .decode .finished (extended opcode))
    (hstd : (addSubRejects (field opcode 6) (field opcode 3) (field opcode 0) = true →
      g.illegal = true) → (field opcode 6 = 3 ∨ field opcode 6 = 7 → g.Writes (field opcode 9)) →
      Micro g .decode .finished (standard opcode))
    (hs : lineAddSubStack opcode = true → g.stack = true)
    (hill : lineAddSubRejects opcode = true → g.illegal = true) :
    Micro g .decode .finished (lineAddSub extended standard opcode) :=
  .ite (fun h => .costed (hext (reading_of_low hrel h.2) fun hbit => Grade.writes_pair
      (fun hpair => hs (by simp [lineAddSubStack, h.1, hpair])) (mode_of_memoryForm h.2 hbit)) _)
    fun h => .costed (hstd (fun hr => hill (by rw [lineAddSubRejects, if_neg h, hr])) fun hmode =>
      Grade.writes_of fun h9 => hs (by
        rcases hmode with hmode | hmode <;> simp [lineAddSubStack, hmode, h9])) _

theorem lineB (hrel : g.Operand (field opcode 3) (field opcode 0))
    (hs : regToEa (field opcode 6) = true → pairStack opcode = true → g.stack = true)
    (hill : lineBRejects opcode = true → g.illegal = true) :
    Micro g .decode .finished (lineB opcode : M σ Int) := by
  unfold lineBRejects at hill
  refine .ite (fun h => ?_) fun h => ?_
  · rw [if_pos h] at hill
    exact .costed (.execEor _ hrel fun _ hr => hill hr) _
  · rw [if_neg h] at hill
    exact .costed (.execCmp _ hrel (fun hreg => Grade.writes_pair (hs hreg)) fun hm hr =>
      hill (by rw [if_neg hm, hr])) _

theorem lineC (hrel : g.Operand (field opcode 3) (field opcode 0))
    (hs : field opcode 6 = 4 → pairStack opcode = true → g.stack = true)
    (hx : exgStack opcode = true → g.stack = true)
    (hill : lineCRejects opcode = true → g.illegal = true) :
    Micro g .decode .finished (lineC opcode : M σ Int) := by
  have hexg (h : field opcode 6 = 3 ∨ field opcode 6 = 7) : isExg opcode = false := by
    rcases h with h | h <;> simp [isExg, h]
  refine .ite (fun h => ?_) fun h => .ite (fun h => have := reading_of_low hrel h.2
      .costed (.execBcd _ fun hbit =>
        Grade.writes_pair (hs h.1) (mode_of_memoryForm h.2 hbit)) _) fun h' =>
          .ite (fun hexg => .costed (.execExg _
        (fun hlow => Grade.writes_of fun h9 =>
          hx (exgStack_of hexg (.inl ⟨hlow, namesStack_of (.inl h9)⟩)))
        fun hlow => Grade.writes_of fun h0 =>
          hx (exgStack_of hexg (hlow.imp (⟨·, namesStack_of (.inr h0)⟩) (⟨·, h0⟩)))) _)
        fun hx => ?_
  · exact .costed (.execMul _ hrel fun hr => hill (by
      rw [lineCRejects, hexg h, lineAndOrRejects, if_pos h, hr]
      rfl)) _
  · exact .costed (.execAndOr _ hrel fun hm hr => andOr_illegal (fun hl => hill (by
      simp only [lineCRejects, hx, hl]
      rfl)) h h' hr) _

theorem lineE (hrel : g.Operand (field opcode 3) (field opcode 0))
    (hill : lineERejects opcode = true → g.illegal = true) :
    Micro g .decode .finished (lineE opcode : M σ Int) := by
  have hcycles : Micro (σ := σ) g .decode .decode (shiftCycles opcode) :=
    .ite (fun _ => .pure _) fun _ => .seq (.shiftCount _) fun _ => .pure _
  exact .seq hcycles fun _ => .costed (.execShift _ hrel fun hs hr =>
    hill (by simp [lineERejects, hs, hr])) _

omit [Outside g] in
/-- Every opcode keeps the discipline, under any grade that covers it. -/
theorem dispatch (h : g.Covers opcode) :
    Micro g .decode .finished (dispatch opcode : M σ Int) := by
  have hill := h.illegal
  have hs := h.stack
  have : Outside g := ⟨h.inside⟩
  have hmarks {l : Nat} (hl : (lineOf opcode : Nat) = l) (hl' : l = 1 ∨ l = 2 ∨ l = 3)
      (h4 : field opcode 6 = 4) (hsize : moveSize? opcode ≠ some .long) :
      g.marks = true ∧ g.peeks = true := by
    suffices hmark : mayMark opcode = true from
      ⟨h.marks hmark, h.peeks (mayPeek_of (.inl hmark))⟩
    subst hl
    rcases hl' with hl | hl | hl
    · have h1 : lineOf opcode = 1 := Fin.ext hl
      simp [mayMark, h1, h4]
    · exact absurd (moveSize?_of_line hl) hsize
    · have h3 : lineOf opcode = 3 := Fin.ext hl
      simp [mayMark, h3, h4]
  unfold mayReject at hill
  unfold mayMoveStack at hs
  have hoperand (hstep : stepsStack opcode = true → g.stack = true) :=
    Grade.operand_of h.relative hstep
  unfold M68k.dispatch
  split
  · next hl =>
    rw [hl] at hill hs
    have h0 : lineOf opcode = 0 := Fin.ext hl
    exact .line0 (hoperand hs) (fun hop hreg => h.peeks
      (mayPeek_of (.inr (.inr (.inl ⟨⟨h0, hop⟩, hreg⟩))))) hill
  · next hl =>
    rw [hl] at hill hs
    exact .lineMove (hoperand fun hstep => hs (by simp [lineMoveStack, hstep]))
      (h.refunds (mayRefund_of_line (.inl (Fin.ext hl)))) (hmarks hl (by omega)) hs hill
  · next hl =>
    rw [hl] at hill hs
    exact .lineMove (hoperand fun hstep => hs (by simp [lineMoveStack, hstep]))
      (h.refunds (mayRefund_of_line (.inr (.inl (Fin.ext hl))))) (hmarks hl (by omega)) hs hill
  · next hl =>
    rw [hl] at hill hs
    exact .lineMove (hoperand fun hstep => hs (by simp [lineMoveStack, hstep]))
      (h.refunds (mayRefund_of_line (.inr (.inr (Fin.ext hl))))) (hmarks hl (by omega)) hs hill
  · next hl =>
    rw [hl] at hill hs
    have hjump (hop : opcode &&& 0xFFC0 = 0x4E80 ∨ opcode &&& 0xFFC0 = 0x4EC0) :
        g.peeks = true := h.peeks (mayPeek_of (.inr (.inr (.inr (.inr hop)))))
    exact .line4 (hoperand fun hstep => hs (by simp [line4Stack, hstep]))
      (fun hm => h.refunds (mayRefund_of_movem hm)) h.interleaved h.trap h.usp hjump hs hill
  · next hl =>
    rw [hl] at hill hs
    have h5 : lineOf opcode = 5 := Fin.ext hl
    exact .line5 (hoperand fun hstep => hs (by simp [hstep])) (fun hsize hm => h.peeks
      (mayPeek_of (.inr (.inr (.inr (.inl ⟨⟨h5, hsize⟩, hm⟩))))))
      (fun hmode => Grade.writes_of fun h7 => hs (by simp [hmode, h7])) hill
  · next hl =>
    rw [hl] at hs
    have h6 : lineOf opcode = 6 := Fin.ext hl
    exact .costed (.execBcc (h.peeks (mayPeek_of (.inr (.inl h6)))) _ fun hcond =>
      Grade.writes_of fun _ => hs (by simp [hcond])) _
  · next hl => rw [hl] at hill; exact .line7 hill
  · next hl =>
    rw [hl] at hill hs
    exact .line8 (hoperand fun hstep => hs (by simp [hstep])) (fun _ => h.trap) (Fin.ext hl)
      (fun hmode hpair => hs (by simp [hmode, hpair])) hill
  · next hl =>
    rw [hl] at hill hs
    have hrel := hoperand fun hstep => hs (by simp [lineAddSubStack, hstep])
    exact .lineAddSub hrel
      (fun _ hpair => .execExtended _ (fun s d r size sr => .flagsSub s d r size sr) hpair)
      (fun hr hdest => .execAddSub _ hrel (fun s d r size sr => .flagsSub s d r size sr)
        (fun _ _ _ => .storeEa before _ _ _) hdest hr) hs hill
  · exact .costed (.op (.violation (.inr (.inl rfl)))) _
  · next hl =>
    rw [hl] at hill hs
    exact .lineB (hoperand fun hstep => hs (by simp [hstep]))
      (fun hreg hpair => hs (by simp [hreg, hpair])) hill
  · next hl =>
    rw [hl] at hill hs
    exact .lineC (hoperand fun hstep => hs (by simp [hstep]))
      (fun hmode hpair => hs (by simp [hmode, hpair])) (fun hexg => hs (by simp [hexg])) hill
  · next hl =>
    rw [hl] at hill hs
    have hrel := hoperand fun hstep => hs (by simp [lineAddSubStack, hstep])
    exact .lineAddSub hrel
      (fun _ hpair => .execExtended _ (fun s d r size sr => .flagsAdd s d r size sr) hpair)
      (fun hr hdest => .execAddSub _ hrel (fun s d r size sr => .flagsAdd s d r size sr)
        (fun _ _ _ => .storeAdd _ _ _) hdest hr) hs hill
  · next hl =>
    rw [hl] at hill hs
    exact .lineE (hoperand hs) hill
  · exact .costed (.op (.violation (.inr (.inr rfl)))) _

end Micro

end M68k
