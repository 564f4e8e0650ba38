import Rocket68.Ops.Immediate
import Rocket68.Step
import Rocket68.Trap.Wp

/-!
# Long immediates

CMPI and the effective address code fetch the two words of a long immediate in two
statements, the other instructions of the immediate group in one expression. The handlers
of the model are those of a compiler that evaluates it from left to right; a compiler that
evaluates it from right to left swaps the halves.
-/

namespace M68k

open Trap TrapM

variable {σ : Type}

/-- The handlers of the model evaluate from left to right. -/
theorem execImmediateIn_leftFirst (op : U32 → U32 → U32)
    (flags : U32 → U32 → U32 → M68kSize → U16 → U16) :
    (execImmediateIn .leftFirst op flags : U16 → M σ Unit) = execImmediate op flags := by
  funext opcode
  unfold execImmediateIn execImmediate
  cases sizeOf? (sizeBits opcode) with
  | none => rfl
  | some size => cases size <;> rfl

theorem exec_leftFirst (opcode : U16) :
    (ImmediateOp.addi.exec .leftFirst opcode : M σ Unit) = execAddi opcode ∧
    (ImmediateOp.subi.exec .leftFirst opcode : M σ Unit) = execSubi opcode ∧
    (ImmediateOp.andi.exec .leftFirst opcode : M σ Unit) = execAndi opcode ∧
    (ImmediateOp.ori.exec .leftFirst opcode : M σ Unit) = execOri opcode ∧
    (ImmediateOp.eori.exec .leftFirst opcode : M σ Unit) = execEori opcode := by
  have hlogic (op : U32 → U32 → U32) (op16 : U16 → U16 → U16) (ccr status : U16) :
      (execImmediateLogicIn .leftFirst op op16 ccr status : U16 → M σ Unit) =
        execImmediateLogic op op16 ccr status := by
    funext opcode
    unfold execImmediateLogicIn execImmediateLogic
    rw [execImmediateIn_leftFirst]
  refine ⟨?_, ?_, ?_, ?_, ?_⟩
  · exact congrFun (execImmediateIn_leftFirst _ _) opcode
  · exact congrFun (execImmediateIn_leftFirst _ _) opcode
  · exact congrFun (hlogic _ _ _ _) opcode
  · exact congrFun (hlogic _ _ _ _) opcode
  · exact congrFun (hlogic _ _ _ _) opcode

/-! ## What is decoded -/

section Decoding

variable {h : Host σ} {s : M68kCpu σ} {opcode : U16}

/-- The next two extension words are fetched without a fault. -/
def Fetches (h : Host σ) (s : M68kCpu σ) (first second : U16) (t : M68kCpu σ) : Prop :=
  ∃ u, fetch h s = .ok first u ∧ fetch h u = .ok second t

/-- A decoder reads the first extension word as the high half and the second as the low
half. -/
def HighFirst (decode : M σ U32) (h : Host σ) (s : M68kCpu σ) : Prop :=
  ∀ first second t, Fetches h s first second t → decode h s = .ok (longOf first second) t

theorem longOf_injective {a b c d : U16} (h : longOf a b = longOf c d) : a = c ∧ b = d := by
  have hhigh (x y : U16) : ((longOf x y >>> 16).setWidth 16 : U16) = x := by
    apply BitVec.eq_of_getLsbD_eq
    intro i hi
    have hin : 16 + i < 32 := by omega
    simp [longOf, hi, hin]
  have hlow (x y : U16) : ((longOf x y).setWidth 16 : U16) = y := by
    apply BitVec.eq_of_getLsbD_eq
    intro i hi
    simp [longOf, hi]
  exact ⟨by rw [← hhigh a b, h, hhigh], by rw [← hlow a b, h, hlow]⟩

theorem fetchLong_highFirst (h : Host σ) (s : M68kCpu σ) : HighFirst fetchLong h s := by
  rintro first second t ⟨u, hfirst, hsecond⟩
  rw [fetchLong, bind_ok hfirst, bind_ok hsecond]
  rfl

/-- The one expression, under either order. -/
theorem longImmediateIn_run (order : OperandOrder) {first second : U16} {t : M68kCpu σ}
    (hf : Fetches h s first second t) : longImmediateIn order h s =
      .ok (match order with
        | .leftFirst => longOf first second
        | .rightFirst => longOf second first) t := by
  obtain ⟨u, hfirst, hsecond⟩ := hf
  cases order with
  | leftFirst =>
    rw [longImmediateIn, binaryIn, bind_ok hfirst, bind_ok hsecond]
    rfl
  | rightFirst =>
    rw [longImmediateIn, binaryIn, bind_ok hfirst, bind_ok hsecond]
    rfl

/-- An order is harmless exactly if it is the one from left to right, or the words agree. -/
theorem longImmediateIn_iff (order : OperandOrder) (h : Host σ) (s : M68kCpu σ) :
    HighFirst (longImmediateIn order) h s ↔
      order = .leftFirst ∨ ∀ first second t, Fetches h s first second t → first = second := by
  constructor
  · intro hdecode
    cases order with
    | leftFirst => exact .inl rfl
    | rightFirst =>
      right
      intro first second t hf
      have hrun := (longImmediateIn_run .rightFirst hf).symm.trans (hdecode first second t hf)
      exact (longOf_injective (Outcome.ok.inj hrun).1).1.symm
  · rintro hor first second t hf
    rw [longImmediateIn_run order hf]
    cases order with
    | leftFirst => rfl
    | rightFirst =>
      rcases hor with horder | hwords
      · cases horder
      · rw [hwords first second t hf]

/-- A long operand of the immediate group. -/
def LongForm (opcode : U16) : Prop :=
  sizeBits opcode = 2 ∧ notDataAlterable (field opcode 3) (field opcode 0) = false

/-- What CMPI does with its operand. -/
def cmpiBody (size : M68kSize) (mode reg : Fin 8) (src : U32) : M σ Unit := do
  charge (if size = .long then 8 else 4)
  let ea ← calcEa mode reg size
  modifySr (flagsCmp src ea.value (ea.value - src) size)

/-- The five handlers take their operand from the one expression, and go on to their
destination from there. -/
theorem exec_long (i : ImmediateOp) (order : OperandOrder) (hform : LongForm opcode) :
    (i.exec order opcode : M σ Unit) = longImmediateIn order >>= fun imm =>
      immediateBody i.compute i.codes .long (field opcode 3) (field opcode 0) imm := by
  obtain ⟨hsize, hlegal⟩ := hform
  have hgroup (op : U32 → U32 → U32) (flags : U32 → U32 → U32 → M68kSize → U16 → U16) :
      (execImmediateIn order op flags opcode : M σ Unit) = longImmediateIn order >>= fun imm =>
        immediateBody op flags .long (field opcode 3) (field opcode 0) imm := by
    unfold execImmediateIn
    rw [hsize]
    show (if notDataAlterable (field opcode 3) (field opcode 0) = true then _ else _) = _
    rw [hlegal, if_neg Bool.false_ne_true]
    rfl
  -- the forms on CCR and SR have other size codes
  have hne (c : U16) (hc : sizeBits c ≠ 2) : opcode ≠ c := by
    rintro rfl
    exact hc hsize
  cases i with
  | addi => exact hgroup _ _
  | subi => exact hgroup _ _
  | andi =>
    show execImmediateLogicIn _ _ _ _ _ _ = _
    rw [execImmediateLogicIn, if_neg (hne _ (by decide)), if_neg (hne _ (by decide))]
    exact hgroup _ _
  | ori =>
    show execImmediateLogicIn _ _ _ _ _ _ = _
    rw [execImmediateLogicIn, if_neg (hne _ (by decide)), if_neg (hne _ (by decide))]
    exact hgroup _ _
  | eori =>
    show execImmediateLogicIn _ _ _ _ _ _ = _
    rw [execImmediateLogicIn, if_neg (hne _ (by decide)), if_neg (hne _ (by decide))]
    exact hgroup _ _

theorem execCmpi_long (hform : LongForm opcode) :
    (execCmpi opcode : M σ Unit) = fetchLong >>= fun src =>
      cmpiBody .long (field opcode 3) (field opcode 0) src := by
  obtain ⟨hsize, hlegal⟩ := hform
  unfold execCmpi
  rw [hsize]
  show (if notDataAlterable (field opcode 3) (field opcode 0) = true then _ else _) = _
  rw [hlegal, if_neg Bool.false_ne_true]
  rfl

/-- **Long immediates.** The handlers of the model are those of a compiler that calls the left
fetch first. Each of the five instructions takes its immediate from the one expression and
resolves its destination afterwards. The expression delivers the first word as the high half,
as CMPI and the immediate mode always do, exactly when the compiler calls the left fetch first
or the two words agree. -/
theorem long_immediate_iff (order : OperandOrder) :
    (∀ opcode : U16, (ImmediateOp.addi.exec .leftFirst opcode : M σ Unit) = execAddi opcode ∧
      (ImmediateOp.subi.exec .leftFirst opcode : M σ Unit) = execSubi opcode ∧
      (ImmediateOp.andi.exec .leftFirst opcode : M σ Unit) = execAndi opcode ∧
      (ImmediateOp.ori.exec .leftFirst opcode : M σ Unit) = execOri opcode ∧
      (ImmediateOp.eori.exec .leftFirst opcode : M σ Unit) = execEori opcode) ∧
    (∀ (i : ImmediateOp) (opcode : U16), LongForm opcode →
      (i.exec order opcode : M σ Unit) = longImmediateIn order >>= fun imm =>
        immediateBody i.compute i.codes .long (field opcode 3) (field opcode 0) imm) ∧
    (∀ opcode : U16, LongForm opcode → (execCmpi opcode : M σ Unit) = fetchLong >>= fun src =>
      cmpiBody .long (field opcode 3) (field opcode 0) src) ∧
    ((calcEaMode7 4 .long true : M σ Ea) = fetchLong >>= fun value =>
      pure { value := value, isReg := true }) ∧
    (∀ (h : Host σ) (s : M68kCpu σ), HighFirst fetchLong h s) ∧
    ∀ (h : Host σ) (s : M68kCpu σ), HighFirst (longImmediateIn order) h s ↔
      order = .leftFirst ∨ ∀ first second t, Fetches h s first second t → first = second :=
  ⟨exec_leftFirst, fun i _ hform => exec_long i order hform,
    fun _ hform => execCmpi_long hform, rfl, fetchLong_highFirst, longImmediateIn_iff order⟩

/-- ADDI.L with the words 0x1234 and 0x5678, to D0. -/
def addiProgram : M68kCpu Unit :=
  { init (fun a => if a = 0x102 then 0x12 else if a = 0x103 then 0x34 else
      if a = 0x104 then 0x56 else if a = 0x105 then 0x78 else 0) 0x3000 () with
    sr := 0x2700
    pc := 0x102 }

/-- A compiler that evaluates from right to left swaps the halves. -/
theorem long_immediate_swapped :
    ¬(∀ order : OperandOrder, HighFirst (longImmediateIn order) (Host.none Unit) addiProgram) ∧
    (exec? (ImmediateOp.addi.exec .rightFirst 0x0680) (Host.none Unit) addiProgram).map
      (fun t => t.dRegs 0) = some 0x56781234 := by
  refine ⟨fun hall => ?_, by decide +kernel⟩
  have hfetch : ∃ t, Fetches (Host.none Unit) addiProgram 0x1234 0x5678 t := ⟨_, _, rfl, rfl⟩
  obtain ⟨t, ht⟩ := hfetch
  rcases (longImmediateIn_iff .rightFirst _ _).mp (hall .rightFirst) with horder | hwords
  · cases horder
  · exact absurd (hwords _ _ t ht) (by decide)

end Decoding

end M68k
