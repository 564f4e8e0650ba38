import Rocket68.Logic.ControlPlans

/-!
# The plan of every instruction

The plans of the handlers, put together in the order of the decoder.
-/

namespace M68k

open Trap TrapM

variable {σ : Type} {k : Option (Nat → M68kCpu σ → M68kCpu σ × U32)} {c d e : Core}

/-- No operands. -/
def emptyPlan : Plan := { parts := [] }

theorem illegalOpcode_planned {p : Core → Plan} : Planned k (illegalOpcode : M σ Int) p :=
  .costed (.exception (by decide))

theorem pure_planned (n : Int) : Planned k (pure n : M σ Int) fun _ => emptyPlan :=
  Yields.pure fun _ =>
    Effect.of_nothing (fun _ _ => Confined.refl _ _) (fun _ _ => rfl) (fun _ => rfl) rfl

/-! ## Line 0 -/

/-- The bit operations; BTST does not write. -/
def bitsPlan (op : U16) : Plan :=
  match sizeBits op with
  | 0 => bitPlan (.read .byte) op
  | _ => bitPlan (.modify .byte) op

theorem execBit_planned (op : U16) : Planned k (execBit op : M σ Unit) fun _ => bitsPlan op := by
  have key : ∀ b : Fin 4, b = 0 ∨ b = 1 ∨ b = 2 ∨ b = 3 := by decide
  unfold execBit bitsPlan
  rcases key (sizeBits op) with h | h | h | h <;> simp only [h]
  · exact execBtst_planned op
  · exact execBchg_planned op
  · exact execBclr_planned op
  · exact execBset_planned op

theorem staticBit_planned (op : U16) : Planned k (staticBit op : M σ Int) fun _ => bitsPlan op := by
  refine Yields.ite (fun _ => .look fun pc => .bind (peekWord_yields pc) fun w =>
    ((execBit_planned op).costed).mono ?_) fun _ => (execBit_planned op).costed
  rintro _ c d h _ rfl
  exact h

theorem dynamicBit_planned (op : U16) :
    Planned k (dynamicBit op : M σ Int) fun _ => bitsPlan op :=
  Yields.look fun _ => (execBit_planned op).costed

/-- Line 0. -/
def line0Plan (op : U16) (c : Core) : Plan :=
  let top4 := conditionField op
  if immediateSize3 op then emptyPlan
  else if top4 = 0xE then movesPlan op c
  else if top4 = 0x0 then logicPlan 0x003C 0x007C op
  else if top4 = 0x2 then logicPlan 0x023C 0x027C op
  else if top4 = 0x4 then immediatePlan op
  else if top4 = 0x6 then immediatePlan op
  else if top4 = 0xA then logicPlan 0x0A3C 0x0A7C op
  else if top4 = 0xC then cmpiPlan op
  else if top4 = 0x8 then bitsPlan op
  else if field op 3 = 1 then movepPlan op
  else bitsPlan op

theorem line0_planned (op : U16) : Planned k (line0 op : M σ Int) (line0Plan op) := by
  refine .choose (fun _ => illegalOpcode_planned) fun _ =>
    .choose (fun _ => Yields.look fun _ => Planned.ite (fun _ => illegalOpcode_planned)
      fun _ => (execMoves_planned op).costed) fun _ =>
    .choose (fun _ => (execOri_planned op).costed) fun _ =>
    .choose (fun _ => (execAndi_planned op).costed) fun _ =>
    .choose (fun _ => (execSubi_planned op).costed) fun _ =>
    .choose (fun _ => (execAddi_planned op).costed) fun _ =>
    .choose (fun _ => (execEori_planned op).costed) fun _ =>
    .choose (fun _ => (execCmpi_planned op).costed) fun _ =>
    .choose (fun _ => staticBit_planned op) fun _ =>
    .choose (fun _ => (execMovep_planned op).costed) fun _ => dynamicBit_planned op

/-! ## Line 4 -/

theorem only68010_planned {body : M σ Unit} {n : Int} {p : Core → Plan} (h : Planned k body p) :
    Planned k (only68010 body n) p :=
  Yields.look fun _ => Planned.ite (fun _ => illegalOpcode_planned) fun _ => h.costed

theorem lineJsr_planned (op : U16) : Planned k (lineJsr op : M σ Int) fun _ => jmpPlan op :=
  Yields.bind (execJmp_planned op) fun _ => .look fun _ => .pure fun _ _ h => h

/-- The second half of line 4. -/
def line4RestPlan (op : U16) (c : Core) : Plan :=
  let mode := field op 3
  if op &&& 0xFB80 = 0x4880 then (if mode = 0 then extPlan op else movemPlan op c)
  else if op &&& 0xFFF8 = 0x4E50 then linkPlan op
  else if op &&& 0xFFF8 = 0x4E58 then unlkPlan op
  else if op &&& 0xFFC0 = 0x4AC0 then tasPlan op
  else if op &&& 0xFFC0 = 0x4800 then nbcdPlan op
  else if op &&& 0xFFC0 = 0x4840 then (if mode = 0 then emptyPlan else peaPlan op)
  else if op &&& 0xFF00 = 0x4A00 then unaryPlan .read op
  else if op &&& 0xFF00 = 0x4000 then unaryPlan .modify op
  else if op &&& 0xFFC0 = 0x42C0 then moveSrPlan op
  else if op &&& 0xFF00 = 0x4200 then unaryPlan clrUse op
  else if op &&& 0xFF00 = 0x4400 then unaryPlan .modify op
  else if op &&& 0xFF00 = 0x4600 then unaryPlan .modify op
  else emptyPlan

theorem line4Rest_planned (op : U16) :
    Planned k (line4Rest op : M σ Int) (line4RestPlan op) := by
  refine .choose (fun _ => .choose (fun _ => (execExt_planned op).costed)
      fun _ => (execMovem_planned op).costed) fun _ =>
    .choose (fun _ => (execLink_planned op).costed) fun _ =>
    .choose (fun _ => (execUnlk_planned op).costed) fun _ =>
    .choose (fun _ => (execTas_planned op).costed) fun _ =>
    .choose (fun _ => (execNbcd_planned op).costed) fun _ =>
    .choose (fun _ => .choose (fun _ => (execSwap_planned op).costed)
      fun _ => (execPea_planned op).costed) fun _ =>
    .choose (fun _ => (execTst_planned op).costed) fun _ =>
    .choose (fun _ => (execNegx_planned op).costed) fun _ =>
    .choose (fun _ => only68010_planned (execMoveSr_planned op)) fun _ =>
    .choose (fun _ => (execClr_planned op).costed) fun _ =>
    .choose (fun _ => (execNeg_planned op).costed) fun _ =>
    .choose (fun _ => (execNot_planned op).costed) fun _ => illegalOpcode_planned

/-- Line 4. -/
def line4Plan (op : U16) (c : Core) : Plan :=
  if op = 0x4E70 then emptyPlan
  else if op = 0x4E71 then emptyPlan
  else if op = 0x4E72 then stopPlan
  else if op = 0x4E73 then rtePlan c
  else if op = 0x4E75 then rtsPlan
  else if op = 0x4E76 then emptyPlan
  else if op = 0x4E77 then rtrPlan
  else if op = 0x4E74 then rtdPlan
  else if op = 0x4E7A ∨ op = 0x4E7B then movecPlan op c
  else if op &&& 0xFFF8 = 0x4848 then emptyPlan
  else if op &&& 0xFFF0 = 0x4E40 then emptyPlan
  else if op &&& 0xFFF0 = 0x4E60 then moveUspPlan op
  else if op &&& 0xFFC0 = 0x4E80 then jmpPlan op
  else if op &&& 0xFFC0 = 0x4EC0 then jmpPlan op
  else if op &&& 0xFFC0 = 0x40C0 then moveSrPlan op
  else if op &&& 0xFFC0 = 0x44C0 then moveCcrPlan op
  else if op &&& 0xFFC0 = 0x46C0 then moveSrPlan op
  else if op &&& 0xF1C0 = 0x4180 then chkPlan op
  else if op &&& 0xF1C0 = 0x41C0 then leaPlan op
  else line4RestPlan op c

theorem line4_planned (op : U16) : Planned k (line4 op : M σ Int) (line4Plan op) := by
  refine .choose (fun _ => (execReset_planned op).costed) fun _ =>
    .choose (fun _ => pure_planned 4) fun _ =>
    .choose (fun _ => (execStop_planned op).costed) fun _ =>
    .choose (fun _ => (execRte_planned op).costed) fun _ =>
    .choose (fun _ => (execRts_planned op).costed) fun _ =>
    .choose (fun _ => (execTrapv_planned op).costed) fun _ =>
    .choose (fun _ => (execRtr_planned op).costed) fun _ =>
    .choose (fun _ => only68010_planned (execRtd_planned op)) fun _ =>
    .choose (fun _ => only68010_planned (execMovec_planned op)) fun _ =>
    .choose (fun _ => only68010_planned (execBkpt_planned op)) fun _ =>
    .choose (fun _ => (execTrap_planned op).costed) fun _ =>
    .choose (fun _ => (execMoveUsp_planned op).costed) fun _ =>
    .choose (fun _ => lineJsr_planned op) fun _ =>
    .choose (fun _ => (execJmp_planned op).costed) fun _ =>
    .choose (fun _ => (execMoveSr_planned op).costed) fun _ =>
    .choose (fun _ => (execMoveCcr_planned op).costed) fun _ =>
    .choose (fun _ => (execMoveSr_planned op).costed) fun _ =>
    .choose (fun _ => (execChk_planned op).costed) fun _ =>
    .choose (fun _ => (execLea_planned op).costed) fun _ => line4Rest_planned op

/-! ## The other lines -/

/-- Line 5. -/
def line5Plan (op : U16) : Plan :=
  if op &&& 0x00C0 = 0x00C0 then (if field op 3 = 1 then dbccPlan else sccPlan op)
  else quickPlan op

theorem line5_planned (op : U16) : Planned k (line5 op : M σ Int) fun _ => line5Plan op := by
  refine .choose (fun _ => .choose (fun _ => (execDbcc_planned op).costed)
    fun _ => (execScc_planned op).costed) fun _ => Planned.costed ?_
  exact Planned.ite (fun _ => execSubq_planned op) fun _ => execAddq_planned op

theorem line7_planned (op : U16) : Planned k (line7 op : M σ Int) fun _ => emptyPlan :=
  Planned.ite (fun _ => (execMoveq_planned op).costed) fun _ => illegalOpcode_planned

/-- Line 8. -/
def line8Plan (op : U16) : Plan :=
  if field op 6 = 3 ∨ field op 6 = 7 then mulDivPlan op
  else if field op 6 = 4 ∧ (field op 3 = 0 ∨ field op 3 = 1) then bcdPlan op
  else andOrPlan op

theorem line8_planned (op : U16) : Planned k (line8 op : M σ Int) fun _ => line8Plan op :=
  .choose (fun _ => (execDiv_planned op).costed) fun _ =>
    .choose (fun _ => (execBcd_planned op).costed) fun _ => (execOr_planned op).costed

/-- Lines 9 and D. -/
def lineAddSubPlan (op : U16) : Plan :=
  if regToEa (field op 6) ∧ (field op 3 = 0 ∨ field op 3 = 1) then extendedPlan op
  else addSubPlan op

theorem lineAddSub_planned {extended standard : U16 → M σ Unit} (op : U16)
    (hextended : Planned k (extended op) fun _ => extendedPlan op)
    (hstandard : Planned k (standard op) fun _ => addSubPlan op) :
    Planned k (lineAddSub extended standard op) fun _ => lineAddSubPlan op :=
  .choose (fun _ => hextended.costed) fun _ => hstandard.costed

/-- Line B. -/
def lineBPlan (op : U16) : Plan :=
  if regToEa (field op 6) ∧ field op 3 ≠ 1 then eorPlan op else cmpPlan op

theorem lineB_planned (op : U16) : Planned k (lineB op : M σ Int) fun _ => lineBPlan op :=
  .choose (fun _ => (execEor_planned op).costed) fun _ => (execCmp_planned op).costed

/-- Line C. -/
def lineCPlan (op : U16) : Plan :=
  if field op 6 = 3 ∨ field op 6 = 7 then mulDivPlan op
  else if field op 6 = 4 ∧ (field op 3 = 0 ∨ field op 3 = 1) then bcdPlan op
  else if isExg op then exgPlan op
  else andOrPlan op

theorem lineC_planned (op : U16) : Planned k (lineC op : M σ Int) fun _ => lineCPlan op :=
  .choose (fun _ => (execMul_planned op).costed) fun _ =>
    .choose (fun _ => (execBcd_planned op).costed) fun _ =>
      .choose (fun _ => (execExg_planned op).costed) fun _ => (execAnd_planned op).costed

theorem lineE_planned (op : U16) : Planned k (lineE op : M σ Int) fun _ => shiftPlan op := by
  have hcycles : Yields k (shiftCycles op : M σ Int) fun _ c d => d = c :=
    .ite (fun _ => .pure fun _ => rfl) fun _ => .bind (shiftCount_yields op) fun _ =>
      .pure fun _ _ h => h
  refine Yields.bind hcycles fun n => ((execShift_planned op).costed).mono ?_
  rintro _ c d h _ rfl
  exact h

/-! ## The decoder -/

/-- The plan of the instruction `op`. -/
def plan (op : U16) (c : Core) : Plan :=
  match (lineOf op : Nat) with
  | 0x0 => line0Plan op c
  | 0x1 | 0x2 | 0x3 => movePlan op
  | 0x4 => line4Plan op c
  | 0x5 => line5Plan op
  | 0x6 => branchPlan op
  | 0x7 => emptyPlan
  | 0x8 => line8Plan op
  | 0x9 => lineAddSubPlan op
  | 0xB => lineBPlan op
  | 0xC => lineCPlan op
  | 0xD => lineAddSubPlan op
  | 0xE => shiftPlan op
  | _ => emptyPlan

/-- A field of four bits, value by value. -/
theorem nibble_cases : ∀ l : Fin 16, l = 0 ∨ l = 1 ∨ l = 2 ∨ l = 3 ∨ l = 4 ∨ l = 5 ∨ l = 6 ∨
    l = 7 ∨ l = 8 ∨ l = 9 ∨ l = 10 ∨ l = 11 ∨ l = 12 ∨ l = 13 ∨ l = 14 ∨ l = 15 := by decide

/-- Every instruction does what is planned for it. -/
theorem dispatch_planned (op : U16) : Planned k (dispatch op : M σ Int) (plan op) := by
  have hmove : Planned k (lineMove op : M σ Int) fun _ => movePlan op :=
    (execMove_planned op).costed
  unfold dispatch plan
  rcases nibble_cases (lineOf op) with h | h | h | h | h | h | h | h | h | h | h | h | h | h | h |
    h <;> simp only [h]
  · exact line0_planned op
  · exact hmove
  · exact hmove
  · exact hmove
  · exact line4_planned op
  · exact line5_planned op
  · exact (execBcc_planned op).costed
  · exact line7_planned op
  · exact line8_planned op
  · exact lineAddSub_planned op (execSubx_planned op) (execSub_planned op)
  · exact Planned.costed (.exception (by decide))
  · exact lineB_planned op
  · exact lineC_planned op
  · exact lineAddSub_planned op (execAddx_planned op) (execAdd_planned op)
  · exact lineE_planned op
  · exact Planned.costed (.exception (by decide))

end M68k
