import Rocket68.Logic.Retire
import Rocket68.Logic.Memory
import Rocket68.Logic.Decode

/-!
# Calls and frames

The plain effect of the five instructions that build and take down stack frames.
-/

namespace M68k

open Trap TrapM

variable {σ : Type} {k : Option (Nat → M68kCpu σ → M68kCpu σ × U32)} {s t u : M68kCpu σ}
  {op : U16} {c d : Core}

/-! ## Decoding -/

/-- BSR and JSR. -/
def isCall (op : U16) : Bool :=
  (lineOf op == 6 && conditionField op == 1) || op &&& 0xFFC0 == 0x4E80

theorem dispatch_link (h : op &&& 0xFFF8 = 0x4E50) :
    (dispatch op : M σ Int) = costed (execLink op) 16 := by
  rw [dispatch_line4 (lineOf_of_pattern h (by decide)), line4_rest h (by decide), line4Rest,
    if_neg (mask_ne h (by decide)), if_pos h]

theorem dispatch_unlk (h : op &&& 0xFFF8 = 0x4E58) :
    (dispatch op : M σ Int) = costed (execUnlk op) 8 := by
  rw [dispatch_line4 (lineOf_of_pattern h (by decide)), line4_rest h (by decide), line4Rest,
    if_neg (mask_ne h (by decide)), if_neg (by rw [h]; decide), if_pos h]

theorem dispatch_rts (h : op = 0x4E75) : (dispatch op : M σ Int) = costed (execRts op) 16 := by
  rw [h]
  rfl

/-! ## What is stored -/

/-- The address past a call's own words. -/
def returnAddress (op : U16) (pc : U32) : U32 :=
  if lineOf op = 6 then pc + 2 + (if op &&& 0xFF = 0 then 2 else 0)
  else pc + 2 + (eaField op .long).extension

/-- `value` was pushed, and nothing else stored. -/
structure Pushed (value : U32) (c d : Core) : Prop where
  sp : d.aRegs 7 = c.aRegs 7 - 4
  aRegs : ∀ q, q ≠ 7 → d.aRegs q = c.aRegs q
  memory : d.memory = storeLong c.memory (maskAddress24 (c.aRegs 7 - 4)) value

theorem push32_pushed (value : U32) :
    Yields k (push32 value : M σ Unit) fun _ => Pushed value :=
  (push32_yields value).mono fun _ c d h => by
    subst h
    exact ⟨Function.update_self 7 _ c.aRegs, fun q hq => Function.update_of_ne hq _ _, rfl⟩

/-! ## Calls -/

theorem branchDisplacement_yields (op : U16) :
    Yields k (branchDisplacement op : M σ U32) fun _ c d =>
      d = { c with pc := c.pc + if op &&& 0xFF = 0 then 2 else 0 } := by
  unfold branchDisplacement
  split
  · refine .bind fetch_yields fun w => .pure ?_
    rintro _ c ⟨-, rfl⟩
    rfl
  · refine .pure fun c => ?_
    have hpc : c.pc + 0 = c.pc := BitVec.add_zero _
    rw [hpc]

/-- A BSR pushes the PC and goes elsewhere. -/
theorem execBsr_pushes (target : U32) :
    Yields k (execBsr target : M σ Unit) fun _ c d => Pushed c.pc c d := by
  refine (execBsr_jumps target).mono ?_
  rintro _ c d ⟨_, rfl, rfl⟩
  exact ⟨Function.update_self 7 _ c.aRegs, fun q hq => Function.update_of_ne hq _ _, rfl⟩

theorem jumpSubroutine_pushes (target : U32) :
    Yields k (jumpSubroutine target : M σ Unit) fun _ c d => Pushed c.pc c d := by
  refine .ite (fun _ => Yields.look fun _ => .of_throws (raiseOddTargetFault_throws _ _)) fun _ =>
    Yields.bind (isUnmappedTarget_yields target) fun _ => .ite (fun _ => .look fun _ => .of_throws
      (raiseBusTargetFault_throws _ _)) fun _ => .getPc fun pc => .bind (push32_pushed pc) fun _ =>
        (setPc_yields target).mono ?_
  rintro _ d e rfl c hpushed rfl _ rfl
  exact ⟨hpushed.sp, hpushed.aRegs, hpushed.memory⟩

theorem notControl_stepped {mode reg : Fin 8} (h : notControl mode reg = false) :
    mode ≠ 3 ∧ mode ≠ 4 := by
  revert mode reg
  decide

/-- A control operand leaves the registers alone. -/
theorem next_control {mode reg : Fin 8} (h : notControl mode reg = false) (c : Core) :
    Operand.next ⟨mode, reg, .long⟩ c =
      { c with pc := c.pc + Operand.extension ⟨mode, reg, .long⟩ } := by
  obtain ⟨h3, h4⟩ := notControl_stepped h
  simp only [Operand.next, Operand.stepped]

theorem isCall_cases (h : isCall op = true) :
    (lineOf op = 6 ∧ conditionField op = 1) ∨ op &&& 0xFFC0 = 0x4E80 := by
  simpa only [isCall, Bool.or_eq_true, Bool.and_eq_true, beq_iff_eq] using h

/-- A call pushes the address past its own words. -/
theorem call_pushes (h : isCall op = true) : Yields k (dispatch op : M σ Int) fun _ c d =>
    Pushed (returnAddress op (c.pc - 2)) c d := by
  rcases isCall_cases h with ⟨hline, hcond⟩ | hjsr
  · rw [dispatch_bcc hline]
    refine costed_yields (Yields.bind (branchDisplacement_yields op) fun disp => .look fun pc => ?_)
    rw [if_pos hcond]
    refine (execBsr_pushes _).mono ?_
    rintro _ d e hpushed c rfl
    rw [returnAddress, if_pos hline, BitVec.sub_add_cancel]
    exact ⟨hpushed.sp, hpushed.aRegs, hpushed.memory⟩
  · have hline : lineOf op ≠ 6 := by
      rw [lineOf_of_mask hjsr]
      decide
    have hbit : op.getLsbD 6 = false := by
      have h := congrArg (fun w : U16 => w.getLsbD 6) hjsr
      simpa using h
    rw [dispatch_jsr hjsr]
    refine Yields.bind (S := fun _ c d => Pushed (returnAddress op (c.pc - 2)) c d) ?_ fun _ =>
      .look fun thrown => .pure fun _ _ h => h
    refine Yields.bind (calcEaCtl_yields _ _ true) fun ea => ?_
    rw [hbit, if_pos (by decide)]
    refine (jumpSubroutine_pushes _).mono ?_
    rintro _ d e hpushed c ⟨hcontrol, hea⟩
    have hd : d = { c with pc := c.pc + (eaField op .long).extension } := by
      rw [hea.core]
      exact next_control hcontrol c
    subst hd
    rw [returnAddress, if_neg hline, BitVec.sub_add_cancel]
    exact ⟨hpushed.sp, hpushed.aRegs, hpushed.memory⟩

/-- A return goes where the stack says. -/
structure Popped (c d : Core) : Prop where
  sp : d.aRegs 7 = c.aRegs 7 + 4
  aRegs : ∀ q, q ≠ 7 → d.aRegs q = c.aRegs q
  pc : d.pc = longAt c.memory (maskAddress24 (c.aRegs 7))
  memory : d.memory = c.memory

theorem rts_pops (h : op = 0x4E75) : Yields k (dispatch op : M σ Int) fun _ => Popped := by
  rw [dispatch_rts h]
  refine costed_yields (Yields.bind pop32_yields fun pc => (setPc_yields pc).mono ?_)
  rintro _ d e rfl c ⟨rfl, rfl⟩
  exact ⟨Function.update_self 7 _ c.aRegs, fun q hq => Function.update_of_ne hq _ _, rfl, rfl⟩

/-! ## Frames -/

/-- LINK pushes its register, points it to the pushed value and makes room. -/
structure Linked (r : Fin 8) (c d : Core) : Prop where
  frame : d.aRegs r = c.aRegs 7 - 4
  sp : d.aRegs 7 = c.aRegs 7 - 4 + c.word.signExtend 32
  aRegs : ∀ q, q ≠ r → q ≠ 7 → d.aRegs q = c.aRegs q
  memory : d.memory = storeLong c.memory (maskAddress24 (c.aRegs 7 - 4)) (c.aRegs r)

theorem link_links (h : op &&& 0xFFF8 = 0x4E50) (hr : field op 0 ≠ 7) :
    Yields k (dispatch op : M σ Int) fun _ => Linked (field op 0) := by
  rw [dispatch_link h]
  refine costed_yields (Yields.bind fetch_yields fun disp => .getA fun a =>
    .bind (push32_pushed a) fun _ => .getA fun b => .assignA <| .getA fun x => .setA ?_)
  rintro f hx e rfl hb d hpushed ha c ⟨rfl, rfl⟩
  have hsp : e.aRegs 7 = c.aRegs 7 - 4 := hpushed.sp
  have hframe : Function.update e.aRegs (field op 0) b 7 = c.aRegs 7 - 4 :=
    (Function.update_of_ne hr.symm _ _).trans hsp
  subst ha hb hx
  refine ⟨?_, ?_, fun q hq hq7 => ?_, hpushed.memory⟩
  · exact (Function.update_of_ne hr _ _).trans ((Function.update_self _ _ _).trans hsp)
  · exact (Function.update_self 7 _ (Function.update e.aRegs (field op 0) (e.aRegs 7))).trans
      (congrArg (· + c.word.signExtend 32) hframe)
  · exact (Function.update_of_ne hq7 _ _).trans
      ((Function.update_of_ne hq _ _).trans (hpushed.aRegs q hq7))

/-- UNLK takes the frame down. -/
structure Unlinked (r : Fin 8) (c d : Core) : Prop where
  register : d.aRegs r = longAt c.memory (maskAddress24 (c.aRegs r))
  sp : d.aRegs 7 = c.aRegs r + 4
  aRegs : ∀ q, q ≠ r → q ≠ 7 → d.aRegs q = c.aRegs q
  memory : d.memory = c.memory

theorem unlk_unlinks (h : op &&& 0xFFF8 = 0x4E58) (hr : field op 0 ≠ 7) :
    Yields k (dispatch op : M σ Int) fun _ => Unlinked (field op 0) := by
  rw [dispatch_unlk h]
  refine costed_yields (Yields.getA fun frame => .look fun pc => .skip (fun _ => rfl)
    (fun _ => rfl) <| .skip (fun _ => rfl) (fun _ => rfl) <| .bind (read32_yields frame) fun v =>
      .assignA <| .setA ?_)
  rintro d e rfl c ⟨rfl, rfl⟩ rfl
  refine ⟨?_, ?_, fun q hq hq7 => ?_, rfl⟩
  · exact Function.update_self _ _ _
  · exact (Function.update_of_ne hr.symm _ _).trans (Function.update_self 7 _ c.aRegs)
  · exact (Function.update_of_ne hq _ _).trans (Function.update_of_ne hq7 _ _)

end M68k
