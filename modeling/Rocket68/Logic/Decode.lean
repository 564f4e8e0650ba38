import Rocket68.Logic.Targets

/-!
# Where the decoder sends an instruction

Each lemma names the fields of a group of instructions and the handler, with its cost,
that `dispatch` runs on them.
-/

namespace M68k

open Trap TrapM

variable {σ : Type} {op : U16} {size : M68kSize}

theorem costed_ok {body : M σ Unit} {h : Host σ} {s t : M68kCpu σ} (hbody : body h s = .ok () t)
    (cycles : Int) : costed body cycles h s = .ok cycles t := by
  rw [costed, bind_ok hbody]
  rfl

/-! ## Lines 9 and D -/

/-- The opmodes of a data register destination. -/
theorem toRegister {opmode : Fin 8} (h : opmode < 3) :
    regToEa opmode = false ∧ ¬(opmode = 3 ∨ opmode = 7) := by
  revert opmode
  decide

theorem dispatch_lineD (h : lineOf op = 0xD) : (dispatch op : M σ Int) = lineD op := by
  unfold dispatch
  rw [h]
  rfl

theorem dispatch_line9 (h : lineOf op = 9) : (dispatch op : M σ Int) = line9 op := by
  unfold dispatch
  rw [h]
  rfl

theorem lineAddSub_extended {extended standard : U16 → M σ Unit}
    (hto : regToEa (field op 6) = true) (hmode : field op 3 = 0 ∨ field op 3 = 1) :
    lineAddSub extended standard op =
      costed (extended op) (extendedCycles (field op 6) (field op 3)) := by
  rw [lineAddSub, if_pos ⟨hto, hmode⟩]

/-! ## Line 5 -/

/-- The size code 3 is the pattern 11. -/
theorem sizeOf?_mask (h : sizeOf? (sizeBits op) = some size) : op &&& 0xC0 ≠ 0xC0 := by
  intro hmask
  have hbits : sizeBits op = 3 := by
    have hshift : ((op &&& 0xC0) >>> 6).setWidth 2 = (op >>> 6).setWidth 2 := by
      apply BitVec.eq_of_getLsbD_eq
      intro i hi
      have hbit : ∀ j : Fin 2, (0xC0 : U16).getLsbD (6 + j) = true := by decide
      simp only [BitVec.getLsbD_setWidth, BitVec.getLsbD_ushiftRight, BitVec.getLsbD_and,
        hbit ⟨i, hi⟩, Bool.and_true]
    rw [sizeBits, ← hshift, hmask]
    rfl
  rw [hbits] at h
  cases h

theorem dispatch_quick (h : lineOf op = 5) (hsize : sizeOf? (sizeBits op) = some size) :
    (dispatch op : M σ Int) =
      costed (if op &&& 0x0100 != 0 then execSubq op else execAddq op) (quickCycles op) := by
  unfold dispatch
  rw [h]
  show line5 op = _
  rw [line5, if_neg (sizeOf?_mask hsize)]

/-! ## Line 0 -/

theorem immediateSize3_of_size (hsize : sizeOf? (sizeBits op) = some size) :
    immediateSize3 op = false := by
  have hbits : (sizeBits op == 3) = false := by
    rw [beq_eq_false_iff_ne]
    intro h
    rw [h] at hsize
    cases hsize
  rw [immediateSize3, hbits, Bool.false_and]

theorem dispatch_cmpi (h : lineOf op = 0) (htop : conditionField op = 0xC)
    (hsize : sizeOf? (sizeBits op) = some size) :
    (dispatch op : M σ Int) = costed (execCmpi op)
      (if sizeBits op = 2 ∧ op &&& 0x38 = 0 then 6 else 4) := by
  unfold dispatch
  rw [h]
  show line0 op = _
  rw [line0, immediateSize3_of_size hsize, if_neg Bool.false_ne_true, htop]
  rfl

/-! ## Line 4 -/

theorem lineOf_of_top {c : U16} (h : op &&& 0xFF00 = c) : lineOf op = lineOf c :=
  lineOf_of_pattern h (by decide)

/-- The masks of the first half of line 4. -/
def line4Masks : List (U16 × U16) :=
  [(0xFFFF, 0x4E70), (0xFFFF, 0x4E71), (0xFFFF, 0x4E72), (0xFFFF, 0x4E73), (0xFFFF, 0x4E75),
    (0xFFFF, 0x4E76), (0xFFFF, 0x4E77), (0xFFFF, 0x4E74), (0xFFFF, 0x4E7A), (0xFFFF, 0x4E7B),
    (0xFFF8, 0x4848), (0xFFF0, 0x4E40), (0xFFF0, 0x4E60), (0xFFC0, 0x4E80), (0xFFC0, 0x4EC0),
    (0xFFC0, 0x40C0), (0xFFC0, 0x44C0), (0xFFC0, 0x46C0), (0xF1C0, 0x4180), (0xF1C0, 0x41C0)]

/-- A value under one mask rules out every mask of the first half. -/
def passesMasks (m c : U16) : Bool := line4Masks.all fun p => p.2 &&& m != c &&& p.1

theorem line4_rest {m c : U16} (h : op &&& m = c) (hpass : passesMasks m c = true) :
    (line4 op : M σ Int) = line4Rest op := by
  have hne : ∀ p ∈ line4Masks, op &&& p.1 ≠ p.2 := by
    intro p hp
    exact mask_ne h (bne_iff_ne.mp (List.all_eq_true.mp hpass p hp))
  have hexact (c' : U16) (hc : (0xFFFF, c') ∈ line4Masks) : op ≠ c' := by
    rintro rfl
    apply hne _ hc
    exact BitVec.and_allOnes
  rw [line4, if_neg (hexact _ (by decide)), if_neg (hexact _ (by decide)),
    if_neg (hexact _ (by decide)), if_neg (hexact _ (by decide)), if_neg (hexact _ (by decide)),
    if_neg (hexact _ (by decide)), if_neg (hexact _ (by decide)), if_neg (hexact _ (by decide)),
    if_neg (not_or.mpr ⟨hexact _ (by decide), hexact _ (by decide)⟩),
    if_neg (hne (_, _) (by decide)), if_neg (hne (_, _) (by decide)),
    if_neg (hne (_, _) (by decide)), if_neg (hne (_, _) (by decide)),
    if_neg (hne (_, _) (by decide)), if_neg (hne (_, _) (by decide)),
    if_neg (hne (_, _) (by decide)), if_neg (hne (_, _) (by decide)),
    if_neg (hne (_, _) (by decide)), if_neg (hne (_, _) (by decide))]

theorem size_pattern (op : U16) :
    op &&& (0xC0 : U16) = ((op >>> 6).setWidth 2).setWidth 16 <<< 6 := by
  have hbits : ∀ i : Fin 16, (0xC0 : U16).getLsbD i =
      (decide ((i : Nat) < 8) && !decide ((i : Nat) < 6)) := by decide
  apply BitVec.eq_of_getLsbD_eq
  intro i hi
  simp only [BitVec.getLsbD_and, hbits ⟨i, hi⟩, BitVec.getLsbD_shiftLeft, BitVec.getLsbD_setWidth,
    BitVec.getLsbD_ushiftRight]
  by_cases h6 : i < 6
  · simp [h6]
  · have hindex : 6 + (i - 6) = i := by omega
    by_cases h8 : i < 8
    · simp [h6, h8, hi, hindex, show i - 6 < 16 by omega, show i - 6 < 2 by omega]
    · simp [h8, show ¬i - 6 < 2 by omega]

/-- The top byte and the size code make up the upper ten bits. -/
theorem top_size {c : U16} (h : op &&& 0xFF00 = c) (hsize : sizeOf? (sizeBits op) = some size) :
    op &&& 0xFFC0 = c ||| 0x00 ∨ op &&& 0xFFC0 = c ||| 0x40 ∨ op &&& 0xFFC0 = c ||| 0x80 := by
  have hsplit : (0xFFC0 : U16) = 0xFF00 ||| 0xC0 := by decide
  rw [hsplit, BitVec.and_or_distrib_left, h, size_pattern]
  revert hsize
  rw [sizeBits]
  generalize (op >>> 6).setWidth 2 = code
  revert code
  intro code hsize
  match code with
  | 0#2 => exact .inl rfl
  | 1#2 => exact .inr (.inl rfl)
  | 2#2 => exact .inr (.inr rfl)
  | 3#2 => cases hsize

theorem dispatch_clr (h : op &&& 0xFF00 = 0x4200) (hsize : sizeOf? (sizeBits op) = some size) :
    (dispatch op : M σ Int) = costed (execClr op) (unaryCycles op) := by
  have hrest : (line4 op : M σ Int) = line4Rest op := by
    rcases top_size h hsize with h | h | h <;> exact line4_rest h (by decide)
  have hccr : op &&& 0xFFC0 ≠ 0x42C0 := by
    rcases top_size h hsize with h | h | h <;> (rw [h]; decide)
  rw [dispatch_line4 (lineOf_of_top h), hrest, line4Rest,
    if_neg (mask_ne h (by decide)), if_neg (mask_ne h (by decide)),
    if_neg (mask_ne h (by decide)), if_neg (mask_ne h (by decide)),
    if_neg (mask_ne h (by decide)), if_neg (mask_ne h (by decide)),
    if_neg (mask_ne h (by decide)), if_neg (mask_ne h (by decide)), if_neg hccr, if_pos h]

theorem dispatch_nbcd (h : op &&& 0xFFC0 = 0x4800) :
    (dispatch op : M σ Int) = costed (execNbcd op) (if op &&& 0x38 == 0 then 6 else 8) := by
  rw [dispatch_line4 (lineOf_of_mask h), line4_rest h (by decide), line4Rest,
    if_neg (mask_ne h (by decide)), if_neg (mask_ne h (by decide)),
    if_neg (mask_ne h (by decide)), if_neg (mask_ne h (by decide)), if_pos h]

theorem dispatch_movem (h : op &&& 0xFB80 = 0x4880) (hmode : field op 3 ≠ 0) :
    (dispatch op : M σ Int) = costed (execMovem op) 0 := by
  have hline : lineOf op = 4 := lineOf_of_pattern h (by decide)
  rw [dispatch_line4 hline, line4_rest h (by decide), line4Rest, if_pos h, if_neg hmode]

/-! ## Lines 8 and C -/

theorem dispatch_abcd (h : lineOf op = 0xC) (hopmode : field op 6 = 4)
    (hmode : field op 3 = 0 ∨ field op 3 = 1) :
    (dispatch op : M σ Int) = costed (execAbcd op) (if field op 3 = 1 then 18 else 6) := by
  unfold dispatch
  rw [h]
  show lineC op = _
  unfold lineC
  dsimp only
  rw [hopmode, if_neg (by decide), if_pos ⟨rfl, hmode⟩]

theorem dispatch_sbcd (h : lineOf op = 8) (hopmode : field op 6 = 4)
    (hmode : field op 3 = 0 ∨ field op 3 = 1) :
    (dispatch op : M σ Int) = costed (execSbcd op) (if field op 3 = 1 then 18 else 6) := by
  unfold dispatch
  rw [h]
  show line8 op = _
  unfold line8
  dsimp only
  rw [hopmode, if_neg (by decide), if_pos ⟨rfl, hmode⟩]

/-! ## MOVE -/

/-- The size code of MOVE is its line. -/
theorem moveSize?_line (op : U16) : moveSize? op =
    match Fin.ofNat 4 (lineOf op) with
    | 1 => some .byte
    | 3 => some .word
    | 2 => some .long
    | _ => none := by
  have hcode : ((op >>> 12).setWidth 2).toFin = Fin.ofNat 4 (lineOf op) := by
    apply Fin.ext
    show ((op >>> 12).setWidth 2).toNat = ((op >>> 12).setWidth 4).toNat % 4
    rw [BitVec.toNat_setWidth, BitVec.toNat_setWidth]
    omega
  rw [moveSize?, hcode]
  generalize Fin.ofNat 4 (lineOf op) = code
  revert code
  decide

end M68k
