import Rocket68.Logic.Retire
import Rocket68.Logic.Decode

/-!
# What instructions do to registers

An instruction changes one data register at most, and no more of it than its size. An
instruction with an address register for its destination writes all of it and leaves the
condition codes alone.
-/

namespace M68k

open Trap TrapM

variable {σ : Type} {k : Option (Nat → M68kCpu σ → M68kCpu σ × U32)} {s t u : M68kCpu σ}
  {c d e : Core}

/-! ## Sizes -/

/-- The size of MOVEP. -/
def movepSize (op : U16) : M68kSize :=
  match field op 6 with
  | 4 | 6 => .word
  | _ => .long

/-- The size of an instruction of line 4. -/
def line4Size (op : U16) : M68kSize :=
  if op &&& 0xF1C0 = 0x4180 then .word
  else if op &&& 0xFFC0 = 0x4800 ∨ op &&& 0xFFC0 = 0x4AC0 then .byte
  else if op &&& 0xFBC0 = 0x4880 then .word
  else if op &&& 0xFFC0 ∈ [0x40C0, 0x42C0, 0x44C0, 0x46C0] then .word
  else if op &&& 0xFF00 ∈ [0x4000, 0x4200, 0x4400, 0x4600, 0x4A00] then sized op
  else .long

/-- The size of what an instruction writes to a data register: its operand size, but a long for
MULU, MULS, DIVU, DIVS, SWAP and EXT.L. The bit operations take a data register as a long. -/
def resultSize (op : U16) : M68kSize :=
  match (lineOf op : Nat) with
  | 0x0 =>
      if conditionField op = 8 then bitSize op
      else if conditionField op % 2 = 0 then sized op
      else if field op 3 = 1 then movepSize op
      else bitSize op
  | 0x1 => .byte
  | 0x2 => .long
  | 0x3 => .word
  | 0x4 => line4Size op
  | 0x5 =>
      if op &&& 0x00C0 = 0x00C0 then (if field op 3 = 1 then .word else .byte)
      else sized op
  | 0x8 | 0xC =>
      if field op 6 = 3 ∨ field op 6 = 7 then .long else opmodeSize (field op 6)
  | 0x9 | 0xB | 0xD => opmodeSize (field op 6)
  | 0xE => if sizeBits op = 3 then .word else sized op
  | _ => .long

theorem withSize_size {op : U16} {p : M68kSize → Plan} (h : ∀ size, (p size).size = some size) :
    (withSize op p).size = some (sized op) := by
  unfold withSize sized
  split
  · next hsize => rw [hsize]; rfl
  · next size hsize => rw [hsize]; exact h size

theorem logicPlan_size {ccr status op : U16} (hccr : sized ccr = .byte)
    (hstatus : sized status = .word) : (logicPlan ccr status op).size = some (sized op) := by
  unfold logicPlan
  split
  · next h => rw [h, hccr]
  split
  · next h => rw [h, hstatus]
  · exact withSize_size fun _ => rfl

theorem bitPlan_size (use : Use) (op : U16) : (bitPlan use op).size = some (bitSize op) := by
  unfold bitPlan
  split <;> rfl

theorem bitsPlan_size (op : U16) : (bitsPlan op).size = some (bitSize op) := by
  unfold bitsPlan
  split <;> exact bitPlan_size _ op

theorem movesPlan_size (op : U16) (c : Core) : (movesPlan op c).size = some (sized op) :=
  withSize_size fun size => by split <;> [rfl; split <;> rfl]

theorem movepPlan_size (op : U16) : (movepPlan op).size = some (movepSize op) := by
  have hcases : ∀ m : Fin 8, m = 4 ∨ m = 5 ∨ m = 6 ∨ m = 7 ∨ m = 0 ∨ m = 1 ∨ m = 2 ∨ m = 3 := by
    decide
  unfold movepPlan movepSize
  rcases hcases (field op 6) with h | h | h | h | h | h | h | h <;> simp only [h]

theorem line0Plan_size (op : U16) (c : Core) (h : lineOf op = 0) :
    (line0Plan op c).size = some (resultSize op) := by
  have hsize : resultSize op = if conditionField op = 8 then bitSize op
      else if conditionField op % 2 = 0 then sized op
      else if field op 3 = 1 then movepSize op
      else bitSize op := by
    rw [resultSize, h]
    rfl
  have hodd : (if field op 3 = 1 then movepPlan op else bitsPlan op).size =
      some (if field op 3 = 1 then movepSize op else bitSize op) := by
    split
    · exact movepPlan_size op
    · exact bitsPlan_size op
  rw [hsize, line0Plan]
  cases himm : immediateSize3 op with
  | true =>
    have hbits : sizeBits op = 3 ∧ conditionField op ≠ 8 ∧ conditionField op % 2 = 0 := by
      rw [immediateSize3, Bool.and_eq_true, beq_iff_eq] at himm
      refine ⟨himm.1, ?_⟩
      have hlist := himm.2
      revert hlist
      generalize conditionField op = top
      revert top
      decide
    have hlong : sized op = .long := by rw [sized, hbits.1]; rfl
    rw [if_pos rfl, if_neg hbits.2.1, if_pos hbits.2.2, hlong]
    rfl
  | false =>
    rw [if_neg Bool.false_ne_true]
    rcases nibble_cases (conditionField op) with htop | htop | htop | htop | htop | htop | htop |
      htop | htop | htop | htop | htop | htop | htop | htop | htop <;> rw [htop]
    · exact logicPlan_size (by decide) (by decide)
    · exact hodd
    · exact logicPlan_size (by decide) (by decide)
    · exact hodd
    · exact withSize_size fun _ => rfl
    · exact hodd
    · exact withSize_size fun _ => rfl
    · exact hodd
    · exact bitsPlan_size op
    · exact hodd
    · exact logicPlan_size (by decide) (by decide)
    · exact hodd
    · exact withSize_size fun _ => rfl
    · exact hodd
    · exact movesPlan_size op c
    · exact hodd

/-- The size of a plan that is chosen. -/
theorem size_choose {b : Prop} [Decidable b] {p q : Plan} {z : Option M68kSize}
    (hp : b → p.size = z) (hq : ¬b → q.size = z) : (if b then p else q).size = z := by
  split
  · next h => exact hp h
  · next h => exact hq h

/-- The masks of `line4Size`. -/
def line4SizeMasks : List (U16 × U16) :=
  [(0xF1C0, 0x4180), (0xFFC0, 0x4800), (0xFFC0, 0x4AC0), (0xFBC0, 0x4880), (0xFFC0, 0x40C0),
    (0xFFC0, 0x42C0), (0xFFC0, 0x44C0), (0xFFC0, 0x46C0), (0xFF00, 0x4000), (0xFF00, 0x4200),
    (0xFF00, 0x4400), (0xFF00, 0x4600), (0xFF00, 0x4A00)]

theorem line4Size_of_none {op : U16} (h : ∀ p ∈ line4SizeMasks, op &&& p.1 ≠ p.2) :
    line4Size op = .long := by
  simp only [line4SizeMasks, List.forall_mem_cons, List.not_mem_nil, false_implies,
    implies_true, and_true] at h
  obtain ⟨h1, h2, h3, h4, h5, h6, h7, h8, h9, h10, h11, h12, h13⟩ := h
  have hstatus : ¬op &&& 0xFFC0 ∈ [(0x40C0 : U16), 0x42C0, 0x44C0, 0x46C0] := by
    simp only [List.mem_cons, List.not_mem_nil, or_false, not_or]
    exact ⟨h5, h6, h7, h8⟩
  have hunary : ¬op &&& 0xFF00 ∈ [(0x4000 : U16), 0x4200, 0x4400, 0x4600, 0x4A00] := by
    simp only [List.mem_cons, List.not_mem_nil, or_false, not_or]
    exact ⟨h9, h10, h11, h12, h13⟩
  rw [line4Size, if_neg h1, if_neg (not_or.mpr ⟨h2, h3⟩), if_neg h4, if_neg hstatus,
    if_neg hunary]

theorem line4Size_long {op m v : U16} (h : op &&& m = v)
    (hpass : (line4SizeMasks.all fun p => p.2 &&& m != v &&& p.1) = true) :
    line4Size op = .long :=
  line4Size_of_none fun p hp => mask_ne h (bne_iff_ne.mp (List.all_eq_true.mp hpass p hp))

/-- A mask that another one contains. -/
theorem mask_sub {op m v m' : U16} (h : op &&& m = v) (hsub : m &&& m' = m') :
    op &&& m' = v &&& m' := by
  rw [← h, BitVec.and_assoc, hsub]

/-- NEGX, CLR, NEG, NOT and TST, once the size code 3 has been dealt with. -/
theorem line4Size_unary {op v : U16} (h : op &&& 0xFF00 = v)
    (hv : v ∈ [(0x4000 : U16), 0x4200, 0x4400, 0x4600, 0x4A00])
    (hthree : op &&& 0xFFC0 ≠ v ||| 0xC0) : line4Size op = sized op := by
  have hne : op &&& 0xF1C0 ≠ 0x4180 ∧ op &&& 0xFFC0 ≠ 0x4800 ∧ op &&& 0xFBC0 ≠ 0x4880 := by
    simp only [List.mem_cons, List.not_mem_nil, or_false] at hv
    rcases hv with rfl | rfl | rfl | rfl | rfl <;>
      exact ⟨mask_ne h (by decide), mask_ne h (by decide), mask_ne h (by decide)⟩
  have hten : op &&& 0xFFC0 ≠ 0x4AC0 ∧
    ¬op &&& 0xFFC0 ∈ [(0x40C0 : U16), 0x42C0, 0x44C0, 0x46C0] := by
    simp only [List.mem_cons, List.not_mem_nil, or_false] at hv
    simp only [List.mem_cons, List.not_mem_nil, or_false, not_or]
    rcases hv with rfl | rfl | rfl | rfl | rfl
    · exact ⟨mask_ne h (by decide), hthree, mask_ne h (by decide), mask_ne h (by decide),
        mask_ne h (by decide)⟩
    · exact ⟨mask_ne h (by decide), mask_ne h (by decide), hthree, mask_ne h (by decide),
        mask_ne h (by decide)⟩
    · exact ⟨mask_ne h (by decide), mask_ne h (by decide), mask_ne h (by decide), hthree,
        mask_ne h (by decide)⟩
    · exact ⟨mask_ne h (by decide), mask_ne h (by decide), mask_ne h (by decide),
        mask_ne h (by decide), hthree⟩
    · exact ⟨hthree, mask_ne h (by decide), mask_ne h (by decide), mask_ne h (by decide),
        mask_ne h (by decide)⟩
  rw [line4Size, if_neg hne.1, if_neg (not_or.mpr ⟨hne.2.1, hten.1⟩), if_neg hne.2.2,
    if_neg hten.2, h, if_pos hv]

theorem moveSrPlan_size {op : U16} (h : op &&& 0xFFC0 = 0x46C0 ∨ op &&& 0xFFC0 = 0x40C0 ∨
    op &&& 0xFFC0 = 0x42C0) : (moveSrPlan op).size = some .word := by
  unfold moveSrPlan
  refine size_choose (fun _ => rfl) fun h46 => size_choose (fun _ => rfl) fun h40 =>
    size_choose (fun _ => rfl) fun h42 => ?_
  rcases h with h | h | h
  · exact absurd h h46
  · exact absurd h h40
  · exact absurd h h42

/-- An operand mask of the upper ten bits. -/
theorem line4Size_status {op v : U16} (h : op &&& 0xFFC0 = v)
    (hv : v ∈ [(0x40C0 : U16), 0x42C0, 0x44C0, 0x46C0]) : line4Size op = .word := by
  have hne : op &&& 0xF1C0 ≠ 0x4180 ∧ v ≠ 0x4800 ∧ v ≠ 0x4AC0 ∧ op &&& 0xFBC0 ≠ 0x4880 := by
    simp only [List.mem_cons, List.not_mem_nil, or_false] at hv
    rcases hv with rfl | rfl | rfl | rfl <;>
      exact ⟨mask_ne h (by decide), by decide, by decide, mask_ne h (by decide)⟩
  rw [line4Size, if_neg hne.1, h, if_neg (not_or.mpr ⟨hne.2.1, hne.2.2.1⟩), if_neg hne.2.2.2,
    if_pos hv]

/-- A field is read off the pattern of its bits. -/
theorem field_of_pattern {op m v : U16} {n : Nat} (h : op &&& m = v)
    (hm : ∀ i : Fin 3, m.getLsbD (n + i) = true) : field op n = field v n := by
  subst h
  unfold field
  congr 1
  apply BitVec.eq_of_getLsbD_eq
  intro i hi
  simp only [BitVec.getLsbD_setWidth, BitVec.getLsbD_ushiftRight, BitVec.getLsbD_and,
    hm ⟨i, hi⟩, Bool.and_true]

/-- Bit 6 tells EXT.W from EXT.L. -/
theorem ext_pattern {op : U16} (h : op &&& 0xFB80 = 0x4880) :
    op &&& 0xFBC0 = 0x4880 ∨ op &&& 0xFBC0 = 0x48C0 := by
  have hsplit : op &&& 0xFBC0 = (op &&& 0xFB80) ||| (op &&& 0x40) := by
    rw [← BitVec.and_or_distrib_left]
    rfl
  have hbit : op &&& 0x40 = 0 ∨ op &&& 0x40 = 0x40 := by
    have hpow : (0x40 : U16) = BitVec.twoPow 16 6 := by decide
    rw [hpow, BitVec.and_twoPow]
    cases op.getLsbD 6
    · exact .inl rfl
    · exact .inr rfl
  rw [hsplit, h]
  rcases hbit with hb | hb
  · exact .inl (by rw [hb]; rfl)
  · exact .inr (by rw [hb]; rfl)

theorem line4RestPlan_size (op : U16) (c : Core) (hmovem : isMovem op = false)
    (hrest : ∀ p ∈ line4Masks, op &&& p.1 ≠ p.2) :
    (line4RestPlan op c).size = some (line4Size op) := by
  have hunary {v : U16} (h : op &&& 0xFF00 = v)
      (hv : v ∈ [(0x4000 : U16), 0x4200, 0x4400, 0x4600, 0x4A00]) {w : U16}
      (hthree : op &&& 0xFFC0 ≠ w) (hw : w = v ||| 0xC0) {use : M68kSize → Use} :
      (unaryPlan use op).size = some (line4Size op) := by
    rw [line4Size_unary h hv (hw ▸ hthree)]
    exact withSize_size fun _ => rfl
  have hlong {p : Plan} {m v : U16} (hp : p.size = some .long) (h : op &&& m = v)
      (hpass : (line4SizeMasks.all fun p => p.2 &&& m != v &&& p.1) = true) :
      p.size = some (line4Size op) := by rw [hp, line4Size_long h hpass]
  have hbyte (h : op &&& 0xFFC0 = 0x4800 ∨ op &&& 0xFFC0 = 0x4AC0) : line4Size op = .byte := by
    have hchk : op &&& 0xF1C0 ≠ 0x4180 := by
      rcases h with h | h
      · exact mask_ne h (by decide)
      · exact mask_ne h (by decide)
    rw [line4Size, if_neg hchk, if_pos h]
  unfold line4RestPlan
  -- follows the masks of line 4 in the order the decoder tries them
  refine size_choose (fun hext => size_choose (fun h0 => ?_) fun h0 => ?_) fun hext =>
    size_choose (fun h => hlong rfl h (by decide)) fun _ =>
    size_choose (fun h => hlong rfl h (by decide)) fun _ =>
    size_choose (fun h => congrArg some (hbyte (.inr h)).symm) fun htas =>
    size_choose (fun h => congrArg some (hbyte (.inl h)).symm) fun hnbcd =>
    size_choose (fun h => size_choose (fun _ => hlong rfl h (by decide))
      fun _ => hlong rfl h (by decide)) fun _ =>
    size_choose (fun h => hunary h (by decide) htas (by decide)) fun htst =>
    size_choose (fun h => hunary h (by decide) (hrest (0xFFC0, 0x40C0) (by decide))
      (by decide)) fun hnegx =>
    size_choose (fun h => ?_) fun hccr =>
    size_choose (fun h => hunary h (by decide) hccr (by decide)) fun hclr =>
    size_choose (fun h => hunary h (by decide) (hrest (0xFFC0, 0x44C0) (by decide))
      (by decide)) fun hneg =>
    size_choose (fun h => hunary h (by decide) (hrest (0xFFC0, 0x46C0) (by decide))
      (by decide)) fun hnot => ?_
  · rcases ext_pattern hext with hpat | hpat
    · have hfield : field op 6 = 2 := field_of_pattern hpat (by decide)
      rw [line4Size, if_neg (mask_ne hpat (by decide)), if_neg (not_or.mpr
        ⟨mask_ne hpat (by decide), mask_ne hpat (by decide)⟩), if_pos hpat, extPlan, if_pos hfield]
    · have hfield : field op 6 = 3 := field_of_pattern hpat (by decide)
      rw [line4Size_long hpat (by decide), extPlan, if_neg (by rw [hfield]; decide)]
  -- MOVEM is excluded by assumption
  · have hyes : isMovem op = true := by
      rw [isMovem, Bool.and_eq_true, beq_iff_eq, bne_iff_ne]
      exact ⟨hext, h0⟩
    exact absurd (hyes.symm.trans hmovem) (by decide)
  · rw [moveSrPlan_size (.inr (.inr h)), line4Size_status h (by decide)]
  · have hwide : op &&& 0xFBC0 ≠ 0x4880 := fun h => hext (mask_sub h (by decide))
    rw [line4Size_of_none]
    · rfl
    · simp only [line4SizeMasks, List.forall_mem_cons, List.not_mem_nil, false_implies,
        implies_true, and_true]
      exact ⟨hrest (0xF1C0, 0x4180) (by decide), hnbcd, htas, hwide,
        hrest (0xFFC0, 0x40C0) (by decide), hccr, hrest (0xFFC0, 0x44C0) (by decide),
        hrest (0xFFC0, 0x46C0) (by decide), hnegx, hclr, hneg, hnot, htst⟩

theorem line4Plan_size (op : U16) (c : Core) (hmovem : isMovem op = false) :
    (line4Plan op c).size = some (line4Size op) := by
  have hlong {p : Plan} {m v : U16} (hp : p.size = some .long) (h : op &&& m = v)
      (hpass : (line4SizeMasks.all fun p => p.2 &&& m != v &&& p.1) = true) :
      p.size = some (line4Size op) := by rw [hp, line4Size_long h hpass]
  have hexact {p : Plan} {v : U16} (hp : p.size = some .long) (h : op = v)
      (hv : line4Size v = .long) : p.size = some (line4Size op) := by rw [hp, h, hv]
  have hrte : (rtePlan c).size = some .long := by
    unfold rtePlan
    split <;> rfl
  have husp : (moveUspPlan op).size = some .long := by
    unfold moveUspPlan
    split <;> rfl
  refine size_choose (fun h => hexact rfl h (by decide)) fun h0 =>
    size_choose (fun h => hexact rfl h (by decide)) fun h1 =>
    size_choose (fun h => hexact rfl h (by decide)) fun h2 =>
    size_choose (fun h => hexact hrte h (by decide)) fun h3 =>
    size_choose (fun h => hexact rfl h (by decide)) fun h5 =>
    size_choose (fun h => hexact rfl h (by decide)) fun h6 =>
    size_choose (fun h => hexact rfl h (by decide)) fun h7 =>
    size_choose (fun h => hexact rfl h (by decide)) fun h4 =>
    size_choose (fun h => h.elim (fun h => hexact rfl h (by decide))
      fun h => hexact rfl h (by decide)) fun hmovec =>
    size_choose (fun h => hlong rfl h (by decide)) fun hbkpt =>
    size_choose (fun h => hlong rfl h (by decide)) fun htrap =>
    size_choose (fun h => hlong husp h (by decide)) fun husp =>
    size_choose (fun h => hlong rfl h (by decide)) fun hjsr =>
    size_choose (fun h => hlong rfl h (by decide)) fun hjmp =>
    size_choose (fun h => ?_) fun hfrom =>
    size_choose (fun h => ?_) fun hccr =>
    size_choose (fun h => ?_) fun hto =>
    size_choose (fun h => ?_) fun hchk =>
    size_choose (fun h => hlong rfl h (by decide)) fun hlea => line4RestPlan_size op c hmovem ?_
  · rw [moveSrPlan_size (.inr (.inl h)), line4Size_status h (by decide)]
  · rw [line4Size_status h (by decide)]
    rfl
  · rw [moveSrPlan_size (.inl h), line4Size_status h (by decide)]
  · rw [line4Size, if_pos h]
    rfl
  · have hfull {v : U16} (h : op ≠ v) : op &&& 0xFFFF ≠ v := by
      have hones : op &&& 0xFFFF = op := BitVec.and_allOnes
      rwa [hones]
    obtain ⟨hmovecA, hmovecB⟩ := not_or.mp hmovec
    simp only [line4Masks, List.forall_mem_cons, List.not_mem_nil, false_implies, implies_true,
      and_true]
    exact ⟨hfull h0, hfull h1, hfull h2, hfull h3, hfull h5, hfull h6, hfull h7, hfull h4,
      hfull hmovecA, hfull hmovecB, hbkpt, htrap, husp, hjsr, hjmp, hfrom, hccr, hto, hchk, hlea⟩

/-! ## All lines -/

theorem addSubPlan_size (op : U16) :
    (addSubPlan op).size = some (opmodeSize (field op 6)) :=
  size_choose (fun _ => rfl) fun _ => size_choose (fun _ => rfl) fun _ => rfl

/-- The size field is the low half of the opmode. -/
theorem sizeBits_opmode (op : U16) : sizeBits op = Fin.ofNat 4 (field op 6) := by
  apply Fin.ext
  show ((op >>> 6).setWidth 2).toNat = ((op >>> 6).setWidth 3).toNat % 4
  rw [BitVec.toNat_setWidth, BitVec.toNat_setWidth]
  omega

theorem sized_opmode {op : U16} (h : regToEa (field op 6) = true) :
    sized op = opmodeSize (field op 6) := by
  rw [sized, sizeBits_opmode]
  revert h
  generalize field op 6 = opmode
  revert opmode
  decide

theorem extendedPlan_size (op : U16) : (extendedPlan op).size = some (sized op) :=
  withSize_size fun _ => size_choose (fun _ => rfl) fun _ => rfl

theorem bcdPlan_size (op : U16) : (bcdPlan op).size = some .byte :=
  size_choose (fun _ => rfl) fun _ => rfl

/-- ADDA, SUBA and the encodings of other lines have been dealt with. -/
theorem andOrPlan_size {op : U16} (h : ¬(field op 6 = 3 ∨ field op 6 = 7)) :
    (andOrPlan op).size = some (opmodeSize (field op 6)) :=
  size_choose (fun hyes => absurd hyes h) fun _ => size_choose (fun _ => rfl) fun _ => rfl

theorem lineAddSubPlan_size (op : U16) :
    (lineAddSubPlan op).size = some (opmodeSize (field op 6)) :=
  size_choose (fun h => (extendedPlan_size op).trans (congrArg some (sized_opmode h.1)))
    fun _ => addSubPlan_size op

theorem lineBPlan_size (op : U16) : (lineBPlan op).size = some (opmodeSize (field op 6)) := by
  refine size_choose (fun h => size_choose (fun hnot => ?_) fun _ => rfl) fun _ =>
    size_choose (fun _ => rfl) fun _ => rfl
  rw [h.1] at hnot
  exact absurd hnot (by decide)

theorem line5Plan_size (op : U16) : (line5Plan op).size = some
    (if op &&& 0x00C0 = 0x00C0 then (if field op 3 = 1 then .word else .byte) else sized op) := by
  refine size_choose (fun h => size_choose (fun h1 => ?_) fun h1 => ?_) fun h => ?_
  · rw [if_pos h, if_pos h1]
    rfl
  · rw [if_pos h, if_neg h1]
    rfl
  · rw [if_neg h]
    exact withSize_size fun _ => size_choose (fun _ => rfl) fun _ => rfl

/-- Lines 8 and C. -/
theorem mulPlan_size {op : U16} {p : Plan} (hp : ¬(field op 6 = 3 ∨ field op 6 = 7) →
    p.size = some (opmodeSize (field op 6))) :
    (if field op 6 = 3 ∨ field op 6 = 7 then mulDivPlan op
      else if field op 6 = 4 ∧ (field op 3 = 0 ∨ field op 3 = 1) then bcdPlan op else p).size =
    some (if field op 6 = 3 ∨ field op 6 = 7 then .long else opmodeSize (field op 6)) := by
  refine size_choose (fun h => ?_) fun h => size_choose (fun hbcd => ?_) fun _ => ?_
  · rw [if_pos h]
    rfl
  · rw [if_neg h, hbcd.1]
    exact bcdPlan_size op
  · rw [if_neg h]
    exact hp h

theorem shiftPlan_size (op : U16) :
    (shiftPlan op).size = some (if sizeBits op = 3 then .word else sized op) := by
  refine size_choose (fun h => ?_) fun h => ?_
  · rw [if_pos h]
  · rw [if_neg h]

theorem movePlan_size {op : U16} {size : M68kSize} (h : moveSize? op = some size) :
    (movePlan op).size = some size := by rw [movePlan_of h]

/-- The plan of an instruction bounds its result by the size of the instruction. -/
theorem plan_size (op : U16) (c : Core) (hmovem : isMovem op = false)
    (hexg : ¬(lineOf op = 0xC ∧ isExg op = true)) : (plan op c).size = some (resultSize op) := by
  have hmove := moveSize?_line op
  have hzero (h : lineOf op = 0) := line0Plan_size op c h
  unfold plan
  rcases nibble_cases (lineOf op) with h | h | h | h | h | h | h | h | h | h | h | h | h | h | h | h
  · simp only [h]
    exact hzero h
  all_goals
    simp only [resultSize, h] at hmove ⊢
  · exact movePlan_size hmove
  · exact movePlan_size hmove
  · exact movePlan_size hmove
  · exact line4Plan_size op c hmovem
  · exact line5Plan_size op
  · rfl
  · rfl
  · exact mulPlan_size andOrPlan_size
  · exact lineAddSubPlan_size op
  · rfl
  · exact lineBPlan_size op
  · exact mulPlan_size fun hopmode => size_choose (fun hyes => absurd ⟨h, hyes⟩ hexg)
      fun _ => andOrPlan_size hopmode
  · exact lineAddSubPlan_size op
  · exact shiftPlan_size op
  · rfl

/-! ## Address registers -/

/-- A source for an address register: words are sign-extended. -/
def extended (size : M68kSize) (v : U32) : U32 := if size = .word then sext16 v else v

/-- The address register an instruction has for its destination and the value it writes there, from
the state in which its operands come next. -/
def addressLoad? (op : U16) (c : Core) : Option (Fin 8 × U32) :=
  let size := opmodeSize (field op 6)
  let source := extended size ((eaField op size).value c)
  let dest := ((eaField op size).next c).aRegs (field op 9)
  match (lineOf op : Nat) with
  | 0x0 =>
      -- MOVES from memory
      let past : Core := { c with pc := c.pc + 2 }
      if conditionField op = 0xE ∧ ¬c.word.getLsbD 11 ∧ c.word.getLsbD 15 then
        (sizeOf? (sizeBits op)).map fun size =>
          (field c.word 12, signExtendSized size ((eaField op size).value past))
      else none
  | 0x1 | 0x2 | 0x3 =>
      -- MOVEA
      if field op 6 = 1 then
        (moveSize? op).map fun size =>
          (field op 9, extended size ((eaField op size).value c))
      else none
  | 0x4 =>
      -- LEA
      if op &&& 0xF1C0 = 0x41C0 then some (field op 9, (eaField op .long).address c) else none
  | 0x5 =>
      -- ADDQ, SUBQ
      if (sizeOf? (sizeBits op)).isSome ∧ field op 3 = 1 then
        some (field op 0, if op &&& 0x0100 != 0 then c.aRegs (field op 0) - quickData op
          else c.aRegs (field op 0) + quickData op)
      else none
  | 0x9 =>
      -- SUBA
      if field op 6 = 3 ∨ field op 6 = 7 then some (field op 9, dest - source) else none
  | 0xD =>
      -- ADDA
      if field op 6 = 3 ∨ field op 6 = 7 then some (field op 9, dest + source) else none
  | _ => none

/-- The address register `r` was written, and the status register was not. -/
structure Receives (r : Fin 8) (v : U32) (c d : Core) : Prop where
  value : d.aRegs r = v
  sr : d.sr = c.sr

theorem Located.kept {o : Operand} {fetchValue : Bool} {ea : Ea}
    (h : Located o fetchValue ea c d) : d.aRegs = (o.next c).aRegs ∧ d.sr = c.sr := by
  rw [h.core]
  split <;> exact ⟨rfl, rfl⟩

/-- A register written last. -/
theorem Receives.of_update {r : Fin 8} {v w : U32} (hv : v = w) (hsr : d.sr = c.sr) :
    Receives r w c { d with aRegs := Function.update d.aRegs r v } :=
  ⟨(Function.update_self r v d.aRegs).trans hv, hsr⟩

theorem execMove_loads {op : U16} {size : M68kSize} (hsize : moveSize? op = some size)
    (hmode : field op 6 = 1) : Yields k (execMove op : M σ Unit) fun _ c d =>
      Receives (field op 9) (extended size ((eaField op size).value c)) c d := by
  unfold execMove
  rw [hsize]
  refine .ite (fun _ => .of_throws (exception_throws (by decide))) fun _ => ?_
  refine .bind (calcEa_yields _ _ size) fun src => .look fun pc =>
    .bind (moveDest_yields _ _ size) fun dest => ?_
  -- mode 1 resolves to An itself and moves nothing
  have hdest {b c : Core} (h : Destined ⟨field op 6, field op 9, size⟩ dest b c) :
      dest.ea.isReg = true ∧ dest.ea.isAddr = true ∧ dest.ea.regNum = field op 9 ∧ c = b := by
    have hlt : field op 6 < 2 := by rw [hmode]; decide
    have hmemory : (⟨field op 6, field op 9, size⟩ : Operand).inMemory = false := by
      rw [Operand.inMemory, hmode]
      rfl
    have hreg : dest.ea.isReg = true := by rw [h.isReg, hmemory]; rfl
    have haddr : dest.ea.isAddr = true := by rw [h.isAddr, hmode]; rfl
    have hcore := h.commit
    rw [h.settled hmemory, hmode, next_eq (by decide)] at hcore
    exact ⟨hreg, haddr, h.regNum hlt, hcore⟩
  refine .ite (fun hdata => ?_) fun _ => .ite (fun _ => .setA ?_) fun hreg => ?_
  · refine .bind (setDSized_yields _ size _) fun _ => .modifySr ?_
    rintro d c - b h
    obtain ⟨hisReg, hisAddr, -, -⟩ := hdest h
    rw [Ea.isData, hisReg, hisAddr] at hdata
    cases hdata
  · rintro c b h a hsrc
    obtain ⟨-, -, hnum, rfl⟩ := hdest h
    rw [hnum]
    refine .of_update ?_ hsrc.kept.2
    rw [hsrc.value]
    rfl
  · refine (moveToMemory_yields _ _ _ _ size dest _ _).mono ?_
    rintro _ d c - b h
    exact absurd (hdest h).1 hreg

theorem execAddSub_loads {op : U32 → U32 → U32}
    {flags : U32 → U32 → U32 → M68kSize → U16 → U16} {store : Ea → M68kSize → U32 → M σ Unit}
    {opcode : U16} (hopmode : field opcode 6 = 3 ∨ field opcode 6 = 7) :
    Yields k (execAddSub op flags store opcode) fun _ c d =>
      let o := eaField opcode (opmodeSize (field opcode 6))
      Receives (field opcode 9)
        (op ((o.next c).aRegs (field opcode 9)) (extended o.size (o.value c))) c d := by
  refine .ite (fun _ => .of_throws (exception_throws (by decide))) fun _ => ?_
  refine .bind (calcEa_yields _ _ _) fun ea => .ite (fun _ => .getA fun old => .setA ?_)
    fun hnot => absurd hopmode hnot
  rintro d hold c h
  refine .of_update ?_ h.kept.2
  rw [← hold, h.kept.1, h.value]
  rfl

theorem execQuick_loads {op : U32 → U32 → U32} {flags : U32 → U32 → U32 → M68kSize → U16 → U16}
    {opcode : U16} {size : M68kSize} (hsize : sizeOf? (sizeBits opcode) = some size)
    (hmode : field opcode 3 = 1) :
    Yields k (execQuick op flags opcode : M σ Unit) fun _ c d =>
      Receives (field opcode 0) (op (c.aRegs (field opcode 0)) (quickData opcode)) c d := by
  unfold execQuick
  rw [hsize]
  refine .ite (fun _ => .of_throws (exception_throws (by decide))) fun _ =>
    .ite (fun _ => .getA fun old => .setA ?_) fun hnot => absurd hmode hnot
  rintro c hold
  exact .of_update (by rw [hold]) rfl

theorem execLea_loads (op : U16) : Yields k (execLea op : M σ Unit) fun _ c d =>
    Receives (field op 9) ((eaField op .long).address c) c d := by
  refine .bind (calcEaCtl_yields _ _ false) fun ea => .setA ?_
  rintro d c ⟨hctl, h⟩
  have hmemory : (eaField op .long).inMemory = true := by
    have key : ∀ mode reg : Fin 8, notControl mode reg = false →
        (2 ≤ mode && !(mode == 7 && 4 ≤ reg)) = true := by decide
    exact key _ _ hctl
  exact .of_update (h.address hmemory) h.kept.2

theorem execMoves_loads {op : U16} {size : M68kSize} (hsize : sizeOf? (sizeBits op) = some size) :
    Yields k (execMoves op : M σ Unit) fun _ c d => ¬c.word.getLsbD 11 → c.word.getLsbD 15 →
      Receives (field c.word 12)
        (signExtendSized size ((eaField op size).value { c with pc := c.pc + 2 })) c d := by
  refine .ite (fun _ => .of_throws (exception_throws (by decide))) fun _ => privileged_yields ?_
  rw [hsize]
  refine .bind fetch_yields fun ext => .ite (fun _ => .of_throws
    (exception_throws (by decide))) fun _ => .ite (fun hstore => ?_) fun _ => ?_
  · have hwrite (ea : Ea) (v : U32) : Yields k (writeSize ea.address v size : M σ Unit)
        fun _ d e => ∀ c, Located (eaField op size) false ea c d → ∀ b,
          ext = b.word ∧ c = { b with pc := b.pc + 2 } → ¬b.word.getLsbD 11 → b.word.getLsbD 15 →
          Receives (field b.word 12)
            (signExtendSized size ((eaField op size).value { b with pc := b.pc + 2 })) b e := by
      refine (writeSize_yields ea.address v size).mono ?_
      rintro _ d e - c - b ⟨rfl, -⟩ hnot
      exact absurd hstore hnot
    exact .bind (calcEaAddr_yields _ _ size) fun ea => .ite (fun _ => .look fun v => hwrite ea v)
      fun _ => .look fun v => hwrite ea v
  · refine .bind (calcEa_yields _ _ size) fun ea => .ite (fun _ => .setA ?_) fun haddr =>
      (setDSized_yields _ size _).mono ?_
    · rintro d c h b ⟨rfl, rfl⟩ - -
      refine .of_update ?_ h.kept.2
      rw [h.value]
      rfl
    · rintro _ d e - c - b ⟨rfl, -⟩ - hyes
      exact absurd hyes haddr

/-- What the decoder does for the instructions that write an address register. -/
def LoadsAddress (op : U16) (c d : Core) : Prop :=
  ∀ r v, addressLoad? op c = some (r, v) → Receives r v c d

theorem dispatch_loads_move {op : U16} (h : lineOf op = 1 ∨ lineOf op = 2 ∨ lineOf op = 3)
    (hmode : field op 6 = 1) : Yields k (dispatch op : M σ Int) fun _ => LoadsAddress op := by
  have hdispatch : (dispatch op : M σ Int) = lineMove op := by
    rcases h with h | h | h <;> (unfold dispatch; rw [h]; rfl)
  have hload (c : Core) : addressLoad? op c =
      (moveSize? op).map fun size =>
        (field op 9, extended size ((eaField op size).value c)) := by
    rcases h with h | h | h <;> (unfold addressLoad?; rw [h]; exact if_pos hmode)
  rw [hdispatch, lineMove]
  refine costed_yields ?_
  cases hsize : moveSize? op with
  | none =>
    refine (execMove_planned op).mono fun _ c d _ r v hrv => ?_
    rw [hload, hsize] at hrv
    cases hrv
  | some size =>
    refine (execMove_loads hsize hmode).mono fun _ c d hd r v hrv => ?_
    rw [hload, hsize] at hrv
    cases hrv
    exact hd

theorem dispatch_loads_add {op : U16} (h : lineOf op = 9 ∨ lineOf op = 0xD)
    (hopmode : field op 6 = 3 ∨ field op 6 = 7) :
    Yields k (dispatch op : M σ Int) fun _ => LoadsAddress op := by
  have hextended : ¬(regToEa (field op 6) = true ∧ (field op 3 = 0 ∨ field op 3 = 1)) := by
    rcases hopmode with h | h <;> (rw [h]; exact fun h => absurd h.1 (by decide))
  rcases h with h | h
  · rw [dispatch_line9 h, line9, lineAddSub, if_neg hextended]
    refine costed_yields ((execAddSub_loads hopmode).mono fun _ c d hd r v hrv => ?_)
    unfold addressLoad? at hrv
    simp only [h, if_pos hopmode] at hrv
    cases hrv
    exact hd
  · rw [dispatch_lineD h, lineD, lineAddSub, if_neg hextended]
    refine costed_yields ((execAddSub_loads hopmode).mono fun _ c d hd r v hrv => ?_)
    unfold addressLoad? at hrv
    simp only [h, if_pos hopmode] at hrv
    cases hrv
    exact hd

theorem dispatch_loads_quick {op : U16} {size : M68kSize} (h : lineOf op = 5)
    (hsize : sizeOf? (sizeBits op) = some size) (hmode : field op 3 = 1) :
    Yields k (dispatch op : M σ Int) fun _ => LoadsAddress op := by
  have hload (c : Core) : addressLoad? op c = some (field op 0,
      if op &&& 0x0100 != 0 then c.aRegs (field op 0) - quickData op
      else c.aRegs (field op 0) + quickData op) := by
    unfold addressLoad?
    rw [h]
    exact if_pos ⟨Option.isSome_iff_exists.mpr ⟨size, hsize⟩, hmode⟩
  rw [dispatch_quick h hsize]
  refine costed_yields (.ite (fun hsub => ?_) fun hadd => ?_)
  · refine (execQuick_loads hsize hmode).mono fun _ c d hd r v hrv => ?_
    rw [hload, if_pos hsub] at hrv
    cases hrv
    exact hd
  · refine (execQuick_loads hsize hmode).mono fun _ c d hd r v hrv => ?_
    rw [hload, if_neg hadd] at hrv
    cases hrv
    exact hd

theorem line4_lea {op : U16} (h : op &&& 0xF1C0 = 0x41C0) :
    (line4 op : M σ Int) = costed (execLea op) 0 := by
  have hpass : (line4Masks.dropLast.all fun p => p.2 &&& 0xF1C0 != 0x41C0 &&& p.1) = true := by
    decide
  have hne : ∀ p ∈ line4Masks.dropLast, op &&& p.1 ≠ p.2 := fun p hp =>
    mask_ne h (bne_iff_ne.mp (List.all_eq_true.mp hpass p hp))
  have hexact (v : U16) (hv : (0xFFFF, v) ∈ line4Masks.dropLast) : op ≠ v := by
    rintro rfl
    exact hne _ hv BitVec.and_allOnes
  rw [line4, if_neg (hexact _ (by decide)), if_neg (hexact _ (by decide)),
    if_neg (hexact _ (by decide)), if_neg (hexact _ (by decide)), if_neg (hexact _ (by decide)),
    if_neg (hexact _ (by decide)), if_neg (hexact _ (by decide)), if_neg (hexact _ (by decide)),
    if_neg (not_or.mpr ⟨hexact _ (by decide), hexact _ (by decide)⟩),
    if_neg (hne (_, _) (by decide)), if_neg (hne (_, _) (by decide)),
    if_neg (hne (_, _) (by decide)), if_neg (hne (_, _) (by decide)),
    if_neg (hne (_, _) (by decide)), if_neg (hne (_, _) (by decide)),
    if_neg (hne (_, _) (by decide)), if_neg (hne (_, _) (by decide)),
    if_neg (hne (_, _) (by decide)), if_pos h]

theorem dispatch_loads_lea {op : U16} (h : lineOf op = 4) (hpat : op &&& 0xF1C0 = 0x41C0) :
    Yields k (dispatch op : M σ Int) fun _ => LoadsAddress op := by
  rw [dispatch_line4 h, line4_lea hpat]
  refine costed_yields ((execLea_loads op).mono fun _ c d hd r v hrv => ?_)
  unfold addressLoad? at hrv
  simp only [h, if_pos hpat] at hrv
  cases hrv
  exact hd

theorem dispatch_loads_moves {op : U16} (h : lineOf op = 0) (htop : conditionField op = 0xE) :
    Yields k (dispatch op : M σ Int) fun _ => LoadsAddress op := by
  have hthree : immediateSize3 op = false := by
    rw [immediateSize3, htop]
    exact Bool.and_false _
  have hdispatch : (dispatch op : M σ Int) = line0 op := by
    unfold dispatch
    rw [h]
    rfl
  have hload (c : Core) : addressLoad? op c =
      if conditionField op = 0xE ∧ ¬c.word.getLsbD 11 ∧ c.word.getLsbD 15 then
        (sizeOf? (sizeBits op)).map fun size => (field c.word 12,
          signExtendSized size ((eaField op size).value { c with pc := c.pc + 2 }))
      else none := by
    unfold addressLoad?
    rw [h]
    rfl
  rw [hdispatch, line0, hthree, if_neg Bool.false_ne_true, if_pos htop]
  refine .look fun model => .ite (fun _ => .of_throws ?_) fun _ => costed_yields ?_
  · exact (exception_throws (by decide)).bind fun _ => .pure _
  cases hsize : sizeOf? (sizeBits op) with
  | none =>
    refine (execMoves_planned op).mono fun _ c d _ r v hrv => ?_
    rw [hload, hsize, Option.map_none, ite_self] at hrv
    cases hrv
  | some size =>
    refine (execMoves_loads hsize).mono fun _ c d hd r v hrv => ?_
    by_cases hext : conditionField op = 0xE ∧ ¬c.word.getLsbD 11 ∧ c.word.getLsbD 15
    · rw [hload, if_pos hext, hsize] at hrv
      cases hrv
      exact hd hext.2.1 hext.2.2
    · rw [hload, if_neg hext] at hrv
      cases hrv

/-- An instruction loads the address register it is meant to. -/
theorem dispatch_loads (op : U16) : Yields k (dispatch op : M σ Int) fun _ => LoadsAddress op := by
  have key : ∀ l : Fin 16, l = 0 ∨ (l = 1 ∨ l = 2 ∨ l = 3) ∨ l = 4 ∨ l = 5 ∨ (l = 9 ∨ l = 13) ∨
      l = 6 ∨ l = 7 ∨ l = 8 ∨ l = 10 ∨ l = 11 ∨ l = 12 ∨ l = 14 ∨ l = 15 := by decide
  -- an instruction that loads no register has nothing to show
  have hnothing (hnone : ∀ c, addressLoad? op c = none) :
      Yields k (dispatch op : M σ Int) fun _ => LoadsAddress op :=
    (dispatch_planned op).mono fun _ c _ _ r v hrv => by
      rw [hnone] at hrv
      cases hrv
  rcases key (lineOf op) with h | h | h | h | h | h
  · by_cases htop : conditionField op = 0xE
    · exact dispatch_loads_moves h htop
    · refine hnothing fun c => ?_
      unfold addressLoad?
      simp only [h]
      exact if_neg fun hyes => htop hyes.1
  · by_cases hmode : field op 6 = 1
    · exact dispatch_loads_move h hmode
    · refine hnothing fun c => ?_
      rcases h with h | h | h <;> (unfold addressLoad?; simp only [h]; exact if_neg hmode)
  · by_cases hpat : op &&& 0xF1C0 = 0x41C0
    · exact dispatch_loads_lea h hpat
    · refine hnothing fun c => ?_
      unfold addressLoad?
      simp only [h]
      exact if_neg hpat
  · by_cases hmode : (sizeOf? (sizeBits op)).isSome ∧ field op 3 = 1
    · obtain ⟨size, hsize⟩ := Option.isSome_iff_exists.mp hmode.1
      exact dispatch_loads_quick h hsize hmode.2
    · refine hnothing fun c => ?_
      unfold addressLoad?
      simp only [h]
      exact if_neg hmode
  · by_cases hopmode : field op 6 = 3 ∨ field op 6 = 7
    · exact dispatch_loads_add h hopmode
    · refine hnothing fun c => ?_
      rcases h with h | h <;> (unfold addressLoad?; simp only [h]; exact if_neg hopmode)
  · refine hnothing fun c => ?_
    rcases h with h | h | h | h | h | h | h | h <;> (unfold addressLoad?; simp only [h])

/-! ## Completed instructions -/

/-- Apart from MOVEM and EXG, an instruction changes one data register at most, and no bits of
it above the size of the result. -/
theorem data_registers_confined (h : Succeeds k s u) (hmovem : isMovem (opcodeAt s) = false)
    (hexg : ¬(lineOf (opcodeAt s) = 0xC ∧ isExg (opcodeAt s) = true)) :
    Confined (resultSize (opcodeAt s)) s.dRegs u.dRegs :=
  h.effect.data _ (plan_size _ _ hmovem hexg)

/-- ADD.B D1,D0. -/
def addByte : M68kCpu Unit :=
  { init (fun a => if a = 0x100 then 0xD0 else if a = 0x101 then 0x01 else 0) 0x1000 () with
    sr := 0x2700
    dRegs := fun r => if r = 0 then 0x123456FF else 1
    pc := 0x100 }

theorem data_registers_confined_add : ∃ u, step (ackHost none) addByte = .ok () u ∧
    Confined .byte addByte.dRegs u.dRegs ∧ u.dRegs 0 = 0x12345600 := by
  obtain ⟨u, hu, hvalue⟩ := Succeeds.of_exec? (s := addByte) (k := none) (f := fun u => u.dRegs 0)
    (b := 0x12345600) (by decide +kernel) rfl rfl
  have hsize : resultSize (opcodeAt addByte) = .byte := by decide
  have hconfined := data_registers_confined hu (by decide) (by decide)
  rw [hsize] at hconfined
  exact ⟨u, hu.runs, hconfined, hvalue⟩

/-- MOVEA, ADDA, SUBA, ADDQ, SUBQ, MOVES and LEA write all of an address register, words
sign-extended, and leave the condition codes alone. -/
theorem address_register_loaded (h : Succeeds k s u) {r : Fin 8} {v : U32}
    (hload : addressLoad? (opcodeAt s) (entryCore s) = some (r, v)) :
    u.aRegs r = v ∧ u.sr = s.sr := by
  obtain ⟨t, ht, hcore⟩ := h.retires
  obtain ⟨_, hloads⟩ := ht.yields (dispatch_loads (opcodeAt s))
  obtain ⟨hvalue, hsr⟩ := hloads r v hload
  rw [← hcore] at hvalue hsr
  exact ⟨hvalue, hsr⟩

/-- ADDA.W (A0)+,A0: the increment comes before the sum. -/
def addAddress : M68kCpu Unit :=
  { init (fun a => if a = 0x100 then 0xD0 else if a = 0x101 then 0xD8 else
      if a = 0x200 then 0xFF else if a = 0x201 then 0xFE else 0) 0x1000 () with
    sr := 0x271F
    aRegs := fun _ => 0x200
    pc := 0x100 }

theorem address_register_loaded_adda : ∃ u, step (ackHost none) addAddress = .ok () u ∧
    u.aRegs 0 = 0x202 + 0xFFFFFFFE ∧ u.sr = 0x271F := by
  obtain ⟨u, hu, -⟩ := Succeeds.of_exec? (s := addAddress) (k := none) (f := fun u => u.aRegs 0)
    (b := 0x200) (by decide +kernel) rfl rfl
  exact ⟨u, hu.runs, address_register_loaded hu (by decide)⟩

end M68k
