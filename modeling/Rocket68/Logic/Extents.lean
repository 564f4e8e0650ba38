import Rocket68.Logic.Retire
import Rocket68.Bits.Table

/-!
# How far instructions reach

The words that an instruction takes behind its opcode: those of its plan, and for lines 0 and 4,
where masks overlap and their order matters, the decoder as a table from patterns to extents.
-/

namespace M68k

open Trap TrapM Bits

variable {σ : Type} {k : Option (Nat → M68kCpu σ → M68kCpu σ × U32)} {op : U16}

/-! ## Bytes behind the opcode -/

/-- The bytes of an operand's extension words. -/
def Operand.bytes (o : Operand) : Nat := o.extension.toNat

theorem Operand.ofNat_bytes (o : Operand) : BitVec.ofNat 32 o.bytes = o.extension := by
  rw [Operand.bytes, BitVec.ofNat_toNat, BitVec.setWidth_eq]

/-- The bytes that the operands of a plan take. -/
def Plan.bytes (p : Plan) : Nat := (p.parts.map fun part => part.1.bytes).sum

/-- Past its operands the PC has moved by their bytes. -/
theorem resolveAll_pc (parts : List Part) (c : Core) : (resolveAll parts c).pc =
    c.pc + BitVec.ofNat 32 (parts.map fun part => part.1.bytes).sum := by
  induction parts generalizing c with
  | nil => exact (BitVec.add_zero _).symm
  | cons part parts ih =>
    have hpart : (part.resolve c).pc = c.pc + part.1.extension := rfl
    rw [resolveAll, ih, hpart, List.map_cons, List.sum_cons, BitVec.ofNat_add,
      Operand.ofNat_bytes, BitVec.add_assoc]

/-- The size of an operand: the same in every instruction of a row, in the size field, or in
bit 6. -/
inductive Width where
  | fixed (size : M68kSize)
  | coded
  | bit6
  deriving DecidableEq

def Width.size (op : U16) : Width → M68kSize
  | .fixed size => size
  | .coded => sized op
  | .bit6 => movemSize op

/-- What comes behind an opcode. -/
inductive Extent where
  | nothing
  | word
  | operand (width : Width)
  | wordOperand (width : Width)
  | immediateOperand
  deriving DecidableEq

def Extent.bytes (op : U16) : Extent → Nat
  | .nothing => 0
  | .word => 2
  | .operand width => (eaField op (width.size op)).bytes
  | .wordOperand width => 2 + (eaField op (width.size op)).bytes
  | .immediateOperand =>
      (immediate (sized op)).1.bytes + (eaField op (sized op)).bytes

/-! ## Fields as patterns -/

/-- `(opcode >> n) & 0x7` is `v`. -/
def fieldIs (n : Nat) (v : Fin 8) : Pattern 16 := .slice n (BitVec.ofFin v : BitVec 3)

/-- `(opcode >> 8) & 0xF` is `v`. -/
def topIs (v : Fin 16) : Pattern 16 := .slice 8 (BitVec.ofFin v : BitVec 4)

/-- `(opcode >> 6) & 0x3` is `v`. -/
def sizeIs (v : Fin 4) : Pattern 16 := .slice 6 (BitVec.ofFin v : BitVec 2)

theorem toFin_eq_iff {m : Nat} (x : BitVec m) (v : Fin (2 ^ m)) :
    x.toFin = v ↔ x = BitVec.ofFin v := by
  constructor
  · rintro rfl
    rfl
  · rintro rfl
    rfl

theorem field_iff {n : Nat} (hn : n ≤ 13) (v : Fin 8) : field op n = v ↔ (fieldIs n v).Matches op :=
  (toFin_eq_iff (m := 3) _ v).trans (Pattern.slice_matches (by omega) _ op).symm

theorem top_iff (v : Fin 16) : conditionField op = v ↔ (topIs v).Matches op :=
  (toFin_eq_iff (m := 4) _ v).trans (Pattern.slice_matches (by decide) _ op).symm

theorem size_iff (v : Fin 4) : sizeBits op = v ↔ (sizeIs v).Matches op :=
  (toFin_eq_iff (m := 2) _ v).trans (Pattern.slice_matches (by decide) _ op).symm

/-- `(opcode >> 12) & 0xF` is `v`. -/
def lineIs (v : Fin 16) : Pattern 16 := .slice 12 (BitVec.ofFin v : BitVec 4)

theorem line_iff (v : Fin 16) : lineOf op = v ↔ (lineIs v).Matches op :=
  (toFin_eq_iff (m := 4) _ v).trans (Pattern.slice_matches (by decide) _ op).symm

/-- The opcode is `v`. -/
def opIs (v : U16) : Pattern 16 := ⟨0xFFFF, v⟩

theorem op_iff (v : U16) : op = v ↔ (opIs v).Matches op := by
  have hall : op &&& 0xFFFF = op := BitVec.and_allOnes
  show op = v ↔ op &&& 0xFFFF = v
  rw [hall]

/-- A test under one that holds. -/
theorem inside {p q : Pattern 16} {A : Prop} (h : q.Matches op) (hA : A ↔ p.Matches op)
    (hq : Pattern.covers (q.and p) (q.and p) q = true)
    (hp : Pattern.covers (q.and p) (q.and p) p = true) : A ↔ (q.and p).Matches op := by
  rw [Pattern.and_matches hq hp, hA, and_iff_right h]

/-! ## The executor's tables -/

/-- The rows of a decoder, with the extent of what is legal. -/
abbrev Rows := List (Pattern 16 × Option Extent)

/-- The modes that `m68k_calc_ea_ctl` takes. -/
def controlModes : List (Pattern 16) :=
  [fieldIs 3 2, fieldIs 3 5, fieldIs 3 6] ++ [0, 1, 2, 3].map fun r =>
    (fieldIs 3 7).and (fieldIs 0 r)

/-- `opcode & mask` is `value`. -/
def maskIs (mask value : U16) : Pattern 16 := ⟨mask, value⟩

/-- The immediate encodings with size code 3. -/
def immediateSize3Patterns : List (Pattern 16) :=
  [0x0, 0x2, 0x4, 0x6, 0xA, 0xC].map fun t => (topIs t).and (sizeIs 3)

/-- MOVES. -/
def movesPatterns : List (Pattern 16) := [0, 1, 2].map fun z => (topIs 0xE).and (sizeIs z)

/-- The bit operations on a data register's number, and MOVEP. -/
def dynamicPattern : Pattern 16 := maskIs 0x0100 0x0100

/-- An immediate operation and its forms on the CCR and the SR. -/
def logicRows (t : Fin 16) (ccr status : U16) : Rows :=
  [(opIs ccr, some .word), (opIs status, some .word), (topIs t, some .immediateOperand)]

/-- Line 0 as the executor decodes it. -/
def execRows0 : Rows :=
  rowsOf immediateSize3Patterns none ++ (((topIs 0xE).and (sizeIs 3), none) ::
  (rowsOf movesPatterns (some (.wordOperand .coded)) ++
  (logicRows 0x0 0x003C 0x007C ++ (logicRows 0x2 0x023C 0x027C ++
  ((topIs 0x4, some .immediateOperand) :: (topIs 0x6, some .immediateOperand) ::
  (logicRows 0xA 0x0A3C 0x0A7C ++
  [(topIs 0xC, some .immediateOperand),
   (topIs 0x8, some (.wordOperand (.fixed .byte))),
   (dynamicPattern.and (fieldIs 3 1), some .word),
   (dynamicPattern, some (.operand (.fixed .byte)))]))))))

/-- LEA. -/
def leaPattern : Pattern 16 := maskIs 0xF1C0 0x41C0

/-- Line 4 as the executor decodes it. -/
def execRows4 : Rows :=
  (opIs 0x4E70, some .nothing) ::
  (opIs 0x4E71, some .nothing) ::
  (opIs 0x4E72, some .word) ::
  (opIs 0x4E73, some .nothing) ::
  (opIs 0x4E75, some .nothing) ::
  (opIs 0x4E76, some .nothing) ::
  (opIs 0x4E77, some .nothing) ::
  (opIs 0x4E74, some .word) ::
  (opIs 0x4E7A, some .word) ::
  (opIs 0x4E7B, some .word) ::
  (maskIs 0xFFF8 0x4848, some .nothing) ::
  (maskIs 0xFFF0 0x4E40, some .nothing) ::
  (maskIs 0xFFF0 0x4E60, some .nothing) ::
  (maskIs 0xFFC0 0x4E80, some (.operand (.fixed .long))) ::
  (maskIs 0xFFC0 0x4EC0, some (.operand (.fixed .long))) ::
  (maskIs 0xFFC0 0x40C0, some (.operand (.fixed .word))) ::
  (maskIs 0xFFC0 0x44C0, some (.operand (.fixed .word))) ::
  (maskIs 0xFFC0 0x46C0, some (.operand (.fixed .word))) ::
  (maskIs 0xF1C0 0x4180, some (.operand (.fixed .word))) ::
  (rowsOf (controlModes.map leaPattern.and) (some (.operand (.fixed .long))) ++
  ((leaPattern, none) ::
  ((maskIs 0xFB80 0x4880).and (fieldIs 3 0), some .nothing) ::
  (maskIs 0xFB80 0x4880, some (.wordOperand .bit6)) ::
  (maskIs 0xFFF8 0x4E50, some .word) ::
  (maskIs 0xFFF8 0x4E58, some .nothing) ::
  (maskIs 0xFFC0 0x4AC0, some (.operand (.fixed .byte))) ::
  (maskIs 0xFFC0 0x4800, some (.operand (.fixed .byte))) ::
  ((maskIs 0xFFC0 0x4840).and (fieldIs 3 0), some .nothing) ::
  (maskIs 0xFFC0 0x4840, some (.operand (.fixed .long))) ::
  (maskIs 0xFF00 0x4A00, some (.operand .coded)) ::
  (maskIs 0xFF00 0x4000, some (.operand .coded)) ::
  (maskIs 0xFFC0 0x42C0, some (.operand (.fixed .word))) ::
  (maskIs 0xFF00 0x4200, some (.operand .coded)) ::
  (maskIs 0xFF00 0x4400, some (.operand .coded)) ::
  (maskIs 0xFF00 0x4600, some (.operand .coded)) ::
  (.any, none) :: []))

/-! ## Plans by table -/

/-- An illegal instruction throws, and the plan of a legal one takes the bytes of its extent. -/
def Decodes (k : Option (Nat → M68kCpu σ → M68kCpu σ × U32)) (op : U16) (m : M σ Int)
    (p : Core → Plan) : Option (Option Extent) → Prop
  | none => False
  | some none => Throws k m
  | some (some extent) => ∀ c, (p c).bytes = extent.bytes op

namespace Decodes

variable {A : Prop} [Decidable A] {m n : M σ Int} {p q : Core → Plan} {a : Option Extent}
  {pattern : Pattern 16} {rest : Rows}

theorem of_row (hA : A ↔ pattern.Matches op) (hm : A → Decodes k op m p (some a))
    (hn : ¬A → Decodes k op m p (lookup rest op)) :
    Decodes k op m p (lookup ((pattern, a) :: rest) op) :=
  lookup_row (Q := Decodes k op m p) hA hm hn

theorem of_rows {ps : List (Pattern 16)} (hA : A ↔ ∃ p ∈ ps, p.Matches op)
    (hm : A → Decodes k op m p (some a)) (hn : ¬A → Decodes k op m p (lookup rest op)) :
    Decodes k op m p (lookup (rowsOf ps a ++ rest) op) :=
  lookup_rows (Q := Decodes k op m p) hA hm hn

/-- The branches of a test. -/
theorem ite {r : Option (Option Extent)} (hm : A → Decodes k op m p r)
    (hn : ¬A → Decodes k op n q r) :
    Decodes k op (if A then m else n) (fun c => if A then p c else q c) r := by
  by_cases h : A
  · rw [if_pos h]
    simpa only [if_pos h] using hm h
  · rw [if_neg h]
    simpa only [if_neg h] using hn h

/-- A branch with a row of its own. -/
theorem row (hA : A ↔ pattern.Matches op) (hm : A → Decodes k op m p (some a))
    (hn : ¬A → Decodes k op n q (lookup rest op)) :
    Decodes k op (if A then m else n) (fun c => if A then p c else q c)
      (lookup ((pattern, a) :: rest) op) :=
  .ite (fun h => .of_row hA hm fun hno => absurd h hno)
    fun h => .of_row hA (fun hyes => absurd hyes h) hn

/-- A branch with one result for several patterns. -/
theorem rows (ps : List (Pattern 16)) (hA : A ↔ ∃ p ∈ ps, p.Matches op)
    (hm : A → Decodes k op m p (some a)) (hn : ¬A → Decodes k op n q (lookup rest op)) :
    Decodes k op (if A then m else n) (fun c => if A then p c else q c)
      (lookup (rowsOf ps a ++ rest) op) :=
  .ite (fun h => .of_rows hA hm fun hno => absurd h hno)
    fun h => .of_rows hA (fun hyes => absurd hyes h) hn

/-- A branch with several rows. -/
theorem block (head : Pattern 16) (own : Rows)
    (hrows : ∀ row ∈ own, [head].any (Pattern.covers row.1 row.1) = true)
    (hA : A ↔ head.Matches op) (hm : A → Decodes k op m p (lookup (own ++ rest) op))
    (hn : ¬A → Decodes k op n q (lookup rest op)) :
    Decodes k op (if A then m else n) (fun c => if A then p c else q c)
      (lookup (own ++ rest) op) := by
  have hhead : A ↔ ∃ p ∈ [head], p.Matches op := by simpa using hA
  exact .ite hm fun h =>
    lookup_block (Q := Decodes k op n q) [head] own hrows hhead (fun hyes => absurd hyes h) hn

end Decodes

theorem illegalOpcode_throws : Throws k (illegalOpcode : M σ Int) :=
  (exception_throws (by decide)).bind fun _ => .pure _

theorem sized_ne (h : sizeBits op ≠ 3) : sizeOf? (sizeBits op) = some (sized op) := by
  unfold sized
  revert h
  generalize sizeBits op = z
  revert z
  decide

theorem bytes_withSize (h : sizeBits op ≠ 3) (p : M68kSize → Plan) :
    (withSize op p).bytes = (p (sized op)).bytes := by
  rw [withSize, sized_ne h]

/-! ## Line 0 -/

theorem topSize_iff (t : Fin 16) (z : Fin 4) :
    ((topIs t).and (sizeIs z)).Matches op ↔ conditionField op = t ∧ sizeBits op = z := by
  have key : ∀ (t : Fin 16) (z : Fin 4),
      Pattern.covers ((topIs t).and (sizeIs z)) ((topIs t).and (sizeIs z)) (topIs t) = true ∧
        Pattern.covers ((topIs t).and (sizeIs z)) ((topIs t).and (sizeIs z)) (sizeIs z) = true := by
    decide +kernel
  rw [Pattern.and_matches (key t z).1 (key t z).2, ← top_iff, ← size_iff]

theorem immediateSize3_iff :
    immediateSize3 op = true ↔ ∃ p ∈ immediateSize3Patterns, p.Matches op := by
  simp only [immediateSize3Patterns, List.mem_map, exists_exists_and_eq_and, topSize_iff]
  simp [immediateSize3, and_comm, or_assoc]

theorem moves_iff (htop : conditionField op = 0xE) :
    sizeBits op ≠ 3 ↔ ∃ p ∈ movesPatterns, p.Matches op := by
  have key : ∀ z : Fin 4, z ≠ 3 ↔ ∃ y ∈ ([0, 1, 2] : List (Fin 4)), z = y := by decide
  simp only [movesPatterns, List.mem_map, exists_exists_and_eq_and, topSize_iff, htop, true_and]
  exact key _

theorem dynamic_iff : op &&& 0x0100 ≠ 0 ↔ dynamicPattern.Matches op := by
  have hset := Pattern.slice_matches (w := 16) (n := 8) (by decide) 1#1 op
  have hclear := Pattern.slice_matches (w := 16) (n := 8) (by decide) 0#1 op
  have key : ∀ b : BitVec 1, b ≠ 0#1 ↔ b = 1#1 := by decide
  exact (not_congr hclear).trans ((key _).trans hset.symm)

/-- Bit 8 is set in the rest of the line. -/
theorem dynamic_of_top
    (h : ∀ t ∈ ([0xE, 0x0, 0x2, 0x4, 0x6, 0xA, 0xC, 0x8] : List (Fin 16)), conditionField op ≠ t) :
    dynamicPattern.Matches op := by
  have key : ∀ x : BitVec 4, (∀ t ∈ ([0xE, 0x0, 0x2, 0x4, 0x6, 0xA, 0xC, 0x8] : List (Fin 16)),
      x.toFin ≠ t) → x.setWidth 1 = 1#1 := by decide
  have hbit := key _ h
  rw [BitVec.setWidth_setWidth_of_le _ (by decide)] at hbit
  exact (Pattern.slice_matches (w := 16) (n := 8) (by decide) 1#1 op).mpr hbit

/-! ## Bytes of the plans of line 0 -/

theorem movesPlan_bytes (h : sizeBits op ≠ 3) (c : Core) :
    (movesPlan op c).bytes = Extent.bytes op (.wordOperand .coded) := by
  rw [movesPlan, bytes_withSize h]
  split
  · rfl
  · split <;> rfl

theorem immediatePlan_bytes (h : sizeBits op ≠ 3) :
    (immediatePlan op).bytes = Extent.bytes op .immediateOperand := by
  rw [immediatePlan, bytes_withSize h]
  rfl

theorem cmpiPlan_bytes (h : sizeBits op ≠ 3) :
    (cmpiPlan op).bytes = Extent.bytes op .immediateOperand := by
  rw [cmpiPlan, bytes_withSize h]
  rfl

theorem bitsPlan_bytes : (bitsPlan op).bytes =
    if op &&& 0x0100 != 0 then Extent.bytes op (.operand (.fixed .byte))
    else Extent.bytes op (.wordOperand (.fixed .byte)) := by
  unfold bitsPlan bitPlan
  split <;> split <;> rfl

theorem movepPlan_bytes : (movepPlan op).bytes = 2 := by
  unfold movepPlan
  split <;> rfl

/-- The three rows of ORI, ANDI and EORI. -/
theorem Decodes.logic {m : M σ Int} {rows : Rows} {t : Fin 16} {ccr status : U16}
    (htop : conditionField op = t) (hsize : op ≠ ccr → op ≠ status → sizeBits op ≠ 3) :
    Decodes k op m (fun _ => logicPlan ccr status op)
      (lookup (logicRows t ccr status ++ rows) op) := by
  unfold logicPlan
  refine .of_row (op_iff ccr) (fun hccr => ?_) fun hccr => .of_row (op_iff status)
    (fun hstatus => ?_) fun hstatus => .of_row (top_iff t) (fun _ => ?_) fun h => absurd htop h
  · rw [if_pos hccr]
    exact fun _ => rfl
  · rw [if_neg hccr, if_pos hstatus]
    exact fun _ => rfl
  · rw [if_neg hccr, if_neg hstatus]
    exact fun _ => immediatePlan_bytes (hsize hccr hstatus)

/-- The executor decodes line 0 by its table. -/
theorem line0_decodes : Decodes k op (line0 op : M σ Int) (line0Plan op) (lookup execRows0 op) := by
  have hsize {t : Fin 16} (ht : t ∈ ([0x0, 0x2, 0x4, 0x6, 0xA, 0xC] : List (Fin 16)))
      (hlegal : ¬immediateSize3 op = true) (htop : conditionField op = t) : sizeBits op ≠ 3 :=
    fun h3 => hlegal (immediateSize3_iff.mpr
      ⟨_, List.mem_map_of_mem ht, (topSize_iff t 3).mpr ⟨htop, h3⟩⟩)
  refine .rows _ immediateSize3_iff (fun _ => illegalOpcode_throws) fun hlegal => ?_
  refine .block (topIs 0xE) (((topIs 0xE).and (sizeIs 3), none) ::
      rowsOf movesPatterns (some (.wordOperand .coded))) (by decide) (top_iff 0xE)
    (fun htop => ?_) fun hE => ?_
  · -- size code 3 is illegal on both models
    refine .of_row (A := sizeBits op = 3) ?_ (fun h3 s => ?_) fun h3 => ?_
    · rw [topSize_iff, and_iff_right htop]
    · show ((if (!s.model.is68010 || sizeBits op == 3) = true then illegalOpcode
        else costed (execMoves op) 4) (ackHost k) s).Ends _
      rw [if_pos (by simp [h3])]
      exact illegalOpcode_throws s
    · exact .of_rows (moves_iff htop) (fun _ => movesPlan_bytes h3) fun hno => absurd h3 hno
  refine .block (topIs 0x0) (logicRows 0x0 0x003C 0x007C) (by decide) (top_iff 0x0)
    (fun htop => .logic htop fun _ _ => hsize (by decide) hlegal htop) fun h0 => ?_
  refine .block (topIs 0x2) (logicRows 0x2 0x023C 0x027C) (by decide) (top_iff 0x2)
    (fun htop => .logic htop fun _ _ => hsize (by decide) hlegal htop) fun h2 => ?_
  refine .row (top_iff 0x4) (fun htop _ => immediatePlan_bytes (hsize (by decide) hlegal htop))
    fun h4 => .row (top_iff 0x6)
    (fun htop _ => immediatePlan_bytes (hsize (by decide) hlegal htop)) fun h6 => ?_
  refine .block (topIs 0xA) (logicRows 0xA 0x0A3C 0x0A7C) (by decide) (top_iff 0xA)
    (fun htop => .logic htop fun _ _ => hsize (by decide) hlegal htop) fun hA => ?_
  refine .row (top_iff 0xC) (fun htop _ => cmpiPlan_bytes (hsize (by decide) hlegal htop))
    fun hC => .row (top_iff 0x8) (fun htop _ => ?_) fun h8 => ?_
  · have hstatic : ¬(op &&& 0x0100 != 0) = true := fun h =>
      Pattern.not_matches_of_clashes (by decide) ((top_iff 0x8).mp htop)
        (dynamic_iff.mp (bne_iff_ne.mp h))
    rw [bitsPlan_bytes, if_neg hstatic]
  · have hdynamic : dynamicPattern.Matches op := dynamic_of_top (by simp [*])
    refine .row (inside hdynamic (field_iff (by decide) 1) (by decide) (by decide))
      (fun _ _ => movepPlan_bytes) fun _ => .of_row (A := op &&& 0x0100 ≠ 0) dynamic_iff
      (fun h _ => ?_) fun h => absurd (dynamic_iff.mpr hdynamic) h
    rw [bitsPlan_bytes, if_pos (bne_iff_ne.mpr h)]

/-! ## Line 4 -/

theorem notControl_iff :
    notControl (field op 3) (field op 0) = false ↔ ∃ p ∈ controlModes, p.Matches op := by
  have hpair (r : Fin 8) :
      ((fieldIs 3 7).and (fieldIs 0 r)).Matches op ↔ field op 3 = 7 ∧ field op 0 = r := by
    have key : ∀ r, Pattern.covers ((fieldIs 3 7).and (fieldIs 0 r))
          ((fieldIs 3 7).and (fieldIs 0 r)) (fieldIs 3 7) = true ∧
        Pattern.covers ((fieldIs 3 7).and (fieldIs 0 r)) ((fieldIs 3 7).and (fieldIs 0 r))
          (fieldIs 0 r) = true := by decide +kernel
    rw [Pattern.and_matches (key r).1 (key r).2, ← field_iff (by decide), ← field_iff (by decide)]
  have hfields : (∃ p ∈ controlModes, p.Matches op) ↔ (field op 3 = 2 ∨ field op 3 = 5 ∨
      field op 3 = 6) ∨ field op 3 = 7 ∧ (field op 0 = 0 ∨ field op 0 = 1 ∨ field op 0 = 2 ∨
        field op 0 = 3) := by
    simp [controlModes, hpair, ← field_iff, and_or_left, or_assoc]
  rw [hfields]
  generalize field op 3 = mode
  generalize field op 0 = reg
  revert mode reg
  decide

theorem lea_iff : leaPattern.Matches op ∧ notControl (field op 3) (field op 0) = false ↔
    ∃ p ∈ controlModes.map leaPattern.and, p.Matches op := by
  have key : ∀ p ∈ controlModes, Pattern.covers (leaPattern.and p) (leaPattern.and p) leaPattern ∧
      Pattern.covers (leaPattern.and p) (leaPattern.and p) p := by decide +kernel
  rw [notControl_iff]
  constructor
  · rintro ⟨h, p, hmem, hp⟩
    exact ⟨_, List.mem_map_of_mem hmem,
      (Pattern.and_matches (key p hmem).1 (key p hmem).2 op).mpr ⟨h, hp⟩⟩
  · rintro ⟨_, hrow, hp⟩
    obtain ⟨p, hmem, rfl⟩ := List.mem_map.mp hrow
    obtain ⟨h, hp⟩ := (Pattern.and_matches (key p hmem).1 (key p hmem).2 op).mp hp
    exact ⟨h, p, hmem, hp⟩

/-- LEA of what is not a control operand. -/
theorem execLea_throws (h : notControl (field op 3) (field op 0) = true) :
    Throws k (costed (execLea op) 0 : M σ Int) := by
  have hea : Throws k (calcEaCtl (field op 3) (field op 0) false : M σ Ea) := by
    rw [calcEaCtl, if_pos h]
    exact raiseIllegalEa_throws.bind fun _ => .pure _
  have hlea : Throws k (execLea op : M σ Unit) := hea.bind fun ea => .modify fun _ => rfl
  exact hlea.bind fun _ => .pure _

theorem jmpPlan_bytes : (jmpPlan op).bytes = (eaField op .long).bytes := by
  unfold jmpPlan
  split <;> rfl

theorem rtePlan_bytes (c : Core) : (rtePlan c).bytes = 0 := by
  unfold rtePlan
  split <;> rfl

theorem moveUspPlan_bytes : (moveUspPlan op).bytes = 0 := by
  unfold moveUspPlan
  split <;> rfl

theorem moveSrPlan_bytes (h : op &&& 0xFFC0 = 0x46C0 ∨ op &&& 0xFFC0 = 0x40C0 ∨
    op &&& 0xFFC0 = 0x42C0) : (moveSrPlan op).bytes = (eaField op .word).bytes := by
  unfold moveSrPlan
  rcases h with h | h | h <;> simp only [h] <;> rfl

theorem movemPlan_bytes (c : Core) :
    (movemPlan op c).bytes = Extent.bytes op (.wordOperand .bit6) := by
  have hoperand : (movemOperand op).bytes = (eaField op (movemSize op)).bytes := by
    unfold movemOperand
    split
    · next h => rcases h with h | h <;> simp only [eaField, h] <;> rfl
    · rfl
  have hplan : (movemPlan op c).bytes = 2 + (movemOperand op).bytes := rfl
  rw [hplan, hoperand]
  rfl

/-- The size field of a row past that of its fourth code. -/
theorem sizeBits_of_mask {v : U16} (h : op &&& 0xFF00 = v) (h3 : op &&& 0xFFC0 ≠ v ||| 0xC0) :
    sizeBits op ≠ 3 := by
  intro hbits
  have hlow : op &&& 0xC0 = 0xC0 := (size_iff 3).mp hbits
  apply h3
  rw [← h, ← hlow]
  exact BitVec.and_or_distrib_left (x := op) (y := 0xFF00) (z := 0xC0)

theorem unaryPlan_bytes {use : M68kSize → Use} {v : U16} (h : op &&& 0xFF00 = v)
    (h3 : op &&& 0xFFC0 ≠ v ||| 0xC0) :
    (unaryPlan use op).bytes = Extent.bytes op (.operand .coded) := by
  rw [unaryPlan, bytes_withSize (sizeBits_of_mask h h3)]
  rfl

/-- The executor decodes line 4 by its table. -/
theorem line4_decodes : Decodes k op (line4 op : M σ Int) (line4Plan op) (lookup execRows4 op) := by
  refine .row (op_iff _) (fun _ _ => rfl) fun _ => .row (op_iff _) (fun _ _ => rfl) fun _ =>
    .row (op_iff _) (fun _ _ => rfl) fun _ => .row (op_iff _) (fun _ => rtePlan_bytes) fun _ =>
    .row (op_iff _) (fun _ _ => rfl) fun _ => .row (op_iff _) (fun _ _ => rfl) fun _ =>
    .row (op_iff _) (fun _ _ => rfl) fun _ => .row (op_iff _) (fun _ _ => rfl) fun _ => ?_
  refine .rows [opIs 0x4E7A, opIs 0x4E7B] (by simp [← op_iff]) (fun _ _ => rfl) fun _ =>
    .row .rfl (fun _ _ => rfl) fun _ => .row .rfl (fun _ _ => rfl) fun _ =>
    .row .rfl (fun _ _ => moveUspPlan_bytes) fun _ => .row .rfl (fun _ _ => ?_) fun _ =>
    .row .rfl (fun _ _ => ?_) fun _ =>
    .row .rfl (fun h _ => moveSrPlan_bytes (.inr (.inl h))) fun h40 =>
    .row .rfl (fun _ _ => rfl) fun h44 =>
    .row .rfl (fun h _ => moveSrPlan_bytes (.inl h)) fun h46 =>
    .row .rfl (fun _ _ => rfl) fun _ => ?_
  · exact jmpPlan_bytes
  · exact jmpPlan_bytes
  refine .block leaPattern (rowsOf (controlModes.map leaPattern.and)
      (some (.operand (.fixed .long))) ++ [(leaPattern, none)]) (by decide +kernel) .rfl
    (fun h => ?_) fun _ => ?_
  · rw [List.append_assoc]
    refine .of_rows lea_iff (fun _ _ => rfl) fun hno => .of_row .rfl (fun _ => execLea_throws ?_)
      fun hno => absurd h hno
    exact Bool.eq_true_of_not_eq_false fun hcontrol => hno ⟨h, hcontrol⟩
  refine .block (maskIs 0xFB80 0x4880) [((maskIs 0xFB80 0x4880).and (fieldIs 3 0), some .nothing),
      (maskIs 0xFB80 0x4880, some (.wordOperand .bit6))] (by decide) .rfl
    (fun h => ?_) fun _ => ?_
  · exact .row (inside h (field_iff (by decide) 0) (by decide) (by decide))
      (fun _ _ => rfl) fun _ =>
      .of_row .rfl (fun _ => movemPlan_bytes) fun hno => absurd h hno
  refine .row .rfl (fun _ _ => rfl) fun _ => .row .rfl (fun _ _ => rfl) fun _ =>
    .row .rfl (fun _ _ => rfl) fun h4A => .row .rfl (fun _ _ => rfl) fun _ => ?_
  refine .block (maskIs 0xFFC0 0x4840) [((maskIs 0xFFC0 0x4840).and (fieldIs 3 0), some .nothing),
      (maskIs 0xFFC0 0x4840, some (.operand (.fixed .long)))] (by decide) .rfl
    (fun h => ?_) fun _ => ?_
  · exact .row (inside h (field_iff (by decide) 0) (by decide) (by decide))
      (fun _ _ => rfl) fun _ =>
      .of_row .rfl (fun _ _ => rfl) fun hno => absurd h hno
  exact .row .rfl (fun h _ => unaryPlan_bytes h h4A) fun _ =>
    .row .rfl (fun h _ => unaryPlan_bytes h h40) fun _ =>
    .row .rfl (fun h _ => moveSrPlan_bytes (.inr (.inr h))) fun h42 =>
    .row .rfl (fun h _ => unaryPlan_bytes h h42) fun _ =>
    .row .rfl (fun h _ => unaryPlan_bytes h h44) fun _ =>
    .row .rfl (fun h _ => unaryPlan_bytes h h46) fun _ =>
    .of_row (A := True) (by simp [Pattern.any_matches]) (fun _ => illegalOpcode_throws) fun hno =>
      absurd trivial hno

end M68k
