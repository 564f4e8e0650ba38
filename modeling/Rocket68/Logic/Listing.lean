import Rocket68.Logic.Extents
import Rocket68.Disasm

/-!
# How far lines reach

The length that the disassembler gives each opcode, for lines 0 and 4 again by a table, and that
the tables of the two decoders agree. No line that is listed so has a question mark for a
mnemonic or for a size.
-/

namespace M68k

open Text Bits

variable {words : Words} {pc : U32} {op : U16} {mnemonic arguments : String}

/-! ## Lines that are known -/

/-- The line takes `n` bytes, and its mnemonic is known. -/
def Prints (n : Nat) (m : Render Line) : Prop :=
  ∀ calls, (m calls).1.len = n ∧ '?' ∉ (m calls).1.op.toList

theorem Prints.ite {n : Nat} {A : Prop} [Decidable A] {m m' : Render Line} (h : A → Prints n m)
    (h' : ¬A → Prints n m') : Prints n (if A then m else m') := by
  split
  · next hA => exact h hA
  · next hA => exact h' hA

theorem not_mem_truncated {c : Char} {size : Nat} {text : String} (h : c ∉ text.toList) :
    c ∉ (truncated size text).toList := by
  rw [truncated, String.toList_ofList]
  exact fun hc => h (List.mem_of_mem_take hc)

theorem bareLine_prints (h : '?' ∉ mnemonic.toList) : Prints 2 (bareLine mnemonic) :=
  fun _ => ⟨rfl, not_mem_truncated h⟩

theorem plainLine_prints {len : Nat} (h : '?' ∉ mnemonic.toList) :
    Prints len (plainLine mnemonic arguments len) := fun _ => ⟨rfl, not_mem_truncated h⟩

/-- Both decoders count the extension words of an operand alike. -/
theorem eaText_bytes (mode reg : Fin 8) (size : M68kSize) :
    (eaText words pc mode reg size).2 = (⟨mode, reg, size⟩ : Operand).bytes := by
  have hrest : ∀ reg : Fin 8, (4 < reg) → (⟨7, reg, size⟩ : Operand).bytes = 0 := by
    cases size <;> decide
  have hlast : ∀ reg : Fin 8, reg ≠ 0 → reg ≠ 1 → reg ≠ 2 → reg ≠ 3 → reg ≠ 4 → 4 < reg := by
    decide
  unfold eaText
  split
  all_goals try rfl
  split
  all_goals try rfl
  · cases size <;> rfl
  · next h0 h1 h2 h3 h4 => exact (hrest reg (hlast reg h0 h1 h2 h3 h4)).symm

theorem eaLine_prints {size : M68kSize} {skip : Nat} {arguments : String → String}
    (h : '?' ∉ mnemonic.toList) : Prints (skip + (eaField op size).bytes)
      (eaLine words pc op mnemonic size skip arguments) := fun _ =>
  ⟨congrArg (skip + ·) (eaText_bytes _ _ size), not_mem_truncated h⟩

theorem known_append {a b : String} (ha : '?' ∉ a.toList) (hb : '?' ∉ b.toList) :
    '?' ∉ (a ++ b).toList := by
  rw [String.toList_append, List.mem_append]
  exact fun h => h.elim ha hb

theorem known_size {z : Fin 4} (h : z ≠ 3) : '?' ∉ (sizeStr z).toList := by
  revert z
  decide

theorem known_long (isLong : Bool) : '?' ∉ (longStr isLong).toList := by
  cases isLong <;> decide

theorem codedSize_eq : codedSize (sizeBits op) = sized op := by
  have key : ∀ z : Fin 4, codedSize z = (sizeOf? z).getD .long := by decide
  exact key _

/-! ## Lines of their own -/

theorem decodeImmArith_prints {name : String} (hname : '?' ∉ name.toList) (h3 : sizeBits op ≠ 3) :
    Prints (2 + Extent.immediateOperand.bytes op) (decodeImmArith words pc op name) := by
  intro calls
  refine ⟨?_, not_mem_truncated (known_append hname (known_size h3))⟩
  show 2 + (eaText words (pc + 2) 7 4 (codedSize (sizeBits op))).2 + (eaText words _ (field op 3)
    (field op 0) (codedSize (sizeBits op))).2 = _
  rw [eaText_bytes, eaText_bytes, codedSize_eq, Nat.add_assoc]
  rfl

theorem statusLine_prints {name : String} (hname : '?' ∉ name.toList) (toSr : Bool) :
    Prints 4 (statusLine words pc name toSr) := by
  unfold statusLine
  cases toSr <;> exact plainLine_prints hname

theorem movesLine_prints (h3 : sizeBits op ≠ 3) :
    Prints (2 + (Extent.wordOperand .coded).bytes op) (movesLine words pc op) := by
  intro calls
  refine ⟨?_, not_mem_truncated (known_append (by decide) (known_size h3))⟩
  show 4 + (eaText words _ (field op 3) (field op 0) (codedSize (sizeBits op))).2 = _
  rw [eaText_bytes, codedSize_eq]
  exact Nat.add_assoc 2 2 _

theorem movepLine_prints : Prints 4 (movepLine words pc op) := by
  exact .ite (fun _ => plainLine_prints (known_append (by decide) (known_long _)))
    fun _ => plainLine_prints (known_append (by decide) (known_long _))

theorem movecLine_prints : Prints 4 (movecLine words pc op) := fun _ =>
  ⟨rfl, not_mem_truncated (by decide)⟩

/-- A line with an operand behind a word of its own. -/
theorem wordLine_prints {size : M68kSize} {arguments : String → String}
    (h : '?' ∉ mnemonic.toList) : Prints (2 + (2 + (eaField op size).bytes))
      (eaLine words pc op mnemonic size 4 arguments) := by
  rw [← Nat.add_assoc]
  exact eaLine_prints h

/-! ## The disassembler's tables -/

/-- What is known of a line: for a legal instruction its length and a mnemonic. -/
def Lists (op : U16) (m : Render Line) : Option (Option Extent) → Prop
  | some (some extent) => Prints (2 + extent.bytes op) m
  | _ => True

namespace Lists

variable {A : Prop} [Decidable A] {m n : Render Line} {a : Option Extent} {pattern : Pattern 16}
  {rest : Rows}

theorem ite {r : Option (Option Extent)} (hm : A → Lists op m r) (hn : ¬A → Lists op n r) :
    Lists op (if A then m else n) r := by
  split
  · next h => exact hm h
  · next h => exact hn h

theorem of_row (hA : A ↔ pattern.Matches op) (hm : A → Lists op m (some a))
    (hn : ¬A → Lists op m (lookup rest op)) : Lists op m (lookup ((pattern, a) :: rest) op) :=
  lookup_row (Q := Lists op m) hA hm hn

theorem row (hA : A ↔ pattern.Matches op) (hm : A → Lists op m (some a))
    (hn : ¬A → Lists op n (lookup rest op)) :
    Lists op (if A then m else n) (lookup ((pattern, a) :: rest) op) :=
  .ite (fun h => .of_row hA hm fun hno => absurd h hno)
    fun h => .of_row hA (fun hyes => absurd hyes h) hn

theorem rows (ps : List (Pattern 16)) (hA : A ↔ ∃ p ∈ ps, p.Matches op)
    (hm : A → Lists op m (some a)) (hn : ¬A → Lists op n (lookup rest op)) :
    Lists op (if A then m else n) (lookup (rowsOf ps a ++ rest) op) :=
  .ite (fun h => lookup_rows (Q := Lists op m) hA hm fun hno => absurd h hno)
    fun h => lookup_rows (Q := Lists op n) hA (fun hyes => absurd hyes h) hn

theorem block (head : Pattern 16) (own : Rows)
    (hrows : ∀ row ∈ own, [head].any (Pattern.covers row.1 row.1) = true)
    (hA : A ↔ head.Matches op) (hm : A → Lists op m (lookup (own ++ rest) op))
    (hn : ¬A → Lists op n (lookup rest op)) :
    Lists op (if A then m else n) (lookup (own ++ rest) op) := by
  have hhead : A ↔ ∃ p ∈ [head], p.Matches op := by simpa using hA
  exact .ite hm fun h =>
    lookup_block (Q := Lists op n) [head] own hrows hhead (fun hyes => absurd hyes h) hn

end Lists

/-- Immediate operations, of a size. -/
def immediateRows (t : Fin 16) : Rows :=
  [((topIs t).and (sizeIs 3), none), (topIs t, some .immediateOperand)]

/-- Line 0 as the disassembler decodes it. -/
def lineRows0 : Rows :=
  (topIs 0x8, some (.wordOperand (.fixed .byte))) ::
  (dynamicPattern.and (fieldIs 3 1), some .word) ::
  (dynamicPattern, some (.operand (.fixed .byte))) ::
  (rowsOf movesPatterns (some (.wordOperand .coded)) ++
  ((opIs 0x003C, some .word) ::
  (opIs 0x007C, some .word) ::
  (opIs 0x023C, some .word) ::
  (opIs 0x027C, some .word) ::
  (opIs 0x0A3C, some .word) ::
  (opIs 0x0A7C, some .word) ::
  (immediateRows 0x0 ++ (immediateRows 0x2 ++ (immediateRows 0x4 ++ (immediateRows 0x6 ++
  (immediateRows 0xA ++ (immediateRows 0xC ++
  [(.any, none)]))))))))

/-- Line 4 as the disassembler decodes it. -/
def lineRows4 : Rows :=
  (opIs 0x4E70, some .nothing) ::
  (opIs 0x4E71, some .nothing) ::
  (opIs 0x4E72, some .word) ::
  (opIs 0x4E73, some .nothing) ::
  (opIs 0x4E75, some .nothing) ::
  (opIs 0x4E76, some .nothing) ::
  (opIs 0x4E77, some .nothing) ::
  (opIs 0x4E74, some .word) ::
  (opIs 0x4E7A, some .word) ::
  (opIs 0x4E7B, some .word) ::
  (maskIs 0xFFF0 0x4E40, some .nothing) ::
  (maskIs 0xFFF8 0x4E50, some .word) ::
  (maskIs 0xFFF8 0x4E58, some .nothing) ::
  (maskIs 0xFFF0 0x4E60, some .nothing) ::
  (maskIs 0xFFC0 0x4E80, some (.operand (.fixed .long))) ::
  (maskIs 0xFFC0 0x4EC0, some (.operand (.fixed .long))) ::
  (maskIs 0xFFC0 0x40C0, some (.operand (.fixed .word))) ::
  (maskIs 0xFFC0 0x44C0, some (.operand (.fixed .word))) ::
  (maskIs 0xFFC0 0x46C0, some (.operand (.fixed .word))) ::
  (maskIs 0xFFC0 0x4AC0, some (.operand (.fixed .byte))) ::
  (maskIs 0xFFC0 0x4800, some (.operand (.fixed .byte))) ::
  (maskIs 0xFFF8 0x4848, some .nothing) ::
  ((maskIs 0xFFC0 0x4840).and (fieldIs 3 0), some .nothing) ::
  (maskIs 0xFFC0 0x4840, some (.operand (.fixed .long))) ::
  ((maskIs 0xFB80 0x4880).and (fieldIs 3 0), some .nothing) ::
  (maskIs 0xFB80 0x4880, some (.wordOperand .bit6)) ::
  (maskIs 0xF1C0 0x4180, some (.operand (.fixed .word))) ::
  (rowsOf (controlModes.map leaPattern.and) (some (.operand (.fixed .long))) ++
  ((maskIs 0xFF00 0x4A00, some (.operand .coded)) ::
  (maskIs 0xFF00 0x4000, some (.operand .coded)) ::
  (maskIs 0xFFC0 0x42C0, some (.operand (.fixed .word))) ::
  (maskIs 0xFF00 0x4200, some (.operand .coded)) ::
  (maskIs 0xFF00 0x4400, some (.operand .coded)) ::
  (maskIs 0xFF00 0x4600, some (.operand .coded)) ::
  (.any, none) :: []))

theorem Lists.immediate {name : String} {t : Fin 16} {rest : Rows} (hname : '?' ∉ name.toList)
    (htop : conditionField op = t) :
    Lists op (decodeImmArith words pc op name) (lookup (immediateRows t ++ rest) op) := by
  refine .of_row (A := sizeBits op = 3) ?_ (fun _ => trivial) fun h3 =>
    .of_row (top_iff t) (fun _ => decodeImmArith_prints hname h3) fun h => absurd htop h
  rw [topSize_iff, and_iff_right htop]

theorem known_bit (z : Fin 4) : '?' ∉ (bitName z).toList := by
  revert z
  decide

theorem movesLine_iff (hline : lineOf op = 0) :
    (op &&& 0xFF00 = 0x0E00 ∧ sizeBits op ≠ 3) ↔ ∃ p ∈ movesPatterns, p.Matches op := by
  have hmask : op &&& 0xFF00 = 0x0E00 ↔ conditionField op = 0xE := by
    rw [top_iff]
    refine (Pattern.and_matches (p := lineIs 0) (q := topIs 0xE) (by decide)
      (by decide) op).trans ?_
    rw [← line_iff, and_iff_right hline]
  rw [hmask]
  constructor
  · exact fun h => (moves_iff h.1).mp h.2
  · intro h
    have htop : conditionField op = 0xE := by
      obtain ⟨_, hrow, hp⟩ := h
      obtain ⟨z, -, rfl⟩ := List.mem_map.mp hrow
      exact ((topSize_iff 0xE z).mp hp).1
    exact ⟨htop, (moves_iff htop).mpr h⟩

/-- The disassembler lists line 0 by its table. -/
theorem line0_lists (hline : lineOf op = 0) :
    Lists op (disasmLine0 words pc op) (lookup lineRows0 op) := by
  have htop (t : Fin 16) : condition op = t.val ↔ (topIs t).Matches op := by
    rw [← top_iff, Fin.ext_iff]
    rfl
  refine .row (htop 0x8) (fun _ => wordLine_prints (known_bit _)) fun _ => ?_
  refine .block dynamicPattern [(dynamicPattern.and (fieldIs 3 1), some .word),
      (dynamicPattern, some (.operand (.fixed .byte)))] (by decide) dynamic_iff (fun h => ?_)
    fun _ => ?_
  · exact .row (inside (dynamic_iff.mp h) (field_iff (by decide) 1) (by decide) (by decide))
      (fun _ => movepLine_prints) fun _ =>
      .of_row dynamic_iff (fun _ => eaLine_prints (known_bit _)) fun hno => absurd h hno
  refine .rows movesPatterns (movesLine_iff hline) (fun h => movesLine_prints h.2) fun _ =>
    .row (op_iff _) (fun _ => statusLine_prints (by decide) _) fun _ =>
    .row (op_iff _) (fun _ => statusLine_prints (by decide) _) fun _ =>
    .row (op_iff _) (fun _ => statusLine_prints (by decide) _) fun _ =>
    .row (op_iff _) (fun _ => statusLine_prints (by decide) _) fun _ =>
    .row (op_iff _) (fun _ => statusLine_prints (by decide) _) fun _ =>
    .row (op_iff _) (fun _ => statusLine_prints (by decide) _) fun _ => ?_
  refine .block (topIs 0x0) (immediateRows 0x0) (by decide) (htop 0x0)
    (fun h => .immediate (by decide) ((top_iff _).mpr ((htop _).mp h))) fun _ => ?_
  refine .block (topIs 0x2) (immediateRows 0x2) (by decide) (htop 0x2)
    (fun h => .immediate (by decide) ((top_iff _).mpr ((htop _).mp h))) fun _ => ?_
  refine .block (topIs 0x4) (immediateRows 0x4) (by decide) (htop 0x4)
    (fun h => .immediate (by decide) ((top_iff _).mpr ((htop _).mp h))) fun _ => ?_
  refine .block (topIs 0x6) (immediateRows 0x6) (by decide) (htop 0x6)
    (fun h => .immediate (by decide) ((top_iff _).mpr ((htop _).mp h))) fun _ => ?_
  refine .block (topIs 0xA) (immediateRows 0xA) (by decide) (htop 0xA)
    (fun h => .immediate (by decide) ((top_iff _).mpr ((htop _).mp h))) fun _ => ?_
  refine .block (topIs 0xC) (immediateRows 0xC) (by decide) (htop 0xC)
    (fun h => .immediate (by decide) ((top_iff _).mpr ((htop _).mp h))) fun _ => ?_
  rw [lookup_cons_of_matches (Pattern.any_matches op)]
  trivial

theorem lea_listed : (op &&& 0xF1C0 = 0x41C0 ∧ (field op 3 = 2 ∨
    field op 3 ≥ 5 ∧ ¬(field op 3 = 7 ∧ field op 0 > 3))) ↔
      ∃ p ∈ controlModes.map leaPattern.and, p.Matches op := by
  have key : ∀ mode reg : Fin 8, (mode = 2 ∨ mode ≥ 5 ∧ ¬(mode = 7 ∧ reg > 3)) ↔
      notControl mode reg = false := by decide
  rw [key, ← lea_iff]
  rfl

theorem unaryLine_prints {name : String} (hname : '?' ∉ name.toList) {v : U16}
    (h : op &&& 0xFF00 = v) (h3 : op &&& 0xFFC0 ≠ v ||| 0xC0) :
    Prints (2 + (Extent.operand .coded).bytes op) (unaryLine words pc op name) := by
  show Prints (2 + (eaField op (sized op)).bytes) _
  rw [← codedSize_eq]
  exact eaLine_prints (known_append hname (known_size (sizeBits_of_mask h h3)))

/-- The disassembler lists line 4 by its table. -/
theorem line4_lists : Lists op (disasmLine4 words pc op) (lookup lineRows4 op) := by
  refine .row (op_iff _) (fun _ => bareLine_prints (by decide)) fun _ =>
    .row (op_iff _) (fun _ => bareLine_prints (by decide)) fun _ =>
    .row (op_iff _) (fun _ => plainLine_prints (by decide)) fun _ =>
    .row (op_iff _) (fun _ => bareLine_prints (by decide)) fun _ =>
    .row (op_iff _) (fun _ => bareLine_prints (by decide)) fun _ =>
    .row (op_iff _) (fun _ => bareLine_prints (by decide)) fun _ =>
    .row (op_iff _) (fun _ => bareLine_prints (by decide)) fun _ =>
    .row (op_iff _) (fun _ => plainLine_prints (by decide)) fun _ => ?_
  refine .rows [opIs 0x4E7A, opIs 0x4E7B] (by simp [← op_iff]) (fun _ => movecLine_prints) fun _ =>
    .row .rfl (fun _ => plainLine_prints (by decide)) fun _ =>
    .row .rfl (fun _ => plainLine_prints (by decide)) fun _ =>
    .row .rfl (fun _ => plainLine_prints (by decide)) fun _ =>
    .row .rfl (fun _ => .ite (fun _ => plainLine_prints (by decide))
      fun _ => plainLine_prints (by decide)) fun _ =>
    .row .rfl (fun _ => eaLine_prints (by decide)) fun _ =>
    .row .rfl (fun _ => eaLine_prints (by decide)) fun _ =>
    .row .rfl (fun _ => eaLine_prints (by decide)) fun h40 =>
    .row .rfl (fun _ => eaLine_prints (by decide)) fun h44 =>
    .row .rfl (fun _ => eaLine_prints (by decide)) fun h46 =>
    .row .rfl (fun _ => eaLine_prints (by decide)) fun h4A =>
    .row .rfl (fun _ => eaLine_prints (by decide)) fun _ =>
    .row .rfl (fun _ => plainLine_prints (by decide)) fun _ => ?_
  refine .block (maskIs 0xFFC0 0x4840) [((maskIs 0xFFC0 0x4840).and (fieldIs 3 0), some .nothing),
      (maskIs 0xFFC0 0x4840, some (.operand (.fixed .long)))] (by decide) .rfl (fun h => ?_)
    fun _ => ?_
  · exact .row (inside h (field_iff (by decide) 0) (by decide) (by decide))
      (fun _ => plainLine_prints (by decide)) fun _ =>
      .of_row .rfl (fun _ => eaLine_prints (by decide)) fun hno => absurd h hno
  refine .block (maskIs 0xFB80 0x4880) [((maskIs 0xFB80 0x4880).and (fieldIs 3 0), some .nothing),
      (maskIs 0xFB80 0x4880, some (.wordOperand .bit6))] (by decide) .rfl (fun h => ?_) fun _ => ?_
  · exact .row (inside h (field_iff (by decide) 0) (by decide) (by decide))
      (fun _ => plainLine_prints (known_append (by decide) (known_long _))) fun _ =>
      .of_row .rfl (fun _ => wordLine_prints (known_append (by decide) (known_long _)))
        fun hno => absurd h hno
  refine .row .rfl (fun _ => eaLine_prints (by decide)) fun _ => ?_
  refine .rows (controlModes.map leaPattern.and) lea_listed
    (fun _ => eaLine_prints (by decide)) fun _ =>
    .row .rfl (fun h => unaryLine_prints (by decide) h h4A) fun _ =>
    .row .rfl (fun h => unaryLine_prints (by decide) h h40) fun _ =>
    .row .rfl (fun _ => eaLine_prints (by decide)) fun h42 =>
    .row .rfl (fun h => unaryLine_prints (by decide) h h42) fun _ =>
    .row .rfl (fun h => unaryLine_prints (by decide) h h44) fun _ =>
    .row .rfl (fun h => unaryLine_prints (by decide) h h46) fun _ => ?_
  rw [lookup_cons_of_matches (Pattern.any_matches op)]
  trivial

/-- The executor rejects the instruction, or the disassembler knows it. -/
def agree (legal known : Option Extent) : Bool := legal.isNone || legal == known

theorem line0_agrees : tablesAgree agree [] execRows0 lineRows0 = true := by decide +kernel

theorem line4_agrees : tablesAgree agree [] execRows4 lineRows4 = true := by decide +kernel

end M68k
