import Rocket68.Disasm

/-!
# What the disassembler formats

No text is too long for the scratch buffer it is formatted into, whatever words are
disassembled and wherever they stand, and the length of a line is even, from 2 to 10.
-/

namespace M68k

open Text

/-! ## How wide a text can be -/

/-- The most characters that a formatting call has for a scratch buffer. -/
def Scratch.widest : Scratch → Nat
  | .ea => 13
  | .op => 8
  | .args => 28
  | .gpr => 3

theorem Scratch.widest_lt (b : Scratch) : b.widest < b.size := by
  cases b <;> decide

/-- The call has no more characters than are allowed for. -/
def Formatted.Fits (call : Formatted) : Prop := call.text.length ≤ call.buffer.widest

theorem Formatted.Fits.held {call : Formatted} (h : call.Fits) : call.held = call.text :=
  truncated_eq (Nat.lt_of_le_of_lt h call.buffer.widest_lt)

section Literals

@[simp] theorem length_comma : (", " : String).length = 2 := rfl

@[simp] theorem length_open : ("(" : String).length = 1 := rfl

@[simp] theorem length_close : (")" : String).length = 1 := rfl

@[simp] theorem length_predec : ("-(" : String).length = 2 := rfl

@[simp] theorem length_postinc : (")+" : String).length = 2 := rfl

@[simp] theorem length_sep : ("," : String).length = 1 := rfl

@[simp] theorem length_pc : ("(PC)" : String).length = 4 := rfl

@[simp] theorem length_pcIndex : ("(PC," : String).length = 4 := rfl

@[simp] theorem length_dollar : ("$" : String).length = 1 := rfl

@[simp] theorem length_hash : ("#" : String).length = 1 := rfl

@[simp] theorem length_immediate : ("#$" : String).length = 2 := rfl

@[simp] theorem length_word : (".W" : String).length = 2 := rfl

@[simp] theorem length_long : (".L" : String).length = 2 := rfl

end Literals

section Names

@[simp] theorem dataName_length (r : Fin 8) : (dataName r).length = 2 := by
  revert r
  decide

@[simp] theorem addrName_length (r : Fin 8) : (addrName r).length = 2 := by
  revert r
  decide

@[simp] theorem registerName_length (ext : U16) : (registerName ext).length = 2 := by
  unfold registerName
  split
  · exact addrName_length _
  · exact dataName_length _

@[simp] theorem indexName_length (ext : U16) : (indexName ext).length = 4 := by
  unfold indexName
  rw [String.length_append, registerName_length]
  split <;> rfl

@[simp] theorem sizeStr_length (code : Fin 4) : (sizeStr code).length = 2 := by
  revert code
  decide

@[simp] theorem longStr_length (isLong : Bool) : (longStr isLong).length = 2 := by
  cases isLong <;> rfl

@[simp] theorem predecName_length (r : Fin 8) : (predecName r).length = 5 := by
  simp [predecName]

@[simp] theorem postincName_length (r : Fin 8) : (postincName r).length = 5 := by
  simp [postincName]

@[simp] theorem pair_length (a b : String) : (pair a b).length = a.length + b.length + 2 := by
  simp [pair]
  omega

/-- A signed word has at most five digits. -/
theorem decimal_word (w : U16) : (decimal w.toInt).length ≤ 6 := by
  apply decimal_length_le_succ (k := 5) (by decide)
  have hlow := BitVec.le_toInt w
  have hhigh := BitVec.toInt_lt (x := w)
  omega

/-- A signed byte has at most three. -/
theorem decimal_byte (b : U8) : (decimal b.toInt).length ≤ 4 := by
  apply decimal_length_le_succ (k := 3) (by decide)
  have hlow := BitVec.le_toInt b
  have hhigh := BitVec.toInt_lt (x := b)
  omega

theorem disp8_length_le (ext : U16) : (decimal (disp8 ext)).length ≤ 4 := decimal_byte _

theorem dispName_length_le (w : U16) (r : Fin 8) : (dispName w.toInt r).length ≤ 10 := by
  have h := decimal_word w
  simp [dispName]
  omega

theorem addressName_length_le (address : U32) : (addressName address).length ≤ 9 := by
  have h := hex_length_le (k := 8) (by decide) address.isLt
  simp [addressName]
  omega

theorem quickName_length_le {n : Int} {k : Nat} (h : (decimal n).length ≤ k) :
    (quickName n).length ≤ k + 1 := by
  simp [quickName]
  omega

end Names

/-- An effective address has at most 13 characters and two extension words. -/
theorem eaText_fits (words : Words) (basePc : U32) (mode reg : Fin 8) (size : M68kSize) :
    (eaText words basePc mode reg size).1.length ≤ 13 ∧
      ((eaText words basePc mode reg size).2 = 0 ∨ (eaText words basePc mode reg size).2 = 2 ∨
        (eaText words basePc mode reg size).2 = 4) := by
  have hlong := (peekLong words basePc).isLt
  have hword := (words basePc).isLt
  have hdisp := disp8_length_le (words basePc)
  unfold eaText
  split
  · simp
  · simp
  · simp
  · simp
  · simp
  · have h := dispName_length_le (words basePc) reg
    simp
    omega
  · simp
    omega
  · split
    · have h := hexPadded_length (k := 4) (by decide) hword
      simp [h]
    · have h := hexPadded_length (k := 8) (by decide) hlong
      simp [h]
    · have h := addressName_length_le (basePc + (words basePc).signExtend 32)
      simp
      omega
    · simp
      omega
    · cases size with
      | long =>
        have h := hex_length_le (k := 8) (by decide) hlong
        simp
        omega
      | byte =>
        have h := hexPadded_length (k := 2) (by decide) ((words basePc).setWidth 8).isLt
        refine ⟨?_, .inr (.inl rfl)⟩
        rw [String.length_append, h]
        decide
      | word =>
        have h := hexPadded_length (k := 4) (by decide) hword
        simp [h]
    · exact ⟨by decide, .inl rfl⟩

/-! ## Formatting within the buffers -/

/-- Every call so far, and every one of `m`, fits; the result is as `P` says. -/
def Fitting {α : Type} (P : α → Prop) (m : Render α) : Prop :=
  ∀ calls : List Formatted, (∀ call ∈ calls, call.Fits) →
    P (m calls).1 ∧ ∀ call ∈ (m calls).2, call.Fits

namespace Fitting

variable {α β : Type} {P : α → Prop} {Q : β → Prop}

theorem pure {a : α} (h : P a) : Fitting P (Pure.pure a : Render α) := fun _ hcalls => ⟨h, hcalls⟩

theorem bind {m : Render α} {f : α → Render β} (hm : Fitting P m)
    (hf : ∀ a, P a → Fitting Q (f a)) : Fitting Q (m >>= f) := fun calls hcalls =>
  have hfirst := hm calls hcalls
  hf (m calls).1 hfirst.1 (m calls).2 hfirst.2

theorem ite {c : Prop} [Decidable c] {m n : Render α} (hm : c → Fitting P m)
    (hn : ¬c → Fitting P n) : Fitting P (if c then m else n) := by
  split
  · next h => exact hm h
  · next h => exact hn h

/-- A text that fits arrives whole. -/
theorem snprintf {buffer : Scratch} {text : String} (h : text.length ≤ buffer.widest) :
    Fitting (· = text) (M68k.snprintf buffer text) := by
  intro calls hcalls
  have hfits : (⟨buffer, text⟩ : Formatted).Fits := h
  exact ⟨hfits.held, List.forall_mem_cons.mpr ⟨hfits, hcalls⟩⟩

end Fitting

/-- An effective address as it is rendered. -/
theorem disasmEa_fits (words : Words) (basePc : U32) (mode reg : Fin 8) (size : M68kSize) :
    Fitting (fun ea => ea.1.length ≤ 13 ∧ (ea.2 = 0 ∨ ea.2 = 2 ∨ ea.2 = 4))
      (disasmEa words basePc mode reg size) := by
  obtain ⟨htext, hbytes⟩ := eaText_fits words basePc mode reg size
  refine .bind (.snprintf htext) ?_
  rintro buf rfl
  exact .pure ⟨htext, hbytes⟩

/-- The lengths of instructions. -/
def InstructionLength (n : Nat) : Prop := n % 2 = 0 ∧ 2 ≤ n ∧ n ≤ 10

/-- A line that is rendered whole and has the length of an instruction. -/
def Sound (m : Render Line) : Prop := Fitting (fun line => InstructionLength line.len) m

section Lines

variable {words : Words} {pc : U32} {opcode : U16} {mnemonic arguments : String}

theorem length_two : InstructionLength 2 := ⟨rfl, by decide, by decide⟩

theorem length_four : InstructionLength 4 := ⟨rfl, by decide, by decide⟩

theorem length_ea {skip bytes : Nat} (hskip : skip = 2 ∨ skip = 4)
    (hbytes : bytes = 0 ∨ bytes = 2 ∨ bytes = 4) : InstructionLength (skip + bytes) := by
  unfold InstructionLength
  omega

theorem length_pair {a b : Nat} (ha : a = 0 ∨ a = 2 ∨ a = 4) (hb : b = 0 ∨ b = 2 ∨ b = 4) :
    InstructionLength (2 + a + b) := by
  unfold InstructionLength
  omega

theorem bareLine_fits (hop : mnemonic.length ≤ 8) : Sound (bareLine mnemonic) :=
  .bind (.snprintf hop) fun _ _ => .pure length_two

theorem plainLine_fits {len : Nat} (hop : mnemonic.length ≤ 8) (hargs : arguments.length ≤ 28)
    (hlen : InstructionLength len) : Sound (plainLine mnemonic arguments len) :=
  .bind (.snprintf hop) fun _ _ => .bind (.snprintf hargs) fun _ _ => .pure hlen

theorem eaLine_fits {size : M68kSize} {skip : Nat} {arguments : String → String}
    (hop : mnemonic.length ≤ 8) (hskip : skip = 2 ∨ skip = 4)
    (hargs : ∀ ea, ea.length ≤ 13 → (arguments ea).length ≤ 28) :
    Sound (eaLine words pc opcode mnemonic size skip arguments) := by
  refine .bind (.snprintf hop) fun _ _ => .bind (disasmEa_fits _ _ _ _ _) ?_
  rintro ⟨ea, bytes⟩ ⟨htext, hbytes⟩
  exact .bind (.snprintf (hargs ea htext)) fun _ _ => .pure (length_ea hskip hbytes)

/-- The address alone, and in a pair with a text of its own width. -/
theorem id_fits (ea : String) (h : ea.length ≤ 13) : (id ea).length ≤ 28 :=
  Nat.le_trans h (by decide)

theorem pair_fits {a b : String} (ha : a.length ≤ 13) (hb : b.length ≤ 13) :
    (pair a b).length ≤ 28 := by
  simp
  omega

theorem sized_fits (code : Fin 4) {name : String} (h : name.length ≤ 6) :
    (name ++ sizeStr code).length ≤ 8 := by
  simp
  omega

theorem long_fits (isLong : Bool) {name : String} (h : name.length ≤ 6) :
    (name ++ longStr isLong).length ≤ 8 := by
  simp
  omega

theorem dataName_fits (r : Fin 8) : (dataName r).length ≤ 13 := by simp

theorem addrName_fits (r : Fin 8) : (addrName r).length ≤ 13 := by simp

/-! ## Every line -/

theorem decodeMove_fits (hsize : ((opcode >>> 12).setWidth 2).toFin ≠ (0 : Fin 4)) :
    Sound (decodeMove words pc opcode) := by
  have hgo : ∀ size szStr, szStr.length ≤ 4 → Sound (decodeMove.go words pc opcode size szStr) := by
    intro size szStr hsz
    have hop : ("MOVE" ++ szStr).length ≤ 8 := by
      have hmove : ("MOVE" : String).length = 4 := rfl
      rw [String.length_append]
      omega
    refine .bind (.snprintf hop) fun _ _ => .bind (disasmEa_fits _ _ _ _ _) ?_
    rintro ⟨src, srcBytes⟩ ⟨hsrc, hsrcBytes⟩
    refine .bind (disasmEa_fits _ _ _ _ _) ?_
    rintro ⟨dest, destBytes⟩ ⟨hdest, hdestBytes⟩
    exact .bind (.snprintf (pair_fits hsrc hdest)) fun _ _ =>
      .pure (length_pair hsrcBytes hdestBytes)
  unfold decodeMove
  split
  · exact hgo .byte ".B" (by decide)
  · exact hgo .word ".W" (by decide)
  · exact hgo .long ".L" (by decide)
  · next h1 h3 h2 =>
    exfalso
    generalize ((opcode >>> 12).setWidth 2).toFin = code at *
    revert hsize h1 h3 h2
    revert code
    decide

theorem decodeBranch_fits : Sound (decodeBranch words pc opcode) := by
  have hop : (if condition opcode = 1 then "BSR" else if condition opcode = 0 then "BRA"
      else "B" ++ branchNames.getD (condition opcode) "").length ≤ 8 := by
    have hcond : condition opcode < 16 := ((opcode >>> 8).setWidth 4).isLt
    generalize condition opcode = cond at *
    revert cond
    decide
  have hargs := fun address => Nat.le_trans (addressName_length_le address) (by decide : 9 ≤ 28)
  unfold decodeBranch
  exact .ite (fun _ => plainLine_fits hop (hargs _) length_four)
    fun _ => plainLine_fits hop (hargs _) length_two

/-- The operation modes 3 and 7 belong to other instructions. -/
theorem decodeStdArith_fits {nameBase : String} (hname : nameBase.length ≤ 6)
    (h3 : field opcode 6 ≠ 3) (h7 : field opcode 6 ≠ 7) :
    Sound (decodeStdArith words pc opcode nameBase) := by
  have hop : ∀ sz : String, sz.length ≤ 2 → (nameBase ++ sz).length ≤ 8 := by
    intro sz hsz
    rw [String.length_append]
    omega
  have hdata : ∀ size sz, sz.length ≤ 2 →
      Sound (decodeStdArith.toData words pc opcode nameBase size sz) := fun _ sz hsz =>
    eaLine_fits (hop sz hsz) (.inl rfl) fun _ h => pair_fits h (dataName_fits _)
  have hea : ∀ size sz, sz.length ≤ 2 →
      Sound (decodeStdArith.toEa words pc opcode nameBase size sz) := fun _ sz hsz =>
    eaLine_fits (hop sz hsz) (.inl rfl) fun _ h => pair_fits (dataName_fits _) h
  unfold decodeStdArith
  split
  · exact hdata .byte ".B" (by decide)
  · exact hdata .word ".W" (by decide)
  · exact hdata .long ".L" (by decide)
  · exact hea .byte ".B" (by decide)
  · exact hea .word ".W" (by decide)
  · exact hea .long ".L" (by decide)
  · next h0 h1 h2 h4 h5 h6 =>
    exfalso
    generalize field opcode 6 = mode at *
    revert h0 h1 h2 h3 h4 h5 h6 h7
    revert mode
    decide

theorem decodeImmArith_fits {name : String} (hname : name.length ≤ 6) :
    Sound (decodeImmArith words pc opcode name) := by
  refine .bind (.snprintf (sized_fits _ hname)) fun _ _ => .bind (disasmEa_fits _ _ _ _ _) ?_
  rintro ⟨imm, immBytes⟩ ⟨himm, himmBytes⟩
  refine .bind (disasmEa_fits _ _ _ _ _) ?_
  rintro ⟨ea, eaBytes⟩ ⟨hea, heaBytes⟩
  exact .bind (.snprintf (pair_fits himm hea)) fun _ _ => .pure (length_pair himmBytes heaBytes)

theorem statusLine_fits {name : String} (hname : name.length ≤ 8) (toSr : Bool) :
    Sound (statusLine words pc name toSr) := by
  unfold statusLine
  refine .ite (fun _ => plainLine_fits hname ?_ length_four)
    fun _ => plainLine_fits hname ?_ length_four
  · have h := hexPadded_length (k := 4) (by decide) (words (pc + 2)).isLt
    rw [String.length_append, String.length_append, h]
    decide
  · have h := hexPadded_length (k := 2) (by decide) ((words (pc + 2)).setWidth 8).isLt
    rw [String.length_append, String.length_append, h]
    decide

theorem movesLine_fits : Sound (movesLine words pc opcode) := by
  have hgpr : ∀ ext, (registerName ext).length ≤ Scratch.gpr.widest := by
    intro ext
    rw [registerName_length]
    decide
  refine .bind (.snprintf (sized_fits _ (by decide))) fun _ _ => .bind (.snprintf (hgpr _)) ?_
  rintro _ rfl
  refine .bind (disasmEa_fits _ _ _ _ _) ?_
  rintro ⟨ea, bytes⟩ ⟨htext, hbytes⟩
  have hreg : (registerName (words (pc + 2))).length ≤ 13 := Nat.le_trans (hgpr _) (by decide)
  refine .bind (.snprintf ?_) fun _ _ => .pure (length_ea (.inr rfl) hbytes)
  show String.length (if _ then _ else _) ≤ 28
  split
  · exact pair_fits hreg htext
  · exact pair_fits htext hreg

theorem movepLine_fits : Sound (movepLine words pc opcode) := by
  have hdisp : (dispName (words (pc + 2)).toInt (field opcode 0)).length ≤ 13 :=
    Nat.le_trans (dispName_length_le _ _) (by decide)
  unfold movepLine
  exact .ite (fun _ => plainLine_fits (long_fits _ (by decide))
      (pair_fits hdisp (dataName_fits _)) length_four)
    fun _ => plainLine_fits (long_fits _ (by decide))
      (pair_fits (dataName_fits _) hdisp) length_four

/-- A quick operand of at most four digits and sign. -/
theorem quickName_fits {n : Int} (h : (decimal n).length ≤ 6) : (quickName n).length ≤ 13 :=
  Nat.le_trans (quickName_length_le h) (by decide)

theorem disasmLine0_fits : Sound (disasmLine0 words pc opcode) := by
  have hbit : ∀ code, (bitName code).length ≤ 8 := by decide
  have hnumber : (quickName ((words (pc + 2)).setWidth 8).toNat).length ≤ 13 := by
    apply quickName_fits
    apply Nat.le_trans (decimal_length_le (k := 3) (by decide) ?_) (by decide)
    exact Nat.lt_trans ((words (pc + 2)).setWidth 8).isLt (by decide)
  have hstatus : ∀ name toSr, name.length ≤ 8 → Sound (statusLine words pc name toSr) :=
    fun _ _ h => statusLine_fits h _
  have himm : ∀ name, name.length ≤ 6 → Sound (decodeImmArith words pc opcode name) :=
    fun _ h => decodeImmArith_fits h
  unfold disasmLine0
  exact .ite (fun _ => eaLine_fits (hbit _) (.inr rfl) fun _ h => pair_fits hnumber h) fun _ =>
    .ite (fun _ => .ite (fun _ => movepLine_fits) fun _ =>
      eaLine_fits (hbit _) (.inl rfl) fun _ h => pair_fits (dataName_fits _) h) fun _ =>
    .ite (fun _ => movesLine_fits) fun _ =>
    .ite (fun _ => hstatus "ORI" false (by decide)) fun _ =>
    .ite (fun _ => hstatus "ORI" true (by decide)) fun _ =>
    .ite (fun _ => hstatus "ANDI" false (by decide)) fun _ =>
    .ite (fun _ => hstatus "ANDI" true (by decide)) fun _ =>
    .ite (fun _ => hstatus "EORI" false (by decide)) fun _ =>
    .ite (fun _ => hstatus "EORI" true (by decide)) fun _ =>
    .ite (fun _ => himm "ORI" (by decide)) fun _ =>
    .ite (fun _ => himm "ANDI" (by decide)) fun _ =>
    .ite (fun _ => himm "SUBI" (by decide)) fun _ =>
    .ite (fun _ => himm "ADDI" (by decide)) fun _ =>
    .ite (fun _ => himm "EORI" (by decide)) fun _ =>
    .ite (fun _ => himm "CMPI" (by decide)) fun _ => .pure length_two

theorem movecLine_fits : Sound (movecLine words pc opcode) := by
  have hgpr : ∀ ext, (registerName ext).length ≤ Scratch.gpr.widest := by
    intro ext
    rw [registerName_length]
    decide
  have hcontrol : ∀ ext, (controlName ext).length ≤ 13 := by
    intro ext
    unfold controlName
    split <;> decide
  refine .bind (.snprintf (by decide)) fun _ _ => .bind (.snprintf (hgpr _)) ?_
  rintro _ rfl
  have hreg : (registerName (words (pc + 2))).length ≤ 13 := Nat.le_trans (hgpr _) (by decide)
  refine .bind (.snprintf ?_) fun _ _ => .pure length_four
  show String.length (if _ then _ else _) ≤ 28
  split
  · exact pair_fits hreg (hcontrol _)
  · exact pair_fits (hcontrol _) hreg

theorem eaAlone_fits {size : M68kSize} {skip : Nat} (hop : mnemonic.length ≤ 8)
    (hskip : skip = 2 ∨ skip = 4) : Sound (eaLine words pc opcode mnemonic size skip id) :=
  eaLine_fits hop hskip id_fits

theorem swapLine_fits : Sound (swapLine words pc opcode) :=
  .ite (fun _ => plainLine_fits (by decide) (by simp) length_two)
    fun _ => eaAlone_fits (by decide) (.inl rfl)

theorem movemLine_fits : Sound (movemLine words pc opcode) :=
  .ite (fun _ => plainLine_fits (long_fits _ (by decide)) (by simp) length_two)
    fun _ => eaAlone_fits (long_fits _ (by decide)) (.inr rfl)

theorem unaryLine_fits {name : String} (hname : name.length ≤ 6) :
    Sound (unaryLine words pc opcode name) :=
  eaAlone_fits (sized_fits _ hname) (.inl rfl)

/-- An effective address beside a name. -/
theorem eaBefore_fits {size : M68kSize} {other : String} (hop : mnemonic.length ≤ 8)
    (hother : other.length ≤ 13) :
    Sound (eaLine words pc opcode mnemonic size 2 (pair · other)) :=
  eaLine_fits hop (.inl rfl) fun _ h => pair_fits h hother

theorem eaAfter_fits {size : M68kSize} {other : String} (hop : mnemonic.length ≤ 8)
    (hother : other.length ≤ 13) :
    Sound (eaLine words pc opcode mnemonic size 2 (pair other)) :=
  eaLine_fits hop (.inl rfl) fun _ h => pair_fits hother h

theorem disasmLine4_fits : Sound (disasmLine4 words pc opcode) := by
  have hword : (quickName (words (pc + 2)).toInt).length ≤ 13 := quickName_fits (decimal_word _)
  have hstop : ("#$" ++ hexPadded 4 (words (pc + 2)).toNat).length ≤ 28 := by
    rw [String.length_append, hexPadded_length (by decide) (words (pc + 2)).isLt]
    decide
  have hvector : ∀ n : Fin 16, (quickName n.val).length ≤ 28 := by decide
  have hnumber : ∀ r : Fin 8, (quickName r.val).length ≤ 28 := by decide
  unfold disasmLine4
  exact .ite (fun _ => bareLine_fits (by decide)) fun _ =>
    .ite (fun _ => bareLine_fits (by decide)) fun _ =>
    .ite (fun _ => plainLine_fits (by decide) hstop length_four) fun _ =>
    .ite (fun _ => bareLine_fits (by decide)) fun _ =>
    .ite (fun _ => bareLine_fits (by decide)) fun _ =>
    .ite (fun _ => bareLine_fits (by decide)) fun _ =>
    .ite (fun _ => bareLine_fits (by decide)) fun _ =>
    .ite (fun _ => plainLine_fits (by decide) (Nat.le_trans hword (by decide)) length_four)
      fun _ =>
    .ite (fun _ => movecLine_fits) fun _ =>
    .ite (fun _ => plainLine_fits (by decide) (hvector (opcode.setWidth 4).toFin) length_two)
      fun _ =>
    .ite (fun _ => plainLine_fits (by decide) (pair_fits (addrName_fits _) hword) length_four)
      fun _ =>
    .ite (fun _ => plainLine_fits (by decide) (by simp) length_two) fun _ =>
    .ite (fun _ => .ite
      (fun _ => plainLine_fits (by decide) (pair_fits (by decide) (addrName_fits _)) length_two)
      fun _ => plainLine_fits (by decide) (pair_fits (addrName_fits _) (by decide)) length_two)
      fun _ =>
    .ite (fun _ => eaAlone_fits (by decide) (.inl rfl)) fun _ =>
    .ite (fun _ => eaAlone_fits (by decide) (.inl rfl)) fun _ =>
    .ite (fun _ => eaAfter_fits (by decide) (by decide)) fun _ =>
    .ite (fun _ => eaBefore_fits (by decide) (by decide)) fun _ =>
    .ite (fun _ => eaBefore_fits (by decide) (by decide)) fun _ =>
    .ite (fun _ => eaAlone_fits (by decide) (.inl rfl)) fun _ =>
    .ite (fun _ => eaAlone_fits (by decide) (.inl rfl)) fun _ =>
    .ite (fun _ => plainLine_fits (by decide) (hnumber _) length_two) fun _ =>
    .ite (fun _ => swapLine_fits) fun _ =>
    .ite (fun _ => movemLine_fits) fun _ =>
    .ite (fun _ => eaBefore_fits (by decide) (dataName_fits _)) fun _ =>
    .ite (fun _ => eaBefore_fits (by decide) (addrName_fits _)) fun _ =>
    .ite (fun _ => unaryLine_fits (by decide)) fun _ =>
    .ite (fun _ => unaryLine_fits (by decide)) fun _ =>
    .ite (fun _ => eaAfter_fits (by decide) (by decide)) fun _ =>
    .ite (fun _ => unaryLine_fits (by decide)) fun _ =>
    .ite (fun _ => unaryLine_fits (by decide)) fun _ =>
    .ite (fun _ => unaryLine_fits (by decide)) fun _ => .pure length_two

theorem disasmLine5_fits : Sound (disasmLine5 words pc opcode) := by
  have hcond : condition opcode < 16 := ((opcode >>> 8).setWidth 4).isLt
  have hname : (conditionNames.getD (condition opcode) "").length ≤ 2 := by
    generalize condition opcode = cond at *
    revert cond
    decide
  have hop : ∀ letters : String, letters.length ≤ 2 →
      (letters ++ conditionNames.getD (condition opcode) "").length ≤ 8 := by
    intro letters hletters
    rw [String.length_append]
    omega
  have hquick : ((if opcode &&& 0x0100 ≠ 0 then "SUB" else "ADD") ++ "Q" ++
      sizeStr (sizeBits opcode)).length ≤ 8 := by
    rw [String.length_append, String.length_append, sizeStr_length]
    split <;> decide
  have hdata : (quickName (if field opcode 9 = 0 then 8 else (field opcode 9).val : Nat)).length
      ≤ 13 := by
    generalize field opcode 9 = data
    revert data
    decide
  have htarget := addressName_length_le (pc + 2 + (words (pc + 2)).signExtend 32)
  unfold disasmLine5
  exact .ite (fun _ => .ite (fun _ => plainLine_fits (hop "DB" (by decide))
        (pair_fits (dataName_fits _) (Nat.le_trans htarget (by decide))) length_four)
      fun _ => eaAlone_fits (hop "S" (by decide)) (.inl rfl)) fun _ =>
    eaAfter_fits hquick hdata

theorem extendedPair_fits : (extendedPair opcode).length ≤ 28 := by
  unfold extendedPair
  split <;> simp

theorem exgPair_fits : (exgPair opcode).length ≤ 28 := by
  have hpair : ∀ a b : String, a.length = 2 → b.length = 2 → (pair a b).length ≤ 28 := by
    intro a b ha hb
    rw [pair_length, ha, hb]
    decide
  unfold exgPair
  simp only
  split
  · exact hpair _ _ (dataName_length _) (dataName_length _)
  · split
    · exact hpair _ _ (addrName_length _) (addrName_length _)
    · exact hpair _ _ (dataName_length _) (addrName_length _)

theorem wordByData_fits {name : String} (hname : name.length ≤ 8) :
    Sound (wordByData words pc opcode name) :=
  eaBefore_fits hname (dataName_fits _)

theorem disasmLine8_fits : Sound (disasmLine8 words pc opcode) := by
  unfold disasmLine8
  exact .ite (fun _ => wordByData_fits (by decide)) fun h3 =>
    .ite (fun _ => wordByData_fits (by decide)) fun h7 =>
    .ite (fun _ => plainLine_fits (by decide) extendedPair_fits length_two) fun _ =>
    decodeStdArith_fits (by decide) h3 h7

theorem addressArith_fits {name : String} (hname : name.length ≤ 6) :
    Sound (addressArith words pc opcode name) :=
  eaBefore_fits (long_fits _ hname) (addrName_fits _)

theorem disasmAddSub_fits {name : String} (hname : name.length ≤ 5) :
    Sound (disasmAddSub words pc opcode name) := by
  have hletter : ∀ letter : String, letter.length = 1 → (name ++ letter).length ≤ 6 := by
    intro letter hone
    rw [String.length_append, hone]
    omega
  unfold disasmAddSub
  exact .ite (fun _ => addressArith_fits (hletter "A" rfl)) fun hmode =>
    .ite (fun _ => plainLine_fits (sized_fits _ (hletter "X" rfl)) extendedPair_fits length_two)
      fun _ =>
    decodeStdArith_fits (Nat.le_succ_of_le hname) (fun h => hmode (.inl h))
      fun h => hmode (.inr h)

theorem disasmLineB_fits : Sound (disasmLineB words pc opcode) := by
  unfold disasmLineB
  refine .ite (fun _ => addressArith_fits (by decide)) fun hmode => ?_
  have h3 : field opcode 6 ≠ 3 := fun h => hmode (.inl h)
  have h7 : field opcode 6 ≠ 7 := fun h => hmode (.inr h)
  exact .ite (fun _ => plainLine_fits (sized_fits _ (by decide)) (by simp) length_two) fun _ =>
    .ite (fun _ => decodeStdArith_fits (by decide) h3 h7) fun _ =>
    decodeStdArith_fits (by decide) h3 h7

theorem disasmLineC_fits : Sound (disasmLineC words pc opcode) := by
  unfold disasmLineC
  exact .ite (fun _ => wordByData_fits (by decide)) fun h3 =>
    .ite (fun _ => wordByData_fits (by decide)) fun h7 =>
    .ite (fun _ => plainLine_fits (by decide) extendedPair_fits length_two) fun _ =>
    .ite (fun _ => plainLine_fits (by decide) exgPair_fits length_two) fun _ =>
    decodeStdArith_fits (by decide) h3 h7

theorem disasmLineE_fits : Sound (disasmLineE words pc opcode) := by
  have hmem : ∀ (type : Fin 4) (dir : Bool),
      (memOps.getD (type.val * 2 + dir.toNat) "" ++ ".W").length ≤ 8 := by decide
  have hreg : ∀ (type : Fin 4) (dir : Bool), (regOps.getD type.val "" ++
      (if dir then "L" else "R")).length ≤ 6 := by decide
  have hcount : (quickName (if field opcode 9 = 0 then 8 else (field opcode 9).val : Nat)).length
      ≤ 13 := by
    generalize field opcode 9 = count
    revert count
    decide
  unfold disasmLineE
  exact .ite (fun _ => eaAlone_fits (hmem ((opcode >>> 9).setWidth 2).toFin _) (.inl rfl)) fun _ =>
    .ite (fun _ => plainLine_fits (sized_fits _ (hreg ((opcode >>> 3).setWidth 2).toFin _))
      (pair_fits (dataName_fits _) (dataName_fits _)) length_two) fun _ =>
    plainLine_fits (sized_fits _ (hreg ((opcode >>> 3).setWidth 2).toFin _))
      (pair_fits hcount (dataName_fits _)) length_two

/-- Lines 1 to 3 have a size. -/
theorem moveSize_ne (h0 : ¬opcode &&& 0xF000 = 0x0000) (h : opcode &&& 0xC000 = 0x0000) :
    ((opcode >>> 12).setWidth 2).toFin ≠ (0 : Fin 4) := by
  intro hsize
  apply h0
  have hlow : (opcode >>> 12).setWidth 2 = 0 := BitVec.toFin_inj.mp hsize
  have hbits : ∀ i : Fin 16, (0xF000 : U16).getLsbD i = true →
      (0xC000 : U16).getLsbD i = true ∨ 12 ≤ (i : Nat) ∧ (i : Nat) < 14 := by decide
  apply BitVec.eq_of_getLsbD_eq
  intro i hi
  have hzero : (0 : U16).getLsbD i = false := BitVec.getLsbD_zero
  rw [BitVec.getLsbD_and, hzero, Bool.and_eq_false_iff, or_iff_not_imp_right, Bool.not_eq_false]
  intro hmask
  rcases hbits ⟨i, hi⟩ hmask with hhigh | ⟨hlo, hup⟩
  · have hbit := congrArg (fun v : U16 => v.getLsbD i) h
    simp only [BitVec.getLsbD_and, hzero] at hbit
    rwa [show (0xC000 : U16).getLsbD i = true from hhigh, Bool.and_true] at hbit
  · replace hlo : 12 ≤ i := hlo
    replace hup : i < 14 := hup
    have hbit := congrArg (fun v : BitVec 2 => v.getLsbD (i - 12)) hlow
    have hindex : 12 + (i - 12) = i := by omega
    have hlt : i - 12 < 2 := by omega
    simpa [BitVec.getLsbD_setWidth, BitVec.getLsbD_ushiftRight, hindex, hlt] using hbit

theorem disasmLine_fits : Sound (disasmLine words pc opcode) := by
  have hdata : (quickName (disp8 opcode)).length ≤ 13 :=
    quickName_fits (Nat.le_trans (disp8_length_le opcode) (by decide))
  unfold disasmLine
  exact .ite (fun _ => disasmLine0_fits) fun h0 =>
    .ite (fun h => decodeMove_fits (moveSize_ne h0 h)) fun _ =>
    .ite (fun _ => disasmLine4_fits) fun _ =>
    .ite (fun _ => disasmLine5_fits) fun _ =>
    .ite (fun _ => decodeBranch_fits) fun _ =>
    .ite (fun _ => plainLine_fits (by decide) (pair_fits hdata (dataName_fits _)) length_two)
      fun _ =>
    .ite (fun _ => disasmLine8_fits) fun _ =>
    .ite (fun _ => disasmAddSub_fits (by decide)) fun _ =>
    .ite (fun _ => disasmLineB_fits) fun _ =>
    .ite (fun _ => disasmLineC_fits) fun _ =>
    .ite (fun _ => disasmAddSub_fits (by decide)) fun _ =>
    .ite (fun _ => disasmLineE_fits) fun _ => .pure length_two

end Lines

/-- The length of every disassembly, and the calls made on the way. -/
theorem disasm_fits (words : Words) (pc : U32) (bufSize : Nat) :
    Fitting (fun r => InstructionLength r.2) (disasm words pc bufSize) :=
  .bind disasmLine_fits fun _ hlen => .pure hlen

/-- No formatting call has more characters than the widest effective address, mnemonic,
argument list or register name, and none loses any of them to its buffer. -/
theorem disasm_never_truncates (words : Words) (pc : U32) (bufSize : Nat) :
    ∀ call ∈ (disasm words pc bufSize []).2,
      call.text.length ≤ call.buffer.widest ∧ call.held = call.text := by
  intro call hcall
  have hfits := (disasm_fits words pc bufSize [] fun _ h => absurd h List.not_mem_nil).2 call hcall
  exact ⟨hfits, hfits.held⟩

/-- The last call for MOVE.L 16(A0),D0 joins the two operands. -/
theorem disasm_never_truncates_move :
    ("16(A0), D0" : String).length ≤ Scratch.args.widest ∧
      Formatted.held ⟨.args, "16(A0), D0"⟩ = "16(A0), D0" :=
  disasm_never_truncates (fun a => if a = 0x100 then 0x2028 else 0x0010) 0x100 64
    ⟨.args, "16(A0), D0"⟩ (by decide +kernel)

end M68k
