import Rocket68.Theorems.Disassembly

/-!
# What a line depends on

`m68k_disasm` reads no word but those its line covers: two memories that agree on the bytes of
the line are disassembled alike. Every line is built from the words in order, so its length is
settled before a word behind it could matter; one lemma for each form of line, and the if-chains
of the disassembler are followed branch by branch.
-/

namespace M68k

open Text

variable {words words' : Words} {pc : U32} {op : U16}

/-- The words that begin in the `n` bytes from `pc` agree. -/
def SameWords (words words' : Words) (pc : U32) (n : Nat) : Prop :=
  ∀ j, 2 * j < n → words (pc + BitVec.ofNat 32 (2 * j)) = words' (pc + BitVec.ofNat 32 (2 * j))

namespace SameWords

variable {m n : Nat}

theorem first (h : SameWords words words' pc n) (hn : 0 < n) : words pc = words' pc := by
  have hzero : pc + BitVec.ofNat 32 (2 * 0) = pc := BitVec.add_zero pc
  rw [← hzero]
  exact h 0 hn

theorem second (h : SameWords words words' pc n) (hn : 2 < n) :
    words (pc + 2) = words' (pc + 2) := h 1 hn

/-- Behind an even number of bytes. -/
theorem drop (h : SameWords words words' pc (2 * m + n)) :
    SameWords words words' (pc + BitVec.ofNat 32 (2 * m)) n := by
  intro j hj
  have hsum : pc + BitVec.ofNat 32 (2 * m) + BitVec.ofNat 32 (2 * j) =
      pc + BitVec.ofNat 32 (2 * (m + j)) := by
    rw [BitVec.add_assoc, ← BitVec.ofNat_add, Nat.mul_add]
  rw [hsum]
  exact h (m + j) (by omega)

theorem mono (h : SameWords words words' pc n) (hmn : m ≤ n) : SameWords words words' pc m :=
  fun j hj => h j (Nat.lt_of_lt_of_le hj hmn)

end SameWords

/-! ## Operands -/

/-- An operand's text depends only on its extension words. -/
theorem eaText_local {mode reg : Fin 8} {size : M68kSize}
    (h : SameWords words words' pc (eaText words pc mode reg size).2) :
    eaText words pc mode reg size = eaText words' pc mode reg size := by
  have key : ∀ m : Fin 8, m = 0 ∨ m = 1 ∨ m = 2 ∨ m = 3 ∨ m = 4 ∨ m = 5 ∨ m = 6 ∨ m = 7 := by decide
  have hword : 0 < 2 := by decide
  have hlong {f : U32 → String} (h : SameWords words words' pc 4) :
      (f (peekLong words pc), 4) = (f (peekLong words' pc), 4) := by
    rw [peekLong, peekLong, h.first (by decide), h.second (by decide)]
  rcases key mode with rfl | rfl | rfl | rfl | rfl | rfl | rfl | rfl
  · rfl
  · rfl
  · rfl
  · rfl
  · rfl
  · exact congrArg (fun w : U16 => (dispName w.toInt reg, 2)) (h.first hword)
  · exact congrArg (fun ext => (decimal (disp8 ext) ++ "(" ++ addrName reg ++ "," ++
      indexName ext ++ ")", 2)) (h.first hword)
  · rcases key reg with rfl | rfl | rfl | rfl | rfl | rfl | rfl | rfl
    · exact congrArg (fun w : U16 => ("$" ++ hexPadded 4 w.toNat ++ ".W", 2)) (h.first hword)
    · exact hlong (f := fun a => "$" ++ hexPadded 8 a.toNat ++ ".L") h
    · exact congrArg (fun w : U16 => (addressName (pc + w.signExtend 32) ++ "(PC)", 2))
        (h.first hword)
    · exact congrArg (fun ext => (decimal (disp8 ext) ++ "(PC," ++ indexName ext ++ ")", 2))
        (h.first hword)
    · cases size with
      | byte =>
        exact congrArg (fun w : U16 => ("#$" ++ hexPadded 2 (w.setWidth 8).toNat, 2))
          (h.first hword)
      | word =>
        exact congrArg (fun w : U16 => ("#$" ++ hexPadded 4 w.toNat, 2)) (h.first hword)
      | long => exact hlong (f := fun a => "#$" ++ hex a.toNat) h
    · simp [eaText]
    · simp [eaText]
    · simp [eaText]

/-! ## Lines -/

/-- A line that depends only on the words it covers. -/
def Local (words words' : Words) (pc : U32) (m m' : Render Line) : Prop :=
  SameWords words words' pc (m []).1.len → m = m'

theorem Local.ite {A : Prop} [Decidable A] {m m' n n' : Render Line}
    (hm : Local words words' pc m m') (hn : Local words words' pc n n') :
    Local words words' pc (if A then m else n) (if A then m' else n') := by
  split
  · exact hm
  · exact hn

theorem Local.same (m : Render Line) : Local words words' pc m m := fun _ => rfl

/-- A line that also depends on the word behind the opcode. -/
theorem Local.word {f : U16 → Render Line} (h : ∀ w, 2 < (f w []).1.len) :
    Local words words' pc (f (words (pc + 2))) (f (words' (pc + 2))) := fun hsame => by
  rw [hsame.second (h _)]

theorem eaLine_local (name : String) (size : M68kSize) (k : Nat) (arguments : String → String) :
    Local words words' pc (eaLine words pc op name size (2 * k) arguments)
      (eaLine words' pc op name size (2 * k) arguments) := fun h => by
  have htext := eaText_local (h.drop (m := k))
  unfold eaLine disasmEa
  rw [htext]

theorem disasmEa_eq (words : Words) (pc : U32) (mode reg : Fin 8) (size : M68kSize) :
    disasmEa words pc mode reg size = (do
      let buf ← snprintf .ea (eaText words pc mode reg size).1
      pure (buf, (eaText words pc mode reg size).2)) := rfl

/-- A mnemonic and two operands of one size, the second behind the first. -/
def pairLine (words : Words) (pc : U32) (name : String) (size : M68kSize)
    (mode reg mode' reg' : Fin 8) : Render Line := do
  let op ← snprintf .op name
  let (first, bytes) ← disasmEa words (pc + 2) mode reg size
  let (second, bytes') ← disasmEa words (pc + BitVec.ofNat 32 (2 + bytes)) mode' reg' size
  let args ← snprintf .args (pair first second)
  pure { op, args, len := 2 + bytes + bytes' }

theorem pairLine_local (name : String) (size : M68kSize) (mode reg mode' reg' : Fin 8) :
    Local words words' pc (pairLine words pc name size mode reg mode' reg')
      (pairLine words' pc name size mode reg mode' reg') := fun h => by
  obtain ⟨m, hm⟩ : ∃ m, (eaText words (pc + 2) mode reg size).2 = 2 * m := by
    obtain ⟨-, h0 | h2 | h4⟩ := eaText_fits words (pc + 2) mode reg size
    · exact ⟨0, h0⟩
    · exact ⟨1, h2⟩
    · exact ⟨2, h4⟩
  have hlen : (pairLine words pc name size mode reg mode' reg' []).1.len =
      2 + (eaText words (pc + 2) mode reg size).2 + (eaText words
        (pc + BitVec.ofNat 32 (2 + (eaText words (pc + 2) mode reg size).2)) mode' reg' size).2 :=
    rfl
  rw [hlen] at h
  have hfirst : eaText words (pc + 2) mode reg size = eaText words' (pc + 2) mode reg size :=
    eaText_local ((h.mono (m := 2 * 1 + _) (Nat.le_add_right _ _)).drop)
  -- The second operand begins where the first one ends, in both memories.
  have hbytes : 2 + 2 * m = 2 * (1 + m) := by omega
  rw [hm, hbytes] at h
  have hsecond := eaText_local h.drop
  simp only [pairLine, disasmEa_eq, bind_assoc, pure_bind]
  rw [← hfirst, hm, hbytes, hsecond]

theorem decodeMove_local : Local words words' pc (decodeMove words pc op)
    (decodeMove words' pc op) := by
  have hgo (size : M68kSize) (sz : String) : Local words words' pc
      (decodeMove.go words pc op size sz) (decodeMove.go words' pc op size sz) :=
    pairLine_local ("MOVE" ++ sz) size (field op 3) (field op 0) (field op 6) (field op 9)
  unfold decodeMove
  split
  · exact hgo _ _
  · exact hgo _ _
  · exact hgo _ _
  · exact .same _

theorem decodeImmArith_local (name : String) : Local words words' pc
    (decodeImmArith words pc op name) (decodeImmArith words' pc op name) :=
  pairLine_local (name ++ sizeStr (sizeBits op)) (codedSize (sizeBits op)) 7 4 (field op 3)
    (field op 0)

theorem decodeStdArith_local (name : String) : Local words words' pc
    (decodeStdArith words pc op name) (decodeStdArith words' pc op name) := by
  unfold decodeStdArith
  split
  · exact eaLine_local _ _ 1 _
  · exact eaLine_local _ _ 1 _
  · exact eaLine_local _ _ 1 _
  · exact eaLine_local _ _ 1 _
  · exact eaLine_local _ _ 1 _
  · exact eaLine_local _ _ 1 _
  · exact .same _

/-- A line of fixed length whose arguments name the word behind the opcode. -/
theorem wordLine_local (name : U16 → String) (arguments : U16 → String) : Local words words' pc
    (plainLine (name (words (pc + 2))) (arguments (words (pc + 2))) 4)
    (plainLine (name (words' (pc + 2))) (arguments (words' (pc + 2))) 4) :=
  .word (f := fun w => plainLine (name w) (arguments w) 4) fun _ => (by decide : 2 < 4)

theorem decodeBranch_local : Local words words' pc (decodeBranch words pc op)
    (decodeBranch words' pc op) :=
  .ite (wordLine_local (fun _ => _) fun w => addressName (pc + 2 + w.signExtend 32)) (.same _)

theorem statusLine_local (name : String) (toSr : Bool) : Local words words' pc
    (statusLine words pc name toSr) (statusLine words' pc name toSr) := by
  cases toSr
  · exact wordLine_local (fun _ => name) fun w =>
      "#$" ++ hexPadded 2 (w.setWidth 8).toNat ++ ", CCR"
  · exact wordLine_local (fun _ => name) fun w => "#$" ++ hexPadded 4 w.toNat ++ ", SR"

theorem movepLine_local : Local words words' pc (movepLine words pc op)
    (movepLine words' pc op) :=
  .ite (wordLine_local (fun _ => _) fun w => pair (dispName w.toInt (field op 0)) _)
    (wordLine_local (fun _ => _) fun w => pair _ (dispName w.toInt (field op 0)))

theorem movesLine_local : Local words words' pc (movesLine words pc op)
    (movesLine words' pc op) := fun h => by
  have hlen : (movesLine words pc op []).1.len = 2 * 2 + (eaText words (pc + 4) (field op 3)
      (field op 0) (codedSize (sizeBits op))).2 := rfl
  rw [hlen] at h
  have hword := h.second (by omega)
  have htext : eaText words (pc + 4) (field op 3) (field op 0) (codedSize (sizeBits op)) =
      eaText words' (pc + 4) (field op 3) (field op 0) (codedSize (sizeBits op)) :=
    eaText_local h.drop
  simp only [movesLine, disasmEa_eq, bind_assoc, pure_bind]
  rw [htext, hword]

theorem movecLine_local : Local words words' pc (movecLine words pc op)
    (movecLine words' pc op) := fun h => by
  have hword := h.second (by decide : 2 < 4)
  rw [movecLine, movecLine, hword]

theorem disasmLine0_local : Local words words' pc (disasmLine0 words pc op)
    (disasmLine0 words' pc op) := by
  have hnumber : Local words words' pc
      (eaLine words pc op (bitName (sizeBits op)) .byte 4 fun ea =>
        pair (quickName ((words (pc + 2)).setWidth 8).toNat) ea)
      (eaLine words' pc op (bitName (sizeBits op)) .byte 4 fun ea =>
        pair (quickName ((words' (pc + 2)).setWidth 8).toNat) ea) := fun h => by
    -- the bit number stands between the opcode and the operand
    have hlen : 2 < 4 + (eaText words (pc + 4) (field op 3) (field op 0) .byte).2 := by omega
    rw [h.second hlen]
    exact eaLine_local _ _ 2 _ h
  have himm (name : String) : Local words words' pc (decodeImmArith words pc op name)
      (decodeImmArith words' pc op name) := decodeImmArith_local name
  have hstatus (name : String) (toSr : Bool) : Local words words' pc
      (statusLine words pc name toSr) (statusLine words' pc name toSr) := statusLine_local name toSr
  exact .ite hnumber <| .ite (.ite movepLine_local (eaLine_local _ _ 1 _)) <|
    .ite movesLine_local <| .ite (hstatus _ _) <| .ite (hstatus _ _) <| .ite (hstatus _ _) <|
    .ite (hstatus _ _) <| .ite (hstatus _ _) <| .ite (hstatus _ _) <| .ite (himm _) <|
    .ite (himm _) <| .ite (himm _) <| .ite (himm _) <| .ite (himm _) <| .ite (himm _) (.same _)

theorem disasmLine4_local : Local words words' pc (disasmLine4 words pc op)
    (disasmLine4 words' pc op) := by
  have hea (name : String) (size : M68kSize) (arguments : String → String) :
      Local words words' pc (eaLine words pc op name size 2 arguments)
        (eaLine words' pc op name size 2 arguments) := eaLine_local name size 1 arguments
  have hunary : ∀ name, Local words words' pc (unaryLine words pc op name)
      (unaryLine words' pc op name) := fun name => hea _ _ _
  have hswap : Local words words' pc (swapLine words pc op) (swapLine words' pc op) :=
    .ite (.same _) (hea _ _ _)
  have hmovem : Local words words' pc (movemLine words pc op) (movemLine words' pc op) :=
    .ite (.same _) (eaLine_local _ _ 2 _)
  exact .ite (.same _) <| .ite (.same _) <|
    .ite (wordLine_local (fun _ => _) fun w => "#$" ++ hexPadded 4 w.toNat) <|
    .ite (.same _) <| .ite (.same _) <| .ite (.same _) <| .ite (.same _) <|
    .ite (wordLine_local (fun _ => _) fun w => quickName w.toInt) <| .ite movecLine_local <|
    .ite (.same _) <|
    .ite (wordLine_local (fun _ => _) fun w => pair _ (quickName w.toInt)) <| .ite (.same _) <|
    .ite (.same _) <| .ite (hea _ _ _) <| .ite (hea _ _ _) <| .ite (hea _ _ _) <|
    .ite (hea _ _ _) <| .ite (hea _ _ _) <| .ite (hea _ _ _) <| .ite (hea _ _ _) <|
    .ite (.same _) <| .ite hswap <| .ite hmovem <| .ite (hea _ _ _) <| .ite (hea _ _ _) <|
    .ite (hunary _) <| .ite (hunary _) <| .ite (hea _ _ _) <| .ite (hunary _) <|
    .ite (hunary _) <| .ite (hunary _) (.same _)

theorem disasmLine5_local : Local words words' pc (disasmLine5 words pc op)
    (disasmLine5 words' pc op) :=
  .ite (.ite (wordLine_local (fun _ => _) fun w =>
    pair _ (addressName (pc + 2 + w.signExtend 32))) (eaLine_local _ _ 1 _))
    (eaLine_local _ _ 1 _)

theorem wordByData_local (name : String) : Local words words' pc
    (wordByData words pc op name) (wordByData words' pc op name) :=
  eaLine_local name .word 1 (pair · (dataName (field op 9)))

theorem addressArith_local (name : String) : Local words words' pc
    (addressArith words pc op name) (addressArith words' pc op name) :=
  eaLine_local _ _ 1 (pair · (addrName (field op 9)))

theorem disasmLine8_local : Local words words' pc (disasmLine8 words pc op)
    (disasmLine8 words' pc op) :=
  .ite (wordByData_local _) <| .ite (wordByData_local _) <|
    .ite (.same _) (decodeStdArith_local _)

theorem disasmAddSub_local (name : String) : Local words words' pc
    (disasmAddSub words pc op name) (disasmAddSub words' pc op name) :=
  .ite (addressArith_local _) <| .ite (.same _) (decodeStdArith_local _)

theorem disasmLineB_local : Local words words' pc (disasmLineB words pc op)
    (disasmLineB words' pc op) :=
  .ite (addressArith_local _) <| .ite (.same _) <|
    .ite (decodeStdArith_local _) (decodeStdArith_local _)

theorem disasmLineC_local : Local words words' pc (disasmLineC words pc op)
    (disasmLineC words' pc op) :=
  .ite (wordByData_local _) <| .ite (wordByData_local _) <| .ite (.same _) <|
    .ite (.same _) (decodeStdArith_local _)

theorem disasmLineE_local : Local words words' pc (disasmLineE words pc op)
    (disasmLineE words' pc op) :=
  .ite (eaLine_local _ _ 1 _) (.ite (.same _) (.same _))

/-- A line depends only on the opcode and on the words that it covers. -/
theorem disasmLine_local : Local words words' pc (disasmLine words pc op)
    (disasmLine words' pc op) :=
  .ite disasmLine0_local <| .ite decodeMove_local <| .ite disasmLine4_local <|
    .ite disasmLine5_local <| .ite decodeBranch_local <| .ite (.same _) <|
    .ite disasmLine8_local <| .ite (disasmAddSub_local _) <| .ite disasmLineB_local <|
    .ite disasmLineC_local <| .ite (disasmAddSub_local _) <| .ite disasmLineE_local (.same _)

/-! ## Whole instructions -/

/-- The line that `m68k_disasm` builds for the instruction at `pc`. -/
def lineAt (words : Words) (pc : U32) : Line := (disasmLine words pc (words pc) []).1

/-- `m68k_disasm` returns the length of its line, whatever the size of the buffer. -/
theorem disasm_length (words : Words) (pc : U32) (bufSize : Nat) :
    (disasm words pc bufSize []).1.2 = (lineAt words pc).len := rfl

/-- Every line covers its opcode. -/
theorem opcode_local (h : SameWords words words' pc (lineAt words pc).len) :
    words pc = words' pc := by
  have hlen : InstructionLength (lineAt words pc).len :=
    (disasmLine_fits [] fun _ hcall => absurd hcall List.not_mem_nil).1
  exact h.first (Nat.lt_of_lt_of_le (by decide) hlen.2.1)

theorem lineAt_local (h : SameWords words words' pc (lineAt words pc).len) :
    lineAt words pc = lineAt words' pc := by
  rw [lineAt, lineAt, ← opcode_local h, disasmLine_local h]

/-- `m68k_disasm` reads no word but those that its line covers. -/
theorem disasm_local {bufSize : Nat}
    (h : SameWords words words' pc (disasm words pc bufSize []).1.2) :
    disasm words pc bufSize [] = disasm words' pc bufSize [] := by
  rw [disasm_length] at h
  have hline : disasmLine words pc (words pc) = disasmLine words' pc (words pc) :=
    disasmLine_local h
  rw [disasm, disasm, ← opcode_local h, hline]

/-- MOVE.W #$303C,D0 at $100: two words. -/
theorem disasm_local_move : disasm (fun _ => 0x303C) 0x100 60 [] =
    disasm (fun a => if a = 0x100 ∨ a = 0x102 then 0x303C else 0) 0x100 60 [] := by
  refine disasm_local fun j hj => ?_
  have hcases : j = 0 ∨ j = 1 := by
    have hj : 2 * j < 4 := hj
    omega
  rcases hcases with rfl | rfl <;> decide

end M68k
