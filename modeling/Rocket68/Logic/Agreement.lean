import Rocket68.Logic.Listing

/-!
# The two decoders agree

Line after line: whatever instruction the executor does not reject, its plan takes the bytes
that the disassembler counts. Lines 0 and 4 are compared by their tables, the others by their
fields.
-/

namespace M68k

open Trap TrapM Text Bits

variable {σ : Type} {k : Option (Nat → M68kCpu σ → M68kCpu σ × U32)} {words : Words} {pc : U32}
  {op : U16}

/-! ## One line after the other -/

/-- The executor rejects the instruction, or its plan takes the bytes that are listed. -/
def Agreed (k : Option (Nat → M68kCpu σ → M68kCpu σ × U32)) (m : M σ Int) (p : Core → Plan)
    (line : Words → U32 → Render Line) : Prop :=
  Throws k m ∨ ∀ words pc c, Prints (2 + (p c).bytes) (line words pc)

theorem agreed_of_tables {m : M σ Int} {p : Core → Plan} {line : Words → U32 → Render Line}
    {rows others : Rows} (hexec : Decodes k op m p (lookup rows op))
    (hline : ∀ words pc, Lists op (line words pc) (lookup others op))
    (hany : ∃ b, (Pattern.any, b) ∈ others) (h : tablesAgree agree [] rows others = true) :
    Agreed k m p line := by
  obtain ⟨known, hknown⟩ := lookup_of_any hany op
  rw [hknown] at hline
  cases hlegal : lookup rows op with
  | none =>
    rw [hlegal] at hexec
    exact hexec.elim
  | some legal =>
    rw [hlegal] at hexec
    have hagree := agree_of_tablesAgree (by simp) h hlegal hknown
    cases legal with
    | none => exact .inl hexec
    | some extent =>
      have hsame : some extent = known := by simpa [agree] using hagree
      subst hsame
      refine .inr fun words pc c => ?_
      rw [hexec c]
      exact hline words pc

theorem line0_agreed (hline : lineOf op = 0) :
    Agreed k (line0 op) (line0Plan op) fun words pc => disasmLine0 words pc op :=
  agreed_of_tables line0_decodes (fun _ _ => line0_lists hline) ⟨none, by simp [lineRows0]⟩
    line0_agrees

theorem line4_agreed : Agreed k (line4 op) (line4Plan op) fun words pc => disasmLine4 words pc op :=
  agreed_of_tables line4_decodes (fun _ _ => line4_lists) ⟨none, by simp [lineRows4]⟩
    line4_agrees

/-- MOVE. -/
theorem decodeMove_prints (hsize : ((op >>> 12).setWidth 2).toFin ≠ (0 : Fin 4)) :
    Prints (2 + (movePlan op).bytes) (decodeMove words pc op) := by
  have hgo {size : M68kSize} {name : String} (hname : '?' ∉ name.toList) :
      Prints (2 + ((eaField op size).bytes + (⟨field op 6, field op 9, size⟩ : Operand).bytes))
        (decodeMove.go words pc op size name) := by
    intro calls
    refine ⟨?_, not_mem_truncated (known_append (by decide) hname)⟩
    show 2 + (eaText words _ (field op 3) (field op 0) size).2 + (eaText words _ _ _ size).2 = _
    rw [eaText_bytes, eaText_bytes, Nat.add_assoc]
    rfl
  have key : ∀ z : Fin 4, z ≠ 0 → z = 1 ∨ z = 2 ∨ z = 3 := by decide
  rcases key _ hsize with h | h | h <;> simp only [decodeMove, movePlan, moveSize?, h] <;>
    exact hgo (by decide)

/-- The branches of a test that both decoders make. -/
theorem Prints.both {A : Prop} [Decidable A] {p q : Plan} {m n : Render Line}
    (hm : A → Prints (2 + p.bytes) m) (hn : ¬A → Prints (2 + q.bytes) n) :
    Prints (2 + (if A then p else q).bytes) (if A then m else n) := by
  by_cases h : A
  · rw [if_pos h, if_pos h]
    exact hm h
  · rw [if_neg h, if_neg h]
    exact hn h

theorem size3_iff : op &&& 0x00C0 = 0x00C0 ↔ sizeBits op = 3 := (size_iff 3).symm

theorem known_condition (op : U16) : '?' ∉ (conditionNames.getD (condition op) "").toList := by
  have hbound : condition op < 16 := ((op >>> 8).setWidth 4).isLt
  have key : ∀ i : Fin 16, '?' ∉ (conditionNames.getD i.val "").toList := by decide
  exact key ⟨condition op, hbound⟩

/-- A line with an operand of the coded size. -/
theorem codedLine_prints {name : String} {arguments : String → String} (hname : '?' ∉ name.toList)
    (h3 : sizeBits op ≠ 3) : Prints (2 + (eaField op (sized op)).bytes)
      (eaLine words pc op (name ++ sizeStr (sizeBits op)) (codedSize (sizeBits op)) 2
        arguments) := by
  rw [← codedSize_eq]
  exact eaLine_prints (known_append hname (known_size h3))

theorem disasmLine5_prints : Prints (2 + (line5Plan op).bytes) (disasmLine5 words pc op) := by
  refine .both (fun _ => .both (fun _ => ?_) fun _ => ?_) fun h => ?_
  · exact plainLine_prints (known_append (by decide) (known_condition op))
  · exact eaLine_prints (known_append (by decide) (known_condition op))
  · have h3 : sizeBits op ≠ 3 := h ∘ size3_iff.mpr
    have hplan : (quickPlan op).bytes = (eaField op (sized op)).bytes := by
      rw [quickPlan, bytes_withSize h3]
      split
      · next hmode =>
        show 0 = _
        simp only [eaField, hmode]
        rfl
      · rfl
    rw [hplan]
    refine codedLine_prints (known_append ?_ (by decide)) h3
    split <;> decide

theorem lowByte_iff : op &&& 0xFF = 0 ↔ op.setWidth 8 = (0 : U8) := by
  have h := Pattern.slice_matches (w := 16) (n := 0) (by decide) 0#8 op
  rw [BitVec.ushiftRight_zero] at h
  exact h

theorem branchPlan_bytes : (branchPlan op).bytes = if op &&& 0xFF = 0 then 2 else 0 := by
  unfold branchPlan
  split <;> split <;> rfl

theorem decodeBranch_prints : Prints (2 + (branchPlan op).bytes) (decodeBranch words pc op) := by
  have hbound : condition op < 16 := ((op >>> 8).setWidth 4).isLt
  have key : ∀ i : Fin 16, '?' ∉ (if i.val = 1 then "BSR" else if i.val = 0 then "BRA"
      else "B" ++ branchNames.getD i.val "").toList := by decide
  have hname := key ⟨condition op, hbound⟩
  refine .ite (fun hlow => ?_) fun hlow => ?_
  · rw [branchPlan_bytes, if_pos (lowByte_iff.mpr hlow)]
    exact plainLine_prints hname
  · rw [branchPlan_bytes, if_neg (hlow ∘ lowByte_iff.mp)]
    exact plainLine_prints hname

/-! ## Lines of opmodes -/

/-- The opmodes of a standard operation. -/
theorem decodeStdArith_prints {name : String} (hname : '?' ∉ name.toList) (h3 : field op 6 ≠ 3)
    (h7 : field op 6 ≠ 7) : Prints (2 + (eaField op (opmodeSize (field op 6))).bytes)
      (decodeStdArith words pc op name) := by
  have key : ∀ o : Fin 8, o ≠ 3 → o ≠ 7 → o = 0 ∨ o = 1 ∨ o = 2 ∨ o = 4 ∨ o = 5 ∨ o = 6 := by decide
  unfold decodeStdArith
  rcases key _ h3 h7 with h | h | h | h | h | h <;> rw [h] <;>
    exact eaLine_prints (known_append hname (by decide))

theorem addressArith_prints {name : String} (hname : '?' ∉ name.toList)
    (h : field op 6 = 3 ∨ field op 6 = 7) :
    Prints (2 + (eaField op (opmodeSize (field op 6))).bytes) (addressArith words pc op name) := by
  unfold addressArith
  rcases h with h | h <;> rw [h] <;> exact eaLine_prints (known_append hname (known_long _))

/-- Operands in registers and those behind `-(An)` have no words of their own. -/
theorem register_bytes {size : M68kSize} (h : field op 3 = 0 ∨ field op 3 = 1) :
    (eaField op size).bytes = 0 := by
  rcases h with h | h <;> simp only [eaField, h] <;> rfl

/-- The fields of an opmode and a mode in their places. -/
def opmodeWord (opmode mode : Fin 8) : U16 :=
  BitVec.ofNat 16 opmode.val <<< 6 ||| BitVec.ofNat 16 mode.val <<< 3

/-- A test of bits 3 to 8 is one of the two fields. -/
theorem masked_opmode {mask : U16} (h : 0x01F8 &&& mask = mask) :
    op &&& mask = opmodeWord (field op 6) (field op 3) &&& mask := by
  have key : ∀ opmode mode : Fin 8, (fieldIs 6 opmode).and (fieldIs 3 mode) =
      maskIs 0x01F8 (opmodeWord opmode mode) ∧
      Pattern.covers ((fieldIs 6 opmode).and (fieldIs 3 mode))
        ((fieldIs 6 opmode).and (fieldIs 3 mode)) (fieldIs 6 opmode) ∧
      Pattern.covers ((fieldIs 6 opmode).and (fieldIs 3 mode))
        ((fieldIs 6 opmode).and (fieldIs 3 mode)) (fieldIs 3 mode) := by decide +kernel
  obtain ⟨hpattern, h6, h3⟩ := key (field op 6) (field op 3)
  have hboth := (Pattern.and_matches h6 h3 op).mpr
    ⟨(field_iff (by decide) _).mp rfl, (field_iff (by decide) _).mp rfl⟩
  rw [hpattern] at hboth
  have hword : op &&& 0x01F8 = opmodeWord (field op 6) (field op 3) := hboth
  rw [← hword, BitVec.and_assoc, h]

theorem opmode_size (h3 : field op 6 ≠ 3) (h7 : field op 6 ≠ 7) : sizeBits op ≠ 3 := by
  have key : ∀ opmode mode : Fin 8, opmode ≠ 3 → opmode ≠ 7 →
      opmodeWord opmode mode &&& 0xC0 ≠ 0xC0 := by decide +kernel
  rw [Ne, ← size3_iff, masked_opmode (by decide)]
  exact key _ _ h3 h7

theorem bcd_iff : op &&& 0x1F0 = 0x100 ↔ field op 6 = 4 ∧ (field op 3 = 0 ∨ field op 3 = 1) := by
  have key : ∀ opmode mode : Fin 8, opmodeWord opmode mode &&& 0x1F0 = 0x100 ↔
      opmode = 4 ∧ (mode = 0 ∨ mode = 1) := by decide +kernel
  rw [masked_opmode (by decide)]
  exact key _ _

theorem extended_iff : op &&& 0x0130 = 0x0100 ↔
    4 ≤ field op 6 ∧ (field op 3 = 0 ∨ field op 3 = 1) := by
  have key : ∀ opmode mode : Fin 8, opmodeWord opmode mode &&& 0x0130 = 0x0100 ↔
      4 ≤ opmode ∧ (mode = 0 ∨ mode = 1) := by decide +kernel
  rw [masked_opmode (by decide)]
  exact key _ _

theorem bcdPlan_bytes : (bcdPlan op).bytes = 0 := by
  unfold bcdPlan
  split <;> rfl

theorem andOrPlan_bytes (h3 : field op 6 ≠ 3) (h7 : field op 6 ≠ 7) :
    (andOrPlan op).bytes = (eaField op (opmodeSize (field op 6))).bytes := by
  unfold andOrPlan
  rw [if_neg (by simp [h3, h7])]
  split <;> rfl

/-- The two decoders on the lines of multiplication and division. -/
theorem mulDivLine_prints {p : Plan} {unsigned signed bcd : String} {rest : Render Line}
    (hunsigned : '?' ∉ unsigned.toList) (hsigned : '?' ∉ signed.toList) (hbcd : '?' ∉ bcd.toList)
    (hrest : field op 6 ≠ 3 → field op 6 ≠ 7 →
      ¬(field op 6 = 4 ∧ (field op 3 = 0 ∨ field op 3 = 1)) →
      Prints (2 + p.bytes) rest) :
    Prints (2 + (if field op 6 = 3 ∨ field op 6 = 7 then mulDivPlan op
      else if field op 6 = 4 ∧ (field op 3 = 0 ∨ field op 3 = 1) then bcdPlan op else p).bytes)
      (if field op 6 = 3 then wordByData words pc op unsigned
      else if field op 6 = 7 then wordByData words pc op signed
      else if op &&& 0x1F0 = 0x100 then plainLine bcd (extendedPair op) 2 else rest) := by
  by_cases h3 : field op 6 = 3
  · rw [if_pos (.inl h3), if_pos h3]
    exact eaLine_prints hunsigned
  by_cases h7 : field op 6 = 7
  · rw [if_pos (.inr h7), if_neg h3, if_pos h7]
    exact eaLine_prints hsigned
  rw [if_neg (by simp [h3, h7]), if_neg h3, if_neg h7]
  simp only [bcd_iff]
  refine .both (fun _ => ?_) fun h => hrest h3 h7 h
  rw [bcdPlan_bytes]
  exact plainLine_prints hbcd

theorem disasmLine8_prints : Prints (2 + (line8Plan op).bytes) (disasmLine8 words pc op) := by
  refine mulDivLine_prints (by decide) (by decide) (by decide)
    fun h3 h7 _ => ?_
  rw [andOrPlan_bytes h3 h7]
  exact decodeStdArith_prints (by decide) h3 h7

theorem exg_mode (h : isExg op = true) : 4 ≤ field op 6 ∧ (field op 3 = 0 ∨ field op 3 = 1) := by
  have hlow {v : U16} (h : (op >>> 3) &&& 0x1F = v) : field op 3 = (v.setWidth 3).toFin := by
    have hones : (op >>> 3).setWidth 3 = ((op >>> 3) &&& 0x1F).setWidth 3 := by
      rw [BitVec.setWidth_and]
      exact BitVec.and_allOnes.symm
    rw [field, hones, h]
  simp only [isExg, Bool.or_eq_true, Bool.and_eq_true, beq_iff_eq] at h
  rcases h with (⟨h6, h⟩ | ⟨h6, h⟩) | ⟨h6, h⟩ <;> rw [h6, hlow h] <;> decide

theorem disasmLineC_prints : Prints (2 + (lineCPlan op).bytes) (disasmLineC words pc op) := by
  refine mulDivLine_prints (by decide) (by decide) (by decide)
    fun h3 h7 hbcd => ?_
  by_cases hext : op &&& 0x0130 = 0x0100
  · rw [if_pos hext]
    have hplan : (if isExg op then exgPlan op else andOrPlan op).bytes = 0 := by
      split
      · rfl
      · rw [andOrPlan_bytes h3 h7, register_bytes (extended_iff.mp hext).2]
    rw [hplan]
    exact plainLine_prints (by decide)
  · rw [if_neg hext, if_neg (fun h => hext (extended_iff.mpr (exg_mode h))), andOrPlan_bytes h3 h7]
    exact decodeStdArith_prints (by decide) h3 h7

theorem regToEa_iff (h7 : field op 6 ≠ 7) : regToEa (field op 6) = true ↔ 4 ≤ field op 6 := by
  revert h7
  generalize field op 6 = opmode
  revert opmode
  decide

theorem addSubPlan_bytes :
    (addSubPlan op).bytes = (eaField op (opmodeSize (field op 6))).bytes := by
  unfold addSubPlan
  dsimp only
  split
  · rfl
  · split <;> rfl

theorem extendedPlan_bytes : (extendedPlan op).bytes = 0 := by
  unfold extendedPlan withSize
  split
  · rfl
  · split <;> rfl

/-- Lines 9 and D. -/
theorem disasmAddSub_prints {name : String} (hname : '?' ∉ name.toList) :
    Prints (2 + (lineAddSubPlan op).bytes) (disasmAddSub words pc op name) := by
  unfold lineAddSubPlan disasmAddSub
  by_cases h37 : field op 6 = 3 ∨ field op 6 = 7
  · have hto : regToEa (field op 6) ≠ true := by rcases h37 with h | h <;> rw [h] <;> decide
    rw [if_pos h37, if_neg fun h => hto h.1, addSubPlan_bytes]
    exact addressArith_prints (known_append hname (by decide)) h37
  have h3 := fun h => h37 (.inl h)
  have h7 := fun h => h37 (.inr h)
  rw [if_neg h37]
  simp only [extended_iff, ← regToEa_iff h7]
  refine .both (fun _ => ?_) fun _ => ?_
  · rw [extendedPlan_bytes]
    exact plainLine_prints (known_append (known_append hname (by decide))
      (known_size (opmode_size h3 h7)))
  · rw [addSubPlan_bytes]
    exact decodeStdArith_prints hname h3 h7

theorem disasmLineB_prints : Prints (2 + (lineBPlan op).bytes) (disasmLineB words pc op) := by
  have hcmp (h : ¬(regToEa (field op 6) = true ∧ field op 3 = 1)) :
      (cmpPlan op).bytes = (eaField op (opmodeSize (field op 6))).bytes := by
    rw [cmpPlan, if_neg h]
    rfl
  unfold lineBPlan disasmLineB
  by_cases h37 : field op 6 = 3 ∨ field op 6 = 7
  · have hto : regToEa (field op 6) ≠ true := by rcases h37 with h | h <;> rw [h] <;> decide
    rw [if_pos h37, if_neg fun h => hto h.1, hcmp fun h => hto h.1]
    exact addressArith_prints (by decide) h37
  have h3 := fun h => h37 (.inl h)
  have h7 := fun h => h37 (.inr h)
  rw [if_neg h37]
  simp only [ge_iff_le, ← regToEa_iff h7]
  by_cases hto : regToEa (field op 6) = true
  · by_cases hmode : field op 3 = 1
    · have hcmpm : (cmpPlan op).bytes = 0 := by
        rw [cmpPlan, if_pos ⟨hto, hmode⟩]
        rfl
      rw [if_neg fun h => h.2 hmode, if_pos ⟨hto, hmode⟩, hcmpm]
      exact plainLine_prints (known_append (by decide) (known_size (opmode_size h3 h7)))
    · have heor : (eorPlan op).bytes = (eaField op (opmodeSize (field op 6))).bytes := by
        rw [eorPlan, if_neg (by simp [hto])]
        rfl
      rw [if_pos ⟨hto, hmode⟩, if_neg fun h => hmode h.2, if_pos hto, heor]
      exact decodeStdArith_prints (by decide) h3 h7
  · rw [if_neg fun h => hto h.1, if_neg fun h => hto h.1, if_neg hto, hcmp fun h => hto h.1]
    exact decodeStdArith_prints (by decide) h3 h7

theorem disasmLineE_prints : Prints (2 + (shiftPlan op).bytes) (disasmLineE words pc op) := by
  have hmem : ∀ (type : Fin 4) (dir : Bool),
      '?' ∉ (memOps.getD (type.val * 2 + dir.toNat) "").toList := by decide
  have hreg : ∀ type : Fin 4, '?' ∉ (regOps.getD type.val "").toList := by decide
  unfold shiftPlan
  simp only [← size3_iff]
  refine .both (fun _ => ?_) fun h => ?_
  · exact eaLine_prints (known_append (hmem ⟨_, ((op >>> 9).setWidth 2).isLt⟩ _) (by decide))
  · have hname := known_append (known_append (hreg ⟨_, ((op >>> 3).setWidth 2).isLt⟩)
      (show '?' ∉ (if op.getLsbD 8 then "L" else "R").toList by split <;> decide))
      (known_size (h ∘ size3_iff.mpr))
    exact .ite (fun _ => plainLine_prints hname) fun _ => plainLine_prints hname

/-! ## Every opcode -/

theorem disasmLine_eq : disasmLine words pc op = match (lineOf op : Nat) with
    | 0x0 => disasmLine0 words pc op
    | 0x1 | 0x2 | 0x3 => decodeMove words pc op
    | 0x4 => disasmLine4 words pc op
    | 0x5 => disasmLine5 words pc op
    | 0x6 => decodeBranch words pc op
    | 0x7 => plainLine "MOVEQ" (pair (quickName (disp8 op)) (dataName (field op 9))) 2
    | 0x8 => disasmLine8 words pc op
    | 0x9 => disasmAddSub words pc op "SUB"
    | 0xB => disasmLineB words pc op
    | 0xC => disasmLineC words pc op
    | 0xD => disasmAddSub words pc op "ADD"
    | 0xE => disasmLineE words pc op
    | _ => pure {} := by
  have hhigh : op &&& 0xC000 = (op &&& 0xF000) &&& 0xC000 := by
    rw [BitVec.and_assoc]
    rfl
  have hvalue : ∀ l : Fin 16, (lineIs l).value = BitVec.ofNat 16 l.val <<< 12 := by decide
  have htop : op &&& 0xF000 = BitVec.ofNat 16 (lineOf op).val <<< 12 :=
    ((line_iff (lineOf op)).mp rfl).trans (hvalue _)
  unfold disasmLine
  rw [hhigh]
  generalize op &&& 0xF000 = top at htop
  subst htop
  rcases nibble_cases (lineOf op) with h | h | h | h | h | h | h | h | h | h | h | h | h | h | h |
    h <;> rw [h] <;> rfl

/-- The decoders agree on every opcode that the executor takes. -/
theorem decoders_agree (op : U16) : Agreed k (dispatch op : M σ Int) (plan op)
    fun words pc => disasmLine words pc op := by
  -- the line of a MOVE is not a multiple of 4
  have hsize (l : Fin 16) (h : lineOf op = l) (hl : l.val % 4 ≠ 0) :
      ((op >>> 12).setWidth 2).toFin ≠ (0 : Fin 4) := by
    intro hzero
    have hlow : ((op >>> 12).setWidth 2).toNat = 0 := congrArg Fin.val hzero
    have hline : ((op >>> 12).setWidth 4).toNat = l.val := congrArg Fin.val h
    rw [BitVec.toNat_setWidth] at hlow hline
    omega
  simp only [disasmLine_eq]
  unfold dispatch plan
  rcases nibble_cases (lineOf op) with h | h | h | h | h | h | h | h | h | h | h | h | h | h | h |
    h <;> simp only [h]
  · exact line0_agreed h
  · exact .inr fun _ _ _ => decodeMove_prints (hsize _ h (by decide))
  · exact .inr fun _ _ _ => decodeMove_prints (hsize _ h (by decide))
  · exact .inr fun _ _ _ => decodeMove_prints (hsize _ h (by decide))
  · exact line4_agreed
  · exact .inr fun _ _ _ => disasmLine5_prints
  · exact .inr fun _ _ _ => decodeBranch_prints
  · exact .inr fun _ _ _ => plainLine_prints (by decide)
  · exact .inr fun _ _ _ => disasmLine8_prints
  · exact .inr fun _ _ _ => disasmAddSub_prints (by decide)
  · exact .inl ((exception_throws (by decide)).bind fun _ => .pure _)
  · exact .inr fun _ _ _ => disasmLineB_prints
  · exact .inr fun _ _ _ => disasmLineC_prints
  · exact .inr fun _ _ _ => disasmAddSub_prints (by decide)
  · exact .inr fun _ _ _ => disasmLineE_prints
  · exact .inl ((exception_throws (by decide)).bind fun _ => .pure _)

end M68k
