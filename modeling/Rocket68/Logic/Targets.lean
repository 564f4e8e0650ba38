import Rocket68.Logic.Group0
import Rocket68.Theorems.Precise

/-!
# Computed transfers

When an instruction transfers control, and where to: read off the instruction
word, its extension words and the registers, without running a handler. Then what
each of the nine handlers does with a target that cannot be fetched.
-/

namespace M68k

open Trap TrapM

variable {σ : Type} {k : Option (Nat → M68kCpu σ → M68kCpu σ × U32)} {s t u : M68kCpu σ} {v : Nat}

/-! ## The transfers of an instruction -/

/-- The instructions that continue at a computed address. -/
inductive Transfer where
  | bcc
  | bsr
  | dbcc
  | jmp
  | jsr
  | rts
  | rtr
  | rte
  | rtd
  deriving DecidableEq, Repr

/-- The target comes from the stack. -/
def Transfer.returns : Transfer → Bool
  | .rts | .rtr | .rte | .rtd => true
  | _ => false

/-- The word after the instruction word, if the instruction fetches it. -/
def extension? (s : M68kCpu σ) (n : U32) : Option U16 :=
  if accessible s .word (s.pc + n) then some (wordAt s.memory (maskAddress24 (s.pc + n))) else none

theorem extension?_eq_some {n : U32} {w : U16} (h : extension? s n = some w) :
    accessible s .word (s.pc + n) = true ∧ wordAt s.memory (maskAddress24 (s.pc + n)) = w := by
  unfold extension? at h
  split at h
  · next hacc => exact ⟨hacc, Option.some.inj h⟩
  · cases h

/-- The target of a branch. -/
def branchTarget? (s : M68kCpu σ) : Option U32 :=
  if opcodeAt s &&& 0xFF = 0 then (extension? s 2).map fun d => s.pc + 2 + d.signExtend 32
  else some (s.pc + 2 + sext8 ((opcodeAt s).setWidth 32))

/-- The address after a branch and its displacement. -/
def branchEnd (s : M68kCpu σ) : U32 := s.pc + if opcodeAt s &&& 0xFF = 0 then 4 else 2

/-- The index register of a brief extension word, sized. -/
def indexAt (ext : U16) (s : M68kCpu σ) : U32 :=
  let x := if ext.getLsbD 15 then s.aRegs (field ext 12) else s.dRegs (field ext 12)
  if ext.getLsbD 11 then x else sext16 x

/-- The address of a control operand. -/
def controlTarget? (s : M68kCpu σ) : Option U32 :=
  let reg := field (opcodeAt s) 0
  match field (opcodeAt s) 3 with
  | 2 => some (s.aRegs reg)
  | 5 => (extension? s 2).map fun d => s.aRegs reg + d.signExtend 32
  | 6 => (extension? s 2).map fun e => s.aRegs reg + indexAt e s + sext8 (e.setWidth 32)
  | 7 =>
      match reg with
      | 0 => (extension? s 2).map fun w => sext16 (w.setWidth 32)
      | 1 => (extension? s 2).bind fun hi => (extension? s 4).map fun lo =>
          (hi.setWidth 32 <<< 16) ||| lo.setWidth 32
      | 2 => (extension? s 2).map fun d => s.pc + 2 + d.signExtend 32
      | 3 => (extension? s 2).map fun e => s.pc + 2 + indexAt e s + sext8 (e.setWidth 32)
      | _ => none
  | _ => none

/-- The instruction at the PC of `s` transfers control to `target`: its condition
holds, and every word the target comes from can be read. -/
inductive Transfers (s : M68kCpu σ) : Transfer → U32 → Prop
  | bcc {target : U32} (hline : lineOf (opcodeAt s) = 6) (hcond : conditionField (opcodeAt s) ≠ 1)
      (htaken : checkCondition s.sr (conditionField (opcodeAt s)) = true)
      (htarget : branchTarget? s = some target) : Transfers s .bcc target
  | bsr {target : U32} (hline : lineOf (opcodeAt s) = 6) (hcond : conditionField (opcodeAt s) = 1)
      (htarget : branchTarget? s = some target) : Transfers s .bsr target
  | dbcc {d : U16} (hline : lineOf (opcodeAt s) = 5) (hsize : opcodeAt s &&& 0xC0 = 0xC0)
      (hmode : field (opcodeAt s) 3 = 1)
      (hloop : checkCondition s.sr (conditionField (opcodeAt s)) = false)
      (hcount : (s.dRegs (field (opcodeAt s) 0)).setWidth 16 ≠ (0 : U16))
      (hext : extension? s 2 = some d) : Transfers s .dbcc (s.pc + 2 + d.signExtend 32)
  | jmp {target : U32} (hop : opcodeAt s &&& 0xFFC0 = 0x4EC0)
      (htarget : controlTarget? s = some target) : Transfers s .jmp target
  | jsr {target : U32} (hop : opcodeAt s &&& 0xFFC0 = 0x4E80)
      (htarget : controlTarget? s = some target) : Transfers s .jsr target
  | rts (hop : opcodeAt s = 0x4E75) (hpc : accessible s .long (s.aRegs 7) = true) :
      Transfers s .rts (longAt s.memory (maskAddress24 (s.aRegs 7)))
  | rtr (hop : opcodeAt s = 0x4E77) (hccr : accessible s .word (s.aRegs 7) = true)
      (hpc : accessible s .long (s.aRegs 7 + 2) = true) :
      Transfers s .rtr (longAt s.memory (maskAddress24 (s.aRegs 7 + 2)))
  | rte (hop : opcodeAt s = 0x4E73) (hsup : s.supervisor = true)
      (hsr : accessible s .word (s.aRegs 7) = true)
      (hpc : accessible s .long (s.aRegs 7 + 2) = true)
      (hformat : s.model.is68010 = true → accessible s .word (s.aRegs 7 + 6) = true ∧
        wordAt s.memory (maskAddress24 (s.aRegs 7 + 6)) &&& 0xF000 = 0) :
      Transfers s .rte (longAt s.memory (maskAddress24 (s.aRegs 7 + 2)))
  | rtd (hop : opcodeAt s = 0x4E74) (hmodel : s.model.is68010 = true)
      (hpc : accessible s .long (s.aRegs 7) = true) (hext : (extension? s 2).isSome = true) :
      Transfers s .rtd (longAt s.memory (maskAddress24 (s.aRegs 7)))

/-! ## Opcode masks -/

/-- What a value is under one mask rules out values under another. -/
theorem mask_ne {op m c m' c' : U16} (h : op &&& m = c) (hne : c' &&& m ≠ c &&& m') :
    op &&& m' ≠ c' := by
  intro h'
  apply hne
  rw [← h, ← h', BitVec.and_assoc, BitVec.and_assoc, BitVec.and_comm m' m]

theorem eq_ne {op m c c' : U16} (h : op &&& m = c) (hne : c' &&& m ≠ c) : op ≠ c' := by
  rintro rfl
  exact hne h

/-- The line is the top nibble. -/
theorem lineOf_of_pattern {op m c : U16} (h : op &&& m = c)
    (hm : ∀ i : Fin 4, m.getLsbD (12 + i) = true) : lineOf op = lineOf c := by
  subst h
  unfold lineOf
  congr 1
  apply BitVec.eq_of_getLsbD_eq
  intro i hi
  simp only [BitVec.getLsbD_setWidth, BitVec.getLsbD_ushiftRight, BitVec.getLsbD_and,
    hm ⟨i, hi⟩, Bool.and_true]

theorem lineOf_of_mask {op : U16} {c : U16} (h : op &&& 0xFFC0 = c) : lineOf op = lineOf c :=
  lineOf_of_pattern h (by decide)

theorem dispatch_bcc {op : U16} (h : lineOf op = 6) :
    (dispatch op : M σ Int) = costed (execBcc op) 0 := by
  unfold dispatch
  rw [h]
  rfl

theorem dispatch_dbcc {op : U16} (h : lineOf op = 5) (hsize : op &&& 0xC0 = 0xC0)
    (hmode : field op 3 = 1) : (dispatch op : M σ Int) = costed (execDbcc op) 0 := by
  unfold dispatch
  rw [h]
  show line5 op = _
  rw [line5, if_pos hsize, if_pos hmode]

theorem dispatch_line4 {op : U16} (h : lineOf op = 4) : (dispatch op : M σ Int) = line4 op := by
  unfold dispatch
  rw [h]
  rfl

theorem dispatch_jsr {op : U16} (h : op &&& 0xFFC0 = 0x4E80) :
    (dispatch op : M σ Int) = lineJsr op := by
  rw [dispatch_line4 (lineOf_of_mask h), line4]
  have hne (c : U16) (hc : c &&& 0xFFC0 ≠ 0x4E80) : op ≠ c := eq_ne h hc
  rw [if_neg (hne _ (by decide)), if_neg (hne _ (by decide)), if_neg (hne _ (by decide)),
    if_neg (hne _ (by decide)), if_neg (hne _ (by decide)), if_neg (hne _ (by decide)),
    if_neg (hne _ (by decide)), if_neg (hne _ (by decide)),
    if_neg (not_or.mpr ⟨hne _ (by decide), hne _ (by decide)⟩),
    if_neg (mask_ne h (by decide)), if_neg (mask_ne h (by decide)),
    if_neg (mask_ne h (by decide)), if_pos h]

theorem dispatch_jmp {op : U16} (h : op &&& 0xFFC0 = 0x4EC0) :
    (dispatch op : M σ Int) = costed (execJmp op) 0 := by
  rw [dispatch_line4 (lineOf_of_mask h), line4]
  have hne (c : U16) (hc : c &&& 0xFFC0 ≠ 0x4EC0) : op ≠ c := eq_ne h hc
  rw [if_neg (hne _ (by decide)), if_neg (hne _ (by decide)), if_neg (hne _ (by decide)),
    if_neg (hne _ (by decide)), if_neg (hne _ (by decide)), if_neg (hne _ (by decide)),
    if_neg (hne _ (by decide)), if_neg (hne _ (by decide)),
    if_neg (not_or.mpr ⟨hne _ (by decide), hne _ (by decide)⟩),
    if_neg (mask_ne h (by decide)), if_neg (mask_ne h (by decide)),
    if_neg (mask_ne h (by decide)), if_neg (mask_ne h (by decide)),
    if_pos h]

/-! ## States on the way to a transfer -/

/-- The instruction begun in `s` still runs and has met nothing. -/
structure Underway (s u : M68kCpu σ) : Prop where
  running : Running u
  wiring : wiring u = wiring (fetched s)
  quiet : Quiet u.log
  busWord : u.faultBusWordValid = s.faultBusWordValid

/-- It has changed no register and no memory, and fetches next at `p`. -/
structure Decoding (s : M68kCpu σ) (p : U32) (u : M68kCpu σ) : Prop extends Underway s u where
  programmed : programmed u = programmed s
  pc : u.pc = p

theorem decoding_fetched (hd : s.exceptionDepth = 0) : Decoding s (s.pc + 2) (fetched s) where
  running := fetched_running hd
  wiring := rfl
  quiet := Quiet.cons (by intro e he; cases he) _ _ _
  busWord := rfl
  programmed := rfl
  pc := rfl

namespace Underway

theorem memorySize (h : Underway s u) : u.memorySize = s.memorySize :=
  congrArg Wiring.memorySize h.wiring

theorem accessible (h : Underway s u) (size : M68kSize) (address : U32) :
    accessible u size address = M68k.accessible s size address :=
  accessible_of_memorySize h.memorySize size address

theorem charged (h : Underway s u) (n : Int) : Underway s (charged n u) :=
  ⟨⟨h.1.1, h.1.2, h.1.3, h.1.4, h.1.5, h.1.6⟩, h.2, h.3, h.4⟩

theorem noted (h : Underway s u) (kind : Access) (size : M68kSize) (address : U32) :
    Underway s (u.noted (.access kind size address)) :=
  ⟨⟨h.1.1, h.1.2, h.1.3, h.1.4, h.1.5, h.1.6⟩, h.2, h.3.cons _ _ _, h.4⟩

theorem restored (h : Underway s u) (sr : U16) (aRegs : Fin 8 → U32) (usp ssp pc : U32) :
    Underway s { u with sr := sr, aRegs := aRegs, usp := usp, ssp := ssp, pc := pc } :=
  ⟨⟨h.1.1, h.1.2, h.1.3, h.1.4, h.1.5, h.1.6⟩, h.2, h.3, h.4⟩

theorem moved (h : Underway s u) (pc : U32) : Underway s { u with pc := pc } :=
  h.restored u.sr u.aRegs u.usp u.ssp pc

theorem withSr (h : Underway s u) (sr : U16) : Underway s (withSr sr u) := by
  rw [withSr_eq]
  exact h.restored _ _ _ _ u.pc

theorem popped (h : Underway s u) (size : M68kSize) : Underway s (popped size u) :=
  (h.noted .read size (u.aRegs 7)).restored u.sr _ u.usp u.ssp u.pc

/-- Fetching the next word of the instruction. -/
theorem fetch (h : Underway s u) (hacc : M68k.accessible s .word u.pc = true) :
    ∃ t, M68k.fetch (ackHost k) u = .ok (wordAt u.memory (maskAddress24 u.pc)) t ∧
      Underway s t ∧ M68k.programmed t = M68k.programmed u ∧ t.pc = u.pc + 2 :=
  ⟨_, fetch_hit h.running ((h.accessible _ _).trans hacc),
    (h.noted .fetch .word u.pc).moved (u.pc + 2), rfl, rfl⟩

end Underway

namespace Decoding

variable {p n : U32}

theorem charged (h : Decoding s p u) (n : Int) : Decoding s p (charged n u) :=
  ⟨h.toUnderway.charged n, h.programmed, h.pc⟩

theorem memory (h : Decoding s p u) : u.memory = s.memory :=
  congrArg Programmed.memory h.programmed

theorem sr (h : Decoding s p u) : u.sr = s.sr := congrArg Programmed.sr h.programmed

theorem dRegs (h : Decoding s p u) : u.dRegs = s.dRegs := congrArg Programmed.dRegs h.programmed

theorem aRegs (h : Decoding s p u) : u.aRegs = s.aRegs := congrArg Programmed.aRegs h.programmed

theorem latched (h : Decoding s p u) (v : U32) :
    Decoding s p { u with faultPc := v, faultPcValid := true } :=
  ⟨⟨⟨h.running.1, h.running.2, h.running.3, h.running.4, h.running.5, h.running.6⟩, h.wiring,
    h.quiet, h.busWord⟩, h.programmed, h.pc⟩

/-- Latching the fault PC of an operand. -/
theorem setFaultPc (h : Decoding s p u) (mode reg : Fin 8) (size : M68kSize) :
    ∃ t, M68k.setFaultPc mode reg size (ackHost k) u = .ok () t ∧ Decoding s p t := by
  unfold M68k.setFaultPc
  cases faultPcOffset mode reg size with
  | none => exact ⟨u, rfl, h⟩
  | some offset => exact ⟨_, rfl, h.latched (u.pc + offset)⟩

/-- The next extension word. -/
theorem extension (h : Decoding s (s.pc + n) u) {w : U16} (hw : extension? s n = some w) :
    ∃ t, M68k.fetch (ackHost k) u = .ok w t ∧ Decoding s (s.pc + n + 2) t := by
  obtain ⟨hacc, rfl⟩ := extension?_eq_some hw
  obtain ⟨t, ht, hu, hprogrammed, hpc⟩ := h.toUnderway.fetch (k := k) (by rw [h.pc]; exact hacc)
  rw [h.memory, h.pc] at ht
  exact ⟨t, ht, hu, hprogrammed.trans h.programmed, by rw [hpc, h.pc]⟩

/-- Resolving a control operand starts with charging it and latching the fault PC. -/
theorem control (h : Decoding s p u) (isJmp : Bool) (mode reg : Fin 8)
    (hm : notControl mode reg = false) {rest : M σ Ea}
    (hrest : calcEaEx mode reg .long false =
      M68k.setFaultPc mode reg .long >>= fun _ => rest) :
    ∃ t, calcEaCtl mode reg isJmp (ackHost k) u = rest (ackHost k) t ∧ Decoding s p t := by
  obtain ⟨t, ht, hd⟩ := (h.charged (controlEaCycles mode reg isJmp)).setFaultPc
    (k := k) mode reg .long
  refine ⟨t, ?_, hd⟩
  rw [calcEaCtl, hm, if_neg Bool.false_ne_true, M68k.charge, modify_bind, hrest]
  exact bind_ok ht

theorem indexValue (h : Decoding s p u) (ext : U16) :
    M68k.indexValue ext (ackHost k) u = .ok (indexAt ext s) u := by
  unfold M68k.indexValue indexAt
  rw [← h.aRegs, ← h.dRegs]
  cases ext.getLsbD 15 <;> rfl

/-- A control operand resolves to its address. -/
theorem target (h : Decoding s (s.pc + 2) u) (isJmp : Bool) {target : U32}
    (ht : controlTarget? s = some target) :
    ∃ ea t p, calcEaCtl (field (opcodeAt s) 3) (field (opcodeAt s) 0) isJmp (ackHost k) u =
      .ok ea t ∧ ea.address = target ∧ Decoding s p t := by
  unfold controlTarget? at ht
  generalize field (opcodeAt s) 3 = mode at ht ⊢
  generalize field (opcodeAt s) 0 = reg at ht ⊢
  simp only at ht
  split at ht
  · -- (An)
    obtain ⟨t, hrun, hd⟩ := h.control (k := k) isJmp 2 reg rfl rfl
    cases ht
    exact ⟨_, t, _, hrun.trans rfl, congrFun hd.aRegs reg, hd⟩
  · -- (d16,An)
    obtain ⟨t, hrun, hd⟩ := h.control (k := k) isJmp 5 reg rfl rfl
    obtain ⟨d, hext, rfl⟩ := Option.map_eq_some_iff.mp ht
    obtain ⟨t', hfetch, hd'⟩ := hd.extension (k := k) hext
    refine ⟨_, t', _, hrun.trans ((bind_ok hfetch).trans rfl), ?_, hd'⟩
    show t'.aRegs reg + _ = _
    rw [hd'.aRegs]
  · -- (d8,An,Xn)
    obtain ⟨t, hrun, hd⟩ := h.control (k := k) isJmp 6 reg rfl rfl
    obtain ⟨e, hext, rfl⟩ := Option.map_eq_some_iff.mp ht
    obtain ⟨t', hfetch, hd'⟩ := hd.extension (k := k) hext
    refine ⟨_, t', _, hrun.trans ((bind_ok hfetch).trans
      ((bind_ok (hd'.indexValue (k := k) e)).trans rfl)), ?_, hd'⟩
    show t'.aRegs reg + _ + _ = _
    rw [hd'.aRegs]
  · split at ht
    · -- (xxx).W
      obtain ⟨t, hrun, hd⟩ := h.control (k := k) isJmp 7 0 rfl rfl
      obtain ⟨w, hext, rfl⟩ := Option.map_eq_some_iff.mp ht
      obtain ⟨t', hfetch, hd'⟩ := hd.extension (k := k) hext
      exact ⟨_, t', _, hrun.trans ((bind_ok hfetch).trans rfl), rfl, hd'⟩
    · -- (xxx).L
      obtain ⟨t, hrun, hd⟩ := h.control (k := k) isJmp 7 1 rfl rfl
      obtain ⟨hi, hext, hrest⟩ := Option.bind_eq_some_iff.mp ht
      obtain ⟨lo, hext', rfl⟩ := Option.map_eq_some_iff.mp hrest
      obtain ⟨t', hfetch, hd'⟩ := hd.extension (k := k) hext
      have hfour : s.pc + 2 + 2 = s.pc + 4 := by bv_omega
      rw [hfour] at hd'
      obtain ⟨t'', hfetch', hd''⟩ := hd'.extension (k := k) hext'
      have hlong : fetchLong (ackHost k) t =
          .ok ((hi.setWidth 32 <<< 16) ||| lo.setWidth 32) t'' :=
        (bind_ok hfetch).trans ((bind_ok hfetch').trans rfl)
      exact ⟨_, t'', _, hrun.trans ((bind_ok hlong).trans rfl), rfl, hd''⟩
    · -- (d16,PC)
      obtain ⟨t, hrun, hd⟩ := h.control (k := k) isJmp 7 2 rfl rfl
      obtain ⟨d, hext, rfl⟩ := Option.map_eq_some_iff.mp ht
      obtain ⟨t', hfetch, hd'⟩ := hd.extension (k := k) hext
      refine ⟨_, t', _, hrun.trans ((bind_ok hfetch).trans rfl), ?_, hd'⟩
      show t'.pc - 2 + _ = _
      rw [hd'.pc, BitVec.add_sub_cancel]
    · -- (d8,PC,Xn)
      obtain ⟨t, hrun, hd⟩ := h.control (k := k) isJmp 7 3 rfl rfl
      obtain ⟨e, hext, rfl⟩ := Option.map_eq_some_iff.mp ht
      obtain ⟨t', hfetch, hd'⟩ := hd.extension (k := k) hext
      refine ⟨_, t', _, hrun.trans ((bind_ok hfetch).trans
        ((bind_ok (hd'.indexValue (k := k) e)).trans rfl)), ?_, hd'⟩
      show t'.pc - 2 + _ + _ = _
      rw [hd'.pc, BitVec.add_sub_cancel]
    · cases ht
  · cases ht

/-- A branch displacement. -/
theorem branch (h : Decoding s (s.pc + 2) u) {target : U32} (ht : branchTarget? s = some target) :
    ∃ d t, branchDisplacement (opcodeAt s) (ackHost k) u = .ok d t ∧
      Decoding s (branchEnd s) t ∧ branchTarget (opcodeAt s) t.pc d = target := by
  unfold branchTarget? at ht
  unfold branchEnd
  by_cases hword : opcodeAt s &&& 0xFF = 0
  · rw [if_pos hword] at ht ⊢
    obtain ⟨d, hext, rfl⟩ := Option.map_eq_some_iff.mp ht
    obtain ⟨t, hfetch, hd⟩ := h.extension (k := k) hext
    have hfour : s.pc + 2 + 2 = s.pc + 4 := by bv_omega
    refine ⟨d.signExtend 32, t, ?_, hfour ▸ hd, ?_⟩
    · rw [branchDisplacement, if_pos hword]
      exact (bind_ok hfetch).trans rfl
    · rw [branchTarget, if_pos hword, hd.pc, BitVec.add_sub_cancel]
  · rw [if_neg hword] at ht ⊢
    cases ht
    refine ⟨sext8 ((opcodeAt s).setWidth 32), u, ?_, h, ?_⟩
    · rw [branchDisplacement, if_neg hword]
      rfl
    · rw [branchTarget, if_neg hword, h.pc]

end Decoding

/-! ## Where a bad target leads -/

/-- The vector of a target that cannot be fetched. -/
def targetVector (target : U32) : Nat := if isOdd target then 3 else 2

/-- The transfers that change nothing before their target is checked. -/
def Transfer.restarts : Transfer → Bool
  | .bcc | .dbcc | .jmp | .jsr => true
  | _ => false

/-- The state whose registers and memory a transfer has when it prefetches its
target: a BSR has pushed its return address, a return has popped its frame. -/
def Transfer.reached (kind : Transfer) (s : M68kCpu σ) : M68kCpu σ :=
  match kind with
  | .bcc | .dbcc | .jmp | .jsr => s
  | .bsr => pushedOne .long (branchEnd s) s
  | .rts => popped .long s
  | .rtr =>
      { popped .long (popped .word s) with
        sr := (s.sr &&& 0xFF00) ||| (wordAt s.memory (maskAddress24 (s.aRegs 7)) &&& 0x1F) }
  | .rte =>
      withSr (wordAt s.memory (maskAddress24 (s.aRegs 7)))
        (if s.model.is68010 then
          { s with aRegs := Function.update s.aRegs 7 (s.aRegs 7 + 8) }
        else popped .long (popped .word s))
  | .rtd =>
      { s with
        aRegs := Function.update s.aRegs 7 (s.aRegs 7 + 4 +
          (wordAt s.memory (maskAddress24 (s.pc + 2))).signExtend 32) }

/-- Writing the status register moves no more than registers. -/
theorem programmed_withSr (sr : U16) (h : programmed t = programmed s) :
    programmed (withSr sr t) = programmed (withSr sr s) := by
  have hprogrammed (u : M68kCpu σ) : programmed (withSr sr u) =
      { programmed u with
        sr := sr &&& srMask
        usp := if sr &&& srMask &&& srS != 0 then u.userSp else (programmed u).usp
        ssp := if sr &&& srMask &&& srS != 0 then (programmed u).ssp else u.supervisorSp
        aRegs := Function.update (programmed u).aRegs 7
          (if sr &&& srMask &&& srS != 0 then u.supervisorSp else u.userSp) } := by
    rw [withSr_eq]
    rfl
  rw [hprogrammed, hprogrammed, h, userSp_of_programmed h, supervisorSp_of_programmed h]

theorem Transfer.reached_of_restarts {kind : Transfer} (h : kind.restarts = true)
    (s : M68kCpu σ) : kind.reached s = s := by
  cases kind <;> first | rfl | cases h

theorem Transfer.reached_memorySize (kind : Transfer) (s : M68kCpu σ) :
    (kind.reached s).memorySize = s.memorySize := by
  cases kind with
  | rte =>
    rw [Transfer.reached, withSr_eq]
    show (if s.model.is68010 then _ else _ : M68kCpu σ).memorySize = _
    split <;> rfl
  | bcc | bsr | dbcc | jmp | jsr | rts | rtr | rtd => rfl

/-- How the handler of a transfer to a bad target returns: the target is refused by
its prefetch fault, or the PC is moved there. -/
inductive Landed (k : Option (Nat → M68kCpu σ → M68kCpu σ × U32)) (kind : Transfer) (target : U32)
    (s : M68kCpu σ) : M68kCpu σ → Prop
  | refused {u w : M68kCpu σ} {n : Int} {faultPc : U32} (hkind : kind.returns = false)
      (hpush : kind = .bsr → accessible s .long (s.aRegs 7 - 4) = true) (hu : Underway s u)
      (hreached : programmed u = programmed (kind.reached s))
      (h : exception (targetVector target) (ackHost k)
        (targetFaulting (targetVector target) target faultPc u) = .ok () w) :
      Landed k kind target s (charged n (holdGuard (targetVector target) false w))
  | moved {t : M68kCpu σ} (hkind : kind ≠ .bsr) (hodd : isOdd target = true ∨ kind.returns = true)
      (hu : Underway s t) (hreached : programmed t = programmed (kind.reached s))
      (hpc : t.pc = target) : Landed k kind target s t

theorem charged_zero (s : M68kCpu σ) : charged 0 s = s := by simp [charged]

theorem Landed.uncharged {kind : Transfer} {target faultPc : U32} {u w : M68kCpu σ}
    (hkind : kind.returns = false) (hbsr : kind ≠ .bsr) (hu : Underway s u)
    (hreached : programmed u = programmed (kind.reached s))
    (h : exception (targetVector target) (ackHost k)
      (targetFaulting (targetVector target) target faultPc u) = .ok () w) :
    Landed k kind target s (holdGuard (targetVector target) false w) := by
  rw [← charged_zero (holdGuard (targetVector target) false w)]
  exact .refused hkind (fun h => absurd h hbsr) hu hreached h

/-- The return address of a BSR could not be pushed. -/
def Unpushed (k : Option (Nat → M68kCpu σ → M68kCpu σ × U32)) (kind : Transfer)
    (s t : M68kCpu σ) : Prop :=
  kind = .bsr ∧ accessible s .long (s.aRegs 7 - 4) = false ∧
    ∃ u w, Underway s u ∧
      exception (faultVector .long (s.aRegs 7 - 4)) (ackHost k)
        (faulting .write .long (s.aRegs 7 - 4) u) = .ok () w ∧
      t = holdGuard (faultVector .long (s.aRegs 7 - 4)) false w

/-- A target that cannot be fetched. -/
def badTarget (s : M68kCpu σ) (target : U32) : Bool := isOdd target || !mapped s .word target

theorem oddTarget_run (hu : Underway s u) {target : U32} (hodd : isOdd target = true)
    (faultPc : U32) :
    ∃ w, exception (targetVector target) (ackHost k)
        (targetFaulting (targetVector target) target faultPc u) = .ok () w ∧
      raiseOddTargetFault target faultPc (ackHost k) u =
        .ok () (holdGuard (targetVector target) false w) := by
  have hv : targetVector target = 3 := if_pos hodd
  rw [hv]
  obtain ⟨w, hw⟩ := raiseTargetFault_run (k := k) (v := 3) target faultPc
    (Int.le_of_eq hu.running.depth.symm)
  exact ⟨w, hw, (bind_ok hw).trans rfl⟩

theorem busTarget_run (hu : Underway s u) {target : U32} (heven : isOdd target = false)
    (faultPc : U32) :
    ∃ w, exception (targetVector target) (ackHost k)
        (targetFaulting (targetVector target) target faultPc u) = .ok () w ∧
      raiseBusTargetFault target faultPc (ackHost k) u =
        .ok () (holdGuard (targetVector target) false w) := by
  have hv : targetVector target = 2 := by rw [targetVector, heven, if_neg Bool.false_ne_true]
  rw [hv]
  obtain ⟨w, hw⟩ := raiseTargetFault_run (k := k) (v := 2) target faultPc
    (Int.le_of_eq hu.running.depth.symm)
  exact ⟨w, hw, (bind_ok hw).trans rfl⟩

theorem Underway.mapped (hu : Underway s u) (size : M68kSize) (address : U32) :
    mapped u size address = M68k.mapped s size address := mapped_of_memorySize hu.memorySize _ _

section Handlers

variable {target p : U32} (hbad : badTarget s target = true)

include hbad

theorem unmapped_of_even (heven : isOdd target = false) : mapped s .word target = false := by
  rw [badTarget, heven] at hbad
  simpa using hbad

theorem takeBranch_lands (hu : Decoding s p u) :
    ∃ t, takeBranch target (ackHost k) u = .ok () t ∧ Landed k .bcc target s t := by
  rw [takeBranch, bind_ok (isUnmappedTarget_run target u), hu.mapped]
  rcases Bool.eq_false_or_eq_true (isOdd target) with hodd | heven
  · have hcond : (!mapped s .word target && !isOdd target) = false := by
      rw [hodd, Bool.and_comm]
      rfl
    rw [hcond, if_neg Bool.false_ne_true]
    exact ⟨_, rfl, .moved (by decide) (.inl hodd) ((hu.toUnderway.moved target).charged 10)
      hu.programmed rfl⟩
  · have hcond : (!mapped s .word target && !isOdd target) = true := by
      rw [heven, unmapped_of_even hbad heven]
      rfl
    rw [hcond, if_pos rfl]
    obtain ⟨w, hw, hraise⟩ := busTarget_run (k := k) hu.toUnderway heven (u.ppc + 2)
    refine ⟨_, (bind_ok hraise).trans rfl, ?_⟩
    exact .refused rfl nofun hu.toUnderway hu.programmed hw

theorem jump_lands (hu : Decoding s p u) :
    ∃ t, jump target (ackHost k) u = .ok () t ∧ Landed k .jmp target s t := by
  rw [jump, bind_ok (isUnmappedTarget_run target u), hu.mapped]
  rcases Bool.eq_false_or_eq_true (isOdd target) with hodd | heven
  · have hcond : (!isOdd target && !mapped s .word target) = false := by rw [hodd]; rfl
    rw [hcond, if_neg Bool.false_ne_true]
    exact ⟨_, rfl, .moved (by decide) (.inl hodd) (hu.toUnderway.moved target)
      hu.programmed rfl⟩
  · have hcond : (!isOdd target && !mapped s .word target) = true := by
      rw [heven, unmapped_of_even hbad heven]
      rfl
    rw [hcond, if_pos rfl]
    obtain ⟨w, hw, hraise⟩ := busTarget_run (k := k) hu.toUnderway heven (u.ppc + 2)
    exact ⟨_, hraise, .uncharged rfl (by decide) hu.toUnderway hu.programmed hw⟩

theorem isUnmappedTarget_bad (hu : Underway s u) (heven : isOdd target = false) :
    isUnmappedTarget target (ackHost k) u = .ok true u := by
  rw [isUnmappedTarget_run, hu.mapped, unmapped_of_even hbad heven, Bool.not_false]

theorem dbccLoop_lands (hu : Decoding s p u) (reg : Fin 8) (counter : U32) :
    ∃ t, dbccLoop reg counter target (ackHost k) u = .ok () t ∧ Landed k .dbcc target s t := by
  have hu' := hu.charged 10
  rcases Bool.eq_false_or_eq_true (isOdd target) with hodd | heven
  · obtain ⟨w, hw, hraise⟩ := oddTarget_run (k := k) hu'.toUnderway hodd u.pc
    rw [dbccLoop, hodd, if_pos rfl, charge, modify_bind]
    exact ⟨_, hraise, .uncharged rfl (by decide) hu'.toUnderway hu'.programmed hw⟩
  · obtain ⟨w, hw, hraise⟩ := busTarget_run (k := k) hu'.toUnderway heven u.pc
    rw [dbccLoop, heven, if_neg Bool.false_ne_true,
      bind_ok (isUnmappedTarget_bad hbad hu.toUnderway heven), if_pos rfl, charge, modify_bind]
    exact ⟨_, hraise, .uncharged rfl (by decide) hu'.toUnderway hu'.programmed hw⟩

theorem jumpSubroutine_lands (hu : Decoding s p u) :
    ∃ t, jumpSubroutine target (ackHost k) u = .ok () t ∧ Landed k .jsr target s t := by
  rcases Bool.eq_false_or_eq_true (isOdd target) with hodd | heven
  · obtain ⟨w, hw, hraise⟩ := oddTarget_run (k := k) hu.toUnderway hodd u.pc
    rw [jumpSubroutine, hodd, if_pos rfl]
    exact ⟨_, hraise, .uncharged rfl (by decide) hu.toUnderway hu.programmed hw⟩
  · obtain ⟨w, hw, hraise⟩ := busTarget_run (k := k) hu.toUnderway heven u.pc
    rw [jumpSubroutine, heven, if_neg Bool.false_ne_true,
      bind_ok (isUnmappedTarget_bad hbad hu.toUnderway heven), if_pos rfl]
    exact ⟨_, hraise, .uncharged rfl (by decide) hu.toUnderway hu.programmed hw⟩

omit hbad in
/-- The return address of a BSR, pushed or not. -/
theorem push32_wp (hu : Decoding s p u) (value : U32) :
    wp (push32 value) (ackHost k)
      (fun _ t => accessible s .long (s.aRegs 7 - 4) = true ∧ Underway s t ∧
        programmed t = programmed (pushedOne .long value s))
      (fun t => accessible s .long (s.aRegs 7 - 4) = false ∧
        ∃ u w, Underway s u ∧
          exception (faultVector .long (s.aRegs 7 - 4)) (ackHost k)
            (faulting .write .long (s.aRegs 7 - 4) u) = .ok () w ∧
          t = holdGuard (faultVector .long (s.aRegs 7 - 4)) false w) u := by
  have hlow : Underway s (lowered .long u) :=
    ⟨⟨hu.running.1, hu.running.2, hu.running.3, hu.running.4, hu.running.5, hu.running.6⟩,
      hu.wiring, hu.quiet, hu.busWord⟩
  have ha7 : (lowered .long u).aRegs 7 = s.aRegs 7 - 4 := by
    rw [lowered_a7, hu.aRegs]
    rfl
  have hrun : push32 value (ackHost k) u =
      write32With exception ((lowered .long u).aRegs 7) value (ackHost k) (lowered .long u) := rfl
  unfold wp
  rw [hrun, write32With_flat, ha7]
  refine wp_mono (flatAccess_running hlow.running .write .long _ _ _ _) ?_ ?_
  · rintro a t ⟨hacc, -, rfl⟩
    refine ⟨(hlow.accessible _ _).symm.trans hacc,
      ⟨?_, hlow.wiring, hlow.quiet.cons _ _ _, hlow.busWord⟩, ?_⟩
    · exact ⟨hlow.1.1, hlow.1.2, hlow.1.3, hlow.1.4, hlow.1.5, hlow.1.6⟩
    · have hmapped : mapped s .long (s.aRegs 7 - M68kSize.long.bytes) = true := by
        have hmap := (Bool.and_eq_true_iff.mp hacc).2
        rwa [hlow.mapped] at hmap
      have hstored : (pushedOne .long value s).memory =
          storeLong s.memory (maskAddress24 (s.aRegs 7 - 4)) value := if_pos hmapped
      show { programmed u with
          aRegs := Function.update (programmed u).aRegs 7 ((programmed u).aRegs 7 - 4)
          memory := storeLong (programmed u).memory (maskAddress24 (s.aRegs 7 - 4)) value } =
        { programmed s with
          aRegs := Function.update s.aRegs 7 (s.aRegs 7 - 4)
          memory := (pushedOne .long value s).memory }
      rw [hu.programmed, hstored]
      rfl
  · rintro t ⟨hacc, w, hw, rfl⟩
    exact ⟨(hlow.accessible _ _).symm.trans hacc, _, w, hlow, hw, rfl⟩

theorem execBsr_lands (hu : Decoding s (branchEnd s) u) :
    wp (execBsr target) (ackHost k) (fun _ t => Landed k .bsr target s t)
      (Unpushed k .bsr s) u := by
  rw [execBsr, getPc, wp_bind, wp_gets, wp_bind]
  refine wp_mono (push32_wp hu u.pc) ?_ fun t h => ⟨rfl, h⟩
  rintro - t ⟨hacc, ht, hpushed⟩
  rw [hu.pc] at hpushed
  rcases Bool.eq_false_or_eq_true (isOdd target) with hodd | heven
  · obtain ⟨w, hw, hraise⟩ := oddTarget_run (k := k) ht hodd target
    rw [hodd, if_pos rfl]
    exact (wp_of_ok ((bind_ok hraise).trans rfl)).mpr
      (.refused (n := 18) rfl (fun _ => hacc) ht hpushed hw)
  · obtain ⟨w, hw, hraise⟩ := busTarget_run (k := k) ht heven target
    rw [heven, if_neg Bool.false_ne_true, wp_bind,
      wp_of_ok (isUnmappedTarget_bad hbad ht heven), if_pos rfl]
    exact (wp_of_ok ((bind_ok hraise).trans rfl)).mpr
      (.refused (n := 18) rfl (fun _ => hacc) ht hpushed hw)

end Handlers

/-! ## Returns -/

/-- A return has moved to `target`. -/
theorem landed_of_return (kind : Transfer) (hkind : kind.returns = true) (hu : Underway s t)
    (hreached : programmed t = programmed (kind.reached s)) : Landed k kind t.pc s t := by
  refine .moved ?_ (.inr hkind) hu hreached rfl
  rintro rfl
  cases hkind

/-- Popping a long word off the stack of the instruction. -/
theorem Underway.pop32 (hu : Underway s u) (hacc : M68k.accessible s .long (u.aRegs 7) = true) :
    pop32 (ackHost k) u =
      .ok (longAt u.memory (maskAddress24 (u.aRegs 7))) (M68k.popped .long u) :=
  pop32_hit ((hu.accessible _ _).trans hacc)

theorem Underway.pop16 (hu : Underway s u) (hacc : M68k.accessible s .word (u.aRegs 7) = true) :
    pop16 (ackHost k) u =
      .ok (wordAt u.memory (maskAddress24 (u.aRegs 7))) (M68k.popped .word u) :=
  pop16_hit ((hu.accessible _ _).trans hacc)

theorem rts_lands (hd : s.exceptionDepth = 0) (hpc : accessible s .long (s.aRegs 7) = true) :
    ∃ t, execRts (opcodeAt s) (ackHost k) (fetched s) = .ok () t ∧
      Landed k .rts (longAt s.memory (maskAddress24 (s.aRegs 7))) s t := by
  have hu := (decoding_fetched hd).toUnderway
  refine ⟨_, (bind_ok (hu.pop32 hpc)).trans rfl, ?_⟩
  exact landed_of_return _ rfl ((hu.popped .long).moved _) rfl

theorem rtr_lands (hd : s.exceptionDepth = 0) (hccr : accessible s .word (s.aRegs 7) = true)
    (hpc : accessible s .long (s.aRegs 7 + 2) = true) :
    ∃ t, execRtr (opcodeAt s) (ackHost k) (fetched s) = .ok () t ∧
      Landed k .rtr (longAt s.memory (maskAddress24 (s.aRegs 7 + 2))) s t := by
  have hu := (decoding_fetched hd).toUnderway
  have hu' := hu.popped .word
  have ha7 : (popped .word (fetched s)).aRegs 7 = s.aRegs 7 + 2 := popped_a7 .word _
  have hlong := hu'.pop32 (k := k) (by rw [ha7]; exact hpc)
  rw [ha7] at hlong
  refine ⟨_, (bind_ok (hu.pop16 hccr)).trans ((bind_ok hlong).trans rfl), ?_⟩
  exact landed_of_return _ rfl ((hu'.popped .long).restored _ _ _ _ _) rfl

theorem rtd_lands (hd : s.exceptionDepth = 0) (hpc : accessible s .long (s.aRegs 7) = true)
    (hext : (extension? s 2).isSome = true) :
    ∃ t, execRtd (opcodeAt s) (ackHost k) (fetched s) = .ok () t ∧
      Landed k .rtd (longAt s.memory (maskAddress24 (s.aRegs 7))) s t := by
  have hu := (decoding_fetched hd).toUnderway
  have hu' := hu.popped .long
  obtain ⟨d, hd'⟩ := Option.isSome_iff_exists.mp hext
  obtain ⟨t, hfetch, ht, hprogrammed, -⟩ := hu'.fetch (k := k) ((extension?_eq_some hd').1)
  refine ⟨_, (bind_ok (hu.pop32 hpc)).trans ((bind_ok hfetch).trans rfl), ?_⟩
  refine landed_of_return .rtd rfl (ht.restored t.sr _ t.usp t.ssp _) ?_
  let d : U32 := (wordAt s.memory (maskAddress24 (s.pc + 2))).signExtend 32
  show { programmed t with
      aRegs := Function.update (programmed t).aRegs 7 ((programmed t).aRegs 7 + d) } =
    { programmed s with aRegs := Function.update s.aRegs 7 (s.aRegs 7 + 4 + d) }
  have ha : Function.update (popped .long (fetched s)).aRegs 7
      ((popped .long (fetched s)).aRegs 7 + d) = Function.update s.aRegs 7 (s.aRegs 7 + 4 + d) := by
    rw [popped_a7]
    exact Function.update_idem _ _ _
  rw [hprogrammed, ← ha]
  rfl

theorem rte_lands (hd : s.exceptionDepth = 0) (hsup : s.supervisor = true)
    (hsr : accessible s .word (s.aRegs 7) = true)
    (hpc : accessible s .long (s.aRegs 7 + 2) = true)
    (hformat : s.model.is68010 = true → accessible s .word (s.aRegs 7 + 6) = true ∧
      wordAt s.memory (maskAddress24 (s.aRegs 7 + 6)) &&& 0xF000 = 0) :
    ∃ t, execRte (opcodeAt s) (ackHost k) (fetched s) = .ok () t ∧
      Landed k .rte (longAt s.memory (maskAddress24 (s.aRegs 7 + 2))) s t := by
  have hu := (decoding_fetched hd).toUnderway
  rw [execRte, privileged_run _ (s := fetched s) hsup, getModel, gets_bind]
  cases hmodel : (fetched s).model with
  | m68000 =>
    have hu' := hu.popped .word
    have ha7 : (popped .word (fetched s)).aRegs 7 = s.aRegs 7 + 2 := popped_a7 .word _
    have hlong := hu'.pop32 (k := k) (by rw [ha7]; exact hpc)
    rw [ha7] at hlong
    rw [if_neg (by decide), rte68000]
    refine ⟨_, (bind_ok (hu.pop16 hsr)).trans ((bind_ok hlong).trans rfl), ?_⟩
    refine landed_of_return .rte rfl (((hu'.popped .long).withSr _).moved _) ?_
    have hold : s.model.is68010 = false := congrArg M68kModel.is68010 hmodel
    simp only [Transfer.reached, hold, Bool.false_eq_true, if_false]
    exact programmed_withSr _ rfl
  | m68010 =>
    have hnew : s.model.is68010 = true := congrArg M68kModel.is68010 hmodel
    obtain ⟨hword, hzero⟩ := hformat hnew
    have hu₁ := hu.noted .read .word (s.aRegs 7 + 6)
    have hu₂ := hu₁.noted .read .word (s.aRegs 7)
    have hu₃ := hu₂.noted .read .long (s.aRegs 7 + 2)
    have hzero' : (wordAt (fetched s).memory (maskAddress24 (s.aRegs 7 + 6)) &&& 0xF000 != 0) =
        false := by
      show (wordAt s.memory (maskAddress24 (s.aRegs 7 + 6)) &&& 0xF000 != 0) = false
      rw [hzero]
      rfl
    have hfmt := read16_hit k (s := fetched s) hword
    have hnewSr := read16_hit k ((hu₁.accessible _ _).trans hsr)
    have hlong := read32_hit k ((hu₂.accessible _ _).trans hpc)
    have ha7 : (fetched s).aRegs 7 = s.aRegs 7 := rfl
    rw [if_pos (by decide), rte68010, getA, gets_bind, ha7, bind_ok hfmt, hzero',
      if_neg Bool.false_ne_true, bind_ok hnewSr, bind_ok hlong]
    refine ⟨_, rfl, ?_⟩
    refine landed_of_return .rte rfl (((hu₃.restored _ _ _ _ _).withSr _).moved _) ?_
    simp only [Transfer.reached, hnew, if_true]
    exact programmed_withSr _ rfl

/-! ## The transfer -/

theorem wp_costed {body : M σ Unit} {n : Int} {h : Host σ} {Q R : M68kCpu σ → Prop} :
    wp (costed body n) h (fun _ t => Q t) R s ↔ wp body h (fun _ t => Q t) R s := by
  rw [costed, wp_bind]
  rfl

/-- A handler that returns, whatever it costs. -/
theorem wp_costed_ok {body : M σ Unit} {n : Int} {h : Host σ} {Q R : M68kCpu σ → Prop}
    (hb : ∃ t, body h s = .ok () t ∧ Q t) : wp (costed body n) h (fun _ t => Q t) R s := by
  obtain ⟨t, ht, hq⟩ := hb
  exact wp_costed.mpr ((wp_of_ok ht).mpr hq)

/-- Every transfer to a bad target lands, unless a BSR cannot push. -/
theorem Transfers.lands {kind : Transfer} {target : U32} (h : Transfers s kind target)
    (hd : s.exceptionDepth = 0) (hbad : badTarget s target = true) :
    wp (dispatch (opcodeAt s)) (ackHost k) (fun _ t => Landed k kind target s t)
      (Unpushed k kind s) (fetched s) := by
  have hstart := decoding_fetched hd
  cases h with
  | bcc hline hcond htaken htarget =>
    obtain ⟨d, t, hdisp, ht, heq⟩ := hstart.branch (k := k) htarget
    rw [dispatch_bcc hline, wp_costed, execBcc, wp_bind, wp_of_ok hdisp, getPc, wp_bind, wp_gets,
      heq, if_neg hcond, getSr, wp_bind, wp_gets, ht.sr, if_pos htaken]
    obtain ⟨u, hu, hland⟩ := takeBranch_lands (k := k) hbad ht
    exact (wp_of_ok hu).mpr hland
  | bsr hline hcond htarget =>
    obtain ⟨d, t, hdisp, ht, heq⟩ := hstart.branch (k := k) htarget
    rw [dispatch_bcc hline, wp_costed, execBcc, wp_bind, wp_of_ok hdisp, getPc, wp_bind, wp_gets,
      heq, if_pos hcond]
    exact execBsr_lands hbad ht
  | dbcc hline hsize hmode hloop hcount hext =>
    obtain ⟨t, hfetch, ht⟩ := hstart.extension (k := k) hext
    have hval : ((s.dRegs (field (opcodeAt s) 0)).setWidth 16 - 1 != (0xFFFF : U16)) = true := by
      rw [bne_iff_ne]
      intro heq
      apply hcount
      bv_omega
    rw [dispatch_dbcc hline hsize hmode, wp_costed, execDbcc, wp_bind, wp_of_ok hfetch, getSr,
      wp_bind, wp_gets, ht.sr, hloop, if_neg Bool.false_ne_true, getD, wp_bind, wp_gets, ht.dRegs]
    dsimp only
    rw [hval, if_pos rfl, getPc, wp_bind, wp_gets, ht.pc, BitVec.add_sub_cancel]
    obtain ⟨u, hu, hland⟩ := dbccLoop_lands (k := k) hbad ht (field (opcodeAt s) 0) _
    exact (wp_of_ok hu).mpr hland
  | jmp hop htarget =>
    obtain ⟨ea, t, p, hea, heq, ht⟩ := hstart.target (k := k) true htarget
    have hbit : (opcodeAt s).getLsbD 6 = true := by
      have h := congrArg (fun w : U16 => w.getLsbD 6) hop
      simpa using h
    obtain ⟨u, hu, hland⟩ := jump_lands (k := k) hbad ht
    rw [dispatch_jmp hop, wp_costed, execJmp, wp_bind, wp_of_ok hea, hbit, heq,
      if_neg (by decide)]
    exact (wp_of_ok hu).mpr hland
  | jsr hop htarget =>
    obtain ⟨ea, t, p, hea, heq, ht⟩ := hstart.target (k := k) true htarget
    have hbit : (opcodeAt s).getLsbD 6 = false := by
      have h := congrArg (fun w : U16 => w.getLsbD 6) hop
      simpa using h
    obtain ⟨u, hu, hland⟩ := jumpSubroutine_lands (k := k) hbad ht
    have hjsr : execJmp (opcodeAt s) (ackHost k) (fetched s) = .ok () u := by
      rw [execJmp, bind_ok hea, hbit, heq, if_pos (by decide)]
      exact hu
    rw [dispatch_jsr hop, lineJsr, wp_bind, wp_of_ok hjsr]
    exact hland
  | rts hop hpc =>
    have hdispatch : (dispatch (opcodeAt s) : M σ Int) = costed (execRts (opcodeAt s)) 16 := by
      rw [hop]
      rfl
    rw [hdispatch]
    exact wp_costed_ok (rts_lands hd hpc)
  | rtr hop hccr hpc =>
    have hdispatch : (dispatch (opcodeAt s) : M σ Int) = costed (execRtr (opcodeAt s)) 20 := by
      rw [hop]
      rfl
    rw [hdispatch]
    exact wp_costed_ok (rtr_lands hd hccr hpc)
  | rte hop hsup hsr hpc hformat =>
    have hdispatch : (dispatch (opcodeAt s) : M σ Int) = costed (execRte (opcodeAt s)) 20 := by
      rw [hop]
      rfl
    rw [hdispatch]
    exact wp_costed_ok (rte_lands hd hsup hsr hpc hformat)
  | rtd hop hmodel hpc hext =>
    have hdispatch : (dispatch (opcodeAt s) : M σ Int) =
        only68010 (execRtd (opcodeAt s)) 16 := by
      rw [hop]
      rfl
    have hold : (!(fetched s).model.is68010) = false := by
      rw [Bool.not_eq_false']
      exact hmodel
    rw [hdispatch, only68010, getModel, wp_bind, wp_gets, hold, if_neg Bool.false_ne_true]
    exact wp_costed_ok (rtd_lands hd hpc hext)

end M68k
