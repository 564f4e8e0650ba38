import Rocket68.Logic.Agreement
import Rocket68.Theorems.Calls
import Rocket68.Theorems.Locality

/-!
# Runs and the listing

What is listed at the program counter is what a step executes. Where an instruction completes
its mnemonic is known, and unless it transfers control the next one stands behind its line. A
branch goes there or to the address in its line, and a routine returns to the line behind its
call. So a run can be followed line by line, and straight code runs through the addresses that a
listing of it shows.
-/

namespace M68k

open Trap TrapM Text Bits Nest

variable {σ : Type} {k : Option (Nat → M68kCpu σ → M68kCpu σ × U32)} {s t u v : M68kCpu σ}
  {op : U16}

/-! ## Instructions that go on behind themselves -/

/-- Branches, jumps, calls and returns. -/
def isTransfer (op : U16) : Bool :=
  lineOf op == 6 || op &&& 0xF0F8 == 0x50C8 || op &&& 0xFF80 == 0x4E80 || op == 0x4E73 ||
    op == 0x4E74 || op == 0x4E75 || op == 0x4E77

/-- The plan goes on behind the instruction. -/
def Plan.GoesOn (p : Plan) : Prop := p.sequential = true

theorem Plan.GoesOn.ite {A : Prop} [Decidable A] {p q : Plan} (hp : A → p.GoesOn)
    (hq : ¬A → q.GoesOn) : (if A then p else q).GoesOn := by
  split
  · next h => exact hp h
  · next h => exact hq h

theorem withSize_goesOn {p : M68kSize → Plan} (h : ∀ size, (p size).GoesOn) :
    (withSize op p).GoesOn := by
  unfold withSize
  split
  · rfl
  · exact h _

theorem bitPlan_goesOn (use : Use) : (bitPlan use op).GoesOn := .ite (fun _ => rfl) fun _ => rfl

theorem bitsPlan_goesOn : (bitsPlan op).GoesOn := by
  unfold bitsPlan
  split
  · exact bitPlan_goesOn _
  · exact bitPlan_goesOn _

theorem movepPlan_goesOn : (movepPlan op).GoesOn := by
  unfold movepPlan
  split <;> rfl

theorem logicPlan_goesOn (ccr status : U16) : (logicPlan ccr status op).GoesOn :=
  .ite (fun _ => rfl) fun _ => .ite (fun _ => rfl) fun _ => withSize_goesOn fun _ => rfl

theorem movesPlan_goesOn (c : Core) : (movesPlan op c).GoesOn :=
  withSize_goesOn fun _ => .ite (fun _ => rfl) fun _ => .ite (fun _ => rfl) fun _ => rfl

theorem line0Plan_goesOn (c : Core) : (line0Plan op c).GoesOn :=
  .ite (fun _ => rfl) fun _ => .ite (fun _ => movesPlan_goesOn c) fun _ =>
    .ite (fun _ => logicPlan_goesOn _ _) fun _ => .ite (fun _ => logicPlan_goesOn _ _) fun _ =>
    .ite (fun _ => withSize_goesOn fun _ => rfl) fun _ =>
    .ite (fun _ => withSize_goesOn fun _ => rfl) fun _ => .ite (fun _ => logicPlan_goesOn _ _)
    fun _ => .ite (fun _ => withSize_goesOn fun _ => rfl) fun _ =>
    .ite (fun _ => bitsPlan_goesOn) fun _ => .ite (fun _ => movepPlan_goesOn)
    fun _ => bitsPlan_goesOn

theorem movePlan_goesOn : (movePlan op).GoesOn := by
  unfold movePlan
  split <;> rfl

theorem unaryPlan_goesOn (use : M68kSize → Use) : (unaryPlan use op).GoesOn :=
  withSize_goesOn fun _ => rfl

theorem moveSrPlan_goesOn : (moveSrPlan op).GoesOn :=
  .ite (fun _ => rfl) fun _ => .ite (fun _ => rfl) fun _ => .ite (fun _ => rfl) fun _ => rfl

theorem line4Plan_goesOn (h : isTransfer op = false) (c : Core) : (line4Plan op c).GoesOn := by
  simp only [isTransfer, Bool.or_eq_false_iff, beq_eq_false_iff_ne] at h
  obtain ⟨⟨⟨⟨⟨⟨-, -⟩, hjump⟩, hrte⟩, hrtd⟩, hrts⟩, hrtr⟩ := h
  have hwide {v : U16} (h : op &&& 0xFFC0 = v) (hv : v &&& 0xFF80 = 0x4E80) : False :=
    hjump (by rw [show (0xFF80 : U16) = 0xFFC0 &&& 0xFF80 from rfl, ← BitVec.and_assoc, h, hv])
  refine .ite (fun _ => rfl) fun _ => .ite (fun _ => rfl) fun _ => .ite (fun _ => rfl) fun _ =>
    .ite (fun h => absurd h hrte) fun _ => .ite (fun h => absurd h hrts) fun _ =>
    .ite (fun _ => rfl) fun _ => .ite (fun h => absurd h hrtr) fun _ =>
    .ite (fun h => absurd h hrtd) fun _ => .ite (fun _ => rfl) fun _ => .ite (fun _ => rfl)
    fun _ => .ite (fun _ => rfl) fun _ => .ite (fun _ => .ite (fun _ => rfl) fun _ => rfl) fun _ =>
    .ite (fun h => (hwide h (by decide)).elim) fun _ => .ite (fun h => (hwide h (by decide)).elim)
    fun _ => .ite (fun _ => moveSrPlan_goesOn) fun _ => .ite (fun _ => rfl) fun _ =>
    .ite (fun _ => moveSrPlan_goesOn) fun _ => .ite (fun _ => rfl) fun _ => .ite (fun _ => rfl)
    fun _ => ?_
  exact .ite (fun _ => .ite (fun _ => rfl) fun _ => rfl) fun _ => .ite (fun _ => rfl) fun _ =>
    .ite (fun _ => rfl) fun _ => .ite (fun _ => rfl) fun _ => .ite (fun _ => rfl) fun _ =>
    .ite (fun _ => .ite (fun _ => rfl) fun _ => rfl) fun _ =>
    .ite (fun _ => unaryPlan_goesOn _) fun _ => .ite (fun _ => unaryPlan_goesOn _) fun _ =>
    .ite (fun _ => moveSrPlan_goesOn) fun _ => .ite (fun _ => unaryPlan_goesOn _) fun _ =>
    .ite (fun _ => unaryPlan_goesOn _) fun _ => .ite (fun _ => unaryPlan_goesOn _) fun _ => rfl

theorem line5Plan_goesOn (hline : lineOf op = 5) (h : op &&& 0xF0F8 ≠ 0x50C8) :
    (line5Plan op).GoesOn := by
  refine .ite (fun hsize => .ite (fun hmode => absurd ?_ h) fun _ => rfl)
    fun _ => withSize_goesOn fun _ => .ite (fun _ => rfl) fun _ => rfl
  have hlow : ((maskIs 0xC0 0xC0).and (fieldIs 3 1)).Matches op :=
    (Pattern.and_matches (by decide) (by decide) op).mpr
      ⟨hsize, (field_iff (by decide) 1).mp hmode⟩
  exact (Pattern.and_matches (p := lineIs 5) (by decide) (by decide) op).mpr
    ⟨(line_iff 5).mp hline, hlow⟩

theorem andOrPlan_goesOn : (andOrPlan op).GoesOn :=
  .ite (fun _ => rfl) fun _ => .ite (fun _ => rfl) fun _ => rfl

theorem bcdPlan_goesOn : (bcdPlan op).GoesOn := .ite (fun _ => rfl) fun _ => rfl

theorem lineAddSubPlan_goesOn : (lineAddSubPlan op).GoesOn :=
  .ite (fun _ => withSize_goesOn fun _ => .ite (fun _ => rfl) fun _ => rfl) fun _ =>
    .ite (fun _ => rfl) fun _ => .ite (fun _ => rfl) fun _ => rfl

/-- Every other instruction goes on behind its last word. -/
theorem plan_goesOn (h : isTransfer op = false) (c : Core) : (plan op c).GoesOn := by
  have hrest := h
  simp only [isTransfer, Bool.or_eq_false_iff, beq_eq_false_iff_ne] at hrest
  obtain ⟨⟨⟨⟨⟨⟨hbranch, hdbcc⟩, -⟩, -⟩, -⟩, -⟩, -⟩ := hrest
  unfold plan
  rcases nibble_cases (lineOf op) with hl | hl | hl | hl | hl | hl | hl | hl | hl | hl | hl | hl |
    hl | hl | hl | hl <;> simp only [hl]
  · exact line0Plan_goesOn c
  · exact movePlan_goesOn
  · exact movePlan_goesOn
  · exact movePlan_goesOn
  · exact line4Plan_goesOn h c
  · exact line5Plan_goesOn hl hdbcc
  · exact absurd hl hbranch
  · rfl
  · exact .ite (fun _ => rfl) fun _ => .ite (fun _ => bcdPlan_goesOn) fun _ => andOrPlan_goesOn
  · exact lineAddSubPlan_goesOn
  · rfl
  · exact .ite (fun _ => .ite (fun _ => rfl) fun _ => rfl) fun _ =>
      .ite (fun _ => rfl) fun _ => rfl
  · exact .ite (fun _ => rfl) fun _ => .ite (fun _ => bcdPlan_goesOn) fun _ =>
      .ite (fun _ => rfl) fun _ => andOrPlan_goesOn
  · exact lineAddSubPlan_goesOn
  · exact .ite (fun _ => rfl) fun _ => rfl
  · rfl

/-! ## Completed instructions -/

/-- `peek_word` of the disassembler on flat memory. -/
def listingWords (s : M68kCpu σ) : Words := fun pc =>
  let address := maskAddress24 pc
  if address + 1 < s.memorySize then wordAt s.memory address else 0

/-- Where an instruction word can be fetched, the disassembler reads it. -/
theorem listingWords_of_accessible {a : U32} (h : accessible s .word a = true) :
    listingWords s a = wordAt s.memory (maskAddress24 a) := by
  rw [accessible, Bool.and_eq_true, mapped, Bool.and_eq_true, isValidAddress, isValidAddress,
    decide_eq_true_eq, decide_eq_true_eq] at h
  exact if_pos h.2.2

/-- What the disassembler says of an instruction that completes. -/
theorem Succeeds.listed (h : Succeeds k s u) : listingWords s s.pc = opcodeAt s ∧
    Prints (2 + (plan (opcodeAt s) (entryCore s)).bytes)
      (disasmLine (listingWords s) s.pc (opcodeAt s)) := by
  obtain ⟨t, ht, -⟩ := h.retires
  refine ⟨listingWords_of_accessible ht.fetches, ?_⟩
  rcases decoders_agree (k := k) (opcodeAt s) with hthrows | hprints
  · obtain ⟨cycles, hrun⟩ := ht.runs
    have hends := hthrows (fetched s)
    rw [hrun] at hends
    exact absurd ht.quiet hends
  · exact hprints _ _ _

/-- The address behind the line at `pc`. -/
def behind (words : Words) (pc : U32) : U32 := pc + BitVec.ofNat 32 (lineAt words pc).len

/-- The line of an instruction that completes ends where its operands do. -/
theorem Succeeds.behind_eq (h : Succeeds k s u) : behind (listingWords s) s.pc =
    s.pc + 2 + BitVec.ofNat 32 (plan (opcodeAt s) (entryCore s)).bytes := by
  obtain ⟨hword, hprints⟩ := h.listed
  have hlen : (lineAt (listingWords s) s.pc).len =
      2 + (plan (opcodeAt s) (entryCore s)).bytes := by
    rw [lineAt, hword]
    exact (hprints []).1
  rw [behind, hlen, BitVec.ofNat_add, ← BitVec.add_assoc]
  rfl

theorem Succeeds.known (h : Succeeds k s u) :
    '?' ∉ (lineAt (listingWords s) s.pc).op.toList := by
  obtain ⟨hword, hprints⟩ := h.listed
  rw [lineAt, hword]
  exact (hprints []).2

/-- Unless it transfers control, an instruction goes on behind its line. -/
theorem Succeeds.goes_on (h : Succeeds k s u) (hop : isTransfer (opcodeAt s) = false) :
    u.pc = behind (listingWords s) s.pc := by
  have hpc : u.pc = (resolveAll (plan (opcodeAt s) (entryCore s)).parts (entryCore s)).pc :=
    h.effect.pc (plan_goesOn hop _)
  rw [hpc, resolveAll_pc, h.behind_eq]
  rfl

/-! ## Branches -/

/-- Bcc, BRA, BSR and DBcc. -/
def isBranch (op : U16) : Bool := lineOf op == 6 || op &&& 0xF0F8 == 0x50C8

/-- The displacement of a branch is a word of its own. -/
def displacedByWord (op : U16) : Bool := lineOf op != 6 || op &&& 0xFF == 0

/-- The displacement, where `word` stands behind the opcode. -/
def displacement (op word : U16) : U32 :=
  if displacedByWord op then word.signExtend 32 else ((op.setWidth 8 : U8)).signExtend 32

/-- Whether a branch is taken. -/
def isTaken (op : U16) (c : Core) : Bool :=
  if lineOf op = 6 then conditionField op == 1 || checkCondition c.sr (conditionField op)
  else !checkCondition c.sr (conditionField op) &&
    (c.dRegs (field op 0)).setWidth 16 - 1 != (0xFFFF : U16)

theorem isBranch_cases (h : isBranch op = true) : lineOf op = 6 ∨
    lineOf op = 5 ∧ op &&& 0xC0 = 0xC0 ∧ field op 3 = 1 := by
  rw [isBranch, Bool.or_eq_true, beq_iff_eq, beq_iff_eq] at h
  refine h.imp_right fun h => ?_
  have hmatch : ((lineIs 5).and ((maskIs 0xC0 0xC0).and (fieldIs 3 1))).Matches op := h
  obtain ⟨hline, hlow⟩ := (Pattern.and_matches (by decide) (by decide) op).mp hmatch
  obtain ⟨hsize, hmode⟩ := (Pattern.and_matches (by decide) (by decide) op).mp hlow
  exact ⟨(line_iff 5).mpr hline, hsize, (field_iff (by decide) 1).mpr hmode⟩

theorem plan_branch (h : lineOf op = 6) (c : Core) : plan op c = branchPlan op := by
  unfold plan
  simp only [h]
  rfl

theorem branch_bytes (h : isBranch op = true) (c : Core) :
    (plan op c).bytes = if displacedByWord op then 2 else 0 := by
  rcases isBranch_cases h with hline | ⟨hline, hsize, hmode⟩
  · rw [plan_branch hline, branchPlan_bytes]
    simp [displacedByWord, hline]
  · have hplan : plan op c = line5Plan op := by
      unfold plan
      simp only [hline]
      rfl
    have hword : displacedByWord op = true := by simp [displacedByWord, hline]
    rw [hplan, line5Plan, if_pos hsize, if_pos hmode, hword]
    rfl

/-- A branch goes where its displacement leads to from behind its opcode, or behind its words. -/
theorem branch_goes (h : isBranch op = true) :
    Yields k (dispatch op : M σ Int) fun _ c d => d.pc =
      if isTaken op c then c.pc + displacement op c.word
      else c.pc + if displacedByWord op then 2 else 0 := by
  rcases isBranch_cases h with hline | ⟨hline, hsize, hmode⟩
  · have hbyte : displacedByWord op = decide (op &&& 0xFF = 0) := by
      simp [displacedByWord, hline, beq_eq_decide]
    -- Bcc, BRA and BSR: a byte displacement, or a word behind the opcode
    have hdisp : Yields k (branchDisplacement op : M σ U32) fun disp c d =>
        d.sr = c.sr ∧ d.pc = (c.pc + if displacedByWord op then 2 else 0) ∧
          branchTarget op d.pc disp = c.pc + displacement op c.word := by
      unfold branchDisplacement branchTarget displacement
      rw [hbyte]
      split
      · next hword =>
        refine .bind fetch_yields fun w => .pure ?_
        rintro d c ⟨rfl, rfl⟩
        rw [decide_eq_true hword]
        refine ⟨rfl, rfl, ?_⟩
        exact congrArg (· + _) (BitVec.add_sub_cancel c.pc 2)
      · next hword =>
        rw [decide_eq_false hword]
        refine .pure fun c => ⟨rfl, (BitVec.add_zero c.pc).symm, ?_⟩
        rw [sext8, BitVec.setWidth_setWidth_of_le _ (by decide)]
        rfl
    rw [dispatch_bcc hline]
    refine costed_yields (.bind hdisp fun disp => .getPc fun pc => .ite
      (fun hcond => (execBsr_jumps _).mono ?_) fun hcond => .getSr fun sr => .ite
        (fun htaken => (takeBranch_jumps _).mono ?_) fun htaken => .charge ?_)
    · rintro _ d e ⟨_, -, rfl⟩ rfl c ⟨-, -, htarget⟩
      rw [htarget, isTaken, if_pos hline, hcond]
      rfl
    · rintro _ d e rfl rfl rfl c ⟨hsr, -, htarget⟩
      rw [hsr] at htaken
      rw [htarget, isTaken, if_pos hline, htaken, Bool.or_true]
      rfl
    · rintro d rfl rfl c ⟨hsr, hpc, -⟩
      rw [hsr] at htaken
      rw [hpc, isTaken, if_pos hline, Bool.eq_false_iff.mpr htaken, beq_eq_false_iff_ne.mpr hcond]
      rfl
  · have hne : lineOf op ≠ 6 := by
      rw [hline]
      decide
    -- DBcc: always a word
    have hword : displacedByWord op = true := by simp [displacedByWord, hne]
    rw [dispatch_dbcc hline hsize hmode]
    refine costed_yields (.bind fetch_yields fun disp => .getSr fun sr => .ite
      (fun hfound => .charge ?_) fun hfound => .getD fun old => .ite
        (fun hloops => .getPc fun pc => (dbccLoop_jumps _ _ _).mono ?_) fun hloops =>
          .assignD <| .charge ?_)
    · rintro d rfl c ⟨-, rfl⟩
      have htaken : isTaken op c = false := by simp [isTaken, hne, hfound]
      rw [htaken, hword]
      rfl
    · rintro _ d e rfl rfl rfl rfl c ⟨rfl, rfl⟩
      have htaken : isTaken op c = true := by simp_all [isTaken]
      rw [htaken, displacement, hword, if_pos rfl, if_pos rfl, BitVec.add_sub_cancel]
    · rintro e d rfl rfl rfl c ⟨-, rfl⟩
      have htaken : isTaken op c = false := by simp_all [isTaken]
      rw [htaken, hword]
      rfl

/-- The word that a completed branch takes can be fetched. -/
theorem Retires.word (h : Retires k s t) (hop : isBranch (opcodeAt s) = true)
    (hword : displacedByWord (opcodeAt s) = true) : accessible s .word (s.pc + 2) = true := by
  cases hacc : accessible s .word (s.pc + 2) with
  | true => rfl
  | false =>
    obtain ⟨cycles, hrun⟩ := h.runs
    have hthrown : (dispatch (opcodeAt s) (ackHost k) (fetched s)).Ends
        fun t => t.exceptionThrown ≠ 0 := by
      rcases isBranch_cases hop with hline | ⟨hline, hsize, hmode⟩
      · rw [displacedByWord, hline] at hword
        have hzero : opcodeAt s &&& 0xFF = 0 := by simpa using hword
        rw [dispatch_bcc hline]
        -- the fault of the fetch is still there at the end of the handler
        refine ends_bind (ends_bind ?_ fun disp t ht => ?_) fun _ t ht => ht
        · rw [branchDisplacement, if_pos hzero]
          exact fetch_throws (s := fetched s) rfl hacc fun w => .pure _
        · refine Sticks.seq (.gets _) (fun pc => ?_) t ht
          exact .ite (fun _ => (execBsr_yields _).sticks) fun _ => .seq (.gets _) fun _ =>
            .ite (fun _ => (takeBranch_jumps _).sticks) fun _ => .modify fun _ => rfl
      · rw [dispatch_dbcc hline hsize hmode]
        refine ends_bind (fetch_throws (s := fetched s) rfl hacc fun disp => ?_) fun _ t ht => ht
        exact .seq (.gets _) fun _ => .ite (fun _ => .modify fun _ => rfl) fun _ =>
          .seq (.gets _) fun _ => .ite (fun _ => .seq (.gets _) fun _ =>
            (dbccLoop_jumps _ _ _).sticks) fun _ => .seq (.modify fun _ => rfl) fun _ =>
              .modify fun _ => rfl
    rw [hrun] at hthrown
    exact absurd h.quiet hthrown

theorem plainLine_args {name arguments : String} {len : Nat} (h : arguments.length ≤ 28)
    (calls : List Formatted) : (plainLine name arguments len calls).1.args = arguments :=
  @Formatted.Fits.held ⟨.args, arguments⟩ h

/-- The arguments of a branch end in the address that its displacement leads to. -/
theorem branch_listed (h : isBranch op = true) (words : Words) (pc : U32) :
    ∃ before, (disasmLine words pc op []).1.args =
      before ++ addressName (pc + 2 + displacement op (words (pc + 2))) := by
  have haddress (a : U32) : (addressName a).length ≤ 9 := addressName_length_le a
  rw [disasmLine_eq]
  rcases isBranch_cases h with hline | ⟨hline, hsize, hmode⟩
  · simp only [hline]
    refine ⟨"", ?_⟩
    show (decodeBranch words pc op []).1.args = _
    have hbyte : displacedByWord op = decide (op &&& 0xFF = 0) := by
      simp [displacedByWord, hline, beq_eq_decide]
    rw [decodeBranch, displacement, hbyte, String.empty_append]
    split
    · next hlow =>
      rw [plainLine_args (Nat.le_trans (haddress _) (by decide)),
        decide_eq_true (lowByte_iff.mpr hlow), if_pos rfl]
    · next hlow =>
      rw [plainLine_args (Nat.le_trans (haddress _) (by decide)),
        decide_eq_false (hlow ∘ lowByte_iff.mp), if_neg Bool.false_ne_true]
  · simp only [hline]
    refine ⟨dataName (field op 0) ++ ", ", ?_⟩
    show (disasmLine5 words pc op []).1.args = _
    have hword : displacedByWord op = true := by
      simp [displacedByWord, hline]
    rw [disasmLine5, if_pos hsize, if_pos hmode, displacement, hword, if_pos rfl]
    refine plainLine_args ?_ _
    rw [pair, String.length_append, String.length_append, dataName_length]
    have h := haddress (pc + 2 + (words (pc + 2)).signExtend 32)
    simp only [length_comma]
    omega

/-- Behind a branch stands the next instruction, or the one whose address is listed. -/
theorem Succeeds.branches (h : Succeeds k s u) (hop : isBranch (opcodeAt s) = true) :
    u.pc = behind (listingWords s) s.pc ∨
      ∃ before, (lineAt (listingWords s) s.pc).args = before ++ addressName u.pc := by
  have hword := h.listed.1
  obtain ⟨t, ht, hcore⟩ := h.retires
  obtain ⟨_, hgoes⟩ := ht.yields (branch_goes hop)
  have hpc : u.pc = (core t).pc := congrArg Core.pc hcore
  rw [← hpc] at hgoes
  have hentry : (entryCore s).pc = s.pc + 2 := rfl
  rw [hentry] at hgoes
  split at hgoes
  · right
    -- Only a displacement word is read from memory, and it has been fetched.
    obtain ⟨before, hbefore⟩ := branch_listed hop (listingWords s) s.pc
    have hsame : displacement (opcodeAt s) (listingWords s (s.pc + 2)) =
        displacement (opcodeAt s) (entryCore s).word := by
      cases hw : displacedByWord (opcodeAt s) with
      | false =>
        rw [displacement, displacement, hw, if_neg Bool.false_ne_true,
          if_neg Bool.false_ne_true]
      | true => exact congrArg _ (listingWords_of_accessible (ht.word hop hw))
    exact ⟨before, by rw [lineAt, hword, hbefore, hsame, hgoes]⟩
  · left
    rw [hgoes, h.behind_eq, branch_bytes hop]
    cases displacedByWord (opcodeAt s) <;> rfl

/-! ## Runs -/

/-- A line of a trace: where it stands, and the words that are read for it. -/
structure TraceLine where
  pc : U32
  words : Words

/-- The word that the line decodes. -/
def TraceLine.opcode (e : TraceLine) : U16 := e.words e.pc

/-- What is printed. -/
def TraceLine.line (e : TraceLine) : Line := lineAt e.words e.pc

/-- What is printed before a step. -/
def traceLine (s : M68kCpu σ) : TraceLine := ⟨s.pc, listingWords s⟩

/-- `f` may come after `e` in a trace. -/
structure TraceLine.Leads (e f : TraceLine) : Prop where
  known : '?' ∉ e.line.op.toList
  next : isTransfer e.opcode = false → f.pc = e.pc + BitVec.ofNat 32 e.line.len
  branch : isBranch e.opcode = true → f.pc = e.pc + BitVec.ofNat 32 e.line.len ∨
    ∃ before, e.line.args = before ++ addressName f.pc

/-- A run of instructions that complete, and what is printed before each. -/
inductive Printed (k : Option (Nat → M68kCpu σ → M68kCpu σ × U32)) :
    M68kCpu σ → List TraceLine → M68kCpu σ → Prop
  | done (s : M68kCpu σ) : Printed k s [] s
  | step {s t u : M68kCpu σ} {lines : List TraceLine} (h : Succeeds k s t)
      (rest : Printed k t lines u) : Printed k s (traceLine s :: lines) u

variable {lines : List TraceLine}

/-- A step leads from its line to the next. -/
theorem Succeeds.leads (h : Succeeds k s t) : (traceLine s).Leads (traceLine t) := by
  have hword := h.listed.1
  refine ⟨h.known, fun hop => h.goes_on ?_, fun hop => h.branches ?_⟩
  · rw [← hword]
    exact hop
  · rw [← hword]
    exact hop

/-- The first line of a trace that ends with the line of the last state. -/
theorem Printed.first (h : Printed k s lines u) :
    ∃ later, lines ++ [traceLine u] = traceLine s :: later := by
  cases h with
  | done => exact ⟨[], rfl⟩
  | step _ rest => exact ⟨_, rfl⟩

/-- In the trace of any run of completed instructions every mnemonic is known, and behind a line
that does not transfer control comes the line that stands behind it. -/
theorem trace_follows_listing (h : Printed k s lines u) :
    (lines ++ [traceLine u]).IsChain TraceLine.Leads := by
  induction h with
  | done s => exact .singleton _
  | step h rest ih =>
    obtain ⟨later, hlater⟩ := rest.first
    rw [hlater] at ih
    rw [List.cons_append, hlater]
    exact .cons_cons h.leads ih

theorem callState_printed : Printed none (callState 0)
    [traceLine (callState 0), traceLine (callState 1), traceLine (callState 2),
      traceLine (callState 3), traceLine (callState 4), traceLine (callState 5),
      traceLine (callState 6), traceLine (callState 7)] (callState 8) :=
  .step (callState_succeeds 0) (.step (callState_succeeds 1) (.step (callState_succeeds 2)
    (.step (callState_succeeds 3) (.step (callState_succeeds 4) (.step (callState_succeeds 5)
      (.step (callState_succeeds 6) (.step (callState_succeeds 7) (.done _))))))))

theorem trace_follows_listing_call :
    ([traceLine (callState 0), traceLine (callState 1), traceLine (callState 2),
      traceLine (callState 3), traceLine (callState 4), traceLine (callState 5),
      traceLine (callState 6), traceLine (callState 7)] ++ [traceLine (callState 8)]).IsChain
        TraceLine.Leads :=
  trace_follows_listing callState_printed

/-- The addresses of `n` lines of a listing from `pc`, and of the line behind them. -/
def sweep (words : Words) : Nat → U32 → List U32
  | 0, pc => [pc]
  | n + 1, pc => pc :: sweep words n (behind words pc)

/-- Code without transfers runs through the addresses of its listing, as long as each of its
instructions is still as it was listed when it runs. -/
theorem straight_code_sweeps (h : Printed k s lines u) {words : Words}
    (hlines : ∀ e ∈ lines, isTransfer e.opcode = false ∧
      SameWords words e.words e.pc (lineAt words e.pc).len) :
    (lines ++ [traceLine u]).map TraceLine.pc = sweep words lines.length s.pc := by
  induction h with
  | done s => rfl
  | @step s t u lines h rest ih =>
    obtain ⟨hop, hsame⟩ := hlines _ List.mem_cons_self
    have hline : lineAt words s.pc = (traceLine s).line := lineAt_local hsame
    have hnext : t.pc = behind words s.pc := by
      rw [behind, hline]
      exact h.leads.next hop
    rw [List.cons_append, List.map_cons, List.length_cons, sweep, ← hnext,
      ih fun e he => hlines e (List.mem_cons_of_mem _ he)]
    rfl

/-- LINK does not touch the words of UNLK. -/
theorem callState_unchanged : SameWords (listingWords (callState 3)) (listingWords (callState 4))
    (callState 4).pc 4 := by
  have key : ∀ j : Fin 2, listingWords (callState 3) ((callState 4).pc + BitVec.ofNat 32 (2 * j)) =
      listingWords (callState 4) ((callState 4).pc + BitVec.ofNat 32 (2 * j)) := by decide +kernel
  exact fun j hj => key ⟨j, by omega⟩

/-- LINK A5,#0 and UNLK A5, as they are listed before the first of them runs. -/
theorem straight_code_sweeps_link :
    ([traceLine (callState 3), traceLine (callState 4)] ++ [traceLine (callState 5)]).map
      TraceLine.pc = sweep (listingWords (callState 3)) 2 (callState 3).pc := by
  have hrun : Printed none (callState 3) [traceLine (callState 3), traceLine (callState 4)]
      (callState 5) := .step (callState_succeeds 3) (.step (callState_succeeds 4) (.done _))
  refine straight_code_sweeps hrun fun e he => ?_
  rcases List.mem_cons.mp he with rfl | he
  · exact ⟨by decide +kernel, fun _ _ => rfl⟩
  · rw [List.mem_singleton.mp he]
    exact ⟨by decide +kernel, callState_unchanged.mono (by decide +kernel)⟩

/-! ## Calls -/

theorem plan_jsr (h : op &&& 0xFFC0 = 0x4E80) (c : Core) : plan op c = jmpPlan op := by
  have hne (v : U16) (hv : v &&& 0xFFC0 ≠ 0x4E80) : op ≠ v := eq_ne h hv
  have hline : lineOf op = 4 := lineOf_of_mask h
  unfold plan
  simp only [hline]
  show line4Plan op c = jmpPlan op
  rw [line4Plan, if_neg (hne _ (by decide)), if_neg (hne _ (by decide)),
    if_neg (hne _ (by decide)), if_neg (hne _ (by decide)), if_neg (hne _ (by decide)),
    if_neg (hne _ (by decide)), if_neg (hne _ (by decide)), if_neg (hne _ (by decide)),
    if_neg (not_or.mpr ⟨hne _ (by decide), hne _ (by decide)⟩),
    if_neg (mask_ne h (by decide)), if_neg (mask_ne h (by decide)),
    if_neg (mask_ne h (by decide)), if_pos h]

/-- A call pushes the address behind its line. -/
theorem returnAddress_listed (h : Succeeds k s t) (hop : isCall (opcodeAt s) = true) :
    returnAddress (opcodeAt s) s.pc = behind (listingWords s) s.pc := by
  rw [h.behind_eq, returnAddress]
  rcases isCall_cases hop with ⟨hline, hcond⟩ | hjsr
  · rw [if_pos hline, plan_branch hline, branchPlan_bytes]
    split <;> rfl
  · have hline : lineOf (opcodeAt s) ≠ 6 := by
      rw [lineOf_of_mask hjsr]
      decide
    rw [if_neg hline, plan_jsr hjsr, jmpPlan_bytes, Operand.ofNat_bytes]

/-- However deep the calls in it go, a routine returns to the line behind its call. -/
theorem calls_return_behind {top : Nat} {K : Fin 8 → Prop}
    (hopen : (discipline k top).opens .call s t) (inner : Nested (discipline k top) K t u)
    (hclose : (discipline k top).closes .call u v) :
    v.pc = behind (listingWords s) s.pc := by
  have hreturn := (call_balanced hopen (nested_balanced inner) hclose).2
  cases hopen with
  | call hop hstep _ => exact hreturn.trans (returnAddress_listed hstep hop)

theorem calls_return_behind_frame :
    (callState 8).pc = behind (listingWords (callState 0)) (callState 0).pc :=
  calls_return_behind callState_opens_call callState_frame callState_closes_call

end M68k
