import Rocket68.Logic.Retire
import Rocket68.Logic.Memory
import Rocket68.Logic.Decode

/-!
# What instructions do to their operands

The data accesses of an instruction are the reads of its operands from left to right and then
the writes to them. No byte of an operand is read twice, except by CLR. The operands move the
address registers, each by its own step.
-/

namespace M68k

open Trap TrapM

variable {σ : Type} {k : Option (Nat → M68kCpu σ → M68kCpu σ × U32)} {s u : M68kCpu σ}
  {c d : Core} {op : U16}

/-! ## Steps of address registers -/

/-- How far an operand moves an address register. -/
def Operand.movement (o : Operand) (q : Fin 8) : U32 :=
  match o.mode with
  | 3 => if q = o.reg then stepSize o.reg o.size else 0
  | 4 => if q = o.reg then -stepSize o.reg o.size else 0
  | _ => 0

theorem stepped_apply (o : Operand) (aRegs : Fin 8 → U32) (q : Fin 8) :
    o.stepped aRegs q = aRegs q + o.movement q := by
  obtain ⟨mode, reg, size⟩ := o
  have key : ∀ m : Fin 8, m = 3 ∨ m = 4 ∨ m = 0 ∨ m = 1 ∨ m = 2 ∨ m = 5 ∨ m = 6 ∨ m = 7 := by decide
  have hstep (v w : U32) (hv : v = aRegs reg + w) :
      Function.update aRegs reg v q = aRegs q + if q = reg then w else 0 := by
    by_cases hq : q = reg
    · rw [if_pos hq, hq, Function.update_self, hv]
    · rw [if_neg hq, Function.update_of_ne hq]
      exact (BitVec.add_zero _).symm
  rcases key mode with rfl | rfl | rfl | rfl | rfl | rfl | rfl | rfl
  · exact hstep _ _ rfl
  · exact hstep _ _ (BitVec.sub_eq_add_neg _ _)
  all_goals exact (BitVec.add_zero _).symm

/-- Operands from left to right add up their steps. -/
theorem resolveAll_aRegs (parts : List Part) (c : Core) (q : Fin 8) :
    (resolveAll parts c).aRegs q = c.aRegs q + (parts.map fun p => p.1.movement q).sum := by
  induction parts generalizing c with
  | nil => exact (BitVec.add_zero _).symm
  | cons p rest ih =>
    rw [resolveAll, ih, List.map_cons, List.sum_cons, ← BitVec.add_assoc]
    exact congrArg (· + _) (stepped_apply p.1 c.aRegs q)

theorem isOdd_add (a b : U32) : isOdd (a + b) = (isOdd a != isOdd b) := by
  have hsum : (a.toNat + b.toNat) % 2 ^ 32 % 2 = (a.toNat % 2 + b.toNat % 2) % 2 := by omega
  rw [isOdd_toNat, isOdd_toNat, isOdd_toNat, BitVec.toNat_add, hsum]
  rcases Nat.mod_two_eq_zero_or_one a.toNat with ha | ha <;>
    rcases Nat.mod_two_eq_zero_or_one b.toNat with hb | hb <;> rw [ha, hb] <;> rfl

/-- No operand moves the stack pointer by an odd distance. -/
theorem movement_even (o : Operand) : isOdd (o.movement 7) = false := by
  have key : ∀ (mode reg : Fin 8) (size : M68kSize),
      isOdd (Operand.movement ⟨mode, reg, size⟩ 7) = false := by
    intro mode reg size
    revert mode reg
    cases size <;> decide
  exact key o.mode o.reg o.size

theorem movements_even (parts : List Part) :
    isOdd (parts.map fun p => p.1.movement 7).sum = false := by
  induction parts with
  | nil => rfl
  | cons p rest ih =>
    rw [List.map_cons, List.sum_cons, isOdd_add, movement_even, ih]
    rfl

/-! ## The trace -/

/-- The reads of all operands. -/
def readsOf : List Part → Core → List (Access × M68kSize × U32)
  | [], _ => []
  | p :: rest, c =>
      (if p.1.inMemory then accessesAt .read (p.1.address c) p.2.reads else []) ++
        readsOf rest (p.resolve c)

theorem resolveAll_traffic (parts : List Part) (c : Core) :
    (resolveAll parts c).traffic = (readsOf parts c).reverse ++ c.traffic := by
  induction parts generalizing c with
  | nil => rfl
  | cons p rest ih =>
    rw [resolveAll, ih, readsOf, List.reverse_append, List.append_assoc]
    rfl

/-! ## Reads -/

/-- Two pieces of an operand without a byte in common. -/
def Apart (p q : M68kSize × U32) : Prop :=
  p.2.toNat + p.1.bytes.toNat ≤ q.2.toNat ∨ q.2.toNat + q.1.bytes.toNat ≤ p.2.toNat

instance (p q : M68kSize × U32) : Decidable (Apart p q) :=
  inferInstanceAs (Decidable (_ ∨ _))

/-- No byte of any operand is read twice. -/
def Plan.Once (p : Plan) : Prop := ∀ part ∈ p.parts, part.2.reads.Pairwise Apart

theorem predecReads_once (size : M68kSize) : (predecReads size).Pairwise Apart := by
  cases size <;> decide

theorem movepPieces_once (size : M68kSize) : (movepPieces size).Pairwise Apart := by
  cases size <;> decide

/-- The elements of MOVEM lie one behind the other. -/
theorem ascending_once (size : M68kSize) (n : Nat) (a : U32)
    (hfits : a.toNat + n * size.bytes.toNat < 2 ^ 32) : (ascending size n a).Pairwise Apart ∧
      ∀ p ∈ ascending size n a, a.toNat ≤ p.2.toNat := by
  induction n generalizing a with
  | zero => exact ⟨.nil, nofun⟩
  | succ n ih =>
    rw [Nat.succ_mul] at hfits
    have hnext : (a + size.bytes).toNat = a.toNat + size.bytes.toNat := by
      rw [BitVec.toNat_add]
      exact Nat.mod_eq_of_lt (by omega)
    obtain ⟨hrest, habove⟩ := ih (a + size.bytes) (by omega)
    rw [ascending]
    refine ⟨List.pairwise_cons.mpr ⟨fun p hp => .inl ?_, hrest⟩, fun p hp => ?_⟩
    · have := habove p hp
      show a.toNat + size.bytes.toNat ≤ p.2.toNat
      omega
    · rcases List.mem_cons.mp hp with rfl | hp
      · exact Nat.le_refl _
      · have := habove p hp
        omega

namespace Plan.Once

variable {p q : Plan} {b : Prop} [Decidable b]

theorem choose (hp : b → p.Once) (hq : ¬b → q.Once) : (if b then p else q).Once := by
  split
  · next h => exact hp h
  · next h => exact hq h

theorem nil {size : Option M68kSize} {written : List (Fin 8)} {sequential : Bool} :
    (Plan.mk [] size written sequential).Once := nofun

theorem cons {part : Part} {parts : List Part} {size : Option M68kSize} {written : List (Fin 8)}
    {sequential : Bool} (h : part.2.reads.Pairwise Apart)
    (hrest : (Plan.mk parts size written sequential).Once) :
    (Plan.mk (part :: parts) size written sequential).Once :=
  List.forall_mem_cons.mpr ⟨h, hrest⟩

/-- An operand that is not read. -/
theorem unread {part : Part} {parts : List Part} {size : Option M68kSize} {written : List (Fin 8)}
    {sequential : Bool} (h : part.2.reads = [])
    (hrest : (Plan.mk parts size written sequential).Once) :
    (Plan.mk (part :: parts) size written sequential).Once :=
  .cons (h ▸ .nil) hrest

/-- An operand that is read in one access. -/
theorem whole {part : Part} {parts : List Part} {size : Option M68kSize} {written : List (Fin 8)}
    {sequential : Bool} {z : M68kSize} (h : part.2.reads = [(z, 0)])
    (hrest : (Plan.mk parts size written sequential).Once) :
    (Plan.mk (part :: parts) size written sequential).Once :=
  .cons (h ▸ List.pairwise_singleton _ _) hrest

theorem withSize {p : M68kSize → Plan} (h : ∀ size, (p size).Once) :
    (M68k.withSize op p).Once := by
  unfold M68k.withSize
  split
  · exact .nil
  · exact h _

end Plan.Once

theorem unaryPlan_once {use : M68kSize → Use} (h : ∀ size, (use size).reads = [(size, 0)]) :
    (unaryPlan use op).Once := .withSize fun size => .whole (h size) .nil

theorem immediatePlan_once : (immediatePlan op).Once :=
  .withSize fun _ => .unread rfl (.whole rfl .nil)

theorem logicPlan_once {ccr status : U16} : (logicPlan ccr status op).Once :=
  .choose (fun _ => .unread rfl .nil) fun _ => .choose (fun _ => .unread rfl .nil)
    fun _ => immediatePlan_once

theorem bitsPlan_once : (bitsPlan op).Once := by
  have hbit (use : Use) (h : use.reads = [(.byte, 0)]) : (bitPlan use op).Once :=
    .choose (fun _ => .whole h .nil) fun _ => .unread rfl (.whole h .nil)
  unfold bitsPlan
  split
  · exact hbit _ rfl
  · exact hbit _ rfl

theorem movepPlan_once : (movepPlan op).Once := by
  unfold movepPlan
  split
  · exact .cons (movepPieces_once .word) .nil
  · exact .cons (movepPieces_once .long) .nil
  · exact .unread rfl .nil
  · exact .unread rfl .nil
  · exact .unread rfl .nil

theorem movesPlan_once : (movesPlan op c).Once :=
  .withSize fun _ => .choose (fun _ => .unread rfl (.unread rfl .nil)) fun _ =>
    .choose (fun _ => .unread rfl (.whole rfl .nil)) fun _ => .unread rfl (.whole rfl .nil)

theorem line0Plan_once : (line0Plan op c).Once :=
  .choose (fun _ => .nil) fun _ => .choose (fun _ => movesPlan_once) fun _ =>
    .choose (fun _ => logicPlan_once) fun _ => .choose (fun _ => logicPlan_once) fun _ =>
    .choose (fun _ => immediatePlan_once) fun _ => .choose (fun _ => immediatePlan_once) fun _ =>
    .choose (fun _ => logicPlan_once) fun _ =>
    .choose (fun _ => .withSize fun _ => .unread rfl (.whole rfl .nil)) fun _ =>
    .choose (fun _ => bitsPlan_once) fun _ => .choose (fun _ => movepPlan_once)
      fun _ => bitsPlan_once

theorem movePlan_once : (movePlan op).Once := by
  unfold movePlan
  split
  · exact .nil
  · exact .whole rfl (.unread rfl .nil)

theorem movemPlan_once : (movemPlan op c).Once := by
  have hcount : movemCount c.word ≤ 16 :=
    Nat.le_trans (List.length_filter_le _ _) (by rw [List.length_finRange])
  have hbytes : (movemSize op).bytes.toNat ≤ 4 := by cases movemSize op <;> decide
  have hspan : movemCount c.word * (movemSize op).bytes.toNat ≤ 16 * 4 :=
    Nat.mul_le_mul hcount hbytes
  refine .unread rfl (.cons ?_ .nil)
  show (movemUse op c.word).reads.Pairwise Apart
  unfold movemUse
  split
  · exact (ascending_once _ _ 0 (by
      show 0 + _ < _
      omega)).1
  · split
    · exact .nil
    · exact .nil

theorem moveSrPlan_once : (moveSrPlan op).Once :=
  .choose (fun _ => .whole rfl .nil) fun _ => .choose (fun _ => .whole rfl .nil) fun _ =>
    .choose (fun _ => .whole rfl .nil) fun _ => .nil

/-- CLR with a size. -/
def isClr (op : U16) : Bool := op &&& 0xFF00 == 0x4200 && (sizeOf? (sizeBits op)).isSome

theorem unsized_once {use : M68kSize → Use} (h : op &&& 0xFF00 = 0x4200) (hclr : isClr op = false) :
    (unaryPlan use op).Once := by
  have hsize : sizeOf? (sizeBits op) = none := by
    rw [isClr, h, Bool.and_eq_false_iff] at hclr
    exact Option.not_isSome_iff_eq_none.mp (by simpa using hclr)
  rw [unaryPlan, withSize, hsize]
  exact .nil

theorem line4RestPlan_once (hclr : isClr op = false) : (line4RestPlan op c).Once := by
  refine .choose (fun _ => .choose (fun _ => .nil) fun _ => movemPlan_once) fun _ =>
    .choose (fun _ => .unread rfl (.unread rfl .nil)) fun _ =>
    .choose (fun _ => .whole rfl .nil) fun _ => .choose (fun _ => .whole rfl .nil) fun _ =>
    .choose (fun _ => .whole rfl .nil) fun _ => ?_
  refine .choose (fun _ => .choose (fun _ => .nil) fun _ => .unread rfl (.unread rfl .nil)) fun _ =>
    .choose (fun _ => unaryPlan_once fun _ => rfl) fun _ =>
    .choose (fun _ => unaryPlan_once fun _ => rfl) fun _ =>
      .choose (fun _ => moveSrPlan_once) fun _ =>
    .choose (fun h => unsized_once h hclr) fun _ =>
      .choose (fun _ => unaryPlan_once fun _ => rfl) fun _ =>
    .choose (fun _ => unaryPlan_once fun _ => rfl) fun _ => .nil

/-- The three pieces of the frame RTE reads on the 68010. -/
theorem rtePlan_once : (rtePlan c).Once :=
  .choose (fun _ => .cons (by decide) .nil) fun _ => .whole rfl (.whole rfl .nil)

theorem jmpPlan_once : (jmpPlan op).Once := by
  refine .unread rfl ?_
  show (Plan.mk (if !op.getLsbD 6 then [pushPart] else []) _ _ _).Once
  split
  · exact .unread rfl .nil
  · exact .nil

theorem line4Plan_once (hclr : isClr op = false) : (line4Plan op c).Once := by
  refine .choose (fun _ => .nil) fun _ => .choose (fun _ => .nil) fun _ =>
    .choose (fun _ => .unread rfl .nil) fun _ => .choose (fun _ => rtePlan_once) fun _ =>
    .choose (fun _ => .whole rfl .nil) fun _ => .choose (fun _ => .nil) fun _ =>
    .choose (fun _ => .whole rfl (.whole rfl .nil)) fun _ =>
    .choose (fun _ => .whole rfl (.unread rfl .nil)) fun _ => ?_
  refine .choose (fun _ => .unread rfl .nil) fun _ => .choose (fun _ => .nil) fun _ =>
    .choose (fun _ => .nil) fun _ =>
      .choose (fun _ => .choose (fun _ => .nil) fun _ => .nil) fun _ =>
    .choose (fun _ => jmpPlan_once) fun _ => .choose (fun _ => jmpPlan_once) fun _ => ?_
  exact .choose (fun _ => moveSrPlan_once) fun _ => .choose (fun _ => .whole rfl .nil) fun _ =>
    .choose (fun _ => moveSrPlan_once) fun _ => .choose (fun _ => .whole rfl .nil) fun _ =>
    .choose (fun _ => .unread rfl .nil) fun _ => line4RestPlan_once hclr

theorem branchPlan_once : (branchPlan op).Once := by
  intro part hpart
  rcases List.mem_append.mp hpart with h | h
  · split at h
    · exact List.mem_singleton.mp h ▸ .nil
    · cases h
  · split at h
    · exact List.mem_singleton.mp h ▸ .nil
    · cases h

theorem line5Plan_once : (line5Plan op).Once :=
  .choose (fun _ => .choose (fun _ => .unread rfl .nil) fun _ => .unread rfl .nil) fun _ =>
    .withSize fun _ => .choose (fun _ => .nil) fun _ => .whole rfl .nil

theorem bcdPlan_once : (bcdPlan op).Once :=
  .choose (fun _ => .whole rfl (.whole rfl .nil)) fun _ => .nil

theorem andOrPlan_once : (andOrPlan op).Once :=
  .choose (fun _ => .nil) fun _ => .choose (fun _ => .whole rfl .nil) fun _ => .whole rfl .nil

theorem line8Plan_once : (line8Plan op).Once :=
  .choose (fun _ => .whole rfl .nil) fun _ =>
    .choose (fun _ => bcdPlan_once) fun _ => andOrPlan_once

theorem lineAddSubPlan_once : (lineAddSubPlan op).Once := by
  refine .choose (fun _ => .withSize fun size => .choose (fun _ => ?_) fun _ => .nil) fun _ =>
    .choose (fun _ => .whole rfl .nil) fun _ => .choose (fun _ => .whole rfl .nil) fun _ =>
      .whole rfl .nil
  exact .cons (predecReads_once size) (.cons (predecReads_once size) .nil)

theorem lineBPlan_once : (lineBPlan op).Once :=
  .choose (fun _ => .choose (fun _ => .nil) fun _ => .whole rfl .nil) fun _ =>
    .choose (fun _ => .whole rfl (.whole rfl .nil)) fun _ => .whole rfl .nil

theorem lineCPlan_once : (lineCPlan op).Once :=
  .choose (fun _ => .whole rfl .nil) fun _ => .choose (fun _ => bcdPlan_once) fun _ =>
    .choose (fun _ => .nil) fun _ => andOrPlan_once

theorem shiftPlan_once : (shiftPlan op).Once :=
  .choose (fun _ => .whole rfl .nil) fun _ => .nil

/-- Apart from CLR, instructions are meant to read no byte of an operand twice. -/
theorem plan_once (hclr : isClr op = false) : (plan op c).Once := by
  unfold plan
  split
  · exact line0Plan_once
  · exact movePlan_once
  · exact movePlan_once
  · exact movePlan_once
  · exact line4Plan_once hclr
  · exact line5Plan_once
  · exact branchPlan_once
  · exact .nil
  · exact line8Plan_once
  · exact lineAddSubPlan_once
  · exact lineBPlan_once
  · exact lineCPlan_once
  · exact lineAddSubPlan_once
  · exact shiftPlan_once
  · exact .nil

/-! ## Completed instructions -/

/-- An address register that an instruction does not write itself has moved by the steps of the
operands it belongs to. -/
theorem address_register_steps (h : Succeeds k s u) {q : Fin 8}
    (hq : q ∉ (plan (opcodeAt s) (entryCore s)).written) :
    u.aRegs q = s.aRegs q +
      ((plan (opcodeAt s) (entryCore s)).parts.map fun p => p.1.movement q).sum :=
  (h.effect.aRegs q hq).trans (resolveAll_aRegs _ _ q)

/-- CMPM.B (A7)+,(A7)+: both operands step the stack pointer, by 2 each. -/
def compareBytes : M68kCpu Unit :=
  { init (fun a => if a = 0x100 then 0xBF else if a = 0x101 then 0x0F else 0) 0x1000 () with
    sr := 0x2700
    aRegs := fun _ => 0x200
    pc := 0x100 }

theorem address_register_steps_cmpm : ∃ u, step (ackHost none) compareBytes = .ok () u ∧
    u.aRegs 7 = 0x200 + 4 := by
  obtain ⟨u, hu, -⟩ := Succeeds.of_exec? (s := compareBytes) (k := none)
    (f := fun u => u.aRegs 7) (b := 0x204) (by decide +kernel) rfl rfl
  have hsteps := address_register_steps hu (q := 7) (by decide)
  have hsum : ((plan (opcodeAt compareBytes) (entryCore compareBytes)).parts.map
      fun p => p.1.movement 7).sum = 4 := by decide
  rw [hsum] at hsteps
  exact ⟨u, hu.runs, hsteps⟩

/-- The operands of an instruction leave an even stack pointer even. -/
theorem stack_stays_even (h : Succeeds k s u)
    (hq : 7 ∉ (plan (opcodeAt s) (entryCore s)).written) (heven : isOdd (s.aRegs 7) = false) :
    isOdd (u.aRegs 7) = false := by
  have hsteps := (h.effect.aRegs 7 hq).trans (resolveAll_aRegs _ _ 7)
  have hentry : (entryCore s).aRegs 7 = s.aRegs 7 := rfl
  rw [show u.aRegs 7 = (core u).aRegs 7 from rfl, hsteps, isOdd_add, movements_even, hentry, heven]
  rfl

theorem stack_stays_even_cmpm : ∃ u, step (ackHost none) compareBytes = .ok () u ∧
    isOdd (u.aRegs 7) = false := by
  obtain ⟨u, hu, -⟩ := Succeeds.of_exec? (s := compareBytes) (k := none)
    (f := fun u => u.aRegs 7) (b := 0x204) (by decide +kernel) rfl rfl
  exact ⟨u, hu.runs, stack_stays_even hu (by decide) rfl⟩

/-- The data accesses of an instruction are the reads of its operands, from left to right, and
then the writes to them. -/
theorem operands_traced (h : Succeeds k s u) :
    (u.log.filterMap Event.data?).reverse =
      readsOf (plan (opcodeAt s) (entryCore s)).parts (entryCore s) ++
        storesOf (plan (opcodeAt s) (entryCore s)).parts (entryCore s) := by
  have htraffic := h.effect.traffic
  rw [resolveAll_traffic] at htraffic
  have hentry : (entryCore s).traffic = [] := rfl
  rw [show u.log.filterMap Event.data? = (core u).traffic from rfl, htraffic, hentry,
    List.append_nil, List.reverse_append, List.reverse_reverse, List.reverse_reverse]

/-- The reads of the operands, then the writes; no byte is read twice, except by CLR. -/
theorem operands_read_once (h : Succeeds k s u) (hclr : isClr (opcodeAt s) = false) :
    (u.log.filterMap Event.data?).reverse =
        readsOf (plan (opcodeAt s) (entryCore s)).parts (entryCore s) ++
          storesOf (plan (opcodeAt s) (entryCore s)).parts (entryCore s) ∧
      ∀ part ∈ (plan (opcodeAt s) (entryCore s)).parts, part.2.reads.Pairwise Apart :=
  ⟨operands_traced h, plan_once hclr⟩

/-- MOVE.W (A0)+,(A0)+. -/
def moveWords : M68kCpu Unit :=
  { init (fun a => if a = 0x100 then 0x30 else if a = 0x101 then 0xD8 else 0) 0x1000 () with
    sr := 0x2700
    aRegs := fun _ => 0x200
    pc := 0x100 }

theorem operands_read_once_move : ∃ u, step (ackHost none) moveWords = .ok () u ∧
    (u.log.filterMap Event.data?).reverse = [(.read, .word, 0x200), (.write, .word, 0x202)] := by
  obtain ⟨u, hu, -⟩ := Succeeds.of_exec? (s := moveWords) (k := none) (f := fun u => u.aRegs 0)
    (b := 0x204) (by decide +kernel) rfl rfl
  refine ⟨u, hu.runs, (operands_read_once hu (by decide)).1.trans ?_⟩
  decide

/-- CLR reads its operand in memory twice before it clears it. -/
theorem clr_reads_twice {size : M68kSize} (h : Succeeds k s u)
    (hop : opcodeAt s &&& 0xFF00 = 0x4200) (hsize : sizeOf? (sizeBits (opcodeAt s)) = some size)
    (hmemory : (eaField (opcodeAt s) size).inMemory = true) :
    (u.log.filterMap Event.data?).reverse =
      let address := (eaField (opcodeAt s) size).address (entryCore s)
      [(.read, size, address), (.read, size, address), (.write, size, address)] := by
  obtain ⟨t, ht, hcore⟩ := h.retires
  have hrun := dispatch_clr (σ := σ) hop hsize
  obtain ⟨_, heffect⟩ := ht.yields (hrun ▸ (execClr_planned (opcodeAt s)).costed)
  have hplan : unaryPlan clrUse (opcodeAt s) =
      { parts := [(eaField (opcodeAt s) size, clrUse size)], size := some size } := by
    rw [unaryPlan, withSize, hsize]
  have htraffic := heffect.traffic
  rw [hplan, ← hcore] at htraffic
  rw [show u.log.filterMap Event.data? = (core u).traffic from rfl, htraffic]
  simp [storesOf, resolveAll, Part.stores, Part.resolve, hmemory, accessesAt, clrUse, entryCore]

/-- CLR.W (A0). -/
def clearWord : M68kCpu Unit :=
  { init (fun a => if a = 0x100 then 0x42 else if a = 0x101 then 0x50 else 0) 0x1000 () with
    sr := 0x2700
    aRegs := fun _ => 0x200
    pc := 0x100 }

theorem clr_reads_twice_word : ∃ u, step (ackHost none) clearWord = .ok () u ∧
    (u.log.filterMap Event.data?).reverse =
      [(.read, .word, 0x200), (.read, .word, 0x200), (.write, .word, 0x200)] := by
  obtain ⟨u, hu, -⟩ := Succeeds.of_exec? (s := clearWord) (k := none) (f := fun u => u.pc)
    (b := 0x102) (by decide +kernel) rfl rfl
  have hsize : sizeOf? (sizeBits (opcodeAt clearWord)) = some .word := by decide
  exact ⟨u, hu.runs, clr_reads_twice hu (by decide) hsize (by decide)⟩

/-- MOVEM moves its base register by the bytes of its list, also if the list names the base; in
the other modes the base is what a load of it makes it. -/
theorem movem_base_steps (h : Succeeds k s u) (hmovem : isMovem (opcodeAt s) = true) :
    MovemBase (opcodeAt s) (entryCore s) (core u) := by
  simp only [isMovem, Bool.and_eq_true, beq_iff_eq, bne_iff_ne] at hmovem
  obtain ⟨t, ht, hcore⟩ := h.retires
  have hrun := dispatch_movem (σ := σ) hmovem.1 hmovem.2
  obtain ⟨_, hyields⟩ := ht.yields (hrun ▸ costed_yields (execMovem_yields (opcodeAt s)))
  rw [hcore]
  exact hyields.2

/-- MOVEM.L (A0)+,D0/A0. -/
def loadBase : M68kCpu Unit :=
  { init (fun a => if a = 0x100 then 0x4C else if a = 0x101 then 0xD8 else if a = 0x102 then 1
      else if a = 0x103 then 1 else 0) 0x1000 () with
    sr := 0x2700
    aRegs := fun _ => 0x200
    pc := 0x100 }

theorem movem_base_steps_load : ∃ u, step (ackHost none) loadBase = .ok () u ∧
    u.aRegs 0 = 0x208 := by
  obtain ⟨u, hu, -⟩ := Succeeds.of_exec? (s := loadBase) (k := none) (f := fun u => u.pc)
    (b := 0x104) (by decide +kernel) rfl rfl
  refine ⟨u, hu.runs, ((movem_base_steps hu (by decide)).postinc (by decide)).trans ?_⟩
  decide

end M68k
