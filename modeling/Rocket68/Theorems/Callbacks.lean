import Rocket68.Logic.Mirror
import Rocket68.Logic.Capture
import Rocket68.Theorems.Boundary
import Rocket68.Theorems.Commit

/-!
# Callbacks simulate flat memory

A machine on flat memory of an even number of bytes and one whose host keeps the same
bytes behind callbacks run alike, step for step, as long as the flat one takes no bus
error. All that looks at memory without accessing it is the prefetch peek and the check
of a branch target; these are where the two differ.
-/

namespace M68k

open Trap TrapM

variable {α : Type} {size : U32} {memory : U32 → U8} {memorySize : U32} {fact : Prop}
  {s t u : M68kCpu (U32 → U8)}

/-! ## Looks at memory -/

/-- The check of a branch target passes behind callbacks; where it fails on flat memory,
a bus error follows or the check does not matter. -/
theorem targetCheck_mirrors {target : U32} {f : Bool → M (U32 → U8) α}
    (hfalse : Together (mirrorPair size) (Mirrors size memory memorySize fact) (f false))
    (htrue : f true = f false ∨
      ∀ s, (f true (mirrorPair size).left s).Ends (mirrorPair size).lost) :
    Together (mirrorPair size) (Mirrors size memory memorySize fact)
      (isUnmappedTarget target >>= f) := by
  have hleft (s : M68kCpu (U32 → U8)) : (isUnmappedTarget target >>= f) (mirrorPair size).left s =
      f (!mapped s .word target) (mirrorPair size).left s :=
    bind_ok (isUnmappedTarget_run (k := none) target s)
  have hright (t : M68kCpu (U32 → U8)) :
      (isUnmappedTarget target >>= f) (mirrorPair size).right t =
        f false (mirrorPair size).right t := rfl
  constructor
  · intro s hs
    rw [hleft]
    cases mapped s .word target with
    | true => exact hfalse.stays s hs
    | false =>
      rcases htrue with heq | hends
      · rw [Bool.not_false, heq]
        exact hfalse.stays s hs
      · exact hends s
  · intro s t h
    rw [hleft, hright]
    cases mapped s .word target with
    | true => exact hfalse.runs s t h
    | false =>
      rcases htrue with heq | hends
      · rw [Bool.not_false, heq]
        exact hfalse.runs s t h
      · exact .lost (hends s)

/-- A bus error at a target, and what is charged after it. -/
theorem busTarget_lost (target faultPc : U32) {f : Unit → M (U32 → U8) α}
    (hf : ∀ a s, (mirrorPair size).lost s →
      (f a (mirrorPair size).left s).Ends (mirrorPair size).lost) (s : M68kCpu (U32 → U8)) :
    ((raiseBusTargetFault target faultPc >>= f) (mirrorPair size).left s).Ends
      (mirrorPair size).lost := by
  have L : Lockstep (mirrorPair size) (Mirrors size (fun _ => 0) 0 True) := mirrors_lockstep
  exact ends_bind (L.busTarget_ends (L.raises 3) enter_lost target faultPc s) hf

/-- An even word of an even number of bytes lies inside or outside. -/
theorem wordAt_outside {a : U32} (hsize : s.memorySize.toNat % 2 = 0) (ha : isOdd a = false)
    (h : mapped s .word a = false) :
    wordAt (bytesWithin s.memorySize s.memory) (maskAddress24 a) = 0 := by
  have heven := mask_even ha
  have hlt := mask_lt a
  have hone : (1 : U32).toNat = 1 := rfl
  simp only [mapped, isValidAddress, Bool.and_eq_false_iff, decide_eq_false_iff_not, BitVec.lt_def,
    BitVec.toNat_add, hone] at h
  have hfirst : ¬maskAddress24 a < s.memorySize := by
    rw [BitVec.lt_def]
    omega
  have hsecond : ¬maskAddress24 a + 1 < s.memorySize := by
    rw [BitVec.lt_def, BitVec.toNat_add, hone]
    omega
  rw [wordAt, bytesWithin, bytesWithin, if_neg hfirst, if_neg hsecond]
  rfl

theorem peekWord_mirrors (hsize : size.toNat % 2 = 0) {a : U32} (ha : fact → isOdd a = false) :
    Together (mirrorPair size) (Mirrors size memory memorySize fact) (peekWord a) := by
  have hleft (s : M68kCpu (U32 → U8)) : peekWord a (mirrorPair size).left s = .ok (peeked s a) s :=
    peekWord_peeks (k := none) a s
  constructor
  · intro s hs
    rw [hleft]
    exact hs
  · intro s t h
    have hvalue : wordAt (bytesWithin size t.host) (maskAddress24 a) = peeked s a := by
      obtain ⟨rfl, rfl, -, hfact⟩ := h
      unfold peeked
      by_cases hmap : mapped s .word a = true
      · rw [if_pos hmap]
        exact wordAt_within hmap
      · rw [if_neg hmap]
        exact wordAt_outside hsize (ha hfact) (by simpa using hmap)
    have hright : peekWord a (mirrorPair size).right t = .ok (peeked s a) t := by
      rw [← hvalue]
      rfl
    rw [hleft, hright]
    exact .ok h

/-! ## Branches and jumps -/

/-- A grade for what is neither decoded nor branched to. -/
def Grade.unpeeking (relative : Bool) : Grade where
  supervisor := true
  interleaved := false
  illegal := true
  trap := false
  usp := false
  stack := false
  refunds := false
  marks := false
  peeks := false
  relative := relative
  inside := false

instance (relative : Bool) : Outside (Grade.unpeeking relative) := ⟨rfl⟩

theorem writes_unpeeking (relative : Bool) (r : Fin 8) : (Grade.unpeeking relative).Writes r :=
  Grade.writes_supervisor rfl r

theorem operand_unpeeking (opcode : U16) :
    (Grade.unpeeking (isRelative opcode)).Operand (field opcode 3) (field opcode 0) :=
  .of_supervisor rfl rfl

section

variable (L : Lockstep (mirrorPair size) (Mirrors size memory memorySize fact))
include L

theorem execBsr_mirrors (target : U32) :
    Together (mirrorPair size) (Mirrors size memory memorySize fact) (execBsr target) := by
  refine .bind (L.visible visible_pc) fun _ => .bind (L.push32 (L.raises 3) _) fun _ =>
    .ite (fun _ => ?_) fun _ => ?_
  · exact .bind (L.raiseOddTargetFault _ _) fun _ => L.modify (.charge _)
  · refine targetCheck_mirrors ?_ (.inr ?_)
    · exact .bind (L.setPc _) fun _ => L.modify (.charge _)
    · exact busTarget_lost _ _ fun _ t ht => (L.modify (.charge 18)).stays t ht

theorem takeBranch_mirrors (target : U32) :
    Together (mirrorPair size) (Mirrors size memory memorySize fact) (takeBranch target) := by
  refine targetCheck_mirrors ?_ ?_
  · exact .bind (L.setPc _) fun _ => L.modify (.charge _)
  · -- An odd target is left to the exit of the step.
    rcases Bool.eq_false_or_eq_true (isOdd target) with hodd | heven
    · left
      rw [hodd]
      rfl
    · right
      intro s
      rw [heven]
      exact busTarget_lost _ _ (fun _ t ht => (L.modify (.charge 10)).stays t ht) _

theorem execBcc_mirrors (opcode : U16) :
    Together (mirrorPair size) (Mirrors size memory memorySize fact) (execBcc opcode) := by
  have hdisp : Together (mirrorPair size) (Mirrors size memory memorySize fact)
      (branchDisplacement opcode) :=
    .ite (fun _ => .bind (L.fetch (L.raises 3)) fun _ => simulates_pure _) fun _ => simulates_pure _
  exact .bind hdisp fun _ => .bind (L.visible visible_pc) fun _ =>
    .ite (fun _ => execBsr_mirrors L _) fun _ => .bind (L.visible visible_sr) fun _ =>
      .ite (fun _ => takeBranch_mirrors L _) fun _ => L.modify (.charge _)

theorem dbccLoop_mirrors (reg : Fin 8) (counter target : U32) :
    Together (mirrorPair size) (Mirrors size memory memorySize fact)
      (dbccLoop reg counter target) := by
  refine .ite (fun _ => ?_) fun _ => ?_
  · exact .bind (L.modify (.charge _)) fun _ => .bind (L.visible visible_pc) fun _ =>
      L.raiseOddTargetFault _ _
  · refine targetCheck_mirrors ?_ (.inr fun s => ?_)
    · exact .bind (L.modify (.setD _ _)) fun _ => .bind (L.modify (.charge _)) fun _ => L.setPc _
    · exact L.busTarget_ends (L.raises 3) enter_lost _ _ _

theorem execDbcc_mirrors (opcode : U16) :
    Together (mirrorPair size) (Mirrors size memory memorySize fact) (execDbcc opcode) := by
  refine .bind (L.fetch (L.raises 3)) fun _ => .bind (L.visible visible_sr) fun _ =>
    .ite (fun _ => L.modify (.charge _)) fun _ => .bind (L.visible (visible_dRegs _)) fun _ =>
      .ite (fun _ => ?_) fun _ => ?_
  · exact .bind (L.visible visible_pc) fun _ => dbccLoop_mirrors L _ _ _
  · exact .bind (L.modify (.setD _ _)) fun _ => L.modify (.charge _)

theorem jumpSubroutine_mirrors (target : U32) :
    Together (mirrorPair size) (Mirrors size memory memorySize fact) (jumpSubroutine target) := by
  refine .ite (fun _ => ?_) fun _ => ?_
  · exact .bind (L.visible visible_pc) fun _ => L.raiseOddTargetFault _ _
  · refine targetCheck_mirrors ?_ (.inr fun s => ?_)
    · exact .bind (L.visible visible_pc) fun _ => .bind (L.push32 (L.raises 3) _) fun _ => L.setPc _
    · exact L.busTarget_ends (L.raises 3) enter_lost _ _ _

theorem jump_mirrors (target : U32) :
    Together (mirrorPair size) (Mirrors size memory memorySize fact) (jump target) := by
  refine targetCheck_mirrors ?_ ?_
  · rw [Bool.and_false]
    exact L.setPc _
  · rcases Bool.eq_false_or_eq_true (isOdd target) with hodd | heven
    · left
      rw [hodd]
      rfl
    · right
      intro s
      rw [heven]
      exact L.busTarget_ends (L.raises 3) enter_lost _ _ _

theorem execJmp_mirrors (opcode : U16) :
    Together (mirrorPair size) (Mirrors size memory memorySize fact) (execJmp opcode) := by
  have hea := Micro.calcEaCtl (σ := U32 → U8) (g := Grade.unpeeking false) (field opcode 3)
    (field opcode 0) true fun _ => rfl
  exact .bind (L.micro hea rfl nofun) fun _ => .ite (fun _ => jumpSubroutine_mirrors L _)
    fun _ => jump_mirrors L _

theorem lineJsr_mirrors (opcode : U16) :
    Together (mirrorPair size) (Mirrors size memory memorySize fact) (lineJsr opcode) :=
  .bind (execJmp_mirrors L opcode) fun _ => .bind (L.visible visible_exceptionThrown) fun _ =>
    simulates_pure _

end

/-! ## Peeks at the next prefetch -/

theorem Mirrors.forget (h : Mirrors size memory memorySize fact s t) :
    Mirrors size memory memorySize True s t := ⟨h.image, h.size, h.guard, trivial⟩

theorem Mirrors.pc (h : Mirrors size memory memorySize fact s t) : t.pc = s.pc := by
  rw [h.image]
  rfl

/-- A program that relies on the parity of the PC it starts from. -/
theorem getPc_mirrors {P : M68kCpu (U32 → U8) → M68kCpu (U32 → U8) → Prop}
    {f : U32 → M (U32 → U8) α}
    (hP : ∀ s t, P s t → Mirrors size memory memorySize True s t ∧ isOdd s.pc = false)
    (hf : ∀ p, Together (mirrorPair size)
    (Mirrors size memory memorySize (isOdd p = false)) (f p)) :
    Simulates (mirrorPair size) P (Mirrors size memory memorySize True)
      (Mirrors size memory memorySize True) (getPc >>= f) (getPc >>= f) := by
  refine simulates_gets_bind (fun s t h => (hP s t h).1.pc) fun p => ?_
  refine (hf p).mono ?_ (fun _ _ h => h.forget) fun _ _ h => h.forget
  rintro s t ⟨h, rfl⟩
  obtain ⟨hm, heven⟩ := hP s t h
  exact ⟨hm.image, hm.size, hm.guard, heven⟩

theorem staticBit_mirrors (hsize : size.toNat % 2 = 0) (opcode : U16) :
    Simulates (mirrorPair size)
      (fun s t => Mirrors size memory memorySize True s t ∧ isOdd s.pc = false)
      (Mirrors size memory memorySize True) (Mirrors size memory memorySize True)
      (staticBit opcode) (staticBit opcode) := by
  have hbit (fact : Prop) : Together (mirrorPair size) (Mirrors size memory memorySize fact)
      (execBit opcode) := by
    have hmicro : Micro (Grade.unpeeking (isRelative opcode)) .decode .finished
        (execBit opcode : M (U32 → U8) Unit) :=
      .execBit (operand_unpeeking opcode) fun _ => rfl
    exact mirrors_lockstep.micro hmicro rfl nofun
  refine .ite (fun _ => getPc_mirrors (fun _ _ h => h) fun p => ?_) fun _ => ?_
  · exact .bind (peekWord_mirrors hsize id) fun _ => .bind (simulates_pure _) fun _ =>
      .bind (hbit _) fun _ => simulates_pure _
  · have hplain (cycles : Int) : Together (mirrorPair size) (Mirrors size memory memorySize True)
        (costed (execBit opcode) cycles) := .bind (hbit True) fun _ => simulates_pure _
    exact (Simulates.bind (simulates_pure (0 : Int)) fun _ => hplain _).mono (fun _ _ h => h.1)
      (fun _ _ h => h) fun _ _ h => h

/-- The store of a byte or word MOVE to `-(An)`. -/
theorem moveToMemory_mirrors (hsize : size.toNat % 2 = 0) (destReg srcMode srcReg : Fin 8)
    {width : M68kSize} (hwidth : width ≠ .long) (dest : MoveDest) (value p : U32) :
    Together (mirrorPair size) (Mirrors size memory memorySize (isOdd p = false))
      (moveToMemory 4 destReg srcMode srcReg width dest value p) := by
  have L : Lockstep (mirrorPair size) (Mirrors size memory memorySize (isOdd p = false)) :=
    mirrors_lockstep
  have hcommit : Together (mirrorPair size) (Mirrors size memory memorySize (isOdd p = false))
      (commitMove destReg dest.commit) := by
    cases dest.commit with
    | none => exact simulates_pure _
    | some v => exact L.modify (.setA _ _)
  have hwrite : Together (mirrorPair size) (Mirrors size memory memorySize (isOdd p = false))
      (writeSize dest.ea.address value width) := by
    cases width with
    | byte => exact L.write8 (L.raises 3) _ _
    | word => exact L.write16 (L.raises 3) _ _
    | long => exact absurd rfl hwidth
  have hstore : Together (mirrorPair size) (Mirrors size memory memorySize (isOdd p = false)) (do
      writeSize dest.ea.address value width
      charge (moveRefund 4 destReg (srcRegImm srcMode srcReg) width)
      dropBusWord
      commitMove destReg dest.commit
      if width = .long then
        setCcr (moveFlags width value)) :=
    .bind hwrite fun _ => .bind (L.modify (.charge _)) fun _ => .bind (L.modify .dropBusWord)
      fun _ => .bind hcommit fun _ => .ite (fun h => absurd h hwidth) fun _ => simulates_pure _
  refine .bind (L.modify (.latchFaultPc _)) fun _ => .ite (fun h => absurd h hwidth) fun _ => ?_
  refine .bind (L.setCcr _) fun _ => .bind (L.modify (.charge _)) fun _ =>
    .ite (fun h => absurd h.2 hwidth) fun _ => .ite (fun _ => ?_) fun _ => hstore
  refine .bind (L.modify (.charge _)) fun _ => .ite (fun _ => ?_) fun _ => hstore
  exact .bind (peekWord_mirrors hsize id) fun _ => .bind (L.modify (.latchBusWord _))
    fun _ => hstore

/-- The extension words of an operand keep the PC even. -/
theorem isOdd_extension {a : U32} (h : isOdd a = false) (mode reg : Fin 8) (width : M68kSize) :
    isOdd (a + extensionBytes mode reg width) = false := by
  have hn : (extensionBytes mode reg width).toNat % 2 = 0 := by
    cases width <;> revert mode reg <;> decide
  rw [isOdd_toNat, decide_eq_false_iff_not] at h ⊢
  rw [BitVec.toNat_add]
  omega

theorem execMove_mirrors (hsize : size.toNat % 2 = 0) {opcode : U16}
    (hmark : mayMark opcode = true) :
    Simulates (mirrorPair size)
      (fun s t => Mirrors size memory memorySize True s t ∧
        ∃ u, Clean false u s ∧ isOdd s.pc = false)
      (Mirrors size memory memorySize True) (Mirrors size memory memorySize True)
      (execMove opcode) (execMove opcode) := by
  obtain ⟨-, h4, hshort⟩ := dispatch_mark (σ := U32 → U8) hmark
  obtain ⟨width, hwidth, hshort⟩ : ∃ width, moveSize? opcode = some width ∧ width ≠ .long := by
    rcases hshort with h | h
    · exact ⟨.byte, h, by decide⟩
    · exact ⟨.word, h, by decide⟩
  have hrejects : moveDestRejects 4 (field opcode 9) width = false := rfl
  rw [execMove, hwidth]
  dsimp only
  rw [h4, hrejects, if_neg Bool.false_ne_true]
  -- The source is resolved in step, and leaves the PC at an even address.
  have hsource : Together (mirrorPair size) (Mirrors size memory memorySize True)
      (calcEa (field opcode 3) (field opcode 0) width) := by
    have hmicro := Micro.calcEa (σ := U32 → U8) (g := Grade.unpeeking (isRelative opcode))
      (p := .decode) before (field opcode 3) (field opcode 0) width (operand_unpeeking opcode)
      fun _ _ => ⟨rfl, rfl⟩
    exact mirrors_lockstep.micro hmicro rfl (by rintro ⟨⟩)
  have heven : Simulates (mirrorPair size)
      (fun s t => Mirrors size memory memorySize True s t ∧
        ∃ u, Clean false u s ∧ isOdd s.pc = false)
      (fun s t => Mirrors size memory memorySize True s t ∧ isOdd s.pc = false)
      (Mirrors size memory memorySize True) (calcEa (field opcode 3) (field opcode 0) width)
      (calcEa (field opcode 3) (field opcode 0) width) := by
    apply (hsource.mono (fun _ _ h => h.1) (fun _ _ h => h) fun _ _ h => h).and_wp
    rintro s t ⟨-, u, hclean, hpc⟩
    have hrun : Source none u (isRelative opcode) false false false
        (extensionBytes (field opcode 3) (field opcode 0) width)
        (calcEa (field opcode 3) (field opcode 0) width) := .calcEa _ _ width rfl (by rintro ⟨⟩)
    refine wp_mono (hrun s hclean) ?_ fun _ _ => trivial
    rintro ea v ⟨-, hv, -, -⟩
    rw [hv]
    exact isOdd_extension hpc _ _ _
  refine .bind heven fun ea => getPc_mirrors (fun _ _ h => h) fun p => ?_
  have L : Lockstep (mirrorPair size) (Mirrors size memory memorySize (isOdd p = false)) :=
    mirrors_lockstep
  have hdest := Micro.moveDest (σ := U32 → U8) (g := Grade.unpeeking false) 4 (field opcode 9)
    width (by rw [hrejects]; exact Bool.false_ne_true) fun _ => writes_unpeeking false _
  refine .bind (L.micro hdest rfl (by rintro ⟨⟩)) fun dest => .ite (fun _ => ?_) fun _ =>
    .ite (fun _ => L.modify (.setA _ _)) fun _ => moveToMemory_mirrors hsize _ _ _ hshort _ _ _
  have hdata := Micro.setDSized (σ := U32 → U8) (g := Grade.unpeeking false) (p := .decode) before
    dest.ea.regNum width ea.value
  exact .bind (L.micro hdata rfl (by rintro ⟨⟩)) fun _ => L.setCcr _

/-! ## Instructions and steps -/

theorem dispatch_staticBit {σ : Type} {opcode : U16} (hline : lineOf opcode = 0)
    (h : conditionField opcode = 8) : (dispatch opcode : M σ Int) = staticBit opcode := by
  have himmediate : immediateSize3 opcode = false := by
    rw [immediateSize3, h]
    exact Bool.and_false _
  unfold dispatch
  rw [hline]
  show line0 opcode = _
  simp only [line0, himmediate, h]
  rfl

/-- The state an instruction is decoded in, and its mirror image. -/
def Decoded (size : U32) (memory : U32 → U8) (memorySize : U32) (s t : M68kCpu (U32 → U8)) : Prop :=
  Mirrors size memory memorySize True s t ∧ ∃ u, Clean false u s ∧ isOdd s.pc = false

theorem dispatch_mirrors (hsize : size.toNat % 2 = 0) (opcode : U16) :
    Simulates (mirrorPair size) (Decoded size memory memorySize)
      (Mirrors size memory memorySize True) (Mirrors size memory memorySize True)
      (dispatch opcode) (dispatch opcode) := by
  have L : Lockstep (mirrorPair size) (Mirrors size memory memorySize True) :=
    mirrors_lockstep
  have hplain {m : M (U32 → U8) Int}
      (h : Together (mirrorPair size) (Mirrors size memory memorySize True) m) :
      Simulates (mirrorPair size) (Decoded size memory memorySize)
        (Mirrors size memory memorySize True) (Mirrors size memory memorySize True) m m :=
    h.mono (fun _ _ h => h.1) (fun _ _ h => h) fun _ _ h => h
  rcases Bool.eq_false_or_eq_true (mayPeek opcode) with hpeek | hpeek
  · simp only [mayPeek, Bool.or_eq_true, Bool.and_eq_true, beq_iff_eq] at hpeek
    -- the six kinds that peek at memory without a cycle on the bus
    rcases hpeek with ((((hmark | h6) | ⟨⟨h0, h8⟩, -⟩) | ⟨⟨h5, hsize5⟩, hmode⟩) | hjsr) | hjmp
    · rw [(dispatch_mark hmark).1]
      exact .bind (execMove_mirrors hsize hmark) fun _ => simulates_pure _
    · rw [dispatch_bcc h6]
      exact hplain (.bind (execBcc_mirrors L opcode) fun _ => simulates_pure _)
    · rw [dispatch_staticBit h0 h8]
      refine (staticBit_mirrors hsize opcode).mono ?_ (fun _ _ h => h) fun _ _ h => h
      rintro s t ⟨h, u, -, heven⟩
      exact ⟨h, heven⟩
    · rw [dispatch_dbcc h5 hsize5 hmode]
      exact hplain (.bind (execDbcc_mirrors L opcode) fun _ => simulates_pure _)
    · rw [dispatch_jsr hjsr]
      exact hplain (lineJsr_mirrors L opcode)
    · rw [dispatch_jmp hjmp]
      exact hplain (.bind (execJmp_mirrors L opcode) fun _ => simulates_pure _)
  -- no other instruction peeks, and the general rule applies
  · exact hplain (L.dispatch opcode fun h => by rw [hpeek] at h; cases h)

/-- What follows the opcode fetch. -/
theorem afterFetch_mirrors (hsize : size.toNat % 2 = 0) (trace : Bool) (opcode : U16) :
    Simulates (mirrorPair size)
      (fun s t => Mirrors size memory memorySize True s t ∧ (s.group0Fault = false →
        ∃ u, Clean false u { s with ir := opcode } ∧ isOdd s.pc = false))
      (Mirrors size memory memorySize True) (Mirrors size memory memorySize True)
      (do if ← gets (·.group0Fault) then do
            setTrapActive false
            charge 54
          else do
            modify fun s => { s with ir := opcode }
            let cycles ← dispatch opcode
            finishStep true trace cycles)
      (do if ← gets (·.group0Fault) then do
            setTrapActive false
            charge 54
          else do
            modify fun s => { s with ir := opcode }
            let cycles ← dispatch opcode
            finishStep true trace cycles) := by
  have L : Lockstep (mirrorPair size) (Mirrors size memory memorySize True) :=
    mirrors_lockstep
  have hgroup (s t : M68kCpu (U32 → U8)) (h : Mirrors size memory memorySize True s t) :
      t.group0Fault = s.group0Fault := by
    rw [h.image]
    rfl
  refine simulates_gets_bind (fun s t h => hgroup s t h.1) fun b => .ite (fun _ => ?_) fun hb => ?_
  · have hfault : Together (mirrorPair size) (Mirrors size memory memorySize True) (do
        setTrapActive false
        charge 54) := .bind (L.setTrapActive false) fun _ => L.modify (.charge _)
    exact hfault.mono (fun _ _ h => h.1.1) (fun _ _ h => h) fun _ _ h => h
  · refine .bind (W := Decoded size memory memorySize) ?_ fun _ =>
      .bind (dispatch_mirrors hsize opcode) fun _ => L.finishStep true trace _
    refine simulates_modify (L.stays (.opcode _)) ?_
    -- the fetch left a clean state with an even PC, which the peeks rely on
    rintro s t ⟨⟨h, hclean⟩, rfl⟩
    obtain ⟨u, hu, heven⟩ := hclean (by simpa using hb)
    exact ⟨h.write (.opcode _), u, hu, heven⟩

/-- An instruction from a step boundary. -/
theorem execInstruction_mirrors (hs : Settled s) (hsize : s.memorySize.toNat % 2 = 0)
    (trace : Bool) :
    Outcome.Sim (mirrorPair s.memorySize).lost (Mirrors s.memorySize memory memorySize True)
      (Mirrors s.memorySize memory memorySize True)
      (execInstruction true trace (mirrorPair s.memorySize).left (beginStep s))
      (execInstruction true trace (mirrorPair s.memorySize).right
        (beginStep (mirrored memory memorySize s))) := by
  have L : Lockstep (mirrorPair s.memorySize) (Mirrors s.memorySize memory memorySize True) :=
    mirrors_lockstep
  have harmed : Mirrors s.memorySize memory memorySize True (armed s)
      (armed (mirrored memory memorySize s)) := ⟨rfl, rfl, rfl, trivial⟩
  rw [execInstruction, modify_bind, modify_bind]
  have hrest := @afterFetch_mirrors s.memorySize memory memorySize hsize trace
  refine sim_bind ((L.fetch (L.raises 3)).runs _ _ harmed) (fun opcode => (hrest opcode).stays) ?_
  intro opcode u v hfetch hmirrors
  refine (hrest opcode).runs u v ⟨hmirrors, fun _ => ?_⟩
  -- an unmapped opcode ends in a fault, so there is nothing after it
  cases hacc : accessible s .word s.pc with
  | false =>
    obtain ⟨w, -, hmiss⟩ := fetch_miss (k := none) (armed_running hs.depth) hacc
    have heq := hmiss.symm.trans hfetch
    cases heq
  | true =>
    have heq := (fetch_hit (k := none) (armed_running hs.depth) hacc).symm.trans hfetch
    cases heq
    refine ⟨s, ⟨fetched_running hs.depth, rfl, hs.programSpace, hs.busWord,
      Quiet.cons (by intro e he; cases he) _ _ _, fun _ _ => rfl⟩, ?_⟩
    simp only [accessible, misaligned, Bool.and_eq_true, Bool.not_eq_true'] at hacc
    have heven := hacc.1
    rw [isOdd_toNat, decide_eq_false_iff_not] at heven ⊢
    have h2 : (2 : U32).toNat = 2 := rfl
    show ¬(s.pc + 2).toNat % 2 = 1
    rw [BitVec.toNat_add, h2]
    omega

theorem service_due {σ : Type} {h : Host σ} {s : M68kCpu σ} {f : Bool → M σ α}
    (hdue : interruptDue s = true) :
    (serviceInterrupts true >>= f) h s = (serviceInterrupts true >>= fun _ => f true) h s := by
  simp only [serviceInterrupts, if_true, checkInterrupts, bind_assoc, gets_bind, hdue, pure_bind]

theorem service_not_due {σ : Type} {h : Host σ} {s : M68kCpu σ} {f : Bool → M σ α}
    (hdue : interruptDue s = false) : (serviceInterrupts true >>= f) h s = f false h s := by
  simp only [serviceInterrupts, if_true, checkInterrupts, bind_assoc, gets_bind, hdue,
    Bool.false_eq_true, if_false, pure_bind]

/-- A step of the flat machine that takes no bus error is one of its mirror image. -/
theorem step_mirrors (memory : U32 → U8) (memorySize : U32) (hs : Settled s)
    (hsize : s.memorySize.toNat % 2 = 0) :
    Outcome.Sim (mirrorPair s.memorySize).lost (Mirrors s.memorySize memory memorySize True)
      (Mirrors s.memorySize memory memorySize True)
      (step (mirrorPair s.memorySize).left s)
      (step (mirrorPair s.memorySize).right (mirrored memory memorySize s)) := by
  have L : Lockstep (mirrorPair s.memorySize) (Mirrors s.memorySize memory memorySize True) :=
    mirrors_lockstep
  have hbegun : Mirrors s.memorySize memory memorySize True (beginStep s)
      (beginStep (mirrored memory memorySize s)) := ⟨rfl, rfl, rfl, trivial⟩
  have hcharge (n : Int) : Together (mirrorPair s.memorySize)
      (Mirrors s.memorySize memory memorySize True) (charge n) := L.modify (.charge n)
  -- The interrupt service comes first on both sides of the stopped test.
  have hserviced {f : Bool → M (U32 → U8) Unit} (htrue : f true = charge 44)
      (hfalse : Outcome.Sim (mirrorPair s.memorySize).lost
        (Mirrors s.memorySize memory memorySize True) (Mirrors s.memorySize memory memorySize True)
        (f false (mirrorPair s.memorySize).left (beginStep s))
        (f false (mirrorPair s.memorySize).right (beginStep (mirrored memory memorySize s)))) :
      Outcome.Sim (mirrorPair s.memorySize).lost (Mirrors s.memorySize memory memorySize True)
        (Mirrors s.memorySize memory memorySize True)
        ((serviceInterrupts true >>= f) (mirrorPair s.memorySize).left (beginStep s))
        ((serviceInterrupts true >>= f) (mirrorPair s.memorySize).right
          (beginStep (mirrored memory memorySize s))) := by
    rcases Bool.eq_false_or_eq_true (interruptDue s) with hdue | hidle
    · have hboth : Together (mirrorPair s.memorySize) (Mirrors s.memorySize memory memorySize True)
          (serviceInterrupts true >>= fun _ => f true) := by
        rw [htrue]
        exact .bind (L.serviceInterrupts true) fun _ => hcharge 44
      have hdue' : interruptDue (beginStep (mirrored memory memorySize s)) = true := hdue
      have hdue : interruptDue (beginStep s) = true := hdue
      rw [service_due hdue, service_due hdue']
      exact hboth.runs _ _ hbegun
    · have hidle' : interruptDue (beginStep (mirrored memory memorySize s)) = false := hidle
      have hidle : interruptDue (beginStep s) = false := hidle
      rw [service_not_due hidle, service_not_due hidle']
      exact hfalse
  have hstep (h : Host (U32 → U8)) (u : M68kCpu (U32 → U8)) : step h u =
      (if u.stopped then (serviceInterrupts true >>= fun b => if b then charge 44 else charge 4)
      else (serviceInterrupts true >>= fun b => if b then charge 44 else
        (gets (·.traced) >>= fun trace => instrHook >>= fun _ =>
          catchTrap (execInstruction true trace) abortInstruction))) h (beginStep u) := rfl
  have hstopped : (mirrored memory memorySize s).stopped = s.stopped := rfl
  rw [hstep, hstep, hstopped, ite_run, ite_run]
  split
  · exact hserviced rfl ((hcharge 4).runs _ _ hbegun)
  · exact hserviced rfl (sim_catchTrap (execInstruction_mirrors hs hsize _) L.abortInstruction)

/-! ## Runs -/

/-- The requests of a host between two steps. -/
abbrev requested {σ : Type} (levels : List (Fin 8)) (s : M68kCpu σ) : M68kCpu σ :=
  levels.foldl (fun s level => setIrq level s) s

/-- The states after each step, where the host sets the request level any number of
times before each. -/
def trace {σ : Type} (h : Host σ) : List (List (Fin 8)) → M68kCpu σ → Option (List (M68kCpu σ))
  | [], _ => some []
  | levels :: schedule, s => do
      let t ← exec? step h (requested levels s)
      let ts ← trace h schedule t
      pure (t :: ts)

theorem Settled.requested {σ : Type} {s : M68kCpu σ} (hs : Settled s) (levels : List (Fin 8)) :
    Settled (requested levels s) := by
  induction levels generalizing s with
  | nil => exact hs
  | cons level levels ih =>
    have hlevel : (setIrq level s).irqLevel ≤ 7 := Nat.le_of_lt_succ level.isLt
    exact ih ⟨hs.trapActive, hs.addressGuard, hs.busGuard, hs.programSpace, hs.busWord,
      hs.faultValid, hs.depth, hlevel, hs.sr⟩

theorem requested_mirrored (levels : List (Fin 8)) :
    requested levels (mirrored memory memorySize s) =
      mirrored memory memorySize (requested levels s) := by
  induction levels generalizing s with
  | nil => rfl
  | cons level levels ih => exact ih (s := setIrq level s)

theorem requested_memorySize (levels : List (Fin 8)) :
    (requested levels s).memorySize = s.memorySize := by
  induction levels generalizing s with
  | nil => rfl
  | cons level levels ih => exact ih (s := setIrq level s)

theorem trace_cons {σ : Type} {h : Host σ} {levels : List (Fin 8)}
    {schedule : List (List (Fin 8))} {s t : M68kCpu σ}
    (ht : step h (requested levels s) = .ok () t) :
    trace h (levels :: schedule) s = (trace h schedule t).map (t :: ·) := by
  rw [trace, exec?, ht]
  show (trace h schedule t).bind (fun ts => some (t :: ts)) = _
  cases trace h schedule t <;> rfl

/-- Flat machines run on. -/
theorem trace_returns (schedule : List (List (Fin 8))) (hs : Settled s) :
    ∃ ts, trace (Host.none (U32 → U8)) schedule s = some ts := by
  induction schedule generalizing s with
  | nil => exact ⟨[], rfl⟩
  | cons levels schedule ih =>
    obtain ⟨t, ht, hset⟩ := (hs.requested levels).step
    obtain ⟨ts, hts⟩ := ih hset
    refine ⟨t :: ts, ?_⟩
    rw [trace_cons ht, hts]
    rfl

/-- A step without a bus error, and its mirror image. -/
theorem step_mirrored (memory : U32 → U8) (memorySize : U32) (hs : Settled s)
    (hsize : s.memorySize.toNat % 2 = 0)
    (ht : step (Host.none (U32 → U8)) s = .ok () t) (hbus : .exception 2 ∉ t.log) :
    step (arrayHost s.memorySize) (mirrored memory memorySize s) =
        .ok () (mirrored memory memorySize t) ∧ t.memorySize = s.memorySize := by
  have hsim := step_mirrors memory memorySize hs hsize
  have hleft : step (mirrorPair s.memorySize).left s = .ok () t := ht
  rw [hleft] at hsim
  generalize hright : step (mirrorPair s.memorySize).right
    (mirrored memory memorySize s) = o at hsim
  cases hsim with
  | ok h =>
    refine ⟨?_, h.size⟩
    rw [← h.image]
    exact hright
  | lost h => exact absurd h hbus

/-- A run of the flat machine in which no step takes a bus error is one of its mirror
image. -/
theorem trace_mirrors (schedule : List (List (Fin 8))) (hs : Settled s)
    (hsize : s.memorySize.toNat % 2 = 0) {ts : List (M68kCpu (U32 → U8))}
    (hts : trace (Host.none (U32 → U8)) schedule s = some ts)
    (hbus : ∀ t ∈ ts, .exception 2 ∉ t.log) :
    trace (arrayHost s.memorySize) schedule (mirrored memory memorySize s) =
      some (ts.map (mirrored memory memorySize)) := by
  induction schedule generalizing s ts with
  | nil =>
    cases hts
    rfl
  | cons levels schedule ih =>
    have hkeeps := requested_memorySize (s := s) levels
    obtain ⟨t, ht, hset⟩ := (hs.requested levels).step
    have ht : step (Host.none (U32 → U8)) _ = .ok () t := ht
    rw [trace_cons ht, Option.map_eq_some_iff] at hts
    obtain ⟨us, hus, rfl⟩ := hts
    obtain ⟨hstep, hsize'⟩ := step_mirrored memory memorySize (hs.requested levels)
      (by rw [hkeeps]; exact hsize) ht (hbus t List.mem_cons_self)
    rw [hkeeps] at hstep hsize'
    have hrest := ih hset (by rw [hsize']; exact hsize) hus
      fun u hu => hbus u (List.mem_cons_of_mem _ hu)
    rw [hsize'] at hrest
    rw [← requested_mirrored] at hstep
    rw [trace_cons hstep, hrest]
    rfl

/-! ## Misaligned accesses -/

/-- The access is noted and faulted, and nothing else. -/
def faultFirst {σ : Type} (kind : Access) (width : M68kSize) (address : U32)
    (dead : α) : M σ α := do
  note (.access kind width address)
  addressFault exception kind address
  pure dead

/-- Odd word and long accesses fault before the host is asked. -/
structure FaultsFirst {σ : Type} (h : Host σ) (s : M68kCpu σ) : Prop where
  read16 : ∀ a, isOdd a = true → read16 a h s = faultFirst .read .word a 0 h s
  read32 : ∀ a, isOdd a = true → read32 a h s = faultFirst .read .long a 0 h s
  write16 : ∀ a v, isOdd a = true → write16 a v h s = faultFirst .write .word a () h s
  write32 : ∀ a v, isOdd a = true → write32 a v h s = faultFirst .write .long a () h s
  fetch : isOdd s.pc = true → fetch h s = faultFirst .fetch .word s.pc 0 h s

theorem faultsFirst {σ : Type} {h : Host σ} {s : M68kCpu σ} (hwait : h.waitBus = none)
    (hfc : h.fcCb = none) (hguard : s.inAddressError = false) : FaultsFirst h s := by
  -- without the two callbacks nothing happens before the check of the address
  have hquiet (address : U32) (width : M68kSize) (isWrite : Bool) (t : M68kCpu σ) :
      applyWaitBus address width isWrite h t = .ok () t := by
    simp only [applyWaitBus, env_bind, hwait]
    rfl
  have hsilent (isProgram : Bool) (t : M68kCpu σ) : setFc isProgram h t = .ok () t := by
    simp only [setFc, env_bind, hfc]
    rfl
  have hclear (e : Event) : (s.noted e).inAddressError = false := hguard
  constructor
  · intro a ha
    simp only [read16, read16With, faultFirst, note, modify_bind, bind_ok (hquiet _ _ _ _),
      bind_ok (hsilent _ _), gets_bind, id, isOdd_mask, ha, hclear, Bool.not_false, Bool.and_true,
      if_true]
  · intro a ha
    simp only [read32, read32With, faultFirst, note, modify_bind, bind_ok (hquiet _ _ _ _),
      bind_ok (hsilent _ _), gets_bind, id, isOdd_mask, ha, hclear, Bool.not_false, Bool.and_true,
      if_true]
  · intro a v ha
    simp only [write16, write16With, faultFirst, note, modify_bind, bind_ok (hquiet _ _ _ _),
      bind_ok (hsilent _ _), gets_bind, id, isOdd_mask, ha, hclear, Bool.not_false, Bool.and_true,
      if_true, bind_pure_unit]
  · intro a v ha
    simp only [write32, write32With, faultFirst, note, modify_bind, bind_ok (hquiet _ _ _ _),
      bind_ok (hsilent _ _), gets_bind, id, isOdd_mask, ha, hclear, Bool.not_false, Bool.and_true,
      if_true, bind_pure_unit]
  · intro ha
    have hpc (e : Event) : (s.noted e).pc = s.pc := rfl
    simp only [fetch, getPc, faultFirst, note, modify_bind, bind_ok (hquiet _ _ _ _),
      bind_ok (hsilent _ _), gets_bind, id, isOdd_mask, hpc, ha, hclear, Bool.not_false,
      Bool.and_true, if_true]

/-- Six callbacks over an array of an even number of bytes go through the states of flat
memory in every run in which flat memory meets no bus error, and misaligned accesses
fault in both before a callback is called. -/
theorem callbacks_simulate_flat (memory : U32 → U8) (memorySize : U32)
    (schedule : List (List (Fin 8))) (hs : Settled s) (hsize : s.memorySize.toNat % 2 = 0) :
    (∃ ts, trace (Host.none (U32 → U8)) schedule s = some ts ∧
      ((∀ t ∈ ts, .exception 2 ∉ t.log) →
        trace (arrayHost s.memorySize) schedule (mirrored memory memorySize s) =
          some (ts.map (mirrored memory memorySize)))) ∧
    ∀ t : M68kCpu (U32 → U8), t.inAddressError = false →
      FaultsFirst (Host.none (U32 → U8)) t ∧
        FaultsFirst (arrayHost s.memorySize) (mirrored memory memorySize t) := by
  obtain ⟨ts, hts⟩ := trace_returns schedule hs
  refine ⟨⟨ts, hts, trace_mirrors schedule hs hsize hts⟩, fun t ht => ?_⟩
  exact ⟨faultsFirst rfl rfl ht, faultsFirst rfl rfl ht⟩

/-- TRAP #0, whose handler begins with MOVE.W D0,-(A7); a level 3 interrupt has its
handler at 0x300. -/
def interruptedTrap : M68kCpu (U32 → U8) :=
  { init (fun a => if a = 0x82 then 0x02 else if a = 0x6E then 0x03 else
      if a = 0x100 then 0x4E else if a = 0x101 then 0x40 else
      if a = 0x200 then 0x3F else if a = 0x300 then 0x4E else if a = 0x301 then 0x71 else 0)
      0x1000 fun _ => 0 with
    pc := 0x100
    sr := 0x2000
    dRegs := fun _ => 0x1234
    aRegs := fun r => if r = 7 then 0x800 else 0 }

theorem callbacks_simulate_flat_interrupted :
    ∃ ts, trace (Host.none (U32 → U8)) [[], [], [3], []] interruptedTrap = some ts ∧
      (ts.map fun t => (t.pc, t.aRegs 7, t.log.contains (.exception 27))) =
        [(0x200, 0x7FA, false), (0x202, 0x7F8, false), (0x300, 0x7F2, true),
          (0x302, 0x7F2, false)] ∧
      trace (arrayHost 0x1000) [[], [], [3], []] (mirrored (fun _ => 0) 0 interruptedTrap) =
        some (ts.map (mirrored (fun _ => 0) 0)) ∧
      FaultsFirst (Host.none (U32 → U8)) interruptedTrap ∧
      FaultsFirst (arrayHost 0x1000) (mirrored (fun _ => 0) 0 interruptedTrap) := by
  obtain ⟨⟨ts, hts, hmirror⟩, hfirst⟩ := callbacks_simulate_flat (fun _ => 0) 0
    [[], [], [3], []] (s := interruptedTrap)
    ⟨rfl, rfl, rfl, rfl, rfl, rfl, rfl, Nat.zero_le 7, rfl⟩ rfl
  have hflat : (trace (Host.none (U32 → U8)) [[], [], [3], []] interruptedTrap).map
      (fun ts => (ts.map fun t => (t.pc, t.aRegs 7, t.log.contains (.exception 27)),
        ts.all fun t => !t.log.contains (.exception 2))) =
      some ([(0x200, 0x7FA, false), (0x202, 0x7F8, false), (0x300, 0x7F2, true),
        (0x302, 0x7F2, false)], true) := by decide +kernel
  rw [hts, Option.map_some, Option.some.injEq, Prod.mk.injEq] at hflat
  refine ⟨ts, hts, hflat.1, hmirror fun t ht hmem => ?_, hfirst interruptedTrap rfl⟩
  have hquiet := List.all_eq_true.mp hflat.2 t ht
  rw [List.contains_iff_mem.mpr hmem] at hquiet
  cases hquiet

/-- MOVE.W D0,-(A0) to an odd address, the last byte of memory after it. -/
def oddEnd : M68kCpu (U32 → U8) :=
  { init (fun a => if a = 0x402 then 0x31 else if a = 0x404 then 0x12 else 0) 0x405 fun _ => 0 with
    pc := 0x402
    sr := 0x2700
    aRegs := fun r => if r = 0 then 0x201 else if r = 7 then 0x300 else 0 }

/-- In memory of an odd number of bytes the word that straddles the end differs: the
flat machine peeks 0, the array answers its last byte. -/
theorem callbacks_odd_size :
    ¬∀ (memory : U32 → U8) (memorySize : U32) (schedule : List (List (Fin 8)))
      (s : M68kCpu (U32 → U8)), Settled s →
      ∃ ts, trace (Host.none (U32 → U8)) schedule s = some ts ∧
        ((∀ t ∈ ts, .exception 2 ∉ t.log) →
          trace (arrayHost s.memorySize) schedule (mirrored memory memorySize s) =
            some (ts.map (mirrored memory memorySize))) := by
  intro h
  obtain ⟨ts, hts, hrun⟩ := h (fun _ => 0) 0 [[]] oddEnd
    ⟨rfl, rfl, rfl, rfl, rfl, rfl, rfl, Nat.zero_le 7, rfl⟩
  have hflat : (trace (Host.none (U32 → U8)) [[]] oddEnd).map
      (fun ts => ts.map fun t => (t.log.contains (.exception 2), t.memory 0x2F8)) =
      some [(false, 0)] := by decide +kernel
  have hhost : (trace (arrayHost 0x405) [[]] (mirrored (fun _ => 0) 0 oddEnd)).map
      (fun ts => ts.map fun t => t.host 0x2F8) = some [0x12] := by decide +kernel
  rw [hts] at hflat
  match ts with
  | [] => cases hflat
  | t :: us =>
    simp only [Option.map_some, List.map_cons, Option.some.injEq, List.cons.injEq, Prod.mk.injEq]
      at hflat
    obtain ⟨⟨hlog, hbyte⟩, hus⟩ := hflat
    have hnil : us = [] := List.map_eq_nil_iff.mp hus
    subst hnil
    have hmirror := hrun (by
      intro u hu
      rw [List.mem_singleton.mp hu]
      intro hmem
      rw [List.contains_iff_mem.mpr hmem] at hlog
      cases hlog)
    have hsize : oddEnd.memorySize = 0x405 := rfl
    rw [hsize] at hmirror
    rw [hmirror] at hhost
    have hhost' : t.memory 0x2F8 = 0x12 := by simpa [mirrored] using hhost
    rw [hbyte] at hhost'
    cases hhost'

end M68k
