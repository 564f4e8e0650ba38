import Rocket68.Logic.Operands

/-!
# The discipline of the handlers

One derivation per handler of `ops_arith.c`, `ops_logic.c` and `ops_bit.c`,
following its body. `hill` lets the instruction raise vector 4 exactly where its
own encoding check fails.
-/

namespace M68k

open Trap TrapM

variable {σ : Type} {g : Grade}

/-! ## Encoding checks leave an effective address -/

/-- The immediate and quick timings are nonnegative constants. -/
theorem ite_nonneg {c : Prop} [Decidable c] {x y : Int} (hx : 0 ≤ x) (hy : 0 ≤ y) :
    0 ≤ if c then x else y := by
  split
  · exact hx
  · exact hy

theorem countOnes_le (n : Nat) (d : U16) (m : Int) : m ≤ countOnes n d m := by
  induction n generalizing d m with
  | zero => exact Int.le_refl m
  | succ n ih =>
    rw [countOnes]
    refine Int.le_trans ?_ (ih _ _)
    split <;> omega

theorem mulCycles_ge (isSigned : Bool) (op2 : U32) : 38 ≤ mulCycles isSigned op2 := by
  have h := countOnes_le 16
    (if isSigned then ((op2 <<< 1) ^^^ op2).setWidth 16 else op2.setWidth 16) 17
  unfold mulCycles
  dsimp only
  omega

theorem divsQuotientWalk_le (n : Nat) (aquot : U32) (m : Int) :
    m ≤ divsQuotientWalk n aquot m := by
  induction n generalizing aquot m with
  | zero => exact Int.le_refl m
  | succ n ih =>
    rw [divsQuotientWalk]
    refine Int.le_trans ?_ (ih _ _)
    split <;> omega

theorem divsCycles_ge (dividend : U32) (divisor : U16) : 16 ≤ divsCycles dividend divisor := by
  have hwalk (aquot : U32) {m : Int} (hm : 8 ≤ m) : 16 ≤ 2 * divsQuotientWalk 15 aquot m := by
    have h := divsQuotientWalk_le 15 aquot m
    omega
  have hcases (m : Int) (hm : 6 ≤ m) (x : Prop) [Decidable x] (aquot : U32) (c : Prop)
      [Decidable c] (b : Int) (hb : -1 ≤ b) :
      16 ≤ if x then (m + 2) * 2
        else 2 * divsQuotientWalk 15 aquot (if c then m + 55 + b else m + 55) := by
    split
    · omega
    · apply hwalk
      split <;> omega
  unfold divsCycles
  dsimp only
  apply hcases
  · split <;> decide
  · split <;> decide

theorem divuWalk_le (hdivisor : U32) (n : Nat) (d : U32) (m : Int) :
    m ≤ divuWalk hdivisor n d m := by
  induction n generalizing d m with
  | zero => exact Int.le_refl m
  | succ n ih =>
    rw [divuWalk]
    split
    · exact ih _ _
    · split
      · exact Int.le_trans (by omega) (ih _ _)
      · exact Int.le_trans (by omega) (ih _ _)

theorem divuCycles_ge (dividend divisor : U32) : 10 ≤ divuCycles dividend divisor := by
  unfold divuCycles
  split
  · exact Int.le_refl _
  · have h := divuWalk_le (divisor <<< 16) 15 dividend 38
    omega

theorem not_relative_of_dataAlterable : ∀ mode reg : Fin 8,
    ¬notDataAlterable mode reg = true → relativeMode mode reg = false := by decide

theorem not_reserved_of_dataAlterable : ∀ mode reg : Fin 8,
    ¬notDataAlterable mode reg = true → mode = 7 → 4 < reg → False := by decide

theorem not_reserved_of_data : ∀ mode reg : Fin 8,
    ¬notData mode reg = true → mode = 7 → 4 < reg → False := by decide

theorem not_reserved_of_memoryAlterable : ∀ mode reg : Fin 8,
    ¬notMemoryAlterable mode reg = true → mode = 7 → 4 < reg → False := by decide

private theorem not_reserved_of_addSub : ∀ opmode mode reg : Fin 8,
    ¬addSubRejects opmode mode reg = true → mode = 7 → 4 < reg → False := by decide

private theorem not_reserved_of_andOr : ∀ opmode mode reg : Fin 8,
    ¬andOrRejects opmode mode reg = true → mode = 7 → 4 < reg → False := by decide

private theorem not_reserved_of_cmp : ∀ opmode mode reg : Fin 8,
    ¬cmpRejects opmode mode reg = true → mode = 7 → 4 < reg → False := by decide

private theorem not_reserved_of_quick (size : M68kSize) : ∀ mode reg : Fin 8,
    ¬quickRejects size mode reg = true → mode = 7 → 4 < reg → False := by
  cases size <;> decide

private theorem not_reserved_of_btst (isDynamic : Bool) : ∀ mode reg : Fin 8,
    ¬btstRejects isDynamic mode reg = true → mode = 7 → 4 < reg → False := by
  cases isDynamic <;> decide

/-- The rejection shared by the instructions with a size field and a data
alterable operand. -/
def dataAlterableRejects (opcode : U16) : Bool :=
  (sizeOf? (sizeBits opcode)).isSome && notDataAlterable (field opcode 3) (field opcode 0)

theorem dataAlterable_illegal {opcode : U16} {size : M68kSize}
    (hill : dataAlterableRejects opcode = true → g.illegal = true)
    (hsize : sizeOf? (sizeBits opcode) = some size)
    (h : notDataAlterable (field opcode 3) (field opcode 0) = true) : g.illegal = true :=
  hill (by rw [dataAlterableRejects, hsize, h]; rfl)

namespace Micro

variable [Outside g]

/-! ## Arithmetic -/

theorem fetchImmediate (size : M68kSize) :
    Micro g .decode .decode (fetchImmediate size : M σ U32) := by
  cases size with
  | byte => exact .step (.fetch before) fun _ => .pure _
  | word => exact .step (.fetch before) fun _ => .pure _
  | long => exact .fetchLong before

theorem execAddSub {op : U32 → U32 → U32} {flags : U32 → U32 → U32 → M68kSize → U16 → U16}
    {store : Ea → M68kSize → U32 → M σ Unit} (opcode : U16)
    (hrel : g.Operand (field opcode 3) (field opcode 0))
    (hflags : ∀ s d r size sr, CcrOnly sr (flags s d r size sr))
    (hstore : ∀ ea size v, Micro g .operand .commit (store ea size v))
    (hdest : field opcode 6 = 3 ∨ field opcode 6 = 7 → g.Writes (field opcode 9))
    (hill : addSubRejects (field opcode 6) (field opcode 3) (field opcode 0) = true →
      g.illegal = true) :
    Micro g .decode .finished (execAddSub op flags store opcode) := by
  refine .ite (fun h => .op (.illegal (hill h))) fun h => ?_
  refine .seq (.calcEa before _ _ _ hrel fun h7 hr =>
    (not_reserved_of_addSub _ _ _ h h7 hr).elim) fun ea => ?_
  refine .ite (fun haddr => ?_) fun _ => .ite (fun _ => ?_) fun _ => ?_
  · exact .getA fun _ => .last (.setA before (hdest haddr) _)
  · exact .getD fun _ => .seq (hstore _ _ _) fun _ =>
      .last (.modifySr before (hflags _ _ _ _))
  · exact .getD fun _ => .step (.setD before _ _) fun _ =>
      .last (.modifySr before (hflags _ _ _ _))

theorem storeAdd (ea : Ea) (size : M68kSize) (v : U32) :
    Micro g .operand .commit (storeAdd ea size v : M σ Unit) :=
  .ite (fun _ => .setDSized before _ _ _) fun _ =>
    .ite (fun _ => .ret _) fun _ => .writeSize before _ _ _

theorem execQuick {op : U32 → U32 → U32} {flags : U32 → U32 → U32 → M68kSize → U16 → U16}
    (opcode : U16) (hrel : g.Operand (field opcode 3) (field opcode 0))
    (hflags : ∀ s d r size sr, CcrOnly sr (flags s d r size sr))
    (hdest : field opcode 3 = 1 → g.Writes (field opcode 0))
    (hill : ∀ size, sizeOf? (sizeBits opcode) = some size →
      quickRejects size (field opcode 3) (field opcode 0) = true → g.illegal = true) :
    Micro g .decode .finished (execQuick op flags opcode : M σ Unit) := by
  unfold M68k.execQuick
  cases hsize : sizeOf? (sizeBits opcode) with
  | none => exact .ret _
  | some size =>
    refine .ite (fun h => .op (.illegal (hill size hsize h))) fun h =>
      .ite (fun h1 => ?_) fun _ => ?_
    · exact .getA fun _ => .last (.setA before (hdest h1) _)
    · exact .seq (.calcEa before _ _ _ hrel fun h7 hr =>
          (not_reserved_of_quick _ _ _ h h7 hr).elim) fun _ =>
        .seq (.storeEa before _ _ _) fun _ =>
          .last (.modifySr before (hflags _ _ _ _))

omit [Outside g] in
theorem addxReadPredec [Reading g] {p : Phase} (hp : p ≤ .operand) {reg : Fin 8}
    (hr : g.Writes reg) (size : M68kSize) :
    Micro g p .operand (addxReadPredec reg size : M σ U32) := by
  have hc := commit_of_operand hp
  refine .ite (fun _ => ?_) fun _ => ?_
  · exact .getA fun _ => .step (.read16 (.inl hp) _) fun _ => .step (.read16 (.inl hp) _) fun _ =>
      .step (.setA hc hr _) fun _ => .ending (touched_le hp) (.pure _)
  · exact .getA fun _ => .step (.setA hc hr _) fun _ => .getA fun _ =>
      .ending (touched_le hp) (.readSize (.inl (touched_le hp)) _ _)

omit [Outside g] in
theorem addxOperands [Reading g] {rx ry : Fin 8} (hx : g.Writes rx) (hy : g.Writes ry)
    (size : M68kSize) :
    Micro g .decode .operand (addxOperands rx ry size : M σ (U32 × U32)) :=
  .getPc fun _ => .step (.latchFaultPc before _) fun _ => .charge (by decide) fun _ =>
    .seq (.addxReadPredec before hy _) fun _ =>
      .charge (ite_nonneg (by decide) (by decide)) fun _ =>
      .seq (.addxReadPredec before hx _) fun _ => .ret _

theorem execExtended [Reading g] {op : U32 → U32 → U32 → U32}
    {flags : U32 → U32 → U32 → M68kSize → U16 → U16} (opcode : U16)
    (hflags : ∀ s d r size sr, CcrOnly sr (flags s d r size sr))
    (hsteps : opcode.getLsbD 3 = true → g.Writes (field opcode 9) ∧ g.Writes (field opcode 0)) :
    Micro g .decode .finished (execExtended op flags opcode : M σ Unit) := by
  unfold M68k.execExtended
  cases sizeOf? (sizeBits opcode) with
  | none => exact .ret _
  | some size =>
    refine .ite (fun hrm => ?_) fun _ => ?_
    · exact .seq (.addxOperands (hsteps hrm).1 (hsteps hrm).2 _) fun _ =>
        .getSr fun _ => .getA fun _ =>
        .seq (.writeSize before _ _ _) fun _ =>
          .last (.modifySr before fun sr => .keepZ _ _ _ (hflags _ _ _ _ sr))
    · exact .getD fun _ => .getD fun _ => .getSr fun _ =>
        .seq (.setDSized before _ _ _) fun _ =>
          .last (.modifySr before fun sr => .keepZ _ _ _ (hflags _ _ _ _ sr))

theorem execMul (opcode : U16) (hrel : g.Operand (field opcode 3) (field opcode 0))
    (hill : notData (field opcode 3) (field opcode 0) = true → g.illegal = true) :
    Micro g .decode .finished (execMul opcode : M σ Unit) := by
  refine .ite (fun h => .op (.illegal (hill h))) fun h => ?_
  exact .seq (.calcEa before _ _ _ hrel fun h7 hr => (not_reserved_of_data _ _ h h7 hr).elim)
    fun _ => .getD fun _ => .charge (Int.le_trans (by decide) (mulCycles_ge _ _)) fun _ =>
      .step (.setD before _ _) fun _ =>
      .last (.modifySr before (.flagsLogic _ _))

theorem execDiv (opcode : U16) (hrel : g.Operand (field opcode 3) (field opcode 0))
    (ht : g.trap = true)
    (hill : notData (field opcode 3) (field opcode 0) = true → g.illegal = true) :
    Micro g .decode .finished (execDiv opcode : M σ Unit) := by
  refine .ite (fun h => .op (.illegal (hill h))) fun h => ?_
  refine .seq (.calcEa before _ _ _ hrel fun h7 hr => (not_reserved_of_data _ _ h h7 hr).elim)
    fun _ => .getD fun _ => ?_
  refine .ite (fun _ => .op (.trap ht (.inl rfl) before)) fun _ => .ite (fun _ => ?_) fun _ => ?_
  · refine .charge (Int.le_trans (by decide) (divsCycles_ge _ _)) fun _ =>
      .ite (fun _ => .last (.modifySr before .flagsDivOverflow)) fun _ => ?_
    exact .step (.setD before _ _) fun _ => .last (.modifySr before (.flagsQuotient _))
  · refine .charge (Int.le_trans (by decide) (divuCycles_ge _ _)) fun _ =>
      .ite (fun _ => .last (.modifySr before .flagsDivOverflow)) fun _ => ?_
    exact .step (.setD before _ _) fun _ => .last (.modifySr before (.flagsQuotient _))

omit [Outside g] in
theorem execCmpm [Reading g] {regIdx reg : Fin 8} (hx : g.Writes regIdx) (hy : g.Writes reg)
    (size : M68kSize) :
    Micro g .decode .finished (execCmpm regIdx reg size : M σ Unit) := by
  refine .getPc fun _ => .step (.latchFaultPc before _) fun _ => .charge (by decide) fun _ =>
    .getA fun _ => ?_
  have hrest (srcVal : U32) : Micro (σ := σ) g .operand .finished (do
      M68k.charge (if size = .long then 8 else 4)
      let destVal ← M68k.readSize (← M68k.getA regIdx) size
      M68k.setA regIdx ((← M68k.getA regIdx) + stepSize regIdx size)
      M68k.modifySr (M68k.flagsCmp srcVal destVal (destVal - srcVal) size)) :=
    .charge (ite_nonneg (by decide) (by decide)) fun _ => .getA fun _ =>
      .seq (.readSize (.inl before) _ _) fun _ =>
      .getA fun _ => .step (.setA before hx _) fun _ =>
        .last (.modifySr before (.flagsCmp _ _ _ _))
  refine .ite (fun _ => ?_) fun _ => ?_
  · exact .getA fun _ => .step (.setA before hy _) fun _ =>
      .seq (.readSize (.inl before) _ _) fun _ => .getA fun _ =>
        .step (.setA before hy _) fun _ => .seq (.pure _) hrest
  · exact .getA fun _ => .step (.setA before hy _) fun _ =>
      .seq (.readSize (.inl before) _ _) hrest

theorem execCmp (opcode : U16) (hrel : g.Operand (field opcode 3) (field opcode 0))
    (hsteps : regToEa (field opcode 6) = true → field opcode 3 = 1 →
      g.Writes (field opcode 9) ∧ g.Writes (field opcode 0))
    (hill : ¬(regToEa (field opcode 6) = true ∧ field opcode 3 = 1) →
      cmpRejects (field opcode 6) (field opcode 3) (field opcode 0) = true → g.illegal = true) :
    Micro g .decode .finished (execCmp opcode : M σ Unit) := by
  have hcmpm (h : field opcode 3 = 1) : Reading g :=
    reading_of_mode hrel.relative (by rw [h]; rfl)
  refine .ite (fun h => have := hcmpm h.2; .execCmpm (hsteps h.1 h.2).1
    (hsteps h.1 h.2).2 _) fun hm =>
    .ite (fun h => .op (.illegal (hill hm h))) fun h => ?_
  refine .seq (.calcEa before _ _ _ hrel fun h7 hr =>
    (not_reserved_of_cmp _ _ _ h h7 hr).elim) fun _ => .ite (fun _ => ?_) fun _ => ?_
  · exact .getA fun _ => .last (.modifySr before (.flagsCmp _ _ _ _))
  · exact .getD fun _ => .last (.modifySr before (.flagsCmp _ _ _ _))

theorem execCmpi (opcode : U16) (hrel : g.Operand (field opcode 3) (field opcode 0))
    (hill : dataAlterableRejects opcode = true → g.illegal = true) :
    Micro g .decode .finished (execCmpi opcode : M σ Unit) := by
  unfold M68k.execCmpi
  cases hsize : sizeOf? (sizeBits opcode) with
  | none => exact .ret _
  | some size =>
    refine .ite (fun h => .op (.illegal (dataAlterable_illegal hill hsize h))) fun h => ?_
    exact .seq (.fetchImmediate _) fun _ => .charge (ite_nonneg (by decide) (by decide)) fun _ =>
      .seq (.calcEa before _ _ _ hrel fun h7 hr =>
          (not_reserved_of_dataAlterable _ _ h h7 hr).elim) fun _ =>
        .last (.modifySr before (.flagsCmp _ _ _ _))

theorem execImmediate {op : U32 → U32 → U32}
    {flags : U32 → U32 → U32 → M68kSize → U16 → U16} (opcode : U16)
    (hrel : g.Operand (field opcode 3) (field opcode 0))
    (hflags : ∀ s d r size sr, CcrOnly sr (flags s d r size sr))
    (hill : dataAlterableRejects opcode = true → g.illegal = true) :
    Micro g .decode .finished (execImmediate op flags opcode : M σ Unit) := by
  unfold M68k.execImmediate
  cases hsize : sizeOf? (sizeBits opcode) with
  | none => exact .ret _
  | some size =>
    refine .ite (fun h => .op (.illegal (dataAlterable_illegal hill hsize h))) fun h => ?_
    exact .seq (.fetchImmediate _) fun _ => .charge (ite_nonneg (by decide) (by decide)) fun _ =>
      .seq (.calcEa before _ _ _ hrel fun h7 hr =>
          (not_reserved_of_dataAlterable _ _ h h7 hr).elim) fun _ =>
        .seq (.storeEa before _ _ _) fun _ =>
          .last (.modifySr before (hflags _ _ _ _))

theorem execUnary {body : Ea → M68kSize → M σ Unit} (opcode : U16)
    (hrel : g.Operand (field opcode 3) (field opcode 0))
    (hbody : Reading g → ∀ ea size, Micro g .operand .finished (body ea size))
    (hill : dataAlterableRejects opcode = true → g.illegal = true) :
    Micro g .decode .finished (execUnary body opcode) := by
  unfold M68k.execUnary
  cases hsize : sizeOf? (sizeBits opcode) with
  | none => exact .ret _
  | some size =>
    refine .ite (fun h => .op (.illegal (dataAlterable_illegal hill hsize h))) fun h => ?_
    exact .seq (.calcEa before _ _ _ hrel fun h7 hr =>
      (not_reserved_of_dataAlterable _ _ h h7 hr).elim) fun _ =>
        hbody (reading_of_mode hrel.relative (not_relative_of_dataAlterable _ _ h)) _ _

theorem execNeg (opcode : U16) (hrel : g.Operand (field opcode 3) (field opcode 0))
    (hill : dataAlterableRejects opcode = true → g.illegal = true) :
    Micro g .decode .finished (execNeg opcode : M σ Unit) :=
  execUnary opcode hrel (fun _ _ _ => .seq (.storeEa before _ _ _) fun _ =>
    .last (.modifySr before (.flagsSub _ _ _ _))) hill

theorem execNegx (opcode : U16) (hrel : g.Operand (field opcode 3) (field opcode 0))
    (hill : dataAlterableRejects opcode = true → g.illegal = true) :
    Micro g .decode .finished (execNegx opcode : M σ Unit) :=
  execUnary opcode hrel (fun _ _ _ => .getSr fun _ => .seq (.storeEa before _ _ _) fun _ =>
    .last (.modifySr before (.flagsNegx _ _ _))) hill

omit [Outside g] in
theorem execExt (opcode : U16) : Micro g .decode .finished (execExt opcode : M σ Unit) :=
  .ite (fun _ => .getD fun _ => .getD fun _ => .step (.setD before _ _) fun _ =>
      .last (.modifySr before (.flagsLogic _ _)))
    fun _ => .ite (fun _ => .getD fun _ => .step (.setD before _ _) fun _ =>
      .last (.modifySr before (.flagsLogic _ _))) fun _ => .ret _

omit [Outside g] in
theorem bcdOperands [Reading g] {rx ry : Fin 8} {rm : Bool}
    (hsteps : rm = true → g.Writes rx ∧ g.Writes ry) :
    Micro g .decode .operand (bcdOperands rx ry rm : M σ (U32 × U32)) :=
  .ite (fun hrm => .getA fun _ => .step (.setA before (hsteps hrm).2 _) fun _ => .getA fun _ =>
      .step (.read8 (.inl before) _) fun _ => .getA fun _ =>
        .step (.setA before (hsteps hrm).1 _) fun _ => .getA fun _ =>
          .step (.read8 (.inl before) _) fun _ => .ret _)
    fun _ => .getD fun _ => .getD fun _ => .ret _

theorem execBcd [Reading g] {op : U32 → U32 → U32 → U8 × Bool × Bool} (opcode : U16)
    (hsteps : opcode.getLsbD 3 = true → g.Writes (field opcode 9) ∧ g.Writes (field opcode 0)) :
    Micro g .decode .finished (execBcd op opcode : M σ Unit) :=
  .seq (.bcdOperands hsteps) fun _ => .getSr fun _ =>
    .step (.modifySr before (.flagsBcd _)) fun _ =>
      .ite (fun _ => .getA fun _ => .last (.write8 before _ _)) fun _ =>
        .getD fun _ => .last (.setD before _ _)

theorem execNbcd (opcode : U16) (hrel : g.Operand (field opcode 3) (field opcode 0))
    (hill : notDataAlterable (field opcode 3) (field opcode 0) = true → g.illegal = true) :
    Micro g .decode .finished (execNbcd opcode : M σ Unit) := by
  refine .ite (fun h => .op (.illegal (hill h))) fun h => ?_
  exact .seq (.calcEa before _ _ _ hrel fun h7 hr =>
      (not_reserved_of_dataAlterable _ _ h h7 hr).elim) fun _ => .getSr fun _ =>
    .step (.modifySr before (.flagsBcd _)) fun _ =>
      .ite (fun _ => .getD fun _ => .last (.setD before _ _)) fun _ =>
        .last (.write8 before _ _)

/-! ## Logic -/

theorem execAndOr {op : U32 → U32 → U32} (opcode : U16)
    (hrel : g.Operand (field opcode 3) (field opcode 0))
    (hill : ¬(field opcode 6 = 3 ∨ field opcode 6 = 7) →
      andOrRejects (field opcode 6) (field opcode 3) (field opcode 0) = true → g.illegal = true) :
    Micro g .decode .finished (execAndOr op opcode : M σ Unit) := by
  refine .ite (fun _ => .ret _) fun hm => .ite (fun h => .op (.illegal (hill hm h))) fun h => ?_
  refine .seq (.calcEa before _ _ _ hrel fun h7 hr =>
    (not_reserved_of_andOr _ _ _ h h7 hr).elim) fun _ => .ite (fun _ => ?_) fun _ => ?_
  · exact .getD fun _ => .seq (.storeEa before _ _ _) fun _ =>
      .last (.modifySr before (.flagsLogic _ _))
  · exact .getD fun _ => .step (.setD before _ _) fun _ =>
      .last (.modifySr before (.flagsLogic _ _))

theorem execEor (opcode : U16) (hrel : g.Operand (field opcode 3) (field opcode 0))
    (hill : regToEa (field opcode 6) = true →
      notDataAlterable (field opcode 3) (field opcode 0) = true → g.illegal = true) :
    Micro g .decode .finished (execEor opcode : M σ Unit) := by
  refine .ite (fun _ => .ret _) fun hm =>
    .ite (fun h => .op (.illegal (hill (by simpa using hm) h))) fun h => ?_
  exact .seq (.calcEa before _ _ _ hrel fun h7 hr =>
      (not_reserved_of_dataAlterable _ _ h h7 hr).elim) fun _ => .getD fun _ =>
    .seq (.storeEa before _ _ _) fun _ => .last (.modifySr before (.flagsLogic _ _))

theorem execNot (opcode : U16) (hrel : g.Operand (field opcode 3) (field opcode 0))
    (hill : dataAlterableRejects opcode = true → g.illegal = true) :
    Micro g .decode .finished (execNot opcode : M σ Unit) :=
  execUnary opcode hrel (fun _ _ _ => .seq (.storeEa before _ _ _) fun _ =>
    .last (.modifySr before (.flagsLogic _ _))) hill

theorem execClr (opcode : U16) (hrel : g.Operand (field opcode 3) (field opcode 0))
    (hill : dataAlterableRejects opcode = true → g.illegal = true) :
    Micro g .decode .finished (execClr opcode : M σ Unit) :=
  execUnary opcode hrel (fun _ _ _ =>
    .ite (fun _ => .getD fun _ => .step (.setD before _ _) fun _ =>
        .last (.modifySr before fun sr =>
          ((CcrOnly.refl sr).clear (by decide)).or lowBits_srZ))
      fun _ => .seq (.readSize (.inl before) _ _) fun _ =>
        .seq (.writeSize before _ _ _) fun _ =>
          .last (.modifySr before fun sr =>
            ((CcrOnly.refl sr).clear (by decide)).or lowBits_srZ)) hill

theorem execTst (opcode : U16) (hrel : g.Operand (field opcode 3) (field opcode 0))
    (hill : dataAlterableRejects opcode = true → g.illegal = true) :
    Micro g .decode .finished (execTst opcode : M σ Unit) :=
  execUnary opcode hrel (fun _ _ _ => .last (.modifySr before (.flagsLogic _ _))) hill

/-! ## Shifts and immediate logic -/

omit [Outside g] in
theorem shiftCount {p : Phase} (opcode : U16) : Micro g p p (shiftCount opcode : M σ Nat) :=
  .ite (fun _ => .getD fun _ => .pure _) fun _ => .pure _

theorem execShift (opcode : U16) (hrel : g.Operand (field opcode 3) (field opcode 0))
    (hill : sizeBits opcode = 3 → notMemoryAlterable (field opcode 3) (field opcode 0) = true →
      g.illegal = true) :
    Micro g .decode .finished (execShift opcode : M σ Unit) := by
  refine .ite (fun hs => ?_) fun _ => ?_
  · refine .ite (fun h => .op (.illegal (hill hs h))) fun h => ?_
    exact .seq (.calcEa before _ _ _ hrel fun h7 hr =>
        (not_reserved_of_memoryAlterable _ _ h h7 hr).elim) fun _ => .getSr fun _ =>
      .step (.modifySr before (.flagsShift _ _ _)) fun _ =>
        .upTo (.writeSize before _ _ _)
  · refine .seq (.shiftCount _) fun _ => .getD fun _ => .ite (fun _ => ?_) fun _ => ?_
    · exact .last (.modifySr before (.flagsShiftZero _ _ _))
    · exact .getSr fun _ => .step (.modifySr before (.flagsShift _ _ _)) fun _ =>
        .upTo (.setDSized before _ _ _)

theorem execImmediateLogic {op : U32 → U32 → U32} {op16 : U16 → U16 → U16} {ccr status : U16}
    (opcode : U16) (hrel : g.Operand (field opcode 3) (field opcode 0))
    (hlow : ∀ x y, LowBits x → LowBits y → LowBits (op16 x y))
    (hill : opcode ≠ ccr → opcode ≠ status → dataAlterableRejects opcode = true →
      g.illegal = true) :
    Micro g .decode .finished (execImmediateLogic op op16 ccr status opcode : M σ Unit) := by
  refine .ite (fun _ => ?_) fun hc => .ite (fun _ => ?_) fun hs => ?_
  · exact .step (.fetch before) fun _ => .last (.modifySr before fun sr =>
      ((CcrOnly.refl sr).clear (by decide)).or (hlow _ _ (lowBits_ccr.and_right _)
        (lowBits_ccr.and_right _)))
  · exact .privileged fun hsup => .step (.fetch before) fun _ => .getSr fun _ =>
      .op (.setSr hsup before _)
  · exact .execImmediate opcode hrel (fun _ _ _ _ sr => .flagsLogic _ _ sr) (hill hc hs)

theorem execAndi (opcode : U16) (hrel : g.Operand (field opcode 3) (field opcode 0))
    (hill : opcode ≠ 0x023C → opcode ≠ 0x027C → dataAlterableRejects opcode = true →
      g.illegal = true) : Micro g .decode .finished (execAndi opcode : M σ Unit) :=
  .execImmediateLogic opcode hrel (fun _ _ h _ => h.and_left _) hill

theorem execOri (opcode : U16) (hrel : g.Operand (field opcode 3) (field opcode 0))
    (hill : opcode ≠ 0x003C → opcode ≠ 0x007C → dataAlterableRejects opcode = true →
      g.illegal = true) : Micro g .decode .finished (execOri opcode : M σ Unit) :=
  .execImmediateLogic opcode hrel (fun _ _ h h' => h.or h') hill

theorem execEori (opcode : U16) (hrel : g.Operand (field opcode 3) (field opcode 0))
    (hill : opcode ≠ 0x0A3C → opcode ≠ 0x0A7C → dataAlterableRejects opcode = true →
      g.illegal = true) : Micro g .decode .finished (execEori opcode : M σ Unit) :=
  .execImmediateLogic opcode hrel (fun _ _ h h' => h.xor h') hill

/-! ## Bit manipulation -/

theorem bitNumber (opcode : U16) : Micro g .decode .decode (bitNumber opcode : M σ U32) :=
  .ite (fun _ => .op (.get (visible_dRegs _))) fun _ => .step (.fetch before) fun _ => .pure _

theorem execBtst (opcode : U16) (hrel : g.Operand (field opcode 3) (field opcode 0))
    (hill : btstRejects (opcode &&& 0x0100 != 0) (field opcode 3) (field opcode 0) = true →
      g.illegal = true) :
    Micro g .decode .finished (execBtst opcode : M σ Unit) := by
  refine .ite (fun h => .op (.illegal (hill h))) fun h => ?_
  refine .seq (.bitNumber _) fun _ => .ite (fun _ => ?_) fun _ => ?_
  · exact .getD fun _ => .last (.modifySr before (.flagsBit _ _))
  · exact .seq (.calcEa before _ _ _ hrel fun h7 hr =>
        (not_reserved_of_btst _ _ _ h h7 hr).elim) fun _ =>
      .last (.modifySr before (.flagsBit _ _))

theorem execBitOp {op : U32 → U32 → U32} (opcode : U16)
    (hrel : g.Operand (field opcode 3) (field opcode 0))
    (hill : notDataAlterable (field opcode 3) (field opcode 0) = true → g.illegal = true) :
    Micro g .decode .finished (execBitOp op opcode : M σ Unit) := by
  refine .ite (fun h => .op (.illegal (hill h))) fun h => ?_
  refine .seq (.bitNumber _) fun _ => .ite (fun _ => ?_) fun _ => ?_
  · exact .getD fun _ => .step (.modifySr before (.flagsBit _ _)) fun _ =>
      .last (.setD before _ _)
  · exact .seq (.calcEa before _ _ _ hrel fun h7 hr =>
        (not_reserved_of_dataAlterable _ _ h h7 hr).elim) fun _ =>
      .step (.modifySr before (.flagsBit _ _)) fun _ => .last (.write8 before _ _)

theorem execTas (opcode : U16) (hrel : g.Operand (field opcode 3) (field opcode 0))
    (hill : notDataAlterable (field opcode 3) (field opcode 0) = true → g.illegal = true) :
    Micro g .decode .finished (execTas opcode : M σ Unit) := by
  refine .ite (fun h => .op (.illegal (hill h))) fun h => ?_
  refine .seq (.calcEa before _ _ _ hrel fun h7 hr =>
      (not_reserved_of_dataAlterable _ _ h h7 hr).elim) fun _ =>
    .step (.modifySr before (.flagsTas _)) fun _ =>
      .step (.tasAllowsWrite before) fun _ => .ite (fun _ => ?_) fun _ => .ret _
  exact .ite (fun _ => .getD fun _ => .last (.setD before _ _)) fun _ =>
    .last (.write8 before _ _)

end Micro

end M68k
