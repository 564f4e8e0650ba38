import Rocket68.Theorems.Arithmetic

/-!
# Comparisons and the conditions after them

CMP, CMPA, CMPI and CMPM subtract without storing. The sixteen conditions read the
borrow, the zero and the signed order off the flags that subtraction leaves.
-/

namespace M68k

open Trap TrapM Num

variable {σ : Type} {h : Host σ} {s u : M68kCpu σ}

/-! ## The operands -/

/-- The operands of CMPI: the immediate, then the destination. -/
def cmpiOperands (mode reg : Fin 8) (size : M68kSize) : M σ (U32 × U32) := do
  let src ← fetchImmediate size
  charge (if size = .long then 8 else 4)
  let ea ← calcEa mode reg size
  pure (src, ea.value)

/-- The source operand of CMPM. -/
def cmpmSource (reg : Fin 8) (size : M68kSize) : M σ U32 := do
  let srcAddr ← getA reg
  if size = .long then do
    setA reg ((← getA reg) + 2)
    let v ← readSize srcAddr size
    setA reg ((← getA reg) + 2)
    pure v
  else do
    setA reg ((← getA reg) + stepSize reg size)
    readSize srcAddr size

/-- The operands of CMPM, source first. -/
def cmpmOperands (regIdx reg : Fin 8) (size : M68kSize) : M σ (U32 × U32) := do
  latchFaultPc ((← getPc) + 2)
  charge 4
  let srcVal ← cmpmSource reg size
  charge (if size = .long then 8 else 4)
  let destVal ← readSize (← getA regIdx) size
  setA regIdx ((← getA regIdx) + stepSize regIdx size)
  pure (srcVal, destVal)

theorem execCmpm_eq (regIdx reg : Fin 8) (size : M68kSize) :
    (execCmpm regIdx reg size : M σ Unit) =
      (cmpmOperands regIdx reg size >>= fun operands =>
        modifySr (flagsCmp operands.1 operands.2 (operands.2 - operands.1) size)) := by
  unfold execCmpm cmpmOperands cmpmSource
  simp only [bind_assoc, pure_bind]
  congr
  funext
  by_cases hlong : size = .long
  · simp only [if_pos hlong, bind_assoc, pure_bind]
  · simp only [if_neg hlong, bind_assoc]

/-- `op` compares operands of `size`, and they are delivered in the state `u`: `dest`, the
first operand of the order, and `src`. -/
inductive Compares (h : Host σ) (s : M68kCpu σ) :
    U16 → M68kSize → U32 → U32 → M68kCpu σ → Prop where
  | cmp {op : U16} {ea : Ea} {u : M68kCpu σ} (hline : lineOf op = 0xB) (hopmode : field op 6 < 3)
      (hlegal : cmpRejects (field op 6) (field op 3) (field op 0) = false)
      (hea : calcEa (field op 3) (field op 0) (opmodeSize (field op 6)) h s = .ok ea u) :
      Compares h s op (opmodeSize (field op 6)) (u.dRegs (field op 9)) ea.value u
  | cmpaWord {op : U16} {ea : Ea} {u : M68kCpu σ} (hline : lineOf op = 0xB)
      (hopmode : field op 6 = 3)
      (hlegal : cmpRejects (field op 6) (field op 3) (field op 0) = false)
      (hea : calcEa (field op 3) (field op 0) .word h s = .ok ea u) :
      Compares h s op .long (u.aRegs (field op 9)) (sext16 ea.value) u
  | cmpaLong {op : U16} {ea : Ea} {u : M68kCpu σ} (hline : lineOf op = 0xB)
      (hopmode : field op 6 = 7)
      (hlegal : cmpRejects (field op 6) (field op 3) (field op 0) = false)
      (hea : calcEa (field op 3) (field op 0) .long h s = .ok ea u) :
      Compares h s op .long (u.aRegs (field op 9)) ea.value u
  | cmpi {op : U16} {size : M68kSize} {src dest : U32} {u : M68kCpu σ} (hline : lineOf op = 0)
      (htop : conditionField op = 0xC) (hsize : sizeOf? (sizeBits op) = some size)
      (hlegal : notDataAlterable (field op 3) (field op 0) = false)
      (hoperands : cmpiOperands (field op 3) (field op 0) size h s = .ok (src, dest) u) :
      Compares h s op size dest src u
  | cmpm {op : U16} {src dest : U32} {u : M68kCpu σ} (hline : lineOf op = 0xB)
      (hopmode : regToEa (field op 6) = true) (hmode : field op 3 = 1)
      (hoperands : cmpmOperands (field op 9) (field op 0) (opmodeSize (field op 6)) h s =
        .ok (src, dest) u) :
      Compares h s op (opmodeSize (field op 6)) dest src u

/-! ## The order -/

/-- What the conditions say when `d` was compared with `s`. -/
structure Decides (size : M68kSize) (d s : Nat) (sr : U16) : Prop where
  hi : checkCondition sr 2 = decide (s < d)
  ls : checkCondition sr 3 = decide (d ≤ s)
  cc : checkCondition sr 4 = decide (s ≤ d)
  cs : checkCondition sr 5 = decide (d < s)
  ne : checkCondition sr 6 = decide (d ≠ s)
  eq : checkCondition sr 7 = decide (d = s)
  ge : checkCondition sr 12 = decide (signed size.half s ≤ signed size.half d)
  lt : checkCondition sr 13 = decide (signed size.half d < signed size.half s)
  gt : checkCondition sr 14 = decide (signed size.half s < signed size.half d)
  le : checkCondition sr 15 = decide (signed size.half d ≤ signed size.half s)

variable {size : M68kSize}

/-- A word is known by its signed value. -/
theorem signed_injective {half d s : Nat} (hd : d < 2 * half) (hs : s < 2 * half)
    (h : signed half d = signed half s) : d = s := by
  unfold signed at h
  split at h <;> split at h <;> omega

/-- The conditions, from the borrow, the zero and the signed order. -/
theorem decides_of {d s : Nat} {sr : U16} (hd : d < 2 * size.half) (hs : s < 2 * size.half)
    (hc : (ccr sr).c = decide (d < s)) (hz : (ccr sr).z = decide (d = s))
    (hnv : ((ccr sr).n ^^ (ccr sr).v) = decide (signed size.half d < signed size.half s)) :
    Decides size d s sr := by
  have hinj : signed size.half d = signed size.half s → d = s := signed_injective hd hs
  have hsigned : d = s → signed size.half d = signed size.half s := congrArg _
  have hne : ((ccr sr).n && !(ccr sr).v || !(ccr sr).n && (ccr sr).v) =
      decide (signed size.half d < signed size.half s) := by
    rw [← hnv]
    cases (ccr sr).n <;> cases (ccr sr).v <;> rfl
  have heq : ((ccr sr).n && (ccr sr).v || !(ccr sr).n && !(ccr sr).v) =
      !decide (signed size.half d < signed size.half s) := by
    rw [← hnv]
    cases (ccr sr).n <;> cases (ccr sr).v <;> rfl
  have hgt : ((ccr sr).n && (ccr sr).v && !(ccr sr).z || !(ccr sr).n && !(ccr sr).v && !(ccr sr).z)
      = (((ccr sr).n && (ccr sr).v || !(ccr sr).n && !(ccr sr).v) && !(ccr sr).z) := by
    rw [Bool.and_or_distrib_right]
  constructor
  · show (!(ccr sr).c && !(ccr sr).z) = _
    rw [hc, hz, Bool.eq_iff_iff]
    simp
    omega
  · show ((ccr sr).c || (ccr sr).z) = _
    rw [hc, hz, Bool.eq_iff_iff]
    simp
    omega
  · show (!(ccr sr).c) = _
    rw [hc, ← decide_not, decide_eq_decide]
    omega
  · exact hc
  · show (!(ccr sr).z) = _
    rw [hz, ← decide_not]
  · exact hz
  · show ((ccr sr).n && (ccr sr).v || !(ccr sr).n && !(ccr sr).v) = _
    rw [heq, ← decide_not, decide_eq_decide]
    omega
  · exact hne
  · show ((ccr sr).n && (ccr sr).v && !(ccr sr).z || !(ccr sr).n && !(ccr sr).v && !(ccr sr).z) = _
    rw [hgt, heq, hz, Bool.eq_iff_iff]
    simp
    omega
  · show ((ccr sr).z || (ccr sr).n && !(ccr sr).v || !(ccr sr).n && (ccr sr).v) = _
    rw [Bool.or_assoc, hne, hz, Bool.eq_iff_iff]
    simp
    omega

/-- The flags of a comparison decide the order of its operands. -/
theorem decides_flagsCmp (size : M68kSize) (src dest : U32) (sr : U16) :
    Decides size (low size dest) (low size src) (flagsCmp src dest (dest - src) size sr) := by
  have H := subtracts size dest src false
  have hplain : dest - src - (if false = true then 1 else 0) = dest - src := by simp
  rw [hplain] at H
  have hborrow := H.borrow_eq
  have hless := H.less_iff
  rw [← signBit_eq, ← signBit_eq, ← signBit_eq] at hborrow hless
  refine decides_of (low_lt _ _) (low_lt _ _) ?_ ?_ ?_
  · rw [ccr_flagsCmp]
    exact hborrow.symm
  · rw [ccr_flagsCmp, Bool.eq_iff_iff, zeroSized_eq]
    simpa using H.zero_iff
  · rw [ccr_flagsCmp, Bool.eq_iff_iff, decide_eq_true_eq]
    exact hless

/-- Each even condition is the negation of the next. -/
theorem condition_negated (sr : U16) (cond : Fin 16) (heven : (cond : Nat) % 2 = 0) :
    checkCondition sr cond = !checkCondition sr (cond + 1) := by
  unfold checkCondition
  dsimp only
  generalize (sr &&& srC != 0) = c
  generalize (sr &&& srV != 0) = v
  generalize (sr &&& srZ != 0) = z
  generalize (sr &&& srN != 0) = n
  revert c v z n cond
  decide

/-! ## The instructions -/

theorem low_masked (size : M68kSize) (v : U32) : low size (v &&& valueMask size) = low size v := by
  rw [← and_valueMask, BitVec.and_assoc, BitVec.and_self, and_valueMask]

/-- Operand resolution, as far as its memory operand, stores nothing. -/
theorem Trans.operands {k : Option (Nat → M68kCpu σ → M68kCpu σ × U32)} {g : Grade} {p q : Phase}
    {t : M68kCpu σ} (ht : Trans k g p q s t) (hq : q ≤ .operand) :
    t.memory = s.memory ∧ t.dRegs = s.dRegs ∧ t.sr = s.sr := by
  cases ht with
  | latch _ h =>
    rw [h]
    exact ⟨rfl, rfl, rfl⟩
  | jump => cases p <;> exact absurd hq (by decide)
  | setD | ccr | write | setSr | setUsp | control | stop | raised | trapped | targetFault =>
    exact absurd hq (by decide)
  | charge | rewind | fetch | read | setA => exact ⟨rfl, rfl, rfl⟩

theorem Run.operands {k : Option (Nat → M68kCpu σ → M68kCpu σ × U32)} {g : Grade} {p q : Phase}
    {t : M68kCpu σ} (ht : Run k g p q s t) (hq : q ≤ .operand) :
    t.memory = s.memory ∧ t.dRegs = s.dRegs ∧ t.sr = s.sr := by
  induction ht with
  | refl => exact ⟨rfl, rfl, rfl⟩
  | skip _ _ ih => exact ih hq
  | step htrans hrun ih =>
    obtain ⟨hmem, hregs, hsr⟩ := htrans.operands (Phase.le_trans hrun.le hq)
    obtain ⟨hmem', hregs', hsr'⟩ := ih hq
    exact ⟨hmem'.trans hmem, hregs'.trans hregs, hsr'.trans hsr⟩

/-- The grade of an operand read by `mode` and `reg`. -/
def operandGrade (s : M68kCpu σ) (mode reg : Fin 8) : Grade where
  supervisor := s.supervisor
  interleaved := false
  illegal := true
  trap := false
  usp := false
  stack := true
  refunds := false
  marks := false
  peeks := false
  relative := relativeMode mode reg
  inside := false

instance (s : M68kCpu σ) (mode reg : Fin 8) : Outside (operandGrade s mode reg) := ⟨rfl⟩

theorem operandGrade_writes (s : M68kCpu σ) (mode reg r : Fin 8) :
    (operandGrade s mode reg).Writes r := fun _ => .inr rfl

theorem operandGrade_operand (s : M68kCpu σ) (mode reg : Fin 8) :
    (operandGrade s mode reg).Operand mode reg := ⟨rfl, fun _ => operandGrade_writes s mode reg reg⟩

/-- A disciplined operand resolution that returns. -/
theorem Micro.delivered {α : Type} (mode reg : Fin 8) {m : M σ α} {a : α}
    {k : Option (Nat → M68kCpu σ → M68kCpu σ × U32)} (hs : Running s)
    (hm : Micro (operandGrade s mode reg) .decode .operand m) (hrun : m (ackHost k) s = .ok a u) :
    u.memory = s.memory ∧ u.dRegs = s.dRegs ∧ u.sr = s.sr :=
  ((wp_of_ok hrun).mp (hm.run (fun _ => hs) fun _ => rfl)).1.operands (Phase.le_refl _)

theorem Micro.cmpiOperands {g : Grade} [Outside g] {mode reg : Fin 8} {size : M68kSize}
    (hrel : g.Operand mode reg) (hlegal : notDataAlterable mode reg = false) :
    Micro g .decode .operand (cmpiOperands mode reg size : M σ (U32 × U32)) := by
  have hreserved : mode = 7 → ¬4 < reg := by
    rintro rfl hr
    have h1 : (reg > 1) := by omega
    simp [notDataAlterable, h1] at hlegal
  exact .seq (.fetchImmediate _) fun _ => .charge (ite_nonneg (by decide) (by decide)) fun _ =>
    .seq (.calcEa before _ _ _ hrel fun h7 hr => (hreserved h7 hr).elim) fun _ => .pure _

theorem Micro.cmpmSource {g : Grade} [Reading g] {reg : Fin 8} (hr : g.Writes reg)
    (size : M68kSize) :
    Micro g .decode .operand (cmpmSource reg size : M σ U32) := by
  refine .getA fun _ => .ite (fun _ => ?_) fun _ => ?_
  · exact .getA fun _ => .step (.setA before hr _) fun _ =>
      .seq (.readSize (.inl before) _ _) fun _ => .getA fun _ =>
        .step (.setA before hr _) fun _ => .pure _
  · exact .getA fun _ => .step (.setA before hr _) fun _ => .readSize (.inl before) _ _

theorem Micro.cmpmOperands {g : Grade} [Reading g] {regIdx reg : Fin 8} (hx : g.Writes regIdx)
    (hy : g.Writes reg) (size : M68kSize) :
    Micro g .decode .operand (cmpmOperands regIdx reg size : M σ (U32 × U32)) :=
  .getPc fun _ => .step (.latchFaultPc before _) fun _ => .charge (by decide) fun _ =>
    .seq (.cmpmSource hy _) fun _ => .charge (ite_nonneg (by decide) (by decide)) fun _ =>
      .getA fun _ => .seq (.readSize (.inl before) _ _) fun _ => .getA fun _ =>
        .step (.setA before hx _) fun _ => .pure _

variable {op : U16} {dest src : U32}

/-- Reading the operands of a comparison changes neither memory nor a data register. -/
theorem Compares.operands {k : Option (Nat → M68kCpu σ → M68kCpu σ × U32)} (hs : Running s)
    (hc : Compares (ackHost k) s op size dest src u) :
    u.memory = s.memory ∧ u.dRegs = s.dRegs ∧ u.sr = s.sr := by
  have hea {size : M68kSize} {ea : Ea} {v : M68kCpu σ}
      (hrun : calcEa (field op 3) (field op 0) size (ackHost k) s = .ok ea v) :
      v.memory = s.memory ∧ v.dRegs = s.dRegs ∧ v.sr = s.sr :=
    Micro.delivered (field op 3) (field op 0) hs
      (.calcEa before _ _ _ (operandGrade_operand s _ _) fun _ _ => ⟨rfl, rfl⟩) hrun
  cases hc with
  | cmp _ _ _ hrun => exact hea hrun
  | cmpaWord _ _ _ hrun => exact hea hrun
  | cmpaLong _ _ _ hrun => exact hea hrun
  | cmpi _ _ _ hlegal hrun =>
    exact Micro.delivered _ _ hs (.cmpiOperands (operandGrade_operand s _ _) hlegal) hrun
  | cmpm _ _ _ hrun =>
    have : Reading (operandGrade s 0 0) := ⟨rfl⟩
    exact Micro.delivered 0 0 hs (.cmpmOperands (operandGrade_writes s 0 0 _)
      (operandGrade_writes s 0 0 _) _) hrun

theorem dispatch_compare (hline : lineOf op = 0xB)
    (hform : regToEa (field op 6) = false ∨ field op 3 = 1) :
    (dispatch op : M σ Int) = costed (execCmp op) (cmpCycles (field op 6) (field op 3)) := by
  have hcmp : ¬((regToEa (field op 6) = true) ∧ field op 3 ≠ 1) := by
    rcases hform with h | h <;> simp [h]
  unfold dispatch
  rw [hline]
  show lineB op = _
  rw [lineB, if_neg hcmp]

/-- CMP masks its operands before it subtracts. -/
theorem decides_masked (src dest : U32) (sr : U16) :
    Decides size (low size dest) (low size src)
      (flagsCmp (src &&& valueMask size) (dest &&& valueMask size)
        ((dest &&& valueMask size) - (src &&& valueMask size)) size sr) := by
  have H := decides_flagsCmp size (src &&& valueMask size) (dest &&& valueMask size) sr
  rw [low_masked, low_masked] at H
  exact H

/-- What a comparison does past its operands. -/
theorem Compares.run (hc : Compares h s op size dest src u) :
    ∃ cycles src' dest', dispatch op h s = .ok cycles
        { u with sr := flagsCmp src' dest' (dest' - src') size u.sr } ∧
      ∀ sr, Decides size (low size dest) (low size src)
        (flagsCmp src' dest' (dest' - src') size sr) := by
  cases hc with
  | @cmp ea _ hline hopmode hlegal hea =>
    obtain ⟨hto, haddress⟩ := toRegister hopmode
    have hcmpm : ¬((regToEa (field op 6) = true) ∧ field op 3 = 1) := by simp [hto]
    refine ⟨cmpCycles (field op 6) (field op 3), ea.value &&& valueMask (opmodeSize (field op 6)),
      u.dRegs (field op 9) &&& valueMask (opmodeSize (field op 6)), ?_,
      fun sr => decides_masked _ _ _⟩
    rw [dispatch_compare hline (.inl hto)]
    apply costed_ok
    unfold execCmp
    dsimp only
    rw [if_neg hcmpm, hlegal, if_neg Bool.false_ne_true, bind_ok hea, if_neg haddress]
    rfl
  | @cmpaWord ea _ hline hopmode hlegal hea =>
    refine ⟨cmpCycles (field op 6) (field op 3), sext16 ea.value, u.aRegs (field op 9), ?_,
      fun sr => decides_flagsCmp _ _ _ _⟩
    rw [dispatch_compare hline (.inl (by rw [hopmode]; rfl))]
    apply costed_ok
    unfold execCmp
    dsimp only
    rw [hopmode] at hlegal ⊢
    rw [if_neg (fun h => Bool.noConfusion h.1), hlegal, if_neg Bool.false_ne_true,
      show opmodeSize 3 = .word from rfl, bind_ok hea, if_pos (.inl rfl)]
    rfl
  | @cmpaLong ea _ hline hopmode hlegal hea =>
    refine ⟨cmpCycles (field op 6) (field op 3), ea.value, u.aRegs (field op 9), ?_,
      fun sr => decides_flagsCmp _ _ _ _⟩
    rw [dispatch_compare hline (.inl (by rw [hopmode]; rfl))]
    apply costed_ok
    unfold execCmp
    dsimp only
    rw [hopmode] at hlegal ⊢
    rw [if_neg (fun h => Bool.noConfusion h.1), hlegal, if_neg Bool.false_ne_true,
      show opmodeSize 7 = .long from rfl, bind_ok hea, if_pos (.inr rfl)]
    rfl
  | cmpi hline htop hsize hlegal hoperands =>
    refine ⟨if sizeBits op = 2 ∧ op &&& 0x38 = 0 then 6 else 4, src, dest, ?_,
      fun sr => decides_flagsCmp _ _ _ _⟩
    rw [dispatch_cmpi hline htop hsize]
    apply costed_ok
    have heq : execCmpi op h s = (cmpiOperands (field op 3) (field op 0) size >>= fun operands =>
        modifySr (flagsCmp operands.1 operands.2 (operands.2 - operands.1) size)) h s := by
      unfold execCmpi cmpiOperands
      rw [hsize, hlegal]
      simp only [bind_assoc, pure_bind]
      rfl
    rw [heq, bind_ok hoperands]
    rfl
  | cmpm hline hopmode hmode hoperands =>
    refine ⟨cmpCycles (field op 6) (field op 3), src, dest, ?_, fun sr => decides_flagsCmp _ _ _ _⟩
    rw [dispatch_compare hline (.inr hmode)]
    apply costed_ok
    unfold execCmp
    dsimp only
    rw [if_pos ⟨hopmode, hmode⟩, execCmpm_eq, bind_ok hoperands]
    rfl

/-- **A comparison decides the order.** Once its operands are delivered it rewrites the
condition codes other than X and nothing else; the conditions then say how the operands
compare, unsigned and signed. And for every status register an even condition is the
negation of the next. -/
theorem compare_decides (hc : Compares h s op size dest src u) :
    (∃ cycles t, dispatch op h s = .ok cycles t ∧ t = { u with sr := t.sr } ∧
      (ccr t.sr).x = (ccr u.sr).x ∧ Decides size (low size dest) (low size src) t.sr) ∧
    (∀ k, h = ackHost k → Running s →
      u.memory = s.memory ∧ u.dRegs = s.dRegs ∧ u.sr = s.sr) ∧
    ∀ (sr : U16) (cond : Fin 16), (cond : Nat) % 2 = 0 →
      checkCondition sr cond = !checkCondition sr (cond + 1) := by
  refine ⟨?_, ?_, condition_negated⟩
  · obtain ⟨cycles, src', dest', hrun, hdecides⟩ := hc.run
    refine ⟨cycles, _, hrun, rfl, ?_, hdecides _⟩
    show (ccr (flagsCmp src' dest' (dest' - src') size u.sr)).x = _
    rw [ccr_flagsCmp]
  · rintro k rfl hs
    exact hc.operands hs

/-- CMP.W D1,D0. -/
theorem compare_decides_word :
    (∃ cycles t, dispatch 0xB041 (Host.none Unit) allOnes = .ok cycles t ∧
      t = { allOnes with sr := t.sr } ∧ (ccr t.sr).x = (ccr allOnes.sr).x ∧
      Decides .word 0xFFFF 0xFFFF t.sr) ∧
    (∀ k, Host.none Unit = ackHost k → Running allOnes →
      allOnes.memory = allOnes.memory ∧ allOnes.dRegs = allOnes.dRegs ∧
        allOnes.sr = allOnes.sr) ∧
    ∀ (sr : U16) (cond : Fin 16), (cond : Nat) % 2 = 0 →
      checkCondition sr cond = !checkCondition sr (cond + 1) :=
  compare_decides (@Compares.cmp _ _ _ 0xB041 _ _ rfl (by decide) rfl (calcEa_data _ _ _ _))

end M68k
