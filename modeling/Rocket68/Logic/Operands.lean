import Rocket68.Logic.Ccr

/-!
# The discipline of operand resolution

Effective address resolution fetches, reads and adjusts address registers, and
nothing else; an encoding without an effective address is rejected before any of
that.
-/

namespace M68k

open Trap TrapM

variable {σ : Type} {g : Grade} {p : Phase}

/-- The PC-relative modes, d16(PC) and d8(PC,Xn). -/
def relativeMode (mode reg : Fin 8) : Bool := mode == 7 && (reg == 2 || reg == 3)

/-- The operand of an opcode is PC-relative. -/
def isRelative (opcode : U16) : Bool := relativeMode (field opcode 3) (field opcode 0)

/-- The grade allows the operand of `mode` and `reg`: reads are bracketed as the mode asks, and
the register it steps may be written. -/
structure Grade.Operand (g : Grade) (mode reg : Fin 8) : Prop where
  relative : g.relative = relativeMode mode reg
  steps : mode = 3 ∨ mode = 4 → g.Writes reg

theorem Grade.Operand.of_supervisor {mode reg : Fin 8} (h : g.supervisor = true)
    (hrel : g.relative = relativeMode mode reg) : g.Operand mode reg :=
  ⟨hrel, fun _ => Grade.writes_supervisor h reg⟩

theorem Reading.of (ho : g.inside = false) (h : g.relative = false) : Reading g := ⟨ho.trans h.symm⟩

theorem Reading.bracketed (h : g.relative = true) : Reading g.bracketed := ⟨h.symm⟩

namespace Micro

theorem readSize [Reading g] (hp : ReadPhase g p) (address : U32) (size : M68kSize) :
    Micro g p p (readSize address size : M σ U32) := by
  cases size with
  | byte => exact .step (.read8 hp address) fun _ => .pure _
  | word => exact .step (.read16 hp address) fun _ => .pure _
  | long => exact .op (.read32 hp address)

theorem writeSize [Outside g] (hp : p ≤ .commit) (address value : U32) (size : M68kSize) :
    Micro g p .commit (writeSize address value size : M σ Unit) := by
  cases size with
  | byte => exact .op (.write8 hp address _)
  | word => exact .op (.write16 hp address _)
  | long => exact .op (.write32 hp address _)

theorem pop32 [Reading g] (hp : p ≤ .operand) (h7 : g.Writes 7) :
    Micro g p .operand (pop32 : M σ U32) :=
  .getA fun _ => .step (.read32 (.inl hp) _) fun _ => .getA fun _ =>
    .step (.setA (commit_of_operand hp) h7 _) fun _ => .ending (touched_le hp) (.pure _)

theorem pop16 [Reading g] (hp : p ≤ .operand) (h7 : g.Writes 7) :
    Micro g p .operand (pop16 : M σ U16) :=
  .getA fun _ => .step (.read16 (.inl hp) _) fun _ => .getA fun _ =>
    .step (.setA (commit_of_operand hp) h7 _) fun _ => .ending (touched_le hp) (.pure _)

theorem push32 [Outside g] (hp : p ≤ .operand) (h7 : g.Writes 7) (value : U32) :
    Micro g p .commit (push32 value : M σ Unit) :=
  .getA fun _ => .step (.setA (commit_of_operand hp) h7 _) fun _ => .getA fun _ =>
    .op (.write32 (commit_of_operand (touched_le hp)) _ _)

theorem setFaultPc (hp : p ≤ .commit) (mode reg : Fin 8) (size : M68kSize) :
    Micro g p p (setFaultPc mode reg size : M σ Unit) := by
  unfold M68k.setFaultPc
  cases faultPcOffset mode reg size with
  | some offset => exact .getPc fun _ => .op (.latchFaultPc hp _)
  | none => exact .pure _

theorem indexValue (ext : U16) : Micro g p p (indexValue ext : M σ U32) :=
  .ite (fun _ => .getA fun _ => .pure _) fun _ => .getD fun _ => .pure _

theorem eaMemory (hp : p ≤ .operand) (address : U32) (size : M68kSize) {fetchValue : Bool}
    (hread : fetchValue = true → Reading g) :
    Micro g p p (eaMemory address size fetchValue : M σ Ea) := by
  refine .ite (fun h => ?_) fun _ => .seq (.pure _) fun _ => .pure _
  have := hread h
  exact .seq (.readSize (.inl hp) _ _) fun _ => .pure _

theorem eaProgram [Outside g] (hp : p ≤ .operand) (address : U32) (size : M68kSize)
    {fetchValue : Bool} (hread : fetchValue = true → g.relative = true) :
    Micro g p p (eaProgram address size fetchValue : M σ Ea) := by
  refine .ite (fun h => ?_) fun _ => .pure _
  have hc := commit_of_operand hp
  have := Reading.bracketed (hread h)
  exact .programSpace (hread h) hc hc (.readSize (.inl hp) _ _) fun _ => .pure _

theorem fetchLong [Outside g] (hp : p ≤ .operand) : Micro g p p (fetchLong : M σ U32) :=
  .step (.fetch hp) fun _ => .step (.fetch hp) fun _ => .pure _

theorem eaImmediate [Outside g] (hp : p ≤ .operand) (size : M68kSize) :
    Micro g p p (eaImmediate size : M σ Ea) := by
  cases size with
  | byte => exact .step (.fetch hp) fun _ => .pure _
  | word => exact .step (.fetch hp) fun _ => .pure _
  | long => exact .seq (.fetchLong hp) fun _ => .pure _

/-- An operand is read inside the bracket exactly in the PC-relative modes. -/
theorem reading_of_mode [Outside g] {mode reg : Fin 8} (hrel : g.relative = relativeMode mode reg)
    (h : relativeMode mode reg = false) : Reading g := .of Outside.inside (hrel.trans h)

private theorem four_lt_of_ne : ∀ r : Fin 8, r ≠ 0 → r ≠ 1 → r ≠ 2 → r ≠ 3 → r ≠ 4 → 4 < r := by
  decide

/-- The submodes; the three unused ones reject the instruction undecoded. -/
theorem calcEaMode7 [Outside g] (hp : p ≤ .operand) (reg : Fin 8) (size : M68kSize)
    {fetchValue : Bool} (hread : fetchValue = true → g.relative = relativeMode 7 reg)
    (hill : 4 < reg → p = .decode ∧ g.illegal = true) :
    Micro g p .operand (calcEaMode7 reg size fetchValue : M σ Ea) := by
  unfold M68k.calcEaMode7
  split
  · exact .step (.fetch hp) fun _ => .ending hp
      (.eaMemory hp _ _ fun h => reading_of_mode (hread h) rfl)
  · exact .seq (.fetchLong hp) fun _ => .ending hp
      (.eaMemory hp _ _ fun h => reading_of_mode (hread h) rfl)
  · exact .step (.fetch hp) fun _ => .getPc fun _ => .ending hp (.eaProgram hp _ _ hread)
  · exact .step (.fetch hp) fun _ => .getPc fun _ => .seq (.indexValue _) fun _ =>
      .ending hp (.eaProgram hp _ _ hread)
  · exact .ending hp (.eaImmediate hp _)
  · next h0 h1 h2 h3 h4 =>
    obtain ⟨rfl, hi⟩ := hill (four_lt_of_ne _ h0 h1 h2 h3 h4)
    exact .step (.illegalEa hi) fun _ => .ret _

/-- Resolution ends with at most address registers changed. -/
theorem calcEaEx [Outside g] (hp : p ≤ .operand) (mode reg : Fin 8) (size : M68kSize)
    {fetchValue : Bool} (hread : fetchValue = true → g.relative = relativeMode mode reg)
    (hsteps : mode = 3 ∨ mode = 4 → g.Writes reg)
    (hill : mode = 7 → 4 < reg → p = .decode ∧ g.illegal = true) :
    Micro g p .operand (calcEaEx mode reg size fetchValue : M σ Ea) := by
  have hc := commit_of_operand hp
  have hdata (h : relativeMode mode reg = false) : fetchValue = true → Reading g :=
    fun hv => reading_of_mode (hread hv) h
  refine .seq (.setFaultPc hc _ _ _) fun _ => ?_
  split
  · exact .getD fun _ => .ending hp (.pure _)
  · exact .getA fun _ => .ending hp (.pure _)
  · exact .getA fun _ => .ending hp (.eaMemory hp _ _ (hdata rfl))
  · have h3 := hsteps (.inl rfl)
    refine .getA fun _ => .ite (fun h => ?_) fun _ => ?_
    · have := hdata rfl (Bool.and_eq_true_iff.mp h).1
      exact .seq (.readSize (.inl hp) _ _) fun _ => .getA fun _ => .step (.setA hc h3 _) fun _ =>
        .ending (touched_le hp) (.pure _)
    · exact .step (.setA hc h3 _) fun _ =>
        .ending (touched_le hp) (.eaMemory (touched_le hp) _ _ (hdata rfl))
  · exact .getA fun _ => .step (.setA hc (hsteps (.inr rfl)) _) fun _ =>
      .ending (touched_le hp) (.eaMemory (touched_le hp) _ _ (hdata rfl))
  · exact .step (.fetch hp) fun _ => .getA fun _ => .ending hp (.eaMemory hp _ _ (hdata rfl))
  · exact .step (.fetch hp) fun _ => .seq (.indexValue _) fun _ => .getA fun _ =>
      .ending hp (.eaMemory hp _ _ (hdata rfl))
  · exact .calcEaMode7 hp reg size hread (hill rfl)

/-! ### Costs -/

theorem eaCycles_nonneg (mode reg : Fin 8) (size : M68kSize) : 0 ≤ eaCycles mode reg size := by
  revert mode reg
  cases size <;> decide

/-- A long operand never costs less than a word. -/
theorem eaCycles_word_le (mode reg : Fin 8) :
    eaCycles mode reg .word ≤ eaCycles mode reg .long := by
  revert mode reg
  decide

theorem controlEaCycles_nonneg (mode reg : Fin 8) (isJmp : Bool) :
    0 ≤ controlEaCycles mode reg isJmp := by
  revert mode reg
  cases isJmp <;> decide

theorem calcEa [Outside g] (hp : p ≤ .operand) (mode reg : Fin 8) (size : M68kSize)
    (hrel : g.Operand mode reg)
    (hill : mode = 7 → 4 < reg → p = .decode ∧ g.illegal = true) :
    Micro g p .operand (calcEa mode reg size : M σ Ea) := by
  refine .charge ?_ fun _ => .seq
    (.calcEaEx hp _ _ _ (fun _ => hrel.relative) hrel.steps hill) fun _ =>
    .charge ?_ fun _ => .pure _
  · split <;> exact eaCycles_nonneg _ _ _
  · split
    · next h =>
      subst h
      have := eaCycles_word_le mode reg
      omega
    · omega

theorem calcEaAddr [Outside g] (hp : p ≤ .operand) (mode reg : Fin 8) (size : M68kSize)
    (hsteps : mode = 3 ∨ mode = 4 → g.Writes reg)
    (hill : mode = 7 → 4 < reg → p = .decode ∧ g.illegal = true) :
    Micro g p .operand (calcEaAddr mode reg size : M σ Ea) :=
  .charge (eaCycles_nonneg _ _ _) fun _ => .calcEaEx hp _ _ _ nofun hsteps hill

theorem calcEaAddrNocost [Outside g] (hp : p ≤ .operand) (mode reg : Fin 8) (size : M68kSize)
    (hsteps : mode = 3 ∨ mode = 4 → g.Writes reg)
    (hill : mode = 7 → 4 < reg → p = .decode ∧ g.illegal = true) :
    Micro g p .operand (calcEaAddrNocost mode reg size : M σ Ea) :=
  .calcEaEx hp _ _ _ nofun hsteps hill

/-- The control modes; any other rejects the instruction undecoded. -/
theorem calcEaCtl [Outside g] (mode reg : Fin 8) (isJmp : Bool)
    (hill : notControl mode reg = true → g.illegal = true) :
    Micro g .decode .operand (calcEaCtl mode reg isJmp : M σ Ea) := by
  refine .ite (fun h => ?_) fun h => ?_
  · exact .step (.illegalEa (hill h)) fun _ => .ret _
  · refine .charge (controlEaCycles_nonneg _ _ _) fun _ =>
      .calcEaEx before _ _ _ nofun (fun hstep => absurd ?_ h) fun h7 hr => absurd ?_ h
    · rcases hstep with rfl | rfl <;> rfl
    · subst h7
      simp only [notControl, Bool.or_eq_true, Bool.and_eq_true, decide_eq_true_eq]
      exact .inr ⟨rfl, by omega⟩

theorem setDSized (hp : p ≤ .commit) (r : Fin 8) (size : M68kSize) (value : U32) :
    Micro g p .commit (setDSized r size value : M σ Unit) :=
  .getD fun _ => .op (.setD hp _ _)

theorem storeEa [Outside g] (hp : p ≤ .commit) (ea : Ea) (size : M68kSize) (value : U32) :
    Micro g p .commit (storeEa ea size value : M σ Unit) :=
  .ite (fun _ => .setDSized hp _ _ _) fun _ => .writeSize hp _ _ _

theorem privilegeViolation [Outside g] :
    Micro g .decode .finished (privilegeViolation : M σ Unit) :=
  .step (.rewind before) fun _ => .op (.violation (.inl rfl))

end Micro

end M68k
