import Rocket68.Logic.Handlers

/-!
# The discipline of the transfers

The derivations for `ops_move.c` and `ops_control.c`: data movement, control
flow, and the supervisor instructions.
-/

namespace M68k

open Trap TrapM

variable {σ : Type} {g : Grade}

/-- The encodings of the status register moves that are rejected. -/
def moveSrRejects (opcode : U16) : Bool :=
  if opcode &&& 0xFFC0 = 0x46C0 then notData (field opcode 3) (field opcode 0)
  else notDataAlterable (field opcode 3) (field opcode 0)

/-- The status register moves read an operand. -/
theorem relativeMode_of {opcode : U16}
    (h : field opcode 3 = 7 ∧ (field opcode 0 = 2 ∨ field opcode 0 = 3)) :
    isRelative opcode = true := by
  obtain ⟨h7, h | h⟩ := h <;> simp [isRelative, relativeMode, h7, h]

theorem not_relativeMode_of {opcode : U16}
    (h : ¬(field opcode 3 = 7 ∧ (field opcode 0 = 2 ∨ field opcode 0 = 3))) :
    isRelative opcode = false := by
  simpa [isRelative, relativeMode] using h

/-! ## Which address register is named -/

/-- An operand that is an address register is the one its mode names. -/
def Ea.Names (mode reg : Fin 8) (ea : Ea) : Prop := ea.isAddr = true → mode = 1 ∧ ea.regNum = reg

theorem Ea.names_of_not {mode reg : Fin 8} {ea : Ea} (h : ea.isAddr = false) :
    ea.Names mode reg := fun haddr => by
  rw [h] at haddr
  cases haddr

theorem calcEaEx_names (mode reg : Fin 8) (size : M68kSize) (fetchValue : Bool) :
    Returns (calcEaEx mode reg size fetchValue : M σ Ea) (Ea.Names mode reg) := by
  have hmemory (address : U32) {mode : Fin 8} :
      Returns (eaMemory address size fetchValue : M σ Ea) (Ea.Names mode reg) :=
    .ite (.after fun _ => .pure (Ea.names_of_not rfl)) (.after fun _ => .pure (Ea.names_of_not rfl))
  have hprogram (address : U32) {mode : Fin 8} :
      Returns (eaProgram address size fetchValue : M σ Ea) (Ea.Names mode reg) :=
    .ite (.after fun _ => .after fun _ => .after fun _ => .pure (Ea.names_of_not rfl))
      (.pure (Ea.names_of_not rfl))
  refine .after fun _ => ?_
  split
  · exact .after fun _ => .pure (Ea.names_of_not rfl)
  · exact .after fun _ => .pure fun _ => ⟨rfl, rfl⟩
  · exact .after fun _ => hmemory _
  · exact .after fun _ => .ite
      (.after fun _ => .after fun _ => .after fun _ => .pure (Ea.names_of_not rfl))
      (.after fun _ => hmemory _)
  · exact .after fun _ => .after fun _ => hmemory _
  · exact .after fun _ => .after fun _ => hmemory _
  · exact .after fun _ => .after fun _ => .after fun _ => hmemory _
  · unfold calcEaMode7
    split
    · exact .after fun _ => hmemory _
    · exact .after fun _ => hmemory _
    · exact .after fun _ => .after fun _ => hprogram _
    · exact .after fun _ => .after fun _ => .after fun _ => hprogram _
    · unfold eaImmediate
      split <;> exact .after fun _ => .pure (Ea.names_of_not rfl)
    · exact .after fun _ => .pure (Ea.names_of_not rfl)

/-- The address registers a resolved destination of MOVE still writes. -/
structure MoveDest.Names (mode reg : Fin 8) (dest : MoveDest) : Prop where
  ea : dest.ea.Names mode reg
  commit : dest.commit.isSome = true → mode = 3 ∨ mode = 4

theorem moveDest_names (mode reg : Fin 8) (size : M68kSize) :
    Returns (moveDest mode reg size : M σ MoveDest) (MoveDest.Names mode reg) := by
  unfold moveDest
  split
  · next h3 =>
    exact .after fun _ => .after fun _ => .pure ⟨Ea.names_of_not rfl, fun _ => .inl h3⟩
  · split
    · next h4 =>
      exact .after fun _ => .after fun _ =>
        .ite (.pure ⟨Ea.names_of_not rfl, fun _ => .inr h4⟩)
          (.after fun _ => .pure ⟨Ea.names_of_not rfl, fun _ => .inr h4⟩)
    · exact .bind (.after fun _ => calcEaEx_names mode reg size false) fun _ hea =>
        .pure ⟨hea, nofun⟩

namespace Micro

variable [Outside g]

/-! ## MOVE -/

theorem moveDest (mode reg : Fin 8) (size : M68kSize)
    (h : ¬moveDestRejects mode reg size = true) (hsteps : mode = 3 ∨ mode = 4 → g.Writes reg) :
    Micro g .operand .operand (moveDest mode reg size : M σ MoveDest) := by
  refine .ite (fun _ => ?_) fun _ => .ite (fun h4 => ?_) fun _ => ?_
  · exact .charge (eaCycles_nonneg _ _ _) fun _ => .getA fun _ => .pure _
  · exact .charge (eaCycles_nonneg _ _ _) fun _ => .getA fun _ => .ite (fun _ => .pure _) fun _ =>
      .step (.setA before (hsteps (.inr h4)) _) fun _ => .pure _
  · refine .seq (.calcEaAddr before _ _ _ hsteps fun h7 hr => absurd ?_ h) fun _ => .pure _
    subst h7
    simp only [moveDestRejects, Bool.or_eq_true, Bool.and_eq_true, decide_eq_true_eq]
    exact .inl ⟨rfl, by omega⟩

omit [Outside g] in
theorem commitMove {reg : Fin 8} {commit : Option U32}
    (hr : commit.isSome = true → g.Writes reg) :
    Micro g .commit .commit (commitMove reg commit : M σ Unit) := by
  cases commit with
  | none => exact .pure _
  | some value => exact .op (.setA before (hr rfl) _)

omit [Outside g] in
theorem setCcr {p : Phase} (hp : p ≤ .commit) {flags : U16} (h : LowBits flags) :
    Micro g p .commit (setCcr flags : M σ Unit) :=
  .op (.modifySr hp fun sr => ((CcrOnly.refl sr).clear (by decide)).or h)

/-- The store of MOVE, past the condition codes. -/
theorem moveStore (hr : g.refunds = true) (destMode destReg : Fin 8) (size : M68kSize)
    (hmark : destMode = 4 → size ≠ .long → g.marks = true ∧ g.peeks = true)
    {dest : MoveDest} (hdest : dest.commit.isSome = true → g.Writes destReg)
    (value pcAfterSrc : U32) (refund : Int) :
    Micro (σ := σ) g .commit .commit (do
      M68k.charge (-refund)
      if destMode = 4 ∧ size = .long then do
        write16 (dest.ea.address + 2) (value.setWidth 16)
        write16 dest.ea.address ((value >>> 16).setWidth 16)
        M68k.charge refund
        M68k.commitMove destReg dest.commit
        M68k.setCcr (moveFlags size value)
      else do
        if destMode = 4 then do
          M68k.charge 2
          if isOdd dest.ea.address then
            M68k.latchBusWord (← M68k.peekWord pcAfterSrc)
        M68k.writeSize dest.ea.address value size
        M68k.charge refund
        M68k.dropBusWord
        M68k.commitMove destReg dest.commit
        if size = .long then
          M68k.setCcr (moveFlags size value)) := by
  have hend : Micro (σ := σ) g .commit .commit (do
      M68k.commitMove destReg dest.commit
      if size = .long then
        M68k.setCcr (moveFlags size value)) :=
    .seq (.commitMove hdest) fun _ =>
      .ite (fun _ => .setCcr before (lowBits_moveFlags _ _)) fun _ => .pure _
  have hwrite : Micro (σ := σ) g .commit .commit (do
      M68k.writeSize dest.ea.address value size
      M68k.charge refund) :=
    .seq (.writeSize before _ _ _) fun _ => .op (.charge (.inr hr))
  refine .refund hr fun _ => .ite (fun _ => ?_) fun hplain => ?_
  · exact .step (.write16 before _ _) fun _ => .step (.write16 before _ _) fun _ =>
      .refund hr fun _ => .seq (.commitMove hdest) fun _ =>
        .setCcr before (lowBits_moveFlags _ _)
  · have hstore := Micro.seq hwrite fun _ => .step (.dropBusWord before) fun _ => hend
    rw [bind_assoc] at hstore
    refine .ite (fun h4 => .charge (by decide) fun _ => .ite (fun _ => ?_) fun _ => hstore)
      fun _ => hstore
    obtain ⟨hmarks, hpeeks⟩ := hmark h4 fun hl => hplain ⟨h4, hl⟩
    refine .step (.peekWord hpeeks _) fun w => ?_
    have hmarked := Micro.busWord (w := w) hmarks before before hwrite fun _ => hend
    rwa [bind_assoc] at hmarked

theorem moveToMemory (hr : g.refunds = true) (destMode destReg srcMode srcReg : Fin 8)
    (size : M68kSize) (hmark : destMode = 4 → size ≠ .long → g.marks = true ∧ g.peeks = true)
    {dest : MoveDest} (hdest : dest.commit.isSome = true → g.Writes destReg)
    (value pcAfterSrc : U32) :
    Micro g .operand .commit
      (moveToMemory destMode destReg srcMode srcReg size dest value pcAfterSrc : M σ Unit) := by
  refine .step (.latchFaultPc before _) fun _ => .ite (fun _ => ?_) fun _ => ?_
  · exact .step (.modifySr before fun sr =>
      ((CcrOnly.refl sr).clear (by decide)).or (lowBits_moveFaultFlags _ _ _ _ _)) fun _ =>
        .moveStore hr _ _ _ hmark hdest _ _ _
  · exact .seq (.setCcr before (lowBits_moveFlags _ _)) fun _ =>
      .moveStore hr _ _ _ hmark hdest _ _ _

/-- The encodings MOVE rejects. -/
theorem execMove (opcode : U16) (hrel : g.Operand (field opcode 3) (field opcode 0))
    (hr : g.refunds = true)
    (hmark : field opcode 6 = 4 → moveSize? opcode ≠ some .long →
      g.marks = true ∧ g.peeks = true)
    (hdest : field opcode 6 = 1 ∨ field opcode 6 = 3 ∨ field opcode 6 = 4 →
      g.Writes (field opcode 9))
    (hill : ∀ size, moveSize? opcode = some size →
      (moveDestRejects (field opcode 6) (field opcode 9) size = true ∨
        (field opcode 3 = 7 ∧ 4 < field opcode 0)) → g.illegal = true) :
    Micro g .decode .finished (execMove opcode : M σ Unit) := by
  unfold M68k.execMove
  cases hsize : moveSize? opcode with
  | none => exact .ret _
  | some size =>
    refine .ite (fun h => .op (.illegal (hill size hsize (.inl h)))) fun h => ?_
    refine .seq (.calcEa before _ _ _ hrel fun h7 hr =>
        ⟨rfl, hill size hsize (.inr ⟨h7, hr⟩)⟩) fun _ => .getPc fun _ =>
      .seqOf (.moveDest _ _ _ h fun hstep => hdest (.inr hstep)) (moveDest_names _ _ _) before
        fun dest hnames => .ite (fun _ => ?_) fun hdata => .ite (fun hreg => ?_) fun _ => ?_
    · exact .seq (.setDSized before _ _ _) fun _ =>
        .upTo (.setCcr before (lowBits_moveFlags _ _))
    · have haddr : dest.ea.isAddr = true := by simpa [Ea.isData, hreg] using hdata
      obtain ⟨h1, hnum⟩ := hnames.ea haddr
      refine .last (.setA before ?_ _)
      rw [hnum]
      exact hdest (.inl h1)
    · exact .upTo (.moveToMemory hr _ _ _ _ _
        (fun h4 hl => hmark h4 (by rw [hsize]; simpa using hl))
        (fun hcommit => hdest (.inr (hnames.commit hcommit))) _ _)

omit [Outside g] in
theorem execMoveq (opcode : U16) : Micro g .decode .finished (execMoveq opcode : M σ Unit) :=
  .step (.setD before _ _) fun _ => .last (.modifySr before (.flagsLogic _ _))

/-! ## LEA, PEA, LINK, UNLK -/

theorem execLea (opcode : U16) (hdest : g.Writes (field opcode 9))
    (hill : notControl (field opcode 3) (field opcode 0) = true → g.illegal = true) :
    Micro g .decode .finished (execLea opcode : M σ Unit) :=
  .seq (.calcEaCtl _ _ _ hill) fun _ => .last (.setA before hdest _)

theorem execPea (opcode : U16) (h7 : g.Writes 7)
    (hill : notControl (field opcode 3) (field opcode 0) = true → g.illegal = true) :
    Micro g .decode .finished (execPea opcode : M σ Unit) :=
  .seq (.calcEaCtl _ _ _ hill) fun _ => .upTo (.push32 before h7 _)

theorem execLink (opcode : U16) (hs : ∀ r, g.Writes r) :
    Micro g .decode .finished (execLink opcode : M σ Unit) :=
  .step (.fetch before) fun _ => .getA fun _ => .seq (.push32 before (hs 7) _) fun _ =>
    .getA fun _ => .step (.setA before (hs _) _) fun _ => .getA fun _ =>
      .last (.setA before (hs 7) _)

omit [Outside g] in
theorem execUnlk [Reading g] (opcode : U16) (hs : ∀ r, g.Writes r) :
    Micro g .decode .finished (execUnlk opcode : M σ Unit) :=
  .getA fun _ => .getPc fun _ => .step (.latchFaultPc before _) fun _ =>
    .charge (by decide) fun _ =>
    .step (.read32 (.inl before) _) fun _ => .step (.setA before (hs 7) _) fun _ =>
      .last (.setA before (hs _) _)

/-! ## MOVEM -/

omit [Outside g] in
theorem movemRegister {p : Phase} (i : Fin 16) : Micro g p p (movemRegister i : M σ U32) :=
  .ite (fun _ => .op (.get (visible_dRegs _))) fun _ => .op (.get (visible_aRegs _))

omit [Outside g] in
/-- The load loop: by induction on the registers left, from any phase that may
still commit. -/
theorem movemLoad [Reading g] (hi : g.interleaved = true) (hs : ∀ r, g.Writes r) (mask : U16)
    (size : M68kSize)
    (is : List (Fin 16)) {p : Phase} (hp : p ≤ .commit) (addr : U32) :
    Micro g p .commit (movemLoad mask size is addr : M σ U32) := by
  induction is generalizing p addr with
  | nil => exact .ending hp (.pure _)
  | cons i rest ih =>
    refine .ite (fun _ => ?_) fun _ => ih hp _
    refine .seq (.readSize (.inr ⟨hi, hp⟩) _ _) fun _ =>
      .charge (ite_nonneg (by decide) (by decide)) fun _ => ?_
    refine .ite (fun _ => ?_) fun _ => ?_
    · exact .step (.setD hp _ _) fun _ => ih before _
    · exact .seq (.ending (touched_le_commit hp) (.op (.setA hp (hs _) _))) fun _ =>
        ih (Phase.le_refl .commit) _

theorem movemStorePredec (mask : U16) (size : M68kSize) (base : Fin 8) (initialAn : U32)
    (is : List (Fin 16)) {p : Phase} (hp : p ≤ .commit) (addr : U32) :
    Micro g p .commit (movemStorePredec mask size base initialAn is addr : M σ U32) := by
  induction is generalizing p addr with
  | nil => exact .ending hp (.pure _)
  | cons i rest ih =>
    refine .ite (fun _ => ?_) fun _ => ih hp _
    have hwrite (val : U32) : Micro (σ := σ) g p .commit (do
        if size = .long then do
          write16 (addr - size.bytes + 2) (val.setWidth 16)
          write16 (addr - size.bytes) ((val >>> 16).setWidth 16)
        else
          M68k.writeSize (addr - size.bytes) (val &&& 0xFFFF) size
        M68k.charge (if size = .long then 8 else 4)
        M68k.movemStorePredec mask size base initialAn rest (addr - size.bytes)) := by
      refine .ite (fun _ => ?_) fun _ => ?_
      · exact .step (.write16 hp _ _) fun _ => .step (.write16 before _ _) fun _ =>
          .charge (ite_nonneg (by decide) (by decide)) fun _ => ih before _
      · exact .seq (.writeSize hp _ _ _) fun _ => .charge (ite_nonneg (by decide) (by decide))
          fun _ => ih before _
    exact .ite (fun _ => .seq (.pure _) hwrite) fun _ => .seq (.movemRegister _) hwrite

theorem movemStore (mask : U16) (size : M68kSize) (is : List (Fin 16)) {p : Phase}
    (hp : p ≤ .commit) (addr : U32) :
    Micro g p .commit (movemStore mask size is addr : M σ Unit) := by
  induction is generalizing p addr with
  | nil => exact .ending hp (.pure _)
  | cons i rest ih =>
    refine .ite (fun _ => ?_) fun _ => ih hp _
    exact .seq (.movemRegister _) fun _ => .seq (.writeSize hp _ _ _) fun _ =>
      .charge (ite_nonneg (by decide) (by decide)) fun _ =>
      ih before _

private theorem not_reserved_of_movem : ∀ (dir : Bool) (mode reg : Fin 8),
    ¬movemRejects dir mode reg = true → mode = 7 → 4 < reg → False := by decide

/-- MOVEM steps its base itself. -/
private theorem not_steps_of_movem : ∀ (dir : Bool) (mode reg : Fin 8),
    ¬movemRejects dir mode reg = true → ¬((mode = 4 ∧ (!dir) = true) ∨ mode = 3) →
      mode = 3 ∨ mode = 4 → False := by decide

theorem movemAddress (dir : Bool) (mode reg : Fin 8) (size : M68kSize)
    (h : ¬movemRejects dir mode reg = true) :
    Micro g .decode .operand (movemAddress dir mode reg size : M σ U32) :=
  .ite (fun _ => .last (.get (visible_aRegs _))) fun hplain =>
    .seq (.calcEaAddrNocost before _ _ _
      (fun hstep => (not_steps_of_movem _ _ _ h hplain hstep).elim)
      fun h7 hr => (not_reserved_of_movem _ _ _ h h7 hr).elim) fun _ => .ret _

theorem movemEaCycles_nonneg (mode reg : Fin 8) (memToReg : Bool) :
    0 ≤ movemEaCycles mode reg memToReg := by
  revert mode reg
  cases memToReg <;> decide

/-- MOVEM transfers, once the mask and the address are known. -/
theorem execMovem (opcode : U16) (hrel : g.Operand (field opcode 3) (field opcode 0))
    (hr : g.refunds = true) (hi : g.interleaved = true)
    (hload : (opcode &&& 0x0400 != 0) = true → ∀ r, g.Writes r)
    (hill : movemRejects (opcode &&& 0x0400 != 0) (field opcode 3) (field opcode 0) = true →
      g.illegal = true) :
    Micro g .decode .finished (execMovem opcode : M σ Unit) := by
  refine .ite (fun h => .op (.illegal (hill h))) fun h => ?_
  refine .step (.fetch before) fun mask => .seq (.movemAddress _ _ _ _ h) fun addr =>
    .charge (movemEaCycles_nonneg _ _ _) fun _ => ?_
  have htransfer : Micro (σ := σ) g .operand .finished (do
      M68k.latchFaultPc ((← M68k.getPc) + 2)
      if opcode &&& 0x0400 != 0 then do
        if field opcode 3 = 7 ∧ (field opcode 0 = 2 ∨ field opcode 0 = 3) then
          M68k.setProgramSpace true
        let next ← M68k.movemLoad mask (if opcode &&& 0x0040 != 0 then .long else .word)
          (List.finRange 16) addr
        M68k.setProgramSpace false
        M68k.charge 4
        if field opcode 3 = 3 then M68k.setA (field opcode 0) next
      else if field opcode 3 = 4 then do
        let next ← M68k.movemStorePredec mask (if opcode &&& 0x0040 != 0 then .long else .word)
          (field opcode 0) (← M68k.getA (field opcode 0)) (List.finRange 16) addr
        M68k.setA (field opcode 0) next
      else
        M68k.movemStore mask (if opcode &&& 0x0040 != 0 then .long else .word)
          (List.finRange 16) addr) := by
    refine .getPc fun _ => .step (.latchFaultPc before _) fun _ =>
      .ite (fun hdir => ?_) fun _ => .ite (fun h4 => ?_) fun _ => ?_
    · have hs := hload hdir
      have hend (next : U32) : Micro (σ := σ) g .commit .finished (do
          M68k.charge 4
          if field opcode 3 = 3 then M68k.setA (field opcode 0) next) :=
        .charge (by decide) fun _ => .ite (fun _ => .last (.setA before (hs _) _)) fun _ => .ret _
      refine .ite (fun hm => ?_) fun hm => ?_
      · have hprogram := hrel.relative.trans (relativeMode_of hm)
        have := Reading.bracketed hprogram
        exact .programSpace hprogram before before
          (.movemLoad (show g.bracketed.interleaved = true from hi) hs _ _ _ before _) hend
      · have := reading_of_mode hrel.relative (not_relativeMode_of hm)
        exact .seq (.movemLoad hi hs _ _ _ before _) fun next =>
          .step (.dropProgramSpace before) fun _ => hend next
    · exact .getA fun _ => .seq (.movemStorePredec _ _ _ _ _ before _) fun _ =>
        .last (.setA before (hrel.steps (.inr h4)) _)
    · exact .upTo (.movemStore _ _ _ before _)
  exact .ite (fun _ => .refund hr fun _ => htransfer) fun _ => htransfer

/-! ## EXG, SWAP, and moves to and from the status register -/

omit [Outside g] in
theorem execExg (opcode : U16)
    (hx : (opcode >>> 3) &&& 0x1F = 0x09 → g.Writes (field opcode 9))
    (hy : (opcode >>> 3) &&& 0x1F = 0x09 ∨ (opcode >>> 3) &&& 0x1F = 0x11 →
      g.Writes (field opcode 0)) :
    Micro g .decode .finished (execExg opcode : M σ Unit) := by
  refine .ite (fun _ => ?_) fun _ => .ite (fun ha => ?_) fun _ =>
    .ite (fun hd => ?_) fun _ => .ret _
  · exact .getD fun _ => .getD fun _ => .step (.setD before _ _) fun _ =>
      .last (.setD before _ _)
  · exact .getA fun _ => .getA fun _ => .step (.setA before (hx ha) _) fun _ =>
      .last (.setA before (hy (.inl ha)) _)
  · exact .getD fun _ => .getA fun _ => .step (.setD before _ _) fun _ =>
      .last (.setA before (hy (.inr hd)) _)

omit [Outside g] in
theorem execSwap (opcode : U16) : Micro g .decode .finished (execSwap opcode : M σ Unit) :=
  .getD fun _ => .step (.setD before _ _) fun _ =>
    .last (.modifySr before (.flagsLogic _ _))

theorem storeStatus [Reading g] (ea : Ea) {status : M σ U16}
    (hs : ∀ p, Micro g p p status) :
    Micro g .operand .commit (storeStatus ea status) := by
  refine .ite (fun _ => ?_) fun _ => ?_
  · exact .getD fun _ => .seq (hs _) fun _ => .op (.setD before _ _)
  · exact .seq (.readSize (.inl before) _ _) fun _ => .seq (hs _) fun _ =>
      .writeSize before _ _ _

theorem execMoveSr (opcode : U16) (hrel : g.Operand (field opcode 3) (field opcode 0))
    (hill : moveSrRejects opcode = true → g.illegal = true) :
    Micro g .decode .finished (execMoveSr opcode : M σ Unit) := by
  have hdata (h : ¬notDataAlterable (field opcode 3) (field opcode 0) = true) : Reading g :=
    reading_of_mode hrel.relative (not_relative_of_dataAlterable _ _ h)
  refine .ite (fun hto => ?_) fun hto => .ite (fun _ => ?_) fun _ => .ite (fun _ => ?_) fun _ =>
    .ret _
  · refine .ite (fun h => .op (.illegal (hill (by rw [moveSrRejects, if_pos hto, h])))) fun h => ?_
    exact .privileged fun hsup => .seq (.calcEa before _ _ _ hrel fun h7 hr =>
      (not_reserved_of_data _ _ h h7 hr).elim) fun _ => .op (.setSr hsup before _)
  · refine .ite (fun h => .op (.illegal (hill (by rw [moveSrRejects, if_neg hto, h])))) fun h => ?_
    refine .getSr fun _ => .getModel fun _ => .ite (fun _ => .privilegeViolation) fun _ => ?_
    exact .seq (.calcEaAddr before _ _ _ hrel.steps fun h7 hr =>
        (not_reserved_of_dataAlterable _ _ h h7 hr).elim) fun _ =>
      have := hdata h
      .upTo (.storeStatus _ fun _ => .op (.get visible_sr))
  · refine .ite (fun h => .op (.illegal (hill (by rw [moveSrRejects, if_neg hto, h])))) fun h => ?_
    exact .seq (.calcEaAddr before _ _ _ hrel.steps fun h7 hr =>
        (not_reserved_of_dataAlterable _ _ h h7 hr).elim) fun _ => .getSr fun _ =>
      have := hdata h
      .upTo (.storeStatus _ fun _ => .pure _)

theorem execMoveUsp (opcode : U16) (hu : opcode &&& 0x8 = 0 → g.usp = true) :
    Micro g .decode .finished (execMoveUsp opcode : M σ Unit) :=
  .privileged (q := .commit) fun hsup => .ite
    (fun h => .getA fun _ => .op (.setUsp hsup (hu h) before _))
    fun _ => .step (.get visible_usp) fun _ =>
      .last (.setA before (Grade.writes_supervisor hsup _) _)

theorem execMoveCcr (opcode : U16) (hrel : g.Operand (field opcode 3) (field opcode 0))
    (hill : notData (field opcode 3) (field opcode 0) = true → g.illegal = true) :
    Micro g .decode .finished (execMoveCcr opcode : M σ Unit) := by
  refine .ite (fun h => .op (.illegal (hill h))) fun h => ?_
  exact .seq (.calcEa before _ _ _ hrel fun h7 hr => (not_reserved_of_data _ _ h h7 hr).elim)
    fun _ => .last (.modifySr before fun sr => .system sr (lowBits_ccr.and_right _))

/-! ## MOVEP, MOVES -/

theorem execMovep [Reading g] (opcode : U16) :
    Micro g .decode .finished (execMovep opcode : M σ Unit) := by
  have hr : ReadPhase g .decode := .inl before
  refine .step (.fetch before) fun _ => .getA fun _ => ?_
  split
  · exact .getD fun _ => .step (.read8 hr _) fun _ => .step (.read8 hr _) fun _ =>
      .last (.setD before _ _)
  · exact .step (.read8 hr _) fun _ => .step (.read8 hr _) fun _ => .step (.read8 hr _) fun _ =>
      .step (.read8 hr _) fun _ => .last (.setD before _ _)
  · exact .getD fun _ => .step (.write8 before _ _) fun _ => .getD fun _ =>
      .last (.write8 before _ _)
  · exact .getD fun _ => .step (.write8 before _ _) fun _ => .getD fun _ =>
      .step (.write8 before _ _) fun _ => .getD fun _ =>
        .step (.write8 before _ _) fun _ => .getD fun _ => .last (.write8 before _ _)
  · exact .ret _

/-- An invalid extension word of MOVES is rejected too, so `hill` is unconditional. -/
theorem execMoves (opcode : U16) (hrel : g.Operand (field opcode 3) (field opcode 0))
    (hill : g.illegal = true) :
    Micro g .decode .finished (execMoves opcode : M σ Unit) := by
  refine .ite (fun _ => .op (.illegal hill)) fun h => .privileged (q := .finished) fun hsup => ?_
  split
  · exact .ret _
  · refine .step (.fetch before) fun ext => .ite (fun _ => .op (.illegal hill)) fun _ =>
      .ite (fun _ => ?_) fun _ => ?_
    · refine .seq (.calcEaAddr before _ _ _ hrel.steps fun h7 hr =>
        (not_reserved_of_memoryAlterable _ _ h h7 hr).elim) fun _ => .ite (fun _ => ?_) fun _ => ?_
      · exact .getA fun _ => .upTo (.writeSize before _ _ _)
      · exact .getD fun _ => .upTo (.writeSize before _ _ _)
    · refine .seq (.calcEa before _ _ _ hrel fun h7 hr =>
        (not_reserved_of_memoryAlterable _ _ h h7 hr).elim) fun _ => .ite (fun _ => ?_) fun _ => ?_
      · exact .last (.setA before (Grade.writes_supervisor hsup _) _)
      · exact .upTo (.setDSized before _ _ _)

/-! ## Branches -/

theorem branchDisplacement (opcode : U16) :
    Micro g .decode .decode (branchDisplacement opcode : M σ U32) :=
  .ite (fun _ => .step (.fetch before) fun _ => .pure _) fun _ => .pure _

theorem execBsr (hk : g.peeks = true) (h7 : g.Writes 7) (target : U32) :
    Micro g .decode .finished (execBsr target : M σ Unit) := by
  refine .getPc fun _ => .seq (.push32 before h7 _) fun _ => .ite (fun _ => ?_) fun _ => ?_
  · exact .step (.oddTarget before _ _) fun _ => .op (.charge (.inl (by decide)))
  · refine .step (.isUnmappedTarget hk _) fun _ => .ite (fun _ => ?_) fun _ => ?_
    · exact .step (.busTarget before _ _) fun _ => .op (.charge (.inl (by decide)))
    · exact .step (.setPc before _) fun _ => .last (.charge (.inl (by decide)))

theorem takeBranch (hk : g.peeks = true) (target : U32) :
    Micro g .decode .finished (takeBranch target : M σ Unit) := by
  refine .step (.isUnmappedTarget hk _) fun _ => .ite (fun _ => ?_) fun _ => ?_
  · exact .getPpc fun _ => .step (.busTarget before _ _) fun _ => .op (.charge (.inl (by decide)))
  · exact .step (.setPc before _) fun _ => .last (.charge (.inl (by decide)))

theorem execBcc (hk : g.peeks = true) (opcode : U16)
    (hbsr : conditionField opcode = 1 → g.Writes 7) :
    Micro g .decode .finished (execBcc opcode : M σ Unit) :=
  .seq (.branchDisplacement _) fun _ => .getPc fun _ =>
    .ite (fun h1 => .execBsr hk (hbsr h1) _) fun _ =>
    .getSr fun _ => .ite (fun _ => .takeBranch hk _) fun _ =>
      .last (.charge (.inl (ite_nonneg (by decide) (by decide))))

theorem dbccLoop (hk : g.peeks = true) (reg : Fin 8) (counter target : U32) :
    Micro g .decode .finished (dbccLoop reg counter target : M σ Unit) := by
  refine .ite (fun _ => ?_) fun _ => .step (.isUnmappedTarget hk _) fun _ => .ite (fun _ => ?_)
    fun _ => ?_
  · exact .charge (by decide) fun _ => .getPc fun _ => .op (.oddTarget before _ _)
  · exact .charge (by decide) fun _ => .getPc fun _ => .op (.busTarget before _ _)
  · exact .step (.setD before _ _) fun _ => .charge (by decide) fun _ => .last (.setPc before _)

theorem execDbcc (hk : g.peeks = true) (opcode : U16) :
    Micro g .decode .finished (execDbcc opcode : M σ Unit) := by
  refine .step (.fetch before) fun _ => .getSr fun _ =>
    .ite (fun _ => .last (.charge (.inl (by decide)))) fun _ => .getD fun _ =>
      .ite (fun _ => ?_) fun _ => ?_
  · exact .getPc fun _ => .dbccLoop hk _ _ _
  · exact .step (.setD before _ _) fun _ => .last (.charge (.inl (by decide)))

theorem execScc (opcode : U16) (hsteps : field opcode 3 = 3 ∨ field opcode 3 = 4 →
    g.Writes (field opcode 0))
    (hill : notDataAlterable (field opcode 3) (field opcode 0) = true → g.illegal = true) :
    Micro g .decode .finished (execScc opcode : M σ Unit) := by
  refine .ite (fun h => .op (.illegal (hill h))) fun h => ?_
  refine .getSr fun _ => .seq (.calcEaAddr before _ _ _ hsteps fun h7 hr =>
    (not_reserved_of_dataAlterable _ _ h h7 hr).elim) fun _ => .ite (fun _ => ?_) fun _ => ?_
  · exact .getD fun _ => .step (.setD before _ _) fun _ =>
      .last (.charge (.inl (ite_nonneg (by decide) (by decide))))
  · exact .step (.write8 before _ _) fun _ => .last (.charge (.inl (by decide)))

/-! ## Jumps and returns -/

theorem jumpSubroutine (hk : g.peeks = true) (h7 : g.Writes 7) (target : U32) :
    Micro g .operand .finished (jumpSubroutine target : M σ Unit) :=
  .ite (fun _ => .getPc fun _ => .op (.oddTarget before _ _)) fun _ =>
    .step (.isUnmappedTarget hk _) fun _ =>
      .ite (fun _ => .getPc fun _ => .op (.busTarget before _ _)) fun _ =>
        .getPc fun _ => .seq (.push32 before h7 _) fun _ => .last (.setPc before _)

theorem jump (hk : g.peeks = true) (target : U32) :
    Micro g .operand .finished (jump target : M σ Unit) :=
  .step (.isUnmappedTarget hk _) fun _ =>
    .ite (fun _ => .getPpc fun _ => .op (.busTarget before _ _)) fun _ =>
      .last (.setPc before _)

theorem execJmp (hk : g.peeks = true) (opcode : U16)
    (hjsr : (!opcode.getLsbD 6) = true → g.Writes 7)
    (hill : notControl (field opcode 3) (field opcode 0) = true → g.illegal = true) :
    Micro g .decode .finished (execJmp opcode : M σ Unit) :=
  .seq (.calcEaCtl _ _ _ hill) fun _ => .ite (fun h6 => .jumpSubroutine hk (hjsr h6) _)
    fun _ => .jump hk _

omit [Outside g] in
theorem execRts [Reading g] (opcode : U16) (h7 : g.Writes 7) :
    Micro g .decode .finished (execRts opcode : M σ Unit) :=
  .seq (.pop32 before h7) fun _ => .last (.setPc before _)

omit [Outside g] in
theorem execRtr [Reading g] (opcode : U16) (h7 : g.Writes 7) :
    Micro g .decode .finished (execRtr opcode : M σ Unit) :=
  .seq (.pop16 before h7) fun _ => .seq (.pop32 before h7) fun _ =>
    .step (.modifySr before fun sr => .system sr (lowBits_ccr.and_right _)) fun _ =>
      .last (.setPc before _)

theorem execRtd [Reading g] (opcode : U16) (h7 : g.Writes 7) :
    Micro g .decode .finished (execRtd opcode : M σ Unit) :=
  .seq (.pop32 before h7) fun _ => .step (.fetch before) fun _ => .getA fun _ =>
    .step (.setA before h7 _) fun _ => .last (.setPc before _)

theorem rte68010 [Reading g] (hsup : g.supervisor = true) (ht : g.trap = true) :
    Micro g .decode .finished (rte68010 : M σ Unit) := by
  have hr : ReadPhase g .decode := .inl before
  refine .getA fun _ => .step (.read16 hr _) fun _ => .ite (fun _ => ?_) fun _ => ?_
  · exact .step (.rewind before) fun _ =>
      .op (.trap ht (.inr (.inr (.inr (.inl rfl)))) before)
  · exact .step (.read16 hr _) fun _ => .step (.read32 hr _) fun _ =>
      .step (.setA before (Grade.writes_supervisor hsup 7) _) fun _ =>
        .step (.setSr hsup before _) fun _ =>
        .last (.setPc before _)

omit [Outside g] in
theorem rte68000 [Reading g] (hsup : g.supervisor = true) :
    Micro g .decode .finished (rte68000 : M σ Unit) :=
  have h7 := Grade.writes_supervisor hsup 7
  .seq (.pop16 before h7) fun _ => .seq (.pop32 before h7) fun _ =>
    .step (.setSr hsup before _) fun _ => .last (.setPc before _)

theorem execRte [Reading g] (opcode : U16) (ht : g.trap = true) :
    Micro g .decode .finished (execRte opcode : M σ Unit) :=
  .privileged fun hsup => .getModel fun _ =>
    .ite (fun _ => .rte68010 hsup ht) fun _ => .rte68000 hsup

/-! ## Traps and the supervisor instructions -/

theorem execTrap (opcode : U16) (ht : g.trap = true) :
    Micro g .decode .finished (execTrap opcode : M σ Unit) := by
  refine .op (.trap ht (.inr (.inr (.inr (.inr ⟨by omega, ?_⟩)))) before)
  have h : (opcode &&& 0xF).toNat ≤ 15 := by
    rw [BitVec.toNat_and]
    exact Nat.and_le_right
  omega

theorem execTrapv (opcode : U16) (ht : g.trap = true) :
    Micro g .decode .finished (execTrapv opcode : M σ Unit) :=
  .getSr fun _ => .ite (fun _ => .op (.trap ht (.inr (.inr (.inl rfl))) before)) fun _ =>
    .ret _

theorem chkTrapCost_ge (src bound : U16) : 38 ≤ chkTrapCost src bound := by
  unfold chkTrapCost
  split
  · decide
  · split <;> decide

theorem execChk (opcode : U16) (hrel : g.Operand (field opcode 3) (field opcode 0))
    (ht : g.trap = true)
    (hill : notData (field opcode 3) (field opcode 0) = true → g.illegal = true) :
    Micro g .decode .finished (execChk opcode : M σ Unit) := by
  refine .ite (fun h => .op (.illegal (hill h))) fun h => ?_
  refine .seq (.calcEa before _ _ _ hrel fun h7 hr => (not_reserved_of_data _ _ h h7 hr).elim)
    fun _ => .getD fun _ => .step (.modifySr before fun sr =>
      ((CcrOnly.refl sr).clear (by decide)).setIf lowBits_srN _) fun _ => ?_
  exact .ite (fun _ => .ret _) fun _ =>
    .charge (Int.le_trans (by decide) (chkTrapCost_ge _ _)) fun _ =>
    .op (.trap ht (.inr (.inl rfl)) before)

theorem execBkpt (opcode : U16) (hill : g.illegal = true) :
    Micro g .decode .finished (execBkpt opcode : M σ Unit) := .op (.illegal hill)

theorem execStop (opcode : U16) : Micro g .decode .finished (execStop opcode : M σ Unit) :=
  .privileged fun hsup => .step (.fetch before) fun _ =>
    .step (.setSr hsup before _) fun _ => .op (.stop hsup before)

theorem execReset (opcode : U16) : Micro g .decode .finished (execReset opcode : M σ Unit) :=
  .privileged fun _ => .op (.resetHook before)

/-- MOVEC past its extension word. -/
theorem execMovec_shape (opcode : U16) : ∃ f : U16 → M σ Unit,
    M68k.execMovec opcode = M68k.privileged (M68k.fetch >>= f) ∧
      ∀ ext, g.illegal = true → g.supervisor = true →
        (opcode &&& 1 ≠ 0 → controlReg? ext = some .usp → g.usp = true) →
        Micro g .decode .finished (f ext) := by
  refine ⟨_, rfl, fun ext hill hsup hu => ?_⟩
  cases hc : controlReg? ext with
  | none => exact .op (.illegal hill)
  | some c =>
    refine .ite (fun h => ?_) fun _ =>
      .step (.get (visible_readControl c)) fun _ => .ite (fun _ => ?_) fun _ => ?_
    · have husp (h' : c = .usp) : g.usp = true := hu (by simpa using h) (h' ▸ hc)
      refine .ite (fun _ => ?_) fun _ => ?_
      · exact .getA fun _ => .last (.writeControl hsup before husp _)
      · exact .getD fun _ => .last (.writeControl hsup before husp _)
    · exact .last (.setA before (Grade.writes_supervisor hsup _) _)
    · exact .last (.setD before _ _)

/-- An unknown control register is rejected too, so `hill` is unconditional. -/
theorem execMovec (opcode : U16) (hill : g.illegal = true)
    (hu : opcode &&& 1 ≠ 0 → g.usp = true) :
    Micro g .decode .finished (execMovec opcode : M σ Unit) := by
  obtain ⟨f, hf, hrest⟩ := execMovec_shape (σ := σ) (g := g) opcode
  rw [hf]
  exact .privileged fun hsup => .step (.fetch before) fun ext =>
    hrest ext hill hsup fun hodd _ => hu hodd

end Micro

end M68k
