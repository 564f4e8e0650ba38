import Rocket68.Logic.Plans

/-!
# Plans of the moves, jumps and traps

The handlers of `ops_move.c` and `ops_control.c`. A push is a write to `-(A7)` and a pop a
read from `(A7)+`. MOVEM has the accesses of its register list.
-/

namespace M68k

open Trap TrapM

variable {σ : Type} {k : Option (Nat → M68kCpu σ → M68kCpu σ × U32)} {b c d e : Core}

/-! ## MOVE -/

/-- The writes of a MOVE destination. -/
def moveWrites (mode : Fin 8) (size : M68kSize) : List (M68kSize × U32) :=
  if mode = 4 ∧ size = .long then [(.word, 2), (.word, 0)] else [(size, 0)]

/-- MOVE and MOVEA. -/
def movePlan (op : U16) : Plan :=
  match moveSize? op with
  | none => { parts := [] }
  | some size =>
      { parts := [(eaField op size, .read size),
          (⟨field op 6, field op 9, size⟩, { writes := moveWrites (field op 6) size })]
        size := some size
        written := if field op 6 = 1 then [field op 9] else [] }

/-- The pending commit of a destination. -/
def Core.commit (reg : Fin 8) : Option U32 → Core → Core
  | some value, c => { c with aRegs := Function.update c.aRegs reg value }
  | none, c => c

/-- A MOVE destination was resolved; its step may still be pending. -/
structure Destined (o : Operand) (dest : MoveDest) (c d : Core) : Prop where
  commit : d.commit o.reg dest.commit = o.next c
  settled : o.inMemory = false → dest.commit = none
  dRegs : d.dRegs = c.dRegs
  pc : d.pc = c.pc + o.extension
  traffic : d.traffic = c.traffic
  isReg : dest.ea.isReg = !o.inMemory
  isAddr : dest.ea.isAddr = (o.mode == 1)
  regNum : o.mode < 2 → dest.ea.regNum = o.reg
  address : o.inMemory = true → dest.ea.address = o.address c

theorem moveDest_yields (mode reg : Fin 8) (size : M68kSize) :
    Yields k (moveDest mode reg size : M σ MoveDest) (Destined ⟨mode, reg, size⟩) := by
  have hpc (c : Core) : c.pc = c.pc + 0 := (BitVec.add_zero _).symm
  refine .ite (fun hmode => ?_) fun _ => .ite (fun hmode => ?_) fun _ => ?_
  · subst hmode
    refine .skip (fun _ => rfl) (fun _ => rfl) <| .getA fun a => .pure ?_
    rintro c rfl
    exact ⟨(Core.pc_zero { c with
      aRegs := Function.update c.aRegs reg (c.aRegs reg + stepSize reg size) }).symm, nofun, rfl,
      hpc c, rfl, rfl, rfl, nofun, fun _ => rfl⟩
  · subst hmode
    refine .skip (fun _ => rfl) (fun _ => rfl) <| .getA fun a => .ite (fun _ => .pure ?_) fun _ =>
      .assignA <| .pure ?_
    · rintro c rfl
      exact ⟨(Core.pc_zero { c with
        aRegs := Function.update c.aRegs reg (c.aRegs reg - stepSize reg size) }).symm, nofun, rfl,
        hpc c, rfl, rfl, rfl, nofun, fun _ => rfl⟩
    · rintro _ c rfl rfl
      exact ⟨(Core.pc_zero { c with
        aRegs := Function.update c.aRegs reg (c.aRegs reg - stepSize reg size) }).symm, nofun, rfl,
        hpc c, rfl, rfl, rfl, nofun, fun _ => rfl⟩
  · refine .bind (calcEaAddr_yields mode reg size) fun ea => .pure ?_
    rintro d c h
    have hd : d = (⟨mode, reg, size⟩ : Operand).next c := h.core
    exact ⟨hd, fun _ => rfl, by rw [hd]; rfl, by rw [hd]; rfl, by rw [hd]; rfl, h.isReg, h.isAddr,
      h.regNum, h.address⟩

/-- What the memory half of MOVE does once its destination is resolved. -/
structure MoveStored (reg mode : Fin 8) (size : M68kSize) (dest : MoveDest) (c d : Core) :
    Prop where
  dRegs : d.dRegs = c.dRegs
  aRegs : d.aRegs = (c.commit reg dest.commit).aRegs
  pc : d.pc = c.pc
  traffic : d.traffic =
    (accessesAt .write dest.ea.address (moveWrites mode size)).reverse ++ c.traffic

theorem commitMove_yields (reg : Fin 8) (commit : Option U32) :
    Yields k (commitMove reg commit : M σ Unit) fun _ c d => d = c.commit reg commit := by
  cases commit with
  | none => exact .pure fun _ => rfl
  | some value => exact .setA fun _ => rfl

theorem Core.commit_rest (reg : Fin 8) (commit : Option U32) (c : Core) :
    (c.commit reg commit).dRegs = c.dRegs ∧ (c.commit reg commit).pc = c.pc ∧
      (c.commit reg commit).traffic = c.traffic := by
  cases commit <;> exact ⟨rfl, rfl, rfl⟩

/-- A commit does not look at what the store changed. -/
theorem Core.commit_aRegs (reg : Fin 8) (commit : Option U32) (h : d.aRegs = c.aRegs) :
    (d.commit reg commit).aRegs = (c.commit reg commit).aRegs := by
  cases commit with
  | none => exact h
  | some value => exact congrArg (fun a => Function.update a reg value) h

/-- The store of MOVE, low word first for a long that is predecremented. -/
theorem moveToMemory_yields (destMode destReg srcMode srcReg : Fin 8) (size : M68kSize)
    (dest : MoveDest) (value pcAfterSrc : U32) :
    Yields k (moveToMemory destMode destReg srcMode srcReg size dest value pcAfterSrc : M σ Unit)
      fun _ => MoveStored destReg destMode size dest := by
  have hsr {R : Unit → Core → Core → Prop} {f : U16 → U16} {g : Unit → M σ Unit}
      (hR : R = fun _ => MoveStored destReg destMode size dest) (hg : Yields k (g ()) R) :
      Yields k (modifySr f >>= g) R :=
    .assignSr <| hg.mono fun _ _ _ h c hc => by
      subst hR hc
      exact ⟨h.dRegs, h.aRegs.trans (Core.commit_aRegs _ _ rfl), h.pc, h.traffic⟩
  refine .skip (fun _ => rfl) (fun _ => rfl) ?_
  -- both tests of the size set flags and fall through to the same store
  refine (fun htail => .ite (fun _ => hsr rfl htail) fun _ => hsr rfl htail) ?_
  refine .skip (fun _ => rfl) (fun _ => rfl) <| .ite (fun hpredec => ?_) fun hpredec => ?_
  · refine .bind (write16_yields _ _) fun _ => .bind (write16_yields _ _) fun _ =>
      .skip (fun _ => rfl) (fun _ => rfl) <| .bind (commitMove_yields _ _) fun _ => .modifySr ?_
    rintro _ e rfl d rfl c rfl
    obtain ⟨hdRegs, hpc, htraffic⟩ := Core.commit_rest destReg dest.commit
      (Core.stored .word dest.ea.address (((value >>> 16).setWidth 16).setWidth 32)
        (Core.stored .word (dest.ea.address + 2) ((value.setWidth 16).setWidth 32) c))
    refine ⟨hdRegs, Core.commit_aRegs _ _ rfl, hpc, ?_⟩
    refine htraffic.trans ?_
    simp [moveWrites, if_pos hpredec, accessesAt, Core.stored, Core.seen]
  -- the peek latches a word and changes nothing that the plan sees
  · refine (fun hrest => .ite (fun _ => .skip (fun _ => rfl) (fun _ => rfl) <|
      .ite (fun _ => .bind (peekWord_yields _) fun w => .skip (fun _ => rfl) (fun _ => rfl) <|
        hrest.mono (by rintro _ c d h _ rfl; exact h)) fun _ => hrest) fun _ => hrest) ?_
    refine .bind (writeSize_yields _ _ size) fun _ => .skip (fun _ => rfl) (fun _ => rfl) <|
      .skip (fun _ => rfl) (fun _ => rfl) <| .bind (commitMove_yields _ _) fun _ =>
        .ite (fun _ => .modifySr ?_) fun _ => .pure ?_
    all_goals
      rintro _ d rfl c rfl
      obtain ⟨hdRegs, hpc, htraffic⟩ :=
        Core.commit_rest destReg dest.commit (Core.stored size dest.ea.address value c)
      refine ⟨hdRegs, Core.commit_aRegs _ _ rfl, hpc, htraffic.trans ?_⟩
      simp [moveWrites, if_neg hpredec, accessesAt, Core.stored, Core.seen]

/-- The plan of a MOVE whose size code names a size. -/
theorem movePlan_of {op : U16} {size : M68kSize} (h : moveSize? op = some size) :
    movePlan op = { parts := [(eaField op size, .read size),
      (⟨field op 6, field op 9, size⟩, { writes := moveWrites (field op 6) size })]
                    size := some size
                    written := if field op 6 = 1 then [field op 9] else [] } := by
  rw [movePlan, h]

/-- A MOVE destination that was resolved with its commit done. -/
theorem Destined.resolved {o : Operand} {dest : MoveDest} (h : Destined o dest c d) {u : Use}
    (hu : u.reads = []) : d.commit o.reg dest.commit = Part.resolve (o, u) c := by
  rw [h.commit]
  simp [Part.resolve, accessesAt, hu, Operand.next]

/-- A register has nothing to commit. -/
theorem Destined.register {o : Operand} {dest : MoveDest} (h : Destined o dest c d)
    (hreg : dest.ea.isReg = true) {u : Use} (hu : u.reads = []) :
    o.inMemory = false ∧ d = Part.resolve (o, u) c := by
  have hmemory : o.inMemory = false := by
    rw [h.isReg] at hreg
    simpa using hreg
  have hresolved := h.resolved hu
  rw [h.settled hmemory] at hresolved
  exact ⟨hmemory, hresolved⟩

/-- A data register, an address register or memory takes the value. -/
theorem execMove_planned (op : U16) : Planned k (execMove op : M σ Unit) fun _ => movePlan op := by
  unfold execMove
  cases hsize : moveSize? op with
  | none =>
    have hplan : movePlan op = { parts := [] } := by rw [movePlan, hsize]
    rw [hplan]
    exact planned_nothing
  | some size =>
    rw [movePlan_of hsize]
    refine .ite (fun _ => .exception (by decide)) fun _ => ?_
    refine Yields.bind (calcEa_yields _ _ size) fun src => .look fun pc =>
      .bind (moveDest_yields _ _ size) fun dest => .ite (fun hdata => ?_) fun hdata =>
        .ite (fun hreg => .setA ?_) fun hreg => ?_
    · refine .bind (setDSized_yields _ size _) fun _ => .modifySr ?_
      rintro _ d rfl c hdest b hsrc
      have hreg : dest.ea.isReg = true := by
        rw [Ea.isData, Bool.and_eq_true] at hdata
        exact hdata.1
      obtain ⟨hmemory, rfl⟩ := hdest.register hreg
        (u := { writes := moveWrites (field op 6) size }) rfl
      refine Effect.after (p := ⟨[_], some size, _, true⟩) rfl
        (hsrc.resolved (u := .read size) rfl ▸
        Effect.of_resolved rfl ?_ (fun _ _ => rfl) (fun _ => rfl) ?_)
      · rintro _ ⟨⟩
        exact Confined.merge _ _ _ _
      · rw [stores_register hmemory]
        rfl
    · rintro d c hdest b hsrc
      obtain ⟨hmemory, rfl⟩ := hdest.register hreg
        (u := { writes := moveWrites (field op 6) size }) rfl
      have hmode : field op 6 = 1 := by
        have haddr : (field op 6 == 1) = true := by
          rw [← hdest.isAddr]
          simpa [Ea.isData, hreg] using hdata
        exact beq_iff_eq.mp haddr
      have hlt : field op 6 < 2 := by rw [hmode]; decide
      have hnum : dest.ea.regNum = field op 9 := hdest.regNum hlt
      rw [if_pos hmode, hnum]
      refine Effect.after (p := ⟨[_], some size, _, true⟩) rfl
        (hsrc.resolved (u := .read size) rfl ▸
        Effect.of_resolved rfl (fun _ _ => Confined.refl _ _) (fun q hq => ?_) (fun _ => rfl) ?_)
      · exact Function.update_of_ne (fun hr => hq (List.mem_singleton.mpr hr)) _ _
      · rw [stores_register hmemory]
        rfl
    · refine (moveToMemory_yields _ _ _ _ size dest _ _).mono ?_
      rintro _ d e hstore c hdest b hsrc
      have hmemory : (⟨field op 6, field op 9, size⟩ : Operand).inMemory = true := by
        have hnot := hdest.isReg
        rw [Bool.eq_false_iff.mpr hreg] at hnot
        simpa using hnot.symm
      obtain ⟨hdRegs, hpc, htraffic⟩ := Core.commit_rest (field op 9) dest.commit d
      have hd := hdest.resolved (u := { writes := moveWrites (field op 6) size }) rfl
      refine Effect.after (p := ⟨[_], some size, _, true⟩) rfl
        (hsrc.resolved (u := .read size) rfl ▸
        Effect.of_resolved hd ?_ (fun q _ => congrFun hstore.aRegs q)
          (fun _ => hstore.pc.trans hpc.symm) ?_)
      · rintro _ ⟨⟩
        rw [hstore.dRegs, hdRegs]
        exact Confined.refl _ _
      · rw [hstore.traffic, htraffic, Part.stores, if_pos hmemory, hdest.address hmemory]

/-- MOVEQ. -/
theorem execMoveq_planned (op : U16) :
    Planned k (execMoveq op : M σ Unit) fun _ => { parts := [] } := by
  refine Yields.assignD <| .modifySr ?_
  rintro _ c rfl
  exact Effect.of_nothing (by rintro _ ⟨⟩; exact Confined.update_long _ _ _) (fun _ _ => rfl)
    (fun _ => rfl) rfl

/-! ## LEA, PEA, LINK, UNLK -/

/-- A push of a long. -/
def pushPart : Part := (⟨4, 7, .long⟩, .write .long)

/-- A pop. -/
def popPart (size : M68kSize) : Part := (⟨3, 7, size⟩, .read size)

theorem effect_push {size : Option M68kSize} {written : List (Fin 8)} {sequential : Bool}
    {value : U32}
    (hd : d = ({ c with aRegs := Function.update c.aRegs 7 (c.aRegs 7 - 4) } : Core).stored .long
      (c.aRegs 7 - 4) value)
    (hdata : ∀ z, size = some z → Confined z d.dRegs e.dRegs)
    (haRegs : ∀ q, q ∉ written → e.aRegs q = d.aRegs q) (hpc : sequential = true → e.pc = d.pc)
    (htraffic : e.traffic = d.traffic) :
    Effect ⟨[pushPart], size, written, sequential⟩ c e := by
  subst hd
  have hzero : c.aRegs 7 - 4 + 0 = c.aRegs 7 - 4 := BitVec.add_zero _
  refine Effect.of_resolved rfl hdata haRegs (fun h => (hpc h).trans (BitVec.add_zero _).symm) ?_
  rw [htraffic]
  show (Access.write, M68kSize.long, c.aRegs 7 - 4) :: c.traffic =
    (Access.write, M68kSize.long, c.aRegs 7 - 4 + 0) :: c.traffic
  rw [hzero]

theorem pop32_resolves : Yields k (pop32 : M σ U32) fun _ c d =>
    d = (popPart .long).resolve c :=
  pop32_yields.mono fun _ c _ h => h.2.trans (resolve_postinc 7 .long c).symm

theorem pop16_resolves : Yields k (pop16 : M σ U16) fun _ c d =>
    d = (popPart .word).resolve c :=
  pop16_yields.mono fun _ c _ h => h.2.trans (resolve_postinc 7 .word c).symm

/-- A word fetched by the handler. -/
theorem fetch_resolves : Yields k (fetch : M σ U16) fun a c d =>
    a = c.word ∧ d = (immediate .word).resolve c := fetch_yields.mono fun _ _ _ h => h

/-- LEA. -/
def leaPlan (op : U16) : Plan := { parts := [(eaField op .long, {})], written := [field op 9] }

theorem execLea_planned (op : U16) : Planned k (execLea op : M σ Unit) fun _ => leaPlan op := by
  refine Yields.bind (calcEaCtl_yields _ _ false) fun ea => .setA fun d c h => ?_
  exact effect_address h.2 rfl rfl _ _

/-- PEA. -/
def peaPlan (op : U16) : Plan := { parts := [(eaField op .long, {}), pushPart] }

theorem execPea_planned (op : U16) : Planned k (execPea op : M σ Unit) fun _ => peaPlan op := by
  refine Yields.bind (calcEaCtl_yields _ _ false) fun ea => (push32_yields _).mono ?_
  rintro _ d e he c ⟨-, h⟩
  refine Effect.after (p := { parts := [pushPart] }) rfl (h.resolved (u := {}) rfl ▸ ?_)
  exact effect_push he (fun _ _ => he ▸ Confined.refl _ _) (fun _ _ => rfl) (fun _ => rfl) rfl

/-- LINK. -/
def linkPlan (op : U16) : Plan :=
  { parts := [immediate .word, pushPart], written := [field op 0, 7] }

theorem execLink_planned (op : U16) : Planned k (execLink op : M σ Unit) fun _ => linkPlan op := by
  refine Yields.bind fetch_resolves fun disp => .getA fun a => .bind (push32_yields _) fun _ =>
    .getA fun b => .assignA <| .getA fun x => .setA ?_
  rintro f - e rfl - d he - c ⟨-, rfl⟩
  refine Effect.after (p := ⟨[pushPart], some .long, [field op 0, 7], true⟩) rfl ?_
  refine effect_push he (fun _ _ => he ▸ Confined.refl _ _) (fun q hq => ?_) (fun _ => rfl) rfl
  simp only [List.mem_cons, List.not_mem_nil, or_false, not_or] at hq
  exact (Function.update_of_ne hq.2 _ _).trans (Function.update_of_ne hq.1 _ _)

/-- UNLK. -/
def unlkPlan (op : U16) : Plan :=
  { parts := [(⟨2, field op 0, .long⟩, .read .long)], written := [7, field op 0] }

/-- An operand that its register points to, read. -/
theorem resolve_indirect (r : Fin 8) (size : M68kSize) (c : Core) :
    Part.resolve (⟨2, r, size⟩, .read size) c = c.seen .read size (c.aRegs r) := by
  have hpc : c.pc + 0 = c.pc := BitVec.add_zero _
  have hzero : c.aRegs r + 0 = c.aRegs r := BitVec.add_zero _
  simp only [Part.resolve, Operand.next, Operand.stepped, Operand.extension, Operand.inMemory,
    Operand.address, Use.read, accessesAt, hpc, List.map, hzero]
  rfl

theorem execUnlk_planned (op : U16) : Planned k (execUnlk op : M σ Unit) fun _ => unlkPlan op := by
  refine Yields.getA fun frame => .look fun pc => .skip (fun _ => rfl) (fun _ => rfl) <|
    .skip (fun _ => rfl) (fun _ => rfl) <| .bind (read32_yields frame) fun v => .assignA <| .setA ?_
  rintro d e rfl c ⟨-, rfl⟩ rfl
  refine Effect.of_resolved (resolve_indirect (field op 0) .long c).symm
    (fun _ _ => Confined.refl _ _) (fun q hq => ?_) (fun _ => rfl) rfl
  simp only [List.mem_cons, List.not_mem_nil, or_false, not_or] at hq
  exact (Function.update_of_ne hq.2 _ _).trans (Function.update_of_ne hq.1 _ _)

/-! ## EXG, SWAP -/

/-- The address registers that EXG exchanges: both, the second with a data register, or none. -/
def exgWritten (op : U16) : List (Fin 8) :=
  if (op >>> 3) &&& 0x1F = 0x09 then [field op 9, field op 0]
  else if (op >>> 3) &&& 0x1F = 0x11 then [field op 0]
  else []

/-- EXG. -/
def exgPlan (op : U16) : Plan :=
  { parts := [], size := none, written := exgWritten op }

theorem execExg_planned (op : U16) : Planned k (execExg op : M σ Unit) fun _ => exgPlan op := by
  have hnothing {c d : Core} (h : d.pc = c.pc ∧ d.traffic = c.traffic)
      (haRegs : ∀ q, q ∉ exgWritten op → d.aRegs q = c.aRegs q) :
      Effect (exgPlan op) c d := Effect.of_nothing nofun haRegs (fun _ => h.1) h.2
  refine .ite (fun _ => ?_) fun _ => .ite (fun hboth => ?_) fun hboth =>
    .ite (fun hsecond => ?_) fun _ => ?_
  · refine Yields.getD fun x => .getD fun y => .assignD <| .setD ?_
    rintro c d rfl - -
    exact hnothing ⟨rfl, rfl⟩ fun _ _ => rfl
  · refine Yields.getA fun x => .getA fun y => .assignA <| .setA ?_
    rintro c d rfl - -
    refine hnothing ⟨rfl, rfl⟩ fun q hq => ?_
    rw [exgWritten, if_pos hboth] at hq
    simp only [List.mem_cons, List.not_mem_nil, or_false, not_or] at hq
    exact (Function.update_of_ne hq.2 _ _).trans (Function.update_of_ne hq.1 _ _)
  · refine Yields.getD fun x => .getA fun y => .assignD <| .setA ?_
    rintro c d rfl - -
    refine hnothing ⟨rfl, rfl⟩ fun q hq => ?_
    rw [exgWritten, if_neg hboth, if_pos hsecond, List.mem_singleton] at hq
    exact Function.update_of_ne hq _ _
  · exact Yields.pure fun _ => hnothing ⟨rfl, rfl⟩ fun _ _ => rfl

theorem execSwap_planned (op : U16) :
    Planned k (execSwap op : M σ Unit) fun _ => { parts := [] } := by
  refine Yields.getD fun v => .assignD <| .modifySr ?_
  rintro _ c rfl -
  exact Effect.of_nothing (by rintro _ ⟨⟩; exact Confined.update_long _ _ _) (fun _ _ => rfl)
    (fun _ => rfl) rfl

/-! ## Moves to and from the status register -/

/-- MOVE to SR, from SR and from CCR. A load of SR may exchange the stack pointers. -/
def moveSrPlan (op : U16) : Plan :=
  let store : Plan := { parts := [(eaField op .word, .modify .word)], size := some .word }
  if op &&& 0xFFC0 = 0x46C0 then
    { parts := [(eaField op .word, .read .word)], size := some .word, written := [7] }
  else if op &&& 0xFFC0 = 0x40C0 then store
  else if op &&& 0xFFC0 = 0x42C0 then store
  else { parts := [] }

/-- The status goes to a data register or, after a read, to memory. -/
theorem storeStatus_yields {o : Operand} (hsize : o.size = .word)
    (hput : o.mode = 0 ∨ o.inMemory = true) (ea : Ea) {status : M σ U16}
    (hstatus : Yields k status fun _ c d => d = c) :
    Yields k (storeStatus ea status) fun _ c d => ∀ b, Located o false ea b c →
      Effect ⟨[(o, .modify .word)], some .word, [], true⟩ b d := by
  refine .ite (fun hdata => ?_) fun hdata => ?_
  · refine .getD fun old => .bind hstatus fun sr => .setD ?_
    rintro _ c rfl rfl b h
    have hmemory : o.inMemory = false := by
      rw [h.isData, Bool.and_eq_true, Bool.not_eq_true'] at hdata
      exact hdata.1
    refine Effect.of_resolved ((h.resolved (u := {}) rfl).trans (resolve_register hmemory _ _ _))
      ?_ (fun _ _ => rfl) (fun _ => rfl) ?_
    · rintro _ ⟨⟩
      exact .masked _ _ upper_word (setWidth_toNat_lt _)
    · rw [stores_register hmemory]
      rfl
  -- memory is read once before it is written
  · refine .bind (readSize_yields ea.address .word) fun v => .bind hstatus fun sr =>
      (writeSize_yields ea.address _ .word).mono ?_
    rintro _ _ d rfl c rfl a ⟨-, rfl⟩ b h
    have hmemory : o.inMemory = true := by
      refine hput.resolve_left fun h0 => hdata ?_
      have hreg : o.inMemory = false := by
        rw [Operand.inMemory, h0]
        rfl
      rw [h.isData, hreg, h0]
      rfl
    have hreads : (Use.modify .word).reads =
        (if false then [(o.size, 0)] else []) ++ [(o.size, 0)] := by
      rw [hsize]
      rfl
    have hresolved := h.reread hmemory hreads
    rw [hsize] at hresolved
    refine Effect.of_resolved hresolved (fun _ _ => Confined.refl _ _) (fun _ _ => rfl)
      (fun _ => rfl) ?_
    rw [Part.stores, if_pos hmemory, ← h.address hmemory]
    exact congrArg (fun a => (Access.write, M68kSize.word, a) :: _) (BitVec.add_zero _).symm

theorem execMoveSr_planned (op : U16) :
    Planned k (execMoveSr op : M σ Unit) fun _ => moveSrPlan op := by
  have hstore (hal : ¬notDataAlterable (field op 3) (field op 0) = true) {status : M σ U16}
      (hstatus : Yields k status fun _ c d => d = c) (ea : Ea) :
      Yields k (storeStatus ea status) fun _ c d => ∀ b, Located (eaField op .word) false ea b c →
        Effect ⟨[(eaField op .word, .modify .word)], some .word, [], true⟩ b d :=
    storeStatus_yields rfl (alterable_cases (Bool.eq_false_iff.mpr hal) .word) ea hstatus
  refine .choose (fun _ => .ite (fun _ => .exception (by decide)) fun _ => .privileged ?_)
    fun _ => .choose (fun _ => .ite (fun _ => .exception (by decide)) fun hal => ?_) fun _ =>
      .choose (fun _ => .ite (fun _ => .exception (by decide)) fun hal => ?_) fun _ =>
        planned_nothing
  · refine Yields.bind (calcEa_yields _ _ .word) fun ea => (setSr_yields _).mono ?_
    rintro _ d e rfl c h
    refine Effect.of_located h rfl (fun _ _ => Confined.refl _ _)
      (fun q hq => Core.loadSr_aRegs _ _ (by simpa using hq)) (fun _ => rfl) ?_
    rw [stores_nil rfl]
    rfl
  · refine Yields.look fun sr => .look fun m =>
      .ite (fun _ => .of_throws privilegeViolation_throws) fun _ =>
        .bind (calcEaAddr_yields _ _ .word) fun ea => hstore hal ?_ ea
    exact .of_run (f := fun s => s.sr) (g := id) (fun _ => rfl) (fun _ => rfl) fun _ => rfl
  · exact Yields.bind (calcEaAddr_yields _ _ .word) fun ea => .look fun sr =>
      hstore hal (.pure fun _ => rfl) ea

/-- MOVE USP. -/
def moveUspPlan (op : U16) : Plan :=
  if op &&& 0x8 = 0 then { parts := [] } else { parts := [], written := [field op 0] }

theorem execMoveUsp_planned (op : U16) :
    Planned k (execMoveUsp op : M σ Unit) fun _ => moveUspPlan op := by
  refine .privileged (.choose (fun _ => ?_) fun _ => ?_)
  · refine Yields.getA fun a => .modify (p := fun c => { c with usp := a }) (fun _ => rfl)
      (fun _ => rfl) fun c _ => ?_
    exact Effect.of_nothing (fun _ _ => Confined.refl _ _) (fun _ _ => rfl) (fun _ => rfl) rfl
  · refine Yields.look fun usp => .setA fun c => ?_
    refine Effect.of_nothing (fun _ _ => Confined.refl _ _) (fun q hq => ?_) (fun _ => rfl) rfl
    exact Function.update_of_ne (fun hr => hq (List.mem_singleton.mpr hr)) _ _

/-- MOVE to CCR. -/
def moveCcrPlan (op : U16) : Plan :=
  { parts := [(eaField op .word, .read .word)], size := some .word }

theorem execMoveCcr_planned (op : U16) :
    Planned k (execMoveCcr op : M σ Unit) fun _ => moveCcrPlan op := by
  refine .ite (fun _ => .exception (by decide)) fun _ => ?_
  refine Yields.bind (calcEa_yields _ _ .word) fun ea => .modifySr fun d c h => ?_
  exact effect_read h (Confined.refl _ _) ⟨rfl, rfl, rfl⟩

/-! ## MOVEP, MOVES -/

/-- The bytes of MOVEP are every other one. -/
def movepPieces (size : M68kSize) : List (M68kSize × U32) :=
  if size = .long then [(.byte, 0), (.byte, 2), (.byte, 4), (.byte, 6)]
  else [(.byte, 0), (.byte, 2)]

/-- MOVEP. -/
def movepPlan (op : U16) : Plan :=
  match field op 6 with
  | 4 => { parts := [(⟨5, field op 0, .word⟩, { reads := movepPieces .word })],
           size := some .word }
  | 5 => { parts := [(⟨5, field op 0, .long⟩, { reads := movepPieces .long })] }
  | 6 => { parts := [(⟨5, field op 0, .word⟩, { writes := movepPieces .word })],
           size := some .word }
  | 7 => { parts := [(⟨5, field op 0, .long⟩, { writes := movepPieces .long })] }
  | _ => { parts := [(⟨5, field op 0, .word⟩, {})] }

/-- A displaced operand, with its bytes at `a`. -/
theorem resolve_displaced (r : Fin 8) (size : M68kSize) (u : Use) {a disp : U32}
    (hdisp : disp = c.word.signExtend 32) (ha : c.aRegs r = a) :
    Part.resolve (⟨5, r, size⟩, u) c = { c with
      pc := c.pc + 2
      traffic := (accessesAt .read (a + disp) u.reads).reverse ++ c.traffic } ∧
    Part.stores (⟨5, r, size⟩, u) c = accessesAt .write (a + disp) u.writes := by
  subst hdisp ha
  exact ⟨rfl, rfl⟩

/-- A MOVEP that reads its bytes. -/
theorem effect_movepLoad {r : Fin 8} {size z : M68kSize} {a disp : U32}
    (hdisp : disp = c.word.signExtend 32) (ha : c.aRegs r = a)
    (hdata : Confined z c.dRegs d.dRegs)
    (hd : d.aRegs = c.aRegs ∧ d.pc = c.pc + 2 ∧
      d.traffic = (accessesAt .read (a + disp) (movepPieces size)).reverse ++ c.traffic) :
    Effect ⟨[(⟨5, r, size⟩, { reads := movepPieces size })], some z, [], true⟩ c d := by
  obtain ⟨hresolve, hstores⟩ :=
    resolve_displaced r size { reads := movepPieces size } hdisp ha
  refine Effect.of_resolved hresolve.symm (by rintro _ ⟨⟩; exact hdata)
    (fun q _ => congrFun hd.1 q) (fun _ => hd.2.1) ?_
  rw [hstores]
  exact hd.2.2

/-- A MOVEP that writes its bytes. -/
theorem effect_movepStore {r : Fin 8} {size z : M68kSize} {a disp : U32}
    (hdisp : disp = c.word.signExtend 32) (ha : c.aRegs r = a)
    (hd : d.dRegs = c.dRegs ∧ d.aRegs = c.aRegs ∧ d.pc = c.pc + 2 ∧
      d.traffic = (accessesAt .write (a + disp) (movepPieces size)).reverse ++ c.traffic) :
    Effect ⟨[(⟨5, r, size⟩, { writes := movepPieces size })], some z, [], true⟩ c d := by
  obtain ⟨hresolve, hstores⟩ :=
    resolve_displaced r size { writes := movepPieces size } hdisp ha
  refine Effect.of_resolved hresolve.symm (by rintro _ ⟨⟩; exact hd.1 ▸ Confined.refl _ _)
    (fun q _ => congrFun hd.2.1 q) (fun _ => hd.2.2.1) ?_
  rw [hstores]
  exact hd.2.2.2

/-- Two bytes are a word. -/
theorem joinBytes_lt (b1 b0 : U8) :
    ((b1.setWidth 32 <<< 8 ||| b0.setWidth 32 : U32)).toNat < 2 ^ 16 := by
  rw [BitVec.toNat_or, BitVec.toNat_shiftLeft, BitVec.toNat_setWidth, BitVec.toNat_setWidth]
  have h1 := b1.isLt
  have h0 := b0.isLt
  refine Nat.or_lt_two_pow ?_ ?_
  · rw [Nat.shiftLeft_eq]
    omega
  · omega

theorem execMovep_planned (op : U16) :
    Planned k (execMovep op : M σ Unit) fun _ => movepPlan op := by
  unfold execMovep movepPlan
  have hcases : ∀ m : Fin 8, m = 4 ∨ m = 5 ∨ m = 6 ∨ m = 7 ∨ m = 0 ∨ m = 1 ∨ m = 2 ∨ m = 3 := by
    decide
  refine Yields.bind fetch_yields fun disp => .getA fun a => ?_
  rcases hcases (field op 6) with hm | hm | hm | hm | hm | hm | hm | hm
  all_goals simp only [hm]
  · refine .getD fun old => .bind (read8_yields _) fun b1 => .bind (read8_yields _) fun b0 =>
      .setD ?_
    rintro e d ⟨-, rfl⟩ c ⟨-, rfl⟩ rfl ha b ⟨rfl, rfl⟩
    refine effect_movepLoad (c := b) rfl ha ?_ ⟨rfl, rfl, ?_⟩
    · rw [BitVec.or_assoc]
      exact .masked _ _ upper_word (joinBytes_lt _ _)
    · simp [movepPieces, accessesAt, Core.seen]
  · refine .bind (read8_yields _) fun b3 => .bind (read8_yields _) fun b2 =>
      .bind (read8_yields _) fun b1 => .bind (read8_yields _) fun b0 => .setD ?_
    rintro g f ⟨-, rfl⟩ e ⟨-, rfl⟩ d ⟨-, rfl⟩ c ⟨-, rfl⟩ ha b ⟨rfl, rfl⟩
    refine effect_movepLoad (c := b) rfl ha (Confined.update_long _ _ _) ⟨rfl, rfl, ?_⟩
    simp [movepPieces, accessesAt, Core.seen]
  -- the stores, a byte to every second address
  · refine .look fun v => .bind (write8_yields _ _) fun _ => .look fun w =>
      (write8_yields _ _).mono ?_
    rintro _ d e rfl c rfl ha b ⟨rfl, rfl⟩
    refine effect_movepStore (c := b) rfl ha ⟨rfl, rfl, rfl, ?_⟩
    simp [movepPieces, accessesAt, Core.stored, Core.seen]
  · refine .look fun v => .bind (write8_yields _ _) fun _ => .look fun w =>
      .bind (write8_yields _ _) fun _ => .look fun x => .bind (write8_yields _ _) fun _ =>
        .look fun y => (write8_yields _ _).mono ?_
    rintro _ f g rfl e rfl d rfl c rfl ha b ⟨rfl, rfl⟩
    refine effect_movepStore (c := b) rfl ha ⟨?_, ?_, ?_, ?_⟩
    all_goals simp [movepPieces, accessesAt]
  all_goals
    refine .pure ?_
    rintro c ha b ⟨rfl, rfl⟩
    obtain ⟨hresolve, hstores⟩ :=
      resolve_displaced (c := b) (field op 0) .word {} rfl ha
    refine Effect.of_resolved hresolve.symm (fun _ _ => Confined.refl _ _) (fun _ _ => rfl)
      (fun _ => rfl) ?_
    rw [hstores]
    rfl

/-- MOVES: the extension word names the register and the direction. -/
def movesPlan (op : U16) (c : Core) : Plan := withSize op fun size =>
  if c.word.getLsbD 11 then
    { parts := [immediate .word, (eaField op size, .write size)], size := some size }
  else if c.word.getLsbD 15 then
    { parts := [immediate .word, (eaField op size, .read size)], size := some size,
      written := [field c.word 12] }
  else { parts := [immediate .word, (eaField op size, .read size)], size := some size }

theorem execMoves_planned (op : U16) : Planned k (execMoves op : M σ Unit) (movesPlan op) := by
  refine .ite (fun _ => .exception (by decide)) fun hal => .privileged ?_
  have hmemory (size : M68kSize) : (eaField op size).inMemory = true :=
    inMemory_of_alterable (Bool.eq_false_iff.mpr hal) size
  cases hsize : sizeOf? (sizeBits op) with
  | none =>
    have hplan : movesPlan op = fun _ => { parts := [] } := by
      funext c
      rw [movesPlan, withSize, hsize]
    rw [hplan]
    exact planned_nothing
  | some size =>
    have hplan (c : Core) : movesPlan op c =
        if c.word.getLsbD 11 then
          { parts := [immediate .word, (eaField op size, .write size)], size := some size }
        else if c.word.getLsbD 15 then
          { parts := [immediate .word, (eaField op size, .read size)], size := some size,
            written := [field c.word 12] }
        else { parts := [immediate .word, (eaField op size, .read size)], size := some size } := by
      rw [movesPlan, withSize, hsize]
    refine Yields.bind fetch_resolves fun ext => .ite (fun _ => .of_throws
      (exception_throws (by decide))) fun _ => .ite (fun hstore => ?_) fun hstore => ?_
    · have hwrite (ea : Ea) (v : U32) : Yields k (writeSize ea.address v size : M σ Unit)
          fun _ d e => ∀ c, Located (eaField op size) false ea c d →
            ∀ b, ext = b.word ∧ c = (immediate .word).resolve b → Effect (movesPlan op b) b e := by
        refine (writeSize_yields ea.address v size).mono ?_
        rintro _ d e rfl c h b ⟨rfl, rfl⟩
        rw [hplan, if_pos hstore]
        refine Effect.after (p := ⟨[(eaField op size, .write size)], some size, [], true⟩) rfl ?_
        refine Effect.of_located h rfl (fun _ _ => Confined.refl _ _) (fun _ _ => rfl)
          (fun _ => rfl) ?_
        rw [Part.stores, if_pos (hmemory size), ← h.address (hmemory size)]
        exact congrArg (fun a => (Access.write, size, a) :: _) (BitVec.add_zero _).symm
      exact .bind (calcEaAddr_yields _ _ size) fun ea => .ite (fun _ => .look fun v => hwrite ea v)
        fun _ => .look fun v => hwrite ea v
    · refine .bind (calcEa_yields _ _ size) fun ea => .ite (fun haddr => .setA ?_) fun haddr =>
        (setDSized_yields _ size _).mono ?_
      · rintro d c h b ⟨rfl, rfl⟩
        rw [hplan, if_neg hstore, if_pos haddr]
        refine Effect.after (p := ⟨[(eaField op size, .read size)], some size, _, true⟩) rfl ?_
        exact effect_address h rfl rfl _ _
      · rintro _ d e rfl c h b ⟨rfl, rfl⟩
        rw [hplan, if_neg hstore, if_neg haddr]
        refine Effect.after (p := ⟨[(eaField op size, .read size)], some size, [], true⟩) rfl ?_
        exact effect_read h (Confined.merge _ _ _ _) ⟨rfl, rfl, rfl⟩

end M68k
