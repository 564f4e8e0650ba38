import Rocket68.Logic.Effect

/-!
# Plans of the arithmetic, logic and bit instructions

For each handler what it is expected to do, and that it does so whenever no exception cuts
it short. The instructions that read an operand and write a result back share one lemma.
-/

namespace M68k

open Trap TrapM

variable {σ : Type} {k : Option (Nat → M68kCpu σ → M68kCpu σ × U32)} {c d e : Core}

/-- The effective address field. -/
def eaField (op : U16) (size : M68kSize) : Operand := ⟨field op 3, field op 0, size⟩

/-- The size field of an opcode that has one. -/
def sized (op : U16) : M68kSize := (sizeOf? (sizeBits op)).getD .long

/-! ## Reading and writing back -/

theorem setDSized_yields (r : Fin 8) (size : M68kSize) (value : U32) :
    Yields k (setDSized r size value : M σ Unit) fun _ c d =>
      d = { c with dRegs := Function.update c.dRegs r (mergeSized size (c.dRegs r) value) } :=
  .getD fun v => .setD fun c hv => by rw [hv]

/-- Where `storeEa` puts a result. -/
def Core.put (ea : Ea) (size : M68kSize) (value : U32) (c : Core) : Core :=
  if ea.isData then
    { c with
      dRegs := Function.update c.dRegs ea.regNum (mergeSized size (c.dRegs ea.regNum) value) }
  else c.stored size ea.address value

theorem storeEa_yields (ea : Ea) (size : M68kSize) (value : U32) :
    Yields k (storeEa ea size value : M σ Unit) fun _ c d => d = c.put ea size value := by
  refine .ite (fun h => ?_) fun h => ?_
  · refine (setDSized_yields ea.regNum size value).mono fun _ c d hd => ?_
    rw [hd, Core.put, if_pos h]
  · refine (writeSize_yields ea.address value size).mono fun _ c d hd => ?_
    rw [hd, Core.put, if_neg h]

/-- The operands a result can be written back to. -/
theorem alterable_cases {mode reg : Fin 8} (h : notDataAlterable mode reg = false)
    (size : M68kSize) : mode = 0 ∨ (⟨mode, reg, size⟩ : Operand).inMemory = true := by
  have key : ∀ mode reg : Fin 8, notDataAlterable mode reg = false →
      mode = 0 ∨ (2 ≤ mode && !(mode == 7 && 4 ≤ reg)) = true := by decide
  exact key mode reg h

theorem inMemory_of_alterable {mode reg : Fin 8} (h : notMemoryAlterable mode reg = false)
    (size : M68kSize) : (⟨mode, reg, size⟩ : Operand).inMemory = true := by
  have key : ∀ mode reg : Fin 8, notMemoryAlterable mode reg = false →
      (2 ≤ mode && !(mode == 7 && 4 ≤ reg)) = true := by decide
  exact key mode reg h

/-- A data register operand. -/
theorem Located.isData {o : Operand} {fetchValue : Bool} {ea : Ea}
    (h : Located o fetchValue ea c d) : ea.isData = (!o.inMemory && o.mode != 1) := by
  rw [Ea.isData, h.isReg, h.isAddr, bne]

/-- A result written back whole, after the reads `u` says. -/
theorem effect_put {o : Operand} {fetchValue : Bool} {ea : Ea} {u : Use} {value : U32}
    (h : Located o fetchValue ea c d) (hput : o.mode = 0 ∨ o.inMemory = true)
    (hreads : u.reads = if fetchValue then [(o.size, 0)] else [])
    (hwrites : u.writes = [(o.size, 0)])
    (he : e.dRegs = (d.put ea o.size value).dRegs ∧ e.aRegs = (d.put ea o.size value).aRegs ∧
      e.pc = (d.put ea o.size value).pc ∧ e.traffic = (d.put ea o.size value).traffic) :
    Effect ⟨[(o, u)], some o.size, [], true⟩ c e := by
  obtain ⟨hdRegs, haRegs, hpc, htraffic⟩ := he
  have hdata := h.isData
  by_cases hmemory : o.inMemory = true
  · have hea : d.put ea o.size value = d.stored o.size ea.address value := by
      rw [Core.put, if_neg (by rw [hdata, hmemory]; exact Bool.false_ne_true)]
    rw [hea] at hdRegs haRegs hpc htraffic
    refine Effect.of_located h hreads ?_ (fun q _ => congrFun haRegs q) (fun _ => hpc) ?_
    · rintro _ ⟨⟩
      rw [hdRegs]
      exact Confined.refl _ _
    · have hstores : Part.stores (o, u) c = [(.write, o.size, ea.address)] := by
        rw [Part.stores, if_pos hmemory, h.address hmemory, hwrites]
        exact congrArg (fun a => [(Access.write, o.size, a)]) (BitVec.add_zero _)
      rw [htraffic, hstores]
      rfl
  · have hmode : o.mode = 0 := hput.resolve_right hmemory
    -- a data register takes the low part of the value
    have hea : d.put ea o.size value = { d with
        dRegs := Function.update d.dRegs ea.regNum
          (mergeSized o.size (d.dRegs ea.regNum) value) } := by
      rw [Core.put, if_pos]
      rw [hdata, Bool.eq_false_iff.mpr hmemory, hmode]
      rfl
    rw [hea] at hdRegs haRegs hpc htraffic
    refine Effect.of_located h hreads ?_ (fun q _ => congrFun haRegs q) (fun _ => hpc) ?_
    · rintro _ ⟨⟩
      rw [hdRegs]
      exact Confined.merge _ _ _ _
    · have hstores : Part.stores (o, u) c = [] := if_neg hmemory
      rw [htraffic, hstores]
      rfl

/-- Operand, result, write back, condition codes. -/
theorem modify_yields {o : Operand} {ea : Ea} {value : U32} {flags : U16 → U16}
    (hput : o.mode = 0 ∨ o.inMemory = true) :
    Yields k (do storeEa ea o.size value; modifySr flags : M σ Unit) fun _ c d =>
      ∀ b, Located o true ea b c → Effect ⟨[(o, .modify o.size)], some o.size, [], true⟩ b d := by
  refine .bind (storeEa_yields ea o.size value) fun _ => .modifySr ?_
  rintro _ c rfl b h
  exact effect_put h hput rfl rfl ⟨rfl, rfl, rfl, rfl⟩

/-- An operand read for its value, a data register changed. -/
theorem effect_read {o : Operand} {ea : Ea} {size : M68kSize} (h : Located o true ea c d)
    (hdata : Confined size d.dRegs e.dRegs)
    (he : e.aRegs = d.aRegs ∧ e.pc = d.pc ∧ e.traffic = d.traffic) :
    Effect ⟨[(o, .read o.size)], some size, [], true⟩ c e :=
  Effect.of_located h rfl (by rintro _ ⟨⟩; exact hdata) (fun q _ => congrFun he.1 q)
    (fun _ => he.2.1) (by rw [stores_nil rfl, he.2.2]; rfl)

/-- An operand that is not written, an address register that is. -/
theorem effect_address {o : Operand} {fetchValue : Bool} {ea : Ea} {u : Use}
    (h : Located o fetchValue ea c d) (hreads : u.reads = if fetchValue then [(o.size, 0)] else [])
    (hwrites : u.writes = []) (r : Fin 8) (v : U32) {size : Option M68kSize} :
    Effect ⟨[(o, u)], size, [r], true⟩ c
      { d with aRegs := Function.update d.aRegs r v } := by
  refine Effect.of_located h hreads (fun _ _ => Confined.refl _ _) (fun q hq => ?_)
    (fun _ => rfl) ?_
  · exact Function.update_of_ne (fun hr => hq (List.mem_singleton.mpr hr)) _ _
  · rw [stores_nil hwrites]
    rfl

/-! ## ADD, SUB -/

/-- ADD, ADDA, SUB and SUBA. -/
def addSubPlan (op : U16) : Plan :=
  let opmode := field op 6
  let size := opmodeSize opmode
  let ea := eaField op size
  if opmode = 3 ∨ opmode = 7 then
    { parts := [(ea, .read size)], size := some size, written := [field op 9] }
  else if regToEa opmode then { parts := [(ea, .modify size)], size := some size }
  else { parts := [(ea, .read size)], size := some size }

/-- A write-back to memory. -/
def StoresMemory (k : Option (Nat → M68kCpu σ → M68kCpu σ × U32))
    (store : Ea → M68kSize → U32 → M σ Unit) : Prop :=
  ∀ ea size value, Yields k (store ea size value) fun _ c d =>
    ea.isReg = false → d = c.put ea size value

theorem storeEa_memory : StoresMemory k (storeEa (σ := σ)) := fun ea size value =>
  (storeEa_yields ea size value).mono fun _ _ _ h _ => h

theorem storeAdd_memory : StoresMemory k (storeAdd (σ := σ)) := by
  intro ea size value
  refine .ite (fun h => ?_) fun h => .ite (fun hreg => ?_) fun _ => ?_
  · refine (setDSized_yields ea.regNum size value).mono fun _ c d hd _ => ?_
    rw [hd, Core.put, if_pos h]
  · exact .pure fun c hmem => absurd (hreg.symm.trans hmem) (by decide)
  · refine (writeSize_yields ea.address value size).mono fun _ c d hd _ => ?_
    rw [hd, Core.put, if_neg h]

/-- The branches of ADD and SUB write to memory, to a data and to an address register. -/
theorem execAddSub_planned {op : U32 → U32 → U32}
    {flags : U32 → U32 → U32 → M68kSize → U16 → U16} {store : Ea → M68kSize → U32 → M σ Unit}
    (hstore : StoresMemory k store) (opcode : U16) :
    Planned k (execAddSub op flags store opcode) fun _ => addSubPlan opcode := by
  unfold execAddSub
  refine .ite (fun _ => .exception (by decide)) fun hrejects => ?_
  refine Yields.bind (calcEa_yields _ _ _) fun ea => .ite (fun haddr => ?_) fun haddr =>
    .ite (fun hdir => ?_) fun hdir => ?_
  · refine .getA fun old => .setA fun d _ c h => ?_
    rw [show addSubPlan opcode = _ from if_pos haddr]
    exact effect_address h rfl rfl _ _
  · refine .getD fun src => .bind (hstore ea _ _) fun _ => .modifySr ?_
    rintro d e he rfl c h
    rw [show addSubPlan opcode = _ from (if_neg haddr).trans (if_pos hdir)]
    have halterable : notMemoryAlterable (field opcode 3) (field opcode 0) = false := by
      simpa [addSubRejects, haddr, hdir] using hrejects
    have hmemory := inMemory_of_alterable halterable (opmodeSize (field opcode 6))
    have hput := he (by rw [h.isReg]; exact congrArg not hmemory)
    exact effect_put h (.inr hmemory) rfl rfl (by rw [hput]; exact ⟨rfl, rfl, rfl, rfl⟩)
  · refine .getD fun old => .assignD <| .modifySr ?_
    rintro _ d rfl hold c h
    rw [show addSubPlan opcode = _ from (if_neg haddr).trans (if_neg hdir)]
    refine effect_read h ?_ ⟨rfl, rfl, rfl⟩
    rw [← hold]
    exact Confined.merge _ _ _ _

theorem execAdd_planned (op : U16) :
    Planned k (execAdd op : M σ Unit) fun _ => addSubPlan op :=
  execAddSub_planned storeAdd_memory op

theorem execSub_planned (op : U16) :
    Planned k (execSub op : M σ Unit) fun _ => addSubPlan op :=
  execAddSub_planned storeEa_memory op

/-! ## Instructions with a size field -/

/-- The plan of an instruction whose size field must name a size. -/
def withSize (op : U16) (p : M68kSize → Plan) : Plan :=
  match sizeOf? (sizeBits op) with
  | none => { parts := [] }
  | some size => p size

theorem planned_nothing : Planned k (pure () : M σ Unit) fun _ => { parts := [] } :=
  Yields.pure fun _ =>
    Effect.of_nothing (fun _ _ => Confined.refl _ _) (fun _ _ => rfl) (fun _ => rfl) rfl

theorem Planned.withSize {op : U16} {m : M68kSize → M σ Unit} {p : M68kSize → Plan}
    (h : ∀ size, Planned k (m size) fun _ => p size) :
    Planned k (match sizeOf? (sizeBits op) with
      | none => Pure.pure ()
      | some size => m size) fun _ => M68k.withSize op p := by
  unfold M68k.withSize
  split
  · exact planned_nothing
  · next size hsize => exact h size

/-- ADDQ and SUBQ. -/
def quickPlan (op : U16) : Plan := withSize op fun size =>
  if field op 3 = 1 then { parts := [], size := some size, written := [field op 0] }
  else { parts := [(eaField op size, .modify size)], size := some size }

theorem execQuick_planned {op : U32 → U32 → U32}
    {flags : U32 → U32 → U32 → M68kSize → U16 → U16} (opcode : U16) :
    Planned k (execQuick op flags opcode : M σ Unit) fun _ => quickPlan opcode := by
  refine .withSize fun size => .ite (fun _ => .exception (by decide)) fun hrejects =>
    .choose (fun hmode => ?_) fun hmode => ?_
  · refine Yields.getA fun old => .setA fun c _ => ?_
    refine Effect.of_nothing (fun _ _ => Confined.refl _ _) (fun q hq => ?_) (fun _ => rfl) rfl
    exact Function.update_of_ne (fun hr => hq (List.mem_singleton.mpr hr)) _ _
  · have halterable : ∀ (size : M68kSize) (mode reg : Fin 8), ¬quickRejects size mode reg = true →
        ¬mode = 1 → notDataAlterable mode reg = false := by
      intro size
      cases size <;> decide
    refine Yields.bind (calcEa_yields _ _ _) fun ea => (modify_yields (o := eaField opcode size)
      (alterable_cases ?_ size)).mono fun _ _ _ h c hc => h c hc
    exact halterable size _ _ hrejects hmode

theorem execAddq_planned (op : U16) : Planned k (execAddq op : M σ Unit) fun _ => quickPlan op :=
  execQuick_planned op

theorem execSubq_planned (op : U16) : Planned k (execSubq op : M σ Unit) fun _ => quickPlan op :=
  execQuick_planned op

/-! ## ADDX, SUBX -/

/-- The reads of a predecremented operand of ADDX and SUBX. -/
def predecReads (size : M68kSize) : List (M68kSize × U32) :=
  if size = .long then [(.word, 2), (.word, 0)] else [(size, 0)]

/-- ADDX and SUBX. -/
def extendedPlan (op : U16) : Plan := withSize op fun size =>
  if op.getLsbD 3 then
    { parts := [(⟨4, field op 0, size⟩, { reads := predecReads size }),
        (⟨4, field op 9, size⟩, { reads := predecReads size, writes := [(size, 0)] })],
      size := some size }
  else { parts := [], size := some size }

theorem addxReadPredec_yields (reg : Fin 8) (size : M68kSize) {u : Use}
    (hu : u.reads = predecReads size) :
    Yields k (addxReadPredec reg size : M σ U32) fun _ c d =>
      d = Part.resolve (⟨4, reg, size⟩, u) c := by
  have hpc (c : Core) : c.pc + 0 = c.pc := BitVec.add_zero _
  have hzero (a : U32) : a + 0 = a := BitVec.add_zero a
  refine .ite (fun hlong => ?_) fun hlong => ?_
  · subst hlong
    refine .getA fun a => .bind (read16_yields _) fun lo => .bind (read16_yields _) fun hi =>
      .assignA <| .pure ?_
    rintro _ c rfl d ⟨-, rfl⟩ e ⟨-, rfl⟩ rfl
    have hreads : u.reads = [(.word, 2), (.word, 0)] := hu
    simp only [Part.resolve, Operand.next, Operand.stepped, Operand.extension, Operand.inMemory,
      Operand.address, hreads, accessesAt, hpc, List.map, hzero]
    rfl
  · refine .getA fun a => .assignA <| .getA fun b => (readSize_yields b size).mono ?_
    rintro _ c d ⟨-, rfl⟩ rfl e rfl rfl
    have hreads : u.reads = [(size, 0)] := hu.trans (if_neg hlong)
    simp only [Part.resolve, Operand.next, Operand.stepped, Operand.extension, Operand.inMemory,
      Operand.address, hreads, accessesAt, hpc, List.map, hzero, Function.update_self]
    rfl

/-- The two operands of the memory form, from left to right. -/
def predecPair (x y : Fin 8) (size : M68kSize) : List Part :=
  [(⟨4, y, size⟩, { reads := predecReads size }),
    (⟨4, x, size⟩, { reads := predecReads size, writes := [(size, 0)] })]

theorem addxOperands_yields (x y : Fin 8) (size : M68kSize) :
    Yields k (addxOperands x y size : M σ (U32 × U32)) fun _ c d =>
      d = resolveAll (predecPair x y size) c := by
  refine .look fun pc => .skip (fun _ => rfl) (fun _ => rfl) <|
    .skip (fun _ => rfl) (fun _ => rfl) <|
      .bind (addxReadPredec_yields y size (u := { reads := predecReads size }) rfl) fun src =>
        .skip (fun _ => rfl) (fun _ => rfl) <| .bind (addxReadPredec_yields x size
          (u := { reads := predecReads size, writes := [(size, 0)] }) rfl) fun dest => .pure ?_
  rintro _ c rfl d rfl
  rfl

/-- A result written back to the second of two predecremented operands: its address is the
register. -/
theorem effect_predecPair {x y : Fin 8} {size : M68kSize} {u u' : Use} (hu : u.writes = [])
    (hu' : u'.writes = [(size, 0)]) {b : Core}
    (hd : d = resolveAll [(⟨4, y, size⟩, u), (⟨4, x, size⟩, u')] b)
    (he : e.dRegs = d.dRegs ∧ e.aRegs = d.aRegs ∧ e.pc = d.pc ∧
      e.traffic = (.write, size, d.aRegs x) :: d.traffic) {z : Option M68kSize} :
    Effect ⟨[(⟨4, y, size⟩, u), (⟨4, x, size⟩, u')], z, [], true⟩ b e := by
  obtain ⟨hdRegs, haRegs, hpc, htraffic⟩ := he
  have haddress : d.aRegs x =
      (⟨4, x, size⟩ : Operand).address (Part.resolve (⟨4, y, size⟩, u) b) := by
    rw [hd]
    exact Function.update_self _ _ _
  refine Effect.after (p := ⟨[(⟨4, x, size⟩, u')], z, [], true⟩) hu
    (Effect.of_resolved (d := d) hd ?_ (fun q _ => congrFun haRegs q) (fun _ => hpc) ?_)
  · intro z' _
    rw [hdRegs]
    exact Confined.refl _ _
  · rw [htraffic, Part.stores, hu', haddress]
    exact congrArg (fun a => (Access.write, size, a) :: _) (BitVec.add_zero _).symm

theorem execExtended_planned {op : U32 → U32 → U32 → U32}
    {flags : U32 → U32 → U32 → M68kSize → U16 → U16} (opcode : U16) :
    Planned k (execExtended op flags opcode : M σ Unit) fun _ => extendedPlan opcode := by
  refine .withSize fun size => .choose (fun _ => ?_) fun _ => ?_
  · refine Yields.bind (addxOperands_yields _ _ size) fun v => .getSr fun sr => .getA fun a =>
      .bind (writeSize_yields a _ size) fun _ => .modifySr ?_
    rintro _ d rfl rfl - c hd
    refine effect_predecPair rfl rfl hd ?_
    exact ⟨rfl, rfl, rfl, rfl⟩
  · refine Yields.getD fun src => .getD fun dest => .getSr fun sr =>
      .bind (setDSized_yields _ size _) fun _ => .modifySr ?_
    rintro _ c rfl - - -
    exact Effect.of_nothing (by rintro _ ⟨⟩; exact Confined.merge _ _ _ _) (fun _ _ => rfl)
      (fun _ => rfl) rfl

theorem execAddx_planned (op : U16) : Planned k (execAddx op : M σ Unit) fun _ => extendedPlan op :=
  execExtended_planned op

theorem execSubx_planned (op : U16) : Planned k (execSubx op : M σ Unit) fun _ => extendedPlan op :=
  execExtended_planned op

/-! ## MUL, DIV -/

/-- The multiplications and divisions. -/
def mulDivPlan (op : U16) : Plan := { parts := [(eaField op .word, .read .word)] }

theorem execMul_planned (op : U16) : Planned k (execMul op : M σ Unit) fun _ => mulDivPlan op := by
  refine .ite (fun _ => .exception (by decide)) fun _ => ?_
  refine Yields.bind (calcEa_yields _ _ _) fun ea => .getD fun old =>
    .skip (fun _ => rfl) (fun _ => rfl) <| .assignD <| .modifySr ?_
  rintro _ d rfl - c h
  exact effect_read h (Confined.update_long _ _ _) ⟨rfl, rfl, rfl⟩

theorem execDiv_planned (op : U16) : Planned k (execDiv op : M σ Unit) fun _ => mulDivPlan op := by
  refine .ite (fun _ => .exception (by decide)) fun _ => ?_
  refine Yields.bind (calcEa_yields _ _ _) fun ea => .getD fun old =>
    .ite (fun _ => .of_throws (exception_throws (by decide))) fun _ =>
      .ite (fun _ => ?_) fun _ => ?_
  · refine .skip (fun _ => rfl) (fun _ => rfl) <| .ite (fun _ => .modifySr ?_) fun _ =>
      .assignD <| .modifySr ?_
    · rintro d - c h
      exact effect_read h (Confined.refl _ _) ⟨rfl, rfl, rfl⟩
    · rintro _ d rfl - c h
      exact effect_read h (Confined.update_long _ _ _) ⟨rfl, rfl, rfl⟩
  · refine .skip (fun _ => rfl) (fun _ => rfl) <| .ite (fun _ => .modifySr ?_) fun _ =>
      .assignD <| .modifySr ?_
    · rintro d - c h
      exact effect_read h (Confined.refl _ _) ⟨rfl, rfl, rfl⟩
    · rintro _ d rfl - c h
      exact effect_read h (Confined.update_long _ _ _) ⟨rfl, rfl, rfl⟩

/-! ## CMP, CMPM, CMPI -/

/-- CMPM. -/
def cmpmPlan (x y : Fin 8) (size : M68kSize) : Plan :=
  { parts := [(⟨3, y, size⟩, .read size), (⟨3, x, size⟩, .read size)], size := some size }

/-- CMP, CMPA and CMPM. -/
def cmpPlan (op : U16) : Plan :=
  let size := opmodeSize (field op 6)
  if regToEa (field op 6) ∧ field op 3 = 1 then cmpmPlan (field op 9) (field op 0) size
  else { parts := [(eaField op size, .read size)], size := some size }

/-- A postincremented operand, read. -/
theorem resolve_postinc (r : Fin 8) (size : M68kSize) (c : Core) :
    Part.resolve (⟨3, r, size⟩, .read size) c =
      { c.seen .read size (c.aRegs r) with
        aRegs := Function.update c.aRegs r (c.aRegs r + stepSize r size) } := by
  have hpc : c.pc + 0 = c.pc := BitVec.add_zero _
  have hzero : c.aRegs r + 0 = c.aRegs r := BitVec.add_zero _
  simp only [Part.resolve, Operand.next, Operand.stepped, Operand.extension, Operand.inMemory,
    Operand.address, Use.read, accessesAt, hpc, List.map, hzero]
  rfl

/-- The source increment of CMPM, in two halves for a long. -/
theorem cmpmSource_yields (r : Fin 8) (size : M68kSize) (a : U32) {g : U32 → M σ Unit}
    {R : Unit → Core → Core → Prop} (hg : ∀ v, Yields k (g v) fun b d e => ∀ c,
      d = Part.resolve (⟨3, r, size⟩, .read size) c → R b c e) :
    Yields k (if size = .long then do
        setA r ((← getA r) + 2)
        let v ← readSize a size
        setA r ((← getA r) + 2)
        g (← pure v)
      else do
        setA r ((← getA r) + stepSize r size)
        g (← readSize a size)) fun b c e => c.aRegs r = a → R b c e := by
  refine .ite (fun hlong => ?_) fun _ => ?_
  · subst hlong
    refine .getA fun b => .assignA <| .bind (readSize_yields a .long) fun v => .getA fun x =>
      .assignA <| (hg v).mono ?_
    rintro _ d e hR d' rfl rfl c ⟨-, rfl⟩ c' rfl rfl rfl
    refine hR c' ?_
    have hstep (v : U32) : v + 2 + 2 = v + stepSize r .long := BitVec.add_assoc v 2 2
    rw [resolve_postinc]
    simp only [Core.seen, Function.update_self, Function.update_idem, hstep]
  · refine .getA fun b => .assignA <| .bind (readSize_yields a size) fun v => (hg v).mono ?_
    rintro _ d e hR c ⟨-, rfl⟩ c' rfl rfl rfl
    refine hR c' ?_
    rw [resolve_postinc]
    rfl

theorem execCmpm_planned (x y : Fin 8) (size : M68kSize) :
    Planned k (execCmpm x y size : M σ Unit) fun _ => cmpmPlan x y size := by
  refine Yields.look fun pc => .skip (fun _ => rfl) (fun _ => rfl) <|
    .skip (fun _ => rfl) (fun _ => rfl) <| .getA fun a => cmpmSource_yields y size a
      fun v => .skip (fun _ => rfl) (fun _ => rfl) <| .getA fun b =>
        .bind (readSize_yields b size) fun w => .getA fun b' => .assignA <| .modifySr ?_
  rintro _ d rfl rfl e ⟨-, rfl⟩ rfl c rfl
  refine Effect.after (p := { parts := [(⟨3, x, size⟩, .read size)], size := some size }) rfl
    (Effect.after (p := { parts := [], size := some size }) rfl ?_)
  generalize Part.resolve (⟨3, y, size⟩, .read size) c = d
  rw [resolve_postinc x size d]
  exact Effect.of_nothing (fun _ _ => Confined.refl _ _) (fun _ _ => rfl) (fun _ => rfl) rfl

theorem execCmp_planned (op : U16) : Planned k (execCmp op : M σ Unit) fun _ => cmpPlan op := by
  refine .choose (fun _ => execCmpm_planned _ _ _) fun _ =>
    .ite (fun _ => .exception (by decide)) fun _ => ?_
  refine Yields.bind (calcEa_yields _ _ _) fun ea => .ite (fun _ => .getA fun dest => .modifySr ?_)
    fun _ => .getD fun dest => .modifySr ?_
  · rintro d - c h
    exact effect_read h (Confined.refl _ _) ⟨rfl, rfl, rfl⟩
  · rintro d - c h
    exact effect_read h (Confined.refl _ _) ⟨rfl, rfl, rfl⟩

/-! ## The immediate group -/

theorem fetchImmediate_yields (size : M68kSize) :
    Yields k (fetchImmediate size : M σ U32) fun _ c d => d = (immediate size).resolve c := by
  cases size with
  | byte =>
    refine .bind fetch_yields fun v => .pure ?_
    rintro _ c ⟨-, rfl⟩
    rfl
  | word =>
    refine .bind fetch_yields fun v => .pure ?_
    rintro _ c ⟨-, rfl⟩
    rfl
  | long => exact fetchLong_yields.mono fun _ _ _ h => h.2

/-- CMPI. -/
def cmpiPlan (op : U16) : Plan := withSize op fun size =>
  { parts := [immediate size, (eaField op size, .read size)], size := some size }

theorem execCmpi_planned (op : U16) : Planned k (execCmpi op : M σ Unit) fun _ => cmpiPlan op := by
  refine .withSize fun size => .ite (fun _ => .exception (by decide)) fun _ => ?_
  refine Yields.bind (fetchImmediate_yields size) fun src => .skip (fun _ => rfl) (fun _ => rfl) <|
    .bind (calcEa_yields _ _ size) fun ea => .modifySr ?_
  rintro e d h c rfl
  refine Effect.after (p := { parts := [(eaField op size, .read size)], size := some size }) rfl ?_
  exact effect_read h (Confined.refl _ _) ⟨rfl, rfl, rfl⟩

/-- ADDI, SUBI, and ANDI, ORI and EORI to an effective address. -/
def immediatePlan (op : U16) : Plan := withSize op fun size =>
  { parts := [immediate size, (eaField op size, .modify size)], size := some size }

theorem execImmediate_planned {op : U32 → U32 → U32}
    {flags : U32 → U32 → U32 → M68kSize → U16 → U16} (opcode : U16) :
    Planned k (execImmediate op flags opcode : M σ Unit) fun _ => immediatePlan opcode := by
  refine .withSize fun size => .ite (fun _ => .exception (by decide)) fun hal => ?_
  refine Yields.bind (fetchImmediate_yields size) fun src => .skip (fun _ => rfl) (fun _ => rfl) <|
    .bind (calcEa_yields _ _ size) fun ea => (modify_yields (o := eaField opcode size)
      (alterable_cases (Bool.eq_false_iff.mpr hal) size)).mono ?_
  rintro _ e d hmodify _ h c rfl
  exact (hmodify _ h).after rfl

theorem execAddi_planned (op : U16) :
    Planned k (execAddi op : M σ Unit) fun _ => immediatePlan op :=
  execImmediate_planned op

theorem execSubi_planned (op : U16) :
    Planned k (execSubi op : M σ Unit) fun _ => immediatePlan op :=
  execImmediate_planned op

/-! ## One operand -/

/-- NEG, NEGX, NOT, TST and CLR, by the use they make of their operand. -/
def unaryPlan (use : M68kSize → Use) (op : U16) : Plan := withSize op fun size =>
  { parts := [(eaField op size, use size)], size := some size }

theorem execUnary_planned {body : Ea → M68kSize → M σ Unit} {use : M68kSize → Use} (op : U16)
    (h : ∀ ea size, notDataAlterable (field op 3) (field op 0) = false →
      Yields k (body ea size) fun _ c d => ∀ b, Located (eaField op size) true ea b c →
        Effect ⟨[(eaField op size, use size)], some size, [], true⟩ b d) :
    Planned k (execUnary body op : M σ Unit) fun _ => unaryPlan use op := by
  refine .withSize fun size => .ite (fun _ => .exception (by decide)) fun hal => ?_
  exact Yields.bind (calcEa_yields _ _ size) fun ea => h ea size (Bool.eq_false_iff.mpr hal)

theorem execNeg_planned (op : U16) :
    Planned k (execNeg op : M σ Unit) fun _ => unaryPlan .modify op :=
  execUnary_planned op fun _ size hal =>
    modify_yields (o := eaField op size) (alterable_cases hal size)

theorem execNegx_planned (op : U16) :
    Planned k (execNegx op : M σ Unit) fun _ => unaryPlan .modify op :=
  execUnary_planned op fun _ size hal => .look fun _ =>
    modify_yields (o := eaField op size) (alterable_cases hal size)

theorem execNot_planned (op : U16) :
    Planned k (execNot op : M σ Unit) fun _ => unaryPlan .modify op :=
  execUnary_planned op fun _ size hal =>
    modify_yields (o := eaField op size) (alterable_cases hal size)

theorem execTst_planned (op : U16) :
    Planned k (execTst op : M σ Unit) fun _ => unaryPlan .read op :=
  execUnary_planned op fun _ _ _ => .modifySr fun _ _ h =>
    effect_read h (Confined.refl _ _) ⟨rfl, rfl, rfl⟩

/-- CLR reads its memory operand twice before it writes it. -/
def clrUse (size : M68kSize) : Use := { reads := [(size, 0), (size, 0)], writes := [(size, 0)] }

theorem execClr_planned (op : U16) :
    Planned k (execClr op : M σ Unit) fun _ => unaryPlan clrUse op := by
  refine execUnary_planned op fun ea size hal => .ite (fun hdata => ?_) fun hdata => ?_
  · refine .getD fun old => .assignD <| .modifySr ?_
    rintro _ c rfl rfl b h
    have hmemory : (eaField op size).inMemory = false := by
      rw [h.isData, Bool.and_eq_true, Bool.not_eq_true'] at hdata
      exact hdata.1
    refine Effect.of_resolved ((h.resolved (u := .read size) rfl).trans
      (resolve_register hmemory _ _ _)) ?_ (fun _ _ => rfl) (fun _ => rfl) ?_
    · rintro _ ⟨⟩
      exact .update _ fun i hi => by
        by_cases h32 : i < 32
        · rw [BitVec.getLsbD_and, BitVec.getLsbD_not, valueMask_bits size hi]
          simp [h32]
        · rw [BitVec.getLsbD_of_ge _ i (by omega), BitVec.getLsbD_of_ge _ i (by omega)]
    · rw [stores_register hmemory]
      rfl
  · refine .bind (readSize_yields ea.address size) fun v =>
      .bind (writeSize_yields ea.address 0 size) fun _ => .modifySr ?_
    rintro _ c rfl d ⟨-, rfl⟩ b h
    have hmemory : (eaField op size).inMemory = true := by
      refine (alterable_cases hal size).resolve_left fun h0 => hdata ?_
      have hreg : (eaField op size).inMemory = false := by
        simp only [eaField, Operand.inMemory, h0]
        rfl
      rw [h.isData, hreg]
      exact (congrArg (fun m : Fin 8 => m != 1) h0).trans rfl
    refine Effect.of_resolved (h.reread (u := clrUse size) hmemory rfl)
      (fun _ _ => Confined.refl _ _)
      (fun _ _ => rfl) (fun _ => rfl) ?_
    rw [Part.stores, if_pos hmemory, ← h.address hmemory]
    exact congrArg (fun a => (Access.write, size, a) :: _) (BitVec.add_zero _).symm

/-! ## EXT -/

/-- The bits above a byte. -/
theorem upper_byte (i : Fin 32) : M68kSize.byte.bits ≤ i → (0xFFFFFF00 : U32).getLsbD i = true := by
  revert i
  decide

/-- The bits above a word. -/
theorem upper_word (i : Fin 32) : M68kSize.word.bits ≤ i → (0xFFFF0000 : U32).getLsbD i = true := by
  revert i
  decide

theorem and_toNat_lt {x m : U32} {n : Nat} (h : m.toNat < n) : (x &&& m).toNat < n := by
  rw [BitVec.toNat_and]
  exact Nat.lt_of_le_of_lt Nat.and_le_right h

/-- A byte or word extended with zeros. -/
theorem setWidth_toNat_lt {n : Nat} (v : BitVec n) : (v.setWidth 32).toNat < 2 ^ n := by
  rw [BitVec.toNat_setWidth]
  exact Nat.lt_of_le_of_lt (Nat.mod_le _ _) v.isLt

/-- EXT. -/
def extPlan (op : U16) : Plan :=
  { parts := [], size := some (if field op 6 = 2 then .word else .long) }

theorem execExt_planned (op : U16) : Planned k (execExt op : M σ Unit) fun _ => extPlan op := by
  refine .ite (fun hword => ?_) fun hword => .ite (fun _ => ?_) fun _ => ?_
  · refine Yields.getD fun a => .getD fun b => .assignD <| .modifySr ?_
    rintro d c rfl rfl -
    refine Effect.of_nothing ?_ (fun _ _ => rfl) (fun _ => rfl) rfl
    rw [if_pos hword]
    rintro _ ⟨⟩
    exact .masked _ _ upper_word (and_toNat_lt (by decide))
  · refine Yields.getD fun a => .assignD <| .modifySr ?_
    rintro d c rfl -
    refine Effect.of_nothing ?_ (fun _ _ => rfl) (fun _ => rfl) rfl
    rw [if_neg hword]
    rintro _ ⟨⟩
    exact Confined.update_long _ _ _
  · exact Yields.pure fun _ =>
      Effect.of_nothing (fun _ _ => Confined.refl _ _) (fun _ _ => rfl) (fun _ => rfl) rfl

/-! ## Decimal arithmetic -/

/-- ABCD and SBCD. -/
def bcdPlan (op : U16) : Plan :=
  if op.getLsbD 3 then
    { parts := [(⟨4, field op 0, .byte⟩, .read .byte), (⟨4, field op 9, .byte⟩, .modify .byte)],
      size := some .byte }
  else { parts := [], size := some .byte }

/-- A predecremented operand, read once. -/
theorem resolve_predec (r : Fin 8) (size : M68kSize) {u : Use} (hu : u.reads = [(size, 0)])
    (c : Core) : Part.resolve (⟨4, r, size⟩, u) c =
      ({ c with aRegs := Function.update c.aRegs r (c.aRegs r - stepSize r size) } : Core).seen
        .read size (c.aRegs r - stepSize r size) := by
  have hpc : c.pc + 0 = c.pc := BitVec.add_zero _
  have hzero : c.aRegs r - stepSize r size + 0 = c.aRegs r - stepSize r size := BitVec.add_zero _
  simp only [Part.resolve, Operand.next, Operand.stepped, Operand.extension, Operand.inMemory,
    Operand.address, hu, accessesAt, hpc, List.map, hzero]
  rfl

/-- The byte operands of the memory form. -/
theorem bcdMemory_yields (x y : Fin 8) :
    Yields k (bcdOperands x y true : M σ (U32 × U32)) fun _ c d =>
      d = resolveAll [(⟨4, y, .byte⟩, .read .byte), (⟨4, x, .byte⟩, .modify .byte)] c := by
  refine .getA fun a => .assignA <| .getA fun b => .bind (read8_yields b) fun src => .getA fun a' =>
    .assignA <| .getA fun b' => .bind (read8_yields b') fun dest => .pure ?_
  rintro _ c ⟨-, rfl⟩ rfl d rfl rfl e ⟨-, rfl⟩ rfl b rfl rfl
  show _ = Part.resolve (⟨4, x, .byte⟩, .modify .byte) (Part.resolve (⟨4, y, .byte⟩, .read .byte) _)
  rw [resolve_predec y .byte rfl, resolve_predec x .byte rfl]
  simp only [Function.update_self]

theorem bcdRegister_yields (x y : Fin 8) :
    Yields k (bcdOperands x y false : M σ (U32 × U32)) fun _ c d => d = c :=
  .look fun _ => .look fun _ => .pure fun _ => rfl

theorem execBcd_planned {op : U32 → U32 → U32 → U8 × Bool × Bool} (opcode : U16) :
    Planned k (execBcd op opcode : M σ Unit) fun _ => bcdPlan opcode := by
  unfold execBcd bcdPlan
  cases opcode.getLsbD 3 with
  | true =>
    refine Yields.bind (bcdMemory_yields _ _) fun v => .getSr fun sr => .assignSr <| .getA fun a =>
      (write8_yields a _).mono ?_
    rintro _ d e he rfl c rfl - b hd
    exact effect_predecPair rfl rfl hd (by rw [he]; exact ⟨rfl, rfl, rfl, rfl⟩)
  | false =>
    refine Yields.bind (bcdRegister_yields _ _) fun v => .getSr fun sr => .assignSr <|
      .getD fun old => .setD ?_
    rintro c rfl d rfl - e rfl
    exact Effect.of_nothing (by rintro _ ⟨⟩; exact .masked _ _ upper_byte (setWidth_toNat_lt _))
      (fun _ _ => rfl) (fun _ => rfl) rfl

/-- A result put back by the handler itself: under a mask, or with a write. -/
structure PutBack (size : M68kSize) (keep : U32) (ea : Ea) (c d : Core) : Prop where
  register : ea.isData = true → d.traffic = c.traffic ∧ ∃ low : U32, low.toNat < 2 ^ size.bits ∧
    d.dRegs = Function.update c.dRegs ea.regNum ((c.dRegs ea.regNum &&& keep) ||| low)
  memory : ea.isData = false → d.traffic = (.write, size, ea.address) :: c.traffic ∧
    d.dRegs = c.dRegs
  aRegs : d.aRegs = c.aRegs
  pc : d.pc = c.pc

theorem effect_putBack {o : Operand} {fetchValue : Bool} {ea : Ea} {u : Use} {keep : U32} {b : Core}
    (h : Located o fetchValue ea b c) (hput : o.mode = 0 ∨ o.inMemory = true)
    (hd : d = Part.resolve (o, u) b) (hwrites : u.writes = [(o.size, 0)])
    (hkeep : ∀ i : Fin 32, o.size.bits ≤ i → keep.getLsbD i = true)
    (he : PutBack o.size keep ea d e) : Effect ⟨[(o, u)], some o.size, [], true⟩ b e := by
  have hdata := h.isData
  cases hmemory : o.inMemory with
  | true =>
    obtain ⟨htraffic, hdRegs⟩ := he.memory (by rw [hdata, hmemory]; rfl)
    refine Effect.of_resolved hd ?_ (fun q _ => congrFun he.aRegs q) (fun _ => he.pc) ?_
    · rintro _ ⟨⟩
      rw [hdRegs]
      exact Confined.refl _ _
    · rw [htraffic, Part.stores, if_pos hmemory, ← h.address hmemory, hwrites]
      exact congrArg (fun a => (Access.write, o.size, a) :: _) (BitVec.add_zero _).symm
  | false =>
    have hmode : o.mode = 0 := hput.resolve_right (by rw [hmemory]; exact Bool.false_ne_true)
    obtain ⟨htraffic, low, hlow, hdRegs⟩ := he.register (by rw [hdata, hmemory, hmode]; rfl)
    refine Effect.of_resolved hd ?_ (fun q _ => congrFun he.aRegs q) (fun _ => he.pc) ?_
    · rintro _ ⟨⟩
      rw [hdRegs]
      exact .masked _ _ hkeep hlow
    · rw [htraffic, stores_register hmemory]
      rfl

theorem PutBack.of_register {size : M68kSize} {keep low : U32} {ea : Ea}
    (hdata : ea.isData = true) (hlow : low.toNat < 2 ^ size.bits)
    (hdRegs : d.dRegs = Function.update c.dRegs ea.regNum ((c.dRegs ea.regNum &&& keep) ||| low))
    (hrest : d.aRegs = c.aRegs ∧ d.pc = c.pc ∧ d.traffic = c.traffic) :
    PutBack size keep ea c d where
  register _ := ⟨hrest.2.2, low, hlow, hdRegs⟩
  memory hm := absurd (hdata.symm.trans hm) (by decide)
  aRegs := hrest.1
  pc := hrest.2.1

theorem PutBack.of_memory {size : M68kSize} {keep : U32} {ea : Ea} (hdata : ¬ea.isData = true)
    (htraffic : d.traffic = (.write, size, ea.address) :: c.traffic)
    (hrest : d.aRegs = c.aRegs ∧ d.pc = c.pc ∧ d.dRegs = c.dRegs) :
    PutBack size keep ea c d where
  register hm := absurd hm hdata
  memory _ := ⟨htraffic, hrest.2.2⟩
  aRegs := hrest.1
  pc := hrest.2.1

/-- NBCD. -/
def nbcdPlan (op : U16) : Plan :=
  { parts := [(eaField op .byte, .modify .byte)], size := some .byte }

theorem execNbcd_planned (op : U16) : Planned k (execNbcd op : M σ Unit) fun _ => nbcdPlan op := by
  refine .ite (fun _ => .exception (by decide)) fun hal => ?_
  have hput := alterable_cases (Bool.eq_false_iff.mpr hal) .byte
  refine Yields.bind (calcEa_yields _ _ _) fun ea => .look fun sr => .assignSr <|
    .ite (fun hdata => .getD fun old => .setD ?_) fun hdata => (write8_yields _ _).mono ?_
  · rintro e rfl d rfl c h
    exact effect_putBack h hput (h.resolved rfl) rfl upper_byte
      (.of_register hdata (setWidth_toNat_lt _) rfl ⟨rfl, rfl, rfl⟩)
  · rintro _ e f rfl d rfl c h
    exact effect_putBack h hput (h.resolved rfl) rfl upper_byte
      (.of_memory hdata rfl ⟨rfl, rfl, rfl⟩)

/-! ## AND, OR, EOR -/

/-- AND and OR. -/
def andOrPlan (op : U16) : Plan :=
  let size := opmodeSize (field op 6)
  if field op 6 = 3 ∨ field op 6 = 7 then { parts := [] }
  else if regToEa (field op 6) then
    { parts := [(eaField op size, .modify size)], size := some size }
  else { parts := [(eaField op size, .read size)], size := some size }

theorem execAndOr_planned {op : U32 → U32 → U32} (opcode : U16) :
    Planned k (execAndOr op opcode : M σ Unit) fun _ => andOrPlan opcode := by
  unfold execAndOr
  refine .choose (fun _ => planned_nothing) fun _ =>
    .ite (fun _ => .exception (by decide)) fun hrejects => ?_
  refine Yields.bind (calcEa_yields _ _ _) fun ea => .ite (fun hdir => ?_) fun hdir => ?_
  · have halterable : notMemoryAlterable (field opcode 3) (field opcode 0) = false := by
      simpa [andOrRejects, hdir] using hrejects
    refine .look fun src => (modify_yields (o := eaField opcode (opmodeSize (field opcode 6)))
      (.inr (inMemory_of_alterable halterable _))).mono fun _ _ _ h c hc => ?_
    rw [if_pos hdir]
    exact h c hc
  · refine .getD fun old => .assignD <| .modifySr ?_
    rintro _ d rfl hold c h
    rw [if_neg hdir, ← hold]
    exact effect_read h (Confined.merge _ _ _ _) ⟨rfl, rfl, rfl⟩

theorem execAnd_planned (op : U16) : Planned k (execAnd op : M σ Unit) fun _ => andOrPlan op :=
  execAndOr_planned op

theorem execOr_planned (op : U16) : Planned k (execOr op : M σ Unit) fun _ => andOrPlan op :=
  execAndOr_planned op

/-- EOR. -/
def eorPlan (op : U16) : Plan :=
  let size := opmodeSize (field op 6)
  if !regToEa (field op 6) then { parts := [] }
  else { parts := [(eaField op size, .modify size)], size := some size }

theorem execEor_planned (op : U16) : Planned k (execEor op : M σ Unit) fun _ => eorPlan op := by
  unfold execEor
  refine .choose (fun _ => planned_nothing) fun _ =>
    .ite (fun _ => .exception (by decide)) fun hal => ?_
  exact Yields.bind (calcEa_yields _ _ _) fun ea => .look fun src =>
    modify_yields (o := eaField op (opmodeSize (field op 6)))
      (alterable_cases (Bool.eq_false_iff.mpr hal) _)

/-! ## Shifts and rotates -/

/-- The shifts. -/
def shiftPlan (op : U16) : Plan :=
  if sizeBits op = 3 then { parts := [(eaField op .word, .modify .word)], size := some .word }
  else { parts := [], size := some (sized op) }

theorem shiftCount_yields (op : U16) : Yields k (shiftCount op : M σ Nat) fun _ c d => d = c :=
  .ite (fun _ => .look fun _ => .pure fun _ => rfl) fun _ => .pure fun _ => rfl

theorem execShift_planned (op : U16) :
    Planned k (execShift op : M σ Unit) fun _ => shiftPlan op := by
  refine .choose (fun _ => .ite (fun _ => .exception (by decide)) fun hal => ?_) fun _ => ?_
  · have hmemory := inMemory_of_alterable (Bool.eq_false_iff.mpr hal) .word
    refine Yields.bind (calcEa_yields _ _ _) fun ea => .look fun sr => .assignSr <|
      (writeSize_yields ea.address _ .word).mono ?_
    rintro _ d e rfl c rfl b h
    exact effect_putBack h (.inr hmemory) (h.resolved rfl) rfl upper_word
      (.of_memory (by rw [h.isData, hmemory]; exact Bool.false_ne_true) rfl ⟨rfl, rfl, rfl⟩)
  · refine Yields.bind (shiftCount_yields op) fun count => .look fun value =>
      .ite (fun _ => .modifySr ?_) fun _ => .look fun sr => .assignSr <|
        (setDSized_yields _ _ _).mono ?_
    · rintro c b rfl
      exact Effect.of_nothing (fun _ _ => Confined.refl _ _) (fun _ _ => rfl) (fun _ => rfl) rfl
    · rintro _ d e rfl c rfl b rfl
      exact Effect.of_nothing (by rintro _ ⟨⟩; exact Confined.merge _ _ _ _) (fun _ _ => rfl)
        (fun _ => rfl) rfl

/-! ## ANDI, ORI, EORI -/

/-- The immediate logic group: the forms on CCR and SR take one word; the latter may exchange
the stack pointers. -/
def logicPlan (ccr status : U16) (op : U16) : Plan :=
  if op = ccr then { parts := [immediate .byte], size := some .byte }
  else if op = status then { parts := [immediate .word], size := some .word, written := [7] }
  else immediatePlan op

theorem execImmediateLogic_planned {op : U32 → U32 → U32} {op16 : U16 → U16 → U16}
    (ccr status opcode : U16) :
    Planned k (execImmediateLogic op op16 ccr status opcode : M σ Unit) fun _ =>
      logicPlan ccr status opcode := by
  refine .choose (fun _ => ?_) fun _ => .choose (fun _ => .privileged ?_) fun _ =>
    execImmediate_planned opcode
  · refine Yields.bind fetch_yields fun imm => .modifySr ?_
    rintro d c ⟨-, rfl⟩
    exact Effect.of_resolved (d := (immediate .byte).resolve c) rfl
      (fun _ _ => Confined.refl _ _) (fun _ _ => rfl) (fun _ => rfl) rfl
  · refine Yields.bind fetch_yields fun imm => .look fun sr => (setSr_yields _).mono ?_
    rintro _ d e rfl c ⟨-, rfl⟩
    exact Effect.of_resolved (d := (immediate .word).resolve c) rfl
      (fun _ _ => Confined.refl _ _) (fun q hq => Core.loadSr_aRegs _ _ (by simpa using hq))
      (fun _ => rfl) rfl

theorem execAndi_planned (op : U16) :
    Planned k (execAndi op : M σ Unit) fun _ => logicPlan 0x023C 0x027C op :=
  execImmediateLogic_planned _ _ op

theorem execOri_planned (op : U16) :
    Planned k (execOri op : M σ Unit) fun _ => logicPlan 0x003C 0x007C op :=
  execImmediateLogic_planned _ _ op

theorem execEori_planned (op : U16) :
    Planned k (execEori op : M σ Unit) fun _ => logicPlan 0x0A3C 0x0A7C op :=
  execImmediateLogic_planned _ _ op

/-! ## Bits -/

/-- The size of the bit operations: a data register is a long, memory a byte. -/
def bitSize (op : U16) : M68kSize := if field op 3 = 0 then .long else .byte

/-- The bit operations: a static bit number is an extension word. -/
def bitPlan (use : Use) (op : U16) : Plan :=
  if op &&& 0x0100 != 0 then { parts := [(eaField op .byte, use)], size := some (bitSize op) }
  else { parts := [immediate .byte, (eaField op .byte, use)], size := some (bitSize op) }

/-- A data register is not resolved. -/
theorem resolve_dataRegister {o : Operand} (h : o.mode = 0) (u : Use) (c : Core) :
    Part.resolve (o, u) c = c := by
  obtain ⟨mode, reg, size⟩ := o
  cases h
  have hresolve : Part.resolve (⟨0, reg, size⟩, u) c = (⟨0, reg, size⟩ : Operand).next c := rfl
  exact hresolve.trans (next_eq (by decide) reg size c)

theorem stores_dataRegister {o : Operand} (h : o.mode = 0) (u : Use) (c : Core) :
    Part.stores (o, u) c = [] :=
  stores_register (by rw [Operand.inMemory, h]; rfl) u c

/-- An instruction on a data register, given as an operand. -/
theorem Effect.of_dataRegister {o : Operand} {u : Use} (h : o.mode = 0)
    {size : Option M68kSize} (hdata : ∀ z, size = some z → Confined z c.dRegs d.dRegs)
    (hrest : d.aRegs = c.aRegs ∧ d.pc = c.pc ∧ d.traffic = c.traffic) :
    Effect ⟨[(o, u)], size, [], true⟩ c d :=
  Effect.of_resolved (resolve_dataRegister h u c).symm hdata (fun q _ => congrFun hrest.1 q)
    (fun _ => hrest.2.1) (by rw [stores_dataRegister h]; exact hrest.2.2)

/-- The bit number, then the operand. -/
theorem bit_planned {use : Use} {op : U16} {f : U32 → M σ Unit}
    (h : ∀ v, Planned k (f v) fun _ =>
      { parts := [(eaField op .byte, use)], size := some (bitSize op) }) :
    Planned k (bitNumber op >>= f) fun _ => bitPlan use op := by
  unfold bitNumber bitPlan
  split
  · exact Yields.look fun v => h v
  · refine Yields.bind (S := fun _ c d => d = (immediate .byte).resolve c)
      (.bind fetch_yields fun w => .pure ?_) fun v => (h v).mono ?_
    · rintro _ c ⟨-, rfl⟩
      rfl
    · rintro _ d e he c rfl
      exact he.after rfl

theorem execBtst_planned (op : U16) :
    Planned k (execBtst op : M σ Unit) fun _ => bitPlan (.read .byte) op := by
  refine .ite (fun _ => .exception (by decide)) fun _ => bit_planned fun v =>
    .ite (fun hmode => ?_) fun _ => ?_
  · refine Yields.getD fun data => .modifySr fun c _ => ?_
    exact Effect.of_dataRegister hmode (fun _ _ => Confined.refl _ _) ⟨rfl, rfl, rfl⟩
  · refine Yields.bind (calcEa_yields _ _ _) fun ea => .modifySr fun d c h => ?_
    exact effect_read h (Confined.refl _ _) ⟨rfl, rfl, rfl⟩

theorem execBitOp_planned {op : U32 → U32 → U32} (opcode : U16) :
    Planned k (execBitOp op opcode : M σ Unit) fun _ => bitPlan (.modify .byte) opcode := by
  refine .ite (fun _ => .exception (by decide)) fun hal => bit_planned fun v =>
    .ite (fun hmode => ?_) fun hmode => ?_
  · refine Yields.getD fun data => .assignSr <| .setD ?_
    rintro d c rfl -
    refine Effect.of_dataRegister hmode ?_ ⟨rfl, rfl, rfl⟩
    rw [bitSize, if_pos hmode]
    rintro _ ⟨⟩
    exact Confined.update_long _ _ _
  · have hmemory := (alterable_cases (Bool.eq_false_iff.mpr hal) .byte).resolve_left hmode
    refine Yields.bind (calcEa_yields _ _ _) fun ea => .assignSr <| (write8_yields _ _).mono ?_
    rintro _ d e rfl c rfl b h
    rw [bitSize, if_neg hmode]
    refine effect_putBack h (.inr hmemory) (h.resolved rfl) rfl upper_byte ?_
    exact .of_memory (by rw [h.isData, hmemory]; exact Bool.false_ne_true) rfl ⟨rfl, rfl, rfl⟩

theorem execBset_planned (op : U16) :
    Planned k (execBset op : M σ Unit) fun _ => bitPlan (.modify .byte) op := execBitOp_planned op

theorem execBclr_planned (op : U16) :
    Planned k (execBclr op : M σ Unit) fun _ => bitPlan (.modify .byte) op := execBitOp_planned op

theorem execBchg_planned (op : U16) :
    Planned k (execBchg op : M σ Unit) fun _ => bitPlan (.modify .byte) op := execBitOp_planned op

/-- TAS. -/
def tasPlan (op : U16) : Plan :=
  { parts := [(eaField op .byte, .modify .byte)], size := some .byte }

theorem execTas_planned (op : U16) : Planned k (execTas op : M σ Unit) fun _ => tasPlan op := by
  refine .ite (fun _ => .exception (by decide)) fun hal => ?_
  have hput := alterable_cases (Bool.eq_false_iff.mpr hal) .byte
  refine Yields.bind (calcEa_yields _ _ _) fun ea => .assignSr <|
    .bind tasAllowsWrite_yields fun allowed =>
      .ite (fun _ => .ite (fun hdata => ?_) fun hdata => ?_) fun hnot => ?_
  · have hlow : (ea.value &&& 0xFF ||| 0x80).toNat < 2 ^ 8 := by
      rw [BitVec.toNat_or, BitVec.toNat_and]
      exact Nat.or_lt_two_pow (Nat.lt_of_le_of_lt Nat.and_le_right (by decide)) (by decide)
    refine .getD fun old => .setD ?_
    rintro e rfl d ⟨-, rfl⟩ _ rfl c h
    exact effect_putBack h hput (h.resolved rfl) rfl upper_byte
      (.of_register hdata hlow rfl ⟨rfl, rfl, rfl⟩)
  · refine (write8_yields _ _).mono ?_
    rintro _ e f rfl d ⟨-, rfl⟩ _ rfl c h
    exact effect_putBack h hput (h.resolved rfl) rfl upper_byte
      (.of_memory hdata rfl ⟨rfl, rfl, rfl⟩)
  · exact .pure fun e d ha => absurd ha.1 hnot

end M68k
