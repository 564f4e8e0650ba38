import Rocket68.Logic.MovePlans

/-!
# Plans of MOVEM and of the control instructions

The accesses of MOVEM are those of its register list. A transfer of control is not
sequential; what it pushes and pops are operands on the stack.
-/

namespace M68k

open Trap TrapM

variable {σ : Type} {k : Option (Nat → M68kCpu σ → M68kCpu σ × U32)} {b c d e : Core}

/-! ## MOVEM -/

/-- `n` elements from `a` upwards. -/
def ascending (size : M68kSize) : Nat → U32 → List (M68kSize × U32)
  | 0, _ => []
  | n + 1, a => (size, a) :: ascending size n (a + size.bytes)

/-- One element written downwards, a long low word first. -/
def below (size : M68kSize) (a : U32) : List (M68kSize × U32) :=
  if size = .long then [(.word, a + 2), (.word, a)] else [(size, a)]

/-- `n` elements from `a` downwards. -/
def descending (size : M68kSize) : Nat → U32 → List (M68kSize × U32)
  | 0, _ => []
  | n + 1, a => below size (a - size.bytes) ++ descending size n (a - size.bytes)

/-- The registers a mask selects out of a list. -/
def selected (mask : U16) (l : List (Fin 16)) : List (Fin 16) := l.filter fun i => mask.getLsbD i

theorem selected_cons_of {mask : U16} {i : Fin 16} {l : List (Fin 16)}
    (h : mask.getLsbD i = true) : selected mask (i :: l) = i :: selected mask l :=
  List.filter_cons_of_pos h

theorem selected_cons_not {mask : U16} {i : Fin 16} {l : List (Fin 16)}
    (h : ¬mask.getLsbD i = true) : selected mask (i :: l) = selected mask l :=
  List.filter_cons_of_neg h

/-- The number of transferred elements. -/
def movemCount (mask : U16) : Nat := (selected mask (List.finRange 16)).length

/-- The address registers among the selected. -/
def movemLoaded (mask : U16) : List (Fin 8) :=
  ((selected mask (List.finRange 16)).filter fun i => 8 ≤ i).map
    fun i : Fin 16 => Fin.ofNat 8 i

/-- The distance `n` elements span. -/
def span (size : M68kSize) (n : Nat) : U32 := BitVec.ofNat 32 n * size.bytes

theorem span_succ (size : M68kSize) (n : Nat) (a : U32) :
    a + span size (n + 1) = a + size.bytes + span size n := by
  have hsucc : BitVec.ofNat 32 (n + 1) = BitVec.ofNat 32 n + 1 := BitVec.ofNat_add n 1
  have hone : 1 * size.bytes = size.bytes := BitVec.one_mul _
  rw [span, hsucc, BitVec.add_mul, hone, ← span, BitVec.add_comm (span size n), BitVec.add_assoc]

theorem span_zero (size : M68kSize) (a : U32) : a + span size 0 = a := by
  have hzero : span size 0 = 0 := BitVec.zero_mul
  rw [hzero]
  exact BitVec.add_zero a

/-- A transfer of the elements `pieces` from `base` on. -/
structure Transferred (kind : Access) (base : U32) (pieces : List (M68kSize × U32))
    (c d : Core) : Prop where
  pc : d.pc = c.pc
  traffic : d.traffic = (accessesAt kind base pieces).reverse ++ c.traffic

theorem Transferred.nil {kind : Access} {base : U32} : Transferred kind base [] c c := ⟨rfl, rfl⟩

/-- One element, then the others. -/
theorem Transferred.cons {kind : Access} {base : U32} {piece : M68kSize × U32}
    {q : List (M68kSize × U32)} (h : Transferred kind base q d e) (hpc : d.pc = c.pc)
    (htraffic : d.traffic = (kind, piece.1, base + piece.2) :: c.traffic) :
    Transferred kind base (piece :: q) c e := by
  refine ⟨h.pc.trans hpc, ?_⟩
  rw [h.traffic, htraffic]
  simp [accessesAt]

/-- The loading loop: registers outside the list keep their values. -/
theorem movemLoad_yields (mask : U16) (size : M68kSize) (base : U32) (l : List (Fin 16))
    (offset : U32) :
    Yields k (movemLoad mask size l (base + offset) : M σ U32) fun next c d =>
      next = base + offset + span size (selected mask l).length ∧
      Transferred .read base (ascending size (selected mask l).length offset) c d ∧
      ∀ q : Fin 8, (∀ i ∈ selected mask l, 8 ≤ i → Fin.ofNat 8 i ≠ q) → d.aRegs q = c.aRegs q := by
  induction l generalizing offset with
  | nil => exact .pure fun c => ⟨(span_zero size _).symm, .nil, fun _ _ => rfl⟩
  | cons i rest ih =>
    rw [movemLoad]
    refine .ite (fun hsel => ?_) fun hsel => ?_
    · rw [selected_cons_of hsel, List.length_cons]
      have hnext := ih (offset + size.bytes)
      rw [← BitVec.add_assoc] at hnext
      refine .bind (readSize_yields _ size) fun raw => .skip (fun _ => rfl) (fun _ => rfl) <|
        .ite (fun hdata => .assignD <| hnext.mono ?_) fun haddr => .assignA <| hnext.mono ?_
      · rintro next d e ⟨hvalue, hmoved, hkept⟩ c rfl b ⟨-, rfl⟩
        refine ⟨hvalue.trans (span_succ _ _ _).symm, ?_, fun q hq =>
          hkept q fun j hj => hq j (List.mem_cons_of_mem i hj)⟩
        exact hmoved.cons rfl rfl
      · rintro next d e ⟨hvalue, hmoved, hkept⟩ c rfl b ⟨-, rfl⟩
        refine ⟨hvalue.trans (span_succ _ _ _).symm, ?_, fun q hq => ?_⟩
        · exact hmoved.cons rfl rfl
        · refine (hkept q fun j hj => hq j (List.mem_cons_of_mem i hj)).trans ?_
          exact Function.update_of_ne (hq i List.mem_cons_self (Fin.not_lt.mp haddr)).symm _ _
    · rw [selected_cons_not hsel]
      exact ih offset

/-- The value of a register to be stored. -/
theorem movemRegister_yields (i : Fin 16) :
    Yields k (movemRegister i : M σ U32) fun _ c d => d = c :=
  .ite (fun _ => .of_run (f := fun s => s.dRegs (Fin.ofNat 8 i)) (g := id) (fun _ => rfl)
    (fun _ => rfl) fun _ => rfl) fun _ => .of_run (f := fun s => s.aRegs (Fin.ofNat 8 i)) (g := id)
      (fun _ => rfl) (fun _ => rfl) fun _ => rfl

/-- What the storing loops leave alone. -/
structure Stored (base : U32) (pieces : List (M68kSize × U32)) (c d : Core) : Prop where
  moved : Transferred .write base pieces c d
  dRegs : d.dRegs = c.dRegs
  aRegs : d.aRegs = c.aRegs

theorem Stored.cons {base : U32} {piece : M68kSize × U32} {q : List (M68kSize × U32)}
    (h : Stored base q d e) (hrest : d.pc = c.pc ∧ d.dRegs = c.dRegs ∧ d.aRegs = c.aRegs)
    (htraffic : d.traffic = (.write, piece.1, base + piece.2) :: c.traffic) :
    Stored base (piece :: q) c e :=
  ⟨h.moved.cons hrest.1 htraffic, h.dRegs.trans hrest.2.1, h.aRegs.trans hrest.2.2⟩

theorem movemStore_yields (mask : U16) (size : M68kSize) (base : U32) (l : List (Fin 16))
    (offset : U32) :
    Yields k (movemStore mask size l (base + offset) : M σ Unit) fun _ =>
      Stored base (ascending size (selected mask l).length offset) := by
  induction l generalizing offset with
  | nil => exact .pure fun c => ⟨.nil, rfl, rfl⟩
  | cons i rest ih =>
    rw [movemStore]
    refine .ite (fun hsel => ?_) fun hsel => ?_
    · rw [selected_cons_of hsel, List.length_cons]
      have hnext := ih (offset + size.bytes)
      rw [← BitVec.add_assoc] at hnext
      refine .bind (movemRegister_yields i) fun v => .bind (writeSize_yields _ _ size) fun _ =>
        .skip (fun _ => rfl) (fun _ => rfl) <| hnext.mono ?_
      rintro _ d e hrest c rfl b rfl
      exact hrest.cons ⟨rfl, rfl, rfl⟩ rfl
    · rw [selected_cons_not hsel]
      exact ih offset

theorem add_sub_assoc (a b c : U32) : a + b - c = a + (b - c) := by
  rw [BitVec.sub_eq_add_neg, BitVec.sub_eq_add_neg, BitVec.add_assoc]

theorem movemStorePredec_yields (mask : U16) (size : M68kSize) (r : Fin 8) (initial base : U32)
    (l : List (Fin 16)) (offset : U32) :
    Yields k (movemStorePredec mask size r initial l (base + offset) : M σ U32) fun next c d =>
      next + span size (selected mask l).length = base + offset ∧
      Stored base (descending size (selected mask l).length offset) c d := by
  induction l generalizing offset with
  | nil => exact .pure fun c => ⟨span_zero size _, .nil, rfl, rfl⟩
  | cons i rest ih =>
    rw [movemStorePredec]
    refine .ite (fun hsel => ?_) fun hsel => ?_
    · rw [selected_cons_of hsel, List.length_cons]
      have hnext := ih (offset - size.bytes)
      rw [← add_sub_assoc] at hnext
      have hpred (v : U32) : Yields k (do
          if size = .long then do
            write16 (base + offset - size.bytes + 2) (v.setWidth 16)
            write16 (base + offset - size.bytes) ((v >>> 16).setWidth 16)
          else
            writeSize (base + offset - size.bytes) (v &&& 0xFFFF) size
          charge (if size = .long then 8 else 4)
          movemStorePredec mask size r initial rest (base + offset - size.bytes) : M σ U32)
          fun next c d =>
            next + span size ((selected mask rest).length + 1) = base + offset ∧
            Stored base (descending size ((selected mask rest).length + 1) offset) c d := by
        have hback (next : U32) (h : next + span size (selected mask rest).length =
            base + offset - size.bytes) :
            next + span size ((selected mask rest).length + 1) = base + offset := by
          rw [span_succ, BitVec.add_assoc, BitVec.add_comm size.bytes, ← BitVec.add_assoc, h,
            BitVec.sub_add_cancel]
        have hat : base + offset - size.bytes = base + (offset - size.bytes) :=
          add_sub_assoc base offset size.bytes
        refine .ite (fun hlong => ?_) fun hlong => ?_
        -- a long register goes out as two words, the low one first
        · refine .bind (write16_yields _ _) fun _ => .bind (write16_yields _ _) fun _ =>
            .skip (fun _ => rfl) (fun _ => rfl) <| hnext.mono ?_
          rintro next e f ⟨hvalue, hrest⟩ d rfl c hd
          have hhigh : Stored base ((.word, offset - size.bytes) ::
              descending size (selected mask rest).length (offset - size.bytes)) d f :=
            hrest.cons ⟨rfl, rfl, rfl⟩ (by rw [hat]; rfl)
          subst hd
          refine ⟨hback next hvalue, ?_⟩
          rw [descending, below, if_pos hlong]
          exact hhigh.cons ⟨rfl, rfl, rfl⟩ (by rw [hat, BitVec.add_assoc]; rfl)
        · refine .bind (writeSize_yields _ _ size) fun _ => .skip (fun _ => rfl) (fun _ => rfl) <|
            hnext.mono ?_
          rintro next d e ⟨hvalue, hrest⟩ c rfl
          refine ⟨hback next hvalue, ?_⟩
          rw [descending, below, if_neg hlong]
          exact hrest.cons ⟨rfl, rfl, rfl⟩ (by rw [hat]; rfl)
      refine .ite (fun _ => hpred initial) fun _ => ?_
      refine .bind (movemRegister_yields i.rev) fun v => (hpred v).mono ?_
      rintro next c d h _ rfl
      exact h
    · rw [selected_cons_not hsel]
      exact ih offset

/-- The size bit of MOVEM. -/
def movemSize (op : U16) : M68kSize := if op &&& 0x0040 != 0 then .long else .word

/-- The block MOVEM transfers; the step of `(An)+` and `-(An)` comes at the end. -/
def movemOperand (op : U16) : Operand :=
  if field op 3 = 3 ∨ field op 3 = 4 then ⟨2, field op 0, movemSize op⟩
  else eaField op (movemSize op)

/-- The elements of a register list. -/
def movemUse (op mask : U16) : Use :=
  if op &&& 0x0400 != 0 then { reads := ascending (movemSize op) (movemCount mask) 0 }
  else if field op 3 = 4 then { writes := descending (movemSize op) (movemCount mask) 0 }
  else { writes := ascending (movemSize op) (movemCount mask) 0 }

/-- MOVEM. -/
def movemPlan (op : U16) (c : Core) : Plan where
  parts := [immediate .word, (movemOperand op, movemUse op c.word)]
  size := none
  written := (if field op 3 = 3 ∨ field op 3 = 4 then [field op 0] else []) ++
    if op &&& 0x0400 != 0 then movemLoaded c.word else []

/-- The base register after MOVEM. -/
structure MovemBase (op : U16) (c d : Core) : Prop where
  postinc : field op 3 = 3 →
    d.aRegs (field op 0) = c.aRegs (field op 0) + span (movemSize op) (movemCount c.word)
  predec : field op 3 = 4 →
    d.aRegs (field op 0) = c.aRegs (field op 0) - span (movemSize op) (movemCount c.word)
  other : field op 3 ≠ 3 → field op 3 ≠ 4 →
    (op &&& 0x0400 != 0 → field op 0 ∉ movemLoaded c.word) →
      d.aRegs (field op 0) = c.aRegs (field op 0)

theorem movemAddress_yields {op : U16} {load : Bool}
    (h : ¬movemRejects load (field op 3) (field op 0) = true) :
    (movemOperand op).inMemory = true ∧
    Yields k (movemAddress load (field op 3) (field op 0) (movemSize op) : M σ U32) fun a c d =>
      a = (movemOperand op).address c ∧ d = (movemOperand op).next c := by
  have key : ∀ (load : Bool) (mode reg : Fin 8), ¬movemRejects load mode reg = true →
      (2 ≤ mode && !(mode == 7 && 4 ≤ reg)) = true ∧ (load = true → mode ≠ 4) := by decide
  obtain ⟨hmemory, hload⟩ := key load _ _ h
  unfold movemOperand
  by_cases hstep : field op 3 = 3 ∨ field op 3 = 4
  · rw [if_pos hstep]
    refine ⟨rfl, .ite (fun _ => ?_) fun hnot => ?_⟩
    · refine .of_run (f := fun s => s.aRegs (field op 0)) (g := id) (fun _ => rfl) (fun _ => rfl)
        fun s => ⟨rfl, ?_⟩
      exact (next_eq (by decide) (field op 0) (movemSize op) (core s)).symm
    · refine absurd ?_ hnot
      rcases hstep with h3 | h4
      · exact .inr h3
      · refine .inl ⟨h4, ?_⟩
        cases load with
        | false => rfl
        | true => exact absurd h4 (hload rfl)
  · rw [if_neg hstep]
    refine ⟨hmemory, .ite (fun hyes => ?_) fun _ => ?_⟩
    · exact absurd (hyes.elim (fun h => .inr h.1) .inl) hstep
    · refine .bind (calcEaAddrNocost_yields _ _ _) fun ea => .pure ?_
      intro d c hl
      exact ⟨hl.address hmemory, hl.core⟩

/-- The operand of MOVEM does not step. -/
theorem movemOperand_aRegs (op : U16) (c : Core) :
    ((movemOperand op).next c).aRegs = c.aRegs := by
  unfold movemOperand
  by_cases hstep : field op 3 = 3 ∨ field op 3 = 4
  · rw [if_pos hstep]
    rfl
  · rw [if_neg hstep]
    simp only [Operand.next, Operand.stepped, eaField]
    split
    · next h3 => exact absurd (.inl h3) hstep
    · next h4 => exact absurd (.inr h4) hstep
    · rfl

/-- A block at the base register starts where the register points to. -/
theorem movemOperand_address {op : U16} (h : field op 3 = 3 ∨ field op 3 = 4) (c : Core) :
    (movemOperand op).address c = c.aRegs (field op 0) := by
  rw [movemOperand, if_pos h]
  rfl

/-- A transfer of all elements is the effect of MOVEM. -/
theorem effect_movem {op : U16} {f : Core} (hmemory : (movemOperand op).inMemory = true)
    (hd : d = (immediate .word).resolve c) (hpc : f.pc = ((movemOperand op).next d).pc)
    (htraffic : f.traffic =
      (accessesAt .write ((movemOperand op).address d) (movemUse op c.word).writes).reverse ++
      ((accessesAt .read ((movemOperand op).address d) (movemUse op c.word).reads).reverse ++
        d.traffic))
    (haRegs : ∀ q, q ∉ (movemPlan op c).written → f.aRegs q = d.aRegs q) :
    Effect (movemPlan op c) c f := by
  have hrest : Effect { movemPlan op c with
      parts := [(movemOperand op, movemUse op c.word)] } d f := by
    refine Effect.of_resolved rfl nofun (fun q hq => ?_) (fun _ => hpc) ?_
    · exact (haRegs q hq).trans (congrFun (movemOperand_aRegs op d).symm q)
    · have hstores : Part.stores (movemOperand op, movemUse op c.word) d =
          accessesAt .write ((movemOperand op).address d) (movemUse op c.word).writes :=
        if_pos hmemory
      have hresolve : (Part.resolve (movemOperand op, movemUse op c.word) d).traffic =
          (accessesAt .read ((movemOperand op).address d) (movemUse op c.word).reads).reverse ++
            d.traffic := by
        simp only [Part.resolve, if_pos hmemory]
      rw [htraffic, hstores, hresolve]
  rw [hd] at hrest
  exact hrest.after rfl

/-- The registers a load leaves alone. -/
theorem not_loaded {mask : U16} {q : Fin 8} (h : q ∉ movemLoaded mask) :
    ∀ i ∈ selected mask (List.finRange 16), 8 ≤ i → Fin.ofNat 8 i ≠ q := by
  rintro i hi hle rfl
  exact h (List.mem_map.mpr ⟨i, List.mem_filter.mpr ⟨hi, by simpa using hle⟩, rfl⟩)

/-- The registers a load of MOVEM writes. -/
theorem not_written {op : U16} {q : Fin 8} (h : q ∉ (movemPlan op c).written) :
    (field op 3 = 3 ∨ field op 3 = 4 → q ≠ field op 0) ∧
      (op &&& 0x0400 != 0 → q ∉ movemLoaded c.word) := by
  simp only [movemPlan, List.mem_append, not_or] at h
  refine ⟨fun hstep hq => h.1 ?_, fun hload hq => h.2 ?_⟩
  · rw [if_pos hstep, hq]
    exact List.mem_singleton_self _
  · rwa [if_pos hload]

/-- In the other modes the base is one of the registers, to be loaded like them. -/
theorem base_not_written {op : U16} (h3 : field op 3 ≠ 3) (h4 : field op 3 ≠ 4)
    (hlist : op &&& 0x0400 != 0 → field op 0 ∉ movemLoaded c.word) :
    field op 0 ∉ (movemPlan op c).written := by
  simp only [movemPlan, List.mem_append, not_or]
  refine ⟨?_, ?_⟩
  · rw [if_neg (not_or.mpr ⟨h3, h4⟩)]
    exact List.not_mem_nil
  · split
    · next hload => exact hlist hload
    · exact List.not_mem_nil

/-- The state MOVEM transfers from. -/
def MovemReady (op mask : U16) (addr : U32) (c d : Core) : Prop :=
  ∃ b, (addr = (movemOperand op).address b ∧ d = (movemOperand op).next b) ∧
    mask = c.word ∧ b = (immediate .word).resolve c

namespace MovemReady

variable {op mask : U16} {addr : U32}

theorem aRegs (h : MovemReady op mask addr c d) : d.aRegs = c.aRegs := by
  obtain ⟨b, ⟨-, rfl⟩, -, rfl⟩ := h
  exact movemOperand_aRegs op _

theorem listed (h : MovemReady op mask addr c d) : mask = c.word := by
  obtain ⟨b, -, hmask, -⟩ := h
  exact hmask

theorem base (h : MovemReady op mask addr c d) (hstep : field op 3 = 3 ∨ field op 3 = 4) :
    addr = c.aRegs (field op 0) := by
  obtain ⟨b, ⟨rfl, -⟩, -, rfl⟩ := h
  exact movemOperand_address hstep _

theorem effect {f : Core} (h : MovemReady op mask addr c d)
    (hmemory : (movemOperand op).inMemory = true) (hpc : f.pc = d.pc)
    (htraffic : f.traffic = (accessesAt .write addr (movemUse op mask).writes).reverse ++
      ((accessesAt .read addr (movemUse op mask).reads).reverse ++ d.traffic))
    (haRegs : ∀ q, q ∉ (movemPlan op c).written → f.aRegs q = c.aRegs q) :
    Effect (movemPlan op c) c f := by
  obtain ⟨b, ⟨haddr, hd⟩, hmask, hb⟩ := h
  refine effect_movem hmemory hb (by rw [hpc, hd]) ?_ fun q hq => hb ▸ haRegs q hq
  rw [htraffic, haddr, hmask, hd]
  rfl

end MovemReady

section Movem

variable {op : U16} (mask : U16) (addr : U32) (hmemory : (movemOperand op).inMemory = true)

include hmemory

theorem movemLoad_effect (hload : (op &&& 0x0400 != 0) = true) (hne : field op 3 ≠ 4) :
    Yields k (do
      let next ← movemLoad mask (movemSize op) (List.finRange 16) addr
      setProgramSpace false
      charge 4
      if field op 3 = 3 then setA (field op 0) next : M σ Unit) fun _ d f =>
        ∀ c, MovemReady op mask addr c d → Effect (movemPlan op c) c f ∧ MovemBase op c f := by
  have hzero : addr + 0 = addr := BitVec.add_zero addr
  have hloop := movemLoad_yields (k := k) (σ := σ) mask (movemSize op) addr (List.finRange 16) 0
  rw [hzero] at hloop
  have heffect {c d e f : Core} (h : MovemReady op mask addr c d)
      (he : Transferred .read addr (ascending (movemSize op) (movemCount mask) 0) d e)
      (hf : f.pc = e.pc ∧ f.traffic = e.traffic)
      (haRegs : ∀ q, q ∉ (movemPlan op c).written → f.aRegs q = c.aRegs q) :
      Effect (movemPlan op c) c f := by
    refine h.effect hmemory (hf.1.trans he.pc) ?_ haRegs
    rw [hf.2, he.traffic, movemUse, if_pos hload]
    rfl
  -- a register that the list does not load is as the mask word left it
  have hkeeps {c d e : Core} (h : MovemReady op mask addr c d)
      (hkept : ∀ q : Fin 8, (∀ i ∈ selected mask (List.finRange 16), 8 ≤ i → Fin.ofNat 8 i ≠ q) →
        e.aRegs q = d.aRegs q) {q : Fin 8} (hq : q ∉ (movemPlan op c).written) :
      e.aRegs q = c.aRegs q := by
    exact (hkept q (not_loaded (h.listed ▸ (not_written hq).2 hload))).trans (congrFun h.aRegs q)
  refine .bind hloop fun next => .skip (fun _ => rfl) (fun _ => rfl) <|
    .skip (fun _ => rfl) (fun _ => rfl) <| .ite (fun h3 => .setA ?_) fun h3 => .pure ?_
  · rintro e d ⟨hnext, hmoved, hkept⟩ c h
    refine ⟨heffect h hmoved ⟨rfl, rfl⟩ fun q hq => ?_, fun _ => ?_, fun h4 => absurd h4 hne,
      fun hnot => absurd h3 hnot⟩
    · exact (Function.update_of_ne ((not_written hq).1 (.inl h3)) _ _).trans (hkeeps h hkept hq)
    · refine (Function.update_self _ _ _).trans ?_
      rw [hnext, h.base (.inl h3), ← h.listed]
      rfl
  · rintro e d ⟨-, hmoved, hkept⟩ c h
    exact ⟨heffect h hmoved ⟨rfl, rfl⟩ fun q hq => hkeeps h hkept hq, fun h => absurd h h3,
      fun h4 => absurd h4 hne, fun _ _ hlist => hkeeps h hkept (base_not_written h3 hne hlist)⟩

theorem movemStorePredec_effect (hload : ¬(op &&& 0x0400 != 0) = true) (h4 : field op 3 = 4) :
    Yields k (do
      let next ← movemStorePredec mask (movemSize op) (field op 0) (← getA (field op 0))
        (List.finRange 16) addr
      setA (field op 0) next : M σ Unit) fun _ d f =>
        ∀ c, MovemReady op mask addr c d → Effect (movemPlan op c) c f ∧ MovemBase op c f := by
  have hzero : addr + 0 = addr := BitVec.add_zero addr
  have hloop (initial : U32) := movemStorePredec_yields (k := k) (σ := σ) mask (movemSize op)
    (field op 0) initial addr (List.finRange 16) 0
  rw [hzero] at hloop
  refine .look fun initial => .bind (hloop initial) fun next => .setA ?_
  rintro e d ⟨hnext, hstored⟩ c h
  refine ⟨h.effect hmemory hstored.moved.pc ?_ fun q hq => ?_, fun h3 => ?_, fun _ => ?_,
    fun _ hnot => absurd h4 hnot⟩
  · rw [hstored.moved.traffic, movemUse, if_neg hload, if_pos h4]
    rfl
  · refine (Function.update_of_ne ((not_written hq).1 (.inr h4)) _ _).trans ?_
    rw [hstored.aRegs, h.aRegs]
  · exact absurd (h3.symm.trans h4) (by decide)
  · refine (Function.update_self _ _ _).trans ?_
    rw [← h.base (.inr h4), ← hnext, ← h.listed]
    exact (BitVec.add_sub_cancel _ _).symm

theorem movemStore_effect (hload : ¬(op &&& 0x0400 != 0) = true) (h3 : field op 3 ≠ 3)
    (h4 : field op 3 ≠ 4) :
    Yields k (movemStore mask (movemSize op) (List.finRange 16) addr : M σ Unit) fun _ d f =>
      ∀ c, MovemReady op mask addr c d → Effect (movemPlan op c) c f ∧ MovemBase op c f := by
  have hzero : addr + 0 = addr := BitVec.add_zero addr
  have hloop := movemStore_yields (k := k) (σ := σ) mask (movemSize op) addr (List.finRange 16) 0
  rw [hzero] at hloop
  refine hloop.mono ?_
  rintro _ d e hstored c h
  refine ⟨h.effect hmemory hstored.moved.pc ?_ fun q hq => ?_, fun h => absurd h h3,
    fun h => absurd h h4, fun _ _ _ => ?_⟩
  · rw [hstored.moved.traffic, movemUse, if_neg hload, if_neg h4]
    rfl
  · rw [hstored.aRegs, h.aRegs]
  · rw [hstored.aRegs, h.aRegs]

end Movem

/-- The transfer, then the step of the base register. -/
theorem execMovem_yields (op : U16) : Yields k (execMovem op : M σ Unit) fun _ c d =>
    Effect (movemPlan op c) c d ∧ MovemBase op c d := by
  refine .ite (fun _ => .of_throws (exception_throws (by decide))) fun hrejects => ?_
  obtain ⟨hmemory, haddress⟩ := movemAddress_yields (k := k) (σ := σ) hrejects
  have key : ∀ (load : Bool) (mode reg : Fin 8), ¬movemRejects load mode reg = true →
      (load = true → mode ≠ 4) ∧ (¬load = true → mode ≠ 3) := by decide
  obtain ⟨hne4, hne3⟩ := key _ _ _ hrejects
  have hready {mask : U16} {addr : U32} {m : M σ Unit}
      (h : Yields k m fun _ d e => ∀ b, MovemReady op mask addr b d →
        Effect (movemPlan op b) b e ∧ MovemBase op b e) :
      Yields k m fun _ d e => ∀ c, (addr = (movemOperand op).address c ∧
        d = (movemOperand op).next c) → ∀ b, (mask = b.word ∧ c = (immediate .word).resolve b) →
          Effect (movemPlan op b) b e ∧ MovemBase op b e :=
    h.mono fun _ _ _ hm c hd b hc => hm b ⟨c, hd, hc⟩
  refine .bind fetch_resolves fun mask => .bind haddress fun addr =>
    .skip (fun _ => rfl) (fun _ => rfl) ?_
  refine .ite (fun hload => ?_) fun hload => ?_
  · have hrun := hready (movemLoad_effect (k := k) (σ := σ) mask addr hmemory hload (hne4 hload))
    exact .skip (fun _ => rfl) (fun _ => rfl) <| .look fun pc => .skip (fun _ => rfl)
      (fun _ => rfl) <| .ite (fun _ => .ite (fun _ => .skip (fun _ => rfl) (fun _ => rfl) hrun)
        fun _ => hrun) fun hnot => absurd hload hnot
  · refine .look fun pc => .skip (fun _ => rfl) (fun _ => rfl) <|
      .ite (fun hyes => absurd hyes hload) fun _ => .ite (fun h4 => ?_) fun h4 => ?_
    · exact hready (movemStorePredec_effect mask addr hmemory hload h4)
    · exact hready (movemStore_effect mask addr hmemory hload (hne3 hload) h4)

theorem execMovem_planned (op : U16) : Planned k (execMovem op : M σ Unit) (movemPlan op) :=
  (execMovem_yields op).mono fun _ _ _ h => h.1

/-! ## Branches -/

/-- Bcc, BRA and BSR: a word of displacement if the low byte is zero, and the push of BSR. -/
def branchPlan (op : U16) : Plan where
  parts := (if op &&& 0xFF = 0 then [immediate .word] else []) ++
    if conditionField op = 1 then [pushPart] else []
  sequential := false

/-- A program that moves the PC only. -/
def MovesPc (k : Option (Nat → M68kCpu σ → M68kCpu σ × U32)) {α : Type} (m : M σ α) : Prop :=
  Yields k m fun _ c d => ∃ pc, d = { c with pc := pc }

theorem Effect.of_movesPc {size : Option M68kSize} {written : List (Fin 8)}
    (h : ∃ pc, d = { c with pc := pc }) : Effect ⟨[], size, written, false⟩ c d := by
  obtain ⟨pc, rfl⟩ := h
  exact Effect.of_nothing (fun _ _ => Confined.refl _ _) (fun _ _ => rfl) nofun rfl

theorem movesPc_pure (n : Int) : MovesPc k (charge n : M σ Unit) := .charge fun c => ⟨c.pc, rfl⟩

/-- A taken branch that completes is at its target. -/
theorem takeBranch_jumps (target : U32) :
    Yields k (takeBranch target : M σ Unit) fun _ c d => d = { c with pc := target } := by
  refine .bind (isUnmappedTarget_yields target) fun unmapped => .ite (fun _ => .look fun _ =>
    .of_throws ((raiseBusTargetFault_throws _ _).bind fun _ => .modify fun _ => rfl)) fun _ =>
      .bind (setPc_yields target) fun _ => .charge ?_
  rintro _ c rfl _ rfl
  rfl

theorem takeBranch_movesPc (target : U32) : MovesPc k (takeBranch target : M σ Unit) :=
  (takeBranch_jumps target).mono fun _ _ _ h => ⟨target, h⟩

/-- BSR pushes the PC and jumps. -/
theorem execBsr_jumps (target : U32) : Yields k (execBsr target : M σ Unit) fun _ c d => ∃ e,
    e = ({ c with aRegs := Function.update c.aRegs 7 (c.aRegs 7 - 4) } : Core).stored .long
      (c.aRegs 7 - 4) c.pc ∧ d = { e with pc := target } := by
  refine Yields.getPc fun pc => .bind (push32_yields pc) fun _ => .ite (fun _ => .of_throws
    ((raiseOddTargetFault_throws _ _).bind fun _ => .modify fun _ => rfl)) fun _ =>
      .bind (isUnmappedTarget_yields target) fun unmapped => .ite (fun _ => .of_throws
        ((raiseBusTargetFault_throws _ _).bind fun _ => .modify fun _ => rfl)) fun _ =>
          .bind (setPc_yields target) fun _ => .charge ?_
  rintro _ e rfl _ rfl c he rfl
  exact ⟨e, he, rfl⟩

theorem execBsr_yields (target : U32) : Planned k (execBsr target : M σ Unit) fun _ =>
    { parts := [pushPart], sequential := false } := by
  refine (execBsr_jumps target).mono ?_
  rintro _ c d ⟨e, he, rfl⟩
  exact effect_push he (fun _ _ => he ▸ Confined.refl _ _) (fun _ _ => rfl) nofun rfl

theorem execBcc_planned (op : U16) : Planned k (execBcc op : M σ Unit) fun _ => branchPlan op := by
  have hdisp : Yields k (branchDisplacement op : M σ U32) fun _ c d =>
      d = resolveAll (if op &&& 0xFF = 0 then [immediate .word] else []) c := by
    unfold branchDisplacement
    split
    · refine .bind fetch_resolves fun w => .pure ?_
      rintro _ c ⟨-, rfl⟩
      rfl
    · exact .pure fun _ => rfl
  have hafter {c d e : Core} {p : Plan} (h : Effect p d e)
      (hd : d = resolveAll (if op &&& 0xFF = 0 then [immediate .word] else []) c) :
      Effect { p with
        parts := (if op &&& 0xFF = 0 then [immediate .word] else []) ++ p.parts } c e := by
    by_cases hword : op &&& 0xFF = 0
    · rw [if_pos hword] at hd ⊢
      subst hd
      exact h.after rfl
    · rw [if_neg hword] at hd ⊢
      subst hd
      exact h
  unfold branchPlan
  refine Yields.bind hdisp fun disp => .look fun pc => .ite (fun hsub => ?_) fun hsub => ?_
  · rw [if_pos hsub]
    refine (execBsr_yields _).mono ?_
    rintro _ d e h c hd
    exact hafter h hd
  · rw [if_neg hsub]
    refine .look fun sr => Yields.mono (S := fun _ c d => ∃ pc, d = { c with pc := pc })
      (.ite (fun _ => takeBranch_movesPc _) fun _ => movesPc_pure _) ?_
    rintro _ d e h c hd
    exact hafter (p := ⟨[], some .long, [], false⟩) (Effect.of_movesPc h) hd

/-- DBcc. -/
def dbccPlan : Plan := { parts := [immediate .word], size := some .word, sequential := false }

/-- The counter is a word. -/
theorem dbccCounter_confined (d : Fin 8 → U32) (r : Fin 8) (v : U16) :
    Confined .word d (Function.update d r ((d r &&& 0xFFFF0000) ||| v.setWidth 32)) :=
  .masked d r upper_word (setWidth_toNat_lt v)

/-- A loop that goes on writes the counter and jumps. -/
theorem dbccLoop_jumps (reg : Fin 8) (counter target : U32) :
    Yields k (dbccLoop reg counter target : M σ Unit) fun _ c d =>
      d = { c with dRegs := Function.update c.dRegs reg counter, pc := target } := by
  refine .ite (fun _ => .skip (fun _ => rfl) (fun _ => rfl) <| .look fun _ => .of_throws
    (raiseOddTargetFault_throws _ _)) fun _ => .bind (isUnmappedTarget_yields _) fun _ =>
      .ite (fun _ => .skip (fun _ => rfl) (fun _ => rfl) <| .look fun _ => .of_throws
        (raiseBusTargetFault_throws _ _)) fun _ => .assignD <| .skip (fun _ => rfl)
          (fun _ => rfl) <| (setPc_yields _).mono ?_
  rintro _ d e rfl c rfl _ rfl
  rfl

theorem execDbcc_planned (op : U16) : Planned k (execDbcc op : M σ Unit) fun _ => dbccPlan := by
  have hafter {c d e : Core} (hdata : Confined .word d.dRegs e.dRegs)
      (h : e.aRegs = d.aRegs ∧ e.traffic = d.traffic) (hd : d = (immediate .word).resolve c) :
      Effect dbccPlan c e := by
    subst hd
    exact Effect.of_resolved rfl (by rintro _ ⟨⟩; exact hdata) (fun q _ => congrFun h.1 q) nofun h.2
  refine Yields.bind fetch_resolves fun disp => .look fun sr => .ite (fun _ => .charge ?_)
    fun _ => .getD fun old => .ite (fun _ => .look fun pc => ?_) fun _ => .assignD <| .charge ?_
  · rintro d c ⟨-, hd⟩
    exact hafter (Confined.refl _ _) ⟨rfl, rfl⟩ hd
  · refine (dbccLoop_jumps _ _ _).mono ?_
    rintro _ d e rfl rfl c ⟨-, hd⟩
    exact hafter (dbccCounter_confined _ _ _) ⟨rfl, rfl⟩ hd
  · rintro e d rfl rfl c ⟨-, hd⟩
    exact hafter (dbccCounter_confined _ _ _) ⟨rfl, rfl⟩ hd

/-- Scc. -/
def sccPlan (op : U16) : Plan :=
  { parts := [(eaField op .byte, .write .byte)], size := some .byte }

theorem execScc_planned (op : U16) : Planned k (execScc op : M σ Unit) fun _ => sccPlan op := by
  refine .ite (fun _ => .exception (by decide)) fun hal => ?_
  have hput := alterable_cases (Bool.eq_false_iff.mpr hal) .byte
  refine Yields.look fun sr => .bind (calcEaAddr_yields _ _ .byte) fun ea =>
    .ite (fun hdata => .getD fun old => .assignD <| .charge ?_) fun hdata =>
      .bind (write8_yields _ _) fun _ => .charge ?_
  · rintro e d rfl rfl c h
    exact effect_putBack h hput (h.resolved rfl) rfl upper_byte
      (.of_register hdata (setWidth_toNat_lt _) rfl ⟨rfl, rfl, rfl⟩)
  · rintro _ d rfl c h
    exact effect_putBack h hput (h.resolved rfl) rfl upper_byte
      (.of_memory hdata rfl ⟨rfl, rfl, rfl⟩)

/-! ## Jumps and returns -/

/-- JMP and JSR. -/
def jmpPlan (op : U16) : Plan where
  parts := (eaField op .long, {}) :: if !op.getLsbD 6 then [pushPart] else []
  sequential := false

theorem jumpSubroutine_planned (target : U32) :
    Planned k (jumpSubroutine target : M σ Unit) fun _ =>
      { parts := [pushPart], sequential := false } := by
  refine .ite (fun _ => Yields.look fun _ => .of_throws (raiseOddTargetFault_throws _ _)) fun _ =>
    Yields.bind (isUnmappedTarget_yields target) fun _ => .ite (fun _ => .look fun _ => .of_throws
      (raiseBusTargetFault_throws _ _)) fun _ => .look fun pc => .bind (push32_yields pc) fun _ =>
        (setPc_yields target).mono ?_
  rintro _ d e rfl c hd _ rfl
  exact effect_push hd (fun _ _ => hd ▸ Confined.refl _ _) (fun _ _ => rfl) nofun rfl

theorem jump_movesPc (target : U32) : MovesPc k (jump target : M σ Unit) := by
  refine .bind (isUnmappedTarget_yields target) fun unmapped => Yields.mono
    (S := fun _ c d => ∃ pc, d = { c with pc := pc }) ?_ (by rintro _ c d h _ rfl; exact h)
  exact .ite (fun _ => .look fun _ => .of_throws (raiseBusTargetFault_throws _ _)) fun _ =>
    (setPc_yields target).mono fun _ _ _ h => ⟨target, h⟩

theorem execJmp_planned (op : U16) : Planned k (execJmp op : M σ Unit) fun _ => jmpPlan op := by
  unfold jmpPlan
  refine Yields.bind (calcEaCtl_yields _ _ true) fun ea => .ite (fun hsub => ?_) fun hsub => ?_
  · rw [if_pos hsub]
    refine (jumpSubroutine_planned _).mono ?_
    rintro _ d e h c ⟨-, hea⟩
    exact (hea.resolved (u := {}) rfl ▸ h).after rfl
  · rw [if_neg hsub]
    refine (jump_movesPc _).mono ?_
    rintro _ d e h c ⟨-, hea⟩
    have heffect : Effect ⟨[], some .long, [], false⟩ d e := Effect.of_movesPc h
    exact (hea.resolved (u := {}) rfl ▸ heffect).after rfl

/-- RTS. -/
def rtsPlan : Plan := { parts := [popPart .long], sequential := false }

theorem execRts_planned (op : U16) : Planned k (execRts op : M σ Unit) fun _ => rtsPlan := by
  refine Yields.bind pop32_resolves fun pc => (setPc_yields pc).mono ?_
  rintro _ d e rfl c rfl
  exact Effect.of_resolved rfl (fun _ _ => Confined.refl _ _) (fun _ _ => rfl) nofun rfl

/-- RTR. -/
def rtrPlan : Plan := { parts := [popPart .word, popPart .long], sequential := false }

theorem execRtr_planned (op : U16) : Planned k (execRtr op : M σ Unit) fun _ => rtrPlan := by
  refine Yields.bind pop16_resolves fun ccr => .bind pop32_resolves fun pc => .assignSr <|
    (setPc_yields pc).mono ?_
  rintro _ e f rfl d rfl c rfl b rfl
  refine Effect.after (p := ⟨[popPart .long], some .long, [], false⟩) rfl ?_
  exact Effect.of_resolved rfl (fun _ _ => Confined.refl _ _) (fun _ _ => rfl) nofun rfl

/-- RTD. -/
def rtdPlan : Plan :=
  { parts := [popPart .long, immediate .word], written := [7], sequential := false }

theorem execRtd_planned (op : U16) : Planned k (execRtd op : M σ Unit) fun _ => rtdPlan := by
  refine Yields.bind pop32_resolves fun pc => .bind fetch_resolves fun disp => .look fun a =>
    .assignA <| (setPc_yields pc).mono ?_
  rintro _ e f rfl d rfl c ⟨-, rfl⟩ b rfl
  refine Effect.after (p := ⟨[immediate .word], some .long, [7], false⟩) rfl ?_
  refine Effect.of_resolved rfl (fun _ _ => Confined.refl _ _) (fun q hq => ?_) nofun rfl
  exact Function.update_of_ne (fun hr => hq (List.mem_singleton.mpr hr)) _ _

/-- RTE: the 68010 reads the format word first and moves the stack pointer at the end. -/
def rtePlan (c : Core) : Plan :=
  if c.model.is68010 then
    { parts := [(⟨2, 7, .word⟩, { reads := [(.word, 6), (.word, 0), (.long, 2)] })],
      written := [7], sequential := false }
  else { parts := [popPart .word, popPart .long], written := [7], sequential := false }

theorem rte68010_yields : Yields k (rte68010 : M σ Unit) fun _ c d =>
    Effect ⟨[(⟨2, 7, .word⟩, { reads := [(.word, 6), (.word, 0), (.long, 2)] })], some .long, [7],
      false⟩ c d := by
  refine .getA fun sp => .bind (read16_yields _) fun fmt => .ite (fun _ => .of_throws <|
    .modify <| exception_throws (by decide)) fun _ => .bind (read16_yields _) fun sr =>
      .bind (read32_yields _) fun pc => .assignA <| .bind (setSr_yields _) fun _ =>
        (setPc_yields pc).mono ?_
  rintro _ g h rfl f rfl e rfl d ⟨-, rfl⟩ c ⟨-, rfl⟩ b ⟨-, rfl⟩ rfl
  have hzero (a : U32) : a + 0 = a := BitVec.add_zero a
  refine ⟨fun _ _ => Confined.refl _ _, fun q hq => ?_, nofun, ?_⟩
  · have hne : q ≠ 7 := fun hr => hq (List.mem_singleton.mpr hr)
    exact (Core.loadSr_aRegs _ _ hne).trans (Function.update_of_ne hne _ _)
  · simp [storesOf, resolveAll, Part.resolve, Part.stores, Operand.next, Operand.inMemory,
      Operand.address, accessesAt, Core.loadSr, Core.seen]

theorem rte68000_yields : Yields k (rte68000 : M σ Unit) fun _ c d =>
    Effect ⟨[popPart .word, popPart .long], some .long, [7], false⟩ c d := by
  refine .bind pop16_resolves fun sr => .bind pop32_resolves fun pc => .bind (setSr_yields _)
    fun _ => (setPc_yields pc).mono ?_
  rintro _ e f rfl d rfl c rfl b rfl
  refine Effect.after (p := ⟨[popPart .long], some .long, [7], false⟩) rfl ?_
  refine Effect.of_resolved rfl (fun _ _ => Confined.refl _ _) (fun q hq => ?_) nofun rfl
  exact Core.loadSr_aRegs _ _ fun hr => hq (List.mem_singleton.mpr hr)

theorem execRte_planned (op : U16) : Planned k (execRte op : M σ Unit) rtePlan := by
  refine .privileged (Yields.gets (p := Core.model) (fun _ => rfl) fun m => .ite (fun hm => ?_)
    fun hm => ?_)
  · refine rte68010_yields.mono ?_
    rintro _ c d h rfl
    rwa [rtePlan, if_pos hm]
  · refine rte68000_yields.mono ?_
    rintro _ c d h rfl
    rwa [rtePlan, if_neg hm]

/-! ## Traps and privileged instructions -/

theorem execTrap_planned (op : U16) {p : Core → Plan} : Planned k (execTrap op : M σ Unit) p :=
  .exception (by omega)

theorem execTrapv_planned (op : U16) :
    Planned k (execTrapv op : M σ Unit) fun _ => { parts := [] } :=
  Yields.look fun _ => Planned.ite (fun _ => .exception (by decide)) fun _ => planned_nothing

theorem execBkpt_planned (op : U16) {p : Core → Plan} : Planned k (execBkpt op : M σ Unit) p :=
  .exception (by decide)

/-- CHK. -/
def chkPlan (op : U16) : Plan :=
  { parts := [(eaField op .word, .read .word)], size := some .word }

theorem execChk_planned (op : U16) : Planned k (execChk op : M σ Unit) fun _ => chkPlan op := by
  refine .ite (fun _ => .exception (by decide)) fun _ => ?_
  refine Yields.bind (calcEa_yields _ _ .word) fun ea => .look fun src => .assignSr <|
    .ite (fun _ => .pure ?_) fun _ => .of_throws <| .modify <| exception_throws (by decide)
  rintro d e rfl c h
  exact effect_read h (Confined.refl _ _) ⟨rfl, rfl, rfl⟩

/-- STOP: the load of SR may exchange the stack pointers. -/
def stopPlan : Plan := { parts := [immediate .word], written := [7] }

theorem execStop_planned (op : U16) : Planned k (execStop op : M σ Unit) fun _ => stopPlan := by
  refine .privileged (Yields.bind fetch_resolves fun imm => .bind (setSr_yields imm) fun _ =>
    .modify (p := id) (fun _ => rfl) (fun _ => rfl) ?_)
  rintro _ d rfl c ⟨-, rfl⟩
  refine Effect.of_resolved (d := (immediate .word).resolve c) rfl (fun _ _ => Confined.refl _ _)
    (fun q hq => ?_) (fun _ => rfl) rfl
  exact Core.loadSr_aRegs _ _ fun hr => hq (List.mem_singleton.mpr hr)

theorem execReset_planned (op : U16) :
    Planned k (execReset op : M σ Unit) fun _ => { parts := [] } := by
  refine .privileged (resetHook_yields.mono ?_)
  rintro _ c d rfl
  exact Effect.of_nothing (fun _ _ => Confined.refl _ _) (fun _ _ => rfl) (fun _ => rfl) rfl

/-- MOVEC. -/
def movecPlan (op : U16) (c : Core) : Plan where
  parts := [immediate .word]
  written := if op &&& 1 = 0 ∧ c.word.getLsbD 15 then [field c.word 12] else []

theorem execMovec_planned (op : U16) : Planned k (execMovec op : M σ Unit) (movecPlan op) := by
  refine .privileged (Yields.bind fetch_resolves fun ext => ?_)
  have hafter {c d e : Core} (hd : ext = c.word ∧ d = (immediate .word).resolve c)
      (hdata : Confined .long d.dRegs e.dRegs) (h : e.pc = d.pc ∧ e.traffic = d.traffic)
      (haRegs : ∀ q, q ∉ (movecPlan op c).written → e.aRegs q = d.aRegs q) :
      Effect (movecPlan op c) c e :=
    Effect.of_resolved hd.2 (by rintro _ ⟨⟩; exact hdata) haRegs (fun _ => h.1) h.2
  cases hctrl : controlReg? ext with
  | none => exact .of_throws (exception_throws (by decide))
  | some r =>
    refine .ite (fun hto => ?_) fun hfrom => .look fun v => .ite (fun haddr => .setA ?_) fun _ =>
      .setD ?_
    -- only USP is part of what the plan bounds
    · have hwrite (v : U32) : Yields k (modify (writeControl r v) : M σ Unit) fun _ d e =>
          ∀ c, ext = c.word ∧ d = (immediate .word).resolve c → Effect (movecPlan op c) c e := by
        cases r with
        | usp =>
          refine .modify (p := fun c => { c with usp := v }) (fun _ => rfl) (fun _ => rfl) ?_
          exact fun d c hd => hafter hd (Confined.refl _ _) ⟨rfl, rfl⟩ fun _ _ => rfl
        | sfc | dfc | vbr =>
          refine .modify (p := id) (fun _ => rfl) (fun _ => rfl) ?_
          exact fun d c hd => hafter hd (Confined.refl _ _) ⟨rfl, rfl⟩ fun _ _ => rfl
      exact .ite (fun _ => .look fun v => hwrite v) fun _ => .look fun v => hwrite v
    · rintro d c hd
      refine hafter hd (Confined.refl _ _) ⟨rfl, rfl⟩ fun q hq => ?_
      have hplan : (movecPlan op c).written = [field ext 12] := by
        rw [hd.1] at haddr ⊢
        exact if_pos ⟨by simpa using hfrom, haddr⟩
      rw [hplan] at hq
      exact Function.update_of_ne (fun hr => hq (List.mem_singleton.mpr hr)) _ _
    · rintro d c hd
      exact hafter hd (Confined.update_long _ _ _) ⟨rfl, rfl⟩ fun _ _ => rfl

end M68k
