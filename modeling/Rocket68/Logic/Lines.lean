import Rocket68.Logic.Settle
import Rocket68.Logic.Decode

/-!
# Every opcode line settles

Line by line, in the order of the decoder: what the decoder returns as the cost of an
instruction and what its handler has charged come to 4 cycles or more.
-/

namespace M68k

open Trap TrapM

variable {σ α β : Type} {h : Host σ} {opcode : U16}

/-- What the decoder looks up beforehand leaves the account alone. -/
theorem Settles.after {m : M σ α} {f : α → M σ Int} {P : α → Prop}
    (hm : ∀ s, wp m h (fun a t => ledger t = ledger s ∧ P a) (fun _ => False) s)
    (hf : ∀ a, P a → Settles h (f a)) : Settles h (m >>= f) := fun s hs => by
  refine wp_bind.mpr (wp_mono (hm s) ?_ fun _ => False.elim)
  rintro a t ⟨ht, ha⟩
  have hcycles : t.cyclesRemaining = s.cyclesRemaining := congrArg Ledger.cyclesRemaining ht
  have htarget : t.targetCycles = s.targetCycles := congrArg Ledger.targetCycles ht
  have htrap : t.faultTrapActive = s.faultTrapActive := congrArg Ledger.faultTrapActive ht
  have hthrown : t.exceptionThrown = s.exceptionThrown := congrArg Ledger.exceptionThrown ht
  have key := hf a ha t (hthrown.trans hs)
  rw [← hcycles, ← htarget, ← htrap]
  refine wp_mono key (fun _ _ hu => hu) fun u hu => ?_
  exact ⟨htrap ▸ hu.armed, hu.target.trans htarget, hcycles ▸ hu.cost⟩

theorem Settles.pure {c : Int} (hc : 4 ≤ c) : Settles h (Pure.pure c : M σ Int) := fun s hs => by
  refine ⟨rfl, rfl, ?_⟩
  rw [hs]
  exact Int.add_le_add_left hc _

/-- Either nothing has been thrown when `m` returns, or 4 cycles have been charged. -/
def Clears (h : Host σ) (m : M σ α) : Prop :=
  ∀ s, s.exceptionThrown = 0 →
    wp m h (fun _ t => Spent 2 0 s t ∧
      (t.exceptionThrown = 0 ∨ t.cyclesRemaining + 4 ≤ s.cyclesRemaining))
      (fun t => Unwound 8 s t) s

/-- After an operand that may have thrown, what pays still pays. -/
theorem Clears.pays {m : M σ α} {f : α → M σ β} (hm : Clears h m)
    (hspends : ∀ a, Spends h 2 0 8 (f a)) (hpays : ∀ a, Pays h (f a)) : Pays h (m >>= f) :=
    fun s hs => by
  refine wp_bind.mpr (wp_mono (hm s hs) ?_ fun _ ht => ht)
  rintro a t ⟨hst, hthrown | hpaid⟩
  · refine wp_mono (hpays a t hthrown) ?_ fun _ hu => Unwound.after (n := 0) hu hst
    rintro b u ⟨htu, hpaid⟩
    have hcost := hst.cost
    exact ⟨hst.trans htu, hpaid.imp_left fun hpaid => by omega⟩
  · refine wp_mono (hspends a t (clearGuards_le t)) (fun _ u hu => ⟨hst.trans hu, .inl ?_⟩)
      fun _ hu => Unwound.after (n := 0) hu hst
    have hcost := hu.cost
    omega

/-- Two parts, one of which may take back what the other charges. -/
theorem Spends.total {l m n k : Int} {c : M σ α} {f : α → M σ β} (hc : Spends h 2 n k c)
    (hf : ∀ a, Spends h 2 m (k + n) (f a)) (hl : l ≤ n + m) : Spends h 2 l k (c >>= f) :=
  (hc.bind hf).mono hl (Int.le_refl k)

theorem Pays.get {f : M68kCpu σ → α} {g : α → M σ β} (hg : ∀ a, Pays h (g a)) :
    Pays h (gets f >>= g) := fun s hs => hg (f s) s hs

section Lines

variable (hh : Honest h)
include hh

/-- Instructions whose operands are not PC-relative run under the grade of opcode 0. -/
theorem settles_direct {p q : Phase} {body : M σ Unit} {c : Int}
    (hm : Micro (Grade.plain 0) p q body) (hc : 4 ≤ c) : Settles h (costed body c) :=
  settles_plain hh hm hc

theorem settles_direct68010 {p q : Phase} {body : M σ Unit} {c : Int}
    (hm : Micro (Grade.plain 0) p q body) (hc : 4 ≤ c) : Settles h (only68010 body c) :=
  .get fun _ => .ite (fun _ => settles_illegal hh) fun _ => settles_plain hh hm hc

omit hh in
theorem reading_plain : Reading (Grade.plain 0) := ⟨rfl⟩

theorem peekWord_ledger (address : U32) (s : M68kCpu σ) :
    wp (peekWord address) h (fun _ t => ledger t = ledger s ∧ True) (fun _ => False) s := by
  refine wp_bind.mpr (wp_env.mpr ?_)
  split
  · next cb hcb => exact ⟨hh.read16Cb cb hcb _ s, trivial⟩
  · exact wp_bind.mpr (wp_ite (fun _ => ⟨rfl, trivial⟩) fun _ => ⟨rfl, trivial⟩)

/-! ## Line 0 -/

theorem execBit_spends : Spends h 2 0 8 (execBit opcode) :=
  spends_plain hh (Micro.execBit (g := Grade.plain opcode) operand_plain fun _ => rfl) (by decide)

omit hh in
theorem bitCycles_ge {x y z : Int} (hx : 4 ≤ x) (hy : 4 ≤ y) (hz : 4 ≤ z) : 4 ≤
    match sizeBits opcode with
    | 0 => x
    | 2 => y
    | _ => z := by
  split
  · exact hx
  · exact hy
  · exact hz

theorem staticBit_settles : Settles h (staticBit opcode) := by
  have hcosted {hi : Int} (hhi : 0 ≤ hi) : Settles h (costed (execBit opcode) <|
      match sizeBits opcode with
      | 0 => if opcode &&& 0x38 == 0 then 10 else 8
      | 2 => if opcode &&& 0x38 == 0 then 12 + 2 * hi else 12
      | _ => if opcode &&& 0x38 == 0 then 10 + 2 * hi else 12) :=
    .costed (bitCycles_ge (le_ite (by decide) (by decide)) (le_ite (by omega) (by decide))
      (le_ite (by omega) (by decide))) (execBit_spends hh)
  refine .ite (fun _ => .get fun pc => .after (peekWord_ledger hh pc) fun w _ => ?_) fun _ =>
    hcosted (Int.le_refl 0)
  exact hcosted (le_ite (n := 0) (by decide) (by decide))

theorem dynamicBit_settles : Settles h (dynamicBit opcode) := by
  refine .get fun d => .costed ?_ (execBit_spends hh)
  have hhi : (0 : Int) ≤ if d &&& 31 ≥ 16 then 1 else 0 := le_ite (by decide) (by decide)
  exact bitCycles_ge (le_ite (by decide) (le_ite (by decide) (by decide)))
    (le_ite (by omega) (by decide)) (le_ite (by omega) (by decide))

theorem line0_settles : Settles h (line0 opcode) := by
  have hlogic (c : U16) : 4 ≤ if opcode &&& 0xFFBF = c then 20 else immAluCycles opcode :=
    le_ite (by decide) (immAluCycles_ge opcode)
  have hsub : Micro (σ := σ) (Grade.plain opcode) .decode .finished (execSubi opcode) :=
    .execImmediate _ operand_plain (fun s d r size sr => .flagsSub s d r size sr) fun _ => rfl
  have hadd : Micro (σ := σ) (Grade.plain opcode) .decode .finished (execAddi opcode) :=
    .execImmediate _ operand_plain (fun s d r size sr => .flagsAdd s d r size sr) fun _ => rfl
  have := reading_plain
  refine .ite (fun _ => settles_illegal hh) fun _ => .ite (fun _ => .get fun _ =>
    .ite (fun _ => settles_illegal hh) fun _ =>
      settles_plain hh (.execMoves _ operand_plain rfl) (by decide))
      fun _ => ?_
  refine .ite (fun _ => settles_plain hh (.execOri _ operand_plain fun _ _ _ => rfl)
    (hlogic _)) fun _ =>
    .ite (fun _ => settles_plain hh (.execAndi _ operand_plain fun _ _ _ => rfl)
      (hlogic _)) fun _ =>
    .ite (fun _ => settles_plain hh hsub (immAluCycles_ge _)) fun _ =>
    .ite (fun _ => settles_plain hh hadd (immAluCycles_ge _)) fun _ =>
    .ite (fun _ => settles_plain hh (.execEori _ operand_plain fun _ _ _ => rfl)
      (hlogic _)) fun _ =>
    .ite (fun _ => settles_plain hh (.execCmpi _ operand_plain fun _ => rfl)
      (le_ite (by decide) (by decide))) fun _ => ?_
  exact .ite (fun _ => staticBit_settles hh) fun _ =>
    .ite (fun _ => settles_direct hh (.execMovep _) (le_ite (by decide) (by decide))) fun _ =>
      dynamicBit_settles hh

/-! ## Operands -/

omit hh in
/-- Resolution in memory costs 4 cycles at least. -/
theorem eaCycles_ge (mode reg : Fin 8) (size : M68kSize) (hmode : 1 < mode)
    (hlegal : mode = 7 → reg ≤ 4) : 4 ≤ eaCycles mode reg size := by
  revert mode reg
  cases size <;> decide

omit hh in
theorem controlEaCycles_ge (mode reg : Fin 8) (isJmp : Bool)
    (hlegal : ¬notControl mode reg = true) :
    4 ≤ controlEaCycles mode reg isJmp := by
  revert mode reg
  cases isJmp <;> decide

theorem calcEaCtl_pays (mode reg : Fin 8) (isJmp : Bool) : Pays h (calcEaCtl mode reg isJmp) := by
  refine .ite (fun _ => (pays_illegalEa hh).andThen fun _ => .pure _) fun hlegal => ?_
  have hea : Micro (σ := σ) (Grade.plain 0) .decode .operand (calcEaEx mode reg .long false) :=
    .calcEaEx before _ _ _ nofun (fun _ => writes_plain _) fun _ _ => ⟨rfl, rfl⟩
  refine Pays.of_spends (controlEaCycles_ge mode reg isJmp hlegal) ?_
  exact .andThen (.charge _) fun _ => spends_plain hh hea (by
    have hpos := controlEaCycles_ge mode reg isJmp hlegal
    omega)

theorem calcEa_spends (size : M68kSize) :
    Spends h 2 0 8 (calcEa (field opcode 3) (field opcode 0) size) :=
  spends_plain hh (Micro.calcEa (g := Grade.plain opcode) (p := .decode) before _ _ _ operand_plain
    fun _ _ => ⟨rfl, rfl⟩) (by decide)

/-! ## MOVE -/

omit hh in
theorem moveRefund_bounds (destMode destReg : Fin 8) (regImm : Bool) (size : M68kSize) :
    0 ≤ moveRefund destMode destReg regImm size ∧ moveRefund destMode destReg regImm size ≤ 8 := by
  unfold moveRefund
  constructor
  · split <;> split <;> (try split) <;> decide
  · split <;> split <;> (try split) <;> decide

/-- The refund of MOVE is taken back once its write has succeeded. -/
theorem moveStore_spends (destMode destReg : Fin 8) (size : M68kSize) (dest : MoveDest)
    (value pcAfterSrc : U32) {refund : Int} (hmin : 0 ≤ refund) (hmax : refund ≤ 8) :
    Spends h 2 0 8 (do
      charge (-refund)
      if destMode = 4 ∧ size = .long then do
        write16 (dest.ea.address + 2) (value.setWidth 16)
        write16 dest.ea.address ((value >>> 16).setWidth 16)
        charge refund
        commitMove destReg dest.commit
        setCcr (moveFlags size value)
      else do
        if destMode = 4 then do
          charge 2
          if isOdd dest.ea.address then
            latchBusWord (← peekWord pcAfterSrc)
        writeSize dest.ea.address value size
        charge refund
        dropBusWord
        commitMove destReg dest.commit
        if size = .long then
          setCcr (moveFlags size value)) := by
  have hk : 0 ≤ 8 + -refund := by omega
  have hflags : Micro (σ := σ) (Grade.plain 0) .commit .commit (setCcr (moveFlags size value)) :=
    .setCcr before (lowBits_moveFlags _ _)
  have hcommit : Micro (σ := σ) (Grade.plain 0) .commit .commit (commitMove destReg dest.commit) :=
    .commitMove fun _ => writes_plain _
  have hwrite (address : U32) (v : U16) : Spends h 2 0 (8 + -refund) (write16 address v) :=
    (Op.spends (g := Grade.plain 0) hh hk (.write16 (p := .commit) before address v) rfl rfl)
  have hsized : Spends h 2 0 (8 + -refund) (writeSize dest.ea.address value size) :=
    spends_plain hh (Micro.writeSize (g := Grade.plain 0) (p := .commit) before _ _ _) hk
  have hstore : Spends h 2 refund (8 + -refund) (do
      writeSize dest.ea.address value size
      charge refund
      dropBusWord
      commitMove destReg dest.commit
      if size = .long then
        setCcr (moveFlags size value)) := by
    refine .seq hsized fun _ => .andThen (.charge refund) fun _ =>
      .seq (.modify fun _ => rfl) fun _ =>
      spends_plain hh (.seq hcommit fun _ => .ite (fun _ => hflags) fun _ => .pure _) (by omega)
  refine .total (m := refund) (.charge (-refund)) (fun _ => ?_) (by omega)
  refine .ite (fun _ => .seq (hwrite _ _) fun _ => .seq (hwrite _ _) fun _ =>
    .andThen (.charge refund) fun _ => spends_plain hh (.seq hcommit fun _ => hflags) (by omega))
      fun _ => .ite (fun _ => .seq ((Spends.charge 2).mono (by decide) (Int.le_refl _)) fun _ => ?_)
        fun _ => hstore
  exact .ite (fun _ => .seq (peekWord_spends hh _) fun _ => .seq (.modify fun _ => rfl) fun _ =>
    hstore) fun _ => hstore

theorem moveToMemory_spends (destMode destReg srcMode srcReg : Fin 8) (size : M68kSize)
    (dest : MoveDest) (value pcAfterSrc : U32) :
    Spends h 2 0 8 (moveToMemory destMode destReg srcMode srcReg size dest value pcAfterSrc) := by
  obtain ⟨hmin, hmax⟩ := moveRefund_bounds destMode destReg (srcRegImm srcMode srcReg) size
  exact .seq (.modify fun _ => rfl) fun _ => .ite
    (fun _ => .seq (.modify fun _ => rfl) fun _ => moveStore_spends hh _ _ _ _ _ _ hmin hmax)
    fun _ => .seq (.modify fun _ => rfl) fun _ => moveStore_spends hh _ _ _ _ _ _ hmin hmax

theorem moveDest_spends (mode reg : Fin 8) (size : M68kSize)
    (hlegal : ¬moveDestRejects mode reg size = true) : Spends h 2 0 8 (moveDest mode reg size) :=
  spends_plain hh (Micro.moveDest (g := Grade.plain 0) mode reg size hlegal fun _ =>
    writes_plain _) (by decide)

omit hh in
/-- The predecrement destination pays for the instruction. -/
theorem predecDest_spends (reg : Fin 8) (size : M68kSize) :
    Spends h 2 4 8 (moveDest 4 reg size) := by
  have hcost : 4 ≤ eaCycles 4 reg size :=
    eaCycles_ge 4 reg size (by decide) fun h7 => absurd h7 (by decide)
  refine .andThen ((Spends.charge (eaCycles 4 reg size)).mono hcost (Int.le_refl 8)) fun _ =>
    .seq (.gets _) fun _ => .ite (fun _ => .pure _) fun _ =>
      .seq (.modify fun _ => rfl) fun _ => .pure _

/-- What MOVE does once its destination is known. -/
theorem moveTo_spends (destMode destReg srcMode srcReg : Fin 8) (size : M68kSize) (dest : MoveDest)
    (value pcAfterSrc : U32) : Spends h 2 0 8 (
      if dest.ea.isData then do
        setDSized dest.ea.regNum size value
        setCcr (moveFlags size value)
      else if dest.ea.isReg then
        setA dest.ea.regNum (if size = .word then sext16 value else value)
      else
        moveToMemory destMode destReg srcMode srcReg size dest value pcAfterSrc) :=
  .ite (fun _ => .seq (.seq (.gets _) fun _ => .modify fun _ => rfl) fun _ => .modify fun _ => rfl)
    fun _ => .ite (fun _ => .modify fun _ => rfl) fun _ => moveToMemory_spends hh _ _ _ _ _ _ _ _

theorem execMove_spends : Spends h 2 0 8 (execMove opcode) := by
  unfold execMove
  cases moveSize? opcode with
  | none => exact .pure _
  | some size =>
    exact .ite (fun _ => exception_spends hh (by decide) (by decide)) fun hlegal =>
      .seq (calcEa_spends hh size) fun _ => .seq (.gets _) fun _ =>
        .seq (moveDest_spends hh _ _ _ hlegal) fun _ => moveTo_spends hh _ _ _ _ _ _ _ _

theorem execMove_pays {size : M68kSize} (hsize : moveSize? opcode = some size)
    (hmode : field opcode 6 = 4) : Pays h (execMove opcode) := by
  unfold execMove
  simp only [hsize, hmode]
  refine .ite (fun _ => pays_exception hh (.inl rfl)) fun _ => .of_spends (Int.le_refl 4) ?_
  exact .seq (calcEa_spends hh size) fun _ => .seq (.gets _) fun _ =>
    .andThen (predecDest_spends _ _) fun _ => (moveTo_spends hh _ _ _ _ _ _ _ _).mono
      (Int.le_refl 0) (by decide)

theorem lineMove_settles (hline : (lineOf opcode : Nat) = 1 ∨ (lineOf opcode : Nat) = 2 ∨
    (lineOf opcode : Nat) = 3) : Settles h (lineMove opcode) := by
  unfold lineMove
  by_cases hmode : field opcode 6 = 4
  · obtain ⟨size, hsize⟩ : ∃ size, moveSize? opcode = some size := by
      rw [moveSize?_line]
      rcases hline with hline | hline | hline <;> rw [hline] <;> exact ⟨_, rfl⟩
    rw [if_pos hmode]
    exact .paid (le_ite (by decide) (by decide)) (execMove_pays hh hsize hmode)
  · rw [if_neg hmode]
    exact .costed (Int.le_refl 4) (execMove_spends hh)

/-! ## Line 4 -/

omit hh in
theorem movemEaCycles_ge (memToReg : Bool) (mode reg : Fin 8)
    (hlegal : ¬movemRejects memToReg mode reg = true) :
    (if memToReg then 8 else 4) ≤ movemEaCycles mode reg memToReg := by
  revert mode reg
  cases memToReg <;> decide

/-- MOVEM pays for its effective address, whatever it transfers. -/
theorem execMovem_pays : Pays h (execMovem opcode) := by
  have hreading := reading_plain
  refine .ite (fun _ => pays_exception hh (.inl rfl)) fun hlegal => .of_spends (Int.le_refl 4) ?_
  have hcost := movemEaCycles_ge _ _ _ hlegal
  have hfetch : Micro (σ := σ) (Grade.plain 0) .decode .decode fetch := .op (.fetch before)
  refine .seq (spends_plain hh hfetch (by decide)) fun mask => .seq (spends_plain hh
    (Micro.movemAddress (g := Grade.plain 0) _ _ _ _ hlegal) (by decide)) fun addr => ?_
  have hload {k : Int} (hk : 0 ≤ k) (size : M68kSize) : Spends h 2 0 k
      (movemLoad mask size (List.finRange 16) addr) :=
    spends_plain hh (Micro.movemLoad (g := Grade.plain 0)
      (p := .decode) rfl writes_plain _ _ _ before _) hk
  have hloaded {k : Int} (hk : 0 ≤ k) (next : U32) : Spends h 2 0 k (do
      charge 4
      if field opcode 3 = 3 then setA (field opcode 0) next) :=
    .seq ((Spends.charge 4).mono (by decide) (Int.le_refl _)) fun _ =>
      .ite (fun _ => .modify fun _ => rfl) fun _ => .pure _
  by_cases hdir : (opcode &&& 0x0400 != 0) = true
  · simp only [hdir, if_true] at hcost ⊢
    refine .total (m := -4) (.charge _) (fun _ => ?_) (by omega)
    refine .andThen (.charge (-4)) fun _ => .seq (.gets _) fun _ =>
      .seq (.modify fun _ => rfl) fun _ => .ite (fun _ => .seq (.modify fun _ => rfl) fun _ => ?_)
        fun _ => ?_
    · exact .seq (hload (by omega) _) fun next => .seq (.modify fun _ => rfl) fun _ =>
        hloaded (by omega) next
    · exact .seq (hload (by omega) _) fun next => .seq (.modify fun _ => rfl) fun _ =>
        hloaded (by omega) next
  · simp only [hdir, Bool.false_eq_true, if_false] at hcost ⊢
    refine .total (m := 0) (.charge _) (fun _ => ?_) (by omega)
    refine .seq (.gets _) fun _ => .seq (.modify fun _ => rfl) fun _ =>
      .ite (fun _ => .seq (.gets _) fun _ => ?_) fun _ => ?_
    · exact .seq (spends_plain hh (Micro.movemStorePredec (g := Grade.plain 0)
        (p := .decode) _ _ _ _
        _ before _) (by omega)) fun _ => .modify fun _ => rfl
    · exact spends_plain hh (Micro.movemStore (g := Grade.plain 0) (p := .decode) _ _ _ before _)
        (by omega)

/-- The handlers that trap. -/
theorem execRte_spends : Spends h 2 0 8 (execRte opcode) := by
  have hreading := reading_plain
  have hread (a : U32) : Spends h 2 0 8 (read16 a) :=
    Op.spends (g := Grade.plain 0) hh (by decide) (.read16 (p := .decode) (.inl before) a) rfl rfl
  refine privileged_spends hh (by decide) (.seq (.gets _) fun _ => .ite (fun _ => ?_) fun _ =>
    spends_plain hh (Micro.rte68000 (g := Grade.plain 0) rfl) (by decide))
  refine .seq (.gets _) fun _ => .seq (hread _) fun _ => .ite (fun _ => ?_) fun _ => ?_
  · exact .seq (.modify fun _ => rfl) fun _ => exception_spends hh (by decide) (by decide)
  · refine .seq (hread _) fun _ => .seq (Op.spends (g := Grade.plain 0) hh (by decide)
      (.read32 (p := .decode) (.inl before) _) rfl rfl) fun _ => ?_
    exact .seq (.modify fun _ => rfl) fun _ => .seq (.modify (ledger_withSr _)) fun _ =>
      setPc_spends hh _

theorem execTrapv_spends : Spends h 2 0 8 (execTrapv opcode) :=
  .seq (.gets _) fun _ => .ite (fun _ => exception_spends hh (by decide) (by decide))
    fun _ => .pure _

theorem execTrap_spends : Spends h 2 0 8 (execTrap opcode) :=
    exception_spends hh (by decide) (by omega)

/-- An exception without a cost of its own, after a charge. -/
theorem chargedTrap_costs (v : Nat) {n : Int} (hn : 4 ≤ n) (s : M68kCpu σ) :
    wp (do charge n; exception v) h (fun _ t => t.targetCycles = s.targetCycles ∧
      t.faultTrapActive = s.faultTrapActive ∧ t.cyclesRemaining + 4 ≤ s.cyclesRemaining)
      (fun t => Unwound 8 s t) s := by
  have hcharged := Spent.charged (N := 2) n s
  refine wp_bind.mpr (wp_modify.mpr (wp_mono (exception_enters hh (k := 8) (by decide) v _)
    (fun _ t ht => ⟨ht.target, ht.trap, ?_⟩) fun t ht => (ht.mono (by omega)).after hcharged))
  have hcost : t.cyclesRemaining + 0 ≤ s.cyclesRemaining - n := ht.cost
  omega

/-- CHK charges its trap itself. -/
theorem execChk_settles : Settles h (costed (execChk opcode) 10) := fun s hs => by
  have hten : (4 : Int) ≤ 10 := by decide
  refine wp_bind.mpr (wp_ite (fun _ => ?_) fun _ => ?_)
  · exact wp_bind.mp (Settles.costed hten
      (exception_spends hh (v := 4) (by decide) (by decide)) s hs)
  refine wp_bind.mpr (wp_mono (calcEa_spends hh .word s (clearGuards_le s)) (fun ea t hst => ?_)
    fun _ ht => ht)
  refine wp_bind.mpr (wp_gets.mpr (wp_bind.mpr (wp_modify.mpr (wp_ite (fun _ => ?_) fun _ => ?_))))
  · have hcost := hst.cost
    have hfinal := exceptionCost_ge (hst.fresh hs) hten
    refine ⟨hst.target, hst.trap, ?_⟩
    show t.cyclesRemaining + 4 ≤ _ + exceptionCost t.exceptionThrown 10
    omega
  · have hcharge :
        4 ≤ chkTrapCost ((t.dRegs (field opcode 9)).setWidth 16) (ea.value.setWidth 16) :=
      Int.le_trans (by decide) (Micro.chkTrapCost_ge _ _)
    refine wp_mono (chargedTrap_costs hh 6 hcharge _) (fun _ u hu => ?_)
      fun u hu => ?_
    · obtain ⟨htarget, htrap, hpaid⟩ := hu
      have hcost := hst.cost
      have hfinal := exceptionCost_nonneg u.exceptionThrown (c := 10) (by decide)
      have hpaid : u.cyclesRemaining + 4 ≤ t.cyclesRemaining := hpaid
      exact ⟨htarget.trans hst.target, htrap.trans hst.trap, by omega⟩
    · have hu' : Unwound (8 + 0) t u := ⟨hu.armed, hu.target, hu.cost⟩
      exact hu'.after hst

/-! ## Multiplication and division -/

omit hh in
theorem not_notData {mode reg : Fin 8} (h : ¬notData mode reg = true) :
    mode = 0 ∨ (1 < mode ∧ (mode = 7 → reg ≤ 4)) := by
  revert mode reg
  decide

/-- A data operand in a register costs nothing and throws nothing. -/
theorem calcEa_clears (hdata : ¬notData (field opcode 3) (field opcode 0) = true) :
    Clears h (calcEa (field opcode 3) (field opcode 0) .word) := fun s hs => by
  rcases not_notData hdata with hmode | ⟨hmode, hlegal⟩
  · rw [hmode]
    have hfree : Spent 2 0 s { s with cyclesRemaining := s.cyclesRemaining - 0 - 0 } :=
      (Spent.charged 0 s).trans (Spent.charged 0 _)
    obtain ⟨ea, hrun⟩ : ∃ ea, calcEa 0 (field opcode 0) .word h s =
      .ok ea { s with cyclesRemaining := s.cyclesRemaining - 0 - 0 } := ⟨_, rfl⟩
    exact (wp_of_ok hrun).mpr ⟨hfree, .inl hs⟩
  · have hcost := eaCycles_ge _ _ .word hmode hlegal
    have hea : Micro (σ := σ) (Grade.plain opcode) .decode .operand
        (calcEaEx (field opcode 3) (field opcode 0) .word true) :=
      .calcEaEx before _ _ _ (fun _ => rfl) (fun _ => writes_plain _) fun _ _ => ⟨rfl, rfl⟩
    have hspends : Spends h 2 4 8 (calcEa (field opcode 3) (field opcode 0) .word) :=
      .andThen ((Spends.charge _).mono hcost (Int.le_refl 8)) fun _ =>
        .seq (spends_plain hh hea (by decide)) fun _ =>
          .seq ((Spends.charge _).mono (Int.sub_self _).ge (Int.le_refl _)) fun _ => .pure _
    exact wp_mono (hspends s (clearGuards_le s)) (fun _ t ht => ⟨ht.mono (by decide), .inr ht.cost⟩)
      fun _ ht => ht

theorem execMul_pays : Pays h (execMul opcode) := by
  refine .ite (fun _ => pays_exception hh (.inl rfl)) fun _ => .of_spends (Int.le_refl 4) ?_
  refine .seq (calcEa_spends hh .word) fun _ => .seq (.gets _) fun _ => .andThen
    ((Spends.charge _).mono (Int.le_trans (by decide) (mulCycles_ge _ _))
      (Int.le_refl 8)) fun _ => ?_
  exact .seq (.modify fun _ => rfl) fun _ => .modify fun _ => rfl

theorem execDiv_pays : Pays h (execDiv opcode) := by
  refine .ite (fun _ => pays_exception hh (.inl rfl)) fun hdata => ?_
  have hcharge {n : Int} (hn : 4 ≤ n) : Spends h 2 4 8 (charge n : M σ Unit) :=
    (Spends.charge n).mono hn (Int.le_refl 8)
  have hover : Spends h 2 0 (8 + 4) (modifySr flagsDivOverflow) := .modify fun _ => rfl
  have hquotient (v quotient : U32) : Spends h 2 0 (8 + 4) (do
      setD (field opcode 9) v
      modifySr (flagsQuotient quotient)) := .seq (.modify fun _ => rfl) fun _ =>
        .modify fun _ => rfl
  have hsigned (dividend : U32) (divisor : U16) (q : Prop) [Decidable q] (v quotient : U32) :
      Spends h 2 4 8 (do
        charge (divsCycles dividend divisor)
        if q then modifySr flagsDivOverflow else do
          setD (field opcode 9) v
          modifySr (flagsQuotient quotient)) :=
    .andThen (hcharge (Int.le_trans (by decide) (divsCycles_ge _ _))) fun _ =>
      .ite (fun _ => hover) fun _ => hquotient _ _
  have hunsigned (dividend divisor : U32) (q : Prop) [Decidable q] (v quotient : U32) :
      Spends h 2 4 8 (do
        charge (divuCycles dividend divisor)
        if q then modifySr flagsDivOverflow else do
          setD (field opcode 9) v
          modifySr (flagsQuotient quotient)) :=
    .andThen (hcharge (Int.le_trans (by decide) (divuCycles_ge _ _))) fun _ =>
      .ite (fun _ => hover) fun _ => hquotient _ _
  refine Clears.pays (calcEa_clears hh hdata) (fun ea => ?_) fun ea => ?_
  · refine .seq (.gets _) fun _ =>
      .ite (fun _ => exception_spends hh (by decide) (by decide)) fun _ =>
      .ite (fun _ => ?_) fun _ => ?_
    · exact (hsigned _ _ _ _ _).mono (by decide) (Int.le_refl 8)
    · exact (hunsigned _ _ _ _ _).mono (by decide) (Int.le_refl 8)
  · refine .get fun _ => .ite (fun _ => pays_exception hh (.inr (.inl rfl))) fun _ =>
      .ite (fun _ => ?_) fun _ => ?_
    · exact .of_spends (Int.le_refl 4) (hsigned _ _ _ _ _)
    · exact .of_spends (Int.le_refl 4) (hunsigned _ _ _ _ _)

/-! ## Jumps and branches -/

theorem jump_spends (target : U32) {k : Int} (hk : 0 ≤ k) : Spends h 2 0 k (jump target) := by
  refine .seq (isUnmappedTarget_spends _) fun _ => .ite (fun _ => .seq (.gets _) fun _ => ?_)
    fun _ => setPc_spends hh _
  exact (raiseBusTargetFault_spends hh hk _ _).mono (by decide) (Int.le_refl k)

theorem push32_spends (v : U32) {k : Int} (hk : 0 ≤ k) : Spends h 2 0 k (push32 v) :=
  push32With_spends hh (exceptionAt_raises hh 3) (by decide) hk v

theorem jumpSubroutine_spends (target : U32) {k : Int} (hk : 0 ≤ k) :
    Spends h 2 0 k (jumpSubroutine target) := by
  refine .ite (fun _ => .seq (.gets _) fun _ => ?_) fun _ =>
    .seq (isUnmappedTarget_spends _) fun _ =>
    .ite (fun _ => .seq (.gets _) fun _ => ?_) fun _ => .seq (.gets _) fun _ =>
      .seq (push32_spends hh _ hk) fun _ => setPc_spends hh _
  · exact (raiseOddTargetFault_spends hh hk _ _).mono (by decide) (Int.le_refl k)
  · exact (raiseBusTargetFault_spends hh hk _ _).mono (by decide) (Int.le_refl k)

theorem execJmp_pays : Pays h (execJmp opcode) :=
  (calcEaCtl_pays hh _ _ true).andThen fun _ => .ite
    (fun _ => jumpSubroutine_spends hh _ (by decide)) fun _ => jump_spends hh _ (by decide)

theorem execLea_pays : Pays h (execLea opcode) :=
  (calcEaCtl_pays hh _ _ false).andThen fun _ => .modify fun _ => rfl

/-- A faulted JSR returns no cost of its own: it has paid for its address. -/
theorem lineJsr_settles : Settles h (lineJsr opcode) := fun s hs => by
  refine wp_bind.mpr (wp_mono (execJmp_pays hh s hs) ?_ fun _ ht => ht)
  rintro _ t ⟨hst, hpaid⟩
  have hfinal : ∀ thrown : Nat, (0 : Int) ≤ if thrown = 2 ∨ thrown = 3 then 0 else 8 :=
    fun _ => le_ite (by decide) (by decide)
  refine wp_bind.mpr (wp_gets.mpr ⟨hst.target, hst.trap, ?_⟩)
  rcases hpaid with hcost | hpriced
  · have hmin := exceptionCost_nonneg t.exceptionThrown (hfinal t.exceptionThrown)
    omega
  · have hcost := hst.cost
    have hmin := exceptionCost_priced hpriced (if t.exceptionThrown = 2 ∨ t.exceptionThrown = 3
      then 0 else 8)
    omega

theorem takeBranch_spends (target : U32) : Spends h 2 10 8 (takeBranch target) := by
  have hcharge (k : Int) : Spends h 2 10 k (charge 10 : M σ Unit) := .charge 10
  refine .seq (isUnmappedTarget_spends _) fun _ =>
    .ite (fun _ => .seq (.gets _) fun _ => ?_) fun _ => ?_
  · exact .seq ((raiseBusTargetFault_spends hh (by decide) _ _).mono (by decide) (Int.le_refl 8))
      fun _ => hcharge _
  · exact .seq (setPc_spends hh _) fun _ => hcharge _

theorem execBsr_spends (target : U32) : Spends h 2 18 8 (execBsr target) := by
  have hcharge (k : Int) : Spends h 2 18 k (charge 18 : M σ Unit) := .charge 18
  refine .seq (.gets _) fun _ => .seq (push32_spends hh _ (by decide)) fun _ => .ite (fun _ => ?_)
    fun _ => .seq (isUnmappedTarget_spends _) fun _ => .ite (fun _ => ?_) fun _ => ?_
  · exact .seq ((raiseOddTargetFault_spends hh (by decide) _ _).mono (by decide) (Int.le_refl 8))
      fun _ => hcharge _
  · exact .seq ((raiseBusTargetFault_spends hh (by decide) _ _).mono (by decide) (Int.le_refl 8))
      fun _ => hcharge _
  · exact .seq (setPc_spends hh _) fun _ => hcharge _

theorem execBcc_spends : Spends h 2 8 8 (execBcc opcode) := by
  have hdisp : Spends h 2 0 8 (branchDisplacement opcode) :=
    .ite (fun _ => .seq (fetch_spends hh (by decide)) fun _ => .pure _) fun _ => .pure _
  refine .seq hdisp fun _ => .seq (.gets _) fun _ => .ite (fun _ => ?_) fun _ =>
    .seq (.gets _) fun _ => .ite (fun _ => ?_) fun _ => ?_
  · exact (execBsr_spends hh _).mono (by decide) (Int.le_refl 8)
  · exact (takeBranch_spends hh _).mono (by decide) (Int.le_refl 8)
  · exact (Spends.charge _).mono (le_ite (by decide) (by decide)) (Int.le_refl 8)

theorem dbccLoop_spends (reg : Fin 8) (counter target : U32) :
    Spends h 2 10 8 (dbccLoop reg counter target) := by
  refine .ite (fun _ => .andThen (.charge 10) fun _ => .seq (.gets _) fun _ => ?_) fun _ =>
    .seq (isUnmappedTarget_spends _) fun _ => .ite
      (fun _ => .andThen (.charge 10) fun _ => .seq (.gets _) fun _ => ?_)
      fun _ => .seq (.modify fun _ => rfl) fun _ => .andThen (.charge 10) fun _ => setPc_spends hh _
  · exact (raiseOddTargetFault_spends hh (by decide) _ _).mono (by decide) (Int.le_refl _)
  · exact (raiseBusTargetFault_spends hh (by decide) _ _).mono (by decide) (Int.le_refl _)

theorem execDbcc_spends : Spends h 2 10 8 (execDbcc opcode) := by
  refine .seq (fetch_spends hh (by decide)) fun _ => .seq (.gets _) fun _ => .ite
    (fun _ => (Spends.charge 12).mono (by decide) (Int.le_refl 8)) fun _ => .seq (.gets _) fun _ =>
      .ite (fun _ => .seq (.gets _) fun _ => dbccLoop_spends hh _ _ _) fun _ =>
        .seq (.modify fun _ => rfl) fun _ => (Spends.charge 14).mono (by decide) (Int.le_refl 8)

theorem execScc_pays : Pays h (execScc opcode) := by
  refine .ite (fun _ => pays_exception hh (.inl rfl)) fun hlegal =>
    .get fun _ => .of_spends (Int.le_refl 4) ?_
  have hea : Spends h 2 0 8 (calcEaAddr (field opcode 3) (field opcode 0) .byte) :=
    spends_plain hh (Micro.calcEaAddr (g := Grade.plain opcode) (p := .decode) before _ _ _
      (fun _ => writes_plain _) fun _ _ => ⟨rfl, rfl⟩) (by decide)
  refine .seq hea fun ea => .ite (fun _ => .seq (.gets _) fun _ =>
    .seq (.modify fun _ => rfl) fun _ => ?_)
    fun _ => ?_
  · exact (Spends.charge _).mono (le_ite (by decide) (by decide)) (Int.le_refl 8)
  · exact .seq (write8With_spends hh (exceptionAt_raises hh 3) (by decide) (by decide) _ _) fun _ =>
      (Spends.charge 8).mono (by decide) (Int.le_refl 8)

/-! ## The decoder -/

theorem line4Rest_settles : Settles h (line4Rest opcode) := by
  have hreading : Reading (Grade.plain 0) := reading_plain
  have hill {c : Bool} (_ : c = true) : (Grade.plain opcode).illegal = true := rfl
  refine .ite (fun _ => .ite (fun _ => settles_direct hh (.execExt _) (by decide)) fun _ =>
    .paid (Int.le_refl 0) (execMovem_pays hh)) fun _ => ?_
  refine .ite (fun _ => settles_direct hh (.execLink _ writes_plain) (by decide)) fun _ =>
    .ite (fun _ => settles_direct hh (.execUnlk _ writes_plain) (by decide)) fun _ =>
    .ite (fun _ => settles_plain hh (.execTas _ operand_plain hill)
      (le_ite (by decide) (by decide))) fun _ =>
    .ite (fun _ => settles_plain hh (.execNbcd _ operand_plain hill)
      (le_ite (by decide) (by decide))) fun _ => ?_
  refine .ite (fun _ => .ite (fun _ => settles_direct hh (.execSwap _) (by decide)) fun _ =>
    settles_plain hh (.execPea _ (writes_plain 7) hill) (by decide)) fun _ => ?_
  refine .ite (fun _ => settles_plain hh (.execTst _ operand_plain hill) (by decide)) fun _ =>
    .ite (fun _ => settles_plain hh (.execNegx _ operand_plain hill) (unaryCycles_ge _)) fun _ =>
    .ite (fun _ => settles_only68010 hh (.execMoveSr _ operand_plain hill)
      (le_ite (by decide) (by decide)))
      fun _ => ?_
  exact .ite (fun _ => settles_plain hh (.execClr _ operand_plain hill) (unaryCycles_ge _)) fun _ =>
    .ite (fun _ => settles_plain hh (.execNeg _ operand_plain hill) (unaryCycles_ge _)) fun _ =>
    .ite (fun _ => settles_plain hh (.execNot _ operand_plain hill) (unaryCycles_ge _)) fun _ =>
      settles_illegal hh

theorem line4_settles : Settles h (line4 opcode) := by
  have hreading : Reading (Grade.plain 0) := reading_plain
  have hill {c : Bool} (_ : c = true) : (Grade.plain opcode).illegal = true := rfl
  refine .ite (fun _ => settles_direct hh (.execReset _) (by decide)) fun _ =>
    .ite (fun _ => .pure (Int.le_refl 4)) fun _ =>
    .ite (fun _ => settles_direct hh (.execStop _) (by decide)) fun _ =>
    .ite (fun _ => .costed (by decide) (execRte_spends hh)) fun _ =>
    .ite (fun _ => settles_direct hh (.execRts _ (writes_plain 7)) (by decide)) fun _ =>
    .ite (fun _ => .costed (by decide) (execTrapv_spends hh)) fun _ =>
    .ite (fun _ => settles_direct hh (.execRtr _ (writes_plain 7)) (by decide)) fun _ => ?_
  refine .ite (fun _ => settles_direct68010 hh (.execRtd _ (writes_plain 7)) (by decide)) fun _ =>
    .ite (fun _ => settles_direct68010 hh (.execMovec _ rfl fun _ => rfl) (by decide)) fun _ =>
    .ite (fun _ => settles_direct68010 hh (.execBkpt _ rfl) (by decide)) fun _ => ?_
  refine .ite (fun _ => .costed (by decide) (execTrap_spends hh)) fun _ =>
    .ite (fun _ => settles_direct hh (.execMoveUsp _ fun _ => rfl) (by decide)) fun _ =>
    .ite (fun _ => lineJsr_settles hh) fun _ =>
    .ite (fun _ => .paid (Int.le_refl 0) (execJmp_pays hh)) fun _ => ?_
  refine .ite (fun _ => settles_plain hh (.execMoveSr _ operand_plain hill)
    (le_ite (by decide) (by decide)))
    fun _ => .ite (fun _ => settles_plain hh (.execMoveCcr _ operand_plain hill)
      (by decide)) fun _ =>
    .ite (fun _ => settles_plain hh (.execMoveSr _ operand_plain hill) (by decide)) fun _ =>
    .ite (fun _ => execChk_settles hh) fun _ =>
    .ite (fun _ => .paid (Int.le_refl 0) (execLea_pays hh)) fun _ => line4Rest_settles hh

theorem line5_settles : Settles h (line5 opcode) := by
  refine .ite (fun _ => .ite (fun _ => ?_) fun _ =>
    .paid (Int.le_refl 0) (execScc_pays hh)) fun _ => ?_
  · exact .paid (Int.le_refl 0) (.of_spends (by decide) (execDbcc_spends hh))
  · have hsub : Micro (σ := σ) (Grade.plain opcode) .decode .finished (execSubq opcode) :=
      .execQuick _ operand_plain (fun s d r size sr => .flagsSub s d r size sr)
        (fun _ => writes_plain _) fun _ _ _ => rfl
    have hadd : Micro (σ := σ) (Grade.plain opcode) .decode .finished (execAddq opcode) :=
      .execQuick _ operand_plain (fun s d r size sr => .flagsAdd s d r size sr)
        (fun _ => writes_plain _) fun _ _ _ => rfl
    exact settles_plain hh (.ite (fun _ => hsub) fun _ => hadd) (quickCycles_ge opcode)

theorem line7_settles : Settles h (line7 opcode) :=
  .ite (fun _ => settles_direct hh (.execMoveq _) (by decide)) fun _ => settles_illegal hh

theorem line8_settles : Settles h (line8 opcode) := by
  have hreading : Reading (Grade.plain 0) := reading_plain
  exact .ite (fun _ => .paid (Int.le_refl 0) (execDiv_pays hh)) fun _ =>
    .ite (fun _ => settles_direct hh (.execBcd _ fun _ => writes_pair_plain _ _)
      (le_ite (by decide) (by decide))) fun _ =>
      settles_plain hh (.execAndOr _ operand_plain fun _ _ => rfl) (aluBaseCycles_ge _ _ _ _)

theorem lineAddSub_settles {extended standard : U16 → M σ Unit}
    (hextended : Micro (Grade.plain 0) .decode .finished (extended opcode))
    (hstandard : Micro (Grade.plain opcode) .decode .finished (standard opcode)) :
    Settles h (lineAddSub extended standard opcode) :=
  .ite (fun _ => settles_direct hh hextended (extendedCycles_ge _ _)) fun _ =>
    settles_plain hh hstandard (le_ite (addressAluCycles_ge _ _ _) (aluBaseCycles_ge _ _ _ _))

theorem line9_settles : Settles h (line9 opcode) :=
  have := reading_plain
  lineAddSub_settles hh (.execExtended _ (fun s d r size sr => .flagsSub s d r size sr)
      fun _ => writes_pair_plain _ _)
    (.execAddSub _ operand_plain (fun s d r size sr => .flagsSub s d r size sr)
      (fun _ _ _ => .storeEa before _ _ _) (fun _ => writes_plain _) fun _ => rfl)

theorem lineD_settles : Settles h (lineD opcode) :=
  have := reading_plain
  lineAddSub_settles hh (.execExtended _ (fun s d r size sr => .flagsAdd s d r size sr)
      fun _ => writes_pair_plain _ _)
    (.execAddSub _ operand_plain (fun s d r size sr => .flagsAdd s d r size sr)
      (fun _ _ _ => .storeAdd _ _ _) (fun _ => writes_plain _) fun _ => rfl)

theorem lineB_settles : Settles h (lineB opcode) :=
  .ite (fun _ => settles_plain hh (.execEor _ operand_plain fun _ _ => rfl)
    (aluBaseCycles_ge _ _ _ _)) fun _ =>
    settles_plain hh (.execCmp _ operand_plain (fun _ _ => writes_pair_plain _ _) fun _ _ => rfl)
      (cmpCycles_ge _ _)

theorem lineC_settles : Settles h (lineC opcode) := by
  have hreading : Reading (Grade.plain 0) := reading_plain
  exact .ite (fun _ => .paid (Int.le_refl 0) (execMul_pays hh)) fun _ =>
    .ite (fun _ => settles_direct hh (.execBcd _ fun _ => writes_pair_plain _ _)
      (le_ite (by decide) (by decide))) fun _ =>
    .ite (fun _ => settles_direct hh (.execExg _ (fun _ => writes_plain _) fun _ => writes_plain _)
      (by decide)) fun _ =>
      settles_plain hh (.execAndOr _ operand_plain fun _ _ => rfl) (aluBaseCycles_ge _ _ _ _)

omit hh in
/-- The shift count is not negative, so a shift costs 6 cycles or more. -/
theorem shiftCycles_ge (s : M68kCpu σ) :
    wp (shiftCycles opcode) h (fun c t => ledger t = ledger s ∧ 4 ≤ c) (fun _ => False) s := by
  refine wp_ite (fun _ => ⟨rfl, by decide⟩) fun _ => wp_bind.mpr ?_
  have hbase {c : Prop} [Decidable c] (count : Nat) : 4 ≤ (if c then 8 else 6) +
    2 * (count : Int) := by
    have hmin : (6 : Int) ≤ if c then 8 else 6 := le_ite (by decide) (by decide)
    omega
  exact wp_ite (fun _ => ⟨rfl, hbase _⟩) fun _ => ⟨rfl, hbase _⟩

theorem lineE_settles : Settles h (lineE opcode) :=
  .after shiftCycles_ge fun _ hc => settles_plain hh (.execShift _ operand_plain fun _ _ => rfl) hc

/-- Whatever the opcode, the instruction pays at least 4 cycles. -/
theorem dispatch_settles : Settles h (dispatch opcode) := by
  have htrap {v : Nat} (hv : v ≠ 6) : Settles h (costed (exception v) 34) :=
    .costed (by decide) (exception_spends hh (by decide) hv)
  unfold dispatch
  split
  · exact line0_settles hh
  · next hline => exact lineMove_settles hh (.inl hline)
  · next hline => exact lineMove_settles hh (.inr (.inl hline))
  · next hline => exact lineMove_settles hh (.inr (.inr hline))
  · exact line4_settles hh
  · exact line5_settles hh
  · exact .paid (Int.le_refl 0) (.of_spends (by decide) (execBcc_spends hh))
  · exact line7_settles hh
  · exact line8_settles hh
  · exact line9_settles hh
  · exact htrap (by decide)
  · exact lineB_settles hh
  · exact lineC_settles hh
  · exact lineD_settles hh
  · exact lineE_settles hh
  · exact htrap (by decide)

end Lines

end M68k
