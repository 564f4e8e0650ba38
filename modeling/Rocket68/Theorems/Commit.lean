import Rocket68.Theorems.Frames
import Rocket68.Theorems.Stacks

/-!
# The address register of a faulting store

MOVE, Scc and MOVES store to an operand they do not read first. When the store
faults, MOVE has not yet incremented the register of an `(An)+` destination nor
decremented that of a long `-(An)`; Scc and MOVES have done both.
-/

namespace M68k

open Trap TrapM

variable {σ : Type} {k : Option (Nat → M68kCpu σ → M68kCpu σ × U32)} {s t u w : M68kCpu σ}
  {r : Fin 8} {x : U32} {size : M68kSize}

/-! ## Stores -/

/-- The instructions that write a memory operand without reading it. -/
inductive Writer where
  | move
  | scc
  | moves
  deriving DecidableEq, Repr

/-- The instruction at the PC stores to the operand of this size, mode and
register. -/
inductive Stores (s : M68kCpu σ) : Writer → M68kSize → Fin 8 → Fin 8 → Prop
  | move {size : M68kSize} (hline : lineOf (opcodeAt s) = 1 ∨ lineOf (opcodeAt s) = 2 ∨
      lineOf (opcodeAt s) = 3) (hsize : moveSize? (opcodeAt s) = some size) :
      Stores s .move size (field (opcodeAt s) 6) (field (opcodeAt s) 9)
  | scc (hline : lineOf (opcodeAt s) = 5) (hsize : opcodeAt s &&& 0xC0 = 0xC0) :
      Stores s .scc .byte (field (opcodeAt s) 3) (field (opcodeAt s) 0)
  | moves {size : M68kSize} (hmodel : s.model.is68010 = true) (hline : lineOf (opcodeAt s) = 0)
      (hop : conditionField (opcodeAt s) = 0xE)
        (hsize : sizeOf? (sizeBits (opcodeAt s)) = some size) :
      Stores s .moves size (field (opcodeAt s) 3) (field (opcodeAt s) 0)

/-- The address register after `(An)+` or `-(An)`. -/
def stepped (mode reg : Fin 8) (size : M68kSize) (base : U32) : U32 :=
  if mode = 3 then base + stepSize reg size
  else if mode = 4 then base - stepSize reg size
  else base

/-- The register of the destination when the destination is resolved: the source of
a MOVE may use the same one. -/
def destBase (writer : Writer) (reg : Fin 8) (size : M68kSize) (s : M68kCpu σ) : U32 :=
  if writer = .move ∧ field (opcodeAt s) 0 = reg then
    stepped (field (opcodeAt s) 3) reg size (s.aRegs reg)
  else s.aRegs reg

/-- What a faulting store commits: nothing for `(An)+` and for a long `-(An)`. -/
def committed (mode reg : Fin 8) (size : M68kSize) (base : U32) : U32 :=
  if mode = 4 ∧ size ≠ .long then base - stepSize reg size else base

/-- What the handler of the store has put into the register by then. -/
def stored (writer : Writer) (mode reg : Fin 8) (size : M68kSize) (base : U32) : U32 :=
  if writer = .move then committed mode reg size base else stepped mode reg size base

/-- Address register `r` after a step from `s` that ended in one group 0 exception,
as it was before the frame was pushed. -/
def beforeFrame (r : Fin 8) (s t : M68kCpu σ) : U32 :=
  if r = 7 then (if s.supervisor then t.supervisorSp + 14 else t.userSp) else t.aRegs r

/-! ## Up to the store -/

/-- A running instruction begun in `s` that has met nothing, with `x` in address
register `r`. -/
structure Holding (s : M68kCpu σ) (r : Fin 8) (x : U32) (u : M68kCpu σ) : Prop where
  running : Running u
  quiet : Quiet u.log
  supervisor : u.supervisor = s.supervisor
  reg : u.aRegs r = x

theorem Clean.holding (h : Clean false s u) (hreg : u.aRegs r = x) : Holding s r x u :=
  ⟨h.running, h.quiet, h.supervisor, hreg⟩

/-- How a storing instruction is unwound. -/
inductive StoreFault (k : Option (Nat → M68kCpu σ → M68kCpu σ × U32)) (s : M68kCpu σ) (r : Fin 8)
    (x : U32) : M68kCpu σ → Prop
  | write {u w : M68kCpu σ} {size : M68kSize} {address : U32} (hu : Holding s r x u)
      (h : exception (faultVector size address) (ackHost k) (faulting .write size address u) =
        .ok () w) : StoreFault k s r x (holdGuard (faultVector size address) false w)
  | other {u w : M68kCpu σ} {kind : Access} {size : M68kSize} {address : U32}
      (hkind : kind ≠ .write) (hu : Running u) (hquiet : Quiet u.log)
      (h : exception (faultVector size address) (ackHost k) (faulting kind size address u) =
        .ok () w) : StoreFault k s r x (holdGuard (faultVector size address) false w)
  | illegalEa {u t : M68kCpu σ} (hu : Quiet u.log) (hd : u.exceptionDepth = 0)
      (h : exception 4 (ackHost k) u = .ok () t) : StoreFault k s r x t

/-- Resolving and reading an operand raises no write fault. -/
theorem Captured.storeFault {relative : Bool} (h : Captured k relative false s t) :
    StoreFault k s r x t := by
  cases h with
  | fault hkind hu _ h =>
    refine .other ?_ hu.running hu.quiet h
    intro heq
    exact absurd (hkind heq) Bool.false_ne_true
  | illegalEa hu hd h => exact .illegalEa hu hd h

/-- A store. -/
theorem Holding.store (h : Holding s r x u) (address value : U32) (size : M68kSize) :
    wp (writeSize address value size) (ackHost k) (fun _ t => Holding s r x t) (StoreFault k s r x)
      u := by
  have hwrite {size : M68kSize} {memory : M68kCpu σ → U32 → U8}
      {miss : M68kCpu σ → M68kCpu σ × Unit} {m : M σ Unit}
      (hm : m (ackHost k) u = flatAccess exception .write size address
        (fun s => ({ s with memory := memory s }, ())) miss () (ackHost k) u) :
      wp m (ackHost k) (fun _ t => Holding s r x t) (StoreFault k s r x) u := by
    unfold wp
    rw [hm]
    refine wp_mono (flatAccess_running h.running .write size address _ miss ()) ?_ ?_
    · rintro a t ⟨-, -, rfl⟩
      have hrun := h.running
      exact ⟨⟨hrun.1, hrun.2, hrun.3, hrun.4, hrun.5, hrun.6⟩, h.quiet.cons _ _ _, h.supervisor,
        h.reg⟩
    · rintro t ⟨-, w, hw, rfl⟩
      exact .write h hw
  cases size with
  | byte => exact hwrite (write8With_flat exception k address u _)
  | word => exact hwrite (write16With_flat exception k address u _)
  | long => exact hwrite (write32With_flat exception k address u _)

/-! ## MOVE -/

theorem stepSize_long (reg : Fin 8) : stepSize reg .long = M68kSize.long.bytes :=
  if_neg fun h => by cases h.1

/-- One address register written. -/
theorem update_base (reg : Fin 8) (v : U32) (aRegs : Fin 8 → U32) (r : Fin 8) :
    Function.update aRegs reg v r = if reg = r then v else aRegs r := by
  by_cases h : reg = r
  · rw [h, Function.update_self, if_pos rfl]
  · rw [if_neg h, Function.update_of_ne (Ne.symm h)]

/-- Resolving and reading an operand moves only the register of `(An)+` and `-(An)`. -/
theorem calcEaEx_base (hs : Clean false s u) (mode reg : Fin 8) (size : M68kSize) :
    wp (calcEaEx mode reg size true) (ackHost k)
      (fun _ t => Clean false s t ∧
        ∀ r, t.aRegs r = if reg = r then stepped mode r size (u.aRegs r) else u.aRegs r)
      (Captured k (relativeMode mode reg) false s) u := by
  have hplain : Source k s (relativeMode mode reg) true false false 0
      (setFaultPc mode reg size : M σ Unit) := .setFaultPc mode reg size
  have hmoved {t : M68kCpu σ} (ht : Clean false s t) (v : U32) :
      Clean false s { t with aRegs := Function.update t.aRegs reg v } := ht.congr rfl
  by_cases h3 : mode = 3
  · subst h3
    have hread (address : U32) : Source k s (relativeMode 3 reg) true false false 0
        (readSize address size : M σ U32) := .readSize address size
    have hmemory (address : U32) : Source k s (relativeMode 3 reg) true false false 0
        (eaMemory address size true : M σ Ea) := .eaMemory address size
    rw [calcEaEx, wp_bind]
    refine wp_mono (hplain u hs) ?_ fun _ h => h
    rintro - t ⟨ht, -, -, hregs⟩
    rw [getA, wp_bind, wp_gets, Bool.true_and]
    refine wp_ite (fun hlong => ?_) fun _ => ?_
    · -- A long word is read before the register moves.
      have hsize : size = .long := by simpa using hlong
      subst hsize
      rw [wp_bind]
      refine wp_mono (hread _ t ht) ?_ fun _ h => h
      rintro value v ⟨hv, -, -, hregs'⟩
      rw [wp_bind, wp_gets, setA, wp_bind, wp_modify]
      refine ⟨hmoved hv _, fun r => ?_⟩
      show Function.update v.aRegs reg _ r = _
      rw [update_base, hregs' rfl, hregs rfl]
      by_cases h : reg = r
      · rw [if_pos h, if_pos h, stepped, if_pos rfl, stepSize_long, h]
      · rw [if_neg h, if_neg h]
    · rw [setA, wp_bind, wp_modify]
      refine wp_mono (hmemory _ _ (hmoved ht _)) ?_ fun _ h => h
      rintro value v ⟨hv, -, -, hregs'⟩
      refine ⟨hv, fun r => ?_⟩
      rw [hregs' rfl]
      show Function.update t.aRegs reg _ r = _
      rw [update_base, hregs rfl]
      by_cases h : reg = r
      · rw [if_pos h, if_pos h, stepped, if_pos rfl, h]
      · rw [if_neg h, if_neg h]
  · by_cases h4 : mode = 4
    · subst h4
      have hmemory (address : U32) : Source k s (relativeMode 4 reg) true false false 0
          (eaMemory address size true : M σ Ea) := .eaMemory address size
      rw [calcEaEx, wp_bind]
      refine wp_mono (hplain u hs) ?_ fun _ h => h
      rintro - t ⟨ht, -, -, hregs⟩
      dsimp only
      rw [getA, wp_bind, wp_gets, setA, wp_bind, wp_modify]
      refine wp_mono (hmemory _ _ (hmoved ht _)) ?_ fun _ h => h
      rintro value v ⟨hv, -, -, hregs'⟩
      refine ⟨hv, fun r => ?_⟩
      rw [hregs' rfl]
      show Function.update t.aRegs reg _ r = _
      rw [update_base, hregs rfl]
      by_cases h : reg = r
      · rw [if_pos h, if_pos h, stepped, if_neg h3, if_pos rfl, h]
      · rw [if_neg h, if_neg h]
    · have hsource : Source k s (relativeMode mode reg) true false false
          (extensionBytes mode reg size) (calcEaEx mode reg size true : M σ Ea) :=
        .calcEaEx mode reg size rfl fun _ => ⟨h3, h4⟩
      refine wp_mono (hsource u hs) ?_ fun _ h => h
      rintro - t ⟨ht, -, -, hregs⟩
      refine ⟨ht, fun r => ?_⟩
      rw [hregs rfl, stepped, if_neg h3, if_neg h4, ite_self]

/-- The source operand of a MOVE. -/
theorem calcEa_base (hs : Clean false s u) (mode reg : Fin 8) (size : M68kSize) :
    wp (calcEa mode reg size) (ackHost k)
      (fun _ t => Clean false s t ∧
        ∀ r, t.aRegs r = if reg = r then stepped mode r size (u.aRegs r) else u.aRegs r)
      (Captured k (relativeMode mode reg) false s) u := by
  have hcharged : Clean false s (charged (if size = .long then eaCycles mode reg .word
      else eaCycles mode reg size) u) := hs.congr rfl
  rw [calcEa, charge, wp_bind, wp_modify, wp_bind]
  refine wp_mono (calcEaEx_base hcharged mode reg size) ?_ fun _ h => h
  rintro ea t ⟨ht, hregs⟩
  rw [charge, wp_bind, wp_modify]
  exact ⟨ht.congr rfl, hregs⟩

/-- The fields a store may not touch. -/
theorem Holding.congr (h : Holding s r x u) (hwiring : wiring t = wiring u)
    (htrap : t.faultTrapActive = u.faultTrapActive) (hgroup : t.group0Fault = u.group0Fault)
    (hthrown : t.exceptionThrown = u.exceptionThrown) (hlog : t.log = u.log)
    (hsr : t.supervisor = u.supervisor) (haRegs : t.aRegs = u.aRegs) : Holding s r x t where
  running :=
    { trapActive := htrap.trans h.running.trapActive
      depth := (congrArg Wiring.exceptionDepth hwiring).trans h.running.depth
      addressGuard := (congrArg Wiring.inAddressError hwiring).trans h.running.addressGuard
      busGuard := (congrArg Wiring.inBusError hwiring).trans h.running.busGuard
      group0 := hgroup.trans h.running.group0
      thrown := hthrown.trans h.running.thrown }
  quiet := hlog ▸ h.quiet
  supervisor := hsr.trans h.supervisor
  reg := (congrFun haRegs r).trans h.reg

theorem Holding.ccr (h : Holding s r x u) {sr : U16} (hsr : CcrOnly u.sr sr) :
    Holding s r x { u with sr := sr } := by
  refine h.congr rfl rfl rfl rfl rfl ?_ rfl
  rw [supervisor_eq, supervisor_eq]
  exact hsr.supervisor

/-- The store of a MOVE. -/
theorem Holding.moveStore (h : Holding s r x u) (destMode destReg srcMode srcReg : Fin 8)
    (size : M68kSize) (dest : MoveDest) (value p : U32) :
    wp (moveToMemory destMode destReg srcMode srcReg size dest value p) (ackHost k)
      (fun _ _ => True) (StoreFault k s r x) u := by
  have hcommit (t : M68kCpu σ) {m : M σ Unit} (hm : ∀ t, wp m (ackHost k) (fun _ _ => True)
      (StoreFault k s r x) t) :
      wp (commitMove destReg dest.commit >>= fun _ => m) (ackHost k) (fun _ _ => True)
        (StoreFault k s r x) t := by
    cases dest.commit with
    | none => exact hm t
    | some value => exact hm _
  -- the store that every mode but the long `-(An)` ends in
  have hstore (t : M68kCpu σ) (ht : Holding s r x t) (refund : Int) :
      wp (do
        writeSize dest.ea.address value size
        charge refund
        dropBusWord
        commitMove destReg dest.commit
        if size = .long then setCcr (moveFlags size value)) (ackHost k) (fun _ _ => True)
        (StoreFault k s r x) t := by
    rw [wp_bind]
    refine wp_mono (ht.store _ value size) (fun _ t _ => ?_) fun _ h => h
    rw [charge, wp_bind, wp_modify, dropBusWord, wp_bind, wp_modify]
    exact hcommit _ fun t => wp_ite (fun _ => trivial) fun _ => trivial
  -- what follows the flags, by the mode of the destination
  have hrest (t : M68kCpu σ) (ht : Holding s r x t) (refund : Int) :
      wp (if destMode = 4 ∧ size = .long then do
          write16 (dest.ea.address + 2) (value.setWidth 16)
          write16 dest.ea.address ((value >>> 16).setWidth 16)
          charge refund
          commitMove destReg dest.commit
          setCcr (moveFlags size value)
        else if destMode = 4 then do
          charge 2
          if isOdd dest.ea.address then do
            latchBusWord (← peekWord p)
            writeSize dest.ea.address value size
            charge refund
            dropBusWord
            commitMove destReg dest.commit
            if size = .long then setCcr (moveFlags size value)
          else do
            writeSize dest.ea.address value size
            charge refund
            dropBusWord
            commitMove destReg dest.commit
            if size = .long then setCcr (moveFlags size value)
        else do
          writeSize dest.ea.address value size
          charge refund
          dropBusWord
          commitMove destReg dest.commit
          if size = .long then setCcr (moveFlags size value)) (ackHost k) (fun _ _ => True)
        (StoreFault k s r x) t := by
    have hcharged (n : Int) : Holding s r x (charged n t) :=
      ht.congr rfl rfl rfl rfl rfl rfl rfl
    refine wp_ite (fun _ => ?_) fun _ => wp_ite (fun _ => ?_) fun _ => hstore t ht refund
    · rw [wp_bind]
      refine wp_mono (ht.store (dest.ea.address + 2) value .word) (fun _ v hv => ?_) fun _ h => h
      rw [wp_bind]
      refine wp_mono (hv.store dest.ea.address (value >>> 16) .word) (fun _ v _ => ?_) fun _ h => h
      rw [charge, wp_bind, wp_modify]
      exact hcommit _ fun _ => trivial
    · rw [charge, wp_bind, wp_modify]
      refine wp_ite (fun _ => ?_) fun _ => hstore _ (hcharged 2) refund
      rw [wp_bind, wp_of_ok (peekWord_peeks p _), latchBusWord, wp_bind, wp_modify]
      apply hstore
      exact (hcharged 2).congr rfl rfl rfl rfl rfl rfl rfl
  have hstart (t : M68kCpu σ) (ht : Holding s r x t) (n refund : Int) :=
    hrest (charged n t) (ht.congr rfl rfl rfl rfl rfl rfl rfl) refund
  have hlatched (v : U32) : Holding s r x { u with faultPc := v, faultPcValid := true } :=
    h.congr rfl rfl rfl rfl rfl rfl rfl
  have hclear : CcrOnly u.sr (u.sr &&& ~~~nzvc) := (CcrOnly.refl u.sr).clear (by decide)
  rw [moveToMemory]
  dsimp only
  rw [latchFaultPc, wp_bind, wp_modify]
  refine wp_ite (fun _ => ?_) fun _ => ?_
  · rw [modifySr, wp_bind, wp_modify, charge, wp_bind, wp_modify]
    exact hstart _ ((hlatched _).ccr (hclear.or (lowBits_moveFaultFlags _ _ _ _ _))) _ _
  · rw [setCcr, modifySr, wp_bind, wp_modify, charge, wp_bind, wp_modify]
    exact hstart _ ((hlatched _).ccr (hclear.or (lowBits_moveFlags _ _))) _ _

/-- The destination of a MOVE to `(An)+` or `-(An)`. -/
theorem moveDest_stored (h : Holding s r x u) {mode : Fin 8} (hmode : mode = 3 ∨ mode = 4)
    (size : M68kSize) :
    ∃ address commit t, moveDest mode r size (ackHost k) u =
        .ok { ea := { address := address }, commit := commit } t ∧
      Holding s r (committed mode r size x) t := by
  have hreg : u.aRegs r = x := h.reg
  rcases hmode with rfl | rfl
  · have hrun : moveDest 3 r size (ackHost k) u =
        .ok { ea := { address := u.aRegs r }, commit := some (u.aRegs r + stepSize r size) }
          (charged (eaCycles 3 r size) u) := rfl
    -- `(An)+` moves its register only after the store
    have hsame : committed 3 r size x = x := if_neg fun h => absurd h.1 (by decide)
    rw [hsame]
    exact ⟨_, _, _, hrun, h.congr rfl rfl rfl rfl rfl rfl rfl⟩
  · have hrun : moveDest 4 r size (ackHost k) u =
        (if size = .long then
          (pure { ea := { address := u.aRegs r - stepSize r size },
                  commit := some (u.aRegs r - stepSize r size) } : M σ MoveDest)
        else do
          setA r (u.aRegs r - stepSize r size)
          pure { ea := { address := u.aRegs r - stepSize r size }, commit := none }) (ackHost k)
          (charged (eaCycles 4 r size) u) := rfl
    have hcharged : Holding s r x (charged (eaCycles 4 r size) u) :=
      h.congr rfl rfl rfl rfl rfl rfl rfl
    rw [hrun]
    -- `-(An)` moves it before, except for a long word
    by_cases hlong : size = .long
    · have hsame : committed 4 r size x = x := if_neg fun h => h.2 hlong
      rw [if_pos hlong, hsame]
      exact ⟨_, _, _, rfl, hcharged⟩
    · have hmoved : committed 4 r size x = x - stepSize r size := if_pos ⟨rfl, hlong⟩
      rw [if_neg hlong, hmoved]
      have hrun := hcharged.running
      refine ⟨_, _, _, rfl, ⟨hrun.1, hrun.2, hrun.3, hrun.4, hrun.5, hrun.6⟩, hcharged.quiet,
        hcharged.supervisor, ?_⟩
      show Function.update u.aRegs r _ r = _
      rw [Function.update_self, hreg]

theorem moveDestRejects_stored {mode : Fin 8} (hmode : mode = 3 ∨ mode = 4) (reg : Fin 8)
    (size : M68kSize) : moveDestRejects mode reg size = false := by
  rcases hmode with rfl | rfl <;> rfl

theorem execMove_storeFault (hs : Clean false s u) (hregs : u.aRegs = s.aRegs)
    (hsize : moveSize? (opcodeAt s) = some size)
    (hmode : field (opcodeAt s) 6 = 3 ∨ field (opcodeAt s) 6 = 4) :
    wp (execMove (opcodeAt s)) (ackHost k) (fun _ _ => True)
      (StoreFault k s (field (opcodeAt s) 9) (stored .move (field (opcodeAt s) 6)
        (field (opcodeAt s) 9) size (destBase .move (field (opcodeAt s) 9) size s))) u := by
  rw [execMove, hsize]
  dsimp only
  rw [moveDestRejects_stored hmode, if_neg Bool.false_ne_true, wp_bind]
  refine wp_mono (calcEa_base hs _ _ size) ?_ fun _ ht => ht.storeFault
  rintro ea t ⟨ht, hbase⟩
  have hdest : t.aRegs (field (opcodeAt s) 9) = destBase .move (field (opcodeAt s) 9) size s := by
    rw [hbase, hregs, destBase]
    by_cases h : field (opcodeAt s) 0 = field (opcodeAt s) 9
    · rw [if_pos h, if_pos ⟨rfl, h⟩]
    · rw [if_neg h, if_neg fun h' => h h'.2]
  obtain ⟨address, commit, v, hrun, hv⟩ := moveDest_stored (k := k) (ht.holding hdest) hmode size
  rw [getPc, wp_bind, wp_gets, wp_bind, wp_of_ok hrun]
  exact hv.moveStore _ _ _ _ size _ ea.value _

/-! ## Scc and MOVES -/

/-- The address of an `(An)+` or `-(An)` destination moves the register at once. -/
theorem calcEaAddr_stored (h : Holding s r x u) {mode : Fin 8} (hmode : mode = 3 ∨ mode = 4)
    (size : M68kSize) :
    ∃ address t, calcEaAddr mode r size (ackHost k) u = .ok { address := address } t ∧
      Holding s r (stepped mode r size x) t := by
  have hrun := h.running
  rcases hmode with rfl | rfl
  · refine ⟨_, _, rfl, ⟨hrun.1, hrun.2, hrun.3, hrun.4, hrun.5, hrun.6⟩, h.quiet, h.supervisor, ?_⟩
    show Function.update u.aRegs r (u.aRegs r + stepSize r size) r = _
    rw [Function.update_self, h.reg, stepped, if_pos rfl]
  · refine ⟨_, _, rfl, ⟨hrun.1, hrun.2, hrun.3, hrun.4, hrun.5, hrun.6⟩, h.quiet, h.supervisor, ?_⟩
    show Function.update u.aRegs r (u.aRegs r - stepSize r size) r = _
    rw [Function.update_self, h.reg]
    rfl

theorem execScc_storeFault (hs : Holding s (field (opcodeAt s) 0) x u)
    (hmode : field (opcodeAt s) 3 = 3 ∨ field (opcodeAt s) 3 = 4) :
    wp (execScc (opcodeAt s)) (ackHost k) (fun _ _ => True)
      (StoreFault k s (field (opcodeAt s) 0)
        (stepped (field (opcodeAt s) 3) (field (opcodeAt s) 0) .byte x)) u := by
  have hallowed : notDataAlterable (field (opcodeAt s) 3) (field (opcodeAt s) 0) = false := by
    rcases hmode with h | h <;> rw [h] <;> rfl
  obtain ⟨address, t, hrun, ht⟩ := calcEaAddr_stored (k := k) hs hmode .byte
  rw [execScc, hallowed, if_neg Bool.false_ne_true, getSr, wp_bind, wp_gets, wp_bind, wp_of_ok hrun]
  have hdata : ({ address := address } : Ea).isData = false := rfl
  rw [hdata, if_neg Bool.false_ne_true, wp_bind]
  have hstore (val : U8) : wp (write8 address val) (ackHost k)
      (fun _ t => Holding s (field (opcodeAt s) 0) (stepped (field (opcodeAt s) 3)
        (field (opcodeAt s) 0) .byte x) t) (StoreFault k s (field (opcodeAt s) 0)
        (stepped (field (opcodeAt s) 3) (field (opcodeAt s) 0) .byte x)) t := by
    have hval : (val.setWidth 32).setWidth 8 = val := by simp
    have hwrite := ht.store (k := k) address (val.setWidth 32) .byte
    rw [writeSize, hval] at hwrite
    exact hwrite
  exact wp_mono (hstore _) (fun _ _ _ => trivial) fun _ h => h

theorem execMoves_storeFault (hs : Clean false s u) (hregs : u.aRegs = s.aRegs)
    (hsize : sizeOf? (sizeBits (opcodeAt s)) = some size)
    (hmode : field (opcodeAt s) 3 = 3 ∨ field (opcodeAt s) 3 = 4) :
    wp (execMoves (opcodeAt s)) (ackHost k) (fun _ _ => True)
      (StoreFault k s (field (opcodeAt s) 0) (stepped (field (opcodeAt s) 3)
        (field (opcodeAt s) 0) size (s.aRegs (field (opcodeAt s) 0)))) u := by
  have hallowed : notMemoryAlterable (field (opcodeAt s) 3) (field (opcodeAt s) 0) = false := by
    rcases hmode with h | h <;> rw [h] <;> rfl
  -- the refusals raise an exception that is not a write fault
  rw [execMoves, hallowed, if_neg Bool.false_ne_true, privileged, getSr, wp_bind, wp_gets]
  refine wp_ite (fun _ => ?_) fun _ => ?_
  · obtain ⟨t, ht, -⟩ := exception_processed (k := k) 8 (s := { u with pc := u.pc - 2 })
      (Int.le_of_eq hs.running.depth.symm)
    have hviolation : privilegeViolation (ackHost k) u = .ok () t := ht
    exact (wp_of_ok hviolation).mpr trivial
  · rw [hsize]
    dsimp only
    have hfetch : Source k s (relativeMode (field (opcodeAt s) 3) (field (opcodeAt s) 0)) true false
        false 2 (fetch : M σ U16) := .fetch
    rw [wp_bind]
    refine wp_mono (hfetch u hs) ?_ fun _ ht => ht.storeFault
    rintro ext t ⟨ht, -, -, htregs⟩
    have hreg : t.aRegs (field (opcodeAt s) 0) = s.aRegs (field (opcodeAt s) 0) := by
      rw [htregs rfl, hregs]
    refine wp_ite (fun _ => ?_) fun _ => wp_ite (fun _ => ?_) fun _ => ?_
    · obtain ⟨v, hv, -⟩ := exception_processed (k := k) 4 (Int.le_of_eq ht.running.depth.symm)
      exact (wp_of_ok hv).mpr trivial
    · obtain ⟨address, v, hrun, hv⟩ := calcEaAddr_stored (k := k) (ht.holding hreg) hmode size
      rw [wp_bind, wp_of_ok hrun]
      refine wp_ite (fun _ => ?_) fun _ => ?_
      · rw [getA, wp_bind, wp_gets]
        exact wp_mono (hv.store _ _ _) (fun _ _ _ => trivial) fun _ h => h
      · rw [getD, wp_bind, wp_gets]
        exact wp_mono (hv.store _ _ _) (fun _ _ _ => trivial) fun _ h => h
    · rw [wp_bind]
      refine wp_mono (calcEa_base ht _ _ size) ?_ fun _ ht => ht.storeFault
      rintro ea v -
      exact wp_ite (fun _ => trivial) fun _ => by cases size <;> trivial

theorem dispatch_scc {op : U16} (h : lineOf op = 5) (hsize : op &&& 0xC0 = 0xC0)
    (hmode : field op 3 ≠ 1) : (dispatch op : M σ Int) = costed (execScc op) 0 := by
  unfold dispatch
  rw [h]
  show line5 op = _
  rw [line5, if_pos hsize, if_neg hmode]

theorem dispatch_moves {op : U16} (h : lineOf op = 0) (hop : conditionField op = 0xE)
    (hsize : sizeBits op ≠ 3) :
    (dispatch op : M σ Int) = (getModel >>= fun model =>
      if !model.is68010 || sizeBits op == 3 then illegalOpcode else costed (execMoves op) 4) := by
  have himmediate : immediateSize3 op = false := by
    have hsize' : (sizeBits op == 3) = false := by simpa using hsize
    rw [immediateSize3, hsize', Bool.false_and]
  unfold dispatch
  rw [h]
  show line0 op = _
  rw [line0, himmediate, if_neg Bool.false_ne_true, if_pos hop]

theorem dispatch_move {op : U16} (h : lineOf op = 1 ∨ lineOf op = 2 ∨ lineOf op = 3) :
    (dispatch op : M σ Int) = lineMove op := by
  unfold dispatch
  rcases h with h | h | h <;> rw [h] <;> rfl

/-- How a storing instruction is unwound. -/
theorem Stores.storeFault {writer : Writer} {mode reg : Fin 8} (h : Stores s writer size mode reg)
    (hs : Settled s) (hmode : mode = 3 ∨ mode = 4) :
    wp (dispatch (opcodeAt s)) (ackHost k) (fun _ _ => True)
      (StoreFault k s reg (stored writer mode reg size (destBase writer reg size s)))
      (fetched s) := by
  have hstart : Clean false s (fetched s) :=
    ⟨fetched_running hs.depth, rfl, hs.programSpace, hs.busWord,
      Quiet.cons (by intro e he; cases he) _ _ _, fun _ _ => rfl⟩
  cases h with
  | move hline hsize =>
    rw [dispatch_move hline, lineMove, costed, wp_bind]
    exact wp_mono (execMove_storeFault hstart rfl hsize hmode) (fun _ _ _ => trivial) fun _ h => h
  | scc hline hsize =>
    have hnot : field (opcodeAt s) 3 ≠ 1 := by
      rcases hmode with h | h <;> rw [h] <;> decide
    rw [dispatch_scc hline hsize hnot, costed, wp_bind]
    exact wp_mono (execScc_storeFault (hstart.holding rfl) hmode) (fun _ _ _ => trivial)
      fun _ h => h
  | moves hmodel hline hop hsize =>
    have hnot : sizeBits (opcodeAt s) ≠ 3 := by
      intro h
      rw [h] at hsize
      cases hsize
    have hmodel' : (!(fetched s).model.is68010 || sizeBits (opcodeAt s) == 3) = false := by
      have hkept : (fetched s).model.is68010 = true := hmodel
      have hsize' : (sizeBits (opcodeAt s) == 3) = false := by simpa using hnot
      rw [hkept, hsize']
      rfl
    rw [dispatch_moves hline hop hnot, getModel, wp_bind, wp_gets, hmodel',
      if_neg Bool.false_ne_true, costed, wp_bind]
    exact wp_mono (execMoves_storeFault hstart rfl hsize hmode) (fun _ _ _ => trivial)
      fun _ h => h

/-! ## The register after the step -/

/-- The registers a delivered store fault shows. -/
theorem Holding.beforeFrame {address : U32} (hu : Holding s r x u)
    (h : exception (faultVector size address) (ackHost k) (faulting .write size address u) =
      .ok () w)
    (hcalm : r = 7 → s.supervisor = true → faultsInHandling w.log = false) :
    beforeFrame r s (aborted (holdGuard (faultVector size address) false w)) = x := by
  have hkept := (accessFault_kept hu.running.steady h).2
  have hdepth : (faulting .write size address u).exceptionDepth = 0 :=
    (holdGuard_kept _ true _).2.1.trans hu.running.depth
  unfold M68k.beforeFrame
  by_cases h7 : r = 7
  · have hreg : u.aRegs 7 = x := h7 ▸ hu.reg
    rw [if_pos h7]
    cases hsup : s.supervisor with
    | true =>
      have hw := delivered_of_calm hdepth h (hcalm h7 hsup)
      have hsp : (aborted (holdGuard (faultVector size address) false w)).supervisorSp =
          w.supervisorSp := by
        rw [holdGuard_eq]
        rfl
      have hfaulting : (faulting .write size address u).supervisorSp = u.supervisorSp := by
        rw [faulting, holdGuard_eq]
        rfl
      -- the frame was pushed on the register itself, and is taken off again
      rw [if_pos rfl, hsp, hw, delivered_supervisorSp, frameBytes,
        if_pos (faultVector_cases size address), BitVec.sub_add_cancel, hfaulting,
        M68kCpu.supervisorSp, if_pos (hu.supervisor.trans hsup)]
      exact hreg
    | false =>
      have husp : (aborted (holdGuard (faultVector size address) false w)).userSp = u.userSp :=
        congrArg Kept.userSp hkept
      -- from user state A7 was banked by the fault
      rw [if_neg Bool.false_ne_true, husp, M68kCpu.userSp, hu.supervisor, hsup,
        if_neg Bool.false_ne_true]
      exact hreg
  · have hlow : Function.update (holdGuard (faultVector size address) false w).aRegs 7 0 r =
        Function.update u.aRegs 7 0 r := congrFun (congrArg Kept.lowA hkept) r
    rw [Function.update_of_ne h7, Function.update_of_ne h7] at hlow
    rw [if_neg h7]
    exact hlow.trans hu.reg

/-- A write fault of a storing instruction leaves in the register what its handler
had put there. -/
theorem Stepped.beforeFrame {g : Grade} {check : Bool} (h : Stepped none g check s t)
    (hs : Settled s) {writer : Writer} {mode reg : Fin 8} (hstores : Stores s writer size mode reg)
    (hmode : mode = 3 ∨ mode = 4) {v : Nat} {z : M68kSize} {address : U32}
    (hf : FirstFault v .write z address t.log)
    (hcalm : reg = 7 → s.supervisor = true → faultsInHandling t.log = false) :
    beforeFrame reg s t = stored writer mode reg size (destBase writer reg size s) := by
  have hrunning := fetched_running (s := s) hs.depth
  have hstart : Handled (fetched s).log := handled_access handled_nil
  have hlogs {u w : M68kCpu σ} {kind : Access} {z : M68kSize} {address : U32} (hu : Running u)
      (h : exception (faultVector z address) (ackHost none)
        (faulting kind z address u) = .ok () w) :
      ∃ evs, (aborted (holdGuard (faultVector z address) false w)).log =
        evs ++ .exception (faultVector z address) :: .fault kind address ::
          .access kind z address :: u.log := by
    obtain ⟨evs, hlog, -⟩ := (accessFault_kept hu.steady h).1.log
    rw [faulting_log] at hlog
    exact ⟨evs, (holdGuard_log _ _ _).trans hlog⟩
  cases h with
  -- only a step that was unwound has a write fault first in its log
  | idle => exact absurd hf (not_firstFault handled_nil)
  | interrupt _ _ h =>
    have hsteady : Steady (beginStep s) := ⟨hs.depth, rfl, rfl⟩
    exact absurd hf (not_firstFault ((exception_steady hsteady h).handled handled_nil))
  | fetchFault _ _ _ h =>
    obtain ⟨evs, hlog⟩ := hlogs (armed_running hs.depth) h
    have hquiet : Quiet (armed s).log := fun e he => by cases he
    obtain ⟨-, hkind, -⟩ := firstFault_unique hquiet hlog hf
    cases hkind
  | unwound _ _ _ hrun _ =>
    have hfault := (wp_of_trap hrun).mp (hstores.storeFault (k := none) hs hmode)
    cases hfault with
    | write hu h =>
      refine hu.beforeFrame h fun h7 hsup => ?_
      have hlog := hcalm h7 hsup
      rwa [aborted, holdGuard_log] at hlog
    | other hkind hu hquiet h =>
      obtain ⟨evs, hlog⟩ := hlogs hu h
      obtain ⟨-, heq, -⟩ := firstFault_unique hquiet hlog hf
      exact absurd heq.symm hkind
    | illegalEa hu hd h =>
      have hlog := refused_handled hu hd h
      exact absurd hf (not_firstFault hlog)
  | completed _ _ _ _ hrun _ hfin =>
    exact absurd hf (not_firstFault (hfin.handled (hrun.steady hrunning.steady)
      (hrun.handled hrunning.steady hstart)))

/-! ## The commit rule -/

theorem stepSize_ne (reg : Fin 8) (size : M68kSize) : stepSize reg size ≠ 0 := by
  unfold stepSize
  split
  · decide
  · cases size <;> decide

/-- MOVE keeps the commit rule, and so do the bytes and words at `-(An)`. -/
theorem stored_eq_committed_iff {writer : Writer} {mode : Fin 8} (hmode : mode = 3 ∨ mode = 4)
    (reg : Fin 8) (size : M68kSize) (base : U32) :
    stored writer mode reg size base = committed mode reg size base ↔
      writer = .move ∨ (mode = 4 ∧ size ≠ .long) := by
  have hne := stepSize_ne reg size
  unfold stored
  by_cases hwriter : writer = .move
  · rw [if_pos hwriter]
    exact ⟨fun _ => .inl hwriter, fun _ => rfl⟩
  · rw [if_neg hwriter]
    refine ⟨fun h => .inr ?_, fun h => ?_⟩
    · by_cases hc : mode = 4 ∧ size ≠ .long
      · exact hc
      · -- The register has moved and should not have.
        exfalso
        rw [committed, if_neg hc] at h
        rcases hmode with rfl | rfl
        · rw [stepped, if_pos rfl] at h
          exact hne (by bv_omega)
        · have hsub : base - stepSize reg size = base := h
          exact hne (by bv_omega)
    · rcases h with h | h
      · exact absurd h hwriter
      · rw [committed, if_pos h, stepped, if_neg (by rw [h.1]; decide), if_pos h.1]

/-- When a store faults, the register of `(An)+` has not moved, and that of `-(An)`
has moved exactly for bytes and words, if and only if the instruction is MOVE or the
operand a byte or word at `-(An)`. -/
theorem store_commits_iff (hs : Settled s) :
    ∃ t, step (Host.none σ) s = .ok () t ∧
      ∀ writer size mode reg v z address, Stores s writer size mode reg → (mode = 3 ∨ mode = 4) →
        FirstFault v .write z address t.log →
        (reg = 7 → s.supervisor = true → faultsInHandling t.log = false) →
        (beforeFrame reg s t = committed mode reg size (destBase writer reg size s) ↔
          writer = .move ∨ (mode = 4 ∧ size ≠ .long)) := by
  obtain ⟨t, ht, hst⟩ := stepEx_cases (k := none) (g := .of s.supervisor (opcodeAt s)) true
    hs.depth hs.depth (Grade.of_covers _ _) rfl
  refine ⟨t, ht, ?_⟩
  intro writer size mode reg v z address hstores hmode hf hcalm
  rw [hst.beforeFrame hs hstores hmode hf hcalm]
  exact stored_eq_committed_iff hmode reg size _

/-- ST (A0)+ with A0 at the end of a 4 KiB memory. -/
def sccUnmapped : M68kCpu Unit :=
  { init (fun a => if a = 0x100 then 0x50 else if a = 0x101 then 0xD8 else 0) 0x1000 () with
    sr := 0x2000
    aRegs := fun r => if r = 0 then 0x1000 else 0x800
    pc := 0x100 }

theorem sccUnmapped_settled : Settled sccUnmapped :=
  ⟨rfl, rfl, rfl, rfl, rfl, rfl, rfl, Nat.zero_le _, rfl⟩

theorem sccUnmapped_stores : Stores sccUnmapped .scc .byte 3 0 := .scc rfl rfl

/-- Its step takes a bus error with A0 incremented. -/
theorem sccUnmapped_run : (exec? (step (σ := Unit)) (Host.none Unit) sccUnmapped).map
    (fun t => (t.log, t.aRegs 0)) =
    some (.access .read .long 8 :: oddSourceEvents.tail ++ [.exception 2, .fault .write 0x1000,
      .access .write .byte 0x1000, .access .fetch .word 0x100], 0x1001) := by decide +kernel

theorem store_commits_iff_scc :
    ∃ t, step (Host.none Unit) sccUnmapped = .ok () t ∧
      (beforeFrame 0 sccUnmapped t = committed 3 0 .byte 0x1000 ↔
        Writer.scc = .move ∨ ((3 : Fin 8) = 4 ∧ M68kSize.byte ≠ .long)) := by
  obtain ⟨t, ht, hcommits⟩ := store_commits_iff sccUnmapped_settled
  have hrun := sccUnmapped_run
  simp only [exec?, ht, Option.map_some, Option.some.injEq, Prod.mk.injEq] at hrun
  exact ⟨t, ht, hcommits _ _ _ _ 2 .byte 0x1000 sccUnmapped_stores (.inl rfl) ⟨_, _, rfl, hrun.1⟩
    fun h => absurd h (by decide)⟩

/-- Scc commits the increment of a store that faults. -/
theorem scc_commits_increment :
    ¬∀ (s : M68kCpu Unit), Settled s → ∃ t, step (Host.none Unit) s = .ok () t ∧
      ∀ writer size mode reg v z address, Stores s writer size mode reg → (mode = 3 ∨ mode = 4) →
        FirstFault v .write z address t.log →
        (reg = 7 → s.supervisor = true → faultsInHandling t.log = false) →
        beforeFrame reg s t = committed mode reg size (destBase writer reg size s) := by
  intro hclaim
  obtain ⟨t, ht, hcommits⟩ := hclaim sccUnmapped sccUnmapped_settled
  have hrun := sccUnmapped_run
  simp only [exec?, ht, Option.map_some, Option.some.injEq, Prod.mk.injEq] at hrun
  obtain ⟨hlog, hreg⟩ := hrun
  have hkept : t.aRegs 0 = 0x1000 := hcommits _ _ _ _ 2 .byte 0x1000 sccUnmapped_stores (.inl rfl)
    ⟨_, _, rfl, hlog⟩ fun h => absurd h (by decide)
  rw [hreg] at hkept
  exact absurd hkept (by decide)

end M68k
