import Rocket68.Logic.Limbs
import Rocket68.Theorems.Arithmetic

/-!
# Multi-precision addition and subtraction

ADDX and SUBX in their memory form, limb after limb: X carries from one limb into the
next, Z collects zeros, and the last limb leaves the sign and the overflow of the whole.
-/

namespace M68k

open Trap TrapM Num

variable {σ : Type} {k : Option (Nat → M68kCpu σ → M68kCpu σ × U32)} {s t u v : M68kCpu σ}
  {size : M68kSize} {rx ry : Fin 8} {op : U16}

/-! ## One limb -/

theorem stepSize_ordinary {r : Fin 8} (hr : r ≠ 7) (size : M68kSize) :
    stepSize r size = size.bytes := by
  rw [stepSize, if_neg fun hstack => hr hstack.2]

theorem addxReadPredec_hit {r : Fin 8} (hr : r ≠ 7) (h : Fits s size (s.aRegs r - size.bytes)) :
    ∃ u, addxReadPredec r size (ackHost k) s =
        .ok (loadSized size s.memory (maskAddress24 (s.aRegs r - size.bytes))) u ∧
      Undisturbed s u ∧ u.memory = s.memory ∧
      u.aRegs = Function.update s.aRegs r (s.aRegs r - size.bytes) := by
  by_cases hsize : size = .long
  · subst hsize
    obtain ⟨hhigh, hlow, hmask⟩ := h.words
    have hlowest := read16_hit k hlow.accessible
    have hhighest := read16_hit (s := s.noted (.access .read .word (s.aRegs r - 4 + 2))) k
      (hhigh.of_memorySize rfl).accessible
    rw [loadSized, longAt_words, ← hmask]
    refine ⟨{ s with
      aRegs := Function.update s.aRegs r (s.aRegs r - 4)
      log := .access .read .word (s.aRegs r - 4) :: .access .read .word (s.aRegs r - 4 + 2) ::
        s.log }, ?_, ⟨rfl, rfl, rfl, rfl, rfl⟩, rfl, rfl⟩
    unfold addxReadPredec
    rw [if_pos rfl]
    simp only [getA, setA, gets_bind]
    exact (bind_ok hlowest).trans ((bind_ok hhighest).trans rfl)
  · let moved := { s with aRegs := Function.update s.aRegs r (s.aRegs r - size.bytes) }
    have hread := readSize_hit (k := k) (s := moved) (h.of_memorySize rfl).accessible
    refine ⟨moved.noted (.access .read size (s.aRegs r - size.bytes)), ?_,
      ⟨rfl, rfl, rfl, rfl, rfl⟩, rfl, rfl⟩
    unfold addxReadPredec
    rw [if_neg hsize]
    simp only [getA, setA, gets_bind, modify_bind, stepSize_ordinary hr, Function.update_self]
    exact hread

/-- Both operands of the memory form, read. -/
theorem addxOperands_hit (hx : rx ≠ 7) (hy : ry ≠ 7) (hne : rx ≠ ry)
    (hsrc : Fits s size (s.aRegs ry - size.bytes)) (hdest : Fits s size (s.aRegs rx - size.bytes)) :
    ∃ u, addxOperands rx ry size (ackHost k) s =
        .ok (loadSized size s.memory (maskAddress24 (s.aRegs ry - size.bytes)),
          loadSized size s.memory (maskAddress24 (s.aRegs rx - size.bytes))) u ∧
      Undisturbed s u ∧ u.memory = s.memory ∧
      u.aRegs = Function.update (Function.update s.aRegs ry (s.aRegs ry - size.bytes)) rx
        (s.aRegs rx - size.bytes) := by
  let latched := charged 6 { s with faultPc := s.pc + 2, faultPcValid := true }
  have hlatched : Undisturbed s latched := ⟨rfl, rfl, rfl, rfl, rfl⟩
  obtain ⟨t, hfirst, hkept, hmemory, haddress⟩ :=
    addxReadPredec_hit (k := k) (s := latched) hy (hsrc.of_memorySize rfl)
  have hrx : t.aRegs rx = s.aRegs rx := by
    rw [haddress]
    exact Function.update_of_ne hne _ _
  let paid := charged (if size = .long then 8 else 4) t
  have hpaid : Undisturbed t paid := ⟨rfl, rfl, rfl, rfl, rfl⟩
  have hsize : paid.memorySize = s.memorySize := hkept.memorySize
  have hfits : Fits paid size (paid.aRegs rx - size.bytes) := by
    show Fits paid size (t.aRegs rx - size.bytes)
    rw [hrx]
    exact hdest.of_memorySize hsize
  obtain ⟨u, hsecond, hkept', hmemory', haddress'⟩ := addxReadPredec_hit (k := k) hx hfits
  refine ⟨u, ?_, ((hlatched.trans hkept).trans hpaid).trans hkept', hmemory'.trans hmemory, ?_⟩
  · unfold addxOperands
    simp only [getPc, latchFaultPc, charge, gets_bind, modify_bind]
    refine (bind_ok hfirst).trans (modify_bind.trans ((bind_ok hsecond).trans ?_))
    show Outcome.ok (_, loadSized size t.memory (maskAddress24 (t.aRegs rx - size.bytes))) u = _
    rw [hrx, hmemory]
    rfl
  · rw [haddress']
    show Function.update t.aRegs rx (t.aRegs rx - size.bytes) = _
    rw [hrx, haddress]
    rfl

/-- The law of an extended instruction. -/
def extendedLaw (f : U32 → U32 → U32 → U32) (flags : U32 → U32 → U32 → M68kSize → U16 → U16)
    (size : M68kSize) : LimbLaw where
  result src dest c := f dest src (if c.x then 1 else 0)
  codes src dest c :=
    let result := f dest src (if c.x then 1 else 0)
    { ccr (flags src dest result size 0) with z := zeroSized size result && c.z }

section Law

variable {f : U32 → U32 → U32 → U32} {flags : U32 → U32 → U32 → M68kSize → U16 → U16}

/-- The memory form, where its operands are mapped. -/
theorem execExtended_hit (flags : U32 → U32 → U32 → M68kSize → U16 → U16)
    (hsize : sizeOf? (sizeBits op) = some size) (hmode : field op 3 = 1)
    (hx : field op 9 ≠ 7) (hy : field op 0 ≠ 7) (hne : field op 9 ≠ field op 0)
    (hsrc : Fits s size (s.aRegs (field op 0) - size.bytes))
    (hdest : Fits s size (s.aRegs (field op 9) - size.bytes)) {src dest result : U32}
    (hsource : limbBelow size s (field op 0) 0 = src)
    (hdestination : limbBelow size s (field op 9) 0 = dest)
    (hresult : f dest src (extendBit s.sr) = result) :
    ∃ u, execExtended f flags op (ackHost k) s = .ok () u ∧
      (u.pc = s.pc ∧ u.memorySize = s.memorySize ∧ u.exceptionThrown = s.exceptionThrown) ∧
      (∀ r, Lowers (field op 9) (some (field op 0)) r → u.aRegs r = s.aRegs r - size.bytes) ∧
      u.memory = storeSized size s.memory (maskAddress24 (s.aRegs (field op 9) - size.bytes))
        result ∧
      u.sr = keepZ size result s.sr (flags src dest result size s.sr) := by
  rw [limbBelow_zero] at hsource hdestination
  have hform : op.getLsbD 3 = true := by
    rw [memoryForm_eq, hmode]
    rfl
  obtain ⟨v, hread, hkept, hmemory, haddress⟩ := addxOperands_hit (k := k) hx hy hne hsrc hdest
  have hrx : v.aRegs (field op 9) = s.aRegs (field op 9) - size.bytes := by
    rw [haddress]
    exact Function.update_self _ _ _
  rw [← hkept.sr] at hresult
  have hwrite := writeSize_hit (k := k) result (hdest.of_memorySize hkept.memorySize).accessible
  refine ⟨{ v.noted (.access .write size (s.aRegs (field op 9) - size.bytes)) with
    memory := storeSized size v.memory (maskAddress24 (s.aRegs (field op 9) - size.bytes)) result
    sr := keepZ size result v.sr (flags src dest result size v.sr) }, ?_,
    ⟨hkept.pc, hkept.memorySize, hkept.thrown⟩, ?_, ?_, ?_⟩
  · unfold execExtended
    dsimp only
    rw [hsize, hform]
    dsimp only
    rw [if_pos rfl, bind_ok hread]
    simp only [getSr, getA, gets_bind, hrx, hsource, hdestination, hresult]
    exact (bind_ok hwrite).trans rfl
  · rintro r (rfl | hr)
    · exact hrx
    · cases hr
      show v.aRegs _ = _
      rw [haddress, Function.update_of_ne (Ne.symm hne)]
      exact Function.update_self _ _ _
  · rw [← hmemory]
  · rw [← hkept.sr]

theorem execExtended_follows {cycles : Int}
    (hdispatch : (dispatch op : M σ Int) = costed (execExtended f flags op) cycles)
    (hsize : sizeOf? (sizeBits op) = some size) (hmode : field op 3 = 1)
    (hx : field op 9 ≠ 7) (hy : field op 0 ≠ 7) (hne : field op 9 ≠ field op 0)
    (hflags : ∀ src dest result sr,
      ccr (flags src dest result size sr) = ccr (flags src dest result size 0)) :
    FollowsLaw k op (extendedLaw f flags size) size (field op 9) (some (field op 0)) := by
  intro s hexec hfits
  obtain ⟨u, hrun, ⟨hpc, hmemorySize, hthrown⟩, hlowered, hmemory, hsr⟩ :=
    execExtended_hit (k := k) (s := fetched s) flags hsize hmode hx hy hne
      ((hfits _ (.inr rfl)).of_memorySize rfl) ((hfits _ (.inl rfl)).of_memorySize rfl) rfl rfl rfl
  have hstep := hexec.step ((hdispatch ▸ costed_ok hrun cycles :)) hthrown
    (by rw [hpc]; exact hexec.even)
  refine ⟨_, hstep, hlowered, hmemory, hmemorySize, ?_⟩
  show ccr u.sr = _
  rw [hsr, ccr_keepZ, hflags]
  rfl

end Law

/-! ## The whole numbers -/

section Whole

variable {a : Arithmetic}

/-- The instruction is ADDX -(Ay),-(Ax) or SUBX -(Ay),-(Ax). -/
structure MemoryForm (a : Arithmetic) (op : U16) (size : M68kSize) (rx ry : Fin 8) : Prop where
  line : a = .addx ∧ lineOf op = 0xD ∨ a = .subx ∧ lineOf op = 9
  form : regToEa (field op 6) = true
  size : sizeOf? (sizeBits op) = some size
  mode : field op 3 = 1
  rx : field op 9 = rx
  ry : field op 0 = ry

/-- The law of the instruction. -/
def Arithmetic.law (a : Arithmetic) (size : M68kSize) : LimbLaw :=
  if a.subtracts then extendedLaw (fun d s x => d - s - x) flagsSub size
  else extendedLaw (fun d s x => d + s + x) flagsAdd size

theorem MemoryForm.follows (hop : MemoryForm a op size rx ry) (hx : rx ≠ 7) (hy : ry ≠ 7)
    (hne : rx ≠ ry) : FollowsLaw k op (a.law size) size rx (some ry) := by
  obtain ⟨hline, hform, hsize, hmode, rfl, rfl⟩ := hop
  rcases hline with ⟨rfl, hline⟩ | ⟨rfl, hline⟩
  · refine execExtended_follows
      ((dispatch_lineD hline).trans (lineAddSub_extended hform (.inr hmode))) hsize hmode hx hy hne
      fun src dest result sr => ?_
    rw [ccr_flagsAdd, ccr_flagsAdd]
  · refine execExtended_follows
      ((dispatch_line9 hline).trans (lineAddSub_extended hform (.inr hmode))) hsize hmode hx hy hne
      fun src dest result sr => ?_
    rw [ccr_flagsSub, ccr_flagsSub]

/-- The relation of operands, carries and result. -/
def Arithmetic.relation (a : Arithmetic) : Nat → Nat → Nat → Bool → Nat → Bool → Prop :=
  if a.subtracts then Differs else Sums

theorem Arithmetic.relation_chains (a : Arithmetic) : Chains a.relation := by
  unfold Arithmetic.relation
  cases a.subtracts with
  | false => exact Sums.chains
  | true => exact Differs.chains

/-- Signed overflow as the three signs show it. -/
def Arithmetic.signOverflow (a : Arithmetic) (d s r : Bool) : Bool :=
  if a.subtracts then (!s && d && !r) || (s && !d && r) else (s && d && !r) || (!s && !d && r)

/-- The condition codes of a limb. -/
structure LimbCodes (a : Arithmetic) (h d s r : Nat) (before after : Ccr) : Prop where
  related : a.relation (2 * h) d s before.x r after.x
  carry : after.c = after.x
  negative : after.n = Num.negative h r
  zero : after.z = (decide (r = 0) && before.z)
  overflow : after.v = a.signOverflow (Num.negative h d) (Num.negative h s) (Num.negative h r)

theorem Arithmetic.law_codes (a : Arithmetic) (size : M68kSize) (src dest : U32) (c : Ccr) :
    LimbCodes a size.half (low size dest) (low size src) (low size ((a.law size).result src dest c))
      c ((a.law size).codes src dest c) := by
  unfold Arithmetic.law
  cases hs : a.subtracts with
  | false =>
    have H := adds size dest src c.x
    have hcarry := H.carry_eq
    rw [← signBit_eq, ← signBit_eq, ← signBit_eq] at hcarry
    simp only [Bool.false_eq_true, if_false, extendedLaw, ccr_flagsAdd]
    refine ⟨?_, rfl, signBit_eq _ _, ?_, ?_⟩
    · rw [Arithmetic.relation, hs, if_neg Bool.false_ne_true]
      rw [hcarry] at H
      exact H.sums
    · rw [zeroSized_eq]
    · rw [Arithmetic.signOverflow, hs, if_neg Bool.false_ne_true, ← signBit_eq, ← signBit_eq,
        ← signBit_eq]
  | true =>
    have H := M68k.subtracts size dest src c.x
    have hborrow := H.borrow_eq
    rw [← signBit_eq, ← signBit_eq, ← signBit_eq] at hborrow
    simp only [if_true, extendedLaw, ccr_flagsSub, subBorrow, subOverflow]
    refine ⟨?_, rfl, signBit_eq _ _, ?_, ?_⟩
    · rw [Arithmetic.relation, hs, if_pos rfl]
      rw [hborrow] at H
      exact H.differs
    · rw [zeroSized_eq]
    · rw [Arithmetic.signOverflow, hs, if_pos rfl, ← signBit_eq, ← signBit_eq, ← signBit_eq]

/-- Limbs that hand on their condition codes are one long limb. -/
theorem LimbCodes.chain {h n : Nat} {d s r : Nat → Nat} {c : Nat → Ccr} (hh : 0 < h)
    (H : ∀ j, j < n + 1 → LimbCodes a h (d j) (s j) (r j) (c j) (c (j + 1)))
    (hd : ∀ j, j < n → d j < 2 * h) (hs : ∀ j, j < n → s j < 2 * h)
    (hr : ∀ j, j < n → r j < 2 * h) :
    LimbCodes a (h * (2 * h) ^ n) (little (2 * h) d (n + 1)) (little (2 * h) s (n + 1))
      (little (2 * h) r (n + 1)) (c 0) (c (n + 1)) := by
  have hlast := H n (Nat.lt_succ_self n)
  have hwide : 2 * (h * (2 * h) ^ n) = (2 * h) ^ (n + 1) := by
    rw [pow_succ', Nat.mul_assoc]
  have hsign {e : Nat → Nat} (he : ∀ j, j < n → e j < 2 * h) :
      Num.negative (h * (2 * h) ^ n) (little (2 * h) e (n + 1)) = Num.negative h (e n) := by
    rw [little]
    exact negative_append (little_lt he)
  have hzero := little_sticky (z := fun j => (c j).z) (show 0 < 2 * h by omega)
    fun j hj => (H j hj).zero
  refine ⟨?_, hlast.carry, ?_, hzero, ?_⟩
  · rw [hwide]
    exact a.relation_chains.run fun j hj => (H j hj).related
  · rw [hlast.negative, hsign hr]
  · rw [hlast.overflow, hsign hd, hsign hs, hsign hr]

/-- An operand of the walk is a whole limb. -/
theorem Laid.low_limbBelow {n j : Nat} {src : Option (Fin 8)} {r : Fin 8}
    (hl : Laid s size rx src n) (hr : Lowers rx src r) (hj : j < n) :
    low size (M68k.limbBelow size s r j) =
      numberAt s.memory (limbPlace size (s.aRegs r) n (j + 1)) size.count := by
  have hlt := numberAt_lt s.memory (limbPlace size (s.aRegs r) n (j + 1)) size.count
  rw [width_eq, ← two_pow_width] at hlt
  rw [low, hl.limbBelow hr hj, Nat.mod_eq_of_lt hlt]

/-- The condition codes after the walk are those of the whole numbers. -/
theorem Walked.whole {n : Nat} (hl : Laid s size rx (some ry) (n + 1))
    (hw : Walked (a.law size) size rx (some ry) s (n + 1) (n + 1) t) :
    LimbCodes a (size.half * (256 ^ size.count) ^ n)
      (numberAt s.memory (start (s.aRegs rx) ((n + 1) * size.count)) ((n + 1) * size.count))
      (numberAt s.memory (start (s.aRegs ry) ((n + 1) * size.count)) ((n + 1) * size.count))
      (numberAt t.memory (start (s.aRegs rx) ((n + 1) * size.count)) ((n + 1) * size.count))
      (ccr s.sr) (ccr t.sr) := by
  have hlimb (m : U32 → U8) (b : U32) (j : Nat) :
      numberAt m (limbPlace size b (n + 1) (j + 1)) size.count < 2 * size.half := by
    rw [← width_eq]
    exact numberAt_lt _ _ _
  -- each limb obeys the law; the chain of carries does the rest
  have hcodes (j : Nat) (hj : j < n + 1) : LimbCodes a size.half
      (numberAt s.memory (limbPlace size (s.aRegs rx) (n + 1) (j + 1)) size.count)
      (numberAt s.memory (limbPlace size (s.aRegs ry) (n + 1) (j + 1)) size.count)
      (numberAt t.memory (limbPlace size (s.aRegs rx) (n + 1) (j + 1)) size.count)
      (codesAfter (a.law size) size rx (some ry) s j)
      (codesAfter (a.law size) size rx (some ry) s (j + 1)) := by
    rw [← hl.low_limbBelow (.inl rfl) hj, ← hl.low_limbBelow (.inr rfl) hj, hw.limbs j hj]
    exact a.law_codes size _ _ _
  have hwhole := LimbCodes.chain (half_pos size) hcodes (fun j _ => hlimb _ _ j)
    (fun j _ => hlimb _ _ j) fun j _ => hlimb _ _ j
  rw [← width_eq] at hwhole
  have hnumber (m : U32 → U8) (b : U32) := value_limbs 256 (byteAt m) size b (Nat.le_refl (n + 1))
  simp only [limbPlace_last] at hnumber
  rw [hw.codes, numberAt, numberAt, numberAt, hnumber, hnumber, hnumber]
  exact hwhole

/-- What a sum or difference of two numbers below `2 * h` leaves, read unsigned and in two's
complement. -/
structure Multiprecise (a : Arithmetic) (h d s r : Nat) (after : Ccr) : Prop where
  value : (r : Int) = a.exact d s false % (2 * h)
  carry : after.c = true ↔ ¬(0 ≤ a.exact d s false ∧ a.exact d s false < 2 * h)
  extend : after.x = after.c
  zero : after.z = true ↔ r = 0
  negative : after.n = true ↔ signed h r < 0
  overflow : after.v = true ↔ ¬(-(h : Int) ≤ a.exact (signed h d) (signed h s) false ∧
    a.exact (signed h d) (signed h s) false < h)

theorem negative_iff {h v : Nat} (hv : v < 2 * h) : Num.negative h v = true ↔ signed h v < 0 := by
  rw [Num.negative, signed, decide_eq_true_eq]
  split <;> omega

/-- Codes of one limb, when X was clear and Z set. -/
theorem LimbCodes.multiprecise {h d s r : Nat} {before after : Ccr}
    (H : LimbCodes a h d s r before after) (hx : before.x = false) (hz : before.z = true) :
    Multiprecise a h d s r after := by
  obtain ⟨hrelated, hcarry, hnegative, hzero, hoverflow⟩ := H
  rw [hx] at hrelated
  rw [hz, Bool.and_true] at hzero
  have hzero' : after.z = true ↔ r = 0 := by rw [hzero, decide_eq_true_eq]
  cases hs : a.subtracts with
  | false =>
    have hexact (d s : Int) : a.exact d s false = d + s := by simp [Arithmetic.exact, hs]
    rw [Arithmetic.relation, hs, if_neg Bool.false_ne_true] at hrelated
    rw [Arithmetic.signOverflow, hs, if_neg Bool.false_ne_true] at hoverflow
    have hvalue := hrelated.mod_eq
    have hover := hrelated.adds.overflow_iff
    rw [← hoverflow, Bool.toNat_false, Nat.cast_zero, Int.add_zero] at hover
    refine ⟨?_, ?_, hcarry.symm, hzero', ?_, ?_⟩
    · rw [hexact, hvalue, Bool.toNat_false, Nat.add_zero]
      exact_mod_cast rfl
    · rw [hexact, hcarry, hrelated.carry_iff, Bool.toNat_false]
      omega
    · rw [hnegative, negative_iff hrelated.result]
    · rw [hexact]
      exact hover
  | true =>
    have hexact (d s : Int) : a.exact d s false = d - s := by simp [Arithmetic.exact, hs]
    rw [Arithmetic.relation, hs, if_pos rfl] at hrelated
    rw [Arithmetic.signOverflow, hs, if_pos rfl] at hoverflow
    have hvalue := hrelated.mod_eq
    have hover := hrelated.subtracts.overflow_iff
    have hdest := hrelated.dest
    rw [← hoverflow, Bool.toNat_false, Nat.cast_zero, Int.sub_zero] at hover
    refine ⟨?_, ?_, hcarry.symm, hzero', ?_, ?_⟩
    · rw [hexact, hvalue, Bool.toNat_false, Nat.cast_zero, Int.sub_zero]
      rfl
    · rw [hexact, hcarry, hrelated.borrow_iff, Bool.toNat_false]
      omega
    · rw [hnegative, negative_iff hrelated.result]
    · rw [hexact]
      exact hover

/-- **Multi-precision ADDX and SUBX.** As many executions as the numbers have limbs, begun
with X clear and Z set, leave the sum or difference of the whole numbers with the condition
codes of the whole, lower both registers past them, and write nothing else. -/
theorem multiprecision_exact {n : Nat} (hop : MemoryForm a op size rx ry) (hx : rx ≠ 7)
    (hy : ry ≠ 7) (hne : rx ≠ ry) (hn : 1 ≤ n) (hl : Laid s size rx (some ry) n)
    (hextend : (ccr s.sr).x = false) (hzero : (ccr s.sr).z = true)
    (hrun : Executions k op rx (some ry) s n t) :
    Multiprecise a (256 ^ (n * size.count) / 2)
      (numberAt s.memory (start (s.aRegs rx) (n * size.count)) (n * size.count))
      (numberAt s.memory (start (s.aRegs ry) (n * size.count)) (n * size.count))
      (numberAt t.memory (start (s.aRegs rx) (n * size.count)) (n * size.count)) (ccr t.sr) ∧
    t.aRegs rx = s.aRegs rx - BitVec.ofNat 32 (n * size.count) ∧
    t.aRegs ry = s.aRegs ry - BitVec.ofNat 32 (n * size.count) ∧
    SameOutside s.memory t.memory (start (s.aRegs rx) (n * size.count)) (n * size.count) := by
  have hw := hrun.walked hl (hop.follows hx hy hne) (Nat.le_refl n)
  refine ⟨?_, hw.lowered rx (.inl rfl), hw.lowered ry (.inr rfl), ?_⟩
  · obtain ⟨m, rfl⟩ : ∃ m, n = m + 1 := ⟨n - 1, by omega⟩
    have hhalf : 256 ^ ((m + 1) * size.count) / 2 = size.half * (256 ^ size.count) ^ m := by
      rw [Nat.mul_comm, pow_mul, pow_succ', width_eq, Nat.mul_assoc,
        Nat.mul_div_cancel_left _ (by decide)]
    rw [hhalf]
    exact (hw.whole hl).multiprecise hextend hzero
  · rw [← limbPlace_last size]
    exact hw.outside

/-- ADDX.W -(A1),-(A0), twice, on 0x0001FFFF and 1. -/
def carryProgram : M68kCpu Unit :=
  { init (fun a => if a = 0x100 ∨ a = 0x102 then 0xD1 else if a = 0x101 ∨ a = 0x103 then 0x49 else
      if a = 0x1001 ∨ a = 0x2003 then 1 else if a = 0x1002 ∨ a = 0x1003 then 0xFF else 0)
      0x3000 () with
    sr := 0x2704
    aRegs := fun r => if r = 0 then 0x1004 else 0x2004
    pc := 0x100 }

theorem carryProgram_executions : ∃ t, Executions none 0xD149 0 (some 1) carryProgram 2 t :=
  Executions.two ⟨rfl, rfl, rfl, rfl, rfl, rfl⟩ (by decide +kernel) (by decide +kernel)

theorem carryProgram_laid : Laid carryProgram .word 0 (some 1) 2 := by
  refine ⟨?_, ?_, ?_⟩
  · rintro r (rfl | hr)
    · exact ⟨by decide, by decide⟩
    · cases hr
      exact ⟨by decide, by decide⟩
  · rintro r hr
    cases hr
    decide
  · rintro r (rfl | hr)
    · decide
    · cases hr
      decide

theorem multiprecision_exact_addx : ∃ t, Executions none 0xD149 0 (some 1) carryProgram 2 t ∧
    Multiprecise .addx (256 ^ 4 / 2) (numberAt carryProgram.memory 0x1000 4)
      (numberAt carryProgram.memory 0x2000 4) (numberAt t.memory 0x1000 4) (ccr t.sr) := by
  obtain ⟨t, hrun⟩ := carryProgram_executions
  have hform : MemoryForm .addx 0xD149 .word 0 1 := ⟨.inl ⟨rfl, rfl⟩, rfl, rfl, rfl, rfl, rfl⟩
  have hplace : start (carryProgram.aRegs 0) (2 * M68kSize.word.count) = 0x1000 := by decide
  have hplace' : start (carryProgram.aRegs 1) (2 * M68kSize.word.count) = 0x2000 := by decide
  have hexact := (multiprecision_exact hform (by decide) (by decide) (by decide) (by decide)
    carryProgram_laid rfl rfl hrun).1
  rw [hplace, hplace'] at hexact
  exact ⟨t, hrun, hexact⟩

end Whole

end M68k
