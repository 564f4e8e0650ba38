import Rocket68.Logic.Instruction
import Rocket68.Logic.Region

/-!
# Numbers of several limbs

An instruction with predecremented operands, executed again and again, walks down the
regions below its registers limb by limb and carries its condition codes from limb to
limb. The walk is followed once, for any instruction that treats one limb as a function
of the two operands and the condition codes.
-/

namespace M68k

open Trap TrapM Num

variable {σ : Type} {k : Option (Nat → M68kCpu σ → M68kCpu σ × U32)} {s t u : M68kCpu σ}
  {size : M68kSize} {rx : Fin 8} {ry : Option (Fin 8)}

/-! ## Regions below a register -/

/-- The place `n` bytes below an address. -/
def start (a : U32) (n : Nat) : Nat := (maskAddress24 (a - BitVec.ofNat 32 n)).toNat

theorem start_add {a : U32} {n j : Nat} (hbus : start a n + n ≤ 2 ^ 24) (hj : j ≤ n)
    (hpos : 0 < j) : start a j = start a n + (n - j) := by
  have hmod (i : Nat) (hi : i ≤ 2 ^ 24) : start a i = (2 ^ 32 - i + a.toNat) % 2 ^ 24 := by
    have hsmall : i % 2 ^ 32 = i := Nat.mod_eq_of_lt (by omega)
    rw [start, maskAddress24_toNat, BitVec.toNat_sub, BitVec.toNat_ofNat, hsmall]
    omega
  rw [hmod n (by omega)] at hbus ⊢
  rw [hmod j (by omega)]
  omega

/-- The place of the operand `j` limbs down, in a region of `n` limbs. -/
def limbPlace (size : M68kSize) (a : U32) (n j : Nat) : Nat :=
  start a (n * size.count) + (n - j) * size.count

theorem limbPlace_succ (size : M68kSize) (a : U32) {n j : Nat} (hj : j < n) :
    limbPlace size a n (j + 1) + size.count = limbPlace size a n j := by
  have hsub : n - j = n - (j + 1) + 1 := by omega
  rw [limbPlace, limbPlace, hsub, Nat.succ_mul, Nat.add_assoc]

theorem sub_ofNat (a : U32) (i j : Nat) :
    a - BitVec.ofNat 32 i - BitVec.ofNat 32 j = a - BitVec.ofNat 32 (i + j) := by
  apply BitVec.eq_of_toNat_eq
  simp only [BitVec.toNat_sub, BitVec.toNat_ofNat]
  omega

/-- The operands stay aligned down the region. -/
theorem aligned_sub {a : U32} (heven : size = .byte ∨ isOdd a = false) (j : Nat) :
    size = .byte ∨ isOdd (a - BitVec.ofNat 32 (j * size.count)) = false := by
  rcases heven with hbyte | heven
  · exact .inl hbyte
  · cases size with
    | byte => exact .inl rfl
    | word | long =>
      right
      rw [isOdd_toNat, decide_eq_false_iff_not] at heven ⊢
      simp only [BitVec.toNat_sub, BitVec.toNat_ofNat, M68kSize.count]
      omega

/-! ## One limb -/

/-- The registers that `op -(Ay),-(Ax)`, or `op -(Ax)` alone, lowers. -/
def Lowers (rx : Fin 8) (ry : Option (Fin 8)) (r : Fin 8) : Prop := r = rx ∨ ry = some r

/-- The operand `j + 1` limbs below a register. -/
def limbBelow (size : M68kSize) (s : M68kCpu σ) (r : Fin 8) (j : Nat) : U32 :=
  loadSized size s.memory (maskAddress24 (s.aRegs r - BitVec.ofNat 32 ((j + 1) * size.count)))

theorem limbBelow_zero (size : M68kSize) (s : M68kCpu σ) (r : Fin 8) :
    limbBelow size s r 0 = loadSized size s.memory (maskAddress24 (s.aRegs r - size.bytes)) := by
  rw [limbBelow, Nat.zero_add, Nat.one_mul, ← bytes_eq]

/-- The same, where there may be no register. -/
def sourceBelow (size : M68kSize) (s : M68kCpu σ) (j : Nat) : Option (Fin 8) → U32
  | none => 0
  | some r => limbBelow size s r j

/-- What an instruction makes of a limb: the result and the condition codes, from the
source, the destination and the condition codes before. -/
structure LimbLaw where
  result : U32 → U32 → Ccr → U32
  codes : U32 → U32 → Ccr → Ccr

/-- One limb done. -/
structure LimbDone (law : LimbLaw) (size : M68kSize) (rx : Fin 8) (ry : Option (Fin 8))
    (s u : M68kCpu σ) : Prop where
  lowered : ∀ r, Lowers rx ry r → u.aRegs r = s.aRegs r - size.bytes
  memory : u.memory = storeSized size s.memory (maskAddress24 (s.aRegs rx - size.bytes))
    (law.result (sourceBelow size s 0 ry) (limbBelow size s rx 0) (ccr s.sr))
  memorySize : u.memorySize = s.memorySize
  codes : ccr u.sr = law.codes (sourceBelow size s 0 ry) (limbBelow size s rx 0) (ccr s.sr)

/-- The instruction follows the law wherever its operands are mapped. -/
def FollowsLaw (k : Option (Nat → M68kCpu σ → M68kCpu σ × U32)) (op : U16) (law : LimbLaw)
    (size : M68kSize) (rx : Fin 8) (ry : Option (Fin 8)) : Prop :=
  ∀ s : M68kCpu σ, Executes op s →
    (∀ r, Lowers rx ry r → Fits s size (s.aRegs r - size.bytes)) →
    ∃ u, step (ackHost k) s = .ok () u ∧ LimbDone law size rx ry s u

/-! ## Executions -/

/-- Between two executions other code may run, as the branch of a loop does, as long as it
leaves the operands alone. -/
structure Resumes (rx : Fin 8) (ry : Option (Fin 8)) (s u : M68kCpu σ) : Prop where
  registers : ∀ r, Lowers rx ry r → u.aRegs r = s.aRegs r
  memory : u.memory = s.memory
  memorySize : u.memorySize = s.memorySize
  codes : ccr u.sr = ccr s.sr

theorem Resumes.refl (rx : Fin 8) (ry : Option (Fin 8)) (s : M68kCpu σ) : Resumes rx ry s s :=
  ⟨fun _ _ => rfl, rfl, rfl, rfl⟩

/-- So many executions of an instruction. -/
inductive Executions (k : Option (Nat → M68kCpu σ → M68kCpu σ × U32)) (op : U16) (rx : Fin 8)
    (ry : Option (Fin 8)) (s : M68kCpu σ) : Nat → M68kCpu σ → Prop
  | none : Executions k op rx ry s 0 s
  | next {n : Nat} {t v u : M68kCpu σ} (hrun : Executions k op rx ry s n t)
      (hresume : Resumes rx ry t v) (hx : Executes op v) (hstep : step (ackHost k) v = .ok () u) :
      Executions k op rx ry s (n + 1) u

/-- Two executions in a row, as they are computed. -/
theorem Executions.two {op : U16} {rx : Fin 8} {ry : Option (Fin 8)} {s : M68kCpu Unit}
    (hs : Executes op s)
    (hready : (exec? (step (σ := Unit)) (Host.none Unit) s).map
      (fun t => (t.exceptionDepth, t.stopped, interruptDue t, t.traced, accessible t .word t.pc,
        opcodeAt t)) = some (0, false, false, false, true, op))
    (hnext : ((exec? (step (σ := Unit)) (Host.none Unit) s).bind
      (exec? step (Host.none Unit))).isSome = true) :
    ∃ t, Executions Option.none op rx ry s 2 t := by
  cases ht : exec? (step (σ := Unit)) (Host.none Unit) s with
  | none =>
    rw [ht] at hready
    cases hready
  | some t =>
    rw [ht] at hready hnext
    obtain ⟨u, hu⟩ := Option.isSome_iff_exists.mp hnext
    simp only [Option.map_some, Option.some.injEq, Prod.mk.injEq] at hready
    obtain ⟨hdepth, hgoing, hdue, htraced, hmapped, hopcode⟩ := hready
    exact ⟨u, .next (.next .none (.refl _ _ _) hs (ok_of_exec? ht)) (.refl _ _ _)
      ⟨hdepth, hgoing, hdue, htraced, hmapped, hopcode⟩ (ok_of_exec? hu)⟩

/-- The operands of so many executions: mapped, apart and aligned. -/
structure Laid (s : M68kCpu σ) (size : M68kSize) (rx : Fin 8) (ry : Option (Fin 8)) (n : Nat) :
    Prop where
  mapped : ∀ r, Lowers rx ry r → Region s (start (s.aRegs r) (n * size.count)) (n * size.count)
  apart : ∀ r, ry = some r →
    start (s.aRegs r) (n * size.count) + n * size.count ≤ start (s.aRegs rx) (n * size.count) ∨
    start (s.aRegs rx) (n * size.count) + n * size.count ≤ start (s.aRegs r) (n * size.count)
  aligned : ∀ r, Lowers rx ry r → size = .byte ∨ isOdd (s.aRegs r) = false

/-- The condition codes after so many limbs. -/
def codesAfter (law : LimbLaw) (size : M68kSize) (rx : Fin 8) (ry : Option (Fin 8))
    (s : M68kCpu σ) : Nat → Ccr
  | 0 => ccr s.sr
  | j + 1 => law.codes (sourceBelow size s j ry) (limbBelow size s rx j)
      (codesAfter law size rx ry s j)

/-- The result of a limb. -/
def limbResult (law : LimbLaw) (size : M68kSize) (rx : Fin 8) (ry : Option (Fin 8))
    (s : M68kCpu σ) (j : Nat) : U32 :=
  law.result (sourceBelow size s j ry) (limbBelow size s rx j) (codesAfter law size rx ry s j)

/-- After `j` of `n` limbs: each of them holds its result, and the codes have passed
through all. -/
structure Walked (law : LimbLaw) (size : M68kSize) (rx : Fin 8) (ry : Option (Fin 8))
    (s : M68kCpu σ) (n j : Nat) (t : M68kCpu σ) : Prop where
  lowered : ∀ r, Lowers rx ry r → t.aRegs r = s.aRegs r - BitVec.ofNat 32 (j * size.count)
  outside : SameOutside s.memory t.memory (limbPlace size (s.aRegs rx) n j) (j * size.count)
  memorySize : t.memorySize = s.memorySize
  codes : ccr t.sr = codesAfter law size rx ry s j
  limbs : ∀ i, i < j → numberAt t.memory (limbPlace size (s.aRegs rx) n (i + 1)) size.count =
    low size (limbResult law size rx ry s i)

/-! ## The walk -/

section Walk

variable {law : LimbLaw} {n j : Nat} {op : U16} {r : Fin 8}

theorem Walked.none (law : LimbLaw) (size : M68kSize) (rx : Fin 8) (ry : Option (Fin 8))
    (s : M68kCpu σ) (n : Nat) : Walked law size rx ry s n 0 s := by
  refine ⟨fun r _ => ?_, fun _ _ _ => rfl, rfl, rfl, fun i hi => absurd hi (Nat.not_lt_zero i)⟩
  rw [Nat.zero_mul, BitVec.sub_zero]

/-- Where the next operand is. -/
theorem Laid.place (hl : Laid s size rx ry n) (hr : Lowers rx ry r) (hj : j < n) :
    (maskAddress24 (s.aRegs r - BitVec.ofNat 32 ((j + 1) * size.count))).toNat =
      limbPlace size (s.aRegs r) n (j + 1) := by
  have hpos := Nat.mul_pos (Nat.succ_pos j) (count_pos size)
  show start _ _ = _
  rw [start_add (hl.mapped r hr).2 (Nat.mul_le_mul_right _ hj) hpos, limbPlace, Nat.sub_mul]

/-- A region read as one number, or as one limb after the other. -/
theorem value_limbs (B : Nat) (d : Nat → Nat) (size : M68kSize) (a : U32) {n j : Nat} (hj : j ≤ n) :
    value B d (limbPlace size a n j) (j * size.count) =
      little (B ^ size.count) (fun i => value B d (limbPlace size a n (i + 1)) size.count) j := by
  induction j with
  | zero =>
    rw [Nat.zero_mul]
    rfl
  | succ j ih =>
    have hsplit : (j + 1) * size.count = size.count + j * size.count := by
      rw [Nat.succ_mul, Nat.add_comm]
    rw [hsplit, value_add, limbPlace_succ size a hj, ih (by omega), little, ← pow_mul,
      Nat.mul_comm size.count]

theorem limbPlace_last (size : M68kSize) (a : U32) (n : Nat) :
    limbPlace size a n n = start a (n * size.count) := by
  rw [limbPlace, Nat.sub_self, Nat.zero_mul, Nat.add_zero]

theorem limbPlace_top (size : M68kSize) (a : U32) {n j : Nat} (hj : j ≤ n) :
    limbPlace size a n j + j * size.count = start a (n * size.count) + n * size.count := by
  rw [limbPlace, Nat.add_assoc, ← Nat.add_mul, Nat.sub_add_cancel hj]

/-- The place of an operand, within its region. -/
theorem limbPlace_le (size : M68kSize) (a : U32) {n j : Nat} (hj : j < n) :
    start a (n * size.count) ≤ limbPlace size a n (j + 1) ∧
      limbPlace size a n (j + 1) + size.count ≤ start a (n * size.count) + n * size.count := by
  have hle : (n - j) * size.count ≤ n * size.count := Nat.mul_le_mul_right _ (Nat.sub_le n j)
  rw [limbPlace_succ size a hj, limbPlace, limbPlace]
  omega

theorem Laid.fits (hl : Laid s size rx ry n) (hr : Lowers rx ry r) (hj : j < n) :
    Fits s size (s.aRegs r - BitVec.ofNat 32 ((j + 1) * size.count)) := by
  obtain ⟨hsize, hbus⟩ := hl.mapped r hr
  have hplace := limbPlace_le size (s.aRegs r) hj
  refine ⟨?_, aligned_sub (hl.aligned r hr) (j + 1)⟩
  rw [hl.place hr hj]
  constructor <;> omega

/-- The operands of the next execution are those that stood there at first. -/
theorem Walked.limbBelow (hw : Walked law size rx ry s n j t) (hl : Laid s size rx ry n)
    (hr : Lowers rx ry r) (hj : j < n) (hresume : Resumes rx ry t u) :
    M68k.limbBelow size u r 0 = M68k.limbBelow size s r j := by
  have haddress : u.aRegs r - BitVec.ofNat 32 ((0 + 1) * size.count) =
      s.aRegs r - BitVec.ofNat 32 ((j + 1) * size.count) := by
    rw [hresume.registers r hr, hw.lowered r hr, sub_ofNat, Nat.zero_add, Nat.one_mul,
      Nat.succ_mul]
  have hplace := limbPlace_le size (s.aRegs r) hj
  have hbus := (hl.mapped r hr).2
  apply BitVec.eq_of_toNat_eq
  rw [M68k.limbBelow, M68k.limbBelow, haddress, hresume.memory, loadSized_toNat (hl.place hr hj),
    loadSized_toNat (hl.place hr hj)]
  apply numberAt_same hw.outside (by omega)
  rcases hr with rfl | hsource
  · left
    rw [limbPlace_succ size _ hj]
  · have hdown := limbPlace_le size (s.aRegs rx) hj
    have hnext := limbPlace_succ size (s.aRegs rx) hj
    have htop := limbPlace_top size (s.aRegs rx) (Nat.le_of_lt hj)
    have hapart := hl.apart r hsource
    omega

theorem Walked.sourceBelow (hw : Walked law size rx ry s n j t) (hl : Laid s size rx ry n)
    (hj : j < n) (hresume : Resumes rx ry t u) :
    M68k.sourceBelow size u 0 ry = M68k.sourceBelow size s j ry := by
  cases hry : ry with
  | none => rfl
  | some r => exact hw.limbBelow hl (.inr hry) hj hresume

/-- One more limb. -/
theorem Walked.next {v : M68kCpu σ} (hw : Walked law size rx ry s n j t)
    (hl : Laid s size rx ry n) (hj : j < n) (hresume : Resumes rx ry t v)
    (hdone : LimbDone law size rx ry v u) : Walked law size rx ry s n (j + 1) u := by
  have hlowered (r : Fin 8) (hr : Lowers rx ry r) :
      v.aRegs r - size.bytes = s.aRegs r - BitVec.ofNat 32 ((j + 1) * size.count) := by
    rw [hresume.registers r hr, hw.lowered r hr, bytes_eq, sub_ofNat, Nat.succ_mul]
  have hcodes : ccr v.sr = codesAfter law size rx ry s j := hresume.codes.trans hw.codes
  have hmemory : u.memory = storeSized size t.memory
      (maskAddress24 (s.aRegs rx - BitVec.ofNat 32 ((j + 1) * size.count)))
      (limbResult law size rx ry s j) := by
    rw [hdone.memory, hw.limbBelow hl (.inl rfl) hj hresume, hw.sourceBelow hl hj hresume, hcodes,
      hlowered rx (.inl rfl), hresume.memory]
    rfl
  have hplace := limbPlace_le size (s.aRegs rx) hj
  have hsucc := limbPlace_succ size (s.aRegs rx) hj
  have hbus := (hl.mapped rx (.inl rfl)).2
  have hstored : SameOutside t.memory u.memory (limbPlace size (s.aRegs rx) n (j + 1))
      size.count := by
    rw [hmemory]
    exact storeSized_outside (hl.place (.inl rfl) hj) (by omega) _
  refine ⟨fun r hr => (hdone.lowered r hr).trans (hlowered r hr), ?_, ?_, ?_, ?_⟩
  · intro i hi hout
    rw [Nat.succ_mul] at hout
    exact (hstored i hi (by omega)).trans (hw.outside i hi (by omega))
  · exact hdone.memorySize.trans (hresume.memorySize.trans hw.memorySize)
  · rw [hdone.codes, hw.limbBelow hl (.inl rfl) hj hresume, hw.sourceBelow hl hj hresume, hcodes]
    rfl
  · intro i hi
    by_cases hlast : i = j
    · subst hlast
      rw [hmemory]
      exact numberAt_storeSized (hl.place (.inl rfl) hj) _
    · have hold : i < j := by omega
      have hin : i < n := by omega
      have hle := limbPlace_le size (s.aRegs rx) hin
      have habove : limbPlace size (s.aRegs rx) n j ≤ limbPlace size (s.aRegs rx) n (i + 1) := by
        rw [limbPlace, limbPlace]
        exact Nat.add_le_add_left (Nat.mul_le_mul_right _ (by omega)) _
      rw [numberAt_same hstored (by omega) (.inr (by omega))]
      exact hw.limbs i hold

/-- An operand of the walk as a number. -/
theorem Laid.limbBelow (hl : Laid s size rx ry n) (hr : Lowers rx ry r) (hj : j < n) :
    (M68k.limbBelow size s r j).toNat =
      numberAt s.memory (limbPlace size (s.aRegs r) n (j + 1)) size.count := by
  rw [M68k.limbBelow, loadSized_toNat (hl.place hr hj)]

/-- **The walk.** Executions of an instruction that follows a law, over operands laid out
for them, do one limb each. -/
theorem Executions.walked (hrun : Executions k op rx ry s j t) (hl : Laid s size rx ry n)
    (hlaw : FollowsLaw k op law size rx ry) (hj : j ≤ n) : Walked law size rx ry s n j t := by
  induction hrun with
  | none => exact .none law size rx ry s n
  | next hrun hresume hx hstep ih =>
    have hw := ih (by omega)
    obtain ⟨w, hw', hdone⟩ := hlaw _ hx fun r hr => by
      rw [hresume.registers r hr, hw.lowered r hr, bytes_eq, sub_ofNat, ← Nat.succ_mul]
      exact (hl.fits hr hj).of_memorySize (hresume.memorySize.trans hw.memorySize)
    rw [hstep] at hw'
    cases hw'
    exact hw.next hl hj hresume hdone

end Walk

end M68k
