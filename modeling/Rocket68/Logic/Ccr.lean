import Rocket68.Logic.Micro

/-!
# The flag updates stay inside the condition codes

Every assignment the handlers make to `cpu->sr` directly changes bits 4 to 0
only, and at most clears the unused bits 7 to 5.
-/

namespace M68k

variable {σ : Type}

/-- No bit above the condition codes. -/
def LowBits (v : U16) : Prop := ∀ i, 5 ≤ i → v.getLsbD i = false

theorem lowBits_of_lt {v : U16} (h : v.toNat < 2 ^ 5) : LowBits v := fun i hi =>
  Nat.testBit_lt_two_pow (Nat.lt_of_lt_of_le h (Nat.pow_le_pow_right (by decide) hi))

theorem LowBits.or {v w : U16} (hv : LowBits v) (hw : LowBits w) : LowBits (v ||| w) :=
  fun i hi => by rw [BitVec.getLsbD_or, hv i hi, hw i hi, Bool.or_false]

theorem LowBits.xor {v w : U16} (hv : LowBits v) (hw : LowBits w) : LowBits (v ^^^ w) :=
  fun i hi => by rw [BitVec.getLsbD_xor, hv i hi, hw i hi, Bool.xor_false]

theorem LowBits.and_left {v : U16} (hv : LowBits v) (w : U16) : LowBits (v &&& w) :=
  fun i hi => by rw [BitVec.getLsbD_and, hv i hi, Bool.false_and]

theorem LowBits.and_right (v : U16) {w : U16} (hw : LowBits w) : LowBits (v &&& w) :=
  fun i hi => by rw [BitVec.getLsbD_and, hw i hi, Bool.and_false]

theorem LowBits.setIf {v bit : U16} (hv : LowBits v) (hb : LowBits bit) (c : Bool) :
    LowBits (setIf c bit v) := by
  cases c with
  | false => exact hv
  | true => exact hv.or hb

theorem lowBits_zero : LowBits 0 := lowBits_of_lt (by decide)
theorem lowBits_srC : LowBits srC := lowBits_of_lt (by decide)
theorem lowBits_srV : LowBits srV := lowBits_of_lt (by decide)
theorem lowBits_srZ : LowBits srZ := lowBits_of_lt (by decide)
theorem lowBits_srN : LowBits srN := lowBits_of_lt (by decide)
theorem lowBits_srX : LowBits srX := lowBits_of_lt (by decide)
theorem lowBits_nzvc : LowBits nzvc := lowBits_of_lt (by decide)
theorem lowBits_ccr : LowBits 0x1F := lowBits_of_lt (by decide)

namespace CcrOnly

variable {sr sr' sr'' : U16}

theorem refl (sr : U16) : CcrOnly sr sr := fun _ _ => .inl rfl

theorem or (h : CcrOnly sr sr') {v : U16} (hv : LowBits v) : CcrOnly sr (sr' ||| v) :=
  fun i hi => by
    rw [BitVec.getLsbD_or, hv i hi, Bool.or_false]
    exact h i hi

/-- Clearing bits of the low byte. -/
theorem clear (h : CcrOnly sr sr') {mask : U16} (hm : mask.toNat < 2 ^ 8) :
    CcrOnly sr (sr' &&& ~~~mask) := fun i hi => by
  rw [BitVec.getLsbD_and, BitVec.getLsbD_not]
  by_cases hlow : i < 8
  · cases hb : mask.getLsbD i with
    | true => exact .inr ⟨hlow, by simp⟩
    | false => simpa [show i < 16 by omega] using h i hi
  · have hb : mask.getLsbD i = false :=
      Nat.testBit_lt_two_pow (Nat.lt_of_lt_of_le hm (Nat.pow_le_pow_right (by decide) (by omega)))
    rcases h i hi with heq | ⟨hlt, -⟩
    · left
      rw [hb, heq]
      by_cases h16 : i < 16
      · simp [h16]
      · simp [h16, BitVec.getLsbD_of_ge sr i (by omega)]
    · exact absurd hlt hlow

theorem setIf (h : CcrOnly sr sr') {bit : U16} (hb : LowBits bit) (c : Bool) :
    CcrOnly sr (setIf c bit sr') := by
  cases c with
  | false => exact h
  | true => exact h.or hb

theorem ite (c : Bool) (h : CcrOnly sr sr') (h' : CcrOnly sr sr'') :
    CcrOnly sr (if c then sr' else sr'') := by
  cases c with
  | false => exact h'
  | true => exact h

/-- The system byte and a new condition code register. -/
theorem system (sr : U16) {v : U16} (hv : LowBits v) : CcrOnly sr ((sr &&& 0xFF00) ||| v) := by
  have hmask : (0xFF00 : U16) = ~~~0xFF := by decide
  rw [hmask]
  exact ((refl sr).clear (by decide)).or hv

theorem flagsNz (h : CcrOnly sr sr') (size : M68kSize) (result : U32) :
    CcrOnly sr (flagsNz size result sr') :=
  (h.setIf lowBits_srN _).setIf lowBits_srZ _

theorem flagsAdd (src dest result : U32) (size : M68kSize) (sr : U16) :
    CcrOnly sr (flagsAdd src dest result size sr) :=
  ((((refl sr).clear (by decide)).flagsNz _ _).setIf lowBits_srV _).setIf
    (lowBits_srC.or lowBits_srX) _

theorem flagsSub (src dest result : U32) (size : M68kSize) (sr : U16) :
    CcrOnly sr (flagsSub src dest result size sr) :=
  ((((refl sr).clear (by decide)).flagsNz _ _).setIf lowBits_srV _).setIf
    (lowBits_srC.or lowBits_srX) _

theorem flagsCmp (src dest result : U32) (size : M68kSize) (sr : U16) :
    CcrOnly sr (flagsCmp src dest result size sr) :=
  ((((refl sr).clear (by decide)).flagsNz _ _).setIf lowBits_srV _).setIf lowBits_srC _

theorem flagsLogic (result : U32) (size : M68kSize) (sr : U16) :
    CcrOnly sr (flagsLogic result size sr) :=
  ((refl sr).clear (by decide)).flagsNz _ _

theorem keepZ (size : M68kSize) (result : U32) (old : U16) (h : CcrOnly sr sr') :
    CcrOnly sr (keepZ size result old sr') :=
  ite _ (h.or lowBits_srZ) (h.clear (by decide))

theorem flagsNegx (src result : U32) (size : M68kSize) (sr : U16) :
    CcrOnly sr (flagsNegx src result size sr) :=
  (((((refl sr).clear (by decide)).setIf lowBits_srN _).setIf lowBits_srZ _).setIf
    lowBits_srV _).setIf (lowBits_srC.or lowBits_srX) _

theorem flagsQuotient (quotient : U32) (sr : U16) : CcrOnly sr (flagsQuotient quotient sr) :=
  (((refl sr).clear (by decide)).setIf lowBits_srN _).setIf lowBits_srZ _

theorem flagsDivOverflow (sr : U16) : CcrOnly sr (flagsDivOverflow sr) :=
  (((refl sr).clear (by decide)).or lowBits_srV).or lowBits_srN

theorem flagsBcd (r : U8 × Bool × Bool) (sr : U16) : CcrOnly sr (flagsBcd r sr) := by
  obtain ⟨result, c, v⟩ := r
  have h : CcrOnly sr (M68k.setIf c (srC ||| srX) (M68k.setIf v srV
      (M68k.setIf (result &&& 0x80 != 0) srN (sr &&& ~~~(srN ||| srV ||| srC ||| srX))))) :=
    ((((refl sr).clear (by decide)).setIf lowBits_srN _).setIf lowBits_srV _).setIf
      (lowBits_srC.or lowBits_srX) _
  exact ite _ (h.clear (by decide)) h

theorem flagsBit (data mask : U32) (sr : U16) : CcrOnly sr (flagsBit data mask sr) :=
  ite _ ((refl sr).clear (by decide)) ((refl sr).or lowBits_srZ)

theorem flagsTas (data : U32) (sr : U16) : CcrOnly sr (flagsTas data sr) :=
  (((refl sr).clear (by decide)).setIf lowBits_srZ _).setIf lowBits_srN _

theorem flagsShift (type : Fin 4) (size : M68kSize) (st : ShiftState) (sr : U16) :
    CcrOnly sr (flagsShift type size st sr) := by
  refine ((?_ : CcrOnly sr _).setIf lowBits_srN _).setIf lowBits_srZ _
  match type with
  | 0 =>
    exact (((refl sr).clear (by decide)).setIf (lowBits_srC.or lowBits_srX) _).setIf lowBits_srV _
  | 1 => exact ((refl sr).clear (by decide)).setIf (lowBits_srC.or lowBits_srX) _
  | 2 => exact (((refl sr).clear (by decide)).setIf lowBits_srC _).setIf lowBits_srX _
  | 3 => exact ((refl sr).clear (by decide)).setIf lowBits_srC _

theorem flagsShiftZero (type : Fin 4) (size : M68kSize) (result : U32) (sr : U16) :
    CcrOnly sr (flagsShiftZero type size result sr) :=
  ((((refl sr).clear (by decide)).setIf lowBits_srN _).setIf lowBits_srZ _).setIf lowBits_srC _

end CcrOnly

theorem lowBits_flagsNz {v : U16} (h : LowBits v) (size : M68kSize) (result : U32) :
    LowBits (flagsNz size result v) := (h.setIf lowBits_srN _).setIf lowBits_srZ _

theorem lowBits_moveFlags (size : M68kSize) (value : U32) : LowBits (moveFlags size value) :=
  lowBits_flagsNz lowBits_zero _ _

theorem lowBits_moveFaultFlags (destMode destReg : Fin 8) (regImm : Bool) (value : U32)
    (sr : U16) : LowBits (moveFaultFlags destMode destReg regImm value sr) := by
  simp only [moveFaultFlags]
  split
  · split
    · exact lowBits_nzvc.and_right sr
    · exact (lowBits_zero.setIf lowBits_srN _).setIf lowBits_srZ _
  · split
    · exact (((lowBits_nzvc.and_right sr).and_left _).setIf lowBits_srN _).setIf lowBits_srZ _
    · exact lowBits_moveFlags .long value

end M68k
