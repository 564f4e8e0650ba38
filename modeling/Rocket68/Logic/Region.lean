import Rocket68.Logic.Memory
import Rocket68.Logic.Words
import Rocket68.Num.Positional

/-!
# Regions of memory

Memory seen as a row of bytes at numbered places, and the big-endian numbers in it. A
region is an interval of places below the end of the memory and of the 24-bit bus; an
operand inside one is read and written as the number it holds.
-/

namespace M68k

open Num

variable {σ : Type} {s : M68kCpu σ} {m m' : U32 → U8} {size : M68kSize}

/-- The byte at a place. -/
def byteAt (m : U32 → U8) (p : Nat) : Nat := (m (BitVec.ofNat 32 p)).toNat

/-- The big-endian number in the `n` bytes from `p` on. -/
def numberAt (m : U32 → U8) (p n : Nat) : Nat := value 256 (byteAt m) p n

/-- Operand size in bytes. -/
def M68kSize.count : M68kSize → Nat
  | .byte => 1
  | .word => 2
  | .long => 4

/-- The `n` places from `p` on are mapped. -/
def Region (s : M68kCpu σ) (p n : Nat) : Prop := p + n ≤ s.memorySize.toNat ∧ p + n ≤ 2 ^ 24

theorem byteAt_lt (m : U32 → U8) (p : Nat) : byteAt m p < 256 := (m _).isLt

theorem numberAt_lt (m : U32 → U8) (p n : Nat) : numberAt m p n < 256 ^ n :=
  value_lt fun _ _ _ => byteAt_lt m _

theorem bytes_eq (size : M68kSize) : size.bytes = BitVec.ofNat 32 size.count := by
  cases size <;> rfl

theorem width_eq (size : M68kSize) : 256 ^ size.count = 2 * size.half := by
  cases size <;> rfl

theorem count_pos (size : M68kSize) : 0 < size.count := by
  cases size <;> decide

/-- Memory outside an interval is the same. -/
def SameOutside (m m' : U32 → U8) (p n : Nat) : Prop :=
  ∀ i, i < 2 ^ 32 → i < p ∨ p + n ≤ i → m' (BitVec.ofNat 32 i) = m (BitVec.ofNat 32 i)

theorem numberAt_same {p n q j : Nat} (h : SameOutside m m' p n) (hq : q + j ≤ 2 ^ 24)
    (hapart : q + j ≤ p ∨ p + n ≤ q) : numberAt m' q j = numberAt m q j := by
  apply value_congr
  intro i hi hlt
  rw [byteAt, byteAt, h i (by omega) (by omega)]

/-! ## Operands in a region -/

section Operand

variable {a : U32}

/-- The places after a masked address. -/
theorem place_add {p : Nat} (ha : a.toNat = p) (i : Nat) :
    a + BitVec.ofNat 32 i = BitVec.ofNat 32 (p + i) := by
  apply BitVec.eq_of_toNat_eq
  rw [BitVec.toNat_add, BitVec.toNat_ofNat, BitVec.toNat_ofNat, ha, Nat.add_mod_mod]

theorem add_ofNat (a : U32) (i j : Nat) :
    a + BitVec.ofNat 32 i + BitVec.ofNat 32 j = a + BitVec.ofNat 32 (i + j) := by
  apply BitVec.eq_of_toNat_eq
  simp only [BitVec.toNat_add, BitVec.toNat_ofNat]
  omega

theorem wordAt_toNat (m : U32 → U8) (a : U32) :
    (wordAt m a).toNat = 256 * (m a).toNat + (m (a + 1)).toNat := by
  have hhigh := (m a).isLt
  have hlow := (m (a + 1)).isLt
  have hshift : ((m a).setWidth 16 <<< 8).toNat = 2 ^ 8 * (m a).toNat := by
    rw [BitVec.toNat_shiftLeft, BitVec.toNat_setWidth_of_le (by decide), Nat.shiftLeft_eq,
      Nat.mod_eq_of_lt (by omega)]
    omega
  rw [wordAt, BitVec.toNat_or, hshift, BitVec.toNat_setWidth_of_le (by decide),
    ← Nat.two_pow_add_eq_or_of_lt (by omega)]

theorem longAt_toNat (m : U32 → U8) (a : U32) :
    (longAt m a).toNat = 65536 * (wordAt m a).toNat + (wordAt m (a + 2)).toNat := by
  have hhigh := (wordAt m a).isLt
  have hlow := (wordAt m (a + 2)).isLt
  have hshift : ((wordAt m a).setWidth 32 <<< 16).toNat = 2 ^ 16 * (wordAt m a).toNat := by
    rw [BitVec.toNat_shiftLeft, BitVec.toNat_setWidth_of_le (by decide), Nat.shiftLeft_eq,
      Nat.mod_eq_of_lt (by omega)]
    omega
  rw [longAt_words, BitVec.toNat_or, hshift, BitVec.toNat_setWidth_of_le (by decide),
    ← Nat.two_pow_add_eq_or_of_lt (by omega)]

/-- A read delivers the number at its place. -/
theorem loadSized_toNat {p : Nat} (ha : a.toNat = p) :
    (loadSized size m a).toNat = numberAt m p size.count := by
  have h0 : a = BitVec.ofNat 32 p := by rw [← ha, BitVec.ofNat_toNat, BitVec.setWidth_eq]
  have hone : a + 1 = BitVec.ofNat 32 (p + 1) := place_add ha 1
  have htwo : a + 2 = BitVec.ofNat 32 (p + 2) := place_add ha 2
  have hthree : a + 2 + 1 = BitVec.ofNat 32 (p + 3) := by
    rw [BitVec.add_assoc]
    exact place_add ha 3
  cases size with
  | byte =>
    show ((m a).setWidth 32).toNat = _
    rw [BitVec.toNat_setWidth_of_le (by decide), h0]
    simp [numberAt, value, byteAt, M68kSize.count]
  | word =>
    show ((wordAt m a).setWidth 32).toNat = _
    rw [BitVec.toNat_setWidth_of_le (by decide), wordAt_toNat, hone, h0]
    simp [numberAt, value, byteAt, M68kSize.count]
  | long =>
    show (longAt m a).toNat = _
    rw [longAt_toNat, wordAt_toNat, wordAt_toNat, hthree, htwo, hone, h0]
    simp only [numberAt, value, byteAt, M68kSize.count, Nat.add_zero]
    omega

/-- A write changes the bytes of its operand only. -/
theorem storeSized_outside {p : Nat} (ha : a.toNat = p) (hp : p + size.count ≤ 2 ^ 24) (v : U32) :
    SameOutside m (storeSized size m a v) p size.count := by
  intro i hi hout
  have hne (j : Nat) (hj : j < size.count) : BitVec.ofNat 32 i ≠ a + BitVec.ofNat 32 j := by
    rw [place_add ha]
    intro heq
    have hnat := congrArg BitVec.toNat heq
    rw [BitVec.toNat_ofNat, BitVec.toNat_ofNat] at hnat
    omega
  have hzero : BitVec.ofNat 32 i ≠ a := by
    have h := hne 0 (count_pos size)
    simpa using h
  cases size with
  | byte => exact Function.update_of_ne hzero _ _
  | word => exact storeWord_other m a _ hzero (hne 1 (by decide))
  | long =>
    exact storeLong_other m a v hzero (hne 1 (by decide)) (hne 2 (by decide)) (hne 3 (by decide))

/-- An operand read back after it was written. -/
theorem loadSized_storeSized (size : M68kSize) (m : U32 → U8) (a v : U32) :
    (loadSized size (storeSized size m a v) a).toNat = low size v := by
  cases size with
  | byte =>
    show ((Function.update m a (v.setWidth 8) a).setWidth 32).toNat = _
    rw [Function.update_self, BitVec.toNat_setWidth_of_le (by decide), BitVec.toNat_setWidth]
    rfl
  | word =>
    show ((wordAt (storeWord m a (v.setWidth 16)) a).setWidth 32).toNat = _
    rw [wordAt_storeWord, BitVec.toNat_setWidth_of_le (by decide), BitVec.toNat_setWidth]
    rfl
  | long =>
    show (longAt (storeLong m a v) a).toNat = _
    rw [longAt_storeLong]
    exact (Nat.mod_eq_of_lt v.isLt).symm

theorem numberAt_storeSized {p : Nat} (ha : a.toNat = p) (v : U32) :
    numberAt (storeSized size m a v) p size.count = low size v := by
  rw [← loadSized_toNat ha, loadSized_storeSized]

/-- An operand inside a region is accessible, when its size lets it. -/
theorem Region.accessible {p : Nat} (hr : Region s p size.count)
    (ha : (maskAddress24 a).toNat = p) (heven : size = .byte ∨ isOdd a = false) :
    accessible s size a = true := by
  obtain ⟨hsize, hbus⟩ := hr
  have hvalid (i : Nat) (hi : i < size.count) :
      isValidAddress s (maskAddress24 a + BitVec.ofNat 32 i) = true := by
    rw [isValidAddress, decide_eq_true_eq, BitVec.lt_def, place_add ha, BitVec.toNat_ofNat]
    omega
  have hzero : isValidAddress s (maskAddress24 a) = true := by
    have h := hvalid 0 (count_pos size)
    simpa using h
  rw [M68k.accessible]
  cases size with
  | byte =>
    show (true && isValidAddress s (maskAddress24 a)) = true
    rw [hzero, Bool.and_self]
  | word =>
    have hodd : isOdd a = false := heven.resolve_left (by decide)
    show (!isOdd a && (isValidAddress s (maskAddress24 a) &&
      isValidAddress s (maskAddress24 a + BitVec.ofNat 32 1))) = true
    rw [hodd, hzero, hvalid 1 (by decide)]
    rfl
  | long =>
    have hodd : isOdd a = false := heven.resolve_left (by decide)
    show (!isOdd a && (isValidAddress s (maskAddress24 a) &&
      isValidAddress s (maskAddress24 a + BitVec.ofNat 32 3))) = true
    rw [hodd, hzero, hvalid 3 (by decide)]
    rfl

/-- An operand lies in mapped memory. -/
structure Fits (s : M68kCpu σ) (size : M68kSize) (a : U32) : Prop where
  region : Region s (maskAddress24 a).toNat size.count
  aligned : size = .byte ∨ isOdd a = false

theorem Fits.accessible (h : Fits s size a) : M68k.accessible s size a = true :=
  h.region.accessible rfl h.aligned

theorem Fits.of_memorySize {u : M68kCpu σ} (h : Fits s size a)
    (hsize : u.memorySize = s.memorySize) : Fits u size a := by
  refine ⟨?_, h.aligned⟩
  rw [Region, hsize]
  exact h.region

/-- Inside the bus the mask can be moved past an offset. -/
theorem mask_add {i : Nat} (hbus : (maskAddress24 a).toNat + i < 2 ^ 24) :
    maskAddress24 (a + BitVec.ofNat 32 i) = maskAddress24 a + BitVec.ofNat 32 i := by
  apply BitVec.eq_of_toNat_eq
  simp only [maskAddress24_toNat, BitVec.toNat_add, BitVec.toNat_ofNat] at hbus ⊢
  omega

/-- A long operand is two words. -/
theorem Fits.words (h : Fits s .long a) :
    Fits s .word a ∧ Fits s .word (a + 2) ∧ maskAddress24 (a + 2) = maskAddress24 a + 2 := by
  obtain ⟨⟨hsize, hbus⟩, haligned⟩ := h
  have heven : isOdd a = false := haligned.resolve_left (by decide)
  have hmask : maskAddress24 (a + 2) = maskAddress24 a + 2 :=
    mask_add (i := 2) (by simp only [M68kSize.count] at hbus; omega)
  have hplace : maskAddress24 a + 2 = BitVec.ofNat 32 ((maskAddress24 a).toNat + 2) :=
    place_add rfl 2
  have hnext : isOdd (a + 2) = false := (isOdd_add_two a).trans heven
  simp only [M68kSize.count] at hsize hbus
  refine ⟨⟨⟨?_, ?_⟩, .inr heven⟩, ⟨?_, .inr hnext⟩, hmask⟩
  · simp only [M68kSize.count]
    omega
  · simp only [M68kSize.count]
    omega
  · rw [hmask, hplace, BitVec.toNat_ofNat, Nat.mod_eq_of_lt (by omega)]
    constructor <;> simp only [M68kSize.count] <;> omega

end Operand

end M68k
