import Rocket68.Logic.Access

/-!
# Big-endian words in memory

What a word or long access reads and writes, byte by byte, and where masked
addresses fall.
-/

namespace M68k

/-! ## Addresses on the 24-bit bus -/

theorem maskAddress24_toNat (a : U32) : (maskAddress24 a).toNat = a.toNat % 2 ^ 24 := by
  have hmask : (0x00FFFFFF : U32).toNat = 2 ^ 24 - 1 := rfl
  rw [maskAddress24, BitVec.toNat_and, hmask, Nat.and_two_pow_sub_one_eq_mod]

theorem maskAddress24_add (a n : U32) :
    maskAddress24 (maskAddress24 a + n) = maskAddress24 (a + n) := by
  apply BitVec.eq_of_toNat_eq
  simp only [maskAddress24_toNat, BitVec.toNat_add]
  omega

theorem isOdd_toNat (a : U32) : isOdd a = decide (a.toNat % 2 = 1) := by
  have h : (a &&& 1).toNat = a.toNat % 2 := by
    rw [BitVec.toNat_and]
    exact Nat.and_one_is_mod _
  have hiff : (a &&& 1 != 0) = true ↔ a.toNat % 2 = 1 := by
    rw [bne_iff_ne, ne_eq, ← BitVec.toNat_inj, h]
    simp
  unfold isOdd
  exact Bool.eq_iff_iff.mpr (hiff.trans decide_eq_true_iff.symm)

theorem isOdd_add_two (a : U32) : isOdd (a + 2) = isOdd a := by
  have htwo : (2 : U32).toNat = 2 := rfl
  rw [isOdd_toNat, isOdd_toNat, decide_eq_decide, BitVec.toNat_add, htwo]
  omega

theorem mask_even {a : U32} (h : isOdd a = false) : (maskAddress24 a).toNat % 2 = 0 := by
  rw [isOdd_toNat, decide_eq_false_iff_not] at h
  rw [maskAddress24_toNat]
  omega

theorem mask_lt (a : U32) : (maskAddress24 a).toNat < 2 ^ 24 := by
  rw [maskAddress24_toNat]
  omega

/-! ## Bytes of words -/

/-- The two bytes of a word, put together again. -/
theorem word_bytes (v : U16) :
    ((v >>> 8).setWidth 8 : U8).setWidth 16 <<< 8 ||| (v.setWidth 8 : U8).setWidth 16 = v := by
  apply BitVec.eq_of_getLsbD_eq
  intro i hi
  simp only [BitVec.getLsbD_or, BitVec.getLsbD_shiftLeft, BitVec.getLsbD_setWidth,
    BitVec.getLsbD_ushiftRight, hi, decide_true, Bool.true_and]
  by_cases h8 : i < 8
  · simp [h8]
  · have hsub : i - 8 < 8 := by omega
    have hlow : i - 8 < 16 := by omega
    have hadd : 8 + (i - 8) = i := by omega
    simp [h8, hsub, hlow, hadd]

/-- The two words of a long word, put together again. -/
theorem long_words (v : U32) :
    ((v >>> 16).setWidth 16 : U16).setWidth 32 <<< 16 ||| (v.setWidth 16 : U16).setWidth 32 =
      v := by
  apply BitVec.eq_of_getLsbD_eq
  intro i hi
  simp only [BitVec.getLsbD_or, BitVec.getLsbD_shiftLeft, BitVec.getLsbD_setWidth,
    BitVec.getLsbD_ushiftRight, hi, decide_true, Bool.true_and]
  by_cases h16 : i < 16
  · simp [h16]
  · have hsub : i - 16 < 16 := by omega
    have hlow : i - 16 < 32 := by omega
    have hadd : 16 + (i - 16) = i := by omega
    simp [h16, hsub, hlow, hadd]

/-- A long word is its high word, then its low word. -/
theorem longAt_words (m : U32 → U8) (a : U32) :
    longAt m a = (wordAt m a).setWidth 32 <<< 16 ||| (wordAt m (a + 2)).setWidth 32 := by
  have h3 : a + 2 + 1 = a + 3 := by rw [BitVec.add_assoc]; rfl
  have hbyte (b : U8) (i : Nat) (h : 8 ≤ i) : b.getLsbD i = false := BitVec.getLsbD_of_ge _ _ h
  unfold longAt wordAt
  rw [h3]
  apply BitVec.eq_of_getLsbD_eq
  intro i hi
  simp only [BitVec.getLsbD_or, BitVec.getLsbD_shiftLeft, BitVec.getLsbD_setWidth, hi,
    decide_true, Bool.true_and]
  by_cases h8 : i < 8
  · have h16 : i < 16 := by omega
    have h24 : i < 24 := by omega
    simp [h8, h16, h24]
  · by_cases h16 : i < 16
    · have h24 : i < 24 := by omega
      have hlow : i - 8 < 32 := by omega
      have hlow' : i - 8 < 16 := by omega
      simp [h8, h16, h24, hlow, hlow']
    · by_cases h24 : i < 24
      · have hsub : i - 16 < 8 := by omega
        have hlow : i - 16 < 32 := by omega
        have hlow' : i - 16 < 16 := by omega
        simp [h8, h16, h24, hsub, hlow, hlow', hbyte _ i (by omega), hbyte _ (i - 8) (by omega)]
      · have hsub : ¬i - 16 < 8 := by omega
        have hlow : i - 16 < 32 := by omega
        have hlow' : i - 16 < 16 := by omega
        have hlow24 : i - 24 < 32 := by omega
        have hlow24' : i - 24 < 16 := by omega
        have heq : i - 16 - 8 = i - 24 := by omega
        simp [h8, h16, h24, hsub, hlow, hlow', hlow24, hlow24', heq, hbyte _ i (by omega),
          hbyte _ (i - 8) (by omega), hbyte _ (i - 16) (by omega)]

/-! ## Stores -/

section Stores

variable (m : U32 → U8) (a : U32)

theorem add_ne {b n : U32} (h : n ≠ 0) : b + n ≠ b := by
  intro heq
  exact h (by simpa using heq)

/-- A word store, byte by byte. -/
theorem storeWord_apply (v : U16) (b : U32) :
    storeWord m a v b =
      if b = a + 1 then v.setWidth 8 else if b = a then (v >>> 8).setWidth 8 else m b := by
  simp only [storeWord, storeByte, Function.update_apply]

theorem storeWord_first (v : U16) : storeWord m a v a = (v >>> 8).setWidth 8 := by
  have h : a ≠ a + 1 := (add_ne (by decide)).symm
  rw [storeWord_apply, if_neg h, if_pos rfl]

theorem storeWord_second (v : U16) : storeWord m a v (a + 1) = v.setWidth 8 := by
  rw [storeWord_apply, if_pos rfl]

theorem storeWord_other {b : U32} (v : U16) (h : b ≠ a) (h' : b ≠ a + 1) :
    storeWord m a v b = m b := by
  rw [storeWord_apply, if_neg h', if_neg h]

/-- A word read back. -/
theorem wordAt_storeWord (v : U16) : wordAt (storeWord m a v) a = v := by
  rw [wordAt, storeWord_first, storeWord_second]
  exact word_bytes v

/-- A long store is two word stores. -/
theorem storeLong_words (v : U32) :
    storeLong m a v = storeWord (storeWord m a ((v >>> 16).setWidth 16)) (a + 2)
      (v.setWidth 16) := by
  have h3 : a + 2 + 1 = a + 3 := by rw [BitVec.add_assoc]; rfl
  have h24 : ((v >>> 16).setWidth 16 >>> 8).setWidth 8 = ((v >>> 24).setWidth 8 : U8) := by
    apply BitVec.eq_of_getLsbD_eq
    intro i hi
    simp [hi, show 8 + i < 16 by omega, ← Nat.add_assoc]
  have h8 : ((v.setWidth 16 : U16) >>> 8).setWidth 8 = ((v >>> 8).setWidth 8 : U8) := by
    apply BitVec.eq_of_getLsbD_eq
    intro i hi
    simp [hi, show 8 + i < 16 by omega]
  unfold storeLong storeWord
  rw [h3, h24, h8, BitVec.setWidth_setWidth_of_le _ (by decide),
    BitVec.setWidth_setWidth_of_le _ (by decide)]

/-- Words stored to disjoint places commute. -/
theorem storeWord_comm {b : U32} (v w : U16) (h : b ≠ a) (h' : b ≠ a + 1) (h'' : b + 1 ≠ a)
    (h₃ : b + 1 ≠ a + 1) :
    storeWord (storeWord m a v) b w = storeWord (storeWord m b w) a v := by
  funext c
  simp only [storeWord_apply]
  by_cases hb : c = b + 1
  · rw [if_pos hb, if_pos hb, hb, if_neg h₃, if_neg h'']
  · by_cases hb' : c = b
    · rw [if_neg hb, if_pos hb', if_neg hb, if_pos hb', hb', if_neg h', if_neg h]
    · simp only [if_neg hb, if_neg hb']

theorem storeLong_other {b : U32} (v : U32) (h : b ≠ a) (h1 : b ≠ a + 1) (h2 : b ≠ a + 2)
    (h3 : b ≠ a + 3) : storeLong m a v b = m b := by
  have hadd : a + 2 + 1 = a + 3 := by rw [BitVec.add_assoc]; rfl
  rw [storeLong_words, storeWord_other _ _ _ h2 (hadd ▸ h3), storeWord_other _ _ _ h h1]

/-- A word depends on its two bytes. -/
theorem wordAt_congr {m m' : U32 → U8} {a : U32} (h : m a = m' a) (h' : m (a + 1) = m' (a + 1)) :
    wordAt m a = wordAt m' a := by
  rw [wordAt, h, h', wordAt]

/-- A long word depends on its two words. -/
theorem longAt_congr {m m' : U32 → U8} {a : U32} (h : wordAt m a = wordAt m' a)
    (h' : wordAt m (a + 2) = wordAt m' (a + 2)) : longAt m a = longAt m' a := by
  rw [longAt_words, h, h', longAt_words]

theorem wordAt_storeWord_other {b : U32} (v : U16) (h : b ≠ a) (h' : b ≠ a + 1)
    (h'' : b + 1 ≠ a) (h₃ : b + 1 ≠ a + 1) : wordAt (storeWord m a v) b = wordAt m b :=
  wordAt_congr (storeWord_other m a v h h') (storeWord_other m a v h'' h₃)

/-- A long word read back. -/
theorem longAt_storeLong (v : U32) : longAt (storeLong m a v) a = v := by
  have hsub (i j : U32) (h : i ≠ j) : a + i ≠ a + j := fun heq => h (by simpa using heq)
  have h2 : a ≠ a + 2 := (add_ne (by decide)).symm
  have h3 : a ≠ a + 2 + 1 := by rw [BitVec.add_assoc]; exact (add_ne (by decide)).symm
  have h4 : a + 1 ≠ a + 2 + 1 := by rw [BitVec.add_assoc]; exact hsub _ _ (by decide)
  rw [longAt_words, storeLong_words, wordAt_storeWord,
    wordAt_storeWord_other _ _ _ h2 h3 (hsub _ _ (by decide)) h4, wordAt_storeWord]
  exact long_words v

end Stores

/-! ## Places at an offset -/

/-- Place `p` is the one `n` bytes above `b` on the 24-bit bus. -/
def Offset (b : U32) (n : Nat) (p : U32) : Prop :=
  maskAddress24 p = maskAddress24 (b + BitVec.ofNat 32 n)

section Offsets

variable {m : U32 → U8} {b p p' : U32} {n n' : Nat}

theorem offset_mask (b : U32) (n : Nat) : Offset b n (maskAddress24 (b + BitVec.ofNat 32 n)) := by
  have h := maskAddress24_add (b + BitVec.ofNat 32 n) 0
  simpa [Offset] using h

theorem Offset.add (h : Offset b n p) (i : Nat) : Offset b (n + i) (p + BitVec.ofNat 32 i) := by
  unfold Offset at h ⊢
  rw [← maskAddress24_add p, h, maskAddress24_add, BitVec.ofNat_add, BitVec.add_assoc]

/-- Different small offsets are different places, also across the end of the bus. -/
theorem Offset.ne (h : Offset b n p) (h' : Offset b n' p') (hne : n ≠ n') (hn : n < 2 ^ 16)
    (hn' : n' < 2 ^ 16) : p ≠ p' := by
  rintro rfl
  unfold Offset at h h'
  have hnat := congrArg BitVec.toNat (h.symm.trans h')
  simp only [maskAddress24_toNat, BitVec.toNat_add, BitVec.toNat_ofNat] at hnat
  omega

theorem wordAt_storeWord_apart (h : Offset b n p) (h' : Offset b n' p')
    (hd : n + 2 ≤ n' ∨ n' + 2 ≤ n) (hn : n + 2 < 2 ^ 16) (hn' : n' + 2 < 2 ^ 16) (v : U16) :
    wordAt (storeWord m p' v) p = wordAt m p :=
  wordAt_storeWord_other m p' v (h.ne h' (by omega) (by omega) (by omega))
    (h.ne (h'.add 1) (by omega) (by omega) (by omega))
    ((h.add 1).ne h' (by omega) (by omega) (by omega))
    ((h.add 1).ne (h'.add 1) (by omega) (by omega) (by omega))

theorem longAt_storeWord_apart (h : Offset b n p) (h' : Offset b n' p')
    (hd : n + 4 ≤ n' ∨ n' + 2 ≤ n) (hn : n + 4 < 2 ^ 16) (hn' : n' + 2 < 2 ^ 16) (v : U16) :
    longAt (storeWord m p' v) p = longAt m p :=
  longAt_congr (wordAt_storeWord_apart h h' (by omega) (by omega) hn' v)
    (wordAt_storeWord_apart (h.add 2) h' (by omega) (by omega) hn' v)

theorem wordAt_storeLong_apart (h : Offset b n p) (h' : Offset b n' p')
    (hd : n + 2 ≤ n' ∨ n' + 4 ≤ n) (hn : n + 2 < 2 ^ 16) (hn' : n' + 4 < 2 ^ 16) (v : U32) :
    wordAt (storeLong m p' v) p = wordAt m p := by
  have hlow := wordAt_storeWord_apart (m := storeWord m p' ((v >>> 16).setWidth 16)) h (h'.add 2)
    (by omega) hn (by omega) (v.setWidth 16)
  rw [storeLong_words]
  exact hlow.trans (wordAt_storeWord_apart h h' (by omega) hn (by omega) _)

end Offsets

end M68k
