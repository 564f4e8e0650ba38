import Rocket68.Logic.Delivery

/-!
# Long accesses and word accesses

The core reaches a long operand through one long access or through two word
accesses. The word accesses mask each address; the long access masks its
address once and checks and touches the three bytes after it unmasked. The two
agree except on the last word of the bus.
-/

namespace M68k

open Trap TrapM

variable {σ α : Type} {k : Option (Nat → M68kCpu σ → M68kCpu σ × U32)} {s t : M68kCpu σ}

/-! ## Accesses that complete -/

/-- `m` runs from `s` to `t` with value `v`, and no access faults. -/
def Completes (m : M σ α) (s : M68kCpu σ) (v : α) (t : M68kCpu σ) : Prop :=
  m (Host.none σ) s = .ok v t ∧
    ∃ evs, t.log = evs ++ s.log ∧ ∀ kind address, .fault kind address ∉ evs

/-- No fault is being processed. -/
structure Unguarded (s : M68kCpu σ) : Prop where
  address : s.inAddressError = false
  bus : s.inBusError = false

theorem captureFault_log (kind : Access) (address : U32) (s : M68kCpu σ) :
    (captureFault kind address s).log = .fault kind address :: s.log := rfl

/-- A raised fault shows in the observation, if control comes back at all. -/
theorem raiseFault_logged {v : Nat} (kind : Access) (address : U32) (u : M68kCpu σ)
    (h : raiseFaultWith exception v (ackHost k) (holdGuard v true (captureFault kind address u)) =
      .ok () t) : ∃ evs, t.log = evs ++ .fault kind address :: u.log := by
  have hwp : wp (raiseFaultWith exception v) (ackHost k)
      (fun _ t => ∃ evs, t.log = evs ++ .fault kind address :: u.log) (fun _ => True)
      (holdGuard v true (captureFault kind address u)) := by
    rw [raiseFaultWith, wp_bind]
    refine wp_mono (exception_wp (k := k) v _) ?_ fun _ _ => trivial
    rintro _ x ⟨hx, -⟩
    obtain ⟨evs, hlog, -⟩ := hx.log
    rw [wp_bind, wp_modify]
    refine wp_mono (abortFaultedInstruction_wp (k := k) _) ?_ fun _ _ => trivial
    rintro _ y rfl
    refine ⟨evs ++ [.exception v], ?_⟩
    rw [holdGuard_eq] at hlog ⊢
    simp [hlog, captureFault_log]
  exact wp_ok hwp h

section Flat

variable {kind : Access} {size : M68kSize} {address : U32} {hit miss : M68kCpu σ → M68kCpu σ × α}
  {dead : α} {m : M σ α}

/-- Accessible memory is where an access completes. -/
theorem completes_iff (hm : m (Host.none σ) s =
      flatAccess exception kind size address hit miss dead (ackHost none) s)
    (hs : Unguarded s) (hlog : ∀ u, (hit u).1.log = u.log) (v : α) (t : M68kCpu σ) :
    Completes m s v t ↔ accessible s size address = true ∧
      v = (hit (s.noted (.access kind size address))).2 ∧
      t = (hit (s.noted (.access kind size address))).1 := by
  constructor
  · rintro ⟨hrun, evs, hevs, hquiet⟩
    rw [hm] at hrun
    cases hacc : accessible s size address with
    | true =>
      rw [flatAccess_hit _ _ _ _ _ _ hacc] at hrun
      cases hrun
      exact ⟨rfl, rfl, rfl⟩
    | false =>
      -- Control comes back only with the fault in the observation.
      have hfault (w : Nat) (n : M σ Unit)
          (hn : n (ackHost none) (s.noted (.access kind size address)) =
            raiseFaultWith exception w (ackHost none)
              (holdGuard w true (captureFault kind address (s.noted (.access kind size address)))))
          (h : (n >>= fun _ => pure dead) (ackHost none) (s.noted (.access kind size address)) =
            .ok v t) : False := by
        cases hraise : n (ackHost none) (s.noted (.access kind size address)) with
        | ok x y =>
          rw [bind_ok hraise] at h
          cases h
          obtain ⟨evs', hevs'⟩ := raiseFault_logged kind address _ (hn.symm.trans hraise)
          have hsplit : evs ++ s.log =
              (evs' ++ [.fault kind address, .access kind size address]) ++ s.log := by
            rw [← hevs, hevs']
            simp [M68kCpu.noted]
          have heq := List.append_cancel_right hsplit
          exact hquiet kind address (by rw [heq]; simp)
        | trap y =>
          rw [bind_trap hraise] at h
          cases h
        | diverge =>
          rw [bind_diverge hraise] at h
          cases h
      rw [flatAccess_run, hs.address, hs.bus] at hrun
      simp only [Bool.not_false, Bool.and_true, if_true] at hrun
      by_cases hodd : misaligned size address = true
      · rw [if_pos hodd] at hrun
        exact (hfault 3 _ (addressFault_run _ _ _ _ _) hrun).elim
      · have hodd' : misaligned size address = false := by simpa using hodd
        have hmap : ¬mapped s size address = true := by
          intro hmap
          rw [accessible, hodd', hmap] at hacc
          cases hacc
        rw [if_neg hodd, if_neg hmap] at hrun
        exact (hfault 2 _ (busFault_run _ _ _ _ _) hrun).elim
  · rintro ⟨hacc, rfl, rfl⟩
    refine ⟨?_, [.access kind size address], ?_, ?_⟩
    · rw [hm, flatAccess_hit _ _ _ _ _ _ hacc]
    · rw [hlog]
      rfl
    · simp

end Flat

/-- After a write that changed memory to `memory`. -/
def wrote (size : M68kSize) (a : U32) (memory : U32 → U8) (s : M68kCpu σ) : M68kCpu σ :=
  { s.noted (.access .write size a) with memory := memory }

section Accesses

variable (hs : Unguarded s) (a : U32)

include hs

theorem read8_completes (v : U8) (t : M68kCpu σ) :
    Completes (read8 a) s v t ↔ accessible s .byte a = true ∧ v = s.memory (maskAddress24 a) ∧
      t = s.noted (.access .read .byte a) :=
  completes_iff (read8With_flat exception none a s) hs (fun _ => rfl) v t

theorem read16_completes (v : U16) (t : M68kCpu σ) :
    Completes (read16 a) s v t ↔ accessible s .word a = true ∧
      v = wordAt s.memory (maskAddress24 a) ∧ t = s.noted (.access .read .word a) :=
  completes_iff (read16With_flat exception none a s) hs (fun _ => rfl) v t

theorem read32_completes (v : U32) (t : M68kCpu σ) :
    Completes (read32 a) s v t ↔ accessible s .long a = true ∧
      v = longAt s.memory (maskAddress24 a) ∧ t = s.noted (.access .read .long a) :=
  completes_iff (read32With_flat exception none a s) hs (fun _ => rfl) v t

theorem write8_completes (v : U8) (t : M68kCpu σ) :
    Completes (write8 a v) s () t ↔ accessible s .byte a = true ∧
      t = wrote .byte a (storeByte s.memory (maskAddress24 a) v) s :=
  (completes_iff (write8With_flat exception none a s v) hs (fun _ => rfl) () t).trans
    ⟨fun h => ⟨h.1, h.2.2⟩, fun h => ⟨h.1, rfl, h.2⟩⟩

theorem write16_completes (v : U16) (t : M68kCpu σ) :
    Completes (write16 a v) s () t ↔ accessible s .word a = true ∧
      t = wrote .word a (storeWord s.memory (maskAddress24 a) v) s :=
  (completes_iff (write16With_flat exception none a s v) hs (fun _ => rfl) () t).trans
    ⟨fun h => ⟨h.1, h.2.2⟩, fun h => ⟨h.1, rfl, h.2⟩⟩

theorem write32_completes (v : U32) (t : M68kCpu σ) :
    Completes (write32 a v) s () t ↔ accessible s .long a = true ∧
      t = wrote .long a (storeLong s.memory (maskAddress24 a) v) s :=
  (completes_iff (write32With_flat exception none a s v) hs (fun _ => rfl) () t).trans
    ⟨fun h => ⟨h.1, h.2.2⟩, fun h => ⟨h.1, rfl, h.2⟩⟩

end Accesses

/-- Sequencing. -/
theorem Completes.seq {β : Type} {m : M σ α} {f : α → M σ β} {v : α} {w : β} {u : M68kCpu σ}
    (h : Completes m s v t) (h' : Completes (f v) t w u) : Completes (m >>= f) s w u := by
  obtain ⟨hrun, evs, hlog, hquiet⟩ := h
  obtain ⟨hrun', evs', hlog', hquiet'⟩ := h'
  refine ⟨(bind_ok hrun).trans hrun', evs' ++ evs, by rw [hlog', hlog, List.append_assoc], ?_⟩
  intro kind address hmem
  rcases List.mem_append.mp hmem with hmem | hmem
  · exact hquiet' kind address hmem
  · exact hquiet kind address hmem

/-! ## The law -/

/-- The high and low word of a long word. -/
def highWord (v : U32) : U16 := (v >>> 16).setWidth 16
def lowWord (v : U32) : U16 := v.setWidth 16

/-- In `s` a long access at `a` is two word accesses. -/
structure LongIsTwoWords (s : M68kCpu σ) (a : U32) : Prop where
  read_iff : (∃ v t, Completes (read32 a) s v t) ↔
    (∃ v t, Completes (read16 a) s v t) ∧ ∃ v t, Completes (read16 (a + 2)) s v t
  read_eq : ∀ v t, Completes (read32 a) s v t →
    ∃ high low t' t'', Completes (read16 a) s high t' ∧ Completes (read16 (a + 2)) s low t'' ∧
      v = high.setWidth 32 <<< 16 ||| low.setWidth 32
  write_iff : ∀ v, (∃ t, Completes (write32 a v) s () t) ↔
    (∃ t, Completes (write16 a (highWord v)) s () t) ∧
      ∃ t, Completes (write16 (a + 2) (lowWord v)) s () t
  write_high_low : ∀ v t, Completes (write32 a v) s () t →
    ∃ u, Completes (write16 a (highWord v) >>= fun _ => write16 (a + 2) (lowWord v)) s () u ∧
      u.memory = t.memory
  write_low_high : ∀ v t, Completes (write32 a v) s () t →
    ∃ u, Completes (write16 (a + 2) (lowWord v) >>= fun _ => write16 a (highWord v)) s () u ∧
      u.memory = t.memory
  read_back : ∀ v t, Completes (write32 a v) s () t → ∃ u, Completes (read32 a) t v u
  others : ∀ v t, Completes (write32 a v) s () t → ∀ b,
    (∀ i < 4, maskAddress24 b ≠ maskAddress24 (a + BitVec.ofNat 32 i)) → t.memory b = s.memory b
  alias_read : ∀ b c, maskAddress24 b = maskAddress24 c → ∀ v,
    (∃ t, Completes (read8 b) s v t) ↔ ∃ t, Completes (read8 c) s v t
  alias_write : ∀ b c, maskAddress24 b = maskAddress24 c → ∀ v m,
    (∃ t, Completes (write8 b v) s () t ∧ t.memory = m) ↔
      ∃ t, Completes (write8 c v) s () t ∧ t.memory = m

/-- The address is the last word of the bus and the memory reaches it. -/
def lastWord (s : M68kCpu σ) (a : U32) : Bool :=
  maskAddress24 a == 0xFFFFFE && s.memorySize ≥ 0x1000000

theorem isValidAddress_iff (s : M68kCpu σ) (a : U32) :
    isValidAddress s a = true ↔ a.toNat < s.memorySize.toNat := by
  simp [isValidAddress, BitVec.lt_def]

/-- Away from the last word the second word follows the first. -/
theorem mask_next {a : U32} (h : isOdd a = false) (hlast : maskAddress24 a ≠ 0xFFFFFE) :
    maskAddress24 (a + 2) = maskAddress24 a + 2 := by
  have heven := mask_even h
  have hlt := mask_lt a
  have hne : (maskAddress24 a).toNat ≠ 0xFFFFFE := fun heq => hlast (BitVec.eq_of_toNat_eq heq)
  have htwo : (2 : U32).toNat = 2 := rfl
  rw [maskAddress24_toNat] at heven hlt hne
  apply BitVec.eq_of_toNat_eq
  rw [maskAddress24_toNat, BitVec.toNat_add, BitVec.toNat_add, maskAddress24_toNat, htwo]
  omega

/-- A long access reaches memory exactly when both word accesses do. -/
theorem accessible_long {a : U32} (h : isOdd a = false) (hlast : lastWord s a = false) :
    (accessible s .long a = true ↔
      accessible s .word a = true ∧ accessible s .word (a + 2) = true) ∧
      (accessible s .word a = true → maskAddress24 (a + 2) = maskAddress24 a + 2) := by
  have hodd : isOdd (a + 2) = false := (isOdd_add_two a).trans h
  have hlt := mask_lt a
  have hone : (1 : U32).toNat = 1 := rfl
  have htwo : (2 : U32).toNat = 2 := rfl
  have hthree : (3 : U32).toNat = 3 := rfl
  simp only [accessible, misaligned, mapped, h, hodd, Bool.not_false, Bool.true_and,
    Bool.and_eq_true, isValidAddress_iff, BitVec.toNat_add, hone, hthree]
  by_cases heq : maskAddress24 a = 0xFFFFFE
  · have hsize : s.memorySize.toNat < 2 ^ 24 := by
      simp only [lastWord, heq, beq_self_eq_true, Bool.true_and, decide_eq_false_iff_not,
        ge_iff_le, BitVec.le_def, Nat.not_le] at hlast
      exact hlast
    have hval : (maskAddress24 a).toNat = 0xFFFFFE := by rw [heq]; rfl
    constructor
    · constructor <;> intro hacc <;> omega
    · intro hacc
      omega
  · rw [mask_next h heq, BitVec.toNat_add, htwo]
    constructor
    · constructor <;> intro hacc <;> omega
    · exact fun _ => rfl

theorem mask_congr_isOdd {b c : U32} (h : maskAddress24 b = maskAddress24 c) :
    isOdd b = isOdd c := by
  rw [← isOdd_mask b, h, isOdd_mask]

theorem accessible_congr {b c : U32} (h : maskAddress24 b = maskAddress24 c) (size : M68kSize) :
    accessible s size b = accessible s size c := by
  have hodd := mask_congr_isOdd h
  cases size <;> simp only [accessible, misaligned, mapped, h, hodd]

theorem unguarded_wrote (hs : Unguarded s) (size : M68kSize) (a : U32) (memory : U32 → U8) :
    Unguarded (wrote size a memory s) := ⟨hs.1, hs.2⟩

/-- A cell whose address differs from four others on the bus is none of them. -/
theorem not_cell {a b : U32}
    (h : ∀ i < 4, maskAddress24 b ≠ maskAddress24 (a + BitVec.ofNat 32 i)) (i : Nat) (hi : i < 4) :
    b ≠ maskAddress24 a + BitVec.ofNat 32 i := by
  rintro rfl
  exact h i hi (maskAddress24_add _ _)

/-- Away from the last word of the bus the law holds. -/
theorem longIsTwoWords_of_not_last (hs : Unguarded s) {a : U32} (ha : isOdd a = false)
    (hlast : lastWord s a = false) : LongIsTwoWords s a := by
  obtain ⟨hacc, hnext⟩ := accessible_long ha hlast
  have hword {x y : U32} (hx : x.toNat + 1 < y.toNat) : y ≠ x ∧ y ≠ x + 1 := by
    constructor
    · rintro rfl
      omega
    · rintro rfl
      have hone : (1 : U32).toNat = 1 := rfl
      rw [BitVec.toNat_add, hone] at hx
      omega
  refine ⟨?_, ?_, ?_, ?_, ?_, ?_, ?_, ?_, ?_⟩
  · simp only [read32_completes hs, read16_completes hs]
    constructor
    · rintro ⟨v, t, h, -⟩
      exact ⟨⟨_, _, (hacc.mp h).1, rfl, rfl⟩, _, _, (hacc.mp h).2, rfl, rfl⟩
    · rintro ⟨⟨v, t, h, -⟩, w, u, h', -⟩
      exact ⟨_, _, hacc.mpr ⟨h, h'⟩, rfl, rfl⟩
  · intro v t h
    obtain ⟨hlong, rfl, rfl⟩ := (read32_completes hs a v t).mp h
    obtain ⟨h₁, h₂⟩ := hacc.mp hlong
    refine ⟨_, _, _, _, (read16_completes hs a _ _).mpr ⟨h₁, rfl, rfl⟩,
      (read16_completes hs (a + 2) _ _).mpr ⟨h₂, rfl, rfl⟩, ?_⟩
    rw [hnext h₁]
    exact longAt_words _ _
  · intro v
    simp only [write32_completes hs, write16_completes hs]
    constructor
    · rintro ⟨t, h, -⟩
      exact ⟨⟨_, (hacc.mp h).1, rfl⟩, _, (hacc.mp h).2, rfl⟩
    · rintro ⟨⟨t, h, -⟩, u, h', -⟩
      exact ⟨_, hacc.mpr ⟨h, h'⟩, rfl⟩
  · intro v t h
    obtain ⟨hlong, rfl⟩ := (write32_completes hs a v t).mp h
    obtain ⟨h₁, h₂⟩ := hacc.mp hlong
    have hfirst := (write16_completes hs a (highWord v) _).mpr ⟨h₁, rfl⟩
    -- high word first
    have hsecond := (write16_completes (unguarded_wrote hs .word a
      (storeWord s.memory (maskAddress24 a) (highWord v))) (a + 2) (lowWord v) _).mpr ⟨h₂, rfl⟩
    refine ⟨_, hfirst.seq hsecond, ?_⟩
    show storeWord (storeWord s.memory _ _) (maskAddress24 (a + 2)) _ = storeLong _ _ _
    rw [hnext h₁]
    exact (storeLong_words _ _ _).symm
  · intro v t h
    obtain ⟨hlong, rfl⟩ := (write32_completes hs a v t).mp h
    obtain ⟨h₁, h₂⟩ := hacc.mp hlong
    have hfirst := (write16_completes hs (a + 2) (lowWord v) _).mpr ⟨h₂, rfl⟩
    -- low word first: the two stores do not overlap, so the order does not matter
    have hsecond := (write16_completes (unguarded_wrote hs .word (a + 2)
      (storeWord s.memory (maskAddress24 (a + 2)) (lowWord v))) a (highWord v) _).mpr ⟨h₁, rfl⟩
    refine ⟨_, hfirst.seq hsecond, ?_⟩
    show storeWord (storeWord s.memory (maskAddress24 (a + 2)) _) (maskAddress24 a) _ =
      storeLong _ _ _
    have hlt := mask_lt a
    have htwo : (2 : U32).toNat = 2 := rfl
    have hthree : (2 + 1 : U32).toNat = 3 := rfl
    have hone : (1 : U32).toNat = 1 := rfl
    rw [hnext h₁, storeLong_words]
    refine (storeWord_comm _ _ _ _ ?_ ?_ ?_ ?_).symm
    · exact (hword (by rw [BitVec.toNat_add, htwo]; omega)).1
    · exact (hword (by rw [BitVec.toNat_add, htwo]; omega)).2
    · rw [BitVec.add_assoc]
      exact (hword (by rw [BitVec.toNat_add, hthree]; omega)).1
    · rw [BitVec.add_assoc]
      exact (hword (by rw [BitVec.toNat_add, hthree]; omega)).2
  · intro v t h
    obtain ⟨hlong, rfl⟩ := (write32_completes hs a v t).mp h
    exact ⟨_, (read32_completes (unguarded_wrote hs _ _ _) a v _).mpr
      ⟨hlong, (longAt_storeLong _ _ _).symm, rfl⟩⟩
  · intro v t h b hb
    obtain ⟨-, rfl⟩ := (write32_completes hs a v t).mp h
    have h0 : b ≠ maskAddress24 a := by simpa using not_cell hb 0 (by decide)
    exact storeLong_other _ _ _ h0 (not_cell hb 1 (by decide)) (not_cell hb 2 (by decide))
      (not_cell hb 3 (by decide))
  · intro b c hbc v
    simp only [read8_completes hs, accessible_congr hbc, hbc]
    constructor
    · rintro ⟨t, h, hv, -⟩
      exact ⟨_, h, hv, rfl⟩
    · rintro ⟨t, h, hv, -⟩
      exact ⟨_, h, hv, rfl⟩
  · intro b c hbc v m
    simp only [write8_completes hs, accessible_congr hbc, hbc]
    constructor
    · rintro ⟨t, ⟨h, rfl⟩, hm⟩
      exact ⟨_, ⟨h, rfl⟩, hm⟩
    · rintro ⟨t, ⟨h, rfl⟩, hm⟩
      exact ⟨_, ⟨h, rfl⟩, hm⟩

theorem second_byte (b : U8) : (lowWord (b.setWidth 32 <<< 8) >>> 8).setWidth 8 = b := by
  apply BitVec.eq_of_getLsbD_eq
  intro i hi
  have hadd : 8 + i < 16 := by omega
  simp [lowWord, hi, hadd]

/-- On the last word of the bus it fails: the long access faults where the word
accesses wrap around, or it touches bytes past the end of the bus. -/
theorem not_longIsTwoWords_of_last (hs : Unguarded s) {a : U32} (hlast : lastWord s a = true) :
    ¬LongIsTwoWords s a := by
  intro h
  simp only [lastWord, Bool.and_eq_true, beq_iff_eq, decide_eq_true_eq, ge_iff_le,
    BitVec.le_def] at hlast
  obtain ⟨haddr, hsize⟩ := hlast
  have hsize' : 2 ^ 24 ≤ s.memorySize.toNat := hsize
  have hodd : isOdd a = false := by
    rw [← isOdd_mask, haddr]
    rfl
  have hnext : maskAddress24 (a + 2) = 0 := by
    rw [← maskAddress24_add, haddr]
    rfl
  have hvalid (x : U32) (hx : x.toNat < 2 ^ 24) : isValidAddress s x = true :=
    (isValidAddress_iff s x).mpr (by omega)
  have hfirst : accessible s .word a = true := by
    simp only [accessible, misaligned, mapped, hodd, haddr]
    rw [hvalid _ (by decide), hvalid _ (by decide)]
    rfl
  have hsecond : accessible s .word (a + 2) = true := by
    simp only [accessible, misaligned, mapped, hnext]
    rw [← isOdd_mask, hnext, hvalid _ (by decide), hvalid _ (by decide)]
    rfl
  obtain ⟨w, u, hread⟩ := h.read_iff.mpr
    ⟨⟨_, _, (read16_completes hs a _ _).mpr ⟨hfirst, rfl, rfl⟩⟩,
      _, _, (read16_completes hs (a + 2) _ _).mpr ⟨hsecond, rfl, rfl⟩⟩
  have hlong := ((read32_completes hs a w u).mp hread).1
  -- The long write leaves byte 0 alone, the second word write does not.
  let v : U32 := (~~~s.memory 0).setWidth 32 <<< 8
  obtain ⟨x, hx, hmemory⟩ := h.write_high_low v _
    ((write32_completes hs a v _).mpr ⟨hlong, rfl⟩)
  have hwrite := (write16_completes hs a (highWord v) _).mpr ⟨hfirst, rfl⟩
  have hwrite' := (write16_completes (unguarded_wrote hs .word a
    (storeWord s.memory (maskAddress24 a) (highWord v))) (a + 2) (lowWord v) _).mpr
    ⟨hsecond, rfl⟩
  have hend := (hwrite.seq (f := fun _ => write16 (a + 2) (lowWord v)) hwrite').1
  rw [hx.1] at hend
  cases hend
  have hbyte := congrFun hmemory 0
  have hleft : (wrote .word (a + 2) (storeWord (storeWord s.memory (maskAddress24 a) (highWord v))
      (maskAddress24 (a + 2)) (lowWord v)) (wrote .word a
        (storeWord s.memory (maskAddress24 a) (highWord v)) s)).memory 0 = ~~~s.memory 0 := by
    show storeWord _ (maskAddress24 (a + 2)) (lowWord v) 0 = _
    rw [hnext, storeWord_first]
    exact second_byte _
  have hright : storeLong s.memory (maskAddress24 a) v 0 = s.memory 0 := by
    rw [haddr]
    exact storeLong_other _ _ _ (by decide) (by decide) (by decide) (by decide)
  have hne : ∀ b : U8, ~~~b ≠ b := by
    intro b heq
    have hbit := congrArg (BitVec.getLsbD · 0) heq
    simp at hbit
  exact hne _ (hleft.symm.trans (hbyte.trans hright))

/-- Long accesses are two word accesses everywhere but on the last word of the
bus, when the memory reaches it. -/
theorem longIsTwoWords_iff (hs : Unguarded s) {a : U32} (ha : isOdd a = false) :
    LongIsTwoWords s a ↔ lastWord s a = false := by
  constructor
  · intro h
    by_contra hlast
    exact not_longIsTwoWords_of_last hs (by simpa using hlast) h
  · exact longIsTwoWords_of_not_last hs ha

theorem longIsTwoWords_iff_middle :
    LongIsTwoWords (init (fun _ => 0) 0x1000 ()) 0x100 ↔
      lastWord (init (fun _ => 0) 0x1000 ()) 0x100 = false :=
  longIsTwoWords_iff ⟨rfl, rfl⟩ (by decide)

/-- 16 MB of memory, accessed at their last word. -/
theorem longIsTwoWords_fails :
    ¬∀ (s : M68kCpu Unit) (a : U32), Unguarded s → isOdd a = false → LongIsTwoWords s a := by
  intro h
  exact not_longIsTwoWords_of_last (s := init (fun _ => 0) 0x1000000 ()) (a := 0xFFFFFE)
    ⟨rfl, rfl⟩ (by decide) (h _ _ ⟨rfl, rfl⟩ (by decide))

end M68k
