import Rocket68.Logic.Decode
import Rocket68.Logic.Limbs

/-!
# MOVEM saved and restored

`MOVEM list,-(An)` lays the listed registers out in ascending order below An, and
`MOVEM (An)+,list` takes them back. Both loops run over the bits of the mask; each is
followed by one induction on the bits still to come.
-/

namespace M68k

open Trap TrapM

variable {σ : Type} {k : Option (Nat → M68kCpu σ → M68kCpu σ × U32)} {s t u v : M68kCpu σ}
  {size : M68kSize} {mask : U16} {a : U32} {n : Fin 8}

/-! ## The registers of a list -/

/-- Register `i` of the order D0..D7, A0..A7. -/
def registerAt (s : M68kCpu σ) (i : Fin 16) : U32 :=
  if i < 8 then s.dRegs (Fin.ofNat 8 i) else s.aRegs (Fin.ofNat 8 i)

/-- The place of an address register in that order. -/
def addressIndex (n : Fin 8) : Fin 16 := Fin.natAdd 8 n

/-- The bits of a mask that are set, out of some. -/
def setBits (mask : U16) (bits : List (Fin 16)) : List (Fin 16) :=
  bits.filter fun i => mask.getLsbD i

/-- The registers that a mask lists, bit `i` for register `i`, in that order. -/
def listed (list : U16) : List (Fin 16) := setBits list (List.finRange 16)

theorem setBits_cons_set {i : Fin 16} (rest : List (Fin 16)) (h : mask.getLsbD i = true) :
    setBits mask (i :: rest) = i :: setBits mask rest := List.filter_cons_of_pos h

theorem setBits_cons_clear {i : Fin 16} (rest : List (Fin 16)) (h : ¬mask.getLsbD i = true) :
    setBits mask (i :: rest) = setBits mask rest := List.filter_cons_of_neg h

theorem address_of_index {i : Fin 16} (h : ¬i < 8) : i = addressIndex (Fin.ofNat 8 i) := by
  revert i
  decide

theorem movemRegister_run (i : Fin 16) (h : Host σ) (s : M68kCpu σ) :
    movemRegister i h s = .ok (registerAt s i) s := by
  unfold movemRegister registerAt
  split <;> rfl

/-- The predecrement form walks the bits of the reversed mask: the same registers from the
last to the first. -/
theorem listed_reverse (list : U16) :
    (listed list.reverse).map Fin.rev = (listed list).reverse := by
  have hbit : (fun i : Fin 16 => list.getLsbD i) ∘ Fin.rev =
      fun i : Fin 16 => list.reverse.getLsbD i := by
    funext i
    rw [BitVec.getLsbD_reverse, BitVec.getMsbD_eq_getLsbD, decide_eq_true i.isLt, Bool.true_and]
    show list.getLsbD _ = _
    rw [Fin.val_rev]
    congr 1
    omega
  rw [listed, listed, setBits, setBits, ← List.filter_reverse, List.finRange_reverse,
    List.filter_map, hbit]

/-! ## The transfers to memory -/

/-- Slots for so many operands. -/
def slotBytes (size : M68kSize) (registers : List (Fin 16)) : Nat := registers.length * size.count

/-- The registers stand in ascending slots below an address, and no other byte of memory
has changed. -/
structure Saved (size : M68kSize) (registers : List (Fin 16)) (a : U32) (s t : M68kCpu σ) :
    Prop where
  slots : ∀ (j : Nat) (h : j < registers.length),
    numberAt t.memory (start a (slotBytes size registers) + j * size.count) size.count =
      low size (registerAt s registers[j])
  outside : SameOutside s.memory t.memory (start a (slotBytes size registers))
    (slotBytes size registers)

theorem Saved.nil (size : M68kSize) (a : U32) (s : M68kCpu σ) : Saved size [] a s s :=
  ⟨fun _ h => absurd h (Nat.not_lt_zero _), fun _ _ _ => rfl⟩

theorem start_below (size : M68kSize) (a : U32) (j : Nat) :
    start (a - size.bytes) (j * size.count) = start a ((j + 1) * size.count) := by
  rw [start, start, bytes_eq, sub_ofNat, Nat.succ_mul, Nat.add_comm]

/-- One register stored on top of the slots that are filled after it. -/
theorem Saved.below {registers : List (Fin 16)} {i : Fin 16}
    (h : Saved size registers (a - size.bytes) u t)
    (hbus : start a ((registers.length + 1) * size.count) +
      (registers.length + 1) * size.count ≤ 2 ^ 24)
    (hmemory : u.memory = storeSized size s.memory (maskAddress24 (a - size.bytes))
      (registerAt s i))
    (hsame : registerAt u = registerAt s) : Saved size (registers ++ [i]) a s t := by
  obtain ⟨hslots, houtside⟩ := h
  have hlength : slotBytes size (registers ++ [i]) = (registers.length + 1) * size.count := by
    rw [slotBytes, List.length_append]
    rfl
  have hstart : start (a - size.bytes) (slotBytes size registers) =
      start a ((registers.length + 1) * size.count) := start_below size a registers.length
  have hcount := count_pos size
  have htop : (maskAddress24 (a - size.bytes)).toNat =
      start a ((registers.length + 1) * size.count) + registers.length * size.count := by
    have hone : (maskAddress24 (a - size.bytes)).toNat = start a size.count := by
      rw [start, bytes_eq]
    rw [hone, start_add hbus (by rw [Nat.succ_mul]; omega) hcount, Nat.succ_mul]
    omega
  rw [hstart, slotBytes] at houtside
  rw [hstart, hsame] at hslots
  have hstored : SameOutside s.memory u.memory
      (start a ((registers.length + 1) * size.count) + registers.length * size.count)
      size.count := by
    rw [hmemory]
    exact storeSized_outside htop (by rw [Nat.succ_mul] at hbus ⊢; omega) _
  rw [← hlength] at hbus hslots houtside hstored htop
  rw [Nat.succ_mul] at hlength
  refine ⟨fun j hj => ?_, fun b hb hout => ?_⟩
  -- the last slot is the one just stored, and later stores miss it
  · by_cases hlast : j = registers.length
    · subst hlast
      rw [List.getElem_concat_length rfl, numberAt_same houtside (by omega) (.inr (by omega)),
        hmemory]
      exact numberAt_storeSized htop _
    · have hlt : j < registers.length := by
        rw [List.length_append, List.length_singleton] at hj
        omega
      rw [List.getElem_append_left hlt]
      exact hslots j hlt
  · rw [houtside b hb (by omega)]
    exact hstored b hb (by omega)

/-- One transfer of the predecrement form: a long operand goes out as two words, the low
one first. -/
theorem transfer_hit {α : Type} (value : U32) (hsize : size ≠ .byte) (hf : Fits s size a) :
    ∃ u, (∀ next : M σ α, (if size = .long then
        write16 (a + 2) (value.setWidth 16) >>= fun _ =>
          write16 a ((value >>> 16).setWidth 16) >>= fun _ => next
      else writeSize a (value &&& 0xFFFF) size >>= fun _ => next) (ackHost k) s =
        next (ackHost k) u) ∧
      Undisturbed s u ∧ u.aRegs = s.aRegs ∧
      u.memory = storeSized size s.memory (maskAddress24 a) value := by
  cases size with
  | byte => exact absurd rfl hsize
  | word =>
    have hwrite := writeSize_hit (k := k) (value &&& 0xFFFF) hf.accessible
    have hlow : (value &&& 0xFFFF).setWidth 16 = (value.setWidth 16 : U16) := by
      apply BitVec.eq_of_getLsbD_eq
      intro i hi
      have hones : ∀ j : Fin 16, (0xFFFF : U32).getLsbD j = true := by decide
      rw [BitVec.getLsbD_setWidth, BitVec.getLsbD_setWidth, BitVec.getLsbD_and, hones ⟨i, hi⟩,
        Bool.and_true]
    refine ⟨_, fun next => bind_ok hwrite, ⟨rfl, rfl, rfl, rfl, rfl⟩, rfl, ?_⟩
    exact congrArg (storeWord s.memory (maskAddress24 a)) hlow
  | long =>
    obtain ⟨hfirst, hsecond, hmask⟩ := hf.words
    let lower := { s.noted (.access .write .word (a + 2)) with
      memory := storeWord s.memory (maskAddress24 (a + 2)) (value.setWidth 16) }
    have hlower : write16 (a + 2) (value.setWidth 16) (ackHost k) s = .ok () lower :=
      write16_hit _ hsecond.accessible
    have hupper := write16_hit (k := k) (s := lower) ((value >>> 16).setWidth 16)
      (hfirst.of_memorySize rfl).accessible
    refine ⟨_, fun next => (bind_ok hlower).trans (bind_ok hupper), ⟨rfl, rfl, rfl, rfl, rfl⟩,
      rfl, ?_⟩
    have hbus := hf.region.2
    -- the four bytes are distinct on the bus, so the order of the words does not matter
    have hne (i j : Nat) (hi : i < 4) (hj : j < 4) (h : i ≠ j) :
        maskAddress24 a + BitVec.ofNat 32 i ≠ maskAddress24 a + BitVec.ofNat 32 j := by
      rw [place_add rfl, place_add rfl]
      intro heq
      have hnat := congrArg BitVec.toNat heq
      simp only [M68kSize.count] at hbus
      rw [BitVec.toNat_ofNat, BitVec.toNat_ofNat] at hnat
      omega
    have hzero (j : Nat) (hj : j < 4) (h : 0 ≠ j) :
        maskAddress24 a ≠ maskAddress24 a + BitVec.ofNat 32 j := by
      have hfirst := hne 0 j (by decide) hj h
      rwa [BitVec.add_zero] at hfirst
    have hthree : maskAddress24 a + 2 + 1 = maskAddress24 a + BitVec.ofNat 32 3 := by
      rw [BitVec.add_assoc]
      rfl
    show storeWord (storeWord s.memory (maskAddress24 (a + 2)) _) (maskAddress24 a) _ =
      storeLong s.memory (maskAddress24 a) value
    rw [storeLong_words, hmask]
    apply storeWord_comm
    · exact hzero 2 (by decide) (by decide)
    · rw [hthree]
      exact hzero 3 (by decide) (by decide)
    · exact hne 1 2 (by decide) (by decide) (by decide)
    · rw [hthree]
      exact hne 1 3 (by decide) (by decide) (by decide)

/-- The base register stores its initial value, which the loop does not change. -/
theorem storedRegister_run {α : Type} {initial : U32} (i : Fin 16) (h : Host σ)
    (hinitial : initial = s.aRegs n) (next : U32 → M σ α) :
    (if i ≥ 8 ∧ Fin.ofNat 8 i = n then (pure initial : M σ U32) >>= next
      else movemRegister i >>= next) h s = next (registerAt s i) h s := by
  by_cases hbase : i ≥ 8 ∧ Fin.ofNat 8 i = n
  · have hindex : ¬i < 8 := Nat.not_lt.mpr hbase.1
    rw [if_pos hbase, registerAt, if_neg hindex, hbase.2, ← hinitial]
    rfl
  · rw [if_neg hbase]
    exact bind_ok (movemRegister_run i h s)

/-- The registers that the bits still to come store, in ascending slots. -/
def storedBy (mask : U16) (bits : List (Fin 16)) : List (Fin 16) :=
  ((setBits mask bits).map Fin.rev).reverse

theorem Undisturbed.registerAt (h : Undisturbed s u) (ha : u.aRegs = s.aRegs) :
    M68k.registerAt u = M68k.registerAt s := by
  funext i
  rw [M68k.registerAt, M68k.registerAt, h.dRegs, ha]

theorem movemStorePredec_hit (mask : U16) (n : Fin 8) (bits : List (Fin 16)) {initial : U32}
    (hsize : size ≠ .byte) (heven : isOdd a = false) (hinitial : initial = s.aRegs n)
    (hregion : Region s (start a (slotBytes size (storedBy mask bits)))
      (slotBytes size (storedBy mask bits))) :
    ∃ t, movemStorePredec mask size n initial bits a (ackHost k) s =
        .ok (a - BitVec.ofNat 32 (slotBytes size (storedBy mask bits))) t ∧
      Undisturbed s t ∧ t.aRegs = s.aRegs ∧ Saved size (storedBy mask bits) a s t := by
  -- on the bits still to come
  induction bits generalizing a s with
  | nil =>
    have hnone : slotBytes size (storedBy mask []) = 0 := Nat.zero_mul _
    refine ⟨s, ?_, ⟨rfl, rfl, rfl, rfl, rfl⟩, rfl, Saved.nil size a s⟩
    rw [movemStorePredec, hnone, BitVec.sub_zero]
    rfl
  | cons i rest ih =>
    by_cases hbit : mask.getLsbD i = true
    · have hstored : storedBy mask (i :: rest) = storedBy mask rest ++ [i.rev] := by
        rw [storedBy, setBits_cons_set rest hbit, List.map_cons, List.reverse_cons]
        rfl
      have hlength : slotBytes size (storedBy mask (i :: rest)) =
          ((storedBy mask rest).length + 1) * size.count := by
        rw [hstored, slotBytes, List.length_append]
        rfl
      rw [hlength] at hregion ⊢
      obtain ⟨hmapped, hbus⟩ := hregion
      have hcount := count_pos size
      have hplace : (maskAddress24 (a - size.bytes)).toNat = start a size.count := by
        rw [start, bytes_eq]
      have htop := start_add hbus (show size.count ≤ _ by rw [Nat.succ_mul]; omega) hcount
      have hfits : Fits s size (a - size.bytes) := by
        refine ⟨?_, ?_⟩
        · rw [hplace, htop]
          rw [Nat.succ_mul] at hmapped hbus ⊢
          constructor <;> omega
        · have haligned := aligned_sub (.inr heven : size = .byte ∨ _) 1
          rw [Nat.one_mul, ← bytes_eq] at haligned
          exact haligned
      obtain ⟨u, htransfer, hkept, haddress, hmemory⟩ :=
        transfer_hit (k := k) (registerAt s i.rev) hsize hfits
      let cost : Int := if size = .long then 8 else 4
      have hcharged : Undisturbed s (charged cost u) :=
        ⟨hkept.dRegs, hkept.sr, hkept.pc, hkept.memorySize, hkept.thrown⟩
      obtain ⟨t, hrun, hrest, hregisters, hsaved⟩ := ih (s := charged cost u)
        (a := a - size.bytes) (hfits.aligned.resolve_left hsize)
        (hinitial.trans (congrFun haddress n).symm) (by
          rw [slotBytes, start_below, Region]
          show _ ≤ u.memorySize.toNat ∧ _
          rw [hkept.memorySize]
          rw [Nat.succ_mul] at hmapped hbus ⊢
          omega)
      refine ⟨t, ?_, hcharged.trans hrest, hregisters.trans haddress, ?_⟩
      · rw [movemStorePredec, if_pos hbit]
        dsimp only
        rw [storedRegister_run i.rev _ hinitial, htransfer, charge, modify_bind]
        refine hrun.trans ?_
        rw [bytes_eq, sub_ofNat, slotBytes, Nat.succ_mul, Nat.add_comm]
      · rw [hstored]
        exact hsaved.below hbus hmemory (hkept.registerAt haddress)
    · have hstored : storedBy mask (i :: rest) = storedBy mask rest := by
        rw [storedBy, setBits_cons_clear rest hbit]
        rfl
      rw [hstored] at hregion ⊢
      rw [movemStorePredec, if_neg hbit]
      exact ih heven hinitial hregion

/-! ## The transfers from memory -/

/-- What reaches a register: a long as it is, a word sign-extended. -/
def registerValue (size : M68kSize) (v : U32) : U32 := if size = .long then v else sext16 v

/-- A register assigned by its place in the order. -/
def M68kCpu.withRegister (i : Fin 16) (v : U32) (s : M68kCpu σ) : M68kCpu σ :=
  if i < 8 then { s with dRegs := Function.update s.dRegs (Fin.ofNat 8 i) v }
  else { s with aRegs := Function.update s.aRegs (Fin.ofNat 8 i) v }

theorem registerAt_withRegister (i j : Fin 16) (v : U32) (s : M68kCpu σ) :
    registerAt (s.withRegister i v) j = if j = i then v else registerAt s j := by
  have hsame : (j < 8 ↔ i < 8) → (Fin.ofNat 8 j = Fin.ofNat 8 i ↔ j = i) := by
    revert i j
    decide
  unfold registerAt M68kCpu.withRegister
  by_cases hi : i < 8 <;> by_cases hj : j < 8
  · have heq := hsame (by simp only [hi, hj])
    simp only [if_pos hi, if_pos hj, Function.update_apply, heq]
  · have hne : j ≠ i := fun h => hj (h ▸ hi)
    simp [hi, hj, hne]
  · have hne : j ≠ i := fun h => hi (h ▸ hj)
    simp [hi, hj, hne]
  · have heq := hsame (by simp only [hi, hj])
    simp only [if_neg hi, if_neg hj, Function.update_apply, heq]

theorem setRegister_run {α : Type} (i : Fin 16) (v : U32) (next : M σ α) (h : Host σ)
    (s : M68kCpu σ) :
    (if i < 8 then setD (Fin.ofNat 8 i) v >>= fun _ => next
      else setA (Fin.ofNat 8 i) v >>= fun _ => next) h s = next h (s.withRegister i v) := by
  unfold M68kCpu.withRegister
  split <;> rfl

/-- What loads leave alone, the registers apart. -/
structure OnlyRegisters (s u : M68kCpu σ) : Prop where
  memory : u.memory = s.memory
  memorySize : u.memorySize = s.memorySize
  sr : u.sr = s.sr
  pc : u.pc = s.pc
  thrown : u.exceptionThrown = s.exceptionThrown

theorem OnlyRegisters.trans (h : OnlyRegisters s t) (h' : OnlyRegisters t u) : OnlyRegisters s u :=
  ⟨h'.1.trans h.1, h'.2.trans h.2, h'.3.trans h.3, h'.4.trans h.4, h'.5.trans h.5⟩

theorem onlyRegisters_withRegister (i : Fin 16) (v : U32) (s : M68kCpu σ) :
    OnlyRegisters s (s.withRegister i v) := by
  unfold M68kCpu.withRegister
  split <;> exact ⟨rfl, rfl, rfl, rfl, rfl⟩

/-- The registers have been loaded from ascending operands, the others are as they were. -/
structure Loaded (size : M68kSize) (registers : List (Fin 16)) (a : U32) (s t : M68kCpu σ) :
    Prop where
  loads : ∀ (j : Nat) (h : j < registers.length), registerAt t registers[j] =
    registerValue size
      (loadSized size s.memory (maskAddress24 (a + BitVec.ofNat 32 (j * size.count))))
  others : ∀ i, i ∉ registers → registerAt t i = registerAt s i
  onlyRegisters : OnlyRegisters s t

/-- One register loaded before the rest. -/
theorem Loaded.above {registers : List (Fin 16)} {i : Fin 16} {w : M68kCpu σ}
    (hrest : Loaded size registers (a + size.bytes)
      (w.withRegister i (registerValue size (loadSized size s.memory (maskAddress24 a)))) t)
    (hnot : i ∉ registers) (hw : OnlyRegisters s w) (hregisters : registerAt w = registerAt s) :
    Loaded size (i :: registers) a s t := by
  obtain ⟨hloads, hothers, honly⟩ := hrest
  have hset := hw.trans (onlyRegisters_withRegister i
    (registerValue size (loadSized size s.memory (maskAddress24 a))) w)
  refine ⟨fun j hj => ?_, fun r hr => ?_, hset.trans honly⟩
  · cases j with
    | zero =>
      rw [List.getElem_cons_zero, hothers i hnot, registerAt_withRegister, if_pos rfl,
        Nat.zero_mul, BitVec.add_zero]
    | succ j =>
      have haddress : a + size.bytes + BitVec.ofNat 32 (j * size.count) =
          a + BitVec.ofNat 32 ((j + 1) * size.count) := by
        rw [bytes_eq, add_ofNat, Nat.succ_mul, Nat.add_comm]
      rw [List.getElem_cons_succ, hloads j (Nat.lt_of_succ_lt_succ hj), hset.memory, haddress]
  · obtain ⟨hne, hrest⟩ := not_or.mp (List.mem_cons.not.mp hr)
    rw [hothers r hrest, registerAt_withRegister, if_neg hne, hregisters]

theorem movemLoad_hit (mask : U16) {bits : List (Fin 16)} (hnodup : bits.Nodup)
    (hfits : ∀ j, j < (setBits mask bits).length →
      Fits s size (a + BitVec.ofNat 32 (j * size.count))) :
    ∃ t, movemLoad mask size bits a (ackHost k) s =
        .ok (a + BitVec.ofNat 32 (slotBytes size (setBits mask bits))) t ∧
      Loaded size (setBits mask bits) a s t := by
  -- on the bits still to come
  induction bits generalizing a s with
  | nil =>
    have hnone : slotBytes size (setBits mask []) = 0 := Nat.zero_mul _
    refine ⟨s, ?_, fun j hj => absurd hj (Nat.not_lt_zero j), fun _ _ => rfl,
      ⟨rfl, rfl, rfl, rfl, rfl⟩⟩
    rw [movemLoad, hnone, BitVec.add_zero]
    rfl
  | cons i rest ih =>
    obtain ⟨hnot, hnodup⟩ := List.nodup_cons.mp hnodup
    by_cases hbit : mask.getLsbD i = true
    · rw [setBits_cons_set rest hbit] at hfits ⊢
      let value := loadSized size s.memory (maskAddress24 a)
      let cost : Int := if size = .long then 8 else 4
      let read := charged cost (s.noted (.access .read size a))
      let loaded := read.withRegister i (registerValue size value)
      have hread : readSize a size (ackHost k) s = .ok value (s.noted (.access .read size a)) := by
        have hfirst := hfits 0 (Nat.succ_pos _)
        rw [Nat.zero_mul, BitVec.add_zero] at hfirst
        exact readSize_hit hfirst.accessible
      have hloaded : loaded.memorySize = s.memorySize :=
        (onlyRegisters_withRegister i (registerValue size value) read).memorySize
      obtain ⟨t, hrun, hrest⟩ := ih (s := loaded) (a := a + size.bytes) hnodup fun j hj => by
        have hnext := hfits (j + 1) (Nat.succ_lt_succ hj)
        rw [Nat.succ_mul, Nat.add_comm, ← add_ofNat, ← bytes_eq] at hnext
        exact hnext.of_memorySize hloaded
      refine ⟨t, ?_, hrest.above (fun h => hnot (List.mem_filter.mp h).1)
        ⟨rfl, rfl, rfl, rfl, rfl⟩ rfl⟩
      rw [movemLoad, if_pos hbit, bind_ok hread, charge, modify_bind]
      dsimp only
      refine (setRegister_run i (registerValue size value) _ _ read).trans (hrun.trans ?_)
      rw [bytes_eq, add_ofNat, slotBytes, slotBytes, List.length_cons, Nat.succ_mul, Nat.add_comm]
    · rw [setBits_cons_clear rest hbit] at hfits ⊢
      rw [movemLoad, if_neg hbit]
      exact ih hnodup hfits

/-! ## The instruction -/

/-- The instruction is MOVEM of these fields. -/
structure MovemForm (op : U16) (toRegisters : Bool) (size : M68kSize) (mode n : Fin 8) : Prop where
  pattern : op &&& 0xFB80 = 0x4880
  direction : (op &&& 0x0400 != 0) = toRegisters
  size : (if op &&& 0x0040 != 0 then M68kSize.long else M68kSize.word) = size
  mode : field op 3 = mode
  base : field op 0 = n

section Instruction

variable {op : U16} {list : U16}

theorem MovemForm.size_ne {toRegisters : Bool} {mode : Fin 8}
    (hop : MovemForm op toRegisters size mode n) : size ≠ .byte := by
  rw [← hop.size]
  split <;> decide

/-- The mask is fetched from behind the instruction word. -/
theorem Executes.fetch_mask (hx : Executes op s) (hmask : extension? s 2 = some mask) :
    fetch (ackHost k) (fetched s) = .ok mask
      { (fetched s).noted (.access .fetch .word (s.pc + 2)) with pc := s.pc + 4 } := by
  obtain ⟨hmapped, hword⟩ := extension?_eq_some hmask
  have hpc : s.pc + 2 + 2 = s.pc + 4 := by
    rw [BitVec.add_assoc]
    rfl
  have hfetch := fetch_hit (k := k) (fetched_running hx.depth) hmapped
  rw [← hpc, ← hword]
  exact hfetch

theorem Executes.even_next (hx : Executes op s) : isOdd (s.pc + 4) = false := by
  have hpc : s.pc + 4 = s.pc + 2 + 2 := by
    rw [BitVec.add_assoc]
    rfl
  rw [hpc]
  exact (isOdd_add_two _).trans hx.even

/-- MOVEM list,-(An). -/
theorem movem_saves (hop : MovemForm op false size 4 n) (hx : Executes op s)
    (hmask : extension? s 2 = some list.reverse) (heven : isOdd (s.aRegs n) = false)
    (hregion : Region s (start (s.aRegs n) (slotBytes size (listed list)))
      (slotBytes size (listed list))) :
    ∃ t, step (ackHost k) s = .ok () t ∧ Saved size (listed list) (s.aRegs n) s t ∧
      t.aRegs = Function.update s.aRegs n
        (s.aRegs n - BitVec.ofNat 32 (slotBytes size (listed list))) ∧
      t.memorySize = s.memorySize ∧ t.dRegs = s.dRegs ∧ t.sr = s.sr ∧ t.pc = s.pc + 4 := by
  -- the mask of `-(An)` is reversed, and so is the walk over it
  have hlisted : storedBy list.reverse (List.finRange 16) = listed list := by
    show ((listed list.reverse).map Fin.rev).reverse = listed list
    rw [listed_reverse, List.reverse_reverse]
  let masked := { (fetched s).noted (.access .fetch .word (s.pc + 2)) with pc := s.pc + 4 }
  let ready := { charged (movemEaCycles 4 n false) masked with
    faultPc := s.pc + 4 + 2, faultPcValid := true }
  have hinitial : s.aRegs n = ready.aRegs n := rfl
  obtain ⟨u, hrun, hkept, hregisters, hsaved⟩ := movemStorePredec_hit (k := k) (s := ready)
    list.reverse n (List.finRange 16) hop.size_ne heven hinitial (by rw [hlisted]; exact hregion)
  rw [hlisted] at hrun hsaved
  let next := s.aRegs n - BitVec.ofNat 32 (slotBytes size (listed list))
  have haccepts : ∀ r : Fin 8, movemRejects false 4 r = false := by decide
  have hexec : execMovem op (ackHost k) (fetched s) =
      .ok () { u with aRegs := Function.update u.aRegs n next } := by
    unfold execMovem
    dsimp only
    rw [hop.direction, hop.size, hop.mode, hop.base, haccepts n, if_neg Bool.false_ne_true,
      bind_ok (hx.fetch_mask hmask)]
    show (movemStorePredec list.reverse size n (s.aRegs n) (List.finRange 16) (s.aRegs n) >>=
      fun next => setA n next) (ackHost k) ready = _
    rw [bind_ok hrun]
    rfl
  have hmode : field op 3 ≠ 0 := by
    rw [hop.mode]
    decide
  have hnext : isOdd u.pc = false := by
    rw [hkept.pc]
    exact hx.even_next
  have hdispatch : (dispatch op : M σ Int) = costed (execMovem op) 0 :=
    dispatch_movem hop.pattern hmode
  have hstep := hx.step (hdispatch ▸ costed_ok hexec 0 :) hkept.thrown hnext
  refine ⟨_, hstep, ⟨hsaved.slots, hsaved.outside⟩, ?_, hkept.memorySize, hkept.dRegs, hkept.sr,
    hkept.pc⟩
  exact congrArg (fun registers => Function.update registers n next) hregisters

/-- A register apart from an address register that is assigned. -/
theorem registerAt_of_ne {i : Fin 16} (hi : i ≠ addressIndex n) (hd : t.dRegs = u.dRegs)
    (ha : t.aRegs = Function.update u.aRegs n a) : registerAt t i = registerAt u i := by
  unfold registerAt
  by_cases hdata : i < 8
  · rw [if_pos hdata, if_pos hdata, hd]
  · have hne : Fin.ofNat 8 i ≠ n := by
      rintro rfl
      exact hi (address_of_index hdata)
    rw [if_neg hdata, if_neg hdata, ha, Function.update_of_ne hne]

/-- MOVEM (An)+,list: the base register ends past the operands, whether it is listed or not. -/
theorem movem_loads (hop : MovemForm op true size 3 n) (hx : Executes op s)
    (hmask : extension? s 2 = some list)
    (hfits : ∀ j, j < (listed list).length →
      Fits s size (s.aRegs n + BitVec.ofNat 32 (j * size.count))) :
    ∃ t, step (ackHost k) s = .ok () t ∧
      (∀ (j : Nat) (h : j < (listed list).length), (listed list)[j] ≠ addressIndex n →
        registerAt t (listed list)[j] = registerValue size (loadSized size s.memory
          (maskAddress24 (s.aRegs n + BitVec.ofNat 32 (j * size.count))))) ∧
      (∀ i, i ∉ listed list → i ≠ addressIndex n → registerAt t i = registerAt s i) ∧
      t.aRegs n = s.aRegs n + BitVec.ofNat 32 (slotBytes size (listed list)) ∧
      t.memory = s.memory ∧ t.sr = s.sr ∧ t.pc = s.pc + 4 := by
  let masked := { (fetched s).noted (.access .fetch .word (s.pc + 2)) with pc := s.pc + 4 }
  let ready := { charged (-4) (charged (movemEaCycles 3 n true) masked) with
    faultPc := s.pc + 4 + 2, faultPcValid := true }
  obtain ⟨u, hrun, hloaded⟩ := movemLoad_hit (k := k) (s := ready) (a := s.aRegs n)
    list (List.nodup_finRange 16)
    fun j hj => (hfits j hj).of_memorySize rfl
  let next := s.aRegs n + BitVec.ofNat 32 (slotBytes size (listed list))
  have haccepts : ∀ r : Fin 8, movemRejects true 3 r = false := by decide
  have hexec : execMovem op (ackHost k) (fetched s) =
      .ok () { charged 4 { u with operandProgramSpace := false } with
        aRegs := Function.update u.aRegs n next } := by
    unfold execMovem
    dsimp only
    rw [hop.direction, hop.size, hop.mode, hop.base, haccepts n, if_neg Bool.false_ne_true,
      bind_ok (hx.fetch_mask hmask)]
    show (movemLoad list size (List.finRange 16) (s.aRegs n) >>= fun next =>
      setProgramSpace false >>= fun _ => charge 4 >>= fun _ => setA n next) (ackHost k) ready = _
    rw [bind_ok hrun]
    rfl
  have hmode : field op 3 ≠ 0 := by
    rw [hop.mode]
    decide
  have honly := hloaded.onlyRegisters
  have hnext : isOdd u.pc = false := by
    rw [honly.pc]
    exact hx.even_next
  have hdispatch : (dispatch op : M σ Int) = costed (execMovem op) 0 :=
    dispatch_movem hop.pattern hmode
  have hstep := hx.step (hdispatch ▸ costed_ok hexec 0 :) honly.thrown hnext
  refine ⟨_, hstep, fun j hj hne => ?_, fun i hi hne => ?_, Function.update_self _ _ _,
    honly.memory, honly.sr, honly.pc⟩
  · refine Eq.trans ?_ (hloaded.loads j hj)
    exact registerAt_of_ne hne rfl rfl
  · refine Eq.trans ?_ (hloaded.others i hi)
    exact registerAt_of_ne hne rfl rfl

/-! ## Saved and restored -/

/-- What runs between the two instructions may change every register but the base, and all
memory but the slots. -/
structure LeavesSlots (n : Fin 8) (p len : Nat) (t u : M68kCpu σ) : Prop where
  base : u.aRegs n = t.aRegs n
  memorySize : u.memorySize = t.memorySize
  slots : ∀ i, p ≤ i → i < p + len → byteAt u.memory i = byteAt t.memory i

/-- An operand holds the low part of a register. -/
theorem registerValue_of_low {raw value : U32} (hsize : size ≠ .byte)
    (hraw : raw.toNat = low size value) : registerValue size raw = registerValue size value := by
  cases size with
  | byte => exact absurd rfl hsize
  | word =>
    have hword : raw.setWidth 16 = (value.setWidth 16 : U16) := by
      apply BitVec.eq_of_toNat_eq
      rw [BitVec.toNat_setWidth, BitVec.toNat_setWidth, hraw]
      exact Nat.mod_mod _ _
    show (raw.setWidth 16 : U16).signExtend 32 = (value.setWidth 16 : U16).signExtend 32
    rw [hword]
  | long =>
    apply BitVec.eq_of_toNat_eq
    exact hraw.trans (Nat.mod_eq_of_lt value.isLt)

/-- Below an address register: where slot `j` is. -/
theorem slot_place {registers : List (Fin 16)} {j : Nat}
    (hbus : start a (slotBytes size registers) + slotBytes size registers ≤ 2 ^ 24)
    (hj : j < registers.length) :
    (maskAddress24 (a - BitVec.ofNat 32 (slotBytes size registers) +
      BitVec.ofNat 32 (j * size.count))).toNat =
      start a (slotBytes size registers) + j * size.count := by
  have hcount := count_pos size
  have hbytes : (j + 1) * size.count ≤ slotBytes size registers := Nat.mul_le_mul_right _ hj
  rw [Nat.succ_mul] at hbytes
  rw [start] at hbus ⊢
  rw [mask_add (by omega), place_add rfl, BitVec.toNat_ofNat, Nat.mod_eq_of_lt (by omega)]

theorem slot_even (hsize : size ≠ .byte) (heven : isOdd a = false) (i j : Nat) :
    isOdd (a - BitVec.ofNat 32 (i * size.count) + BitVec.ofNat 32 (j * size.count)) = false := by
  rw [isOdd_toNat, decide_eq_false_iff_not] at heven ⊢
  cases size with
  | byte => exact absurd rfl hsize
  | word | long =>
    simp only [BitVec.toNat_add, BitVec.toNat_sub, BitVec.toNat_ofNat, M68kSize.count]
    omega

/-- **MOVEM save and restore.** `MOVEM list,-(An)` lays the listed registers out below An,
D0 to A7 in ascending slots, An with its initial value, and changes no other byte. Whatever
then happens to the other registers, `MOVEM (An)+,list` brings every listed register back,
leaves the unlisted ones as it found them, and An where it was. -/
theorem movem_restores {op' : U16} (hsave : MovemForm op false size 4 n)
    (hrestore : MovemForm op' true size 3 n) (hx : Executes op s)
    (hmask : extension? s 2 = some list.reverse) (heven : isOdd (s.aRegs n) = false)
    (hregion : Region s (start (s.aRegs n) (slotBytes size (listed list)))
      (slotBytes size (listed list))) :
    ∃ t, step (ackHost k) s = .ok () t ∧ Saved size (listed list) (s.aRegs n) s t ∧
      t.aRegs n = s.aRegs n - BitVec.ofNat 32 (slotBytes size (listed list)) ∧
      ∀ u, LeavesSlots n (start (s.aRegs n) (slotBytes size (listed list)))
          (slotBytes size (listed list)) t u →
        Executes op' u → extension? u 2 = some list →
        ∃ v, step (ackHost k) u = .ok () v ∧
          (∀ i ∈ listed list, i ≠ addressIndex n →
            registerAt v i = registerValue size (registerAt s i)) ∧
          v.aRegs n = s.aRegs n ∧
          (∀ i, i ∉ listed list → i ≠ addressIndex n → registerAt v i = registerAt u i) ∧
          v.memory = u.memory := by
  obtain ⟨t, hstep, hsaved, hregisters, hmemorySize, -⟩ :=
    movem_saves (k := k) hsave hx hmask heven hregion
  have hbase : t.aRegs n = s.aRegs n - BitVec.ofNat 32 (slotBytes size (listed list)) := by
    rw [hregisters]
    exact Function.update_self _ _ _
  refine ⟨t, hstep, hsaved, hbase, fun u hu hx' hmask' => ?_⟩
  obtain ⟨hmapped, hbus⟩ := hregion
  have hcount := count_pos size
  have hbytes {j : Nat} (hj : j < (listed list).length) :
      j * size.count + size.count ≤ slotBytes size (listed list) := by
    rw [← Nat.succ_mul]
    exact Nat.mul_le_mul_right _ hj
  have hfits (j : Nat) (hj : j < (listed list).length) :
      Fits u size (u.aRegs n + BitVec.ofNat 32 (j * size.count)) := by
    have hslot := hbytes hj
    rw [hu.base, hbase]
    refine ⟨?_, .inr ?_⟩
    · rw [slot_place hbus hj, Region, hu.memorySize, hmemorySize]
      omega
    · exact slot_even hsave.size_ne heven _ _
  obtain ⟨v, hstep', hloads, hothers, hend, hmemory, -⟩ :=
    movem_loads (k := k) hrestore hx' hmask' hfits
  refine ⟨v, hstep', fun i hi hne => ?_, ?_, hothers, hmemory⟩
  -- a listed register comes back from its slot, which nothing disturbed
  · obtain ⟨j, hj, rfl⟩ := List.getElem_of_mem hi
    have hslot := hbytes hj
    rw [hloads j hj hne]
    apply registerValue_of_low hrestore.size_ne
    rw [hu.base, hbase, loadSized_toNat (slot_place hbus hj), ← hsaved.slots j hj]
    apply Num.value_congr
    intro i hi hlt
    exact hu.slots _ (by omega) (by omega)
  · rw [hend, hu.base, hbase, BitVec.sub_add_cancel]

/-- MOVEM.L D0/A0,-(A0) and MOVEM.L (A0)+,D0/A0. -/
def saveProgram : M68kCpu Unit :=
  { init (fun a => if a = 0x100 then 0x48 else if a = 0x101 then 0xE0 else
      if a = 0x102 then 0x80 else if a = 0x103 then 0x80 else if a = 0x104 then 0x4C else
      if a = 0x105 then 0xD8 else if a = 0x106 then 1 else if a = 0x107 then 1 else 0)
      0x3000 () with
    sr := 0x2700
    dRegs := fun r => if r = 0 then 0x12345678 else 0
    aRegs := fun _ => 0x1008
    pc := 0x100 }

/-- The registers that the program saves, lost and brought back. -/
theorem movem_restores_long : ∃ t, step (ackHost none) saveProgram = .ok () t ∧
    numberAt t.memory 0x1000 4 = 0x12345678 ∧ numberAt t.memory 0x1004 4 = 0x1008 ∧
    ∃ v, step (ackHost none) { t with dRegs := fun _ => 0 } = .ok () v ∧
      v.dRegs 0 = 0x12345678 ∧ v.aRegs 0 = 0x1008 := by
  have hplace : start (saveProgram.aRegs 0) (slotBytes .long (listed 0x0101)) = 0x1000 := by decide
  have hsave : MovemForm 0x48E0 false .long 4 0 := ⟨rfl, rfl, rfl, rfl, rfl⟩
  have hload : MovemForm 0x4CD8 true .long 3 0 := ⟨rfl, rfl, rfl, rfl, rfl⟩
  have hfirst : extension? saveProgram 2 = some (BitVec.reverse 0x0101) := by decide +kernel
  have hregion : Region saveProgram
      (start (saveProgram.aRegs 0) (slotBytes .long (listed 0x0101)))
      (slotBytes .long (listed 0x0101)) := ⟨by decide, by decide⟩
  obtain ⟨t, hstep, hsaved, hbase, hrestore⟩ := movem_restores (k := none) (s := saveProgram)
    (n := 0) hsave hload ⟨rfl, rfl, rfl, rfl, rfl, rfl⟩ hfirst (by decide) hregion
  have hready : (exec? (step (σ := Unit)) (ackHost none) saveProgram).map
      (fun t => (t.exceptionDepth, t.stopped, interruptDue t, t.traced, accessible t .word t.pc,
        opcodeAt t)) = some (0, false, false, false, true, 0x4CD8) := by decide +kernel
  have hmask : (exec? (step (σ := Unit)) (ackHost none) saveProgram).map
      (fun t => extension? t 2) = some (some 0x0101) := by decide +kernel
  rw [exec?, hstep] at hready hmask
  simp only [Option.map_some, Option.some.injEq, Prod.mk.injEq] at hready hmask
  obtain ⟨hdepth, hgoing, hdue, htraced, hmapped, hopcode⟩ := hready
  rw [hplace] at hrestore
  obtain ⟨v, hstep', hregisters, hend, -⟩ := hrestore { t with dRegs := fun _ => 0 }
    ⟨rfl, rfl, fun _ _ _ => rfl⟩ ⟨hdepth, hgoing, hdue, htraced, hmapped, hopcode⟩ hmask
  have hfirst := hsaved.slots 0 (by decide)
  have hsecond := hsaved.slots 1 (by decide)
  rw [hplace] at hfirst hsecond
  refine ⟨t, hstep, hfirst, hsecond, v, hstep', ?_, hend⟩
  exact hregisters 0 (by decide) (by decide)

end Instruction

end M68k
