import Rocket68.Logic.Lockstep
import Rocket68.Logic.Memory

/-!
# Memory behind callbacks

A host may keep the memory itself and answer every access through the six memory
callbacks. `arrayHost` does so over a byte array; a machine on flat memory and one on
`arrayHost` stay mirror images of each other until the flat one takes a bus error.
-/

namespace M68k

open Trap TrapM

variable {α : Type}

/-- The bytes of an array of `size` bytes: outside, 0. -/
def bytesWithin (size : U32) (bytes : U32 → U8) : U32 → U8 :=
  fun a => if a < size then bytes a else 0

/-- A store to an array of `size` bytes: outside, ignored. -/
def storeWithin (size : U32) (bytes stored : U32 → U8) : U32 → U8 :=
  fun a => if a < size then stored a else bytes a

/-- A host whose six memory callbacks implement a big-endian array of `size` bytes. -/
def arrayHost (size : U32) : Host (U32 → U8) :=
  { Host.none (U32 → U8) with
    read8Cb := some fun a s => (s, bytesWithin size s.host a)
    read16Cb := some fun a s => (s, wordAt (bytesWithin size s.host) a)
    read32Cb := some fun a s => (s, longAt (bytesWithin size s.host) a)
    write8Cb := some fun a v s =>
      ({ s with host := storeWithin size s.host (storeByte s.host a v) }, ())
    write16Cb := some fun a v s =>
      ({ s with host := storeWithin size s.host (storeWord s.host a v) }, ())
    write32Cb := some fun a v s =>
      ({ s with host := storeWithin size s.host (storeLong s.host a v) }, ()) }

/-- The machine with its memory behind the host, bound to a memory it does not use. -/
def mirrored (memory : U32 → U8) (memorySize : U32) (s : M68kCpu (U32 → U8)) :
    M68kCpu (U32 → U8) :=
  { s with memory := memory, memorySize := memorySize, host := s.memory }

/-- Flat memory on the left, `arrayHost` on the right, until a bus error is taken. -/
def mirrorPair (size : U32) : Pairing (Host (U32 → U8)) (M68kCpu (U32 → U8)) where
  left := Host.none (U32 → U8)
  right := arrayHost size
  lost s := .exception 2 ∈ s.log

section

variable {size : U32} {memory : U32 → U8} {memorySize : U32} {fact : Prop}
  {s t : M68kCpu (U32 → U8)}

/-- `t` is the mirror image of `s`, which has `size` bytes of memory and holds no bus
error guard; and `fact` is known. -/
structure Mirrors (size : U32) (memory : U32 → U8) (memorySize : U32) (fact : Prop)
    (s t : M68kCpu (U32 → U8)) : Prop where
  image : t = mirrored memory memorySize s
  size : s.memorySize = size
  guard : s.inBusError = false
  known : fact

theorem Mirrors.write {f : M68kCpu (U32 → U8) → M68kCpu (U32 → U8)} (hf : Write f)
    (h : Mirrors size memory memorySize fact s t) :
      Mirrors size memory memorySize fact (f s) (f t) := by
  obtain ⟨rfl, hsize, hguard, hfact⟩ := h
  cases hf with
  | setSr v =>
    rw [withSr_eq, withSr_eq]
    exact ⟨rfl, hsize, hguard, hfact⟩
  | control c v => cases c <;> exact ⟨rfl, hsize, hguard, hfact⟩
  | _ => exact ⟨rfl, hsize, hguard, hfact⟩

/-- Assignments only add to the log. -/
theorem Write.mem_log {σ : Type} {f : M68kCpu σ → M68kCpu σ} (hf : Write f) {e : Event}
    {s : M68kCpu σ} (h : e ∈ s.log) : e ∈ (f s).log := by
  cases hf with
  | setSr v =>
    rw [withSr_eq]
    exact h
  | control c v => cases c <;> exact h
  | enter | note => exact List.mem_cons_of_mem _ h
  | _ => exact h

theorem mirrors_agrees : Agrees (mirrorPair size) (Mirrors size memory memorySize fact) where
  looks := by
    rintro s _ ⟨rfl, -, -, -⟩
    rfl
  write hf _ _ h := h.write hf
  stays hf _ h := hf.mem_log h
  guardStays _ _ h := h

/-! ## Accesses -/

/-- An access through a memory callback: only a misaligned one is faulted before the
callback is called. -/
def hostAccess (raise : Nat → M (U32 → U8) Unit) (kind : Access) (size : M68kSize) (address : U32)
    (answer : M68kCpu (U32 → U8) → M68kCpu (U32 → U8) × α) (dead : α) : M (U32 → U8) α := do
  note (.access kind size address)
  let s ← gets id
  if misaligned size address && !s.inAddressError then do
    addressFault raise kind address
    pure dead
  else
    call answer

section Equations

variable (raise : Nat → M (U32 → U8) Unit) (address : U32)

theorem applyWaitBus_host (kind : M68kSize) (isWrite : Bool) :
    applyWaitBus address kind isWrite (arrayHost size) t = .ok () t := rfl

theorem setFc_host (isProgram : Bool) : setFc isProgram (arrayHost size) t = .ok () t := rfl

theorem read8With_host : read8With raise address (arrayHost size) t =
    hostAccess raise .read .byte address
      (fun s => (s, bytesWithin size s.host (maskAddress24 address))) 0 (arrayHost size) t := rfl

theorem read16With_host : read16With raise address (arrayHost size) t =
    hostAccess raise .read .word address
      (fun s => (s, wordAt (bytesWithin size s.host) (maskAddress24 address))) 0
      (arrayHost size) t := by
  simp only [read16With, hostAccess, note, modify_bind, gets_bind, isOdd_mask,
    bind_ok (applyWaitBus_host _ _ _), bind_ok (setFc_host _)]
  simp only [arrayHost, env_bind, ite_run]
  rfl

theorem read32With_host : read32With raise address (arrayHost size) t =
    hostAccess raise .read .long address
      (fun s => (s, longAt (bytesWithin size s.host) (maskAddress24 address))) 0
      (arrayHost size) t := by
  simp only [read32With, hostAccess, note, modify_bind, gets_bind, isOdd_mask,
    bind_ok (applyWaitBus_host _ _ _), bind_ok (setFc_host _)]
  simp only [arrayHost, env_bind, ite_run]
  rfl

theorem write8With_host (v : U8) : write8With raise address v (arrayHost size) t =
    hostAccess raise .write .byte address (fun s => ({ s with
      host := storeWithin size s.host (storeByte s.host (maskAddress24 address) v) }, ())) ()
      (arrayHost size) t := rfl

theorem write16With_host (v : U16) : write16With raise address v (arrayHost size) t =
    hostAccess raise .write .word address (fun s => ({ s with
      host := storeWithin size s.host (storeWord s.host (maskAddress24 address) v) }, ())) ()
      (arrayHost size) t := by
  simp only [write16With, hostAccess, note, modify_bind, gets_bind, isOdd_mask,
    bind_ok (applyWaitBus_host _ _ _), bind_ok (setFc_host _)]
  simp only [arrayHost, env_bind, ite_run, bind_pure_unit]
  rfl

theorem write32With_host (v : U32) : write32With raise address v (arrayHost size) t =
    hostAccess raise .write .long address (fun s => ({ s with
      host := storeWithin size s.host (storeLong s.host (maskAddress24 address) v) }, ())) ()
      (arrayHost size) t := by
  simp only [write32With, hostAccess, note, modify_bind, gets_bind, isOdd_mask,
    bind_ok (applyWaitBus_host _ _ _), bind_ok (setFc_host _)]
  simp only [arrayHost, env_bind, ite_run, bind_pure_unit]
  rfl

theorem fetch_host : fetch (arrayHost size) t =
    hostAccess exception .fetch .word t.pc (fun s => ({ s with pc := s.pc + 2 },
      wordAt (bytesWithin size s.host) (maskAddress24 t.pc))) 0 (arrayHost size) t := by
  simp only [fetch, getPc, hostAccess, note, modify_bind, gets_bind, isOdd_mask,
    bind_ok (applyWaitBus_host _ _ _), bind_ok (setFc_host _)]
  simp only [arrayHost, env_bind, ite_run]
  rfl

end Equations

/-! ## The array holds what flat memory holds -/

theorem mapped_lt {width : M68kSize} {address i : U32} (h : mapped s width address = true)
    (hi : i < width.bytes) : maskAddress24 address + i < s.memorySize := by
  have hmask := mask_lt address
  have h1 : (1 : U32).toNat = 1 := rfl
  have h2 : (2 : U32).toNat = 2 := rfl
  have h3 : (3 : U32).toNat = 3 := rfl
  have h4 : (4 : U32).toNat = 4 := rfl
  cases width <;>
    simp only [mapped, isValidAddress, M68kSize.bytes, Bool.and_eq_true, decide_eq_true_eq,
      BitVec.lt_def, BitVec.toNat_add] at h hi ⊢ <;> omega

theorem byteAt_within {width : M68kSize} {address i : U32} (h : mapped s width address = true)
    (hi : i < width.bytes) : bytesWithin s.memorySize s.memory (maskAddress24 address + i) =
      s.memory (maskAddress24 address + i) := if_pos (mapped_lt h hi)

theorem byte_within {width : M68kSize} {address : U32} (h : mapped s width address = true) :
    bytesWithin s.memorySize s.memory (maskAddress24 address) =
      s.memory (maskAddress24 address) := by
  have hzero := byteAt_within (i := 0) h (by cases width <;> decide)
  simpa using hzero

theorem wordAt_within {address : U32} (h : mapped s .word address = true) :
    wordAt (bytesWithin s.memorySize s.memory) (maskAddress24 address) =
      wordAt s.memory (maskAddress24 address) := by
  rw [wordAt, byte_within h, byteAt_within h (by decide)]
  rfl

theorem longAt_within {address : U32} (h : mapped s .long address = true) :
    longAt (bytesWithin s.memorySize s.memory) (maskAddress24 address) =
      longAt s.memory (maskAddress24 address) := by
  rw [longAt, byte_within h, byteAt_within h (by decide), byteAt_within h (by decide),
    byteAt_within h (by decide)]
  rfl

/-- A store that changes only bytes inside goes through. -/
theorem storeWithin_eq {stored : U32 → U8}
    (h : ∀ a, ¬a < s.memorySize → stored a = s.memory a) :
    storeWithin s.memorySize s.memory stored = stored := by
  funext a
  unfold storeWithin
  split
  · rfl
  · next ha => exact (h a ha).symm

theorem storeSized_within {width : M68kSize} {address : U32} (value : U32)
    (h : mapped s width address = true) :
    storeWithin s.memorySize s.memory
        (storeSized width s.memory (maskAddress24 address) value) =
      storeSized width s.memory (maskAddress24 address) value := by
  apply storeWithin_eq
  intro a ha
  have hne (i : U32) (hi : i < width.bytes) : a ≠ maskAddress24 address + i := by
    rintro rfl
    exact ha (mapped_lt h hi)
  have hne0 : a ≠ maskAddress24 address := by
    have hzero := hne 0 (by cases width <;> decide)
    simpa using hzero
  cases width with
  | byte => exact Function.update_of_ne hne0 _ _
  | word =>
    rw [storeSized, storeWord, storeByte, Function.update_of_ne (hne 1 (by decide)), storeByte,
      Function.update_of_ne hne0]
  | long =>
    rw [storeSized, storeLong, storeByte, Function.update_of_ne (hne 3 (by decide)), storeByte,
      Function.update_of_ne (hne 2 (by decide)), storeByte,
      Function.update_of_ne (hne 1 (by decide)), storeByte, Function.update_of_ne hne0]

/-! ## Machines in mirror image -/

variable {raise : Nat → M (U32 → U8) Unit}

theorem enter_lost (s : M68kCpu (U32 → U8)) : (mirrorPair size).lost (enterException 2 s) :=
  List.mem_cons_self

/-- A lost flat machine stays lost over an access. -/
theorem flatAccess_stays
    (hr : RaisesAlike (mirrorPair size) (Mirrors size memory memorySize fact) raise) (kind : Access)
    (width : M68kSize) (address : U32)
    {hit miss : M68kCpu (U32 → U8) → M68kCpu (U32 → U8) × α} (dead : α)
    (hhit : ∀ s, (hit s).1.log = s.log) (hmiss : ∀ s, (miss s).1.log = s.log)
    (hs : (mirrorPair size).lost s) :
    (flatAccess raise kind width address hit miss dead (mirrorPair size).left s).Ends
      (mirrorPair size).lost := by
  have hnoted : (mirrorPair size).lost (s.noted (.access kind width address)) :=
    List.mem_cons_of_mem _ hs
  rw [flatAccess_run]
  split
  · exact ends_bind ((mirrors_agrees.addressFault hr kind address).stays _ hnoted)
      fun _ _ ht => ht
  · split
    · show Event.exception 2 ∈ (hit _).1.log
      rw [hhit]
      exact hnoted
    · split
      · exact ends_bind (mirrors_agrees.busFault_ends hr enter_lost kind address _)
          fun _ _ ht => ht
      · show Event.exception 2 ∈ (miss _).1.log
        rw [hmiss]
        exact hnoted

/-- An access through the array mirrors one to flat memory. -/
theorem access_mirrors
    (hr : RaisesAlike (mirrorPair size) (Mirrors size memory memorySize fact) raise) (kind : Access)
    (width : M68kSize) (address : U32)
    {hit miss answer : M68kCpu (U32 → U8) → M68kCpu (U32 → U8) × α} (dead : α)
    (hanswer : ∀ s t, Mirrors size memory memorySize fact s t → mapped s width address = true →
      Mirrors size memory memorySize fact (hit s).1 (answer t).1 ∧ (answer t).2 = (hit s).2)
    (h : Mirrors size memory memorySize fact s t) :
    Outcome.Sim (mirrorPair size).lost (Mirrors size memory memorySize fact)
      (Mirrors size memory memorySize fact)
      (flatAccess raise kind width address hit miss dead (mirrorPair size).left s)
      (hostAccess raise kind width address answer dead (mirrorPair size).right t) := by
  have hnoted := h.write (.note (.access kind width address))
  have hright : hostAccess raise kind width address answer dead (mirrorPair size).right t =
      if misaligned width address && !s.inAddressError then
        (addressFault raise kind address >>= fun _ => pure dead) (mirrorPair size).right
          (t.noted (.access kind width address))
      else
        .ok (answer (t.noted (.access kind width address))).2
          (answer (t.noted (.access kind width address))).1 := by
    have hguard : t.inAddressError = s.inAddressError := by
      rw [h.image]
      rfl
    rw [← hguard]
    simp only [hostAccess, note, modify_bind, gets_bind, ite_run]
    rfl
  rw [flatAccess_run, hright]
  by_cases hodd : (misaligned width address && !s.inAddressError) = true
  · rw [if_pos hodd, if_pos hodd]
    have hfault : Together (mirrorPair size) (Mirrors size memory memorySize fact)
        (addressFault raise kind address >>= fun _ => pure dead) :=
      .bind (mirrors_agrees.addressFault hr kind address) fun _ => simulates_pure dead
    exact hfault.runs _ _ hnoted
  · rw [if_neg hodd, if_neg hodd]
    by_cases hmap : mapped s width address = true
    · rw [if_pos hmap]
      obtain ⟨hstate, hvalue⟩ := hanswer _ _ hnoted hmap
      rw [hvalue]
      exact .ok hstate
    · -- Unmapped memory faults: the flat machine holds no bus error guard.
      rw [if_neg hmap, if_pos (by rw [h.guard]; rfl)]
      exact .lost (ends_bind (mirrors_agrees.busFault_ends hr enter_lost kind address _)
        fun _ _ ht => ht)

/-- An access function keeps the machines in mirror image. -/
theorem access_together
    (hr : RaisesAlike (mirrorPair size) (Mirrors size memory memorySize fact) raise) {kind : Access}
    {width : M68kSize} {address : U32} {m : M (U32 → U8) α}
    {hit miss answer : M68kCpu (U32 → U8) → M68kCpu (U32 → U8) × α} {dead : α}
    (hleft : ∀ s, m (mirrorPair size).left s =
      flatAccess raise kind width address hit miss dead (mirrorPair size).left s)
    (hright : ∀ t, m (mirrorPair size).right t =
      hostAccess raise kind width address answer dead (mirrorPair size).right t)
    (hhit : ∀ s, (hit s).1.log = s.log) (hmiss : ∀ s, (miss s).1.log = s.log)
    (hanswer : ∀ s t, Mirrors size memory memorySize fact s t → mapped s width address = true →
      Mirrors size memory memorySize fact (hit s).1 (answer t).1 ∧ (answer t).2 = (hit s).2) :
    Together (mirrorPair size) (Mirrors size memory memorySize fact) m := by
  constructor
  · intro s hs
    rw [hleft]
    exact flatAccess_stays hr kind width address dead hhit hmiss hs
  · intro s t h
    rw [hleft, hright]
    exact access_mirrors hr kind width address dead hanswer h

/-- A write, whose effect on memory is `store`. -/
theorem write_together
    (hr : RaisesAlike (mirrorPair size) (Mirrors size memory memorySize fact) raise)
    {width : M68kSize}
    {address : U32} {m : M (U32 → U8) Unit} (store : (U32 → U8) → U32 → U8)
    (hleft : ∀ s, m (mirrorPair size).left s = flatAccess raise .write width address
      (fun s => ({ s with memory := store s.memory }, ())) (fun s => (s, ())) ()
      (mirrorPair size).left s)
    (hright : ∀ t, m (mirrorPair size).right t = hostAccess raise .write width address
      (fun s => ({ s with host := storeWithin size s.host (store s.host) }, ())) ()
      (mirrorPair size).right t)
    (hstore : ∀ s : M68kCpu (U32 → U8), mapped s width address = true →
      storeWithin s.memorySize s.memory (store s.memory) = store s.memory) :
    Together (mirrorPair size) (Mirrors size memory memorySize fact) m := by
  refine access_together hr hleft hright (fun _ => rfl) (fun _ => rfl) ?_
  rintro s _ ⟨rfl, rfl, hguard, hfact⟩ hmap
  refine ⟨⟨?_, rfl, hguard, hfact⟩, rfl⟩
  show { mirrored memory memorySize s with
    host := storeWithin s.memorySize s.memory (store s.memory) } = _
  rw [hstore s hmap]
  rfl

theorem fetch_together
    (hr : RaisesAlike (mirrorPair size) (Mirrors size memory memorySize fact) exception) :
    Together (mirrorPair size) (Mirrors size memory memorySize fact) fetch := by
  constructor
  · intro s hs
    show Outcome.Ends _ (fetch (ackHost none) s)
    rw [fetch_flat]
    exact flatAccess_stays hr .fetch .word s.pc 0 (fun _ => rfl) (fun _ => rfl) hs
  · intro s t h
    show Outcome.Sim _ _ _ (fetch (ackHost none) s) (fetch (arrayHost size) t)
    have hpc : t.pc = s.pc := by
      rw [h.image]
      rfl
    rw [fetch_flat, fetch_host, hpc]
    refine access_mirrors hr .fetch .word s.pc 0 ?_ h
    rintro s _ ⟨rfl, rfl, hguard, hfact⟩ hmap
    exact ⟨⟨rfl, rfl, hguard, hfact⟩, wordAt_within hmap⟩

/-- Up to its bus errors, flat memory is in lockstep with the array. -/
theorem mirrors_lockstep : Lockstep (mirrorPair size) (Mirrors size memory memorySize fact) where
  toAgrees := mirrors_agrees
  read8 hr a := by
    refine access_together hr (read8With_flat _ none a) (fun _ => read8With_host _ a)
      (fun _ => rfl) (fun _ => rfl) ?_
    rintro s _ ⟨rfl, rfl, hguard, hfact⟩ hmap
    exact ⟨⟨rfl, rfl, hguard, hfact⟩, byte_within hmap⟩
  read16 hr a := by
    refine access_together hr (read16With_flat _ none a) (fun _ => read16With_host _ a)
      (fun _ => rfl) (fun _ => rfl) ?_
    rintro s _ ⟨rfl, rfl, hguard, hfact⟩ hmap
    exact ⟨⟨rfl, rfl, hguard, hfact⟩, wordAt_within hmap⟩
  read32 hr a := by
    refine access_together hr (read32With_flat _ none a) (fun _ => read32With_host _ a)
      (fun _ => rfl) (fun _ => rfl) ?_
    rintro s _ ⟨rfl, rfl, hguard, hfact⟩ hmap
    exact ⟨⟨rfl, rfl, hguard, hfact⟩, longAt_within hmap⟩
  write8 hr a v := write_together hr (storeByte · (maskAddress24 a) v)
    (fun s => write8With_flat _ none a s v) (fun _ => write8With_host _ a v) fun s hmap => by
      have hvalue : ((v.setWidth 32).setWidth 8 : U8) = v := by
        simp [BitVec.setWidth_setWidth_of_le]
      have hstore := storeSized_within (v.setWidth 32) hmap
      rwa [storeSized, hvalue] at hstore
  write16 hr a v := write_together hr (storeWord · (maskAddress24 a) v)
    (fun s => write16With_flat _ none a s v) (fun _ => write16With_host _ a v) fun s hmap => by
      have hvalue : ((v.setWidth 32).setWidth 16 : U16) = v := by
        simp [BitVec.setWidth_setWidth_of_le]
      have hstore := storeSized_within (v.setWidth 32) hmap
      rwa [storeSized, hvalue] at hstore
  write32 hr a v := write_together hr (storeLong · (maskAddress24 a) v)
    (fun s => write32With_flat _ none a s v) (fun _ => write32With_host _ a v)
    fun s hmap => storeSized_within v hmap
  fetch hr := fetch_together hr
  setPc v := .bind (mirrors_agrees.modify (.setPc v)) fun _ => simulates_env (simulates_pure _)
  claimed v := .ite (fun _ => simulates_env (simulates_pure _)) fun _ => simulates_pure _
  tas := simulates_env (simulates_pure _)
  reset := simulates_env (simulates_pure _)
  acknowledge _ := simulates_env (simulates_env (simulates_pure _))
  instrHook := simulates_env (simulates_pure _)
  held := rfl
  busTarget hr target faultPc :=
    .of_ends (mirrors_agrees.busTarget_ends hr enter_lost target faultPc)

end

end M68k
