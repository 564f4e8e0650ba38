import Rocket68.Logic.Lockstep
import Rocket68.Logic.Memory

/-!
# Two machines on equal memory

Flat machines whose contexts differ in bookkeeping only stay in lockstep: an access looks at
the mapped memory, its size and the guards, and nothing else decides what it answers.
-/

namespace M68k

open Trap TrapM

variable {σ α : Type} {k : Option (Nat → M68kCpu σ → M68kCpu σ × U32)}
  {R : M68kCpu σ → M68kCpu σ → Prop} {s t u : M68kCpu σ}

/-- Two runs under one flat host; neither is ever given up. -/
def twinPair (k : Option (Nat → M68kCpu σ → M68kCpu σ × U32)) : Pairing (Host σ) (M68kCpu σ) where
  left := ackHost k
  right := ackHost k
  lost _ := False

/-- The byte at `a` belongs to a write of this step. -/
def Announced (s : M68kCpu σ) (a : U32) : Prop := ∃ size address, ∃ i < size.bytes,
  .access .write size address ∈ s.log ∧ a = maskAddress24 address + i

/-- Related machines look alike and agree on mapped memory, and every write keeps them
related, to mapped memory where it is announced. -/
structure Twins (k : Option (Nat → M68kCpu σ → M68kCpu σ × U32))
    (R : M68kCpu σ → M68kCpu σ → Prop) : Prop where
  looks : ∀ s t, R s t → looks t = looks s
  memory : ∀ s t, R s t → ∀ a, a < s.memorySize → t.memory a = s.memory a
  memorySize : ∀ s t, R s t → t.memorySize = s.memorySize
  guard : ∀ s t, R s t → t.inBusError = s.inBusError
  write : ∀ {f : M68kCpu σ → M68kCpu σ}, Write f → ∀ s t, R s t → R (f s) (f t)
  store : ∀ a v s t, R s t → a < s.memorySize → Announced s a →
    R { s with memory := storeByte s.memory a v } { t with memory := storeByte t.memory a v }
  hold : ∀ b s t, R s t → R { s with inBusError := b } { t with inBusError := b }
  answer : ∀ cb ∈ k, ∀ level s t, R s t →
    R (cb level s).1 (cb level t).1 ∧ (cb level t).2 = (cb level s).2

namespace Twins

variable (T : Twins k R)
include T

theorem agrees : Agrees (twinPair k) R where
  looks := T.looks
  write := T.write
  stays _ _ h := h
  guardStays _ _ h := h

theorem mapped_eq (h : R s t) (size : M68kSize) (address : U32) :
    mapped t size address = mapped s size address := by
  have hvalid (a : U32) : isValidAddress t a = isValidAddress s a := by
    rw [isValidAddress, isValidAddress, T.memorySize s t h]
  cases size <;> simp only [mapped, hvalid]

/-! ## Accesses -/

theorem hold_together (b : Bool) : Together (twinPair k) R (setInBusError b) :=
  simulates_modify (fun _ h => h) (T.hold b)

/-- Hits and misses that keep the machines related make an access that does. -/
theorem access {raise : Nat → M σ Unit} (hr : RaisesAlike (twinPair k) R raise) (kind : Access)
    (size : M68kSize) (address : U32) {hit miss : M68kCpu σ → M68kCpu σ × α} (dead : α)
    (hhit : ∀ s t, R s t → mapped s size address = true → .access kind size address ∈ s.log →
      R (hit s).1 (hit t).1 ∧ (hit t).2 = (hit s).2)
    (hmiss : ∀ s t, R s t → R (miss s).1 (miss t).1 ∧ (miss t).2 = (miss s).2) :
    Together (twinPair k) R (flatAccess raise kind size address hit miss dead) := by
  refine ⟨fun _ => False.elim, fun s t h => ?_⟩
  have hnoted := T.write (.note (.access kind size address)) s t h
  have haddr : t.inAddressError = s.inAddressError := congrArg Looks.addressGuard (T.looks s t h)
  show Outcome.Sim _ R R (flatAccess raise kind size address hit miss dead (ackHost k) s)
    (flatAccess raise kind size address hit miss dead (ackHost k) t)
  rw [flatAccess_run, flatAccess_run, haddr, T.guard s t h, T.mapped_eq h]
  by_cases hodd : (misaligned size address && !s.inAddressError) = true
  · rw [if_pos hodd, if_pos hodd]
    have hfault : Together (twinPair k) R
      (addressFault raise kind address >>= fun _ => pure dead) :=
      .bind (T.agrees.addressFault hr kind address) fun _ => simulates_pure dead
    exact hfault.runs _ _ hnoted
  rw [if_neg hodd, if_neg hodd]
  by_cases hmap : mapped s size address = true
  · rw [if_pos hmap, if_pos hmap]
    obtain ⟨hstate, hvalue⟩ := hhit _ _ hnoted hmap List.mem_cons_self
    rw [hvalue]
    exact .ok hstate
  rw [if_neg hmap, if_neg hmap]
  by_cases hguard : (!s.inBusError) = true
  · rw [if_pos hguard, if_pos hguard]
    have hfault : Together (twinPair k) R (busFault raise kind address >>= fun _ => pure dead) :=
      .bind (T.agrees.busFault hr T.hold_together kind address) fun _ => simulates_pure dead
    exact hfault.runs _ _ hnoted
  · rw [if_neg hguard, if_neg hguard]
    obtain ⟨hstate, hvalue⟩ := hmiss _ _ hnoted
    rw [hvalue]
    exact .ok hstate

omit T in
/-- A program may be exchanged for one that runs alike. -/
theorem together_congr {m n : M σ α} (h : Together (twinPair k) R n)
    (heq : ∀ s, m (ackHost k) s = n (ackHost k) s) : Together (twinPair k) R m := by
  refine ⟨fun _ => False.elim, fun s t hst => ?_⟩
  show Outcome.Sim _ R R (m (ackHost k) s) (m (ackHost k) t)
  rw [heq, heq]
  exact h.runs s t hst

omit T in
theorem mapped_inside {size : M68kSize} {address i : U32} (h : mapped s size address = true)
    (hi : i < size.bytes) : maskAddress24 address + i < s.memorySize := by
  have hmask := mask_lt address
  have h1 : (1 : U32).toNat = 1 := rfl
  have h2 : (2 : U32).toNat = 2 := rfl
  have h3 : (3 : U32).toNat = 3 := rfl
  have h4 : (4 : U32).toNat = 4 := rfl
  cases size <;>
    simp only [mapped, isValidAddress, M68kSize.bytes, Bool.and_eq_true, decide_eq_true_eq,
      BitVec.lt_def, BitVec.toNat_add] at h hi ⊢ <;> omega

section Bytes

variable {size : M68kSize} {address : U32} (hmap : mapped s size address = true)
include hmap

theorem byteAt_eq (h : R s t) {i : U32} (hi : i < size.bytes) :
    t.memory (maskAddress24 address + i) = s.memory (maskAddress24 address + i) :=
  T.memory s t h _ (mapped_inside hmap hi)

theorem byte_eq (h : R s t) :
    t.memory (maskAddress24 address) = s.memory (maskAddress24 address) := by
  have hzero := T.byteAt_eq hmap h (i := 0) (by cases size <;> decide)
  simpa using hzero

theorem wordAt_eq (h : R s t) (hsize : 1 < size.bytes) :
    wordAt t.memory (maskAddress24 address) = wordAt s.memory (maskAddress24 address) := by
  rw [wordAt, wordAt, T.byte_eq hmap h, T.byteAt_eq hmap h hsize]

omit hmap in
theorem longAt_eq (hmap : mapped s .long address = true) (h : R s t) :
    longAt t.memory (maskAddress24 address) = longAt s.memory (maskAddress24 address) := by
  rw [longAt, longAt, T.byte_eq hmap h, T.byteAt_eq hmap h (by decide),
    T.byteAt_eq hmap h (by decide), T.byteAt_eq hmap h (by decide)]

variable (hlog : .access .write size address ∈ s.log)
include hlog

theorem storeByteAt {m n : U32 → U8} (h : R { s with memory := m } { t with memory := n })
    {i : U32} (hi : i < size.bytes) (v : U8) :
    R { s with memory := storeByte m (maskAddress24 address + i) v }
      { t with memory := storeByte n (maskAddress24 address + i) v } :=
  T.store _ v _ _ h (mapped_inside hmap hi) ⟨size, address, i, hi, hlog, rfl⟩

theorem storeFirst (h : R s t) (v : U8) :
    R { s with memory := storeByte s.memory (maskAddress24 address) v }
      { t with memory := storeByte t.memory (maskAddress24 address) v } := by
  have hzero := T.storeByteAt (m := s.memory) (n := t.memory) hmap hlog h (i := 0)
    (by cases size <;> decide) v
  simpa using hzero

end Bytes

section Kinds

variable {raise : Nat → M σ Unit} (hr : RaisesAlike (twinPair k) R raise) (address : U32)
include hr

/-- A read answers what memory holds. -/
theorem read (size : M68kSize) (load : (U32 → U8) → α) (dead : α)
    (hload : ∀ s t, R s t → mapped s size address = true → load t.memory = load s.memory) :
    Together (twinPair k) R
      (flatAccess raise .read size address (fun s => (s, load s.memory)) (fun s => (s, dead))
        dead) :=
  T.access hr .read size address dead (fun s t h hmap _ => ⟨h, hload s t h hmap⟩)
    fun _ _ h => ⟨h, rfl⟩

/-- A write changes agreeing memories alike. -/
theorem writeBack (size : M68kSize) (save : (U32 → U8) → U32 → U8)
    (hsave : ∀ s t, R s t → mapped s size address = true → .access .write size address ∈ s.log →
      R { s with memory := save s.memory } { t with memory := save t.memory }) :
    Together (twinPair k) R (flatAccess raise .write size address
      (fun s => ({ s with memory := save s.memory }, ())) (fun s => (s, ())) ()) :=
  T.access hr .write size address () (fun s t h hmap hlog => ⟨hsave s t h hmap hlog, rfl⟩)
    fun _ _ h => ⟨h, rfl⟩

theorem writeWord (v : U16) : Together (twinPair k) R (flatAccess raise .write .word address
    (fun s => ({ s with memory := storeWord s.memory (maskAddress24 address) v }, ()))
    (fun s => (s, ())) ()) := by
  refine T.writeBack hr address .word (storeWord · (maskAddress24 address) v) ?_
  intro s t h hmap hlog
  have hfirst := T.storeFirst hmap hlog h ((v >>> 8).setWidth 8)
  exact T.storeByteAt hmap hlog hfirst (i := 1) (by decide) (v.setWidth 8)

theorem writeLong (v : U32) : Together (twinPair k) R (flatAccess raise .write .long address
    (fun s => ({ s with memory := storeLong s.memory (maskAddress24 address) v }, ()))
    (fun s => (s, ())) ()) := by
  refine T.writeBack hr address .long (storeLong · (maskAddress24 address) v) ?_
  intro s t h hmap hlog
  have hfirst := T.storeFirst hmap hlog h ((v >>> 24).setWidth 8)
  have hsecond := T.storeByteAt hmap hlog hfirst (i := 1) (by decide) ((v >>> 16).setWidth 8)
  have hthird := T.storeByteAt hmap hlog hsecond (i := 2) (by decide) ((v >>> 8).setWidth 8)
  exact T.storeByteAt hmap hlog hthird (i := 3) (by decide) (v.setWidth 8)

end Kinds

theorem fetch (hr : RaisesAlike (twinPair k) R (M68k.exception (σ := σ))) :
    Together (twinPair k) R fetch := by
  refine ⟨fun _ => False.elim, fun s t h => ?_⟩
  have hpc : t.pc = s.pc := congrArg (fun l => l.regs.pc) (T.looks s t h)
  show Outcome.Sim _ R R (M68k.fetch (ackHost k) s) (M68k.fetch (ackHost k) t)
  rw [fetch_flat, fetch_flat, hpc]
  refine (T.access hr .fetch .word s.pc 0 ?_ ?_).runs s t h
  · exact fun u v huv hmap _ => ⟨T.write .advance u v huv, T.wordAt_eq hmap huv (by decide)⟩
  · exact fun u v huv => ⟨T.write .advance u v huv, rfl⟩

theorem acknowledge (level : Nat) : Together (twinPair k) R (acknowledge level) := by
  cases hk : k with
  | none => exact simulates_env (simulates_env (simulates_pure _))
  | some cb =>
    refine simulates_env (simulates_env (.bind (simulates_call (fun _ h => h) fun s t h => ?_)
      fun _ => simulates_pure _))
    exact T.answer cb hk level s t h

/-- Twins are in lockstep. -/
theorem lockstep : Lockstep (twinPair k) R where
  toAgrees := T.agrees
  read8 hr a := together_congr (T.read hr a .byte (· (maskAddress24 a)) 0
    fun _ _ h hmap => T.byte_eq hmap h) (read8With_flat _ k a)
  read16 hr a := together_congr (T.read hr a .word (wordAt · (maskAddress24 a)) 0
    fun _ _ h hmap => T.wordAt_eq hmap h (by decide)) (read16With_flat _ k a)
  read32 hr a := together_congr (T.read hr a .long (longAt · (maskAddress24 a)) 0
    fun _ _ h hmap => T.longAt_eq hmap h) (read32With_flat _ k a)
  write8 hr a v := together_congr (T.writeBack hr a .byte (storeByte · (maskAddress24 a) v)
    fun _ _ h hmap hlog => T.storeFirst hmap hlog h v) fun s => write8With_flat _ k a s v
  write16 hr a v := together_congr (T.writeWord hr a v) fun s => write16With_flat _ k a s v
  write32 hr a v := together_congr (T.writeLong hr a v) fun s => write32With_flat _ k a s v
  fetch hr := T.fetch hr
  setPc v := .bind (T.agrees.modify (.setPc v)) fun _ => simulates_env (simulates_pure _)
  claimed _ := .ite (fun _ => simulates_env (simulates_pure _)) fun _ => simulates_pure _
  tas := simulates_env (simulates_pure _)
  reset := simulates_env (simulates_pure _)
  acknowledge := T.acknowledge
  instrHook := simulates_env (simulates_pure _)
  held := rfl
  busTarget hr target faultPc := T.agrees.busTarget T.hold_together hr target faultPc

theorem peeks : Lockstep.Peeks (twinPair k) R := by
  intro a
  constructor
  · refine simulates_env ?_
    refine ⟨fun _ => False.elim, fun s t h => ?_⟩
    have hpeek (u : M68kCpu σ) : (gets id >>= fun s : M68kCpu σ =>
        if maskAddress24 a + 1 < s.memorySize then pure (wordAt s.memory (maskAddress24 a))
        else pure 0 : M σ U16) (ackHost k) u =
          .ok (if maskAddress24 a + 1 < u.memorySize then wordAt u.memory (maskAddress24 a) else 0)
            u := by
      rw [gets_bind, ite_run, id]
      split <;> rfl
    show Outcome.Sim _ R R ((gets id >>= _ : M σ U16) (ackHost k) s)
      ((gets id >>= _ : M σ U16) (ackHost k) t)
    rw [hpeek, hpeek, T.memorySize s t h]
    by_cases hroom : maskAddress24 a + 1 < s.memorySize
    · have hmap : mapped s .word a = true := by
        have hmask := mask_lt a
        have h1 : (1 : U32).toNat = 1 := rfl
        simp only [mapped, isValidAddress, Bool.and_eq_true, decide_eq_true_eq, BitVec.lt_def,
          BitVec.toNat_add] at hroom ⊢
        omega
      rw [if_pos hroom, if_pos hroom, T.wordAt_eq hmap h (by decide)]
      exact .ok h
    · rw [if_neg hroom, if_neg hroom]
      exact .ok h
  · refine simulates_env (simulates_gets fun s t h => ?_)
    have hvalid (b : U32) : isValidAddress t b = isValidAddress s b := by
      rw [isValidAddress, isValidAddress, T.memorySize s t h]
    simp only [hvalid]

/-! ## Steps -/

/-- Machines related once their latches are cleared make related steps. -/
theorem stepEx (check : Bool) (h : R (beginStep s) (beginStep t)) :
    Outcome.Sim (fun _ => False) R R (stepEx check (ackHost k) s) (stepEx check (ackHost k) t) := by
  obtain ⟨rest, hrest, heq⟩ := T.lockstep.stepEx T.peeks check
  rw [heq, modify_bind, modify_bind]
  exact hrest.runs _ _ h

theorem stepEx_ok {check : Bool} (h : R (beginStep s) (beginStep t))
    (hs : M68k.stepEx check (ackHost k) s = .ok () u) :
    ∃ v, M68k.stepEx check (ackHost k) t = .ok () v ∧ R u v := by
  have key := T.stepEx check h
  rw [hs] at key
  generalize M68k.stepEx check (ackHost k) t = o at key ⊢
  cases key with
  | ok h => exact ⟨_, rfl, h⟩
  | lost h => exact h.elim

end Twins

end M68k
