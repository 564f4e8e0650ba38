import Rocket68.Step
import Rocket68.Trap.Wp

/-!
# Accesses to flat memory

Under a host with no callback but INT ACK, the seven access functions of the
source are one: note the access, then fault on an odd address, hit mapped
memory, fault on unmapped memory, or miss under a held bus error guard. The
lemmas about accesses are proved once, about `flatAccess`.
-/

namespace M68k

open Trap TrapM

variable {σ α : Type}

/-- A host with at most an INT ACK callback. -/
def ackHost (ack : Option (Nat → M68kCpu σ → M68kCpu σ × U32)) : Host σ :=
  { Host.none σ with intAck := ack }

@[simp] theorem ackHost_none : ackHost none = Host.none σ := rfl

/-- All bytes of an access lie inside the bound memory. -/
def mapped (s : M68kCpu σ) (size : M68kSize) (address : U32) : Bool :=
  let a := maskAddress24 address
  match size with
  | .byte => isValidAddress s a
  | .word => isValidAddress s a && isValidAddress s (a + 1)
  | .long => isValidAddress s a && isValidAddress s (a + 3)

/-- A word or long access to an odd address. -/
def misaligned (size : M68kSize) (address : U32) : Bool :=
  match size with
  | .byte => false
  | .word | .long => isOdd address

/-- An access that raises nothing. -/
def accessible (s : M68kCpu σ) (size : M68kSize) (address : U32) : Bool :=
  !misaligned size address && mapped s size address

theorem isOdd_mask (address : U32) : isOdd (maskAddress24 address) = isOdd address := by
  have h : (0x00FFFFFF#32 &&& 1#32) = 1#32 := by decide
  simp [isOdd, maskAddress24, BitVec.and_assoc, h]

/-- An access to flat memory: `hit` on mapped memory, `miss` on unmapped memory
under a held bus error guard, and the value `dead` after a fault that did not
unwind. -/
def flatAccess (raise : Nat → M σ Unit) (kind : Access) (size : M68kSize) (address : U32)
    (hit miss : M68kCpu σ → M68kCpu σ × α) (dead : α) : M σ α := do
  note (.access kind size address)
  let s ← gets id
  if misaligned size address && !s.inAddressError then do
    addressFault raise kind address
    pure dead
  else if mapped s size address then
    call hit
  else if !s.inBusError then do
    busFault raise kind address
    pure dead
  else
    call miss

/-- The value of a read at a masked address. -/
def loadSized (size : M68kSize) (memory : U32 → U8) (address : U32) : U32 :=
  match size with
  | .byte => (memory address).setWidth 32
  | .word => (wordAt memory address).setWidth 32
  | .long => longAt memory address

/-- Memory after a write at a masked address. -/
def storeSized (size : M68kSize) (memory : U32 → U8) (address value : U32) : U32 → U8 :=
  match size with
  | .byte => storeByte memory address (value.setWidth 8)
  | .word => storeWord memory address (value.setWidth 16)
  | .long => storeLong memory address value

theorem flatAccess_run (raise : Nat → M σ Unit) (kind : Access) (size : M68kSize) (address : U32)
    (hit miss : M68kCpu σ → M68kCpu σ × α) (dead : α) (h : Host σ) (s : M68kCpu σ) :
    flatAccess raise kind size address hit miss dead h s =
      if misaligned size address && !s.inAddressError then
        (addressFault raise kind address >>= fun _ => pure dead) h
          (s.noted (.access kind size address))
      else if mapped s size address then
        .ok (hit (s.noted (.access kind size address))).2
          (hit (s.noted (.access kind size address))).1
      else if !s.inBusError then
        (busFault raise kind address >>= fun _ => pure dead) h
          (s.noted (.access kind size address))
      else
        .ok (miss (s.noted (.access kind size address))).2
          (miss (s.noted (.access kind size address))).1 := by
  simp only [flatAccess, note, modify_bind, gets_bind, ite_run]
  rfl

section Equations

variable (raise : Nat → M σ Unit) (k : Option (Nat → M68kCpu σ → M68kCpu σ × U32))
  (address : U32) (s : M68kCpu σ)

theorem applyWaitBus_quiet (size : M68kSize) (isWrite : Bool) :
    applyWaitBus address size isWrite (ackHost k) s = .ok () s := rfl

theorem setFc_quiet (isProgram : Bool) : setFc isProgram (ackHost k) s = .ok () s := rfl

theorem read8With_flat :
    read8With raise address (ackHost k) s =
      flatAccess raise .read .byte address (fun s => (s, s.memory (maskAddress24 address)))
        (fun s => (s, 0)) 0 (ackHost k) s := by
  simp only [read8With, flatAccess, note, modify_bind, gets_bind, env_bind,
    bind_ok (applyWaitBus_quiet _ _ _ _ _), bind_ok (setFc_quiet _ _ _)]
  simp only [ackHost, Host.none, gets_bind, ite_run, misaligned, Bool.false_and,
    Bool.false_eq_true, if_false]
  rfl

theorem read16With_flat :
    read16With raise address (ackHost k) s =
      flatAccess raise .read .word address (fun s => (s, wordAt s.memory (maskAddress24 address)))
        (fun s => (s, 0)) 0 (ackHost k) s := by
  simp only [read16With, flatAccess, note, modify_bind, gets_bind, isOdd_mask,
    bind_ok (applyWaitBus_quiet _ _ _ _ _), bind_ok (setFc_quiet _ _ _)]
  simp only [ackHost, Host.none, env_bind, ite_run]
  rfl

theorem read32With_flat :
    read32With raise address (ackHost k) s =
      flatAccess raise .read .long address (fun s => (s, longAt s.memory (maskAddress24 address)))
        (fun s => (s, 0)) 0 (ackHost k) s := by
  simp only [read32With, flatAccess, note, modify_bind, gets_bind, isOdd_mask,
    bind_ok (applyWaitBus_quiet _ _ _ _ _), bind_ok (setFc_quiet _ _ _)]
  simp only [ackHost, Host.none, env_bind, ite_run]
  rfl

theorem write8With_flat (value : U8) :
    write8With raise address value (ackHost k) s =
      flatAccess raise .write .byte address
        (fun s => ({ s with memory := storeByte s.memory (maskAddress24 address) value }, ()))
        (fun s => (s, ())) () (ackHost k) s := by
  simp only [write8With, flatAccess, note, modify_bind, gets_bind, env_bind,
    bind_ok (applyWaitBus_quiet _ _ _ _ _), bind_ok (setFc_quiet _ _ _)]
  simp only [ackHost, Host.none, gets_bind, ite_run, bind_pure_unit, misaligned, Bool.false_and,
    Bool.false_eq_true, if_false]
  rfl

theorem write16With_flat (value : U16) :
    write16With raise address value (ackHost k) s =
      flatAccess raise .write .word address
        (fun s => ({ s with memory := storeWord s.memory (maskAddress24 address) value }, ()))
        (fun s => (s, ())) () (ackHost k) s := by
  simp only [write16With, flatAccess, note, modify_bind, gets_bind, isOdd_mask,
    bind_ok (applyWaitBus_quiet _ _ _ _ _), bind_ok (setFc_quiet _ _ _)]
  simp only [ackHost, Host.none, env_bind, ite_run, bind_pure_unit]
  rfl

theorem write32With_flat (value : U32) :
    write32With raise address value (ackHost k) s =
      flatAccess raise .write .long address
        (fun s => ({ s with memory := storeLong s.memory (maskAddress24 address) value }, ()))
        (fun s => (s, ())) () (ackHost k) s := by
  simp only [write32With, flatAccess, note, modify_bind, gets_bind, isOdd_mask,
    bind_ok (applyWaitBus_quiet _ _ _ _ _), bind_ok (setFc_quiet _ _ _)]
  simp only [ackHost, Host.none, env_bind, ite_run, bind_pure_unit]
  rfl

theorem fetch_flat :
    fetch (ackHost k) s =
      flatAccess exception .fetch .word s.pc
        (fun t => ({ t with pc := t.pc + 2 }, wordAt t.memory (maskAddress24 s.pc)))
        (fun t => ({ t with pc := t.pc + 2 }, 0)) 0 (ackHost k) s := by
  simp only [fetch, getPc, flatAccess, note, modify_bind, gets_bind, isOdd_mask,
    bind_ok (applyWaitBus_quiet _ _ _ _ _), bind_ok (setFc_quiet _ _ _)]
  simp only [ackHost, Host.none, env_bind, ite_run]
  rfl

end Equations

end M68k
