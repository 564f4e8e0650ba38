import Rocket68.Logic.Step
import Rocket68.Logic.Memory

/-!
# One instruction, undisturbed

A step that neither stops, nor is interrupted, nor traced executes the instruction at the
PC; and an instruction whose accesses hit mapped memory goes through to its end. The
theorems about what sequences of instructions compute chain such steps.
-/

namespace M68k

open Trap TrapM

variable {σ : Type} {k : Option (Nat → M68kCpu σ → M68kCpu σ × U32)} {s u : M68kCpu σ}

/-- The next step executes the instruction `op`. -/
structure Executes (op : U16) (s : M68kCpu σ) : Prop where
  depth : s.exceptionDepth = 0
  going : s.stopped = false
  uninterrupted : interruptDue s = false
  untraced : s.traced = false
  mapped : accessible s .word s.pc = true
  opcode : opcodeAt s = op

/-- The step is the instruction, when that returns without an exception at an even PC. -/
theorem Executes.step {op : U16} {cycles : Int} (hx : Executes op s)
    (hrun : dispatch op (ackHost k) (fetched s) = .ok cycles u) (hthrown : u.exceptionThrown = 0)
    (heven : isOdd u.pc = false) :
    step (ackHost k) s = .ok () (charged cycles (disarmed u)) := by
  have hservice : serviceInterrupts true (ackHost k) (beginStep s) = .ok false (beginStep s) :=
    checkInterrupts_not_due (s := beginStep s) hx.uninterrupted
  have hexec : execInstruction true s.traced (ackHost k) (beginStep s) =
      (dispatch (opcodeAt s) >>= finishStep true s.traced) (ackHost k) (fetched s) := by
    rw [execInstruction, modify_bind]
    exact (bind_ok (fetch_hit (k := k) (armed_running hx.depth) hx.mapped)).trans rfl
  have hfinish : finishStep true s.traced cycles (ackHost k) u =
      .ok () (charged cycles (disarmed u)) := by
    have htarget : checkTarget (ackHost k) (disarmed u) = .ok () (disarmed u) := by
      have hodd : isOdd (disarmed u).pc = false := heven
      rw [checkTarget, gets_bind, id, hodd, Bool.false_and, if_neg Bool.false_ne_true]
      rfl
    have htrace : traceDue true s.traced (disarmed u) = false := by
      rw [traceDue, hx.untraced, Bool.and_false, Bool.false_and]
    show (checkTarget >>= fun _ => deliverTrace true s.traced >>= fun _ =>
      charge (exceptionCost u.exceptionThrown cycles)) (ackHost k) (disarmed u) = _
    rw [bind_ok htarget, bind_ok (deliverTrace_not_due htrace), hthrown]
    rfl
  have hinstruction : catchTrap (execInstruction true s.traced) abortInstruction (ackHost k)
      (beginStep s) = .ok () (charged cycles (disarmed u)) := by
    apply catchTrap_ok
    rw [hexec, hx.opcode, bind_ok hrun]
    exact hfinish
  rw [M68k.step, stepEx_run, hx.going, if_neg Bool.false_ne_true, bind_ok hservice]
  exact hinstruction

/-- The opcode is at an even PC, and so is the next word. -/
theorem Executes.even {op : U16} (hx : Executes op s) : isOdd (s.pc + 2) = false := by
  have hmapped := hx.mapped
  rw [accessible, Bool.and_eq_true, Bool.not_eq_true'] at hmapped
  exact (isOdd_add_two s.pc).trans hmapped.1

/-! ## Accesses that hit -/

/-- What operand accesses leave alone, memory and the address registers apart. -/
structure Undisturbed (s u : M68kCpu σ) : Prop where
  dRegs : u.dRegs = s.dRegs
  sr : u.sr = s.sr
  pc : u.pc = s.pc
  memorySize : u.memorySize = s.memorySize
  thrown : u.exceptionThrown = s.exceptionThrown

theorem Undisturbed.trans {t : M68kCpu σ} (h : Undisturbed s t) (h' : Undisturbed t u) :
    Undisturbed s u :=
  ⟨h'.1.trans h.1, h'.2.trans h.2, h'.3.trans h.3, h'.4.trans h.4, h'.5.trans h.5⟩

section Hits

variable {size : M68kSize} {address : U32}

theorem read8_hit (h : accessible s .byte address = true) :
    read8 address (ackHost k) s =
      .ok (s.memory (maskAddress24 address)) (s.noted (.access .read .byte address)) := by
  rw [read8, read8With_flat, flatAccess_hit _ _ _ _ _ _ h]
  rfl

theorem readSize_hit (h : accessible s size address = true) :
    readSize address size (ackHost k) s =
      .ok (loadSized size s.memory (maskAddress24 address))
        (s.noted (.access .read size address)) := by
  cases size with
  | byte => exact bind_ok (read8_hit h)
  | word => exact bind_ok (read16_hit k h)
  | long => exact read32_hit k h

theorem write8_hit (value : U8) (h : accessible s .byte address = true) :
    write8 address value (ackHost k) s =
      .ok () { s.noted (.access .write .byte address) with
        memory := storeByte s.memory (maskAddress24 address) value } := by
  rw [write8, write8With_flat, flatAccess_hit _ _ _ _ _ _ h]
  rfl

theorem write16_hit (value : U16) (h : accessible s .word address = true) :
    write16 address value (ackHost k) s =
      .ok () { s.noted (.access .write .word address) with
        memory := storeWord s.memory (maskAddress24 address) value } := by
  rw [write16, write16With_flat, flatAccess_hit _ _ _ _ _ _ h]
  rfl

theorem writeSize_hit (value : U32) (h : accessible s size address = true) :
    writeSize address value size (ackHost k) s =
      .ok () { s.noted (.access .write size address) with
        memory := storeSized size s.memory (maskAddress24 address) value } := by
  cases size with
  | byte => exact write8_hit _ h
  | word => exact write16_hit _ h
  | long =>
    show write32With exception address value (ackHost k) s = _
    rw [write32With_flat, flatAccess_hit _ _ _ _ _ _ h]
    rfl

end Hits

end M68k
