import Rocket68.Logic.Dispatch
import Rocket68.Trap.Simulation

/-!
# Two machines in lockstep

A relation between machine states that every write of the model preserves, and under
which every access and every callback answers alike, is preserved by every handler
and by the step function. The writes are listed once; a relation is checked against
the list.
-/

namespace M68k

open Trap TrapM

variable {σ α β : Type}

/-- The assignments of the model to the context, those to memory and to the bus error
guard apart. -/
inductive Write : (M68kCpu σ → M68kCpu σ) → Prop
  | charge (n : Int) : Write fun s => { s with cyclesRemaining := s.cyclesRemaining - n }
  | latchFaultPc (v : U32) : Write fun s => { s with faultPc := v, faultPcValid := true }
  | dropBusWord : Write fun s => { s with faultBusWordValid := false }
  | latchBusWord (w : U16) : Write fun s => { s with faultBusWord := w, faultBusWordValid := true }
  | programSpace (b : Bool) : Write fun s => { s with operandProgramSpace := b }
  | rewind : Write fun s => { s with pc := s.pc - 2 }
  | advance : Write fun s => { s with pc := s.pc + 2 }
  | setA (r : Fin 8) (v : U32) : Write fun s => { s with aRegs := Function.update s.aRegs r v }
  | setD (r : Fin 8) (v : U32) : Write fun s => { s with dRegs := Function.update s.dRegs r v }
  | modifySr (f : U16 → U16) : Write fun s => { s with sr := f s.sr }
  | setPc (v : U32) : Write fun s => { s with pc := v }
  | setSr (v : U16) : Write (withSr v)
  | setUsp (v : U32) : Write fun s => { s with usp := v }
  | control (c : ControlReg) (v : U32) : Write (writeControl c v)
  | stop : Write fun s => { s with stopped := true }
  | capture (address : U32) (isWrite isProgram : Bool) :
      Write (captureAccessFault address isWrite isProgram)
  | addressGuard (b : Bool) : Write fun s => { s with inAddressError := b }
  | enter (v : Nat) : Write (enterException v)
  | clearLatches : Write clearFaultLatches
  | leave : Write fun s => { s with exceptionDepth := s.exceptionDepth - 1 }
  | note (e : Event) : Write (M68kCpu.noted e)
  | arm : Write armTrap
  | opcode (w : U16) : Write fun s => { s with ir := w }
  | trapActive (b : Bool) : Write fun s => { s with faultTrapActive := b }
  | serviced (level : Nat) (held : Bool) : Write (finishInterrupt level held)

/-- The words of a bus or address error frame below the PC and the status register. -/
def groupWords (s : M68kCpu σ) : U16 × U32 × U16 :=
  (if s.faultValid then s.faultIr else s.ir, if s.faultValid then s.faultAddress else 0,
    if s.faultValid then s.faultSsw else 0)

/-- What the model looks at in the context, memory apart. -/
structure Looks where
  regs : Regs
  stopped : Bool
  irqLevel : Nat
  nmiPending : Bool
  group0 : Bool
  trapActive : Bool
  depth : Int
  addressGuard : Bool
  words : U16 × U32 × U16
  stacked : Nat → U32

def looks (s : M68kCpu σ) : Looks where
  regs := regs s
  stopped := s.stopped
  irqLevel := s.irqLevel
  nmiPending := s.nmiPending
  group0 := s.group0Fault
  trapActive := s.faultTrapActive
  depth := s.exceptionDepth
  addressGuard := s.inAddressError
  words := groupWords s
  stacked := fun v => stackedPc v s

variable (c : Pairing (Host σ) (M68kCpu σ)) (R : M68kCpu σ → M68kCpu σ → Prop)

/-- Both runs of `m` correspond throughout. -/
def Together (m : M σ α) : Prop := Simulates c R R R m m

/-- Related machines look alike, and every assignment keeps them related. -/
structure Agrees : Prop where
  looks : ∀ s t, R s t → looks t = looks s
  write : ∀ {f : M68kCpu σ → M68kCpu σ}, Write f → ∀ s t, R s t → R (f s) (f t)
  stays : ∀ {f : M68kCpu σ → M68kCpu σ}, Write f → ∀ s, c.lost s → c.lost (f s)
  guardStays : ∀ b s, c.lost s → c.lost { s with inBusError := b }

/-- Exceptions correspond, and one whose entry loses the left run loses it. -/
structure RaisesAlike (raise : Nat → M σ Unit) : Prop where
  together : ∀ v, Together c R (raise v)
  loses : ∀ v, v ≠ 4 → (∀ s, c.lost (enterException v s)) → ∀ s, (raise v c.left s).Ends c.lost

/-- Accesses and callbacks keep related machines together as well. -/
structure Lockstep : Prop extends Agrees c R where
  read8 : ∀ {raise}, RaisesAlike c R raise → ∀ a, Together c R (read8With raise a)
  read16 : ∀ {raise}, RaisesAlike c R raise → ∀ a, Together c R (read16With raise a)
  read32 : ∀ {raise}, RaisesAlike c R raise → ∀ a, Together c R (read32With raise a)
  write8 : ∀ {raise}, RaisesAlike c R raise → ∀ a v, Together c R (write8With raise a v)
  write16 : ∀ {raise}, RaisesAlike c R raise → ∀ a v, Together c R (write16With raise a v)
  write32 : ∀ {raise}, RaisesAlike c R raise → ∀ a v, Together c R (write32With raise a v)
  fetch : RaisesAlike c R (exception (σ := σ)) → Together c R fetch
  setPc : ∀ v, Together c R (setPc v)
  claimed : ∀ v, Together c R (illegalClaimed v)
  tas : Together c R tasAllowsWrite
  reset : Together c R resetHook
  acknowledge : ∀ level, Together c R (acknowledge level)
  instrHook : Together c R instrHook
  held : c.right.intAck.isSome = c.left.intAck.isSome
  busTarget : RaisesAlike c R (exception (σ := σ)) → ∀ target faultPc,
    Together c R (raiseBusTargetFault target faultPc)

namespace Agrees

variable {c R} (A : Agrees c R)
include A

theorem modify {f : M68kCpu σ → M68kCpu σ} (hf : Write f) : Together c R (modify f) :=
  simulates_modify (A.stays hf) (A.write hf)

/-- A look at the context. -/
theorem look (f : Looks → α) : Together c R (gets fun s : M68kCpu σ => f (M68k.looks s)) :=
  simulates_gets fun s t h => congrArg f (A.looks s t h)

theorem visible {f : M68kCpu σ → α} (hf : Visible f) : Together c R (gets f) :=
  simulates_gets fun s t h => hf t s (congrArg Looks.regs (A.looks s t h))

theorem setCcr (flags : U16) : Together c R (setCcr flags) :=
  A.modify (.modifySr fun sr => (sr &&& ~~~nzvc) ||| flags)

theorem abort : Together c R abortFaultedInstruction :=
  .bind (A.look fun l => l.trapActive && l.group0 && l.depth == 0) fun _ =>
    .ite (fun _ => simulates_escape) fun _ => simulates_pure _

variable {raise : Nat → M σ Unit} (hr : RaisesAlike c R raise)
include hr

theorem addressFault (kind : Access) (address : U32) :
    Together c R (addressFault raise kind address) :=
  .bind (A.modify (.capture _ _ _)) fun _ => .bind (A.modify (.note _)) fun _ =>
    .bind (A.modify (.addressGuard _)) fun _ => .bind (hr.together 3) fun _ =>
      .bind (A.modify (.addressGuard _)) fun _ => A.abort

section Guard

variable (hg : ∀ b, Together c R (setInBusError b))
include hg

theorem busFault (kind : Access) (address : U32) :
    Together c R (busFault raise kind address) :=
  .bind (A.modify (.capture _ _ _)) fun _ => .bind (A.modify (.note _)) fun _ =>
    .bind (hg true) fun _ => .bind (hr.together 2) fun _ => .bind (hg false) fun _ => A.abort

omit hr in
theorem busTarget (hr : RaisesAlike c R (exception (σ := σ))) (target faultPc : U32) :
    Together c R (raiseBusTargetFault target faultPc) :=
  .bind (A.modify (.charge _)) fun _ => .bind (A.modify (.capture _ _ _)) fun _ =>
    .bind (A.modify (.latchFaultPc _)) fun _ => .bind (hg true) fun _ =>
      .bind (hr.together 2) fun _ => hg false

end Guard

/-- A left run in which bus errors are given up does not survive one. -/
theorem busFault_ends (hl : ∀ s, c.lost (enterException 2 s)) (kind : Access) (address : U32)
    (s : M68kCpu σ) : (M68k.busFault raise kind address c.left s).Ends c.lost := by
  show ((raise 2 >>= fun _ => setInBusError false >>= fun _ => abortFaultedInstruction)
    c.left _).Ends c.lost
  apply ends_bind (hr.loses 2 (by decide) hl _)
  intro _ t ht
  exact ends_bind (A.guardStays false t ht) fun _ u hu => A.abort.stays u hu

omit hr in
/-- Nor a target prefetch that takes one. -/
theorem busTarget_ends (hr : RaisesAlike c R (exception (σ := σ)))
    (hl : ∀ s, c.lost (enterException 2 s)) (target faultPc : U32) (s : M68kCpu σ) :
    (raiseBusTargetFault target faultPc c.left s).Ends c.lost := by
  show ((M68k.exception 2 >>= fun _ => setInBusError false) c.left _).Ends c.lost
  exact ends_bind (hr.loses 2 (by decide) hl _) fun _ t ht => A.guardStays false t ht

end Agrees

namespace Lockstep

variable {c R} (L : Lockstep c R)
include L

section Exceptions

variable {raise : Nat → M σ Unit} (hr : RaisesAlike c R raise)
include hr

theorem push32 (v : U32) : Together c R (push32With raise v) :=
  .bind (L.visible (visible_aRegs 7)) fun _ => .bind (L.modify (.setA _ _)) fun _ =>
    .bind (L.visible (visible_aRegs 7)) fun _ => L.write32 hr _ _

theorem push16 (v : U16) : Together c R (push16With raise v) :=
  .bind (L.visible (visible_aRegs 7)) fun _ => .bind (L.modify (.setA _ _)) fun _ =>
    .bind (L.visible (visible_aRegs 7)) fun _ => L.write16 hr _ _

theorem pushGroup0Frame (oldPc : U32) (oldSr : U16) :
    Together c R (pushGroup0Frame raise oldPc oldSr) := by
  show Together c R (gets (fun s => groupWords s) >>= fun w => push32With raise oldPc >>= fun _ =>
    push16With raise oldSr >>= fun _ => push16With raise w.1 >>= fun _ =>
      push32With raise w.2.1 >>= fun _ => push16With raise w.2.2)
  exact .bind (L.look (·.words)) fun w => .bind (L.push32 hr _) fun _ =>
    .bind (L.push16 hr _) fun _ => .bind (L.push16 hr _) fun _ =>
      .bind (L.push32 hr _) fun _ => L.push16 hr _

theorem pushFrame (vector : Nat) (oldPc : U32) (oldSr : U16) :
    Together c R (pushFrame raise vector oldPc oldSr) :=
  .bind (L.visible visible_model) fun _ => .ite
    (fun _ => .bind (L.push16 hr _) fun _ => .bind (L.push32 hr _) fun _ => L.push16 hr _)
    fun _ => .bind (L.push32 hr _) fun _ => L.push16 hr _

/-- An exception once its frame is pushed. -/
theorem vectorFetch (vector : Nat) :
    Together c R (do
      modify clearFaultLatches
      let vbr ← gets (·.vbr)
      let vectorAddr ← read32With raise (vbr + BitVec.ofNat 32 vector * 4)
      M68k.setPc vectorAddr
      modify fun s => { s with exceptionDepth := s.exceptionDepth - 1 }) :=
  .bind (L.modify .clearLatches) fun _ => .bind (L.look (·.regs.vbr)) fun _ =>
    .bind (L.read32 hr _) fun _ => .bind (L.setPc _) fun _ => L.modify .leave

/-- An exception once it is entered. -/
theorem handlerEntry (vector : Nat) : ∃ rest : M σ Unit, Together c R rest ∧
    processException raise vector = modify (enterException vector) >>= fun _ => rest := by
  refine ⟨_, ?_, rfl⟩
  refine .bind (L.visible visible_sr) fun sr => .bind (L.look (·.stacked vector)) fun pc =>
    .bind (L.modify (.setSr _)) fun _ => .ite (fun _ => ?_) fun _ => ?_
  · exact .bind (L.pushGroup0Frame hr pc sr) fun _ => L.vectorFetch hr vector
  · exact .bind (L.pushFrame hr vector pc sr) fun _ => L.vectorFetch hr vector

end Exceptions

/-- Exceptions keep the machines together at every nesting level. -/
theorem raises (n : Nat) : RaisesAlike c R (exceptionAt n) := by
  induction n with
  | zero => exact ⟨fun _ => simulates_stuck, fun _ _ _ _ => trivial⟩
  | succ n ih =>
    constructor
    · intro v
      obtain ⟨rest, hrest, heq⟩ := L.handlerEntry ih v
      refine .bind (L.claimed v) fun _ => .ite (fun _ => simulates_pure _) fun _ => ?_
      rw [heq]
      exact .bind (L.modify (.enter v)) fun _ => hrest
    · intro v hv hl s
      obtain ⟨rest, hrest, heq⟩ := L.handlerEntry ih v
      have hclaim : illegalClaimed v c.left s = .ok false s := by
        rw [illegalClaimed, if_neg hv]
        rfl
      rw [exceptionAt, bind_ok hclaim, if_neg Bool.false_ne_true, heq]
      exact hrest.stays _ (hl s)

theorem exception (v : Nat) : Together c R (exception v) := (L.raises 3).together v

theorem raiseIllegalEa : Together c R raiseIllegalEa :=
  .bind (L.exception 4) fun _ => .bind (L.look fun l => l.trapActive && l.depth == 0) fun _ =>
    .ite (fun _ => simulates_escape) fun _ => simulates_pure _

theorem raiseOddTargetFault (target faultPc : U32) :
    Together c R (raiseOddTargetFault target faultPc) :=
  .bind (L.modify (.charge _)) fun _ => .bind (L.modify (.capture _ _ _)) fun _ =>
    .bind (L.modify (.latchFaultPc _)) fun _ => .bind (L.modify (.addressGuard _)) fun _ =>
      .bind (L.exception 3) fun _ => L.modify (.addressGuard _)

/-! ## Instructions -/

/-- What an instruction that may peek sees. -/
def Peeks (c : Pairing (Host σ) (M68kCpu σ)) (R : M68kCpu σ → M68kCpu σ → Prop) : Prop :=
  ∀ a, Together c R (peekWord a) ∧ Together c R (isUnmappedTarget a)

variable {g : Grade} {p q : Phase}

theorem op {m : M σ α} (h : Op g p q m) (hpeeks : g.peeks = true → Peeks c R) :
    Together c R m := by
  cases h with
  | get hf => exact L.visible hf
  | charge => exact L.modify (.charge _)
  | latchFaultPc => exact L.modify (.latchFaultPc _)
  | dropBusWord => exact L.modify .dropBusWord
  | dropProgramSpace => exact L.modify (.programSpace _)
  | rewind => exact L.modify .rewind
  | peekWord hk a => exact (hpeeks hk a).1
  | isUnmappedTarget hk a => exact (hpeeks hk a).2
  | tasAllowsWrite => exact L.tas
  | resetHook => exact L.reset
  | fetch => exact L.fetch (L.raises 3)
  | read8 _ a => exact L.read8 (L.raises 3) a
  | read16 _ a => exact L.read16 (L.raises 3) a
  | read32 _ a => exact L.read32 (L.raises 3) a
  | write8 _ a v => exact L.write8 (L.raises 3) a v
  | write16 _ a v => exact L.write16 (L.raises 3) a v
  | write32 _ a v => exact L.write32 (L.raises 3) a v
  | setA => exact L.modify (.setA _ _)
  | setD => exact L.modify (.setD _ _)
  | modifySr => exact L.modify (.modifySr _)
  | setPc _ v => exact L.setPc v
  | setSr => exact L.modify (.setSr _)
  | setUsp => exact L.modify (.setUsp _)
  | writeControl => exact L.modify (.control _ _)
  | stop => exact L.modify .stop
  | illegal | violation | trap => exact L.exception _
  | illegalEa => exact L.raiseIllegalEa
  | oddTarget => exact L.raiseOddTargetFault _ _
  | busTarget => exact L.busTarget (L.raises 3) _ _

/-- Disciplined programs keep the machines together. -/
theorem micro {m : M σ α} (h : Micro g p q m) (hsup : g.supervisor = true)
    (hpeeks : g.peeks = true → Peeks c R) : Together c R m := by
  induction h with
  | op h => exact L.op h hpeeks
  | pure a => exact simulates_pure a
  | seq _ _ ihm ihf => exact .bind (ihm hsup hpeeks) fun a => ihf a hsup hpeeks
  | weaken _ _ _ ih => exact ih hsup hpeeks
  | privileged _ ih =>
    exact .bind (L.visible visible_sr) fun _ => .ite
      (fun _ => .bind (L.modify .rewind) fun _ => L.exception 8) fun _ => ih hsup hsup hpeeks
  | programSpace _ _ _ _ _ ihb ihf =>
    exact .bind (L.modify (.programSpace _)) fun _ => .bind (ihb hsup hpeeks) fun a =>
      .bind (L.modify (.programSpace _)) fun _ => ihf a hsup hpeeks
  | busWord _ _ _ _ _ ihb ihf =>
    exact .bind (L.modify (.latchBusWord _)) fun _ => .bind (ihb hsup hpeeks) fun _ =>
      .bind (L.modify .dropBusWord) fun a => ihf a hsup hpeeks

/-- So does the instruction decoder. -/
theorem dispatch (opcode : U16) (hpeeks : mayPeek opcode = true → Peeks c R) :
    Together c R (dispatch opcode) :=
  L.micro (Micro.dispatch (Grade.of_covers true opcode)) rfl hpeeks

/-! ## Steps -/

theorem setTrapActive (b : Bool) : Together c R (setTrapActive b) := L.modify (.trapActive b)

theorem checkTarget : Together c R checkTarget := by
  show Together c R (gets (fun s => looks s) >>= fun l =>
    if isOdd l.regs.pc && !l.addressGuard then
      M68k.raiseOddTargetFault l.regs.pc (l.regs.ppc + 2)
    else pure ())
  exact .bind (L.look fun l => l) fun _ => .ite (fun _ => L.raiseOddTargetFault _ _)
    fun _ => simulates_pure _

theorem deliverTrace (check trace : Bool) : Together c R (deliverTrace check trace) := by
  show Together c R (gets (fun s => looks s) >>= fun l =>
    if !l.group0 && check && trace && !l.stopped then M68k.exception 9 else pure ())
  exact .bind (L.look fun l => l) fun _ => .ite (fun _ => L.exception 9) fun _ => simulates_pure _

theorem finishStep (check trace : Bool) (cycles : Int) :
    Together c R (finishStep check trace cycles) :=
  .bind (L.setTrapActive false) fun _ => .bind (L.visible visible_exceptionThrown) fun _ =>
    .bind L.checkTarget fun _ => .bind (L.deliverTrace check trace) fun _ => L.modify (.charge _)

theorem abortInstruction : Together c R abortInstruction :=
  .bind (L.setTrapActive false) fun _ => .bind (L.look (·.group0)) fun _ => L.modify (.charge _)

theorem serviceInterrupts (check : Bool) : Together c R (serviceInterrupts check) := by
  refine .ite (fun _ => ?_) fun _ => simulates_pure _
  refine .bind (L.look fun l => l.irqLevel != 0 && (if l.irqLevel = 7 then l.nmiPending
    else decide (l.irqLevel > ((l.regs.sr >>> 8) &&& 7).toNat))) fun _ =>
      .ite (fun _ => ?_) fun _ => simulates_pure _
  refine .bind (L.look (·.irqLevel)) fun level => .bind (L.acknowledge level) fun v =>
    .bind (L.exception v) fun _ => simulates_env ?_
  rw [L.held]
  exact .bind (L.modify (.serviced _ _)) fun _ => simulates_pure _

theorem execInstruction (hpeeks : Peeks c R) (check trace : Bool) :
    Together c R (execInstruction check trace) :=
  .bind (L.modify .arm) fun _ => .bind (L.fetch (L.raises 3)) fun _ =>
    .bind (L.look (·.group0)) fun _ => .ite
      (fun _ => .bind (L.setTrapActive false) fun _ => L.modify (.charge _))
      fun _ => .bind (L.modify (.opcode _)) fun _ => .bind (L.dispatch _ fun _ => hpeeks) fun _ =>
        L.finishStep check trace _

/-- A step between its first assignments and its end. -/
theorem stepEx (hpeeks : Peeks c R) (check : Bool) : ∃ rest : M σ Unit, Together c R rest ∧
    stepEx check = modify beginStep >>= fun _ => rest := by
  refine ⟨_, ?_, rfl⟩
  refine .bind (L.look (·.stopped)) fun _ => .ite (fun _ => ?_) fun _ => ?_
  · exact .bind (L.serviceInterrupts check) fun _ =>
      .ite (fun _ => L.modify (.charge _)) fun _ => L.modify (.charge _)
  · refine .bind (L.serviceInterrupts check) fun _ =>
      .ite (fun _ => L.modify (.charge _)) fun _ => ?_
    exact .bind (L.look fun l => l.regs.sr &&& srT != 0) fun trace => .bind L.instrHook fun _ =>
      .catchTrap (L.execInstruction hpeeks check trace) L.abortInstruction

end Lockstep

end M68k
