import Rocket68.Logic.Planning
import Rocket68.Logic.Step

/-!
# Instructions that retire

An instruction retires when it is fetched, runs to `done:` and no exception was thrown on
the way. It has then done what was planned for it. A step without an exception or an interrupt
is an instruction that retires, and the code at `done:` leaves the plain effect alone.
-/

namespace M68k

open Trap TrapM

variable {σ α : Type} {k : Option (Nat → M68kCpu σ → M68kCpu σ × U32)} {s t u : M68kCpu σ}

/-- The instruction at the PC of `s` retires, and `t` is the state at `done:`. -/
structure Retires (k : Option (Nat → M68kCpu σ → M68kCpu σ × U32)) (s t : M68kCpu σ) :
    Prop where
  fetches : accessible s .word s.pc = true
  runs : ∃ cycles, dispatch (opcodeAt s) (ackHost k) (fetched s) = .ok cycles t
  quiet : t.exceptionThrown = 0

/-- The core in which the operands are resolved: past the opcode, without data accesses. -/
def entryCore (s : M68kCpu σ) : Core := { core s with pc := s.pc + 2, traffic := [] }

theorem unguarded_fetched (s : M68kCpu σ) : unguarded (fetched s) = true := rfl

/-- A retired instruction has done what was planned. -/
theorem Retires.effect (h : Retires k s t) :
    Effect (plan (opcodeAt s) (entryCore s)) (entryCore s) (core t) := by
  obtain ⟨cycles, hrun⟩ := h.runs
  exact (((dispatch_planned (opcodeAt s)).ok hrun h.quiet).2 (unguarded_fetched s)).2

/-- As any judgement about its handler says. -/
theorem Retires.yields (h : Retires k s t) {R : Int → Core → Core → Prop}
    (hm : Yields k (dispatch (opcodeAt s) : M σ Int) R) : ∃ n, R n (entryCore s) (core t) := by
  obtain ⟨cycles, hrun⟩ := h.runs
  exact ⟨cycles, ((hm.ok hrun h.quiet).2 (unguarded_fetched s)).2⟩

theorem costed_yields {body : M σ Unit} {n : Int} {R : Core → Core → Prop}
    (h : Yields k body fun _ => R) : Yields k (costed body n) fun _ => R :=
  .bind h fun _ => .pure fun _ _ hc => hc

/-! ## Steps -/

theorem Yields.sticks {m : M σ α} {R : α → Core → Core → Prop} (h : Yields k m R) :
    Sticks k m := by
  intro s hs
  have key := h s
  generalize m (ackHost k) s = o at key ⊢
  cases o with
  | ok a t => exact fun ht => hs (key ht).1
  | trap t => exact key
  | diverge => trivial

/-- The code at `done:` raises an exception or leaves the plain effect alone. -/
theorem finishStep_yields (check trace : Bool) (cycles : Int) :
    Yields k (finishStep check trace cycles : M σ Unit) fun _ c d => d = c := by
  have hcharge (n : Int) : Yields k (charge n : M σ Unit) fun _ c d => d = c := .charge fun _ => rfl
  have htrace (n : Int) : Yields k (deliverTrace check trace >>= fun _ => charge n : M σ Unit)
      fun _ c d => d = c := by
    refine .bind (S := fun _ c d => d = c) (.look fun s => .ite (fun _ => .of_throws
      (exception_throws (by decide))) fun _ => .pure fun _ => rfl) fun _ => (hcharge n).mono ?_
    rintro _ c d rfl _ rfl
    rfl
  refine .skip (fun _ => rfl) (fun _ => rfl) <| .look fun thrown => .bind
    (S := fun _ c d => d = c) (.look fun s => .ite (fun _ => .of_throws
      (raiseOddTargetFault_throws _ _)) fun _ => .pure fun _ => rfl) fun _ => (htrace _).mono ?_
  rintro _ c d rfl _ rfl
  rfl

/-- A fetch that faults shows. -/
theorem fetch_throws (hs : unguarded s = true) (h : accessible s .word s.pc = false) {β : Type}
    {f : U16 → M σ β} (hf : ∀ w, Sticks k (f w)) :
    ((fetch >>= f) (ackHost k) s).Ends fun t => t.exceptionThrown ≠ 0 := by
  have hthrows : ∀ v, v ≠ 0 → Throws k (exception (σ := σ) v) := fun _ => exception_throws
  rw [unguarded, Bool.and_eq_true] at hs
  refine ends_bind ?_ fun w t ht => hf w t ht
  rw [fetch_flat, flatAccess_run]
  by_cases hodd : misaligned .word s.pc = true
  · rw [if_pos (by rw [Bool.and_eq_true]; exact ⟨hodd, hs.1⟩)]
    exact (addressFault_throws hthrows .fetch s.pc).bind (fun _ => .pure _) _
  · have hmapped : mapped s .word s.pc = false := by
      simpa [accessible, Bool.eq_false_iff.mpr hodd] using h
    rw [if_neg (by simp [hodd]), if_neg (by
      rw [hmapped]
      exact Bool.false_ne_true), if_pos hs.2]
    exact (busFault_throws hthrows .fetch s.pc).bind (fun _ => .pure _) _

/-- The opcode fetch of a step that does not fault. -/
theorem fetch_armed (h : accessible s .word s.pc = true) :
    fetch (ackHost k) (armed s) = .ok (opcodeAt s)
      { (armed s).noted (.access .fetch .word s.pc) with pc := s.pc + 2 } := by
  rw [accessible, Bool.and_eq_true, Bool.not_eq_true'] at h
  rw [fetch_flat, flatAccess_run, if_neg (by
    show ¬(misaligned .word s.pc && _) = true
    rw [h.1]
    exact Bool.false_ne_true), if_pos (show mapped (armed s) .word (armed s).pc = true from h.2)]
  rfl

/-- Decoding and what follows leave an exception thrown. -/
theorem decode_sticks {check trace : Bool} (op : U16) :
    Sticks k (do
      if ← gets (·.group0Fault) then do
        setTrapActive false
        charge 54
      else do
        modify fun s => { s with ir := op }
        let cycles ← dispatch op
        finishStep check trace cycles : M σ Unit) :=
  .seq (.gets _) fun _ => .ite
    (fun _ => .seq (.modify fun _ => rfl) fun _ => .modify fun _ => rfl)
    fun _ => .seq (.modify fun _ => rfl) fun _ => .seq (dispatch_planned op).sticks fun _ =>
      (finishStep_yields check trace _).sticks

/-- An instruction that ends without an exception retires. -/
theorem retires_of_run {check trace : Bool}
    (h : catchTrap (execInstruction check trace) abortInstruction (ackHost k) (beginStep s) =
      .ok () u) (hquiet : u.exceptionThrown = 0) :
    ∃ t, Retires k s t ∧ core u = core t := by
  cases hacc : accessible s .word s.pc with
  | false =>
    -- an unmapped opcode raises, against `hquiet`
    have hends : (execInstruction check trace (ackHost k) (beginStep s)).Ends
        fun t => t.exceptionThrown ≠ 0 := by
      rw [execInstruction, modify_bind]
      exact fetch_throws (s := armed s) rfl hacc decode_sticks
    cases hrun : execInstruction check trace (ackHost k) (beginStep s) with
    | ok a t =>
      rw [hrun] at hends
      rw [catchTrap_ok hrun] at h
      cases h
      exact absurd hquiet hends
    | trap t =>
      rw [hrun] at hends
      rw [catchTrap_trap hrun, abortInstruction_run] at h
      cases h
      exact absurd hquiet hends
    | diverge =>
      rw [catchTrap, hrun] at h
      cases h
  | true =>
    have hexec : execInstruction check trace (ackHost k) (beginStep s) =
        (dispatch (opcodeAt s) >>= finishStep check trace) (ackHost k) (fetched s) := by
      rw [execInstruction, modify_bind]
      exact (bind_ok (fetch_armed hacc)).trans rfl
    cases hrun : dispatch (opcodeAt s) (ackHost k) (fetched s) with
    | ok cycles t =>
      cases hfinish : finishStep check trace cycles (ackHost k) t with
      | ok a v =>
        have hall : execInstruction check trace (ackHost k) (beginStep s) = .ok () v :=
          hexec.trans ((bind_ok hrun).trans hfinish)
        rw [catchTrap_ok hall] at h
        cases h
        obtain ⟨ht, hcore⟩ := (finishStep_yields check trace cycles).ok hfinish hquiet
        -- the only way to end without an exception
        have hguard := ((dispatch_planned (opcodeAt s)).ok hrun ht).2 (unguarded_fetched s)
        exact ⟨t, ⟨hacc, ⟨cycles, hrun⟩, ht⟩, (hcore hguard.1).2⟩
      | trap v =>
        have hall : execInstruction check trace (ackHost k) (beginStep s) = .trap v :=
          hexec.trans ((bind_ok hrun).trans hfinish)
        rw [catchTrap_trap hall, abortInstruction_run] at h
        cases h
        have hv : v.exceptionThrown = 0 := hquiet
        exact absurd hv ((finishStep_yields check trace cycles).trap hfinish)
      | diverge =>
        have hall : execInstruction check trace (ackHost k) (beginStep s) = .diverge :=
          hexec.trans ((bind_ok hrun).trans hfinish)
        rw [catchTrap, hall] at h
        cases h
    | trap t =>
      have hall := hexec.trans (bind_trap hrun)
      rw [catchTrap_trap hall, abortInstruction_run] at h
      cases h
      have ht : t.exceptionThrown = 0 := hquiet
      exact absurd ht ((dispatch_planned (opcodeAt s)).trap hrun)
    | diverge =>
      rw [catchTrap, hexec.trans (bind_diverge hrun)] at h
      cases h

/-- A step that takes no exception and no interrupt is an instruction that retires. -/
theorem retires_of_step (h : step (ackHost k) s = .ok () u) (hstop : s.stopped = false)
    (hdue : interruptDue s = false) (hquiet : u.exceptionThrown = 0) :
    ∃ t, Retires k s t ∧ core u = core t := by
  have hservice : serviceInterrupts true (ackHost k) (beginStep s) = .ok false (beginStep s) :=
    checkInterrupts_not_due (s := beginStep s) hdue
  rw [step, stepEx_run, ite_run, hstop] at h
  exact retires_of_run (((bind_ok hservice).symm.trans h)) hquiet

/-- A step from `s` to `u` is an instruction that no exception and no interrupt gets in the way
of. -/
structure Succeeds (k : Option (Nat → M68kCpu σ → M68kCpu σ × U32)) (s u : M68kCpu σ) :
    Prop where
  runs : step (ackHost k) s = .ok () u
  running : s.stopped = false
  notDue : interruptDue s = false
  quiet : u.exceptionThrown = 0

theorem Succeeds.retires (h : Succeeds k s u) : ∃ t, Retires k s t ∧ core u = core t :=
  retires_of_step h.runs h.running h.notDue h.quiet

/-- The effect of a completed instruction is the planned one. -/
theorem Succeeds.effect (h : Succeeds k s u) :
    Effect (plan (opcodeAt s) (entryCore s)) (entryCore s) (core u) := by
  obtain ⟨t, ht, hcore⟩ := h.retires
  rw [hcore]
  exact ht.effect

/-- A step found to complete by evaluation. -/
theorem Succeeds.of_exec? {β : Type} {f : M68kCpu σ → β} {b : β}
    (hrun : (exec? step (ackHost k) s).map (fun u => (u.exceptionThrown, f u)) = some (0, b))
    (hgoing : s.stopped = false) (hdue : interruptDue s = false) :
    ∃ u, Succeeds k s u ∧ f u = b := by
  obtain ⟨u, hu, hvalue⟩ := Option.map_eq_some_iff.mp hrun
  rw [Prod.mk.injEq] at hvalue
  exact ⟨u, ⟨ok_of_exec? hu, hgoing, hdue, hvalue.1⟩, hvalue.2⟩

end M68k
