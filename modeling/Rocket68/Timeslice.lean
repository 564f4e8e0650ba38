import Rocket68.Step
import Rocket68.Trap.Wp

/-!
# Timeslices

`m68k_execute` runs whole instructions until the balance of the timeslice is
spent; an overshoot is carried into the next slice as a negative balance. The
loop is opened by a count of iterations, and is stuck when it needs more. The
source counts in `int`; the sums here are its sums as long as they fit.
-/

namespace M68k

open Trap TrapM

variable {σ : Type}

/-- A value of the source's `int`. -/
def IsInt (n : Int) : Prop := -2 ^ 31 ≤ n ∧ n < 2 ^ 31

instance (n : Int) : Decidable (IsInt n) := inferInstanceAs (Decidable (_ ∧ _))

/-- The counters are values of the source's `int`. -/
structure IntCounters (s : M68kCpu σ) : Prop where
  target : IsInt s.targetCycles
  remaining : IsInt s.cyclesRemaining

/-- `m68k_cycles_run`. -/
def cyclesRun (s : M68kCpu σ) : Int := s.targetCycles - s.cyclesRemaining

/-- `m68k_modify_timeslice`. -/
def modifyTimeslice (cycles : Int) (s : M68kCpu σ) : M68kCpu σ :=
  { s with
    cyclesRemaining := s.cyclesRemaining + cycles
    targetCycles := s.targetCycles + cycles }

/-- `m68k_end_timeslice`. -/
def endTimeslice (s : M68kCpu σ) : M68kCpu σ :=
  { s with
    targetCycles := s.targetCycles - s.cyclesRemaining
    cyclesRemaining := 0 }

/-- `while (cpu->cycles_remaining > 0) m68k_step(cpu);` for at most `fuel` tests. -/
def runSlice : Nat → M σ Unit
  | 0 => stuck
  | fuel + 1 => do
      if (← gets (·.cyclesRemaining)) > 0 then do
        step
        runSlice fuel
      else
        pure ()

/-- `m68k_execute`: the cycles consumed. -/
def execute (fuel : Nat) (cyclesRequested : Int) : M σ Int := do
  modify (modifyTimeslice cyclesRequested)
  let startCyclesRun ← gets cyclesRun
  runSlice fuel
  let endCyclesRun ← gets cyclesRun
  pure (endCyclesRun - startCyclesRun)

/-! ## Runs of the loop -/

theorem cyclesRun_modifyTimeslice (n : Int) (s : M68kCpu σ) :
    cyclesRun (modifyTimeslice n s) = cyclesRun s := by
  simp only [cyclesRun, modifyTimeslice]
  omega

theorem runSlice_succ (fuel : Nat) (h : Host σ) (s : M68kCpu σ) : runSlice (fuel + 1) h s =
    if s.cyclesRemaining > 0 then (step >>= fun _ => runSlice fuel) h s else .ok () s := by
  rw [runSlice, gets_bind, ite_run]
  rfl

theorem execute_run (fuel : Nat) (n : Int) (h : Host σ) (s : M68kCpu σ) {u : M68kCpu σ} {c : Int} :
    execute fuel n h s = .ok c u ↔
      runSlice fuel h (modifyTimeslice n s) = .ok () u ∧ c = cyclesRun u - cyclesRun s := by
  have hunfold : execute fuel n h s = (runSlice fuel >>= fun _ => gets cyclesRun >>= fun e =>
      pure (e - cyclesRun (modifyTimeslice n s))) h (modifyTimeslice n s) := rfl
  rw [hunfold, cyclesRun_modifyTimeslice]
  cases hrun : runSlice fuel h (modifyTimeslice n s) with
  | ok a t =>
    rw [bind_ok hrun]
    constructor
    · intro hok
      cases hok
      exact ⟨rfl, rfl⟩
    · rintro ⟨hok, rfl⟩
      cases hok
      rfl
  | trap t =>
    rw [bind_trap hrun]
    exact ⟨nofun, fun hok => nomatch hok.1⟩
  | diverge =>
    rw [bind_diverge hrun]
    exact ⟨nofun, fun hok => nomatch hok.1⟩

end M68k
