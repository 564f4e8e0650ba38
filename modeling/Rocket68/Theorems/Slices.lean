import Mathlib.Algebra.Order.BigOperators.Group.List
import Rocket68.Logic.Twin
import Rocket68.Theorems.Progress

/-!
# Timeslices are invisible

Nothing but the run loop looks at the balance of the timeslice, so a machine with a larger
balance makes the same steps. Slices run one after the other therefore end where their sum
does, although each of them may overshoot.
-/

namespace M68k

open Trap TrapM

variable {σ : Type} {k : Option (Nat → M68kCpu σ → M68kCpu σ × U32)} {h : Host σ}
  {s t u v : M68kCpu σ} {n m : Int}

/-! ## Larger balances -/

/-- The INT ACK callback neither reads nor changes the cycle counters. -/
def Timeless (k : Option (Nat → M68kCpu σ → M68kCpu σ × U32)) : Prop :=
  ∀ cb ∈ k, ∀ level n s,
    cb level (modifyTimeslice n s) = (modifyTimeslice n (cb level s).1, (cb level s).2)

theorem modifyTimeslice_add (n m : Int) (s : M68kCpu σ) :
    modifyTimeslice m (modifyTimeslice n s) = modifyTimeslice (n + m) s := by
  simp only [modifyTimeslice, Int.add_assoc]

theorem modifyTimeslice_zero (hn : n = 0) (s : M68kCpu σ) : modifyTimeslice n s = s := by
  subst hn
  simp only [modifyTimeslice, Int.add_zero]

/-- No write of the model looks at the counters. -/
theorem Write.modifyTimeslice {f : M68kCpu σ → M68kCpu σ} (hf : Write f) (n : Int)
    (s : M68kCpu σ) : f (M68k.modifyTimeslice n s) = M68k.modifyTimeslice n (f s) := by
  cases hf with
  | charge c =>
    have hcharge : s.cyclesRemaining + n - c = s.cyclesRemaining - c + n := by omega
    simp only [M68k.modifyTimeslice, hcharge]
  | setSr sr =>
    have hsupervisor : (M68k.modifyTimeslice n s).supervisor = s.supervisor := rfl
    unfold withSr
    rw [hsupervisor]
    dsimp only
    split
    · split <;> rfl
    · rfl
  | control c => cases c <;> rfl
  | _ => rfl

theorem timeslice_twins (hk : Timeless k) (n : Int) :
    Twins k fun s t => t = modifyTimeslice n s where
  looks := by
    rintro s _ rfl
    rfl
  memory := by
    rintro s _ rfl a _
    rfl
  memorySize := by
    rintro s _ rfl
    rfl
  guard := by
    rintro s _ rfl
    rfl
  write := by
    rintro f hf s _ rfl
    exact hf.modifyTimeslice n s
  store := by
    rintro a v s _ rfl _ _
    rfl
  hold := by
    rintro b s _ rfl
    rfl
  answer := by
    rintro cb hcb level s _ rfl
    rw [hk cb hcb]
    exact ⟨rfl, rfl⟩

/-- A step is the same whatever the balance. -/
theorem step_modifyTimeslice (hk : Timeless k) (n : Int) (hs : step (ackHost k) s = .ok () t) :
    step (ackHost k) (modifyTimeslice n s) = .ok () (modifyTimeslice n t) := by
  obtain ⟨u, hu, rfl⟩ := (timeslice_twins hk n).stepEx_ok (t := modifyTimeslice n s) rfl hs
  exact hu

theorem Passes.modifyTimeslice (hk : Timeless k) (hn : 0 ≤ n) (hv : Passes (ackHost k) s v) :
    Passes (ackHost k) (M68k.modifyTimeslice n s) (M68k.modifyTimeslice n v) := by
  induction hv with
  | here s => exact .here _
  | @later s t v hs hstep _ ih =>
    refine .later ?_ (step_modifyTimeslice hk n hstep) ih
    show 0 < s.cyclesRemaining + n
    omega

/-! ## Slices -/

/-- From `s` the run loop ends in `u`, however many tests that takes. -/
inductive Slice (h : Host σ) : M68kCpu σ → M68kCpu σ → Prop
  | spent {s : M68kCpu σ} (hs : s.cyclesRemaining ≤ 0) : Slice h s s
  | step {s t u : M68kCpu σ} (hs : 0 < s.cyclesRemaining) (hstep : step h s = .ok () t)
      (rest : Slice h t u) : Slice h s u

theorem Slice.of_run {fuel : Nat} (hrun : runSlice fuel h s = .ok () u) : Slice h s u := by
  induction fuel generalizing s with
  | zero => cases hrun
  | succ fuel ih =>
    rw [runSlice_succ] at hrun
    by_cases hpos : s.cyclesRemaining > 0
    · rw [if_pos hpos] at hrun
      cases hstep : M68k.step h s with
      | ok a t =>
        rw [bind_ok hstep] at hrun
        exact .step hpos hstep (ih hrun)
      | trap t =>
        rw [bind_trap hstep] at hrun
        cases hrun
      | diverge =>
        rw [bind_diverge hstep] at hrun
        cases hrun
    · rw [if_neg hpos] at hrun
      cases hrun
      exact .spent (by omega)

theorem Slice.runs (hs : Slice h s u) : ∃ need, ∀ fuel, need ≤ fuel →
    runSlice fuel h s = .ok () u := by
  induction hs with
  | @spent s hs =>
    refine ⟨1, fun fuel hfuel => ?_⟩
    obtain ⟨fuel, rfl⟩ : ∃ m, fuel = m + 1 := ⟨fuel - 1, by omega⟩
    rw [runSlice_succ, if_neg (by omega)]
  | @step s t u hs hstep _ ih =>
    obtain ⟨need, hneed⟩ := ih
    refine ⟨need + 1, fun fuel hfuel => ?_⟩
    obtain ⟨fuel, rfl⟩ : ∃ m, fuel = m + 1 := ⟨fuel - 1, by omega⟩
    rw [runSlice_succ, if_pos hs, bind_ok hstep]
    exact hneed fuel (by omega)

/-- A slice that is made larger goes on where it would have ended. -/
theorem Slice.extend (hk : Timeless k) (hn : 0 ≤ n) : Slice (ackHost k) (modifyTimeslice n s) v ↔
    ∃ u, Slice (ackHost k) s u ∧ Slice (ackHost k) (modifyTimeslice n u) v := by
  have hbalance (s : M68kCpu σ) :
      (modifyTimeslice n s).cyclesRemaining = s.cyclesRemaining + n := rfl
  constructor
  · generalize hw : modifyTimeslice n s = w
    intro hrun
    induction hrun generalizing s with
    | @spent w hspent =>
      subst hw
      rw [hbalance] at hspent
      exact ⟨s, .spent (by omega), .spent (by rw [hbalance]; exact hspent)⟩
    | @step w t v hpos hstep rest ih =>
      subst hw
      by_cases hs : 0 < s.cyclesRemaining
      -- the same step without the extra cycles
      · have hfirst := step_modifyTimeslice hk (-n) hstep
        rw [modifyTimeslice_add, modifyTimeslice_zero (by omega)] at hfirst
        obtain ⟨u, hu, hv⟩ := ih (s := modifyTimeslice (-n) t) (by
          rw [modifyTimeslice_add, modifyTimeslice_zero (by omega)])
        exact ⟨u, .step hs hfirst hu, hv⟩
      -- only the extra cycles are left to spend
      · exact ⟨s, .spent (by omega), .step hpos hstep rest⟩
  · rintro ⟨u, hu, hv⟩
    induction hu with
    | spent _ => exact hv
    | @step s t u hs hstep _ ih =>
      exact .step (by rw [hbalance]; omega) (step_modifyTimeslice hk n hstep) (ih hv)

theorem Slice.passes (hs : Slice h s u) : Passes h s u := by
  induction hs with
  | @spent s _ => exact .here s
  | step hs hstep _ ih => exact .later hs hstep ih

theorem Passes.trans (hu : Passes h s u) (hv : Passes h u v) : Passes h s v := by
  induction hu with
  | here _ => exact hv
  | later hs hstep _ ih => exact .later hs hstep (ih hv)

/-! ## Calls -/

/-- Calls of `m68k_execute` one after the other, and the cycles each of them reports. -/
def executeAll (fuel : Nat) : List Int → M σ (List Int)
  | [] => pure []
  | n :: slices => do
      let count ← execute fuel n
      let counts ← executeAll fuel slices
      pure (count :: counts)

/-- Slices one after the other. -/
def Slices (h : Host σ) : List Int → M68kCpu σ → M68kCpu σ → Prop
  | [], s, u => u = s
  | n :: slices, s, u => ∃ t, Slice h (modifyTimeslice n s) t ∧ Slices h slices t u

theorem Slices.executeAll {slices : List Int} (hs : Slices h slices s u) :
    ∃ counts need, counts.sum = cyclesRun u - cyclesRun s ∧
      ∀ fuel, need ≤ fuel → executeAll fuel slices h s = .ok counts u := by
  induction slices generalizing s with
  | nil =>
    cases hs
    refine ⟨[], 0, ?_, fun fuel _ => rfl⟩
    rw [List.sum_nil, Int.sub_self]
  | cons n slices ih =>
    obtain ⟨t, hslice, hslices⟩ := hs
    obtain ⟨first, hfirst⟩ := hslice.runs
    obtain ⟨counts, rest, hsum, hrest⟩ := ih hslices
    refine ⟨(cyclesRun t - cyclesRun s) :: counts, max first rest, ?_, fun fuel hfuel => ?_⟩
    · rw [List.sum_cons, hsum]
      omega
    · have hexec := (execute_run fuel n h s).mpr ⟨hfirst fuel (by omega), rfl⟩
      rw [M68k.executeAll, bind_ok hexec, bind_ok (hrest fuel (by omega))]
      rfl

/-- The states in which the run loops of the slices look at the balance. -/
inductive SlicesPass (h : Host σ) : List Int → M68kCpu σ → M68kCpu σ → Prop
  | now {n : Int} {slices : List Int} {s v : M68kCpu σ} (hv : Passes h (modifyTimeslice n s) v) :
      SlicesPass h (n :: slices) s v
  | later {n : Int} {slices : List Int} {s t v : M68kCpu σ} (ht : Slice h (modifyTimeslice n s) t)
      (hv : SlicesPass h slices t v) : SlicesPass h (n :: slices) s v

/-- A state that the slices pass is passed by their sum, with what is still to be added. -/
theorem SlicesPass.merge (hk : Timeless k) {slices : List Int}
    (hv : SlicesPass (ackHost k) slices s v)
    (hslices : ∀ m ∈ slices, 0 ≤ m) : ∃ m, 0 ≤ m ∧ m ≤ slices.sum ∧
      Passes (ackHost k) (modifyTimeslice slices.sum s) (modifyTimeslice m v) := by
  induction hv with
  | @now n slices s v hv =>
    have hrest : 0 ≤ slices.sum := List.sum_nonneg fun m hm => hslices m (List.mem_cons_of_mem n hm)
    have hfirst := hslices n List.mem_cons_self
    -- inside the first slice the others are still to be added
    refine ⟨slices.sum, hrest, ?_, ?_⟩
    · rw [List.sum_cons]
      omega
    · rw [List.sum_cons, ← modifyTimeslice_add]
      exact hv.modifyTimeslice hk hrest
  | @later n slices s t v ht _ ih =>
    have hrest : ∀ m ∈ slices, 0 ≤ m := fun m hm => hslices m (List.mem_cons_of_mem n hm)
    have hfirst := hslices n List.mem_cons_self
    obtain ⟨m, hm, hle, hpass⟩ := ih hrest
    refine ⟨m, hm, ?_, ?_⟩
    · rw [List.sum_cons]
      omega
    · rw [List.sum_cons, ← modifyTimeslice_add]
      exact (ht.passes.modifyTimeslice hk (List.sum_nonneg hrest)).trans hpass

theorem StepsCost.later {c : Int} (hu : Passes h s u) (hs : StepsCost h c s) : StepsCost h c u :=
  fun v w hv => hs v w (hu.trans hv)

end M68k
