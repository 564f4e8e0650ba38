import Rocket68.Trap.Approx
import Rocket68.Logic.Frame
import Rocket68.Step

/-!
# Exception processing is bounded

Accesses raise exceptions and exceptions make accesses. What decreases is the
number of clear re-entry guards, so the level count of `exceptionAt` never
matters once it exceeds that number.
-/

namespace M68k

open Trap TrapM

variable {σ : Type}

section Levels

variable {raise raise' : Nat → M σ Unit} (h : ∀ v, Approx (raise v) (raise' v))

include h

theorem approx_addressFault (kind : Access) (address : U32) :
    Approx (addressFault raise kind address) (addressFault raise' kind address) := by
  refine .seq fun _ => .seq fun _ => .seq fun _ => ?_
  exact (h 3).bind fun _ => .refl _

theorem approx_busFault (kind : Access) (address : U32) :
    Approx (busFault raise kind address) (busFault raise' kind address) := by
  refine .seq fun _ => .seq fun _ => .seq fun _ => ?_
  exact (h 2).bind fun _ => .refl _

theorem approx_read32With (address : U32) :
    Approx (read32With raise address) (read32With raise' address) := by
  refine .seq fun _ => .seq fun _ => .seq fun _ => .seq fun s => .ite ?_ ?_
  · exact (approx_addressFault h _ _).bind fun _ => .refl _
  · refine .seq fun host => ?_
    cases host.read32Cb with
    | some cb => exact .refl _
    | none =>
      refine .ite (.refl _) (.ite ?_ (.refl _))
      exact (approx_busFault h _ _).bind fun _ => .refl _

theorem approx_write16With (address : U32) (value : U16) :
    Approx (write16With raise address value) (write16With raise' address value) := by
  refine .seq fun _ => .seq fun _ => .seq fun _ => .seq fun s => .ite ?_ ?_
  · exact approx_addressFault h _ _
  · refine .seq fun host => ?_
    cases host.write16Cb with
    | some cb => exact .refl _
    | none => exact .ite (.refl _) (.ite (approx_busFault h _ _) (.refl _))

theorem approx_write32With (address : U32) (value : U32) :
    Approx (write32With raise address value) (write32With raise' address value) := by
  refine .seq fun _ => .seq fun _ => .seq fun _ => .seq fun s => .ite ?_ ?_
  · exact approx_addressFault h _ _
  · refine .seq fun host => ?_
    cases host.write32Cb with
    | some cb => exact .refl _
    | none => exact .ite (.refl _) (.ite (approx_busFault h _ _) (.refl _))

theorem approx_push16With (value : U16) :
    Approx (push16With raise value) (push16With raise' value) :=
  .seq fun _ => .seq fun _ => .seq fun _ => approx_write16With h _ _

theorem approx_push32With (value : U32) :
    Approx (push32With raise value) (push32With raise' value) :=
  .seq fun _ => .seq fun _ => .seq fun _ => approx_write32With h _ _

theorem approx_pushGroup0Frame (oldPc : U32) (oldSr : U16) :
    Approx (pushGroup0Frame raise oldPc oldSr) (pushGroup0Frame raise' oldPc oldSr) := by
  refine .seq fun _ => (approx_push32With h _).bind fun _ => ?_
  refine (approx_push16With h _).bind fun _ => (approx_push16With h _).bind fun _ => ?_
  exact (approx_push32With h _).bind fun _ => approx_push16With h _

theorem approx_pushFrame (v : Nat) (oldPc : U32) (oldSr : U16) :
    Approx (pushFrame raise v oldPc oldSr) (pushFrame raise' v oldPc oldSr) := by
  refine .seq fun model => ?_
  cases model with
  | m68000 => exact (approx_push32With h _).bind fun _ => approx_push16With h _
  | m68010 =>
    refine (approx_push16With h _).bind fun _ => ?_
    exact (approx_push32With h _).bind fun _ => approx_push16With h _

theorem approx_processException (v : Nat) :
    Approx (processException raise v) (processException raise' v) := by
  refine .seq fun _ => .seq fun oldSr => .seq fun oldPc => .seq fun _ => .ite ?_ ?_
  · refine (approx_pushGroup0Frame h _ _).bind fun _ => .seq fun _ => .seq fun _ => ?_
    exact (approx_read32With h _).bind fun _ => .refl _
  · refine (approx_pushFrame h _ _ _).bind fun _ => .seq fun _ => .seq fun _ => ?_
    exact (approx_read32With h _).bind fun _ => .refl _

end Levels

/-- Under any host, one more level changes nothing that did not run out. -/
theorem approx_exceptionAt (n v : Nat) :
    Approx (exceptionAt n v : M σ Unit) (exceptionAt (n + 1) v) := by
  induction n generalizing v with
  | zero => exact approx_stuck _
  | succ n ih =>
    rw [exceptionAt, exceptionAt]
    exact .seq fun _ => .ite (.refl _) (approx_processException ih v)

/-- Exception processing is finite: any number of levels beyond the clear guards
gives one outcome, at most two guards are ever clear, and a return leaves depth
and guards as they were. It returns at every depth an activation can have. -/
theorem exception_bounded (v : Nat) (s : M68kCpu σ) :
    (∀ n, clearGuards s < n →
        exceptionAt n v (Host.none σ) s = exceptionAt (clearGuards s + 1) v (Host.none σ) s) ∧
      exceptionAt (clearGuards s + 1) v (Host.none σ) s ≠ .diverge ∧
      clearGuards s + 1 ≤ 3 ∧
      (∀ t, exception v (Host.none σ) s = .ok () t →
        t.exceptionDepth = s.exceptionDepth ∧ t.inAddressError = s.inAddressError ∧
          t.inBusError = s.inBusError ∧ t.supervisor = true) ∧
      (0 ≤ s.exceptionDepth → ∃ t, exception v (Host.none σ) s = .ok () t) := by
  have hlevels : exceptionAt (clearGuards s + 1) v (Host.none σ) s ≠ .diverge := by
    have hwp := exceptionAt_handles (k := none) (clearGuards s + 1) v s (Nat.lt_succ_self _)
    intro hdiverge
    unfold wp at hwp
    rw [ackHost_none, hdiverge] at hwp
    exact hwp
  have hstable (n : Nat) (hn : clearGuards s < n) :
      exceptionAt n v (Host.none σ) s = exceptionAt (clearGuards s + 1) v (Host.none σ) s := by
    have happrox := approx_of_le (fun n => approx_exceptionAt (σ := σ) n v) hn
    exact (happrox (Host.none σ) s).resolve_left hlevels
  refine ⟨hstable, hlevels, Nat.succ_le_succ (clearGuards_le s), ?_, ?_⟩
  · intro t ht
    have hp := (wp_ok (exception_wp (k := none) v s) ht).1
    refine ⟨congrArg Kept.exceptionDepth hp.kept, congrArg Kept.inAddressError hp.kept,
      congrArg Kept.inBusError hp.kept, ?_⟩
    rw [supervisor_eq, hp.sr]
    exact handlerSr_supervisor _
  · intro hdepth
    obtain ⟨t, ht, -⟩ := exception_processed (k := none) v hdepth
    exact ⟨t, ht⟩

end M68k
