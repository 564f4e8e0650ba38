import Rocket68.Logic.Delivery

/-!
# Exception entry and RTE are inverse

A delivered exception leaves a frame from which RTE resumes the interrupted
context, on both models and from both modes.
-/

namespace M68k

open Trap TrapM

variable {σ : Type}

/-- RTE straight after an exception resumes the program it interrupted, and only
the bytes of the frame have changed. -/
theorem exception_rte (opcode : U16) {v : Nat} {s : M68kCpu σ} (hv : v < 256)
    (hv' : v ≠ 2 ∧ v ≠ 3) (hsr : s.sr &&& srMask = s.sr) (hvector : hasVector v s = true)
    (hframe : fits s s.supervisorSp (frameOf v s) = true) :
    ∃ t u, exception v (Host.none σ) s = .ok () t ∧ execRte opcode (Host.none σ) t = .ok () u ∧
      u.sr = s.sr ∧ u.aRegs = s.aRegs ∧ u.userSp = s.userSp ∧
      u.supervisorSp = s.supervisorSp ∧ u.dRegs = s.dRegs ∧
      u.pc = (if v = 4 ∨ v = 8 ∨ v = 10 ∨ v = 11 then s.ppc else s.pc) ∧
      ∀ a, ¬InFrame s.supervisorSp (if s.model.is68010 then 8 else 6) a →
        u.memory a = s.memory a := by
  have hkept := delivered_kept v s
  obtain ⟨ha7, hpop, hholds⟩ := delivered_frame hv' hframe
  obtain ⟨log, hrte⟩ := execRte_run (k := none) opcode (by omega) (delivered_supervisor v s) hpop
    hholds
  have hmodel : (delivered v s).model = s.model := congrArg Kept.model hkept
  have hsp : (delivered v s).aRegs 7 + normalBytes (delivered v s).model = s.supervisorSp := by
    rw [ha7, hmodel]
    exact BitVec.sub_add_cancel _ _
  rw [hsp] at hrte
  obtain ⟨hsr', haregs, huser, hsuper⟩ := resumed_restores (stackedPc v s) log hsr
    (delivered_supervisor v s) (congrArg Kept.userSp hkept) (congrArg Kept.lowA hkept)
  have hfields (w : M68kCpu σ) (x : U16) :
      (withSr x w).dRegs = w.dRegs ∧ (withSr x w).memory = w.memory := by
    rw [withSr_eq]
    exact ⟨rfl, rfl⟩
  refine ⟨_, _, exception_delivers none (exceptionFaults_of_fits hframe hvector), hrte, hsr',
    haregs, huser, hsuper, ?_, ?_, fun a ha => ?_⟩
  · exact ((hfields _ _).1).trans (congrArg Kept.dRegs hkept)
  · show stackedPc v s = _
    rw [stackedPc, if_neg (by omega)]
  · rw [← (frameSize_normal hv' s).2] at ha
    exact (congrFun (hfields _ _).2 a).trans (delivered_memory ha)

theorem exception_rte_trap :
    ∃ t u, exception 32 (Host.none Unit) { init (fun _ => 0) 0x1000 () with ssp := 0x800 } =
        .ok () t ∧ execRte 0x4E73 (Host.none Unit) t = .ok () u ∧ u.sr = 0 ∧
      u.aRegs = (fun _ => 0) ∧ u.userSp = 0 ∧ u.supervisorSp = 0x800 ∧ u.dRegs = (fun _ => 0) ∧
      u.pc = 0 ∧ ∀ a, ¬InFrame 0x800 6 a → u.memory a = 0 :=
  exception_rte 0x4E73 (s := { init (fun _ => 0) 0x1000 () with ssp := 0x800 }) (v := 32)
    (by decide) (by decide) (by decide) (by decide) (by decide)

end M68k
