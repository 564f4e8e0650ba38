import Rocket68.Logic.Twin
import Rocket68.Theorems.Callbacks
import Rocket68.Theorems.Restore

/-!
# A restored machine runs on

A save state leaves out the records of past faults. The model reads them only while their
valid flags are set, so a machine restored from a save state makes the same steps as the
machine that was saved, whatever is requested of both.
-/

namespace M68k

open Trap TrapM

variable {σ : Type} {s t u : M68kCpu σ}

/-! ## Leftovers -/

/-- The records of past faults, and the host's own data. -/
structure Leftovers (σ : Type) where
  faultAddress : U32
  faultIr : U16
  faultSsw : U16
  faultProgramAccess : Bool
  faultPc : U32
  faultBusWord : U16
  host : σ

/-- The state with other leftovers. -/
def leaving (d : Leftovers σ) (s : M68kCpu σ) : M68kCpu σ :=
  { s with
    faultAddress := d.faultAddress
    faultIr := d.faultIr
    faultSsw := d.faultSsw
    faultProgramAccess := d.faultProgramAccess
    faultPc := d.faultPc
    faultBusWord := d.faultBusWord
    host := d.host }

/-- The leftovers differ from those of `s` only where no flag of `s` vouches for them. -/
structure Stale (d : Leftovers σ) (s : M68kCpu σ) : Prop where
  record : s.faultValid = true →
    d.faultAddress = s.faultAddress ∧ d.faultIr = s.faultIr ∧ d.faultSsw = s.faultSsw
  pc : s.faultPcValid = true → d.faultPc = s.faultPc
  busWord : s.faultBusWordValid = true → d.faultBusWord = s.faultBusWord

/-- `t` is `s`, stale leftovers apart. -/
def Alike (s t : M68kCpu σ) : Prop := ∃ d, Stale d s ∧ t = leaving d s

theorem Stale.looks {d : Leftovers σ} (h : Stale d s) : looks (leaving d s) = looks s := by
  have hwords : groupWords (leaving d s) = groupWords s := by
    by_cases hvalid : s.faultValid = true
    · obtain ⟨haddress, hir, hssw⟩ := h.record hvalid
      simp [groupWords, leaving, hvalid, haddress, hir, hssw]
    · simp [groupWords, leaving, hvalid]
  have hstacked : (fun v => stackedPc v (leaving d s)) = fun v => stackedPc v s := by
    funext v
    by_cases hvalid : s.faultPcValid = true
    · simp [stackedPc, leaving, hvalid, h.pc hvalid]
    · simp [stackedPc, leaving, hvalid]
  simp only [M68k.looks, hwords, hstacked]
  rfl

/-- Every write leaves stale leftovers, or new ones in both states. -/
theorem Write.leaving {f : M68kCpu σ → M68kCpu σ} (hf : Write f) {d : Leftovers σ}
    (h : Stale d s) : Alike (f s) (f (leaving d s)) := by
  cases hf with
  | latchFaultPc v => exact ⟨{ d with faultPc := v }, ⟨h.record, fun _ => rfl, h.busWord⟩, rfl⟩
  | latchBusWord w => exact ⟨{ d with faultBusWord := w }, ⟨h.record, h.pc, fun _ => rfl⟩, rfl⟩
  | capture address isWrite isProgram =>
    refine ⟨{ d with
      faultAddress := address
      faultIr := (captureAccessFault address isWrite isProgram s).faultIr
      faultSsw := (captureAccessFault address isWrite isProgram s).faultSsw
      faultProgramAccess := isProgram }, ⟨fun _ => ⟨rfl, rfl, rfl⟩, h.pc, h.busWord⟩, ?_⟩
    have hfc : currentFc (M68k.leaving d s) isProgram = currentFc s isProgram := rfl
    unfold captureAccessFault
    rw [hfc]
    -- the latched word is read only while its flag is set
    by_cases hvalid : s.faultBusWordValid = true
    · simp [M68k.leaving, hvalid, h.busWord hvalid]
    · simp [M68k.leaving, hvalid]
  | dropBusWord => exact ⟨d, ⟨h.record, h.pc, nofun⟩, rfl⟩
  | arm => exact ⟨d, ⟨h.record, nofun, h.busWord⟩, rfl⟩
  | clearLatches =>
    exact ⟨{ d with faultProgramAccess := false }, ⟨nofun, nofun, nofun⟩, rfl⟩
  | setSr v =>
    have hsupervisor : (M68k.leaving d s).supervisor = s.supervisor := rfl
    unfold withSr
    rw [hsupervisor]
    dsimp only
    split
    · split <;> exact ⟨d, ⟨h.record, h.pc, h.busWord⟩, rfl⟩
    · exact ⟨d, ⟨h.record, h.pc, h.busWord⟩, rfl⟩
  | control c => cases c <;> exact ⟨d, ⟨h.record, h.pc, h.busWord⟩, rfl⟩
  | _ => exact ⟨d, ⟨h.record, h.pc, h.busWord⟩, rfl⟩

theorem alike_twins : Twins none (Alike (σ := σ)) where
  looks := by
    rintro s _ ⟨d, hd, rfl⟩
    exact hd.looks
  memory := by
    rintro s _ ⟨d, hd, rfl⟩ a _
    rfl
  memorySize := by
    rintro s _ ⟨d, hd, rfl⟩
    rfl
  guard := by
    rintro s _ ⟨d, hd, rfl⟩
    rfl
  write := by
    rintro f hf s _ ⟨d, hd, rfl⟩
    exact hf.leaving hd
  store := by
    rintro a v s _ ⟨d, hd, rfl⟩ _ _
    exact ⟨d, ⟨hd.record, hd.pc, hd.busWord⟩, rfl⟩
  hold := by
    rintro b s _ ⟨d, hd, rfl⟩
    exact ⟨d, ⟨hd.record, hd.pc, hd.busWord⟩, rfl⟩
  answer := nofun

/-! ## Steps and requests -/

theorem beginStep_requested (levels : List (Fin 8)) (s : M68kCpu σ) :
    beginStep (requested levels s) = requested levels (beginStep s) := by
  induction levels generalizing s with
  | nil => rfl
  | cons level levels ih =>
    have hfirst : beginStep (setIrq level s) = setIrq level (beginStep s) := by
      have hlevel : (beginStep s).irqLevel = s.irqLevel := rfl
      unfold setIrq
      rw [hlevel]
      split <;> rfl
    show beginStep (requested levels (setIrq level s)) = requested levels
      (setIrq level (beginStep s))
    rw [ih, hfirst]

theorem Alike.requested (h : Alike s t) (levels : List (Fin 8)) :
    Alike (requested levels s) (requested levels t) := by
  induction levels generalizing s t with
  | nil => exact h
  | cons level levels ih =>
    obtain ⟨d, hd, rfl⟩ := h
    have hfirst : setIrq level (leaving d s) = leaving d (setIrq level s) := by
      have hlevel : (leaving d s).irqLevel = s.irqLevel := rfl
      unfold setIrq
      rw [hlevel]
      split <;> rfl
    have hstale : Stale d (setIrq level s) := by
      unfold setIrq
      split <;> exact ⟨hd.record, hd.pc, hd.busWord⟩
    exact ih ⟨d, hstale, hfirst⟩

theorem Alike.beginStep (h : Alike s t) : Alike (beginStep s) (beginStep t) := by
  obtain ⟨d, hd, rfl⟩ := h
  exact ⟨{ d with faultProgramAccess := false }, ⟨nofun, hd.pc, hd.busWord⟩, rfl⟩

/-- Machines that are alike once a step has begun make the same step. -/
theorem step_alike {levels : List (Fin 8)} (h : Alike (beginStep s) (beginStep t))
    (hu : step (Host.none σ) (requested levels s) = .ok () u) :
    ∃ v, step (Host.none σ) (requested levels t) = .ok () v ∧ Alike u v := by
  refine alike_twins.stepEx_ok ?_ hu
  rw [beginStep_requested, beginStep_requested]
  exact h.requested levels

/-- From there on the same run. -/
theorem trace_alike (schedule : List (List (Fin 8))) (hs : Settled s)
    (h : Alike (beginStep s) (beginStep t)) : ∃ us vs,
      trace (Host.none σ) schedule s = some us ∧ trace (Host.none σ) schedule t = some vs ∧
        List.Forall₂ Alike us vs := by
  induction schedule generalizing s t with
  | nil => exact ⟨[], [], rfl, rfl, .nil⟩
  | cons levels schedule ih =>
    obtain ⟨u, hu, hsettled⟩ := (hs.requested levels).step
    obtain ⟨v, hv, halike⟩ := step_alike h hu
    obtain ⟨us, vs, hus, hvs, hall⟩ := ih hsettled halike.beginStep
    refine ⟨u :: us, v :: vs, ?_, ?_, .cons halike hall⟩
    · rw [trace_cons hu, hus]
      rfl
    · rw [trace_cons hv, hvs]
      rfl

/-! ## Restoring -/

/-- No record of a past fault can be stacked in the first step: there is none, or the step
begins an instruction. -/
def Unvouched (levels : List (Fin 8)) (s : M68kCpu σ) : Prop :=
  s.faultPcValid = false ∨ (s.stopped = false ∧ interruptDue (requested levels s) = false)

/-- The state without the PC of a past fault. -/
def withoutFaultPc (s : M68kCpu σ) : M68kCpu σ := { s with faultPcValid := false }

/-- An instruction drops the PC of a past fault before it does anything. -/
theorem step_withoutFaultPc (hrunning : s.stopped = false) (hdue : interruptDue s = false) :
    step (Host.none σ) s = step (Host.none σ) (withoutFaultPc s) := by
  have hrun {v : M68kCpu σ} (hrunning : v.stopped = false) (hdue : interruptDue v = false) :
      step (ackHost none) v =
        catchTrap (execInstruction true v.traced) abortInstruction (ackHost none)
          (beginStep v) := by
    have hservice : serviceInterrupts true (ackHost none) (beginStep v) = .ok false (beginStep v) :=
      checkInterrupts_not_due (s := beginStep v) hdue
    rw [step, stepEx_run, ite_run, hrunning]
    exact bind_ok hservice
  have hexec : execInstruction true s.traced (ackHost none) (beginStep s) =
      execInstruction true s.traced (ackHost none) (beginStep (withoutFaultPc s)) := by
    rw [execInstruction, modify_bind, modify_bind]
    rfl
  have hs := hrun hrunning hdue
  have ht := hrun (v := withoutFaultPc s) hrunning hdue
  rw [catchTrap] at hs ht
  rw [hexec] at hs
  exact hs.trans ht.symm

theorem requested_withoutFaultPc (levels : List (Fin 8)) (s : M68kCpu σ) :
    requested levels (withoutFaultPc s) = withoutFaultPc (requested levels s) := by
  induction levels generalizing s with
  | nil => rfl
  | cons level levels ih =>
    have hfirst : setIrq level (withoutFaultPc s) = withoutFaultPc (setIrq level s) := by
      have hlevel : (withoutFaultPc s).irqLevel = s.irqLevel := rfl
      unfold setIrq
      rw [hlevel]
      split <;> rfl
    show requested levels (setIrq level (withoutFaultPc s)) =
      withoutFaultPc (requested levels (setIrq level s))
    rw [hfirst, ih]

theorem stopped_requested (levels : List (Fin 8)) (s : M68kCpu σ) :
    (requested levels s).stopped = s.stopped := by
  induction levels generalizing s with
  | nil => rfl
  | cons level levels ih =>
    refine (ih (setIrq level s)).trans ?_
    unfold setIrq
    split <;> rfl

theorem trace_withoutFaultPc {schedule : List (List (Fin 8))}
    (h : ∀ levels ∈ schedule.head?, Unvouched levels s) :
    trace (Host.none σ) schedule s = trace (Host.none σ) schedule (withoutFaultPc s) := by
  cases schedule with
  | nil => rfl
  | cons levels schedule =>
    rcases h levels rfl with hclear | ⟨hrunning, hdue⟩
    · rw [withoutFaultPc, ← hclear]
    · have hfirst := step_withoutFaultPc ((stopped_requested levels s).trans hrunning) hdue
      rw [← requested_withoutFaultPc] at hfirst
      rw [trace, trace, exec?, exec?, hfirst]

theorem withoutFaultPc_alike (hs : Settled s) (hint : IntCounters s)
    (hmemory : t.memory = s.memory) (hsize : t.memorySize = s.memorySize)
    (hdepth : t.exceptionDepth = 0) :
    Alike (beginStep (withoutFaultPc s)) (beginStep (restored s t)) := by
  have hirq : s.irqLevel % 256 = s.irqLevel :=
    Nat.mod_eq_of_lt (Nat.lt_of_le_of_lt hs.irqLevel (by decide))
  refine ⟨⟨t.faultAddress, t.faultIr, t.faultSsw, false, t.faultPc, t.faultBusWord, t.host⟩,
    ⟨nofun, nofun, fun h => ?_⟩, ?_⟩
  · exact absurd (hs.busWord.symm.trans h) Bool.false_ne_true
  · simp only [restored, clearTransient, beginStep, leaving, withoutFaultPc, hmemory, hsize, hdepth,
      hs.depth, hs.busWord, hs.programSpace, hirq, toInt_ofInt32 hint.target,
      toInt_ofInt32 hint.remaining]

/-- A machine restored from a save state runs as the saved one does, step for step, under
any requests. -/
theorem restored_resumes (hs : Settled s) (hint : IntCounters s)
    (hmemory : t.memory = s.memory) (hsize : t.memorySize = s.memorySize)
    (hdepth : t.exceptionDepth = 0) {buffer : List U8} (hbuffer : buffer.length = stateNeed)
    (schedule : List (List (Fin 8))) (hfirst : ∀ levels ∈ schedule.head?, Unvouched levels s) :
    ∃ bytes r us vs, serialize s (some buffer) = (stateNeed, some bytes) ∧
      deserialize (some bytes) t = (true, r) ∧
      trace (Host.none σ) schedule s = some us ∧ trace (Host.none σ) schedule r = some vs ∧
      List.Forall₂ Alike us vs := by
  have hsaved : serialize s (some buffer) = (stateNeed, some (stateBytes s)) := by
    have hroom : ¬buffer.length < stateNeed := by omega
    rw [serialize, if_neg hroom, overwrite, stateBytes_length,
      List.drop_eq_nil_of_le (Nat.le_of_eq hbuffer), List.append_nil]
  have hsettled : Settled (withoutFaultPc s) := ⟨hs.trapActive, hs.addressGuard, hs.busGuard,
    hs.programSpace, hs.busWord, hs.faultValid, hs.depth, hs.irqLevel, hs.sr⟩
  obtain ⟨us, vs, hus, hvs, hall⟩ :=
    trace_alike schedule hsettled (withoutFaultPc_alike hs hint hmemory hsize hdepth)
  rw [← trace_withoutFaultPc hfirst] at hus
  exact ⟨stateBytes s, restored s t, us, vs, hsaved, deserialize_stateBytes s t, hus, hvs, hall⟩

/-- A machine that has the PC of a past fault latched and goes on with an instruction. -/
def latchedInit : M68kCpu Unit := { init (fun _ => 0) 0x1000 () with faultPcValid := true }

theorem restored_resumes_latched : ∃ bytes r us vs,
    serialize latchedInit (some (List.replicate stateNeed 0)) = (stateNeed, some bytes) ∧
      deserialize (some bytes) (init (fun _ => 0) 0x1000 ()) = (true, r) ∧
      trace (Host.none Unit) [[], [3], [0, 7]] latchedInit = some us ∧
      trace (Host.none Unit) [[], [3], [0, 7]] r = some vs ∧ List.Forall₂ Alike us vs := by
  have hs : Settled latchedInit := ⟨rfl, rfl, rfl, rfl, rfl, rfl, rfl, Nat.zero_le _, rfl⟩
  have hint : IntCounters latchedInit := ⟨by decide, by decide⟩
  have hbuffer : (List.replicate stateNeed (0 : U8)).length = stateNeed := List.length_replicate
  have hfirst : ∀ levels ∈ [[], [3], [0, 7]].head?, Unvouched levels latchedInit := by
    rintro levels ⟨⟩
    exact .inr ⟨rfl, rfl⟩
  exact restored_resumes (s := latchedInit) (t := init (fun _ => 0) 0x1000 ()) hs hint rfl rfl rfl
    hbuffer _ hfirst

end M68k
