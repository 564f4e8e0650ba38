import Rocket68.Logic.Twin
import Rocket68.Theorems.Resume

/-!
# The bound memory is all there is

The bytes behind the memory pointer end at the bound size. Two machines whose memories differ
beyond it run alike, and neither changes a byte there; and a byte that a step does change is
one of a write that the step showed on the bus.
-/

namespace M68k

open Trap TrapM

variable {σ : Type} {m n : U32 → U8} {s t u : M68kCpu σ}

/-! ## Writes and memory -/

/-- The state with other memory. -/
def withMemory (m : U32 → U8) (s : M68kCpu σ) : M68kCpu σ := { s with memory := m }

/-- No write of the model looks at memory. -/
theorem Write.withMemory {f : M68kCpu σ → M68kCpu σ} (hf : Write f) (m : U32 → U8)
    (s : M68kCpu σ) : f (M68k.withMemory m s) = M68k.withMemory m (f s) := by
  cases hf with
  | setSr sr =>
    have hsupervisor : (M68k.withMemory m s).supervisor = s.supervisor := rfl
    unfold withSr
    rw [hsupervisor]
    dsimp only
    split
    · split <;> rfl
    · rfl
  | control c => cases c <;> rfl
  | _ => rfl

/-- Nor does it change memory, and it shows at most one more event. -/
theorem Write.keeps {f : M68kCpu σ → M68kCpu σ} (hf : Write f) (s : M68kCpu σ) :
    (f s).memory = s.memory ∧ (f s).memorySize = s.memorySize ∧ ∀ e ∈ s.log, e ∈ (f s).log := by
  cases hf with
  | note e => exact ⟨rfl, rfl, fun _ => List.mem_cons_of_mem e⟩
  | enter v => exact ⟨rfl, rfl, fun _ => List.mem_cons_of_mem (Event.exception v)⟩
  | setSr sr =>
    unfold withSr
    dsimp only
    split
    · split <;> exact ⟨rfl, rfl, fun _ => id⟩
    · exact ⟨rfl, rfl, fun _ => id⟩
  | control c => cases c <;> exact ⟨rfl, rfl, fun _ => id⟩
  | _ => exact ⟨rfl, rfl, fun _ => id⟩

theorem Announced.grow {a : U32} (h : Announced s a) (hlog : ∀ e ∈ s.log, e ∈ t.log) :
    Announced t a := by
  obtain ⟨size, address, i, hi, hwrite, ha⟩ := h
  exact ⟨size, address, i, hi, hlog _ hwrite, ha⟩

/-! ## Machines that differ beyond the bound memory -/

/-- The machines differ beyond `size` bytes of memory only, and hold `m` and `n` there. -/
structure Beyond (size : U32) (m n : U32 → U8) (s t : M68kCpu σ) : Prop where
  alike : t = withMemory t.memory s
  bound : s.memorySize = size
  inside : ∀ a, a < size → t.memory a = s.memory a
  outside : ∀ a, ¬a < size → s.memory a = m a ∧ t.memory a = n a

/-- In a step that began on the memory `b`, every change was announced as well. -/
structure Enclosed (b : U32 → U8) (size : U32) (m n : U32 → U8) (s t : M68kCpu σ) : Prop
    extends Beyond size m n s t where
  announced : ∀ a, s.memory a ≠ b a → Announced s a

section Steps

variable {b : U32 → U8} {size : U32}

theorem Beyond.write (h : Beyond size m n s t) {f : M68kCpu σ → M68kCpu σ} (hf : Write f) :
    Beyond size m n (f s) (f t) := by
  obtain ⟨hmemory, hsize, -⟩ := hf.keeps s
  have hright : (f t).memory = t.memory := (hf.keeps t).1
  refine ⟨?_, hsize.trans h.bound, ?_, ?_⟩
  · rw [hright, ← hf.withMemory, ← h.alike]
  · rw [hright, hmemory]
    exact h.inside
  · rw [hright, hmemory]
    exact h.outside

theorem Enclosed.write (h : Enclosed b size m n s t) {f : M68kCpu σ → M68kCpu σ} (hf : Write f) :
    Enclosed b size m n (f s) (f t) := by
  obtain ⟨hmemory, -, hlog⟩ := hf.keeps s
  refine ⟨h.toBeyond.write hf, ?_⟩
  rw [hmemory]
  exact fun a ha => (h.announced a ha).grow hlog

theorem Enclosed.store (h : Enclosed b size m n s t) {a : U32} (v : U8) (ha : a < s.memorySize)
    (hannounced : Announced s a) :
    Enclosed b size m n { s with memory := storeByte s.memory a v }
      { t with memory := storeByte t.memory a v } := by
  have halike : { t with memory := storeByte t.memory a v } =
      withMemory (storeByte t.memory a v) s := by
    rw [h.alike]
    rfl
  rw [h.bound] at ha
  refine ⟨⟨halike, h.bound, fun c hc => ?_, fun c hc => ?_⟩, fun c hc => ?_⟩
  · by_cases hca : c = a
    · simp [storeByte, hca]
    · simpa [storeByte, hca] using h.inside c hc
  · have hca : c ≠ a := by
      rintro rfl
      exact hc ha
    simpa [storeByte, hca] using h.outside c hc
  · by_cases hca : c = a
    · rw [hca]
      exact hannounced
    · have hchanged : s.memory c ≠ b c := by simpa [storeByte, hca] using hc
      exact h.announced c hchanged

theorem enclosed_twins (b : U32 → U8) (size : U32) (m n : U32 → U8) :
    Twins none (Enclosed (σ := σ) b size m n) where
  looks s t h := by
    rw [h.alike]
    rfl
  memory s t h := by
    rw [h.bound]
    exact h.inside
  memorySize s t h := by
    rw [h.alike]
    rfl
  guard s t h := by
    rw [h.alike]
    rfl
  write hf s t h := h.write hf
  store a v s t h := h.store v
  hold c s t h := by
    refine ⟨⟨?_, h.bound, h.inside, h.outside⟩, fun a ha => (h.announced a ha).grow fun _ => id⟩
    rw [h.alike]
    rfl
  answer := nofun

theorem Beyond.beginStep (h : Beyond size m n s t) :
    Enclosed s.memory size m n (beginStep s) (beginStep t) := by
  refine ⟨⟨?_, h.bound, h.inside, h.outside⟩, fun a ha => absurd rfl ha⟩
  rw [h.alike]
  rfl

/-- A step keeps to the bound memory. -/
theorem Beyond.step {check : Bool} (h : Beyond size m n s t)
    (hu : stepEx check (Host.none σ) s = .ok () u) :
    ∃ v, stepEx check (Host.none σ) t = .ok () v ∧ Enclosed s.memory size m n u v :=
  (enclosed_twins s.memory size m n).stepEx_ok h.beginStep hu

theorem Beyond.requested (h : Beyond size m n s t) (levels : List (Fin 8)) :
    Beyond size m n (requested levels s) (requested levels t) := by
  induction levels generalizing s t with
  | nil => exact h
  | cons level levels ih =>
    have hright : setIrq level t = withMemory t.memory (setIrq level s) := by
      have hlevel : (withMemory t.memory s).irqLevel = s.irqLevel := rfl
      rw [h.alike]
      unfold setIrq
      rw [hlevel]
      split <;> rfl
    have hleft : Beyond size m n (setIrq level s) (withMemory t.memory (setIrq level s)) := by
      unfold setIrq
      split <;> exact ⟨rfl, h.bound, h.inside, h.outside⟩
    rw [← hright] at hleft
    exact ih hleft

end Steps

/-! ## Runs -/

/-- A machine runs as any other does that agrees with it on the bound memory, and neither run
changes a byte beyond it. -/
theorem runs_enclosed {size : U32} (hs : Settled s) (h : Beyond size m n s t)
    (schedule : List (List (Fin 8))) : ∃ us vs,
      trace (Host.none σ) schedule s = some us ∧ trace (Host.none σ) schedule t = some vs ∧
        List.Forall₂ (Beyond size m n) us vs := by
  induction schedule generalizing s t with
  | nil => exact ⟨[], [], rfl, rfl, .nil⟩
  | cons levels schedule ih =>
    obtain ⟨u, hu, hsettled⟩ := (hs.requested levels).step
    obtain ⟨v, hv, henclosed⟩ := (h.requested levels).step hu
    obtain ⟨us, vs, hus, hvs, hall⟩ := ih hsettled henclosed.toBeyond
    refine ⟨u :: us, v :: vs, ?_, ?_, .cons henclosed.toBeyond hall⟩
    · rw [trace_cons hu, hus]
      rfl
    · rw [trace_cons hv, hvs]
      rfl

/-- Three steps over 4096 bytes of zeros, in a buffer that goes on with other bytes. -/
theorem runs_enclosed_init : ∃ us vs,
    trace (Host.none Unit) [[], [3], [7]] (init (fun _ => 0) 0x1000 ()) = some us ∧
      trace (Host.none Unit) [[], [3], [7]]
        (init (fun a => if a < 0x1000 then 0 else 0xFF) 0x1000 ()) = some vs ∧
      List.Forall₂ (Beyond 0x1000 (fun _ => 0) fun a => if a < 0x1000 then 0 else 0xFF) us vs := by
  have hs : Settled (init (fun _ => 0) 0x1000 ()) :=
    ⟨rfl, rfl, rfl, rfl, rfl, rfl, rfl, Nat.zero_le _, rfl⟩
  exact runs_enclosed hs ⟨rfl, rfl, fun a ha => if_pos ha, fun a _ => ⟨rfl, rfl⟩⟩ _

/-- A byte that a step changes lies in the bound memory and in a write shown on the bus. -/
theorem changes_announced (check : Bool) (hd : s.exceptionDepth = 0) :
    ∃ u, stepEx check (Host.none σ) s = .ok () u ∧
      ∀ a, u.memory a ≠ s.memory a → a < s.memorySize ∧ Announced u a := by
  obtain ⟨u, hu, -⟩ := stepEx_cases (k := none) (g := .of s.supervisor (opcodeAt s)) check hd hd
    (Grade.of_covers _ _) rfl
  have hsame : Beyond s.memorySize s.memory s.memory s s :=
    ⟨rfl, rfl, fun _ _ => rfl, fun _ _ => ⟨rfl, rfl⟩⟩
  obtain ⟨v, -, henclosed⟩ := hsame.step hu
  refine ⟨u, hu, fun a ha => ⟨?_, henclosed.announced a ha⟩⟩
  by_contra hbeyond
  exact ha (henclosed.outside a hbeyond).1

/-- TRAP #0, with the stack in memory. -/
def trapFrame : M68kCpu Unit :=
  { init (fun a => if a = 0x100 then 0x4E else if a = 0x101 then 0x40 else 0) 0x1000 () with
    sr := 0x2700
    aRegs := fun r => if r = 7 then 0x900 else 0
    pc := 0x100 }

theorem changes_announced_trap : ∃ u, stepEx true (Host.none Unit) trapFrame = .ok () u ∧
    u.memory 0x8FA = 0x27 ∧ Announced u 0x8FA ∧ u.memory 0x8FF = 0x02 ∧ Announced u 0x8FF := by
  obtain ⟨u, hu, hchanges⟩ := changes_announced (s := trapFrame) true rfl
  have hframe : (exec? (stepEx (σ := Unit) true) (Host.none Unit) trapFrame).map
      (fun u => (u.memory 0x8FA, u.memory 0x8FF)) = some (0x27, 0x02) := by decide +kernel
  simp only [exec?, hu, Option.map_some, Option.some.injEq, Prod.mk.injEq] at hframe
  obtain ⟨hsr, hpc⟩ := hframe
  refine ⟨u, hu, hsr, (hchanges 0x8FA ?_).2, hpc, (hchanges 0x8FF ?_).2⟩
  · rw [hsr]
    decide
  · rw [hpc]
    decide

end M68k
