import Rocket68.Logic.Step

/-!
# The NMI latch

Level 7 is edge-sensitive: `m68k_set_irq` latches the transitions to 7, and the service of an
interrupt, whatever its level, clears the latch. The latch is an automaton over these two
signals, in any interleaving of requests and steps, and level 7 is serviced only out of it.
-/

namespace M68k

open Trap TrapM

variable {σ : Type} {k : Option (Nat → M68kCpu σ → M68kCpu σ × U32)} {g : Grade}
  {s t u : M68kCpu σ}

/-! ## Signals -/

/-- What the latch sees. -/
inductive Signal where
  | raised
  | serviced (level : Nat)
  deriving DecidableEq

/-- The latch after a signal. -/
def Signal.latch : Bool → Signal → Bool
  | _, .raised => true
  | _, .serviced _ => false

/-- The latch after all signals. -/
def latchAfter (latch : Bool) (signals : List Signal) : Bool := signals.foldl Signal.latch latch

/-- Level 7 is serviced only while the latch is set. -/
def Rationed (latch : Bool) (signals : List Signal) : Prop :=
  ∀ before after, signals = before ++ .serviced 7 :: after → latchAfter latch before = true

theorem rationed_nil (latch : Bool) : Rationed latch [] := fun before after h => by
  cases before <;> cases h

theorem rationed_cons {latch : Bool} {signal : Signal} {signals : List Signal}
    (hfirst : signal = .serviced 7 → latch = true)
    (hrest : Rationed (signal.latch latch) signals) : Rationed latch (signal :: signals) := by
  rintro before after h
  cases before with
  | nil =>
    obtain ⟨hsignal, -⟩ := List.cons.inj h
    exact hfirst hsignal
  | cons b before =>
    obtain ⟨rfl, htail⟩ := List.cons.inj h
    exact hrest before after htail

theorem rationed_append {latch : Bool} {first rest : List Signal}
    (hfirst : Rationed latch first) (hrest : Rationed (latchAfter latch first) rest) :
    Rationed latch (first ++ rest) := by
  induction first generalizing latch with
  | nil => exact hrest
  | cons signal first ih =>
    refine rationed_cons (fun hsignal => ?_) (ih ?_ hrest)
    · exact hfirst [] first (by rw [hsignal]; rfl)
    · rintro before after h
      exact hfirst (signal :: before) after (by rw [h]; rfl)

/-- Every transition is good for one service. -/
theorem rationed_count {latch : Bool} {signals : List Signal} (h : Rationed latch signals) :
    signals.count (.serviced 7) + (if latchAfter latch signals then 1 else 0) ≤
      signals.count .raised + if latch then 1 else 0 := by
  induction signals generalizing latch with
  | nil => exact Nat.le_refl _
  | cons signal signals ih =>
    have hrest : Rationed (signal.latch latch) signals := fun before after htail =>
      h (signal :: before) after (by rw [htail]; rfl)
    have htail := ih hrest
    have hlatch : latchAfter latch (signal :: signals) = latchAfter
      (signal.latch latch) signals := rfl
    rw [hlatch, List.count_cons, List.count_cons]
    cases signal with
    | raised =>
      simp only [Signal.latch, if_true] at htail ⊢
      simp
      omega
    | serviced level =>
      simp only [Signal.latch] at htail ⊢
      by_cases hlevel : level = 7
      · subst hlevel
        have hset : latch = true := h [] signals rfl
        simp [hset] at htail ⊢
        omega
      · have hne : (Signal.serviced level == Signal.serviced 7) = false := by simpa using hlevel
        rw [hne]
        simp at htail ⊢
        omega

/-! ## Runs -/

/-- The signal of a request. -/
def edge (level : Nat) (s : M68kCpu σ) : List Signal :=
  if level = 7 ∧ s.irqLevel ≠ 7 then [.raised] else []

/-- The signal of a step. -/
def service (check : Bool) (s : M68kCpu σ) : List Signal :=
  if check && interruptDue s then [.serviced s.irqLevel] else []

/-- Requests and steps in any order, and the signals they give. -/
inductive Interleaving (k : Option (Nat → M68kCpu σ → M68kCpu σ × U32)) :
    M68kCpu σ → List Signal → M68kCpu σ → Prop
  | none (s : M68kCpu σ) : Interleaving k s [] s
  | request {s u : M68kCpu σ} {signals : List Signal} (level : Fin 8)
      (rest : Interleaving k (setIrq level s) signals u) :
      Interleaving k s (edge level s ++ signals) u
  | step {s t u : M68kCpu σ} {signals : List Signal} (check : Bool)
      (hstep : stepEx check (ackHost k) s = .ok () t) (rest : Interleaving k t signals u) :
      Interleaving k s (service check s ++ signals) u

/-- An INT ACK callback that only makes requests. -/
def Requests (k : Option (Nat → M68kCpu σ → M68kCpu σ × U32)) : Prop :=
  ∀ cb ∈ k, ∀ level s, ∃ levels : List (Fin 8),
    (cb level s).1 = levels.foldl (fun s level => setIrq level s) s

theorem steady_requests (levels : List (Fin 8)) (hs : Steady s) :
    Steady (levels.foldl (fun s level => setIrq level s) s) := by
  induction levels generalizing s with
  | nil => exact hs
  | cons level levels ih => exact ih ⟨hs.1, hs.2, hs.3⟩

theorem Requests.steady (hk : Requests k) (level : Nat) (hs : Steady s) :
    Steady (acknowledged k level s).1 := by
  cases hcb : k with
  | none => exact hs
  | some cb =>
    obtain ⟨levels, hlevels⟩ := hk cb hcb level s
    show Steady (cb level s).1
    rw [hlevels]
    exact steady_requests levels hs

/-- Only the service of an interrupt touches the latch. -/
theorem Stepped.latch {check : Bool} (h : Stepped k g check s t) (hk : Requests k)
    (hd : s.exceptionDepth = 0) :
    t.exceptionDepth = 0 ∧ t.nmiPending = latchAfter s.nmiPending (service check s) := by
  have hsteady : Steady (beginStep s) := ⟨hd, rfl, rfl⟩
  have hrunning := fetched_running hd
  have hkeeps (hdue : (check && interruptDue s) = false) :
      s.nmiPending = latchAfter s.nmiPending (service check s) := by
    rw [service, hdue]
    rfl
  have hfields {v : M68kCpu σ} (hdue : (check && interruptDue s) = false)
      (h : wiring v = wiring (fetched s)) :
      v.exceptionDepth = 0 ∧ v.nmiPending = latchAfter s.nmiPending (service check s) :=
    ⟨(congrArg Wiring.exceptionDepth h).trans hd,
      (congrArg Wiring.nmiPending h).trans (hkeeps hdue)⟩
  cases h with
  -- only the service of an interrupt writes it
  | idle _ hdue => exact ⟨hd, hkeeps hdue⟩
  | interrupt hcheck hdue h =>
    -- the service of any level clears the latch
    have ht := (exception_steady (hk.steady s.irqLevel hsteady) h).kept
    have hdepth := congrArg Wiring.exceptionDepth (wiring_of_kept ht)
    refine ⟨hdepth.trans (hk.steady s.irqLevel hsteady).depth, ?_⟩
    rw [service, hcheck, hdue]
    rfl
  | fetchFault _ hdue hacc h =>
    have habort : Abort k (Grade.of s.supervisor (opcodeAt s)) .decode (armed s)
        (holdGuard (faultVector .word s.pc) false _) :=
      .fault before (fun _ => .inl before) hacc h
    have hwiring := habort.wiring (armed_running hd).steady
    exact ⟨(congrArg Wiring.exceptionDepth hwiring).trans hd,
      (congrArg Wiring.nmiPending hwiring).trans (hkeeps hdue)⟩
  | unwound _ hdue _ _ h => exact hfields hdue (h.wiring hrunning.steady)
  | completed _ hdue _ _ hrun _ hfin =>
    have hend := hrun.steady hrunning.steady
    exact hfields hdue ((hfin.wiring hend).trans (hrun.wiring hrunning.steady))

/-- A due level 7 is latched. -/
theorem service_rationed (check : Bool) (s : M68kCpu σ) :
    Rationed s.nmiPending (service check s) := by
  unfold service
  split
  · next hdue =>
    refine rationed_cons (fun hlevel => ?_) (rationed_nil _)
    have hseven : s.irqLevel = 7 := by
      injection hlevel
    rw [Bool.and_eq_true, interruptDue, hseven] at hdue
    exact hdue.2
  · exact rationed_nil _

theorem edge_rationed (level : Nat) (s : M68kCpu σ) : Rationed s.nmiPending (edge level s) := by
  unfold edge
  split
  · exact rationed_cons nofun (rationed_nil _)
  · exact rationed_nil _

theorem setIrq_latch (level : Nat) (s : M68kCpu σ) :
    (setIrq level s).nmiPending = latchAfter s.nmiPending (edge level s) := by
  unfold setIrq edge
  split <;> rfl

theorem latchAfter_append (latch : Bool) (first rest : List Signal) :
    latchAfter latch (first ++ rest) = latchAfter (latchAfter latch first) rest :=
  List.foldl_append

/-- By induction on the run: the latch follows its signals. -/
theorem Interleaving.follows {signals : List Signal} (h : Interleaving k s signals u)
    (hk : Requests k) (hd : s.exceptionDepth = 0) :
    u.nmiPending = latchAfter s.nmiPending signals ∧ Rationed s.nmiPending signals := by
  induction h with
  | none s => exact ⟨rfl, rationed_nil _⟩
  | @request s u signals level rest ih =>
    obtain ⟨hlatch, hrationed⟩ := ih hd
    rw [setIrq_latch] at hlatch hrationed
    exact ⟨by rw [hlatch, latchAfter_append], rationed_append (edge_rationed level s) hrationed⟩
  | @step s t u signals check hstep rest ih =>
    obtain ⟨t', ht', hst⟩ := stepEx_cases (k := k) (g := .of s.supervisor (opcodeAt s)) check hd
      (hk.steady s.irqLevel (s := beginStep s) ⟨hd, rfl, rfl⟩).depth (Grade.of_covers _ _) rfl
    rw [hstep] at ht'
    cases ht'
    obtain ⟨hdepth, hstepped⟩ := hst.latch hk hd
    obtain ⟨hlatch, hrationed⟩ := ih hdepth
    rw [hstepped] at hlatch hrationed
    exact ⟨by rw [hlatch, latchAfter_append], rationed_append (service_rationed check s) hrationed⟩

/-- The latch is set by a transition to level 7 and cleared by a service, level 7 is serviced
only while it is set, and so no more often than there were transitions. -/
theorem nmi_latch_law {signals : List Signal} (h : Interleaving k s signals u)
    (hk : Requests k) (hd : s.exceptionDepth = 0) :
    u.nmiPending = latchAfter s.nmiPending signals ∧ Rationed s.nmiPending signals ∧
      signals.count (.serviced 7) + (if u.nmiPending then 1 else 0) ≤
        signals.count .raised + if s.nmiPending then 1 else 0 := by
  obtain ⟨hlatch, hrationed⟩ := h.follows hk hd
  rw [hlatch]
  exact ⟨rfl, hrationed, rationed_count hrationed⟩

/-- A transition after reset, serviced by the step that follows it. -/
theorem nmi_latch_law_init : ∃ u : M68kCpu Unit,
    Interleaving none (init (fun _ => 0) 0x1000 ()) [.raised, .serviced 7] u ∧
      u.nmiPending = latchAfter false [.raised, .serviced 7] ∧
      Rationed false [.raised, .serviced 7] ∧
      [Signal.raised, .serviced 7].count (.serviced 7) + (if u.nmiPending then 1 else 0) ≤
        [Signal.raised, .serviced 7].count .raised + if false then 1 else 0 := by
  obtain ⟨t, hstep, -⟩ := stepEx_cases (k := none)
    (s := setIrq 7 (init (fun _ => 0) 0x1000 ())) (g := .of _ (opcodeAt _)) true rfl rfl
    (Grade.of_covers _ _) rfl
  have hrun : Interleaving none (init (fun _ => 0) 0x1000 ()) [.raised, .serviced 7] t :=
    .request 7 (.step true hstep (.none t))
  exact ⟨t, hrun, nmi_latch_law hrun nofun rfl⟩

end M68k
