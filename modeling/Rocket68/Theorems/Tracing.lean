import Rocket68.Theorems.Precise

/-!
# Trace delivery

An instruction begun under T = 1 is followed by the trace exception, which is
decided at one exit of the step. Unwound instructions do not reach that exit, a
bus or address error on a jump target suppresses it there, and so does STOP.
-/

namespace M68k

open Trap TrapM

variable {σ : Type} {k : Option (Nat → M68kCpu σ → M68kCpu σ × U32)} {g : Grade} {p q : Phase}
  {s t u : M68kCpu σ} {v : Nat}

/-! ## The exceptions of a step -/

/-- The vectors of the exceptions in a log, newest first. -/
def vectors (log : List Event) : List Nat :=
  log.filterMap fun
    | .exception v => some v
    | _ => none

/-- The stack, the vector table and the handler addresses served every exception
of a log: no access of exception processing faulted, and no address error
followed an exception. -/
structure Served (log : List Event) : Prop where
  accesses : faultsInHandling log = false
  handlers : ∀ newer older, log = newer ++ older → older.any Event.isException = true →
    .exception 3 ∉ newer

/-- The instruction was executed: it was not rejected, and no fault aborted it. -/
def Executed (t : M68kCpu σ) : Prop := ∀ v ∈ vectors t.log, ¬RejectVector v ∧ v ≠ 2 ∧ v ≠ 3

/-- The law of trace mode: an executed instruction is followed by one trace
exception, any other by none. -/
def TraceLaw (t : M68kCpu σ) : Prop :=
  (Executed t → ∃ forced, vectors t.log = 9 :: forced ∧ 9 ∉ forced) ∧
    (¬Executed t → 9 ∉ vectors t.log)

/-- The trace exceptions of a step from `s` to `t`. -/
structure TraceDelivered (s t : M68kCpu σ) : Prop where
  executed : Executed t → t.stopped = false →
    ∃ forced, vectors t.log = 9 :: forced ∧ 9 ∉ forced
  stopped : t.stopped = true → 9 ∉ vectors t.log
  faulted : 2 ∈ vectors t.log ∨ 3 ∈ vectors t.log → 9 ∉ vectors t.log
  unwound : (∃ u, dispatch (opcodeAt s) (Host.none σ) (fetched s) = .trap u) →
    9 ∉ vectors t.log

@[simp] theorem vectors_append (xs ys : List Event) :
    vectors (xs ++ ys) = vectors xs ++ vectors ys := List.filterMap_append

@[simp] theorem vectors_exception (v : Nat) (log : List Event) :
    vectors (.exception v :: log) = v :: vectors log := rfl

@[simp] theorem vectors_access (kind : Access) (size : M68kSize) (address : U32)
    (log : List Event) : vectors (.access kind size address :: log) = vectors log := rfl

@[simp] theorem vectors_fault (kind : Access) (address : U32) (log : List Event) :
    vectors (.fault kind address :: log) = vectors log := rfl

theorem mem_vectors {log : List Event} : v ∈ vectors log ↔ .exception v ∈ log := by
  induction log with
  | nil => simp [vectors]
  | cons e log ih => cases e <;> simp [ih]

theorem vectors_accesses {evs : List Event}
    (h : ∀ e ∈ evs, ∃ kind size address, e = .access kind size address) : vectors evs = [] := by
  induction evs with
  | nil => rfl
  | cons e evs ih =>
    obtain ⟨kind, size, address, rfl⟩ := h e List.mem_cons_self
    exact ih fun e he => h e (List.mem_cons_of_mem _ he)

theorem vectors_quiet {log : List Event} : log.any Event.isException = false ↔
    vectors log = [] := by
  induction log with
  | nil => simp [vectors]
  | cons e log ih => cases e <;> simp [Event.isException, ih]

/-! ## Exceptions that are served -/

/-- One exception, whose accesses raise nothing. -/
theorem exception_served (hd : s.exceptionDepth = 0) (h : exception v (ackHost k) s = .ok () t)
    (hserved : faultsInHandling t.log = false) :
    vectors t.log = v :: vectors s.log ∧ t.group0Fault = s.group0Fault := by
  obtain ⟨t', ht', -, hpost⟩ := exception_returns (k := k) v (Int.le_of_eq hd.symm)
  rw [h] at ht'
  cases ht'
  by_cases hf : exceptionFaults v s = true
  · rw [if_pos hf] at hpost
    obtain ⟨evs, hlog, kind, address, hmem⟩ := hpost
    have hentered : (entered v s).log = .exception v :: s.log := by
      rw [entered_eq]
      rfl
    rw [hlog, faultsInHandling_of_mem hmem (by rw [hentered]; rfl)] at hserved
    cases hserved
  · rw [if_neg hf] at hpost
    subst hpost
    obtain ⟨evs, hlog, hkinds⟩ := delivered_log v s
    have hevs : vectors evs = [] := vectors_accesses fun e he => by
      obtain ⟨kind, size, address, -, heq⟩ := hkinds e he
      exact ⟨kind, size, address, heq⟩
    refine ⟨by rw [hlog, vectors_append, hevs]; rfl, ?_⟩
    show (pushed (frameOf v s) (entered v s)).group0Fault = s.group0Fault
    rw [pushed_eq, entered_eq]
    rfl

/-- During an instruction: nothing is taken before it is finished, and then at
most one exception, which is not the trace exception. -/
structure Untraced (p : Phase) (t : M68kCpu σ) : Prop where
  quiet : p ≤ .switched → vectors t.log = [] ∧ t.group0Fault = false
  taken : faultsInHandling t.log = false →
    (vectors t.log = [] ∧ t.group0Fault = false) ∨
      (∃ v, vectors t.log = [v] ∧ (RejectVector v ∨ TrapVector v) ∧ t.group0Fault = false) ∨
      (∃ v, vectors t.log = [v] ∧ (v = 2 ∨ v = 3) ∧ t.group0Fault = true)

theorem untraced_of_quiet (h : vectors t.log = []) (hg : t.group0Fault = false) : Untraced p t :=
  ⟨fun _ => ⟨h, hg⟩, fun _ => .inl ⟨h, hg⟩⟩

/-- What neither raises nor faults. -/
theorem Untraced.congr (h : Untraced p t) (hlog : u.log = t.log)
    (hg : u.group0Fault = t.group0Fault) : Untraced p u := by
  refine ⟨fun hp => ?_, fun hserved => ?_⟩
  · rw [hlog, hg]
    exact h.quiet hp
  · rw [hlog] at hserved
    rw [hlog, hg]
    exact h.taken hserved

theorem Untraced.raised (h : Untraced p t) (hp : p ≤ .switched) (hs : Steady t)
    (hv : RejectVector v ∨ TrapVector v) (he : exception v (ackHost k) t = .ok () u) :
    Untraced .finished u := by
  obtain ⟨hquiet, hg⟩ := h.quiet hp
  refine ⟨fun h => absurd h (by decide), fun hserved => ?_⟩
  obtain ⟨hvectors, hg'⟩ := exception_served hs.depth he hserved
  exact .inr (.inl ⟨v, by rw [hvectors, hquiet], hv, hg'.trans hg⟩)

theorem Trans.untraced (h : Trans k g p q t u) (hs : Steady t) (hc : Untraced p t) :
    Untraced q u := by
  have hearly {q : Phase} (hp : p ≤ .switched) (hlog : vectors u.log = vectors t.log)
      (hg : u.group0Fault = t.group0Fault) : Untraced q u := by
    obtain ⟨hquiet, hfalse⟩ := hc.quiet hp
    exact untraced_of_quiet (hlog.trans hquiet) (hg.trans hfalse)
  cases h with
  | charge => exact hc.congr rfl rfl
  | latch hp h =>
    have hlog : u.log = t.log := by rw [h]
    have hg : u.group0Fault = t.group0Fault := by rw [h]
    exact hc.congr hlog hg
  | rewind hp | setA hp | setD hp | ccr hp | write hp | setUsp _ _ hp =>
    exact hearly (Phase.le_trans hp before) rfl rfl
  | fetch hp => exact hearly (Phase.le_trans hp before) rfl rfl
  | read hp =>
    have hcommit : p ≤ .commit := hp.elim (Phase.le_trans · before) (·.2)
    exact hearly (Phase.le_trans hcommit before) rfl rfl
  | @control _ _ _ hp c =>
    exact hearly (Phase.le_trans hp before) (by cases c <;> rfl) (by cases c <;> rfl)
  | setSr _ hp v =>
    have hlog : (withSr v t).log = t.log := by rw [withSr_eq]
    have hg : (withSr v t).group0Fault = t.group0Fault := by rw [withSr_eq]
    exact hearly (Phase.le_trans hp before) (by rw [hlog]) hg
  | jump hp | stop _ hp => exact hearly hp rfl rfl
  | raised hv h =>
    refine hc.raised before hs (.inl ?_) h
    unfold RejectVector
    omega
  | trapped _ hv hp h => exact hc.raised (Phase.le_trans hp before) hs (.inr hv) h
  | @targetFault _ _ w v hv hp target faultPc h =>
    obtain ⟨hquiet, -⟩ := hc.quiet (Phase.le_trans hp before)
    have hproc := (targetFault_kept hs h).1
    have hdepth : (targetFaulting v target faultPc t).exceptionDepth = 0 :=
      (holdGuard_kept _ true _).2.1.trans hs.depth
    have hgroup : (targetFaulting v target faultPc t).group0Fault = true :=
      (holdGuard_kept _ true _).2.2
    refine ⟨fun h => absurd h (by decide), fun hserved => .inr (.inr ⟨v, ?_, hv, ?_⟩)⟩
    · rw [holdGuard_log] at hserved ⊢
      rw [(exception_served hdepth h hserved).1, targetFaulting_log, hquiet]
    · exact (holdGuard_kept _ false w).2.2.trans (hproc.group0 hgroup)

theorem Run.untraced (h : Run k g p q t u) (hs : Steady t) (hc : Untraced p t) : Untraced q u := by
  have hboth := h.preserves (J := fun p t => Steady t ∧ Untraced p t)
    (fun hpq h => ⟨h.1, fun hq => h.2.quiet (Phase.le_trans hpq hq), h.2.taken⟩)
    (fun ht h => ⟨steady_of_wiring (ht.wiring h.1) h.1, ht.untraced h.1 h.2⟩) ⟨hs, hc⟩
  exact hboth.2

/-! ## The step -/

theorem nine_not_special (hv : RejectVector v ∨ TrapVector v ∨ v = 2 ∨ v = 3) : 9 ∉ [v] := by
  intro h
  rw [List.mem_singleton] at h
  subst h
  simp [RejectVector, TrapVector] at hv

theorem traceDelivered_of_unexecuted (h : vectors t.log = [v])
    (hv : RejectVector v ∨ v = 2 ∨ v = 3) : TraceDelivered s t := by
  have hnine : 9 ∉ vectors t.log := by
    rw [h]
    exact nine_not_special (by tauto)
  refine ⟨fun hexecuted => ?_, fun _ => hnine, fun _ => hnine, fun _ => hnine⟩
  obtain ⟨hreject, h2, h3⟩ := hexecuted v (by rw [h]; exact List.mem_singleton_self v)
  rcases hv with hv | rfl | rfl
  · exact absurd hv hreject
  · exact absurd rfl h2
  · exact absurd rfl h3

/-- The exit of an instruction begun under T = 1. -/
theorem Finishes.traceDelivered {cycles : Int} (h : Finishes k true true cycles u t)
    (hs : Steady u) (hu : Untraced .finished u)
    (hok : ∃ c, dispatch (opcodeAt s) (Host.none σ) (fetched s) = .ok c u)
    (hserved : Served t.log) : TraceDelivered s t := by
  have hs' : Steady (disarmed u) := ⟨hs.1, hs.2, hs.3⟩
  have hreturned : ¬∃ w, dispatch (opcodeAt s) (Host.none σ) (fetched s) = .trap w := by
    rintro ⟨w, hw⟩
    obtain ⟨c, hc⟩ := hok
    rw [hc] at hw
    cases hw
  cases h with
  | @oddTarget w _ h =>
    have hlog : (charged (exceptionCost u.exceptionThrown cycles) (holdGuard 3 false w)).log =
        w.log := by
      rw [holdGuard_eq]
      rfl
    rw [hlog] at hserved
    have hdepth : (targetFaulting 3 u.pc (u.ppc + 2) (disarmed u)).exceptionDepth = 0 :=
      (holdGuard_kept _ true _).2.1.trans hs.depth
    have hvectors := (exception_served hdepth h hserved.accesses).1
    rw [targetFaulting_log] at hvectors
    obtain ⟨evs, hevs, -⟩ := (targetFault_kept hs' h).1.log
    rw [targetFaulting_log] at hevs
    -- The address error is the first exception: no handler address was odd.
    have hquiet : vectors u.log = [] := by
      rw [← vectors_quiet]
      by_contra hany
      refine hserved.handlers (evs ++ [.exception 3]) u.log ?_ (by simpa using hany) ?_
      · rw [hevs, List.append_assoc]
        rfl
      · exact List.mem_append_right _ (List.mem_singleton_self _)
    have hvectors' : vectors (disarmed u).log = [] := hquiet
    rw [hvectors'] at hvectors
    exact traceDelivered_of_unexecuted (v := 3) (by rw [hlog, hvectors]) (.inr (.inr rfl))
  | @traced w _ hdue h =>
    obtain ⟨hvectors, -⟩ := exception_served (s := disarmed u) hs.depth h hserved.accesses
    have holder : faultsInHandling u.log = false := by
      obtain ⟨evs, hevs, -⟩ := (exception_steady hs' h).log
      have hcons : w.log = (evs ++ [.exception 9]) ++ u.log := by
        rw [hevs, List.append_assoc]
        rfl
      have haccesses : faultsInHandling w.log = false := hserved.accesses
      rw [hcons] at haccesses
      exact faultsInHandling_older haccesses
    simp only [traceDue, Bool.and_true, Bool.and_eq_true, Bool.not_eq_true'] at hdue
    obtain ⟨hgroup, hstop⟩ := hdue
    have hstopped : w.stopped = false :=
      (congrArg Kept.stopped (exception_steady hs' h).kept).trans hstop
    have hforced : vectors u.log = [] ∨ ∃ v, vectors u.log = [v] ∧
        (RejectVector v ∨ TrapVector v) := by
      rcases hu.taken holder with ⟨hnone, -⟩ | ⟨v, hv, hkind, -⟩ | ⟨v, -, -, htrue⟩
      · exact .inl hnone
      · exact .inr ⟨v, hv, hkind⟩
      · rw [hgroup] at htrue
        cases htrue
    have hlog : vectors (charged (exceptionCost u.exceptionThrown cycles) w).log =
        9 :: vectors u.log := hvectors
    refine ⟨fun _ _ => ⟨vectors u.log, hlog, ?_⟩, fun hstop' => ?_, fun hfault => ?_,
      fun htrap => absurd htrap hreturned⟩
    · rcases hforced with hnone | ⟨v, hv, hkind⟩
      · rw [hnone]
        exact List.not_mem_nil
      · rw [hv]
        exact nine_not_special (by tauto)
    · have htrue : w.stopped = true := hstop'
      rw [hstopped] at htrue
      cases htrue
    · rw [hlog] at hfault
      rcases hforced with hnone | ⟨v, hv, hkind⟩
      · rw [hnone] at hfault
        simp at hfault
      · rw [hv] at hfault
        simp only [List.mem_cons, List.not_mem_nil, or_false] at hfault
        unfold RejectVector TrapVector at hkind
        omega
  | plain _ hdue =>
    have hlog : (charged (exceptionCost u.exceptionThrown cycles) (disarmed u)).log = u.log := rfl
    rw [hlog] at hserved
    have hnine : 9 ∉ vectors u.log := by
      rcases hu.taken hserved.accesses with ⟨hnone, -⟩ | ⟨v, hv, hkind, -⟩ | ⟨v, hv, hkind, -⟩
      · rw [hnone]
        exact List.not_mem_nil
      · rw [hv]
        exact nine_not_special (by tauto)
      · rw [hv]
        exact nine_not_special (by tauto)
    refine ⟨fun hexecuted hrunning => ?_, fun _ => hnine, fun _ => hnine, fun _ => hnine⟩
    -- Trace was suppressed though running, so a group 0 fault was taken.
    have hrunning' : u.stopped = false := hrunning
    have hgroup : u.group0Fault = true := by
      simpa [traceDue, hrunning'] using hdue
    rcases hu.taken hserved.accesses with ⟨-, hfalse⟩ | ⟨v, -, -, hfalse⟩ | ⟨v, hv, hkind, -⟩
    · rw [hgroup] at hfalse
      cases hfalse
    · rw [hgroup] at hfalse
      cases hfalse
    · have hnot := hexecuted v (by rw [hlog, hv]; exact List.mem_singleton_self v)
      omega

theorem Stepped.traceDelivered (h : Stepped none g true s t) (hs : Boundary s)
    (htrace : s.traced = true) (hstop : s.stopped = false) (hdue : interruptDue s = false)
    (hserved : Served t.log) : TraceDelivered s t := by
  have hrunning := fetched_running (s := s) hs.depth
  have hstart : Untraced .decode (fetched s) := untraced_of_quiet rfl rfl
  have haccess {kind : Access} {size : M68kSize} {address : U32} {u w : M68kCpu σ}
      (hu : Steady u) (hquiet : vectors u.log = [])
      (he : exception (faultVector size address) (ackHost none) (faulting kind size address u) =
        .ok () w) (hserved : faultsInHandling w.log = false) :
      vectors w.log = [faultVector size address] := by
    have hdepth : (faulting kind size address u).exceptionDepth = 0 :=
      (holdGuard_kept _ true _).2.1.trans hu.depth
    rw [(exception_served hdepth he hserved).1, faulting_log, vectors_fault, vectors_access, hquiet]
  cases h with
  | idle hstop' =>
    rw [hstop] at hstop'
    cases hstop'
  | interrupt _ hdue' =>
    rw [hdue] at hdue'
    cases hdue'
  | @fetchFault w _ _ _ h =>
    have hlog : (aborted (holdGuard (faultVector .word s.pc) false w)).log = w.log :=
      holdGuard_log _ false w
    rw [hlog] at hserved
    exact traceDelivered_of_unexecuted (v := faultVector .word s.pc)
      (by rw [hlog]; exact haccess (armed_running hs.depth).steady rfl h hserved.accesses)
      (.inr (faultVector_cases _ _))
  | unwound _ _ _ _ h =>
    obtain ⟨r, u, hrun, hu, habort⟩ := h
    have hquiet := ((hrun.untraced hrunning.steady hstart).quiet
      (Phase.le_trans habort.le before)).1
    cases habort with
    | @fault _ _ w kind size address _ _ _ h =>
      have hlog : (aborted (holdGuard (faultVector size address) false w)).log = w.log :=
        holdGuard_log _ false w
      rw [hlog] at hserved
      exact traceDelivered_of_unexecuted (v := faultVector size address)
        (by rw [hlog]; exact haccess hu.steady hquiet h hserved.accesses)
        (.inr (faultVector_cases _ _))
    | @illegalEa _ w _ h =>
      have hvectors := (exception_served hu.depth h hserved.accesses).1
      rw [hquiet] at hvectors
      exact traceDelivered_of_unexecuted (v := 4) hvectors (.inl (.inl rfl))
  | completed _ _ _ hdispatch hrun _ hfin =>
    rw [htrace] at hfin
    exact hfin.traceDelivered (hrun.steady hrunning.steady)
      (hrun.untraced hrunning.steady hstart) ⟨_, hdispatch⟩ hserved

/-- Trace delivery, as far as the exits of the step agree on it. -/
theorem trace_delivered (hs : Boundary s) (htrace : s.traced = true) (hstop : s.stopped = false)
    (hdue : interruptDue s = false) :
    ∃ t, step (Host.none σ) s = .ok () t ∧ (Served t.log → TraceDelivered s t) := by
  obtain ⟨t, ht, hst⟩ := stepEx_cases (k := none) (g := .of s.supervisor (opcodeAt s)) true
    hs.depth hs.depth (Grade.of_covers _ _) rfl
  exact ⟨t, ht, hst.traceDelivered hs htrace hstop hdue⟩

theorem served_of_vectors {log : List Event} (h : faultsInHandling log = false)
    (h3 : 3 ∉ vectors log) : Served log := by
  refine ⟨h, fun newer older heq _ hmem => h3 ?_⟩
  rw [heq, vectors_append]
  exact List.mem_append_left _ (mem_vectors.mpr hmem)

/-- A traced supervisor program of one instruction word. -/
def tracedProgram (high low : U8) : M68kCpu Unit :=
  { init (fun a => if isOdd a then low else high) 0x1000 () with
    sr := 0xA000
    aRegs := fun _ => 0x800 }

theorem trace_delivered_nop :
    ∃ t, step (Host.none Unit) (tracedProgram 0x4E 0x71) = .ok () t ∧
      TraceDelivered (tracedProgram 0x4E 0x71) t ∧ vectors t.log = [9] := by
  obtain ⟨t, ht, hlaw⟩ := trace_delivered (s := tracedProgram 0x4E 0x71) ⟨rfl, by decide⟩
    (by decide) rfl (by decide)
  have hrun : (exec? (step (σ := Unit)) (Host.none Unit) (tracedProgram 0x4E 0x71)).map
      (fun t => (vectors t.log, faultsInHandling t.log)) = some ([9], false) := by decide +kernel
  simp only [exec?, ht, Option.map_some, Option.some.injEq, Prod.mk.injEq] at hrun
  obtain ⟨hvectors, hfaults⟩ := hrun
  have hserved := served_of_vectors hfaults (by rw [hvectors]; decide)
  exact ⟨t, ht, hlaw hserved, hvectors⟩

/-- The law of trace mode at one state. -/
def ObeysTrace (s : M68kCpu σ) : Prop :=
  Boundary s → s.traced = true → s.stopped = false → interruptDue s = false →
    ∃ t, step (Host.none σ) s = .ok () t ∧ (Served t.log → TraceLaw t)

/-- STOP is executed and not traced; a line A word is traced and not executed. -/
theorem trace_misdelivered :
    ¬ObeysTrace (tracedProgram 0x4E 0x72) ∧ ¬ObeysTrace (tracedProgram 0xA0 0xA0) := by
  constructor
  · intro h
    obtain ⟨t, ht, hlaw⟩ := h ⟨rfl, by decide⟩ (by decide) rfl (by decide)
    have hrun : (exec? (step (σ := Unit)) (Host.none Unit) (tracedProgram 0x4E 0x72)).map
        (fun t => (vectors t.log, faultsInHandling t.log)) = some ([], false) := by decide +kernel
    simp only [exec?, ht, Option.map_some, Option.some.injEq, Prod.mk.injEq] at hrun
    obtain ⟨hvectors, hfaults⟩ := hrun
    have hserved := served_of_vectors hfaults (by rw [hvectors]; exact List.not_mem_nil)
    obtain ⟨forced, hforced, -⟩ := (hlaw hserved).1 fun v hv => by rw [hvectors] at hv; cases hv
    rw [hvectors] at hforced
    cases hforced
  · intro h
    obtain ⟨t, ht, hlaw⟩ := h ⟨rfl, by decide⟩ (by decide) rfl (by decide)
    have hrun : (exec? (step (σ := Unit)) (Host.none Unit) (tracedProgram 0xA0 0xA0)).map
        (fun t => (vectors t.log, faultsInHandling t.log)) = some ([9, 10], false) := by
      decide +kernel
    simp only [exec?, ht, Option.map_some, Option.some.injEq, Prod.mk.injEq] at hrun
    obtain ⟨hvectors, hfaults⟩ := hrun
    have hserved := served_of_vectors hfaults (by rw [hvectors]; decide)
    refine (hlaw hserved).2 (fun hexecuted => ?_) (by rw [hvectors]; decide)
    exact (hexecuted 10 (by rw [hvectors]; decide)).1 (.inr (.inr (.inl rfl)))

end M68k
