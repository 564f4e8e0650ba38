import Rocket68.Logic.Dispatch

/-!
# What a computation costs

`Spends h N n k c` says that `c` returns having spent at least `n` cycles, or
unwinds having given back at most `k`, under a host whose callbacks leave the
cycle account alone. Everything but the refunds of MOVE and MOVEM spends, so for
most handlers it follows from their discipline; `N` bounds the re-entry guards
that may still be clear, and carries the induction over nested exceptions.
-/

namespace M68k

open Trap TrapM

variable {σ α β : Type}

/-! ## Hosts that leave the account alone -/

/-- What the cycle account of a step rests on: the counters, the exception that
replaces the cost of the instruction, and the state of a fault being handled. -/
structure Ledger where
  cyclesRemaining : Int
  targetCycles : Int
  exceptionThrown : Nat
  inAddressError : Bool
  inBusError : Bool
  group0Fault : Bool
  faultTrapActive : Bool

def ledger (s : M68kCpu σ) : Ledger where
  cyclesRemaining := s.cyclesRemaining
  targetCycles := s.targetCycles
  exceptionThrown := s.exceptionThrown
  inAddressError := s.inAddressError
  inBusError := s.inBusError
  group0Fault := s.group0Fault
  faultTrapActive := s.faultTrapActive

/-- No callback touches the account, and none claims an illegal opcode. -/
structure Honest (h : Host σ) : Prop where
  waitBus : ∀ cb ∈ h.waitBus, ∀ a size w s, ledger (cb a size w s).1 = ledger s
  intAck : ∀ cb ∈ h.intAck, ∀ level s, ledger (cb level s).1 = ledger s
  fcCb : ∀ cb ∈ h.fcCb, ∀ fc s, ledger (cb fc s).1 = ledger s
  instrHookCb : ∀ cb ∈ h.instrHookCb, ∀ pc s, ledger (cb pc s).1 = ledger s
  pcChangedCb : ∀ cb ∈ h.pcChangedCb, ∀ pc s, ledger (cb pc s).1 = ledger s
  resetCb : ∀ cb ∈ h.resetCb, ∀ s, ledger (cb s).1 = ledger s
  tasCb : ∀ cb ∈ h.tasCb, ∀ s, ledger (cb s).1 = ledger s
  illgCb : ∀ cb ∈ h.illgCb, ∀ opcode s, ledger (cb opcode s).1 = ledger s ∧ (cb opcode s).2 = 0
  read8Cb : ∀ cb ∈ h.read8Cb, ∀ a s, ledger (cb a s).1 = ledger s
  read16Cb : ∀ cb ∈ h.read16Cb, ∀ a s, ledger (cb a s).1 = ledger s
  read32Cb : ∀ cb ∈ h.read32Cb, ∀ a s, ledger (cb a s).1 = ledger s
  write8Cb : ∀ cb ∈ h.write8Cb, ∀ a v s, ledger (cb a v s).1 = ledger s
  write16Cb : ∀ cb ∈ h.write16Cb, ∀ a v s, ledger (cb a v s).1 = ledger s
  write32Cb : ∀ cb ∈ h.write32Cb, ∀ a v s, ledger (cb a v s).1 = ledger s

/-! ## Spending -/

/-- From `s` to `t` at least `n` cycles were spent. An exception once thrown stays
the one that counts, and a CHK trap is not thrown. -/
structure Spent (N : Nat) (n : Int) (s t : M68kCpu σ) : Prop where
  cost : t.cyclesRemaining + n ≤ s.cyclesRemaining
  target : t.targetCycles = s.targetCycles
  trap : t.faultTrapActive = s.faultTrapActive
  thrown : s.exceptionThrown ≠ 0 → t.exceptionThrown = s.exceptionThrown
  fresh : s.exceptionThrown = 0 → t.exceptionThrown ≠ 6
  group0 : s.group0Fault = true → t.group0Fault = true
  guards : clearGuards s ≤ N → clearGuards t ≤ N

/-- From `s` an access fault unwound the instruction, at most `k` cycles up. -/
structure Unwound (k : Int) (s t : M68kCpu σ) : Prop where
  armed : s.faultTrapActive = true
  target : t.targetCycles = s.targetCycles
  cost : t.cyclesRemaining ≤ s.cyclesRemaining + k

theorem clearGuards_congr {s t : M68kCpu σ} (h : ledger t = ledger s) :
    clearGuards t = clearGuards s := by
  have ha : t.inAddressError = s.inAddressError := congrArg Ledger.inAddressError h
  have hb : t.inBusError = s.inBusError := congrArg Ledger.inBusError h
  rw [clearGuards, clearGuards, ha, hb]

/-- An account left as it was, up to the guards and the mark of a fault. -/
theorem Spent.of_accounts {N : Nat} {s t : M68kCpu σ}
    (h : { ledger t with
      inAddressError := s.inAddressError
      inBusError := s.inBusError
      group0Fault := s.group0Fault } = ledger s)
    (hf : s.group0Fault = true → t.group0Fault = true)
    (hg : clearGuards s ≤ N → clearGuards t ≤ N) : Spent N 0 s t where
  cost := by
    have hc : t.cyclesRemaining = s.cyclesRemaining := congrArg Ledger.cyclesRemaining h
    omega
  target := congrArg Ledger.targetCycles h
  trap := congrArg Ledger.faultTrapActive h
  thrown _ := congrArg Ledger.exceptionThrown h
  fresh hs := by
    have ht : t.exceptionThrown = s.exceptionThrown := congrArg Ledger.exceptionThrown h
    omega
  group0 := hf
  guards := hg

theorem Spent.of_ledger {N : Nat} {s t : M68kCpu σ} (h : ledger t = ledger s) : Spent N 0 s t :=
  .of_accounts (by rw [h]; rfl) (fun hs => (congrArg Ledger.group0Fault h).trans hs)
    fun hs => clearGuards_congr h ▸ hs

theorem Spent.charged {N : Nat} (n : Int) (s : M68kCpu σ) :
    Spent N n s { s with cyclesRemaining := s.cyclesRemaining - n } where
  cost := by
    show s.cyclesRemaining - n + n ≤ s.cyclesRemaining
    omega
  target := rfl
  trap := rfl
  thrown _ := rfl
  fresh hs := by
    show s.exceptionThrown ≠ 6
    omega
  group0 := id
  guards := id

theorem Spent.refl {N : Nat} (s : M68kCpu σ) : Spent N 0 s s := .of_ledger rfl

theorem Spent.trans {N : Nat} {n n' : Int} {s t u : M68kCpu σ} (h : Spent N n s t)
    (h' : Spent N n' t u) : Spent N (n + n') s u where
  cost := by
    have h₁ := h.cost
    have h₂ := h'.cost
    omega
  target := h'.target.trans h.target
  trap := h'.trap.trans h.trap
  thrown hs := by
    have ht := h.thrown hs
    rw [h'.thrown (ht ▸ hs), ht]
  fresh hs := by
    by_cases ht : t.exceptionThrown = 0
    · exact h'.fresh ht
    · rw [h'.thrown ht]
      exact h.fresh hs
  group0 hs := h'.group0 (h.group0 hs)
  guards hs := h'.guards (h.guards hs)

theorem Spent.mono {N : Nat} {n n' : Int} {s t : M68kCpu σ} (h : Spent N n s t) (hn : n' ≤ n) :
    Spent N n' s t :=
  { h with cost := Int.le_trans (Int.add_le_add_left hn _) h.cost }

/-- An unwinding after some spending. -/
theorem Unwound.after {N : Nat} {n k : Int} {s t u : M68kCpu σ} (h : Unwound (k + n) t u)
    (hst : Spent N n s t) : Unwound k s u where
  armed := hst.trap ▸ h.armed
  target := h.target.trans hst.target
  cost := by
    have h₁ := h.cost
    have h₂ := hst.cost
    omega

theorem Unwound.mono {k k' : Int} {s t : M68kCpu σ} (h : Unwound k s t) (hk : k ≤ k') :
    Unwound k' s t :=
  { h with cost := Int.le_trans h.cost (Int.add_le_add_left hk _) }

/-- `c` spends at least `n` cycles, or unwinds having given back at most `k`. -/
def Spends (h : Host σ) (N : Nat) (n k : Int) (c : M σ α) : Prop :=
  ∀ s, clearGuards s ≤ N → wp c h (fun _ t => Spent N n s t) (fun t => Unwound k s t) s

namespace Spends

variable {h : Host σ} {N : Nat} {n n' k k' : Int} {c : M σ α}

theorem mono (hc : Spends h N n k c) (hn : n' ≤ n) (hk : k ≤ k') : Spends h N n' k' c :=
  fun s hs => wp_mono (hc s hs) (fun _ _ ht => ht.mono hn) fun _ ht => ht.mono hk

theorem pure (a : α) : Spends h N 0 k (Pure.pure a : M σ α) := fun s _ => .refl s

theorem gets (f : M68kCpu σ → α) : Spends h N 0 k (TrapM.gets f) := fun s _ => .refl s

theorem bind {f : α → M σ β} (hc : Spends h N n k c) (hf : ∀ a, Spends h N n' (k + n) (f a)) :
    Spends h N (n + n') k (c >>= f) := fun s hs => by
  rw [wp_bind]
  refine wp_mono (hc s hs) (fun a t ht => ?_) fun _ ht => ht
  exact wp_mono (hf a t (ht.guards hs)) (fun _ _ hu => ht.trans hu) fun _ hu => hu.after ht

/-- A part that spends nothing in particular, then the rest. -/
theorem seq {f : α → M σ β} (hc : Spends h N 0 k c) (hf : ∀ a, Spends h N n k (f a)) :
    Spends h N n k (c >>= f) := by
  have hrest : ∀ a, Spends h N n (k + 0) (f a) := fun a => (hf a).mono (Int.le_refl n) (by omega)
  have key := hc.bind hrest
  rwa [Int.zero_add] at key

/-- The rest spends nothing in particular. -/
theorem andThen {f : α → M σ β} (hc : Spends h N n k c) (hf : ∀ a, Spends h N 0 (k + n) (f a)) :
    Spends h N n k (c >>= f) := by
  have key := hc.bind hf
  rwa [Int.add_zero] at key

theorem ite {p : Prop} [Decidable p] {d : M σ α} (hc : p → Spends h N n k c)
    (hd : ¬p → Spends h N n k d) : Spends h N n k (if p then c else d) := by
  split
  · next hp => exact hc hp
  · next hp => exact hd hp

/-- The environment is the host. -/
theorem env {f : Host σ → M σ β} (hf : Spends h N n k (f h)) : Spends h N n k (TrapM.env >>= f) :=
  hf

/-- A look at the whole state. -/
theorem state {f : M68kCpu σ → M σ β} (hf : ∀ s, clearGuards s ≤ N →
    wp (f s) h (fun _ t => Spent N n s t) (fun t => Unwound k s t) s) :
    Spends h N n k (TrapM.gets id >>= f) := hf

/-- An update outside the account. -/
theorem modify {f : M68kCpu σ → M68kCpu σ} (hf : ∀ s, ledger (f s) = ledger s) :
    Spends h N 0 k (TrapM.modify f) := fun s _ => .of_ledger (hf s)

/-- A callback outside the account. -/
theorem call {f : M68kCpu σ → M68kCpu σ × α} (hf : ∀ s, ledger (f s).1 = ledger s) :
    Spends h N 0 k (TrapM.call f) := fun s _ => .of_ledger (hf s)

theorem charge (n : Int) : Spends h N n k (M68k.charge n) := fun s _ => .charged n s

end Spends

/-! ## Exceptions and accesses -/

/-- Other vectors than 6 leave CHK unthrown. -/
theorem Spent.of_enter {N v : Nat} {n : Int} {s t : M68kCpu σ} (hv : v ≠ 6)
    (h : Spent N n (enterException v s) t) : Spent N n s t where
  cost := h.cost
  target := h.target
  trap := h.trap
  thrown hs := by
    have he : (enterException v s).exceptionThrown = s.exceptionThrown := if_neg hs
    rw [h.thrown (he ▸ hs), he]
  fresh hs := by
    have he : (enterException v s).exceptionThrown = v := if_pos hs
    by_cases h0 : v = 0
    · exact h.fresh (he.trans h0)
    · rw [h.thrown (he.symm ▸ h0), he]
      exact hv
  group0 := h.group0
  guards := h.guards

/-- The first exception of an instruction is the one thrown. -/
theorem Spent.thrown_of_enter {N v : Nat} {n : Int} {s t : M68kCpu σ}
    (h : Spent N n (enterException v s) t) (hs : s.exceptionThrown = 0) (hv : v ≠ 0) :
    t.exceptionThrown = v := by
  have he : (enterException v s).exceptionThrown = v := if_pos hs
  rw [h.thrown (he.symm ▸ hv), he]

/-- `raise` processes exceptions while fewer than `n` guards are clear. -/
def Raises (h : Host σ) (n : Nat) (raise : Nat → M σ Unit) : Prop :=
  ∀ N < n, ∀ v s, clearGuards s ≤ N →
    wp (raise v) h (fun _ t => Spent N 0 (enterException v s) t) (fun t => Unwound 0 s t) s

theorem ledger_withSr (newSr : U16) (s : M68kCpu σ) : ledger (withSr newSr s) = ledger s := by
  unfold withSr
  dsimp only
  split
  · split <;> rfl
  · rfl

theorem ledger_enterException (v : Nat) {s t : M68kCpu σ} (h : ledger t = ledger s) :
    ledger (enterException v t) = ledger (enterException v s) := by
  have key (u : M68kCpu σ) : ledger (enterException v u) =
      { ledger u with
        exceptionThrown :=
          if (ledger u).exceptionThrown = 0 then v else (ledger u).exceptionThrown } := rfl
  rw [key, key, h]

/-- Releasing a guard clears at most that one. -/
theorem clearGuards_release (v : Nat) (s : M68kCpu σ) :
    clearGuards (holdGuard v false s) ≤ clearGuards s + 1 := by
  rw [holdGuard_eq]
  by_cases hv : v = 3
  · cases s.inAddressError <;> simp [clearGuards, hv] <;> omega
  · cases s.inBusError <;> simp [clearGuards, hv]

section Accesses

variable {h : Host σ} {raise : Nat → M σ Unit} {N n : Nat} {k : Int}

/-- A fault is handled one guard further down, and leaves its mark. -/
theorem raiseFault_spends (hr : Raises h n raise) (hN : N ≤ n) {v : Nat} (hv : v = 2 ∨ v = 3)
    (hk : 0 ≤ k) (kind : Access) (address : U32) {s : M68kCpu σ} (hg : guardHeld v s = false)
    (hs : clearGuards s ≤ N) :
    wp (raiseFaultWith raise v) h (fun _ t => Spent N 0 s t ∧ t.group0Fault = true)
      (fun t => Unwound k s t) (holdGuard v true (captureFault kind address s)) := by
  have hg' : guardHeld v (captureFault kind address s) = false := hg
  have hlt : clearGuards (holdGuard v true (captureFault kind address s)) < N :=
    Nat.lt_of_lt_of_le (clearGuards_holdGuard hg') hs
  obtain ⟨N', rfl⟩ : ∃ N', N = N' + 1 := ⟨N - 1, by omega⟩
  have key := hr N' (by omega) v _ (Nat.le_of_lt_succ hlt)
  rw [holdGuard_eq] at key hlt ⊢
  rw [raiseFaultWith, wp_bind]
  refine wp_mono key (fun _ t ht => ?_) fun _ ht => ⟨ht.armed, ht.target, ?_⟩
  · have ht' := ht.of_enter (by omega)
    have hmark : (holdGuard v false t).group0Fault = true := by
      rw [holdGuard_eq]
      exact ht'.group0 rfl
    have hreleased : Spent (N' + 1) 0 s (holdGuard v false t) := by
      have hguards := clearGuards_release v t
      have hclear := ht'.guards (Nat.le_of_lt_succ hlt)
      rw [holdGuard_eq] at hguards hmark ⊢
      exact ⟨ht'.cost, ht'.target, ht'.trap, ht'.thrown, ht'.fresh, fun _ => hmark,
        fun _ => by omega⟩
    rw [wp_bind, wp_modify, abortFaultedInstruction, wp_bind, wp_gets]
    refine wp_ite (fun ha => ⟨?_, hreleased.target, ?_⟩) fun _ => ⟨hreleased, hmark⟩
    · simp only [Bool.and_eq_true] at ha
      rw [← hreleased.trap]
      exact ha.1.1
    · have hcost := hreleased.cost
      omega
  · have hcost : _ ≤ s.cyclesRemaining + 0 := ht.cost
    omega

theorem addressFault_marks (hr : Raises h n raise) (hN : N ≤ n) (hk : 0 ≤ k) (kind : Access)
    (address : U32) {s : M68kCpu σ} (hg : s.inAddressError = false) (hs : clearGuards s ≤ N) :
    wp (addressFault raise kind address) h (fun _ t => Spent N 0 s t ∧ t.group0Fault = true)
      (fun t => Unwound k s t) s :=
  raiseFault_spends hr hN (.inr rfl) hk kind address hg hs

theorem busFault_marks (hr : Raises h n raise) (hN : N ≤ n) (hk : 0 ≤ k) (kind : Access)
    (address : U32) {s : M68kCpu σ} (hg : s.inBusError = false) (hs : clearGuards s ≤ N) :
    wp (busFault raise kind address) h (fun _ t => Spent N 0 s t ∧ t.group0Fault = true)
      (fun t => Unwound k s t) s :=
  raiseFault_spends hr hN (.inl rfl) hk kind address hg hs

theorem addressFault_spends (hr : Raises h n raise) (hN : N ≤ n) (hk : 0 ≤ k) (kind : Access)
    (address : U32) {s : M68kCpu σ} (hg : s.inAddressError = false) (hs : clearGuards s ≤ N) :
    wp (addressFault raise kind address) h (fun _ t => Spent N 0 s t) (fun t => Unwound k s t) s :=
  wp_mono (addressFault_marks hr hN hk kind address hg hs) (fun _ _ ht => ht.1) fun _ ht => ht

theorem busFault_spends (hr : Raises h n raise) (hN : N ≤ n) (hk : 0 ≤ k) (kind : Access)
    (address : U32) {s : M68kCpu σ} (hg : s.inBusError = false) (hs : clearGuards s ≤ N) :
    wp (busFault raise kind address) h (fun _ t => Spent N 0 s t) (fun t => Unwound k s t) s :=
  wp_mono (busFault_marks hr hN hk kind address hg hs) (fun _ _ ht => ht.1) fun _ ht => ht

variable (hh : Honest h)
include hh

theorem setFc_ledger (isProgram : Bool) (s : M68kCpu σ) :
    wp (setFc isProgram) h (fun _ t => ledger t = ledger s) (fun _ => False) s := by
  refine wp_bind.mpr (wp_env.mpr ?_)
  split
  · next cb hcb => exact hh.fcCb cb hcb _ s
  · exact rfl

/-- A wait is charged, and throws nothing. -/
theorem applyWaitBus_waits (address : U32) (size : M68kSize) (isWrite : Bool) (s : M68kCpu σ) :
    wp (applyWaitBus address size isWrite) h
      (fun _ t => Spent N 0 s t ∧ t.exceptionThrown = s.exceptionThrown) (fun _ => False) s := by
  refine wp_bind.mpr (wp_env.mpr ?_)
  split
  · next cb hcb =>
    have hledger := hh.waitBus cb hcb address size isWrite s
    have hthrown : (cb address size isWrite s).1.exceptionThrown = s.exceptionThrown :=
      congrArg Ledger.exceptionThrown hledger
    have hst : Spent N 0 s (cb address size isWrite s).1 := .of_ledger hledger
    refine wp_ite (fun hw => ⟨?_, hthrown⟩) fun _ => ⟨hst, hthrown⟩
    exact (hst.trans (.charged _ _)).mono (by omega)
  · exact ⟨.refl s, rfl⟩

theorem setFc_spends (isProgram : Bool) : Spends h N 0 k (setFc isProgram) := fun s _ =>
  wp_mono (setFc_ledger hh isProgram s) (fun _ _ ht => .of_ledger ht) fun _ => False.elim

theorem applyWaitBus_spends (address : U32) (size : M68kSize) (isWrite : Bool) :
    Spends h N 0 k (applyWaitBus address size isWrite) := fun s _ =>
  wp_mono (applyWaitBus_waits hh address size isWrite s) (fun _ _ ht => ht.1) fun _ => False.elim

/-- What every access does first. -/
theorem announce_spends {f : Unit → M σ α} (e : Event) (isProgram : Bool) (address : U32)
    (size : M68kSize) (isWrite : Bool) (hf : Spends h N 0 k (f ())) :
    Spends h N 0 k (note e >>= fun _ => applyWaitBus address size isWrite >>= fun _ =>
      setFc isProgram >>= f) :=
  .seq (.modify fun _ => rfl) fun _ => .seq (applyWaitBus_spends hh _ _ _) fun _ =>
    .seq (setFc_spends hh _) fun _ => hf

theorem setPc_spends (pc : U32) : Spends h N 0 k (setPc pc) := by
  refine .seq (.modify fun _ => rfl) fun _ => .env ?_
  split
  · next cb hcb => exact .call fun s => hh.pcChangedCb cb hcb _ s
  · exact .pure _

theorem peekWord_spends (address : U32) : Spends h N 0 k (peekWord address) := by
  refine .env ?_
  split
  · next cb hcb => exact .call fun s => hh.read16Cb cb hcb _ s
  · exact .seq (.gets _) fun _ => .ite (fun _ => .pure _) fun _ => .pure _

omit hh in
theorem isUnmappedTarget_spends (target : U32) : Spends h N 0 k (isUnmappedTarget target) := by
  refine .env ?_
  split
  · exact .pure _
  · exact .gets _

/-- No illegal opcode is claimed. -/
theorem illegalClaimed_honest (vector : Nat) (s : M68kCpu σ) :
    wp (illegalClaimed vector) h (fun claimed t => claimed = false ∧ ledger t = ledger s)
      (fun _ => False) s := by
  refine wp_ite (fun _ => ?_) fun _ => ⟨rfl, rfl⟩
  refine wp_bind.mpr (wp_env.mpr ?_)
  split
  · next cb hcb =>
    obtain ⟨hledger, hzero⟩ := hh.illgCb cb hcb s.ir s
    exact ⟨bne_eq_false_iff_eq.mpr hzero, hledger⟩
  · exact ⟨rfl, rfl⟩

variable (hr : Raises h n raise) (hN : N ≤ n) (hk : 0 ≤ k)
include hr hN hk

theorem read8With_spends (address : U32) : Spends h N 0 k (read8With raise address) := by
  refine announce_spends hh _ _ _ _ _ (.env ?_)
  split
  · next cb hcb => exact .call fun s => hh.read8Cb cb hcb _ s
  · refine .state fun s hs => wp_ite (fun _ => .refl s) fun _ => wp_ite (fun hb => ?_)
      fun _ => .refl s
    exact wp_bind.mpr (busFault_spends hr hN hk _ _ (by simpa using hb) hs)

theorem read16With_spends (address : U32) : Spends h N 0 k (read16With raise address) := by
  refine announce_spends hh _ _ _ _ _ (.state fun s hs => wp_ite (fun ha => ?_) fun _ => ?_)
  · simp only [Bool.and_eq_true, Bool.not_eq_true'] at ha
    exact wp_bind.mpr (addressFault_spends hr hN hk _ _ ha.2 hs)
  · refine wp_bind.mpr (wp_env.mpr ?_)
    split
    · next cb hcb => exact .of_ledger (hh.read16Cb cb hcb _ s)
    · refine wp_ite (fun _ => .refl s) fun _ => wp_ite (fun hb => ?_) fun _ => .refl s
      exact wp_bind.mpr (busFault_spends hr hN hk _ _ (by simpa using hb) hs)

theorem read32With_spends (address : U32) : Spends h N 0 k (read32With raise address) := by
  refine announce_spends hh _ _ _ _ _ (.state fun s hs => wp_ite (fun ha => ?_) fun _ => ?_)
  · simp only [Bool.and_eq_true, Bool.not_eq_true'] at ha
    exact wp_bind.mpr (addressFault_spends hr hN hk _ _ ha.2 hs)
  · refine wp_bind.mpr (wp_env.mpr ?_)
    split
    · next cb hcb => exact .of_ledger (hh.read32Cb cb hcb _ s)
    · refine wp_ite (fun _ => .refl s) fun _ => wp_ite (fun hb => ?_) fun _ => .refl s
      exact wp_bind.mpr (busFault_spends hr hN hk _ _ (by simpa using hb) hs)

theorem write8With_spends (address : U32) (value : U8) :
    Spends h N 0 k (write8With raise address value) := by
  refine announce_spends hh _ _ _ _ _ (.env ?_)
  split
  · next cb hcb => exact .call fun s => hh.write8Cb cb hcb _ _ s
  · refine .state fun s hs => wp_ite (fun _ => .of_ledger rfl) fun _ => wp_ite (fun hb => ?_)
      fun _ => .refl s
    exact busFault_spends hr hN hk _ _ (by simpa using hb) hs

theorem write16With_spends (address : U32) (value : U16) :
    Spends h N 0 k (write16With raise address value) := by
  refine announce_spends hh _ _ _ _ _ (.state fun s hs => wp_ite (fun ha => ?_) fun _ => ?_)
  · simp only [Bool.and_eq_true, Bool.not_eq_true'] at ha
    exact addressFault_spends hr hN hk _ _ ha.2 hs
  · refine wp_bind.mpr (wp_env.mpr ?_)
    split
    · next cb hcb => exact .of_ledger (hh.write16Cb cb hcb _ _ s)
    · refine wp_ite (fun _ => .of_ledger rfl) fun _ => wp_ite (fun hb => ?_) fun _ => .refl s
      exact busFault_spends hr hN hk _ _ (by simpa using hb) hs

theorem write32With_spends (address : U32) (value : U32) :
    Spends h N 0 k (write32With raise address value) := by
  refine announce_spends hh _ _ _ _ _ (.state fun s hs => wp_ite (fun ha => ?_) fun _ => ?_)
  · simp only [Bool.and_eq_true, Bool.not_eq_true'] at ha
    exact addressFault_spends hr hN hk _ _ ha.2 hs
  · refine wp_bind.mpr (wp_env.mpr ?_)
    split
    · next cb hcb => exact .of_ledger (hh.write32Cb cb hcb _ _ s)
    · refine wp_ite (fun _ => .of_ledger rfl) fun _ => wp_ite (fun hb => ?_) fun _ => .refl s
      exact busFault_spends hr hN hk _ _ (by simpa using hb) hs

theorem push32With_spends (value : U32) : Spends h N 0 k (push32With raise value) :=
  .seq (.gets _) fun _ => .seq (.modify fun _ => rfl) fun _ => .seq (.gets _) fun _ =>
    write32With_spends hh hr hN hk _ _

theorem push16With_spends (value : U16) : Spends h N 0 k (push16With raise value) :=
  .seq (.gets _) fun _ => .seq (.modify fun _ => rfl) fun _ => .seq (.gets _) fun _ =>
    write16With_spends hh hr hN hk _ _

theorem pushGroup0Frame_spends (oldPc : U32) (oldSr : U16) :
    Spends h N 0 k (pushGroup0Frame raise oldPc oldSr) :=
  .seq (.gets _) fun _ => .seq (push32With_spends hh hr hN hk _) fun _ =>
    .seq (push16With_spends hh hr hN hk _) fun _ => .seq (push16With_spends hh hr hN hk _) fun _ =>
      .seq (push32With_spends hh hr hN hk _) fun _ => push16With_spends hh hr hN hk _

theorem pushFrame_spends (vector : Nat) (oldPc : U32) (oldSr : U16) :
    Spends h N 0 k (pushFrame raise vector oldPc oldSr) := by
  have hrest : Spends h N 0 k (push32With raise oldPc >>= fun _ => push16With raise oldSr) :=
    .seq (push32With_spends hh hr hN hk _) fun _ => push16With_spends hh hr hN hk _
  exact .seq (.gets _) fun _ =>
    .ite (fun _ => .seq (push16With_spends hh hr hN hk _) fun _ => hrest)
    fun _ => hrest

theorem processException_spends (vector : Nat) {s : M68kCpu σ} (hs : clearGuards s ≤ N) :
    wp (processException raise vector) h (fun _ t => Spent N 0 (enterException vector s) t)
      (fun t => Unwound k s t) s := by
  have hend : Spends h N 0 k (do
      TrapM.modify clearFaultLatches
      let vbr ← TrapM.gets (·.vbr)
      let vectorAddr ← read32With raise (vbr + BitVec.ofNat 32 vector * 4)
      setPc vectorAddr
      TrapM.modify fun s => { s with exceptionDepth := s.exceptionDepth - 1 }) :=
    .seq (.modify fun _ => rfl) fun _ => .seq (.gets _) fun _ =>
      .seq (read32With_spends hh hr hN hk _) fun _ => .seq (setPc_spends hh _) fun _ =>
        .modify fun _ => rfl
  refine wp_bind.mpr (wp_modify.mpr ?_)
  refine wp_mono (Spends.seq (n := 0) (k := k) (.gets _) (fun oldSr => .seq (.gets _) fun oldPc =>
    .seq (.modify (ledger_withSr _)) fun _ => .ite
      (fun _ => .seq (pushGroup0Frame_spends hh hr hN hk _ _) fun _ => hend)
      fun _ => .seq (pushFrame_spends hh hr hN hk _ _ _) fun _ => hend) _ hs)
    (fun _ _ ht => ht) fun _ ht => ⟨ht.armed, ht.target, ht.cost⟩

end Accesses

/-- Each level of `exceptionAt` handles one more clear guard. -/
theorem exceptionAt_raises {h : Host σ} (hh : Honest h) (n : Nat) : Raises h n (exceptionAt n) := by
  induction n with
  | zero => exact fun N hN => absurd hN (Nat.not_lt_zero N)
  | succ n ih =>
    intro N hN v s hs
    refine wp_bind.mpr (wp_mono (illegalClaimed_honest hh v s) ?_ fun _ => False.elim)
    rintro _ t ⟨rfl, hledger⟩
    have hst : Spent N 0 (enterException v s) (enterException v t) :=
      .of_ledger (ledger_enterException v hledger)
    have hs' : clearGuards t ≤ N := clearGuards_congr hledger ▸ hs
    refine wp_mono (processException_spends hh ih (Nat.le_of_lt_succ hN) (Int.le_refl 0) v hs')
      (fun _ u hu => hst.trans hu) fun u hu => ?_
    exact Unwound.after hu (Spent.of_ledger (N := N) hledger)

/-! ## The operations of the handlers -/

section Operations

variable {h : Host σ} (hh : Honest h) {k : Int} (hk : 0 ≤ k)
include hh hk

/-- An exception is entered with the account as it is. -/
theorem exception_enters (v : Nat) (s : M68kCpu σ) :
    wp (exception v) h (fun _ t => Spent 2 0 (enterException v s) t) (fun t => Unwound k s t) s :=
  wp_mono (exceptionAt_raises hh 3 2 (by decide) v s (clearGuards_le s)) (fun _ _ ht => ht)
    fun _ ht => ht.mono hk

theorem exception_spends {v : Nat} (hv : v ≠ 6) : Spends h 2 0 k (exception v) := fun s _ =>
  wp_mono (exception_enters hh hk v s) (fun _ _ ht => ht.of_enter hv) fun _ ht => ht

theorem raiseIllegalEa_spends : Spends h 2 0 k (raiseIllegalEa : M σ Unit) := by
  refine .seq (exception_spends hh hk (by decide)) fun _ s _ => ?_
  rw [wp_bind, wp_gets]
  refine wp_ite (fun ha => ⟨(Bool.and_eq_true_iff.mp ha).1, rfl, ?_⟩) fun _ => .refl s
  omega

omit hh hk in
/-- At the top level the guards are not counted. -/
theorem guard_spends {f : M68kCpu σ → M68kCpu σ}
    (hf : ∀ s, { ledger (f s) with
      inAddressError := s.inAddressError
      inBusError := s.inBusError } = ledger s) : Spends h 2 0 k (TrapM.modify f) := fun s _ =>
  have hgroup0 : (f s).group0Fault = s.group0Fault := congrArg Ledger.group0Fault (hf s)
  .of_accounts (by rw [← hgroup0]; exact hf s) (fun hs => hgroup0.trans hs) fun _ =>
    clearGuards_le _

omit hh hk in
theorem captureAccessFault_spends (address : U32) (isWrite isProgram : Bool) :
    Spends h 2 0 k (TrapM.modify (captureAccessFault (σ := σ) address isWrite isProgram)) :=
  fun _ _ => .of_accounts rfl (fun _ => rfl) id

theorem raiseOddTargetFault_spends (target faultPc : U32) :
    Spends h 2 50 k (raiseOddTargetFault target faultPc) :=
  .andThen (.charge 50) fun _ => .seq (captureAccessFault_spends _ _ _) fun _ =>
    .seq (.modify fun _ => rfl) fun _ => .seq (guard_spends fun _ => rfl) fun _ =>
      .seq (exception_spends hh (by omega) (by decide)) fun _ => guard_spends fun _ => rfl

theorem raiseBusTargetFault_spends (target faultPc : U32) :
    Spends h 2 50 k (raiseBusTargetFault target faultPc) :=
  .andThen (.charge 50) fun _ => .seq (captureAccessFault_spends _ _ _) fun _ =>
    .seq (.modify fun _ => rfl) fun _ => .seq (guard_spends fun _ => rfl) fun _ =>
      .seq (exception_spends hh (by omega) (by decide)) fun _ => guard_spends fun _ => rfl

omit hk in
theorem tasAllowsWrite_spends : Spends h 2 0 k (tasAllowsWrite : M σ Bool) := by
  refine .env ?_
  split
  · next cb hcb => exact .seq (.call fun s => hh.tasCb cb hcb s) fun _ => .pure _
  · exact .pure _

omit hk in
theorem resetHook_spends : Spends h 2 0 k (resetHook : M σ Unit) := by
  refine .env ?_
  split
  · next cb hcb => exact .call fun s => hh.resetCb cb hcb s
  · exact .pure _

/-- A fetch that throws an exception marks the fault. -/
theorem fetch_marks (s : M68kCpu σ) :
    wp (fetch : M σ U16) h
      (fun _ t => Spent 2 0 s t ∧ (s.exceptionThrown = 0 → t.exceptionThrown = 0 ∨
        t.group0Fault = true)) (fun t => Unwound k s t) s := by
  have hr := exceptionAt_raises hh 3
  rw [fetch, wp_bind, getPc, wp_gets, wp_bind, note, wp_modify, wp_bind]
  refine wp_mono (setFc_ledger hh true _) (fun _ t ht => ?_) fun _ => False.elim
  rw [wp_bind, wp_gets]
  refine wp_bind.mpr (wp_mono (applyWaitBus_waits (N := 2) hh _ .word false t) ?_
    fun _ => False.elim)
  intro _ u hu
  have hsu : Spent 2 0 s u := (Spent.of_ledger (s := s) ht).trans hu.1
  have hthrown : u.exceptionThrown = s.exceptionThrown :=
    hu.2.trans (congrArg Ledger.exceptionThrown ht)
  have hafter {u' : M68kCpu σ} (hu' : ledger u' = ledger u) :
      Spent 2 0 s u' ∧ (s.exceptionThrown = 0 → u'.exceptionThrown = 0 ∨ u'.group0Fault = true) :=
    ⟨hsu.trans (.of_ledger hu'), fun hs =>
      .inl ((congrArg Ledger.exceptionThrown hu').trans (hthrown.trans hs))⟩
  have hmarked {u' : M68kCpu σ} (hu' : Spent 2 0 u u' ∧ u'.group0Fault = true) :
      Spent 2 0 s u' ∧ (s.exceptionThrown = 0 → u'.exceptionThrown = 0 ∨ u'.group0Fault = true) :=
    ⟨hsu.trans hu'.1, fun _ => .inr hu'.2⟩
  have hunwound {u' : M68kCpu σ} (hu' : Unwound k u u') : Unwound k s u' :=
    (hu'.mono (by omega)).after hsu
  refine wp_ite (fun ha => ?_) fun _ => ?_
  · simp only [Bool.and_eq_true, Bool.not_eq_true'] at ha
    exact wp_bind.mpr (wp_mono (addressFault_marks hr (by decide) hk _ _ ha.2 (clearGuards_le u))
      (fun _ _ => hmarked) fun _ => hunwound)
  · refine wp_bind.mpr (wp_env.mpr ?_)
    split
    · next cb hcb => exact wp_bind.mpr (hafter (hh.read16Cb cb hcb _ u))
    · refine wp_ite (fun _ => hafter rfl) fun _ => wp_ite (fun hb => ?_) fun _ => hafter rfl
      simp only [Bool.not_eq_true'] at hb
      exact wp_bind.mpr (wp_mono (busFault_marks hr (by decide) hk _ _ hb (clearGuards_le u))
        (fun _ _ => hmarked) fun _ => hunwound)

theorem fetch_spends : Spends h 2 0 k (fetch : M σ U16) := fun s _ =>
  wp_mono (fetch_marks hh hk s) (fun _ _ ht => ht.1) fun _ ht => ht

/-- Operations that neither take cycles back nor trap spend. -/
theorem Op.spends {g : Grade} {p q : Phase} {m : M σ α} (hm : Op g p q m) (hr : g.refunds = false)
    (ht : g.trap = false) : Spends h 2 0 k m := by
  have hraise := exceptionAt_raises hh 3
  have hle : (2 : Nat) ≤ 3 := by decide
  cases hm with
  | get _ => exact .gets _
  | @charge _ n hn =>
    refine (Spends.charge n).mono (hn.resolve_right ?_) (Int.le_refl k)
    rw [hr]
    exact Bool.false_ne_true
  | latchFaultPc _ _ => exact .modify fun _ => rfl
  | dropBusWord _ => exact .modify fun _ => rfl
  | dropProgramSpace _ => exact .modify fun _ => rfl
  | rewind _ => exact .modify fun _ => rfl
  | peekWord _ _ => exact peekWord_spends hh _
  | isUnmappedTarget _ _ => exact isUnmappedTarget_spends _
  | tasAllowsWrite _ => exact tasAllowsWrite_spends hh
  | resetHook _ => exact resetHook_spends hh
  | fetch _ => exact fetch_spends hh hk
  | read8 _ _ => exact read8With_spends hh hraise hle hk _
  | read16 _ _ => exact read16With_spends hh hraise hle hk _
  | read32 _ _ => exact read32With_spends hh hraise hle hk _
  | write8 _ _ _ => exact write8With_spends hh hraise hle hk _ _
  | write16 _ _ _ => exact write16With_spends hh hraise hle hk _ _
  | write32 _ _ _ => exact write32With_spends hh hraise hle hk _ _
  | setA _ _ _ => exact .modify fun _ => rfl
  | setD _ _ _ => exact .modify fun _ => rfl
  | modifySr _ _ => exact .modify fun _ => rfl
  | setPc _ _ => exact setPc_spends hh _
  | setSr _ _ _ => exact .modify (ledger_withSr _)
  | setUsp _ _ _ _ => exact .modify fun _ => rfl
  | @writeControl _ _ _ c _ _ => exact .modify fun _ => by cases c <;> rfl
  | stop _ _ => exact .modify fun _ => rfl
  | illegal _ => exact exception_spends hh hk (by decide)
  | illegalEa _ => exact raiseIllegalEa_spends hh hk
  | violation hv => exact exception_spends hh hk (by omega)
  | trap h _ _ => exact absurd (ht.symm.trans h) Bool.false_ne_true
  | oddTarget _ _ _ => exact (raiseOddTargetFault_spends hh hk _ _).mono (by decide) (Int.le_refl k)
  | busTarget _ _ _ => exact (raiseBusTargetFault_spends hh hk _ _).mono (by decide) (Int.le_refl k)

theorem privileged_spends {body : M σ Unit} (hb : Spends h 2 0 k body) :
    Spends h 2 0 k (privileged body) :=
  .seq (.gets _) fun _ => .ite (fun _ => .seq (.modify fun _ => rfl)
    fun _ => exception_spends hh hk (by decide)) fun _ => hb

/-- So do their compositions. -/
theorem Micro.spends {g : Grade} {p q : Phase} {m : M σ α} (hm : Micro g p q m)
    (hs : g.supervisor = true) (hr : g.refunds = false) (ht : g.trap = false) :
    Spends h 2 0 k m := by
  induction hm with
  | op hop => exact hop.spends hh hk hr ht
  | pure a => exact .pure a
  | seq _ _ ih ihf => exact .seq (ih hs hr ht) fun a => ihf a hs hr ht
  | weaken _ _ _ ih => exact ih hs hr ht
  | privileged _ ih => exact privileged_spends hh hk (ih hs hs hr ht)
  | programSpace _ _ _ _ _ ih ihf =>
    exact .seq (.modify fun _ => rfl) fun _ => .seq (ih hs hr ht) fun a =>
      .seq (.modify fun _ => rfl) fun _ => ihf a hs hr ht
  | busWord _ _ _ _ _ ih ihf =>
    exact .seq (.modify fun _ => rfl) fun _ => .seq (ih hs hr ht) fun _ =>
      .seq (.modify fun _ => rfl) fun a => ihf a hs hr ht

end Operations

end M68k
