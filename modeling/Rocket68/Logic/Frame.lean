import Mathlib.Data.BitVec
import Mathlib.Tactic.FinCases
import Rocket68.Logic.Exception

/-!
# Exception frames

A frame is a list of pushes. Pushing it, then fetching the vector, is all that
`m68k_exception` does to memory, so one induction over the list gives both what
it does when nothing faults (`delivered`) and what it keeps when something does
(`Processed`).
-/

namespace M68k

open Trap TrapM

variable {σ α : Type}

/-! ## Pushes -/

/-- One push. -/
def pushWith (raise : Nat → M σ Unit) : M68kSize → U32 → M σ Unit
  | .long, value => push32With raise value
  | _, value => push16With raise (value.setWidth 16)

/-- A sequence of pushes. -/
def pushAllWith (raise : Nat → M σ Unit) : List (M68kSize × U32) → M σ Unit
  | [] => pure ()
  | (size, value) :: rest => do
      pushWith raise size value
      pushAllWith raise rest

/-- The size of the frame a list pushes. -/
def frameSize (frame : List (M68kSize × U32)) : U32 := (frame.map fun e => e.1.bytes).sum

/-- A7 lowered for a push. -/
def lowered (size : M68kSize) (s : M68kCpu σ) : M68kCpu σ :=
  { s with aRegs := Function.update s.aRegs 7 (s.aRegs 7 - size.bytes) }

/-- The state after a push that raises nothing. Under a held bus error guard a
push to unmapped memory is dropped. -/
def pushedOne (size : M68kSize) (value : U32) (s : M68kCpu σ) : M68kCpu σ :=
  { (lowered size s).noted (.access .write size (s.aRegs 7 - size.bytes)) with
    memory :=
      if mapped s size (s.aRegs 7 - size.bytes) then
        storeSized size s.memory (maskAddress24 (s.aRegs 7 - size.bytes)) value
      else s.memory }

/-- The state after a sequence of pushes that raises nothing. -/
def pushed : List (M68kSize × U32) → M68kCpu σ → M68kCpu σ
  | [], s => s
  | (size, value) :: rest, s => pushed rest (pushedOne size value s)

/-- One of the pushes raises an exception. -/
def pushFaults : List (M68kSize × U32) → M68kCpu σ → Bool
  | [], _ => false
  | (size, value) :: rest, s =>
      faultsAt size (s.aRegs 7 - size.bytes) s || pushFaults rest (pushedOne size value s)

/-- The sizes a push may have. -/
def Pushable (frame : List (M68kSize × U32)) : Prop := ∀ e ∈ frame, e.1 ≠ .byte

/-- Every push of the frame is to accessible memory, from stack pointer `sp`. -/
def fits (s : M68kCpu σ) : U32 → List (M68kSize × U32) → Bool
  | _, [] => true
  | sp, (size, _) :: rest =>
      accessible s size (sp - size.bytes) && fits s (sp - size.bytes) rest

theorem lowered_a7 (size : M68kSize) (s : M68kCpu σ) :
    (lowered size s).aRegs 7 = s.aRegs 7 - size.bytes := by
  simp [lowered]

@[simp] theorem pushedOne_a7 (size : M68kSize) (value : U32) (s : M68kCpu σ) :
    (pushedOne size value s).aRegs 7 = s.aRegs 7 - size.bytes := lowered_a7 size s

theorem pushed_a7 (frame : List (M68kSize × U32)) (s : M68kCpu σ) :
    (pushed frame s).aRegs 7 = s.aRegs 7 - frameSize frame := by
  induction frame generalizing s with
  | nil => simp [pushed, frameSize]
  | cons e rest ih =>
    rw [pushed, ih, pushedOne_a7]
    simp only [frameSize, List.map_cons, List.sum_cons]
    exact BitVec.sub_sub _ _ _

/-- Pushes change A7, memory and the observation. -/
theorem pushed_eq (frame : List (M68kSize × U32)) (s : M68kCpu σ) :
    pushed frame s =
      { s with
        aRegs := Function.update s.aRegs 7 (s.aRegs 7 - frameSize frame)
        memory := (pushed frame s).memory
        log := (pushed frame s).log } := by
  induction frame generalizing s with
  | nil => simp [pushed, frameSize]
  | cons e rest ih =>
    have ha7 : s.aRegs 7 - e.1.bytes - frameSize rest = s.aRegs 7 - frameSize (e :: rest) := by
      simp only [frameSize, List.map_cons, List.sum_cons]
      exact BitVec.sub_sub _ _ _
    rw [pushed, ih]
    simp only [pushedOne_a7, ha7]
    simp only [pushedOne, lowered, M68kCpu.noted, Function.update_idem]

theorem pushed_sr (frame : List (M68kSize × U32)) (s : M68kCpu σ) :
    (pushed frame s).sr = s.sr := by
  rw [pushed_eq]

/-- The writes that push a frame from stack pointer `sp`, newest first. -/
def pushEvents : U32 → List (M68kSize × U32) → List Event
  | _, [] => []
  | sp, (size, _) :: rest =>
      pushEvents (sp - size.bytes) rest ++ [.access .write size (sp - size.bytes)]

theorem pushed_events (frame : List (M68kSize × U32)) (s : M68kCpu σ) :
    (pushed frame s).log = pushEvents (s.aRegs 7) frame ++ s.log := by
  induction frame generalizing s with
  | nil => rfl
  | cons e rest ih =>
    rw [pushed, ih, pushedOne_a7, pushEvents, List.append_assoc]
    rfl

theorem mem_pushEvents {frame : List (M68kSize × U32)} {sp : U32} {e : Event}
    (h : e ∈ pushEvents sp frame) : ∃ size address, e = .access .write size address := by
  induction frame generalizing sp with
  | nil => cases h
  | cons e' rest ih =>
    rcases List.mem_append.mp h with h | h
    · exact ih h
    · exact ⟨_, _, List.mem_singleton.mp h⟩

/-- In a handler A7 is the supervisor stack pointer, which `Kept` leaves out. -/
theorem inside_setA7 {s : M68kCpu σ} (hs : InHandler s) (v : U32) :
    Inside s { s with aRegs := Function.update s.aRegs 7 v } := by
  refine ⟨?_, rfl, fun _ => rfl, id, id, [], rfl, fun _ h => absurd h List.not_mem_nil⟩
  have hsup : (s.sr &&& srS != 0) = true := hs.supervisor
  simp only [M68k.kept, M68kCpu.userSp, M68kCpu.supervisor, hsup, if_true,
    Function.update_idem]

theorem inside_memory (u : M68kCpu σ) (memory : U32 → U8) :
    Inside u { u with memory := memory } :=
  ⟨rfl, rfl, fun _ => rfl, id, id, [], rfl, fun _ h => absurd h List.not_mem_nil⟩

/-- A host under which exception processing sees flat memory and nothing else. -/
structure FlatHost (host : Host σ) : Prop where
  write16 : ∀ (raise : Nat → M σ Unit) (address : U32) (value : U16) (s : M68kCpu σ),
    write16With raise address value host s =
      flatAccess raise .write .word address
        (fun s => ({ s with memory := storeWord s.memory (maskAddress24 address) value }, ()))
        (fun s => (s, ())) () host s
  write32 : ∀ (raise : Nat → M σ Unit) (address value : U32) (s : M68kCpu σ),
    write32With raise address value host s =
      flatAccess raise .write .long address
        (fun s => ({ s with memory := storeLong s.memory (maskAddress24 address) value }, ()))
        (fun s => (s, ())) () host s
  read32 : ∀ (raise : Nat → M σ Unit) (address : U32) (s : M68kCpu σ),
    read32With raise address host s =
      flatAccess raise .read .long address (fun s => (s, longAt s.memory (maskAddress24 address)))
        (fun s => (s, 0)) 0 host s
  setPc : ∀ (pc : U32) (s : M68kCpu σ), setPc pc host s = .ok () { s with pc := pc }

theorem flatHost_ack (k : Option (Nat → M68kCpu σ → M68kCpu σ × U32)) : FlatHost (ackHost k) where
  write16 raise address value s := write16With_flat raise k address s value
  write32 raise address value s := write32With_flat raise k address s value
  read32 raise address s := read32With_flat raise k address s
  setPc _ _ := rfl

theorem pushWith_run (raise : Nat → M σ Unit) {host : Host σ} (hflat : FlatHost host)
    {size : M68kSize} (hsize : size ≠ .byte) (value : U32) (s : M68kCpu σ) :
    pushWith raise size value host s =
      flatAccess raise .write size (s.aRegs 7 - size.bytes)
        (fun u => ({ u with
          memory := storeSized size u.memory (maskAddress24 (s.aRegs 7 - size.bytes)) value }, ()))
        (fun u => (u, ())) () host (lowered size s) := by
  have ha7 := lowered_a7 size s
  cases size with
  | byte => exact absurd rfl hsize
  | word =>
    show write16With raise ((lowered .word s).aRegs 7) (value.setWidth 16) host
      (lowered .word s) = _
    rw [hflat.write16, ha7]
    rfl
  | long =>
    show write32With raise ((lowered .long s).aRegs 7) value host (lowered .long s) = _
    rw [hflat.write32, ha7]
    rfl

/-! ## The frame of an exception -/

/-- The frame of exception `v` raised in `s`, in the order of its pushes. -/
def frameOf (v : Nat) (s : M68kCpu σ) : List (M68kSize × U32) :=
  if v = 2 ∨ v = 3 then
    [(.long, stackedPc v s), (.word, s.sr.setWidth 32),
      (.word, (if s.faultValid then s.faultIr else s.ir).setWidth 32),
      (.long, if s.faultValid then s.faultAddress else 0),
      (.word, (if s.faultValid then s.faultSsw else 0).setWidth 32)]
  else if s.model.is68010 then
    [(.word, (BitVec.ofNat 16 (v * 4)).setWidth 32), (.long, stackedPc v s),
      (.word, s.sr.setWidth 32)]
  else
    [(.long, stackedPc v s), (.word, s.sr.setWidth 32)]

theorem frameOf_pushable (v : Nat) (s : M68kCpu σ) : Pushable (frameOf v s) := by
  unfold frameOf
  split
  · intro e he
    fin_cases he <;> exact nofun
  · split
    · intro e he
      fin_cases he <;> exact nofun
    · intro e he
      fin_cases he <;> exact nofun

/-- The size of the frame of exception `v`. -/
def frameBytes (model : M68kModel) (v : Nat) : U32 :=
  if v = 2 ∨ v = 3 then 14 else if model.is68010 then 8 else 6

theorem frameSize_frameOf (v : Nat) (s : M68kCpu σ) :
    frameSize (frameOf v s) = frameBytes s.model v := by
  unfold frameOf frameBytes
  by_cases hv : v = 2 ∨ v = 3
  · rw [if_pos hv, if_pos hv]
    rfl
  · rw [if_neg hv, if_neg hv]
    cases s.model <;> rfl

/-- The state from which exception `v` pushes its frame. -/
def entered (v : Nat) (s : M68kCpu σ) : M68kCpu σ :=
  withSr ((s.sr ||| srS) &&& ~~~srT) (enterException v s)

/-- `m68k_set_sr` banks the stack pointers: each is kept, and the one of the new
mode stands in A7. -/
theorem withSr_eq (v : U16) (s : M68kCpu σ) :
    withSr v s =
      { s with
        sr := v &&& srMask
        usp := if v &&& srMask &&& srS != 0 then s.userSp else s.usp
        ssp := if v &&& srMask &&& srS != 0 then s.ssp else s.supervisorSp
        aRegs := Function.update s.aRegs 7
          (if v &&& srMask &&& srS != 0 then s.supervisorSp else s.userSp) } := by
  simp only [withSr, M68kCpu.userSp, M68kCpu.supervisorSp]
  cases s.supervisor <;> cases (v &&& srMask &&& srS != 0) <;> simp

/-- `m68k_set_sr` changes neither stack pointer. -/
theorem withSr_banks (v : U16) (s : M68kCpu σ) :
    (withSr v s).userSp = s.userSp ∧ (withSr v s).supervisorSp = s.supervisorSp := by
  have hsup : (withSr v s).supervisor = (v &&& srMask &&& srS != 0) := by
    rw [withSr_eq]
    rfl
  simp only [M68kCpu.userSp, M68kCpu.supervisorSp, hsup]
  rw [withSr_eq]
  cases (v &&& srMask &&& srS != 0) <;> simp [M68kCpu.userSp, M68kCpu.supervisorSp]

/-- Entering supervisor state. -/
theorem withSr_handler (s : M68kCpu σ) :
    withSr ((s.sr ||| srS) &&& ~~~srT) s =
      { s with
        sr := handlerSr s.sr
        usp := s.userSp
        aRegs := Function.update s.aRegs 7 s.supervisorSp } := by
  have hs : (((s.sr ||| srS) &&& ~~~srT) &&& srMask &&& srS != 0) = true := by
    rw [and_srS]
    exact handlerSr_supervisor s.sr
  rw [withSr_eq, hs]
  rfl

theorem entered_eq (v : Nat) (s : M68kCpu σ) :
    entered v s =
      { enterException v s with
        sr := handlerSr s.sr
        usp := s.userSp
        aRegs := Function.update s.aRegs 7 s.supervisorSp } :=
  withSr_handler (enterException v s)

theorem entered_supervisor (v : Nat) (s : M68kCpu σ) : (entered v s).supervisor = true := by
  rw [supervisor_eq, entered_eq]
  exact handlerSr_supervisor s.sr

theorem kept_entered (v : Nat) (s : M68kCpu σ) :
    kept (entered v s) = { kept s with exceptionDepth := s.exceptionDepth + 1 } := by
  have husp : (entered v s).userSp = s.userSp := by
    simp only [M68kCpu.userSp, entered_supervisor, if_true]
    rw [entered_eq]
    rfl
  have hkept : kept (entered v s) =
      { kept { enterException v s with
          sr := handlerSr s.sr
          usp := s.userSp
          aRegs := Function.update s.aRegs 7 s.supervisorSp } with
        userSp := (entered v s).userSp } := by
    rw [← entered_eq]
    rfl
  rw [hkept, husp]
  simp only [kept, enterException, Function.update_idem]

theorem illegalClaimed_quiet (v : Nat) (s : M68kCpu σ) :
    illegalClaimed v (ackHost k) s = .ok false s := by
  simp only [illegalClaimed, ite_run]
  split <;> rfl

theorem entered_inHandler (v : Nat) (s : M68kCpu σ) : InHandler (entered v s) where
  supervisor := entered_supervisor v s
  sr := by
    rw [entered_eq]
    exact handlerSr_idem s.sr

/-- The last two assignments of `m68k_exception`. -/
def leave (pc : U32) (s : M68kCpu σ) : M68kCpu σ :=
  { s with pc := pc, exceptionDepth := s.exceptionDepth - 1 }

/-- The state from which the vector is fetched, when no push faulted. -/
def framed (v : Nat) (s : M68kCpu σ) : M68kCpu σ :=
  clearFaultLatches (pushed (frameOf v s) (entered v s))

/-- The address of a vector. -/
def vectorAddress (v : Nat) (s : M68kCpu σ) : U32 := s.vbr + BitVec.ofNat 32 v * 4

/-- Exception `v` raised in `s`, when nothing faults. -/
def delivered (v : Nat) (s : M68kCpu σ) : M68kCpu σ :=
  leave (entry (framed v s) (vectorAddress v s))
    ((framed v s).noted (.access .read .long (vectorAddress v s)))

/-- Some access of exception `v` raised in `s` faults. -/
def exceptionFaults (v : Nat) (s : M68kCpu σ) : Bool :=
  pushFaults (frameOf v s) (entered v s) || faultsAt .long (vectorAddress v s) s

theorem pushFrame_eq (raise : Nat → M σ Unit) (v : Nat) (h : Host σ) (s : M68kCpu σ) :
    (if v = 2 ∨ v = 3 then pushGroup0Frame raise (stackedPc v s) s.sr
      else pushFrame raise v (stackedPc v s) s.sr) h (entered v s) =
      pushAllWith raise (frameOf v s) h (entered v s) := by
  by_cases hv : v = 2 ∨ v = 3
  · rw [if_pos hv, frameOf, if_pos hv, pushGroup0Frame, gets_bind]
    simp only [pushAllWith, pushWith, bind_pure_unit, BitVec.setWidth_setWidth_of_le,
      BitVec.setWidth_eq, Nat.reduceLeDiff, id]
    rw [entered_eq]
    rfl
  · rw [if_neg hv, frameOf, if_neg hv, pushFrame, getModel, gets_bind]
    have hmodel : (entered v s).model = s.model := by
      rw [entered_eq]
      rfl
    rw [hmodel]
    cases s.model with
    | m68000 =>
      simp only [M68kModel.is68010, Bool.false_eq_true, if_false, pushAllWith, pushWith,
        bind_pure_unit, BitVec.setWidth_setWidth_of_le, BitVec.setWidth_eq, Nat.reduceLeDiff]
      rfl
    | m68010 =>
      simp only [M68kModel.is68010, if_true, pushAllWith, pushWith,
        bind_pure_unit, BitVec.setWidth_setWidth_of_le, BitVec.setWidth_eq, Nat.reduceLeDiff]
      rfl

section Handles

variable {k : Option (Nat → M68kCpu σ → M68kCpu σ × U32)} {n : Nat} {raise : Nat → M σ Unit}

/-- A push inside exception processing. -/
theorem pushWith_inside (hraise : Handles k n raise) {size : M68kSize} (hsize : size ≠ .byte)
    (value : U32) {s : M68kCpu σ} (hs : InHandler s) (hn : clearGuards s ≤ n) :
    wp (pushWith raise size value) (ackHost k)
      (fun _ t => Inside s t ∧
        if faultsAt size (s.aRegs 7 - size.bytes) s then Faulted s t
        else t = pushedOne size value s)
      (fun _ => s.exceptionDepth < 1) s := by
  have hlow : Inside s (lowered size s) := inside_setA7 hs _
  have hmapped : mapped (lowered size s) size (s.aRegs 7 - size.bytes) =
      mapped s size (s.aRegs 7 - size.bytes) := rfl
  have hfaults : faultsAt size (s.aRegs 7 - size.bytes) (lowered size s) =
      faultsAt size (s.aRegs 7 - size.bytes) s := rfl
  unfold wp
  rw [pushWith_run raise (flatHost_ack k) hsize]
  refine wp_mono (flatAccess_inside hraise .write size (s.aRegs 7 - size.bytes) _ _ ()
    (hlow.inHandler hs) (hlow.clearGuards ▸ hn) (fun u => inside_memory u _) Inside.refl) ?_ ?_
  · intro _ t ⟨hinside, hpost⟩
    refine ⟨hlow.trans hinside, ?_⟩
    rw [hfaults, hmapped] at hpost
    by_cases hf : faultsAt size (s.aRegs 7 - size.bytes) s = true
    · rw [if_pos hf] at hpost ⊢
      exact hpost.2.after hlow
    · rw [if_neg hf] at hpost ⊢
      by_cases hm : mapped s size (s.aRegs 7 - size.bytes) = true
      · rw [if_pos hm] at hpost
        rw [hpost.2, pushedOne, if_pos hm]
        rfl
      · rw [if_neg hm] at hpost
        rw [hpost.2, pushedOne, if_neg hm]
        rfl
  · exact fun _ h => h

/-- A frame pushed inside exception processing. -/
theorem pushAllWith_inside (hraise : Handles k n raise) {frame : List (M68kSize × U32)}
    (hframe : Pushable frame) {s : M68kCpu σ} (hs : InHandler s) (hn : clearGuards s ≤ n) :
    wp (pushAllWith raise frame) (ackHost k)
      (fun _ t => Inside s t ∧ if pushFaults frame s then Faulted s t else t = pushed frame s)
      (fun _ => s.exceptionDepth < 1) s := by
  induction frame generalizing s with
  | nil => exact ⟨Inside.refl s, rfl⟩
  | cons e rest ih =>
    obtain ⟨size, value⟩ := e
    have hrest : Pushable rest := fun e he => hframe e (List.mem_cons_of_mem _ he)
    rw [pushAllWith, wp_bind]
    refine wp_mono (pushWith_inside hraise (hframe _ List.mem_cons_self) value hs hn) ?_ ?_
    · intro _ t ⟨hst, hpost⟩
      refine wp_mono (ih hrest (hst.inHandler hs) (hst.clearGuards ▸ hn)) ?_ ?_
      · intro _ u ⟨htu, hpost'⟩
        refine ⟨hst.trans htu, ?_⟩
        rw [pushFaults]
        by_cases hf : faultsAt size (s.aRegs 7 - size.bytes) s = true
        · rw [if_pos hf] at hpost
          rw [hf, Bool.true_or, if_pos rfl]
          exact hpost.before htu
        · rw [if_neg hf] at hpost
          have hf' : faultsAt size (s.aRegs 7 - size.bytes) s = false := by simpa using hf
          rw [hf', Bool.false_or, ← hpost]
          by_cases hf : pushFaults rest t = true
          · rw [if_pos hf] at hpost' ⊢
            exact hpost'.after hst
          · rw [if_neg hf] at hpost' ⊢
            rw [hpost', pushed, ← hpost]
      · intro _ h
        rwa [hst.depth] at h
    · exact fun _ h => h

/-- The vector fetch: the value is `entry` of the state it ends in. -/
theorem read32With_inside (hraise : Handles k n raise) (address : U32) {s : M68kCpu σ}
    (hs : InHandler s) (hn : clearGuards s ≤ n) :
    wp (read32With raise address) (ackHost k)
      (fun a t => Inside s t ∧ a = entry t address ∧
        if faultsAt .long address s then Faulted s t
        else t = s.noted (.access .read .long address))
      (fun _ => s.exceptionDepth < 1) s := by
  unfold wp
  rw [read32With_flat]
  refine wp_mono (flatAccess_inside hraise .read .long address _ _ 0 hs hn Inside.refl
    Inside.refl) ?_ ?_
  · intro a t ⟨hst, hpost⟩
    have haddr : t.inAddressError = s.inAddressError := congrArg Kept.inAddressError hst.kept
    have hsize : t.memorySize = s.memorySize := congrArg Kept.memorySize hst.kept
    have hmap : mapped t .long address = mapped s .long address := by
      simp only [mapped, isValidAddress, hsize]
    have hentry : entry t address =
        if (isOdd address && !s.inAddressError) || !mapped s .long address then 0
        else longAt t.memory (maskAddress24 address) := by
      rw [entry, haddr, hmap]
    refine ⟨hst, ?_, ?_⟩
    · rw [hentry]
      simp only [faultsAt, misaligned] at hpost
      cases hodd : isOdd address && !s.inAddressError <;> cases hm : mapped s .long address <;>
        cases hb : s.inBusError <;> simp_all [M68kCpu.noted]
    · by_cases hf : faultsAt .long address s = true
      · rw [if_pos hf] at hpost ⊢
        exact hpost.2
      · rw [if_neg hf] at hpost ⊢
        by_cases hm : mapped s .long address = true
        · rw [if_pos hm] at hpost
          exact hpost.2
        · rw [if_neg hm] at hpost
          exact hpost.2
  · exact fun _ h => h

/-- What a run of `m68k_exception` is, in terms of its frame. -/
theorem processException_run {host : Host σ} (v : Nat) (s : M68kCpu σ) :
    processException raise v host s =
      (pushAllWith raise (frameOf v s) >>= fun _ => do
          modify clearFaultLatches
          let vbr ← gets (·.vbr)
          let vectorAddr ← read32With raise (vbr + BitVec.ofNat 32 v * 4)
          setPc vectorAddr
          modify fun s => { s with exceptionDepth := s.exceptionDepth - 1 })
        host (entered v s) := by
  refine Eq.trans ?_ (bind_congr_run (pushFrame_eq raise v host s) fun _ _ => rfl)
  by_cases h : v = 2 ∨ v = 3
  · simp only [processException, if_pos h]
    rfl
  · simp only [processException, if_neg h]
    rfl

/-- `m68k_exception` over an inner level that processes exceptions. -/
theorem processException_wp (hraise : Handles k n raise) (v : Nat) {s : M68kCpu σ}
    (hn : clearGuards s ≤ n) :
    wp (processException raise v) (ackHost k)
      (fun _ t => Processed v s t ∧
        if exceptionFaults v s then Faulted (entered v s) t else t = delivered v s)
      (fun _ => s.exceptionDepth < 0) s := by
  have hin := entered_inHandler v s
  have hkept := kept_entered v s
  have hguards : clearGuards (entered v s) = clearGuards s := by rw [entered_eq]; rfl
  have hdepth : (entered v s).exceptionDepth = s.exceptionDepth + 1 := by rw [entered_eq]; rfl
  unfold wp
  rw [processException_run]
  refine wp_bind.mpr (wp_mono (pushAllWith_inside hraise (frameOf_pushable v s) hin
    (hguards ▸ hn)) ?_ fun _ h => by omega)
  intro _ t ⟨hst, hpush⟩
  -- The latches are clear from here to the end, nested faults included.
  have hclear : Inside t (clearFaultLatches t) :=
    ⟨rfl, rfl, fun _ => rfl, id, fun _ => ⟨rfl, rfl, rfl, rfl, rfl⟩, [], rfl,
      fun _ h => absurd h List.not_mem_nil⟩
  have hsc := hst.trans hclear
  have hvbr : t.vbr = s.vbr := congrArg Kept.vbr (hst.kept.trans hkept)
  rw [wp_bind, wp_modify, wp_bind, wp_gets, wp_bind]
  have haddress : (clearFaultLatches t).vbr + BitVec.ofNat 32 v * 4 = vectorAddress v s :=
    congrArg (· + BitVec.ofNat 32 v * 4) hvbr
  rw [haddress]
  refine wp_mono (read32With_inside hraise (vectorAddress v s) (hsc.inHandler hin)
    (by rw [hsc.clearGuards, hguards]; exact hn)) ?_ fun _ h => by
      rw [hsc.depth] at h
      omega
  intro a u ⟨hcu, ha, hread⟩
  have hsu := hsc.trans hcu
  have hkeptu : kept u = { kept s with exceptionDepth := s.exceptionDepth + 1 } :=
    hsu.kept.trans hkept
  have hfaults : faultsAt .long (vectorAddress v s) (clearFaultLatches t) =
      faultsAt .long (vectorAddress v s) s := by
    have h := hsc.kept.trans hkept
    have hsize : t.memorySize = s.memorySize := congrArg Kept.memorySize h
    have haddr : t.inAddressError = s.inAddressError := congrArg Kept.inAddressError h
    have hbus : t.inBusError = s.inBusError := congrArg Kept.inBusError h
    simp only [faultsAt, mapped, isValidAddress, clearFaultLatches, hsize, haddr, hbus]
  refine ⟨?_, ?_⟩
  · have hthrown := hsu.thrown
    have hlog := hsu.log
    simp only [entered_eq, enterException] at hthrown hlog
    refine
      { kept := ?_, sr := ?_, pc := ha, thrown := ?_, first := ?_,
        group0 := hsu.group0 ∘ fun h => by rw [entered_eq]; exact h,
        latches := hcu.latches ⟨rfl, rfl, rfl, rfl, rfl⟩, log := hlog }
    · show { kept u with exceptionDepth := (kept u).exceptionDepth - 1 } = kept s
      rw [hkeptu]
      simp only [Int.add_sub_cancel]
      rfl
    · show u.sr = handlerSr s.sr
      rw [hsu.sr, entered_eq]
    · intro hne
      show u.exceptionThrown = s.exceptionThrown
      rw [hthrown (by rwa [if_neg hne]), if_neg hne]
    · intro hz hv
      show u.exceptionThrown = v
      rw [hthrown (by rwa [if_pos hz]), if_pos hz]
  · rw [exceptionFaults]
    rw [hfaults] at hread
    by_cases hp : pushFaults (frameOf v s) (entered v s) = true
    · rw [if_pos hp] at hpush
      rw [hp, Bool.true_or, if_pos rfl]
      have htail := hpush.before (hclear.trans hcu)
      exact htail
    · rw [if_neg hp] at hpush
      have hp' : pushFaults (frameOf v s) (entered v s) = false := by simpa using hp
      rw [hp', Bool.false_or]
      by_cases hf : faultsAt .long (vectorAddress v s) s = true
      · rw [if_pos hf] at hread ⊢
        have htail := hread.after hsc
        exact htail
      · rw [if_neg hf] at hread ⊢
        rw [ha, hread, hpush]
        rfl

theorem exceptionAt_succ (n v : Nat) (s : M68kCpu σ) :
    exceptionAt (n + 1) v (ackHost k) s = processException (exceptionAt n) v (ackHost k) s := by
  rw [exceptionAt, bind_ok (illegalClaimed_quiet v s)]
  rfl

/-- With more levels than clear guards `m68k_exception` returns. -/
theorem exceptionAt_handles (n : Nat) : Handles k n (exceptionAt n : Nat → M σ Unit) := by
  induction n with
  | zero => exact fun _ _ h => absurd h (Nat.not_lt_zero _)
  | succ n ih =>
    intro v s hn
    unfold wp
    rw [exceptionAt_succ]
    exact wp_mono (processException_wp ih v (Nat.le_of_lt_succ hn)) (fun _ _ h => h.1) fun _ h => h

theorem clearGuards_le (s : M68kCpu σ) : clearGuards s ≤ 2 := by
  simp only [clearGuards]
  split <;> split <;> omega

/-- `m68k_exception` on any state. -/
theorem exception_wp (v : Nat) (s : M68kCpu σ) :
    wp (exception v) (ackHost k)
      (fun _ t => Processed v s t ∧
        if exceptionFaults v s then Faulted (entered v s) t else t = delivered v s)
      (fun _ => s.exceptionDepth < 0) s := by
  unfold wp
  rw [exception, exceptionAt_succ]
  exact processException_wp (exceptionAt_handles 2) v (clearGuards_le s)

/-- At depth 0 or more it returns. -/
theorem exception_returns (v : Nat) {s : M68kCpu σ} (h : 0 ≤ s.exceptionDepth) :
    ∃ t, exception v (ackHost k) s = .ok () t ∧ Processed v s t ∧
      if exceptionFaults v s then Faulted (entered v s) t else t = delivered v s := by
  obtain ⟨_, t, ht, hpost⟩ := exists_ok_of_wp (wp_mono (exception_wp (k := k) v s)
    (fun _ _ h => h) fun _ h' => (by omega : False))
  exact ⟨t, ht, hpost⟩

theorem exception_processed (v : Nat) {s : M68kCpu σ} (h : 0 ≤ s.exceptionDepth) :
    ∃ t, exception v (ackHost k) s = .ok () t ∧ Processed v s t := by
  obtain ⟨t, ht, hp, -⟩ := exception_returns (k := k) v h
  exact ⟨t, ht, hp⟩

end Handles

/-! ## Exceptions that do not fault -/

section Flat

variable (raise : Nat → M σ Unit) {host : Host σ} (hflat : FlatHost host)
include hflat

theorem pushWith_unfaulted {size : M68kSize} (hsize : size ≠ .byte) (value : U32) {s : M68kCpu σ}
    (h : faultsAt size (s.aRegs 7 - size.bytes) s = false) :
    pushWith raise size value host s = .ok () (pushedOne size value s) := by
  have hlow : faultsAt size (s.aRegs 7 - size.bytes) (lowered size s) = false := h
  rw [pushWith_run raise hflat hsize, flatAccess_unfaulted _ _ _ _ _ _ hlow]
  by_cases hm : mapped s size (s.aRegs 7 - size.bytes) = true
  · have hm' : mapped (lowered size s) size (s.aRegs 7 - size.bytes) = true := hm
    rw [if_pos hm', pushedOne, if_pos hm]
    rfl
  · have hm' : ¬mapped (lowered size s) size (s.aRegs 7 - size.bytes) = true := hm
    rw [if_neg hm', pushedOne, if_neg hm]
    rfl

theorem pushAllWith_unfaulted {frame : List (M68kSize × U32)} (hframe : Pushable frame)
    {s : M68kCpu σ} (h : pushFaults frame s = false) :
    pushAllWith raise frame host s = .ok () (pushed frame s) := by
  induction frame generalizing s with
  | nil => rfl
  | cons e rest ih =>
    obtain ⟨size, value⟩ := e
    rw [pushFaults, Bool.or_eq_false_iff] at h
    have hrest : Pushable rest := fun e he => hframe e (List.mem_cons_of_mem _ he)
    rw [pushAllWith,
      bind_ok (pushWith_unfaulted raise hflat (hframe _ List.mem_cons_self) value h.1),
      ih hrest h.2, pushed]

/-- An exception whose accesses raise nothing, from any state. -/
theorem processException_delivers {v : Nat} {s : M68kCpu σ} (h : exceptionFaults v s = false) :
    processException raise v host s = .ok () (delivered v s) := by
  rw [exceptionFaults, Bool.or_eq_false_iff] at h
  obtain ⟨hpush, hvector⟩ := h
  have hfixed : (framed v s).vbr = s.vbr ∧ (framed v s).memorySize = s.memorySize ∧
      (framed v s).inAddressError = s.inAddressError ∧
      (framed v s).inBusError = s.inBusError := by
    rw [framed, pushed_eq, entered_eq]
    exact ⟨rfl, rfl, rfl, rfl⟩
  obtain ⟨hvbr, hsize, haddr, hbus⟩ := hfixed
  have hfaults : faultsAt .long (vectorAddress v s) (framed v s) = false := by
    rw [← hvector]
    simp only [faultsAt, mapped, isValidAddress, hsize, haddr, hbus]
  rw [processException_run,
    bind_ok (pushAllWith_unfaulted _ hflat (frameOf_pushable v s) hpush), modify_bind, gets_bind]
  have haddress : (clearFaultLatches (pushed (frameOf v s) (entered v s))).vbr +
      BitVec.ofNat 32 v * 4 = vectorAddress v s := congrArg (· + BitVec.ofNat 32 v * 4) hvbr
  rw [haddress]
  show (read32With _ _ >>= _) _ (framed v s) = _
  have hread : read32With raise (vectorAddress v s) host (framed v s) =
      .ok (entry (framed v s) (vectorAddress v s))
        ((framed v s).noted (.access .read .long (vectorAddress v s))) := by
    rw [hflat.read32, flatAccess_unfaulted _ _ _ _ _ _ hfaults, entry]
    have hodd := (Bool.or_eq_false_iff.mp hfaults).1
    simp only [misaligned] at hodd
    rw [hodd, Bool.false_or]
    cases mapped (framed v s) .long (vectorAddress v s) <;> rfl
  rw [bind_ok hread, bind_ok (hflat.setPc _ _)]
  rfl

end Flat

theorem exception_delivers {v : Nat} {s : M68kCpu σ}
    (k : Option (Nat → M68kCpu σ → M68kCpu σ × U32)) (h : exceptionFaults v s = false) :
    exception v (ackHost k) s = .ok () (delivered v s) := by
  rw [exception, exceptionAt_succ]
  exact processException_delivers _ (flatHost_ack k) h

end M68k
