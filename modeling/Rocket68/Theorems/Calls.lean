import Rocket68.Logic.Calls
import Rocket68.Nest.Basic

/-!
# Nested calls and frames

LINK and UNLK, and BSR or JSR and RTS, are the brackets of well-nested runs. Whatever runs
inside a bracket, as long as it keeps its hands off the live stack, the bracket takes down what
it built: stack pointer, frame pointers and the bytes above are those before it.
-/

namespace M68k

open Trap TrapM Nest

variable {σ : Type} {k : Option (Nat → M68kCpu σ → M68kCpu σ × U32)} {s t u v : M68kCpu σ}
  {top : Nat} {K : Fin 8 → Prop}

/-! ## The discipline -/

/-- Where the stack pointer points on the bus. -/
def stackPlace (s : M68kCpu σ) : Nat := (maskAddress24 (s.aRegs 7)).toNat

/-- From `s` to `u` the stack pointer, the address registers `K` and the stack below `top` are
kept. -/
structure Balanced (top : Nat) (K : Fin 8 → Prop) (s u : M68kCpu σ) : Prop where
  sp : u.aRegs 7 = s.aRegs 7
  aRegs : ∀ q, K q → u.aRegs q = s.aRegs q
  memory : ∀ a : U32, stackPlace s ≤ a.toNat → a.toNat < top → u.memory a = s.memory a

theorem Balanced.refl (top : Nat) (K : Fin 8 → Prop) (s : M68kCpu σ) : Balanced top K s s :=
  ⟨rfl, fun _ _ => rfl, fun _ _ _ => rfl⟩

theorem Balanced.trans (h : Balanced top K s t) (h' : Balanced top K t u) :
    Balanced top K s u := by
  have hplace : stackPlace t = stackPlace s := by rw [stackPlace, h.sp, stackPlace]
  refine ⟨h'.sp.trans h.sp, fun q hq => (h'.aRegs q hq).trans (h.aRegs q hq), fun a ha hb => ?_⟩
  exact (h'.memory a (hplace ▸ ha) hb).trans (h.memory a ha hb)

/-- `n` bytes can be pushed without leaving the bus, and the stack ends at `top`. -/
structure Room (top n : Nat) (s : M68kCpu σ) : Prop where
  low : n ≤ stackPlace s
  high : stackPlace s ≤ top

/-- The displacement of a LINK. -/
def linkDisplacement (s : M68kCpu σ) : U32 :=
  (wordAt s.memory (maskAddress24 (s.pc + 2))).signExtend 32

/-- A call, or a frame of register `r`. -/
inductive Bracket where
  | call
  | frame (r : Fin 8)

/-- The steps that open a bracket. -/
inductive Opens (k : Option (Nat → M68kCpu σ → M68kCpu σ × U32)) (top : Nat) :
    Bracket → M68kCpu σ → M68kCpu σ → Prop
  | call {s t : M68kCpu σ} (hop : isCall (opcodeAt s) = true) (hstep : Succeeds k s t)
      (hroom : Room top 4 s) : Opens k top .call s t
  | frame {s t : M68kCpu σ} (r : Fin 8) (size : Nat) (hop : opcodeAt s &&& 0xFFF8 = 0x4E50)
      (hr : field (opcodeAt s) 0 = r) (hne : r ≠ 7) (hstep : Succeeds k s t)
      (hsize : linkDisplacement s = -BitVec.ofNat 32 size) (hroom : Room top (4 + size) s) :
      Opens k top (.frame r) s t

/-- The steps that close one. -/
inductive Closes (k : Option (Nat → M68kCpu σ → M68kCpu σ × U32)) :
    Bracket → M68kCpu σ → M68kCpu σ → Prop
  | call {u v : M68kCpu σ} (hop : opcodeAt u = 0x4E75) (hstep : Succeeds k u v) :
      Closes k .call u v
  | frame {u v : M68kCpu σ} (r : Fin 8) (hop : opcodeAt u &&& 0xFFF8 = 0x4E58)
      (hr : field (opcodeAt u) 0 = r) (hstep : Succeeds k u v) : Closes k (.frame r) u v

/-- Steps that respect the stack, and brackets; inside a frame its register is respected too. -/
def discipline (k : Option (Nat → M68kCpu σ → M68kCpu σ × U32)) (top : Nat) :
    Bracketing (M68kCpu σ) (Fin 8 → Prop) Bracket where
  plain K s t := step (ackHost k) s = .ok () t ∧ Balanced top K s t
  opens := Opens k top
  closes := Closes k
  enter
    | .call, K => K
    | .frame r, K => fun q => q = r ∨ K q

/-! ## The saved value -/

theorem place_sub {a : U32} {n : Nat} (h : n ≤ (maskAddress24 a).toNat) :
    (maskAddress24 (a - BitVec.ofNat 32 n)).toNat = (maskAddress24 a).toNat - n := by
  rw [maskAddress24_toNat] at h
  rw [maskAddress24_toNat, maskAddress24_toNat, BitVec.toNat_sub, BitVec.toNat_ofNat]
  omega

/-- A pushed value outlives what keeps the stack, and so do the bytes above it. -/
theorem saved_kept {value : U32} {low : Nat} (hroom : Room top 4 s)
    (ht : t.memory = storeLong s.memory (maskAddress24 (s.aRegs 7 - 4)) value)
    (hlow : low ≤ stackPlace s - 4)
    (hu : ∀ a : U32, low ≤ a.toNat → a.toNat < top → u.memory a = t.memory a) :
    longAt u.memory (maskAddress24 (s.aRegs 7 - 4)) = value ∧
      ∀ a : U32, stackPlace s ≤ a.toNat → a.toNat < top → u.memory a = s.memory a := by
  obtain ⟨hfour, htop⟩ := hroom
  have hbus : stackPlace s < 2 ^ 24 := mask_lt _
  have hp : (maskAddress24 (s.aRegs 7 - 4)).toNat = stackPlace s - 4 := place_sub hfour
  generalize maskAddress24 (s.aRegs 7 - 4) = p at hp ht ⊢
  have hplus (i : Nat) (hi : i < 4) : (p + BitVec.ofNat 32 i).toNat = stackPlace s - 4 + i := by
    rw [BitVec.toNat_add, BitVec.toNat_ofNat, hp]
    omega
  have hbyte (i : Nat) (hi : i < 4) :
      u.memory (p + BitVec.ofNat 32 i) = t.memory (p + BitVec.ofNat 32 i) := by
    have hplace := hplus i hi
    exact hu _ (by omega) (by omega)
  constructor
  · have hfirst : u.memory p = t.memory p := hu p (by omega) (by omega)
    have hsecond : u.memory (p + 1) = t.memory (p + 1) := hbyte 1 (by decide)
    have hthird : u.memory (p + 2) = t.memory (p + 2) := hbyte 2 (by decide)
    have hfourth : u.memory (p + 3) = t.memory (p + 3) := hbyte 3 (by decide)
    have hlong : longAt u.memory p = longAt t.memory p := by
      rw [longAt, hfirst, hsecond, hthird, hfourth, longAt]
    rw [hlong, ht, longAt_storeLong]
  · intro a ha hatop
    have hne (i : Nat) (hi : i < 4) : a ≠ p + BitVec.ofNat 32 i := by
      have hplace := hplus i hi
      rintro rfl
      omega
    have hzero : a ≠ p := by
      rintro rfl
      omega
    rw [hu a (by omega) hatop, ht]
    exact storeLong_other s.memory p value hzero (hne 1 (by decide)) (hne 2 (by decide))
      (hne 3 (by decide))

/-! ## Brackets -/

/-- A completed instruction is as any judgement about its handler says. -/
theorem Succeeds.yields (h : Succeeds k s u) {R : Core → Core → Prop}
    (hm : Yields k (dispatch (opcodeAt s) : M σ Int) fun _ => R) : R (entryCore s) (core u) := by
  obtain ⟨t, ht, hcore⟩ := h.retires
  obtain ⟨-, hR⟩ := ht.yields hm
  rw [hcore]
  exact hR

/-- The callee returns behind the call, and finds the stack as the call found it. -/
theorem call_balanced (hopen : Opens k top .call s t) (inner : Balanced top K t u)
    (hclose : Closes k .call u v) :
    Balanced top K s v ∧ v.pc = returnAddress (opcodeAt s) s.pc := by
  obtain ⟨hop, hstep, hroom⟩ := hopen
  obtain ⟨hrts, hreturn⟩ := hclose
  have hcall := hstep.yields (call_pushes hop)
  have hpop := hreturn.yields (rts_pops hrts)
  have hsp : t.aRegs 7 = s.aRegs 7 - 4 := hcall.sp
  have htop : u.aRegs 7 = s.aRegs 7 - 4 := inner.sp.trans hsp
  have hlow : stackPlace t = stackPlace s - 4 := by
    rw [stackPlace, hsp]
    exact place_sub hroom.low
  have hpc : (entryCore s).pc - 2 = s.pc := BitVec.add_sub_cancel s.pc 2
  have hpushed : t.memory = storeLong s.memory (maskAddress24 (s.aRegs 7 - 4))
      (returnAddress (opcodeAt s) s.pc) := hpc ▸ hcall.memory
  obtain ⟨hsaved, habove⟩ := saved_kept hroom hpushed (Nat.le_of_eq hlow) inner.memory
  have hmemory : v.memory = u.memory := hpop.memory
  refine ⟨⟨?_, fun q hq => ?_, fun a ha hatop => ?_⟩, ?_⟩
  · have hback : v.aRegs 7 = u.aRegs 7 + 4 := hpop.sp
    rw [hback, htop, BitVec.sub_add_cancel]
  · by_cases h7 : q = 7
    · have hback : v.aRegs 7 = u.aRegs 7 + 4 := hpop.sp
      rw [h7, hback, htop, BitVec.sub_add_cancel]
    · exact (hpop.aRegs q h7).trans ((inner.aRegs q hq).trans (hcall.aRegs q h7))
  · rw [hmemory]
    exact habove a ha hatop
  · have htarget : v.pc = longAt u.memory (maskAddress24 (u.aRegs 7)) := hpop.pc
    rw [htarget, htop, hsaved]

/-- A frame gives its register back the value it had, and the stack pointer too. -/
theorem frame_balanced {r : Fin 8} (hopen : Opens k top (.frame r) s t)
    (inner : Balanced top (fun q => q = r ∨ K q) t u) (hclose : Closes k (.frame r) u v) :
    Balanced top K s v ∧ longAt u.memory (maskAddress24 (u.aRegs r)) = s.aRegs r ∧
      v.aRegs r = s.aRegs r := by
  cases hopen with
  | frame r size hop hr hne hstep hsize hroom =>
  cases hclose with
  | frame r hunlk hr' hlast =>
  have hlink := hstep.yields (link_links hop (hr ▸ hne))
  have hunlink := hlast.yields (unlk_unlinks hunlk (hr' ▸ hne))
  rw [hr] at hlink
  rw [hr'] at hunlink
  have hframe : u.aRegs r = s.aRegs 7 - 4 := (inner.aRegs r (.inl rfl)).trans hlink.frame
  have hlow : stackPlace t = stackPlace s - (4 + size) := by
    have hsp : t.aRegs 7 = s.aRegs 7 - BitVec.ofNat 32 (4 + size) := by
      have hdown : t.aRegs 7 = s.aRegs 7 - 4 + linkDisplacement s := hlink.sp
      rw [hdown, hsize, BitVec.ofNat_add]
      grind
    rw [stackPlace, hsp]
    exact place_sub hroom.low
  have hfour : Room top 4 s := ⟨Nat.le_trans (Nat.le_add_right 4 size) hroom.low, hroom.high⟩
  obtain ⟨hsaved, habove⟩ := saved_kept hfour hlink.memory (by omega) inner.memory
  have hmemory : v.memory = u.memory := hunlink.memory
  have hsp : v.aRegs 7 = s.aRegs 7 := by
    have hback : v.aRegs 7 = u.aRegs r + 4 := hunlink.sp
    rw [hback, hframe, BitVec.sub_add_cancel]
  have hregister : v.aRegs r = s.aRegs r := by
    have hback : v.aRegs r = longAt u.memory (maskAddress24 (u.aRegs r)) := hunlink.register
    rw [hback, hframe]
    exact hsaved
  refine ⟨⟨hsp, fun q hq => ?_, fun a ha hatop => ?_⟩, hframe ▸ hsaved, hregister⟩
  · by_cases h7 : q = 7
    · rw [h7, hsp]
    · by_cases hqr : q = r
      · rw [hqr, hregister]
      · exact (hunlink.aRegs q hqr h7).trans
          ((inner.aRegs q (.inr hq)).trans (hlink.aRegs q hqr h7))
  · rw [hmemory]
    exact habove a ha hatop

/-! ## Runs -/

/-- A well-nested run is balanced, however deep and long it is. -/
theorem nested_balanced (h : Nested (discipline k top) K s u) : Balanced top K s u :=
  h.keeps (K := Balanced top) (fun K s => .refl top K s) .trans And.right
    fun {K b s t u v} hopen inner hclose => by
      cases b with
      | call => exact (call_balanced hopen inner hclose).1
      | frame r => exact (frame_balanced hopen inner hclose).1

/-- Nested calls and frames unwind: at the end the stack pointer, the registers that plain steps
respect and the bytes above the stack pointer are as at the beginning. -/
theorem calls_unwind (h : Nested (discipline k top) K s u) :
    u.aRegs 7 = s.aRegs 7 ∧ (∀ q, K q → u.aRegs q = s.aRegs q) ∧
      ∀ a : U32, stackPlace s ≤ a.toNat → a.toNat < top → u.memory a = s.memory a :=
  have hbalanced := nested_balanced h
  ⟨hbalanced.sp, hbalanced.aRegs, hbalanced.memory⟩

/-- Every RTS of a well-nested run returns behind the call it answers. -/
theorem calls_return (hopen : (discipline k top).opens .call s t)
    (inner : Nested (discipline k top) K t u) (hclose : (discipline k top).closes .call u v) :
    v.pc = returnAddress (opcodeAt s) s.pc :=
  (call_balanced hopen (nested_balanced inner) hclose).2

/-- Every UNLK finds in its frame the value that LINK pushed, and restores it. -/
theorem frames_restore {r : Fin 8} (hopen : (discipline k top).opens (.frame r) s t)
    (inner : Nested (discipline k top) (fun q => q = r ∨ K q) t u)
    (hclose : (discipline k top).closes (.frame r) u v) :
    longAt u.memory (maskAddress24 (u.aRegs r)) = s.aRegs r ∧ v.aRegs r = s.aRegs r :=
  (frame_balanced hopen (nested_balanced inner) hclose).2

/-! ## A call with a frame -/

/-- `m68k_step`, where it returns. -/
def after (s : M68kCpu Unit) : M68kCpu Unit := (exec? step (Host.none Unit) s).getD s

theorem succeeds_after {s : M68kCpu Unit}
    (hrun : (exec? step (Host.none Unit) s).map (·.exceptionThrown) = some 0)
    (hgoing : s.stopped = false) (hdue : interruptDue s = false) : Succeeds none s (after s) := by
  obtain ⟨u, hu, hquiet⟩ := Option.map_eq_some_iff.mp hrun
  have hafter : after s = u := by rw [after, hu, Option.getD_some]
  rw [hafter]
  exact ⟨ok_of_exec? hu, hgoing, hdue, hquiet⟩

/-- BSR to LINK A6,#-8; BSR; UNLK A6; RTS. The inner call is to LINK A5,#0; UNLK A5; RTS. -/
def callCode : M68kCpu Unit :=
  { init (fun a => [0x61, 0x02, 0, 0, 0x4E, 0x56, 0xFF, 0xF8, 0x61, 0x04, 0x4E, 0x5E, 0x4E, 0x75,
      0x4E, 0x55, 0, 0, 0x4E, 0x5D, 0x4E, 0x75].getD a.toNat 0) 0x1000 () with
    aRegs := fun q => if q = 7 then 0x800 else 0x1230 + q.val }

/-- The states after it, one a step. -/
def callState (n : Nat) : M68kCpu Unit := after^[n] callCode

theorem callState_succeeds : ∀ n : Fin 8, Succeeds none (callState n) (after (callState n)) := by
  have key : ∀ n : Fin 8,
      (exec? step (Host.none Unit) (callState n)).map (·.exceptionThrown) = some 0 ∧
        (callState n).stopped = false ∧ interruptDue (callState n) = false := by decide +kernel
  intro n
  obtain ⟨hrun, hgoing, hdue⟩ := key n
  exact succeeds_after hrun hgoing hdue

theorem callState_opens_call : Opens none 0x1000 .call (callState 0) (after (callState 0)) :=
  .call (by decide +kernel) (callState_succeeds 0) ⟨by decide +kernel, by decide +kernel⟩

theorem callState_opens_frame : Opens none 0x1000 (.frame 6) (callState 1) (after (callState 1)) :=
  .frame 6 8 (by decide +kernel) (by decide +kernel) (by decide) (callState_succeeds 1)
    (by decide +kernel) ⟨by decide +kernel, by decide +kernel⟩

theorem callState_opens_inner : Opens none 0x1000 .call (callState 2) (after (callState 2)) :=
  .call (by decide +kernel) (callState_succeeds 2) ⟨by decide +kernel, by decide +kernel⟩

theorem callState_opens_leaf : Opens none 0x1000 (.frame 5) (callState 3) (after (callState 3)) :=
  .frame 5 0 (by decide +kernel) (by decide +kernel) (by decide) (callState_succeeds 3)
    (by decide +kernel) ⟨by decide +kernel, by decide +kernel⟩

theorem callState_closes_leaf : Closes none (.frame 5) (callState 4) (after (callState 4)) :=
  .frame 5 (by decide +kernel) (by decide +kernel) (callState_succeeds 4)

theorem callState_closes_inner : Closes none .call (callState 5) (after (callState 5)) :=
  .call (by decide +kernel) (callState_succeeds 5)

theorem callState_closes_frame : Closes none (.frame 6) (callState 6) (after (callState 6)) :=
  .frame 6 (by decide +kernel) (by decide +kernel) (callState_succeeds 6)

theorem callState_closes_call : Closes none .call (callState 7) (after (callState 7)) :=
  .call (by decide +kernel) (callState_succeeds 7)

/-- What runs inside the outer frame, whichever registers are kept there. -/
theorem callState_inner (K : Fin 8 → Prop) :
    Nested (discipline none 0x1000) K (callState 2) (callState 6) :=
  .bracket .call callState_opens_inner
    (.bracket (.frame 5) callState_opens_leaf (.done _ (callState 4)) callState_closes_leaf
      (.done _ (callState 5)))
    callState_closes_inner (.done _ (callState 6))

theorem callState_frame : Nested (discipline none 0x1000) (fun _ => True) (callState 1)
    (callState 7) :=
  .bracket (.frame 6) callState_opens_frame (callState_inner _) callState_closes_frame
    (.done _ (callState 7))

theorem callState_call : Nested (discipline none 0x1000) (fun _ => True) (callState 0)
    (callState 8) :=
  .bracket .call callState_opens_call callState_frame callState_closes_call
    (.done _ (callState 8))

theorem calls_unwind_frame : (callState 8).aRegs 7 = (callState 0).aRegs 7 ∧
    (∀ q : Fin 8, True → (callState 8).aRegs q = (callState 0).aRegs q) ∧
      ∀ a : U32, stackPlace (callState 0) ≤ a.toNat → a.toNat < 0x1000 →
        (callState 8).memory a = (callState 0).memory a :=
  calls_unwind callState_call

theorem calls_return_frame :
    (callState 8).pc = returnAddress (opcodeAt (callState 0)) (callState 0).pc :=
  calls_return callState_opens_call callState_frame callState_closes_call

theorem frames_restore_frame :
    longAt (callState 6).memory (maskAddress24 ((callState 6).aRegs 6)) = (callState 1).aRegs 6 ∧
      (callState 7).aRegs 6 = (callState 1).aRegs 6 :=
  frames_restore (K := fun _ => True) callState_opens_frame (callState_inner _)
    callState_closes_frame

end M68k
