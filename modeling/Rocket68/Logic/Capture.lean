import Rocket68.Logic.Group0

/-!
# What a fault captures

A faulting access latches its address, its direction, its address space and the
instruction word. `Micro.captures` follows the two latches that mark an access:
the program space bracket is open exactly around the read of a PC-relative operand,
and the bus word is not marked outside MOVE to a predecremented address.
-/

namespace M68k

open Trap TrapM

variable {σ α : Type} {k : Option (Nat → M68kCpu σ → M68kCpu σ × U32)} {g : Grade} {p q : Phase}
  {s t u : M68kCpu σ} {inside : Bool}

/-- A running instruction begun in `s` that has met nothing, with the program space
bracket as `inside` says and no marked bus word. -/
structure Clean (inside : Bool) (s u : M68kCpu σ) : Prop where
  running : Running u
  wiring : wiring u = wiring (fetched s)
  space : u.operandProgramSpace = inside
  busWord : u.faultBusWordValid = false
  quiet : Quiet u.log
  sr : ∀ i, 5 ≤ i → u.sr.getLsbD i = s.sr.getLsbD i

/-- The fields a clean instruction is about. -/
structure Watched (σ : Type) where
  trapActive : Bool
  group0 : Bool
  thrown : Nat
  wiring : Wiring σ
  space : Bool
  busWord : Bool
  log : List Event
  sr : U16

def watched (u : M68kCpu σ) : Watched σ where
  trapActive := u.faultTrapActive
  group0 := u.group0Fault
  thrown := u.exceptionThrown
  wiring := wiring u
  space := u.operandProgramSpace
  busWord := u.faultBusWordValid
  log := u.log
  sr := u.sr

/-- How an instruction begun in `s` is unwound: by a faulting access, which is to
program space if it is a fetch or the read of a relative operand, or by an invalid
effective address. Only if `writes` may the access be a write. -/
inductive Captured (k : Option (Nat → M68kCpu σ → M68kCpu σ × U32)) (relative writes : Bool)
    (s : M68kCpu σ) : M68kCpu σ → Prop
  | fault {u w : M68kCpu σ} {kind : Access} {size : M68kSize} {address : U32}
      (hkind : kind = .write → writes = true) (hu : Clean (kind == .read && relative) s u)
      (hacc : accessible u size address = false)
      (h : exception (faultVector size address) (ackHost k) (faulting kind size address u) =
        .ok () w) : Captured k relative writes s (holdGuard (faultVector size address) false w)
  | illegalEa {u t : M68kCpu σ} (hu : Quiet u.log) (hd : u.exceptionDepth = 0)
      (h : exception 4 (ackHost k) u = .ok () t) : Captured k relative writes s t

namespace Clean

theorem congr (h : Clean inside s u) (hw : watched t = watched u) : Clean inside s t := by
  have hwiring : M68k.wiring t = M68k.wiring u := congrArg Watched.wiring hw
  have hlog : t.log = u.log := congrArg Watched.log hw
  have hsr : t.sr = u.sr := congrArg Watched.sr hw
  exact
    { running :=
        { trapActive := (congrArg Watched.trapActive hw).trans h.running.trapActive
          depth := (congrArg Wiring.exceptionDepth hwiring).trans h.running.depth
          addressGuard := (congrArg Wiring.inAddressError hwiring).trans h.running.addressGuard
          busGuard := (congrArg Wiring.inBusError hwiring).trans h.running.busGuard
          group0 := (congrArg Watched.group0 hw).trans h.running.group0
          thrown := (congrArg Watched.thrown hw).trans h.running.thrown }
      wiring := hwiring.trans h.wiring
      space := (congrArg Watched.space hw).trans h.space
      busWord := (congrArg Watched.busWord hw).trans h.busWord
      quiet := hlog ▸ h.quiet
      sr := hsr ▸ h.sr }

theorem supervisor (h : Clean inside s u) : u.supervisor = s.supervisor := by
  rw [supervisor_eq, supervisor_eq]
  exact h.sr 13 (by decide)

theorem noted (h : Clean inside s u) (kind : Access) (size : M68kSize) (address : U32) :
    Clean inside s (u.noted (.access kind size address)) :=
  ⟨⟨h.1.1, h.1.2, h.1.3, h.1.4, h.1.5, h.1.6⟩, h.2, h.3, h.4, h.quiet.cons _ _ _, h.6⟩

/-- Condition codes are not part of it, where the unused bits below the system byte
are clear. -/
theorem ccr (h : Clean inside s u) (hunused : ∀ i, 5 ≤ i → i < 8 → s.sr.getLsbD i = false)
    {sr : U16} (hsr : CcrOnly u.sr sr) : Clean inside s { u with sr := sr } := by
  refine ⟨⟨h.1.1, h.1.2, h.1.3, h.1.4, h.1.5, h.1.6⟩, h.2, h.3, h.4, h.5, fun i hi => ?_⟩
  rcases hsr i hi with heq | ⟨h8, hclear⟩
  · exact heq.trans (h.sr i hi)
  · rw [hclear, hunused i hi h8]

theorem bracket (h : Clean inside s u) (b : Bool) :
    Clean b s { u with operandProgramSpace := b } :=
  ⟨⟨h.1.1, h.1.2, h.1.3, h.1.4, h.1.5, h.1.6⟩, h.2, rfl, h.4, h.5, h.6⟩

/-- An access of a clean instruction. -/
theorem access (h : Clean inside s u) {relative writes : Bool} {kind : Access}
    (hwrite : kind = .write → writes = true) (size : M68kSize) (address : U32)
    {hit miss : M68kCpu σ → M68kCpu σ × α} {dead : α}
    (hkind : inside = (kind == .read && relative))
    (hhit : Clean inside s (hit (u.noted (.access kind size address))).1) :
    wp (flatAccess exception kind size address hit miss dead) (ackHost k)
      (fun _ t => Clean inside s t) (Captured k relative writes s) u := by
  refine wp_mono (flatAccess_running h.running kind size address hit miss dead) ?_ ?_
  · rintro a t ⟨-, -, rfl⟩
    exact hhit
  · rintro t ⟨hacc, w, hw, rfl⟩
    exact .fault hwrite (hkind ▸ h) hacc hw

end Clean

/-- An operation of a clean instruction leaves it clean until it is finished. -/
theorem Op.captures {m : M σ α} (h : Op g p q m)
    (hunused : ∀ i, 5 ≤ i → i < 8 → s.sr.getLsbD i = false)
    (hc : p ≤ .commit → Clean g.inside s u) :
    wp m (ackHost k) (fun _ t => q ≤ .commit → Clean g.inside s t)
      (Captured k g.relative true s) u := by
  have hraise (v : Nat) (hp : p ≤ .commit) :
      wp (exception v : M σ Unit) (ackHost k)
        (fun _ t => Phase.finished ≤ .commit → Clean g.inside s t)
          (Captured k g.relative true s) u := by
    obtain ⟨t, ht, -⟩ := exception_processed (k := k) v (Int.le_of_eq (hc hp).running.depth.symm)
    exact (wp_of_ok ht).mpr fun h => absurd h (by decide)
  have htarget (v : Nat) (target faultPc : U32) (hp : p ≤ .commit) {m : M σ Unit}
      (hm : ∀ t, exception v (ackHost k) (targetFaulting v target faultPc u) = .ok () t →
        m (ackHost k) u = .ok () (holdGuard v false t)) :
      wp m (ackHost k) (fun _ t => Phase.finished ≤ .commit → Clean g.inside s t)
        (Captured k g.relative true s) u := by
    obtain ⟨t, ht⟩ := raiseTargetFault_run (k := k) (v := v) target faultPc
      (Int.le_of_eq (hc hp).running.depth.symm)
    exact (wp_of_ok (hm t ht)).mpr fun h => absurd h (by decide)
  have hread [hr : Reading g] {size : M68kSize} {address : U32}
      {hit miss : M68kCpu σ → M68kCpu σ × α} {dead : α} (hp : ReadPhase g p)
      (hhit : ∀ t, (hit t).1 = t) :
      wp (flatAccess exception .read size address hit miss dead) (ackHost k)
        (fun _ t => p ≤ .commit → Clean g.inside s t) (Captured k g.relative true s) u := by
    have hclean := hc (hp.elim (Phase.le_trans · before) (·.2))
    refine wp_mono (hclean.access (fun _ => rfl) size address hr.inside ?_)
      (fun _ _ h _ => h) fun _ h => h
    rw [hhit]
    exact hclean.noted _ _ _
  have hwrite [ho : Outside g] {size : M68kSize} {address : U32}
      {hit miss : M68kCpu σ → M68kCpu σ × Unit} (hp : p ≤ .commit)
      (hhit : ∀ t, watched (hit t).1 = watched t) :
      wp (flatAccess exception .write size address hit miss ()) (ackHost k)
        (fun _ t => Phase.commit ≤ .commit → Clean g.inside s t)
          (Captured k g.relative true s) u := by
    refine wp_mono ((hc hp).access (fun _ => rfl) size address ho.inside ?_)
      (fun _ _ h _ => h) fun _ h => h
    exact ((hc hp).noted _ _ _).congr (hhit _)
  cases h with
  | get => exact hc
  | charge => exact fun hq => (hc hq).congr rfl
  | latchFaultPc hp | rewind hp => exact fun _ => (hc hp).congr rfl
  | dropBusWord hp =>
    have hclean := hc hp
    exact fun _ => ⟨⟨hclean.1.1, hclean.1.2, hclean.1.3, hclean.1.4, hclean.1.5, hclean.1.6⟩,
      hclean.2, hclean.3, rfl, hclean.5, hclean.6⟩
  | @dropProgramSpace ho _ hp =>
    have hclean : Clean g.inside s { u with operandProgramSpace := false } := by
      rw [ho.inside]
      exact (hc hp).bracket false
    exact fun _ => hclean
  | peekWord _ address =>
    obtain ⟨v, hv⟩ := peekWord_run (k := k) address u
    exact (wp_of_ok hv).mpr hc
  | isUnmappedTarget _ target => exact (wp_of_ok (isUnmappedTarget_run target u)).mpr hc
  | tasAllowsWrite | resetHook => exact hc
  | @fetch ho _ hp =>
    have hclean := hc (Phase.le_trans hp before)
    unfold wp
    rw [fetch_flat]
    refine wp_mono (hclean.access (fun _ => rfl) .word u.pc ho.inside ?_)
      (fun _ _ h _ => h) fun _ h => h
    exact (hclean.noted _ _ _).congr rfl
  | read8 hp address =>
    unfold wp M68k.read8
    rw [read8With_flat]
    exact hread hp fun _ => rfl
  | read16 hp address =>
    unfold wp M68k.read16
    rw [read16With_flat]
    exact hread hp fun _ => rfl
  | read32 hp address =>
    unfold wp M68k.read32
    rw [read32With_flat]
    exact hread hp fun _ => rfl
  | write8 hp address v =>
    unfold wp M68k.write8
    rw [write8With_flat]
    exact hwrite hp fun _ => rfl
  | write16 hp address v =>
    unfold wp M68k.write16
    rw [write16With_flat]
    exact hwrite hp fun _ => rfl
  | write32 hp address v =>
    unfold wp M68k.write32
    rw [write32With_flat]
    exact hwrite hp fun _ => rfl
  | setA hp | setD hp | setUsp _ _ hp => exact fun _ => (hc hp).congr rfl
  | modifySr hp hf => exact fun _ => (hc hp).ccr hunused (hf u.sr)
  | @setPc _ hp v =>
    refine fun hq => (hc ?_).congr rfl
    exact Phase.le_trans p.le_committed hq
  | @writeControl _ _ hp c => exact fun _ => (hc hp).congr (by cases c <;> rfl)
  | setSr | stop => exact fun hq => absurd hq (by decide)
  | illegal | violation => exact hraise _ before
  | illegalEa =>
    obtain ⟨t, ht, hescape⟩ := raiseIllegalEa_run (k := k) (hc before).running
    exact (wp_of_trap hescape).mpr (.illegalEa (hc before).quiet (hc before).running.depth ht)
  | trap _ _ hp => exact hraise _ hp
  | oddTarget hp target faultPc =>
    exact htarget 3 target faultPc hp fun t ht => (bind_ok ht).trans rfl
  | busTarget hp target faultPc =>
    exact htarget 2 target faultPc hp fun t ht => (bind_ok ht).trans rfl

/-- So does a disciplined program that marks no bus word. -/
theorem Micro.captures {m : M σ α} (h : Micro g p q m) (hmarks : g.marks = false)
    (hsup : g.supervisor = s.supervisor)
    (hunused : ∀ i, 5 ≤ i → i < 8 → s.sr.getLsbD i = false)
    (hc : p ≤ .commit → Clean g.inside s u) :
    wp m (ackHost k) (fun _ t => q ≤ .commit → Clean g.inside s t)
      (Captured k g.relative true s) u := by
  induction h generalizing u with
  | op h => exact h.captures hunused hc
  | pure a => exact hc
  | seq _ _ ihm ihf =>
    rw [wp_bind]
    exact wp_mono (ihm hmarks hsup hc) (fun a t ht => ihf a hmarks hsup ht) fun _ h => h
  | weaken hp hq _ ih =>
    refine wp_mono (ih hmarks hsup fun h => hc (Phase.le_trans hp h))
      (fun _ t ht h => ht ?_) fun _ h => h
    exact Phase.le_trans hq h
  | @privileged g _ q body _ ih =>
    rw [M68k.privileged, M68k.getSr, wp_bind, wp_gets]
    refine wp_ite (fun _ => ?_) fun hS => ?_
    · obtain ⟨t, ht, -⟩ := exception_processed (k := k) 8 (s := { u with pc := u.pc - 2 })
        (Int.le_of_eq (hc before).running.depth.symm)
      have hviolation : M68k.privilegeViolation (ackHost k) u = .ok () t := ht
      exact (wp_of_ok hviolation).mpr fun h => absurd h (by decide)
    · have hsupervisor : g.supervisor = true := by
        rw [hsup, ← (hc before).supervisor]
        simpa [M68kCpu.supervisor] using hS
      exact wp_mono (ih hsupervisor hmarks hsup hc)
        (fun _ _ _ h => absurd h (by decide)) fun _ h => h
  | @programSpace g ho p q r _ _ body f hrel hp hr hbody _ ihb ihf =>
    have hinside : g.inside = false := ho.inside
    rw [wp_bind]
    show wp _ _ _ _ { u with operandProgramSpace := true }
    rw [wp_bind]
    refine wp_mono (ihb hmarks hsup fun _ => (hc hp).bracket true) (fun a t ht => ?_) fun _ h => h
    rw [wp_bind]
    show wp _ _ _ _ { t with operandProgramSpace := false }
    refine ihf a hmarks hsup fun _ => ?_
    rw [hinside]
    exact (ht hr).bracket false
  | busWord hm =>
    rw [hmarks] at hm
    cases hm

/-! ## Resolving a source operand -/

/-- The bytes of the extension words of an operand. -/
def extensionBytes (mode reg : Fin 8) (size : M68kSize) : U32 :=
  match mode with
  | 5 | 6 => 2
  | 7 =>
      match reg with
      | 0 | 2 | 3 => 2
      | 1 => 4
      | 4 => if size = .long then 4 else 2
      | _ => 0
  | _ => 0

/-- From `inside` to `inside'` the program advances the PC by `n`, leaves memory alone
and writes nothing, nor, if it `keeps` them, an address register. -/
def Source (k : Option (Nat → M68kCpu σ → M68kCpu σ × U32)) (s : M68kCpu σ)
    (relative keeps inside inside' : Bool) (n : U32) (m : M σ α) : Prop :=
  ∀ u, Clean inside s u →
    wp m (ackHost k)
      (fun _ t => Clean inside' s t ∧ t.pc = u.pc + n ∧ t.memory = u.memory ∧
        (keeps = true → t.aRegs = u.aRegs))
      (Captured k relative false s) u

namespace Source

variable {β : Type} {relative keeps inside' inside'' : Bool} {n n' : U32}

theorem pure (a : α) : Source k s relative keeps inside inside 0 (pure a : M σ α) :=
  fun u hu => ⟨hu, by simp, rfl, fun _ => rfl⟩

theorem seq {m : M σ α} {f : α → M σ β} (hm : Source k s relative keeps inside inside' n m)
    (hf : ∀ a, Source k s relative keeps inside' inside'' n' (f a)) :
    Source k s relative keeps inside inside'' (n + n') (m >>= f) := by
  intro u hu
  rw [wp_bind]
  refine wp_mono (hm u hu) ?_ fun _ h => h
  rintro a t ⟨ht, hpc, hmem, hregs⟩
  refine wp_mono (hf a t ht) ?_ fun _ h => h
  rintro b v ⟨hv, hpc', hmem', hregs'⟩
  exact ⟨hv, by rw [hpc', hpc, BitVec.add_assoc], hmem'.trans hmem,
    fun h => (hregs' h).trans (hregs h)⟩

/-- A step that moves nothing. -/
theorem still {m : M σ α} {f : α → M σ β} (hm : Source k s relative keeps inside inside' 0 m)
    (hf : ∀ a, Source k s relative keeps inside' inside'' n (f a)) :
    Source k s relative keeps inside inside'' n (m >>= f) := by
  have hzero : (0 : U32) + n = n := BitVec.zero_add n
  rw [← hzero]
  exact hm.seq hf

theorem gets (f : M68kCpu σ → α) : Source k s relative keeps inside inside 0 (gets f) :=
  fun u hu => ⟨hu, by simp, rfl, fun _ => rfl⟩

/-- An update of registers that are not watched. -/
theorem modify {f : M68kCpu σ → M68kCpu σ} (hf : ∀ u, watched (f u) = watched u)
    (hpc : ∀ u, (f u).pc = u.pc) (hmem : ∀ u, (f u).memory = u.memory)
    (hregs : keeps = true → ∀ u, (f u).aRegs = u.aRegs) :
    Source k s relative keeps inside inside 0 (modify f) :=
  fun u hu => ⟨hu.congr (hf u), by simp [hpc], hmem u, fun h => hregs h u⟩

theorem charge (c : Int) : Source k s relative keeps inside inside 0 (charge c : M σ Unit) :=
  .modify (fun _ => rfl) (fun _ => rfl) (fun _ => rfl) fun _ _ => rfl

theorem setA (hkeeps : keeps = true → False) (r : Fin 8) (v : U32) :
    Source k s relative keeps inside inside 0 (setA r v : M σ Unit) :=
  .modify (fun _ => rfl) (fun _ => rfl) (fun _ => rfl) fun h => (hkeeps h).elim

theorem latchFaultPc (v : U32) :
    Source k s relative keeps inside inside 0 (latchFaultPc v : M σ Unit) :=
  .modify (fun _ => rfl) (fun _ => rfl) (fun _ => rfl) fun _ _ => rfl

theorem setProgramSpace (b : Bool) :
    Source k s relative keeps inside b 0 (setProgramSpace b : M σ Unit) :=
  fun u hu => ⟨hu.bracket b, by simp, rfl, fun _ => rfl⟩

/-- An access that is not a write. -/
theorem access (hu : Clean inside s u) (kind : Access) (hkind : kind ≠ .write)
    (hspace : inside = (kind == .read && relative)) (size : M68kSize) (address : U32)
    {hit miss : M68kCpu σ → M68kCpu σ × α} {dead : α} (hw : ∀ t, watched (hit t).1 = watched t)
    (hpc : ∀ t, (hit t).1.pc = t.pc + n) (hmem : ∀ t, (hit t).1.memory = t.memory)
    (hregs : ∀ t, (hit t).1.aRegs = t.aRegs) :
    wp (flatAccess exception kind size address hit miss dead) (ackHost k)
      (fun _ t => Clean inside s t ∧ t.pc = u.pc + n ∧ t.memory = u.memory ∧
        (keeps = true → t.aRegs = u.aRegs))
      (Captured k relative false s) u := by
  refine wp_mono (flatAccess_running hu.running kind size address hit miss dead) ?_ ?_
  · rintro a t ⟨-, -, rfl⟩
    exact ⟨(hu.noted _ _ _).congr (hw _), hpc _, hmem _, fun _ => hregs _⟩
  · rintro t ⟨hacc, w, hw, rfl⟩
    exact .fault (fun h => absurd h hkind) (hspace ▸ hu) hacc hw

theorem fetch : Source k s relative keeps false false 2 (fetch : M σ U16) := by
  intro u hu
  unfold wp
  rw [fetch_flat]
  exact access hu .fetch (by decide) rfl .word u.pc (fun _ => rfl) (fun _ => rfl) (fun _ => rfl)
    fun _ => rfl

theorem readSize (address : U32) (size : M68kSize) :
    Source k s relative keeps relative relative 0 (readSize address size : M σ U32) := by
  have hread {α : Type} {value : M68kCpu σ → α} {miss : M68kCpu σ → M68kCpu σ × α} {dead : α}
      {m : M σ α} (size : M68kSize)
      (hm : ∀ u, m (ackHost k) u =
        flatAccess exception .read size address (fun t => (t, value t)) miss dead (ackHost k) u) :
      Source k s relative keeps relative relative 0 m := by
    intro u hu
    unfold wp
    rw [hm]
    exact access hu .read (by decide) rfl size address (fun _ => rfl)
      (fun _ => (BitVec.add_zero _).symm) (fun _ => rfl) fun _ => rfl
  cases size with
  | byte => exact .still (hread .byte (read8With_flat exception k address)) fun _ => .pure _
  | word => exact .still (hread .word (read16With_flat exception k address)) fun _ => .pure _
  | long => exact hread .long (read32With_flat exception k address)

theorem indexValue (ext : U16) :
    Source k s relative keeps false false 0 (indexValue ext : M σ U32) := by
  unfold M68k.indexValue
  dsimp only
  split
  · exact .still (.gets _) fun _ => .pure _
  · exact .still (.gets _) fun _ => .pure _

theorem setFaultPc (mode reg : Fin 8) (size : M68kSize) :
    Source k s relative keeps false false 0 (setFaultPc mode reg size : M σ Unit) := by
  unfold M68k.setFaultPc
  cases faultPcOffset mode reg size with
  | none => exact .pure ()
  | some offset => exact .still (.gets _) fun _ => .latchFaultPc _

theorem eaMemory (address : U32) (size : M68kSize) :
    Source k s false keeps false false 0 (eaMemory address size true : M σ Ea) :=
  .still (.readSize address size) fun _ => .pure _

theorem eaProgram (address : U32) (size : M68kSize) :
    Source k s true keeps false false 0 (eaProgram address size true : M σ Ea) :=
  .still (.setProgramSpace true) fun _ => .still (.readSize address size) fun _ =>
    .still (.setProgramSpace false) fun _ => .pure _

theorem last {m : M σ α} {f : α → M σ β} (hm : Source k s relative keeps inside inside' n m)
    (hf : ∀ a, Source k s relative keeps inside' inside'' 0 (f a)) :
    Source k s relative keeps inside inside'' n (m >>= f) := by
  have hzero : n + (0 : U32) = n := BitVec.add_zero n
  rw [← hzero]
  exact hm.seq hf

theorem fetchLong : Source k s relative keeps false false 4 (fetchLong : M σ U32) := by
  show Source k s relative keeps false false (2 + 2) _
  exact .seq .fetch fun _ => .last .fetch fun _ => .pure _

theorem eaImmediate (size : M68kSize) :
    Source k s relative keeps false false (if size = .long then 4 else 2)
      (eaImmediate size : M σ Ea) := by
  cases size with
  | byte => exact .last .fetch fun _ => .pure _
  | word => exact .last .fetch fun _ => .pure _
  | long => exact .last .fetchLong fun _ => .pure _

theorem raiseIllegalEa : Source k s relative keeps false false n (raiseIllegalEa : M σ Unit) := by
  intro u hu
  obtain ⟨t, ht, hescape⟩ := raiseIllegalEa_run (k := k) hu.running
  exact (wp_of_trap hescape).mpr (.illegalEa hu.quiet hu.running.depth ht)

theorem calcEaMode7 (reg : Fin 8) (size : M68kSize) (hrel : relative = relativeMode 7 reg) :
    Source k s relative keeps false false (extensionBytes 7 reg size)
      (calcEaMode7 reg size true : M σ Ea) := by
  unfold M68k.calcEaMode7
  split
  · subst hrel
    exact .last .fetch fun _ => .eaMemory _ _
  · subst hrel
    exact .last .fetchLong fun _ => .eaMemory _ _
  · subst hrel
    exact .last .fetch fun _ => .still (.gets _) fun _ => .eaProgram _ _
  · subst hrel
    exact .last .fetch fun _ => .still (.gets _) fun _ => .still (.indexValue _) fun _ =>
      .eaProgram _ _
  · exact .eaImmediate size
  · exact .last .raiseIllegalEa fun _ => .pure _

theorem calcEaEx (mode reg : Fin 8) (size : M68kSize) (hrel : relative = relativeMode mode reg)
    (hkeeps : keeps = true → mode ≠ 3 ∧ mode ≠ 4) :
    Source k s relative keeps false false (extensionBytes mode reg size)
      (calcEaEx mode reg size true : M σ Ea) := by
  unfold M68k.calcEaEx
  refine .still (.setFaultPc mode reg size) fun _ => ?_
  split
  · exact .still (.gets _) fun _ => .pure _
  · exact .still (.gets _) fun _ => .pure _
  · subst hrel
    exact .still (.gets _) fun _ => .eaMemory _ _
  · subst hrel
    refine .still (.gets _) fun _ => ?_
    split
    · exact .still (.readSize _ _) fun _ => .still (.gets _) fun _ =>
        .still (.setA (fun h => (hkeeps h).1 rfl) _ _) fun _ => .pure _
    · exact .still (.setA (fun h => (hkeeps h).1 rfl) _ _) fun _ => .eaMemory _ _
  · subst hrel
    exact .still (.gets _) fun _ => .still (.setA (fun h => (hkeeps h).2 rfl) _ _) fun _ =>
      .eaMemory _ _
  · subst hrel
    exact .last .fetch fun _ => .still (.gets _) fun _ => .eaMemory _ _
  · subst hrel
    exact .last .fetch fun _ => .still (.indexValue _) fun _ =>
      .still (.gets _) fun _ => .eaMemory _ _
  · exact .calcEaMode7 reg size hrel

theorem calcEa (mode reg : Fin 8) (size : M68kSize) (hrel : relative = relativeMode mode reg)
    (hkeeps : keeps = true → mode ≠ 3 ∧ mode ≠ 4) :
    Source k s relative keeps false false (extensionBytes mode reg size)
      (calcEa mode reg size : M σ Ea) :=
  .still (.charge _) fun _ => .last (.calcEaEx mode reg size hrel hkeeps) fun _ =>
    .still (.charge _) fun _ => .pure _

end Source

/-! ## The instruction word of a fault -/

/-- The word `m68k_peek_word` sees: 0 outside memory. -/
def peeked (s : M68kCpu σ) (address : U32) : U16 :=
  if mapped s .word address then wordAt s.memory (maskAddress24 address) else 0

theorem peekWord_peeks (address : U32) (u : M68kCpu σ) :
    peekWord address (ackHost k) u = .ok (peeked u address) u := by
  have hmask := mask_lt address
  have hone : (1 : U32).toNat = 1 := rfl
  have hiff : maskAddress24 address + 1 < u.memorySize ↔ mapped u .word address = true := by
    simp only [mapped, isValidAddress, Bool.and_eq_true, decide_eq_true_eq, BitVec.lt_def,
      BitVec.toNat_add, hone]
    omega
  have hrun : peekWord address (ackHost k) u =
      (if maskAddress24 address + 1 < u.memorySize then
        (pure (wordAt u.memory (maskAddress24 address)) : M σ U16)
      else pure 0) (ackHost k) u := rfl
  rw [hrun, ite_run, peeked]
  by_cases h : mapped u .word address = true
  · rw [if_pos (hiff.mpr h), if_pos h]
    rfl
  · rw [if_neg fun h' => h (hiff.mp h'), if_neg h]
    rfl

/-- The word after the source extension words of a byte or word MOVE. -/
def nextPrefetch (s : M68kCpu σ) : U16 :=
  peeked s (s.pc + 2 + extensionBytes (field (opcodeAt s) 3) (field (opcodeAt s) 0) .word)

/-- The instruction word in the frame of a fault of the instruction at the PC: the
latched opcode (that of the instruction before, if the opcode fetch itself faults),
but the next prefetch for a byte or word MOVE to an odd `-(An)`. -/
def frameWord (kind : Access) (address : U32) (s : M68kCpu σ) : U16 :=
  if accessible s .word s.pc then
    (if mayMark (opcodeAt s) && kind == .write && isOdd address then nextPrefetch s else opcodeAt s)
  else s.ir

/-- The state in which an access of the instruction begun in `s` faults. -/
structure Struck (kind : Access) (address : U32) (s u : M68kCpu σ) : Prop where
  running : Running u
  memorySize : u.memorySize = s.memorySize
  space : u.operandProgramSpace = (kind == .read && isRelative (opcodeAt s))
  word : capturedWord u = frameWord kind address s
  quiet : Quiet u.log
  sr : ∀ i, 5 ≤ i → u.sr.getLsbD i = s.sr.getLsbD i

/-- How the instruction begun in `s` is unwound. -/
inductive Strikes (k : Option (Nat → M68kCpu σ → M68kCpu σ × U32)) (s : M68kCpu σ) :
    M68kCpu σ → Prop
  | fault {u w : M68kCpu σ} {kind : Access} {size : M68kSize} {address : U32}
      (hu : Struck kind address s u)
      (h : exception (faultVector size address) (ackHost k) (faulting kind size address u) =
        .ok () w) : Strikes k s (holdGuard (faultVector size address) false w)
  | illegalEa {u t : M68kCpu σ} (hu : Quiet u.log) (hd : u.exceptionDepth = 0)
      (h : exception 4 (ackHost k) u = .ok () t) : Strikes k s t

/-- Outside the marking MOVE, and there in all but its write, a fault shows the opcode. -/
theorem Captured.strikes {writes : Bool} (h : Captured k (isRelative (opcodeAt s)) writes s t)
    (hacc : accessible s .word s.pc = true)
    (hwrites : writes = true → mayMark (opcodeAt s) = false) : Strikes k s t := by
  cases h with
  | @fault u w kind size address hkind hu _ h =>
    refine .fault ⟨hu.running, congrArg Wiring.memorySize hu.wiring, hu.space, ?_,
      hu.quiet, hu.sr⟩ h
    have hplain : (mayMark (opcodeAt s) && kind == .write && isOdd address) = false := by
      by_cases hw : kind = .write
      · rw [hwrites (hkind hw)]
        rfl
      · have hne : (kind == .write) = false := by simpa using hw
        rw [hne, Bool.and_false]
        rfl
    rw [capturedWord, hu.busWord, frameWord, if_pos hacc, hplain]
    exact congrArg Wiring.ir hu.wiring
  | illegalEa hu hd h => exact .illegalEa hu hd h

/-! ## MOVE to a predecremented address -/

theorem Clean.struck (h : Clean false s u) (hacc : accessible s .word s.pc = true) {kind : Access}
    {address : U32} (hkind : (kind == .read) = false)
    (hplain : (mayMark (opcodeAt s) && kind == .write && isOdd address) = false) :
    Struck kind address s u := by
  refine ⟨h.running, congrArg Wiring.memorySize h.wiring, ?_, ?_, h.quiet, h.sr⟩
  · rw [h.space, hkind]
    rfl
  · rw [capturedWord, h.busWord, frameWord, if_pos hacc, hplain]
    exact congrArg Wiring.ir h.wiring

theorem Struck.write {address : U32} (h : Struck .write address s u) (value : U32)
    (size : M68kSize) :
    wp (writeSize address value size) (ackHost k) (fun _ _ => True) (Strikes k s) u := by
  have hwrite {size : M68kSize} {hit miss : M68kCpu σ → M68kCpu σ × Unit} {m : M σ Unit}
      (hm : m (ackHost k) u = flatAccess exception .write size address hit miss () (ackHost k) u) :
      wp m (ackHost k) (fun _ _ => True) (Strikes k s) u := by
    unfold wp
    rw [hm]
    refine wp_mono (flatAccess_running h.running .write size address hit miss ())
      (fun _ _ _ => trivial) ?_
    rintro t ⟨-, w, hw, rfl⟩
    exact .fault h hw
  cases size with
  | byte => exact hwrite (write8With_flat exception k address u _)
  | word => exact hwrite (write16With_flat exception k address u _)
  | long => exact hwrite (write32With_flat exception k address u _)

/-- The store of a marking MOVE. -/
theorem moveToMemory_strikes (h : Clean false s u) (hmemory : u.memory = s.memory)
    (hunused : ∀ i, 5 ≤ i → i < 8 → s.sr.getLsbD i = false)
    (hacc : accessible s .word s.pc = true) (hmark : mayMark (opcodeAt s) = true)
    (destReg srcMode srcReg : Fin 8) {size : M68kSize} (hsize : size ≠ .long) (address value : U32)
    {p : U32} (hp : peeked s p = nextPrefetch s) :
    wp (moveToMemory 4 destReg srcMode srcReg size { ea := { address := address }, commit := none }
      value p) (ackHost k) (fun _ _ => True) (Strikes k s) u := by
  have hrest (value : U32) (refund : Int) (t : M68kCpu σ) :
      wp (do
        charge refund
        dropBusWord
        commitMove destReg none
        if size = .long then setCcr (moveFlags size value)) (ackHost k) (fun _ _ => True)
        (Strikes k s) t := by
    rw [if_neg hsize]
    exact trivial
  have hstore (t : M68kCpu σ) (ht : Struck .write address s t) (refund : Int) :
      wp (do
        writeSize address value size
        charge refund
        dropBusWord
        commitMove destReg none
        if size = .long then setCcr (moveFlags size value)) (ackHost k) (fun _ _ => True)
        (Strikes k s) t := by
    rw [wp_bind]
    exact wp_mono (ht.write value size) (fun _ t _ => hrest value refund t) fun _ h => h
  have hmarked (t : M68kCpu σ) (ht : Clean false s t) (hm : t.memory = s.memory) (refund : Int) :
      wp (if isOdd address then do
          latchBusWord (← peekWord p)
          writeSize address value size
          charge refund
          dropBusWord
          commitMove destReg none
          if size = .long then setCcr (moveFlags size value)
        else do
          writeSize address value size
          charge refund
          dropBusWord
          commitMove destReg none
          if size = .long then setCcr (moveFlags size value)) (ackHost k) (fun _ _ => True)
        (Strikes k s) t := by
    refine wp_ite (fun hodd => ?_) fun heven => hstore t (ht.struck hacc rfl ?_) refund
    · -- The next prefetch is marked, read before anything is written.
      have hpeek : peeked t p = nextPrefetch s := by
        have hsize' : t.memorySize = s.memorySize := congrArg Wiring.memorySize ht.wiring
        rw [← hp, peeked, peeked, hm, mapped_of_memorySize hsize']
      rw [wp_bind, wp_of_ok (peekWord_peeks p t), hpeek, latchBusWord, wp_bind, wp_modify]
      refine hstore { t with faultBusWord := nextPrefetch s, faultBusWordValid := true }
        ⟨⟨ht.1.1, ht.1.2, ht.1.3, ht.1.4, ht.1.5, ht.1.6⟩,
        congrArg Wiring.memorySize ht.wiring, ht.space, ?_, ht.quiet, ht.sr⟩ refund
      rw [frameWord, if_pos hacc, hmark, hodd]
      rfl
    · have heven' : isOdd address = false := by simpa using heven
      rw [heven', Bool.and_false]
  rw [moveToMemory]
  dsimp only
  rw [latchFaultPc, wp_bind, wp_modify, if_neg hsize, setCcr, modifySr, wp_bind, wp_modify, charge,
    wp_bind, wp_modify, if_neg (fun h => hsize h.2), if_pos rfl, charge, wp_bind, wp_modify]
  -- The latches, the flags and the charges come before the write.
  have hclear : CcrOnly u.sr (u.sr &&& ~~~nzvc) := (CcrOnly.refl u.sr).clear (by decide)
  have hflags := hclear.or (lowBits_moveFlags size value)
  have hclean := h.ccr hunused hflags
  apply hmarked
  · exact hclean.congr rfl
  · exact hmemory

/-- The decoder on a marking MOVE. -/
theorem dispatch_mark {op : U16} (h : mayMark op = true) :
    (dispatch op : M σ Int) = lineMove op ∧ field op 6 = 4 ∧
      (moveSize? op = some .byte ∨ moveSize? op = some .word) := by
  simp only [mayMark, Bool.and_eq_true, Bool.or_eq_true, beq_iff_eq] at h
  obtain ⟨hline, h4⟩ := h
  have hsize (l : Nat) (hl : (lineOf op : Nat) = l) :
      ((op >>> 12).setWidth 2).toFin.val = l % 4 := by
    have hline : (op >>> 12).toNat % 16 = l := hl
    show (op >>> 12).toNat % 4 = l % 4
    omega
  refine ⟨?_, h4, ?_⟩
  · unfold dispatch
    rcases hline with h | h <;> rw [h] <;> rfl
  · rcases hline with h | h
    · have h1 : ((op >>> 12).setWidth 2).toFin = (1 : Fin 4) :=
        Fin.ext (hsize 1 (congrArg Fin.val h))
      rw [moveSize?, h1]
      exact .inl rfl
    · have h3 : ((op >>> 12).setWidth 2).toFin = (3 : Fin 4) :=
        Fin.ext (hsize 3 (congrArg Fin.val h))
      rw [moveSize?, h3]
      exact .inr rfl

theorem extensionBytes_short {size : M68kSize} (h : size ≠ .long) (mode reg : Fin 8) :
    extensionBytes mode reg size = extensionBytes mode reg .word := by
  simp only [extensionBytes, if_neg h, reduceCtorEq, if_false]

/-- The destination of a marking MOVE. -/
theorem moveDest_predecrement (reg : Fin 8) {size : M68kSize} (h : size ≠ .long) (h' : Host σ)
    (u : M68kCpu σ) :
    ∃ address t, moveDest 4 reg size h' u = .ok { ea := { address := address }, commit := none } t ∧
      watched t = watched u ∧ t.memory = u.memory := by
  have hrun : moveDest 4 reg size h' u =
      (if size = .long then
        (pure { ea := { address := u.aRegs reg - stepSize reg size },
                commit := some (u.aRegs reg - stepSize reg size) } : M σ MoveDest)
      else do
        setA reg (u.aRegs reg - stepSize reg size)
        pure { ea := { address := u.aRegs reg - stepSize reg size }, commit := none }) h'
        (charged (eaCycles 4 reg size) u) := rfl
  rw [hrun, if_neg h]
  exact ⟨_, _, rfl, rfl, rfl⟩

/-- How a marking MOVE is unwound. -/
theorem execMove_strikes (h : Clean false s u) (hpc : u.pc = s.pc + 2)
    (hmemory : u.memory = s.memory)
    (hunused : ∀ i, 5 ≤ i → i < 8 → s.sr.getLsbD i = false)
    (hacc : accessible s .word s.pc = true) (hmark : mayMark (opcodeAt s) = true) :
    wp (execMove (opcodeAt s)) (ackHost k) (fun _ _ => True) (Strikes k s) u := by
  obtain ⟨-, h4, hsize⟩ := dispatch_mark (σ := σ) hmark
  obtain ⟨size, hsize, hshort⟩ : ∃ size, moveSize? (opcodeAt s) = some size ∧ size ≠ .long := by
    rcases hsize with h | h
    · exact ⟨.byte, h, by decide⟩
    · exact ⟨.word, h, by decide⟩
  have hrejects : moveDestRejects 4 (field (opcodeAt s) 9) size = false := rfl
  rw [execMove, hsize]
  dsimp only
  rw [h4, hrejects, if_neg Bool.false_ne_true, wp_bind]
  have hsource : Source k s (isRelative (opcodeAt s)) false false false
      (extensionBytes (field (opcodeAt s) 3) (field (opcodeAt s) 0) size)
      (calcEa (field (opcodeAt s) 3) (field (opcodeAt s) 0) size) := .calcEa _ _ size rfl nofun
  refine wp_mono (hsource u h) ?_ fun t ht => ht.strikes hacc fun h => by cases h
  rintro ea t ⟨ht, htpc, htmem, -⟩
  obtain ⟨address, v, hdest, hwatched, hvmem⟩ :=
    moveDest_predecrement (field (opcodeAt s) 9) hshort (ackHost k) t
  rw [getPc, wp_bind, wp_gets, wp_bind, wp_of_ok hdest]
  refine moveToMemory_strikes (ht.congr hwatched) (hvmem.trans (htmem.trans hmemory)) hunused hacc
    hmark _ _ _ hshort address ea.value ?_
  rw [nextPrefetch, htpc, hpc, extensionBytes_short hshort]

/-- How any instruction is unwound. -/
theorem dispatch_strikes (hd : s.exceptionDepth = 0) (hspace : s.operandProgramSpace = false)
    (hbus : s.faultBusWordValid = false) (hunused : ∀ i, 5 ≤ i → i < 8 → s.sr.getLsbD i = false)
    (hacc : accessible s .word s.pc = true) :
    wp (dispatch (opcodeAt s)) (ackHost k) (fun _ _ => True) (Strikes k s) (fetched s) := by
  have hstart : Clean false s (fetched s) :=
    ⟨fetched_running hd, rfl, hspace, hbus, Quiet.cons (by intro e he; cases he) _ _ _,
      fun _ _ => rfl⟩
  cases hmark : mayMark (opcodeAt s) with
  | true =>
    rw [(dispatch_mark hmark).1, lineMove, costed, wp_bind]
    exact wp_mono (execMove_strikes hstart rfl rfl hunused hacc hmark) (fun _ _ _ => trivial)
      fun _ h => h
  | false =>
    have hmicro := Micro.dispatch (σ := σ) (Grade.of_covers s.supervisor (opcodeAt s))
    refine wp_mono (hmicro.captures hmark rfl hunused fun _ => hstart) (fun _ _ _ => trivial) ?_
    exact fun t ht => ht.strikes hacc fun _ => hmark

end M68k
