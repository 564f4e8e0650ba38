import Mathlib.Tactic.IntervalCases
import Rocket68.State
import Rocket68.Timeslice

/-!
# What a restore does

`m68k_deserialize` applies each record as it reads it. `deserialize_split` gives
the whole behaviour for every buffer, from which a failed restore is read off; the
round trip holds for every stream with the fields of a state in their order.
-/

namespace M68k

open Tlv

variable {σ : Type}

/-! ## The fields without a tag -/

/-- The part of the context no record restores. -/
structure Untagged (σ : Type) where
  memory : U32 → U8
  memorySize : U32
  exceptionThrown : Nat
  exceptionDepth : Int
  inAddressError : Bool
  inBusError : Bool
  faultAddress : U32
  faultPc : U32
  faultIr : U16
  faultSsw : U16
  faultProgramAccess : Bool
  faultValid : Bool
  faultPcValid : Bool
  faultBusWord : U16
  faultBusWordValid : Bool
  operandProgramSpace : Bool
  group0Fault : Bool
  faultTrapActive : Bool
  host : σ
  log : List Event

def untagged (s : M68kCpu σ) : Untagged σ where
  memory := s.memory
  memorySize := s.memorySize
  exceptionThrown := s.exceptionThrown
  exceptionDepth := s.exceptionDepth
  inAddressError := s.inAddressError
  inBusError := s.inBusError
  faultAddress := s.faultAddress
  faultPc := s.faultPc
  faultIr := s.faultIr
  faultSsw := s.faultSsw
  faultProgramAccess := s.faultProgramAccess
  faultValid := s.faultValid
  faultPcValid := s.faultPcValid
  faultBusWord := s.faultBusWord
  faultBusWordValid := s.faultBusWordValid
  operandProgramSpace := s.operandProgramSpace
  group0Fault := s.group0Fault
  faultTrapActive := s.faultTrapActive
  host := s.host
  log := s.log

theorem restoreField_untagged {t : StateTag} {p : List U8} {f : M68kCpu σ → M68kCpu σ}
    (h : restoreField t p = some f) (s : M68kCpu σ) : untagged (f s) = untagged s := by
  cases t with
  | model =>
    simp only [restoreField] at h
    split at h
    · cases h
    · cases h
      rfl
  | _ =>
    simp only [restoreField, Option.some.injEq] at h
    subst h
    rfl

theorem decodeRecord_untagged {r : Record} {f : M68kCpu σ → M68kCpu σ}
    (h : decodeRecord r = some f) (s : M68kCpu σ) : untagged (f s) = untagged s := by
  unfold decodeRecord at h
  split at h
  · cases h
    rfl
  · split at h
    · cases h
    · exact restoreField_untagged h s

/-- Records restore tagged fields only. -/
theorem applyAll_untagged {rs : List Record} {fs : List (M68kCpu σ → M68kCpu σ)}
    (h : rs.map decodeRecord = fs.map some) (s : M68kCpu σ) :
    untagged (applyAll fs s) = untagged s := by
  refine applyAll_congr untagged (fun f hf u => ?_) s
  have hmem : some f ∈ rs.map decodeRecord := by
    rw [h]
    exact List.mem_map_of_mem hf
  obtain ⟨r, -, hr⟩ := List.mem_map.mp hmem
  exact decodeRecord_untagged hr u

/-! ## Every buffer -/

/-- After a valid header the bytes are decodable records and a rest; the records
are applied, and the restore succeeds iff the rest is empty. -/
theorem deserialize_split {bytes : List U8} (hb : headerValid bytes = true) (s : M68kCpu σ) :
    ∃ rs fs rest, bytes.drop 8 = encode rs ++ rest ∧
      rs.map (decodeRecord (σ := σ)) = fs.map some ∧
      (rest = [] ∨ Defective (decodeRecord (σ := σ)) rest) ∧
      deserialize (some bytes) s =
        (rest.isEmpty, if rest.isEmpty then clearTransient (applyAll fs s) else applyAll fs s) := by
  obtain ⟨rs, fs, rest, hsplit, hfs, hrest, hrun⟩ :=
    @restore_split _ decodeRecord (bytes.drop 8) s
  refine ⟨rs, fs, rest, hsplit, hfs, hrest, ?_⟩
  simp only [deserialize, hb, if_true, hrun]

/-- A failed restore with a bad header changes nothing; any other has applied
exactly the records before the first defect, from left to right. -/
theorem deserialize_failed {buffer : Option (List U8)} {s : M68kCpu σ}
    (h : (deserialize buffer s).1 = false) :
    ((∀ bytes, buffer = some bytes → headerValid bytes = false) →
        (deserialize buffer s).2 = s) ∧
      (∀ bytes, buffer = some bytes → headerValid bytes = true →
        ∃ rs fs rest, bytes.drop 8 = encode rs ++ rest ∧
          rs.map (decodeRecord (σ := σ)) = fs.map some ∧
          Defective (decodeRecord (σ := σ)) rest ∧
          (deserialize buffer s).2 = applyAll fs s) ∧
      untagged (deserialize buffer s).2 = untagged s := by
  have hbad (hheader : ∀ bytes, buffer = some bytes → headerValid bytes = false) :
      (deserialize buffer s).2 = s := by
    cases buffer with
    | none => rfl
    | some bytes => simp [deserialize, hheader bytes rfl]
  have hrecords (bytes : List U8) (hbuffer : buffer = some bytes)
      (hheader : headerValid bytes = true) :
      ∃ rs fs rest, bytes.drop 8 = encode rs ++ rest ∧
        rs.map (decodeRecord (σ := σ)) = fs.map some ∧
        Defective (decodeRecord (σ := σ)) rest ∧
        (deserialize buffer s).2 = applyAll fs s := by
    subst hbuffer
    obtain ⟨rs, fs, rest, hsplit, hfs, hrest, hrun⟩ := deserialize_split hheader s
    -- the fold stops at the first defect; with none it succeeds
    rcases hrest with rfl | hrest
    · rw [hrun] at h
      cases h
    · have hne : rest.isEmpty = false := by simpa using hrest.1
      refine ⟨rs, fs, rest, hsplit, hfs, hrest, ?_⟩
      rw [hrun, hne]
      rfl
  refine ⟨hbad, hrecords, ?_⟩
  by_cases hheader : ∃ bytes, buffer = some bytes ∧ headerValid bytes = true
  · obtain ⟨bytes, hbuffer, hvalid⟩ := hheader
    obtain ⟨rs, fs, rest, -, hfs, -, hend⟩ := hrecords bytes hbuffer hvalid
    rw [hend]
    exact applyAll_untagged hfs s
  · rw [hbad fun bytes hbuffer => by
      cases hvalid : headerValid bytes with
      | true => exact absurd ⟨bytes, hbuffer, hvalid⟩ hheader
      | false => rfl]

/-- A header, a complete PC record and the first byte of the next record. -/
def truncatedState : List U8 := stateHeader ++ [3, 4, 0, 0, 0x12, 0x34, 4]

theorem deserialize_failed_truncated :
    untagged (deserialize (some truncatedState) (init (fun _ => 0) 0 ())).2 =
      untagged (init (fun _ => 0) 0 ()) :=
  (@deserialize_failed Unit (some truncatedState) (init (fun _ => 0) 0 ()) rfl).2.2

/-- The truncated state is rejected after it has set the PC. -/
theorem deserialize_not_atomic :
    ¬∀ (buffer : Option (List U8)) (s : M68kCpu Unit),
      (deserialize buffer s).1 = false → (deserialize buffer s).2 = s := by
  intro h
  have hpc := congrArg M68kCpu.pc (h (some truncatedState) (init (fun _ => 0) 0 ()) rfl)
  revert hpc
  decide

/-! ## The round trip -/

theorem stateGet16_put (v : U16) (rest : List U8) : stateGet16 (statePut16 v ++ rest) = v := by
  apply BitVec.eq_of_getLsbD_eq
  intro i hi
  by_cases h8 : i < 8
  · simp [stateGet16, statePut16, h8, hi]
  · simp [stateGet16, statePut16, h8, hi, show i - 8 < 8 by omega, show 8 + (i - 8) = i by omega]

theorem stateGet32_put (v : U32) (rest : List U8) : stateGet32 (statePut32 v ++ rest) = v := by
  apply BitVec.eq_of_getLsbD_eq
  intro i hi
  -- One case for the byte that bit `i` comes from.
  by_cases h8 : i < 8
  · simp [stateGet32, statePut32, h8, hi, show i < 16 by omega, show i < 24 by omega]
  · by_cases h16 : i < 16
    · simp [stateGet32, statePut32, h8, h16, hi, show i < 24 by omega, show i - 8 < 8 by omega,
        show 8 + (i - 8) = i by omega]
    · by_cases h24 : i < 24
      · simp [stateGet32, statePut32, h8, h16, h24, hi, show i - 16 < 8 by omega,
          show ¬i - 8 < 8 by omega, show 16 + (i - 16) = i by omega]
      · simp [stateGet32, statePut32, h8, h16, h24, hi, show i - 24 < 8 by omega,
          show ¬i - 8 < 8 by omega, show ¬i - 16 < 8 by omega, show 24 + (i - 24) = i by omega]

/-- The state a restore of `s`'s save state makes of `t`. -/
def restored (s t : M68kCpu σ) : M68kCpu σ :=
  clearTransient { t with
    dRegs := s.dRegs
    aRegs := s.aRegs
    pc := s.pc
    sr := s.sr
    usp := s.usp
    ssp := s.ssp
    vbr := s.vbr
    sfc := s.sfc
    dfc := s.dfc
    stopped := s.stopped
    irqLevel := s.irqLevel % 256
    nmiPending := s.nmiPending
    tracePending := s.tracePending
    ir := s.ir
    ppc := s.ppc
    targetCycles := (BitVec.ofInt 32 s.targetCycles).toInt
    cyclesRemaining := (BitVec.ofInt 32 s.cyclesRemaining).toInt
    model := s.model }

/-- The update of one record of `s`'s save state. -/
def restorer (s : M68kCpu σ) : StateTag → M68kCpu σ → M68kCpu σ
  | .dregs, t => { t with dRegs := s.dRegs }
  | .aregs, t => { t with aRegs := s.aRegs }
  | .pc, t => { t with pc := s.pc }
  | .sr, t => { t with sr := s.sr }
  | .usp, t => { t with usp := s.usp }
  | .ssp, t => { t with ssp := s.ssp }
  | .vbr, t => { t with vbr := s.vbr }
  | .sfc, t => { t with sfc := s.sfc }
  | .dfc, t => { t with dfc := s.dfc }
  | .flags, t =>
      { t with
        stopped := s.stopped
        irqLevel := s.irqLevel % 256
        nmiPending := s.nmiPending
        tracePending := s.tracePending }
  | .decode, t => { t with ir := s.ir, ppc := s.ppc }
  | .cycles, t =>
      { t with
        targetCycles := (BitVec.ofInt 32 s.targetCycles).toInt
        cyclesRemaining := (BitVec.ofInt 32 s.cyclesRemaining).toInt }
  | .model, t => { t with model := s.model }

theorem flagByte_ne_zero (b : Bool) : (flagByte b != 0) = b := by
  cases b <;> rfl

/-- The register file as its payload holds it. -/
theorem stateGet32_regs (r : Fin 8 → U32) (i : Fin 8) :
    stateGet32 (((List.finRange 8).flatMap fun i => statePut32 (r i)).drop (i * 4)) = r i := by
  have hlist : List.finRange 8 = [0, 1, 2, 3, 4, 5, 6, 7] := by decide
  simp only [hlist, List.flatMap_cons]
  obtain ⟨i, hi⟩ := i
  interval_cases i <;> exact stateGet32_put _ _

theorem restoreField_payload (s : M68kCpu σ) (t : StateTag) :
    restoreField t (statePayload s t) = some (restorer s t) := by
  have hget (v : U32) : stateGet32 (statePut32 v) = v := by simpa using stateGet32_put v []
  have hsr : stateGet16 (statePut16 s.sr) = s.sr := by simpa using stateGet16_put s.sr []
  cases t with
  | dregs =>
    simp only [restoreField, statePayload, stateGet32_regs]
    rfl
  | aregs =>
    simp only [restoreField, statePayload, stateGet32_regs]
    rfl
  | flags =>
    simp only [restoreField, statePayload, List.getD_cons_zero, List.getD_cons_succ,
      flagByte_ne_zero, BitVec.toNat_ofNat]
    rfl
  | decode =>
    have hppc : (statePut16 s.ir ++ statePut32 s.ppc).drop 2 = statePut32 s.ppc := rfl
    simp only [restoreField, statePayload, stateGet16_put, hppc, hget]
    rfl
  | cycles =>
    have hrest (v w : U32) : (statePut32 v ++ statePut32 w).drop 4 = statePut32 w := rfl
    simp only [restoreField, statePayload, stateGet32_put, hrest, hget]
    rfl
  | model =>
    have hcode : modelCode s.model ≤ modelCode .m68010 ∧
        (if modelCode s.model = 0 then M68kModel.m68000 else .m68010) = s.model := by
      cases s.model <;> decide
    simp only [restoreField, statePayload, hget, BitVec.not_lt.mpr hcode.1, hcode.2, if_false]
    rfl
  | sr =>
    simp only [restoreField, statePayload, hsr]
    rfl
  | _ =>
    simp only [restoreField, statePayload, hget]
    rfl

theorem decodeRecord_field (s : M68kCpu σ) (t : StateTag) :
    decodeRecord (stateField s t) = some (restorer s t) := by
  have htag : stateTag? (stateField s t).tag = some t := by cases t <;> rfl
  have hlen : (stateField s t).payload.length = t.size := statePayload_length s t
  simp only [decodeRecord, htag, hlen, ne_eq, not_true_eq_false, if_false]
  exact restoreField_payload s t

/-- A tag some field has. -/
def knownTag (r : Record) : Bool := 1 ≤ r.tag && r.tag ≤ 13

theorem stateTag?_unknown : ∀ tag : U8, ¬(1 ≤ tag ∧ tag ≤ 13) → stateTag? tag = none := by
  decide +kernel

theorem decodeRecord_unknown (r : Record) (h : knownTag r = false) :
    decodeRecord (σ := σ) r = some id := by
  have htag := stateTag?_unknown r.tag (by simpa [knownTag] using h)
  simp only [decodeRecord, htag]

/-- Whatever unknown records stand between its fields, a save state restores
every tagged field. -/
theorem deserialize_fields {rs : List Record} {s : M68kCpu σ}
    (h : rs.filter knownTag = stateOrder.map (stateField s)) (t : M68kCpu σ) :
    deserialize (some (stateHeader ++ encode rs)) t = (true, restored s t) := by
  have hheader : headerValid (stateHeader ++ encode rs) = true := by
    simp [headerValid, stateHeader, stateMagic, statePut16, stateVersion, stateGet16]
  have hdrop : (stateHeader ++ encode rs).drop 8 = encode rs := rfl
  have hrecords : (rs.filter knownTag).map decodeRecord =
      (stateOrder.map (restorer s)).map some := by
    rw [h]
    simp only [List.map_map]
    exact List.map_congr_left fun t _ => decodeRecord_field s t
  have happly : clearTransient (applyAll (stateOrder.map (restorer s)) t) = restored s t := by
    simp only [stateOrder, List.map_cons, List.map_nil, applyAll_cons, applyAll_nil, restorer,
      restored]
  simp only [deserialize, hheader, if_true, hdrop, restore_filter decodeRecord_unknown hrecords,
    happly]

theorem known_stateField (s : M68kCpu σ) :
    (stateOrder.map (stateField s)).filter knownTag = stateOrder.map (stateField s) := by
  rw [List.filter_eq_self]
  intro r hr
  obtain ⟨t, -, rfl⟩ := List.mem_map.mp hr
  cases t <;> rfl

theorem deserialize_stateBytes (s t : M68kCpu σ) :
    deserialize (some (stateBytes s)) t = (true, restored s t) :=
  deserialize_fields (known_stateField s) t

/-- The fields a save state carries agree. -/
structure SameTagged (s t : M68kCpu σ) : Prop where
  dRegs : t.dRegs = s.dRegs
  aRegs : t.aRegs = s.aRegs
  pc : t.pc = s.pc
  sr : t.sr = s.sr
  usp : t.usp = s.usp
  ssp : t.ssp = s.ssp
  vbr : t.vbr = s.vbr
  sfc : t.sfc = s.sfc
  dfc : t.dfc = s.dfc
  stopped : t.stopped = s.stopped
  irqLevel : t.irqLevel = s.irqLevel
  nmiPending : t.nmiPending = s.nmiPending
  tracePending : t.tracePending = s.tracePending
  ir : t.ir = s.ir
  ppc : t.ppc = s.ppc
  targetCycles : t.targetCycles = s.targetCycles
  cyclesRemaining : t.cyclesRemaining = s.cyclesRemaining
  model : t.model = s.model

/-- The host's side of the context agrees, and no fault latch is set. -/
structure Rebound (s t : M68kCpu σ) : Prop where
  memory : t.memory = s.memory
  memorySize : t.memorySize = s.memorySize
  host : t.host = s.host
  thrown : t.exceptionThrown = 0
  faultValid : t.faultValid = false
  faultPcValid : t.faultPcValid = false
  faultBusWordValid : t.faultBusWordValid = false
  operandProgramSpace : t.operandProgramSpace = false
  group0Fault : t.group0Fault = false
  faultTrapActive : t.faultTrapActive = false
  inAddressError : t.inAddressError = false
  inBusError : t.inBusError = false

theorem restored_rebound (s t : M68kCpu σ) : Rebound t (restored s t) :=
  ⟨rfl, rfl, rfl, rfl, rfl, rfl, rfl, rfl, rfl, rfl, rfl, rfl⟩

theorem toInt_ofInt32 {n : Int} (h : IsInt n) : (BitVec.ofInt 32 n).toInt = n := by
  obtain ⟨hlow, hhigh⟩ := h
  rw [BitVec.toInt_ofInt]
  exact Int.bmod_eq_of_le (by omega) (by omega)

theorem restored_sameTagged {s : M68kCpu σ} (t : M68kCpu σ) (hirq : s.irqLevel ≤ 7)
    (hint : IntCounters s) : SameTagged s (restored s t) where
  dRegs := rfl
  aRegs := rfl
  pc := rfl
  sr := rfl
  usp := rfl
  ssp := rfl
  vbr := rfl
  sfc := rfl
  dfc := rfl
  stopped := rfl
  irqLevel := Nat.mod_eq_of_lt (by omega)
  nmiPending := rfl
  tracePending := rfl
  ir := rfl
  ppc := rfl
  targetCycles := toInt_ofInt32 hint.target
  cyclesRemaining := toInt_ofInt32 hint.remaining
  model := rfl

theorem encode_fields_length (s : M68kCpu σ) (ts : List StateTag) :
    (encode (ts.map (stateField s))).length = (ts.map fun t => 2 + t.size).sum := by
  induction ts with
  | nil => rfl
  | cons t ts ih =>
    simp only [List.map_cons, encode_cons, List.length_append, ih, List.sum_cons]
    simp [Record.encode, stateField, statePayload_length]
    omega

/-- The size the source adds up by hand is the size of the fields. -/
theorem stateBytes_length (s : M68kCpu σ) : (stateBytes s).length = stateNeed := by
  rw [stateBytes, List.length_append, encode_fields_length]
  rfl

/-- Serializing writes the advertised bytes and no more; and any stream with the
same fields, whatever unknown records stand between them, restores the state. -/
theorem saveState_roundTrip {s : M68kCpu σ} (hirq : s.irqLevel ≤ 7) (hint : IntCounters s) :
    serialize s none = (stateNeed, none) ∧
      (∀ buffer : List U8, stateNeed ≤ buffer.length →
        serialize s (some buffer) =
            (stateNeed, some (stateBytes s ++ buffer.drop stateNeed)) ∧
          (stateBytes s).length = stateNeed) ∧
      stateBytes s = stateHeader ++ encode (stateOrder.map (stateField s)) ∧
      ∀ (rs : List Record) (t : M68kCpu σ),
        rs.filter knownTag = stateOrder.map (stateField s) →
        ∃ u, deserialize (some (stateHeader ++ encode rs)) t = (true, u) ∧
          SameTagged s u ∧ Rebound t u := by
  refine ⟨rfl, ?_, rfl, ?_⟩
  · intro buffer hlen
    refine ⟨?_, stateBytes_length s⟩
    simp only [serialize, if_neg (Nat.not_lt.mpr hlen), overwrite, stateBytes_length]
  · intro rs t hrs
    exact ⟨restored s t, deserialize_fields hrs t, restored_sameTagged t hirq hint,
      restored_rebound s t⟩

/-- A stopped 68010 with an interrupt pending, every register different. -/
def savedCpu : M68kCpu Unit :=
  { init (fun _ => 0) 0 () with
    dRegs := fun r => 0xD0001000 + r.val
    aRegs := fun r => 0xA0002000 + r.val
    pc := 0x3456
    ppc := 0x3454
    sr := 0x2315
    ir := 0x4E72
    usp := 0x89ABCDEF
    ssp := 0x76543210
    vbr := 0x00012000
    sfc := 1
    dfc := 5
    stopped := true
    irqLevel := 7
    nmiPending := true
    tracePending := true
    targetCycles := 1000
    cyclesRemaining := -14
    model := .m68010 }

/-- An unknown record before the first field and another after the last. -/
theorem saveState_roundTrip_padded :
    ∃ u, deserialize (some (stateHeader ++ encode
          (⟨200, [1, 2, 3], by decide⟩ ::
            (stateOrder.map (stateField savedCpu) ++ [⟨0, [], by decide⟩]))))
          (init (fun _ => 1) 64 ()) = (true, u) ∧
        SameTagged savedCpu u ∧ Rebound (init (fun _ => 1) 64 ()) u := by
  refine (saveState_roundTrip (s := savedCpu) (by decide) ?_).2.2.2 _ _ rfl
  exact ⟨by decide, by decide⟩

end M68k
