import Mathlib.Data.List.Induction
import Rocket68.StateReader
import Rocket68.Theorems.Boundary
import Rocket68.Theorems.Restore

/-!
# The save state format

What `m68k_deserialize` accepts, what an accepted buffer makes of a state, and
when that state is one the emulator could have reached.
-/

namespace M68k

open Tlv Trap TrapM

variable {σ : Type}

/-! ## Reading within the buffer -/

/-- Reads below the length are never stuck. -/
theorem bytesAt_eq {buffer : List U8} {p n : Nat} (h : p + n ≤ buffer.length) :
    bytesAt buffer p n = some ((buffer.drop p).take n) := by
  induction n generalizing p with
  | zero => simp [bytesAt]
  | succ n ih =>
    have hp : p < buffer.length := by omega
    rw [bytesAt, List.getElem?_eq_getElem hp, ih (by omega), List.drop_eq_getElem_cons hp,
      List.take_succ_cons]
    rfl

/-- The record that begins at a position. -/
theorem next?_drop {buffer : List U8} {p : Nat} (h : p + 2 ≤ buffer.length) :
    next? (buffer.drop p) =
      let tag := buffer[p]
      let len := buffer[p + 1]
      if len.toNat ≤ buffer.length - (p + 2) then
        some (⟨tag, (buffer.drop (p + 2)).take len.toNat,
          Nat.lt_of_le_of_lt (List.length_take_le _ _) len.isLt⟩,
          buffer.drop (p + 2 + len.toNat))
      else none := by
  rw [List.drop_eq_getElem_cons (show p < buffer.length by omega),
    List.drop_eq_getElem_cons (show p + 1 < buffer.length by omega)]
  simp only [next?, List.length_drop, List.drop_drop]

theorem next?_short {bytes : List U8} (h : bytes.length < 2) : next? bytes = none := by
  match bytes, h with
  | [], _ => rfl
  | [_], _ => rfl

/-- With an iteration for every byte the loop ends, and does what the record
reader does. -/
theorem readFields_eq {buffer : List U8} {p fuel : Nat} (hf : buffer.length - p < fuel)
    (s : M68kCpu σ) :
    readFields buffer fuel p s =
      some (let r := restore decodeRecord (buffer.drop p) s
        (r.1, if r.1 then clearTransient r.2 else r.2)) := by
  induction fuel generalizing p s with
  | zero => omega
  | succ fuel ih =>
    rw [readFields]
    by_cases hp : p < buffer.length
    · rw [if_pos hp]
      have hne : buffer.drop p ≠ [] := by simpa using hp
      by_cases h2 : buffer.length - p < 2
      · have hnone : next? (buffer.drop p) = none := next?_short (by simpa using h2)
        simp only [if_pos h2, restore_incomplete hne hnone]
        rfl
      · have hp2 : p + 2 ≤ buffer.length := by omega
        have hnext := next?_drop hp2
        rw [if_neg h2, List.getElem?_eq_getElem hp,
          List.getElem?_eq_getElem (show p + 1 < buffer.length by omega)]
        dsimp only [Option.bind_eq_bind, Option.bind_some] at hnext ⊢
        -- the payload is all there, or the record is cut short
        by_cases hlen : (buffer[p + 1]).toNat ≤ buffer.length - (p + 2)
        · rw [if_neg (by omega)]
          rw [if_pos hlen] at hnext
          rw [restore_next hnext]
          have hpayload : ((buffer.drop (p + 2)).take (buffer[p + 1]).toNat).length =
              (buffer[p + 1]).toNat := by simpa using hlen
          cases htag : stateTag? buffer[p] with
          | none =>
            simp only [decodeRecord, htag, id]
            exact ih (by omega) s
          | some t =>
            simp only [decodeRecord, htag, hpayload]
            by_cases hsize : (buffer[p + 1]).toNat = t.size
            -- a known tag must have its own size; an unknown one is skipped
            · rw [if_neg (not_not_intro hsize), if_neg (not_not_intro hsize), ← hsize,
                bytesAt_eq (by omega)]
              dsimp only [Option.bind_some]
              cases restoreField t _ with
              | none => rfl
              | some f => exact ih (by omega) _
            · rw [if_pos hsize, if_pos hsize]
              rfl
        · rw [if_pos (by omega)]
          rw [if_neg hlen] at hnext
          simp only [restore_incomplete hne hnext]
          rfl
    · have hnil : buffer.drop p = [] := by simpa using hp
      rw [if_neg hp, hnil]
      rfl

/-- Two bytes are the word read from them. -/
theorem statePut16_get (hi lo : U8) (rest : List U8) :
    statePut16 (stateGet16 (hi :: lo :: rest)) = [hi, lo] := by
  have hhi : ((stateGet16 (hi :: lo :: rest)) >>> 8).setWidth 8 = hi := by
    apply BitVec.eq_of_getLsbD_eq
    intro i hi'
    simp [stateGet16, hi', show 8 + i < 16 by omega, show ¬8 + i < 8 by omega]
  have hlo : (stateGet16 (hi :: lo :: rest)).setWidth 8 = lo := by
    apply BitVec.eq_of_getLsbD_eq
    intro i hi'
    simp [stateGet16, hi']
  rw [statePut16, hhi, hlo]

theorem headerValid_iff {buffer : List U8} :
    headerValid buffer = true ↔
      ∃ a b rest, buffer = stateMagic ++ statePut16 stateVersion ++ [a, b] ++ rest := by
  constructor
  · intro h
    simp only [headerValid, Bool.and_eq_true, decide_eq_true_eq, beq_iff_eq] at h
    obtain ⟨⟨hlen, hmagic⟩, hversion⟩ := h
    rcases buffer with
      _ | ⟨m₀, _ | ⟨m₁, _ | ⟨m₂, _ | ⟨m₃, _ | ⟨hi, _ | ⟨lo, _ | ⟨a, _ | ⟨b, rest⟩⟩⟩⟩⟩⟩⟩⟩
    iterate 8 exact absurd hlen (by simp)
    have hput := statePut16_get hi lo (a :: b :: rest)
    have hword : stateGet16 (hi :: lo :: a :: b :: rest) = stateVersion := hversion
    rw [hword] at hput
    refine ⟨a, b, rest, ?_⟩
    rw [hput, ← hmagic]
    rfl
  · rintro ⟨a, b, rest, rfl⟩
    simp [headerValid, stateMagic, statePut16, stateVersion, stateGet16]

/-- No read leaves the buffer and the loop ends: the source's loop computes what
the record reader computes. -/
theorem deserializeAt_eq {buffer : List U8} {fuel : Nat} (hf : buffer.length ≤ fuel)
    (s : M68kCpu σ) : deserializeAt fuel buffer s = some (deserialize (some buffer) s) := by
  rw [deserializeAt, deserialize]
  by_cases hlen : buffer.length < 8
  · have hheader : headerValid buffer = false := by
      simp [headerValid, Nat.not_le.mpr hlen]
    simp [hlen, hheader]
  · rw [if_neg hlen, bytesAt_eq (by omega), bytesAt_eq (by omega)]
    have hget : stateGet16 ((buffer.drop 4).take 2) = stateGet16 (buffer.drop 4) := by
      simp [stateGet16, List.getD_eq_getElem?_getD]
    simp only [Option.bind_eq_bind, Option.bind_some, List.drop_zero, hget,
      readFields_eq (show buffer.length - 8 < fuel by omega)]
    have hcond : headerValid buffer = true ↔
        ¬(buffer.take 4 ≠ stateMagic ∨ stateGet16 (buffer.drop 4) ≠ stateVersion) := by
      simp [headerValid, Nat.not_lt.mp hlen]
    by_cases hheader : headerValid buffer = true
    · rw [if_neg (hcond.mp hheader)]
      simp only [hheader, if_true]
    · rw [if_pos (not_not.mp (mt hcond.mpr hheader))]
      simp only [hheader, Bool.false_eq_true, if_false]
      rfl

/-! ## The accepted language -/

/-- A field `m68k_deserialize` accepts: an unknown one, or one with the length of
its tag; a model is 0 or 1. -/
def FieldValid (r : Record) : Prop :=
  ∀ t, stateTag? r.tag = some t → r.payload.length = t.size ∧
    (t = .model → stateGet32 r.payload = 0 ∨ stateGet32 r.payload = 1)

theorem decodeRecord_isSome_iff (r : Record) :
    (decodeRecord (σ := σ) r).isSome = true ↔ FieldValid r := by
  unfold decodeRecord FieldValid
  cases htag : stateTag? r.tag with
  | none => simp
  | some t =>
    by_cases hlen : r.payload.length = t.size
    · simp only [hlen, ne_eq, not_true_eq_false, if_false, Option.some.injEq, forall_eq', true_and]
      cases t with
      | model =>
        have hcode : stateGet32 r.payload > modelCode .m68010 ↔
            ¬(stateGet32 r.payload = 0 ∨ stateGet32 r.payload = 1) := by
          have hone : modelCode .m68010 = 1 := rfl
          rw [hone]
          bv_omega
        simp only [restoreField, hcode]
        split
        · next h => simpa using h
        · next h => simpa using not_not.mp h
      | _ => simp [restoreField]
    · simp [hlen]

/-! ## What the fields do -/

/-- The assignments of a field, whatever its model number. -/
def assign (t : StateTag) (p : List U8) (s : M68kCpu σ) : M68kCpu σ :=
  match t with
  | .model => { s with model := if stateGet32 p = 0 then .m68000 else .m68010 }
  | t => ((restoreField t p).getD id) s

theorem restoreField_assign {t : StateTag} {p : List U8} {f : M68kCpu σ → M68kCpu σ}
    (h : restoreField t p = some f) : f = assign t p := by
  cases t with
  | model =>
    simp only [restoreField] at h
    split at h
    · cases h
    · cases h
      rfl
  | _ =>
    cases h
    rfl

/-- Fields under different tags are different fields of the context. -/
theorem assign_comm {t t' : StateTag} (h : t ≠ t') (p p' : List U8) (s : M68kCpu σ) :
    assign t p (assign t' p' s) = assign t' p' (assign t p s) := by
  cases t <;> cases t' <;> first | exact absurd rfl h | rfl

theorem assign_assign (t : StateTag) (p p' : List U8) (s : M68kCpu σ) :
    assign t p' (assign t p s) = assign t p' s := by
  cases t <;> rfl

theorem stateTag?_byte {tag : U8} {t : StateTag} (h : stateTag? tag = some t) : t.byte = tag := by
  unfold stateTag? at h
  have hbyte := List.find?_some h
  exact beq_iff_eq.mp hbyte

/-- A record does nothing, or assigns the field of its tag. -/
theorem update_cases (r : Record) :
    (∀ s, update (decodeRecord (σ := σ)) r s = s) ∨
      ∃ t, stateTag? r.tag = some t ∧
        ∀ s, update (decodeRecord (σ := σ)) r s = assign t r.payload s := by
  unfold update
  cases hr : decodeRecord (σ := σ) r with
  | none => exact .inl fun _ => rfl
  | some f =>
    unfold decodeRecord at hr
    cases htag : stateTag? r.tag with
    | none =>
      rw [htag] at hr
      cases hr
      exact .inl fun _ => rfl
    | some t =>
      rw [htag] at hr
      dsimp only at hr
      split at hr
      · cases hr
      · exact .inr ⟨t, rfl, fun s => congrFun (restoreField_assign hr) s⟩

theorem decodeRecord_independent : Independent (decodeRecord (σ := σ)) := by
  intro r r' htag s
  rcases update_cases (σ := σ) r with h | ⟨t, ht, h⟩
  · rw [h, h]
  · rcases update_cases (σ := σ) r' with h' | ⟨t', ht', h'⟩
    · rw [h', h']
    · rw [h, h', h, h']
      refine assign_comm (fun heq => htag ?_) _ _ s
      rw [← stateTag?_byte ht, ← stateTag?_byte ht', heq]

theorem decodeRecord_overriding : Overriding (decodeRecord (σ := σ)) := by
  intro r r' htag hr hr' s
  obtain ⟨f, hf⟩ := Option.isSome_iff_exists.mp hr
  obtain ⟨f', hf'⟩ := Option.isSome_iff_exists.mp hr'
  simp only [update, hf, hf']
  unfold decodeRecord at hf hf'
  rw [htag] at hf
  cases ht : stateTag? r'.tag with
  | none =>
    rw [ht] at hf
    cases hf
    rfl
  | some t =>
    rw [ht] at hf hf'
    dsimp only at hf hf'
    split at hf
    · cases hf
    · split at hf'
      · cases hf'
      · rw [restoreField_assign hf, restoreField_assign hf', assign_assign]

/-! ## The accepted buffers -/

/-- A save state: magic, version, two bytes nobody looks at, and fields. -/
def saveState (a b : U8) (rs : List Record) : List U8 :=
  stateMagic ++ statePut16 stateVersion ++ [a, b] ++ encode rs

theorem isSome_of_valid {rs : List Record} (h : ∀ r ∈ rs, FieldValid r) :
    ∀ r ∈ rs, (decodeRecord (σ := σ) r).isSome = true := fun r hr =>
  (decodeRecord_isSome_iff r).mpr (h r hr)

theorem deserialize_saveState (a b : U8) {rs : List Record} (h : ∀ r ∈ rs, FieldValid r)
    (s : M68kCpu σ) :
    deserialize (some (saveState a b rs)) s = (true, clearTransient (fold decodeRecord rs s)) := by
  have hheader : headerValid (saveState a b rs) = true := headerValid_iff.mpr ⟨a, b, _, rfl⟩
  have hdrop : (saveState a b rs).drop 8 = encode rs := rfl
  simp only [deserialize, hheader, if_true, hdrop, restore_fold (isSome_of_valid h)]

theorem deserialize_accepts_iff {buffer : List U8} {s : M68kCpu σ} :
    (deserialize (some buffer) s).1 = true ↔
      ∃ a b rs, buffer = saveState a b rs ∧ ∀ r ∈ rs, FieldValid r := by
  constructor
  · intro h
    cases hheader : headerValid buffer with
    | false => simp [deserialize, hheader] at h
    | true =>
      obtain ⟨a, b, rest, rfl⟩ := headerValid_iff.mp hheader
      simp only [deserialize, hheader, if_true] at h
      obtain ⟨rs, hrs, hvalid⟩ := restore_accepts_iff.mp h
      have hrest : rest = encode rs := hrs
      exact ⟨a, b, rs, by rw [hrest, saveState],
        fun r hr => (decodeRecord_isSome_iff r).mp (hvalid r hr)⟩
  · rintro ⟨a, b, rs, rfl, hrs⟩
    rw [deserialize_saveState a b hrs]

/-- The restore loop stays inside every buffer and ends; it accepts exactly the
format, and the state it leaves is the fold of the known fields with the
transient latches cleared. -/
theorem deserialize_format (buffer : List U8) (s : M68kCpu σ) :
    deserializeAt buffer.length buffer s = some (deserialize (some buffer) s) ∧
      ((deserialize (some buffer) s).1 = true ↔
        ∃ a b rs, buffer = saveState a b rs ∧ ∀ r ∈ rs, FieldValid r) ∧
      ∀ a b rs, buffer = saveState a b rs → (∀ r ∈ rs, FieldValid r) →
        (deserialize (some buffer) s).2 =
            clearTransient (fold decodeRecord (rs.filter knownTag) s) ∧
          fold decodeRecord (rs.filter knownTag) s =
            fold decodeRecord (lastOnly (rs.filter knownTag)) s ∧
          (∀ xs r r' ys, rs = xs ++ r :: r' :: ys → r.tag ≠ r'.tag →
            deserialize (some (saveState a b (xs ++ r' :: r :: ys))) s =
              deserialize (some buffer) s) ∧
          ∀ rs', rs.Perm rs' → (rs.map Record.tag).Nodup →
            deserialize (some (saveState a b rs')) s = deserialize (some buffer) s := by
  refine ⟨deserializeAt_eq (Nat.le_refl _) s, deserialize_accepts_iff, ?_⟩
  rintro a b rs rfl hvalid
  have hrun := deserialize_saveState a b hvalid s
  refine ⟨?_, ?_, ?_, ?_⟩
  · rw [hrun, fold_filter decodeRecord_unknown]
  · refine (fold_lastOnly decodeRecord_independent decodeRecord_overriding ?_ s).symm
    exact fun r hr => isSome_of_valid hvalid r (List.mem_filter.mp hr).1
  · rintro xs r r' ys rfl htag
    have hvalid' : ∀ x ∈ xs ++ r' :: r :: ys, FieldValid x := fun x hx =>
      hvalid x (by simp at hx ⊢; tauto)
    rw [hrun, deserialize_saveState a b hvalid', fold_swap decodeRecord_independent _ _ htag]
  · intro rs' hperm hnodup
    rw [hrun, deserialize_saveState a b (fun r hr => hvalid r (hperm.mem_iff.mpr hr)),
      fold_perm decodeRecord_independent hperm hnodup]

/-- A state with a latch set, restored from a buffer without fields. -/
theorem deserialize_clears_latches :
    ¬∀ (buffer : List U8) (s : M68kCpu Unit), (deserialize (some buffer) s).1 = true →
      ∃ a b rs, buffer = saveState a b rs ∧
        (deserialize (some buffer) s).2 = fold decodeRecord (rs.filter knownTag) s := by
  intro h
  obtain ⟨a, b, rs, hbuffer, hstate⟩ := h (saveState 0 0 [])
    { init (fun _ => 0) 0 () with faultPcValid := true } rfl
  have hnil : rs = [] := by
    have hdrop : encode rs = [] := (congrArg (List.drop 8) hbuffer).symm
    cases rs with
    | nil => rfl
    | cons r rs => simp [Record.encode] at hdrop
  subst hnil
  have hlatch := congrArg M68kCpu.faultPcValid hstate
  revert hlatch
  decide

/-! ## Restored states -/

/-- The invariant of a run: implemented status register bits, an interrupt level,
no exception in progress. -/
structure ValidCpu (s : M68kCpu σ) : Prop where
  sr : Masked s.sr
  irqLevel : s.irqLevel ≤ 7
  depth : s.exceptionDepth = 0

/-- The last field of a tag. -/
def lastField (t : StateTag) (rs : List Record) : Option Record :=
  (rs.filter fun r => r.tag == t.byte).getLast?

/-- The last status register field has implemented bits only, and the last flags
field an interrupt level. -/
def FieldsInRange (rs : List Record) : Prop :=
  (∀ r, lastField .sr rs = some r → Masked (stateGet16 r.payload)) ∧
    ∀ r, lastField .flags rs = some r → (r.payload.getD 1 0).toNat ≤ 7

theorem update_valid {r : Record} (h : FieldValid r) (s : M68kCpu σ) :
    update (decodeRecord (σ := σ)) r s =
      match stateTag? r.tag with
      | none => s
      | some t => assign t r.payload s := by
  obtain ⟨f, hf⟩ := Option.isSome_iff_exists.mp ((decodeRecord_isSome_iff (σ := σ) r).mpr h)
  simp only [update, hf]
  unfold decodeRecord at hf
  cases htag : stateTag? r.tag with
  | none =>
    rw [htag] at hf
    cases hf
    rfl
  | some t =>
    rw [htag] at hf
    dsimp only at hf
    split at hf
    · cases hf
    · exact congrFun (restoreField_assign hf) s

theorem stateTag?_of_byte (t : StateTag) : stateTag? t.byte = some t := by
  cases t <;> rfl

/-- What one tag assigns is decided by its last field. -/
theorem fold_field {β : Type} (π : M68kCpu σ → β) (t : StateTag) (value : List U8 → β)
    (hother : ∀ t' p s, t' ≠ t → π (assign t' p s) = π s)
    (hown : ∀ p s, π (assign t p s) = value p) {rs : List Record} (h : ∀ r ∈ rs, FieldValid r)
    (s : M68kCpu σ) :
    π (fold decodeRecord rs s) = (lastField t rs).elim (π s) fun r => value r.payload := by
  induction rs using List.reverseRecOn with
  | nil => rfl
  | append_singleton rs r ih =>
    have hr : FieldValid r := h r (by simp)
    rw [fold_append, fold_cons, fold_nil, update_valid hr, lastField, List.filter_append]
    by_cases htag : r.tag = t.byte
    · rw [htag, stateTag?_of_byte]
      simp [htag, hown]
    · have hkeep : π (match stateTag? r.tag with
          | none => fold decodeRecord rs s
          | some t' => assign t' r.payload (fold decodeRecord rs s)) =
          π (fold decodeRecord rs s) := by
        cases ht' : stateTag? r.tag with
        | none => rfl
        | some t' =>
          refine hother t' _ _ fun heq => htag ?_
          rw [← stateTag?_byte ht', heq]
      rw [hkeep, ih fun r' hr' => h r' (List.mem_append_left _ hr')]
      simp [htag, lastField]

theorem fold_sr {rs : List Record} (h : ∀ r ∈ rs, FieldValid r) (s : M68kCpu σ) :
    (fold decodeRecord rs s).sr = (lastField .sr rs).elim s.sr fun r => stateGet16 r.payload :=
  fold_field M68kCpu.sr .sr stateGet16 (fun t' _ _ ht => by cases t' <;> first | rfl | cases ht rfl)
    (fun _ _ => rfl) h s

theorem fold_irqLevel {rs : List Record} (h : ∀ r ∈ rs, FieldValid r) (s : M68kCpu σ) :
    (fold decodeRecord rs s).irqLevel =
      (lastField .flags rs).elim s.irqLevel fun r => (r.payload.getD 1 0).toNat :=
  fold_field M68kCpu.irqLevel .flags (fun p => (p.getD 1 0).toNat)
    (fun t' _ _ ht => by cases t' <;> first | rfl | cases ht rfl) (fun _ _ => rfl) h s

theorem fold_untagged {rs : List Record} (h : ∀ r ∈ rs, FieldValid r) (s : M68kCpu σ) :
    untagged (fold decodeRecord rs s) = untagged s := by
  obtain ⟨fs, hfs, happly⟩ := exists_updates (isSome_of_valid (σ := σ) h)
  rw [← happly]
  exact applyAll_untagged hfs s

/-- The host's calls after a restore. -/
inductive LaterRun (s : M68kCpu σ) : M68kCpu σ → Prop
  | refl : LaterRun s s
  | step {t u : M68kCpu σ} (ht : LaterRun s t) (h : step (Host.none σ) t = .ok () u) :
      LaterRun s u
  | setIrq {t : M68kCpu σ} (ht : LaterRun s t) (level : Nat) (hl : level ≤ 7) :
      LaterRun s (setIrq level t)

/-- From here on the state is valid, and a serviced request takes an autovector of
its level. -/
def StaysValid (s : M68kCpu σ) : Prop :=
  ∀ t, LaterRun s t → ValidCpu t ∧
    (interruptDue t = true → 25 ≤ (acknowledged none t.irqLevel (beginStep t)).2 ∧
      (acknowledged none t.irqLevel (beginStep t)).2 ≤ 31)

theorem Settled.valid {s : M68kCpu σ} (h : Settled s) : ValidCpu s := ⟨h.sr, h.irqLevel, h.depth⟩

theorem LaterRun.settled {s t : M68kCpu σ} (h : LaterRun s t) (hs : Settled s) : Settled t := by
  induction h with
  | refl => exact hs
  | step _ hstep ih =>
    obtain ⟨u, hu, hsettled⟩ := ih.step
    have heq := hu.symm.trans hstep
    cases heq
    exact hsettled
  | setIrq _ level hl ih => exact ⟨ih.1, ih.2, ih.3, ih.4, ih.5, ih.6, ih.7, hl, ih.9⟩

theorem Settled.staysValid {s : M68kCpu σ} (h : Settled s) : StaysValid s := by
  intro t ht
  have hsettled := ht.settled h
  refine ⟨hsettled.valid, fun hdue => ?_⟩
  have hpos : t.irqLevel ≠ 0 := by
    intro h0
    simp [interruptDue, h0] at hdue
  have hle := hsettled.irqLevel
  show 25 ≤ 24 + t.irqLevel ∧ 24 + t.irqLevel ≤ 31
  omega

/-- A restored state is one the emulator could have reached, now and in every
later run, exactly when the last status register and flags fields are in range. -/
theorem restored_valid_iff {s : M68kCpu σ} (hs : ValidCpu s) {buffer : List U8}
    (h : (deserialize (some buffer) s).1 = true) :
    ∃ a b rs, buffer = saveState a b rs ∧ (∀ r ∈ rs, FieldValid r) ∧
      (StaysValid (deserialize (some buffer) s).2 ↔ FieldsInRange rs) := by
  obtain ⟨a, b, rs, rfl, hvalid⟩ := deserialize_accepts_iff.mp h
  refine ⟨a, b, rs, rfl, hvalid, ?_⟩
  have hsr := fold_sr hvalid s
  have hirq := fold_irqLevel hvalid s
  have hdepth : (fold decodeRecord rs s).exceptionDepth = s.exceptionDepth :=
    congrArg Untagged.exceptionDepth (fold_untagged hvalid s)
  rw [deserialize_saveState a b hvalid s]
  constructor
  · intro hstays
    -- the restored state itself already shows both fields
    obtain ⟨⟨hmasked, hlevel, -⟩, -⟩ := hstays _ .refl
    have hmasked' : Masked (fold decodeRecord rs s).sr := hmasked
    have hlevel' : (fold decodeRecord rs s).irqLevel ≤ 7 := hlevel
    rw [hsr] at hmasked'
    rw [hirq] at hlevel'
    refine ⟨fun r hr => ?_, fun r hr => ?_⟩
    · rwa [hr] at hmasked'
    · rwa [hr] at hlevel'
  · rintro ⟨hmasked, hlevel⟩
    have hsr' : Masked (fold decodeRecord rs s).sr := by
      rw [hsr]
      cases hlast : lastField .sr rs with
      | none => exact hs.sr
      | some r => exact hmasked r hlast
    have hirq' : (fold decodeRecord rs s).irqLevel ≤ 7 := by
      rw [hirq]
      cases hlast : lastField .flags rs with
      | none => exact hs.irqLevel
      | some r => exact hlevel r hlast
    exact Settled.staysValid
      ⟨rfl, rfl, rfl, rfl, rfl, rfl, hdepth.trans hs.depth, hirq', hsr'⟩

theorem restored_valid_iff_sr :
    ∃ a b rs, saveState 0 0 [⟨4, [0x27, 0x00], by decide⟩] = saveState a b rs ∧
      (∀ r ∈ rs, FieldValid r) ∧
      (StaysValid (deserialize (some (saveState 0 0 [⟨4, [0x27, 0x00], by decide⟩]))
          (init (fun _ => 0) 0 ())).2 ↔ FieldsInRange rs) :=
  restored_valid_iff (s := init (fun _ => 0) 0 ()) ⟨rfl, Nat.zero_le _, rfl⟩ rfl

/-- A status register field of all ones is accepted. -/
theorem restored_invalid :
    ¬∀ (s : M68kCpu Unit) (buffer : List U8), ValidCpu s →
      (deserialize (some buffer) s).1 = true → StaysValid (deserialize (some buffer) s).2 := by
  intro h
  have hstays := h (init (fun _ => 0) 0 ()) (saveState 0 0 [⟨4, [0xFF, 0xFF], by decide⟩])
    ⟨rfl, Nat.zero_le _, rfl⟩ rfl
  have hsr : Masked _ := (hstays _ .refl).1.sr
  revert hsr
  unfold Masked
  decide

end M68k
