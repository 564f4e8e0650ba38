import Rocket68.Theorems.Srec
import Rocket68.Logic.Memory

/-!
# Intel HEX files

The records of a file, what each of them means, and the loader of the source
beside them. A base record of type 02 opens a segment of 64 KB, and offsets wrap
inside it; one of type 04 sets the upper half of a linear address. The source
adds base and offset the same way for both.
-/

namespace M68k

open Trap TrapM Text

variable {σ : Type}

/-! ## The records -/

/-- The base that later data records are relative to. -/
inductive Base where
  | segment (address : U32)
  | linear (address : U32)
  deriving DecidableEq

/-- The address of the base. -/
def Base.value : Base → U32
  | .segment address => address
  | .linear address => address

/-- Where byte `i` of a record with an offset goes. -/
def Base.place : Base → Nat → Nat → U32
  | .segment address, offset, i => address + BitVec.ofNat 32 ((offset + i) % 65536)
  | .linear address, offset, i => address + BitVec.ofNat 32 (offset + i)

/-- A record of `n` bytes does not run over the end of a segment. -/
def Base.Holds : Base → Nat → Nat → Prop
  | .segment _, offset, n => offset + n ≤ 65536
  | .linear _, _, _ => True

/-- What a record does. -/
inductive HexRecord where
  | data (offset : Nat) (bytes : List U8)
  | endOfFile
  | base (base : Base)
  | start (address : U32)
  deriving DecidableEq

/-- The record of a sequence of bytes: count, offset, type, data, checksum. -/
def hexOf? : List U8 → Option HexRecord
  | count :: high :: low :: type :: rest =>
      let data := rest.dropLast
      if type = 0x00 then some (.data (bigEndian [high, low]).toNat data)
      else if type = 0x01 then some .endOfFile
      else if type = 0x02 then
        if count = 2 then some (.base (.segment (bigEndian data <<< 4))) else none
      else if type = 0x04 then
        if count = 2 then some (.base (.linear (bigEndian data <<< 16))) else none
      else if type = 0x03 then
        if count = 4 then
          some (.start ((bigEndian (data.take 2) <<< 4) + bigEndian (data.drop 2)))
        else none
      else if type = 0x05 then
        if count = 4 then some (.start (bigEndian data)) else none
      else none
  | _ => none

/-- The bytes after the record mark. Anything may follow the last one. -/
def hexRecordBytes? (text : List U8) : Option (List U8) := do
  let count ← countByte? text
  let bytes ← hexBytes (count + 5) text
  if byteSum bytes % 256 = 0 then some bytes else none

/-- The record on a line. -/
def hexRecord? : List U8 → Option HexRecord
  | mark :: text => if mark = chr ':' then (hexRecordBytes? text).bind hexOf? else none
  | [] => none

/-- The loop body of the source, after its parts. -/
def ihexStep (base : U32) : Option HexRecord → M σ (Option U32)
  | none => pure (some base)
  | some (.data offset bytes) => do
      modify (storeSeq (placed (fun i => base + BitVec.ofNat 32 offset + BitVec.ofNat 32 i) bytes))
      pure (some base)
  | some .endOfFile => pure none
  | some (.base base) => pure (some base.value)
  | some (.start address) => do
      setPc address
      pure (some base)

/-- Line ends are no part of a record. -/
theorem hexRecord_append {line u : List U8} (hu : ∀ c ∈ u, c = chr '\n' ∨ c = chr '\r') :
    hexRecord? (line ++ u) = hexRecord? line := by
  have hother (c : U8) (hc : c ∈ u) : isXdigit c = false := by
    rcases hu c hc with rfl | rfl <;> decide
  match line with
  | [] =>
      match u with
      | [] => rfl
      | c :: u =>
          have hc : c ≠ chr ':' := by
            rcases hu c List.mem_cons_self with rfl | rfl <;> decide
          simp [hexRecord?, hc]
  | a :: text =>
      simp only [List.cons_append, hexRecord?, hexRecordBytes?, countByte?,
        hexBytes_append_other _ _ hother]

/-- What the source cuts off a line. -/
theorem trimIhex_append (line : List U8) :
    ∃ u, line = trimIhex line ++ u ∧ ∀ c ∈ u, c = chr '\n' ∨ c = chr '\r' := by
  refine ⟨(line.reverse.takeWhile fun c => c == chr '\n' || c == chr '\r').reverse, ?_, ?_⟩
  · rw [trimIhex, ← List.reverse_append, List.takeWhile_append_dropWhile, List.reverse_reverse]
  · intro c hc
    have htake := List.mem_takeWhile_imp (List.mem_reverse.mp hc)
    simpa using htake

theorem parseBytes_header (count : Nat) (text : List U8) :
    parseBytes (count + 5) text =
      parseByte text :: parseByte (text.drop 2) :: parseByte (text.drop 4) ::
        parseByte (text.drop 6) :: parseBytes (count + 1) (text.drop 8) := by
  simp only [parseBytes, List.drop_drop]

/-- The switch over the type. -/
theorem ihexRecord_eq (base : U32) {count : Nat} {text : List U8}
    (hcount : (parseByte text).toNat = count) :
    ihexRecord (σ := σ) base (parseByte (text.drop 6)) count
        (bigEndian (parseBytes 2 (text.drop 2))) (text.drop 8) =
      ihexStep base (hexOf? (parseBytes (count + 5) text)) := by
  have hlast : (parseBytes (count + 1) (text.drop 8)).dropLast = parseBytes count
    (text.drop 8) := by
    rw [List.dropLast_eq_take, parseBytes_length]
    exact parseBytes_take count 1 _
  have hoffset : [parseByte (text.drop 2), parseByte (text.drop 4)] =
      parseBytes 2 (text.drop 2) := by
    simp only [parseBytes, List.drop_drop]
  have hfield (n : Nat) (hn : n < 256) : parseByte text = BitVec.ofNat 8 n ↔ count = n := by
    rw [← BitVec.toNat_inj, hcount, BitVec.toNat_ofNat, Nat.mod_eq_of_lt hn]
  have h2 : parseByte text = 2 ↔ count = 2 := hfield 2 (by decide)
  have h4 : parseByte text = 4 ↔ count = 4 := hfield 4 (by decide)
  rw [parseBytes_header]
  unfold ihexRecord hexOf?
  simp only [hlast, hoffset, loadData_eq, Nat.zero_add, h2, h4]
  generalize parseByte (text.drop 6) = type
  -- the cases of the switch, each with its own test of the length
  by_cases t0 : type = 0x00
  · simp only [if_pos t0, ihexStep, BitVec.ofNat_toNat, BitVec.setWidth_eq]
  by_cases t1 : type = 0x01
  · simp only [if_neg t0, if_pos t1, ihexStep]
  by_cases t2 : type = 0x02
  · simp only [if_neg t0, if_neg t1, if_pos t2]
    by_cases hc : count = 2
    · simp only [hc, if_true, ihexStep, Base.value, List.drop_zero]
    · simp only [if_neg hc, ihexStep]
  by_cases t4 : type = 0x04
  · simp only [if_neg t0, if_neg t1, if_neg t2, if_pos t4]
    by_cases hc : count = 2
    · simp only [hc, if_true, ihexStep, Base.value, List.drop_zero]
    · simp only [if_neg hc, ihexStep]
  by_cases t3 : type = 0x03
  · simp only [if_neg t0, if_neg t1, if_neg t2, if_neg t4, if_pos t3]
    by_cases hc : count = 4
    · have hhigh := parseBytes_take 2 2 (text.drop 8)
      have hlow := parseBytes_drop 2 2 (text.drop 8)
      simp only [hc, if_true, ihexStep, List.drop_zero, hhigh, hlow]
    · simp only [if_neg hc, ihexStep]
  by_cases t5 : type = 0x05
  · simp only [if_neg t0, if_neg t1, if_neg t2, if_neg t4, if_neg t3, if_pos t5]
    by_cases hc : count = 4
    · simp only [hc, if_true, ihexStep]
    · simp only [if_neg hc, ihexStep]
  simp only [if_neg t0, if_neg t1, if_neg t2, if_neg t4, if_neg t3, if_neg t5, ihexStep]

/-- One line of the source is the record on it. -/
theorem ihexLine_eq (base : U32) {line : List U8} (hnul : 0 ∉ line) :
    ihexLine (σ := σ) base line = ihexStep base (hexRecord? line) := by
  obtain ⟨u, hline, hu⟩ := trimIhex_append line
  have htrim : hexRecord? line = hexRecord? (trimIhex line) := by
    conv_lhs => rw [hline]
    exact hexRecord_append hu
  unfold ihexLine
  rw [cString_eq hnul, htrim]
  match trimIhex line with
  | [] => rfl
  | a :: text =>
      have hlen : (a :: text).length = text.length + 1 := rfl
      have hdrop (n : Nat) : (a :: text).drop (n + 1) = text.drop n := rfl
      have hmark : charAt (a :: text) 0 = a := rfl
      simp only [hlen, hdrop, hmark, hexRecord?, List.drop_zero]
      rw [if_neg (Nat.succ_ne_zero _)]
      by_cases ha : a = chr ':'
      · rw [if_neg (not_not_intro ha), if_pos ha]
        -- the code tests in order: the mark, the header, the digits, the checksum
        by_cases hv : isValidHex text 8 = true
        · have hcount : countByte? text = some (parseByte text).toNat := by
            rw [countByte_eq, if_pos (isValidHex_mono (by omega) hv)]
          obtain ⟨count, hparse⟩ : ∃ count, (parseByte text).toNat = count := ⟨_, rfl⟩
          rw [hparse] at hcount ⊢
          have hdouble : (count + 5) * 2 = 2 * (count + 5) := Nat.mul_comm _ _
          by_cases hr : isValidHex text (2 * (count + 5)) = true
          · have hle := isValidHex_length hr
            have hbytes : hexBytes (count + 5) text = some (parseBytes (count + 5) text) := by
              rw [hexBytes_eq, if_pos hr]
            rw [if_neg (by omega), if_neg (by simp [hv]), if_neg (by omega), hdouble,
              if_neg (by simp [hr])]
            by_cases hsum : byteSum (parseBytes (count + 5) text) % 256 = 0
            · have hrec : hexRecordBytes? text = some (parseBytes (count + 5) text) := by
                simp [hexRecordBytes?, hcount, hbytes, hsum]
              rw [if_neg (not_not_intro hsum), hrec]
              exact ihexRecord_eq base hparse
            · have hrec : hexRecordBytes? text = none := by
                simp [hexRecordBytes?, hcount, hbytes, hsum]
              rw [if_pos hsum, hrec]
              rfl
          · have hrec : hexRecordBytes? text = none := by
              simp [hexRecordBytes?, hcount, hexBytes_eq, hr]
            have hbad : (!isValidHex text (2 * (count + 5))) = true := by simpa using hr
            rw [hrec, hdouble, if_pos hbad]
            simp only [ite_self]
            rfl
        · -- Without eight digits the header has no count, or the record is too short.
          have hrec : hexRecordBytes? text = none := by
            apply Option.eq_none_iff_forall_ne_some.mpr
            intro bytes hbytes
            obtain ⟨count, hcount, h⟩ := Option.bind_eq_some_iff.mp hbytes
            obtain ⟨bytes', hhex, -⟩ := Option.bind_eq_some_iff.mp h
            exact hv (isValidHex_mono (by omega) (hexBytes_some hhex).1)
          have hbad : (!isValidHex text 8) = true := by simpa using hv
          rw [hrec, if_pos hbad, ite_self]
          rfl
      · rw [if_pos ha, if_neg ha]
        rfl

/-! ## The loop of the source -/

/-- The loop of the source over what the calls of `fgets` return. -/
def ihexReads : U32 → List (List U8) → M σ Unit
  | _, [] => pure ()
  | base, line :: rest => do
      match ← ihexLine base line with
      | none => pure ()
      | some base => ihexReads base rest

theorem ihexLines_reads {fuel : Nat} {text : List U8} (base : U32) (hfuel : text.length < fuel) :
    ihexLines (σ := σ) fuel base text = ihexReads base (pieces (chr '\n') 598 598 text) := by
  induction fuel generalizing text base with
  | zero => exact absurd hfuel (Nat.not_lt_zero _)
  | succ fuel ih =>
      by_cases htext : text = []
      · subst htext
        rfl
      · obtain ⟨hpieces, hne, hlen⟩ := fgets_pieces 598 598 htext
        have hnext := fun base => ih base (Nat.lt_of_lt_of_le hlen (Nat.le_of_lt_succ hfuel))
        rw [hpieces, ihexReads, ihexLines]
        cases hgets : fgets 599 text with
        | mk line rest =>
            rw [hgets] at hne hnext
            cases line with
            | nil => exact absurd rfl hne
            | cons c line =>
                refine congrArg (ihexLine base (c :: line) >>= ·) ?_
                funext next
                cases next with
                | none => rfl
                | some base => exact hnext base

end M68k
