import Rocket68.Logic.Records
import Rocket68.Step
import Mathlib.Data.List.TakeWhile

/-!
# S-record files

The grammar of a record, a loader that goes through the physical lines of a file
with it, and the loader of the source beside it. The source reads through a
buffer of 512 characters: a line that is longer reaches it in pieces, and each
piece is a line of its own to it.
-/

namespace M68k

open Trap TrapM Text

variable {σ : Type}

/-! ## The grammar -/

/-- What a record does. -/
inductive SRecord where
  | data (address : U32) (bytes : List U8)
  | entry (address : U32)
  deriving DecidableEq

/-- The type digit: whether the record carries data, and the length of its
address. -/
def srecKind? (digit : U8) : Option (Bool × Nat) :=
  if digit = chr '1' then some (true, 2)
  else if digit = chr '2' then some (true, 3)
  else if digit = chr '3' then some (true, 4)
  else if digit = chr '7' then some (false, 4)
  else if digit = chr '8' then some (false, 3)
  else if digit = chr '9' then some (false, 2)
  else none

/-- The number that the first pair of digits writes. -/
def countByte? (text : List U8) : Option Nat :=
  (hexBytes 1 text).map fun bytes => (bytes.headD 0).toNat

/-- The effect of a record whose count, address, data and checksum bytes are
`bytes`. -/
def srecEffect (isData : Bool) (addrLen : Nat) (bytes : List U8) : SRecord :=
  let body := (bytes.drop 1).dropLast
  let address := bigEndian (body.take addrLen)
  if isData then .data address (body.drop addrLen) else .entry address

/-- The count, address, data and checksum bytes after the type digit. Anything
may follow the last one. -/
def srecBytes? (text : List U8) : Option (List U8) := do
  let count ← countByte? text
  let bytes ← hexBytes (count + 1) text
  if byteSum bytes % 256 = 0xFF then some bytes else none

/-- A record has room for its address and its checksum. -/
def srecOf? (digit : U8) (bytes : List U8) : Option SRecord :=
  match srecKind? digit with
  | some (isData, addrLen) =>
      if addrLen + 1 ≤ bytes.length - 1 then some (srecEffect isData addrLen bytes) else none
  | none => none

/-- The record on a line. -/
def srecRecord? : List U8 → Option SRecord
  | mark :: digit :: text =>
      if mark = chr 'S' then (srecBytes? text).bind (srecOf? digit) else none
  | _ => none

/-- The lines of a file in order: the first record with an entry point ends
the loading. -/
def loadRecords : List (List U8) → M σ Unit
  | [] => pure ()
  | line :: rest =>
      match srecRecord? line with
      | none => loadRecords rest
      | some (.data address bytes) => do
          modify (storeSeq (placed (fun i => address + BitVec.ofNat 32 i) bytes))
          loadRecords rest
      | some (.entry address) => setPc address

/-! ## A line of the source -/

/-- The switch of the source, beside the type digits of the grammar. -/
theorem srecAddrLen_data {digit : U8} {n : Nat} (h : srecKind? digit = some (true, n)) :
    srecAddrLen? digit = some n ∧ (digit = chr '1' ∨ digit = chr '2' ∨ digit = chr '3') := by
  unfold srecKind? at h
  split_ifs at h with h1 h2 h3 <;> cases h
  · subst h1; decide
  · subst h2; decide
  · subst h3; decide

theorem srecAddrLen_entry {digit : U8} {n : Nat} (h : srecKind? digit = some (false, n)) :
    srecAddrLen? digit = some n ∧ ¬(digit = chr '1' ∨ digit = chr '2' ∨ digit = chr '3') ∧
      (digit = chr '7' ∨ digit = chr '8' ∨ digit = chr '9') := by
  unfold srecKind? at h
  split_ifs at h with h1 h2 h3 h7 h8 h9 <;> cases h
  · subst h7; decide
  · subst h8; decide
  · subst h9; decide

theorem srecKind_none {digit : U8} (h : srecKind? digit = none) :
    ¬(digit = chr '1' ∨ digit = chr '2' ∨ digit = chr '3') ∧
      ¬(digit = chr '7' ∨ digit = chr '8' ∨ digit = chr '9') := by
  unfold srecKind? at h
  split_ifs at h with h1 h2 h3 h7 h8 h9
  simp [h1, h2, h3, h7, h8, h9]

/-- Line ends are no part of a record. -/
theorem srecRecord_append {line u : List U8} (hu : ∀ c ∈ u, c = chr '\n' ∨ c = chr '\r') :
    srecRecord? (line ++ u) = srecRecord? line := by
  have hother (c : U8) (hc : c ∈ u) : isXdigit c = false := by
    rcases hu c hc with rfl | rfl <;> decide
  match line with
  | [] =>
      match u with
      | [] => rfl
      | [c] => rfl
      | c :: d :: u =>
          have hc : c ≠ chr 'S' := by
            rcases hu c List.mem_cons_self with rfl | rfl <;> decide
          simp [srecRecord?, hc]
  | [a] =>
      match u with
      | [] => rfl
      | c :: u =>
          have hc : srecKind? c = none := by
            rcases hu c List.mem_cons_self with rfl | rfl <;> decide
          have hof : srecOf? c = fun _ => none := by
            funext bytes
            rw [srecOf?, hc]
          simp [srecRecord?, hof]
  | a :: b :: text =>
      simp only [List.cons_append, srecRecord?, srecBytes?, countByte?,
        hexBytes_append_other _ _ hother]

/-- What the source cuts off a line. -/
theorem trimSrec_append (line : List U8) :
    ∃ u, line = trimSrec line ++ u ∧ ∀ c ∈ u, c = chr '\n' ∨ c = chr '\r' := by
  have hcut (l : List U8) (c : U8) : ∃ u, l = (if l.getLast? = some c then l.dropLast else l) ++ u ∧
      ∀ d ∈ u, d = c := by
    by_cases hlast : l.getLast? = some c
    · rw [if_pos hlast]
      exact ⟨[c], (List.dropLast_append_getLast? c hlast).symm, by simp⟩
    · rw [if_neg hlast]
      exact ⟨[], by simp, by simp⟩
  obtain ⟨u, hu, hnl⟩ := hcut line (chr '\n')
  obtain ⟨v, hv, hcr⟩ := hcut (if line.getLast? = some (chr '\n') then line.dropLast else line)
    (chr '\r')
  refine ⟨v ++ u, ?_, ?_⟩
  · rw [← List.append_assoc]
    exact hu.trans (congrArg (· ++ u) hv)
  · intro c hc
    rcases List.mem_append.mp hc with hc | hc
    · exact .inr (hcr c hc)
    · exact .inl (hnl c hc)

theorem cString_eq {line : List U8} (h : 0 ∉ line) : cString line = line := by
  apply List.takeWhile_eq_self_iff.mpr
  intro c hc
  simp only [bne_iff_ne, ne_eq]
  rintro rfl
  exact h hc

/-- The loop body of the source, after its parts. -/
def srecStep : Option SRecord → M σ Bool
  | none => pure true
  | some (.data address bytes) => do
      modify (storeSeq (placed (fun i => address + BitVec.ofNat 32 i) bytes))
      pure true
  | some (.entry address) => do
      setPc address
      pure false

theorem countByte_eq (text : List U8) :
    countByte? text = if isValidHex text 2 then some (parseByte text).toNat else none := by
  rw [countByte?, hexBytes_eq]
  by_cases h : isValidHex text 2 = true
  · simp [h, parseBytes]
  · simp [h]

/-- The bytes of a record between its count and its checksum. -/
theorem srecEffect_eq (isData : Bool) {addrLen count : Nat} (text : List U8)
    (h : addrLen + 1 ≤ count) :
    srecEffect isData addrLen (parseBytes (count + 1) text) =
      if isData then
        .data (bigEndian (parseBytes addrLen (text.drop 2)))
          (parseBytes (count - addrLen - 1) (text.drop (2 + 2 * addrLen)))
      else .entry (bigEndian (parseBytes addrLen (text.drop 2))) := by
  have hcount : count + 1 = 1 + (addrLen + (count - addrLen - 1) + 1) := by omega
  have hbody : ((parseBytes (count + 1) text).drop 1).dropLast =
      parseBytes (addrLen + (count - addrLen - 1)) (text.drop 2) := by
    rw [hcount, parseBytes_drop, List.dropLast_eq_take, parseBytes_length]
    exact parseBytes_take _ 1 _
  unfold srecEffect
  simp only [hbody, parseBytes_take, parseBytes_drop, List.drop_drop]

/-- The switch over the type. -/
theorem srecType_eq (digit a b : U8) (count : Nat) (text : List U8) :
    srecType (σ := σ) digit count (a :: b :: text) =
      srecStep (srecOf? digit (parseBytes (count + 1) text)) := by
  have hdrop (n : Nat) : (a :: b :: text).drop (4 + 2 * n) = text.drop (2 + 2 * n) := by
    rw [show 4 + 2 * n = 2 + 2 * n + 1 + 1 by omega]
    rfl
  have haddr : (a :: b :: text).drop 4 = text.drop 2 := rfl
  have hlength : (parseBytes (count + 1) text).length - 1 = count := by
    rw [parseBytes_length, Nat.add_sub_cancel]
  unfold srecType srecOf?
  rw [hlength]
  cases hkind : srecKind? digit with
  | none =>
      obtain ⟨hdata, hentry⟩ := srecKind_none hkind
      cases srecAddrLen? digit with
      | none => rfl
      | some n => simp only [if_neg hdata, if_neg hentry, ite_self, srecStep]
  | some kind =>
      obtain ⟨isData, n⟩ := kind
      have hlen : srecAddrLen? digit = some n := by
        cases isData with
        | true => exact (srecAddrLen_data hkind).1
        | false => exact (srecAddrLen_entry hkind).1
      rw [hlen]
      -- a count too small for the address and the checksum makes no record
      by_cases hroom : n + 1 ≤ count
      · simp only [hdrop, haddr, loadData_eq, Nat.zero_add, if_pos hroom,
          if_neg (Nat.not_lt.mpr hroom),
          srecEffect_eq isData text hroom]
        cases isData with
        | true =>
            simp only [if_pos (srecAddrLen_data hkind).2]
            rfl
        | false =>
            obtain ⟨-, hdata, hentry⟩ := srecAddrLen_entry hkind
            simp only [if_neg hdata, if_pos hentry]
            rfl
      · simp only [if_neg hroom, if_pos (Nat.not_le.mp hroom), srecStep]

/-- One line of the source is the record of the grammar on it. -/
theorem srecLine_eq {line : List U8} (hnul : 0 ∉ line) :
    srecLine (σ := σ) line = srecStep (srecRecord? line) := by
  obtain ⟨u, hline, hu⟩ := trimSrec_append line
  have htrim : srecRecord? line = srecRecord? (trimSrec line) := by
    conv_lhs => rw [hline]
    exact srecRecord_append hu
  unfold srecLine
  rw [cString_eq hnul, htrim]
  match trimSrec line with
  | [] => rfl
  | [a] => rfl
  | a :: b :: text =>
      have hlen : (a :: b :: text).length = text.length + 2 := rfl
      have hdrop : (a :: b :: text).drop 2 = text := rfl
      have hmark : charAt (a :: b :: text) 0 = a := rfl
      have hdigit : charAt (a :: b :: text) 1 = b := rfl
      simp only [hlen, hdrop, hmark, hdigit, srecRecord?, srecType_eq]
      by_cases ha : a = chr 'S'
      -- the code tests in order: the mark, the count, the digits, the checksum
      · by_cases hv : isValidHex text 2 = true
        · have hshort : ¬text.length + 2 < 4 := by
            have := isValidHex_length hv
            omega
          have hcount : countByte? text = some (parseByte text).toNat := by
            rw [countByte_eq, if_pos hv]
          rw [if_neg hshort, if_neg (not_not_intro ha), if_pos ha, if_neg (by simp [hv])]
          generalize (parseByte text).toNat = count at hcount ⊢
          have hdouble : (count + 1) * 2 = 2 * (count + 1) := Nat.mul_comm _ _
          by_cases hr : isValidHex text (2 * (count + 1)) = true
          · have hfits : ¬text.length + 2 < 4 + count * 2 := by
              have := isValidHex_length hr
              omega
            have hbytes : hexBytes (count + 1) text = some (parseBytes (count + 1) text) := by
              rw [hexBytes_eq, if_pos hr]
            rw [if_neg hfits, hdouble, if_neg (by simp [hr])]
            by_cases hsum : byteSum (parseBytes (count + 1) text) % 256 = 0xFF
            · have hrec : srecBytes? text = some (parseBytes (count + 1) text) := by
                simp [srecBytes?, hcount, hbytes, hsum]
              rw [if_neg (not_not_intro hsum), hrec]
              rfl
            · have hrec : srecBytes? text = none := by
                simp [srecBytes?, hcount, hbytes, hsum]
              rw [if_pos hsum, hrec]
              rfl
          · have hrec : srecBytes? text = none := by
              simp [srecBytes?, hcount, hexBytes_eq, hr]
            have hbad : (!isValidHex text (2 * (count + 1))) = true := by simpa using hr
            rw [hrec, hdouble, if_pos hbad, ite_self]
            rfl
        · have hrec : srecBytes? text = none := by
            simp [srecBytes?, countByte_eq, hv]
          have hbad : (!isValidHex text 2) = true := by simpa using hv
          rw [if_pos ha, hrec, if_neg (not_not_intro ha), if_pos hbad, ite_self]
          rfl
      · rw [if_neg ha, if_pos ha, ite_self]
        rfl

/-! ## The loop of the source -/

theorem loadRecords_cons (line : List U8) (rest : List (List U8)) :
    loadRecords (σ := σ) (line :: rest) = (do
      if ← srecStep (srecRecord? line) then loadRecords rest else pure ()) := by
  rw [loadRecords]
  cases srecRecord? line with
  | none => rfl
  | some record =>
      cases record with
      | data address bytes => rfl
      | entry address =>
          show setPc address = (setPc address >>= fun _ => pure false) >>= _
          rw [bind_assoc]
          exact (bind_pure (setPc address)).symm

/-- The loop of the source over what the calls of `fgets` return. -/
def srecReads : List (List U8) → M σ Unit
  | [] => pure ()
  | line :: rest => do
      if ← srecLine line then srecReads rest else pure ()

theorem srecLines_reads {fuel : Nat} {text : List U8} (hfuel : text.length < fuel) :
    srecLines (σ := σ) fuel text = srecReads (pieces (chr '\n') 510 510 text) := by
  induction fuel generalizing text with
  | zero => exact absurd hfuel (Nat.not_lt_zero _)
  | succ fuel ih =>
      by_cases htext : text = []
      · subst htext
        rfl
      · obtain ⟨hpieces, hne, hlen⟩ := fgets_pieces 510 510 htext
        rw [hpieces, srecReads, ← ih (Nat.lt_of_lt_of_le hlen (Nat.le_of_lt_succ hfuel)), srecLines]
        cases hgets : fgets 511 text with
        | mk line rest =>
            rw [hgets] at hne
            cases line with
            | nil => exact absurd rfl hne
            | cons c line => rfl

/-- Without NULs each line is the record on it. -/
theorem srecReads_eq {ls : List (List U8)} (hnul : ∀ line ∈ ls, 0 ∉ line) :
    srecReads (σ := σ) ls = loadRecords ls := by
  induction ls with
  | nil => rfl
  | cons line rest ih =>
      rw [srecReads, loadRecords_cons, srecLine_eq (hnul line List.mem_cons_self),
        ih fun l hl => hnul l (List.mem_cons_of_mem _ hl)]

/-- The source goes through the pieces of the text as the grammar goes through
lines. -/
theorem srecLines_eq {fuel : Nat} {text : List U8} (hfuel : text.length < fuel)
    (hnul : 0 ∉ text) :
    srecLines (σ := σ) fuel text = loadRecords (pieces (chr '\n') 510 510 text) := by
  rw [srecLines_reads hfuel]
  exact srecReads_eq fun line hline hmem => hnul (mem_of_mem_pieces _ hline hmem)

/-! ## Lines and pieces -/

/-- The record on a line, if there is one, ends within the 511 characters the
buffer takes. -/
def FitsBuffer (line : List U8) : Prop :=
  srecRecord? line ≠ none → ∀ count ∈ countByte? (line.drop 2), 4 + 2 * count < 512

/-- No line that the loading reaches has a record the buffer cannot take, or a
record of its own in what the buffer leaves for the next call. -/
def Unbroken : List (List U8) → Prop
  | [] => True
  | line :: rest =>
      FitsBuffer line ∧
        match srecRecord? line with
        | some (.entry _) => True
        | _ => (∀ piece ∈ (pieces (chr '\n') 510 510 line).tail, srecRecord? piece = none) ∧
            Unbroken rest

theorem srecBytes_some {text bytes : List U8} :
    srecBytes? text = some bytes ↔
      ∃ count, countByte? text = some count ∧ hexBytes (count + 1) text = some bytes ∧
        byteSum bytes % 256 = 0xFF := by
  unfold srecBytes?
  constructor
  · intro h
    obtain ⟨count, hcount, h⟩ := Option.bind_eq_some_iff.mp h
    obtain ⟨bytes', hhex, h⟩ := Option.bind_eq_some_iff.mp h
    split at h
    · rename_i hsum
      cases h
      exact ⟨count, hcount, hhex, hsum⟩
    · cases h
  · rintro ⟨count, hcount, hhex, hsum⟩
    simp [hcount, hhex, hsum]

theorem countByte_append {text : List U8} {count : Nat} (u : List U8)
    (h : countByte? text = some count) : countByte? (text ++ u) = some count := by
  obtain ⟨bytes, hbytes, hcount⟩ := Option.map_eq_some_iff.mp h
  rw [countByte?, hexBytes_append u hbytes, ← hcount]
  rfl

theorem countByte_take {text : List U8} {count m : Nat} (hm : 2 ≤ m)
    (h : countByte? text = some count) : countByte? (text.take m) = some count := by
  obtain ⟨bytes, hbytes, hcount⟩ := Option.map_eq_some_iff.mp h
  rw [countByte?, hexBytes_take hbytes hm, ← hcount]
  rfl

/-- Lines without a record have no effect. -/
theorem loadRecords_append {later : List (List U8)} (h : ∀ piece ∈ later, srecRecord? piece = none)
    (rest : List (List U8)) : loadRecords (σ := σ) (later ++ rest) = loadRecords rest := by
  induction later with
  | nil => rfl
  | cons piece later ih =>
      have hpiece := h piece List.mem_cons_self
      rw [List.cons_append, loadRecords, hpiece]
      exact ih fun p hp => h p (List.mem_cons_of_mem _ hp)

/-- What a piece says, the line says. -/
theorem srecRecord_extend {line : List U8} {record : SRecord} (u : List U8)
    (h : srecRecord? line = some record) : srecRecord? (line ++ u) = some record := by
  match line with
  | [] => cases h
  | [a] => cases h
  | a :: b :: text =>
      simp only [srecRecord?, List.cons_append] at h ⊢
      split at h
      · rename_i ha
        obtain ⟨bytes, hbytes, hrecord⟩ := Option.bind_eq_some_iff.mp h
        obtain ⟨count, hcount, hhex, hsum⟩ := srecBytes_some.mp hbytes
        have hext : srecBytes? (text ++ u) = some bytes :=
          srecBytes_some.mpr
            ⟨count, countByte_append u hcount, hexBytes_append u hhex, hsum⟩
        rw [if_pos ha, hext]
        exact hrecord
      · cases h

/-- The first piece of a line has its record exactly if the buffer takes it. -/
theorem srecRecord_take {line : List U8} (h : FitsBuffer line) :
    srecRecord? (line.take 511) = srecRecord? line := by
  match line with
  | [] => rfl
  | [a] => rfl
  | a :: b :: text =>
      cases hline : srecRecord? (a :: b :: text) with
      | none =>
          apply Option.eq_none_iff_forall_ne_some.mpr
          intro record hpiece
          have hext := srecRecord_extend ((a :: b :: text).drop 511) hpiece
          rw [List.take_append_drop, hline] at hext
          cases hext
      | some record =>
          simp only [FitsBuffer, hline, List.drop_succ_cons, List.drop_zero] at h
          simp only [srecRecord?, List.take_succ_cons] at hline ⊢
          split at hline
          · rename_i ha
            obtain ⟨bytes, hbytes, hrecord⟩ := Option.bind_eq_some_iff.mp hline
            obtain ⟨count, hcount, hhex, hsum⟩ := srecBytes_some.mp hbytes
            have hroom := h (by simp) count hcount
            have hpiece : srecBytes? (text.take 509) = some bytes :=
              srecBytes_some.mpr
                ⟨count, countByte_take (by omega) hcount, hexBytes_take hhex (by omega), hsum⟩
            rw [if_pos ha, hpiece]
            exact hrecord
          · cases hline

/-- A record on a text says how long the text is. -/
theorem srecRecord_length {line : List U8} {record : SRecord}
    (h : srecRecord? line = some record) :
    ∃ count, countByte? (line.drop 2) = some count ∧ 4 + 2 * count ≤ line.length := by
  match line with
  | [] => cases h
  | [a] => cases h
  | a :: b :: text =>
      simp only [srecRecord?] at h
      split at h
      · obtain ⟨bytes, hbytes, -⟩ := Option.bind_eq_some_iff.mp h
        obtain ⟨count, hcount, hhex, -⟩ := srecBytes_some.mp hbytes
        have hle := isValidHex_length (hexBytes_some hhex).1
        refine ⟨count, hcount, ?_⟩
        simp only [List.length_cons]
        omega
      · cases h

/-- The first piece of a line has its record exactly if the buffer takes it. -/
theorem srecRecord_take_iff (line : List U8) :
    srecRecord? (line.take 511) = srecRecord? line ↔ FitsBuffer line := by
  constructor
  · intro heq hne count hcount
    obtain ⟨record, hrecord⟩ := Option.ne_none_iff_exists'.mp hne
    obtain ⟨count', hcount', hlen⟩ := srecRecord_length (heq.trans hrecord)
    have hdrop : line.drop 2 = (line.take 511).drop 2 ++ (line.drop 511) := by
      have hafter : line.drop 511 = (line.drop 2).drop 509 := by rw [List.drop_drop]
      rw [List.drop_take, hafter]
      exact (List.take_append_drop 509 (line.drop 2)).symm
    rw [hdrop, countByte_append _ hcount'] at hcount
    cases hcount
    have hle : (line.take 511).length ≤ 511 := List.length_take_le _ _
    omega
  · exact srecRecord_take

/-- Lines that the buffer takes whole, newline included. -/
theorem unbroken_of_short {ls : List (List U8)}
    (hlines : ∀ line ∈ ls, line ≠ [] ∧ chr '\n' ∉ line.dropLast)
    (h : ∀ line ∈ ls, line.length < 512) : Unbroken ls := by
  induction ls with
  | nil => trivial
  | cons line rest ih =>
      obtain ⟨hne, hnl⟩ := hlines line List.mem_cons_self
      have hlen := h line List.mem_cons_self
      have hwhole : pieces (chr '\n') 510 510 line = [line] :=
        pieces_short _ _ _ hnl hne (by omega)
      have hrest : Unbroken rest :=
        ih (fun l hl => hlines l (List.mem_cons_of_mem _ hl))
          fun l hl => h l (List.mem_cons_of_mem _ hl)
      refine ⟨?_, ?_⟩
      · rw [← srecRecord_take_iff, List.take_of_length_le (by omega)]
      · rw [hwhole]
        split
        · trivial
        · exact ⟨by simp, hrest⟩

theorem loadRecords_entry {line : List U8} {address : U32}
    (h : srecRecord? line = some (.entry address)) (rest : List (List U8)) :
    loadRecords (σ := σ) (line :: rest) = setPc address := by
  rw [loadRecords, h]

/-- The loader of the source goes through the lines of an unbroken text. -/
theorem loadRecords_pieces {ls : List (List U8)}
    (hlines : ∀ line ∈ ls, line ≠ [] ∧ chr '\n' ∉ line.dropLast) (h : Unbroken ls) :
    loadRecords (σ := σ) (ls.flatMap (pieces (chr '\n') 510 510)) = loadRecords ls := by
  induction ls with
  | nil => rfl
  | cons line rest ih =>
      obtain ⟨hfits, hrest⟩ := h
      obtain ⟨hne, hnl⟩ := hlines line List.mem_cons_self
      have htail := fun l hl => hlines l (List.mem_cons_of_mem _ hl)
      have hhead := pieces_head (chr '\n') 510 510 hnl
      rw [List.flatMap_cons, loadRecords_cons]
      cases hp : pieces (chr '\n') 510 510 line with
      | nil => exact absurd hp (pieces_ne_nil _ hne)
      | cons piece later =>
          rw [hp, List.headI_cons] at hhead
          rw [hp, List.tail_cons] at hrest
          rw [List.cons_append, loadRecords_cons, hhead, srecRecord_take hfits]
          cases hrecord : srecRecord? line with
          | none =>
              rw [hrecord] at hrest
              rw [loadRecords_append hrest.1, ih htail hrest.2]
          | some record =>
              rw [hrecord] at hrest
              cases record with
              | data address bytes => rw [loadRecords_append hrest.1, ih htail hrest.2]
              | entry address =>
                  rw [← hrecord, ← loadRecords_cons, ← loadRecords_cons,
                    loadRecords_entry hrecord, loadRecords_entry hrecord]

theorem lines_whole (text : List U8) :
    ∀ line ∈ lines (chr '\n') text, line ≠ [] ∧ chr '\n' ∉ line.dropLast :=
  fun _ h => ⟨ne_nil_of_mem_lines _ h, not_mem_dropLast _ h⟩

/-- Loading an S-record file is going through its lines with the grammar, on every
file whose lines are not broken by the buffer. -/
theorem loadSrec_eq_records (text : List U8) (hnul : 0 ∉ text)
    (hunbroken : Unbroken (lines (chr '\n') text)) :
    loadSrec (σ := σ) text = (do
      loadRecords (lines (chr '\n') text)
      pure true) := by
  rw [loadSrec, srecLines_eq (Nat.lt_succ_self _) hnul, pieces_eq_flatMap,
    loadRecords_pieces (lines_whole text) hunbroken]

/-- The text `S1040080ABD0` and a newline. -/
def srecSample : List U8 := ("S1040080ABD0\n".toList).map chr

/-- One byte at 0x80. -/
theorem loadSrec_sample :
    loadSrec (σ := Unit) srecSample = (do
      loadRecords (lines (chr '\n') srecSample)
      pure true) :=
  loadSrec_eq_records srecSample (by decide)
    (unbroken_of_short (lines_whole _) (by decide))

/-- A record of count 254: 251 bytes 01 at address 0. -/
def srecLong : List U8 :=
  ("S1FE0000".toList).map chr ++ (List.replicate 251 [chr '0', chr '1']).flatten ++
    ("06".toList).map chr

/-- The record of count 254 is well formed, and the loader does not see it. -/
theorem loadSrec_drops_long :
    ∃ (text : List U8) (s t t' : M68kCpu Unit), 0 ∉ text ∧
      loadSrec text (Host.none Unit) s = .ok true t ∧
      (do loadRecords (lines (chr '\n') text); pure true : M Unit Bool) (Host.none Unit) s =
        .ok true t' ∧
      t.memory 0 ≠ t'.memory 0 := by
  have hnul : 0 ∉ srecLong := by decide +kernel
  have hlines : lines (chr '\n') srecLong = [srecLong] := by decide +kernel
  have hpieces : ∀ piece ∈ pieces (chr '\n') 510 510 srecLong, srecRecord? piece = none := by
    decide +kernel
  have hrecord : srecRecord? srecLong = some (.data 0 (List.replicate 251 1)) := by
    decide +kernel
  let s : M68kCpu Unit := init (fun _ => 0) 1 ()
  let bytes := placed (fun i => (0 : U32) + BitVec.ofNat 32 i) (List.replicate 251 1)
  have hload : loadSrec srecLong (Host.none Unit) s = .ok true s := by
    rw [loadSrec, srecLines_eq (Nat.lt_succ_self _) hnul,
      ← List.append_nil (pieces _ _ _ srecLong), loadRecords_append hpieces]
    rfl
  refine ⟨srecLong, s, s, storeSeq bytes s, hnul, hload, ?_, ?_⟩
  · rw [hlines, loadRecords, hrecord]
    rfl
  · decide +kernel

end M68k
