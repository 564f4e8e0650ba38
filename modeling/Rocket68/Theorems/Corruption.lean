import Rocket68.Theorems.Ihex

/-!
# Corrupted records

The bytes of a record, its checksum among them, add up to a fixed value. One digit changed
changes the sum by less than 256, so the loaders see it, whatever the record says; and a
record that they reject leaves nothing behind.
-/

namespace M68k

open Trap TrapM Text

variable {σ : Type}

/-! ## One digit of a record -/

/-- What a position of a digit pair counts for. -/
def digitWeight (j : Nat) : Nat := if j % 2 = 0 then 16 else 1

theorem hexVal_lt (c : U8) : (hexVal c).toNat < 16 := by
  revert c
  decide +kernel

theorem parseByte_toNat (c d : U8) (t : List U8) :
    (parseByte (c :: d :: t)).toNat = 16 * (hexVal c).toNat + (hexVal d).toNat := by
  have hhigh := hexVal_lt c
  have hlow := hexVal_lt d
  show (hexVal c <<< 4 ||| hexVal d).toNat = _
  have hshift : (hexVal c <<< 4).toNat = 2 ^ 4 * (hexVal c).toNat := by
    rw [BitVec.toNat_shiftLeft, Nat.shiftLeft_eq]
    omega
  rw [BitVec.toNat_or, hshift, ← Nat.two_pow_add_eq_or_of_lt hlow]

/-- The sum moves by the weight of the digit that is changed. -/
theorem byteSum_set {n j : Nat} {text : List U8} (hj : j < 2 * n) (hlen : 2 * n ≤ text.length)
    (c : U8) :
    byteSum (parseBytes n (text.set j c)) + digitWeight j * (hexVal (charAt text j)).toNat =
      byteSum (parseBytes n text) + digitWeight j * (hexVal c).toNat := by
  induction n generalizing j text with
  | zero => omega
  | succ n ih =>
    match text, hlen with
    | a :: b :: text, hlen =>
      have hrest : 2 * n ≤ text.length := by
        simp only [List.length_cons] at hlen
        omega
      -- the digit is in this byte, as its high or its low one, or in a later byte
      match j, hj with
      | 0, _ =>
        have hweight : digitWeight 0 = 16 := rfl
        simp only [List.set_cons_zero, parseBytes, List.drop_succ_cons, List.drop_zero, byteSum,
          List.map_cons, List.sum_cons, parseByte_toNat, charAt, List.getD_cons_zero, hweight]
        omega
      | 1, _ =>
        have hweight : digitWeight 1 = 1 := rfl
        simp only [List.set_cons_succ, List.set_cons_zero, parseBytes, List.drop_succ_cons,
          List.drop_zero, byteSum, List.map_cons, List.sum_cons, parseByte_toNat, charAt,
          List.getD_cons_succ, List.getD_cons_zero, hweight]
        omega
      | j + 2, hj =>
        have hnext := ih (show j < 2 * n by omega) hrest
        have hweight : digitWeight (j + 2) = digitWeight j := by
          rw [digitWeight, digitWeight, Nat.add_mod_right]
        simp only [List.set_cons_succ, parseBytes, List.drop_succ_cons, List.drop_zero, byteSum,
          List.map_cons, List.sum_cons, parseByte_toNat, charAt, List.getD_cons_succ,
          hweight] at hnext ⊢
        omega

/-- The bytes of a record of either format: as many as the count and `extra` say, with a sum
that leaves `rest`. -/
def checkedBytes (extra rest : Nat) (text : List U8) : Option (List U8) := do
  let count ← countByte? text
  let bytes ← hexBytes (count + extra) text
  if byteSum bytes % 256 = rest then some bytes else none

theorem hexRecordBytes_checked : hexRecordBytes? = checkedBytes 5 0 := rfl

theorem checkedBytes_some {extra rest : Nat} {text bytes : List U8} :
    checkedBytes extra rest text = some bytes ↔
      ∃ count, countByte? text = some count ∧ hexBytes (count + extra) text = some bytes ∧
        byteSum bytes % 256 = rest := by
  unfold checkedBytes
  constructor
  · intro h
    obtain ⟨count, hcount, h⟩ := Option.bind_eq_some_iff.mp h
    obtain ⟨bytes', hhex, h⟩ := Option.bind_eq_some_iff.mp h
    split at h
    · rename_i hsum
      cases h
      exact ⟨count, hcount, hhex, hsum⟩
    · cases h
  · rintro ⟨count, hcount, hhex, hsum⟩
    simp [hcount, hhex, hsum]

/-- The character `c` in place of `old` is not the same digit. -/
def OtherDigit (old c : U8) : Prop := isXdigit c = true → hexVal c ≠ hexVal old

theorem charAt_set {j : Nat} {text : List U8} (hj : j < text.length) (c : U8) :
    charAt (text.set j c) j = c := by
  simp [charAt, List.getD, hj]

/-- A record with a digit changed behind its count is none, whatever follows it. -/
theorem checkedBytes_corrupt {extra rest count j : Nat} {text bytes : List U8} {c : U8}
    (hvalid : checkedBytes extra rest text = some bytes) (hcount : countByte? text = some count)
    (hfirst : 2 ≤ j) (hlast : j < 2 * (count + extra)) (hc : OtherDigit (charAt text j) c)
    (u : List U8) : checkedBytes extra rest (text.set j c ++ u) = none := by
  apply Option.eq_none_iff_forall_ne_some.mpr
  intro bytes' hbytes'
  obtain ⟨count', hcount', hhex, hsum⟩ := checkedBytes_some.mp hvalid
  obtain rfl : count' = count := Option.some.inj (hcount'.symm.trans hcount)
  obtain ⟨hdigits, rfl⟩ := hexBytes_some hhex
  have hlen := isValidHex_length hdigits
  -- the count is read from the first two digits
  have hkept : countByte? (text.set j c ++ u) = some count' := by
    apply countByte_append
    have htake := countByte_take (Nat.le_refl 2) hcount
    have hsame : (text.set j c).take 2 = text.take 2 := List.take_set_of_le hfirst
    rw [← hsame] at htake
    have happend := countByte_append ((text.set j c).drop 2) htake
    rwa [List.take_append_drop] at happend
  obtain ⟨n, hn, hhex', hsum'⟩ := checkedBytes_some.mp hbytes'
  obtain rfl : n = count' := Option.some.inj (hn.symm.trans hkept)
  have hcut := hexBytes_take (m := text.length) hhex' hlen
  rw [List.take_left' (List.length_set)] at hcut
  obtain ⟨hdigits', rfl⟩ := hexBytes_some hcut
  have hdigit : isXdigit c = true := by
    have hall := List.all_eq_true.mp hdigits' j (List.mem_range.mpr hlast)
    rwa [charAt_set (by omega)] at hall
  have hdiffer : (hexVal c).toNat ≠ (hexVal (charAt text j)).toNat :=
    fun heq => hc hdigit (BitVec.eq_of_toNat_eq heq)
  have hmoved := byteSum_set hlast hlen c
  have hold := hexVal_lt (charAt text j)
  have hnew := hexVal_lt c
  rw [digitWeight] at hmoved
  split at hmoved <;> omega

/-! ## A corrupted line -/

/-- The formats whose records carry a checksum. -/
inductive RecordFormat where
  | srec
  | ihex

namespace RecordFormat

def mark : RecordFormat → U8
  | srec => chr 'S'
  | ihex => chr ':'

/-- Where the count stands. -/
def start : RecordFormat → Nat
  | srec => 2
  | ihex => 1

/-- The bytes of a record that its count leaves out. -/
def extra : RecordFormat → Nat
  | srec => 1
  | ihex => 5

/-- The longest line whose end the buffer takes with it, be it two characters long. -/
def longest : RecordFormat → Nat
  | srec => 509
  | ihex => 597

def bytes? : RecordFormat → List U8 → Option (List U8)
  | srec => srecBytes?
  | ihex => hexRecordBytes?

def load : RecordFormat → List U8 → M σ Bool
  | srec => loadSrec
  | ihex => loadIhex

/-- A line with a record whose bytes have the right sum. -/
structure Valid (f : RecordFormat) (line : List U8) : Prop where
  mark : line.head? = some f.mark
  bytes : (f.bytes? (line.drop f.start)).isSome
  oneLine : chr '\n' ∉ line
  short : line.length ≤ f.longest

/-- `line'` is `line` with one character changed, behind the count and not behind the
checksum. -/
def Corrupts (f : RecordFormat) (line line' : List U8) : Prop :=
  ∃ count i c, countByte? (line.drop f.start) = some count ∧
    f.start + 2 ≤ i ∧ i < f.start + 2 * (count + f.extra) ∧
    c ≠ chr '\n' ∧ OtherDigit (charAt line i) c ∧ line' = line.set i c

/-- The loop of the loader goes on to the next line as if this one were not there. -/
def Rejects (σ : Type) (f : RecordFormat) (buffer : List U8) : Prop :=
  match f with
  | srec => (srecLine buffer : M σ Bool) = pure true
  | ihex => ∀ base, (ihexLine base buffer : M σ (Option U32)) = pure (some base)

theorem bytes_checked (f : RecordFormat) :
    ∃ rest, f.bytes? = checkedBytes f.extra rest := by
  cases f with
  | srec => exact ⟨0xFF, rfl⟩
  | ihex => exact ⟨0, rfl⟩

theorem charAt_drop (line : List U8) (k j : Nat) :
    charAt (line.drop k) j = charAt line (k + j) := by
  simp [charAt, List.getD, List.getElem?_drop]

/-- There is no record on a corrupted line, whatever follows it. -/
theorem Corrupts.bytes {f : RecordFormat} {line line' : List U8} (hvalid : f.Valid line)
    (h : f.Corrupts line line') (u : List U8) : f.bytes? (line'.drop f.start ++ u) = none := by
  obtain ⟨count, i, c, hcount, hfirst, hlast, -, hc, rfl⟩ := h
  obtain ⟨bytes, hbytes⟩ := Option.isSome_iff_exists.mp hvalid.bytes
  obtain ⟨rest, hchecked⟩ := f.bytes_checked
  obtain ⟨j, rfl⟩ : ∃ j, i = f.start + j := ⟨i - f.start, by omega⟩
  rw [hchecked] at hbytes ⊢
  rw [List.drop_set, if_neg (by omega), Nat.add_sub_cancel_left]
  rw [← charAt_drop] at hc
  exact checkedBytes_corrupt hbytes hcount (by omega) (by omega) hc u

theorem Corrupts.length {f : RecordFormat} {line line' : List U8} (h : f.Corrupts line line') :
    line'.length = line.length := by
  obtain ⟨-, i, c, -, -, -, -, -, rfl⟩ := h
  exact List.length_set

theorem Corrupts.oneLine {f : RecordFormat} {line line' : List U8} (hvalid : f.Valid line)
    (h : f.Corrupts line line') : chr '\n' ∉ line' := by
  obtain ⟨-, i, c, -, -, -, hnl, -, rfl⟩ := h
  intro hmem
  rcases List.mem_or_eq_of_mem_set hmem with hmem | heq
  · exact hvalid.oneLine hmem
  · exact hnl heq.symm

end RecordFormat

/-! ## The loaders pass over it -/

theorem cString_cString (buffer : List U8) : cString (cString buffer) = cString buffer :=
  cString_eq fun hmem => absurd (List.mem_takeWhile_imp hmem) (by decide)

theorem cString_zero (buffer : List U8) : 0 ∉ cString buffer :=
  fun hmem => absurd (List.mem_takeWhile_imp hmem) (by decide)

theorem cString_append (buffer : List U8) : ∃ u, buffer = cString buffer ++ u :=
  ⟨buffer.dropWhile (· != 0), List.takeWhile_append_dropWhile.symm⟩

/-- What a shorter text says, the line says. -/
theorem hexRecord_extend {line : List U8} {record : HexRecord} (u : List U8)
    (h : hexRecord? line = some record) : hexRecord? (line ++ u) = some record := by
  match line with
  | [] => cases h
  | a :: text =>
      simp only [hexRecord?, List.cons_append] at h ⊢
      split at h
      · rename_i ha
        obtain ⟨bytes, hbytes, hrecord⟩ := Option.bind_eq_some_iff.mp h
        rw [hexRecordBytes_checked] at hbytes ⊢
        obtain ⟨count, hcount, hhex, hsum⟩ := checkedBytes_some.mp hbytes
        have hext : checkedBytes 5 0 (text ++ u) = some bytes :=
          checkedBytes_some.mpr
            ⟨count, countByte_append u hcount, hexBytes_append u hhex, hsum⟩
        rw [if_pos ha, hext]
        exact hrecord
      · cases h

theorem srecLine_none {buffer : List U8} (h : srecRecord? buffer = none) :
    srecLine (σ := σ) buffer = pure true := by
  have hcut : srecLine (σ := σ) buffer = srecLine (cString buffer) := by
    unfold srecLine
    rw [cString_cString]
  have hnone : srecRecord? (cString buffer) = none := by
    obtain ⟨u, hu⟩ := cString_append buffer
    cases hrecord : srecRecord? (cString buffer) with
    | none => rfl
    | some record =>
        rw [hu, srecRecord_extend u hrecord] at h
        cases h
  rw [hcut, srecLine_eq (cString_zero buffer), hnone]
  rfl

theorem ihexLine_none (base : U32) {buffer : List U8} (h : hexRecord? buffer = none) :
    ihexLine (σ := σ) base buffer = pure (some base) := by
  have hcut : ihexLine (σ := σ) base buffer = ihexLine base (cString buffer) := by
    unfold ihexLine
    rw [cString_cString]
  have hnone : hexRecord? (cString buffer) = none := by
    obtain ⟨u, hu⟩ := cString_append buffer
    cases hrecord : hexRecord? (cString buffer) with
    | none => rfl
    | some record =>
        rw [hu, hexRecord_extend u hrecord] at h
        cases h
  rw [hcut, ihexLine_eq base (cString_zero buffer), hnone]
  rfl

theorem srecRecord_none {buffer : List U8} (h : srecBytes? (buffer.drop 2) = none) :
    srecRecord? buffer = none := by
  match buffer with
  | [] => rfl
  | [a] => rfl
  | a :: b :: text =>
      have htext : srecBytes? text = none := h
      simp [srecRecord?, htext]

theorem hexRecord_none {buffer : List U8} (h : hexRecordBytes? (buffer.drop 1) = none) :
    hexRecord? buffer = none := by
  match buffer with
  | [] => rfl
  | a :: text =>
      have htext : hexRecordBytes? text = none := h
      simp [hexRecord?, htext]

theorem RecordFormat.Corrupts.rejected {f : RecordFormat} {line line' : List U8}
    (hvalid : f.Valid line) (h : f.Corrupts line line') (u : List U8) :
    f.Rejects σ (line' ++ u) := by
  have hnone := h.bytes hvalid (u.drop (f.start - line'.length))
  rw [← List.drop_append] at hnone
  cases f with
  | srec => exact srecLine_none (srecRecord_none hnone)
  | ihex => exact fun base => ihexLine_none base (hexRecord_none hnone)

theorem srecReads_rejected {buffer : List U8} (h : RecordFormat.srec.Rejects σ buffer)
    (ps qs : List (List U8)) : srecReads (σ := σ) (ps ++ buffer :: qs) = srecReads (ps ++ qs) := by
  induction ps with
  | nil =>
      have hline : (srecLine buffer : M σ Bool) = pure true := h
      rw [List.nil_append, List.nil_append, srecReads, hline, pure_bind]
      rfl
  | cons p ps ih => rw [List.cons_append, List.cons_append, srecReads, srecReads, ih]

theorem ihexReads_rejected {buffer : List U8} (h : RecordFormat.ihex.Rejects σ buffer)
    (base : U32) (ps qs : List (List U8)) :
    ihexReads (σ := σ) base (ps ++ buffer :: qs) = ihexReads base (ps ++ qs) := by
  induction ps generalizing base with
  | nil =>
      have hline : (ihexLine base buffer : M σ (Option U32)) = pure (some base) := h base
      rw [List.nil_append, List.nil_append, ihexReads, hline, pure_bind]
  | cons p ps ih =>
      rw [List.cons_append, List.cons_append, ihexReads, ihexReads]
      refine congrArg (ihexLine base p >>= ·) ?_
      funext next
      cases next with
      | none => rfl
      | some base => exact ih base

/-- What ends a line: a newline, with a carriage return or without, or the file. -/
def EndsLine (eol after : List U8) : Prop :=
  eol = [chr '\n'] ∨ eol = [chr '\r', chr '\n'] ∨ eol = [] ∧ after = []

/-- A line that is short enough is one piece. -/
theorem pieces_line {n : Nat} {line eol after : List U8} (hnl : chr '\n' ∉ line)
    (hne : line ≠ []) (hlen : line.length < n) (heol : EndsLine eol after) :
    pieces (chr '\n') n n (line ++ eol ++ after) =
      (line ++ eol) :: pieces (chr '\n') n n after := by
  have hlast : chr '\n' ∉ (line ++ eol).dropLast := by
    rcases heol with rfl | rfl | ⟨rfl, -⟩
    · rw [List.dropLast_concat]
      exact hnl
    · rw [List.dropLast_append_cons]
      simpa using ⟨hnl, by decide⟩
    · rw [List.append_nil]
      exact fun hmem => hnl (List.dropLast_subset _ hmem)
  have hshort : (line ++ eol).length ≤ n + 1 := by
    rcases heol with rfl | rfl | ⟨rfl, -⟩ <;> simp <;> omega
  have hpiece := pieces_short (chr '\n') n n hlast (by simp [hne]) hshort
  rcases heol with rfl | rfl | ⟨rfl, rfl⟩
  · rw [pieces_append n (.inr (by simp)), hpiece]
    rfl
  · rw [pieces_append n (.inr (by simp)), hpiece]
    rfl
  · rw [List.append_nil, hpiece]
    rfl

/-- A corrupted line is rejected, and the file loads as if it had been deleted. -/
theorem corruption_detected (f : RecordFormat) {line line' before eol after : List U8}
    (hvalid : f.Valid line) (hcorrupt : f.Corrupts line line')
    (hbefore : Whole (chr '\n') before) (heol : EndsLine eol after) :
    f.Rejects σ (line' ++ eol) ∧
      (f.load (before ++ (line' ++ eol ++ after)) : M σ Bool) = f.load (before ++ after) := by
  have hrejects : f.Rejects σ (line' ++ eol) := hcorrupt.rejected hvalid eol
  refine ⟨hrejects, ?_⟩
  have hne : line' ≠ [] := by
    rintro rfl
    obtain rfl := List.length_eq_zero_iff.mp hcorrupt.length.symm
    cases hvalid.mark
  have hshort := hvalid.short
  rw [← hcorrupt.length] at hshort
  cases f with
  | srec =>
      have hcut := pieces_line (n := 510) (hcorrupt.oneLine hvalid) hne
        (Nat.lt_succ_of_le hshort) heol
      simp only [RecordFormat.load, loadSrec]
      rw [srecLines_reads (Nat.lt_succ_self _), srecLines_reads (Nat.lt_succ_self _),
        pieces_append 510 hbefore, pieces_append 510 hbefore, hcut, srecReads_rejected hrejects]
  | ihex =>
      have hcut := pieces_line (n := 598) (hcorrupt.oneLine hvalid) hne
        (Nat.lt_succ_of_le hshort) heol
      simp only [RecordFormat.load, loadIhex]
      rw [ihexLines_reads 0 (Nat.lt_succ_self _), ihexLines_reads 0 (Nat.lt_succ_self _),
        pieces_append 598 hbefore, pieces_append 598 hbefore, hcut, ihexReads_rejected hrejects]

/-- The last digit of a data byte changed in a file of that record alone. -/
theorem corruption_detected_sample :
    RecordFormat.srec.Rejects Unit (("S1040080ACD0\n".toList).map chr) ∧
      (RecordFormat.srec.load (("S1040080ACD0\n".toList).map chr) : M Unit Bool) =
        RecordFormat.srec.load [] := by
  have hvalid : RecordFormat.srec.Valid (("S1040080ABD0".toList).map chr) :=
    ⟨by decide, by decide +kernel, by decide, by decide⟩
  have hcorrupt : RecordFormat.srec.Corrupts (("S1040080ABD0".toList).map chr)
      (("S1040080ACD0".toList).map chr) :=
    ⟨4, 9, chr 'C', by decide +kernel, by decide, by decide, by decide,
      fun _ => by decide +kernel, by decide +kernel⟩
  have hbefore : Whole (chr '\n') [] := .inl rfl
  have heol : EndsLine [chr '\n'] [] := .inl rfl
  exact corruption_detected .srec hvalid hcorrupt hbefore heol

end M68k
