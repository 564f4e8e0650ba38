import Rocket68.Loader
import Rocket68.Text.Lines
import Rocket68.Trap.Wp

/-!
# Hex bytes, record data and the line buffer

What the checks and reads of the two loaders come to: a run of valid digits is
a list of bytes, the loop over the data of a record is one update of memory, and
successive calls of `fgets` return the pieces of the text.
-/

namespace M68k

open Trap TrapM Text

variable {σ : Type}

/-! ## Hex bytes -/

/-- The first `n` bytes of a text of hex digit pairs. -/
def hexBytes : Nat → List U8 → Option (List U8)
  | 0, _ => some []
  | n + 1, c :: d :: t =>
      if isXdigit c && isXdigit d then (parseByte [c, d] :: ·) <$> hexBytes n t else none
  | _ + 1, _ => none

/-- Beyond the text there is no digit. -/
theorem isXdigit_charAt_nil (i : Nat) : isXdigit (charAt [] i) = false := rfl

theorem parseByte_cons (c d : U8) (t : List U8) : parseByte (c :: d :: t) = parseByte [c, d] := rfl

theorem isValidHex_succ (t : List U8) (n : Nat) :
    isValidHex t (n + 1) = (isXdigit (charAt t 0) && isValidHex (t.drop 1) n) := by
  unfold isValidHex
  rw [List.range_succ_eq_map, List.all_cons, List.all_map]
  congr 1
  apply congrArg (List.all _)
  funext i
  cases t with
  | nil => rfl
  | cons c t => rfl

/-- The two functions of the source, digits checked and bytes read, are one
partial function. -/
theorem hexBytes_eq (n : Nat) (t : List U8) :
    hexBytes n t = if isValidHex t (2 * n) then some (parseBytes n t) else none := by
  induction n generalizing t with
  | zero => rfl
  | succ n ih =>
      have hdouble : 2 * (n + 1) = 2 * n + 1 + 1 := by omega
      rw [hdouble, isValidHex_succ, isValidHex_succ]
      match t with
      | [] => simp [hexBytes, isXdigit_charAt_nil]
      | [c] => simp [hexBytes, isXdigit_charAt_nil]
      | c :: d :: t =>
          have hc : charAt (c :: d :: t) 0 = c := rfl
          have hd : charAt (d :: t) 0 = d := rfl
          rw [hexBytes, ih t, List.drop_one, List.tail_cons, hc, hd]
          by_cases hpair : isXdigit c && isXdigit d
          · rw [if_pos hpair, ← Bool.and_assoc, hpair, Bool.true_and]
            by_cases hrest : isValidHex t (2 * n) = true
            · simp [hrest, parseBytes, parseByte_cons]
            · simp [hrest]
          · rw [if_neg hpair, ← Bool.and_assoc, Bool.eq_false_iff.mpr hpair]
            rfl

theorem parseBytes_length (n : Nat) (t : List U8) : (parseBytes n t).length = n := by
  induction n generalizing t with
  | zero => rfl
  | succ n ih => simp [parseBytes, ih]

theorem parseBytes_take (m n : Nat) (t : List U8) :
    (parseBytes (m + n) t).take m = parseBytes m t := by
  induction m generalizing t with
  | zero => simp [parseBytes]
  | succ m ih =>
      rw [show m + 1 + n = m + n + 1 by omega]
      simp [parseBytes, ih]

theorem parseBytes_drop (m n : Nat) (t : List U8) :
    (parseBytes (m + n) t).drop m = parseBytes n (t.drop (2 * m)) := by
  induction m generalizing t with
  | zero => simp
  | succ m ih =>
      rw [show m + 1 + n = m + n + 1 by omega]
      simp only [parseBytes, List.drop_succ_cons, ih, List.drop_drop]
      congr 2
      omega

theorem hexBytes_some {n : Nat} {t bytes : List U8} (h : hexBytes n t = some bytes) :
    isValidHex t (2 * n) = true ∧ bytes = parseBytes n t := by
  rw [hexBytes_eq] at h
  split at h
  · rename_i hvalid
    exact ⟨hvalid, (Option.some.inj h).symm⟩
  · cases h

/-- Digits are read only where there is text. -/
theorem isValidHex_length {t : List U8} {n : Nat} (h : isValidHex t n = true) : n ≤ t.length := by
  induction n generalizing t with
  | zero => exact Nat.zero_le _
  | succ n ih =>
      rw [isValidHex_succ, Bool.and_eq_true] at h
      cases t with
      | nil => exact absurd h.1 (by rw [isXdigit_charAt_nil]; decide)
      | cons c t =>
          have hle := ih h.2
          simp only [List.drop_one, List.tail_cons] at hle
          simpa using hle

theorem isValidHex_mono {t : List U8} {m n : Nat} (hmn : m ≤ n) (h : isValidHex t n = true) :
    isValidHex t m = true := by
  unfold isValidHex at *
  rw [List.all_eq_true] at *
  intro i hi
  apply h i
  rw [List.mem_range] at *
  omega

theorem hexBytes_append {n : Nat} {t bytes : List U8} (u : List U8)
    (h : hexBytes n t = some bytes) : hexBytes n (t ++ u) = some bytes := by
  induction n generalizing t bytes with
  | zero => exact h
  | succ n ih =>
      match t with
      | [] => cases h
      | [c] => cases h
      | c :: d :: t =>
          simp only [hexBytes, List.cons_append] at h ⊢
          split at h
          · rename_i hpair
            rw [if_pos hpair]
            cases ht : hexBytes n t with
            | none => rw [ht] at h; cases h
            | some rest => rw [ih ht, ← ht]; exact h
          · cases h

theorem hexBytes_take {n m : Nat} {t bytes : List U8} (h : hexBytes n t = some bytes)
    (hm : 2 * n ≤ m) : hexBytes n (t.take m) = some bytes := by
  induction n generalizing t bytes m with
  | zero => exact h
  | succ n ih =>
      match t with
      | [] => cases h
      | [c] => cases h
      | c :: d :: t =>
          obtain ⟨m, rfl⟩ : ∃ m', m = m' + 1 + 1 := ⟨m - 2, by omega⟩
          simp only [hexBytes, List.take_succ_cons] at h ⊢
          split at h
          · rename_i hpair
            rw [if_pos hpair]
            cases ht : hexBytes n t with
            | none => rw [ht] at h; cases h
            | some rest => rw [ih ht (by omega), ← ht]; exact h
          · cases h

/-- Bytes are read only from digits. -/
theorem hexBytes_append_other (n : Nat) (t : List U8) {u : List U8}
    (hu : ∀ c ∈ u, isXdigit c = false) : hexBytes n (t ++ u) = hexBytes n t := by
  induction n generalizing t with
  | zero => rfl
  | succ n ih =>
      match t with
      | [] =>
          match u with
          | [] => rfl
          | [c] => rfl
          | c :: d :: u =>
              have hc : isXdigit c = false := hu c List.mem_cons_self
              simp [hexBytes, hc]
      | [c] =>
          match u with
          | [] => rfl
          | d :: u =>
              have hd : isXdigit d = false := hu d List.mem_cons_self
              simp [hexBytes, hd]
      | c :: d :: t =>
          simp only [hexBytes, List.cons_append]
          rw [ih t]

/-! ## The data of a record -/

/-- Stores in order, up to the first one out of range. -/
def storeSeq : List (U32 × U8) → M68kCpu σ → M68kCpu σ
  | [], s => s
  | (address, value) :: rest, s =>
      if isValidAddress s (maskAddress24 address) then
        storeSeq rest { s with memory := storeByte s.memory (maskAddress24 address) value }
      else s

/-- Byte `i` with its address. -/
def placed (address : Nat → U32) (bytes : List U8) : List (U32 × U8) :=
  bytes.mapIdx fun i byte => (address i, byte)

theorem loaderStore_run (address : U32) (value : U8) (h : Host σ) (s : M68kCpu σ) :
    loaderStore address value h s =
      if isValidAddress s (maskAddress24 address) then
        .ok true { s with memory := storeByte s.memory (maskAddress24 address) value }
      else .ok false s := by
  unfold loaderStore
  rw [gets_bind]
  by_cases hvalid : isValidAddress s (maskAddress24 address) = true
  · rw [hvalid]
    rfl
  · rw [Bool.eq_false_iff.mpr hvalid]
    rfl

theorem placed_cons (address : Nat → U32) (byte : U8) (bytes : List U8) :
    placed address (byte :: bytes) =
      (address 0, byte) :: placed (fun j => address (j + 1)) bytes := by
  simp [placed, List.mapIdx_cons]

theorem loadData_eq (address : Nat → U32) (n i : Nat) (ptr : List U8) :
    loadData (σ := σ) address n i ptr =
      TrapM.modify (storeSeq (placed (fun j => address (i + j)) (parseBytes n ptr))) := by
  induction n generalizing i ptr with
  | zero => rfl
  | succ n ih =>
      apply TrapM.ext
      intro h s
      have hshift : (fun j => address (i + 1 + j)) = fun j => address (i + (j + 1)) := by
        funext j
        rw [Nat.add_assoc, Nat.add_comm 1 j]
      have hnext := ih (i + 1) (ptr.drop 2)
      have hstore := loaderStore_run (address i) (parseByte ptr) h s
      rw [hshift] at hnext
      show _ = Outcome.ok () (storeSeq _ s)
      rw [parseBytes, placed_cons]
      show _ = Outcome.ok () (if isValidAddress s (maskAddress24 (address i)) then _ else s)
      by_cases hvalid : isValidAddress s (maskAddress24 (address i)) = true
      · rw [if_pos hvalid] at hstore ⊢
        rw [loadData, bind_ok hstore, if_pos rfl, hnext]
        rfl
      · rw [if_neg hvalid] at hstore ⊢
        rw [loadData, bind_ok hstore]
        rfl

/-! ## The line buffer -/

/-- One call of `fgets` returns the next piece. -/
theorem fgets_pieces (n k : Nat) {text : List U8} (h : text ≠ []) :
    pieces (chr '\n') n k text =
        (fgets (k + 1) text).1 :: pieces (chr '\n') n n (fgets (k + 1) text).2 ∧
      (fgets (k + 1) text).1 ≠ [] ∧ (fgets (k + 1) text).2.length < text.length := by
  induction text generalizing k with
  | nil => exact absurd rfl h
  | cons c text ih =>
      by_cases hc : c = chr '\n'
      · simp [fgets, pieces, hc]
      · rw [fgets, if_neg hc]
        cases k with
        | zero =>
            rw [pieces_full hc]
            simp [fgets]
        | succ k =>
            rw [pieces_room hc]
            cases text with
            | nil => simp [fgets, pieces, consHead]
            | cons d text =>
                obtain ⟨hp, -, hlen⟩ := ih k (by simp)
                rw [hp]
                refine ⟨rfl, by simp, ?_⟩
                exact Nat.lt_succ_of_lt hlen

end M68k
