import Mathlib.Data.Nat.Digits.Defs

/-!
# The numeric conversions of `printf`

`%d`, `%X` and `%0wX` as texts, and how long a number makes them: a number of `k` digits
takes `k` characters, and one more for its sign.
-/

namespace Text

/-- `%d`. -/
def decimal (n : Int) : String := n.repr

/-- `%X`. -/
def hex (n : Nat) : String := String.ofList ((Nat.toDigits 16 n).map Char.toUpper)

/-- `%0wX`, with `w` the width. -/
def hexPadded (width n : Nat) : String :=
  String.ofList (List.replicate (width - (hex n).length) '0') ++ hex n

/-- What a buffer of `size` characters holds of a text: all that fits before the NUL. -/
def truncated (size : Nat) (text : String) : String := String.ofList (text.toList.take (size - 1))

section Lengths

variable {n k size : Nat}

theorem decimal_length_le (hk : 0 < k) (h : n < 10 ^ k) : (decimal n).length ≤ k :=
  (Nat.length_repr_le_iff hk).mpr h

/-- A sign and the digits. -/
theorem decimal_length_le_succ {i : Int} (hk : 0 < k) (h : i.natAbs < 10 ^ k) :
    (decimal i).length ≤ k + 1 := by
  cases i with
  | ofNat n => exact Nat.le_succ_of_le (decimal_length_le hk h)
  | negSucc n =>
    have hdigits : (n + 1).repr.length ≤ k := (Nat.length_repr_le_iff hk).mpr h
    have hsign : ("-" : String).length = 1 := rfl
    show ("-" ++ (n + 1).repr).length ≤ k + 1
    rw [String.length_append, hsign]
    omega

theorem hex_length_le (hk : 0 < k) (h : n < 16 ^ k) : (hex n).length ≤ k := by
  rw [hex, String.length_ofList, List.length_map]
  exact (Nat.length_toDigits_le_iff (by decide) hk).mpr h

theorem hexPadded_length (hk : 0 < k) (h : n < 16 ^ k) : (hexPadded k n).length = k := by
  have hle := hex_length_le hk h
  rw [hexPadded, String.length_append, String.length_ofList, List.length_replicate]
  omega

theorem truncated_eq {text : String} (h : text.length < size) : truncated size text = text := by
  rw [truncated, List.take_of_length_le, String.ofList_toList]
  rw [String.length_toList]
  omega

end Lengths

end Text
