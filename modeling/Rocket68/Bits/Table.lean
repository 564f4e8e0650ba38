import Mathlib.Data.BitVec

/-!
# Decoders as tables of bit patterns

A decoder that tests its word against one mask after the other is a table: the first row that
the word matches gives the result. Two decoders with different tests, in different orders, are
compared row against row. A pair of rows matters only if some word matches both and no earlier
row of either table catches it, and this is decided on the patterns, without a look at a word.
-/

namespace Bits

variable {w : Nat} {α β : Type}

/-- The words that have, under the mask, this value. -/
structure Pattern (w : Nat) where
  mask : BitVec w
  value : BitVec w
  deriving DecidableEq

/-- The word has the pattern. -/
def Pattern.Matches (p : Pattern w) (x : BitVec w) : Prop := x &&& p.mask = p.value

instance (p : Pattern w) (x : BitVec w) : Decidable (p.Matches x) :=
  inferInstanceAs (Decidable (x &&& p.mask = p.value))

/-- The pattern of every word. -/
def Pattern.any : Pattern w := ⟨0, 0⟩

theorem Pattern.any_matches (x : BitVec w) : (Pattern.any : Pattern w).Matches x := by
  simp [Pattern.any, Pattern.Matches]

/-- The patterns ask for different values of a bit. -/
def Pattern.clashes (p q : Pattern w) : Bool := (p.value ^^^ q.value) &&& p.mask &&& q.mask != 0

theorem Pattern.not_matches_of_clashes {p q : Pattern w} (h : p.clashes q = true) {x : BitVec w}
    (hp : p.Matches x) : ¬q.Matches x := by
  intro hq
  rw [Pattern.clashes, bne_iff_ne, ← hp, ← hq] at h
  refine h (BitVec.eq_of_getLsbD_eq fun i hi => ?_)
  simp only [BitVec.getLsbD_and, BitVec.getLsbD_xor, BitVec.ofNat_eq_ofNat, BitVec.getLsbD_zero]
  cases x.getLsbD i <;> cases p.mask.getLsbD i <;> cases q.mask.getLsbD i <;> rfl

/-- What matches `q` and `r` matches `p`. -/
def Pattern.covers (q r p : Pattern w) : Bool :=
  p.mask &&& ~~~(q.mask ||| r.mask) == 0 && (q.value ||| r.value) &&& p.mask == p.value

theorem Pattern.matches_of_covers {p q r : Pattern w} (h : covers q r p = true) {x : BitVec w}
    (hq : q.Matches x) (hr : r.Matches x) : p.Matches x := by
  rw [covers, Bool.and_eq_true, beq_iff_eq, beq_iff_eq] at h
  obtain ⟨hmask, hvalue⟩ := h
  rw [Pattern.Matches, ← hvalue, ← hq, ← hr]
  refine BitVec.eq_of_getLsbD_eq fun i hi => ?_
  have hbit := congrArg (BitVec.getLsbD · i) hmask
  simp only [BitVec.getLsbD_and, BitVec.getLsbD_not, BitVec.getLsbD_or, hi, decide_true,
    Bool.true_and, BitVec.ofNat_eq_ofNat, BitVec.getLsbD_zero] at hbit ⊢
  revert hbit
  cases x.getLsbD i <;> cases p.mask.getLsbD i <;> cases q.mask.getLsbD i <;>
    cases r.mask.getLsbD i <;> decide

/-- Both patterns, where they do not clash. -/
def Pattern.and (p q : Pattern w) : Pattern w := ⟨p.mask ||| q.mask, p.value ||| q.value⟩

theorem Pattern.and_matches {p q : Pattern w} (hp : covers (p.and q) (p.and q) p = true)
    (hq : covers (p.and q) (p.and q) q = true) (x : BitVec w) :
    (p.and q).Matches x ↔ p.Matches x ∧ q.Matches x := by
  constructor
  · exact fun h => ⟨matches_of_covers hp h h, matches_of_covers hq h h⟩
  · rintro ⟨hp, hq⟩
    show x &&& (p.mask ||| q.mask) = p.value ||| q.value
    rw [← hp, ← hq]
    ext i hi
    simp [Bool.and_or_distrib_left]

/-- The words with `v` in the bits from `n` on. -/
def Pattern.slice {m : Nat} (n : Nat) (v : BitVec m) : Pattern w :=
  ⟨(BitVec.allOnes m).setWidth w <<< n, v.setWidth w <<< n⟩

theorem Pattern.slice_matches {m n : Nat} (hfits : n + m ≤ w) (v : BitVec m) (x : BitVec w) :
    (Pattern.slice n v).Matches x ↔ (x >>> n).setWidth m = v := by
  simp only [Pattern.Matches, Pattern.slice]
  constructor
  · intro h
    ext i hi
    have hbit := congrArg (BitVec.getLsbD · (n + i)) h
    have hbound : n + i < w := by omega
    have hlow : i < w := by omega
    have hpast : ¬n + i < n := by omega
    simpa [hbound, hi, hlow, hpast] using hbit
  · rintro rfl
    ext i hi
    by_cases hn : n ≤ i
    · have hlow : i - n < w := by omega
      have hsum : n + (i - n) = i := by omega
      simp [Nat.not_lt.mpr hn, hlow, hsum, hi, Bool.and_comm]
    · simp [Nat.lt_of_not_le hn]

/-! ## Tables -/

/-- The result of the first row that matches. -/
def lookup : List (Pattern w × α) → BitVec w → Option α
  | [], _ => none
  | (p, a) :: rows, x => if p.Matches x then some a else lookup rows x

theorem lookup_cons_of_matches {p : Pattern w} {x : BitVec w} (h : p.Matches x) (a : α)
    (rows : List (Pattern w × α)) : lookup ((p, a) :: rows) x = some a := if_pos h

theorem lookup_cons_of_not_matches {p : Pattern w} {x : BitVec w} (h : ¬p.Matches x) (a : α)
    (rows : List (Pattern w × α)) : lookup ((p, a) :: rows) x = lookup rows x := if_neg h

/-- A table with a row for every word has a result for every word. -/
theorem lookup_of_any {rows : List (Pattern w × α)} (h : ∃ a, (Pattern.any, a) ∈ rows)
    (x : BitVec w) : ∃ a, lookup rows x = some a := by
  induction rows with
  | nil =>
    obtain ⟨_, hmem⟩ := h
    cases hmem
  | cons row rows ih =>
    obtain ⟨p, b⟩ := row
    by_cases hp : p.Matches x
    · exact ⟨b, lookup_cons_of_matches hp b rows⟩
    · rw [lookup_cons_of_not_matches hp]
      obtain ⟨a, hmem⟩ := h
      rcases List.mem_cons.mp hmem with heq | hmem
      · cases heq
        exact absurd (Pattern.any_matches x) hp
      · exact ih ⟨a, hmem⟩

/-- The result of one row for several patterns. -/
def rowsOf (ps : List (Pattern w)) (a : α) : List (Pattern w × α) := ps.map fun p => (p, a)

theorem lookup_rowsOf_of_matches {ps : List (Pattern w)} {x : BitVec w}
    (h : ∃ p ∈ ps, p.Matches x) (a : α) (rows : List (Pattern w × α)) :
    lookup (rowsOf ps a ++ rows) x = some a := by
  induction ps with
  | nil =>
    obtain ⟨_, hmem, _⟩ := h
    cases hmem
  | cons p ps ih =>
    rw [rowsOf, List.map_cons, List.cons_append]
    by_cases hp : p.Matches x
    · exact lookup_cons_of_matches hp a _
    · rw [lookup_cons_of_not_matches hp]
      obtain ⟨q, hmem, hq⟩ := h
      rcases List.mem_cons.mp hmem with rfl | hmem
      · exact absurd hq hp
      · exact ih ⟨q, hmem, hq⟩

theorem lookup_rowsOf_of_not_matches {ps : List (Pattern w)} {x : BitVec w}
    (h : ¬∃ p ∈ ps, p.Matches x) (a : α) (rows : List (Pattern w × α)) :
    lookup (rowsOf ps a ++ rows) x = lookup rows x := by
  induction ps with
  | nil => rfl
  | cons p ps ih =>
    rw [rowsOf, List.map_cons, List.cons_append,
      lookup_cons_of_not_matches fun hp => h ⟨p, List.mem_cons_self, hp⟩]
    exact ih fun ⟨q, hmem, hq⟩ => h ⟨q, List.mem_cons_of_mem p hmem, hq⟩

/-- Rows for a few patterns are passed by a word that has none of them. -/
theorem lookup_append_of_outside {heads : List (Pattern w)} {block : List (Pattern w × α)}
    (hblock : ∀ row ∈ block, heads.any (Pattern.covers row.1 row.1) = true) {x : BitVec w}
    (h : ¬∃ p ∈ heads, p.Matches x) (rows : List (Pattern w × α)) :
    lookup (block ++ rows) x = lookup rows x := by
  induction block with
  | nil => rfl
  | cons row block ih =>
    obtain ⟨p, a⟩ := row
    have hp : ¬p.Matches x := by
      intro hp
      obtain ⟨q, hq, hcovers⟩ := List.any_eq_true.mp (hblock (p, a) List.mem_cons_self)
      exact h ⟨q, hq, Pattern.matches_of_covers hcovers hp hp⟩
    rw [List.cons_append, lookup_cons_of_not_matches hp]
    exact ih fun row hrow => hblock row (List.mem_cons_of_mem _ hrow)

/-! ## Reading a table along with the tests of a program -/

section Walk

variable {A : Prop} [Decidable A] {Q : Option α → Prop} {x : BitVec w} {a : α}
  {rest : List (Pattern w × α)}

theorem lookup_row {p : Pattern w} (hA : A ↔ p.Matches x) (hm : A → Q (some a))
    (hn : ¬A → Q (lookup rest x)) : Q (lookup ((p, a) :: rest) x) := by
  by_cases h : A
  · rw [lookup_cons_of_matches (hA.mp h)]
    exact hm h
  · rw [lookup_cons_of_not_matches (h ∘ hA.mpr)]
    exact hn h

theorem lookup_rows {ps : List (Pattern w)} (hA : A ↔ ∃ p ∈ ps, p.Matches x) (hm : A → Q (some a))
    (hn : ¬A → Q (lookup rest x)) : Q (lookup (rowsOf ps a ++ rest) x) := by
  by_cases h : A
  · rw [lookup_rowsOf_of_matches (hA.mp h)]
    exact hm h
  · rw [lookup_rowsOf_of_not_matches (h ∘ hA.mpr)]
    exact hn h

/-- Rows for words under a test. -/
theorem lookup_block (heads : List (Pattern w)) (own : List (Pattern w × α))
    (hrows : ∀ row ∈ own, heads.any (Pattern.covers row.1 row.1) = true)
    (hA : A ↔ ∃ p ∈ heads, p.Matches x) (hm : A → Q (lookup (own ++ rest) x))
    (hn : ¬A → Q (lookup rest x)) : Q (lookup (own ++ rest) x) := by
  by_cases h : A
  · exact hm h
  · rw [lookup_append_of_outside hrows (h ∘ hA.mpr)]
    exact hn h

end Walk

/-! ## Agreement -/

section Agreement

variable (agree : α → β → Bool)

/-- A row against every row of a table, past rows that are known not to match. -/
def rowAgrees (p : Pattern w) (a : α) : List (Pattern w) → List (Pattern w × β) → Bool
  | _, [] => true
  | past, (q, b) :: rows =>
      (p.clashes q || past.any (Pattern.covers p q) || agree a b) &&
        rowAgrees p a (q :: past) rows

/-- Every row of the one table against every row of the other. -/
def tablesAgree : List (Pattern w) → List (Pattern w × α) → List (Pattern w × β) → Bool
  | _, [], _ => true
  | past, (p, a) :: rows, others =>
      rowAgrees agree p a past others && tablesAgree (p :: past) rows others

variable {agree}

theorem agree_of_rowAgrees {p : Pattern w} {a : α} {x : BitVec w} (hp : p.Matches x) {b : β}
    {rows : List (Pattern w × β)} {past : List (Pattern w)}
    (hpast : ∀ q ∈ past, ¬q.Matches x) (h : rowAgrees agree p a past rows = true)
    (hb : lookup rows x = some b) : agree a b = true := by
  induction rows generalizing past with
  | nil => cases hb
  | cons row rows ih =>
    obtain ⟨q, b'⟩ := row
    rw [rowAgrees, Bool.and_eq_true] at h
    by_cases hq : q.Matches x
    · rw [lookup_cons_of_matches hq, Option.some.injEq] at hb
      subst hb
      -- some word, `x`, has both patterns, and no row before them catches it
      have hmeet : p.clashes q = false :=
        Bool.eq_false_iff.mpr fun hclash => Pattern.not_matches_of_clashes hclash hp hq
      have huncaught : past.any (Pattern.covers p q) = false := by
        refine Bool.eq_false_iff.mpr fun hany => ?_
        obtain ⟨r, hr, hcovers⟩ := List.any_eq_true.mp hany
        exact hpast r hr (Pattern.matches_of_covers hcovers hp hq)
      simpa [hmeet, huncaught] using h.1
    · rw [lookup_cons_of_not_matches hq] at hb
      refine ih (fun r hr => ?_) h.2 hb
      rcases List.mem_cons.mp hr with rfl | hr
      · exact hq
      · exact hpast r hr

/-- Tables whose rows agree give every word results that agree. -/
theorem agree_of_tablesAgree {x : BitVec w} {a : α} {b : β} {rows : List (Pattern w × α)}
    {others : List (Pattern w × β)} {past : List (Pattern w)}
    (hpast : ∀ q ∈ past, ¬q.Matches x) (h : tablesAgree agree past rows others = true)
    (ha : lookup rows x = some a) (hb : lookup others x = some b) : agree a b = true := by
  induction rows generalizing past with
  | nil => cases ha
  | cons row rows ih =>
    obtain ⟨p, a'⟩ := row
    rw [tablesAgree, Bool.and_eq_true] at h
    by_cases hp : p.Matches x
    · rw [lookup_cons_of_matches hp, Option.some.injEq] at ha
      subst ha
      exact agree_of_rowAgrees hp hpast h.1 hb
    · rw [lookup_cons_of_not_matches hp] at ha
      refine ih (fun r hr => ?_) h.2 ha
      rcases List.mem_cons.mp hr with rfl | hr
      · exact hp
      · exact hpast r hr

end Agreement

end Bits
