import Mathlib.Data.List.Basic

/-!
# Lines and the pieces a bounded buffer cuts them into

A text is a list of symbols with one symbol, `nl`, that ends a line. `lines`
cuts after every `nl`; `pieces n` also cuts after `n + 1` symbols, which is what
a reader with a buffer of that room sees. Every piece lies in one line, so the
pieces of a text are those of its lines, one line after the other.
-/

namespace Text

section ConsHead

variable {α : Type}

/-- Put a symbol in front of the first piece. -/
def consHead (c : α) : List (List α) → List (List α)
  | [] => [[c]]
  | l :: ls => (c :: l) :: ls

theorem consHead_append (c : α) {p : List (List α)} (q : List (List α)) (hp : p ≠ []) :
    consHead c (p ++ q) = consHead c p ++ q := by
  cases p with
  | nil => exact absurd rfl hp
  | cons l ls => rfl

theorem flatten_consHead (c : α) (p : List (List α)) :
    (consHead c p).flatten = c :: p.flatten := by
  cases p <;> rfl

/-- A text of whole lines: nothing of the next one has begun. -/
def Whole (nl : α) (t : List α) : Prop := t = [] ∨ t.getLast? = some nl

theorem Whole.tail {nl c : α} {t : List α} (h : Whole nl (c :: t)) (hc : c ≠ nl) :
    Whole nl t ∧ t ≠ [] := by
  rcases h with h | h
  · cases h
  · cases t with
    | nil => exact absurd (Option.some.inj h) hc
    | cons d t => exact ⟨.inr h, List.cons_ne_nil d t⟩

end ConsHead

variable {α : Type} [DecidableEq α] (nl : α)

/-- The lines of a text, each with the symbol that ends it. -/
def lines : List α → List (List α)
  | [] => []
  | c :: t => if c = nl then [c] :: lines t else consHead c (lines t)

/-- The pieces of a text of at most `n + 1` symbols each; the first one has room
for `k + 1`. -/
def pieces (n : Nat) : Nat → List α → List (List α)
  | _, [] => []
  | k, c :: t =>
      if c = nl then [c] :: pieces n n t
      else
        match k with
        | 0 => [c] :: pieces n n t
        | k + 1 => consHead c (pieces n k t)

section Cons

variable {nl} {n k : Nat} {c : α} {t : List α}

/-- The buffer is full after `c`. -/
theorem pieces_full (h : c ≠ nl) : pieces nl n 0 (c :: t) = [c] :: pieces nl n n t := by
  simp [pieces, h]

theorem pieces_room (h : c ≠ nl) : pieces nl n (k + 1) (c :: t) = consHead c (pieces nl n k t) := by
  simp [pieces, h]

theorem pieces_single : pieces nl n k [c] = [[c]] := by
  unfold pieces
  split
  · simp [pieces]
  · cases k <;> simp [pieces, consHead]

end Cons

/-! ## Nothing is lost -/

theorem pieces_flatten (n k : Nat) (t : List α) : (pieces nl n k t).flatten = t := by
  induction t generalizing k with
  | nil => rfl
  | cons c t ih =>
      unfold pieces
      split
      · simp [ih]
      · cases k with
        | zero => simp [ih]
        | succ k => rw [flatten_consHead, ih]

theorem mem_of_mem_pieces {n k : Nat} {t p : List α} (h : p ∈ pieces nl n k t) {c : α}
    (hc : c ∈ p) : c ∈ t := by
  rw [← pieces_flatten nl n k t]
  exact List.mem_flatten.mpr ⟨p, h, hc⟩

theorem pieces_ne_nil {n k : Nat} {t : List α} (h : t ≠ []) : pieces nl n k t ≠ [] := by
  intro hnil
  have hflat := pieces_flatten nl n k t
  rw [hnil] at hflat
  exact h hflat.symm

/-- A text that is not empty has a first line, and that starts with its first
symbol. -/
theorem lines_cons (c : α) (t : List α) : ∃ l ls, lines nl (c :: t) = (c :: l) :: ls := by
  unfold lines
  split
  · exact ⟨[], lines nl t, rfl⟩
  · cases lines nl t with
    | nil => exact ⟨[], [], rfl⟩
    | cons l ls => exact ⟨l, ls, rfl⟩

variable {nl} in
/-- Behind whole lines the next text starts lines of its own. -/
theorem lines_append {before : List α} (h : Whole nl before) (t : List α) :
    lines nl (before ++ t) = lines nl before ++ lines nl t := by
  induction before with
  | nil => rfl
  | cons c before ih =>
      rw [List.cons_append, lines, lines]
      by_cases hc : c = nl
      · have hrest : Whole nl before := by
          rcases h with h | h
          · cases h
          · cases before with
            | nil => exact .inl rfl
            | cons d before => exact .inr h
        rw [if_pos hc, if_pos hc, ih hrest, List.cons_append]
      · obtain ⟨hrest, hne⟩ := h.tail hc
        have hlines : lines nl before ≠ [] := by
          cases before with
          | nil => exact absurd rfl hne
          | cons d before =>
              obtain ⟨l, ls, heq⟩ := lines_cons nl d before
              rw [heq]
              exact List.cons_ne_nil _ _
        rw [if_neg hc, if_neg hc, ih hrest, consHead_append c _ hlines]

/-! ## Pieces, line by line -/

/-- The pieces of the first line come first, and the buffer starts afresh after
it. -/
theorem pieces_lines (n k : Nat) (t : List α) :
    pieces nl n k t =
      pieces nl n k (lines nl t).headI ++ (lines nl t).tail.flatMap (pieces nl n n) := by
  induction t generalizing k with
  | nil => rfl
  | cons c t ih =>
      have hrest : pieces nl n n t = (lines nl t).flatMap (pieces nl n n) := by
        rw [ih n]
        cases lines nl t <;> rfl
      by_cases hc : c = nl
      · simp [lines, pieces, hc, hrest]
      · cases t with
        | nil => simp [lines, consHead]
        | cons d t =>
            obtain ⟨l, ls, hlines⟩ := lines_cons nl d t
            rw [hlines] at ih hrest
            have hhead : lines nl (c :: d :: t) = (c :: d :: l) :: ls := by
              rw [lines, if_neg hc, hlines]
              rfl
            rw [hhead]
            cases k with
            | zero =>
                -- The rest of the line starts a buffer of its own.
                simp only [List.headI_cons, List.tail_cons, pieces_full hc, ih n, List.cons_append]
            | succ k =>
                have hne : pieces nl n k (d :: l) ≠ [] := pieces_ne_nil nl (by simp)
                simp only [List.headI_cons, List.tail_cons, pieces_room hc, ih k,
                  consHead_append c _ hne]

theorem pieces_eq_flatMap (n : Nat) (t : List α) :
    pieces nl n n t = (lines nl t).flatMap (pieces nl n n) := by
  rw [pieces_lines]
  cases lines nl t <;> rfl

variable {nl} in
theorem pieces_append (n : Nat) {before : List α} (h : Whole nl before) (t : List α) :
    pieces nl n n (before ++ t) = pieces nl n n before ++ pieces nl n n t := by
  rw [pieces_eq_flatMap, lines_append h, List.flatMap_append, ← pieces_eq_flatMap,
    ← pieces_eq_flatMap]

/-- The first piece of a line is what the buffer has room for. -/
theorem pieces_head (n k : Nat) {l : List α} (hnl : nl ∉ l.dropLast) :
    (pieces nl n k l).headI = l.take (k + 1) := by
  induction l generalizing k with
  | nil => rfl
  | cons c l ih =>
      cases l with
      | nil => simp [pieces_single]
      | cons d l =>
          simp only [List.dropLast_cons_cons, List.mem_cons, not_or] at hnl
          obtain ⟨hc, hnl⟩ := hnl
          cases k with
          | zero => rw [pieces_full (Ne.symm hc)]; rfl
          | succ k =>
              rw [pieces_room (Ne.symm hc)]
              have hne : pieces nl n k (d :: l) ≠ [] := pieces_ne_nil nl (by simp)
              have hhead := ih k hnl
              cases hp : pieces nl n k (d :: l) with
              | nil => exact absurd hp hne
              | cons p ps =>
                  rw [hp] at hhead
                  simp only [consHead, List.headI_cons] at hhead ⊢
                  rw [hhead]
                  rfl

/-- A line the buffer has room for is one piece. -/
theorem pieces_short (n k : Nat) {l : List α} (hnl : nl ∉ l.dropLast) (hl : l ≠ [])
    (hlen : l.length ≤ k + 1) : pieces nl n k l = [l] := by
  induction l generalizing k with
  | nil => exact absurd rfl hl
  | cons c l ih =>
      cases l with
      | nil => exact pieces_single
      | cons d l =>
          simp only [List.dropLast_cons_cons, List.mem_cons, not_or] at hnl
          obtain ⟨hc, hnl⟩ := hnl
          cases k with
          | zero => simp at hlen
          | succ k =>
              have hlen' : (d :: l).length ≤ k + 1 := by simpa using hlen
              rw [pieces_room (Ne.symm hc), ih k hnl (by simp) hlen']
              rfl

/-- The end-of-line symbol stands at most at the end of a line. -/
theorem not_mem_dropLast {t l : List α} (h : l ∈ lines nl t) : nl ∉ l.dropLast := by
  induction t generalizing l with
  | nil => cases h
  | cons c t ih =>
      unfold lines at h
      by_cases hc : c = nl
      · rw [if_pos hc] at h
        rcases List.mem_cons.mp h with rfl | h
        · simp
        · exact ih h
      · rw [if_neg hc] at h
        cases hlines : lines nl t with
        | nil =>
            rw [hlines] at h
            simp only [consHead, List.mem_singleton] at h
            subst h
            simp
        | cons l' ls =>
            rw [hlines] at h ih
            rcases List.mem_cons.mp h with rfl | h
            · have hl' : nl ∉ l'.dropLast := ih List.mem_cons_self
              cases l' with
              | nil => simp
              | cons d l' =>
                  rw [List.dropLast_cons_cons, List.mem_cons, not_or]
                  exact ⟨Ne.symm hc, hl'⟩
            · exact ih (List.mem_cons_of_mem _ h)

theorem ne_nil_of_mem_lines {t l : List α} (h : l ∈ lines nl t) : l ≠ [] := by
  induction t generalizing l with
  | nil => cases h
  | cons c t ih =>
      unfold lines at h
      split at h
      · rcases List.mem_cons.mp h with rfl | h
        · simp
        · exact ih h
      · cases hlines : lines nl t with
        | nil =>
            rw [hlines] at h
            rw [List.mem_singleton.mp h]
            simp
        | cons l' ls =>
            rw [hlines] at h ih
            rcases List.mem_cons.mp h with rfl | h
            · simp
            · exact ih (List.mem_cons_of_mem _ h)

end Text
