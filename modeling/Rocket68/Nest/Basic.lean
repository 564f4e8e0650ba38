/-!
# Well-nested runs

Runs made of plain steps and of brackets. A bracket is an opening step, a well-nested run and
the closing step that answers the opening one. An index says what the plain steps respect; a
bracket may ask for more inside.
-/

namespace Nest

variable {S I B : Type}

/-- Plain steps, and the steps that open and close a bracket. -/
structure Bracketing (S I B : Type) where
  plain : I → S → S → Prop
  opens : B → S → S → Prop
  closes : B → S → S → Prop
  enter : B → I → I

/-- Brackets and plain steps, well nested. -/
inductive Nested (r : Bracketing S I B) : I → S → S → Prop
  | done (i : I) (s : S) : Nested r i s s
  | plain {i : I} {s t u : S} (hplain : r.plain i s t) (rest : Nested r i t u) : Nested r i s u
  | bracket {i : I} {s t u v w : S} (b : B) (hopen : r.opens b s t)
      (inner : Nested r (r.enter b i) t u) (hclose : r.closes b u v) (rest : Nested r i v w) :
      Nested r i s w

/-- What plain steps keep, and a bracket does if the run inside it does, a well-nested run
keeps. -/
theorem Nested.keeps {r : Bracketing S I B} {K : I → S → S → Prop} (hrefl : ∀ i s, K i s s)
    (htrans : ∀ {i s t u}, K i s t → K i t u → K i s u)
    (hplain : ∀ {i s t}, r.plain i s t → K i s t)
    (hbracket : ∀ {i b s t u v}, r.opens b s t → K (r.enter b i) t u → r.closes b u v → K i s v)
    {i : I} {s u : S} (h : Nested r i s u) : K i s u := by
  induction h with
  | done i s => exact hrefl i s
  | plain h _ ih => exact htrans (hplain h) ih
  | bracket b hopen _ hclose _ ihinner ihrest => exact htrans (hbracket hopen ihinner hclose) ihrest

end Nest
