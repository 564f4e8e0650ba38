import Mathlib.Tactic.Linarith

/-!
# State machines with a non-local exit

A computation reads an environment, threads a state, and ends in one of three
ways: it returns a value, it escapes to the innermost armed trap (the state
survives, the rest of the computation does not), or it runs out of the nesting
it was given. This is the shape of C code that uses `setjmp`/`longjmp` over one
mutable context, with the bounded recursion made explicit.

`wp` is the weakest precondition over the two terminating ways: one
postcondition for a normal return and one for an escape. It is false of a
computation that runs out, so every triple also states termination.
-/

namespace Trap

/-- How a computation over states `S` ends. -/
inductive Outcome (S α : Type) where
  | ok (a : α) (s : S)
  | trap (s : S)
  | diverge

/-- Computations with environment `E`, state `S` and a non-local exit. -/
def TrapM (E S α : Type) : Type := E → S → Outcome S α

namespace TrapM

variable {E S α β : Type}

instance : Monad (TrapM E S) where
  pure a := fun _ s => .ok a s
  bind m f := fun e s =>
    match m e s with
    | .ok a t => f a e t
    | .trap t => .trap t
    | .diverge => .diverge

/-- Read a projection of the state. -/
def gets (f : S → α) : TrapM E S α := fun _ s => .ok (f s) s

/-- Update the state. -/
def modify (f : S → S) : TrapM E S Unit := fun _ s => .ok () (f s)

/-- The environment. -/
def env : TrapM E S E := fun e s => .ok e s

/-- Run a host function that sees and may change the whole state. -/
def call (f : S → S × α) : TrapM E S α := fun _ s => .ok (f s).2 (f s).1

/-- Leave for the innermost `catchTrap`. -/
def escape : TrapM E S α := fun _ s => .trap s

/-- Nesting exhausted. -/
def stuck : TrapM E S α := fun _ _ => .diverge

/-- Run `body`; when it escapes, continue with `handler` in the state of the
escape. -/
def catchTrap (body handler : TrapM E S α) : TrapM E S α := fun e s =>
  match body e s with
  | .ok a t => .ok a t
  | .trap t => handler e t
  | .diverge => .diverge

/-- The state a computation ends in, when it returns normally. -/
def exec? (m : TrapM E S α) (e : E) (s : S) : Option S :=
  match m e s with
  | .ok _ t => some t
  | _ => none

theorem ext {m n : TrapM E S α} (h : ∀ e s, m e s = n e s) : m = n :=
  funext fun e => funext fun s => h e s

theorem id_map_eq (m : TrapM E S α) : id <$> m = m := by
  apply ext
  intro e s
  show (match m e s with
    | .ok a t => _
    | .trap t => _
    | .diverge => _) = _
  cases m e s <;> rfl

theorem bind_bind {γ : Type} (m : TrapM E S α) (f : α → TrapM E S β) (g : β → TrapM E S γ) :
    m >>= f >>= g = m >>= fun a => f a >>= g := by
  apply ext
  intro e s
  show (match (match m e s with
      | .ok a t => f a e t
      | .trap t => .trap t
      | .diverge => .diverge) with
    | .ok b t => g b e t
    | .trap t => .trap t
    | .diverge => .diverge) = _
  cases h : m e s <;> simp [bind, h]

instance : LawfulMonad (TrapM E S) :=
  .mk' (TrapM E S) id_map_eq (fun _ _ => rfl) bind_bind

end TrapM

end Trap
