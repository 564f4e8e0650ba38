import Rocket68.State

/-!
# The restore loop over offsets

`m68k_deserialize` as the source runs it: a position moves through the buffer, and
every byte is read from it. A read at or beyond the length is stuck, and so is
the loop when it needs more iterations than it is given.
-/

namespace M68k

open Tlv

variable {σ : Type}

/-- `n` bytes from position `p`. -/
def bytesAt (buffer : List U8) : Nat → Nat → Option (List U8)
  | _, 0 => some []
  | p, n + 1 => do
      let byte ← buffer[p]?
      let rest ← bytesAt buffer (p + 1) n
      pure (byte :: rest)

/-- `while (p < end)`: a field is applied, `none` is `return false`. -/
def readFields (buffer : List U8) : Nat → Nat → M68kCpu σ → Option (Bool × M68kCpu σ)
  | 0, _, _ => none
  | fuel + 1, p, s =>
      if p < buffer.length then
        if buffer.length - p < 2 then some (false, s)
        else do
          let tag ← buffer[p]?
          let len ← buffer[p + 1]?
          let p := p + 2
          if buffer.length - p < len.toNat then pure (false, s)
          else
            match stateTag? tag with
            | none => readFields buffer fuel (p + len.toNat) s
            | some t =>
                if len.toNat ≠ t.size then pure (false, s)
                else do
                  let payload ← bytesAt buffer p t.size
                  match restoreField t payload with
                  | none => pure (false, s)
                  | some f => readFields buffer fuel (p + len.toNat) (f s)
      else some (true, clearTransient s)

/-- `m68k_deserialize` on `length` bytes of a buffer that is not NULL. -/
def deserializeAt (fuel : Nat) (buffer : List U8) (s : M68kCpu σ) :
    Option (Bool × M68kCpu σ) :=
  if buffer.length < 8 then some (false, s)
  else do
    let magic ← bytesAt buffer 0 4
    let version ← bytesAt buffer 4 2
    if magic ≠ stateMagic ∨ stateGet16 version ≠ stateVersion then pure (false, s)
    else readFields buffer fuel 8 s

end M68k
