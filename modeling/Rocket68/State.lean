import Rocket68.Cpu
import Rocket68.Tlv.Basic

/-!
# Portable save states

`m68k_serialize` and `m68k_deserialize`: an 8-byte header and a stream of
tag-length-value records. A record is applied as soon as it is read.
-/

namespace M68k

open Tlv

variable {σ : Type}

/-! ## Big-endian fields -/

/-- `state_put_16`. -/
def statePut16 (v : U16) : List U8 := [(v >>> 8).setWidth 8, v.setWidth 8]

/-- `state_put_32`. -/
def statePut32 (v : U32) : List U8 :=
  [(v >>> 24).setWidth 8, (v >>> 16).setWidth 8, (v >>> 8).setWidth 8, v.setWidth 8]

/-- `state_get_16`. -/
def stateGet16 (p : List U8) : U16 :=
  ((p.getD 0 0).setWidth 16 <<< 8) ||| (p.getD 1 0).setWidth 16

/-- `state_get_32`. -/
def stateGet32 (p : List U8) : U32 :=
  ((p.getD 0 0).setWidth 32 <<< 24) ||| ((p.getD 1 0).setWidth 32 <<< 16) |||
    ((p.getD 2 0).setWidth 32 <<< 8) ||| (p.getD 3 0).setWidth 32

/-- The known record tags. -/
inductive StateTag where
  | dregs
  | aregs
  | pc
  | sr
  | usp
  | ssp
  | vbr
  | sfc
  | dfc
  | flags
  | decode
  | cycles
  | model
  deriving DecidableEq, Repr

/-- The value of `M68K_TAG_*`. -/
def StateTag.byte : StateTag → U8
  | .dregs => 1
  | .aregs => 2
  | .pc => 3
  | .sr => 4
  | .usp => 5
  | .ssp => 6
  | .vbr => 7
  | .sfc => 8
  | .dfc => 9
  | .flags => 10
  | .decode => 11
  | .cycles => 12
  | .model => 13

/-- The prescribed payload length of a known tag. -/
def StateTag.size : StateTag → Nat
  | .dregs | .aregs => 32
  | .sr => 2
  | .decode => 6
  | .cycles => 8
  | _ => 4

def stateTag? (tag : U8) : Option StateTag :=
  [StateTag.dregs, .aregs, .pc, .sr, .usp, .ssp, .vbr, .sfc, .dfc, .flags, .decode, .cycles,
    .model].find? fun t => t.byte == tag

/-! ## Serialization -/

/-- `M68K_STATE_VERSION`. -/
def stateVersion : U16 := 1

/-- `R68S`. -/
def stateMagic : List U8 := [0x52, 0x36, 0x38, 0x53]

/-- The 8-byte header. -/
def stateHeader : List U8 := stateMagic ++ statePut16 stateVersion ++ statePut16 0

/-- The value of a model's enumerator. -/
def modelCode : M68kModel → U32
  | .m68000 => 0
  | .m68010 => 1

/-- `b ? 1 : 0`. -/
def flagByte (b : Bool) : U8 := if b then 1 else 0

/-- The payload `m68k_serialize` writes under a tag. -/
def statePayload (s : M68kCpu σ) : StateTag → List U8
  | .dregs => (List.finRange 8).flatMap fun i => statePut32 (s.dRegs i)
  | .aregs => (List.finRange 8).flatMap fun i => statePut32 (s.aRegs i)
  | .pc => statePut32 s.pc
  | .sr => statePut16 s.sr
  | .usp => statePut32 s.usp
  | .ssp => statePut32 s.ssp
  | .vbr => statePut32 s.vbr
  | .sfc => statePut32 s.sfc
  | .dfc => statePut32 s.dfc
  | .flags =>
      [flagByte s.stopped, BitVec.ofNat 8 s.irqLevel, flagByte s.nmiPending,
        flagByte s.tracePending]
  | .decode => statePut16 s.ir ++ statePut32 s.ppc
  | .cycles =>
      statePut32 (BitVec.ofInt 32 s.targetCycles) ++
        statePut32 (BitVec.ofInt 32 s.cyclesRemaining)
  | .model => statePut32 (modelCode s.model)

theorem statePayload_length (s : M68kCpu σ) (t : StateTag) :
    (statePayload s t).length = t.size := by
  cases t <;> rfl

/-- The record of a tag. -/
def stateField (s : M68kCpu σ) (t : StateTag) : Record where
  tag := t.byte
  payload := statePayload s t
  short := by
    rw [statePayload_length]
    cases t <;> decide

/-- The order in which `m68k_serialize` writes its records. -/
def stateOrder : List StateTag :=
  [.dregs, .aregs, .pc, .sr, .usp, .ssp, .vbr, .sfc, .dfc, .flags, .decode, .cycles, .model]

/-- The bytes of a save state. -/
def stateBytes (s : M68kCpu σ) : List U8 :=
  stateHeader ++ encode (stateOrder.map (stateField s))

/-- `need`, as the source adds it up. -/
def stateNeed : Nat :=
  8 + (2 + 32) * 2 + (2 + 4) * 6 + (2 + 2) + (2 + 4) + (2 + 6) + (2 + 8) + (2 + 4)

/-- A buffer after bytes are written to its beginning. -/
def overwrite (buffer bytes : List U8) : List U8 := bytes ++ buffer.drop bytes.length

/-- `m68k_serialize` into a buffer with its capacity: the return value and the
buffer after the call. A buffer of `none` is NULL, and asks for the size. -/
def serialize (s : M68kCpu σ) (buffer : Option (List U8)) : Nat × Option (List U8) :=
  match buffer with
  | none => (stateNeed, none)
  | some bytes =>
      if bytes.length < stateNeed then (0, some bytes)
      else ((stateBytes s).length, some (overwrite bytes (stateBytes s)))

/-! ## Restoring -/

/-- The assignments of a record with a known tag and its prescribed length.
Only the model number is checked. -/
def restoreField (t : StateTag) (p : List U8) : Option (M68kCpu σ → M68kCpu σ) :=
  match t with
  | .dregs => some fun s => { s with dRegs := fun i => stateGet32 (p.drop (i * 4)) }
  | .aregs => some fun s => { s with aRegs := fun i => stateGet32 (p.drop (i * 4)) }
  | .pc => some fun s => { s with pc := stateGet32 p }
  | .sr => some fun s => { s with sr := stateGet16 p }
  | .usp => some fun s => { s with usp := stateGet32 p }
  | .ssp => some fun s => { s with ssp := stateGet32 p }
  | .vbr => some fun s => { s with vbr := stateGet32 p }
  | .sfc => some fun s => { s with sfc := stateGet32 p }
  | .dfc => some fun s => { s with dfc := stateGet32 p }
  | .flags =>
      some fun s => { s with
        stopped := p.getD 0 0 != 0
        irqLevel := (p.getD 1 0).toNat
        nmiPending := p.getD 2 0 != 0
        tracePending := p.getD 3 0 != 0 }
  | .decode => some fun s => { s with ir := stateGet16 p, ppc := stateGet32 (p.drop 2) }
  | .cycles =>
      some fun s => { s with
        targetCycles := (stateGet32 p).toInt
        cyclesRemaining := (stateGet32 (p.drop 4)).toInt }
  | .model =>
      let model := stateGet32 p
      if model > modelCode .m68010 then none
      else some fun s => { s with model := if model = 0 then .m68000 else .m68010 }

/-- One iteration of the restore loop: unknown tags are skipped. -/
def decodeRecord (r : Record) : Option (M68kCpu σ → M68kCpu σ) :=
  match stateTag? r.tag with
  | none => some id
  | some t => if r.payload.length ≠ t.size then none else restoreField t r.payload

/-- The header checks. -/
def headerValid (buffer : List U8) : Bool :=
  8 ≤ buffer.length && buffer.take 4 == stateMagic && stateGet16 (buffer.drop 4) == stateVersion

/-- The latches a successful restore clears. -/
def clearTransient (s : M68kCpu σ) : M68kCpu σ :=
  { s with
    exceptionThrown := 0
    faultValid := false
    faultPcValid := false
    faultBusWordValid := false
    operandProgramSpace := false
    group0Fault := false
    faultTrapActive := false
    inAddressError := false
    inBusError := false }

/-- `m68k_deserialize`: the return value and the context after the call. A
buffer of `none` is NULL. -/
def deserialize (buffer : Option (List U8)) (s : M68kCpu σ) : Bool × M68kCpu σ :=
  match buffer with
  | none => (false, s)
  | some bytes =>
      if headerValid bytes then
        let r := restore decodeRecord (bytes.drop 8) s
        (r.1, if r.1 then clearTransient r.2 else r.2)
      else (false, s)

end M68k
