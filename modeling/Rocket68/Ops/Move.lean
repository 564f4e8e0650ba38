import Rocket68.Flags

/-!
# Data movement (`ops_move.c`)
-/

namespace M68k

open Trap TrapM

variable {σ : Type}

/-! ## MOVE -/

/-- The size code of MOVE: 1 byte, 3 word, 2 long. -/
def moveSize? (opcode : U16) : Option M68kSize :=
  match ((opcode >>> 12).setWidth 2).toFin with
  | (1 : Fin 4) => some .byte
  | 3 => some .word
  | 2 => some .long
  | _ => none

/-- The destinations MOVE rejects. -/
def moveDestRejects (mode reg : Fin 8) (size : M68kSize) : Bool :=
  (mode == 7 && reg > 1) || (mode == 1 && size == .byte)

/-- A resolved MOVE destination; `commit` is the address register value still
to be written once the store has succeeded. -/
structure MoveDest where
  ea : Ea
  commit : Option U32

/-- Destination resolution: `(An)+` and long `-(An)` commit after the write. -/
def moveDest (mode reg : Fin 8) (size : M68kSize) : M σ MoveDest := do
  if mode = 3 then do
    charge (eaCycles mode reg size)
    let address ← getA reg
    pure { ea := { address := address }, commit := some (address + stepSize reg size) }
  else if mode = 4 then do
    charge (eaCycles mode reg size)
    let address := (← getA reg) - stepSize reg size
    if size = .long then
      pure { ea := { address := address }, commit := some address }
    else do
      setA reg address
      pure { ea := { address := address }, commit := none }
  else do
    let ea ← calcEaAddr mode reg size
    pure { ea := ea, commit := none }

/-- `full_flags`. -/
def moveFlags (size : M68kSize) (value : U32) : U16 :=
  flagsNz size value 0

/-- `src_reg_imm`. -/
def srcRegImm (mode reg : Fin 8) : Bool := mode ≤ 1 || (mode == 7 && reg == 4)

/-- The condition codes a faulted long write leaves visible. -/
def moveFaultFlags (destMode destReg : Fin 8) (regImm : Bool) (value : U32) (sr : U16) : U16 :=
  let absLongDest := destMode == 7 && destReg == 1
  if destMode == 2 || destMode == 3 || (absLongDest && !regImm) then
    if regImm then sr &&& nzvc
    else
      setIf (value.setWidth 16 == (0 : U16)) srZ (setIf (value &&& 0x8000 != 0) srN 0)
  else if (destMode == 5 || destMode == 6) && regImm then
    setIf (value >>> 16 == 0) srZ
      (setIf (value &&& 0x80000000 != 0) srN (sr &&& nzvc &&& (srV ||| srC)))
  else moveFlags .long value

/-- `fault_refund`. -/
def moveRefund (destMode destReg : Fin 8) (regImm : Bool) (size : M68kSize) : Int :=
  (if size = .long then (if destMode = 4 then 2 else 4) else 0) +
    (if destMode = 7 ∧ destReg = 1 ∧ !regImm then 4 else 0)

/-- `cpu->sr = (cpu->sr & ~ccr_mask) | flags`. -/
def setCcr (flags : U16) : M σ Unit := modifySr fun sr => (sr &&& ~~~nzvc) ||| flags

/-- `if (commit_after_write) cpu->a_regs[dest_reg].l = commit_value`. -/
def commitMove (reg : Fin 8) : Option U32 → M σ Unit
  | some value => setA reg value
  | none => pure ()

/-- `cpu->fault_bus_word = w; cpu->fault_bus_word_valid = true`. -/
def latchBusWord (w : U16) : M σ Unit :=
  modify fun s => { s with faultBusWord := w, faultBusWordValid := true }

/-- `cpu->fault_bus_word_valid = false`. -/
def dropBusWord : M σ Unit := modify fun s => { s with faultBusWordValid := false }

/-- The memory destination of MOVE. -/
def moveToMemory (destMode destReg srcMode srcReg : Fin 8) (size : M68kSize)
    (dest : MoveDest) (value pcAfterSrc : U32) : M σ Unit := do
  let regImm := srcRegImm srcMode srcReg
  latchFaultPc (pcAfterSrc + 2 +
    (if destMode = 7 ∧ destReg = 1 ∧ srcMode ≤ 1 then 2 else 0))
  if size = .long then
    modifySr fun sr => (sr &&& ~~~nzvc) ||| moveFaultFlags destMode destReg regImm value sr
  else
    setCcr (moveFlags size value)
  let refund := moveRefund destMode destReg regImm size
  charge (-refund)
  if destMode = 4 ∧ size = .long then do
    -- Predecrement long writes go low word first.
    write16 (dest.ea.address + 2) (value.setWidth 16)
    write16 dest.ea.address ((value >>> 16).setWidth 16)
    charge refund
    commitMove destReg dest.commit
    setCcr (moveFlags size value)
  else do
    if destMode = 4 then do
      charge 2
      if isOdd dest.ea.address then
        latchBusWord (← peekWord pcAfterSrc)
    writeSize dest.ea.address value size
    charge refund
    dropBusWord
    commitMove destReg dest.commit
    if size = .long then
      setCcr (moveFlags size value)

/-- `m68k_exec_move`. -/
def execMove (opcode : U16) : M σ Unit := do
  match moveSize? opcode with
  | none => pure ()
  | some size =>
      let destReg := field opcode 9
      let destMode := field opcode 6
      let srcMode := field opcode 3
      let srcReg := field opcode 0
      if moveDestRejects destMode destReg size then
        exception 4
      else do
        let srcEa ← calcEa srcMode srcReg size
        let pcAfterSrc ← getPc
        let dest ← moveDest destMode destReg size
        if dest.ea.isData then do
          setDSized dest.ea.regNum size srcEa.value
          setCcr (moveFlags size srcEa.value)
        else if dest.ea.isReg then
          setA dest.ea.regNum (if size = .word then sext16 srcEa.value else srcEa.value)
        else
          moveToMemory destMode destReg srcMode srcReg size dest srcEa.value pcAfterSrc

/-- `m68k_exec_moveq`. -/
def execMoveq (opcode : U16) : M σ Unit := do
  let data := sext8 (opcode.setWidth 32)
  setD (field opcode 9) data
  modifySr (flagsLogic data .long)

/-! ## LEA, PEA, LINK, UNLK -/

/-- `m68k_exec_lea`. -/
def execLea (opcode : U16) : M σ Unit := do
  let ea ← calcEaCtl (field opcode 3) (field opcode 0) false
  setA (field opcode 9) ea.address

/-- `m68k_exec_pea`. -/
def execPea (opcode : U16) : M σ Unit := do
  let ea ← calcEaCtl (field opcode 3) (field opcode 0) false
  push32 ea.address

/-- `m68k_exec_link`. -/
def execLink (opcode : U16) : M σ Unit := do
  let reg := field opcode 0
  let displacement ← fetch
  push32 (← getA reg)
  setA reg (← getA 7)
  setA 7 ((← getA 7) + displacement.signExtend 32)

/-- `m68k_exec_unlk`. -/
def execUnlk (opcode : U16) : M σ Unit := do
  let reg := field opcode 0
  let frameSp ← getA reg
  latchFaultPc ((← getPc) + 2)
  charge 4
  let value ← read32 frameSp
  setA 7 (frameSp + 4)
  setA reg value

/-! ## MOVEM -/

/-- The addressing modes MOVEM rejects. -/
def movemRejects (dirMemToReg : Bool) (mode reg : Fin 8) : Bool :=
  mode < 2 || (mode == 7 && reg == 4) || (mode == 7 && reg > 4) ||
    (dirMemToReg && mode == 4) ||
    (!dirMemToReg && (mode == 3 || (mode == 7 && (reg == 2 || reg == 3))))

/-- Register `i` of the MOVEM order D0..D7, A0..A7. -/
def movemRegister (i : Fin 16) : M σ U32 :=
  if i < 8 then getD (Fin.ofNat 8 i) else getA (Fin.ofNat 8 i)

/-- The memory-to-register transfer loop; returns the next address. -/
def movemLoad (mask : U16) (size : M68kSize) : List (Fin 16) → U32 → M σ U32
  | [], addr => pure addr
  | i :: rest, addr =>
      if mask.getLsbD i then do
        let raw ← readSize addr size
        charge (if size = .long then 8 else 4)
        let val := if size = .long then raw else sext16 raw
        if i < 8 then setD (Fin.ofNat 8 i) val else setA (Fin.ofNat 8 i) val
        movemLoad mask size rest (addr + size.bytes)
      else
        movemLoad mask size rest addr

/-- The predecrement transfer loop: bit `i` selects register `15 - i`, and the
base register stores its initial value. -/
def movemStorePredec (mask : U16) (size : M68kSize) (base : Fin 8) (initialAn : U32) :
    List (Fin 16) → U32 → M σ U32
  | [], addr => pure addr
  | i :: rest, addr =>
      if mask.getLsbD i then do
        let regIdx := i.rev
        let addr := addr - size.bytes
        let val ← if regIdx ≥ 8 ∧ Fin.ofNat 8 regIdx = base then pure initialAn
          else movemRegister regIdx
        if size = .long then do
          write16 (addr + 2) (val.setWidth 16)
          write16 addr ((val >>> 16).setWidth 16)
        else
          writeSize addr (val &&& 0xFFFF) size
        charge (if size = .long then 8 else 4)
        movemStorePredec mask size base initialAn rest addr
      else
        movemStorePredec mask size base initialAn rest addr

/-- The ascending register-to-memory transfer loop. -/
def movemStore (mask : U16) (size : M68kSize) : List (Fin 16) → U32 → M σ Unit
  | [], _ => pure ()
  | i :: rest, addr =>
      if mask.getLsbD i then do
        let val ← movemRegister i
        writeSize addr (if size = .long then val else val &&& 0xFFFF) size
        charge (if size = .long then 8 else 4)
        movemStore mask size rest (addr + size.bytes)
      else
        movemStore mask size rest addr

/-- The start address of a MOVEM transfer. -/
def movemAddress (dirMemToReg : Bool) (mode reg : Fin 8) (size : M68kSize) : M σ U32 := do
  if (mode = 4 ∧ !dirMemToReg) ∨ mode = 3 then
    getA reg
  else do
    let ea ← calcEaAddrNocost mode reg size
    pure ea.address

/-- `m68k_exec_movem`. -/
def execMovem (opcode : U16) : M σ Unit := do
  let dirMemToReg := opcode &&& 0x0400 != 0
  let size : M68kSize := if opcode &&& 0x0040 != 0 then .long else .word
  let mode := field opcode 3
  let reg := field opcode 0
  if movemRejects dirMemToReg mode reg then
    exception 4
  else do
    let mask ← fetch
    let addr ← movemAddress dirMemToReg mode reg size
    charge (movemEaCycles mode reg dirMemToReg)
    if dirMemToReg then charge (-4)
    latchFaultPc ((← getPc) + 2)
    if dirMemToReg then do
      if mode = 7 ∧ (reg = 2 ∨ reg = 3) then setProgramSpace true
      let next ← movemLoad mask size (List.finRange 16) addr
      setProgramSpace false
      charge 4
      if mode = 3 then setA reg next
    else if mode = 4 then do
      let next ← movemStorePredec mask size reg (← getA reg) (List.finRange 16) addr
      setA reg next
    else
      movemStore mask size (List.finRange 16) addr

/-! ## EXG, SWAP -/

/-- `m68k_exec_exg`. -/
def execExg (opcode : U16) : M σ Unit := do
  let rx := field opcode 9
  let ry := field opcode 0
  let opmode := (opcode >>> 3) &&& 0x1F
  if opmode = 0x08 then do
    let x ← getD rx
    let y ← getD ry
    setD rx y
    setD ry x
  else if opmode = 0x09 then do
    let x ← getA rx
    let y ← getA ry
    setA rx y
    setA ry x
  else if opmode = 0x11 then do
    let x ← getD rx
    let y ← getA ry
    setD rx y
    setA ry x

/-- `m68k_exec_swap`. -/
def execSwap (opcode : U16) : M σ Unit := do
  let reg := field opcode 0
  let val ← getD reg
  let result := (val <<< 16) ||| (val >>> 16)
  setD reg result
  modifySr (flagsLogic result .long)

/-! ## Moves to and from the status register -/

/-- The store of MOVE from SR and MOVE from CCR: memory is read first. -/
def storeStatus (ea : Ea) (status : M σ U16) : M σ Unit := do
  if ea.isData then do
    let old ← getD ea.regNum
    setD ea.regNum ((old &&& 0xFFFF0000) ||| (← status).setWidth 32)
  else do
    let _ ← readSize ea.address .word
    writeSize ea.address ((← status).setWidth 32) .word

/-- `m68k_exec_move_sr`: MOVE to SR, MOVE from SR and MOVE from CCR. -/
def execMoveSr (opcode : U16) : M σ Unit := do
  let mode := field opcode 3
  let reg := field opcode 0
  if opcode &&& 0xFFC0 = 0x46C0 then
    if notData mode reg then
      exception 4
    else
      privileged do
        let ea ← calcEa mode reg .word
        setSr (ea.value.setWidth 16)
  else if opcode &&& 0xFFC0 = 0x40C0 then
    if notDataAlterable mode reg then
      exception 4
    else do
      let sr ← getSr
      if (← getModel).is68010 && sr &&& srS == 0 then
        privilegeViolation
      else do
        let ea ← calcEaAddr mode reg .word
        storeStatus ea getSr
  else if opcode &&& 0xFFC0 = 0x42C0 then
    if notDataAlterable mode reg then
      exception 4
    else do
      let ea ← calcEaAddr mode reg .word
      let ccr := (← getSr) &&& 0x00FF
      storeStatus ea (pure ccr)

/-- `m68k_exec_move_usp`. -/
def execMoveUsp (opcode : U16) : M σ Unit :=
  privileged do
    let reg := field opcode 0
    if opcode &&& 0x8 = 0 then do
      let a ← getA reg
      modify fun s => { s with usp := a }
    else do
      setA reg (← gets (·.usp))

/-- `m68k_exec_move_ccr`. -/
def execMoveCcr (opcode : U16) : M σ Unit := do
  let mode := field opcode 3
  let reg := field opcode 0
  if notData mode reg then
    exception 4
  else do
    let ea ← calcEa mode reg .word
    modifySr fun sr => (sr &&& 0xFF00) ||| (ea.value.setWidth 16 &&& 0x1F)

/-! ## MOVEP, MOVES -/

/-- `m68k_exec_movep`. -/
def execMovep (opcode : U16) : M σ Unit := do
  let dataReg := field opcode 9
  let addrReg := field opcode 0
  let disp ← fetch
  let addr := (← getA addrReg) + disp.signExtend 32
  match field opcode 6 with
  | 4 => do
      let old ← getD dataReg
      let b1 ← read8 addr
      let b0 ← read8 (addr + 2)
      setD dataReg ((old &&& 0xFFFF0000) ||| (b1.setWidth 32 <<< 8) ||| b0.setWidth 32)
  | 5 => do
      let b3 ← read8 addr
      let b2 ← read8 (addr + 2)
      let b1 ← read8 (addr + 4)
      let b0 ← read8 (addr + 6)
      setD dataReg ((b3.setWidth 32 <<< 24) ||| (b2.setWidth 32 <<< 16) |||
        (b1.setWidth 32 <<< 8) ||| b0.setWidth 32)
  | 6 => do
      write8 addr (((← getD dataReg) >>> 8).setWidth 8)
      write8 (addr + 2) ((← getD dataReg).setWidth 8)
  | 7 => do
      write8 addr (((← getD dataReg) >>> 24).setWidth 8)
      write8 (addr + 2) (((← getD dataReg) >>> 16).setWidth 8)
      write8 (addr + 4) (((← getD dataReg) >>> 8).setWidth 8)
      write8 (addr + 6) ((← getD dataReg).setWidth 8)
  | _ => pure ()

/-- Sign extension of a MOVES load into an address register. -/
def signExtendSized (size : M68kSize) (v : U32) : U32 :=
  match size with
  | .byte => sext8 v
  | .word => sext16 v
  | .long => v

/-- `m68k_exec_moves`. -/
def execMoves (opcode : U16) : M σ Unit := do
  let mode := field opcode 3
  let reg := field opcode 0
  if notMemoryAlterable mode reg then
    exception 4
  else
    privileged do
      match sizeOf? (sizeBits opcode) with
      | none => pure ()
      | some size => do
          let ext ← fetch
          if ext &&& 0x07FF != 0 then
            exception 4
          else
            let isAddr := ext.getLsbD 15
            let regNum := field ext 12
            if ext.getLsbD 11 then do
              let ea ← calcEaAddr mode reg size
              let val ← if isAddr then getA regNum else getD regNum
              writeSize ea.address val size
            else do
              let ea ← calcEa mode reg size
              if isAddr then setA regNum (signExtendSized size ea.value)
              else setDSized regNum size ea.value

end M68k
