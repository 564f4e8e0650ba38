import Rocket68.Cpu
import Rocket68.Text.Format

/-!
# The disassembler (`disasm.c`)

`m68k_disasm` reads the words around an instruction and formats its line in fixed scratch
buffers. The words are a function of their address: no word is read twice in one call. Every
formatting call into a scratch buffer is recorded with the text it was to put there.
-/

namespace M68k

open Text

/-- What `peek_word` reads at each address. -/
abbrev Words := U32 → U16

/-- `peek_long`. -/
def peekLong (words : Words) (pc : U32) : U32 :=
  ((words pc).setWidth 32 <<< 16) ||| (words (pc + 2)).setWidth 32

/-! ## Scratch buffers -/

/-- The buffers that a line is built from. -/
inductive Scratch where
  | ea
  | op
  | args
  | gpr
  deriving DecidableEq, Repr

/-- `DISASM_EA_SIZE`, `DISASM_OP_SIZE`, `DISASM_ARGS_SIZE` and `sizeof(gpr)`. -/
def Scratch.size : Scratch → Nat
  | .ea => 24
  | .op => 32
  | .args => 64
  | .gpr => 4

/-- A formatting call into a scratch buffer. -/
structure Formatted where
  buffer : Scratch
  text : String
  deriving DecidableEq, Repr

/-- What the buffer holds after the call. -/
def Formatted.held (call : Formatted) : String := truncated call.buffer.size call.text

/-- Formatting, with the calls made so far. -/
abbrev Render := StateM (List Formatted)

/-- `snprintf` into a scratch buffer. -/
def snprintf (buffer : Scratch) (text : String) : Render String := do
  let call : Formatted := ⟨buffer, text⟩
  modify (call :: ·)
  pure call.held

/-- `op`, `args` and `len` of `m68k_disasm`, as they are initialised. -/
structure Line where
  op : String := "???"
  args : String := ""
  len : Nat := 2
  deriving DecidableEq, Repr

/-! ## Operands -/

/-- `D%d`. -/
def dataName (r : Fin 8) : String := "D" ++ decimal r.val

/-- `A%d`. -/
def addrName (r : Fin 8) : String := "A" ++ decimal r.val

/-- `%c%d` of the register that an extension word names. -/
def registerName (ext : U16) : String :=
  if ext.getLsbD 15 then addrName (field ext 12) else dataName (field ext 12)

/-- `%c%d.%c`, the index of a brief extension word. -/
def indexName (ext : U16) : String :=
  registerName ext ++ (if ext.getLsbD 11 then ".L" else ".W")

/-- `(s8)(ext & 0xFF)`. -/
def disp8 (ext : U16) : Int := (ext.setWidth 8).toInt

/-- `#%d`. -/
def quickName (n : Int) : String := "#" ++ decimal n

/-- `%d(A%d)`. -/
def dispName (disp : Int) (r : Fin 8) : String := decimal disp ++ "(" ++ addrName r ++ ")"

/-- `-(A%d)`. -/
def predecName (r : Fin 8) : String := "-(" ++ addrName r ++ ")"

/-- `(A%d)+`. -/
def postincName (r : Fin 8) : String := "(" ++ addrName r ++ ")+"

/-- `$%X`. -/
def addressName (address : U32) : String := "$" ++ hex address.toNat

/-- `%s, %s`. -/
def pair (a b : String) : String := a ++ ", " ++ b

/-- The text of an effective address and the bytes of its extension words. -/
def eaText (words : Words) (basePc : U32) (mode reg : Fin 8) (size : M68kSize) : String × Nat :=
  match mode with
  | 0 => (dataName reg, 0)
  | 1 => (addrName reg, 0)
  | 2 => ("(" ++ addrName reg ++ ")", 0)
  | 3 => (postincName reg, 0)
  | 4 => (predecName reg, 0)
  | 5 => (dispName (words basePc).toInt reg, 2)
  | 6 =>
      let ext := words basePc
      (decimal (disp8 ext) ++ "(" ++ addrName reg ++ "," ++ indexName ext ++ ")", 2)
  | 7 =>
      match reg with
      | 0 => ("$" ++ hexPadded 4 (words basePc).toNat ++ ".W", 2)
      | 1 => ("$" ++ hexPadded 8 (peekLong words basePc).toNat ++ ".L", 4)
      | 2 => (addressName (basePc + (words basePc).signExtend 32) ++ "(PC)", 2)
      | 3 =>
          let ext := words basePc
          (decimal (disp8 ext) ++ "(PC," ++ indexName ext ++ ")", 2)
      | 4 =>
          match size with
          | .long => ("#$" ++ hex (peekLong words basePc).toNat, 4)
          | .byte => ("#$" ++ hexPadded 2 ((words basePc).setWidth 8).toNat, 2)
          | .word => ("#$" ++ hexPadded 4 (words basePc).toNat, 2)
      | _ => ("???", 0)

/-- `disasm_ea`. -/
def disasmEa (words : Words) (basePc : U32) (mode reg : Fin 8) (size : M68kSize) :
    Render (String × Nat) := do
  let (text, bytes) := eaText words basePc mode reg size
  let buf ← snprintf .ea text
  pure (buf, bytes)

/-- `size_str`. -/
def sizeStr : Fin 4 → String
  | 0 => ".B"
  | 1 => ".W"
  | 2 => ".L"
  | 3 => ".?"

/-- `(size_code == 0) ? SIZE_BYTE : (size_code == 1 ? SIZE_WORD : SIZE_LONG)`. -/
def codedSize (code : Fin 4) : M68kSize :=
  if code = 0 then .byte else if code = 1 then .word else .long

/-- `is_long ? ".L" : ".W"`. -/
def longStr (isLong : Bool) : String := if isLong then ".L" else ".W"

/-- `is_long ? SIZE_LONG : SIZE_WORD`. -/
def longSize (isLong : Bool) : M68kSize := if isLong then .long else .word

/-! ## Lines -/

section Lines

variable (words : Words) (pc : U32) (opcode : U16)

/-- A mnemonic alone. -/
def bareLine (mnemonic : String) : Render Line := do
  let op ← snprintf .op mnemonic
  pure { op }

/-- A mnemonic and arguments without an effective address. -/
def plainLine (mnemonic arguments : String) (len : Nat) : Render Line := do
  let op ← snprintf .op mnemonic
  let args ← snprintf .args arguments
  pure { op, args, len }

/-- A mnemonic and the effective address of the low six bits, `skip` bytes into the
instruction, as it stands in the arguments. -/
def eaLine (mnemonic : String) (size : M68kSize) (skip : Nat) (arguments : String → String) :
    Render Line := do
  let op ← snprintf .op mnemonic
  let (ea, bytes) ← disasmEa words (pc + BitVec.ofNat 32 skip) (field opcode 3) (field opcode 0)
    size
  let args ← snprintf .args (arguments ea)
  pure { op, args, len := skip + bytes }

/-- `decode_move`. -/
def decodeMove : Render Line := do
  match ((opcode >>> 12).setWidth 2).toFin with
  | (1 : Fin 4) => go .byte ".B"
  | 3 => go .word ".W"
  | 2 => go .long ".L"
  | _ => pure { len := 0 }
where
  go (size : M68kSize) (szStr : String) : Render Line := do
    let op ← snprintf .op ("MOVE" ++ szStr)
    let (src, srcBytes) ← disasmEa words (pc + 2) (field opcode 3) (field opcode 0) size
    let (dest, destBytes) ← disasmEa words (pc + BitVec.ofNat 32 (2 + srcBytes)) (field opcode 6)
      (field opcode 9) size
    let args ← snprintf .args (pair src dest)
    pure { op, args, len := 2 + srcBytes + destBytes }

/-- The condition names of a branch. -/
def branchNames : List String :=
  ["RA", "SR", "HI", "LS", "CC", "CS", "NE", "EQ", "VC", "VS", "PL", "MI", "GE", "LT", "GT", "LE"]

/-- `(opcode >> 8) & 0xF`. -/
def condition : Nat := ((opcode >>> 8).setWidth 4).toNat

/-- `decode_branch`. -/
def decodeBranch : Render Line := do
  let cond := condition opcode
  let mnemonic :=
    if cond = 1 then "BSR" else if cond = 0 then "BRA" else "B" ++ branchNames.getD cond ""
  if opcode.setWidth 8 = (0 : U8) then
    plainLine mnemonic (addressName (pc + 2 + (words (pc + 2)).signExtend 32)) 4
  else
    plainLine mnemonic (addressName (pc + 2 + (opcode.setWidth 8).signExtend 32)) 2

/-- `decode_std_arith`. -/
def decodeStdArith (nameBase : String) : Render Line := do
  match field opcode 6 with
  | 0 => toData .byte ".B"
  | 1 => toData .word ".W"
  | 2 => toData .long ".L"
  | 4 => toEa .byte ".B"
  | 5 => toEa .word ".W"
  | 6 => toEa .long ".L"
  | _ => pure { len := 0 }
where
  toData (size : M68kSize) (sz : String) : Render Line :=
    eaLine words pc opcode (nameBase ++ sz) size 2 fun ea => pair ea (dataName (field opcode 9))
  toEa (size : M68kSize) (sz : String) : Render Line :=
    eaLine words pc opcode (nameBase ++ sz) size 2 fun ea => pair (dataName (field opcode 9)) ea

/-- `decode_imm_arith`. -/
def decodeImmArith (name : String) : Render Line := do
  let size := codedSize (sizeBits opcode)
  let op ← snprintf .op (name ++ sizeStr (sizeBits opcode))
  let (imm, immBytes) ← disasmEa words (pc + 2) 7 4 size
  let (ea, eaBytes) ← disasmEa words (pc + BitVec.ofNat 32 (2 + immBytes)) (field opcode 3)
    (field opcode 0) size
  let args ← snprintf .args (pair imm ea)
  pure { op, args, len := 2 + immBytes + eaBytes }

/-- A data operation on the CCR or the SR. -/
def statusLine (name : String) (toSr : Bool) : Render Line :=
  let imm := words (pc + 2)
  if toSr then plainLine name ("#$" ++ hexPadded 4 imm.toNat ++ ", SR") 4
  else plainLine name ("#$" ++ hexPadded 2 (imm.setWidth 8).toNat ++ ", CCR") 4

/-- `bit_names`. -/
def bitName : Fin 4 → String
  | 0 => "BTST"
  | 1 => "BCHG"
  | 2 => "BCLR"
  | 3 => "BSET"

/-- MOVES names its register in a buffer of its own. -/
def movesLine : Render Line := do
  let op ← snprintf .op ("MOVES" ++ sizeStr (sizeBits opcode))
  let ext := words (pc + 2)
  let gpr ← snprintf .gpr (registerName ext)
  let (ea, bytes) ← disasmEa words (pc + 4) (field opcode 3) (field opcode 0)
    (codedSize (sizeBits opcode))
  let args ← snprintf .args (if ext.getLsbD 11 then pair gpr ea else pair ea gpr)
  pure { op, args, len := 4 + bytes }

/-- MOVEP. -/
def movepLine : Render Line :=
  let disp := dispName (words (pc + 2)).toInt (field opcode 0)
  let dn := dataName (field opcode 9)
  let opmode := field opcode 6
  if opmode = 4 ∨ opmode = 5 then
    plainLine ("MOVEP" ++ longStr (opmode = 5)) (pair disp dn) 4
  else
    plainLine ("MOVEP" ++ longStr (opmode = 7)) (pair dn disp) 4

/-- Bit operations, MOVEP, MOVES and immediates. -/
def disasmLine0 : Render Line :=
  let top4 := condition opcode
  if top4 = 0x08 then
    eaLine words pc opcode (bitName (sizeBits opcode)) .byte 4 fun ea =>
      pair (quickName ((words (pc + 2)).setWidth 8).toNat) ea
  else if opcode &&& 0x0100 ≠ 0 then
    if field opcode 3 = 1 then movepLine words pc opcode
    else
      eaLine words pc opcode (bitName (sizeBits opcode)) .byte 2 fun ea =>
        pair (dataName (field opcode 9)) ea
  else if opcode &&& 0xFF00 = 0x0E00 ∧ sizeBits opcode ≠ 3 then movesLine words pc opcode
  else if opcode = 0x003C then statusLine words pc "ORI" false
  else if opcode = 0x007C then statusLine words pc "ORI" true
  else if opcode = 0x023C then statusLine words pc "ANDI" false
  else if opcode = 0x027C then statusLine words pc "ANDI" true
  else if opcode = 0x0A3C then statusLine words pc "EORI" false
  else if opcode = 0x0A7C then statusLine words pc "EORI" true
  else if top4 = 0x00 then decodeImmArith words pc opcode "ORI"
  else if top4 = 0x02 then decodeImmArith words pc opcode "ANDI"
  else if top4 = 0x04 then decodeImmArith words pc opcode "SUBI"
  else if top4 = 0x06 then decodeImmArith words pc opcode "ADDI"
  else if top4 = 0x0A then decodeImmArith words pc opcode "EORI"
  else if top4 = 0x0C then decodeImmArith words pc opcode "CMPI"
  else pure {}

/-- The control registers that MOVEC names. -/
def controlName (ext : U16) : String :=
  match ext &&& 0xFFF with
  | 0x000 => "SFC"
  | 0x001 => "DFC"
  | 0x800 => "USP"
  | 0x801 => "VBR"
  | _ => "???"

/-- MOVEC. -/
def movecLine : Render Line := do
  let op ← snprintf .op "MOVEC"
  let ext := words (pc + 2)
  let gpr ← snprintf .gpr (registerName ext)
  let args ← snprintf .args
    (if opcode.getLsbD 0 then pair gpr (controlName ext) else pair (controlName ext) gpr)
  pure { op, args, len := 4 }

/-- SWAP or PEA. -/
def swapLine : Render Line :=
  if field opcode 3 = 0 then plainLine "SWAP" (dataName (field opcode 0)) 2
  else eaLine words pc opcode "PEA" .long 2 id

/-- EXT or MOVEM. -/
def movemLine : Render Line :=
  let isLong := opcode &&& 0x0040 != 0
  if field opcode 3 = 0 then plainLine ("EXT" ++ longStr isLong) (dataName (field opcode 0)) 2
  else eaLine words pc opcode ("MOVEM" ++ longStr isLong) (longSize isLong) 4 id

/-- TST, NEGX, CLR, NEG and NOT. -/
def unaryLine (name : String) : Render Line :=
  eaLine words pc opcode (name ++ sizeStr (sizeBits opcode)) (codedSize (sizeBits opcode)) 2 id

/-- Miscellaneous instructions. -/
def disasmLine4 : Render Line :=
  if opcode = 0x4E70 then bareLine "RESET"
  else if opcode = 0x4E71 then bareLine "NOP"
  else if opcode = 0x4E72 then plainLine "STOP" ("#$" ++ hexPadded 4 (words (pc + 2)).toNat) 4
  else if opcode = 0x4E73 then bareLine "RTE"
  else if opcode = 0x4E75 then bareLine "RTS"
  else if opcode = 0x4E76 then bareLine "TRAPV"
  else if opcode = 0x4E77 then bareLine "RTR"
  else if opcode = 0x4E74 then plainLine "RTD" (quickName (words (pc + 2)).toInt) 4
  else if opcode = 0x4E7A ∨ opcode = 0x4E7B then movecLine words pc opcode
  else if opcode &&& 0xFFF0 = 0x4E40 then plainLine "TRAP" (quickName (opcode.setWidth 4).toNat) 2
  else if opcode &&& 0xFFF8 = 0x4E50 then
    plainLine "LINK" (pair (addrName (field opcode 0)) (quickName (words (pc + 2)).toInt)) 4
  else if opcode &&& 0xFFF8 = 0x4E58 then plainLine "UNLK" (addrName (field opcode 0)) 2
  else if opcode &&& 0xFFF0 = 0x4E60 then
    if opcode &&& 0x8 ≠ 0 then plainLine "MOVE" (pair "USP" (addrName (field opcode 0))) 2
    else plainLine "MOVE" (pair (addrName (field opcode 0)) "USP") 2
  else if opcode &&& 0xFFC0 = 0x4E80 then eaLine words pc opcode "JSR" .long 2 id
  else if opcode &&& 0xFFC0 = 0x4EC0 then eaLine words pc opcode "JMP" .long 2 id
  else if opcode &&& 0xFFC0 = 0x40C0 then eaLine words pc opcode "MOVE" .word 2 (pair "SR")
  else if opcode &&& 0xFFC0 = 0x44C0 then eaLine words pc opcode "MOVE" .word 2 (pair · "CCR")
  else if opcode &&& 0xFFC0 = 0x46C0 then eaLine words pc opcode "MOVE" .word 2 (pair · "SR")
  else if opcode &&& 0xFFC0 = 0x4AC0 then eaLine words pc opcode "TAS" .byte 2 id
  else if opcode &&& 0xFFC0 = 0x4800 then eaLine words pc opcode "NBCD" .byte 2 id
  else if opcode &&& 0xFFF8 = 0x4848 then plainLine "BKPT" (quickName (field opcode 0).val) 2
  else if opcode &&& 0xFFC0 = 0x4840 then swapLine words pc opcode
  else if opcode &&& 0xFB80 = 0x4880 then movemLine words pc opcode
  else if opcode &&& 0xF1C0 = 0x4180 then
    eaLine words pc opcode "CHK" .word 2 (pair · (dataName (field opcode 9)))
  else if opcode &&& 0xF1C0 = 0x41C0 ∧ (field opcode 3 = 2 ∨
      field opcode 3 ≥ 5 ∧ ¬(field opcode 3 = 7 ∧ field opcode 0 > 3)) then
    eaLine words pc opcode "LEA" .long 2 (pair · (addrName (field opcode 9)))
  else if opcode &&& 0xFF00 = 0x4A00 then unaryLine words pc opcode "TST"
  else if opcode &&& 0xFF00 = 0x4000 then unaryLine words pc opcode "NEGX"
  else if opcode &&& 0xFFC0 = 0x42C0 then eaLine words pc opcode "MOVE" .word 2 (pair "CCR")
  else if opcode &&& 0xFF00 = 0x4200 then unaryLine words pc opcode "CLR"
  else if opcode &&& 0xFF00 = 0x4400 then unaryLine words pc opcode "NEG"
  else if opcode &&& 0xFF00 = 0x4600 then unaryLine words pc opcode "NOT"
  else pure {}

/-- The condition names of DBcc and Scc. -/
def conditionNames : List String :=
  ["T", "F", "HI", "LS", "CC", "CS", "NE", "EQ", "VC", "VS", "PL", "MI", "GE", "LT", "GT", "LE"]

/-- DBcc, Scc, ADDQ and SUBQ. -/
def disasmLine5 : Render Line :=
  if opcode &&& 0xC0 = 0xC0 then
    let name := conditionNames.getD (condition opcode) ""
    if field opcode 3 = 1 then
      plainLine ("DB" ++ name) (pair (dataName (field opcode 0))
        (addressName (pc + 2 + (words (pc + 2)).signExtend 32))) 4
    else eaLine words pc opcode ("S" ++ name) .byte 2 id
  else
    let data : Nat := if field opcode 9 = 0 then 8 else (field opcode 9).val
    let name := (if opcode &&& 0x0100 ≠ 0 then "SUB" else "ADD") ++ "Q" ++
      sizeStr (sizeBits opcode)
    eaLine words pc opcode name (codedSize (sizeBits opcode)) 2 (pair (quickName data))

/-- The operand pair of ABCD, SBCD, ADDX and SUBX. -/
def extendedPair : String :=
  if opcode &&& 8 ≠ 0 then pair (predecName (field opcode 0)) (predecName (field opcode 9))
  else pair (dataName (field opcode 0)) (dataName (field opcode 9))

/-- DIVU, DIVS, MULU and MULS. -/
def wordByData (name : String) : Render Line :=
  eaLine words pc opcode name .word 2 (pair · (dataName (field opcode 9)))

/-- OR, DIVU, DIVS and SBCD. -/
def disasmLine8 : Render Line :=
  if field opcode 6 = 3 then wordByData words pc opcode "DIVU.W"
  else if field opcode 6 = 7 then wordByData words pc opcode "DIVS.W"
  else if opcode &&& 0x1F0 = 0x100 then plainLine "SBCD" (extendedPair opcode) 2
  else decodeStdArith words pc opcode "OR"

/-- ADDA, SUBA and CMPA. -/
def addressArith (name : String) : Render Line :=
  let isLong : Bool := field opcode 6 = 7
  eaLine words pc opcode (name ++ longStr isLong) (longSize isLong) 2
    (pair · (addrName (field opcode 9)))

/-- ADD, ADDA and ADDX, or SUB, SUBA and SUBX. -/
def disasmAddSub (name : String) : Render Line :=
  if field opcode 6 = 3 ∨ field opcode 6 = 7 then addressArith words pc opcode (name ++ "A")
  else if opcode &&& 0x0130 = 0x0100 then
    plainLine (name ++ "X" ++ sizeStr (sizeBits opcode)) (extendedPair opcode) 2
  else decodeStdArith words pc opcode name

/-- CMP, CMPA, CMPM and EOR. -/
def disasmLineB : Render Line :=
  if field opcode 6 = 3 ∨ field opcode 6 = 7 then addressArith words pc opcode "CMPA"
  else if field opcode 6 ≥ 4 ∧ field opcode 3 = 1 then
    plainLine ("CMPM" ++ sizeStr (sizeBits opcode))
      (pair (postincName (field opcode 0)) (postincName (field opcode 9))) 2
  else if field opcode 6 ≥ 4 then decodeStdArith words pc opcode "EOR"
  else decodeStdArith words pc opcode "CMP"

/-- `(opcode >> 3) & 0x1F` tells the registers of EXG. -/
def exgPair : String :=
  let mode := (opcode >>> 3) &&& 0x1F
  if mode = 0x08 then pair (dataName (field opcode 9)) (dataName (field opcode 0))
  else if mode = 0x09 then pair (addrName (field opcode 9)) (addrName (field opcode 0))
  else pair (dataName (field opcode 9)) (addrName (field opcode 0))

/-- AND, MULU, MULS, ABCD and EXG. -/
def disasmLineC : Render Line :=
  if field opcode 6 = 3 then wordByData words pc opcode "MULU.W"
  else if field opcode 6 = 7 then wordByData words pc opcode "MULS.W"
  else if opcode &&& 0x1F0 = 0x100 then plainLine "ABCD" (extendedPair opcode) 2
  else if opcode &&& 0x0130 = 0x0100 then plainLine "EXG" (exgPair opcode) 2
  else decodeStdArith words pc opcode "AND"

/-- `mem_ops`. -/
def memOps : List String := ["ASR", "ASL", "LSR", "LSL", "ROXR", "ROXL", "ROR", "ROL"]

/-- `reg_ops`. -/
def regOps : List String := ["AS", "LS", "ROX", "RO"]

/-- Shifts and rotates. -/
def disasmLineE : Render Line :=
  let dir := opcode.getLsbD 8
  if opcode &&& 0xC0 = 0xC0 then
    let type := ((opcode >>> 9).setWidth 2).toNat
    eaLine words pc opcode (memOps.getD (type * 2 + dir.toNat) "" ++ ".W") .word 2 id
  else
    let type := ((opcode >>> 3).setWidth 2).toNat
    let name := regOps.getD type "" ++ (if dir then "L" else "R") ++ sizeStr (sizeBits opcode)
    let count : Nat := if field opcode 9 = 0 then 8 else (field opcode 9).val
    if opcode.getLsbD 5 then
      plainLine name (pair (dataName (field opcode 9)) (dataName (field opcode 0))) 2
    else plainLine name (pair (quickName count) (dataName (field opcode 0))) 2

/-- The if-chain of `m68k_disasm`. -/
def disasmLine : Render Line :=
  if opcode &&& 0xF000 = 0x0000 then disasmLine0 words pc opcode
  else if opcode &&& 0xC000 = 0x0000 then decodeMove words pc opcode
  else if opcode &&& 0xF000 = 0x4000 then disasmLine4 words pc opcode
  else if opcode &&& 0xF000 = 0x5000 then disasmLine5 words pc opcode
  else if opcode &&& 0xF000 = 0x6000 then decodeBranch words pc opcode
  else if opcode &&& 0xF000 = 0x7000 then
    plainLine "MOVEQ" (pair (quickName (disp8 opcode)) (dataName (field opcode 9))) 2
  else if opcode &&& 0xF000 = 0x8000 then disasmLine8 words pc opcode
  else if opcode &&& 0xF000 = 0x9000 then disasmAddSub words pc opcode "SUB"
  else if opcode &&& 0xF000 = 0xB000 then disasmLineB words pc opcode
  else if opcode &&& 0xF000 = 0xC000 then disasmLineC words pc opcode
  else if opcode &&& 0xF000 = 0xD000 then disasmAddSub words pc opcode "ADD"
  else if opcode &&& 0xF000 = 0xE000 then disasmLineE words pc opcode
  else pure {}

end Lines

/-- `%-8s`. -/
def leftJustified (width : Nat) (text : String) : String :=
  text ++ String.ofList (List.replicate (width - text.length) ' ')

/-- `m68k_disasm`: the text it leaves in a buffer of `bufSize` characters and the length. -/
def disasm (words : Words) (pc : U32) (bufSize : Nat) : Render (String × Nat) := do
  let opcode := words pc
  let line ← disasmLine words pc opcode
  let text := hexPadded 4 opcode.toNat ++ "  " ++ leftJustified 8 line.op ++ " " ++ line.args
  pure (truncated bufSize text, line.len)

end M68k
