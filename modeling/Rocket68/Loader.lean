import Rocket68.Bus

/-!
# The loaders

`m68k_load_srec` and `m68k_load_ihex` from the text of an opened file, and
`m68k_load_bin` from what the reads of one deliver. A line buffer holds what one
`fgets` puts into it; pointers into the buffer are suffixes of it, and a read
beyond its text sees the terminating NUL. Messages to `stderr` and `stdout` are
left out. The loops over the lines are opened by a count of lines, which the
length of the text bounds.
-/

namespace M68k

open Trap TrapM

variable {σ : Type}

/-- A character constant. -/
def chr (c : Char) : U8 := BitVec.ofNat 8 c.toNat

/-- `fgets` with room for `n` characters: what it stores and what is left. -/
def fgets : Nat → List U8 → List U8 × List U8
  | 0, text => ([], text)
  | _, [] => ([], [])
  | n + 1, c :: text =>
      if c = chr '\n' then ([c], text)
      else
        let (line, rest) := fgets n text
        (c :: line, rest)

/-- The string in a buffer: everything before the first NUL. -/
def cString (buffer : List U8) : List U8 := buffer.takeWhile (· != 0)

/-- `ptr[i]`. -/
def charAt (ptr : List U8) (i : Nat) : U8 := ptr.getD i 0

/-- `hex_val`. -/
def hexVal (c : U8) : U8 :=
  if chr '0' ≤ c ∧ c ≤ chr '9' then c - chr '0'
  else if chr 'A' ≤ c ∧ c ≤ chr 'F' then c - chr 'A' + 10
  else if chr 'a' ≤ c ∧ c ≤ chr 'f' then c - chr 'a' + 10
  else 0

/-- `isxdigit`. -/
def isXdigit (c : U8) : Bool :=
  (chr '0' ≤ c && c ≤ chr '9') || (chr 'A' ≤ c && c ≤ chr 'F') ||
    (chr 'a' ≤ c && c ≤ chr 'f')

/-- `is_valid_hex`. -/
def isValidHex (ptr : List U8) (digits : Nat) : Bool :=
  (List.range digits).all fun i => isXdigit (charAt ptr i)

/-- `parse_byte`. -/
def parseByte (ptr : List U8) : U8 := (hexVal (charAt ptr 0) <<< 4) ||| hexVal (charAt ptr 1)

/-- What a loop over `parse_byte` reads from `n` consecutive pairs. -/
def parseBytes : Nat → List U8 → List U8
  | 0, _ => []
  | n + 1, ptr => parseByte ptr :: parseBytes n (ptr.drop 2)

/-- The sum of all bytes of a record. -/
def byteSum (bytes : List U8) : Nat := (bytes.map BitVec.toNat).sum

/-- `addr = (addr << 8) | byte` over a sequence of bytes. -/
def bigEndian (bytes : List U8) : U32 :=
  bytes.foldl (fun addr byte => (addr <<< 8) ||| byte.setWidth 32) 0

/-- `loader_store`. -/
def loaderStore (address : U32) (value : U8) : M σ Bool := do
  let address := maskAddress24 address
  if ← gets (isValidAddress · address) then
    modify fun s => { s with memory := storeByte s.memory address value }
    pure true
  else
    pure false

/-- The loop over the data of a record: byte `i` goes to `address i`, and the
first failing store ends the loop. -/
def loadData (address : Nat → U32) : Nat → Nat → List U8 → M σ Unit
  | 0, _, _ => pure ()
  | n + 1, i, ptr => do
      if ← loaderStore (address i) (parseByte ptr) then
        loadData address n (i + 1) (ptr.drop 2)
      else
        pure ()

/-! ## S-records -/

/-- One newline and then one carriage return are cut off the end. -/
def trimSrec (line : List U8) : List U8 :=
  let line := if line.getLast? = some (chr '\n') then line.dropLast else line
  if line.getLast? = some (chr '\r') then line.dropLast else line

/-- The switch over the record type; `none` is `continue`. -/
def srecAddrLen? (type : U8) : Option Nat :=
  if type = chr '0' ∨ type = chr '1' then some 2
  else if type = chr '2' then some 3
  else if type = chr '3' then some 4
  else if type = chr '5' then none
  else if type = chr '7' then some 4
  else if type = chr '8' then some 3
  else if type = chr '9' then some 2
  else none

/-- The body of the loop of `m68k_load_srec` from the switch over the type on;
`false` is `break`. -/
def srecType (type : U8) (count : Nat) (line : List U8) : M σ Bool :=
  match srecAddrLen? type with
  | none => pure true
  | some addrLen =>
      if count < addrLen + 1 then pure true
      else do
        let addr := bigEndian (parseBytes addrLen (line.drop 4))
        let dataOffset := 4 + 2 * addrLen
        let dataLen := count - addrLen - 1
        if type = chr '1' ∨ type = chr '2' ∨ type = chr '3' then
          loadData (fun i => addr + BitVec.ofNat 32 i) dataLen 0 (line.drop dataOffset)
          pure true
        else if type = chr '7' ∨ type = chr '8' ∨ type = chr '9' then
          setPc addr
          pure false
        else
          pure true

/-- The body of the loop of `m68k_load_srec`. -/
def srecLine (buffer : List U8) : M σ Bool :=
  let line := trimSrec (cString buffer)
  let len := line.length
  if len < 4 then pure true
  else if charAt line 0 ≠ chr 'S' then pure true
  else
    let type := charAt line 1
    if !isValidHex (line.drop 2) 2 then pure true
    else
      let count := (parseByte (line.drop 2)).toNat
      if len < 4 + count * 2 then pure true
      else if !isValidHex (line.drop 2) ((count + 1) * 2) then pure true
      else if byteSum (parseBytes (count + 1) (line.drop 2)) % 256 ≠ 0xFF then pure true
      else srecType type count line

/-- `while (fgets(line, sizeof(line), f))` with a buffer of 512 characters. -/
def srecLines : Nat → List U8 → M σ Unit
  | 0, _ => stuck
  | fuel + 1, text =>
      match fgets 511 text with
      | ([], _) => pure ()
      | (line, rest) => do
          if ← srecLine line then srecLines fuel rest else pure ()

/-- `m68k_load_srec` on the text of a file. -/
def loadSrec (text : List U8) : M σ Bool := do
  srecLines (text.length + 1) text
  pure true

/-! ## Intel HEX -/

/-- All newlines and carriage returns are cut off the end. -/
def trimIhex (line : List U8) : List U8 :=
  (line.reverse.dropWhile fun c => c == chr '\n' || c == chr '\r').reverse

/-- The switch over the record type, with the base address as it is left;
`none` is `return true`. -/
def ihexRecord (base : U32) (type : U8) (count : Nat) (offset : U32) (data : List U8) :
    M σ (Option U32) :=
  let word (i : Nat) : U32 := bigEndian (parseBytes 2 (data.drop i))
  if type = 0x00 then do
    loadData (fun i => base + offset + BitVec.ofNat 32 i) count 0 data
    pure (some base)
  else if type = 0x01 then pure none
  else if type = 0x02 then
    if count = 2 then pure (some (word 0 <<< 4)) else pure (some base)
  else if type = 0x04 then
    if count = 2 then pure (some (word 0 <<< 16)) else pure (some base)
  else if type = 0x03 then
    if count = 4 then do
      setPc ((word 0 <<< 4) + word 4)
      pure (some base)
    else pure (some base)
  else if type = 0x05 then
    if count = 4 then do
      setPc (bigEndian (parseBytes 4 data))
      pure (some base)
    else pure (some base)
  else pure (some base)

/-- The body of the loop of `m68k_load_ihex`. -/
def ihexLine (base : U32) (buffer : List U8) : M σ (Option U32) :=
  let line := trimIhex (cString buffer)
  let len := line.length
  if len = 0 then pure (some base)
  else if charAt line 0 ≠ chr ':' then pure (some base)
  else if len < 11 then pure (some base)
  else if !isValidHex (line.drop 1) 8 then pure (some base)
  else
    let count := (parseByte (line.drop 1)).toNat
    let offset := bigEndian (parseBytes 2 (line.drop 3))
    let type := parseByte (line.drop 7)
    if len < 11 + count * 2 then pure (some base)
    else if !isValidHex (line.drop 1) ((count + 5) * 2) then pure (some base)
    else if byteSum (parseBytes (count + 5) (line.drop 1)) % 256 ≠ 0 then pure (some base)
    else ihexRecord base type count offset (line.drop 9)

/-- `while (fgets(line, sizeof(line), f))` with a buffer of 600 characters. -/
def ihexLines : Nat → U32 → List U8 → M σ Unit
  | 0, _, _ => stuck
  | fuel + 1, base, text =>
      match fgets 599 text with
      | ([], _) => pure ()
      | (line, rest) => do
          match ← ihexLine base line with
          | none => pure ()
          | some base => ihexLines fuel base rest

/-- `m68k_load_ihex` on the text of a file. -/
def loadIhex (text : List U8) : M σ Bool := do
  ihexLines (text.length + 1) 0 text
  pure true

/-! ## Raw binary -/

/-- The loop over one buffer: the next address, and whether every store succeeded. -/
def binBytes : List U8 → U32 → M σ (U32 × Bool)
  | [], currentAddr => pure (currentAddr, true)
  | byte :: rest, currentAddr => do
      if ← loaderStore currentAddr byte then binBytes rest (currentAddr + 1)
      else pure (currentAddr, false)

/-- `while ((bytes = fread(buffer, 1, sizeof(buffer), f)) > 0)` over what the
reads deliver; the first failing store ends it. -/
def binReads : List (List U8) → U32 → M σ U32
  | [], currentAddr => pure currentAddr
  | [] :: _, currentAddr => pure currentAddr
  | buffer :: rest, currentAddr => do
      let (next, stored) ← binBytes buffer currentAddr
      if stored then binReads rest next else pure next

/-- `m68k_load_bin` on the reads of an opened file: its result and the size it
reports. -/
def loadBin (reads : List (List U8)) (address : U32) : M σ (Bool × U32) := do
  let currentAddr ← binReads reads address
  pure (true, currentAddr - address)

end M68k
