import Rocket68.Logic.Records
import Rocket68.Logic.Region
import Rocket68.Step

/-!
# Raw binary files

`m68k_load_bin` stores byte after byte until a store falls outside the bound memory. The
address of a store is masked to the 24-bit bus, so behind the last place of a memory that
covers the whole bus comes the first one: there the load does not stop but goes around.
-/

namespace M68k

open Trap TrapM

variable {σ : Type} {h : Host σ} {s t u : M68kCpu σ} {bytes : List U8} {a : U32}

/-! ## The reads of a file -/

/-- Reads that deliver a file: each of them something, at most a buffer. -/
def Reads (reads : List (List U8)) (file : List U8) : Prop :=
  reads.flatten = file ∧ ∀ buffer ∈ reads, buffer ≠ [] ∧ buffer.length ≤ 1024

theorem binBytes_cons (byte : U8) (rest : List U8) (a : U32) (h : Host σ) (s : M68kCpu σ) :
    binBytes (byte :: rest) a h s =
      if isValidAddress s (maskAddress24 a) then
        binBytes rest (a + 1) h
          { s with memory := storeByte s.memory (maskAddress24 a) byte }
      else .ok (a, false) s := by
  have hstore := loaderStore_run a byte h s
  rw [binBytes]
  by_cases hvalid : isValidAddress s (maskAddress24 a) = true
  · rw [if_pos hvalid] at hstore ⊢
    exact bind_ok hstore
  · rw [if_neg hvalid] at hstore ⊢
    exact bind_ok hstore

/-- A buffer after another goes on where that one ended. -/
theorem binBytes_append (first second : List U8) (a : U32) :
    (binBytes (first ++ second) a : M σ (U32 × Bool)) = binBytes first a >>= fun p =>
      if p.2 then binBytes second p.1 else pure (p.1, false) := by
  induction first generalizing a with
  | nil => rfl
  | cons byte rest ih =>
    rw [List.cons_append, binBytes, binBytes, bind_assoc]
    congr 1
    funext stored
    cases stored with
    | true => exact ih (a + 1)
    | false => rfl

/-- How the file is cut into reads does not matter. -/
theorem binReads_eq {reads : List (List U8)} (hreads : ∀ buffer ∈ reads, buffer ≠ []) (a : U32) :
    (binReads reads a : M σ U32) = binBytes reads.flatten a >>= fun p => pure p.1 := by
  induction reads generalizing a with
  | nil => rfl
  | cons buffer rest ih =>
    have hrest : ∀ later ∈ rest, later ≠ [] := fun l hl => hreads l (List.mem_cons_of_mem _ hl)
    cases buffer with
    | nil => exact absurd rfl (hreads [] List.mem_cons_self)
    | cons byte buffer =>
      rw [binReads, List.flatten_cons, binBytes_append, bind_assoc]
      · congr 1
        funext p
        obtain ⟨next, stored⟩ := p
        cases stored with
        | true => exact ih hrest next
        | false => rfl
      · exact List.cons_ne_nil _ _

/-! ## Up to the end of the memory -/

/-- How many bytes fit from the start place on. -/
def roomFor (file : List U8) (address memorySize : U32) : Nat :=
  min file.length (memorySize.toNat - (maskAddress24 address).toNat)

/-- The first `n` bytes of a file stand at consecutive places, and no other byte has
changed. -/
structure Filled (file : List U8) (p n : Nat) (m m' : U32 → U8) : Prop where
  stored : ∀ i, i < n → file[i]? = some (m' (BitVec.ofNat 32 (p + i)))
  outside : SameOutside m m' p n

/-- The size of the memory and the file leave no way around the bus. -/
def StaysBelow (memorySize : U32) (p length : Nat) : Prop :=
  memorySize.toNat < 2 ^ 24 ∨ p + length ≤ 2 ^ 24

theorem Filled.none (file : List U8) (p : Nat) (m : U32 → U8) : Filled file p 0 m m :=
  ⟨fun _ hi => absurd hi (Nat.not_lt_zero _), fun _ _ _ => rfl⟩

/-- One byte below the rest. -/
theorem Filled.cons {byte : U8} {rest : List U8} {p n : Nat} {m m' : U32 → U8}
    (hrest : Filled rest (p + 1) n (storeByte m (BitVec.ofNat 32 p) byte) m')
    (hn : p + 1 + n ≤ 2 ^ 24) : Filled (byte :: rest) p (n + 1) m m' := by
  obtain ⟨hstored, houtside⟩ := hrest
  refine ⟨fun i hi => ?_, fun b hb hout => ?_⟩
  · cases i with
    | zero =>
      rw [Nat.add_zero, houtside p (by omega) (.inl (Nat.lt_succ_self p)), storeByte,
        Function.update_self]
      rfl
    | succ i =>
      have hplace : p + (i + 1) = p + 1 + i := by omega
      rw [List.getElem?_cons_succ, hplace]
      exact hstored i (Nat.lt_of_succ_lt_succ hi)
  · have hne : BitVec.ofNat 32 b ≠ BitVec.ofNat 32 p := by
      intro heq
      have hnat := congrArg BitVec.toNat heq
      rw [BitVec.toNat_ofNat, BitVec.toNat_ofNat] at hnat
      omega
    rw [houtside b hb (by omega)]
    exact Function.update_of_ne hne _ _

theorem masked_lt (a : U32) : (maskAddress24 a).toNat < 2 ^ 24 := by
  rw [maskAddress24_toNat]
  exact Nat.mod_lt _ (by decide)

/-- The next place, around the end of the bus. -/
theorem mask_succ (a : U32) (i : Nat) :
    (maskAddress24 (a + BitVec.ofNat 32 i)).toNat = ((maskAddress24 a).toNat + i) % 2 ^ 24 := by
  rw [maskAddress24_toNat, maskAddress24_toNat, BitVec.toNat_add, BitVec.toNat_ofNat]
  omega

theorem valid_iff (s : M68kCpu σ) (a : U32) :
    isValidAddress s a = true ↔ a.toNat < s.memorySize.toNat := by
  rw [isValidAddress, decide_eq_true_eq, BitVec.lt_def]

/-- The byte loop, where it cannot go around. -/
theorem binBytes_fills (file : List U8) (a : U32) {s : M68kCpu σ} (hM : s.memorySize.toNat ≤ 2 ^ 24)
    (hbelow : StaysBelow s.memorySize (maskAddress24 a).toNat file.length) :
    ∃ t stored, binBytes file a h s =
        .ok (a + BitVec.ofNat 32 (roomFor file a s.memorySize), stored) t ∧
      Filled file (maskAddress24 a).toNat (roomFor file a s.memorySize) s.memory t.memory := by
  induction file generalizing a s with
  | nil =>
    have hroom : roomFor [] a s.memorySize = 0 := Nat.zero_min _
    refine ⟨s, true, ?_, ?_⟩
    · rw [hroom, BitVec.add_zero]
      rfl
    · rw [hroom]
      exact Filled.none _ _ _
  | cons byte rest ih =>
    have hlt := masked_lt a
    have hplace : BitVec.ofNat 32 (maskAddress24 a).toNat = maskAddress24 a := by
      rw [BitVec.ofNat_toNat, BitVec.setWidth_eq]
    rw [StaysBelow, List.length_cons] at hbelow
    rw [binBytes_cons]
    by_cases hvalid : (maskAddress24 a).toNat < s.memorySize.toNat
    · let first : M68kCpu σ := { s with memory := storeByte s.memory (maskAddress24 a) byte }
      rw [if_pos ((valid_iff s _).mpr hvalid)]
      by_cases hlast : rest = []
      · subst hlast
        have hroom : roomFor [byte] a s.memorySize = 1 := by
          rw [roomFor, List.length_singleton]
          omega
        rw [hroom]
        refine ⟨first, true, rfl, ?_⟩
        apply Filled.cons (n := 0) _ hlt
        rw [hplace]
        exact Filled.none _ _ _
      · -- the place is not the last one of the bus
        have hpos : 0 < rest.length := List.length_pos_iff.mpr hlast
        have hnext : (maskAddress24 (a + 1)).toNat = (maskAddress24 a).toNat + 1 := by
          have hmask := mask_succ a 1
          rw [Nat.mod_eq_of_lt (by omega)] at hmask
          exact hmask
        have hroom : roomFor (byte :: rest) a s.memorySize =
            roomFor rest (a + 1) s.memorySize + 1 := by
          rw [roomFor, roomFor, List.length_cons, hnext]
          omega
        obtain ⟨t, stored, hrun, hfilled⟩ := ih (a + 1) (s := first) hM (by
          rw [hnext]
          show s.memorySize.toNat < 2 ^ 24 ∨ _
          omega)
        rw [hnext] at hfilled
        have hfits : (maskAddress24 a).toNat + 1 + roomFor rest (a + 1) s.memorySize ≤ 2 ^ 24 := by
          rw [roomFor, hnext]
          omega
        refine ⟨t, stored, ?_, ?_⟩
        · rw [hroom, Nat.add_comm, ← add_ofNat]
          exact hrun
        · rw [hroom]
          apply Filled.cons _ hfits
          rw [hplace]
          exact hfilled
    -- past the end of memory the loop stops
    · have hroom : roomFor (byte :: rest) a s.memorySize = 0 := by
        rw [roomFor]
        omega
      rw [if_neg ((valid_iff s _).not.mpr hvalid), hroom]
      refine ⟨s, false, ?_, Filled.none _ _ _⟩
      rw [BitVec.add_zero]

/-! ## Around the bus -/

/-- In a memory that covers the bus every store succeeds. -/
theorem binBytes_around (file : List U8) (a : U32) {s : M68kCpu σ}
    (hM : s.memorySize.toNat = 2 ^ 24) :
    ∃ t, binBytes file a h s = .ok (a + BitVec.ofNat 32 file.length, true) t := by
  induction file generalizing a s with
  | nil =>
    refine ⟨s, ?_⟩
    rw [List.length_nil, BitVec.add_zero]
    rfl
  | cons byte rest ih =>
    have hvalid : (maskAddress24 a).toNat < s.memorySize.toNat := by
      rw [hM]
      exact masked_lt a
    rw [binBytes_cons, if_pos ((valid_iff s _).mpr hvalid), List.length_cons, Nat.add_comm,
      ← add_ofNat]
    exact ih (a + 1) hM

/-- A file of one value leaves it at every place it reaches. -/
theorem binBytes_constant {file : List U8} {v : U8} {b : U32} (hfile : ∀ byte ∈ file, byte = v)
    (hM : s.memorySize.toNat = 2 ^ 24)
    (hb : s.memory b = v ∨ ∃ i, i < file.length ∧ b = maskAddress24 (a + BitVec.ofNat 32 i)) :
    ∃ p t, binBytes file a h s = .ok p t ∧ t.memory b = v := by
  induction file generalizing a s with
  | nil =>
    refine ⟨(a, true), s, rfl, ?_⟩
    rcases hb with hb | ⟨i, hi, -⟩
    · exact hb
    · exact absurd hi (Nat.not_lt_zero i)
  | cons byte rest ih =>
    obtain rfl : byte = v := hfile byte List.mem_cons_self
    have hvalid : (maskAddress24 a).toNat < s.memorySize.toNat := by
      rw [hM]
      exact masked_lt a
    rw [binBytes_cons, if_pos ((valid_iff s _).mpr hvalid)]
    apply ih (s := { s with memory := storeByte s.memory (maskAddress24 a) byte })
      (fun later hl => hfile later (List.mem_cons_of_mem _ hl)) hM
    by_cases hfirst : b = maskAddress24 a
    · left
      rw [hfirst]
      exact Function.update_self _ _ _
    · rcases hb with hb | ⟨i, hi, hplace⟩
      · left
        exact (Function.update_of_ne hfirst _ _).trans hb
      · right
        cases i with
        | zero =>
          rw [BitVec.add_zero] at hplace
          exact absurd hplace hfirst
        | succ i =>
          refine ⟨i, Nat.lt_of_succ_lt_succ hi, ?_⟩
          rw [hplace, Nat.add_comm, ← add_ofNat]
          rfl

/-! ## The load -/

/-- What is promised of a load: as much of the file as fits is stored, nothing else changes,
and the size that is reported says how much that is. -/
structure LoadsBinary (file : List U8) (address : U32) (s t : M68kCpu σ) (size : U32) : Prop where
  filled : Filled file (maskAddress24 address).toNat (roomFor file address s.memorySize) s.memory
    t.memory
  reported : size.toNat = roomFor file address s.memorySize
  truncated : size.toNat < file.length ↔
    ∃ i, i < file.length ∧ s.memorySize.toNat ≤ (maskAddress24 address).toNat + i

theorem loadBin_run {reads : List (List U8)} (hreads : Reads reads bytes) {next : U32}
    {stored : Bool} (hrun : binBytes bytes a h s = .ok (next, stored) t) :
    loadBin reads a h s = .ok (true, next - a) t := by
  obtain ⟨rfl, hne⟩ := hreads
  have hloop : binReads reads a h s = .ok next t := by
    rw [binReads_eq fun buffer hb => (hne buffer hb).1]
    exact (bind_ok hrun).trans rfl
  exact (bind_ok hloop).trans rfl

theorem offset_toNat (a : U32) {n : Nat} (hn : n < 2 ^ 32) :
    (a + BitVec.ofNat 32 n - a).toNat = n := by
  rw [BitVec.add_comm, BitVec.add_sub_cancel, BitVec.toNat_ofNat, Nat.mod_eq_of_lt hn]

/-- Where the load cannot go around it does what is promised. -/
theorem loadBin_fills {reads : List (List U8)} (hreads : Reads reads bytes)
    (hM : s.memorySize.toNat ≤ 2 ^ 24)
    (hbelow : StaysBelow s.memorySize (maskAddress24 a).toNat bytes.length) :
    ∃ t size, loadBin reads a h s = .ok (true, size) t ∧ LoadsBinary bytes a s t size := by
  obtain ⟨t, stored, hrun, hfilled⟩ := binBytes_fills (h := h) bytes a hM hbelow
  have hroom : roomFor bytes a s.memorySize ≤ 2 ^ 24 := by
    rw [roomFor]
    omega
  have hsize := offset_toNat a (n := roomFor bytes a s.memorySize) (by omega)
  refine ⟨t, _, loadBin_run hreads hrun, hfilled, hsize, ?_⟩
  rw [hsize, roomFor]
  constructor
  · intro hless
    exact ⟨bytes.length - 1, by omega, by omega⟩
  · rintro ⟨i, hi, hplace⟩
    omega

/-- Where it goes around, every byte of the file is stored, and the size says so. -/
theorem loadBin_around {reads : List (List U8)} (hreads : Reads reads bytes)
    (hM : s.memorySize.toNat = 2 ^ 24) {t : M68kCpu σ} {size : U32}
    (hrun : loadBin reads a h s = .ok (true, size) t) : size.toNat = bytes.length % 2 ^ 32 := by
  obtain ⟨u, haround⟩ := binBytes_around (h := h) (s := s) bytes a hM
  have hload := loadBin_run hreads haround
  rw [hload] at hrun
  cases hrun
  rw [BitVec.add_comm, BitVec.add_sub_cancel, BitVec.toNat_ofNat]

/-- A file of a zero and ones. -/
def zeroOnes (n : Nat) : List U8 := 0 :: List.replicate n 1

theorem reads_single (file : List U8) : Reads (file.map fun byte => [byte]) file := by
  refine ⟨?_, fun buffer hb => ?_⟩
  · induction file with
    | nil => rfl
    | cons byte rest ih => rw [List.map_cons, List.flatten_cons, ih, List.singleton_append]
  · obtain ⟨byte, -, rfl⟩ := List.mem_map.mp hb
    exact ⟨List.cons_ne_nil _ _, Nat.le_of_ble_eq_true rfl⟩

/-- A load that goes around overwrites the first place of the bus. -/
theorem zeroOnes_around {n : Nat} (host : σ) (hn : 2 ^ 24 < (maskAddress24 a).toNat + (n + 1)) :
    ∃ p t, binBytes (zeroOnes n) a h (init (fun _ => 0) 0x1000000 host) = .ok p t ∧
      t.memory 0 = 1 := by
  have hlt := masked_lt a
  have hM : (init (fun _ => 0) 0x1000000 host).memorySize.toNat = 2 ^ 24 := rfl
  have hvalid : (maskAddress24 a).toNat < (init (fun _ => 0) 0x1000000 host).memorySize.toNat := by
    rw [hM]
    exact hlt
  rw [zeroOnes, binBytes_cons, if_pos ((valid_iff _ _).mpr hvalid)]
  refine binBytes_constant (s := { init (fun _ => 0) 0x1000000 host with
    memory := storeByte (fun _ => 0) (maskAddress24 a) 0 })
    (fun byte hb => List.eq_of_mem_replicate hb) hM (.inr ?_)
  refine ⟨2 ^ 24 - (maskAddress24 a).toNat - 1, ?_, ?_⟩
  · rw [List.length_replicate]
    omega
  · apply BitVec.eq_of_toNat_eq
    have hmask := mask_succ a (2 ^ 24 - (maskAddress24 a).toNat)
    have hsum : (maskAddress24 a).toNat + (2 ^ 24 - (maskAddress24 a).toNat) = 2 ^ 24 := by omega
    have hone : a + 1 + BitVec.ofNat 32 (2 ^ 24 - (maskAddress24 a).toNat - 1) =
        a + BitVec.ofNat 32 (2 ^ 24 - (maskAddress24 a).toNat) := by
      have hadd := add_ofNat a 1 (2 ^ 24 - (maskAddress24 a).toNat - 1)
      rw [Nat.add_sub_cancel' (by omega)] at hadd
      exact hadd
    rw [hone, hmask, hsum]
    rfl

/-- **Binary load size and placement.** The loads of files of a length to an address of a
memory of a size do what is promised exactly when the file ends below the end of the bus
or the memory does. Otherwise the load goes around the bus, and a file that is shorter than
the whole address space is then always reported in full. -/
theorem loadBin_iff (host : σ) (length : Nat) (address memorySize : U32)
    (hM : memorySize.toNat ≤ 2 ^ 24) :
    ((∀ (reads : List (List U8)) (file : List U8) (h : Host σ) (s : M68kCpu σ),
        Reads reads file → file.length = length → s.memorySize = memorySize →
        ∃ t size, loadBin reads address h s = .ok (true, size) t ∧
          LoadsBinary file address s t size) ↔
      StaysBelow memorySize (maskAddress24 address).toNat length) ∧
    (¬StaysBelow memorySize (maskAddress24 address).toNat length → length < 2 ^ 32 →
      ∀ (reads : List (List U8)) (file : List U8) (h : Host σ) (s t : M68kCpu σ) (size : U32),
        Reads reads file → file.length = length → s.memorySize = memorySize →
        loadBin reads address h s = .ok (true, size) t →
        size.toNat = length ∧ ¬LoadsBinary file address s t size) := by
  have hlt := masked_lt address
  refine ⟨⟨fun hall => ?_, ?_⟩, ?_⟩
  · by_contra hnot
    rw [StaysBelow] at hnot
    have hwhole : memorySize.toNat = 2 ^ 24 := by omega
    have hsize : memorySize = 0x1000000 := BitVec.eq_of_toNat_eq hwhole
    -- a zero followed by ones: the load that goes around leaves a one at address 0
    obtain ⟨n, rfl⟩ : ∃ n, length = n + 1 := ⟨length - 1, by omega⟩
    obtain ⟨t, size, hrun, hloads⟩ := hall _ (zeroOnes n) (Host.none σ)
      (init (fun _ => 0) 0x1000000 host) (reads_single _)
      (by rw [zeroOnes, List.length_cons, List.length_replicate]) hsize.symm
    obtain ⟨p, u, haround, hone⟩ := zeroOnes_around (h := Host.none σ) (a := address) (n := n) host
      (by omega)
    rw [loadBin_run (reads_single _) haround] at hrun
    cases hrun
    obtain ⟨hstored, houtside⟩ := hloads.filled
    have hzero : t.memory 0 = 0 := by
      by_cases hfirst : (maskAddress24 address).toNat = 0
      · have hpos : 0 < roomFor (zeroOnes n) address 0x1000000 := by
          rw [roomFor, zeroOnes, List.length_cons, hfirst]
          show 0 < min _ (2 ^ 24 - 0)
          omega
        have hbyte := hstored 0 hpos
        rw [hfirst] at hbyte
        exact (Option.some.inj hbyte).symm
      · exact houtside 0 (by decide) (.inl (by omega))
    rw [hone] at hzero
    exact absurd hzero (by decide)
  · rintro hbelow reads file h s hreads rfl rfl
    exact loadBin_fills hreads hM hbelow
  -- around the bus: every byte is reported, more than there is room for
  · rintro hnot hshort reads file h s t size hreads rfl rfl hrun
    rw [StaysBelow] at hnot
    have hwhole : s.memorySize.toNat = 2 ^ 24 := by omega
    have hsize := loadBin_around hreads hwhole hrun
    rw [Nat.mod_eq_of_lt hshort] at hsize
    refine ⟨hsize, fun hloads => ?_⟩
    have hreported := hloads.reported
    rw [hsize, roomFor] at hreported
    omega

/-- Two bytes from the last place of the bus on: the second one goes to place 0. -/
theorem loadBin_goes_around : ∃ t, loadBin [[0x11, 0x22]] 0x00FFFFFF (Host.none Unit)
    (init (fun _ => 0) 0x1000000 ()) = .ok (true, 2) t ∧ t.memory 0 = 0x22 ∧
    ¬LoadsBinary [0x11, 0x22] 0x00FFFFFF (init (fun _ => 0) 0x1000000 ()) t 2 := by
  refine ⟨_, rfl, by decide, fun h => ?_⟩
  exact absurd h.reported (by decide)

/-- Four bytes at the end of a memory of 256, two of them past it. -/
theorem loadBin_iff_truncated : ∃ t, loadBin [[1, 2], [3, 4]] 0xFE (Host.none Unit)
    (init (fun _ => 0) 0x100 ()) = .ok (true, 2) t ∧
    LoadsBinary [1, 2, 3, 4] 0xFE (init (fun _ => 0) 0x100 ()) t 2 := by
  have hreads : Reads [[1, 2], [3, 4]] [1, 2, 3, 4] := by
    refine ⟨rfl, fun buffer hb => ?_⟩
    simp only [List.mem_cons, List.not_mem_nil, or_false] at hb
    rcases hb with rfl | rfl <;> exact ⟨List.cons_ne_nil _ _, Nat.le_of_ble_eq_true rfl⟩
  obtain ⟨t, size, hrun, hloads⟩ := (loadBin_iff () 4 0xFE 0x100 (by decide)).1.mpr
    (.inl (by decide)) _ _ (Host.none Unit) (init (fun _ => 0) 0x100 ()) hreads rfl rfl
  have hsize : size = 2 := BitVec.eq_of_toNat_eq hloads.reported
  rw [hsize] at hrun hloads
  exact ⟨t, hrun, hloads⟩

end M68k
