import Mathlib.Data.List.Nodup
import Mathlib.Tactic.Linarith

/-!
# Tag-length-value streams

A stream is a sequence of records: a tag byte, a length byte and that many
payload bytes. A reader decodes each record to a state update and applies it at
once, so a reader that stops at a defect leaves the records before it applied.
`restore_split` says exactly that of every byte string.
-/

namespace Tlv

abbrev Byte := BitVec 8

/-- A record whose length fits its length byte. -/
structure Record where
  tag : Byte
  payload : List Byte
  short : payload.length < 256

/-- The bytes of a record. -/
def Record.encode (r : Record) : List Byte :=
  r.tag :: BitVec.ofNat 8 r.payload.length :: r.payload

/-- The bytes of a sequence of records. -/
def encode (rs : List Record) : List Byte := rs.flatMap Record.encode

@[simp] theorem encode_nil : encode [] = [] := rfl

@[simp] theorem encode_cons (r : Record) (rs : List Record) :
    encode (r :: rs) = r.encode ++ encode rs := rfl

/-- The first record of a byte string, if a complete one stands there. -/
def next? : List Byte → Option (Record × List Byte)
  | tag :: len :: rest =>
      if len.toNat ≤ rest.length then
        some (⟨tag, rest.take len.toNat,
          Nat.lt_of_le_of_lt (List.length_take_le _ _) len.isLt⟩, rest.drop len.toNat)
      else none
  | _ => none

theorem next?_encode (r : Record) (rest : List Byte) :
    next? (r.encode ++ rest) = some (r, rest) := by
  obtain ⟨tag, payload, short⟩ := r
  have hlen : payload.length % 256 = payload.length := Nat.mod_eq_of_lt short
  simp [Record.encode, next?, hlen]

theorem eq_encode_of_next? {bytes rest : List Byte} {r : Record}
    (h : next? bytes = some (r, rest)) : bytes = r.encode ++ rest := by
  match bytes, h with
  | tag :: len :: body, h =>
    rw [next?] at h
    split at h
    · next hlen =>
      cases h
      simp [Record.encode, Nat.min_eq_left hlen]
    · cases h

/-- A complete record shortens what is left to read. -/
theorem length_lt_of_next? {bytes rest : List Byte} {r : Record}
    (h : next? bytes = some (r, rest)) : rest.length < bytes.length := by
  rw [eq_encode_of_next? h]
  simp [Record.encode]
  omega

section Reader

variable {S : Type}

/-- Read at most `n` records, applying each as it is decoded; the flag says
whether the whole string was consumed. -/
def load (decode : Record → Option (S → S)) : Nat → List Byte → S → Bool × S
  | _, [], s => (true, s)
  | 0, _ :: _, s => (false, s)
  | n + 1, b :: bs, s =>
      match next? (b :: bs) with
      | none => (false, s)
      | some (r, rest) =>
          match decode r with
          | none => (false, s)
          | some f => load decode n rest (f s)

/-- Read a whole byte string: no record is empty, so its length is enough. -/
def restore (decode : Record → Option (S → S)) (bytes : List Byte) (s : S) : Bool × S :=
  load decode bytes.length bytes s

/-- Apply updates from left to right. -/
def applyAll (fs : List (S → S)) (s : S) : S := fs.foldl (fun s f => f s) s

@[simp] theorem applyAll_nil (s : S) : applyAll [] s = s := rfl

@[simp] theorem applyAll_cons (f : S → S) (fs : List (S → S)) (s : S) :
    applyAll (f :: fs) s = applyAll fs (f s) := rfl

/-- A projection that no update changes survives all of them. -/
theorem applyAll_congr {β : Type} (π : S → β) {fs : List (S → S)}
    (h : ∀ f ∈ fs, ∀ s, π (f s) = π s) (s : S) : π (applyAll fs s) = π s := by
  induction fs generalizing s with
  | nil => rfl
  | cons f fs ih =>
    rw [applyAll_cons, ih (fun g hg => h g (List.mem_cons_of_mem _ hg))]
    exact h f List.mem_cons_self s

variable {decode : Record → Option (S → S)}

/-- A nonempty string that does not begin with a decodable record. -/
def Defective (decode : Record → Option (S → S)) (bytes : List Byte) : Prop :=
  bytes ≠ [] ∧ ∀ r rest, bytes = r.encode ++ rest → decode r = none

theorem load_defective {bytes : List Byte} (h : Defective decode bytes) (n : Nat) (s : S) :
    load decode n bytes s = (false, s) := by
  match bytes, n with
  | [], _ => exact absurd rfl h.1
  | _ :: _, 0 => rfl
  | b :: bs, n + 1 =>
    rw [load]
    cases hn : next? (b :: bs) with
    | none => rfl
    | some p =>
      obtain ⟨r, rest⟩ := p
      simp only [h.2 r rest (eq_encode_of_next? hn)]

/-- Every byte string is a sequence of decodable records and a rest that is
empty or defective; reading applies the records and succeeds iff nothing is
left. -/
theorem load_split (n : Nat) (bytes : List Byte) (hn : bytes.length ≤ n) (s : S) :
    ∃ rs fs rest, bytes = encode rs ++ rest ∧ rs.map decode = fs.map some ∧
      (rest = [] ∨ Defective decode rest) ∧
      load decode n bytes s = (rest.isEmpty, applyAll fs s) := by
  induction n generalizing bytes s with
  | zero =>
    obtain rfl : bytes = [] := List.length_eq_zero_iff.mp (by omega)
    exact ⟨[], [], [], rfl, rfl, .inl rfl, rfl⟩
  | succ n ih =>
    cases bytes with
    | nil => exact ⟨[], [], [], rfl, rfl, .inl rfl, rfl⟩
    | cons b bs =>
      by_cases hd : Defective decode (b :: bs)
      · exact ⟨[], [], b :: bs, rfl, rfl, .inr hd, load_defective hd _ s⟩
      · obtain ⟨r, rest, hbytes, hr⟩ : ∃ r rest, b :: bs = r.encode ++ rest ∧ decode r ≠ none := by
          simpa [Defective] using hd
        obtain ⟨f, hf⟩ := Option.ne_none_iff_exists'.mp hr
        have hnext : next? (b :: bs) = some (r, rest) := hbytes ▸ next?_encode r rest
        have hshort := length_lt_of_next? hnext
        obtain ⟨rs, fs, tail, hrest, hfs, htail, hload⟩ := ih rest (by omega) (f s)
        refine ⟨r :: rs, f :: fs, tail, ?_, ?_, htail, ?_⟩
        · rw [hbytes, hrest, encode_cons, List.append_assoc]
        · simp [hf, hfs]
        · simp only [load, hnext, hf, hload, applyAll_cons]

theorem restore_split (bytes : List Byte) (s : S) :
    ∃ rs fs rest, bytes = encode rs ++ rest ∧ rs.map decode = fs.map some ∧
      (rest = [] ∨ Defective decode rest) ∧
      restore decode bytes s = (rest.isEmpty, applyAll fs s) :=
  load_split bytes.length bytes (Nat.le_refl _) s

/-- A well-formed stream is consumed, each record applied in order. -/
theorem load_encode {rs : List Record} {fs : List (S → S)}
    (h : rs.map decode = fs.map some) (n : Nat) (hn : (encode rs).length ≤ n) (s : S) :
    load decode n (encode rs) s = (true, applyAll fs s) := by
  induction rs generalizing fs n s with
  | nil =>
    obtain rfl : fs = [] := by simpa using h.symm
    cases n <;> rfl
  | cons r rs ih =>
    obtain ⟨f, fs, rfl⟩ : ∃ f fs', fs = f :: fs' := by
      cases fs with
      | nil => simp at h
      | cons f fs => exact ⟨f, fs, rfl⟩
    obtain ⟨hf, hfs⟩ : decode r = some f ∧ rs.map decode = fs.map some := by simpa using h
    have hnext := next?_encode r (encode rs)
    have hshort := length_lt_of_next? hnext
    rw [encode_cons] at hn ⊢
    match n, hn with
    | 0, hn => simp [Record.encode] at hn
    | n + 1, hn =>
      cases hbytes : r.encode ++ encode rs with
      | nil => simp [Record.encode] at hbytes
      | cons b bs =>
        rw [hbytes] at hnext hn
        simp only [load, hnext, hf, applyAll_cons]
        exact ih hfs n (by rw [hbytes] at hshort; omega) _

theorem restore_encode {rs : List Record} {fs : List (S → S)}
    (h : rs.map decode = fs.map some) (s : S) :
    restore decode (encode rs) s = (true, applyAll fs s) :=
  load_encode h _ (Nat.le_refl _) s

/-- Records that decode to nothing may stand anywhere in a stream. -/
theorem exists_updates_of_filter {p : Record → Bool} (hskip : ∀ r, p r = false → decode r = some id)
    {rs : List Record} {fs : List (S → S)} (h : (rs.filter p).map decode = fs.map some) :
    ∃ fs', rs.map decode = fs'.map some ∧ ∀ s, applyAll fs' s = applyAll fs s := by
  induction rs generalizing fs with
  | nil =>
    obtain rfl : fs = [] := by simpa using h.symm
    exact ⟨[], rfl, fun _ => rfl⟩
  | cons r rs ih =>
    cases hp : p r with
    | false =>
      rw [List.filter_cons_of_neg (by simp [hp])] at h
      obtain ⟨fs', hfs', happly⟩ := ih h
      refine ⟨id :: fs', ?_, fun s => happly s⟩
      simp [hskip r hp, hfs']
    | true =>
      rw [List.filter_cons_of_pos hp, List.map_cons] at h
      cases fs with
      | nil => simp at h
      | cons f fs =>
        obtain ⟨hf, hrest⟩ := List.cons.inj h
        obtain ⟨fs', hfs', happly⟩ := ih hrest
        refine ⟨f :: fs', ?_, fun s => happly (f s)⟩
        simp [hf, hfs']

/-- Reading a stream reads the stream without its skipped records. -/
theorem restore_filter {p : Record → Bool} (hskip : ∀ r, p r = false → decode r = some id)
    {rs : List Record} {fs : List (S → S)} (h : (rs.filter p).map decode = fs.map some) (s : S) :
    restore decode (encode rs) s = (true, applyAll fs s) := by
  obtain ⟨fs', hfs', happly⟩ := exists_updates_of_filter hskip h
  rw [restore_encode hfs', happly]

/-- Once there is an iteration for every byte, more change nothing. -/
theorem load_enough {n m : Nat} {bytes : List Byte} (hn : bytes.length ≤ n)
    (hm : bytes.length ≤ m) (s : S) : load decode n bytes s = load decode m bytes s := by
  induction n generalizing m bytes s with
  | zero =>
    obtain rfl : bytes = [] := List.length_eq_zero_iff.mp (by omega)
    cases m <;> rfl
  | succ n ih =>
    cases bytes with
    | nil => cases m <;> rfl
    | cons b bs =>
      cases m with
      | zero => simp at hm
      | succ m =>
        simp only [load]
        cases hnext : next? (b :: bs) with
        | none => rfl
        | some p =>
          have hshort := length_lt_of_next? hnext
          dsimp only
          cases decode p.1 with
          | none => rfl
          | some f => exact ih (by omega) (by omega) _

/-- A reader stops at an incomplete record. -/
theorem restore_incomplete {bytes : List Byte} (hb : bytes ≠ []) (h : next? bytes = none) (s : S) :
    restore decode bytes s = (false, s) := by
  cases bytes with
  | nil => exact absurd rfl hb
  | cons b bs => simp only [restore, List.length_cons, load, h]

/-- A reader decodes the first complete record and goes on after it. -/
theorem restore_next {bytes rest : List Byte} {r : Record} (h : next? bytes = some (r, rest))
    (s : S) : restore decode bytes s =
      match decode r with
      | none => (false, s)
      | some f => restore decode rest (f s) := by
  have hshort := length_lt_of_next? h
  cases bytes with
  | nil => cases h
  | cons b bs =>
    simp only [restore, List.length_cons, load, h]
    cases decode r with
    | none => rfl
    | some f => exact load_enough (by simp at hshort; omega) (Nat.le_refl _) _

/-! ## Accepted streams -/

/-- The update of a record; none if it does not decode. -/
def update (decode : Record → Option (S → S)) (r : Record) (s : S) : S :=
  match decode r with
  | some f => f s
  | none => s

/-- The updates of records, from left to right. -/
def fold (decode : Record → Option (S → S)) (rs : List Record) (s : S) : S :=
  rs.foldl (fun s r => update decode r s) s

@[simp] theorem fold_nil (s : S) : fold decode [] s = s := rfl

@[simp] theorem fold_cons (r : Record) (rs : List Record) (s : S) :
    fold decode (r :: rs) s = fold decode rs (update decode r s) := rfl

theorem fold_append (rs rs' : List Record) (s : S) :
    fold decode (rs ++ rs') s = fold decode rs' (fold decode rs s) := List.foldl_append

theorem exists_updates {rs : List Record} (h : ∀ r ∈ rs, (decode r).isSome = true) :
    ∃ fs, rs.map decode = fs.map some ∧ ∀ s, applyAll fs s = fold decode rs s := by
  induction rs with
  | nil => exact ⟨[], rfl, fun _ => rfl⟩
  | cons r rs ih =>
    obtain ⟨f, hf⟩ := Option.isSome_iff_exists.mp (h r List.mem_cons_self)
    obtain ⟨fs, hfs, happly⟩ := ih fun r' hr' => h r' (List.mem_cons_of_mem _ hr')
    refine ⟨f :: fs, by simp [hf, hfs], fun s => ?_⟩
    rw [applyAll_cons, happly, fold_cons, update, hf]

theorem restore_fold {rs : List Record} (h : ∀ r ∈ rs, (decode r).isSome = true) (s : S) :
    restore decode (encode rs) s = (true, fold decode rs s) := by
  obtain ⟨fs, hfs, happly⟩ := exists_updates h
  rw [restore_encode hfs, happly]

/-- A stream is accepted exactly when it is a sequence of decodable records. -/
theorem restore_accepts_iff {bytes : List Byte} {s : S} :
    (restore decode bytes s).1 = true ↔
      ∃ rs, bytes = encode rs ∧ ∀ r ∈ rs, (decode r).isSome = true := by
  constructor
  · intro h
    obtain ⟨rs, fs, rest, hbytes, hfs, -, hrun⟩ :
        ∃ rs fs rest, bytes = encode rs ++ rest ∧ rs.map decode = fs.map some ∧
          (rest = [] ∨ Defective decode rest) ∧
          restore decode bytes s = (rest.isEmpty, applyAll fs s) := restore_split bytes s
    rw [hrun] at h
    obtain rfl : rest = [] := List.isEmpty_iff.mp h
    refine ⟨rs, by rw [hbytes, List.append_nil], fun r hr => ?_⟩
    have hmem : decode r ∈ fs.map some := hfs ▸ List.mem_map_of_mem hr
    obtain ⟨f, -, hf⟩ := List.mem_map.mp hmem
    rw [← hf]
    rfl
  · rintro ⟨rs, rfl, hrs⟩
    rw [restore_fold hrs]

/-- Records that decode to nothing may be left out. -/
theorem fold_filter {p : Record → Bool} (hskip : ∀ r, p r = false → decode r = some id)
    (rs : List Record) (s : S) : fold decode (rs.filter p) s = fold decode rs s := by
  induction rs generalizing s with
  | nil => rfl
  | cons r rs ih =>
    cases hp : p r with
    | false => simp [List.filter_cons_of_neg, hp, ih, update, hskip r hp]
    | true => simp [List.filter_cons_of_pos, hp, ih]

/-! ## Repeated tags -/

/-- The records no later record shares its tag with. -/
def lastOnly : List Record → List Record
  | [] => []
  | r :: rs => if rs.any (·.tag == r.tag) then lastOnly rs else r :: lastOnly rs

/-- Updates of different tags commute. -/
def Independent (decode : Record → Option (S → S)) : Prop :=
  ∀ r r' : Record, r.tag ≠ r'.tag → ∀ s, update decode r (update decode r' s) =
    update decode r' (update decode r s)

/-- An update undoes an earlier one of its tag, if both decode. -/
def Overriding (decode : Record → Option (S → S)) : Prop :=
  ∀ r r' : Record, r.tag = r'.tag → (decode r).isSome = true → (decode r').isSome = true →
    ∀ s, update decode r' (update decode r s) = update decode r' s

variable (hi : Independent decode)
include hi

/-- A record whose tag comes again has no effect. -/
theorem fold_overridden (ho : Overriding decode) {r : Record} {rs : List Record}
    (hr : (decode r).isSome = true) (hrs : ∀ r' ∈ rs, (decode r').isSome = true)
    (h : rs.any (·.tag == r.tag) = true) (s : S) :
    fold decode rs (update decode r s) = fold decode rs s := by
  induction rs generalizing s with
  | nil => cases h
  | cons r' rs ih =>
    rw [fold_cons, fold_cons]
    by_cases htag : r.tag = r'.tag
    · rw [ho r r' htag hr (hrs r' List.mem_cons_self)]
    · have hrest : rs.any (·.tag == r.tag) = true := by
        simpa [List.any_cons, Ne.symm htag] using h
      rw [hi r' r (Ne.symm htag), ih (fun r'' hr'' => hrs r'' (List.mem_cons_of_mem _ hr'')) hrest]

/-- The last record of a tag wins. -/
theorem fold_lastOnly (ho : Overriding decode) {rs : List Record}
    (hrs : ∀ r ∈ rs, (decode r).isSome = true) (s : S) :
    fold decode (lastOnly rs) s = fold decode rs s := by
  induction rs generalizing s with
  | nil => rfl
  | cons r rs ih =>
    have hrest : ∀ r' ∈ rs, (decode r').isSome = true := fun r' hr' =>
      hrs r' (List.mem_cons_of_mem _ hr')
    rw [lastOnly, fold_cons]
    split
    · next h => rw [ih hrest, fold_overridden hi ho (hrs r List.mem_cons_self) hrest h]
    · rw [fold_cons, ih hrest]

/-- Records of different tags may be exchanged. -/
theorem fold_swap (rs rs' : List Record) {r r' : Record} (h : r.tag ≠ r'.tag) (s : S) :
    fold decode (rs ++ r :: r' :: rs') s = fold decode (rs ++ r' :: r :: rs') s := by
  simp only [fold_append, fold_cons]
  rw [hi r' r h.symm]

/-- Records with distinct tags may come in any order. -/
theorem fold_perm {rs rs' : List Record} (hp : rs.Perm rs') (hn : (rs.map Record.tag).Nodup)
    (s : S) : fold decode rs s = fold decode rs' s := by
  refine hp.foldl_eq' (fun r hr r' hr' u => ?_) s
  by_cases h : r = r'
  · rw [h]
  · exact (hi r r' (fun htag => h (List.inj_on_of_nodup_map hn hr hr' htag)) u).symm

end Reader

end Tlv
