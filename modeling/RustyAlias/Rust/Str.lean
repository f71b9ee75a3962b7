import RustyAlias.Rust.Utf8

/-! # Strings

A `str` is a sequence of octets that is well-formed UTF-8, and every operation below returns one.
Offsets are octet offsets, as in Rust; slicing at an offset inside a character is a panic. The
characters that the modelled code searches for, trims and splits at are ASCII, so these operations
are those of the octets.
-/

namespace Rust

/-- `str` and `String`. -/
structure Str where
  bytes : Bytes
  utf8 : Utf8.Valid bytes
deriving DecidableEq

/-- An ASCII character. -/
abbrev Ascii := { b : UInt8 // b < 0x80 }

def dot : Ascii := ⟨46, by decide⟩
def hyphen : Ascii := ⟨45, by decide⟩
def colon : Ascii := ⟨58, by decide⟩

namespace Str

@[ext] theorem ext {s t : Str} (same : s.bytes = t.bytes) : s = t := by
  cases s; cases t; cases same; rfl

/-- A literal of the source. -/
def ofString (s : String) : Str :=
  ⟨s.toList.flatMap String.utf8EncodeChar, by
    rw [List.flatMap_def]
    apply Utf8.Valid.flatten
    intro part member
    obtain ⟨c, _, rfl⟩ := List.mem_map.mp member
    exact Utf8.encodeChar_valid c⟩

def empty : Str := ⟨[], rfl⟩

def ofAscii (c : Ascii) : Str := ⟨[c], Utf8.valid_ascii (by simp [c.2])⟩

instance : Append Str := ⟨fun s t => ⟨s.bytes ++ t.bytes, s.utf8.append t.utf8⟩⟩

@[simp] theorem bytes_append (s t : Str) : (s ++ t).bytes = s.bytes ++ t.bytes := rfl

@[simp] theorem bytes_empty : empty.bytes = [] := rfl

@[simp] theorem bytes_ofAscii (c : Ascii) : (ofAscii c).bytes = [c.1] := rfl

/-- `core::str::from_utf8`, without its error. -/
def fromUtf8 (bytes : Bytes) : Option Str := if valid : Utf8.Valid bytes then some ⟨bytes, valid⟩ else none

theorem fromUtf8_eq_some_iff {bytes : Bytes} {s : Str} : fromUtf8 bytes = some s ↔ s.bytes = bytes := by
  unfold fromUtf8
  split
  · next valid => rw [Option.some.injEq, Str.ext_iff, eq_comm]
  · next invalid =>
    constructor
    · intro impossible; contradiction
    · rintro rfl; exact (invalid s.utf8).elim

theorem fromUtf8_eq_none_iff {bytes : Bytes} : fromUtf8 bytes = none ↔ ¬ Utf8.Valid bytes := by
  unfold fromUtf8
  split <;> simp_all

/-- `str::len`, in octets. -/
def len (s : Str) : ℕ := s.bytes.length

def isEmpty (s : Str) : Bool := s.bytes.isEmpty

/-- `str::eq_ignore_ascii_case`. -/
def eqIgnoreAsciiCase (s t : Str) : Bool := eqIgnoreCase s.bytes t.bytes

/-- `str::to_ascii_lowercase`. -/
def toAsciiLowercase (s : Str) : Str := ⟨lowerAll s.bytes, s.utf8.map Utf8.toLower_keeps⟩

/-- `str::contains` of a character. -/
def contains (s : Str) (c : Ascii) : Bool := s.bytes.contains c.1

/-- `str::trim_end_matches` of a character. -/
def trimEndMatches (s : Str) (c : Ascii) : Str :=
  ⟨s.bytes.rdropWhile (· == c.1), by
    have whole := s.utf8
    rw [← List.rdropWhile_append_rtakeWhile (p := (· == c.1)) (l := s.bytes)] at whole
    cases trimmed : s.bytes.rtakeWhile (· == c.1) with
    | nil => simpa only [trimmed, List.append_nil] using whole
    | cons b rest =>
      have same : b = c.1 := by
        simpa using List.mem_rtakeWhile_imp (p := (· == c.1)) (l := s.bytes) (trimmed ▸ List.mem_cons_self ..)
      rw [trimmed, Utf8.valid_around_ascii (same ▸ c.2)] at whole
      exact whole.1⟩

@[simp] theorem bytes_trimEndMatches (s : Str) (c : Ascii) :
    (s.trimEndMatches c).bytes = s.bytes.rdropWhile (· == c.1) := rfl

/-- `str::is_char_boundary`. -/
def isCharBoundary (s : Str) (i : ℕ) : Bool :=
  i == 0 || match s.bytes[i]? with
    | some b => !Utf8.isContinuation b
    | none => i == s.bytes.length

/-- Both halves of a string cut at a boundary are strings. -/
theorem valid_cut {s : Str} {i : ℕ} (boundary : s.isCharBoundary i = true) :
    Utf8.Valid (s.bytes.take i) ∧ Utf8.Valid (s.bytes.drop i) := by
  simp only [isCharBoundary, Bool.or_eq_true, beq_iff_eq] at boundary
  rcases boundary with rfl | boundary
  · exact ⟨Utf8.valid_nil, s.utf8⟩
  split at boundary
  · next b present =>
    obtain ⟨bound, rfl⟩ := List.getElem?_eq_some_iff.mp present
    have whole := s.utf8
    rw [← List.take_append_drop i s.bytes, List.drop_eq_getElem_cons bound] at whole
    rw [List.drop_eq_getElem_cons bound]
    exact whole.cut (by simpa using boundary)
  · rw [beq_iff_eq.mp boundary, List.take_length, List.drop_length]
    exact ⟨s.utf8, Utf8.valid_nil⟩

/-- `&s[start..]`. -/
def sliceFrom (s : Str) (start : ℕ) : Outcome Str :=
  if boundary : s.isCharBoundary start = true then .ok ⟨s.bytes.drop start, (valid_cut boundary).2⟩
  else .error .notCharBoundary

theorem sliceFrom_ok {s : Str} {start : ℕ} (boundary : s.isCharBoundary start = true) :
    s.sliceFrom start = .ok ⟨s.bytes.drop start, (valid_cut boundary).2⟩ := dif_pos boundary

theorem isCharBoundary_take {s : Str} {start stop : ℕ} (ordered : start ≤ stop)
    (first : s.isCharBoundary start = true) (last : s.isCharBoundary stop = true) :
    isCharBoundary ⟨s.bytes.take stop, (valid_cut last).1⟩ start = true := by
  simp only [isCharBoundary, Bool.or_eq_true, beq_iff_eq, List.length_take] at first last ⊢
  rcases first with rfl | first
  · exact .inl rfl
  right
  rcases Nat.lt_or_eq_of_le ordered with before | rfl
  · rw [List.getElem?_take_of_lt before]
    cases present : s.bytes[start]? with
    | some b => simpa [present] using first
    | none =>
      rw [present] at first
      rw [List.getElem?_eq_none_iff] at present
      simp only [beq_iff_eq] at first ⊢
      omega
  · have stops : s.bytes.length ≤ start ∨ start < s.bytes.length := by omega
    rw [List.getElem?_eq_none (by simp)]
    rcases stops with stops | stops
    · rw [List.getElem?_eq_none stops] at first
      simp only [beq_iff_eq] at first ⊢
      omega
    · simp only [beq_iff_eq]; omega

/-- `&s[start..stop]`. -/
def slice (s : Str) (start stop : ℕ) : Outcome Str :=
  if inside : start ≤ stop ∧ s.isCharBoundary start = true ∧ s.isCharBoundary stop = true then
    .ok ⟨(s.bytes.take stop).drop start, (valid_cut (isCharBoundary_take inside.1 inside.2.1 inside.2.2)).2⟩
  else .error .notCharBoundary

theorem slice_ok {s : Str} {start stop : ℕ} (ordered : start ≤ stop) (first : s.isCharBoundary start = true)
    (last : s.isCharBoundary stop = true) :
    ∃ part : Str, s.slice start stop = .ok part ∧ part.bytes = (s.bytes.take stop).drop start :=
  ⟨_, dif_pos ⟨ordered, first, last⟩, rfl⟩

/-- Behind an ASCII octet there is a character boundary. -/
theorem isCharBoundary_after_ascii {s : Str} {i : ℕ} {b : UInt8} (ascii : b < 0x80) (before : s.bytes[i]? = some b) :
    s.isCharBoundary (i + 1) = true := by
  obtain ⟨bound, rfl⟩ := List.getElem?_eq_some_iff.mp before
  simp only [isCharBoundary, Bool.or_eq_true]
  right
  split
  · next c present =>
    obtain ⟨bound', rfl⟩ := List.getElem?_eq_some_iff.mp present
    have whole := s.utf8
    rw [← List.take_append_drop i s.bytes, List.drop_eq_getElem_cons bound, Utf8.valid_around_ascii ascii,
      List.drop_eq_getElem_cons bound'] at whole
    simp only [whole.2.head_not_continuation, Bool.not_false]
  · next absent =>
    rw [List.getElem?_eq_none_iff] at absent
    exact beq_iff_eq.mpr (by omega)

/-- Between ASCII octets every offset is a character boundary. -/
theorem isCharBoundary_of_ascii {s : Str} (ascii : ∀ b ∈ s.bytes, b < 0x80) {i : ℕ} (bound : i ≤ s.len) :
    s.isCharBoundary i = true := by
  cases i with
  | zero => rfl
  | succ i =>
    have present := List.getElem?_eq_getElem (show i < s.bytes.length from bound)
    exact isCharBoundary_after_ascii (ascii _ (List.getElem_mem _)) present

section Parts

variable (c : Ascii)

theorem valid_intercalate {parts : List Bytes} :
    Utf8.Valid ([c.1].intercalate parts) ↔ ∀ part ∈ parts, Utf8.Valid part := by
  induction parts with
  | nil => simp
  | cons part rest ih =>
    cases rest with
    | nil => simp
    | cons next rest =>
      rw [List.intercalate_cons_cons, List.append_assoc, List.singleton_append, Utf8.valid_around_ascii c.2, ih]
      simp

/-- `str::split` at a character. -/
def split (s : Str) : List Str :=
  (s.bytes.splitOn c.1).pmap Str.mk ((valid_intercalate c).mp (by rw [List.intercalate_splitOn]; exact s.utf8))

@[simp] theorem split_bytes (s : Str) : (s.split c).map Str.bytes = s.bytes.splitOn c.1 := by
  simp only [split, List.map_pmap, List.pmap_eq_map, List.map_id_fun', id_eq]

theorem length_intercalate (parts : List Bytes) :
    ([c.1].intercalate parts).length + 1 = parts.length + (parts.map List.length).sum + if parts = [] then 1 else 0 := by
  induction parts with
  | nil => rfl
  | cons part rest ih =>
    cases rest with
    | nil => simp; omega
    | cons next rest =>
      rw [List.intercalate_cons_cons]
      simp only [List.length_append, List.length_cons, List.length_nil, List.map_cons, List.sum_cons,
        reduceCtorEq, if_false] at ih ⊢
      omega

/-- What is joined is the parts and separators. -/
theorem mem_intercalate {parts : List Bytes} {b : UInt8} :
    b ∈ [c.1].intercalate parts ↔ (∃ part ∈ parts, b ∈ part) ∨ b = c.1 ∧ 2 ≤ parts.length := by
  induction parts with
  | nil => simp
  | cons part rest ih =>
    cases rest with
    | nil => simp
    | cons next rest =>
      rw [List.intercalate_cons_cons, List.mem_append, List.mem_append, ih]
      simp only [List.mem_cons, List.length_cons, exists_eq_or_imp, List.not_mem_nil, or_false]
      have two : 2 ≤ rest.length + 1 + 1 := by omega
      grind

theorem length_split_le (s : Str) : (s.split c).length ≤ s.len + 1 := by
  have length := length_intercalate c (s.bytes.splitOn c.1)
  rw [List.intercalate_splitOn, ← split_bytes, List.length_map] at length
  unfold len
  split at length <;> omega

theorem len_of_mem_split {s part : Str} (member : part ∈ s.split c) : part.len ≤ s.len := by
  have length := length_intercalate c (s.bytes.splitOn c.1)
  have inside : part.len ∈ (s.bytes.splitOn c.1).map List.length := by
    rw [← split_bytes, List.map_map]
    exact List.mem_map_of_mem member
  have part := List.single_le_sum (by simp) _ inside
  have some : 1 ≤ (s.bytes.splitOn c.1).length := by
    rw [← split_bytes, List.length_map]
    exact List.length_pos_of_mem member
  rw [List.intercalate_splitOn] at length
  unfold len at *
  split at length <;> omega

theorem mem_of_mem_split {s part : Str} (member : part ∈ s.split c) {b : UInt8} (inside : b ∈ part.bytes) : b ∈ s.bytes := by
  have whole : [c.1].intercalate ((s.split c).map bytes) = s.bytes := by rw [split_bytes, List.intercalate_splitOn]
  rw [← whole, mem_intercalate]
  exact .inl ⟨part.bytes, List.mem_map_of_mem member, inside⟩

/-- `[&str]::join` with a one-character separator. -/
def join (parts : List Str) : Str :=
  ⟨[c.1].intercalate (parts.map Str.bytes), (valid_intercalate c).mpr (by
    intro part member
    obtain ⟨s, _, rfl⟩ := List.mem_map.mp member
    exact s.utf8)⟩

end Parts

/-- Left to right, every occurrence of the pattern `p :: ps` gives way to `image`. -/
def replaceBytes (p : UInt8) (ps image : Bytes) : Bytes → Bytes
  | [] => []
  | b :: rest =>
    if b = p ∧ ps <+: rest then image ++ replaceBytes p ps image (rest.drop ps.length)
    else b :: replaceBytes p ps image rest
termination_by bytes => bytes.length
decreasing_by all_goals simp only [List.length_cons, List.length_drop]; omega

theorem run_replaceBytes {p : UInt8} {ps image : Bytes} (ascii : p < 0x80) (asciis : ∀ b ∈ ps, b < 0x80)
    (valid : Utf8.Valid image) {bytes : Bytes} {pending next : Utf8.Pending} (owed : Utf8.Owed pending)
    (read : Utf8.run pending bytes = some next) : Utf8.run pending (replaceBytes p ps image bytes) = some next := by
  fun_induction replaceBytes p ps image bytes generalizing pending with
  | case1 => exact read
  | case2 b rest found ih =>
    obtain ⟨rfl, suffix, rfl⟩ := found
    obtain ⟨middle, stepped, read⟩ := Option.bind_eq_some_iff.mp read
    obtain ⟨rfl, rfl⟩ := Utf8.step_ascii owed ascii stepped
    rw [Utf8.run_append, Utf8.valid_ascii asciis, Option.bind_some] at read
    rw [List.drop_left] at ih
    rw [List.drop_left, Utf8.run_append, valid, Option.bind_some]
    exact ih Utf8.owed_nil read
  | case3 b rest other ih =>
    obtain ⟨middle, stepped, read⟩ := Option.bind_eq_some_iff.mp read
    rw [Utf8.run, stepped, Option.bind_some]
    exact ih (Utf8.step_owed owed stepped) read

/-- `str::replace` of an ASCII pattern, given by its first octet and the others. -/
def replace (s : Str) (p : Ascii) (ps : List Ascii) (image : Str) : Str :=
  ⟨replaceBytes p.1 (ps.map (·.1)) image.bytes s.bytes,
    run_replaceBytes p.2 (by simp +contextual) image.utf8 Utf8.owed_nil s.utf8⟩

end Str

end Rust
