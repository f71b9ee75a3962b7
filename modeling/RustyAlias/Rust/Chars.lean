import RustyAlias.Rust.Str

/-! # Characters of a string

`str::chars` decodes UTF-8 one character at a time, and a `String` collected from characters is the
concatenation of their encodings. A `char` is a Unicode scalar value, as Lean's `Char` is. Decoding
and encoding are inverse to each other, so that whatever is said about the characters of a string
says everything about the string.
-/

namespace Rust

namespace Utf8

/-- The six bits that a continuation octet carries. -/
def low (b : UInt8) : ℕ := b.toNat % 64

/-- The characters of well-formed UTF-8. -/
def decode : Bytes → List Char
  | [] => []
  | a :: rest =>
    if a < 0x80 then Char.ofNat a.toNat :: decode rest
    else if a < 0xE0 then
      match rest with
      | b :: rest => Char.ofNat (a.toNat % 32 * 64 + low b) :: decode rest
      | _ => []
    else if a < 0xF0 then
      match rest with
      | b :: c :: rest => Char.ofNat (a.toNat % 16 * 4096 + low b * 64 + low c) :: decode rest
      | _ => []
    else
      match rest with
      | b :: c :: d :: rest =>
        Char.ofNat (a.toNat % 8 * 262144 + low b * 4096 + low c * 64 + low d) :: decode rest
      | _ => []

/-- The octets of a sequence of characters. -/
def encode (chars : List Char) : Bytes := chars.flatMap String.utf8EncodeChar

theorem encode_valid (chars : List Char) : Valid (encode chars) := by
  rw [encode, List.flatMap_def]
  apply Valid.flatten
  intro part member
  obtain ⟨c, _, rfl⟩ := List.mem_map.mp member
  exact encodeChar_valid c

@[simp] theorem encode_nil : encode [] = [] := rfl

@[simp] theorem encode_cons (c : Char) (rest : List Char) :
    encode (c :: rest) = String.utf8EncodeChar c ++ encode rest := rfl

@[simp] theorem encode_append (a b : List Char) : encode (a ++ b) = encode a ++ encode b := List.flatMap_append

/-- Reading starts over behind the encoding of a character. -/
theorem decode_encodeChar (c : Char) (rest : Bytes) : decode (String.utf8EncodeChar c ++ rest) = c :: decode rest := by
  have scalar : c.toNat < 0xD800 ∨ 0xDFFF < c.toNat ∧ c.toNat < 0x110000 := c.valid
  have same : ∀ n, n = c.toNat → Char.ofNat n = c := fun n h => h ▸ Char.ofNat_toNat c
  simp only [String.utf8EncodeChar, Char.toNat_val]
  generalize c.toNat = v at scalar same ⊢
  split_ifs
  all_goals
    rw [List.cons_append, decode.eq_def]
    simp only [List.cons_append, List.nil_append, low, UInt8.lt_iff_toNat_lt, UInt8.toNat_ofNat', UInt8.reduceToNat]
  · rw [if_pos (by omega), same _ (by omega)]
  · rw [if_neg (by omega), if_pos (by omega), same _ (by omega)]
  · rw [if_neg (by omega), if_neg (by omega), if_pos (by omega), same _ (by omega)]
  · rw [if_neg (by omega), if_neg (by omega), if_neg (by omega), same _ (by omega)]

theorem decode_encode (chars : List Char) : decode (encode chars) = chars := by
  induction chars with
  | nil => rfl
  | cons c rest ih => rw [encode_cons, decode_encodeChar, ih]

/-- What the first octet of a character says, in numbers. -/
theorem lead_cases {a : UInt8} {pending : Pending} (read : lead a = some pending) :
    a.toNat < 0x80 ∧ pending = [] ∨
      (0xC2 ≤ a.toNat ∧ a.toNat < 0xE0) ∧ pending = [tail] ∨
      (0xE0 ≤ a.toNat ∧ a.toNat < 0xF0) ∧ (∃ range, pending = [range, tail] ∧
        (a.toNat = 0xE0 → 0xA0 ≤ range.1.toNat) ∧ (a.toNat = 0xED → range.2.toNat ≤ 0x9F)) ∨
      (0xF0 ≤ a.toNat ∧ a.toNat < 0xF5) ∧ (∃ range, pending = [range, tail, tail] ∧
        (a.toNat = 0xF0 → 0x90 ≤ range.1.toNat) ∧ (a.toNat = 0xF4 → range.2.toNat ≤ 0x8F)) := by
  revert read
  simp only [lead, UInt8.le_iff_toNat_le, ← UInt8.toNat_inj, UInt8.reduceToNat]
  split_ifs <;> rintro ⟨⟩
  all_goals
    simp only [reduceCtorEq, List.cons.injEq, and_true, and_false, exists_eq_left', false_or, tail, UInt8.reduceToNat]
    omega

/-- An owed octet comes, and in its range. -/
theorem run_owing {range : UInt8 × UInt8} {pending : Pending} {bytes : Bytes} (owed : Owed (range :: pending))
    (read : run (range :: pending) bytes = some []) : ∃ b rest, bytes = b :: rest ∧
      (0x80 ≤ b.toNat ∧ b.toNat < 0xC0) ∧ (range.1.toNat ≤ b.toNat ∧ b.toNat ≤ range.2.toNat) ∧
      Owed pending ∧ run pending rest = some [] := by
  cases bytes with
  | nil => cases read
  | cons b rest =>
    obtain ⟨next, stepped, read⟩ := Option.bind_eq_some_iff.mp read
    have left := step_owed owed stepped
    have bounds := owed range (List.mem_cons_self ..)
    simp only [step] at stepped
    split_ifs at stepped with inside
    cases stepped
    simp only [UInt8.le_iff_toNat_le, UInt8.reduceToNat] at inside bounds
    exact ⟨b, rest, rfl, by omega, inside, left, read⟩

theorem encodeChar_ofNat {v : ℕ} (scalar : v.isValidChar) : String.utf8EncodeChar (Char.ofNat v) =
    if v ≤ 0x7F then [UInt8.ofNat v]
    else if v ≤ 0x7FF then [UInt8.ofNat (v / 64 % 32 + 192), UInt8.ofNat (v % 64 + 128)]
    else if v ≤ 0xFFFF then
      [UInt8.ofNat (v / 4096 % 16 + 224), UInt8.ofNat (v / 64 % 64 + 128), UInt8.ofNat (v % 64 + 128)]
    else [UInt8.ofNat (v / 262144 % 8 + 240), UInt8.ofNat (v / 4096 % 64 + 128), UInt8.ofNat (v / 64 % 64 + 128),
      UInt8.ofNat (v % 64 + 128)] := by
  have value : (Char.ofNat v).val.toNat = v := by rw [Char.ofNat, dif_pos scalar]; rfl
  rw [String.utf8EncodeChar, value]

/-- Well-formed octets are those of their characters. -/
theorem encode_decode {bytes : Bytes} (valid : Valid bytes) : encode (decode bytes) = bytes := by
  -- A character takes one to four octets, so the induction is on the length.
  induction size : bytes.length using Nat.strong_induction_on generalizing bytes with
  | _ n ih =>
  have again {rest : Bytes} (valid : Valid rest) (less : rest.length < n) : encode (decode rest) = rest :=
    ih _ less valid rfl
  cases bytes with
  | nil => rfl
  | cons a rest =>
    obtain ⟨pending, read, valid⟩ := Option.bind_eq_some_iff.mp valid
    have owed := lead_owed read
    rw [decode.eq_def]
    simp only [UInt8.lt_iff_toNat_lt, UInt8.reduceToNat, low]
    rcases lead_cases read with ⟨first, rfl⟩ | ⟨first, rfl⟩ | ⟨first, range, rfl, above, below⟩ |
      ⟨first, range, rfl, above, below⟩
    · rw [if_pos first, encode_cons, again valid (by simp only [← size, List.length_cons]; omega),
        encodeChar_ofNat (.inl (by omega)), if_pos (by omega), List.singleton_append, UInt8.ofNat_toNat]
    · obtain ⟨b, rest, rfl, second, -, -, valid⟩ := run_owing owed valid
      simp only []
      rw [if_neg (by omega), if_pos (by omega), encode_cons,
        again valid (by simp only [← size, List.length_cons]; omega), encodeChar_ofNat (.inl (by omega)),
        if_neg (by omega), if_pos (by omega)]
      simp only [List.cons_append, List.nil_append, List.cons.injEq, ← UInt8.toNat_inj, UInt8.toNat_ofNat', and_true]
      omega
    · obtain ⟨b, rest, rfl, second, between, owed, valid⟩ := run_owing owed valid
      obtain ⟨c, rest, rfl, third, -, -, valid⟩ := run_owing owed valid
      simp only []
      rw [if_neg (by omega), if_neg (by omega), if_pos (by omega), encode_cons,
        again valid (by simp only [← size, List.length_cons]; omega),
        encodeChar_ofNat (by rw [Nat.isValidChar]; omega), if_neg (by omega), if_neg (by omega), if_pos (by omega)]
      simp only [List.cons_append, List.nil_append, List.cons.injEq, ← UInt8.toNat_inj, UInt8.toNat_ofNat', and_true]
      omega
    · obtain ⟨b, rest, rfl, second, between, owed, valid⟩ := run_owing owed valid
      obtain ⟨c, rest, rfl, third, -, owed, valid⟩ := run_owing owed valid
      obtain ⟨d, rest, rfl, fourth, -, -, valid⟩ := run_owing owed valid
      simp only []
      rw [if_neg (by omega), if_neg (by omega), if_neg (by omega), encode_cons,
        again valid (by simp only [← size, List.length_cons]; omega),
        encodeChar_ofNat (by rw [Nat.isValidChar]; omega), if_neg (by omega), if_neg (by omega), if_neg (by omega)]
      simp only [List.cons_append, List.nil_append, List.cons.injEq, ← UInt8.toNat_inj, UInt8.toNat_ofNat', and_true]
      omega

theorem encodeChar_ascii {c : Char} (ascii : c.toNat < 0x80) : String.utf8EncodeChar c = [UInt8.ofNat c.toNat] := by
  rw [String.utf8EncodeChar, if_pos (by rw [Char.toNat_val]; omega), Char.toNat_val]

/-- An ASCII octet in the encoding of a character is that character. -/
theorem toNat_of_mem_encodeChar {c : Char} {b : UInt8} (member : b ∈ String.utf8EncodeChar c) (ascii : b.toNat < 0x80) :
    c.toNat = b.toNat := by
  simp only [String.utf8EncodeChar, Char.toNat_val] at member
  split_ifs at member
  all_goals
    simp only [List.mem_cons, List.not_mem_nil, or_false, ← UInt8.toNat_inj, UInt8.toNat_ofNat'] at member
    omega

theorem mem_encode_ascii {cs : List Char} {b : UInt8} (member : b ∈ encode cs) (ascii : b.toNat < 0x80) :
    ∃ c ∈ cs, c.toNat = b.toNat := by
  obtain ⟨c, inside, member⟩ := List.mem_flatMap.mp member
  exact ⟨c, inside, toNat_of_mem_encodeChar member ascii⟩

/-- The octets of ASCII characters are their codes. -/
theorem encode_ascii {cs : List Char} (ascii : ∀ c ∈ cs, c.toNat < 0x80) : encode cs = cs.map (UInt8.ofNat ·.toNat) := by
  induction cs with
  | nil => rfl
  | cons c rest ih =>
    rw [encode_cons, encodeChar_ascii (ascii c (List.mem_cons_self ..)),
      ih fun d member => ascii d (List.mem_cons_of_mem _ member)]
    rfl

end Utf8

/-- `char::is_whitespace`: the Unicode property White_Space. -/
def isWhitespace (c : Char) : Bool :=
  let v := c.toNat
  (0x09 ≤ v && v ≤ 0x0D) || v == 0x20 || v == 0x85 || v == 0xA0 || v == 0x1680 || (0x2000 ≤ v && v ≤ 0x200A) ||
    v == 0x2028 || v == 0x2029 || v == 0x202F || v == 0x205F || v == 0x3000

namespace Str

/-- `str::chars`. -/
def chars (s : Str) : List Char := Utf8.decode s.bytes

/-- A `String` collected from characters. -/
def ofChars (chars : List Char) : Str := ⟨Utf8.encode chars, Utf8.encode_valid chars⟩

@[simp] theorem bytes_ofChars (chars : List Char) : (ofChars chars).bytes = Utf8.encode chars := rfl

@[simp] theorem chars_ofChars (cs : List Char) : (ofChars cs).chars = cs := Utf8.decode_encode cs

@[simp] theorem encode_chars (s : Str) : Utf8.encode s.chars = s.bytes := Utf8.encode_decode s.utf8

@[simp] theorem ofChars_chars (s : Str) : ofChars s.chars = s := Str.ext s.encode_chars

/-- `str::trim`. -/
def trim (s : Str) : Str := ofChars ((s.chars.dropWhile isWhitespace).rdropWhile isWhitespace)

theorem trim_sublist (s : Str) : s.trim.bytes.Sublist s.bytes := by
  have fewer : ((s.chars.dropWhile isWhitespace).rdropWhile isWhitespace).Sublist s.chars :=
    (List.rdropWhile_prefix ..).sublist.trans (List.dropWhile_sublist _)
  rw [← s.encode_chars]
  exact fewer.flatMap _

/-- Nothing at either end is dropped again. -/
theorem trim_trim (s : Str) : s.trim.trim = s.trim := by
  rw [trim, trim, chars_ofChars]
  cases shape : (s.chars.dropWhile isWhitespace).rdropWhile isWhitespace with
  | nil => rfl
  | cons c rest =>
    obtain ⟨back, whole⟩ := List.rdropWhile_prefix isWhitespace (s.chars.dropWhile isWhitespace)
    rw [shape, List.cons_append] at whole
    have first : isWhitespace c = false := by
      have stops := List.head?_dropWhile_not isWhitespace s.chars
      rwa [← whole] at stops
    rw [List.dropWhile_cons_of_neg (by simp [first]), ← shape, List.rdropWhile_idempotent]

/-- `str::contains` of a string. -/
def containsStr (s pattern : Str) : Bool := decide (pattern.bytes <:+: s.bytes)

example : (ofString " \u3000ns.nip.nu\t").trim = ofString "ns.nip.nu" := by decide +kernel

end Str

end Rust
