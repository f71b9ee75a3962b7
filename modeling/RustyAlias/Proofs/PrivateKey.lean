import RustyAlias.Model.PrivateKey
import RustyAlias.Rust.Returns
import RustyAlias.ToMathlib.ListRange

/-! # Hexadecimal key material

`hex_encode` writes two upper-case digits for each octet. `parse_hex_scalar` never stops the thread:
either the text without its whitespace is 64 hexadecimal digits, and the result is the one octet
string that `hex_encode` writes as these digits in upper case, or it is an error.
-/

namespace RustyAlias

open Rust

/-- The digit for a value below 16. -/
def upperDigit (n : ℕ) : Char := charOf (hexAlphabet.getD n 0)

/-- The two digits of an octet. -/
def hexPair (b : UInt8) : List Char := [upperDigit (b.toNat / 16), upperDigit (b.toNat % 16)]

/-- The value of a hexadecimal digit. -/
def digitValue (c : Char) : ℕ := (toDigit 16 (UInt8.ofNat c.toNat)).getD 0

/-- `hex_encode` is total, and writes octet by octet. -/
theorem hexEncode_eq (bytes : Bytes) : hexEncode bytes = .ok (.ofChars (bytes.flatMap hexPair)) := by
  have written (s : List Char) : bytes.foldlM (fun s b => do
      let high ← index hexAlphabet (b.toNat / 16)
      let low ← index hexAlphabet (b.toNat % 16)
      pure (s ++ [charOf high] ++ [charOf low])) s = (.ok (s ++ bytes.flatMap hexPair) : Outcome (List Char)) := by
    induction bytes generalizing s with
    | nil => rw [List.flatMap_nil, List.append_nil]; rfl
    | cons b rest ih =>
      have small := b.toNat_lt
      rw [List.foldlM_cons, index_getD (by simp only [hexAlphabet, List.length_cons, List.length_nil]; omega) 0,
        index_getD (by simp only [hexAlphabet, List.length_cons, List.length_nil]; omega) 0]
      change rest.foldlM _ (s ++ [upperDigit (b.toNat / 16)] ++ [upperDigit (b.toNat % 16)]) = _
      rw [ih, List.flatMap_cons, hexPair, List.append_assoc, List.append_assoc]
      rfl
  rw [hexEncode, written, Outcome.ok_bind, List.nil_append, Outcome.pure_eq_ok]

private theorem hexdigit_table : ∀ n < 128, isHexdigitChar (Char.ofNat n) = true →
    (toDigit 16 (UInt8.ofNat n)).isSome = true ∧ digitValue (Char.ofNat n) < 16 ∧
      upperDigit (digitValue (Char.ofNat n)) = (Char.ofNat n).toUpper := by decide +kernel

/-- A hexadecimal digit is the upper-case digit of its value, up to case. -/
theorem upperDigit_digitValue {c : Char} (digit : isHexdigitChar c = true) :
    digitValue c < 16 ∧ upperDigit (digitValue c) = c.toUpper := by
  have ascii : c.toNat < 128 := by simpa using (Bool.and_eq_true_iff.mp digit).1
  have := hexdigit_table c.toNat ascii
  rw [Char.ofNat_toNat] at this
  exact (this digit).2

private theorem toDigit_digitValue {c : Char} (digit : isHexdigitChar c = true) :
    toDigit 16 (UInt8.ofNat c.toNat) = some (digitValue c) := by
  obtain ⟨v, value⟩ := Option.isSome_iff_exists.mp (Bool.and_eq_true_iff.mp digit).2
  rw [digitValue, value, Option.getD_some]

private theorem upperDigit_table : ∀ n < 16, isHexdigitChar (upperDigit n) = true ∧ digitValue (upperDigit n) = n ∧
    (upperDigit n).toUpper = upperDigit n := by decide +kernel

theorem upperDigit_isHexdigit {n : ℕ} (small : n < 16) : isHexdigitChar (upperDigit n) = true := (upperDigit_table n small).1

@[simp] theorem digitValue_upperDigit {n : ℕ} (small : n < 16) : digitValue (upperDigit n) = n := (upperDigit_table n small).2.1

theorem upperDigit_toUpper {n : ℕ} (small : n < 16) : (upperDigit n).toUpper = upperDigit n := (upperDigit_table n small).2.2

/-- The octet that two digits denote. -/
def pairOctet (x y : Char) : UInt8 := UInt8.ofNat (digitValue x * 16 + digitValue y)

private theorem u8FromStrRadix_pair {x y : Char} (first : isHexdigitChar x = true) (second : isHexdigitChar y = true) :
    u8FromStrRadix [UInt8.ofNat x.toNat, UInt8.ofNat y.toNat] 16 = some (pairOctet x y) := by
  have small := (upperDigit_digitValue first).1
  have small' := (upperDigit_digitValue second).1
  have unsigned : UInt8.ofNat x.toNat ≠ 43 := by
    intro plus
    have := toDigit_digitValue first
    rw [plus] at this
    cases this
  have value : digitsValue 16 [UInt8.ofNat x.toNat, UInt8.ofNat y.toNat] = some (digitValue x * 16 + digitValue y) := by
    simp [digitsValue, toDigit_digitValue first, toDigit_digitValue second]
  simp only [u8FromStrRadix, List.head?_cons, Option.some.injEq, unsigned, if_false, reduceCtorEq, value,
    Option.bind_some]
  rw [if_pos (by omega), pairOctet]

private theorem hexPair_pairOctet {x y : Char} (first : isHexdigitChar x = true) (second : isHexdigitChar y = true) :
    hexPair (pairOctet x y) = [x.toUpper, y.toUpper] := by
  obtain ⟨small, upper⟩ := upperDigit_digitValue first
  obtain ⟨small', upper'⟩ := upperDigit_digitValue second
  have value : (pairOctet x y).toNat = digitValue x * 16 + digitValue y := by
    rw [pairOctet, UInt8.toNat_ofNat', Nat.mod_eq_of_lt (by omega)]
  rw [hexPair, value, show (digitValue x * 16 + digitValue y) / 16 = digitValue x by omega,
    show (digitValue x * 16 + digitValue y) % 16 = digitValue y by omega, upper, upper']

/-- Different octet strings are written differently. -/
theorem hexPairs_injective {a b : Bytes} (same : a.flatMap hexPair = b.flatMap hexPair) : a = b := by
  induction a generalizing b with
  | nil =>
    cases b with
    | nil => rfl
    | cons y rest => cases same
  | cons x rest ih =>
    cases b with
    | nil => cases same
    | cons y rest' =>
      simp only [List.flatMap_cons, hexPair, List.cons_append, List.nil_append, List.cons.injEq] at same
      obtain ⟨high, low, same⟩ := same
      have small := x.toNat_lt
      have small' := y.toNat_lt
      have first := congrArg digitValue high
      have second := congrArg digitValue low
      rw [digitValue_upperDigit (by omega), digitValue_upperDigit (by omega)] at first second
      rw [UInt8.toNat_inj.mp (by omega : x.toNat = y.toNat), ih same]

section Pairs

variable {hex : Str} {cs : List Char}

theorem isHexdigitChar_ascii {c : Char} (digit : isHexdigitChar c = true) : c.toNat < 0x80 := by
  simpa using (Bool.and_eq_true_iff.mp digit).1

/-- The octet that the digits at `i * 2` and `i * 2 + 1` denote. -/
def octetAt (cs : List Char) (i : ℕ) : UInt8 := pairOctet (cs.getD (i * 2) '0') (cs.getD (i * 2 + 1) '0')

private theorem getD_digit (digits : ∀ c ∈ cs, isHexdigitChar c = true) {i : ℕ} (inside : i < cs.length) :
    isHexdigitChar (cs.getD i '0') = true := by
  rw [List.getD_eq_getElem _ _ inside]
  exact digits _ (List.getElem_mem _)

/-- The two digits that the loop reads for octet `i`. -/
theorem slice_pair (digits : ∀ c ∈ cs, isHexdigitChar c = true) {i : ℕ} (inside : i * 2 + 1 < cs.length) :
    ∃ pair : Str, (Str.ofChars cs).slice (i * 2) (i * 2 + 2) = .ok pair ∧
      u8FromStrRadix pair.bytes 16 = some (octetAt cs i) := by
  have octets : (Str.ofChars cs).bytes = cs.map (UInt8.ofNat ·.toNat) :=
    Utf8.encode_ascii fun c member => isHexdigitChar_ascii (digits c member)
  have ascii : ∀ b ∈ (Str.ofChars cs).bytes, b < 0x80 := by
    intro b member
    rw [octets] at member
    obtain ⟨c, inside, rfl⟩ := List.mem_map.mp member
    have := isHexdigitChar_ascii (digits c inside)
    simp only [UInt8.lt_iff_toNat_lt, UInt8.toNat_ofNat', UInt8.reduceToNat]
    omega
  have length : (Str.ofChars cs).len = cs.length := by rw [Str.len, octets, List.length_map]
  obtain ⟨pair, sliced, bytes⟩ := Str.slice_ok (show i * 2 ≤ i * 2 + 2 by omega)
    (Str.isCharBoundary_of_ascii ascii (by omega)) (Str.isCharBoundary_of_ascii ascii (by omega))
  refine ⟨pair, sliced, ?_⟩
  have two : pair.bytes = [UInt8.ofNat (cs.getD (i * 2) '0').toNat, UInt8.ofNat (cs.getD (i * 2 + 1) '0').toNat] := by
    rw [bytes, octets, List.getD_eq_getElem _ _ (show i * 2 < cs.length by omega), List.getD_eq_getElem _ _ inside,
      ← List.map_take, ← List.map_drop, List.drop_take, List.drop_eq_getElem_cons (by omega),
      List.drop_eq_getElem_cons inside, Nat.add_sub_cancel_left]
    rfl
  rw [two, octetAt, u8FromStrRadix_pair (getD_digit digits (by omega)) (getD_digit digits inside)]

/-- The loop fills the places it goes through. -/
theorem parseHexPairs_eq (digits : ∀ c ∈ cs, isHexdigitChar c = true) {is : List ℕ} {out : Bytes}
    (inside : ∀ i ∈ is, i * 2 + 1 < cs.length) (room : ∀ i ∈ is, i < out.length) :
    parseHexPairs (.ofChars cs) is out = .ok (.ok (is.foldl (fun out i => out.set i (octetAt cs i)) out)) := by
  induction is generalizing out with
  | nil => rfl
  | cons i rest ih =>
    obtain ⟨pair, sliced, value⟩ := slice_pair digits (inside i (List.mem_cons_self ..))
    rw [parseHexPairs, sliced, Outcome.ok_bind]
    simp only [value]
    rw [setIndex_ok (room i (List.mem_cons_self ..)), Outcome.ok_bind,
      ih (fun j member => inside j (List.mem_cons_of_mem _ member))
        (fun j member => by rw [List.length_set]; exact room j (List.mem_cons_of_mem _ member)), List.foldl_cons]

end Pairs

/-- The characters of a text without its whitespace. -/
def nonBlank (s : Str) : List Char := s.chars.filter (!isWhitespace ·)

/-- What `parse_hex_scalar` accepts. -/
def IsScalarText (cs : List Char) : Prop := cs.length = 64 ∧ ∀ c ∈ cs, isHexdigitChar c = true

theorem parseHexScalar_of_isScalarText {raw : Str} (text : IsScalarText (nonBlank raw)) : ∃ out,
    parseHexScalar raw = .ok (.ok out) ∧ out.length = 32 ∧
      out.flatMap hexPair = (nonBlank raw).map Char.toUpper := by
  obtain ⟨length, digits⟩ := text
  have octets : (Str.ofChars (nonBlank raw)).len = 64 := by
    rw [Str.len, Str.bytes_ofChars, Utf8.encode_ascii fun c member => isHexdigitChar_ascii (digits c member),
      List.length_map, length]
  refine ⟨(List.range 32).map (octetAt (nonBlank raw)), ?_, by simp, ?_⟩
  · rw [parseHexScalar]
    change (if (Str.ofChars (nonBlank raw)).len ≠ 64 || !(Str.ofChars (nonBlank raw)).chars.all isHexdigitChar then _
      else parseHexPairs (.ofChars (nonBlank raw)) _ _) = _
    rw [if_neg (by simpa [octets] using digits),
      parseHexPairs_eq digits (fun i member => by rw [length]; simp only [List.mem_range] at member; omega)
        (by simp), List.foldl_set_range _ (by simp)]
    simp
  · have pairs : ∀ i ∈ List.range 32, hexPair (octetAt (nonBlank raw) i) =
        [(nonBlank raw).getD (i * 2) '0', (nonBlank raw).getD (i * 2 + 1) '0'].map Char.toUpper := by
      intro i member
      rw [List.mem_range] at member
      exact hexPair_pairOctet (getD_digit digits (by omega)) (getD_digit digits (by omega))
    rw [List.flatMap_map, List.flatMap_congr pairs, ← List.map_flatMap, List.flatMap_range_pairs '0' length]

theorem parseHexScalar_of_not {raw : Str} (other : ¬ IsScalarText (nonBlank raw)) :
    parseHexScalar raw = .ok (.error (.ofString "expected 64 hex characters (32-byte P-256 scalar)")) := by
  rw [parseHexScalar]
  change (if (Str.ofChars (nonBlank raw)).len ≠ 64 || !(Str.ofChars (nonBlank raw)).chars.all isHexdigitChar then _
    else _) = _
  rw [if_pos, Outcome.pure_eq_ok]
  by_contra passes
  simp only [ne_eq, Str.chars_ofChars, Bool.or_eq_true, decide_eq_true_eq, Bool.not_eq_true', not_or, not_not,
    Bool.not_eq_false, List.all_eq_true] at passes
  obtain ⟨octets, digits⟩ := passes
  rw [Str.len, Str.bytes_ofChars, Utf8.encode_ascii fun c member => isHexdigitChar_ascii (digits c member),
    List.length_map] at octets
  exact other ⟨octets, digits⟩

/-- The sum over the RDATA stays in its type as long as the RDATA is short. -/
theorem keyTag_sum {entries : List (UInt8 × ℕ)} {ac : ℕ} (small : ac + entries.length * 65280 < 2 ^ 32) :
    ∃ total, entries.foldlM (fun ac (b, i) => uadd32 ac (if i % 2 = 0 then b.toNat * 256 else b.toNat)) ac =
      .ok total ∧ total ≤ ac + entries.length * 65280 := by
  induction entries generalizing ac with
  | nil => exact ⟨ac, rfl, by simp⟩
  | cons entry rest ih =>
    obtain ⟨b, i⟩ := entry
    have octet := b.toNat_lt
    have addend : (if i % 2 = 0 then b.toNat * 256 else b.toNat) ≤ 65280 := by split <;> omega
    rw [List.length_cons] at small
    obtain ⟨total, summed, bound⟩ := @ih (ac + if i % 2 = 0 then b.toNat * 256 else b.toNat) (by omega)
    refine ⟨total, ?_, by rw [List.length_cons]; omega⟩
    rw [List.foldlM_cons]
    change (uadd32 ac (if i % 2 = 0 then b.toNat * 256 else b.toNat) >>= _) = _
    rw [uadd32, if_pos (by omega), Outcome.ok_bind, summed]

theorem fromSigningKey_returns (signingKey : Crypto) : ∃ key, DnssecKey.fromSigningKey signingKey = .ok key := by
  have length : (be16 dnskeyFlagsCsk ++ [dnskeyProtocol, algEcdsap256sha256] ++ signingKey.publicKey.toList).length = 68 := by
    simp
  obtain ⟨total, summed, bound⟩ := @keyTag_sum
    (be16 dnskeyFlagsCsk ++ [dnskeyProtocol, algEcdsap256sha256] ++ signingKey.publicKey.toList).zipIdx 0
      (by rw [List.length_zipIdx, length]; decide)
  rw [List.length_zipIdx, length] at bound
  have tag : RustyAlias.keyTag (be16 dnskeyFlagsCsk ++ [dnskeyProtocol, algEcdsap256sha256] ++
      signingKey.publicKey.toList) = .ok (UInt16.ofNat (total + total / 65536)) := by
    rw [RustyAlias.keyTag, summed, Outcome.ok_bind, uadd32, if_pos (by omega), Outcome.ok_bind, Outcome.pure_eq_ok]
  exact ⟨_, by rw [DnssecKey.fromSigningKey, tag]; rfl⟩

theorem parseHexScalar_returns (raw : Str) : ∃ result, parseHexScalar raw = .ok result := by
  by_cases scalar : IsScalarText (nonBlank raw)
  · obtain ⟨out, parsed, _⟩ := parseHexScalar_of_isScalarText scalar
    exact ⟨_, parsed⟩
  · exact ⟨_, parseHexScalar_of_not scalar⟩

theorem parseSecret_returns (p256 : P256) (raw : Str) : ∃ secret, DnssecKey.parseSecret p256 raw = .ok secret := by
  rw [DnssecKey.parseSecret]
  split
  · exact ⟨_, rfl⟩
  · obtain ⟨result, parsed⟩ := parseHexScalar_returns raw
    rw [parsed, Outcome.ok_bind]
    cases result with
    | error message => exact ⟨_, rfl⟩
    | ok bytes => exact ⟨_, rfl⟩

/-- Whatever the text, reading it ends in a key or in an error message. -/
theorem fromPrivateKeyStr_returns (p256 : P256) (raw : Str) :
    ∃ result, DnssecKey.fromPrivateKeyStr p256 raw = .ok result := by
  rw [DnssecKey.fromPrivateKeyStr]
  split
  · exact ⟨_, rfl⟩
  · obtain ⟨secret, parsed⟩ := parseSecret_returns p256 (unescaped raw)
    rw [parsed, Outcome.ok_bind]
    cases secret with
    | error message => exact ⟨_, rfl⟩
    | ok secret =>
      obtain ⟨key, made⟩ := fromSigningKey_returns secret
      dsimp only
      rw [made, Outcome.ok_bind]
      exact ⟨_, rfl⟩

end RustyAlias
