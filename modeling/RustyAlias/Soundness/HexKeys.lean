import RustyAlias.Proofs.PrivateKey

/-! # Hexadecimal keys survive transport

A key is copied between nameservers as text. On its way the digits may change case, and whitespace
and escaped newlines may come between them; every nameserver that reads the text still signs with
the same scalar.
-/

namespace RustyAlias

open Rust

/-- The second text has the digits of the first, in order and up to case, with whitespace characters
and escaped newlines around and between them. -/
inductive Decorates : List Char → List Char → Prop
  | nil : Decorates [] []
  | digit {c d : Char} {ds cs : List Char} (same : c.toUpper = d.toUpper) (rest : Decorates ds cs) :
      Decorates (d :: ds) (c :: cs)
  | blank {c : Char} {ds cs : List Char} (space : isWhitespace c = true) (rest : Decorates ds cs) :
      Decorates ds (c :: cs)
  | escape {ds cs : List Char} (rest : Decorates ds cs) : Decorates ds ('\\' :: 'n' :: cs)

section Digits

private theorem upper_table : ∀ n < 128, isHexdigitChar (Char.ofNat n).toUpper = isHexdigitChar (Char.ofNat n) ∧
    (isHexdigitChar (Char.ofNat n) = true → isWhitespace (Char.ofNat n) = false ∧
      (Char.ofNat n).toLower.toUpper = (Char.ofNat n).toUpper) := by decide +kernel

private theorem isHexdigitChar_toUpper (c : Char) : isHexdigitChar c.toUpper = isHexdigitChar c := by
  by_cases ascii : c.toNat < 128
  · have := (upper_table c.toNat ascii).1
    rwa [Char.ofNat_toNat] at this
  · have same : c.toUpper = c := by
      rw [Char.toUpper, dif_neg]
      intro lower
      have := UInt32.le_iff_toNat_le.mp lower.2
      simp only [Char.toNat_val, Char.reduceToNat] at this
      omega
    rw [same]

theorem not_isWhitespace_of_digit {c : Char} (digit : isHexdigitChar c = true) : isWhitespace c = false := by
  have := (upper_table c.toNat (isHexdigitChar_ascii digit)).2
  rw [Char.ofNat_toNat] at this
  exact (this digit).1

private theorem toUpper_toLower_of_digit {c : Char} (digit : isHexdigitChar c = true) : c.toLower.toUpper = c.toUpper := by
  have := (upper_table c.toNat (isHexdigitChar_ascii digit)).2
  rw [Char.ofNat_toNat] at this
  exact (this digit).2

private theorem isHexdigitChar_of_toUpper_eq {c d : Char} (same : c.toUpper = d.toUpper) (digit : isHexdigitChar d = true) :
    isHexdigitChar c = true := by
  rw [← isHexdigitChar_toUpper, same, isHexdigitChar_toUpper, digit]

end Digits

namespace Decorates

variable {ds cs : List Char}

/-- Whitespace in front of the text may go. -/
theorem dropWhile (text : Decorates ds cs) (digits : ∀ d ∈ ds, isHexdigitChar d = true) :
    Decorates ds (cs.dropWhile isWhitespace) := by
  induction text with
  | nil => exact .nil
  | digit same rest ih =>
    have digit := isHexdigitChar_of_toUpper_eq same (digits _ (List.mem_cons_self ..))
    rw [List.dropWhile_cons_of_neg (by rw [not_isWhitespace_of_digit digit]; simp)]
    exact .digit same rest
  | blank space rest ih =>
    rw [List.dropWhile_cons_of_pos space]
    exact ih digits
  | escape rest ih =>
    rw [List.dropWhile_cons_of_neg (by decide)]
    exact .escape rest

/-- Whitespace behind the text may go. -/
theorem of_append {front back : List Char} (text : Decorates ds (front ++ back))
    (digits : ∀ d ∈ ds, isHexdigitChar d = true) (blanks : ∀ c ∈ back, isWhitespace c = true) :
    Decorates ds front := by
  generalize whole : front ++ back = cs at text
  induction text generalizing front back with
  | nil =>
    rw [(List.append_eq_nil_iff.mp whole).1]
    exact .nil
  | @digit c d ds cs same rest ih =>
    have digit := isHexdigitChar_of_toUpper_eq same (digits _ (List.mem_cons_self ..))
    cases front with
    | nil =>
      have space := blanks c (by rw [show back = c :: cs from whole]; exact List.mem_cons_self ..)
      rw [not_isWhitespace_of_digit digit] at space
      cases space
    | cons x front =>
      obtain ⟨rfl, behind⟩ := List.cons.inj whole
      exact .digit same (ih (fun e member => digits e (List.mem_cons_of_mem _ member)) blanks behind)
  | @blank c ds cs space rest ih =>
    cases front with
    | nil =>
      rw [show back = c :: cs from whole] at blanks
      exact ih digits (fun e member => blanks e (List.mem_cons_of_mem _ member)) rfl
    | cons x front =>
      obtain ⟨rfl, behind⟩ := List.cons.inj whole
      exact .blank space (ih digits blanks behind)
  | @escape ds cs rest ih =>
    rcases front with _ | ⟨x, _ | ⟨y, front⟩⟩
    · have space := blanks '\\' (by rw [show back = _ from whole]; exact List.mem_cons_self ..)
      cases space
    · have space := blanks 'n' (by rw [show back = _ from (List.cons.inj whole).2]; exact List.mem_cons_self ..)
      cases space
    · simp only [List.cons_append, List.cons.injEq] at whole
      obtain ⟨rfl, rfl, behind⟩ := whole
      exact .escape (ih digits blanks behind)

theorem trim {raw : Str} (text : Decorates ds raw.chars) (digits : ∀ d ∈ ds, isHexdigitChar d = true) :
    Decorates ds raw.trim.chars := by
  rw [Str.trim, Str.chars_ofChars]
  have front := text.dropWhile digits
  rw [← List.rdropWhile_append_rtakeWhile (p := isWhitespace) (l := raw.chars.dropWhile isWhitespace)] at front
  exact front.of_append digits fun c member => List.mem_rtakeWhile_imp member

end Decorates

/-- Octets other than the first of the pattern are copied. -/
theorem replaceBytes_append {p : UInt8} {ps image front : Bytes} (other : ∀ b ∈ front, b ≠ p) (rest : Bytes) :
    Str.replaceBytes p ps image (front ++ rest) = front ++ Str.replaceBytes p ps image rest := by
  induction front with
  | nil => rfl
  | cons b front ih =>
    rw [List.cons_append, Str.replaceBytes, if_neg (fun found => other b (List.mem_cons_self ..) found.1),
      ih fun c member => other c (List.mem_cons_of_mem _ member)]
    rfl

private theorem encodeChar_ne_backslash {c : Char} (other : c ≠ '\\') : ∀ b ∈ String.utf8EncodeChar c, b ≠ backslash.1 := by
  rintro b member rfl
  have value := Utf8.toNat_of_mem_encodeChar member (by decide)
  exact other (Char.toNat_inj.mp value)

namespace Decorates

variable {ds cs : List Char}

/-- Behind the replacement of the escapes there are digits and whitespace, and the digits are those
that were decorated. -/
theorem unescape (text : Decorates ds cs) (digits : ∀ d ∈ ds, isHexdigitChar d = true) : ∃ plain,
    Str.replaceBytes backslash.1 ([letterN].map (·.1)) (Str.ofString "\n").bytes (Utf8.encode cs) = Utf8.encode plain ∧
      (∀ c ∈ plain, isHexdigitChar c = true ∨ isWhitespace c = true) ∧
      (plain.filter (!isWhitespace ·)).map Char.toUpper = ds.map Char.toUpper := by
  induction text with
  | nil => exact ⟨[], by rw [Utf8.encode_nil, Str.replaceBytes], by simp, rfl⟩
  | @digit c d ds cs same rest ih =>
    obtain ⟨plain, replaced, kinds, kept⟩ := ih fun e member => digits e (List.mem_cons_of_mem _ member)
    have digit := isHexdigitChar_of_toUpper_eq same (digits _ (List.mem_cons_self ..))
    have other : c ≠ '\\' := by rintro rfl; cases digit
    refine ⟨c :: plain, ?_, ?_, ?_⟩
    · rw [Utf8.encode_cons, replaceBytes_append (encodeChar_ne_backslash other), replaced, Utf8.encode_cons]
    · exact List.forall_mem_cons.mpr ⟨.inl digit, kinds⟩
    · rw [List.filter_cons_of_pos (by rw [not_isWhitespace_of_digit digit]; rfl), List.map_cons, kept, List.map_cons, same]
  | @blank c ds cs space rest ih =>
    obtain ⟨plain, replaced, kinds, kept⟩ := ih digits
    have other : c ≠ '\\' := by rintro rfl; cases space
    refine ⟨c :: plain, ?_, ?_, ?_⟩
    · rw [Utf8.encode_cons, replaceBytes_append (encodeChar_ne_backslash other), replaced, Utf8.encode_cons]
    · exact List.forall_mem_cons.mpr ⟨.inr space, kinds⟩
    · rw [List.filter_cons_of_neg (by rw [space]; simp), kept]
  | @escape ds cs rest ih =>
    obtain ⟨plain, replaced, kinds, kept⟩ := ih digits
    refine ⟨'\n' :: plain, ?_, ?_, ?_⟩
    · rw [Utf8.encode_cons, Utf8.encode_cons, Utf8.encode_cons]
      change Str.replaceBytes backslash.1 [letterN.1] _ (backslash.1 :: letterN.1 :: Utf8.encode cs) = 10 :: Utf8.encode plain
      rw [Str.replaceBytes, if_pos ⟨rfl, by simp⟩, ← replaced]
      rfl
    · exact List.forall_mem_cons.mpr ⟨.inr rfl, kinds⟩
    · rw [List.filter_cons_of_neg (by decide), kept]

end Decorates

theorem mem_hexPairs {bytes : Bytes} {c : Char} (member : c ∈ bytes.flatMap hexPair) :
    isHexdigitChar c = true ∧ c.toUpper = c := by
  obtain ⟨b, _, member⟩ := List.mem_flatMap.mp member
  have small := b.toNat_lt
  rcases List.mem_pair.mp member with rfl | rfl
  · exact ⟨upperDigit_isHexdigit (by omega), upperDigit_toUpper (by omega)⟩
  · exact ⟨upperDigit_isHexdigit (by omega), upperDigit_toUpper (by omega)⟩

/-- The text that reaches the hexadecimal branch. -/
theorem unescaped_decorated {b : Bytes} (size : b.length = 32) {raw : Str}
    (text : Decorates (b.flatMap hexPair) raw.chars) :
    IsScalarText (nonBlank (unescaped raw)) ∧ (nonBlank (unescaped raw)).map Char.toUpper = b.flatMap hexPair ∧
      ∀ c ∈ (unescaped raw).chars, isHexdigitChar c = true ∨ isWhitespace c = true := by
  have digits : ∀ d ∈ b.flatMap hexPair, isHexdigitChar d = true := fun d member => (mem_hexPairs member).1
  obtain ⟨plain, replaced, kinds, kept⟩ := (text.trim digits).unescape digits
  have chars : (unescaped raw).chars = plain := by
    rw [Str.encode_chars] at replaced
    rw [Str.chars]
    change Utf8.decode (Str.replaceBytes _ _ _ raw.trim.bytes) = plain
    rw [replaced, Utf8.decode_encode]
  have upper : (b.flatMap hexPair).map Char.toUpper = b.flatMap hexPair :=
    (List.map_congr_left fun c member => (mem_hexPairs member).2).trans (List.map_id _)
  rw [upper] at kept
  rw [nonBlank, chars]
  refine ⟨⟨?_, ?_⟩, kept, kinds⟩
  · have length := congrArg List.length kept
    rw [List.length_map] at length
    rw [length, List.length_flatMap]
    simp [hexPair, size]
  · intro c member
    obtain ⟨inside, visible⟩ := List.mem_filter.mp member
    rcases kinds c inside with digit | space
    · exact digit
    · rw [space] at visible; cases visible

/-- A text with digits is not empty. -/
theorem IsScalarText.isEmpty_eq_false {s : Str} (scalar : IsScalarText (nonBlank s)) : s.isEmpty = false := by
  by_contra empty
  rw [Bool.not_eq_false, Str.isEmpty, List.isEmpty_iff] at empty
  have length := scalar.1
  rw [nonBlank, Str.chars, empty] at length
  cases length

/-- No digit and no whitespace spells a PEM label. -/
theorem not_contains_begin {s : Str} (kinds : ∀ c ∈ s.chars, isHexdigitChar c = true ∨ isWhitespace c = true) :
    s.containsStr (.ofString "BEGIN") = false := by
  rw [Str.containsStr, decide_eq_false_iff_not]
  intro found
  have member : (71 : UInt8) ∈ s.bytes := found.subset (by decide)
  rw [← Str.encode_chars] at member
  obtain ⟨c, inside, value⟩ := Utf8.mem_encode_ascii member (by decide)
  have same : c = 'G' := Char.toNat_inj.mp value
  subst same
  rcases kinds _ inside with digit | space
  · cases digit
  · cases space

/-- Every text that decorates the digits of a scalar yields this scalar, and only 64 digits, up to
whitespace, are read as one. -/
theorem hexKeys_survive :
    (∀ b : Bytes, b.length = 32 → ∃ text, hexEncode b = .ok text ∧ ∀ raw : Str, Decorates text.chars raw.chars →
      parseHexScalar (unescaped raw) = .ok (.ok b) ∧
      ∀ p256, DnssecKey.fromPrivateKeyStr p256 raw =
        (p256.fromSlice b).elim (.ok (.error (.ofString "DNSSEC_PRIVATE_KEY hex is not a valid P-256 scalar")))
          fun secret => .ok <$> DnssecKey.fromSigningKey secret) ∧
    ∀ raw : Str, ∃ result, parseHexScalar raw = .ok result ∧ ∀ out, result = .ok out →
      IsScalarText (nonBlank raw) ∧ out.length = 32 ∧
        hexEncode out = .ok (.ofChars ((nonBlank raw).map Char.toUpper)) := by
  constructor
  · intro b size
    refine ⟨_, hexEncode_eq b, ?_⟩
    intro raw text
    rw [Str.chars_ofChars] at text
    obtain ⟨scalar, upper, kinds⟩ := unescaped_decorated size text
    obtain ⟨out, parsed, -, written⟩ := parseHexScalar_of_isScalarText scalar
    rw [upper] at written
    rw [hexPairs_injective written] at parsed
    refine ⟨parsed, ?_⟩
    intro p256
    rw [DnssecKey.fromPrivateKeyStr, DnssecKey.parseSecret]
    simp only [scalar.isEmpty_eq_false, not_contains_begin kinds, parsed, Bool.false_eq_true, if_false,
      Outcome.pure_eq_ok, Outcome.ok_bind]
    cases p256.fromSlice b with
    | none => rw [Option.elim_none, Option.elim_none]
    | some secret =>
      rw [Option.elim_some, Option.elim_some]
      dsimp only
      cases DnssecKey.fromSigningKey secret with
      | error stopped => rfl
      | ok key => rfl
  · intro raw
    by_cases scalar : IsScalarText (nonBlank raw)
    · obtain ⟨out, parsed, size, written⟩ := parseHexScalar_of_isScalarText scalar
      refine ⟨_, parsed, ?_⟩
      rintro _ ⟨⟩
      exact ⟨scalar, size, by rw [hexEncode_eq, written]⟩
    · refine ⟨_, parseHexScalar_of_not scalar, ?_⟩
      rintro _ ⟨⟩

theorem Decorates.append {ds ds' cs cs' : List Char} (first : Decorates ds cs) (second : Decorates ds' cs') :
    Decorates (ds ++ ds') (cs ++ cs') := by
  induction first with
  | nil => exact second
  | digit same rest ih => exact .digit same ih
  | blank space rest ih => exact .blank space ih
  | escape rest ih => exact .escape ih

/-- The digits in lower case. -/
theorem Decorates.lower {ds : List Char} (digits : ∀ d ∈ ds, isHexdigitChar d = true) :
    Decorates ds (ds.map Char.toLower) := by
  induction ds with
  | nil => exact .nil
  | cons d ds ih =>
    have first := toUpper_toLower_of_digit (digits d (List.mem_cons_self ..))
    exact .digit first (ih fun e member => digits e (List.mem_cons_of_mem _ member))

def sampleScalar : Bytes := List.replicate 32 0xAB

/-- Its digits in lower case, behind an ideographic space and before an escaped newline. -/
def sampleKeyText : Str := .ofChars (['\u3000'] ++ (sampleScalar.flatMap hexPair).map Char.toLower ++ ['\\', 'n'])

theorem sampleKey_survives : parseHexScalar (unescaped sampleKeyText) = .ok (.ok sampleScalar) := by
  obtain ⟨text, written, yields⟩ := hexKeys_survive.1 sampleScalar rfl
  rw [hexEncode_eq] at written
  obtain rfl := Except.ok.inj written
  refine (yields sampleKeyText ?_).1
  have digits := @Decorates.lower (sampleScalar.flatMap hexPair) fun d member => (mem_hexPairs member).1
  rw [sampleKeyText, Str.chars_ofChars, Str.chars_ofChars]
  have whole := digits.append (.escape .nil)
  rw [List.append_nil] at whole
  exact .blank rfl whole

end RustyAlias
