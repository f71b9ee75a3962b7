import RustyAlias.Proofs.Reply

/-! # The name in a question

`parse_query` reads length octets as plain lengths, up to a zero octet or the end of the message, and
knows neither compression pointers nor the length limits of names. For labels without dots and zero
octets, what it reads, what `encode_domain_name` writes and what the walks over wire names make of the
same labels agree.
-/

namespace RustyAlias

open Rust Rust.Outcome Dns

/-- A message with one question announced and these labels behind its header. -/
def Asks (query : Bytes) (labels : Name) (left : Bytes) : Prop :=
  ∃ header : Header, header.qdcount = 1 ∧ query = header.encode ++ (encodeLabels labels ++ left)

/-- The name is the text of one or more labels up to a zero octet or the end of the message. -/
def QuestionName (query : Bytes) (domain : Str) : Prop :=
  ∃ labels left, Asks query labels left ∧ labels ≠ [] ∧ (∀ label ∈ labels, Readable label) ∧ Stops left ∧
    domain.bytes = text labels

/-- The name is the text of a complete name of RFC 1035, which is not the root. -/
def CompleteName (query : Bytes) (domain : Str) : Prop :=
  ∃ labels left, Asks query labels (0 :: left) ∧ labels ≠ [] ∧ Legal labels ∧ (∀ label ∈ labels, Utf8.Valid label) ∧
    domain.bytes = text labels

theorem Asks.drop {query left : Bytes} {labels : Name} (asks : Asks query labels left) :
    query.drop 12 = encodeLabels labels ++ left := by
  obtain ⟨header, _, rfl⟩ := asks
  rw [← header.encode_length, List.drop_left]

theorem Asks.parsedLabels {query left : Bytes} {labels : Name} (asks : Asks query labels left) (nonroot : labels ≠ [])
    (readable : ∀ label ∈ labels, Readable label) (stops : Stops left) : parsedLabels? query = some labels := by
  have behind := asks.drop
  obtain ⟨header, single, rfl⟩ := asks
  have count := congrArg Header.qdcount (queryHeader_encode header (encodeLabels labels ++ left))
  have long : ¬ (header.encode ++ (encodeLabels labels ++ left)).length < 12 := by
    rw [List.length_append, header.encode_length]
    omega
  change fromBe16 _ _ = header.qdcount at count
  rw [parsedLabels?, if_neg (not_or.mpr ⟨long, not_not.mpr (count.trans single)⟩), behind,
    walkLabels?_encode readable stops]
  simp [nonroot]

/-- Four octets behind the root end the question section, when no label holds a zero octet. -/
theorem Asks.split {query trailing : Bytes} {labels : Name} (asks : Asks query labels (0 :: trailing))
    (octets : ∀ label ∈ labels, 1 ≤ label.length ∧ label.length ≤ 255) (zeroless : ∀ label ∈ labels, 0 ∉ label)
    (room : 4 ≤ trailing.length) : ∃ split : Split, query = split.query ∧ split.qname = encodeLabels labels := by
  obtain ⟨header, _, rfl⟩ := asks
  obtain ⟨t0, t1, c0, c1, rest, rfl⟩ : ∃ t0 t1 c0 c1 rest, trailing = t0 :: t1 :: c0 :: c1 :: rest := by
    match trailing, room with
    | t0 :: t1 :: c0 :: c1 :: rest, _ => exact ⟨t0, t1, c0, c1, rest, rfl⟩
  have clean := zero_notMem_encodeLabels octets zeroless
  refine ⟨⟨header.encode, encodeLabels labels, fromBe16 t0 t1, fromBe16 c0 c1, rest, header.encode_length, ?_⟩, ?_, rfl⟩
  · rintro b member rfl
    exact clean member
  · simp [Split.query, Split.question, be16_fromBe16]

/-- A query is accepted with the text of its labels. -/
theorem Asks.parsed {query : Slice} {labels : Name} {left : Bytes} (asks : Asks query.data labels left)
    (nonroot : labels ≠ []) (readable : ∀ label ∈ labels, Readable label) (stops : Stops left) :
    ∃ domain : Str, domain.bytes = text labels ∧ parseQuery query = .ok (some domain) := by
  have read := asks.parsedLabels nonroot readable stops
  rcases parseQuery_eq query with ⟨none, _⟩ | ⟨others, domain, read', spelled, parsed⟩
  · rw [read] at none
    cases none
  · obtain rfl : labels = others := by simpa [read] using read'
    exact ⟨domain, spelled, parsed⟩

private theorem questionName_of_parseQuery {query : Slice} {domain : Str} (parsed : parseQuery query = .ok (some domain)) :
    QuestionName query.data domain := by
  obtain ⟨long, labels, left, read, walked, nonroot, spelled, _⟩ := parseQuery_walk parsed
  obtain ⟨shape, readable, stops⟩ := encode_of_walkLabels? walked
  have single : (queryHeader query.data).qdcount = 1 := by
    rw [parsedLabels?] at read
    split at read
    · cases read
    · next accepted => exact not_not.mp (not_or.mp accepted).2
  exact ⟨labels, left, ⟨queryHeader query.data, single, shape ▸ encode_queryHeader long⟩, nonroot, readable, stops, spelled⟩

/-- The names that `parse_query` accepts, and what it makes of them. -/
theorem parseQuery_eq_some_iff (query : Slice) :
    (∀ domain, parseQuery query = .ok (some domain) ↔ QuestionName query.data domain) ∧
      ((∀ domain, ¬ QuestionName query.data domain) → parseQuery query = .ok none) := by
  constructor
  · intro domain
    constructor
    · exact questionName_of_parseQuery
    · rintro ⟨labels, left, asks, nonroot, readable, stops, spelled⟩
      obtain ⟨other, spelled', parsed⟩ := asks.parsed nonroot readable stops
      obtain rfl : other = domain := Str.ext (spelled'.trans spelled.symm)
      exact parsed
  · intro unnamed
    rcases parseQuery_eq query with ⟨_, none⟩ | ⟨_, domain, _, _, parsed⟩
    · exact none
    · exact absurd (questionName_of_parseQuery parsed) (unnamed domain)

/-- Labels that break a limit, or no zero octet behind them, are not a complete name. -/
theorem Asks.incomplete {query left : Bytes} {labels : Name} (asks : Asks query labels left)
    (readable : ∀ label ∈ labels, Readable label) (stops : Stops left) (broken : Legal labels → left = []) (domain : Str) :
    ¬ CompleteName query domain := by
  rintro ⟨others, rest, asks', _, legal, utf8, _⟩
  have readable' : ∀ label ∈ others, Readable label := fun label member =>
    have ⟨low, high⟩ := legal.labels label member
    ⟨low, by omega, utf8 label member⟩
  have walked := walkLabels?_encode readable stops
  rw [← asks.drop, asks'.drop, walkLabels?_encode readable' (.inr rfl)] at walked
  obtain ⟨rfl, rfl⟩ : others = labels ∧ 0 :: rest = left := by simpa using walked
  cases broken legal

def questionHeader : Header := ⟨7, 1, 0, 1, 0, 0, 0⟩

/-- One label of 64 octets. -/
def longLabelQuery : Slice := ⟨questionHeader.encode ++ (encodeLabels [List.replicate 64 97] ++ [0]), by decide⟩

/-- Five labels of 63 octets. -/
def longNameQuery : Slice := ⟨questionHeader.encode ++ (encodeLabels (List.replicate 5 (List.replicate 63 97)) ++ [0]), by decide +kernel⟩

/-- A label at the end of the message. -/
def openNameQuery : Slice := ⟨questionHeader.encode ++ (encodeLabels [[97]] ++ []), by decide⟩

/-- A label that is too long, a name that is too long, and a name without its zero octet are all accepted. -/
theorem incompleteNames_accepted :
    (∃ domain, parseQuery longLabelQuery = .ok (some domain) ∧ ¬ CompleteName longLabelQuery.data domain) ∧
      (∃ domain, parseQuery longNameQuery = .ok (some domain) ∧ ¬ CompleteName longNameQuery.data domain) ∧
      ∃ domain, parseQuery openNameQuery = .ok (some domain) ∧ ¬ CompleteName openNameQuery.data domain := by
  have accepted {query : Slice} {labels : Name} {left : Bytes} (shape : query.data = questionHeader.encode ++ (encodeLabels labels ++ left))
      (nonroot : labels ≠ []) (readable : ∀ label ∈ labels, Readable label) (stops : Stops left) (broken : Legal labels → left = []) :
      ∃ domain, parseQuery query = .ok (some domain) ∧ ¬ CompleteName query.data domain := by
    have asks : Asks query.data labels left := ⟨questionHeader, rfl, shape⟩
    obtain ⟨domain, _, parsed⟩ := asks.parsed nonroot readable stops
    exact ⟨domain, parsed, asks.incomplete readable stops broken domain⟩
  have ascii (n : ℕ) : Utf8.Valid (List.replicate n 97) := Utf8.valid_ascii fun b member => by
    rw [List.eq_of_mem_replicate member]
    decide
  refine ⟨accepted rfl (by simp) ?_ (.inr rfl) ?_, accepted rfl (by simp) ?_ (.inr rfl) ?_, accepted rfl (by simp) ?_ (.inl rfl) fun _ => rfl⟩
  · intro label member
    rw [List.mem_singleton.mp member]
    exact ⟨by simp, by simp, ascii 64⟩
  · intro legal
    exact absurd (legal.labels _ (List.mem_singleton_self _)).2 (by simp)
  · intro label member
    rw [List.eq_of_mem_replicate member]
    exact ⟨by simp, by simp, ascii 63⟩
  · intro legal
    exact absurd legal.total (by decide +kernel)
  · intro label member
    rw [List.mem_singleton.mp member]
    exact ⟨by simp, by simp, ascii 1⟩

section Forms

/-- A label whose text form and wire form are read back whole. -/
structure TextLabel (label : Label) : Prop extends Readable label where
  dotless : 46 ∉ label
  zeroless : 0 ∉ label

variable {labels : Name} (plain : ∀ label ∈ labels, TextLabel label)
include plain

private theorem fold_textLabel : ∀ label ∈ fold labels, TextLabel label := by
  intro label member
  obtain ⟨source, present, rfl⟩ := List.mem_map.mp member
  have text := plain source present
  refine ⟨⟨?_, ?_, (Utf8.valid_lowerAll source).mpr text.utf8⟩, ?_, ?_⟩
  · rw [lowerAll_length]
    exact text.nonempty
  · rw [lowerAll_length]
    exact text.length_le
  · rw [mem_lowerAll_dot]
    exact text.dotless
  · intro zero
    obtain ⟨b, member, low⟩ := List.mem_map.mp zero
    rw [toLower_eq_iff (by decide)] at low
    exact text.zeroless (low ▸ member)

/-- The text of the labels, with any number of dots behind it, is encoded as their folded wire form. -/
theorem encodeDomainName_text {name : Str} {n : ℕ} (spelled : name.bytes = text labels ++ List.replicate n 46) :
    encodeDomainName name = wire (fold labels) := by
  have nonempty : ∀ label ∈ labels, label ≠ [] := by
    rintro label member rfl
    exact absurd (plain _ member).nonempty (by simp)
  rw [encodeDomainName_eq, hostLabels_text nonempty (fun label member => (plain label member).dotless) spelled]

end Forms

/-- Parsing, encoding, lowering and counting agree on labels without dots and zero octets, and so do the two ways to the
canonical owner of a question. -/
theorem nameForms_agree {labels : Name} (nonroot : labels ≠ []) (plain : ∀ label ∈ labels, TextLabel label) {query : Slice}
    {trailing : Bytes} (asks : Asks query.data labels (0 :: trailing)) :
    ∃ domain : Str, domain.bytes = text labels ∧ parseQuery query = .ok (some domain) ∧
      (∀ (name : Str) (n : ℕ), name.bytes = domain.bytes ++ List.replicate n 46 → encodeDomainName name = wire (fold labels)) ∧
      lowercaseWireName (wire labels) = .ok (wire (fold labels)) ∧
      (∀ (again : Slice) (after : Bytes), Asks again.data (fold labels) (0 :: after) →
        parseQuery again = .ok (some domain.toAsciiLowercase)) ∧
      labelCount (wire (fold labels)) = .ok (UInt8.ofNat (min labels.length 255)) ∧
      (4 ≤ trailing.length → ownerCanonicalWire query true none = .ok (wire (fold labels)) ∧
        ownerCanonicalWire query false (some domain) = .ok (wire (fold labels))) := by
  have readable : ∀ label ∈ labels, Readable label := fun label member => (plain label member).toReadable
  have octets := octets_of_readable readable
  have small : (wire labels).length ≤ isizeMax := by
    have behind := congrArg List.length asks.drop
    have bound := query.length_le
    simp only [List.length_drop, List.length_append, List.length_cons] at behind
    rw [wire, List.length_append, List.length_singleton]
    omega
  obtain ⟨domain, spelled, parsed⟩ := asks.parsed nonroot readable (.inr rfl)
  have lower := lowercaseWireName_wire octets small
  refine ⟨domain, spelled, parsed, ?_, lower, ?_, ?_, ?_⟩
  · intro name n dotted
    exact encodeDomainName_text plain (spelled ▸ dotted)
  · intro again after asks'
    obtain ⟨other, spelled', parsed'⟩ := asks'.parsed (by simpa [fold] using nonroot)
      (fun label member => (fold_textLabel plain label member).toReadable) (.inr rfl)
    have same : other = domain.toAsciiLowercase := Str.ext (by
      change other.bytes = lowerAll domain.bytes
      rw [spelled', spelled, lowerAll_text])
    rw [parsed', same]
  · have bound : (wire (fold labels)).length ≤ 2 ^ 63 + 1 := by
      rw [wire_fold_length]
      unfold isizeMax at small
      omega
    rw [labelCount_wire (octets_fold octets) bound, fold, List.length_map]
  · intro room
    obtain ⟨split, parts, qname⟩ := asks.split octets (fun label member => (plain label member).zeroless) room
    have dotted : domain.bytes = text labels ++ List.replicate 0 46 := spelled.trans (List.append_nil _).symm
    refine ⟨?_, congrArg Except.ok (encodeDomainName_text plain dotted)⟩
    rw [ownerCanonicalWire_question parts, qname]
    change Except.ok (lowercaseWireName (wire labels)).value = _
    rw [lower, value_ok]

/-- The labels `A` and `nu`. -/
def twoLabelQuery : Slice := ⟨questionHeader.encode ++ (encodeLabels [[65], [110, 117]] ++ 0 :: [0, 1, 0, 1]), by decide⟩

theorem twoLabelQuery_agrees :
    ∃ domain : Str, domain.bytes = text [[65], [110, 117]] ∧ parseQuery twoLabelQuery = .ok (some domain) ∧
      (∀ (name : Str) (n : ℕ), name.bytes = domain.bytes ++ List.replicate n 46 →
        encodeDomainName name = wire (fold [[65], [110, 117]])) ∧
      lowercaseWireName (wire [[65], [110, 117]]) = .ok (wire (fold [[65], [110, 117]])) ∧
      (∀ (again : Slice) (after : Bytes), Asks again.data (fold [[65], [110, 117]]) (0 :: after) →
        parseQuery again = .ok (some domain.toAsciiLowercase)) ∧
      labelCount (wire (fold [[65], [110, 117]])) = .ok (UInt8.ofNat (min 2 255)) ∧
      (4 ≤ [0, 1, 0, 1].length → ownerCanonicalWire twoLabelQuery true none = .ok (wire (fold [[65], [110, 117]])) ∧
        ownerCanonicalWire twoLabelQuery false (some domain) = .ok (wire (fold [[65], [110, 117]]))) := by
  have asks : Asks twoLabelQuery.data [[65], [110, 117]] (0 :: [0, 1, 0, 1]) := ⟨questionHeader, rfl, rfl⟩
  have nonroot : ([[65], [110, 117]] : Name) ≠ [] := by decide
  have plain : ∀ label ∈ ([[65], [110, 117]] : Name), TextLabel label := by
    intro label member
    have each : 1 ≤ label.length ∧ label.length ≤ 255 ∧ Utf8.Valid label ∧ 46 ∉ label ∧ 0 ∉ label := by
      revert label
      decide
    exact ⟨⟨each.1, each.2.1, each.2.2.1⟩, each.2.2.2.1, each.2.2.2.2⟩
  exact nameForms_agree nonroot plain asks

end RustyAlias
