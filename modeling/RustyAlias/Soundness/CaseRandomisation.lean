import RustyAlias.Proofs.Folding
import RustyAlias.Proofs.StandardQuery

/-! # Case randomisation

Resolvers write the letters of a QNAME in random case and expect to see their spelling echoed. Two
queries that differ in nothing else get responses that differ in nothing but the echo.
-/

namespace RustyAlias

open Rust Rust.Outcome Dns

/-- The queries differ in the case of letters inside labels without zero octets, and nowhere else. -/
def Recased (query query' : Bytes) : Prop :=
  ∃ header labels labels' rest, header.length = 12 ∧
    (∀ label ∈ labels, 1 ≤ label.length ∧ label.length ≤ 255 ∧ 0 ∉ label) ∧ fold labels = fold labels' ∧
    query = header ++ (encodeLabels labels ++ rest) ∧ query' = header ++ (encodeLabels labels' ++ rest)

section Labels

private theorem encodeLabels_length_of_fold {labels labels' : Name} (same : fold labels = fold labels') :
    (encodeLabels labels).length = (encodeLabels labels').length := by
  rw [← encodeLabels_fold_length, same, encodeLabels_fold_length]

/-- Both walks fail, or both pass over their labels and go on alike. -/
theorem walkLabels?_recased {labels labels' : Name} (octets : ∀ label ∈ labels, 1 ≤ label.length ∧ label.length ≤ 255)
    (same : fold labels = fold labels') (rest : Bytes) :
    walkLabels? (encodeLabels labels ++ rest) = none ∧ walkLabels? (encodeLabels labels' ++ rest) = none ∨
      ∃ tail left, walkLabels? (encodeLabels labels ++ rest) = some (labels ++ tail, left) ∧
        walkLabels? (encodeLabels labels' ++ rest) = some (labels' ++ tail, left) := by
  induction labels generalizing labels' with
  | nil =>
    obtain rfl : labels' = [] := List.map_eq_nil_iff.mp same.symm
    cases walked : walkLabels? rest with
    | none => exact .inl ⟨walked, walked⟩
    | some pair => exact .inr ⟨pair.1, pair.2, walked, walked⟩
  | cons label others ih =>
    obtain ⟨label', others', rfl⟩ : ∃ label' others', labels' = label' :: others' := by
      cases labels' with
      | nil => cases same
      | cons label' others' => exact ⟨_, _, rfl⟩
    obtain ⟨folded, following⟩ := List.cons.inj same
    obtain ⟨low, high⟩ := octets label (List.mem_cons_self ..)
    have width : label.length = label'.length := by rw [← lowerAll_length, folded, lowerAll_length]
    have valid : Utf8.Valid label ↔ Utf8.Valid label' := by
      rw [← Utf8.valid_lowerAll label, folded, Utf8.valid_lowerAll label']
    rw [encodeLabels_cons, encodeLabels_cons, List.cons_append, List.cons_append, List.append_assoc, List.append_assoc,
      walkLabels?_label low high, walkLabels?_label (width ▸ low) (width ▸ high), if_congr valid rfl rfl]
    by_cases utf8 : Utf8.Valid label'
    · rw [if_pos utf8, if_pos utf8]
      rcases ih (fun other member => octets other (List.mem_cons_of_mem _ member)) following with
        ⟨failed, failed'⟩ | ⟨tail, left, walked, walked'⟩
      · exact .inl ⟨by rw [failed]; rfl, by rw [failed']; rfl⟩
      · exact .inr ⟨tail, left, by rw [walked]; rfl, by rw [walked']; rfl⟩
    · exact .inl ⟨if_neg utf8, if_neg utf8⟩

end Labels

section Readings

/-- What is read from the first twelve octets is one header. -/
theorem queryHeader_append {header : Bytes} (long : header.length = 12) (tail : Bytes) :
    queryHeader (header ++ tail) = queryHeader header := by
  have whole : header = (queryHeader header).encode ++ header.drop 12 := encode_queryHeader (by omega)
  rw [List.drop_eq_nil_of_le (by omega), List.append_nil] at whole
  nth_rewrite 1 [whole]
  exact queryHeader_encode ..

theorem replyHeader_congr {query query' : Bytes} (same : queryHeader query = queryHeader query') (aa : Bool) (rcode : UInt8) :
    replyHeader query aa rcode = replyHeader query' aa rcode := by
  have flags : query.getD 2 0 = query'.getD 2 0 := congrArg Header.flags0 same
  rw [replyHeader, replyHeader, same, flags]

theorem opcode_congr {query query' : Slice} (same : queryHeader query.data = queryHeader query'.data) :
    opcode query = opcode query' := by
  rw [← UInt8.toNat_inj, opcode_eq, opcode_eq, same]

/-- The OPT record is read behind the question. -/
theorem queryOpt?_congr {split split' : Split} (header : queryHeader split.query = queryHeader split'.query)
    (rest : split.rest = split'.rest) : queryOpt? split.query = queryOpt? split'.query := by
  have arcount : fromBe16 (split.query.getD 10 0) (split.query.getD 11 0) =
      fromBe16 (split'.query.getD 10 0) (split'.query.getD 11 0) := congrArg Header.arcount header
  rw [queryOpt?, queryOpt?, arcount, split.questionEnd?_eq, split'.questionEnd?_eq]
  dsimp only [Option.bind_some]
  rw [split.drop_stop, split'.drop_stop, rest]

/-- Where one query splits, so does the other: both QNAMEs are their labels and the same octets behind them. -/
theorem exists_splits {header rest : Bytes} {labels labels' : Name} (long : header.length = 12)
    (clean : 0 ∉ encodeLabels labels) (clean' : 0 ∉ encodeLabels labels')
    (found : questionEnd? (header ++ (encodeLabels labels ++ rest)) ≠ none) :
    ∃ split split' : Split, ∃ tail, header ++ (encodeLabels labels ++ rest) = split.query ∧
      header ++ (encodeLabels labels' ++ rest) = split'.query ∧ split.qname = encodeLabels labels ++ tail ∧
      split'.qname = encodeLabels labels' ++ tail ∧ split'.qtype = split.qtype ∧ split'.qclass = split.qclass ∧
      split'.rest = split.rest := by
  obtain ⟨stop, found⟩ := Option.ne_none_iff_exists'.mp found
  obtain ⟨split, parts, _⟩ := exists_split found
  have shape : split.query = split.header ++ (split.qname ++
      0 :: (be16 split.qtype ++ (be16 split.qclass ++ split.rest))) := by
    simp [Split.query, Split.question]
  obtain ⟨rfl, behind⟩ := List.append_inj (parts.trans shape) (long.trans split.header_length.symm)
  obtain ⟨tail, qname, rfl⟩ : ∃ tail, split.qname = encodeLabels labels ++ tail ∧
      rest = tail ++ 0 :: (be16 split.qtype ++ (be16 split.qclass ++ split.rest)) := by
    rcases List.append_eq_append_iff.mp behind with ⟨tail, qname, rest⟩ | ⟨middle, octets, zero⟩
    · exact ⟨tail, qname, rest⟩
    · cases middle with
      | nil => exact ⟨[], by simpa using octets.symm, by simpa using zero.symm⟩
      | cons b more =>
        obtain ⟨rfl, _⟩ := List.cons.inj zero
        exact absurd (octets ▸ by simp) clean
  refine ⟨split, ⟨split.header, encodeLabels labels' ++ tail, split.qtype, split.qclass, split.rest, long, ?_⟩, tail,
    parts, ?_, qname, rfl, rfl, rfl, rfl⟩
  · rintro b member rfl
    rcases List.mem_append.mp member with inside | inside
    · exact clean' inside
    · exact split.nonzero 0 (qname ▸ List.mem_append_right _ inside) rfl
  · simp [Split.query, Split.question]

end Readings

section TwoRuns

variable {query query' : Slice}

/-- A reply to both queries differs in the echo of the question alone. -/
theorem render_recased (header : queryHeader query.data = queryHeader query'.data)
    (opt : queryOpt? query.data = queryOpt? query'.data)
    (lower : lowercaseWireName (qnameOf query.data) = lowercaseWireName (qnameOf query'.data)) (clock : Clock)
    (params : ZoneParams) (result : Reply) :
    ∃ front records, front.length = 12 ∧
      render clock query.data params result = front ++ questionOf query.data ++ records ∧
      render clock query'.data params result = front ++ questionOf query'.data ++ records := by
  have echoed : optOf query.data result.doBit = optOf query'.data result.doBit := by rw [optOf, optOf, opt]
  have first : render clock query.data params result =
      (withCounts (replyHeader query.data result.aa result.rcode)
        (emitQueues params (qnameOf query.data) clock result.queues) (optOf query.data result.doBit)).encode ++
        questionOf query.data ++ recordOctets (emitQueues params (qnameOf query.data) clock result.queues)
          (optOf query.data result.doBit) := by rw [render, layout, ← List.append_assoc]
  refine ⟨_, _, Header.encode_length _, first, ?_⟩
  rw [render, layout, ← List.append_assoc, replyHeader_congr header, emitQueues_congr lower, echoed]

/-- Both names are rejected, or they are one name up to case. -/
theorem parseQuery_recased {header rest : Bytes} {labels labels' : Name} (long : header.length = 12)
    (octets : ∀ label ∈ labels, 1 ≤ label.length ∧ label.length ≤ 255) (same : fold labels = fold labels')
    (first : query.data = header ++ (encodeLabels labels ++ rest))
    (second : query'.data = header ++ (encodeLabels labels' ++ rest)) :
    parseQuery query = .ok none ∧ parseQuery query' = .ok none ∨
      ∃ domain domain' : Str, parseQuery query = .ok (some domain) ∧ parseQuery query' = .ok (some domain') ∧
        lowerAll domain.bytes = lowerAll domain'.bytes := by
  have headers : queryHeader query.data = queryHeader query'.data := by
    rw [first, second, queryHeader_append long, queryHeader_append long]
  have qdcount : fromBe16 (query.data.getD 4 0) (query.data.getD 5 0) =
      fromBe16 (query'.data.getD 4 0) (query'.data.getD 5 0) := congrArg Header.qdcount headers
  have behind : query.data.drop 12 = encodeLabels labels ++ rest := by rw [first, ← long, List.drop_left]
  have behind' : query'.data.drop 12 = encodeLabels labels' ++ rest := by rw [second, ← long, List.drop_left]
  have length : query.data.length = query'.data.length := by
    rw [first, second]
    simp only [List.length_append, encodeLabels_length_of_fold same]
  have read : parsedLabels? query.data = none ∧ parsedLabels? query'.data = none ∨
      ∃ tail, parsedLabels? query.data = some (labels ++ tail) ∧ parsedLabels? query'.data = some (labels' ++ tail) := by
    rw [parsedLabels?, parsedLabels?, behind, behind', length, qdcount]
    split
    · exact .inl ⟨rfl, rfl⟩
    · rcases walkLabels?_recased octets same rest with ⟨failed, failed'⟩ | ⟨tail, left, walked, walked'⟩
      · exact .inl ⟨by rw [failed]; rfl, by rw [failed']; rfl⟩
      · have empty : labels ++ tail = [] ↔ labels' ++ tail = [] := by
          have lengths := congrArg List.length same
          simp only [fold, List.length_map] at lengths
          rw [← List.length_eq_zero_iff, ← List.length_eq_zero_iff, List.length_append, List.length_append, lengths]
        rw [walked, walked']
        simp only [Option.map_some, Option.filter_some, ne_eq, decide_not, empty]
        split
        · exact .inr ⟨tail, rfl, rfl⟩
        · exact .inl ⟨rfl, rfl⟩
  rcases read with ⟨refused, refused'⟩ | ⟨tail, labelsRead, labelsRead'⟩
  · left
    rcases parseQuery_eq query with ⟨_, none⟩ | ⟨_, _, some, _⟩
    · rcases parseQuery_eq query' with ⟨_, none'⟩ | ⟨_, _, some, _⟩
      · exact ⟨none, none'⟩
      · rw [refused'] at some; cases some
    · rw [refused] at some; cases some
  · right
    rcases parseQuery_eq query with ⟨none, _⟩ | ⟨_, domain, read, spelled, parsed⟩
    · rw [labelsRead] at none; cases none
    rcases parseQuery_eq query' with ⟨none, _⟩ | ⟨_, domain', read', spelled', parsed'⟩
    · rw [labelsRead'] at none; cases none
    rw [labelsRead] at read
    rw [labelsRead'] at read'
    cases read
    cases read'
    refine ⟨domain, domain', parsed, parsed', ?_⟩
    rw [spelled, spelled', lowerAll_text, lowerAll_text, fold, fold, List.map_append, List.map_append]
    change text (fold labels ++ _) = text (fold labels' ++ _)
    rw [same]

/-- Two queries that differ in the case of letters have responses that differ in the echo of the question alone. -/
theorem response_recased (clock : Clock) (config : Config) (recased : Recased query.data query'.data) :
    ∃ response response', handleQueryInternal clock query config = .ok response ∧
      handleQueryInternal clock query' config = .ok response' ∧
      (response = [] ∧ response' = [] ∨ ∃ header records, header.length = 12 ∧
        response = header ++ questionOf query.data ++ records ∧
        response' = header ++ questionOf query'.data ++ records) := by
  obtain ⟨header, labels, labels', rest, long, each, same, first, second⟩ := recased
  have octets : ∀ label ∈ labels, 1 ≤ label.length ∧ label.length ≤ 255 :=
    fun label member => ⟨(each label member).1, (each label member).2.1⟩
  have clean : 0 ∉ encodeLabels labels := zero_notMem_encodeLabels octets fun label member => (each label member).2.2
  have each' (label' : Label) (member : label' ∈ labels') : 1 ≤ label'.length ∧ label'.length ≤ 255 ∧ 0 ∉ label' := by
    have folded : lowerAll label' ∈ fold labels := same ▸ List.mem_map_of_mem member
    obtain ⟨label, inside, alike⟩ := List.mem_map.mp folded
    obtain ⟨low, high, free⟩ := each label inside
    have width : label.length = label'.length := by rw [← lowerAll_length, alike, lowerAll_length]
    have zero (octets : Bytes) : 0 ∈ lowerAll octets ↔ 0 ∈ octets := by simp [lowerAll, toLower_eq_iff]
    exact ⟨width ▸ low, width ▸ high, by rwa [← zero, ← alike, zero]⟩
  have octets' : ∀ label ∈ labels', 1 ≤ label.length ∧ label.length ≤ 255 :=
    fun label member => ⟨(each' label member).1, (each' label member).2.1⟩
  have clean' : 0 ∉ encodeLabels labels' := zero_notMem_encodeLabels octets' fun label member => (each' label member).2.2
  have headers : queryHeader query.data = queryHeader query'.data := by
    rw [first, second, queryHeader_append long, queryHeader_append long]
  have alike : queryOpt? query.data = queryOpt? query'.data ∧ qtypeQclass? query.data = qtypeQclass? query'.data ∧
      lowercaseWireName (qnameOf query.data) = lowercaseWireName (qnameOf query'.data) := by
    by_cases none : questionEnd? query.data = Option.none
    · have none' : questionEnd? query'.data = Option.none := by
        by_contra found
        obtain ⟨_, split, _, _, parts, _⟩ := exists_splits long clean' clean (second ▸ found)
        rw [first, parts, split.questionEnd?_eq] at none
        cases none
      simp only [queryOpt?, qtypeQclass?, qnameOf, none, none', Option.bind_none, ite_self, Option.map_none, and_self]
    · obtain ⟨split, split', tail, parts, parts', qname, qname', qtype, qclass, behind⟩ :=
        exists_splits long clean clean' (first ▸ none)
      have parts : query.data = split.query := first.trans parts
      have parts' : query'.data = split'.query := second.trans parts'
      have small := query.length_le
      have small' := query'.length_le
      refine ⟨?_, ?_, ?_⟩
      · rw [parts, parts']
        exact queryOpt?_congr (by rw [← parts, ← parts', headers]) behind.symm
      · rw [parts, parts', split.qtypeQclass?_eq, split'.qtypeQclass?_eq, qtype, qclass]
      · rw [parts, split.query_length, Split.stop, qname] at small
        rw [parts', split'.query_length, Split.stop, qname'] at small'
        rw [List.length_append] at small small'
        have walked := lowercaseWireNameLoop_labels octets [] (tail ++ [0]) (by simp; omega)
        have walked' := lowercaseWireNameLoop_labels octets' [] (tail ++ [0]) (by simp; omega)
        rw [same] at walked
        rw [qnameOf_split parts, qnameOf_split parts', qname, qname', List.append_assoc, List.append_assoc]
        exact walked.trans walked'.symm
  obtain ⟨opt, typed, lower⟩ := alike
  have params : paramsOf query.data config = paramsOf query'.data config := by rw [paramsOf, paramsOf, opt]
  have length : query.len = query'.len := by
    rw [Slice.len, Slice.len, first, second]
    simp only [List.length_append, encodeLabels_length_of_fold same]
  suffices replies : reply query config = reply query' config by
    refine ⟨_, _, handleQueryInternal_eq .., handleQueryInternal_eq .., ?_⟩
    rw [← replies, params]
    cases reply query config with
    | none => exact .inl ⟨rfl, rfl⟩
    | some result => exact .inr (render_recased headers opt lower clock (paramsOf query'.data config) result)
  rw [reply, reply, opcode_congr headers, length, typed, params]
  rcases parseQuery_recased long octets same first second with ⟨none, none'⟩ | ⟨domain, domain', parsed, parsed', folded⟩
  · rw [none, none', value_ok]
  · rw [parsed, parsed', value_ok, value_ok]
    cases qtypeQclass? query'.data with
    | none => rfl
    | some pair =>
      have result : replyTo config (paramsOf query'.data config) (qnameOf query.data) domain pair.1 pair.2 =
          replyTo config (paramsOf query'.data config) (qnameOf query'.data) domain' pair.1 pair.2 :=
        replyTo_congr lower config folded (parseQuery_small parsed) (parseQuery_small parsed') pair.1 pair.2
      dsimp only
      rw [result]

end TwoRuns

/-- The sample query with the zone in upper case. -/
def shoutedQuery : Slice where
  data := [0, 7, 1, 0, 0, 1, 0, 0, 0, 0, 0, 1] ++ [8, 49, 48, 45, 48, 45, 48, 45, 49, 3, 78, 73, 80, 2, 78, 85, 0] ++
    be16 typeA ++ be16 classIn ++ [0, 0, 41, 4, 208, 0, 0, 128, 0, 0, 0]
  length_le := by decide +kernel

theorem response_shouted :
    ∃ response response', handleQueryInternal (fun _ => some 0) sampleQuery sampleConfig = .ok response ∧
      handleQueryInternal (fun _ => some 0) shoutedQuery sampleConfig = .ok response' ∧
      (response = [] ∧ response' = [] ∨ ∃ header records, header.length = 12 ∧
        response = header ++ questionOf sampleQuery.data ++ records ∧
        response' = header ++ questionOf shoutedQuery.data ++ records) :=
  response_recased _ sampleConfig ⟨[0, 7, 1, 0, 0, 1, 0, 0, 0, 0, 0, 1],
    [[49, 48, 45, 48, 45, 48, 45, 49], [110, 105, 112], [110, 117]],
    [[49, 48, 45, 48, 45, 48, 45, 49], [78, 73, 80], [78, 85]],
    [0] ++ be16 typeA ++ be16 classIn ++ [0, 0, 41, 4, 208, 0, 0, 128, 0, 0, 0], rfl, by decide, by decide +kernel,
    by decide +kernel, by decide +kernel⟩

end RustyAlias
