import RustyAlias.Dns.Name
import RustyAlias.Model.Question
import RustyAlias.Rust.Returns

/-! # What is read from a query

Each reader of `Model.Question` returns, and its result is a plain function of the octets. The first
zero octet behind the header determines the question section; the length octets determine the
labels that `parse_query` walks over.
-/

namespace RustyAlias

open Rust Rust.Outcome Dns

theorem Slice.length_lt (query : Slice) : query.data.length < 2 ^ 63 := by
  have := query.length_le
  unfold isizeMax at this
  omega

/-- The end of the question section by its first zero octet. -/
def questionEnd? (query : Bytes) : Option ℕ :=
  ((query.drop 12).findIdx? (· == 0)).bind fun n => if 12 + n + 5 ≤ query.length then some (12 + n + 5) else none

theorem questionSectionEnd_eq (query : Slice) : questionSectionEnd query = .ok (questionEnd? query.data) := by
  have bound := Slice.length_lt query
  unfold questionSectionEnd questionEnd? Slice.len
  split
  · next short => rw [List.drop_eq_nil_of_le (by omega)]; rfl
  · next long =>
    rw [sliceFrom_ok (by omega), ok_bind]
    cases found : (query.data.drop 12).findIdx? (· == 0) with
    | none => rfl
    | some n =>
      obtain ⟨inside, _⟩ := List.findIdx?_eq_some_iff_getElem.mp found
      rw [List.length_drop] at inside
      simp only [uadd_ok (show 12 + n ≤ usizeMax by unfold usizeMax; omega),
        uadd_ok (show 12 + n + 5 ≤ usizeMax by unfold usizeMax; omega), ok_bind]
      rfl

/-- A query split at the question: header, QNAME octets up to the first zero, QTYPE, QCLASS, and
what follows. -/
structure Split where
  header : Bytes
  qname : Bytes
  qtype : UInt16
  qclass : UInt16
  rest : Bytes
  header_length : header.length = 12
  nonzero : ∀ b ∈ qname, b ≠ 0

namespace Split

/-- The question as it is echoed. -/
def question (s : Split) : Bytes := s.qname ++ [0] ++ be16 s.qtype ++ be16 s.qclass

def query (s : Split) : Bytes := s.header ++ s.question ++ s.rest

/-- The end of the question section. -/
def stop (s : Split) : ℕ := 12 + s.qname.length + 5

@[simp] theorem question_length (s : Split) : s.question.length = s.qname.length + 5 := by
  simp [question]

theorem query_length (s : Split) : s.query.length = s.stop + s.rest.length := by
  simp only [query, List.length_append, question_length, s.header_length, stop]
  omega

theorem drop_header (s : Split) : s.query.drop 12 = s.question ++ s.rest := by
  rw [query, List.append_assoc, ← s.header_length, List.drop_left]

theorem questionEnd?_eq (s : Split) : questionEnd? s.query = some s.stop := by
  have clean : s.qname.findIdx? (· == 0) = none := by
    rw [List.findIdx?_eq_none_iff]
    intro b member
    simpa using s.nonzero b member
  have first : (s.query.drop 12).findIdx? (· == 0) = some s.qname.length := by
    rw [drop_header, question]
    simp only [List.append_assoc, List.cons_append, List.nil_append]
    rw [List.findIdx?_append, clean, List.findIdx?_cons]
    simp
  have length := s.query_length
  rw [questionEnd?, first, Option.bind_some, if_pos (by unfold stop at length; omega)]
  rfl

theorem take_stop (s : Split) : s.query.take s.stop = s.header ++ s.question := by
  have length : (s.header ++ s.question).length = s.stop := by
    simp only [List.length_append, question_length, s.header_length, stop]
    omega
  rw [query, ← length, List.take_left]

theorem question_slice (s : Split) : (s.query.take s.stop).drop 12 = s.question := by
  rw [take_stop, ← s.header_length, List.drop_left]

theorem qname_slice (s : Split) : (s.query.take (s.stop - 4)).drop 12 = s.qname ++ [0] := by
  have shape : s.query = s.header ++ (s.qname ++ [0]) ++ (be16 s.qtype ++ be16 s.qclass ++ s.rest) := by
    simp [query, question]
  have length : (s.header ++ (s.qname ++ [0])).length = s.stop - 4 := by
    simp only [List.length_append, s.header_length, stop, List.length_singleton]
    omega
  rw [shape, ← length, List.take_left, ← s.header_length, List.drop_left]

theorem drop_stop (s : Split) : s.query.drop s.stop = s.rest := by
  have length : (s.header ++ s.question).length = s.stop := by rw [← s.take_stop, List.length_take, s.query_length]; omega
  rw [query, ← length, List.drop_left]

end Split

/-- Whenever a question section ends, the query splits there. -/
theorem exists_split {query : Bytes} {stop : ℕ} (found : questionEnd? query = some stop) :
    ∃ s : Split, query = s.query ∧ stop = s.stop := by
  obtain ⟨n, first, bound⟩ := Option.bind_eq_some_iff.mp found
  split at bound
  · next fits =>
    cases bound
    obtain ⟨inside, zero, before⟩ := List.findIdx?_eq_some_iff_getElem.mp first
    rw [List.length_drop] at inside
    have terminator : query[12 + n] = 0 := by simpa using zero
    refine ⟨⟨query.take 12, (query.drop 12).take n, fromBe16 query[12 + n + 1] query[12 + n + 2],
      fromBe16 query[12 + n + 3] query[12 + n + 4], query.drop (12 + n + 5), ?_, ?_⟩, ?_, ?_⟩
    · simp; omega
    · intro b member
      obtain ⟨i, bound, rfl⟩ := List.getElem_of_mem member
      rw [List.length_take] at bound
      simpa using before i (by omega)
    · have rest (i : ℕ) (bound : i < query.length) : query.drop i = query[i] :: query.drop (i + 1) :=
        List.drop_eq_getElem_cons bound
      calc query = query.take 12 ++ ((query.drop 12).take n ++ (query.drop 12).drop n) := by
            rw [List.take_append_drop, List.take_append_drop]
        _ = _ := by
            rw [List.drop_drop, rest (12 + n) (by omega), rest (12 + n + 1) (by omega), rest (12 + n + 2) (by omega),
              rest (12 + n + 3) (by omega), rest (12 + n + 4) (by omega), terminator]
            simp [Split.query, Split.question, be16_fromBe16]
    · simp [Split.stop]; omega
  · contradiction

/-- QTYPE and QCLASS, the four octets in front of the end. -/
def qtypeQclass? (query : Bytes) : Option (UInt16 × UInt16) :=
  (questionEnd? query).bind fun stop =>
    match query.drop (stop - 4) with
    | t0 :: t1 :: c0 :: c1 :: _ => some (fromBe16 t0 t1, fromBe16 c0 c1)
    | _ => none

/-- The client's OPT record: UDP size and DO bit. -/
def queryOpt? (query : Bytes) : Option (ℕ × Bool) :=
  if fromBe16 (query.getD 10 0) (query.getD 11 0) = 0 then none
  else (questionEnd? query).bind fun stop =>
    let rest := query.drop stop
    if 11 ≤ rest.length ∧ rest.getD 0 0 = 0 ∧ rest.getD 1 0 = 0 ∧ rest.getD 2 0 = 0x29 then
      some (max (fromBe16 (rest.getD 3 0) (rest.getD 4 0)).toNat 512,
        fromBe16 (rest.getD 7 0) (rest.getD 8 0) &&& 0x8000 != 0)
    else none

theorem Split.drop_fixed (s : Split) : s.query.drop (s.stop - 4) = be16 s.qtype ++ be16 s.qclass ++ s.rest := by
  have shape : s.query = s.header ++ (s.qname ++ [0]) ++ (be16 s.qtype ++ be16 s.qclass ++ s.rest) := by
    simp [query, question]
  have length : (s.header ++ (s.qname ++ [0])).length = s.stop - 4 := by
    simp only [List.length_append, s.header_length, stop, List.length_singleton]
    omega
  rw [shape, ← length, List.drop_left]

theorem Split.qtypeQclass?_eq (s : Split) : qtypeQclass? s.query = some (s.qtype, s.qclass) := by
  rw [qtypeQclass?, s.questionEnd?_eq, Option.bind_some, s.drop_fixed]
  simp only [be16, List.cons_append, List.nil_append, fromBe16_be16]

theorem parseQtypeQclass_eq (query : Slice) : parseQtypeQclass query = .ok (qtypeQclass? query.data) := by
  rw [parseQtypeQclass, questionSectionEnd_eq, ok_bind]
  cases found : questionEnd? query.data with
  | none => rw [qtypeQclass?, found]; rfl
  | some stop =>
    obtain ⟨s, shape, rfl⟩ := exists_split found
    obtain ⟨n, stop⟩ : ∃ n, s.stop = n + 4 := ⟨s.stop - 4, by unfold Split.stop; omega⟩
    have fixed := s.drop_fixed
    rw [shape, s.qtypeQclass?_eq]
    simp only [stop, Nat.add_sub_cancel] at fixed ⊢
    simp only [usub_ok (show 4 ≤ n + 4 by omega), usub_ok (show 3 ≤ n + 4 by omega),
      usub_ok (show 2 ≤ n + 4 by omega), usub_ok (show 1 ≤ n + 4 by omega), ok_bind,
      show n + 4 - 4 = n + 0 by omega, show n + 4 - 3 = n + 1 by omega, show n + 4 - 2 = n + 2 by omega,
      show n + 4 - 1 = n + 3 by omega, index_add, fixed]
    simp only [be16, List.cons_append, List.nil_append, index_cons_zero, index_cons_succ, ok_bind, pure_eq_ok,
      fromBe16_be16]

private theorem questionEnd?_of_short {query : Bytes} (short : query.length < 12) : questionEnd? query = none := by
  rw [questionEnd?, List.drop_eq_nil_of_le (by omega)]
  rfl

theorem parseQueryOpt_eq (query : Slice) : parseQueryOpt query = .ok (queryOpt? query.data) := by
  rw [parseQueryOpt, questionSectionEnd_eq, ok_bind, queryOpt?]
  unfold Slice.len
  by_cases short : query.data.length < 12
  · simp [questionEnd?_of_short short, short]
  rw [if_neg short, index_getD (show 10 < query.data.length by omega) 0,
    index_getD (show 11 < query.data.length by omega) 0, ok_bind, ok_bind]
  by_cases absent : fromBe16 (query.data.getD 10 0) (query.data.getD 11 0) = 0
  · simp only [absent, if_true, pure_eq_ok]
  simp only [absent, if_false]
  cases found : questionEnd? query.data with
  | none => rfl
  | some stop =>
    obtain ⟨s, shape, rfl⟩ := exists_split found
    have length := s.query_length
    simp only [Option.bind_some]
    rw [sliceFrom_ok (by rw [shape]; omega), ok_bind]
    generalize query.data.drop s.stop = rest
    by_cases wide : 11 ≤ rest.length
    · rw [if_pos wide, index_getD (show 0 < rest.length by omega) 0, index_getD (show 1 < rest.length by omega) 0,
        index_getD (show 2 < rest.length by omega) 0, index_getD (show 3 < rest.length by omega) 0,
        index_getD (show 4 < rest.length by omega) 0, index_getD (show 7 < rest.length by omega) 0,
        index_getD (show 8 < rest.length by omega) 0]
      simp only [ok_bind, Bool.and_eq_true, beq_iff_eq, pure_eq_ok, wide, true_and, and_assoc]
      split <;> rfl
    · rw [if_neg wide, if_neg fun inside => wide inside.1]
      rfl

theorem optUdpPayloadSize_eq (query : Slice) :
    optUdpPayloadSize query = .ok ((queryOpt? query.data).map Prod.fst) := by
  rw [optUdpPayloadSize, parseQueryOpt_eq]
  rfl

theorem queryHasOpt_eq (query : Slice) : queryHasOpt query = .ok (queryOpt? query.data).isSome := by
  rw [queryHasOpt, optUdpPayloadSize_eq]
  simp

theorem queryDnssecOk_eq (query : Slice) : queryDnssecOk query = .ok ((queryOpt? query.data).any Prod.snd) := by
  rw [queryDnssecOk, parseQueryOpt_eq]
  rfl

/-- The largest response to be sent over UDP. -/
def udpLimit (query : Bytes) : ℕ := min (((queryOpt? query).map Prod.fst).getD defaultUdpSize) ednsUdpSize.toNat

theorem udpResponseLimit_eq (query : Slice) : udpResponseLimit query = .ok (udpLimit query.data) := by
  rw [udpResponseLimit, optUdpPayloadSize_eq]
  rfl

section Labels

/-- The walk of `parse_query` over length octets, on the octets behind the header: the labels, and
what is left when it meets a zero or the end. -/
def walkLabels? : Bytes → Option (Name × Bytes)
  | [] => some ([], [])
  | len :: rest =>
    if len = 0 then some ([], len :: rest)
    else if rest.length < len.toNat ∨ ¬ Utf8.Valid (rest.take len.toNat) then none
    else (walkLabels? (rest.drop len.toNat)).map fun (labels, left) => (rest.take len.toNat :: labels, left)
termination_by bytes => bytes.length
decreasing_by simp only [List.length_drop, List.length_cons]; omega

/-- A label that `parse_query` reads. -/
structure Readable (label : Label) : Prop where
  nonempty : 1 ≤ label.length
  length_le : label.length ≤ 255
  utf8 : Utf8.Valid label

/-- The walk ends in front of a zero octet or at the end of the query. -/
def Stops (left : Bytes) : Prop := left = [] ∨ left.head? = some 0

theorem octets_of_readable {labels : Name} (readable : ∀ label ∈ labels, Readable label) :
    ∀ label ∈ labels, 1 ≤ label.length ∧ label.length ≤ 255 :=
  fun label member => ⟨(readable label member).nonempty, (readable label member).length_le⟩

private theorem walkLabels?_stops {left : Bytes} (stops : Stops left) : walkLabels? left = some ([], left) := by
  cases left with
  | nil => rw [walkLabels?]
  | cons len rest =>
    have zero : len = 0 := by simpa [Stops] using stops
    rw [walkLabels?, if_pos zero]

theorem walkLabels?_label {label : Label} (low : 1 ≤ label.length) (high : label.length ≤ 255) (rest : Bytes) :
    walkLabels? (UInt8.ofNat label.length :: (label ++ rest)) =
      if Utf8.Valid label then (walkLabels? rest).map fun (labels, left) => (label :: labels, left) else none := by
  rw [walkLabels?, if_neg (length_octet_ne_zero low high), length_octet high, List.take_left, List.drop_left]
  by_cases valid : Utf8.Valid label
  · simp [valid]
  · simp [valid]

private theorem walkLabels?_cons {label : Label} (readable : Readable label) (rest : Bytes) :
    walkLabels? (UInt8.ofNat label.length :: (label ++ rest)) =
      (walkLabels? rest).map fun (labels, left) => (label :: labels, left) := by
  rw [walkLabels?_label readable.nonempty readable.length_le, if_pos readable.utf8]

theorem walkLabels?_encode {labels : Name} {left : Bytes} (readable : ∀ label ∈ labels, Readable label)
    (stops : Stops left) : walkLabels? (encodeLabels labels ++ left) = some (labels, left) := by
  induction labels with
  | nil => exact walkLabels?_stops stops
  | cons label rest ih =>
    rw [encodeLabels_cons, List.cons_append, List.append_assoc,
      walkLabels?_cons (readable label (List.mem_cons_self ..)),
      ih fun other member => readable other (List.mem_cons_of_mem _ member)]
    rfl

theorem encode_of_walkLabels? {input left : Bytes} {labels : Name} (walked : walkLabels? input = some (labels, left)) :
    input = encodeLabels labels ++ left ∧ (∀ label ∈ labels, Readable label) ∧ Stops left := by
  induction input using walkLabels?.induct generalizing labels with
  | case1 =>
    rw [walkLabels?] at walked
    cases walked
    simp [Stops]
  | case2 rest =>
    rw [walkLabels?, if_pos rfl] at walked
    cases walked
    simp [Stops]
  | case3 len rest nonzero refused =>
    rw [walkLabels?, if_neg nonzero, if_pos refused] at walked
    contradiction
  | case4 len rest nonzero accepted ih =>
    rw [walkLabels?, if_neg nonzero, if_neg accepted] at walked
    obtain ⟨⟨others, after⟩, following, same⟩ := Option.map_eq_some_iff.mp walked
    cases same
    obtain ⟨long, utf8⟩ := not_or.mp accepted
    have width : (rest.take len.toNat).length = len.toNat := by rw [List.length_take]; omega
    obtain ⟨shape, readable, stops⟩ := ih following
    refine ⟨?_, ?_, stops⟩
    · rw [encodeLabels_cons, width, UInt8.ofNat_toNat, List.cons_append, List.append_assoc, ← shape,
        List.take_append_drop]
    · intro label member
      rcases List.mem_cons.mp member with rfl | member
      · have := len.toNat_lt
        have positive : len.toNat ≠ 0 := fun zero => nonzero (UInt8.toNat_inj.mp zero)
        exact ⟨by omega, by omega, not_not.mp utf8⟩
      · exact readable label member

/-- The name under construction, with further labels behind it. -/
def extend (base : Bytes) (labels : Name) : Bytes := text (if base = [] then labels else base :: labels)

private theorem extend_nil (base : Bytes) : extend base [] = base := by
  unfold extend
  split <;> simp_all [text]

private theorem extend_cons {label : Label} (nonempty : label ≠ []) (base : Bytes) (labels : Name) :
    extend base (label :: labels) = extend (if base = [] then label else base ++ 46 :: label) labels := by
  by_cases first : base = []
  · simp [extend, first, nonempty]
  by_cases last : labels = []
  · subst last
    simp [extend, first, text_cons_of_ne_nil]
  · simp [extend, first, text_cons_of_ne_nil, last]

/-- `parse_query` walks as `walkLabels?` does, from any label boundary. -/
theorem parseQueryLoop_eq (query : Slice) {pos : ℕ} (bound : pos ≤ query.len) (domain : Str) :
    (walkLabels? (query.data.drop pos) = none ∧ parseQueryLoop query pos domain = .ok none) ∨
    ∃ labels left, ∃ name : Str, walkLabels? (query.data.drop pos) = some (labels, left) ∧
      name.bytes = extend domain.bytes labels ∧
      parseQueryLoop query pos domain = .ok (some (query.len - left.length, name)) := by
  have small := Slice.length_lt query
  have length : query.len = query.data.length := rfl
  induction remaining : query.len - pos using Nat.strong_induction_on generalizing pos domain with
  | h n ih =>
    rw [parseQueryLoop]
    by_cases inside : pos < query.len
    · have step := List.drop_eq_getElem_cons inside
      rw [dif_pos inside, index_of_lt inside, ok_bind, step, walkLabels?]
      generalize query.data[pos] = len at *
      have octet := len.toNat_lt
      by_cases zero : len = 0
      · rw [if_pos zero, if_pos zero]
        refine .inr ⟨[], _, domain, rfl, (extend_nil _).symm, ?_⟩
        rw [pure_eq_ok, List.length_cons, List.length_drop, show query.len - (query.data.length - (pos + 1) + 1) = pos by omega]
      rw [if_neg zero, if_neg zero, uadd_ok (by unfold usizeMax; omega), ok_bind,
        uadd_ok (by unfold usizeMax; omega), ok_bind, List.length_drop]
      by_cases long : query.len < pos + 1 + len.toNat
      · exact .inl ⟨if_pos (.inl (by omega)), if_pos long⟩
      rw [if_neg long, slice_ok (by omega) (by omega), ok_bind, List.drop_take, Nat.add_sub_cancel_left]
      cases read : Str.fromUtf8 ((query.data.drop (pos + 1)).take len.toNat) with
      | none => exact .inl ⟨if_pos (.inr (Str.fromUtf8_eq_none_iff.mp read)), rfl⟩
      | some label =>
        have octets := Str.fromUtf8_eq_some_iff.mp read
        have nonempty : label.bytes ≠ [] := by
          rw [octets, ← List.length_pos_iff, List.length_take, List.length_drop]
          have positive : len.toNat ≠ 0 := fun none => zero (UInt8.toNat_inj.mp none)
          omega
        have joined : ((if domain.isEmpty = true then domain else domain ++ Str.ofAscii dot) ++ label).bytes =
            if domain.bytes = [] then label.bytes else domain.bytes ++ 46 :: label.bytes := by
          unfold Str.isEmpty
          cases empty : domain.bytes with
          | nil => simp [empty]
          | cons b rest => simp [empty, dot]
        have accepted : ¬ (query.data.length - (pos + 1) < len.toNat ∨ ¬ Utf8.Valid label.bytes) := by
          rw [not_or, not_not]
          exact ⟨by omega, label.utf8⟩
        rw [← octets, if_neg accepted, List.drop_drop]
        have further : pos + 1 + len.toNat ≤ query.data.length := by omega
        rcases ih _ (by omega) further
          ((if domain.isEmpty = true then domain else domain ++ Str.ofAscii dot) ++ label) rfl with
          ⟨refused, result⟩ | ⟨labels, left, name, walked, spelled, result⟩
        · exact .inl ⟨by rw [refused]; rfl, result⟩
        · refine .inr ⟨label.bytes :: labels, left, name, by rw [walked]; rfl, ?_, result⟩
          rw [spelled, joined, extend_cons nonempty]
    · rw [dif_neg inside, List.drop_eq_nil_of_le (by omega), walkLabels?]
      refine .inr ⟨[], [], domain, rfl, (extend_nil _).symm, ?_⟩
      rw [pure_eq_ok, List.length_nil, show query.len - 0 = pos by omega]

/-- The labels that `parse_query` reads, when it accepts the query. -/
def parsedLabels? (query : Bytes) : Option Name :=
  if query.length < 12 ∨ fromBe16 (query.getD 4 0) (query.getD 5 0) ≠ 1 then none
  else ((walkLabels? (query.drop 12)).map Prod.fst).filter (· ≠ [])

/-- `parse_query` returns the text of the labels that it reads. -/
theorem parseQuery_eq (query : Slice) :
    (parsedLabels? query.data = none ∧ parseQuery query = .ok none) ∨
    ∃ labels, ∃ domain : Str, parsedLabels? query.data = some labels ∧ domain.bytes = text labels ∧
      parseQuery query = .ok (some domain) := by
  rw [parsedLabels?, parseQuery]
  by_cases short : query.data.length < 12
  · exact .inl ⟨if_pos (.inl short), if_pos short⟩
  rw [if_neg (show ¬ query.len < 12 from short), index_getD (show 4 < query.data.length by omega) 0,
    index_getD (show 5 < query.data.length by omega) 0, ok_bind, ok_bind]
  by_cases single : fromBe16 (query.data.getD 4 0) (query.data.getD 5 0) = 1
  · simp only [short, single, ne_eq, not_true_eq_false, or_self, if_false]
    rcases parseQueryLoop_eq query (show 12 ≤ query.len from by unfold Slice.len; omega) .empty with
      ⟨refused, result⟩ | ⟨labels, left, name, walked, spelled, result⟩
    · exact .inl ⟨by rw [refused]; rfl, by rw [result]; rfl⟩
    · obtain ⟨_, readable, _⟩ := encode_of_walkLabels? walked
      have empty : text labels = [] ↔ labels = [] := text_eq_nil_iff fun label member => by
        have := (readable label member).nonempty
        rintro rfl
        simp at this
      have spelled : name.bytes = text labels := by simpa [extend] using spelled
      rw [walked, result, ok_bind]
      by_cases none : labels = []
      · left
        simp [none, Str.isEmpty, spelled, text]
      · right
        refine ⟨labels, name, by simp [none], spelled, ?_⟩
        simp [Str.isEmpty, spelled, empty, none]
  · exact .inl ⟨if_pos (.inr single), if_pos single⟩

/-- What stands behind a name that `parse_query` accepts. -/
theorem parseQuery_walk {query : Slice} {domain : Str} (parsed : parseQuery query = .ok (some domain)) :
    12 ≤ query.len ∧ ∃ labels left, parsedLabels? query.data = some labels ∧
      walkLabels? (query.data.drop 12) = some (labels, left) ∧ labels ≠ [] ∧ domain.bytes = text labels ∧
      parseQueryLoop query 12 .empty = .ok (some (query.len - left.length, domain)) := by
  rcases parseQuery_eq query with ⟨_, none⟩ | ⟨labels, name, read, spelled, result⟩
  · rw [none] at parsed; cases parsed
  rw [result] at parsed
  obtain rfl : name = domain := by simpa using parsed
  have accepted := read
  unfold parsedLabels? at accepted
  split at accepted
  · contradiction
  · next shape =>
    obtain ⟨first, nonempty⟩ := Option.filter_eq_some_iff.mp accepted
    obtain ⟨⟨walkedLabels, left⟩, walked, rfl⟩ := Option.map_eq_some_iff.mp first
    have long : 12 ≤ query.data.length := by simpa using (not_or.mp shape).1
    refine ⟨long, _, left, read, walked, by simpa using nonempty, spelled, ?_⟩
    rcases parseQueryLoop_eq query long .empty with ⟨refused, _⟩ | ⟨others, after, other, walked', spelled', loop⟩
    · rw [refused] at walked; cases walked
    · rw [walked] at walked'
      cases walked'
      obtain rfl : other = name := Str.ext (by rw [spelled, spelled']; simp [extend])
      exact loop

/-- A string is cut at its first zero in one way. -/
theorem first_zero {a b x y : Bytes} (same : a ++ 0 :: x = b ++ 0 :: y) (left : (0 : UInt8) ∉ a) (right : (0 : UInt8) ∉ b) :
    a = b ∧ x = y := by
  have nonzero {c : Bytes} (clean : (0 : UInt8) ∉ c) : ∀ d ∈ c, (d != 0) = true := by
    intro d member
    rw [bne_iff_ne]
    rintro rfl
    exact clean member
  have front := congrArg (List.takeWhile (· != 0)) same
  rw [List.takeWhile_append_of_pos (nonzero left), List.takeWhile_append_of_pos (nonzero right)] at front
  obtain rfl : a = b := by simpa using front
  simpa using same

/-- The two readings of a question meet exactly when no label holds a zero octet. -/
theorem qname_eq_encodeLabels_iff {split : Split} {labels : Name} {left : Bytes}
    (walked : walkLabels? (split.query.drop 12) = some (labels, left)) :
    split.qname = encodeLabels labels ↔ ∀ label ∈ labels, 0 ∉ label := by
  obtain ⟨shape, readable, stops⟩ := encode_of_walkLabels? walked
  have clean : (0 : UInt8) ∉ split.qname := fun zero => split.nonzero 0 zero rfl
  constructor
  · intro same label member zero
    rw [same, encodeLabels, List.mem_flatMap] at clean
    exact clean ⟨label, member, List.mem_cons_of_mem _ zero⟩
  · intro free
    have cleanLabels := zero_notMem_encodeLabels (octets_of_readable readable) free
    rw [split.drop_header, Split.question, List.append_assoc, List.append_assoc, List.append_assoc,
      List.singleton_append] at shape
    cases left with
    | nil =>
      have inside : (0 : UInt8) ∈ encodeLabels labels ++ [] := shape ▸ by simp
      simp [cleanLabels] at inside
    | cons b after =>
      obtain rfl : b = 0 := by simpa [Stops] using stops
      exact (first_zero shape clean cleanLabels).1

end Labels

end RustyAlias
