import RustyAlias.Proofs.Reply

/-! # The two readings of the question

`parse_query` follows length octets and decides the dispatch; `question_section_end` looks for the
first zero octet and decides what is echoed and signed, and where QTYPE and QCLASS are read. They
agree exactly when no label holds a zero octet.
-/

namespace RustyAlias

open Rust Rust.Outcome Dns

/-- The labels that `parse_query` walks over. -/
def questionLabels (query : Bytes) : Name := ((walkLabels? (query.drop 12)).map Prod.fst).getD []

/-- The walk stops on the zero octet in front of QTYPE and QCLASS, and the question that is echoed consists of
the name that was parsed, QTYPE and QCLASS. -/
def ReadingsAgree (query : Slice) : Prop :=
  ∃ pos stop domain qtype qclass,
    parseQueryLoop query 12 .empty = .ok (some (pos, domain)) ∧ parseQuery query = .ok (some domain) ∧
    questionSectionEnd query = .ok (some stop) ∧ parseQtypeQclass query = .ok (some (qtype, qclass)) ∧
    query.data[pos]? = some 0 ∧ pos + 5 = stop ∧
    domain.bytes = text (questionLabels query.data) ∧
    slice query.data 12 stop = .ok (wire (questionLabels query.data) ++ be16 qtype ++ be16 qclass)

/-- On a query from which both readings are taken, they agree exactly when no label holds a zero octet. -/
theorem readingsAgree_iff (query : Slice) {domain : Str} {qtype qclass : UInt16}
    (parsed : parseQuery query = .ok (some domain)) (typed : parseQtypeQclass query = .ok (some (qtype, qclass))) :
    ReadingsAgree query ↔ ∀ label ∈ questionLabels query.data, 0 ∉ label := by
  rw [parseQtypeQclass_eq] at typed
  have some : questionEnd? query.data ≠ none := by
    intro none
    rw [qtypeQclass?, none] at typed
    simp at typed
  obtain ⟨stop, ends⟩ := Option.ne_none_iff_exists'.mp some
  obtain ⟨split, parts, rfl⟩ := exists_split ends
  have typed : qtype = split.qtype ∧ qclass = split.qclass := by
    rw [parts, split.qtypeQclass?_eq] at typed
    simpa [eq_comm] using typed
  obtain ⟨rfl, rfl⟩ := typed
  have long := Split.long parts
  have length := split.query_length
  rw [← parts] at length
  have stop : split.stop = 12 + split.qname.length + 5 := rfl
  obtain ⟨_, labels, left, _, walked, _, spelled, loop⟩ := parseQuery_walk parsed
  have read : questionLabels query.data = labels := by rw [questionLabels, walked]; rfl
  have shape := (encode_of_walkLabels? walked).1
  rw [parts] at walked
  have encoded := congrArg List.length shape
  rw [List.length_drop, List.length_append] at encoded
  rw [read, ← qname_eq_encodeLabels_iff walked]
  constructor
  · rintro ⟨pos, stop', domain', qtype, qclass, _, _, ends', _, _, before, _, question⟩
    rw [questionSectionEnd_split parts] at ends'
    cases ends'
    rw [question_split parts, read, Split.question, wire] at question
    have same : split.qname ++ [0] ++ be16 split.qtype ++ be16 split.qclass =
        encodeLabels labels ++ [0] ++ be16 qtype ++ be16 qclass := Except.ok.inj question
    simp only [List.append_assoc] at same
    refine List.append_inj_left same ?_
    have lengths := congrArg List.length same
    simp only [List.length_append, be16_length, List.length_singleton] at lengths
    omega
  · intro qname
    have pos : query.len - left.length = 12 + split.qname.length := by rw [qname]; unfold Slice.len; omega
    refine ⟨_, split.stop, domain, split.qtype, split.qclass, loop, parsed, questionSectionEnd_split parts, ?_, ?_, ?_,
      read ▸ spelled, ?_⟩
    · rw [parseQtypeQclass_eq, parts, split.qtypeQclass?_eq]
    · rw [pos, ← List.getElem?_drop, parts, split.drop_header, Split.question]
      simp
    · omega
    · rw [question_split parts, read, wire, ← qname, Split.question]

theorem readingsAgree_plain : ReadingsAgree ⟨[0, 7, 1, 0, 0, 1, 0, 0, 0, 0, 0, 0, 1, 97, 0, 0, 1, 0, 1], by decide +kernel⟩ :=
  (readingsAgree_iff _ (show parseQuery _ = .ok (some (.ofString "a")) by decide +kernel)
    (show parseQtypeQclass _ = .ok (some (1, 1)) by decide +kernel)).mpr (by decide +kernel)

/-- A label of three octets, the middle one zero, in front of QTYPE A and QCLASS IN. -/
def zeroQuery : Slice := ⟨[0, 7, 1, 0, 0, 1, 0, 0, 0, 0, 0, 0, 3, 97, 0, 98, 0, 0, 1, 0, 1], by decide +kernel⟩

/-- The query is read twice with success: once as QTYPE A behind the name, once as QTYPE 0x6200 inside it. -/
theorem zeroQuery_disagrees :
    (∃ domain, parseQuery zeroQuery = .ok (some domain)) ∧ parseQtypeQclass zeroQuery = .ok (some (0x6200, 1)) ∧
      ¬ ReadingsAgree zeroQuery := by
  have loop : parseQueryLoop zeroQuery 12 .empty = .ok (some (16, ⟨[97, 0, 98], by decide⟩)) := by decide +kernel
  have stop : questionSectionEnd zeroQuery = .ok (some 19) := by decide +kernel
  refine ⟨⟨⟨[97, 0, 98], by decide⟩, by decide +kernel⟩, by decide +kernel, ?_⟩
  rintro ⟨pos, stop', domain, _, _, loop', _, stopped, _, _, meets, _⟩
  rw [loop] at loop'
  rw [stop] at stopped
  cases loop'
  cases stopped
  omega

end RustyAlias
