import RustyAlias.Proofs.Reply

/-! # Truncation over UDP

`maybe_truncate_udp` keeps a response that fits. From any other it keeps the header, with TC set and
its counts cleared, and the question of the query; an OPT record follows if that still fits.
-/

namespace RustyAlias

open Rust Rust.Outcome Dns

/-- The header of a truncated response. -/
def truncatedHeader (query : Bytes) (h : Header) : Header :=
  { h with
    flags0 := h.flags0 ||| 0b00000010
    qdcount := (queryHeader query).qdcount
    ancount := 0
    nscount := 0
    arcount := 0 }

/-- The truncated response, with or without an OPT record. -/
def truncated (query : Bytes) (h : Header) (opt : Option Bool) : Bytes :=
  layout (truncatedHeader query h) (questionOf query) ⟨[], [], []⟩ opt

/-- What is sent in place of a response that begins with the header `h`. -/
def truncate (query : Bytes) (h : Header) : Bytes :=
  truncated query h (if udpLimit query < (truncated query h (optOf query false)).length then none else optOf query false)

theorem truncated_eq (query : Bytes) (h : Header) (opt : Option Bool) :
    truncated query h opt =
      (Section.additional.add opt.toList.length (truncatedHeader query h)).encode ++
        (questionOf query ++ opt.toList.flatMap optRr) := by
  simp [truncated, layout, withCounts, recordOctets, Section.add, truncatedHeader, count]

/-- Clearing the additional count in place. -/
theorem setIndex_arcount (h : Header) (body : Bytes) :
    (do setIndex (← setIndex (h.encode ++ body) offsetArcount 0) (offsetArcount + 1) 0) =
      .ok ({ h with arcount := 0 }.encode ++ body) := by
  have long : offsetArcount + 1 < (h.encode ++ body).length := by
    rw [List.length_append, Header.encode_length, offsetArcount]
    omega
  rw [setIndex_ok (by omega), ok_bind, setIndex_ok (by rwa [List.length_set])]
  simp [Header.encode, be16, offsetArcount]

theorem maybeTruncateUdp_eq (query : Slice) (h : Header) (body : Bytes) :
    maybeTruncateUdp (h.encode ++ body) query =
      .ok (if (h.encode ++ body).length ≤ udpLimit query.data ∨ questionEnd? query.data = none then h.encode ++ body
        else truncate query.data h) := by
  rw [maybeTruncateUdp, udpResponseLimit_eq, ok_bind]
  by_cases fits : (h.encode ++ body).length ≤ udpLimit query.data
  · rw [if_pos fits, if_pos (.inl fits)]
    rfl
  rw [if_neg fits, questionSectionEnd_eq, ok_bind]
  cases ends : questionEnd? query.data with
  | none => simp
  | some stop =>
    obtain ⟨split, parts, rfl⟩ := exists_split ends
    have bound := Slice.length_lt query
    have length := split.query_length
    have long := Split.long parts
    have width : split.stop = 12 + split.question.length := by simp [Split.stop]; omega
    rw [parts] at bound
    have front : slice (h.encode ++ body) 0 2 = .ok (be16 h.id) := by
      rw [slice_id (by simp), queryHeader_encode]
    have flags0 : (h.encode ++ body)[2]? = some h.flags0 := rfl
    have flags1 : (h.encode ++ body)[3]? = some h.flags1 := rfl
    have header : be16 h.id ++ [h.flags0 ||| 0b00000010, h.flags1] ++ be16 (queryHeader query.data).qdcount ++
        [0, 0, 0, 0, 0, 0] ++ split.question = (truncatedHeader query.data h).encode ++ questionOf query.data := by
      rw [questionOf_split parts]
      simp [Header.encode, truncatedHeader]
      rfl
    have cut : ¬ ((h.encode ++ body).length ≤ udpLimit query.data ∨ some split.stop = none) := by simpa using fits
    rw [if_neg cut, truncate]
    dsimp only
    rw [uadd_ok (by unfold usizeMax; omega), ok_bind, front, ok_bind, slice_qdcount long, ok_bind, question_split parts,
      ok_bind, flags0, flags1, Option.getD_some, Option.getD_some, header, maybeAppendOpt_eq, ok_bind, ← truncated_eq]
    by_cases exceeds : udpLimit query.data < (truncated query.data h (optOf query.data false)).length
    · have kept : (truncated query.data h (optOf query.data false)).take (12 + (split.stop - 12)) =
          (Section.additional.add (optOf query.data false).toList.length (truncatedHeader query.data h)).encode ++
            questionOf query.data := by
        have front : ((Section.additional.add (optOf query.data false).toList.length
            (truncatedHeader query.data h)).encode ++ questionOf query.data).length = 12 + (split.stop - 12) := by
          rw [List.length_append, Header.encode_length, questionOf_split parts]
          omega
        rw [truncated_eq, ← List.append_assoc, ← front, List.take_left]
      rw [if_pos exceeds, if_pos exceeds, usub_ok (by omega), ok_bind, uadd_ok (by unfold usizeMax; omega), ok_bind, kept,
        setIndex_arcount, truncated_eq]
      simp [Section.add_zero]
      rfl
    · rw [if_neg exceeds, if_neg exceeds]
      rfl

end RustyAlias
