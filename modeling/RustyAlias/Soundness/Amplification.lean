import RustyAlias.Proofs.Dispatch
import RustyAlias.Proofs.StandardQuery
import RustyAlias.Soundness.UdpSize
import RustyAlias.Soundness.WellFormed

/-! # No amplification

A reply that refuses, and one that is truncated, consist of a header, the question and at most one OPT
record. The query has all of these itself, so it is at least as long.
-/

namespace RustyAlias

open Rust Rust.Outcome Dns

/-- The query has room for a header, the question and the OPT record that is echoed. -/
theorem echoed_le {query : Bytes} (long : 12 ≤ query.length) (dnssecOk : Bool) :
    12 + (questionOf query).length + 11 * (optOf query dnssecOk).toList.length ≤ query.length := by
  cases ends : questionEnd? query with
  | none =>
    have opt : queryOpt? query = none := by
      rw [queryOpt?, ends]
      exact ite_self none
    rw [optOf, opt, questionOf, ends]
    exact long
  | some stop =>
    obtain ⟨split, rfl, rfl⟩ := exists_split ends
    have length := split.query_length
    have question : (questionOf split.query).length = split.qname.length + 5 := by
      rw [questionOf, ends, Option.map_some, Option.getD_some, split.question_slice, Split.question_length]
    have stop : split.stop = 12 + split.qname.length + 5 := rfl
    rw [optOf]
    cases opt : queryOpt? split.query with
    | none =>
      simp only [Option.map_none, Option.toList_none, List.length_nil]
      omega
    | some pair =>
      have behind : 11 ≤ split.rest.length := by
        rw [queryOpt?, ends] at opt
        split at opt
        · cases opt
        · dsimp only [Option.bind_some] at opt
          rw [split.drop_stop] at opt
          split at opt
          · next shape => exact shape.1
          · cases opt
      simp only [Option.map_some, Option.toList_some, List.length_singleton]
      omega

private theorem layout_length (header : Header) (question : Bytes) (opt : Option Bool) :
    (layout header question ⟨[], [], []⟩ opt).length = 12 + question.length + 11 * opt.toList.length := by
  cases opt <;> simp [layout, recordOctets, optRr_length]
  omega

/-- A truncated response is no longer than the query. -/
theorem truncate_length_le {query : Bytes} (long : 12 ≤ query.length) (h : Header) : (truncate query h).length ≤ query.length := by
  have echoed := echoed_le long false
  rw [truncate, truncated_length]
  split
  · simp only [Option.toList_none, List.length_nil]
    omega
  · exact echoed

/-- Where `maybe_truncate_udp` changes anything, what it returns is no longer than the query. -/
theorem maybeTruncateUdp_length_le (query : Slice) (response : Bytes) :
    ∃ sent, maybeTruncateUdp response query = .ok sent ∧ (sent ≠ response → sent.length ≤ query.len) := by
  by_cases fits : response.length ≤ udpLimit query.data
  · refine ⟨response, ?_, fun changed => absurd rfl changed⟩
    rw [maybeTruncateUdp, udpResponseLimit_eq, ok_bind, if_pos fits]
    rfl
  · have limit := le_udpLimit query.data
    have whole := encode_queryHeader (show 12 ≤ response.length by omega)
    rw [whole, maybeTruncateUdp_eq]
    refine ⟨_, rfl, fun changed => ?_⟩
    split at changed
    · exact absurd rfl changed
    · next cut =>
      rw [if_neg cut]
      have some : questionEnd? query.data ≠ none := fun none => cut (.inr none)
      obtain ⟨stop, ends⟩ := Option.ne_none_iff_exists'.mp some
      obtain ⟨split, parts, _⟩ := exists_split ends
      exact truncate_length_le (Split.long parts) _

/-- An error is no longer than the query. -/
theorem render_error_length_le (clock : Clock) {query : Bytes} (long : 12 ≤ query.length) (params : ZoneParams) (rcode : UInt8) :
    (render clock query params (.error rcode)).length ≤ query.length := by
  have echoed := echoed_le long false
  have length : (render clock query params (.error rcode)).length =
      12 + (questionOf query).length + 11 * (optOf query false).toList.length := layout_length _ _ _
  omega

/-- A reply has at least a header to answer, and is an error or authoritative. -/
theorem reply_shape {query : Slice} {config : Config} {result : Reply} (answered : reply query config = some result) :
    12 ≤ query.len ∧ ((∃ rcode, result = .error rcode) ∨ ∃ params queues, result = .authoritative params queues) := by
  by_cases read : opcode query = 0 ∧ ∃ domain qtype qclass, parseQuery query = .ok (some domain) ∧
      parseQtypeQclass query = .ok (some (qtype, qclass))
  · obtain ⟨standard, domain, qtype, qclass, parsed, typed⟩ := read
    obtain rfl := Option.some.inj (answered.symm.trans (reply_of_question standard parsed typed config))
    refine ⟨(parseQuery_walk parsed).1, ?_⟩
    rcases replyTo_cases config (paramsOf query.data config) (qnameOf query.data) domain qtype qclass with refused | answer
    · exact .inl ⟨_, refused⟩
    · exact .inr ⟨_, answer⟩
  · rcases reply_unread config read with none | error
    · rw [none] at answered
      cases answered
    · obtain rfl := Option.some.inj (answered.symm.trans error)
      refine ⟨?_, .inl ⟨_, rfl⟩⟩
      by_contra short
      rw [reply] at error
      split at error
      · rw [if_pos (by omega)] at error
        cases error
      · rcases parseQuery_eq query with ⟨_, none⟩ | ⟨_, domain, _, _, parsed⟩
        · rw [none] at error
          cases error
        · exact short (parseQuery_walk parsed).1

/-- A refusal, and any truncated response, is no longer than the query. -/
theorem response_length_le (clock : Clock) (query : Slice) (config : Config) :
    (∃ response, handleQueryInternal clock query config = .ok response ∧
      (response ≠ [] → (queryHeader response).rcode = 5 ∨ (queryHeader response).rcode = 4 → response.length ≤ query.len)) ∧
      ∀ response, ∃ sent, maybeTruncateUdp response query = .ok sent ∧ (sent ≠ response → sent.length ≤ query.len) := by
  refine ⟨⟨_, handleQueryInternal_eq .., ?_⟩, maybeTruncateUdp_length_le query⟩
  intro some refused
  cases answered : reply query config with
  | none =>
    rw [answered] at some
    exact absurd rfl some
  | some result =>
    rw [answered, Option.map_some, Option.getD_some, queryHeader_render] at refused
    obtain ⟨long, ⟨rcode, rfl⟩ | ⟨params, queues, rfl⟩⟩ := reply_shape answered
    · exact render_error_length_le clock long _ rcode
    · have noerror : (replyHeader query.data true rcodeNoerror).rcode = 0 := (replyHeader_rcode query.data true (by decide)).2
      change (replyHeader query.data true rcodeNoerror).rcode = 5 ∨ (replyHeader query.data true rcodeNoerror).rcode = 4 at refused
      rw [noerror] at refused
      omega

end RustyAlias
