import RustyAlias.Proofs.Reply
import RustyAlias.Spec.Contents

/-! # Which questions are answered

A question of class IN about a name in the zone is answered with authority, and one about a name
outside is refused unless it asks for a version name. A query whose question is not read gets an
error without records, or nothing.
-/

namespace RustyAlias

open Rust Rust.Outcome Dns

section Questions

variable {config : Config} {domain : Str} {qclass : UInt16} (params : ZoneParams) (qname : Bytes) (qtype : UInt16)

theorem replyTo_inside (inside : inZone domain config.glueName = true) :
    ∃ queues, replyTo config params qname domain qtype 1 = .authoritative params queues := by
  unfold replyTo
  rw [if_neg (not_not.mpr rfl), inside]
  simp only [Bool.not_true, Bool.false_and, Bool.false_eq_true, if_false, if_true]
  split_ifs
  all_goals exact ⟨_, rfl⟩

variable {params qname qtype}

/-- A version name is answered wherever it lies. -/
theorem replyTo_version (version : isVersionQuery domain = true) (asked : qtype = typeTxt ∨ qtype = typeAny) :
    replyTo config params qname domain qtype 1 =
      .authoritative params ⟨[txtRr (.ofString "RustyAlias v" ++ config.version)], [], []⟩ := by
  unfold replyTo
  rw [if_neg (not_not.mpr rfl), version]
  simp only [Bool.not_true, Bool.and_false, Bool.false_eq_true, if_false, if_true]
  rw [if_pos asked]

/-- Nothing else outside the zone is. -/
theorem replyTo_refused (outside : inZone domain config.glueName = false)
    (other : ¬ (qclass = 1 ∧ isVersionQuery domain = true ∧ (qtype = typeTxt ∨ qtype = typeAny))) :
    replyTo config params qname domain qtype qclass = .error rcodeRefused := by
  unfold replyTo
  by_cases internet : qclass = 1
  · rw [if_neg (not_not.mpr internet), outside]
    cases version : isVersionQuery domain with
    | false => rfl
    | true =>
      rw [if_neg (by decide), if_pos rfl, if_neg fun asked => other ⟨internet, version, asked⟩]
      rfl
  · rw [if_pos internet]

end Questions

/-- Every response is the layout of its contents. -/
theorem handleQueryInternal_contents (clock : Clock) (query : Slice) (config : Config) :
    handleQueryInternal clock query config = .ok (responseOctets query.data (responseContents clock query config)) := by
  rw [handleQueryInternal_eq, responseOctets, responseContents, Option.map_map]
  rfl

/-- What the response to a question consists of. -/
theorem contents_of_question {query : Slice} {domain : Str} {qtype qclass : UInt16} (standard : opcode query = 0)
    (parsed : parseQuery query = .ok (some domain))
    (typed : parseQtypeQclass query = .ok (some (qtype, qclass))) (clock : Clock) (config : Config) :
    handleQueryInternal clock query config = .ok ((contentsOf clock query.data (paramsOf query.data config)
      (replyTo config (paramsOf query.data config) (qnameOf query.data) domain qtype qclass)).response query.data) :=
  handleQueryInternal_of_question standard parsed typed clock config

/-- A query whose question is not read gets an error without records, or nothing. -/
theorem reply_unread {query : Slice} (config : Config) (unread : ¬ (opcode query = 0 ∧ ∃ domain qtype qclass,
    parseQuery query = .ok (some domain) ∧ parseQtypeQclass query = .ok (some (qtype, qclass)))) :
    reply query config = none ∨ reply query config = some (.error rcodeNotimp) := by
  unfold reply
  by_cases standard : opcode query = 0
  · rw [if_neg (not_not.mpr standard)]
    left
    rcases parseQuery_eq query with ⟨_, none⟩ | ⟨_, domain, _, _, parsed⟩
    · rw [none]
      rfl
    · cases typed : qtypeQclass? query.data with
      | none => rw [parsed]; rfl
      | some pair => exact absurd ⟨standard, domain, pair.1, pair.2, parsed, by rw [parseQtypeQclass_eq, typed]⟩ unread
  · rw [if_pos standard]
    split
    · exact .inl rfl
    · exact .inr rfl

/-- A reply is an error or answers a question. -/
theorem reply_eq_some {query : Slice} {config : Config} {result : Reply} (answered : reply query config = some result) :
    result = .error rcodeNotimp ∨ ∃ domain qtype qclass,
      result = replyTo config (paramsOf query.data config) (qnameOf query.data) domain qtype qclass := by
  by_cases read : opcode query = 0 ∧ ∃ domain qtype qclass, parseQuery query = .ok (some domain) ∧
      parseQtypeQclass query = .ok (some (qtype, qclass))
  · obtain ⟨standard, domain, qtype, qclass, parsed, typed⟩ := read
    obtain rfl := Option.some.inj (answered.symm.trans (reply_of_question standard parsed typed config))
    exact .inr ⟨domain, qtype, qclass, rfl⟩
  · rcases reply_unread config read with missing | error
    · rw [missing] at answered
      cases answered
    · exact .inl (Option.some.inj (answered.symm.trans error))

theorem carries_of_reply (clock : Clock) {query : Slice} {config : Config} {result : Reply}
    (answered : reply query config = some result) :
    Carries clock query config (contentsOf clock query.data (paramsOf query.data config) result).records := by
  refine .inr ⟨_, rfl, ?_⟩
  rw [handleQueryInternal_eq, answered]
  rfl

/-- Then the response has no records. -/
theorem carries_nothing (clock : Clock) {query : Slice} (config : Config) (unread : ¬ (opcode query = 0 ∧ ∃ domain qtype qclass,
    parseQuery query = .ok (some domain) ∧ parseQtypeQclass query = .ok (some (qtype, qclass)))) :
    Carries clock query config ⟨[], [], []⟩ := by
  rcases reply_unread config unread with missing | error
  · refine .inl ⟨?_, rfl⟩
    rw [handleQueryInternal_eq, missing]
    rfl
  · exact carries_of_reply clock error

end RustyAlias
