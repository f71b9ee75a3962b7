import RustyAlias.Proofs.Emitted

/-! # Well-formed queries

What the server reads from a query that a conforming resolver sends: one complete question about a
legal name. Both readings of the question give the labels of that name, and there is a reply.
-/

namespace RustyAlias

open Rust Rust.Outcome Dns

/-- OPCODE 0 and one complete question, about a legal name of UTF-8 labels without zero octets. -/
structure StandardQuery (query : Bytes) (question : Question) : Prop where
  opcode : (queryHeader query).opcode = 0
  qdcount : (queryHeader query).qdcount = 1
  octets : ∃ rest, query.drop 12 = question.encode ++ rest
  legal : Legal question.name
  nonempty : question.name ≠ []
  utf8 : ∀ label ∈ question.name, Utf8.Valid label
  free : ∀ label ∈ question.name, 0 ∉ label

/-- The host names of a configuration are legal domain names. -/
def Config.LegalHosts (config : Config) : Prop :=
  ∀ name ∈ config.glueName :: config.soaName :: config.hostmaster :: config.nsNames, LegalHost name

theorem opcode_eq (query : Slice) : (opcode query).toNat = (queryHeader query.data).opcode := by
  have bits : ∀ b : UInt8, ((b >>> 3) &&& 0x0f).toNat = b.toNat / 8 % 16 := by decide +kernel
  unfold opcode queryHeader Header.opcode
  dsimp only
  cases present : query.data[2]? with
  | none => simp [present]
  | some b => simp only [List.getD, present, Option.map_some, Option.getD_some, bits]

/-- Behind a legal name without zero octets in its labels, the query splits there. -/
theorem exists_split_of_question {query rest : Bytes} {question : Question} (legal : Legal question.name)
    (free : ∀ label ∈ question.name, 0 ∉ label) (behind : query.drop 12 = question.encode ++ rest) :
    ∃ split : Split, query = split.query ∧ split.qname = encodeLabels question.name ∧ split.qtype = question.qtype ∧
      split.qclass = question.qclass ∧ split.rest = rest ∧ split.question = question.encode := by
  have octets : ∀ label ∈ question.name, 1 ≤ label.length ∧ label.length ≤ 255 := fun label member =>
    have ⟨low, high⟩ := legal.labels label member
    ⟨low, by omega⟩
  have long : 12 ≤ query.length := by
    by_contra short
    rw [List.drop_eq_nil_of_le (by omega)] at behind
    simp [Question.encode, wire] at behind
  refine ⟨⟨query.take 12, encodeLabels question.name, question.qtype, question.qclass, rest, ?_, ?_⟩, ?_, rfl, rfl, rfl,
    rfl, rfl⟩
  · rw [List.length_take]
    omega
  · rintro b member rfl
    exact zero_notMem_encodeLabels octets free member
  · rw [Split.query, List.append_assoc]
    change query = query.take 12 ++ (question.encode ++ rest)
    rw [← behind, List.take_append_drop]

/-- What is read of such a question. -/
theorem qnameOf_question {query : Slice} {rest : Bytes} {question : Question} (legal : Legal question.name)
    (free : ∀ label ∈ question.name, 0 ∉ label) (behind : query.data.drop 12 = question.encode ++ rest) :
    qnameOf query.data = wire question.name ∧ parseQtypeQclass query = .ok (some (question.qtype, question.qclass)) := by
  obtain ⟨split, parts, spelled, qtype, qclass, _⟩ := exists_split_of_question legal free behind
  rw [qnameOf_split parts, spelled, wire, parseQtypeQclass_eq, parts, split.qtypeQclass?_eq, qtype, qclass]
  exact ⟨rfl, rfl⟩

namespace StandardQuery

variable {query : Slice} {question : Question} (standard : StandardQuery query.data question)

include standard

theorem readable : ∀ label ∈ question.name, Readable label := by
  intro label member
  obtain ⟨low, high⟩ := standard.legal.labels label member
  exact ⟨low, by omega, standard.utf8 label member⟩

theorem long : 12 ≤ query.data.length := by
  obtain ⟨rest, behind⟩ := standard.octets
  by_contra short
  rw [List.drop_eq_nil_of_le (by omega)] at behind
  simp [Question.encode, wire] at behind

/-- The question ends where its octets do. -/
theorem exists_split : ∃ split : Split, query.data = split.query ∧ split.qname = encodeLabels question.name ∧
    split.qtype = question.qtype ∧ split.qclass = question.qclass ∧ split.question = question.encode := by
  obtain ⟨rest, behind⟩ := standard.octets
  obtain ⟨split, parts, qname, qtype, qclass, _, same⟩ := exists_split_of_question standard.legal standard.free behind
  exact ⟨split, parts, qname, qtype, qclass, same⟩

theorem questionOf_eq : questionOf query.data = question.encode := by
  obtain ⟨split, parts, _, _, _, octets⟩ := standard.exists_split
  rw [questionOf_split parts, octets]

theorem qnameOf_eq : qnameOf query.data = wire question.name := by
  obtain ⟨split, parts, qname, _⟩ := standard.exists_split
  rw [qnameOf_split parts, qname]
  rfl

theorem parseQuery_eq : ∃ domain : Str, parseQuery query = .ok (some domain) ∧ domain.bytes = text question.name := by
  obtain ⟨rest, behind⟩ := standard.octets
  have walked : walkLabels? (query.data.drop 12) =
      some (question.name, 0 :: (be16 question.qtype ++ (be16 question.qclass ++ rest))) := by
    rw [behind, Question.encode, wire]
    simp only [List.append_assoc, List.singleton_append]
    exact walkLabels?_encode standard.readable (.inr rfl)
  have accepted : parsedLabels? query.data = some question.name := by
    rw [parsedLabels?, if_neg, walked]
    · simp [standard.nonempty]
    · rw [not_or, not_not]
      exact ⟨by have := standard.long; omega, standard.qdcount⟩
  rcases RustyAlias.parseQuery_eq query with ⟨refused, _⟩ | ⟨labels, domain, read, spelled, result⟩
  · rw [accepted] at refused; cases refused
  · rw [accepted] at read
    cases read
    exact ⟨domain, result, spelled⟩

/-- A well-formed query is answered. -/
theorem reply_eq (config : Config) : ∃ domain : Str, domain.bytes = text question.name ∧
    parseQuery query = .ok (some domain) ∧
    reply query config = some (replyTo config (paramsOf query.data config) (wire question.name) domain question.qtype
      question.qclass) := by
  obtain ⟨domain, parsed, spelled⟩ := standard.parseQuery_eq
  obtain ⟨split, parts, _, qtype, qclass, _⟩ := standard.exists_split
  have zero : RustyAlias.opcode query = 0 := UInt8.toNat_inj.mp (by rw [opcode_eq, standard.opcode]; rfl)
  refine ⟨domain, spelled, parsed, ?_⟩
  rw [reply, if_neg (not_not.mpr zero), parsed, standard.qnameOf_eq]
  nth_rewrite 1 [parts]
  rw [split.qtypeQclass?_eq, qtype, qclass]
  rfl

theorem replyHeader_qdcount (aa : Bool) (rcode : UInt8) : (replyHeader query.data aa rcode).qdcount = 1 := standard.qdcount

/-- What is returned for a well-formed query. -/
theorem handleQueryInternal_eq {config : Config} {result : Reply} (answered : reply query config = some result)
    (clock : Clock) :
    handleQueryInternal clock query config =
      .ok (layout (replyHeader query.data result.aa result.rcode) question.encode
        (emitQueues (paramsOf query.data config) (wire question.name) clock result.queues)
        (optOf query.data result.doBit)) := by
  rw [RustyAlias.handleQueryInternal_eq, answered, Option.map_some, Option.getD_some, render, standard.questionOf_eq,
    standard.qnameOf_eq]

theorem emitQueues_legible {config : Config} (hosts : config.LegalHosts) (domain : Str) (clock : Clock) :
    (emitQueues (paramsOf query.data config) (wire question.name) clock (replyTo config (paramsOf query.data config)
      (wire question.name) domain question.qtype question.qclass).queues).All Rr.Legible := by
  have short : (wire question.name).length ≤ 255 := standard.legal.total
  have queued : (replyTo config (paramsOf query.data config) (wire question.name) domain question.qtype
      question.qclass).queues.All (Queued (paramsOf query.data config) (wire question.name)) :=
    replyTo_queued config domain question.qtype question.qclass
  exact RustyAlias.emitQueues_legible queued hosts short clock

end StandardQuery

/-- An A query for `10-0-0-1.nip.nu` whose OPT record has the DO bit set. -/
def sampleQuery : Slice where
  data := [0, 7, 1, 0, 0, 1, 0, 0, 0, 0, 0, 1] ++ [8, 49, 48, 45, 48, 45, 48, 45, 49, 3, 110, 105, 112, 2, 110, 117, 0] ++
    be16 typeA ++ be16 classIn ++ [0, 0, 41, 4, 208, 0, 0, 128, 0, 0, 0]
  length_le := by decide +kernel

def sampleQuestion : Question where
  name := [[49, 48, 45, 48, 45, 48, 45, 49], [110, 105, 112], [110, 117]]
  qtype := typeA
  qclass := classIn

theorem sampleQuery_standard : StandardQuery sampleQuery.data sampleQuestion where
  opcode := by decide +kernel
  qdcount := by decide +kernel
  octets := ⟨[0, 0, 41, 4, 208, 0, 0, 128, 0, 0, 0], by decide +kernel⟩
  legal := by decide +kernel
  nonempty := by decide
  utf8 := by decide +kernel
  free := by decide +kernel

theorem sampleConfig_legalHosts : sampleConfig.LegalHosts := by
  unfold Config.LegalHosts
  decide +kernel

/-- A reply is an error or authoritative. -/
theorem replyTo_cases (config : Config) (params : ZoneParams) (qname : Bytes) (domain : Str) (qtype qclass : UInt16) :
    replyTo config params qname domain qtype qclass = .error rcodeRefused ∨
      ∃ queues, replyTo config params qname domain qtype qclass = .authoritative params queues := by
  unfold replyTo
  split_ifs
  all_goals first
    | exact .inl rfl
    | exact .inr ⟨_, rfl⟩

end RustyAlias
