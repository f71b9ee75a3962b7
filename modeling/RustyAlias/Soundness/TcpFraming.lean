import RustyAlias.Soundness.Amplification
import RustyAlias.Soundness.QuestionNames
import RustyAlias.Soundness.RecordRoom
import RustyAlias.Soundness.TcpLoop
import RustyAlias.Soundness.ZoneBoundary

/-! # The length in front of a TCP response

The length of the response is cut to 16 bits, so it is right for responses of up to 65535 octets. The records of
a zone of at most twenty nameservers leave room for most questions, but nothing limits the question: it is
echoed, and the NSEC record of a denial holds its name again. A question that fills the query makes a longer
response.
-/

namespace RustyAlias

open Rust Rust.Outcome Dns

/-- A question of OPCODE 0 and class IN. -/
structure ZoneQuestion (query : Slice) (domain : Str) (qtype : UInt16) : Prop where
  standard : opcode query = 0
  parsed : parseQuery query = .ok (some domain)
  typed : parseQtypeQclass query = .ok (some (qtype, classIn))

/-- If the zone is asked, then header, question and OPT record leave room for the records. -/
def LeavesRoom (query : Slice) (config : Config) : Prop :=
  ∀ domain qtype, ZoneQuestion query domain qtype →
    12 + (questionOf query.data).length + (if (queryOpt? query.data).isSome then 11 else 0) +
      recordRoom (paramsOf query.data config) config domain qtype (qnameOf query.data).length ≤ 65535

section Room

variable {query : Slice} {config : Config} {domain : Str} {qtype : UInt16}

private theorem qnameOf_length_le_questionOf : (qnameOf query.data).length ≤ (questionOf query.data).length := by
  unfold qnameOf questionOf
  cases questionEnd? query.data with
  | none => simp
  | some stop =>
    simp only [Option.map_some, Option.getD_some, List.length_drop, List.length_take]
    omega

/-- The response to a question about the zone. -/
theorem ZoneQuestion.responseSize_eq (zone : ZoneQuestion query domain qtype) : responseSize query config =
    12 + (questionOf query.data).length + (if (queryOpt? query.data).isSome then 11 else 0) +
      recordRoom (paramsOf query.data config) config domain qtype (qnameOf query.data).length := by
  have records : (replyTo config (paramsOf query.data config) (qnameOf query.data) domain qtype classIn).queues.size
      (paramsOf query.data config) = recordRoom (paramsOf query.data config) config domain qtype (qnameOf query.data).length :=
    replyTo_size (qnameOf_length_le query)
  rw [responseSize, reply_of_question zone.standard zone.parsed zone.typed config]
  dsimp only
  rw [optOf_length, records]
  split <;> omega

theorem ZoneQuestion.leavesRoom_iff (zone : ZoneQuestion query domain qtype) :
    LeavesRoom query config ↔ responseSize query config ≤ 65535 := by
  rw [zone.responseSize_eq]
  constructor
  · exact fun room => room domain qtype zone
  · intro room domain' qtype' zone'
    obtain rfl : domain = domain' := Option.some.inj (Except.ok.inj (zone.parsed.symm.trans zone'.parsed))
    obtain ⟨rfl, -⟩ := Prod.mk.inj (Option.some.inj (Except.ok.inj (zone.typed.symm.trans zone'.typed)))
    exact room

/-- Any other response has no records, and is no longer than the query. -/
theorem responseSize_of_not (other : ∀ domain qtype, ¬ ZoneQuestion query domain qtype) :
    responseSize query config ≤ query.data.length := by
  unfold responseSize
  cases answered : reply query config with
  | none => exact Nat.zero_le _
  | some result =>
    have echoed := echoed_le (reply_shape answered).1 result.doBit
    have bare (rcode : UInt8) (error : result = .error rcode) : result.queues.size (paramsOf query.data config) = 0 := by
      rw [error]
      rfl
    have none : result.queues.size (paramsOf query.data config) = 0 := by
      by_cases read : opcode query = 0 ∧ ∃ domain qtype qclass, parseQuery query = .ok (some domain) ∧
          parseQtypeQclass query = .ok (some (qtype, qclass))
      · obtain ⟨standard, domain, qtype, qclass, parsed, typed⟩ := read
        obtain rfl := Option.some.inj (answered.symm.trans (reply_of_question standard parsed typed config))
        have foreign : qclass ≠ 1 := by
          rintro rfl
          exact other domain qtype ⟨standard, parsed, typed⟩
        exact bare _ (if_pos foreign)
      · rcases reply_unread config read with missing | error
        · rw [missing] at answered
          cases answered
        · exact bare _ (Option.some.inj (answered.symm.trans error))
    dsimp only
    omega

/-- The header, the question, the OPT record and the records are all that a response has. -/
theorem responseSize_le_iff (fits : query.data.length ≤ 65535) : responseSize query config ≤ 65535 ↔ LeavesRoom query config := by
  by_cases zone : ∃ domain qtype, ZoneQuestion query domain qtype
  · obtain ⟨domain, qtype, zone⟩ := zone
    exact zone.leavesRoom_iff.symm
  · have other : ∀ domain qtype, ¬ ZoneQuestion query domain qtype := by simpa using zone
    exact iff_of_true ((responseSize_of_not other).trans fits) fun domain qtype zone => absurd zone (other domain qtype)

private theorem leavesRoom_of_short (hosts : config.LegalHosts) (few : config.nsNames.length ≤ 20)
    (short : (questionOf query.data).length ≤ 5000) : LeavesRoom query config := by
  intro domain qtype _
  have echoed := @qnameOf_length_le_questionOf query
  have legal : (paramsOf query.data config).LegalHosts := hosts
  have records : recordRoom (paramsOf query.data config) config domain qtype (qnameOf query.data).length ≤ 60000 :=
    recordRoom_le legal few (by omega)
  split <;> omega

theorem responseSize_le (hosts : config.LegalHosts) (few : config.nsNames.length ≤ 20) (fits : query.data.length ≤ 65535)
    (short : (questionOf query.data).length ≤ 5000) : responseSize query config ≤ 65535 :=
  (responseSize_le_iff fits).mpr (leavesRoom_of_short hosts few short)

end Room

/-- What is written for a connection that asks. -/
theorem serveConnection_asks (config : Config) {stream : Connection} {query : Slice} (asks : stream.Asks query) :
    ∃ response, serveConnection config stream = .ok (.ok (be16 (responseLen response) ++ response)) ∧
      response.length = responseSize query config := by
  obtain ⟨response, answered, length⟩ := handleQueryInternal_length stream.clock query config
  obtain ⟨peer, allowed, read, first, second⟩ := asks
  exact ⟨response, by simp [serveConnection_eq, peer, allowed, read, first, second, answered], length⟩

private theorem responseLen_eq_iff (response : Bytes) :
    (responseLen response).toNat = response.length ↔ response.length ≤ 65535 := by
  rw [responseLen, UInt16.toNat_ofNat']
  omega

theorem Connection.Asks.length_le {stream : Connection} {query : Slice} (asks : stream.Asks query) : query.data.length ≤ 65535 := by
  obtain ⟨_, _, read, _⟩ := asks
  obtain ⟨⟨high, low⟩, _, read⟩ := Option.bind_eq_some_iff.mp read
  obtain ⟨buf, _, rfl⟩ := Option.map_eq_some_iff.mp read
  have small := (fromBe16 high low).toNat_lt
  rw [received, Vector.length_toList]
  omega

/-- The length in front of a response is right exactly when the question leaves room for the records. Short questions do. -/
theorem frameLength_eq_iff (config : Config) {stream : Connection} {query : Slice} (asks : stream.Asks query) :
    (∃ len response, serveConnection config stream = .ok (.ok (be16 len ++ response)) ∧
      (len.toNat = response.length ↔ LeavesRoom query config)) ∧
    (config.LegalHosts → config.nsNames.length ≤ 20 → (questionOf query.data).length ≤ 5000 → LeavesRoom query config) := by
  obtain ⟨response, served, length⟩ := serveConnection_asks config asks
  refine ⟨⟨responseLen response, response, served, ?_⟩, leavesRoom_of_short⟩
  rw [responseLen_eq_iff, length]
  exact responseSize_le_iff asks.length_le

theorem sampleStream_framed : ∃ len response,
    serveConnection sampleConfig (sampleStream true) = .ok (.ok (be16 len ++ response)) ∧ len.toNat = response.length := by
  have asks : (sampleStream true).Asks sampleQuery := ⟨rfl, rfl, rfl, rfl, rfl⟩
  obtain ⟨⟨len, response, served, right⟩, short⟩ := frameLength_eq_iff sampleConfig asks
  exact ⟨len, response, served, right.mpr (short sampleConfig_legalHosts (by decide) (by decide +kernel))⟩

section Full

variable {n : ℕ}

/-- The labels of a long name in the zone. -/
def fullLabels (n : ℕ) : Name := List.replicate n (List.replicate 63 97) ++ [List.replicate 38 97, [110, 105, 112], [110, 117]]

private theorem fullLabels_letters : ∀ label ∈ fullLabels n, label ≠ [] ∧ label.length ≤ 63 ∧ ∀ b ∈ label, b ≠ 0 ∧ b < 128 := by
  have repeated (m : ℕ) : ∀ b ∈ List.replicate m (97 : UInt8), b ≠ 0 ∧ b < 128 := by
    intro b member
    rw [List.eq_of_mem_replicate member]
    decide
  intro label member
  rcases List.mem_append.mp member with member | member
  · rw [List.eq_of_mem_replicate member]
    exact ⟨by simp, by simp, repeated 63⟩
  · simp only [List.mem_cons, List.not_mem_nil, or_false] at member
    rcases member with rfl | rfl | rfl
    · exact ⟨by simp, by simp, repeated 38⟩
    · decide +kernel
    · decide +kernel

private theorem fullLabels_readable : ∀ label ∈ fullLabels n, Readable label := by
  intro label member
  obtain ⟨nonempty, short, ascii⟩ := fullLabels_letters label member
  exact ⟨List.length_pos_of_ne_nil nonempty, by omega, Utf8.valid_ascii fun b inside => (ascii b inside).2⟩

/-- A question about them, for a type that no name has. -/
def fullSplit (n : ℕ) : Split where
  header := questionHeader.encode
  qname := encodeLabels (fullLabels n)
  qtype := 15
  qclass := classIn
  rest := []
  header_length := questionHeader.encode_length
  nonzero := by
    have octets : ∀ label ∈ fullLabels n, 1 ≤ label.length ∧ label.length ≤ 255 := fun label member =>
      ⟨(fullLabels_readable label member).nonempty, (fullLabels_readable label member).length_le⟩
    have free : ∀ label ∈ fullLabels n, 0 ∉ label := fun label member zero =>
      ((fullLabels_letters label member).2.2 0 zero).1 rfl
    rintro b member rfl
    exact zero_notMem_encodeLabels octets free member

private theorem fullSplit_question (n : ℕ) : (fullSplit n).question.length = 64 * n + 51 := by
  have qname : (fullSplit n).qname.length = 64 * n + 46 := by
    change (encodeLabels (fullLabels n)).length = _
    rw [fullLabels, encodeLabels_append, List.length_append, encodeLabels, List.length_flatMap]
    simp [Nat.mul_comm]
  rw [Split.question_length, qname]

private theorem fullSplit_length (n : ℕ) : (fullSplit n).query.length = 64 * n + 63 := by
  rw [Split.query, List.length_append, List.length_append, fullSplit_question, Split.header_length]
  change 12 + (64 * n + 51) + 0 = _
  omega

/-- A name of 1026 labels fills a query. -/
def fullQuery : Slice := ⟨(fullSplit 1023).query, by rw [fullSplit_length]; decide⟩

/-- A client that sends it, and to which all I/O succeeds. -/
def fullStream : Connection where
  peerAddr := true
  allowed := true
  readLength := some (255, 255)
  readQuery length := if same : fullQuery.data.length = length then some ⟨fullQuery.data.toArray, same⟩ else none
  writeLength := true
  writeResponse := true
  clock _ := none

private theorem fullStream_asks : fullStream.Asks fullQuery := by
  refine ⟨rfl, rfl, ?_, rfl, rfl⟩
  have full : fullQuery.data.length = (fromBe16 255 255).toNat := fullSplit_length 1023
  simp [Connection.query?, fullStream, full, received]

private theorem sectionSize_pos {params : ZoneParams} {rrs : List Rr} (present : rrs ≠ []) : 0 < sectionSize params rrs := by
  obtain ⟨rr, member⟩ := List.exists_mem_of_ne_nil rrs present
  rw [← List.runs_flatten Rr.setKey rrs] at member
  obtain ⟨set, inside, member⟩ := List.mem_flatten.mp member
  have size : 0 < setSize params set := by
    cases set with
    | nil => cases member
    | cons head rest =>
      rw [setSize, List.map_cons, List.sum_cons]
      omega
  exact size.trans_le (List.le_sum_of_mem (List.mem_map_of_mem inside))

/-- A type without records is answered in the zone by a record, be it a text or the SOA record of a denial. -/
theorem replyTo_size_pos {params : ZoneParams} {qname : Bytes} {config : Config} {domain : Str}
    (inside : inZone domain config.glueName = true) :
    0 < (replyTo config params qname domain 15 1).queues.size params := by
  have denial (types : List UInt16) : 0 < (nodataQueues params qname types).size params :=
    Nat.add_pos_left (Nat.add_pos_right _ (sectionSize_pos (List.cons_ne_nil _ _))) _
  rcases @replyTo_kinds params qname 15 config domain inside with
    ⟨_, _, value, same⟩ | ⟨_, _, same⟩ | ⟨_, _, same⟩ | ⟨_, ip, _, same⟩ <;> rw [same]
  · exact Nat.add_pos_left (Nat.add_pos_left (sectionSize_pos (List.cons_ne_nil _ _)) _) _
  · exact denial _
  · rw [(apexQueues_unknown (by decide)).2]
    exact denial _
  · have missing : addressRrs 15 ip = [] := (addressRrs_eq_nil_iff ip).mpr (by
      obtain ⟨_ | v4, _ | v6⟩ := ip <;> simp [Wants, addressTypes, typeA, typeAaaa, typeAny])
    rw [addressQueues, if_pos missing]
    exact denial _

/-- A record of the reply is one too many. -/
theorem fullQuery_size : 65535 < responseSize fullQuery sampleConfig := by
  have asks : Asks fullQuery.data (fullLabels 1023) (0 :: (be16 15 ++ be16 classIn)) :=
    ⟨questionHeader, rfl, by simp [fullQuery, Split.query, Split.question, fullSplit]⟩
  have nonroot : fullLabels 1023 ≠ [] := List.append_ne_nil_of_right_ne_nil _ (by simp)
  obtain ⟨domain, spelled, parsed⟩ := asks.parsed nonroot fullLabels_readable (.inr rfl)
  have typed : parseQtypeQclass fullQuery = .ok (some (15, classIn)) := by
    rw [parseQtypeQclass_eq]
    exact congrArg _ (fullSplit 1023).qtypeQclass?_eq
  have inside : inZone domain sampleConfig.glueName = true := by
    refine inZone_of_suffix spelled (fun label member => (fullLabels_letters label member).1) (by decide +kernel) ?_
    have zone : hostLabels sampleConfig.glueName = [[110, 105, 112], [110, 117]] := by decide +kernel
    rw [zone]
    have ends : [[110, 105, 112], [110, 117]] <:+ fullLabels 1023 := ⟨_, List.append_assoc _ [List.replicate 38 97] _⟩
    exact ends.map lowerAll
  have answered := reply_of_question (by decide) parsed typed sampleConfig
  have question : (questionOf fullQuery.data).length = 65523 := by
    have parts : fullQuery.data = (fullSplit 1023).query := rfl
    rw [questionOf_split parts, fullSplit_question]
  have records : 0 < (replyTo sampleConfig (paramsOf fullQuery.data sampleConfig) (qnameOf fullQuery.data) domain 15 1).queues.size
      (paramsOf fullQuery.data sampleConfig) := replyTo_size_pos inside
  rw [responseSize, answered, classIn, question]
  dsimp only
  omega

/-- The response is longer than its length can tell. -/
theorem fullQuery_misframed :
    ∃ len response, serveConnection sampleConfig fullStream = .ok (.ok (be16 len ++ response)) ∧
      len.toNat ≠ response.length ∧ fullStream.Asks fullQuery ∧ fullQuery.data.length = 65535 ∧ sampleConfig.LegalHosts ∧
      sampleConfig.nsNames.length ≤ 20 := by
  obtain ⟨response, served, length⟩ := serveConnection_asks sampleConfig fullStream_asks
  have long := fullQuery_size
  refine ⟨responseLen response, response, served, fun right => ?_, fullStream_asks, fullSplit_length 1023,
    sampleConfig_legalHosts, by decide⟩
  have short := (responseLen_eq_iff response).mp right
  omega

end Full

end RustyAlias
