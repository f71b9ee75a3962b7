import RustyAlias.Proofs.Dispatch
import RustyAlias.Proofs.StandardQuery
import RustyAlias.Soundness.UdpSize

/-! # Responses are well formed

The response to a well-formed query under a configuration with legal host names decodes, as a whole
and with nothing left over, to the records that the reply consists of.
-/

namespace RustyAlias

open Rust Rust.Outcome Dns

/-- The records written in reply to a query, if it is answered. -/
def written (clock : Clock) (query : Bytes) (config : Config) (reply : Option Reply) : Queues :=
  (reply.map fun result => emitQueues (paramsOf query config) (qnameOf query) clock result.queues).getD ⟨[], [], []⟩

/-- No section of the response exceeds the 65535 records that a count can tell. -/
def SectionsFit (clock : Clock) (query : Slice) (config : Config) : Prop :=
  (written clock query.data config (reply query config)).Countable (optOf query.data false)

/-- A decoded response to a question. -/
structure WellFormed (query response : Bytes) (question : Question) (detected : Bool) (msg : Message) : Prop where
  id : msg.header.id = (queryHeader query).id
  opcode : msg.header.opcode = (queryHeader query).opcode
  rd : msg.header.rd = (queryHeader query).rd
  qr : msg.header.qr = true
  tc : msg.header.tc = false
  ra : msg.header.ra = false
  aa : msg.header.aa = true ↔ msg.header.rcode = 0
  questions : msg.questions = [question]
  octets : question.encode <+: response.drop 12
  ancount : msg.header.ancount.toNat = msg.answers.length
  nscount : msg.header.nscount.toNat = msg.authority.length
  arcount : msg.header.arcount.toNat = msg.additional.length
  /-- One OPT record, in last position, if one was detected, and none otherwise. -/
  opt : ∃ records opts, msg.additional = records ++ opts ∧ opts.length = (if detected then 1 else 0) ∧
    (∀ opt ∈ opts, opt.rtype = typeOpt) ∧ ∀ record ∈ msg.answers ++ msg.authority ++ records, record.rtype ≠ typeOpt

theorem replyHeader_rcode (query : Bytes) (aa : Bool) {rcode : UInt8} (small : rcode.toNat < 16) :
    (replyHeader query aa rcode).ra = false ∧ (replyHeader query aa rcode).rcode = rcode.toNat := by
  have bits : ∀ b : UInt8, b.toNat < 16 → (b &&& 0x0f).toNat.testBit 7 = false ∧ (b &&& 0x0f).toNat % 16 = b.toNat := by
    decide +kernel
  exact bits rcode small

/-- Replies to questions are authoritative when they are no errors. -/
theorem replyTo_aa (config : Config) (params : ZoneParams) (qname : Bytes) (domain : Str) (qtype qclass : UInt16) :
    let result := replyTo config params qname domain qtype qclass
    result.rcode.toNat < 16 ∧ (result.aa = true ↔ result.rcode.toNat = 0) := by
  rcases replyTo_cases config params qname domain qtype qclass with error | ⟨queues, answer⟩
  · rw [error]
    decide
  · rw [answer]
    simp [Reply.authoritative, rcodeNoerror]

theorem Queues.Countable.congr {queues : Queues} {opt opt' : Option Bool} (countable : queues.Countable opt)
    (same : opt'.toList.length = opt.toList.length) : queues.Countable opt' :=
  ⟨countable.answers, countable.authority, same ▸ countable.additional⟩

theorem optOf_length (query : Bytes) (doBit : Bool) :
    (optOf query doBit).toList.length = if (queryOpt? query).isSome then 1 else 0 := by
  unfold optOf
  cases queryOpt? query <;> rfl

/-- A message decoded from a layout tells its own records. -/
theorem message_wellFormed (query : Bytes) {question : Question} {result : Reply} (aa : result.rcode.toNat < 16 ∧
    (result.aa = true ↔ result.rcode.toNat = 0)) {records : Queues} (plain : records.All fun rr => rr.typ ≠ typeOpt)
    (countable : records.Countable (optOf query result.doBit)) :
    WellFormed query
      (layout (replyHeader query result.aa result.rcode) question.encode records (optOf query result.doBit)) question
      (queryOpt? query).isSome
      (message (replyHeader query result.aa result.rcode) question records (optOf query result.doBit)) := by
  have flags := replyHeader_flags query result.aa result.rcode
  have low := replyHeader_rcode query result.aa aa.1
  constructor
  · rfl
  · exact flags.2.1
  · exact flags.2.2.1
  · exact flags.1
  · exact replyHeader_tc query result.aa result.rcode
  · exact low.1
  · change (replyHeader query result.aa result.rcode).aa = true ↔ (replyHeader query result.aa result.rcode).rcode = 0
    rw [flags.2.2.2, low.2, aa.2]
  · rfl
  · rw [layout, ← Header.encode_length, List.drop_left]
    exact List.prefix_append ..
  · simp only [message, withCounts, count_toNat, List.length_map]
    exact Nat.min_eq_left countable.answers
  · simp only [message, withCounts, count_toNat, List.length_map]
    exact Nat.min_eq_left countable.authority
  · simp only [message, withCounts, count_toNat, List.length_append, List.length_map]
    exact Nat.min_eq_left countable.additional
  · refine ⟨_, _, rfl, ?_, ?_, ?_⟩
    · rw [List.length_map, optOf_length]
    · intro opt member
      obtain ⟨_, _, rfl⟩ := List.mem_map.mp member
      rfl
    · intro record member
      simp only [message, ← List.map_append, List.mem_map] at member
      obtain ⟨rr, present, rfl⟩ := member
      exact plain rr present

/-- Every well-formed query gets a response, and the response is well formed. -/
theorem response_wellFormed (clock : Clock) {query : Slice} {config : Config} {question : Question}
    (standard : StandardQuery query.data question) (hosts : config.LegalHosts) (fits : SectionsFit clock query config) :
    ∃ response detected msg, handleQueryInternal clock query config = .ok response ∧ queryHasOpt query = .ok detected ∧
      decode response = some msg ∧ WellFormed query.data response question detected msg := by
  obtain ⟨domain, _, _, answered⟩ := standard.reply_eq config
  rw [SectionsFit, answered, written, Option.map_some, Option.getD_some, standard.qnameOf_eq] at fits
  have legible := standard.emitQueues_legible hosts domain clock
  have plain := replyTo_typ_ne_opt config (paramsOf query.data config) (wire question.name) domain question.qtype
    question.qclass clock
  have aa := replyTo_aa config (paramsOf query.data config) (wire question.name) domain question.qtype question.qclass
  generalize replyTo config (paramsOf query.data config) (wire question.name) domain question.qtype question.qclass = result
    at answered fits legible plain aa
  have countable := fits.congr ((optOf_length query.data result.doBit).trans (optOf_length query.data false).symm)
  exact ⟨_, _, _, standard.handleQueryInternal_eq answered clock, queryHasOpt_eq query,
    decode_layout (standard.replyHeader_qdcount ..) standard.legal legible countable,
    message_wellFormed query.data aa plain countable⟩

section Lengths

variable {params : ZoneParams} {qname : Bytes}

/-- A reply has a record or two for each nameserver and at most seven others in a section. -/
structure Queues.Few (params : ZoneParams) (queues : Queues) : Prop where
  answers : queues.answers.length ≤ params.nsNames.length + 7
  authority : queues.authority.length ≤ params.nsNames.length + 7
  additional : queues.additional.length ≤ 2 * params.nsNames.length

private theorem glueRrs_length_le : (glueRrs params).length ≤ 2 * params.nsNames.length := by
  have glue (name : Str) : (glueOf params name).length ≤ 2 := by
    unfold glueOf
    split
    · cases params.glueIp6 <;> simp
    · simp
  unfold glueRrs
  induction params.nsNames with
  | nil => simp
  | cons name rest ih =>
    have first := glue name
    rw [List.flatMap_cons, List.length_append, List.length_cons]
    omega

private theorem nodataQueues_few (types : List UInt16) : (nodataQueues params qname types).Few params := by
  constructor <;> unfold nodataQueues
  · simp
  · split <;> simp
  · simp

private theorem answers_few {records : List Rr} (few : records.length ≤ params.nsNames.length + 7) :
    Queues.Few params ⟨records, [], []⟩ := ⟨few, by simp, by simp⟩

private theorem apexOr_few {records : List Rr} (few : records.length ≤ 1) : (apexOr params qname records).Few params := by
  unfold apexOr
  split
  · exact nodataQueues_few _
  · exact answers_few (by omega)

private theorem keyed_length_le {n : ℕ} (records : DnssecKey → List Rr) (few : ∀ key, (records key).length ≤ n) :
    ((params.dnssec.map records).getD []).length ≤ n := by
  cases params.dnssec with
  | none => simp
  | some key => exact few key

/-- What the apex answers to an ANY query. -/
theorem any_length_le : ([soaRr params .question] ++ nsRrs params ++ [aRr .question params.glueIp] ++
    (params.glueIp6.map (aaaaRr .question)).toList ++ (params.spf.map txtRr).toList ++
    (params.dnssec.map fun key => [dnskeyRr key, cdsRr key params.zone, cdnskeyRr key]).getD []).length ≤
      params.nsNames.length + 7 := by
  have ns : (nsRrs params).length = params.nsNames.length := by simp [nsRrs]
  have ip6 : (params.glueIp6.map (aaaaRr .question)).toList.length ≤ 1 := Option.length_toList_le
  have spf : (params.spf.map txtRr).toList.length ≤ 1 := Option.length_toList_le
  have keys : ((params.dnssec.map fun key => [dnskeyRr key, cdsRr key params.zone, cdnskeyRr key]).getD []).length ≤ 3 :=
    keyed_length_le _ fun _ => Nat.le_refl 3
  simp only [List.length_append, List.length_singleton]
  omega

private theorem apexQueues_few (qtype : UInt16) : (apexQueues params qname qtype).Few params := by
  have ns : (nsRrs params).length = params.nsNames.length := by simp [nsRrs]
  have glue : (glueRrs params).length ≤ 2 * params.nsNames.length := glueRrs_length_le
  unfold apexQueues
  dsimp only
  split_ifs
  · exact ⟨by simp, ns.trans_le (by omega), glue⟩
  · exact ⟨ns.trans_le (by omega), by simp, glue⟩
  · exact answers_few (by simp)
  · exact apexOr_few Option.length_toList_le
  · exact apexOr_few Option.length_toList_le
  · exact apexOr_few (keyed_length_le _ fun _ => Nat.le_refl 1)
  · exact apexOr_few (keyed_length_le _ fun _ => Nat.le_refl 1)
  · exact apexOr_few (keyed_length_le _ fun _ => Nat.le_refl 1)
  · exact apexOr_few (keyed_length_le _ fun _ => Nat.le_refl 1)
  · exact ⟨any_length_le, by simp, glue⟩
  · exact nodataQueues_few _

private theorem addressQueues_few (qtype : UInt16) (ip : Option Ipv4Addr × Option Ipv6Addr) :
    (addressQueues params qname qtype ip).Few params := by
  unfold addressQueues
  split
  · exact nodataQueues_few _
  · refine answers_few ?_
    rw [addressRrs, List.length_append]
    exact (Nat.add_le_add Option.length_toList_le Option.length_toList_le).trans (by omega)

private theorem replyTo_few (config : Config) (domain : Str) (qtype qclass : UInt16) :
    (replyTo config params qname domain qtype qclass).queues.Few params := by
  have one (rr : Rr) : Queues.Few params ⟨[rr], [], []⟩ := answers_few (by simp)
  have refused : Queues.Few params (Reply.error rcodeRefused).queues := ⟨by simp [Reply.error], by simp [Reply.error],
    by simp [Reply.error]⟩
  unfold replyTo
  split_ifs
  · exact refused
  · exact refused
  · exact one _
  · exact nodataQueues_few _
  · exact refused
  · exact one _
  · exact nodataQueues_few _
  · exact apexQueues_few qtype
  · exact addressQueues_few qtype _
  · cases addressOf (domain.split dot) with
    | none => exact nodataQueues_few _
    | some ip => exact addressQueues_few qtype ip

end Lengths

/-- Sixteen thousand nameservers fit into every response, signed or not. -/
theorem sectionsFit_of_few {config : Config} (few : config.nsNames.length ≤ 16000) (clock : Clock) (query : Slice) :
    SectionsFit clock query config := by
  have opt : (optOf query.data false).toList.length ≤ 1 := by rw [optOf_length]; split <;> omega
  have error (rcode : UInt8) : (Reply.error rcode).queues.Few (paramsOf query.data config) :=
    ⟨by simp [Reply.error], by simp [Reply.error], by simp [Reply.error]⟩
  have reached (result : Reply) (answered : reply query config = some result) :
      result.queues.Few (paramsOf query.data config) := by
    rcases reply_eq_some answered with rfl | ⟨domain, qtype, qclass, rfl⟩
    · exact error _
    · exact replyTo_few ..
  unfold SectionsFit written
  cases answered : reply query config with
  | none => exact ⟨by simp, by simp, by simpa using by omega⟩
  | some result =>
    obtain ⟨answers, authority, additional⟩ := reached result answered
    change _ ≤ config.nsNames.length + 7 at answers authority
    change _ ≤ 2 * config.nsNames.length at additional
    have lengths := @emitQueues_length_le (paramsOf query.data config) (qnameOf query.data) clock result.queues
    simp only [Option.map_some, Option.getD_some]
    exact ⟨by omega, by omega, by omega⟩

theorem sampleResponse_wellFormed :
    ∃ response detected msg, handleQueryInternal (fun _ => some 0) sampleQuery sampleConfig = .ok response ∧
      queryHasOpt sampleQuery = .ok detected ∧ decode response = some msg ∧
      WellFormed sampleQuery.data response sampleQuestion detected msg :=
  response_wellFormed _ sampleQuery_standard sampleConfig_legalHosts (sectionsFit_of_few (by decide) _ _)

end RustyAlias
