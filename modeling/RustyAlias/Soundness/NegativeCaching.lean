import RustyAlias.Dns.NegativeCache
import RustyAlias.Soundness.Denials
import RustyAlias.Soundness.LegalNames
import RustyAlias.Soundness.SignatureTimes
import RustyAlias.Soundness.Transports

/-! # Denials may be reused

A resolver keeps the NSEC records of everything that it hears from the servers of the zone and answers from
them. None covers a name, so only types are denied, and what is denied of a name, in any spelling, the servers
do not answer.
-/

namespace RustyAlias

open Rust Rust.Outcome Dns

/-- What a resolver hears from a server with this configuration: the datagram for a well-formed query, or the whole
response to one. -/
inductive Heard (config : Config) (msg : Message) : Prop
  | datagram {clock : Clock} {query : Slice} {question : Question} {datagram : Bytes}
      (standard : StandardQuery query.data question) (sent : handleQuery clock query config = .ok (some datagram))
      (decoded : decode datagram = some msg)
  | whole {clock : Clock} {query : Slice} {question : Question} {response : Bytes}
      (standard : StandardQuery query.data question) (handled : handleQueryInternal clock query config = .ok response)
      (decoded : decode response = some msg)

/-- What a denial says of a name in the zone: what the name has, and nothing of any other name. -/
structure Describes (config : Config) (domain : Str) (denial : Denial) : Prop where
  owner : domain.bytes = text denial.owner
  small : domain.len ≤ isizeMax
  inside : inZone domain config.glueName = true
  next : denial.next = successor denial.owner
  types : ∀ t, t ∈ denial.types ↔ t ∈ servedTypes config (zoneParams config false) domain ∨ t = typeNsec ∨ t = typeRrsig

section Records

variable {params : ZoneParams} {types : List UInt16}

/-- The NSEC records that are written are those that are queued. -/
theorem emitQueues_proves {qname : Bytes} {queues : Queues} (proves : Proves params qname types queues) (clock : Clock) :
    Proves params qname types (emitQueues params qname clock queues) := by
  refine emitQueues_all_sets proves (fun head source first second same nsec => ?_) fun _ _ _ _ _ nsec => ?_
  · have shared : head.typ = source.typ := congrArg Prod.snd same
    have listed := second (shared.symm.trans nsec)
    obtain rfl := first nsec
    rw [listed]
  · exact absurd nsec (show typeRrsig ≠ typeNsec by decide)

/-- What is read from an NSEC record. -/
theorem readDenial_nsecRr {labels : Name} (legal : Legal labels) {denial : Denial}
    (read : readDenial ((nsecRr params (wire labels) types).record labels) = some denial) :
    denial.owner = labels ∧ denial.next = successor labels ∧
      ∀ t, t ∈ denial.types ↔ t ∈ types ∨ t = typeNsec ∨ t = typeRrsig := by
  obtain ⟨bitmap, listed, rdata, blocks, same⟩ := nsecRr_reads legal types
  obtain ⟨_, owner, rest, name, following⟩ := readDenial_eq_some read
  change readName [] (nsecRr params (wire labels) types).rdata = _ at name
  rw [rdata] at name
  have short : (successor labels).length < 512 := by
    have few := legal.length_le
    rw [successor, List.length_cons, fold, List.length_map]
    omega
  obtain ⟨next, rfl⟩ := readName_wire_eq_some (successor_labels legal) short name
  obtain rfl : listed = denial.types := Option.some.inj (blocks.symm.trans following)
  exact ⟨owner, next, same⟩

/-- It is read as long as the successor of the name is a legal name. -/
theorem readDenial_of_short {labels : Name} (legal : Legal labels) (short : (wire labels).length ≤ 253) (params : ZoneParams)
    (types : List UInt16) : ∃ denial, readDenial ((nsecRr params (wire labels) types).record labels) = some denial := by
  obtain ⟨bitmap, listed, rdata, blocks, _⟩ := @nsecRr_reads params labels legal types
  have name : readName [] (wire (successor labels) ++ bitmap) = some (successor labels, bitmap) :=
    readName_wire ((legal_successor_iff legal).mpr short) bitmap
  refine ⟨⟨labels, successor labels, listed⟩, ?_⟩
  rw [readDenial, if_pos (show ((nsecRr params (wire labels) types).record labels).rtype = nsecType from rfl)]
  change (readName [] (nsecRr params (wire labels) types).rdata).bind _ = _
  rw [rdata, name]
  change (readTypes bitmap).bind _ = _
  rw [blocks]
  rfl

end Records

section Messages

variable {config : Config} {msg : Message} {denial : Denial}

/-- The types of a name as its denials list them. -/
theorem servedTypes_paramsOf (query : Bytes) (config : Config) (domain : Str) :
    servedTypes config (paramsOf query config) domain = servedTypes config (zoneParams config false) domain := by
  unfold servedTypes
  rfl

/-- The denials in the message of a whole response. -/
theorem describes_response {query : Slice} {question : Question} (standard : StandardQuery query.data question) (clock : Clock)
    {domain : Str} (spelled : domain.bytes = text question.name) (small : domain.len ≤ isizeMax) {record : Record}
    (member : record ∈ (responseMessage clock query.data config question (replyTo config (paramsOf query.data config)
        (wire question.name) domain question.qtype question.qclass)).answers ++
      (responseMessage clock query.data config question (replyTo config (paramsOf query.data config)
        (wire question.name) domain question.qtype question.qclass)).authority ++
      (responseMessage clock query.data config question (replyTo config (paramsOf query.data config)
        (wire question.name) domain question.qtype question.qclass)).additional)
    (read : readDenial record = some denial) : Describes config domain denial := by
  have nsec : record.rtype = typeNsec := (readDenial_eq_some read).1
  rcases mem_message member with opt | ⟨rr, written, rfl⟩
  · rw [opt] at nsec
    exact absurd nsec (by decide)
  · have proves : Proves (paramsOf query.data config) (wire question.name) (servedTypes config (paramsOf query.data config) domain)
        (replyTo config (paramsOf query.data config) (wire question.name) domain question.qtype question.qclass).queues :=
      replyTo_proves config domain question.qtype question.qclass
    have inside : inZone domain config.glueName = true := by
      rw [← standard.qnameOf_eq] at written
      exact (listed_of_written clock nsec written).1
    obtain rfl := emitQueues_proves proves clock rr written nsec
    obtain ⟨owner, next, types⟩ := readDenial_nsecRr standard.legal read
    rw [servedTypes_paramsOf] at types
    exact ⟨owner.symm ▸ spelled, small, inside, owner.symm ▸ next, types⟩

/-- Every denial that is heard says what the name has. -/
theorem Heard.describes (heard : Heard config msg) (hosts : config.LegalHosts) (few : config.nsNames.length ≤ 16000)
    {record : Record} (member : record ∈ msg.answers ++ msg.authority ++ msg.additional)
    (read : readDenial record = some denial) : ∃ domain, Describes config domain denial := by
  have whole {clock : Clock} {query : Slice} {question : Question} {response : Bytes}
      (standard : StandardQuery query.data question) (handled : handleQueryInternal clock query config = .ok response)
      (decoded : decode response = some msg) : ∃ domain, Describes config domain denial := by
    obtain ⟨domain, spelled, parsed, answered⟩ := standard.reply_eq config
    obtain ⟨octets, handled', decoded', _⟩ := standard.accept_response hosts few answered clock
    obtain rfl : response = octets := Except.ok.inj (handled.symm.trans handled')
    obtain rfl := Option.some.inj (decoded.symm.trans decoded')
    exact ⟨domain, describes_response standard clock spelled (parseQuery_small parsed) member read⟩
  cases heard with
  | whole standard handled decoded => exact whole standard handled decoded
  | @datagram clock query question datagram standard sent decoded =>
    obtain ⟨domain, _, _, answered⟩ := standard.reply_eq config
    obtain ⟨octets, sent', ⟨_, handled⟩ | ⟨_, cut⟩⟩ := standard.handleQuery_cases answered clock
    all_goals obtain rfl : datagram = octets := Option.some.inj (Except.ok.inj (sent.symm.trans sent'))
    · exact whole standard handled decoded
    -- A truncated response has no records but the OPT record.
    · rw [cut, truncate_eq, standard.decode_truncated] at decoded
      obtain rfl := Option.some.inj decoded
      have nsec : record.rtype = typeNsec := (readDenial_eq_some read).1
      rcases mem_message member with opt | ⟨_, none, _⟩
      · rw [opt] at nsec
        exact absurd nsec (by decide)
      · cases none

end Messages

/-- A type that a denial denies at a name is not answered there. -/
theorem Describes.answers {denial : Denial} {config : Config} {source domain : Str} (stated : Describes config source denial)
    (ns : config.nsNames ≠ []) (small : domain.len ≤ isizeMax) (same : lowerAll source.bytes = lowerAll domain.bytes)
    (query qname : Bytes) {t : UInt16} (single : t ≠ typeAny) (unlisted : t ∉ denial.types) :
    inZone domain config.glueName = true ∧ (replyTo config (paramsOf query config) qname domain t 1).queues.answers = [] := by
  have inside : inZone domain config.glueName = true := inZone_congr same config.glueName ▸ stated.inside
  rw [stated.types, not_or, not_or] at unlisted
  obtain ⟨unserved, notNsec, _⟩ := unlisted
  have types : servedTypes config (zoneParams config false) source = servedTypes config (paramsOf query config) domain :=
    servedTypes_congr same stated.small small rfl
  rw [types] at unserved
  refine ⟨inside, List.eq_nil_iff_forall_not_mem.mpr fun rr member => unserved ?_⟩
  have listed := member
  rw [replyTo_lookup inside single notNsec] at listed
  cases found : (nameSets config (paramsOf query config) domain).lookup t with
  | none =>
    rw [found] at listed
    cases listed
  | some entries =>
    rw [found] at listed
    obtain ⟨before, after, parts, _⟩ := List.lookup_eq_some_iff.mp found
    have set : (t, entries) ∈ nameSets config (paramsOf query config) domain := parts ▸ by simp
    have typ := ((nameSets_sorted config domain).owned (t, entries) set rr listed).2
    exact (replyTo_serves (.inl inside) notNsec fun _ => ns).mp ⟨rr, member, typ⟩

/-- A response without answers to a DO query brings a denial, if the name leaves room for its successor. -/
theorem exists_denial {query : Slice} {config : Config} {question : Question} (standard : StandardQuery query.data question)
    (ns : config.nsNames ≠ []) (sign : (paramsOf query.data config).sign = true) (short : (wire question.name).length ≤ 253)
    {domain : Str} (inside : inZone domain config.glueName = true) (clock : Clock)
    (unanswered : (replyTo config (paramsOf query.data config) (wire question.name) domain question.qtype classIn).queues.answers
      = []) :
    ∃ denial ∈ negativeCache [responseMessage clock query.data config question
        (replyTo config (paramsOf query.data config) (wire question.name) domain question.qtype classIn)],
      denial.owner = question.name ∧
        ∀ t, t ∈ denial.types ↔ t ∈ servedTypes config (paramsOf query.data config) domain ∨ t = typeNsec ∨ t = typeRrsig := by
  obtain ⟨_, nodata⟩ := replyTo_nodata inside ns unanswered
  rw [← standard.qnameOf_eq] at nodata
  obtain ⟨nsec, member, typ⟩ := nsec_of_nodata clock sign nodata
  rw [standard.qnameOf_eq] at member
  have proves : Proves (paramsOf query.data config) (wire question.name) (servedTypes config (paramsOf query.data config) domain)
      (replyTo config (paramsOf query.data config) (wire question.name) domain question.qtype classIn).queues :=
    replyTo_proves config domain question.qtype classIn
  obtain rfl := emitQueues_proves proves clock nsec (List.mem_append_left _ (List.mem_append_right _ member)) typ
  obtain ⟨denial, read⟩ := readDenial_of_short standard.legal short (paramsOf query.data config)
    (servedTypes config (paramsOf query.data config) domain)
  obtain ⟨owner, _, types⟩ := readDenial_nsecRr standard.legal read
  refine ⟨denial, ?_, owner, types⟩
  rw [negativeCache, List.flatMap_singleton]
  apply List.mem_filterMap.mpr
  refine ⟨_, ?_, read⟩
  exact List.mem_append_left _ (List.mem_append_right _ (List.mem_map_of_mem member))

/-- Whatever well-formed queries have filled its cache, a resolver that answers from the denials in it says nothing that a
server would not say: a query that the cache denies is answered with NOERROR and nothing else. -/
theorem denials_reusable {config : Config} {msgs : List Message} (heard : ∀ msg ∈ msgs, Heard config msg)
    (hosts : config.LegalHosts) (few : config.nsNames.length ≤ 16000) (ns : config.nsNames ≠ []) {denial : Denial}
    (cached : denial ∈ negativeCache msgs) {query : Slice} {question : Question} (standard : StandardQuery query.data question)
    (internet : question.qclass = classIn) (single : question.qtype ≠ typeAny)
    (denies : denial.Denies question.name question.qtype) (clock : Clock) :
    ∃ response msg, handleQueryInternal clock query config = .ok response ∧ decode response = some msg ∧
      msg.header.rcode = 0 ∧ msg.header.aa = true ∧ msg.answers = [] := by
  obtain ⟨msg, inside, record, present, read⟩ := mem_negativeCache cached
  obtain ⟨source, stated⟩ := (heard msg inside).describes hosts few present read
  obtain ⟨domain, spelled, parsed, answered⟩ := standard.reply_eq config
  rcases denies with ⟨same, unlisted⟩ | ⟨above, below⟩
  · have folded : lowerAll source.bytes = lowerAll domain.bytes := by
      rw [stated.owner, spelled, lowerAll_text, lowerAll_text, same]
    obtain ⟨zone, nothing⟩ := stated.answers ns (parseQuery_small parsed) folded query.data (wire question.name) single unlisted
    obtain ⟨queues, authoritative⟩ := replyTo_inside (paramsOf query.data config) (wire question.name) question.qtype zone
    rw [internet] at answered
    rw [show classIn = 1 from rfl, authoritative] at answered
    rw [authoritative] at nothing
    obtain ⟨response, handled, decoded, _⟩ := standard.accept_response hosts few answered clock
    refine ⟨response, _, handled, decoded, ?_, ?_, ?_⟩
    · exact (replyHeader_rcode query.data true (show rcodeNoerror.toNat < 16 by decide)).2
    · exact (replyHeader_flags query.data true rcodeNoerror).2.2.2
    · change (emitQueues (paramsOf query.data config) (wire question.name) clock queues).answers.map _ = []
      change queues.answers = [] at nothing
      rw [List.map_eq_nil_iff, emitQueues, nothing]
      rfl
  · rw [stated.next] at below
    have nonempty : ∀ label ∈ question.name, label ≠ [] := fun label member =>
      List.ne_nil_of_length_pos (standard.legal.labels label member).1
    exact absurd below (not_precedes_successor nonempty above)

/-- The samples are well formed. -/
theorem sampleTyped_standard (t : UInt16) : StandardQuery (sampleTyped t).data ⟨sampleQuestion.name, t, classIn⟩ where
  opcode := by simp [sampleTyped, queryHeader, Header.opcode]
  qdcount := by simp [sampleTyped, queryHeader, fromBe16]
  octets := ⟨[0, 0, 41, 4, 208, 0, 0, 128, 0, 0, 0], by simp [sampleTyped, sampleQuestion, Question.encode, wire, encodeLabels]⟩
  legal := show Legal sampleQuestion.name by decide +kernel
  nonempty := List.cons_ne_nil _ _
  utf8 := show ∀ label ∈ sampleQuestion.name, Utf8.Valid label by decide +kernel
  free := show ∀ label ∈ sampleQuestion.name, 0 ∉ label by decide +kernel

/-- The denial of AAAA at `10-0-0-1.nip.nu` answers for TXT. -/
theorem denials_reusable_sample :
    ∃ msg denial, Heard sampleSignedConfig msg ∧ denial ∈ negativeCache [msg] ∧
      denial.Denies sampleQuestion.name typeTxt ∧
      ∃ response answer, handleQueryInternal (fun _ => some 9) (sampleTyped typeTxt) sampleSignedConfig = .ok response ∧
        decode response = some answer ∧ answer.header.rcode = 0 ∧ answer.header.aa = true ∧ answer.answers = [] := by
  have legal : sampleSignedConfig.LegalHosts := sampleConfig_legalHosts
  have standard := sampleTyped_standard typeAaaa
  have few : sampleSignedConfig.nsNames.length ≤ 16000 := by decide
  have ns : sampleSignedConfig.nsNames ≠ [] := List.cons_ne_nil _ _
  obtain ⟨domain, spelled, _, answered⟩ := standard.reply_eq sampleSignedConfig
  obtain rfl : domain = .ofString "10-0-0-1.nip.nu" := Str.ext (spelled.trans (by decide +kernel))
  obtain ⟨response, handled, decoded, _⟩ := standard.accept_response legal few answered (fun _ => some 0)
  obtain ⟨denial, cached, owner, types⟩ := @exists_denial (sampleTyped typeAaaa) sampleSignedConfig _ standard ns
    (by decide +kernel) (by decide +kernel) (.ofString "10-0-0-1.nip.nu") (by decide +kernel) (fun _ => some 0) (by decide +kernel)
  have unlisted : typeTxt ∉ denial.types := by
    rw [types]
    decide +kernel
  have denies : denial.Denies sampleQuestion.name typeTxt := .inl ⟨congrArg fold owner, unlisted⟩
  have heard := Heard.whole standard handled decoded
  refine ⟨_, denial, heard, cached, denies, ?_⟩
  exact denials_reusable (List.forall_mem_singleton.mpr heard) legal few ns cached
    (sampleTyped_standard typeTxt) rfl (show typeTxt ≠ typeAny by decide) denies (fun _ => some 9)

end RustyAlias
