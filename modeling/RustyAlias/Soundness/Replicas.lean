import RustyAlias.Proofs.Plain
import RustyAlias.Soundness.Transports

/-! # Replicas agree

Every nameserver of a zone runs the same program on the same configuration, each with its own clock. A resolver
may ask any of them, at any time and with whatever else in its query: for one question, one RD bit and one OPT
reading it gets the same datagram, but for the ID and the times and octets of signatures.
-/

namespace RustyAlias

open Rust Rust.Outcome Dns

/-- The RDATA of a signature without its times and the signature proper. -/
def undated (rdata : Bytes) : Bytes := rdata.take 8 ++ (rdata.drop 16).take (rdata.length - 80)

def Rr.timeless (rr : Rr) : Rr := if rr.typ = typeRrsig then { rr with rdata := undated rr.rdata } else rr

/-- The record, without what the time of its signing decides if it is a signature. -/
def timeless (record : Record) : Record :=
  if record.rtype = typeRrsig then { record with rdata := undated record.rdata } else record

private theorem timeless_record (qname : Name) (rr : Rr) : timeless (rr.record qname) = rr.timeless.record qname := by
  unfold timeless Rr.timeless
  split
  · next signature =>
    rw [if_pos (show rr.typ = typeRrsig from signature)]
    rfl
  · next other => rw [if_neg (show ¬ rr.typ = typeRrsig from other)]

private theorem undated_append {front times middle signature : Bytes} (eight : front.length = 8) (eight' : times.length = 8)
    (width : signature.length = 64) : undated (front ++ (times ++ (middle ++ signature))) = front ++ middle := by
  have sixteen : (front ++ times).length = 16 := by rw [List.length_append, eight, eight']
  have length : (front ++ (times ++ (middle ++ signature))).length - 80 = middle.length := by
    simp only [List.length_append, eight, eight', width]
    omega
  have behind : (front ++ (times ++ (middle ++ signature))).drop 16 = middle ++ signature := by
    rw [← List.append_assoc, ← sixteen, List.drop_left]
  rw [undated, length, behind, List.take_left, ← eight, List.take_left]

section Emission

variable {params : ZoneParams} {qname : Bytes}

/-- Two signatures over one RRset differ in their times and in the signature proper. -/
theorem undated_signRrsig (key : DnssecKey) (reading reading' : ClockReading) (owner : Bytes) (typ : UInt16) (ttl : UInt32)
    (rdatas : List Bytes) (zone : Str) :
    undated (key.signRrsig reading owner typ ttl rdatas zone).value =
      undated (key.signRrsig reading' owner typ ttl rdatas zone).value := by
  have octets (reading : ClockReading) (labels : UInt8) (signature : Vector UInt8 64) :
      undated (key.rrsigPrefix reading labels typ ttl zone ++ signature.toList) =
        be16 typ ++ [algEcdsap256sha256, labels] ++ be32 ttl ++ (be16 key.keyTag ++ encodeDomainName zone) := by
    have shape : key.rrsigPrefix reading labels typ ttl zone ++ signature.toList =
        be16 typ ++ [algEcdsap256sha256, labels] ++ be32 ttl ++
          (be32 (signatureTimes reading).2 ++ be32 (signatureTimes reading).1 ++
            (be16 key.keyTag ++ encodeDomainName zone ++ signature.toList)) := by
      simp [DnssecKey.rrsigPrefix]
    rw [shape, undated_append rfl rfl Vector.length_toList]
  unfold DnssecKey.signRrsig
  cases labelCount owner with
  | error panic =>
    have panics (next : UInt8 → Outcome Bytes) : (Except.error panic >>= next) = .error panic := rfl
    rw [panics, panics]
  | ok labels => simp only [ok_bind, pure_eq_ok, value_ok, octets]

private theorem rrsigRr_timeless (key : DnssecKey) (reading reading' : ClockReading) (head : Rr) (rdatas : List Bytes) :
    (rrsigRr params qname key reading head rdatas).timeless = (rrsigRr params qname key reading' head rdatas).timeless := by
  have timeless (rdata : Bytes) : Rr.timeless ⟨head.owner, typeRrsig, head.ttl, rdata⟩ =
      ⟨head.owner, typeRrsig, head.ttl, undated rdata⟩ := if_pos rfl
  rw [rrsigRr, rrsigRr, timeless, timeless, undated_signRrsig key reading reading']

private theorem emitSet_timeless (reading reading' : ClockReading) (set : List Rr) :
    (emitSet params qname reading set).map Rr.timeless = (emitSet params qname reading' set).map Rr.timeless := by
  cases set with
  | nil => rfl
  | cons head rest =>
    rw [emitSet_eq, emitSet_eq, List.map_append, List.map_append]
    cases params.signer head.typ with
    | none => rw [Option.map_none, Option.map_none]
    | some key =>
      rw [Option.map_some, Option.map_some, Option.toList_some, Option.toList_some, List.map_singleton, List.map_singleton,
        rrsigRr_timeless key reading reading']

private theorem emitSets_timeless (clock clock' : Clock) (sets : List (List Rr)) :
    (emitSets params qname clock sets).1.map Rr.timeless = (emitSets params qname clock' sets).1.map Rr.timeless := by
  induction sets generalizing clock clock' with
  | nil => rfl
  | cons set rest ih =>
    rw [emitSets, emitSets, List.map_append, List.map_append, emitSet_timeless clock.head clock'.head,
      ih (clockAfter params clock set) (clockAfter params clock' set)]

def Queues.timeless (queues : Queues) : Queues :=
  ⟨queues.answers.map Rr.timeless, queues.authority.map Rr.timeless, queues.additional.map Rr.timeless⟩

private theorem emitQueues_timeless (clock clock' : Clock) (queues : Queues) :
    (emitQueues params qname clock queues).timeless = (emitQueues params qname clock' queues).timeless := by
  unfold emitQueues Queues.timeless
  dsimp only
  rw [emitSets_timeless clock clock' (rrsets queues.answers),
    emitSets_timeless _ (emitSets params qname clock' (rrsets queues.answers)).2 (rrsets queues.authority),
    emitSets_timeless _ (emitSets params qname (emitSets params qname clock' (rrsets queues.answers)).2
      (rrsets queues.authority)).2 (rrsets queues.additional)]

end Emission

private theorem map_record_timeless (qname : Name) {rrs rrs' : List Rr} (same : rrs.map Rr.timeless = rrs'.map Rr.timeless) :
    (rrs.map (Rr.record qname)).map timeless = (rrs'.map (Rr.record qname)).map timeless := by
  have each (rrs : List Rr) : (rrs.map (Rr.record qname)).map timeless = (rrs.map Rr.timeless).map (Rr.record qname) := by
    rw [List.map_map, List.map_map]
    exact List.map_congr_left fun rr _ => timeless_record qname rr
  rw [each, each, same]

/-- Nothing of the flags but the OPCODE and RD goes into a response. -/
theorem replyHeader_recursion {query query' : Bytes} {question : Question} (standard : StandardQuery query question)
    (standard' : StandardQuery query' question) (recursion : (queryHeader query).rd = (queryHeader query').rd) (aa : Bool)
    (rcode : UInt8) : replyHeader query' aa rcode = { replyHeader query aa rcode with id := (queryHeader query').id } := by
  have bits : ∀ b : UInt8, b.toNat / 8 % 16 = 0 → b &&& 0b01111000 = 0 ∧
      b &&& 0b00000001 = if b.toNat.testBit 0 then 1 else 0 := by decide +kernel
  have flags := bits (query.getD 2 0) standard.opcode
  have flags' := bits (query'.getD 2 0) standard'.opcode
  have recursion : (query.getD 2 0).toNat.testBit 0 = (query'.getD 2 0).toNat.testBit 0 := recursion
  have qdcount : (queryHeader query).qdcount = (queryHeader query').qdcount := standard.qdcount.trans standard'.qdcount.symm
  rw [replyHeader, replyHeader, flags.1, flags.2, flags'.1, flags'.2, recursion, qdcount]

/-- What a resolver sees of a datagram, the ID and the times of signatures apart. -/
structure Alike (msg msg' : Message) : Prop where
  header : msg'.header = { msg.header with id := msg'.header.id }
  questions : msg'.questions = msg.questions
  answers : msg'.answers.map timeless = msg.answers.map timeless
  authority : msg'.authority.map timeless = msg.authority.map timeless
  additional : msg'.additional.map timeless = msg.additional.map timeless

private theorem withCounts_congr {records records' : Queues} (same : records'.timeless = records.timeless) (opt : Option Bool)
    (h : Header) : withCounts h records' opt = withCounts h records opt := by
  have answers := congrArg List.length (congrArg Queues.answers same)
  have authority := congrArg List.length (congrArg Queues.authority same)
  have additional := congrArg List.length (congrArg Queues.additional same)
  simp only [Queues.timeless, List.length_map] at answers authority additional
  rw [withCounts, withCounts, answers, authority, additional]

/-- Messages are alike when their headers and their records are. -/
theorem message_alike {h h' : Header} (header : h' = { h with id := h'.id }) {records records' : Queues}
    (same : records'.timeless = records.timeless) (question : Question) (opt : Option Bool) :
    Alike (message h question records opt) (message h' question records' opt) := by
  have renamed (id : UInt16) : withCounts { h with id := id } records opt = { withCounts h records opt with id := id } := rfl
  constructor
  · change withCounts h' records' opt = { withCounts h records opt with id := h'.id }
    rw [withCounts_congr same]
    nth_rewrite 1 [header]
    exact renamed h'.id
  · rfl
  · exact map_record_timeless question.name (congrArg Queues.answers same)
  · exact map_record_timeless question.name (congrArg Queues.authority same)
  · simp only [message, List.map_append]
    rw [map_record_timeless question.name (congrArg Queues.additional same)]

/-- Two nameservers with the same configuration send the same for one question, whatever their clocks read and whatever else
is in the queries: as many octets, truncated or not, which decode to messages that are alike. -/
theorem replicas_agree (clock clock' : Clock) {query query' : Slice} {question : Question} {config : Config}
    (standard : StandardQuery query.data question) (standard' : StandardQuery query'.data question)
    (hosts : config.LegalHosts) (few : config.nsNames.length ≤ 16000)
    (recursion : (queryHeader query.data).rd = (queryHeader query'.data).rd) (edns : parseQueryOpt query = parseQueryOpt query') :
    ∃ sent sent' msg msg', handleQuery clock query config = .ok (some sent) ∧ handleQuery clock' query' config = .ok (some sent') ∧
      sent.length = sent'.length ∧ decode sent = some msg ∧ decode sent' = some msg' ∧ Alike msg msg' := by
  obtain ⟨domain, spelled, _, answered⟩ := standard.reply_eq config
  obtain ⟨domain', spelled', _, answered'⟩ := standard'.reply_eq config
  obtain rfl : domain = domain' := Str.ext (spelled.trans spelled'.symm)
  have edns : queryOpt? query.data = queryOpt? query'.data := by
    rw [parseQueryOpt_eq, parseQueryOpt_eq] at edns
    exact Except.ok.inj edns
  have params : paramsOf query'.data config = paramsOf query.data config := by rw [paramsOf, paramsOf, edns]
  rw [params] at answered'
  generalize replyTo config (paramsOf query.data config) (wire question.name) domain question.qtype question.qclass = result
    at answered answered'
  have echoed : questionOf query'.data = questionOf query.data := by rw [standard.questionOf_eq, standard'.questionOf_eq]
  have opt (doBit : Bool) : optOf query'.data doBit = optOf query.data doBit := by rw [optOf, optOf, edns]
  have size : responseSize query' config = responseSize query config := by
    rw [responseSize, responseSize, answered, answered', params, echoed]
    dsimp only
    rw [opt]
  have limit : udpLimit query'.data = udpLimit query.data := by rw [udpLimit, udpLimit, edns]
  have header := replyHeader_recursion standard standard' recursion
  obtain ⟨sent, sends, whole⟩ := standard.handleQuery_cases answered clock
  obtain ⟨sent', sends', whole'⟩ := standard'.handleQuery_cases answered' clock'
  rw [size, limit] at whole'
  refine ⟨sent, sent', ?_⟩
  rcases whole with ⟨fits, handled⟩ | ⟨exceeds, rfl⟩
  · have handled' := (whole'.resolve_right fun cut => by omega).2
    obtain ⟨response, again, decoded, _⟩ := standard.accept_response hosts few answered clock
    obtain ⟨response', again', decoded', _⟩ := standard'.accept_response hosts few answered' clock'
    obtain ⟨octets, made, length⟩ := handleQueryInternal_length clock query config
    obtain ⟨octets', made', length'⟩ := handleQueryInternal_length clock' query' config
    obtain rfl : sent = response := Except.ok.inj (handled.symm.trans again)
    obtain rfl : sent' = response' := Except.ok.inj (handled'.symm.trans again')
    obtain rfl : octets = sent := Except.ok.inj (made.symm.trans handled)
    obtain rfl : octets' = sent' := Except.ok.inj (made'.symm.trans handled')
    refine ⟨_, _, sends, sends', by rw [length, length', size], decoded, decoded', ?_⟩
    rw [responseMessage, responseMessage, params, opt]
    exact message_alike (header result.aa result.rcode) (emitQueues_timeless clock' clock result.queues) question _
  · obtain rfl := (whole'.resolve_left fun all => by omega).2
    have room (h h' : Header) : cutOpt query'.data h' = cutOpt query.data h := by
      rw [cutOpt, cutOpt, truncated_length, truncated_length, limit, echoed, opt]
    have decoded := standard.decode_truncated (responseHeader clock query.data (paramsOf query.data config) result)
      (cutOpt query.data (responseHeader clock query.data (paramsOf query.data config) result))
    have decoded' := standard'.decode_truncated (responseHeader clock' query'.data (paramsOf query'.data config) result)
      (cutOpt query'.data (responseHeader clock' query'.data (paramsOf query'.data config) result))
    rw [← truncate_eq] at decoded decoded'
    refine ⟨_, _, sends, sends', ?_, decoded, decoded', ?_⟩
    · rw [truncate_eq, truncate_eq, truncated_length, truncated_length, echoed, room]
    · rw [room (responseHeader clock query.data (paramsOf query.data config) result)]
      refine message_alike ?_ rfl question _
      have qdcount : (queryHeader query'.data).qdcount = (queryHeader query.data).qdcount :=
        standard'.qdcount.trans standard.qdcount.symm
      unfold truncatedHeader responseHeader withCounts
      dsimp only
      rw [header result.aa result.rcode, qdcount]

/-- The sample query with another ID, the AD flag and an EDNS option. -/
def otherQuery : Slice where
  data := [0, 8, 1, 32, 0, 1, 0, 0, 0, 0, 0, 1] ++ [8, 49, 48, 45, 48, 45, 48, 45, 49, 3, 110, 105, 112, 2, 110, 117, 0] ++
    be16 typeA ++ be16 classIn ++ [0, 0, 41, 4, 208, 0, 0, 128, 0, 0, 4] ++ [0, 10, 0, 0]
  length_le := by decide +kernel

private theorem otherQuery_standard : StandardQuery otherQuery.data sampleQuestion where
  opcode := by decide +kernel
  qdcount := by decide +kernel
  octets := ⟨[0, 0, 41, 4, 208, 0, 0, 128, 0, 0, 4, 0, 10, 0, 0], by decide +kernel⟩
  legal := sampleQuery_standard.legal
  nonempty := sampleQuery_standard.nonempty
  utf8 := sampleQuery_standard.utf8
  free := sampleQuery_standard.free

theorem replicas_agree_sample :
    ∃ sent sent' msg msg', handleQuery (fun _ => some 0) sampleQuery sampleConfig = .ok (some sent) ∧
      handleQuery (fun _ => none) otherQuery sampleConfig = .ok (some sent') ∧
      sent.length = sent'.length ∧ decode sent = some msg ∧ decode sent' = some msg' ∧ Alike msg msg' :=
  replicas_agree _ _ sampleQuery_standard otherQuery_standard sampleConfig_legalHosts (by decide) (by decide +kernel)
    (by decide +kernel)

end RustyAlias
