import RustyAlias.Dns.Resolver
import RustyAlias.Soundness.TcpFraming

/-! # One answer over both transports

A resolver that asks over UDP, and over TCP when it must, settles on the whole response: a truncated one is
recognised, the framing leads to the other, and both are answers to the query.
-/

namespace RustyAlias

open Rust Rust.Outcome Dns

/-- The frame of a connection that asks is around the response. -/
theorem serveConnection_of_asks (config : Config) {stream : Connection} {query : Slice} (asks : stream.Asks query) :
    ∃ response, handleQueryInternal stream.clock query config = .ok response ∧
      serveConnection config stream = .ok (.ok (be16 (responseLen response) ++ response)) := by
  obtain ⟨response, handled, _⟩ := handleQueryInternal_length stream.clock query config
  obtain ⟨peer, allowed, read, first, second⟩ := asks
  exact ⟨response, handled, by simp [serveConnection_eq, peer, allowed, read, first, second, handled]⟩

/-- The message of the response to a question. -/
def responseMessage (clock : Clock) (query : Bytes) (config : Config) (question : Question) (result : Reply) : Message :=
  message (replyHeader query result.aa result.rcode) question
    (emitQueues (paramsOf query config) (wire question.name) clock result.queues) (optOf query result.doBit)

private theorem responseMessage_tc (clock : Clock) (query : Bytes) (config : Config) (question : Question) (result : Reply) :
    (responseMessage clock query config question result).header.tc = false := replyHeader_tc query result.aa result.rcode

/-- The OPT record that a truncated response has room for. -/
def cutOpt (query : Bytes) (h : Header) : Option Bool :=
  if udpLimit query < (truncated query h (optOf query false)).length then none else optOf query false

theorem truncate_eq (query : Bytes) (h : Header) : truncate query h = truncated query h (cutOpt query h) := rfl

namespace StandardQuery

variable {query : Slice} {question : Question} (standard : StandardQuery query.data question) {config : Config} {result : Reply}

/-- What the resolver keeps of the query. -/
def exchange (query : Bytes) (question : Question) : Exchange := ⟨(queryHeader query).id, question⟩

include standard

/-- A header of the server's makes its message an answer. -/
theorem answered_reply (aa : Bool) (rcode : UInt8) (records : Queues) (opt : Option Bool) :
    (exchange query.data question).Answered (message (replyHeader query.data aa rcode) question records opt) := by
  have flags := replyHeader_flags query.data aa rcode
  exact ⟨flags.1, flags.2.1.trans standard.opcode, rfl, rfl⟩

theorem accept_response (hosts : config.LegalHosts) (few : config.nsNames.length ≤ 16000)
    (answered : reply query config = some result) (clock : Clock) :
    ∃ response, handleQueryInternal clock query config = .ok response ∧
      decode response = some (responseMessage clock query.data config question result) ∧
      (exchange query.data question).accept response = some (responseMessage clock query.data config question result) := by
  obtain ⟨domain, _, _, same⟩ := standard.reply_eq config
  have fits := sectionsFit_of_few few clock query
  rw [SectionsFit, same, written, Option.map_some, Option.getD_some, standard.qnameOf_eq] at fits
  have legible := standard.emitQueues_legible hosts domain clock
  obtain rfl : _ = result := Option.some.inj (same.symm.trans answered)
  generalize replyTo config (paramsOf query.data config) (wire question.name) domain question.qtype question.qclass = result
    at answered fits legible ⊢
  have countable : Queues.Countable _ (optOf query.data result.doBit) :=
    fits.congr ((optOf_length query.data result.doBit).trans (optOf_length query.data false).symm)
  have decoded := decode_layout (standard.replyHeader_qdcount result.aa result.rcode) standard.legal legible countable
  exact ⟨_, standard.handleQueryInternal_eq answered clock, decoded,
    Exchange.accept_of_decode decoded (standard.answered_reply ..)⟩

/-- A truncated response decodes to its question and at most one OPT record. -/
theorem decode_truncated (h : Header) (opt : Option Bool) :
    decode (truncated query.data h opt) = some (message (truncatedHeader query.data h) question ⟨[], [], []⟩ opt) := by
  have few : opt.toList.length ≤ 1 := by cases opt <;> simp
  have legible : Queues.All Rr.Legible ⟨[], [], []⟩ := Queues.all_mk (by simp) (by simp) (by simp)
  have countable : Queues.Countable ⟨[], [], []⟩ opt := ⟨by simp, by simp, by simp; omega⟩
  have single : (truncatedHeader query.data h).qdcount = 1 := standard.qdcount
  rw [truncated, standard.questionOf_eq]
  exact decode_layout single standard.legal legible countable

/-- It is an answer, and it says that it is truncated. -/
theorem accept_truncated (clock : Clock) (params : ZoneParams) (result : Reply) (opt : Option Bool) :
    ∃ cut, (exchange query.data question).accept
        (truncated query.data (responseHeader clock query.data params result) opt) = some cut ∧ cut.header.tc = true := by
  have bits : ∀ b : UInt8, (b ||| 2).toNat.testBit 7 = b.toNat.testBit 7 ∧ (b ||| 2).toNat / 8 % 16 = b.toNat / 8 % 16 ∧
      (b ||| 2).toNat.testBit 1 = true := by decide +kernel
  have flags := replyHeader_flags query.data result.aa result.rcode
  have set := bits (replyHeader query.data result.aa result.rcode).flags0
  refine ⟨_, Exchange.accept_of_decode (standard.decode_truncated ..) ⟨set.1.trans flags.1, ?_, rfl, rfl⟩, set.2.2⟩
  exact (set.2.1.trans flags.2.1).trans standard.opcode

/-- What is sent is the response when it fits, and a truncated one otherwise. -/
theorem handleQuery_cases (answered : reply query config = some result) (clock : Clock) :
    ∃ sent, handleQuery clock query config = .ok (some sent) ∧
      (responseSize query config ≤ udpLimit query.data ∧ handleQueryInternal clock query config = .ok sent ∨
        udpLimit query.data < responseSize query config ∧
          sent = truncate query.data (responseHeader clock query.data (paramsOf query.data config) result)) := by
  obtain ⟨split, parts, _⟩ := standard.exists_split
  obtain ⟨response, handled, length⟩ := handleQueryInternal_length clock query config
  have whole : (responseHeader clock query.data (paramsOf query.data config) result).encode ++
      responseBody clock query.data (paramsOf query.data config) result = response := by
    rw [RustyAlias.handleQueryInternal_eq, answered, Option.map_some, Option.getD_some, render_eq] at handled
    exact Except.ok.inj handled
  have ends : questionEnd? query.data ≠ none := by
    rw [parts, split.questionEnd?_eq]
    simp
  refine ⟨_, by rw [handleQuery_eq, answered, Option.map_some], ?_⟩
  rw [datagram, whole, length]
  by_cases fits : responseSize query config ≤ udpLimit query.data
  · rw [if_pos (.inl fits)]
    exact .inl ⟨fits, handled⟩
  · rw [if_neg fun either => either.elim fits ends]
    exact .inr ⟨by omega, rfl⟩

/-- What the resolver settles on is the response that was made for the transport that it took. -/
theorem settle_eq (hosts : config.LegalHosts) (few : config.nsNames.length ≤ 20) (answered : reply query config = some result)
    (clock : Clock) {stream : Connection} (asks : stream.Asks query) :
    ∃ datagram frame reading response, handleQuery clock query config = .ok (some datagram) ∧
      serveConnection config stream = .ok (.ok frame) ∧ handleQueryInternal reading query config = .ok response ∧
      (reading = clock ∧ datagram = response ∨ reading = stream.clock ∧ (queryHeader datagram).tc = true) ∧
      decode response = some (responseMessage reading query.data config question result) ∧
      (exchange query.data question).settle datagram frame = some (responseMessage reading query.data config question result) := by
  have many : config.nsNames.length ≤ 16000 := by omega
  obtain ⟨octets, made, served⟩ := serveConnection_of_asks config asks
  obtain ⟨datagram, sent, ⟨_, handled⟩ | ⟨_, rfl⟩⟩ := standard.handleQuery_cases answered clock
  · obtain ⟨response, handled', decoded, accepted⟩ := standard.accept_response hosts many answered clock
    obtain rfl : datagram = response := Except.ok.inj (handled.symm.trans handled')
    exact ⟨datagram, _, clock, datagram, sent, served, handled, .inl ⟨rfl, rfl⟩, decoded,
      Exchange.settle_whole accepted (responseMessage_tc ..)⟩
  · obtain ⟨response, handled, decoded, accepted⟩ := standard.accept_response hosts many answered stream.clock
    obtain rfl : octets = response := Except.ok.inj (made.symm.trans handled)
    have short : (questionOf query.data).length ≤ 5000 := by
      have width := standard.legal.total
      rw [standard.questionOf_eq, Question.encode]
      simp only [List.length_append, be16_length]
      omega
    have framed : unframe (be16 (responseLen octets) ++ octets) = some octets := by
      obtain ⟨same, made', size⟩ := handleQueryInternal_length stream.clock query config
      obtain rfl : same = octets := Except.ok.inj (made'.symm.trans made)
      have room := unframe_be16 (size ▸ responseSize_le hosts few asks.length_le short) []
      rwa [List.append_nil] at room
    obtain ⟨cut, taken, flag⟩ := standard.accept_truncated clock (paramsOf query.data config) result
      (cutOpt query.data (responseHeader clock query.data (paramsOf query.data config) result))
    refine ⟨_, _, stream.clock, octets, sent, served, handled, .inr ⟨rfl, ?_⟩, decoded, ?_⟩
    · exact (truncate_standsFor query.data (responseHeader clock query.data (paramsOf query.data config) result)
        (responseBody clock query.data (paramsOf query.data config) result) _).tc
    · exact (Exchange.settle_truncated taken flag framed).trans accepted

end StandardQuery

/-- A resolver that asks any well-formed question over UDP, and over TCP if the answer is truncated, settles on the whole
response of the handler: the one that was sent, or the one that was made for the TCP connection. -/
theorem transports_agree (clock : Clock) {query : Slice} {config : Config} {question : Question} {stream : Connection}
    (standard : StandardQuery query.data question) (hosts : config.LegalHosts) (few : config.nsNames.length ≤ 20)
    (asks : stream.Asks query) :
    ∃ datagram frame reading response msg, handleQuery clock query config = .ok (some datagram) ∧
      serveConnection config stream = .ok (.ok frame) ∧ handleQueryInternal reading query config = .ok response ∧
      (reading = clock ∧ datagram = response ∨ reading = stream.clock ∧ (queryHeader datagram).tc = true) ∧
      decode response = some msg ∧ msg.header.tc = false ∧
      Exchange.settle ⟨(queryHeader query.data).id, question⟩ datagram frame = some msg := by
  obtain ⟨domain, _, _, answered⟩ := standard.reply_eq config
  obtain ⟨datagram, frame, reading, response, sent, served, handled, transport, decoded, settled⟩ :=
    standard.settle_eq hosts few answered clock asks
  exact ⟨datagram, frame, reading, response, _, sent, served, handled, transport, decoded, responseMessage_tc .., settled⟩

theorem sampleStream_asks : (sampleStream true).Asks sampleQuery := ⟨rfl, rfl, rfl, rfl, rfl⟩

theorem transports_agree_sample :
    ∃ datagram frame reading response msg, handleQuery (fun _ => some 9) sampleQuery sampleConfig = .ok (some datagram) ∧
      serveConnection sampleConfig (sampleStream true) = .ok (.ok frame) ∧
      handleQueryInternal reading sampleQuery sampleConfig = .ok response ∧
      (reading = (fun _ => some 9) ∧ datagram = response ∨
        reading = (sampleStream true).clock ∧ (queryHeader datagram).tc = true) ∧
      decode response = some msg ∧ msg.header.tc = false ∧
      Exchange.settle ⟨(queryHeader sampleQuery.data).id, sampleQuestion⟩ datagram frame = some msg :=
  transports_agree _ sampleQuery_standard sampleConfig_legalHosts (by decide) sampleStream_asks

end RustyAlias
