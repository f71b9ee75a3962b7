import RustyAlias.Proofs.StandardQuery
import RustyAlias.Soundness.QuestionReadings
import RustyAlias.Soundness.UdpSize

/-! # Replies that are answered

Nothing in the handler looks at the QR bit, so a reply that arrives at a server is a query like any
other. It repeats the OPCODE and the question of the query it answers, and so do the reply to it
and all replies after that.
-/

namespace RustyAlias

open Rust Rust.Outcome Dns

/-- One instance that handles one message, over UDP or over TCP, at the readings of its clock. -/
structure Hop where
  clock : Clock
  config : Config
  udp : Bool

/-- What the instance sends back; nothing is sent for the empty response. -/
def Hop.answer (hop : Hop) (message : Slice) : Outcome Bytes := do
  let response ← handleQueryInternal hop.clock message hop.config
  if hop.udp && !response.isEmpty then maybeTruncateUdp response message else pure response

/-- A reply carries QR, repeats ID, OPCODE, RD and the question, and without a question is a header only. -/
structure IsReplyTo (query response : Bytes) : Prop where
  qr : (queryHeader response).qr = true
  id : (queryHeader response).id = (queryHeader query).id
  opcode : (queryHeader response).opcode = (queryHeader query).opcode
  rd : (queryHeader response).rd = (queryHeader query).rd
  qdcount : (queryHeader response).qdcount = (queryHeader query).qdcount
  long : 12 ≤ response.length
  question : ∃ rest, response.drop 12 = questionOf query ++ rest
  bare : questionEnd? query = none → response.length = 12

private theorem truncatedHeader_flags (query : Bytes) (h : Header) :
    (truncatedHeader query h).qr = h.qr ∧ (truncatedHeader query h).opcode = h.opcode ∧
      (truncatedHeader query h).rd = h.rd := by
  have bits : ∀ b : UInt8, (b ||| 2).toNat.testBit 7 = b.toNat.testBit 7 ∧ (b ||| 2).toNat / 8 % 16 = b.toNat / 8 % 16 ∧
      (b ||| 2).toNat.testBit 0 = b.toNat.testBit 0 := by decide +kernel
  exact bits _

/-- Any octets behind the right header and the question make a reply. -/
theorem isReplyTo_of_header {query : Bytes} {h : Header} {rest : Bytes} (qr : h.qr = true)
    (id : h.id = (queryHeader query).id) (opcode : h.opcode = (queryHeader query).opcode)
    (rd : h.rd = (queryHeader query).rd) (qdcount : h.qdcount = (queryHeader query).qdcount)
    (bare : questionEnd? query = none → rest = []) : IsReplyTo query (h.encode ++ (questionOf query ++ rest)) where
  qr := by rwa [queryHeader_encode]
  id := by rwa [queryHeader_encode]
  opcode := by rwa [queryHeader_encode]
  rd := by rwa [queryHeader_encode]
  qdcount := by rwa [queryHeader_encode]
  long := by simp
  question := ⟨rest, by rw [← Header.encode_length, List.drop_left]⟩
  bare none := by simp [bare none, questionOf, none]

private theorem datagram_isReplyTo {query : Slice} {config : Config} {result : Reply}
    (answered : reply query config = some result) (clock : Clock) (params : ZoneParams) :
    IsReplyTo query.data (render clock query.data params result) ∧
      IsReplyTo query.data (datagram query.data (responseHeader clock query.data params result)
        (responseBody clock query.data params result)) := by
  have flags := replyHeader_flags query.data result.aa result.rcode
  have built : IsReplyTo query.data (render clock query.data params result) :=
    isReplyTo_of_header flags.1 rfl flags.2.1 flags.2.2.1 rfl fun none => by
      have empty := responseBody_headerOnly none answered clock params
      rw [responseBody, List.append_eq_nil_iff] at empty
      exact empty.2
  refine ⟨built, ?_⟩
  unfold datagram
  split
  · exact built
  · next cut =>
    have cut := (not_or.mp cut).2
    have kept := truncatedHeader_flags query.data (responseHeader clock query.data params result)
    rw [truncate, truncated]
    exact isReplyTo_of_header (kept.1.trans flags.1) rfl (kept.2.1.trans flags.2.1) (kept.2.2.trans flags.2.2.1) rfl
      fun none => absurd none cut

theorem Hop.answer_eq (hop : Hop) (message : Slice) :
    hop.answer message = .ok (((reply message hop.config).map fun result =>
      if hop.udp then datagram message.data (responseHeader hop.clock message.data (paramsOf message.data hop.config) result)
        (responseBody hop.clock message.data (paramsOf message.data hop.config) result)
      else render hop.clock message.data (paramsOf message.data hop.config) result).getD []) := by
  rw [Hop.answer, handleQueryInternal_eq, ok_bind]
  cases reply message hop.config with
  | none => simp
  | some result =>
    have nonempty : (render hop.clock message.data (paramsOf message.data hop.config) result).isEmpty = false := by
      simp [render_eq, Header.encode]
    rw [Option.map_some, Option.map_some, Option.getD_some, Option.getD_some, nonempty]
    cases hop.udp with
    | false => rfl
    | true =>
      rw [render_eq]
      exact maybeTruncateUdp_eq ..

/-- Whatever is sent is a reply, and something is sent whenever the dispatch gives a reply. -/
theorem Hop.answer_isReplyTo {hop : Hop} {message : Slice} {response : Bytes}
    (answered : hop.answer message = .ok response) :
    ((reply message hop.config).isSome ↔ response ≠ []) ∧ (response ≠ [] → IsReplyTo message.data response) := by
  rw [Hop.answer_eq] at answered
  cases result : reply message hop.config with
  | none =>
    rw [result] at answered
    cases answered
    simp
  | some result' =>
    rw [result, Option.map_some, Option.getD_some] at answered
    have built := datagram_isReplyTo result hop.clock (paramsOf message.data hop.config)
    have shape : IsReplyTo message.data response := by
      cases answered
      split
      · exact built.2
      · exact built.1
    refine ⟨⟨fun _ empty => ?_, fun _ => rfl⟩, fun _ => shape⟩
    have long := shape.long
    rw [empty] at long
    simp at long

/-- A reply asks the same question. -/
theorem IsReplyTo.split {query response : Bytes} {split : Split} (answers : IsReplyTo query response)
    (parts : query = split.query) : ∃ split' : Split, response = split'.query ∧ split'.qname = split.qname ∧
      split'.qtype = split.qtype ∧ split'.qclass = split.qclass := by
  obtain ⟨rest, behind⟩ := answers.question
  have question : questionOf query = split.question := by
    rw [questionOf, parts, split.questionEnd?_eq, Option.map_some, Option.getD_some, split.question_slice]
  refine ⟨{ split with header := response.take 12, rest := rest, header_length := ?_ }, ?_, rfl, rfl, rfl⟩
  · have long := answers.long
    rw [List.length_take]
    omega
  · rw [Split.query, List.append_assoc]
    change response = response.take 12 ++ (split.question ++ rest)
    rw [← question, ← behind, List.take_append_drop]

theorem IsReplyTo.questionOf_eq {query response : Bytes} (answers : IsReplyTo query response) :
    questionOf response = questionOf query ∧ (questionEnd? query = none → questionEnd? response = none) := by
  cases ends : questionEnd? query with
  | none =>
    have none : questionEnd? response = none := by
      rw [questionEnd?, List.drop_eq_nil_of_le (by rw [answers.bare ends])]
      rfl
    simp [questionOf, ends, none]
  | some stop =>
    obtain ⟨split, parts, rfl⟩ := exists_split ends
    obtain ⟨split', parts', qname, qtype, qclass⟩ := answers.split parts
    have same : split'.question = split.question := by rw [Split.question, Split.question, qname, qtype, qclass]
    simp [questionOf, parts, parts', Split.questionEnd?_eq, Split.question_slice, same]

theorem IsReplyTo.trans {query first second : Bytes} (before : IsReplyTo query first) (after : IsReplyTo first second) :
    IsReplyTo query second where
  qr := after.qr
  id := after.id.trans before.id
  opcode := after.opcode.trans before.opcode
  rd := after.rd.trans before.rd
  qdcount := after.qdcount.trans before.qdcount
  long := after.long
  question := before.questionOf_eq.1 ▸ after.question
  bare none := after.bare (before.questionOf_eq.2 none)

private theorem opcode_of_isReplyTo {query message : Slice} (answers : IsReplyTo query.data message.data) :
    opcode message = opcode query := by
  apply UInt8.toNat_inj.mp
  rw [opcode_eq, opcode_eq, answers.opcode]

/-- A reply is answered on the same terms as any query. -/
theorem reply_isSome_of_isReplyTo {query message : Slice} {config : Config}
    (answers : IsReplyTo query.data message.data) (answered : (reply query config).isSome) (config' : Config) :
    (reply message config').isSome ↔ opcode query ≠ 0 ∨ ∃ domain, parseQuery message = .ok (some domain) := by
  rw [← opcode_of_isReplyTo answers]
  cases ends : questionEnd? query.data with
  | some stop =>
    obtain ⟨split, parts, rfl⟩ := exists_split ends
    obtain ⟨_, parts', _⟩ := answers.split parts
    exact reply_isSome_iff parts' config'
  | none =>
    have other : opcode message ≠ 0 := by
      rw [opcode_of_isReplyTo answers]
      intro standard
      rw [reply, if_neg (not_not.mpr standard), qtypeQclass?, ends] at answered
      simp at answered
    have long : ¬ message.len < 12 := by
      have := answers.bare ends
      unfold Slice.len
      omega
    simp [reply, other, long]

/-- Labels without a zero octet are read from every reply as they were from the query. -/
theorem parseQuery_of_isReplyTo {query message : Slice} (answers : IsReplyTo query.data message.data) {domain : Str}
    {qtype qclass : UInt16} (parsed : parseQuery query = .ok (some domain))
    (typed : qtypeQclass? query.data = some (qtype, qclass)) (free : ∀ label ∈ questionLabels query.data, 0 ∉ label) :
    ∃ domain, parseQuery message = .ok (some domain) := by
  obtain ⟨stop, ends, _⟩ := Option.bind_eq_some_iff.mp typed
  obtain ⟨split, parts, rfl⟩ := exists_split ends
  obtain ⟨split', parts', qname, _, _⟩ := answers.split parts
  obtain ⟨_, labels, left, read, walked, nonempty, _, _⟩ := parseQuery_walk parsed
  have labelsRead : questionLabels query.data = labels := by rw [questionLabels, walked]; rfl
  have readable := (encode_of_walkLabels? walked).2.1
  rw [parts] at walked
  rw [labelsRead, ← qname_eq_encodeLabels_iff walked] at free
  have walked' : walkLabels? (message.data.drop 12) =
      some (labels, 0 :: (be16 split'.qtype ++ (be16 split'.qclass ++ split'.rest))) := by
    rw [parts', split'.drop_header, Split.question, qname, free]
    simp only [List.append_assoc, List.singleton_append]
    exact walkLabels?_encode readable (.inr rfl)
  have single : fromBe16 (message.data.getD 4 0) (message.data.getD 5 0) = 1 := by
    have same := answers.qdcount
    unfold parsedLabels? at read
    split at read
    · contradiction
    · next shape => exact same.trans (not_not.mp (not_or.mp shape).2)
  have accepted : parsedLabels? message.data = some labels := by
    rw [parsedLabels?, if_neg, walked']
    · simp [nonempty]
    · rw [not_or, not_not]
      exact ⟨by have := answers.long; omega, single⟩
  rcases parseQuery_eq message with ⟨refused, _⟩ | ⟨_, name, _, _, result⟩
  · rw [accepted] at refused; cases refused
  · exact ⟨name, result⟩

/-- A run of messages, each the answer of some instance to the one before. -/
def Run (hops : ℕ → Hop) (messages : ℕ → Slice) : Prop :=
  ∀ n, (hops n).answer (messages n) = .ok (messages (n + 1)).data

/-- OPCODE other than QUERY, or labels without a zero octet. -/
def Plain (query : Slice) : Prop := opcode query ≠ 0 ∨ ∀ label ∈ questionLabels query.data, 0 ∉ label

/-- The first reply to a plain query starts a run that never ends. -/
theorem run_isReplyTo {query : Slice} {config : Config} (answered : (reply query config).isSome) (plain : Plain query)
    {hops : ℕ → Hop} {messages : ℕ → Slice} (run : Run hops messages) (first : IsReplyTo query.data (messages 0).data)
    (n : ℕ) : IsReplyTo query.data (messages n).data := by
  induction n with
  | zero => exact first
  | succ n ih =>
    have sent := Hop.answer_isReplyTo (run n)
    have again : (reply (messages n) (hops n).config).isSome := by
      rw [reply_isSome_of_isReplyTo ih answered]
      rcases plain with other | free
      · exact .inl other
      · by_cases standard : opcode query = 0
        · rw [reply, if_neg (not_not.mpr standard)] at answered
          rcases parseQuery_eq query with ⟨_, parsed⟩ | ⟨_, domain, _, _, parsed⟩
          · rw [parsed] at answered
            simp at answered
          · cases typed : qtypeQclass? query.data with
            | none => rw [parsed, typed] at answered; simp at answered
            | some types => exact .inr (parseQuery_of_isReplyTo ih parsed typed free)
        · exact .inl standard
    exact ih.trans (sent.2 (sent.1.mp again))

/-- A reply gets a reply from every instance exactly when its OPCODE is not QUERY or its name is accepted. It is then
again a reply to the first query, and from a plain query the exchange goes on for ever, whichever instances take
part and whether or not they truncate. -/
theorem replies_answered (query : Slice) (first : Hop) (message : Slice) (sent : first.answer query = .ok message.data)
    (nonempty : message.data ≠ []) :
    (∀ (second : Hop) (response : Bytes), second.answer message = .ok response →
      (response ≠ [] ↔ opcode query ≠ 0 ∨ ∃ domain, parseQuery message = .ok (some domain)) ∧
      (response ≠ [] → IsReplyTo query.data response)) ∧
    (Plain query → ∀ (hops : ℕ → Hop) (messages : ℕ → Slice), messages 0 = message → Run hops messages →
      ∀ n, (messages n).data ≠ [] ∧ IsReplyTo query.data (messages n).data) := by
  have made := Hop.answer_isReplyTo sent
  have answered := made.1.mpr nonempty
  have isReply := made.2 nonempty
  constructor
  · intro second response result
    have again := Hop.answer_isReplyTo result
    rw [← again.1, reply_isSome_of_isReplyTo isReply answered]
    refine ⟨Iff.rfl, fun reached => isReply.trans (again.2 (again.1.mp ?_))⟩
    rwa [reply_isSome_of_isReplyTo isReply answered]
  · rintro plain hops messages rfl run n
    have shape := run_isReplyTo answered plain run isReply n
    refine ⟨fun empty => ?_, shape⟩
    have long := shape.long
    rw [empty] at long
    simp at long

/-- A query for a name outside the zone. -/
def strangerQuery : Slice := ⟨[0, 7, 1, 0, 0, 1, 0, 0, 0, 0, 0, 0, 1, 97, 0, 0, 1, 0, 1], show 19 ≤ isizeMax by decide⟩

/-- REFUSED, with the question. -/
def strangerReply : Slice := ⟨[0, 7, 0x81, 5, 0, 1, 0, 0, 0, 0, 0, 0, 1, 97, 0, 0, 1, 0, 1], by decide +kernel⟩

def sampleHop : Hop := ⟨fun _ => some 0, sampleConfig, true⟩

theorem strangerReply_answered :
    strangerReply.data ≠ [] ∧ IsReplyTo strangerQuery.data strangerReply.data :=
  ⟨by decide, ((replies_answered strangerQuery sampleHop strangerReply (by decide +kernel) (by decide)).1 sampleHop
    strangerReply.data (by decide +kernel)).2 (by decide)⟩

/-- A refusal is refused in the very same octets, built or truncated. -/
theorem strangerReply_bounces :
    handleQueryInternal (fun _ => some 0) strangerQuery sampleConfig = .ok strangerReply.data ∧
      maybeTruncateUdp strangerReply.data strangerQuery = .ok strangerReply.data ∧ strangerReply.data ≠ [] ∧
      handleQueryInternal (fun _ => some 0) strangerReply sampleConfig = .ok strangerReply.data := by
  refine ⟨?_, ?_, ?_, ?_⟩ <;> decide +kernel

end RustyAlias
