import RustyAlias.Proofs.Decoding
import RustyAlias.Proofs.Truncation

/-! # What is sent over UDP

A datagram is the response itself or stands for it in truncated form. It keeps to the limit of the
client exactly when the question alone does: the question is echoed whatever its length is.
-/

namespace RustyAlias

open Rust Rust.Outcome Dns

/-- A truncated response: the flags of the response with TC set, the question of the query, no answer
and no authority records, and as many OPT records as are counted. -/
structure StandsFor (query response sent : Bytes) : Prop where
  id : (queryHeader sent).id = (queryHeader response).id
  aa : (queryHeader sent).aa = (queryHeader response).aa
  rd : (queryHeader sent).rd = (queryHeader response).rd
  rcode : (queryHeader sent).rcode = (queryHeader response).rcode
  tc : (queryHeader sent).tc = true
  ancount : (queryHeader sent).ancount = 0
  nscount : (queryHeader sent).nscount = 0
  records : ∃ rest opts, sent.drop 12 = questionOf query ++ rest ∧
    readMany (readRecord sent) (queryHeader sent).arcount.toNat rest = some (opts, []) ∧ ∀ opt ∈ opts, opt.rtype = typeOpt

/-- The law of datagrams: within the limit, and the response or a truncated form of it. -/
def UdpLaw (clock : Clock) (query : Slice) (config : Config) : Prop :=
  ∀ sent, handleQuery clock query config = .ok (some sent) →
    ∃ response limit, handleQueryInternal clock query config = .ok response ∧ udpResponseLimit query = .ok limit ∧
      sent.length ≤ limit ∧
      (sent = response ∧ (queryHeader response).tc = false ∨ StandsFor query.data response sent)

theorem le_udpLimit (query : Bytes) : 512 ≤ udpLimit query := by
  have size : ∀ n doBit, queryOpt? query = some (n, doBit) → 512 ≤ n := by
    intro n doBit found
    unfold queryOpt? at found
    split at found
    · contradiction
    · obtain ⟨stop, _, rest⟩ := Option.bind_eq_some_iff.mp found
      dsimp only at rest
      split at rest
      · cases rest; exact Nat.le_max_right ..
      · contradiction
  unfold udpLimit
  cases opt : queryOpt? query with
  | none => decide
  | some pair =>
    have := size pair.1 pair.2 opt
    simp [ednsUdpSize]
    omega

theorem optRr_length (dnssecOk : Bool) : (optRr dnssecOk).length = 11 := by simp [optRr]

theorem truncated_length (query : Bytes) (h : Header) (opt : Option Bool) :
    (truncated query h opt).length = 12 + (questionOf query).length + 11 * opt.toList.length := by
  cases opt <;> simp [truncated_eq, optRr_length]
  omega

/-- TC is never set by the handler. -/
theorem replyHeader_tc (query : Bytes) (aa : Bool) (rcode : UInt8) : (replyHeader query aa rcode).tc = false := by
  have bits : ∀ (b : UInt8) (aa : Bool), (0b10000000 ||| (b &&& 0b01111000) ||| (if aa then 0b00000100 else 0) |||
      (b &&& 0b00000001)).toNat.testBit 1 = false := by decide +kernel
  exact bits _ aa

theorem truncate_standsFor (query : Bytes) (h : Header) (body : Bytes) (opt : Option Bool) :
    StandsFor query (h.encode ++ body) (truncated query h opt) := by
  have bits : ∀ b : UInt8, (b ||| 2).toNat.testBit 2 = b.toNat.testBit 2 ∧ (b ||| 2).toNat.testBit 0 = b.toNat.testBit 0 ∧
      (b ||| 2).toNat.testBit 1 = true := by decide +kernel
  have flags := bits h.flags0
  rw [truncated_eq]
  constructor <;> simp only [queryHeader_encode]
  · rfl
  · exact flags.1
  · exact flags.2.1
  · rfl
  · exact flags.2.2
  · rfl
  · rfl
  · refine ⟨opt.toList.flatMap optRr, opt.toList.map optRecord, ?_, ?_, ?_⟩
    · rw [← Header.encode_length, List.drop_left]
    · have read (msg : Bytes) (dnssecOk : Bool) : readRecord msg (optRr dnssecOk) = some (optRecord dnssecOk, []) := by
        simpa using @readRecord_opt msg dnssecOk []
      cases opt with
      | none => rfl
      | some dnssecOk =>
        have one : (Section.additional.add 1 (truncatedHeader query h)).arcount.toNat = 1 := by
          rw [Section.add, count_toNat]
          rfl
        simp [one, readMany, read]
    · intro record member
      obtain ⟨_, _, rfl⟩ := List.mem_map.mp member
      rfl

/-- A query with a question section is answered unless it has the standard OPCODE and a name that
`parse_query` does not accept. -/
theorem reply_isSome_iff {query : Slice} {split : Split} (parts : query.data = split.query) (config : Config) :
    (reply query config).isSome ↔ opcode query ≠ 0 ∨ ∃ domain, parseQuery query = .ok (some domain) := by
  have long := Split.long parts
  unfold reply
  rw [parts, split.qtypeQclass?_eq]
  by_cases standard : opcode query = 0
  · rcases parseQuery_eq query with ⟨_, parsed⟩ | ⟨labels, domain, _, _, parsed⟩
    · simp [standard, parsed]
    · simp [standard, parsed]
  · simp [standard, Slice.len, show ¬ query.data.length < 12 by omega]

/-- What is sent in place of a response that the limit may not admit. -/
def datagram (query : Bytes) (h : Header) (body : Bytes) : Bytes :=
  if (h.encode ++ body).length ≤ udpLimit query ∨ questionEnd? query = none then h.encode ++ body else truncate query h

/-- The header of a response with its counts. -/
def responseHeader (clock : Clock) (query : Bytes) (params : ZoneParams) (reply : Reply) : Header :=
  withCounts (replyHeader query reply.aa reply.rcode) (emitQueues params (qnameOf query) clock reply.queues)
    (optOf query reply.doBit)

/-- The octets of a response behind its header. -/
def responseBody (clock : Clock) (query : Bytes) (params : ZoneParams) (reply : Reply) : Bytes :=
  questionOf query ++ recordOctets (emitQueues params (qnameOf query) clock reply.queues) (optOf query reply.doBit)

theorem render_eq (clock : Clock) (query : Bytes) (params : ZoneParams) (reply : Reply) :
    render clock query params reply =
      (responseHeader clock query params reply).encode ++ responseBody clock query params reply := rfl

theorem handleQuery_eq (clock : Clock) (query : Slice) (config : Config) :
    handleQuery clock query config = .ok ((reply query config).map fun reply =>
      datagram query.data (responseHeader clock query.data (paramsOf query.data config) reply)
        (responseBody clock query.data (paramsOf query.data config) reply)) := by
  rw [handleQuery, handleQueryInternal_eq, ok_bind]
  cases reply query config with
  | none => rfl
  | some result =>
    have nonempty : (render clock query.data (paramsOf query.data config) result).isEmpty = false := by
      simp [render_eq, Header.encode]
    simp only [Option.map_some, Option.getD_some, nonempty, Bool.false_eq_true, if_false]
    rw [render_eq, maybeTruncateUdp_eq]
    rfl

private theorem datagram_standsFor (query : Bytes) (h : Header) (clear : h.tc = false) (body : Bytes) :
    datagram query h body = h.encode ++ body ∧ (queryHeader (h.encode ++ body)).tc = false ∨
      StandsFor query (h.encode ++ body) (datagram query h body) := by
  unfold datagram
  split
  · exact .inl ⟨rfl, by rw [queryHeader_encode]; exact clear⟩
  · exact .inr (truncate_standsFor ..)

/-- The length of a truncated response is a matter of the question. -/
theorem truncate_length_le_iff (query : Bytes) (h : Header) :
    (truncate query h).length ≤ udpLimit query ↔ 12 + (questionOf query).length ≤ udpLimit query := by
  unfold truncate
  split
  · simp [truncated_length]
  · next fits =>
    rw [truncated_length] at fits ⊢
    omega

/-- A datagram keeps to the limit exactly when the question does. -/
theorem datagram_length_le_iff {query : Bytes} {split : Split} (parts : query = split.query) (h : Header)
    {body : Bytes} (question : (questionOf query).length ≤ body.length) :
    (datagram query h body).length ≤ udpLimit query ↔ split.stop ≤ udpLimit query := by
  have width : 12 + (questionOf query).length = split.stop := by
    rw [questionOf, parts, split.questionEnd?_eq, Option.map_some, Option.getD_some, split.question_slice,
      split.question_length, Split.stop]
    omega
  unfold datagram
  rw [parts, split.questionEnd?_eq, ← parts]
  simp only [reduceCtorEq, or_false]
  split
  · next fits =>
    rw [List.length_append, Header.encode_length] at fits ⊢
    omega
  · rw [truncate_length_le_iff, width]

/-- Without a question section a response is the header of an error. -/
theorem responseBody_headerOnly {query : Slice} {config : Config} {result : Reply} (none : questionEnd? query.data = none)
    (answered : reply query config = some result) (clock : Clock) (params : ZoneParams) :
    responseBody clock query.data params result = [] := by
  have opt (doBit : Bool) : optOf query.data doBit = Option.none := by
    have noOpt : queryOpt? query.data = Option.none := by rw [queryOpt?, none]; simp
    rw [optOf, noOpt]
    rfl
  have error : result = .error rcodeNotimp := by
    unfold reply at answered
    split at answered
    · split at answered
      · contradiction
      · exact (Option.some.inj answered).symm
    · rw [qtypeQclass?, none] at answered
      simp at answered
  subst error
  simp [responseBody, questionOf, none, recordOctets, opt, Reply.error, emitQueues, rrsets, emitSets]

/-- The law of datagrams holds exactly when the question of a query that is answered ends within the limit. -/
theorem udpLaw_iff (clock : Clock) (query : Slice) (config : Config) :
    UdpLaw clock query config ↔
      ∀ stop limit, questionSectionEnd query = .ok (some stop) → udpResponseLimit query = .ok limit →
        (opcode query ≠ 0 ∨ ∃ domain, parseQuery query = .ok (some domain)) → stop ≤ limit := by
  have clear (result : Reply) : (responseHeader clock query.data (paramsOf query.data config) result).tc = false :=
    replyHeader_tc query.data result.aa result.rcode
  have question (result : Reply) : (questionOf query.data).length ≤
      (responseBody clock query.data (paramsOf query.data config) result).length := by
    rw [responseBody, List.length_append]
    omega
  constructor
  · intro law stop limit ends limited answered
    rw [questionSectionEnd_eq] at ends
    obtain ⟨split, parts, rfl⟩ := exists_split (Except.ok.inj ends)
    obtain ⟨result, answer⟩ := Option.isSome_iff_exists.mp ((reply_isSome_iff parts config).mpr answered)
    obtain ⟨response, limit', _, limited', short, _⟩ := law _ (by rw [handleQuery_eq, answer]; rfl)
    rw [udpResponseLimit_eq] at limited limited'
    cases limited
    cases limited'
    exact (datagram_length_le_iff parts _ (question result)).mp short
  · intro fits sent result
    rw [handleQuery_eq] at result
    obtain ⟨answer, answered, rfl⟩ := Option.map_eq_some_iff.mp (Except.ok.inj result)
    refine ⟨_, _, handleQueryInternal_eq .., udpResponseLimit_eq query, ?_, ?_⟩
    · cases ends : questionEnd? query.data with
      | none =>
        have bound := le_udpLimit query.data
        rw [responseBody_headerOnly ends answered, datagram, if_pos (.inr ends), List.append_nil, Header.encode_length]
        omega
      | some stop =>
        obtain ⟨split, parts, rfl⟩ := exists_split ends
        rw [datagram_length_le_iff parts _ (question answer)]
        refine fits _ _ (by rw [questionSectionEnd_eq, ends]) (udpResponseLimit_eq query) ?_
        rw [← reply_isSome_iff parts config, answered]
        rfl
    · rw [answered, Option.map_some, Option.getD_some, render_eq]
      exact datagram_standsFor query.data _ (clear answer) _

/-- Ten labels of 63 octets. -/
def longQuestion : Bytes :=
  (List.replicate 10 (63 :: List.replicate 63 97)).flatten ++ [0] ++ be16 typeA ++ be16 classIn

def longQuery : Slice := ⟨[0, 7, 1, 0, 0, 1, 0, 0, 0, 0, 0, 0] ++ longQuestion, by decide +kernel⟩

/-- A client without EDNS is sent 657 octets. -/
theorem longQuery_breaks_udpLaw : ¬ UdpLaw (fun _ => some 0) longQuery sampleConfig := by
  intro law
  have sent : handleQuery (fun _ => some 0) longQuery sampleConfig =
      .ok (some ([0, 7, 0x83, 5, 0, 1, 0, 0, 0, 0, 0, 0] ++ longQuestion)) := by decide +kernel
  have limited : udpResponseLimit longQuery = .ok 512 := by decide +kernel
  obtain ⟨_, limit, _, same, short, _⟩ := law _ sent
  rw [limited] at same
  cases same
  revert short
  decide +kernel

end RustyAlias
