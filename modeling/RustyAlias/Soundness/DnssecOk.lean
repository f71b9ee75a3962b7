import RustyAlias.Proofs.Served
import RustyAlias.Soundness.CaseRandomisation
import RustyAlias.Soundness.QuestionReadings
import RustyAlias.Soundness.Signatures
import RustyAlias.Spec.Contents

/-! # What the DO bit adds

A query that asks for proofs gets the records that it gets otherwise, and RRSIG and NSEC records. The
exceptions are queries in which the name that `parse_query` reads reaches into the OPT record, past a
zero octet inside a label: there the DO bit is a part of the name.
-/

namespace RustyAlias

open Rust Rust.Outcome Dns

/-- The query with the DO bit of the OPT record behind the question set. -/
def withDo (query : Bytes) (stop : ℕ) : Bytes := query.set (stop + 7) (query.getD (stop + 7) 0 ||| 0x80)

/-- The records without signatures, without the NSEC records of the Authority section, and without the DO bit. -/
def Contents.withoutProofs (contents : Contents) : Contents where
  heading := contents.heading
  records := ⟨unsigned contents.records.answers, undenied (unsigned contents.records.authority),
    unsigned contents.records.additional⟩
  opt := contents.opt.map fun _ => false

/-- The same name is read from both queries, or two names for which the zone has the same. -/
def NamedAlike (config : Config) (query query' : Slice) : Prop :=
  opcode query ≠ 0 ∨ parseQuery query = parseQuery query' ∨
    ∃ domain domain' qtype qclass, parseQuery query = .ok (some domain) ∧ parseQuery query' = .ok (some domain') ∧
      parseQtypeQclass query = .ok (some (qtype, qclass)) ∧ served config domain qtype qclass = served config domain' qtype qclass

section Octets

variable {split : Split}

/-- The split of the query with the DO bit set. -/
def Split.withDo (split : Split) : Split := { split with rest := split.rest.set 7 (split.rest.getD 7 0 ||| 0x80) }

theorem Split.withDo_query (split : Split) : split.withDo.query = RustyAlias.withDo split.query split.stop := by
  have front : (split.header ++ split.question).length = split.stop := by
    rw [← split.take_stop, List.length_take, split.query_length]
    omega
  have octet : split.query.getD (split.stop + 7) 0 = split.rest.getD 7 0 := by
    rw [Split.query, ← front, List.getD_append_right _ _ _ _ (by omega), Nat.add_sub_cancel_left]
  rw [RustyAlias.withDo, octet, Split.query, Split.query, List.set_append_right _ _ (by omega), front, Nat.add_sub_cancel_left]
  rfl

/-- The DO bit is the highest bit of the flags. -/
theorem do_of_withDo (flags low : UInt8) : (fromBe16 (flags ||| 0x80) low &&& 0x8000 != 0) = true := by
  have high : ∀ flags : UInt8, 128 ≤ (flags ||| 0x80).toNat := by decide +kernel
  have top := high flags
  have octet := (flags ||| 0x80).toNat_lt
  have octet' := low.toNat_lt
  rw [bne_iff_ne, ne_eq, ← UInt16.toNat_inj, UInt16.toNat_and]
  change ¬ (fromBe16 (flags ||| 0x80) low).toNat &&& 2 ^ 15 = 0
  have bit : (fromBe16 (flags ||| 0x80) low).toNat.testBit 15 = true := by
    rw [Nat.testBit_eq_decide_div_mod_eq, decide_eq_true_iff, fromBe16, UInt16.toNat_ofNat']
    omega
  rw [Nat.and_two_pow, bit]
  decide

private theorem queryHeader_withDo (split : Split) : queryHeader split.withDo.query = queryHeader split.query := by
  rw [Split.query, Split.query, List.append_assoc, List.append_assoc, queryHeader_append split.header_length]
  exact queryHeader_append split.header_length _

/-- The OPT record is found where it was, with the DO bit set. -/
theorem queryOpt?_withDo {size : ℕ} (opt : queryOpt? split.query = some (size, false)) :
    queryOpt? split.withDo.query = some (size, true) := by
  have arcount : fromBe16 (split.withDo.query.getD 10 0) (split.withDo.query.getD 11 0) =
      fromBe16 (split.query.getD 10 0) (split.query.getD 11 0) := congrArg Header.arcount (queryHeader_withDo split)
  rw [queryOpt?, split.questionEnd?_eq] at opt
  rw [queryOpt?, split.withDo.questionEnd?_eq, arcount]
  split at opt
  · cases opt
  · next present =>
    rw [if_neg present]
    dsimp only [Option.bind_some] at opt ⊢
    rw [split.drop_stop] at opt
    rw [split.withDo.drop_stop]
    split at opt
    · next shape =>
      have kept (i : ℕ) (other : i ≠ 7) : (split.rest.set 7 (split.rest.getD 7 0 ||| 0x80)).getD i 0 = split.rest.getD i 0 := by
        rw [List.getD_eq_getElem?_getD, List.getElem?_set_ne other.symm, List.getD_eq_getElem?_getD]
      have flags : (split.rest.set 7 (split.rest.getD 7 0 ||| 0x80)).getD 7 0 = split.rest.getD 7 0 ||| 0x80 := by
        rw [List.getD_eq_getElem?_getD, List.getElem?_set_self (by omega)]
        rfl
      simp only [Split.withDo, List.length_set, kept _ (show 0 ≠ 7 by decide), kept _ (show 1 ≠ 7 by decide),
        kept _ (show 2 ≠ 7 by decide), kept _ (show 3 ≠ 7 by decide), kept _ (show 4 ≠ 7 by decide),
        kept _ (show 8 ≠ 7 by decide), flags, do_of_withDo]
      rw [if_pos shape]
      obtain ⟨same, _⟩ := Prod.mk.inj (Option.some.inj opt)
      rw [same]
    · cases opt

end Octets

section Written

variable {params : ZoneParams} {query : Bytes} {size : ℕ} {dnssecOk : Bool} (opt : queryOpt? query = some (size, dnssecOk))
include opt

/-- Without the DO bit there are no proofs. -/
theorem response_plain (unasked : params.doBit = false) (clock : Clock) (result : Reply) :
    (contentsOf clock query params result).response query =
      layout (replyHeader query result.aa result.rcode) (questionOf query) result.queues.plain (some result.doBit) := by
  have echoed : optOf query result.doBit = some result.doBit := by
    rw [optOf, opt]
    rfl
  rw [contentsOf, emitQueues_plain unasked, echoed]
  rfl

/-- Less its proofs, the response consists of the plain records. -/
theorem response_withoutProofs (clock : Clock) {result : Reply} (plain : result.queues.All fun rr => rr.typ ≠ typeRrsig) :
    (contentsOf clock query params result).withoutProofs.response query =
      layout (replyHeader query result.aa result.rcode) (questionOf query)
        ⟨plainRrs result.queues.answers, undenied (plainRrs result.queues.authority), plainRrs result.queues.additional⟩
        (some false) := by
  obtain ⟨⟨answers, authority⟩, additional⟩ := by simpa only [Queues.All, List.mem_append, or_imp, forall_and] using plain
  have echoed : (optOf query result.doBit).map (fun _ => false) = some false := by
    rw [optOf, opt]
    rfl
  simp only [Contents.withoutProofs, contentsOf, emitQueues, unsigned_section _ answers, unsigned_section _ authority,
    unsigned_section _ additional, echoed]
  rfl

end Written

section TwoRuns

variable {query query' : Bytes} {size : ℕ} (opt : queryOpt? query = some (size, false))
  (opt' : queryOpt? query' = some (size, true)) (header : queryHeader query = queryHeader query')
  (echoed : questionOf query = questionOf query')
include opt opt' header echoed

/-- The responses about two names differ by the proofs exactly when the zone has the same for both. -/
theorem response_iff (clock clock' : Clock) (config : Config) (qname : Bytes) (domain domain' : Str) (qtype qclass : UInt16) :
    (contentsOf clock query (zoneParams config false)
        (replyTo config (zoneParams config false) qname domain qtype qclass)).response query =
      (contentsOf clock' query' (zoneParams config true)
        (replyTo config (zoneParams config true) qname domain' qtype qclass)).withoutProofs.response query' ↔
      served config domain qtype qclass = served config domain' qtype qclass := by
  have queued : (replyTo config (zoneParams config true) qname domain' qtype qclass).queues.All (Queued (zoneParams config true) qname) :=
    replyTo_queued config domain' qtype qclass
  obtain ⟨answers, authority, additional⟩ : (replyTo config (zoneParams config false) qname domain' qtype qclass).queues.Unproved
    (replyTo config (zoneParams config true) qname domain' qtype qclass).queues := replyTo_unproved domain' qtype qclass
  obtain ⟨aa, rcode, _⟩ := @replyTo_flags config qname true domain' qtype qclass
  rw [response_plain opt rfl, response_withoutProofs opt' clock' (queued.mono fun _ queued => queued.typ_ne.1), ← authority,
    ← answers, ← additional, ← aa, ← rcode, (@replyTo_flags config qname true domain qtype qclass).2.2, replyHeader_congr header.symm,
    ← echoed, replyTo_plain, replyTo_plain]
  change Served.shown config query qname (questionOf query) qtype (some false) _ =
    Served.shown config query qname (questionOf query) qtype (some false) _ ↔ _
  constructor
  · intro same
    exact Served.eq_of_alike (served_of domain qclass) (served_of domain' qclass) (Served.alike_of_shown same)
  · intro same
    rw [same]

end TwoRuns

/-- A response is not empty. -/
theorem response_ne_nil (contents : Contents) (query : Bytes) : contents.response query ≠ [] := by
  intro empty
  have length := congrArg List.length empty
  rw [Contents.response, layout, List.length_append, Header.encode_length, List.length_nil] at length
  omega

/-- The response without the DO bit is the response with it, less the proofs, exactly when the bit does not change what the zone
has for the name. -/
theorem dnssecOk_adds_iff (clock clock' : Clock) (config : Config) {query query' : Slice} {size stop : ℕ}
    (opt : parseQueryOpt query = .ok (some (size, false))) (ends : questionSectionEnd query = .ok (some stop))
    (asked : query'.data = withDo query.data stop) :
    handleQueryInternal clock' query' config =
        .ok (responseOctets query'.data (responseContents clock' query' config)) ∧
      (handleQueryInternal clock query config =
          .ok (responseOctets query'.data ((responseContents clock' query' config).map Contents.withoutProofs)) ↔
        NamedAlike config query query') := by
  have found : questionEnd? query.data = some stop := Except.ok.inj ((questionSectionEnd_eq query).symm.trans ends)
  have opt : queryOpt? query.data = some (size, false) := Except.ok.inj ((parseQueryOpt_eq query).symm.trans opt)
  obtain ⟨split, parts, rfl⟩ := exists_split found
  have parts' : query'.data = split.withDo.query := by rw [asked, parts, split.withDo_query]
  have opt' : queryOpt? query'.data = some (size, true) := by
    rw [parts']
    exact queryOpt?_withDo (parts ▸ opt)
  have header : queryHeader query.data = queryHeader query'.data := by rw [parts, parts', queryHeader_withDo]
  have echoed : questionOf query.data = questionOf query'.data := by rw [questionOf_split parts, questionOf_split parts']; rfl
  have qname : qnameOf query'.data = qnameOf query.data := by rw [qnameOf_split parts, qnameOf_split parts']; rfl
  have typed : qtypeQclass? query.data = some (split.qtype, split.qclass) := by rw [parts, split.qtypeQclass?_eq]
  have typed' : qtypeQclass? query'.data = some (split.qtype, split.qclass) := by rw [parts', split.withDo.qtypeQclass?_eq]; rfl
  have params : paramsOf query.data config = zoneParams config false := by rw [paramsOf, opt]; rfl
  have params' : paramsOf query'.data config = zoneParams config true := by rw [paramsOf, opt']; rfl
  refine ⟨handleQueryInternal_contents clock' query' config, ?_⟩
  rw [handleQueryInternal_contents, Except.ok.injEq]
  by_cases standard : opcode query = 0
  · have standard' : opcode query' = 0 := opcode_congr header ▸ standard
    have nameless : ¬ opcode query ≠ 0 := not_not.mpr standard
    have nameless' : ¬ opcode query' ≠ 0 := not_not.mpr standard'
    rw [NamedAlike, responseContents, responseContents, reply, reply, if_neg nameless, if_neg nameless', typed, typed', params,
      params', qname, parseQtypeQclass_eq, typed]
    rcases parseQuery_eq query with ⟨_, none⟩ | ⟨_, domain, _, _, parsed⟩ <;>
      rcases parseQuery_eq query' with ⟨_, none'⟩ | ⟨_, domain', _, _, parsed'⟩
    · rw [none, none']
      exact iff_of_true rfl (.inr (.inl rfl))
    · rw [none, parsed']
      refine iff_of_false (response_ne_nil _ _).symm ?_
      simp [standard]
    · rw [parsed, none']
      refine iff_of_false (response_ne_nil _ _) ?_
      simp [standard]
    · rw [parsed, parsed', value_ok, value_ok]
      refine (response_iff opt opt' header echoed clock clock' config _ domain domain' _ _).trans ?_
      constructor
      · exact fun alike => .inr (.inr ⟨domain, domain', _, _, rfl, rfl, rfl, alike⟩)
      · rintro (other | same | ⟨_, _, _, _, first, second, third, alike⟩)
        · exact absurd other nameless
        · obtain rfl : domain = domain' := by simpa using same
          rfl
        · cases first
          cases second
          cases third
          exact alike
  · have standard' : opcode query' ≠ 0 := opcode_congr header ▸ standard
    have long : ¬ query.len < 12 := by rw [Slice.len, parts, split.query_length, Split.stop]; omega
    have long' : ¬ query'.len < 12 := by rw [Slice.len, parts', split.withDo.query_length, Split.stop]; omega
    have error : (Reply.error rcodeNotimp).queues.All fun rr => rr.typ ≠ typeRrsig := Queues.all_mk (by simp) (by simp) (by simp)
    refine iff_of_true ?_ (.inl standard)
    rw [responseContents, responseContents, reply, reply, if_pos standard, if_pos standard', if_neg long, if_neg long', params, params']
    change (contentsOf clock query.data _ _).response query.data = (contentsOf clock' query'.data _ _).withoutProofs.response query'.data
    rw [response_plain opt rfl, response_withoutProofs opt' clock' error, replyHeader_congr header, echoed]
    rfl

/-- A name without zero octets is read from both queries. -/
theorem parseQuery_withDo {query query' : Slice} {stop : ℕ} {domain : Str} (parsed : parseQuery query = .ok (some domain))
    (ends : questionSectionEnd query = .ok (some stop)) (asked : query'.data = withDo query.data stop)
    (free : ∀ label ∈ questionLabels query.data, 0 ∉ label) : parseQuery query = parseQuery query' := by
  have found : questionEnd? query.data = some stop := Except.ok.inj ((questionSectionEnd_eq query).symm.trans ends)
  obtain ⟨split, parts, rfl⟩ := exists_split found
  have parts' : query'.data = split.withDo.query := by rw [asked, parts, split.withDo_query]
  obtain ⟨long, labels, left, read, walked, _, spelled, _⟩ := parseQuery_walk parsed
  rw [questionLabels, walked] at free
  have readable := (encode_of_walkLabels? walked).2.1
  rw [parts] at walked
  have qname : split.withDo.qname = encodeLabels labels := (qname_eq_encodeLabels_iff walked).mpr free
  have walked' : (walkLabels? (query'.data.drop 12)).map Prod.fst = some labels := by
    rw [parts', split.withDo.drop_header, Split.question, qname]
    simp only [List.append_assoc]
    rw [walkLabels?_encode readable (.inr rfl)]
    rfl
  have header : queryHeader query'.data = queryHeader query.data := by rw [parts, parts', queryHeader_withDo]
  have qdcount : fromBe16 (query'.data.getD 4 0) (query'.data.getD 5 0) =
      fromBe16 (query.data.getD 4 0) (query.data.getD 5 0) := congrArg Header.qdcount header
  have length : query'.data.length = query.data.length := by rw [asked, withDo, List.length_set]
  have read' : parsedLabels? query'.data = some labels := by
    have whole : (walkLabels? (query.data.drop 12)).map Prod.fst = some labels := by rw [parts, walked]; rfl
    rw [parsedLabels?, whole] at read
    rwa [parsedLabels?, walked', length, qdcount]
  rcases parseQuery_eq query' with ⟨none, _⟩ | ⟨_, domain', labels', spelled', parsed'⟩
  · rw [none] at read'
    cases read'
  · obtain rfl := Option.some.inj (labels'.symm.trans read')
    rw [parsed, parsed', Str.ext (spelled.trans spelled'.symm)]

/-- The sample query without the DO bit. -/
def unaskedQuery : Slice where
  data := [0, 7, 1, 0, 0, 1, 0, 0, 0, 0, 0, 1] ++ [8, 49, 48, 45, 48, 45, 48, 45, 49, 3, 110, 105, 112, 2, 110, 117, 0] ++
    be16 typeA ++ be16 classIn ++ [0, 0, 41, 4, 208, 0, 0, 0, 0, 0, 0]
  length_le := by decide +kernel

theorem dnssecOk_adds_sample :
    handleQueryInternal (fun _ => some 0) sampleQuery sampleSignedConfig =
        .ok (responseOctets sampleQuery.data (responseContents (fun _ => some 0) sampleQuery sampleSignedConfig)) ∧
      handleQueryInternal (fun _ => some 0) unaskedQuery sampleSignedConfig =
        .ok (responseOctets sampleQuery.data
          ((responseContents (fun _ => some 0) sampleQuery sampleSignedConfig).map Contents.withoutProofs)) := by
  have opt : parseQueryOpt unaskedQuery = .ok (some (1232, false)) := by decide +kernel
  have ends : questionSectionEnd unaskedQuery = .ok (some 33) := by decide +kernel
  have parsed : parseQuery unaskedQuery = .ok (some (.ofString "10-0-0-1.nip.nu")) := by decide +kernel
  have asked : sampleQuery.data = withDo unaskedQuery.data 33 := by decide +kernel
  obtain ⟨made, alike⟩ := dnssecOk_adds_iff (fun _ => some 0) (fun _ => some 0) sampleSignedConfig opt ends asked
  exact ⟨made, alike.mpr (.inr (.inl (parseQuery_withDo parsed ends asked (by decide +kernel))))⟩

/-- An A query whose first label of sixteen octets begins with a zero octet and ends with the OPT record. -/
def zeroOptQuery : Slice where
  data := [0, 7, 1, 0, 0, 1, 0, 0, 0, 0, 0, 1] ++ [16, 0] ++ be16 typeA ++ be16 classIn ++ [0, 0, 41, 4, 0, 0, 0, 0, 0, 0, 0] ++
    [3, 110, 105, 112, 2, 110, 117, 0]
  length_le := by decide +kernel

/-- With the DO bit set the label is no UTF-8. -/
def zeroOptQueryDo : Slice := ⟨withDo zeroOptQuery.data 18, by decide +kernel⟩

/-- The query is answered without the DO bit, and gets no response with it. -/
theorem zeroOptQuery_unanswered :
    parseQueryOpt zeroOptQuery = .ok (some (1024, false)) ∧ questionSectionEnd zeroOptQuery = .ok (some 18) ∧
      (∃ response, handleQueryInternal (fun _ => some 0) zeroOptQuery sampleConfig = .ok response ∧
        (queryHeader response).rcode = 0 ∧ (queryHeader response).nscount = 1) ∧
      handleQueryInternal (fun _ => some 0) zeroOptQueryDo sampleConfig = .ok [] := by
  refine ⟨by decide +kernel, by decide +kernel, ?_, by decide +kernel⟩
  have header : (handleQueryInternal (fun _ => some 0) zeroOptQuery sampleConfig).map
      (fun response => ((queryHeader response).rcode, (queryHeader response).nscount)) = .ok (0, 1) := by decide +kernel
  cases returned : handleQueryInternal (fun _ => some 0) zeroOptQuery sampleConfig with
  | error panic => rw [returned] at header; cases header
  | ok response =>
    rw [returned] at header
    obtain ⟨rcode, nscount⟩ := Prod.mk.inj (Except.ok.inj header)
    exact ⟨response, rfl, rcode, nscount⟩

end RustyAlias
