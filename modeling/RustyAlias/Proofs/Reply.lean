import RustyAlias.Proofs.Emission
import RustyAlias.Proofs.Records

/-! # The handler gives the reply it should

Each builder of `response.rs` returns the rendering of the records that `Spec.Reply` queues for it,
and the dispatch of `query.rs` chooses as `reply` does. So the handler never panics, and what it
returns is a plain function of the query, the configuration and the clock.
-/

namespace RustyAlias

open Rust Rust.Outcome Dns

theorem queryHeader_encode (h : Header) (rest : Bytes) : queryHeader (h.encode ++ rest) = h := by
  simp only [queryHeader, Header.encode, be16, List.cons_append, List.nil_append, List.getD_cons_zero,
    List.getD_cons_succ, fromBe16_be16]

/-- Twelve octets are a header. -/
theorem encode_queryHeader {query : Bytes} (long : 12 ≤ query.length) :
    query = (queryHeader query).encode ++ query.drop 12 := by
  have same (b : ℕ) (bound : b < query.length) : query.drop b = query.getD b 0 :: query.drop (b + 1) := by
    rw [List.drop_eq_getElem_cons bound, List.getD_eq_getElem _ _ bound]
  calc query = query.drop 0 := rfl
    _ = _ := by
      rw [same 0 (by omega), same 1 (by omega), same 2 (by omega), same 3 (by omega), same 4 (by omega),
        same 5 (by omega), same 6 (by omega), same 7 (by omega), same 8 (by omega), same 9 (by omega),
        same 10 (by omega), same 11 (by omega)]
      simp [Header.encode, queryHeader, be16_fromBe16]

/-- The flags of every response. -/
theorem replyHeader_flags (query : Bytes) (aa : Bool) (rcode : UInt8) :
    (replyHeader query aa rcode).qr = true ∧ (replyHeader query aa rcode).opcode = (queryHeader query).opcode ∧
      (replyHeader query aa rcode).rd = (queryHeader query).rd ∧ (replyHeader query aa rcode).aa = aa := by
  have bits : ∀ (b : UInt8) (aa : Bool),
      let flags := 0b10000000 ||| (b &&& 0b01111000) ||| (if aa then 0b00000100 else 0) ||| (b &&& 0b00000001)
      flags.toNat.testBit 7 = true ∧ flags.toNat / 8 % 16 = b.toNat / 8 % 16 ∧
        flags.toNat.testBit 0 = b.toNat.testBit 0 ∧ flags.toNat.testBit 2 = aa := by decide +kernel
  exact bits _ aa

theorem slice_id {query : Bytes} (long : 12 ≤ query.length) : slice query 0 2 = .ok (be16 (queryHeader query).id) := by
  rw [slice_ok (by omega) (by omega), encode_queryHeader long]
  simp only [queryHeader_encode]
  rfl

theorem slice_qdcount {query : Bytes} (long : 12 ≤ query.length) :
    slice query 4 6 = .ok (be16 (queryHeader query).qdcount) := by
  rw [slice_ok (by omega) (by omega), encode_queryHeader long]
  simp only [queryHeader_encode]
  rfl

/-- The first twelve octets of every response. -/
theorem replyHeader_encode (query : Slice) (aa : Bool) (rcode : UInt8) :
    be16 (queryHeader query.data).id ++ responseFlags query aa rcode ++ be16 (queryHeader query.data).qdcount ++
      [0, 0, 0, 0, 0, 0] = (replyHeader query.data aa rcode).encode := by
  simp [Header.encode, replyHeader, responseFlags]
  rfl

theorem qnameOf_length_le (query : Slice) : (qnameOf query.data).length ≤ isizeMax := by
  have small := query.length_le
  unfold qnameOf
  cases questionEnd? query.data with
  | none => simp
  | some stop =>
    simp only [Option.map_some, Option.getD_some, List.length_drop, List.length_take]
    omega

/-- The owners that are signed exist in memory. -/
theorem ownerWire_qnameOf_le (query : Slice) {rr : Rr} (inMemory : rr.InMemory) :
    (ownerWire (qnameOf query.data) rr.owner).length ≤ 2 ^ 63 + 1 := by
  cases owner : rr.owner with
  | question =>
    have small := qnameOf_length_le query
    have same := (lowercaseWireName_returns small).post_value
    simp only [ownerWire, same]
    unfold isizeMax at small
    omega
  | name name =>
    have fits := inMemory name owner
    have bound := encodeDomainName_length_le name
    unfold isizeMax at fits
    simp only [ownerWire]
    omega

/-- The test of the handler for the zone. -/
theorem isInZone_config (config : Config) (domain : Str) :
    isInZone domain config.glueName = .ok (inZone domain config.glueName) :=
  isInZone_eq domain (config.inMemory _ (by simp))

section Builders

variable {query : Slice} {split : Split} (parts : query.data = split.query)

include parts

theorem Split.long : 12 ≤ query.data.length := by
  rw [parts, split.query_length, Split.stop]
  omega

theorem questionOf_split : questionOf query.data = split.question := by
  rw [questionOf, parts, split.questionEnd?_eq, Option.map_some, Option.getD_some, split.question_slice]

theorem qnameOf_split : qnameOf query.data = split.qname ++ [0] := by
  rw [qnameOf, parts, split.questionEnd?_eq, Option.map_some, Option.getD_some, split.qname_slice]

theorem question_split : slice query.data 12 split.stop = .ok split.question := by
  have stop : split.stop = 12 + split.qname.length + 5 := rfl
  have length := split.query_length
  rw [parts, slice_ok (by omega) (by omega), split.question_slice]

theorem withQuestion_eq (aa : Bool) (rcode : UInt8) :
    Msg.withQuestion query aa rcode =
      .ok (some ⟨(replyHeader query.data aa rcode).encode ++ split.question, [], [], []⟩) := by
  have long := Split.long parts
  rw [Msg.withQuestion, questionSectionEnd_split parts, ok_bind]
  dsimp only
  rw [slice_id long, ok_bind, slice_qdcount long, ok_bind, question_split parts, ok_bind, replyHeader_encode]
  rfl

/-- An error response is a reply without records. -/
theorem errorResponse_split (rcode : UInt8) (clock : Clock) (params : ZoneParams) :
    errorResponse query rcode = .ok (render clock query.data params (.error rcode)) := by
  have long := Split.long parts
  rw [errorResponse, if_neg (show ¬ query.len < 12 by unfold Slice.len; omega), slice_id long, ok_bind,
    slice_qdcount long, ok_bind, questionSectionEnd_split parts, ok_bind]
  dsimp only
  rw [question_split parts, ok_bind, pure_eq_ok, ok_bind, replyHeader_encode, maybeAppendOpt_eq]
  simp [render, layout, withCounts, recordOctets, Reply.error, emitQueues, rrsets, emitSets, questionOf_split parts, Section.add, replyHeader,
    count]

private theorem finish_render (params : ZoneParams) (clock : Clock) (queues : Queues) (inMemory : queues.All Rr.InMemory) :
    Msg.finish clock ⟨(replyHeader query.data true rcodeNoerror).encode ++ split.question, queues.answers,
      queues.authority, queues.additional⟩ query params =
      .ok (render clock query.data params (.authoritative params queues)) := by
  rw [finish_eq parts params clock _ ⟨rfl, rfl, rfl⟩ queues inMemory, render, questionOf_split parts, qnameOf_split parts]
  rfl

private theorem nsecRdata_split (types : List UInt16) :
    nsecRdata (split.qname ++ [0]) types = .ok (nsecRdata (split.qname ++ [0]) types).value := by
  have small := query.length_le
  have length := split.query_length
  have stop : split.stop = 12 + split.qname.length + 5 := rfl
  rw [parts] at small
  refine (nsecRdata_returns ?_ types).eq_ok
  rw [List.length_append, List.length_singleton]
  omega

theorem nodata_eq (clock : Clock) (params : ZoneParams) {types : List UInt16} (few : types.length ≤ 16) :
    nodata clock query params types =
      .ok (render clock query.data params (.authoritative params (nodataQueues params (qnameOf query.data) types))) := by
  have known : (nodataQueues params (qnameOf query.data) types).All Rr.InMemory := (nodataQueues_queued few).inMemory
  have finished := finish_render parts params clock _ known
  rw [← finished, nodata, withQuestion_eq parts, ok_bind]
  dsimp only
  cases sign : params.sign with
  | false => simp [nodataQueues, sign, Msg.addSoa, Msg.addRr, soaRr]
  | true =>
    rw [if_pos rfl, questionSectionEnd_split parts, ok_bind]
    dsimp only
    rw [usub_ok (by unfold Split.stop; omega), ok_bind, qname_split parts, ok_bind, nsecRdata_split parts, ok_bind]
    simp [nodataQueues, sign, Msg.addSoa, Msg.addRr, soaRr, nsecRr, qnameOf_split parts, offsetNscount]

omit parts in
theorem addTxt_eq (msg : Msg) (txt : Str) : msg.addTxt txt = .ok { msg with answers := msg.answers ++ [txtRr txt] } := by
  rw [Msg.addTxt]
  dsimp only
  rw [slice_ok (by omega) (by omega), ok_bind, List.drop_zero]
  have cut : txt.bytes.take (min txt.bytes.length 255) = txt.bytes.take 255 := by
    rw [Nat.min_comm, ← List.take_eq_take_min]
  simp [Msg.addRr, offsetAncount, offsetNscount, offsetArcount, txtRr, Str.len, cut]

omit parts in
private theorem addNsSet_answers (msg : Msg) (params : ZoneParams) :
    msg.addNsSet offsetAncount params = { msg with answers := msg.answers ++ nsRrs params } := by
  rw [Msg.addNsSet, nsRrs]
  induction params.nsNames generalizing msg with
  | nil => simp
  | cons name rest ih =>
    rw [List.foldl_cons, ih]
    simp [Msg.addNs, Msg.addRr, offsetAncount, offsetNscount, offsetArcount]

omit parts in
private theorem addNsSet_authority (msg : Msg) (params : ZoneParams) :
    msg.addNsSet offsetNscount params = { msg with authority := msg.authority ++ nsRrs params } := by
  rw [Msg.addNsSet, nsRrs]
  induction params.nsNames generalizing msg with
  | nil => simp
  | cons name rest ih =>
    rw [List.foldl_cons, ih]
    simp [Msg.addNs, Msg.addRr]

omit parts in
theorem addGlue_eq (params : ZoneParams) (msg : Msg) (name : Str) :
    Msg.addGlue params msg name = .ok { msg with additional := msg.additional ++ glueOf params name } := by
  rw [Msg.addGlue, nameInBailiwick_eq name (params.inMemory params.zone (by simp)), ok_bind, glueOf]
  by_cases below : Below (trimmed name) (trimmed params.zone)
  · cases ip6 : params.glueIp6 <;>
      simp [below, Msg.addA, Msg.addAaaa, Msg.addRr, offsetArcount, offsetNscount, aRr, aaaaRr]
  · simp [below]

omit parts in
theorem addInBailiwickGlue_eq (msg : Msg) (params : ZoneParams) :
    msg.addInBailiwickGlue params = .ok { msg with additional := msg.additional ++ glueRrs params } := by
  rw [Msg.addInBailiwickGlue, glueRrs]
  induction params.nsNames generalizing msg with
  | nil => simp
  | cons name rest ih =>
    rw [List.foldlM_cons, addGlue_eq, ok_bind, ih]
    simp

theorem buildTxtResponse_eq (clock : Clock) (txt : Str) (params : ZoneParams) :
    buildTxtResponse clock query txt params =
      .ok (render clock query.data params (.authoritative params ⟨[txtRr txt], [], []⟩)) := by
  have queued : Queues.All (Queued params (qnameOf query.data)) ⟨[txtRr txt], [], []⟩ := txtQueues_queued txt
  have finished := finish_render parts params clock _ queued.inMemory
  rw [← finished, buildTxtResponse, withQuestion_eq parts, ok_bind]
  dsimp only
  rw [addTxt_eq, ok_bind]
  rfl

omit parts in
/-- A branch of a builder beside the same branch of its reply. -/
theorem branch {c : Prop} [Decidable c] {first second : Outcome Bytes} {x y : Queues} {clock : Clock}
    {params : ZoneParams} (whole : (if c then x else y).All Rr.InMemory)
    (yes : x.All Rr.InMemory → first = .ok (render clock query.data params (.authoritative params x)))
    (no : y.All Rr.InMemory → second = .ok (render clock query.data params (.authoritative params y))) :
    (if c then first else second) =
      .ok (render clock query.data params (.authoritative params (if c then x else y))) := by
  split
  · next holds => rw [if_pos holds] at whole; exact yes whole
  · next fails => rw [if_neg fails] at whole; exact no whole

theorem buildApexResponse_eq (clock : Clock) (qtype : UInt16) (params : ZoneParams) :
    buildApexResponse clock query qtype params =
      .ok (render clock query.data params
        (.authoritative params (apexQueues params (qnameOf query.data) qtype))) := by
  have missing := nodata_eq parts clock params (apexTypes_length_le params)
  have finished {queues : Queues} (inMemory : queues.All Rr.InMemory) :=
    finish_render parts params clock queues inMemory
  have known : (apexQueues params (qnameOf query.data) qtype).All Rr.InMemory :=
    (apexQueues_queued qtype).inMemory
  rw [buildApexResponse, withQuestion_eq parts, ok_bind]
  unfold apexQueues at known ⊢
  dsimp only at known ⊢
  refine branch known (fun known => ?_) fun known => ?_
  · rw [addInBailiwickGlue_eq, ok_bind, addNsSet_authority]
    exact finished known
  refine branch known (fun known => ?_) fun known => ?_
  · rw [addInBailiwickGlue_eq, ok_bind, addNsSet_answers]
    exact finished known
  refine branch known (fun known => ?_) fun known => ?_
  · exact finished known
  refine branch known (fun known => ?_) fun known => ?_
  · cases ip6 : params.glueIp6 with
    | none => exact missing
    | some address => rw [ip6] at known; exact finished known
  refine branch known (fun known => ?_) fun known => ?_
  · cases spf : params.spf with
    | none => exact missing
    | some txt => rw [spf] at known; dsimp only; rw [addTxt_eq, ok_bind]; exact finished known
  refine branch known (fun known => ?_) fun known => ?_
  · cases dnssec : params.dnssec with
    | none => exact missing
    | some key =>
      rw [dnssec] at known
      rw [if_neg (by simp), Msg.addDnskey, dnssec]
      exact finished known
  refine branch known (fun known => ?_) fun known => ?_
  · cases dnssec : params.dnssec with
    | none => exact missing
    | some key =>
      rw [dnssec] at known
      rw [if_neg (by simp), Msg.addCds, dnssec]
      exact finished known
  refine branch known (fun known => ?_) fun known => ?_
  · cases dnssec : params.dnssec with
    | none => exact missing
    | some key =>
      rw [dnssec] at known
      rw [if_neg (by simp), Msg.addCdnskey, dnssec]
      exact finished known
  refine branch known (fun known => ?_) fun known => ?_
  · cases dnssec : params.dnssec with
    | none => exact missing
    | some key =>
      rw [dnssec] at known
      rw [if_neg (by simp), questionSectionEnd_split parts, ok_bind]
      dsimp only
      rw [usub_ok (by unfold Split.stop; omega), ok_bind, qname_split parts, ok_bind,
        nsecRdata_split parts (nsecTypes params.apexTypes), ok_bind]
      have result := finished known
      rw [qnameOf_split parts] at result ⊢
      exact result
  refine branch known (fun known => ?_) fun known => missing
  · have result := finished known
    rw [← result, addNsSet_answers]
    cases params.glueIp6 <;> cases params.spf <;> cases dnssec : params.dnssec <;>
      simp [addTxt_eq, addInBailiwickGlue_eq, Msg.addSoa, Msg.addA, Msg.addAaaa, Msg.addRr, Msg.addDnskey, Msg.addCds,
        Msg.addCdnskey, dnssec, offsetAncount, offsetNscount, offsetArcount, soaRr, aRr, aaaaRr, dnskeyRr, cdsRr,
        cdnskeyRr]

theorem buildAddressResponse_eq (clock : Clock) (qtype : UInt16) (ip : Option Ipv4Addr × Option Ipv6Addr)
    (params : ZoneParams) :
    buildAddressResponse clock query qtype ip params =
      .ok (render clock query.data params
        (.authoritative params (addressQueues params (qnameOf query.data) qtype ip))) := by
  have missing := nodata_eq parts clock params (addressTypes_length_le ip)
  have known : (addressQueues params (qnameOf query.data) qtype ip).All Rr.InMemory :=
    (addressQueues_queued qtype ip).inMemory
  rw [buildAddressResponse, withQuestion_eq parts, ok_bind]
  unfold addressQueues addressRrs wantsA wantsAaaa at known ⊢
  dsimp only at known ⊢
  cases v4 : ip.1.filter fun _ => qtype == typeA || qtype == typeAny with
  | none =>
    cases v6 : ip.2.filter fun _ => qtype == typeAaaa || qtype == typeAny with
    | none => exact missing
    | some v6' =>
      rw [v4, v6] at known
      exact finish_render parts params clock _ known
  | some v4' =>
    cases v6 : ip.2.filter fun _ => qtype == typeAaaa || qtype == typeAny with
    | none =>
      rw [v4, v6] at known
      exact finish_render parts params clock _ known
    | some v6' =>
      rw [v4, v6] at known
      exact finish_render parts params clock _ known

theorem buildNodataResponse_eq (clock : Clock) (params : ZoneParams) {types : List UInt16} (few : types.length ≤ 16) :
    buildNodataResponse clock query params types =
      .ok (render clock query.data params (.authoritative params (nodataQueues params (qnameOf query.data) types))) :=
  nodata_eq parts clock params few

omit parts in
/-- A branch of the handler beside the same branch of its reply. -/
theorem dispatch {c : Prop} [Decidable c] {first second : Outcome Bytes} {x y : Reply} {clock : Clock}
    {params : ZoneParams} (yes : c → first = .ok (render clock query.data params x))
    (no : ¬ c → second = .ok (render clock query.data params y)) :
    (if c then first else second) = .ok (render clock query.data params (if c then x else y)) := by
  split
  · next holds => exact yes holds
  · next fails => exact no fails

/-- The dispatch of a question that was read. -/
theorem handleQueryInternal_question (clock : Clock) (config : Config) (opcodeZero : opcode query = 0) {domain : Str}
    (parsed : parseQuery query = .ok (some domain)) (small : domain.len ≤ isizeMax) :
    handleQueryInternal clock query config =
      .ok (render clock query.data (paramsOf query.data config) (replyTo config (paramsOf query.data config)
        (qnameOf query.data) domain split.qtype split.qclass)) := by
  have zone := isInZone_config config domain
  have read : parseQtypeQclass query = .ok (some (split.qtype, split.qclass)) := by
    rw [parseQtypeQclass_eq, parts, split.qtypeQclass?_eq]
  have refused := errorResponse_split parts rcodeRefused clock (paramsOf query.data config)
  rw [handleQueryInternal, if_neg (not_not.mpr opcodeZero), parsed, ok_bind]
  dsimp only
  rw [read, ok_bind]
  dsimp only
  rw [zone, ok_bind, queryDnssecOk_eq, ok_bind]
  unfold replyTo
  refine dispatch (fun _ => refused) fun _ => dispatch (fun _ => refused) fun _ => ?_
  refine dispatch (fun _ => ?_) fun _ => ?_
  · refine dispatch (fun _ => buildTxtResponse_eq parts ..) fun _ => ?_
    rw [ok_bind]
    exact dispatch (fun _ => buildNodataResponse_eq parts clock _ (by simp)) fun _ => refused
  refine dispatch (fun _ => ?_) fun _ => ?_
  · split
    · exact buildTxtResponse_eq parts ..
    · exact buildNodataResponse_eq parts clock _ (by simp)
  refine dispatch (fun _ => buildApexResponse_eq parts ..) fun _ => ?_
  rw [ok_bind]
  refine dispatch (fun _ => buildAddressResponse_eq parts ..) fun _ => ?_
  rw [interpretIp_eq small, ok_bind]
  cases addressOf (domain.split dot) with
  | none => exact buildNodataResponse_eq parts clock _ (by simp)
  | some ip => exact buildAddressResponse_eq parts ..

end Builders

section Signing

variable {config : Config} {key : DnssecKey}

/-- The DO bit that the handler reads is that of the parameters. -/
theorem doBit_of_dnssecOk {query : Slice} {doBit : Bool} (dnssecOk : queryDnssecOk query = .ok doBit) :
    (queryOpt? query.data).any Prod.snd = doBit := by
  rw [queryDnssecOk_eq] at dnssecOk
  exact Except.ok.inj dnssecOk

variable {query : Bytes} (doBit : (queryOpt? query).any Prod.snd = true) (keyed : config.dnssec = some key)

include doBit keyed

theorem paramsOf_sign : (paramsOf query config).sign = true := by
  simp [ZoneParams.sign, paramsOf, zoneParams, doBit, keyed]

/-- With the DO bit and a key all but signatures is signed. -/
theorem paramsOf_signer (typ : UInt16) (plain : typ ≠ typeRrsig) : (paramsOf query config).signer typ = some key := by
  rw [ZoneParams.signer, if_neg plain]
  simp [paramsOf, zoneParams, doBit, keyed]

end Signing

/-- Without a question section an error response is a header. -/
theorem errorResponse_headerOnly {query : Slice} (long : 12 ≤ query.len) (none : questionEnd? query.data = none)
    (rcode : UInt8) (clock : Clock) (params : ZoneParams) :
    errorResponse query rcode = .ok (render clock query.data params (.error rcode)) := by
  rw [errorResponse, if_neg (by omega), slice_id long, ok_bind, slice_qdcount long, ok_bind, questionSectionEnd_eq, none,
    ok_bind]
  dsimp only
  rw [pure_eq_ok, ok_bind, replyHeader_encode]
  have appended := maybeAppendOpt_eq query (replyHeader query.data false rcode) [] false
  rw [List.append_nil] at appended
  rw [appended]
  simp [render, layout, withCounts, recordOctets, Reply.error, emitQueues, rrsets, emitSets, questionOf, none, Section.add, replyHeader, count]

/-- The name that `parse_query` returns is no longer than the query. -/
theorem parseQuery_small {query : Slice} {domain : Str} (parsed : parseQuery query = .ok (some domain)) :
    domain.len ≤ isizeMax := by
  obtain ⟨_, labels, left, _, walked, _, spelled, _⟩ := parseQuery_walk parsed
  have encoded := congrArg List.length (encode_of_walkLabels? walked).1
  have bound := text_length_le labels
  have small := query.length_le
  rw [List.length_drop, List.length_append] at encoded
  rw [Str.len, spelled]
  omega

/-- The handler returns the rendering of the reply, or nothing when there is none. -/
theorem handleQueryInternal_eq (clock : Clock) (query : Slice) (config : Config) :
    handleQueryInternal clock query config =
      .ok (((reply query config).map (render clock query.data (paramsOf query.data config))).getD []) := by
  unfold reply
  by_cases standard : opcode query = 0
  · rw [if_neg (not_not.mpr standard)]
    rcases parseQuery_eq query with ⟨_, parsed⟩ | ⟨labels, domain, _, _, parsed⟩
    · rw [handleQueryInternal, if_neg (not_not.mpr standard), parsed]
      rfl
    · cases ends : questionEnd? query.data with
      | none =>
        rw [handleQueryInternal, if_neg (not_not.mpr standard), parsed, ok_bind]
        dsimp only
        rw [parseQtypeQclass_eq, qtypeQclass?, ends]
        rfl
      | some stop =>
        obtain ⟨split, parts, rfl⟩ := exists_split ends
        rw [handleQueryInternal_question parts clock config standard parsed (parseQuery_small parsed), parsed, parts,
          split.qtypeQclass?_eq]
        rfl
  · rw [handleQueryInternal, if_pos standard, if_pos standard, buildNotimpResponse]
    by_cases short : query.len < 12
    · rw [if_pos short, errorResponse, if_pos short]
      rfl
    rw [if_neg short]
    cases ends : questionEnd? query.data with
    | none => exact errorResponse_headerOnly (by omega) ends ..
    | some stop =>
      obtain ⟨split, parts, rfl⟩ := exists_split ends
      exact errorResponse_split parts ..

section Question

variable {query : Slice} {domain : Str} {qtype qclass : UInt16} (standard : opcode query = 0)
  (parsed : parseQuery query = .ok (some domain)) (typed : parseQtypeQclass query = .ok (some (qtype, qclass)))

include standard parsed typed

theorem reply_of_question (config : Config) : reply query config =
    some (replyTo config (paramsOf query.data config) (qnameOf query.data) domain qtype qclass) := by
  rw [parseQtypeQclass_eq] at typed
  injection typed with typed
  rw [reply, if_neg (not_not.mpr standard), parsed, typed]
  rfl

/-- What is returned for a question that is read. -/
theorem handleQueryInternal_of_question (clock : Clock) (config : Config) : handleQueryInternal clock query config =
    .ok (render clock query.data (paramsOf query.data config)
      (replyTo config (paramsOf query.data config) (qnameOf query.data) domain qtype qclass)) := by
  rw [handleQueryInternal_eq, reply_of_question standard parsed typed config]
  rfl

end Question

theorem queryHeader_render (clock : Clock) (query : Bytes) (params : ZoneParams) (reply : Reply) :
    queryHeader (render clock query params reply) = withCounts (replyHeader query reply.aa reply.rcode)
      (emitQueues params (qnameOf query) clock reply.queues) (optOf query reply.doBit) := queryHeader_encode ..

end RustyAlias
