import RustyAlias.Proofs.ReplyShape
import RustyAlias.Soundness.AnyQueries
import RustyAlias.Soundness.RecordSets
import RustyAlias.Soundness.Subdomains
import RustyAlias.Soundness.ZoneBoundary

/-! # Glue and authoritative answers

Beside the apex the Additional section has the addresses of the nameservers inside the zone. Direct
queries for these nameservers are answered with the same addresses, however their names are spelled in
the configuration and in the query.
-/

namespace RustyAlias

open Rust Rust.Outcome Dns

/-- The query is accepted and asks, class IN, for the host in any case and with any dots behind it. A name of nothing but
dots, which only labels of dots give, is not the root. -/
def AsksFor (query : Slice) (host : Str) (qtype : UInt16) : Prop :=
  opcode query = 0 ∧ parseQtypeQclass query = .ok (some (qtype, classIn)) ∧
    ∃ domain, parseQuery query = .ok (some domain) ∧ namesEq domain host = true ∧ hostLabels domain ≠ []

/-- The owner of the record is the host. -/
def OwnedBy (host : Str) (rr : Rr) : Prop := ∃ owner, rr.owner = .name owner ∧ fold (hostLabels owner) = fold (hostLabels host)

/-- The records of a type that the host owns have the RDATA of the answers of the type. -/
def AgreesWith (additional answers : List Rr) (host : Str) (t : UInt16) : Prop :=
  ∀ rdata, (∃ rr ∈ additional, OwnedBy host rr ∧ rr.typ = t ∧ rr.rdata = rdata) ↔ ∃ rr ∈ answers, rr.typ = t ∧ rr.rdata = rdata

/-- RCODE 0, no answers, and the SOA record of the zone. -/
structure Nodata (contents : Contents) : Prop where
  rcode : contents.header.rcode = 0
  answers : contents.records.answers = []
  soa : ∃ rr ∈ contents.records.authority, rr.typ = typeSoa

section Names

variable {query : Slice} {host name zone : Str} {qtype : UInt16}

/-- What is read from the query is then the host, and not the root. -/
theorem AsksFor.exists_domain (asked : AsksFor query host qtype) : ∃ domain, parseQuery query = .ok (some domain) ∧
    lowerAll (trimmed domain) = lowerAll (trimmed host) ∧ trimmed host ≠ [] := by
  obtain ⟨_, _, domain, parsed, named, some⟩ := asked
  have same : lowerAll (trimmed domain) = lowerAll (trimmed host) := eqIgnoreCase_iff.mp named
  refine ⟨domain, parsed, same, fun root => some (if_pos ?_)⟩
  rw [root] at same
  exact lowerAll_eq_nil_iff.mp same

/-- A well-formed query for the labels of the host is such a query. -/
theorem StandardQuery.asksFor {question : Question} (standard : StandardQuery query.data question)
    (internet : question.qclass = classIn) (named : fold question.name = fold (hostLabels host)) :
    AsksFor query host question.qtype := by
  obtain ⟨rest, behind⟩ := standard.octets
  obtain ⟨domain, parsed, spelled⟩ := standard.parseQuery_eq
  have zero : RustyAlias.opcode query = 0 := UInt8.toNat_inj.mp (by rw [opcode_eq, standard.opcode]; rfl)
  have typed := (qnameOf_question standard.legal standard.free behind).2
  have nonempty : ∀ label ∈ question.name, label ≠ [] := by
    rintro label member rfl
    exact absurd (standard.readable _ member).nonempty (by simp)
  have dotless : ∀ label ∈ question.name, 46 ∉ label := by
    intro label member
    have folded : lowerAll label ∈ fold (hostLabels host) := named ▸ List.mem_map_of_mem member
    obtain ⟨source, inside, same⟩ := List.mem_map.mp folded
    rw [← mem_lowerAll_dot, ← same, mem_lowerAll_dot]
    exact dot_notMem_hostLabels source inside
  have labels : hostLabels domain = question.name := hostLabels_text (n := 0) nonempty dotless (by simpa using spelled)
  rw [internet] at typed
  refine ⟨zero, typed, domain, parsed, eqIgnoreCase_iff.mpr ?_, labels ▸ standard.nonempty⟩
  exact (fold_hostLabels_eq_iff domain host).mp (labels ▸ named)

/-- The records of a type that the host owns belong to one RRset. -/
theorem ownedBy_iff {rr : Rr} : OwnedBy host rr ∧ rr.typ = qtype ↔ rr.setKey = (ownerKey (.name host), qtype) := by
  rw [Rr.setKey, Prod.mk.injEq, OwnedBy]
  refine and_congr_left fun _ => ?_
  cases rr.owner with
  | question => simp [ownerKey]
  | name owner => simp [ownerKey, fold_hostLabels_eq_iff]

/-- A legal name lies at or below the zone when its labels end with those of the zone. -/
theorem below_iff_suffix (legal : LegalHost name) (some : trimmed zone ≠ []) :
    Below (trimmed name) (trimmed zone) ↔ fold (hostLabels zone) <:+ fold (hostLabels name) := by
  have boundary := inZone_iff name zone
  rw [inZone, decide_eq_true_iff, and_iff_right some, and_iff_right some] at boundary
  rw [boundary]
  constructor
  · rintro ⟨front, _, whole⟩
    exact ⟨front, whole.symm⟩
  · rintro ⟨front, whole⟩
    refine ⟨front, ?_, whole.symm⟩
    rintro rfl
    have bare : [] ∈ fold (hostLabels name) := by simp [← whole]
    obtain ⟨label, member, empty⟩ := List.mem_map.mp bare
    have short := (legal.legal.labels label member).1
    rw [← lowerAll_length, empty] at short
    cases short

/-- Below a zone that is no version name there is none: version names have no dots. -/
theorem not_version_of_below (plain : isVersionQuery (zone.trimEndMatches dot) = false)
    (below : Below (trimmed name) (trimmed zone)) : isVersionQuery name = false := by
  by_contra version
  rw [Bool.not_eq_false] at version
  have dotless : 46 ∉ lowerAll name.bytes := by
    simp only [isVersionQuery, Bool.or_eq_true, Str.eqIgnoreAsciiCase, eqIgnoreCase_iff] at version
    rcases version with (same | same) | same
    · rw [same]; decide +kernel
    · rw [same]; decide +kernel
    · rw [same]; decide +kernel
  have whole : lowerAll (trimmed name) = lowerAll name.bytes := by
    rw [lowerAll_trimmed, List.rdropWhile_eq_self_iff]
    intro present ends
    have last := List.getLast_mem present
    rw [beq_iff_eq.mp ends] at last
    exact dotless last
  rcases below with same | ⟨_, suffix⟩
  · have folded : lowerAll name.bytes = lowerAll (zone.trimEndMatches dot).bytes := whole.symm.trans same
    rw [isVersionQuery_congr folded, plain] at version
    cases version
  · rw [whole] at suffix
    exact dotless (suffix.subset (List.mem_cons_self ..))

end Names

/-- The address records of a type that every nameserver has. -/
def nsAddresses (params : ZoneParams) (t : UInt16) : List Rr :=
  ((addressSets (some params.glueIp, params.glueIp6)).lookup t).getD []

section Queues

variable {params : ZoneParams} {qname : Bytes} {t : UInt16} {name : Str}

private theorem nsAddresses_a : nsAddresses params typeA = [aRr .question params.glueIp] := rfl

private theorem nsAddresses_aaaa : nsAddresses params typeAaaa = (params.glueIp6.map (aaaaRr .question)).toList := rfl

private theorem nsAddresses_typ (address : t = typeA ∨ t = typeAaaa) : ∀ rr ∈ nsAddresses params t, rr.typ = t := by
  rcases address with rfl | rfl
  · simp [nsAddresses_a, aRr]
  · rw [nsAddresses_aaaa]
    exact optional_typ _ fun _ => rfl

/-- The glue of a name inside the zone has these addresses. -/
theorem mem_glueOf_iff (address : t = typeA ∨ t = typeAaaa) (rdata : Bytes) :
    (∃ rr ∈ glueOf params name, rr.typ = t ∧ rr.rdata = rdata) ↔
      Below (trimmed name) (trimmed params.zone) ∧ ∃ rr ∈ nsAddresses params t, rr.rdata = rdata := by
  have differ : typeA ≠ typeAaaa := by decide
  unfold glueOf
  split
  · next below =>
    rw [and_iff_right below]
    rcases address with rfl | rfl
    · cases params.glueIp6 <;> simp [nsAddresses_a, aRr, aaaaRr, differ.symm]
    · cases six : params.glueIp6 <;> simp [nsAddresses_aaaa, six, aRr, aaaaRr, differ]
  · next outside => simp [outside]

/-- The glue that a nameserver owns. -/
theorem mem_glueRrs_iff (configured : name ∈ params.nsNames) (address : t = typeA ∨ t = typeAaaa) (rdata : Bytes) :
    (∃ rr ∈ glueRrs params, rr.setKey = (ownerKey (.name name), t) ∧ rr.rdata = rdata) ↔
      Below (trimmed name) (trimmed params.zone) ∧ ∃ rr ∈ nsAddresses params t, rr.rdata = rdata := by
  have owned {host : Str} {rr : Rr} (member : rr ∈ glueOf params host) : rr.owner = .name host := by
    have alone : rr ∈ [host].flatMap (glueOf params) := by simpa using member
    obtain ⟨other, only, same⟩ := glueRrs_owner alone
    rw [same, List.mem_singleton.mp only]
  constructor
  · rintro ⟨rr, member, key, rfl⟩
    obtain ⟨host, _, member⟩ := List.mem_flatMap.mp member
    obtain ⟨owner, typ⟩ := Prod.mk.inj key
    have same : lowerAll (trimmed host) = lowerAll (trimmed name) := by simpa [owned member, ownerKey] using owner
    obtain ⟨below, found⟩ := (mem_glueOf_iff address rr.rdata).mp ⟨rr, member, typ, rfl⟩
    exact ⟨(below_trans (.inl same.symm) below), found⟩
  · intro glue
    obtain ⟨rr, member, typ, same⟩ := (mem_glueOf_iff address rdata).mpr glue
    refine ⟨rr, List.mem_flatMap.mpr ⟨name, configured, member⟩, ?_, same⟩
    rw [Rr.setKey, owned member, typ]

/-- A denial is written with the SOA record of the zone. -/
theorem nodataQueues_soa (clock : Clock) (types : List UInt16) :
    ∃ rr ∈ (emitQueues params qname clock (nodataQueues params qname types)).authority, rr.typ = typeSoa := by
  have plain : ∀ rr ∈ (nodataQueues params qname types).authority, rr.typ ≠ typeRrsig := by
    intro rr member
    rcases List.mem_cons.mp member with rfl | member
    · exact show typeSoa ≠ typeRrsig by decide
    · split at member
      · obtain rfl := List.mem_singleton.mp member
        exact show typeNsec ≠ typeRrsig by decide
      · cases member
  have written (clock : Clock) : ∃ rr ∈ (emitSets params qname clock (rrsets (nodataQueues params qname types).authority)).1,
      rr.typ = typeSoa ∧ rr.rdata = (soaRr params (.name params.zone)).rdata :=
    (mem_section_iff clock plain (show typeSoa ≠ typeRrsig by decide) _).mpr ⟨_, List.mem_cons_self .., rfl, rfl⟩
  obtain ⟨rr, member, typ, _⟩ := written (emitSets params qname clock (rrsets (nodataQueues params qname types).answers)).2
  exact ⟨rr, member, typ⟩

/-- The glue stands in the Additional section, for all of the three query types. -/
theorem apexQueues_additional {qtype : UInt16} (glued : Glued qtype) : (apexQueues params qname qtype).additional = glueRrs params := by
  rcases glued with rfl | rfl | rfl <;> rfl

/-- What is written of it. -/
theorem glue_written (clock : Clock) {qtype : UInt16} (glued : Glued qtype) (configured : name ∈ params.nsNames)
    (address : t = typeA ∨ t = typeAaaa) (rdata : Bytes) :
    (∃ rr ∈ (emitQueues params qname clock (apexQueues params qname qtype)).additional,
        OwnedBy name rr ∧ rr.typ = t ∧ rr.rdata = rdata) ↔
      Below (trimmed name) (trimmed params.zone) ∧ ∃ rr ∈ nsAddresses params t, rr.rdata = rdata := by
  have keyed (rr : Rr) : OwnedBy name rr ∧ rr.typ = t ∧ rr.rdata = rdata ↔
      rr.setKey = (ownerKey (.name name), t) ∧ rr.rdata = rdata := by rw [← and_assoc, ownedBy_iff]
  have unsigned : t ≠ typeRrsig := by rcases address with rfl | rfl <;> decide
  have queued : ∀ rr ∈ (apexQueues params qname qtype).additional, rr.typ ≠ typeRrsig := by
    rw [apexQueues_additional glued]
    intro rr member
    have queued : Queued params qname rr := glueRrs_queued rr member
    exact queued.typ_ne.1
  simp only [keyed]
  refine (mem_section_key_iff _ queued unsigned rdata).trans ?_
  rw [apexQueues_additional glued]
  exact mem_glueRrs_iff configured address rdata

end Queues

section Replies

variable {params : ZoneParams} {qname : Bytes} {config : Config} {domain : Str} {t : UInt16}

/-- The reply to an address query about a nameserver in the zone, be it the zone itself or a name below. -/
theorem replyTo_nameserver (inside : inZone domain config.glueName = true) (version : isVersionQuery domain = false)
    (dmarc : namesEq domain (dmarcOwner config.glueName) = false) (configured : isConfiguredNs domain config = true)
    (glue : params.glueIp = config.glueIp ∧ params.glueIp6 = config.glueIp6) (address : t = typeA ∨ t = typeAaaa) :
    ∃ types, replyTo config params qname domain t 1 = .authoritative params
      (if nsAddresses params t = [] then nodataQueues params qname types else ⟨nsAddresses params t, [], []⟩) := by
  have replied : replyTo config params qname domain t 1 = .authoritative params (if namesEq domain config.glueName then
      apexQueues params qname t else addressQueues params qname t (some params.glueIp, params.glueIp6)) := by
    unfold replyTo
    rw [if_neg (not_not.mpr rfl), inside, version, dmarc, configured, glue.1, glue.2]
    simp only [Bool.not_true, Bool.false_and, Bool.and_false, Bool.and_true, Bool.false_eq_true, if_false, if_true]
    split <;> rfl
  have single : t ≠ typeAny := by rcases address with rfl | rfl <;> decide
  rw [replied]
  split
  · refine ⟨params.apexTypes, congrArg _ ?_⟩
    rcases address with rfl | rfl
    · rfl
    · rfl
  · refine ⟨addressTypes (some params.glueIp, params.glueIp6), congrArg _ ?_⟩
    rw [addressQueues, addressRrs_lookup single]
    rfl

end Replies

section Responses

variable {query : Slice} {config : Config} {name : Str} {t : UInt16}

/-- The response to a direct address query about a nameserver at or below the zone. -/
theorem nameserver_answered (clock : Clock) (plain : isVersionQuery (config.glueName.trimEndMatches dot) = false)
    (other : namesEq name (dmarcOwner config.glueName) = false) (zone : trimmed config.glueName ≠ [])
    (configured : name ∈ config.nsNames) (below : Below (trimmed name) (trimmed config.glueName))
    (address : t = typeA ∨ t = typeAaaa) (asked : AsksFor query name t) :
    ∃ answer : Contents, handleQueryInternal clock query config = .ok (answer.response query.data) ∧
      (∀ rdata, (∃ rr ∈ answer.records.answers, rr.typ = t ∧ rr.rdata = rdata) ↔
        ∃ rr ∈ nsAddresses (zoneParams config false) t, rr.rdata = rdata) ∧
      (t = typeAaaa → config.glueIp6 = none → Nodata answer) := by
  obtain ⟨domain, parsed, same, _⟩ := asked.exists_domain
  obtain ⟨standard, typed, _⟩ := asked
  have names (host : Str) : namesEq domain host = namesEq name host := by
    unfold namesEq
    exact eqIgnoreAsciiCase_congr same _
  have inside : Below (trimmed domain) (trimmed config.glueName) := below_trans (.inl same) below
  have ns : isConfiguredNs domain config = true := by
    rw [isConfiguredNs, Bool.or_eq_true, List.any_eq_true]
    exact .inl ⟨name, configured, eqIgnoreCase_iff.mpr same⟩
  obtain ⟨types, replied⟩ : ∃ types, replyTo config (paramsOf query.data config) (qnameOf query.data) domain t 1 = _ :=
    replyTo_nameserver (decide_eq_true ⟨zone, inside⟩) (not_version_of_below plain inside) ((names _).trans other) ns ⟨rfl, rfl⟩ address
  have addresses : nsAddresses (paramsOf query.data config) t = nsAddresses (zoneParams config false) t := rfl
  have unsigned : t ≠ typeRrsig := by rcases address with rfl | rfl <;> decide
  have queued : ∀ rr ∈ nsAddresses (zoneParams config false) t, rr.typ ≠ typeRrsig := fun rr member =>
    nsAddresses_typ address rr member ▸ unsigned
  refine ⟨_, contents_of_question standard parsed typed clock config, fun rdata => ?_, ?_⟩
  · have answers : (if nsAddresses (zoneParams config false) t = [] then
        nodataQueues (paramsOf query.data config) (qnameOf query.data) types
        else ⟨nsAddresses (zoneParams config false) t, [], []⟩).answers = nsAddresses (zoneParams config false) t := by
      split
      · next none => exact none.symm
      · rfl
    rw [classIn, replied, addresses, Reply.authoritative]
    change (∃ rr ∈ (emitSets _ _ clock (rrsets (Queues.answers _))).1, _) ↔ _
    rw [answers, mem_section_iff clock queued unsigned]
    exact exists_congr fun rr => and_congr_right fun member => and_iff_right (nsAddresses_typ address rr member)
  · rintro rfl missing
    have empty : nsAddresses (paramsOf query.data config) typeAaaa = [] := by
      rw [nsAddresses_aaaa]
      change (config.glueIp6.map _).toList = []
      rw [missing]
      rfl
    rw [classIn, replied, if_pos empty]
    exact ⟨(replyHeader_rcode query.data true (show rcodeNoerror.toNat < 16 by decide)).2, rfl, nodataQueues_soa clock types⟩

end Responses

/-- Beside the apex exactly the nameservers at or below the zone have addresses, and direct queries for these names are
answered with the same addresses. -/
theorem glue_agrees (clock : Clock) {query : Slice} {config : Config} {qtype : UInt16} (hosts : config.LegalHosts)
    (plain : isVersionQuery (config.glueName.trimEndMatches dot) = false)
    (other : ∀ name ∈ config.nsNames, namesEq name (dmarcOwner config.glueName) = false)
    (glued : Glued qtype) (asked : AsksFor query config.glueName qtype) :
    ∃ contents : Contents, handleQueryInternal clock query config = .ok (contents.response query.data) ∧
      ∀ name ∈ config.nsNames,
        ((∃ rr ∈ contents.records.additional, OwnedBy name rr ∧ (rr.typ = typeA ∨ rr.typ = typeAaaa)) ↔
          fold (hostLabels config.glueName) <:+ fold (hostLabels name)) ∧
        (fold (hostLabels config.glueName) <:+ fold (hostLabels name) →
          ∀ (clock' : Clock) (direct : Slice) (t : UInt16), t = typeA ∨ t = typeAaaa → AsksFor direct name t →
            ∃ answer : Contents, handleQueryInternal clock' direct config = .ok (answer.response direct.data) ∧
              AgreesWith contents.records.additional answer.records.answers name t ∧
              (t = typeAaaa → config.glueIp6 = none → Nodata answer)) := by
  obtain ⟨domain, parsed, same, zone⟩ := asked.exists_domain
  obtain ⟨standard, typed, _⟩ := asked
  have lists : ListsNs config domain qtype 1 :=
    ⟨rfl, decide_eq_true ⟨zone, .inl same⟩, not_version_of_below plain (.inl same), eqIgnoreCase_iff.mpr same, glued⟩
  have replied : replyTo config (paramsOf query.data config) (qnameOf query.data) domain qtype 1 = .authoritative
      (paramsOf query.data config) (apexQueues (paramsOf query.data config) (qnameOf query.data) qtype) := replyTo_listsNs lists
  refine ⟨_, contents_of_question standard parsed typed clock config, fun name configured => ?_⟩
  rw [classIn, replied]
  have suffix := below_iff_suffix (hosts name (by simp [configured])) zone
  have glue {t : UInt16} (address : t = typeA ∨ t = typeAaaa) (rdata : Bytes) :
      (∃ rr ∈ (contentsOf clock query.data (paramsOf query.data config) (.authoritative (paramsOf query.data config)
        (apexQueues (paramsOf query.data config) (qnameOf query.data) qtype))).records.additional,
          OwnedBy name rr ∧ rr.typ = t ∧ rr.rdata = rdata) ↔
      Below (trimmed name) (trimmed config.glueName) ∧ ∃ rr ∈ nsAddresses (zoneParams config false) t, rr.rdata = rdata :=
    glue_written clock glued configured address rdata
  refine ⟨?_, fun inside clock' direct t address asked => ?_⟩
  · rw [← suffix]
    constructor
    · rintro ⟨rr, member, owned, address⟩
      exact ((glue address rr.rdata).mp ⟨rr, member, owned, rfl, rfl⟩).1
    · intro below
      obtain ⟨rr, member, owned, typ, _⟩ := (glue (.inl rfl) config.glueIp.octets).mpr
        ⟨below, _, List.mem_singleton_self _, rfl⟩
      exact ⟨rr, member, owned, .inl typ⟩
  · have below := suffix.mpr inside
    obtain ⟨answer, answered, addresses, nodata⟩ :=
      nameserver_answered clock' plain (other name configured) zone configured below address asked
    refine ⟨answer, answered, fun rdata => ?_, nodata⟩
    rw [glue address, and_iff_right below, addresses]

theorem sampleGlue_agrees :
    ∃ contents : Contents, handleQueryInternal (fun _ => some 0) (apexTyped typeNs) sampleConfig =
        .ok (contents.response (apexTyped typeNs).data) ∧
      ∀ name ∈ sampleConfig.nsNames,
        ((∃ rr ∈ contents.records.additional, OwnedBy name rr ∧ (rr.typ = typeA ∨ rr.typ = typeAaaa)) ↔
          fold (hostLabels sampleConfig.glueName) <:+ fold (hostLabels name)) ∧
        (fold (hostLabels sampleConfig.glueName) <:+ fold (hostLabels name) →
          ∀ (clock' : Clock) (direct : Slice) (t : UInt16), t = typeA ∨ t = typeAaaa → AsksFor direct name t →
            ∃ answer : Contents, handleQueryInternal clock' direct sampleConfig = .ok (answer.response direct.data) ∧
              AgreesWith contents.records.additional answer.records.answers name t ∧
              (t = typeAaaa → sampleConfig.glueIp6 = none → Nodata answer)) :=
  have asked : AsksFor (apexTyped typeNs) sampleConfig.glueName typeNs :=
    (apexTyped_standard typeNs).asksFor rfl (show fold [[110, 105, 112], [110, 117]] = _ by decide +kernel)
  glue_agrees _ sampleConfig_legalHosts (by decide +kernel) (by decide +kernel) (.inr (.inl rfl)) asked

end RustyAlias
