import RustyAlias.Proofs.Rrsets
import RustyAlias.Proofs.StandardQuery

/-! # Every RRset is signed over what a validator rebuilds

The signature of an RRset is made over octets that the server lays out apart from the message. They
are the octets that a validator reconstructs from the decoded section alone.
-/

namespace RustyAlias

open Rust Rust.Outcome Dns

section Signing

variable {params : ZoneParams} {qname : Name}

/-- The fields of a signature made by a key. -/
def DnssecKey.rrsig (key : DnssecKey) (reading : ClockReading) (labels : UInt8) (typ : UInt16) (ttl : UInt32)
    (zone : Str) (signature : Bytes) : Rrsig where
  typeCovered := typ
  algorithm := algEcdsap256sha256
  labels := labels
  originalTtl := ttl
  expiration := (signatureTimes reading).2
  inception := (signatureTimes reading).1
  keyTag := key.keyTag
  signer := fold (hostLabels zone)
  signature := signature

private theorem rrsigPrefix_eq (key : DnssecKey) (reading : ClockReading) (labels : UInt8) (typ : UInt16) (ttl : UInt32)
    (zone : Str) (signature : Bytes) :
    key.rrsigPrefix reading labels typ ttl zone = (key.rrsig reading labels typ ttl zone signature).fields := by
  simp [DnssecKey.rrsigPrefix, Rrsig.fields, DnssecKey.rrsig, encodeDomainName_eq]

theorem readRrsig_rrsig (key : DnssecKey) (reading : ClockReading) (labels : UInt8) (typ : UInt16) (ttl : UInt32)
    {zone : Str} (legal : LegalHost zone) (signature : Bytes) :
    readRrsig (key.rrsigPrefix reading labels typ ttl zone ++ signature) =
      some (key.rrsig reading labels typ ttl zone signature) := by
  rw [rrsigPrefix_eq key reading labels typ ttl zone signature]
  exact readRrsig_fields legal.legal.fold (fold_fold _)

theorem signRrsig_eq (key : DnssecKey) (reading : ClockReading) {owner : Bytes} (small : owner.length ≤ 2 ^ 63 + 1)
    (typ : UInt16) (ttl : UInt32) (rdatas : List Bytes) (zone : Str) :
    ∃ labels, (key.signRrsig reading owner typ ttl rdatas zone).value =
      key.rrsigPrefix reading labels typ ttl zone ++
        (key.crypto.sign (DnssecKey.toSign (key.rrsigPrefix reading labels typ ttl zone) owner typ ttl rdatas)).toList := by
  refine ⟨(labelCount owner).value, ?_⟩
  rw [DnssecKey.signRrsig, (labelCount_returns small).eq_ok, ok_bind]
  rfl

/-- The octets handed to the signer are those of the decoded RRset. -/
theorem toSign_eq (rrsig : Rrsig) (owner : Name) (typ : UInt16) {rdatas : List Bytes} (sorted : rdatas.Pairwise (· ≤ ·)) :
    DnssecKey.toSign rrsig.fields (wire (fold owner)) typ rrsig.originalTtl rdatas =
      signedData rrsig (rdatas.map fun rdata => ⟨owner, typ, classIn, rrsig.originalTtl, rdata⟩) := by
  rw [signedData, List.mergeSort_of_pairwise, DnssecKey.toSign, List.flatMap_map]
  · rfl
  · exact List.pairwise_map.mpr (sorted.imp fun ordered => by simpa using ordered)

/-- The owner that is signed is the decoded one in canonical form. -/
theorem ownerWire_eq (readable : ∀ label ∈ qname, Readable label) (short : (wire qname).length ≤ 255) (owner : Owner) :
    ownerWire (wire qname) owner = wire (fold (ownerName qname owner)) := by
  cases owner with
  | question =>
    have lower := lowercaseWireName_wire (octets_of_readable readable) (show (wire qname).length ≤ isizeMax by unfold isizeMax; omega)
    simp [ownerWire, lower, ownerName]
  | name host => simp [ownerWire, encodeDomainName_eq, ownerName]

/-- What a written RRset reads as. -/
structure Reads (signer : DnssecKey) (qname : Name) (head : Rr) (written : List Rr) (s : SignedSet) : Prop where
  records : written.map (Rr.record qname) = s.records
  key : s.key = head.nameKey qname
  keys : ∀ r ∈ s.rrset, r.key = s.key
  covered : s.rrsig.typeCovered ≠ rrsigType
  rtype : s.sig.rtype = rrsigType
  validates : ∀ section_, rrsetOf s.key section_ = s.rrset → s.Validates signer.crypto.sign section_

private theorem mergeSort_pairwise (rdatas : List Bytes) : rdatas.mergeSort.Pairwise (· ≤ ·) := by
  exact List.pairwise_mergeSort' _ _

private theorem emitSet_reads {key : DnssecKey} (readable : ∀ label ∈ qname, Readable label) (short : (wire qname).length ≤ 255)
    (zone : LegalHost params.zone) (reading : ClockReading) {head : Rr} (legible : head.Legible) (rest : List Rr)
    (plain : head.typ ≠ typeRrsig) (signer : params.signer head.typ = some key) :
    ∃ s, Reads key qname head (emitSet params (wire qname) reading (head :: rest)) s := by
  have sorted := mergeSort_pairwise ((head :: rest).map (·.rdata))
  have nonempty : ((head :: rest).map (·.rdata)).mergeSort ≠ [] := by
    rw [← List.length_pos_iff, List.length_mergeSort]
    simp
  have small := ownerWire_short legible short
  rw [ownerWire_eq readable short head.owner] at small
  simp only [emitSet, signer, Option.map_some, Option.toList_some, rrsigRr, ownerWire_eq readable short head.owner]
  generalize ((head :: rest).map (·.rdata)).mergeSort = rdatas at sorted nonempty ⊢
  obtain ⟨labels, signed⟩ := signRrsig_eq key reading (show (wire (fold (ownerName qname head.owner))).length ≤ 2 ^ 63 + 1 by omega)
    head.typ head.ttl rdatas params.zone
  have handed (signature : Bytes) : DnssecKey.toSign (key.rrsigPrefix reading labels head.typ head.ttl params.zone)
      (wire (fold (ownerName qname head.owner))) head.typ head.ttl rdatas =
      signedData (key.rrsig reading labels head.typ head.ttl params.zone signature)
        (rdatas.map fun rdata => ⟨ownerName qname head.owner, head.typ, classIn, head.ttl, rdata⟩) := by
    rw [rrsigPrefix_eq key reading labels head.typ head.ttl params.zone signature]
    exact toSign_eq (key.rrsig reading labels head.typ head.ttl params.zone signature) _ _ sorted
  rw [signed]
  generalize made : key.crypto.sign _ = signature
  refine ⟨⟨rdatas.map fun rdata => ⟨ownerName qname head.owner, head.typ, classIn, head.ttl, rdata⟩, ⟨ownerName qname head.owner,
    typeRrsig, classIn, head.ttl, key.rrsigPrefix reading labels head.typ head.ttl params.zone ++ signature.toList⟩,
    key.rrsig reading labels head.typ head.ttl params.zone signature.toList⟩, ?_⟩
  constructor
  · simp [SignedSet.records, Rr.record]
  · rfl
  · intro r member
    obtain ⟨rdata, _, rfl⟩ := List.mem_map.mp member
    rfl
  · exact plain
  · rfl
  · intro section_ whole
    constructor
    · simpa using nonempty
    · exact whole
    · exact plain
    · intro r member
      obtain ⟨rdata, _, rfl⟩ := List.mem_map.mp member
      rfl
    · intro r member
      obtain ⟨rdata, _, rfl⟩ := List.mem_map.mp member
      rfl
    · rfl
    · rfl
    · exact readRrsig_rrsig key reading labels head.typ head.ttl zone signature.toList
    · rw [whole, ← handed, made]
      rfl

/-- Every RRset of a section reads as one that is signed. -/
theorem emitSets_reads {key : DnssecKey} (readable : ∀ label ∈ qname, Readable label) (short : (wire qname).length ≤ 255)
    (zone : LegalHost params.zone) (signer : ∀ typ, typ ≠ typeRrsig → params.signer typ = some key) (clock : Clock)
    {sets : List (List Rr)} (nonempty : ∀ set ∈ sets, set ≠ []) (apart : sets.Pairwise (List.Apart (Rr.nameKey qname)))
    (legible : ∀ set ∈ sets, ∀ rr ∈ set, rr.Legible) (plain : ∀ set ∈ sets, ∀ rr ∈ set, rr.typ ≠ typeRrsig) :
    ∃ signed : List SignedSet,
      (emitSets params (wire qname) clock sets).1.map (Rr.record qname) = signed.flatMap SignedSet.records ∧
      signed.Pairwise (fun a b => a.key ≠ b.key) ∧
      ∀ s ∈ signed, ∃ set ∈ sets, ∃ head ∈ set, ∃ written, Reads key qname head written s := by
  induction sets generalizing clock with
  | nil => exact ⟨[], rfl, List.Pairwise.nil, by simp⟩
  | cons set rest ih =>
    obtain ⟨head, others, rfl⟩ := List.exists_cons_of_ne_nil (nonempty set (List.mem_cons_self ..))
    obtain ⟨before, apart⟩ := List.pairwise_cons.mp apart
    obtain ⟨signed, records, distinct, reads⟩ := ih (clockAfter params clock (head :: others))
      (fun set member => nonempty set (List.mem_cons_of_mem _ member)) apart
      (fun set member => legible set (List.mem_cons_of_mem _ member))
      (fun set member => plain set (List.mem_cons_of_mem _ member))
    have here : head.typ ≠ typeRrsig := plain _ (List.mem_cons_self ..) head (List.mem_cons_self ..)
    obtain ⟨s, read⟩ := emitSet_reads readable short zone clock.head
      (legible _ (List.mem_cons_self ..) head (List.mem_cons_self ..)) others here (signer head.typ here)
    refine ⟨s :: signed, ?_, List.pairwise_cons.mpr ⟨?_, distinct⟩, ?_⟩
    · rw [List.flatMap_cons, ← read.records, ← records, ← List.map_append]
      rfl
    · intro other member
      obtain ⟨set, inside, first, present, _, read'⟩ := reads other member
      rw [read.key, read'.key]
      exact before set inside head (List.mem_cons_self ..) first present
    · intro other member
      rcases List.mem_cons.mp member with rfl | member
      · exact ⟨_, List.mem_cons_self .., head, List.mem_cons_self .., _, read⟩
      · obtain ⟨set, inside, rest⟩ := reads other member
        exact ⟨set, List.mem_cons_of_mem _ inside, rest⟩

theorem emitSets_signed {key : DnssecKey} (readable : ∀ label ∈ qname, Readable label) (short : (wire qname).length ≤ 255)
    (hosts : params.LegalHosts) (signer : ∀ typ, typ ≠ typeRrsig → params.signer typ = some key) (clock : Clock)
    {rrs : List Rr} (setWise : SetWise qname rrs) (queued : ∀ rr ∈ rrs, Queued params (wire qname) rr) :
    SignedSection key.crypto.sign ((emitSets params (wire qname) clock (rrsets rrs)).1.map (Rr.record qname)) := by
  have inside {set : List Rr} (member : set ∈ rrsets rrs) {rr : Rr} (present : rr ∈ set) : Queued params (wire qname) rr := by
    apply queued
    rw [← List.runs_flatten Rr.setKey rrs]
    exact List.mem_flatten.mpr ⟨set, member, present⟩
  obtain ⟨signed, records, distinct, reads⟩ := emitSets_reads readable short (hosts params.zone (by simp)) signer clock
    (fun set => List.runs_ne_nil) setWise.rrsets (fun set member rr present => (inside member present).legible hosts short)
    (fun set member rr present => (inside member present).typ_ne.1)
  refine ⟨signed, records, distinct, ?_⟩
  intro s member
  obtain ⟨_, _, _, _, _, read⟩ := reads s member
  rw [rrsets, records]
  apply read.validates
  apply rrsetOf_flatMap distinct _ _ _ member
  · intro other inside
    obtain ⟨_, _, _, _, _, read⟩ := reads other inside
    exact read.keys
  · intro other inside
    obtain ⟨_, _, _, _, _, read⟩ := reads other inside
    exact read.covered
  · intro other inside
    obtain ⟨_, _, _, _, _, read⟩ := reads other inside
    exact read.rtype

end Signing

/-- With the DO bit set and a key, each section of the response consists of RRsets with their signatures, and every
signature is made over what a validator reconstructs from its section. -/
theorem response_signed (clock : Clock) {query : Slice} {config : Config} {question : Question} {key : DnssecKey}
    (standard : StandardQuery query.data question) (dnssecOk : queryDnssecOk query = .ok true)
    (keyed : config.dnssec = some key) (hosts : config.LegalHosts) (distinct : DistinctHosts config.nsNames) :
    ∃ response msg, handleQueryInternal clock query config = .ok response ∧ Holds response msg ∧
      SignedSection key.crypto.sign msg.answers ∧ SignedSection key.crypto.sign msg.authority ∧
      ∃ records opt, msg.additional = records ++ [opt] ∧ opt.rtype = typeOpt ∧
        SignedSection key.crypto.sign records := by
  obtain ⟨domain, _, _, answered⟩ := standard.reply_eq config
  have short : (wire question.name).length ≤ 255 := standard.legal.total
  have legible := standard.emitQueues_legible hosts domain clock
  have legal : (paramsOf query.data config).LegalHosts := hosts
  have doBit := doBit_of_dnssecOk dnssecOk
  have signer := paramsOf_signer doBit keyed
  have setWise : (replyTo config (paramsOf query.data config) (wire question.name) domain question.qtype
      question.qclass).queues.SetWise question.name := replyTo_setWise config domain question.qtype question.qclass fun _ => distinct
  have queued : (replyTo config (paramsOf query.data config) (wire question.name) domain question.qtype
      question.qclass).queues.All (Queued (paramsOf query.data config) (wire question.name)) :=
    replyTo_queued config domain question.qtype question.qclass
  generalize replyTo config (paramsOf query.data config) (wire question.name) domain question.qtype question.qclass = result
    at answered legible setWise queued
  obtain ⟨pair, opt⟩ : ∃ pair, queryOpt? query.data = some pair := by
    cases found : queryOpt? query.data with
    | none => rw [found] at doBit; contradiction
    | some pair => exact ⟨pair, rfl⟩
  refine ⟨_, _, standard.handleQueryInternal_eq answered clock,
    holds_layout (standard.replyHeader_qdcount ..) standard.legal legible _, ?_, ?_, ?_⟩
  · exact emitSets_signed standard.readable short legal signer _ setWise.answers fun rr member => queued rr (by simp [member])
  · exact emitSets_signed standard.readable short legal signer _ setWise.authority fun rr member => queued rr (by simp [member])
  · refine ⟨(emitQueues (paramsOf query.data config) (wire question.name) clock result.queues).additional.map
      (Rr.record question.name), optRecord result.doBit, ?_, rfl, ?_⟩
    · simp [message, optOf, opt]
    · exact emitSets_signed standard.readable short legal signer _ setWise.additional
        fun rr member => queued rr (by simp [member])

/-- A key whose signatures are the first 64 octets, at most, of what is signed. -/
def sampleKey : DnssecKey where
  crypto := ⟨.replicate 64 1, fun octets => .ofFn fun i => octets.getD i 0, fun octets => .ofFn fun i => octets.getD i 0⟩
  dnskeyRdata := [1, 1, 3, 13] ++ List.replicate 64 1
  keyTag := 7
  rdata_length := by decide

/-- The sample zone with a key. -/
def sampleSignedConfig : Config := { sampleConfig with dnssec := some sampleKey }

theorem sampleResponse_signed :
    ∃ response msg, handleQueryInternal (fun _ => some 0) sampleQuery sampleSignedConfig = .ok response ∧
      Holds response msg ∧ SignedSection sampleKey.crypto.sign msg.answers ∧
      SignedSection sampleKey.crypto.sign msg.authority ∧
      ∃ records opt, msg.additional = records ++ [opt] ∧ opt.rtype = typeOpt ∧
        SignedSection sampleKey.crypto.sign records :=
  response_signed _ sampleQuery_standard (by decide +kernel) rfl sampleConfig_legalHosts (List.pairwise_singleton ..)

end RustyAlias
