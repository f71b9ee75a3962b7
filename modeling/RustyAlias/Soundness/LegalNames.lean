import RustyAlias.Proofs.Nsec
import RustyAlias.Proofs.Plain
import RustyAlias.Soundness.NextNames
import RustyAlias.Soundness.SignatureLabels

/-! # Legal names in, legal names out

The names in a response come from the question and from the configuration, but for one: the next name in
NSEC RDATA is the QNAME with a label of one octet in front. It passes the limit of 255 octets when the
QNAME has more than 253.
-/

namespace RustyAlias

open Rust Rust.Outcome Dns

/-- The domain names of a record are legal: its owner, and those in the RDATA of SOA, NS, NSEC and RRSIG records. -/
structure LegalNames (qname : Name) (rr : Rr) : Prop where
  owner : Legal (ownerName qname rr.owner)
  soa : rr.typ = typeSoa → ∃ mname rname rest, Legal mname ∧ Legal rname ∧ rr.rdata = wire mname ++ (wire rname ++ rest)
  ns : rr.typ = typeNs → ∃ host, Legal host ∧ rr.rdata = wire host
  nsec : rr.typ = typeNsec → ∃ next bitmap, Legal next ∧ rr.rdata = wire next ++ bitmap
  rrsig : rr.typ = typeRrsig → ∃ fields signer signature, fields.length = 18 ∧ Legal signer ∧
    rr.rdata = fields ++ (wire signer ++ signature)

/-- A name of legal labels is read in one way. -/
theorem wire_append_inj {a b : Name} {x y : Bytes} (left : ∀ label ∈ a, 1 ≤ label.length ∧ label.length ≤ 63)
    (right : ∀ label ∈ b, 1 ≤ label.length ∧ label.length ≤ 63) (same : wire a ++ x = wire b ++ y) : a = b ∧ x = y := by
  have first : readLabels [] (a.length + b.length + 1) 0 (wire a ++ x) = some (a, x) := readLabels_wire left (by omega) x
  have second : readLabels [] (a.length + b.length + 1) 0 (wire b ++ y) = some (b, y) := readLabels_wire right (by omega) y
  rw [same] at first
  exact Prod.mk.inj (Option.some.inj (first.symm.trans second))

theorem successor_labels {labels : Name} (legal : Legal labels) :
    ∀ label ∈ successor labels, 1 ≤ label.length ∧ label.length ≤ 63 := by
  intro label member
  rcases List.mem_cons.mp member with rfl | member
  · exact ⟨Nat.le_refl 1, by decide⟩
  · exact legal.fold.labels label member

/-- The successor of a legal name is legal while two more octets fit. -/
theorem legal_successor_iff {labels : Name} (legal : Legal labels) : Legal (successor labels) ↔ (wire labels).length ≤ 253 := by
  have length : (wire (successor labels)).length = (wire labels).length + 2 := by
    rw [wire_successor, List.length_append, wire_fold_length, List.length_cons, List.length_singleton]
    omega
  rw [legal_iff, length, and_iff_right (successor_labels legal)]
  omega

section Records

variable {params : ZoneParams} {labels : Name} (legal : Legal labels) (hosts : params.LegalHosts)

include legal

theorem Rr.Legible.legal_ownerName {rr : Rr} (legible : rr.Legible) : Legal (ownerName labels rr.owner) := by
  cases owner : rr.owner with
  | question => exact legal
  | name host => exact (legible.owner host owner).legal.fold

/-- The RDATA of an NSEC record is the successor of the name and a bitmap, which lists the types. -/
theorem nsecRr_reads (types : List UInt16) : ∃ bitmap listed,
    (nsecRr params (wire labels) types).rdata = wire (successor labels) ++ bitmap ∧ readTypes bitmap = some listed ∧
      ∀ t, t ∈ listed ↔ t ∈ types ∨ t = typeNsec ∨ t = typeRrsig := by
  obtain ⟨bitmap, listed, written, read, same⟩ := nsecTypes_reads types
  have octets : ∀ label ∈ labels, 1 ≤ label.length ∧ label.length ≤ 255 := fun label member =>
    have ⟨low, high⟩ := legal.labels label member
    ⟨low, by omega⟩
  have small : (wire labels).length ≤ isizeMax := by
    have total := legal.total
    unfold isizeMax
    omega
  refine ⟨bitmap, listed, ?_, read, same⟩
  rw [nsecRr, nsecRdata, lowercaseWireName_wire octets small, ok_bind, written]
  rfl

private theorem nsecRr_rdata (types : List UInt16) :
    ∃ bitmap, (nsecRr params (wire labels) types).rdata = wire (successor labels) ++ bitmap := by
  obtain ⟨bitmap, _, rdata, _⟩ := nsecRr_reads legal types
  exact ⟨bitmap, rdata⟩

include hosts

/-- A queued record has legal names, unless it is an NSEC record of a long name. -/
theorem Queued.legalNames {rr : Rr} (queued : Queued params (wire labels) rr)
    (fits : rr.typ = typeNsec → (wire labels).length ≤ 253) : LegalNames labels rr := by
  have owner := (queued.legible hosts legal.total).legal_ownerName legal
  have host (name : Str) (member : name ∈ params.zone :: params.nsName :: params.hostmaster :: params.nsNames) :
      Legal (fold (hostLabels name)) := (hosts name member).legal.fold
  have plain {rr : Rr} (owner : Legal (ownerName labels rr.owner))
      (other : rr.typ ∉ [typeSoa, typeNs, typeNsec, typeRrsig]) : LegalNames labels rr := by
    simp only [List.mem_cons, List.not_mem_nil, or_false, not_or] at other
    obtain ⟨soa, ns, nsec, rrsig⟩ := other
    exact ⟨owner, fun typ => absurd typ soa, fun typ => absurd typ ns, fun typ => absurd typ nsec, fun typ => absurd typ rrsig⟩
  cases queued with
  | soa other known =>
    refine ⟨owner, fun _ => ?_, fun typ => absurd typ (show typeSoa ≠ typeNs by decide),
      fun typ => absurd typ (show typeSoa ≠ typeNsec by decide), fun typ => absurd typ (show typeSoa ≠ typeRrsig by decide)⟩
    refine ⟨_, _, be32 params.serial ++ be32 params.refresh ++ be32 params.retry ++ be32 params.expire ++ be32 params.minimum,
      host params.nsName (by simp), host params.hostmaster (by simp), ?_⟩
    simp [soaRr, encodeDomainName_eq]
  | ns name member =>
    refine ⟨owner, fun typ => absurd typ (show typeNs ≠ typeSoa by decide), fun _ => ?_,
      fun typ => absurd typ (show typeNs ≠ typeNsec by decide), fun typ => absurd typ (show typeNs ≠ typeRrsig by decide)⟩
    exact ⟨_, host name (by simp [member]), encodeDomainName_eq name⟩
  | nsec types few =>
    refine ⟨owner, fun typ => absurd typ (show typeNsec ≠ typeSoa by decide),
      fun typ => absurd typ (show typeNsec ≠ typeNs by decide), fun _ => ?_,
      fun typ => absurd typ (show typeNsec ≠ typeRrsig by decide)⟩
    obtain ⟨bitmap, rdata⟩ := @nsecRr_rdata params labels legal types
    exact ⟨_, bitmap, (legal_successor_iff legal).mpr (fits rfl), rdata⟩
  | a other ip known => exact plain owner (show typeA ∉ _ by decide)
  | aaaa other ip known => exact plain owner (show typeAaaa ∉ _ by decide)
  | txt txt => exact plain owner (show typeTxt ∉ _ by decide)
  | dnskey key => exact plain owner (show typeDnskey ∉ _ by decide)
  | cds key => exact plain owner (show typeCds ∉ _ by decide)
  | cdnskey key => exact plain owner (show typeCdnskey ∉ _ by decide)

/-- The signer of a signature is the zone. -/
theorem rrsigRr_legalNames {head : Rr} (legible : head.Legible) (key : DnssecKey) (reading : ClockReading) (rdatas : List Bytes) :
    LegalNames labels (rrsigRr params (wire labels) key reading head rdatas) := by
  have short := ownerWire_short legible legal.total
  refine ⟨legible.legal_ownerName legal, fun typ => absurd typ (show typeRrsig ≠ typeSoa by decide),
    fun typ => absurd typ (show typeRrsig ≠ typeNs by decide), fun typ => absurd typ (show typeRrsig ≠ typeNsec by decide),
    fun _ => ?_⟩
  obtain ⟨count, signature, signed⟩ : ∃ count signature, (rrsigRr params (wire labels) key reading head rdatas).rdata =
      key.rrsigPrefix reading count head.typ head.ttl params.zone ++ signature := by
    obtain ⟨count, signed⟩ := signRrsig_eq key reading (show (ownerWire (wire labels) head.owner).length ≤ 2 ^ 63 + 1 by omega)
      head.typ head.ttl rdatas params.zone
    exact ⟨count, _, signed⟩
  refine ⟨be16 head.typ ++ [algEcdsap256sha256, count] ++ be32 head.ttl ++ be32 (signatureTimes reading).2 ++
    be32 (signatureTimes reading).1 ++ be16 key.keyTag, fold (hostLabels params.zone), signature, rfl,
    (hosts params.zone (by simp)).legal.fold, ?_⟩
  rw [signed]
  simp only [DnssecKey.rrsigPrefix, encodeDomainName_eq, List.append_assoc]

/-- All names that are written are legal exactly if the successor of the QNAME is, or no NSEC record is queued. -/
theorem emitQueues_legalNames_iff {queues : Queues} (queued : queues.All (Queued params (wire labels))) (clock : Clock) :
    (emitQueues params (wire labels) clock queues).All (LegalNames labels) ↔
      ¬ (253 < (wire labels).length ∧ queues.Has typeNsec) := by
  constructor
  · rintro all ⟨long, source, member, typ⟩
    have plain : queues.All fun rr => rr.typ ≠ typeRrsig := queued.mono fun _ queued => queued.typ_ne.1
    obtain ⟨rr, written, typ', rdata⟩ := (@mem_emitQueues_iff params (wire labels) clock queues plain typeNsec (by decide)
      source.rdata).mpr ⟨source, member, typ, rfl⟩
    obtain ⟨next, bitmap, fits, read⟩ := (all rr written).nsec typ'
    obtain ⟨types, rfl⟩ := (queued source member).eq_nsecRr typ
    obtain ⟨other, octets⟩ := @nsecRr_rdata params labels legal types
    have same := wire_append_inj fits.labels (successor_labels legal) ((read.symm.trans rdata).trans octets)
    rw [same.1, legal_successor_iff legal] at fits
    omega
  · intro short
    have known : queues.All fun rr => Queued params (wire labels) rr ∧ LegalNames labels rr := fun rr member =>
      ⟨queued rr member, (queued rr member).legalNames legal hosts fun typ => by
        by_contra long
        exact short ⟨by omega, rr, member, typ⟩⟩
    refine emitQueues_all_sets known (fun head source first second same => ?_) fun head first key reading rdatas =>
      rrsigRr_legalNames legal hosts (first.1.legible hosts legal.total) key reading rdatas
    have typ : head.typ = source.typ := congrArg Prod.snd same
    exact ⟨first.2.owner, fun soa => second.2.soa (typ ▸ soa), fun ns => second.2.ns (typ ▸ ns),
      fun nsec => second.2.nsec (typ ▸ nsec), fun rrsig => second.2.rrsig (typ ▸ rrsig)⟩

end Records

/-- The response has an NSEC record although the QNAME has more than 253 octets. -/
def LongNext (query : Slice) (config : Config) (question : Question) : Prop :=
  253 < (wire question.name).length ∧ opcode query = 0 ∧ ∃ domain, parseQuery query = .ok (some domain) ∧
    Proven config (paramsOf query.data config) domain question.qtype question.qclass

section Question

variable {query : Slice} {config : Config} {question : Question} {rest : Bytes} {domain : Str} (legal : Legal question.name)
  (free : ∀ label ∈ question.name, 0 ∉ label) (behind : query.data.drop 12 = question.encode ++ rest)
  (hosts : config.LegalHosts)

include legal free behind

include hosts

/-- The names in the response to a question. -/
theorem carries_legalNames_iff (clock : Clock) (standard : opcode query = 0) (parsed : parseQuery query = .ok (some domain)) :
    ∃ records, Carries clock query config records ∧ (records.All (LegalNames question.name) ↔
      ¬ (253 < (wire question.name).length ∧ Proven config (paramsOf query.data config) domain question.qtype question.qclass)) := by
  obtain ⟨named, typed⟩ := qnameOf_question legal free behind
  have queued : (replyTo config (paramsOf query.data config) (wire question.name) domain question.qtype question.qclass).queues.All
      (Queued (paramsOf query.data config) (wire question.name)) := replyTo_queued config domain question.qtype question.qclass
  refine ⟨_, carries_of_reply clock (reply_of_question standard parsed typed config), ?_⟩
  have known : (paramsOf query.data config).LegalHosts := hosts
  have names := emitQueues_legalNames_iff legal known queued clock
  rw [replyTo_nsec] at names
  rw [contentsOf, named]
  exact names

/-- The names in the response to a query about a legal name are legal, unless an NSEC record would have to add a label to
a name of more than 253 octets. -/
theorem legalNames_iff (clock : Clock) :
    ∃ records, Carries clock query config records ∧
      (records.All (LegalNames question.name) ↔ ¬ LongNext query config question) := by
  have nothing {property : Rr → Prop} : Queues.All property ⟨[], [], []⟩ := Queues.all_mk (by simp) (by simp) (by simp)
  by_cases read : opcode query = 0 ∧ ∃ domain, parseQuery query = .ok (some domain)
  · obtain ⟨standard, domain, parsed⟩ := read
    obtain ⟨records, carries, names⟩ := carries_legalNames_iff legal free behind hosts clock standard parsed
    refine ⟨records, carries, names.trans (not_congr ?_)⟩
    constructor
    · exact fun ⟨long, proven⟩ => ⟨long, standard, domain, parsed, proven⟩
    · rintro ⟨long, _, other, parsed', proven⟩
      obtain rfl : domain = other := by simpa [parsed] using parsed'
      exact ⟨long, proven⟩
  · have short : ¬ LongNext query config question := fun ⟨_, standard, domain, parsed, _⟩ => read ⟨standard, domain, parsed⟩
    have unread := carries_nothing clock config fun ⟨standard, domain, _, _, parsed, _⟩ => read ⟨standard, domain, parsed⟩
    exact ⟨_, unread, iff_of_true nothing short⟩

end Question

theorem sampleNames_legal :
    ∃ records, Carries (fun _ => some 0) sampleQuery sampleSignedConfig records ∧
      (records.All (LegalNames sampleQuestion.name) ↔ ¬ LongNext sampleQuery sampleSignedConfig sampleQuestion) :=
  have behind : sampleQuery.data.drop 12 = sampleQuestion.encode ++ [0, 0, 41, 4, 208, 0, 0, 128, 0, 0, 0] := by decide +kernel
  have hosts : sampleSignedConfig.LegalHosts := sampleConfig_legalHosts
  legalNames_iff sampleQuery_standard.legal sampleQuery_standard.free behind hosts _

/-- A TXT question about a name of 254 octets below `nip.nu`. -/
def farQuestion : Question where
  name := List.replicate 3 (List.replicate 63 97) ++ [List.replicate 53 97, [110, 105, 112], [110, 117]]
  qtype := typeTxt
  qclass := classIn

/-- The name as it is read. -/
def farDomain : Str := ⟨text farQuestion.name, by decide +kernel⟩

/-- The question with the DO bit. -/
def farQuery : Slice where
  data := [0, 7, 1, 0, 0, 1, 0, 0, 0, 0, 0, 1] ++ farQuestion.encode ++ [0, 0, 41, 4, 208, 0, 0, 128, 0, 0, 0]
  length_le := by decide +kernel

/-- The NSEC record that denies TXT at this name gives a next name of 256 octets. -/
theorem farQuery_illegalNames :
    Legal farQuestion.name ∧ farQuery.data.drop 12 = farQuestion.encode ++ [0, 0, 41, 4, 208, 0, 0, 128, 0, 0, 0] ∧
      sampleSignedConfig.LegalHosts ∧ ∃ records, Carries (fun _ => some 0) farQuery sampleSignedConfig records ∧
        ¬ records.All (LegalNames farQuestion.name) := by
  have legal : Legal farQuestion.name := by decide +kernel
  have free : ∀ label ∈ farQuestion.name, 0 ∉ label := by decide +kernel
  have behind : farQuery.data.drop 12 = farQuestion.encode ++ [0, 0, 41, 4, 208, 0, 0, 128, 0, 0, 0] := by decide +kernel
  have hosts : sampleSignedConfig.LegalHosts := sampleConfig_legalHosts
  have standard : opcode farQuery = 0 := by decide +kernel
  have parsed : parseQuery farQuery = .ok (some farDomain) := by decide +kernel
  have proven : Proven sampleSignedConfig (paramsOf farQuery.data sampleSignedConfig) farDomain farQuestion.qtype
      farQuestion.qclass := by decide +kernel
  have long : 253 < (wire farQuestion.name).length := by decide +kernel
  obtain ⟨records, carries, names⟩ := carries_legalNames_iff legal free behind hosts (fun _ => some 0) standard parsed
  exact ⟨legal, behind, hosts, records, carries, fun all => names.mp all ⟨long, proven⟩⟩

end RustyAlias
