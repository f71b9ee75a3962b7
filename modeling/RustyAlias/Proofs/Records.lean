import RustyAlias.Proofs.Dnssec
import RustyAlias.Spec.Reply

/-! # The records that replies queue

Every queued record is of one of nine kinds. What later proofs need of a record, such as its
TTL, the length of its RDATA or that its owner can be read back, follows from its kind.
-/

namespace RustyAlias

open Rust Rust.Outcome Dns

/-- The owner name of a record exists in memory. -/
def Rr.InMemory (rr : Rr) : Prop := ∀ name, rr.owner = .name name → name.len ≤ isizeMax

/-- A record that can be read back. -/
structure Rr.Legible (rr : Rr) : Prop where
  owner : ∀ host, rr.owner = .name host → LegalHost host
  fits : rr.rdata.length ≤ 65535

/-- The records that a reply may queue for a question. -/
inductive Queued (params : ZoneParams) (qname : Bytes) : Rr → Prop
  | soa (owner : Owner) (known : owner = .question ∨ owner = .name params.zone) : Queued params qname (soaRr params owner)
  | ns (name : Str) (member : name ∈ params.nsNames) :
      Queued params qname ⟨.question, typeNs, ttlRr, encodeDomainName name⟩
  | a (owner : Owner) (ip : Ipv4Addr) (known : ∀ name, owner = .name name → name ∈ params.nsNames) :
      Queued params qname (aRr owner ip)
  | aaaa (owner : Owner) (ip : Ipv6Addr) (known : ∀ name, owner = .name name → name ∈ params.nsNames) :
      Queued params qname (aaaaRr owner ip)
  | txt (txt : Str) : Queued params qname (txtRr txt)
  | dnskey (key : DnssecKey) : Queued params qname (dnskeyRr key)
  | cds (key : DnssecKey) : Queued params qname (cdsRr key params.zone)
  | cdnskey (key : DnssecKey) : Queued params qname (cdnskeyRr key)
  | nsec (types : List UInt16) (few : types.length ≤ 16) : Queued params qname (nsecRr params qname types)

/-- What holds of every record in the queues. -/
def Queues.All (property : Rr → Prop) (queues : Queues) : Prop :=
  ∀ rr ∈ queues.answers ++ queues.authority ++ queues.additional, property rr

theorem Queues.All.mono {weak strong : Rr → Prop} {queues : Queues} (all : queues.All strong)
    (weaker : ∀ rr, strong rr → weak rr) : queues.All weak := fun rr member => weaker rr (all rr member)

theorem Queues.all_mk {property : Rr → Prop} {answers authority additional : List Rr}
    (first : ∀ rr ∈ answers, property rr) (second : ∀ rr ∈ authority, property rr)
    (third : ∀ rr ∈ additional, property rr) : Queues.All property ⟨answers, authority, additional⟩ := by
  intro rr member
  simp only [List.mem_append] at member
  rcases member with (member | member) | member
  · exact first rr member
  · exact second rr member
  · exact third rr member

section Queues

variable {params : ZoneParams} {qname : Bytes}

theorem Queued.question_a (ip : Ipv4Addr) : Queued params qname (aRr .question ip) := .a _ _ (by simp)

theorem Queued.question_aaaa (ip : Ipv6Addr) : Queued params qname (aaaaRr .question ip) := .aaaa _ _ (by simp)

theorem apexTypes_length_le (params : ZoneParams) : params.apexTypes.length ≤ 16 := by
  unfold ZoneParams.apexTypes
  split <;> split <;> split <;> simp

theorem addressTypes_length_le (ip : Option Ipv4Addr × Option Ipv6Addr) : (addressTypes ip).length ≤ 16 := by
  unfold addressTypes
  split <;> split <;> simp

theorem txtQueues_queued (txt : Str) : Queues.All (Queued params qname) ⟨[txtRr txt], [], []⟩ :=
  Queues.all_mk (by simp [Queued.txt]) (by simp) (by simp)

private theorem nsRrs_queued : ∀ rr ∈ nsRrs params, Queued params qname rr := by
  intro rr member
  obtain ⟨name, configured, rfl⟩ := List.mem_map.mp member
  exact .ns name configured

theorem glueRrs_queued : ∀ rr ∈ glueRrs params, Queued params qname rr := by
  intro rr member
  obtain ⟨name, configured, inside⟩ := List.mem_flatMap.mp member
  have known : ∀ other, Owner.name name = .name other → other ∈ params.nsNames := by
    rintro _ ⟨rfl⟩
    exact configured
  unfold glueOf at inside
  split at inside
  · rcases List.mem_cons.mp inside with rfl | inside
    · exact .a _ _ known
    · obtain ⟨ip, _, rfl⟩ := by simpa using inside
      exact .aaaa _ _ known
  · simp at inside

theorem nodataQueues_queued {types : List UInt16} (few : types.length ≤ 16) :
    (nodataQueues params qname types).All (Queued params qname) := by
  refine Queues.all_mk (by simp) ?_ (by simp)
  intro rr member
  rcases List.mem_cons.mp member with rfl | member
  · exact .soa _ (.inr rfl)
  · split at member
    · obtain rfl := List.mem_singleton.mp member
      exact .nsec _ few
    · simp at member

private theorem apexOr_queued {records : List Rr} (each : ∀ rr ∈ records, Queued params qname rr) :
    (apexOr params qname records).All (Queued params qname) := by
  unfold apexOr
  split
  · exact nodataQueues_queued (apexTypes_length_le params)
  · exact Queues.all_mk each (by simp) (by simp)

theorem apexQueues_queued (qtype : UInt16) : (apexQueues params qname qtype).All (Queued params qname) := by
  have keyed (records : DnssecKey → List Rr) (each : ∀ key, ∀ rr ∈ records key, Queued params qname rr) :
      ∀ rr ∈ (params.dnssec.map records).getD [], Queued params qname rr := by
    cases params.dnssec with
    | none => simp
    | some key => exact each key
  have ip6 : ∀ rr ∈ (params.glueIp6.map (aaaaRr .question)).toList, Queued params qname rr := by
    cases params.glueIp6 <;> simp [Queued.question_aaaa]
  have spf : ∀ rr ∈ (params.spf.map txtRr).toList, Queued params qname rr := by
    cases params.spf <;> simp [Queued.txt]
  have soa : ∀ rr ∈ [soaRr params .question], Queued params qname rr := by simp [Queued.soa]
  have a : ∀ rr ∈ [aRr .question params.glueIp], Queued params qname rr := by simp [Queued.question_a]
  unfold apexQueues
  dsimp only
  split_ifs
  · exact Queues.all_mk soa nsRrs_queued glueRrs_queued
  · exact Queues.all_mk nsRrs_queued (by simp) glueRrs_queued
  · exact Queues.all_mk a (by simp) (by simp)
  · exact apexOr_queued ip6
  · exact apexOr_queued spf
  · exact apexOr_queued (keyed _ (by simp [Queued.dnskey]))
  · exact apexOr_queued (keyed _ (by simp [Queued.cds]))
  · exact apexOr_queued (keyed _ (by simp [Queued.cdnskey]))
  · exact apexOr_queued (keyed _ (by simp [Queued.nsec, apexTypes_length_le]))
  · refine Queues.all_mk ?_ (by simp) glueRrs_queued
    have keys := keyed (fun key => [dnskeyRr key, cdsRr key params.zone, cdnskeyRr key])
      (by simp [Queued.dnskey, Queued.cds, Queued.cdnskey])
    intro rr member
    simp only [List.mem_append] at member
    rcases member with ((((member | member) | member) | member) | member) | member
    · exact soa rr member
    · exact nsRrs_queued rr member
    · exact a rr member
    · exact ip6 rr member
    · exact spf rr member
    · exact keys rr member
  · exact nodataQueues_queued (apexTypes_length_le params)

theorem addressQueues_queued (qtype : UInt16) (ip : Option Ipv4Addr × Option Ipv6Addr) :
    (addressQueues params qname qtype ip).All (Queued params qname) := by
  unfold addressQueues
  split
  · exact nodataQueues_queued (addressTypes_length_le ip)
  · refine Queues.all_mk (fun rr member => ?_) (by simp) (by simp)
    unfold addressRrs at member
    rcases List.mem_append.mp member with member | member <;>
      obtain ⟨ip, _, rfl⟩ := by simpa only [Option.mem_toList, Option.map_eq_some_iff] using member
    · exact Queued.question_a ip
    · exact Queued.question_aaaa ip

/-- Every reply queues records of the nine kinds only. -/
theorem replyTo_queued (config : Config) (domain : Str) (qtype qclass : UInt16) :
    (replyTo config params qname domain qtype qclass).queues.All (Queued params qname) := by
  have refused : (Reply.error rcodeRefused).queues.All (Queued params qname) := Queues.all_mk (by simp) (by simp) (by simp)
  unfold replyTo
  split_ifs
  · exact refused
  · exact refused
  · exact txtQueues_queued _
  · exact nodataQueues_queued (by simp)
  · exact refused
  · exact txtQueues_queued _
  · exact nodataQueues_queued (by simp)
  · exact apexQueues_queued qtype
  · exact addressQueues_queued qtype _
  · cases addressOf (domain.split dot) with
    | none => exact nodataQueues_queued (by simp)
    | some ip => exact addressQueues_queued qtype ip

end Queues

section Kinds

variable {params : ZoneParams} {qname : Bytes} {rr : Rr}

theorem Queued.inMemory (queued : Queued params qname rr) : rr.InMemory := by
  have fits (name : Str) (member : name ∈ params.nsNames) : name.len ≤ isizeMax := params.inMemory name (by simp [member])
  intro name owner
  cases queued with
  | soa other known =>
    rcases known with rfl | rfl
    · cases owner
    · cases owner; exact params.inMemory _ (by simp)
  | a other ip known => exact fits name (known name owner)
  | aaaa other ip known => exact fits name (known name owner)
  | ns | txt | dnskey | cds | cdnskey | nsec => cases owner

theorem Queues.All.inMemory {queues : Queues} (queued : queues.All (Queued params qname)) : queues.All Rr.InMemory :=
  queued.mono fun _ => Queued.inMemory

/-- The host names of the zone are legal names. -/
def ZoneParams.LegalHosts (params : ZoneParams) : Prop :=
  ∀ name ∈ params.zone :: params.nsName :: params.hostmaster :: params.nsNames, LegalHost name

theorem LegalHost.encodeDomainName_length_le {name : Str} (host : LegalHost name) : (encodeDomainName name).length ≤ 255 := by
  rw [encodeDomainName_eq]
  exact host.legal.fold.total

/-- Owners that are written out are host names of the zone. -/
theorem Queued.legalOwner (queued : Queued params qname rr) (hosts : params.LegalHosts) (host : Str)
    (owner : rr.owner = .name host) : LegalHost host := by
  have legal (name : Str) (member : name ∈ params.nsNames) : LegalHost name := hosts name (by simp [member])
  cases queued with
  | soa other known =>
    rcases known with rfl | rfl
    · cases owner
    · cases owner; exact hosts _ (by simp)
  | a other ip known => exact legal host (known host owner)
  | aaaa other ip known => exact legal host (known host owner)
  | ns | txt | dnskey | cds | cdnskey | nsec => cases owner

/-- The RDATA of NSEC records grows with the name; any other has at most two names and five numbers. -/
theorem Queued.rdata_length_le (queued : Queued params qname rr) (hosts : params.LegalHosts) (small : qname.length ≤ isizeMax) :
    rr.rdata.length ≤ 530 ∨ rr.typ = typeNsec ∧ rr.rdata.length ≤ qname.length + 648 := by
  have nsName := (hosts params.nsName (by simp)).encodeDomainName_length_le
  have hostmaster := (hosts params.hostmaster (by simp)).encodeDomainName_length_le
  cases queued with
  | soa owner known => exact .inl (by simp [soaRr]; omega)
  | ns name member =>
    have bound := (hosts name (by simp [member])).encodeDomainName_length_le
    exact .inl (by dsimp only; omega)
  | a owner ip known => exact .inl (by simp [aRr])
  | aaaa owner ip known => exact .inl (by simp [aaaaRr])
  | txt txt => exact .inl (by simp only [txtRr, List.length_cons, List.length_take]; omega)
  | dnskey key => exact .inl (by simp [dnskeyRr, key.rdata_length])
  | cds key => exact .inl (by simp [cdsRr, DnssecKey.dsRdata])
  | cdnskey key => exact .inl (by simp [cdnskeyRr, key.rdata_length])
  | nsec types few =>
    have fewer := nsecTypes_length_le types
    have bound := (nsecRdata_returns small (nsecTypes types)).post_value
    exact .inr ⟨rfl, by simp only [nsecRr]; omega⟩

theorem Queued.legible (queued : Queued params qname rr) (hosts : params.LegalHosts) (short : qname.length ≤ 255) :
    rr.Legible := by
  have bound := queued.rdata_length_le hosts (show qname.length ≤ isizeMax by unfold isizeMax; omega)
  exact ⟨queued.legalOwner hosts, by omega⟩

/-- The TTL that goes with a type. -/
def ttlOf (params : ZoneParams) (typ : UInt16) : UInt32 :=
  if typ = typeNsec then params.minimum
  else if typ = typeSoa ∨ typ = typeDnskey ∨ typ = typeCds ∨ typ = typeCdnskey then ttlSoa
  else ttlRr

theorem Queued.ttl_eq (queued : Queued params qname rr) : rr.ttl = ttlOf params rr.typ := by
  cases queued <;> rfl

theorem Queued.typ_mem (queued : Queued params qname rr) :
    rr.typ ∈ [typeSoa, typeNs, typeA, typeAaaa, typeTxt, typeDnskey, typeCds, typeCdnskey, typeNsec] := by
  cases queued <;> simp [soaRr, aRr, aaaaRr, txtRr, dnskeyRr, cdsRr, cdnskeyRr, nsecRr]

theorem Queued.eq_nsecRr (queued : Queued params qname rr) (typ : rr.typ = typeNsec) : ∃ types, rr = nsecRr params qname types := by
  cases queued with
  | nsec types few => exact ⟨types, rfl⟩
  | soa owner known => exact absurd typ (show typeSoa ≠ typeNsec by decide)
  | ns name member => exact absurd typ (show typeNs ≠ typeNsec by decide)
  | a owner ip known => exact absurd typ (show typeA ≠ typeNsec by decide)
  | aaaa owner ip known => exact absurd typ (show typeAaaa ≠ typeNsec by decide)
  | txt txt => exact absurd typ (show typeTxt ≠ typeNsec by decide)
  | dnskey key => exact absurd typ (show typeDnskey ≠ typeNsec by decide)
  | cds key => exact absurd typ (show typeCds ≠ typeNsec by decide)
  | cdnskey key => exact absurd typ (show typeCdnskey ≠ typeNsec by decide)

theorem Queued.typ_ne (queued : Queued params qname rr) : rr.typ ≠ typeRrsig ∧ rr.typ ≠ typeOpt := by
  have member := queued.typ_mem
  constructor <;> intro same <;> rw [same] at member <;> revert member <;> decide

end Kinds

end RustyAlias
