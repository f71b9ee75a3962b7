import RustyAlias.Proofs.Dispatch
import RustyAlias.Proofs.ServedTypes

/-! # What a reply queues

With the DO bit and a key every answer about a name in the zone queues a record of the question's name.
The zone's own name is an owner only beside a denial, and the names of nameservers only beside the apex.
NSEC records stand in denials and in the answer to a query for them at the apex.
-/

namespace RustyAlias

open Rust Rust.Outcome Dns

/-- A record of the owner is queued. -/
def Queues.Owns (queues : Queues) (owner : Owner) : Prop :=
  ∃ rr ∈ queues.answers ++ queues.authority ++ queues.additional, rr.owner = owner

/-- The name is the apex and answered as such. -/
def AtApex (config : Config) (domain : Str) : Prop :=
  isVersionQuery domain = false ∧ namesEq domain config.glueName = true

instance (config : Config) (domain : Str) : Decidable (AtApex config domain) := inferInstanceAs (Decidable (_ ∧ _))

/-- The query type is one of these types, or ANY while there are some. -/
def Wants (types : List UInt16) (qtype : UInt16) : Prop := ∃ t ∈ types, qtype = t ∨ qtype = typeAny

instance (types : List UInt16) (qtype : UInt16) : Decidable (Wants types qtype) := inferInstanceAs (Decidable (∃ t ∈ types, _))

/-- The name has records of the query type. -/
def HasType (config : Config) (params : ZoneParams) (domain : Str) (qtype : UInt16) : Prop :=
  Wants (servedTypes config params domain) qtype ∨ AtApex config domain ∧ qtype = typeNsec

instance (config : Config) (params : ZoneParams) (domain : Str) (qtype : UInt16) : Decidable (HasType config params domain qtype) :=
  inferInstanceAs (Decidable (_ ∨ _))

/-- The query type for which the apex adds the addresses of its nameservers. -/
def Glued (qtype : UInt16) : Prop := qtype = typeSoa ∨ qtype = typeNs ∨ qtype = typeAny

instance (qtype : UInt16) : Decidable (Glued qtype) := inferInstanceAs (Decidable (_ ∨ _))

/-- The names of nameservers inside the zone. -/
def GlueName (params : ZoneParams) (name : Str) : Prop :=
  name ∈ params.nsNames ∧ Below (trimmed name) (trimmed params.zone)

section Owners

variable {params : ZoneParams} {qname : Bytes} {qtype : UInt16} {owner : Owner}

private theorem nodataQueues_owns (sign : params.sign = true) (types : List UInt16) :
    (nodataQueues params qname types).Owns owner ↔ owner = .question ∨ owner = .name params.zone := by
  have both : (nodataQueues params qname types).Owns owner ↔ .name params.zone = owner ∨ .question = owner := by
    simp [Queues.Owns, nodataQueues, sign, soaRr, nsecRr]
  rw [both, or_comm, eq_comm, @eq_comm _ (Owner.name _)]

/-- The glue beside the apex. -/
theorem glueRrs_owner_iff : (∃ rr ∈ glueRrs params, rr.owner = owner) ↔ ∃ name, GlueName params name ∧ owner = .name name := by
  constructor
  · rintro ⟨rr, member, rfl⟩
    obtain ⟨name, configured, member⟩ := List.mem_flatMap.mp member
    have alone : rr ∈ [name].flatMap (glueOf params) := by simpa using member
    obtain ⟨host, only, same⟩ := glueRrs_owner alone
    obtain rfl := List.mem_singleton.mp only
    refine ⟨host, ⟨configured, ?_⟩, same⟩
    by_contra outside
    rw [glueOf, if_neg outside] at member
    cases member
  · rintro ⟨name, ⟨configured, below⟩, rfl⟩
    refine ⟨aRr (.name name) params.glueIp, List.mem_flatMap.mpr ⟨name, configured, ?_⟩, rfl⟩
    rw [glueOf, if_pos below]
    exact List.mem_cons_self ..

/-- Records of the question's name, and glue beside them. -/
theorem owns_of_question {answers authority additional : List Rr} (present : answers ≠ [])
    (first : ∀ rr ∈ answers, rr.owner = .question) (second : ∀ rr ∈ authority, rr.owner = .question) :
    Queues.Owns ⟨answers, authority, additional⟩ owner ↔ owner = .question ∨ ∃ rr ∈ additional, rr.owner = owner := by
  constructor
  · rintro ⟨rr, member, rfl⟩
    simp only [List.mem_append] at member
    rcases member with (member | member) | member
    · exact .inl (first rr member)
    · exact .inl (second rr member)
    · exact .inr ⟨rr, member, rfl⟩
  · rintro (rfl | ⟨rr, member, same⟩)
    · obtain ⟨rr, rest, rfl⟩ := List.exists_cons_of_ne_nil present
      exact ⟨rr, by simp, first rr (List.mem_cons_self ..)⟩
    · exact ⟨rr, by simp [member], same⟩

private theorem owns_of_answers {answers : List Rr} (present : answers ≠ []) (each : ∀ rr ∈ answers, rr.owner = .question) :
    Queues.Owns ⟨answers, [], []⟩ owner ↔ owner = .question := by
  rw [owns_of_question present each (by simp)]
  simp

private theorem optional_owner {α : Type} {value : Option α} {record : α → Rr} (each : ∀ value, (record value).owner = .question) :
    ∀ rr ∈ (value.map record).toList, rr.owner = .question := by
  intro rr member
  obtain ⟨inner, _, rfl⟩ := by simpa only [Option.mem_toList, Option.map_eq_some_iff] using member
  exact each inner

private theorem apexOr_owns (sign : params.sign = true) {rrs : List Rr} (each : ∀ rr ∈ rrs, rr.owner = .question) :
    (apexOr params qname rrs).Owns owner ↔ owner = .question ∨ owner = .name params.zone ∧ rrs = [] := by
  unfold apexOr
  split
  · next missing => rw [nodataQueues_owns sign, and_iff_left missing]
  · next present => rw [owns_of_answers present each, or_iff_left fun ⟨_, missing⟩ => present missing]

/-- No addresses are written exactly if the type asks for none. -/
theorem addressRrs_eq_nil_iff (ip : Option Ipv4Addr × Option Ipv6Addr) : addressRrs qtype ip = [] ↔ ¬ Wants (addressTypes ip) qtype := by
  obtain ⟨v4, v6⟩ := ip
  cases v4 <;> cases v6 <;> simp [addressRrs, addressTypes, Wants, wantsA, wantsAaaa]

private theorem addressQueues_owns (sign : params.sign = true) (ip : Option Ipv4Addr × Option Ipv6Addr) :
    (addressQueues params qname qtype ip).Owns owner ↔
      owner = .question ∨ owner = .name params.zone ∧ ¬ Wants (addressTypes ip) qtype := by
  rw [← addressRrs_eq_nil_iff]
  unfold addressQueues
  split
  · next missing => rw [nodataQueues_owns sign, and_iff_left missing]
  · next present =>
    rw [owns_of_answers present, or_iff_left fun ⟨_, missing⟩ => present missing]
    intro rr member
    rcases List.mem_append.mp member with member | member
    · exact optional_owner (fun _ => rfl) rr member
    · exact optional_owner (fun _ => rfl) rr member

private theorem keyed_owner {records : DnssecKey → List Rr} (each : ∀ key, ∀ rr ∈ records key, rr.owner = .question) :
    ∀ rr ∈ (params.dnssec.map records).getD [], rr.owner = .question := keyed_typ each

private theorem nsRrs_owner : ∀ rr ∈ nsRrs params, rr.owner = .question := fun rr member => (nsRrs_typ rr member).1

private theorem any_owner : ∀ rr ∈ [soaRr params .question] ++ nsRrs params ++ [aRr .question params.glueIp] ++
    (params.glueIp6.map (aaaaRr .question)).toList ++ (params.spf.map txtRr).toList ++
    (params.dnssec.map fun key => [dnskeyRr key, cdsRr key params.zone, cdnskeyRr key]).getD [], rr.owner = .question := by
  rw [any_eq]
  exact fun rr member => (apexSets_sorted.mem member).1

/-- The apex has a type that its NSEC record lists, NSEC, or ANY. -/
theorem apexType_iff : Wants params.apexTypes qtype ∨ qtype = typeNsec ↔
    qtype ∈ params.apexTypes ∨ qtype = typeAny ∨ qtype = typeNsec := by
  constructor
  · rintro (⟨t, member, rfl | any⟩ | nsec)
    · exact .inl member
    · exact .inr (.inl any)
    · exact .inr (.inr nsec)
  · rintro (member | any | nsec)
    · exact .inl ⟨qtype, member, .inl rfl⟩
    · exact .inl ⟨typeSoa, mem_apexTypes.mpr (.inl rfl), .inr any⟩
    · exact .inr nsec

/-- Any other type is denied at the apex. -/
theorem apexQueues_unknown (unknown : qtype ∉ [typeSoa, typeNs, typeA, typeAaaa, typeTxt, typeDnskey, typeCds, typeCdnskey,
    typeNsec, typeAny]) :
    qtype ∉ params.apexTypes ∧ apexQueues params qname qtype = nodataQueues params qname params.apexTypes := by
  simp only [List.mem_cons, List.not_mem_nil, or_false, not_or] at unknown
  constructor
  · rw [mem_apexTypes]
    tauto
  · simp [apexQueues, unknown]

/-- Which owners the apex has. -/
theorem apexQueues_owns (sign : params.sign = true) (keyed : params.dnssec.isSome = true) (ns : params.nsNames ≠ []) :
    (apexQueues params qname qtype).Owns owner ↔ owner = .question ∨
      owner = .name params.zone ∧ ¬ (Wants params.apexTypes qtype ∨ qtype = typeNsec) ∨
      Glued qtype ∧ ∃ name, GlueName params name ∧ owner = .name name := by
  have glued {answers authority : List Rr} (present : answers ≠ []) (first : ∀ rr ∈ answers, rr.owner = .question)
      (second : ∀ rr ∈ authority, rr.owner = .question) (glue : Glued qtype) (known : qtype ∈ params.apexTypes ∨ qtype = typeAny) :
      Queues.Owns ⟨answers, authority, glueRrs params⟩ owner ↔ owner = .question ∨
        owner = .name params.zone ∧ ¬ (Wants params.apexTypes qtype ∨ qtype = typeNsec) ∨
        Glued qtype ∧ ∃ name, GlueName params name ∧ owner = .name name := by
    rw [owns_of_question present first second, glueRrs_owner_iff, apexType_iff]
    tauto
  have optional {rrs : List Rr} (each : ∀ rr ∈ rrs, rr.owner = .question) (plain : ¬ Glued qtype)
      (missing : rrs = [] ↔ ¬ (qtype ∈ params.apexTypes ∨ qtype = typeAny ∨ qtype = typeNsec)) :
      (apexOr params qname rrs).Owns owner ↔ owner = .question ∨
        owner = .name params.zone ∧ ¬ (Wants params.apexTypes qtype ∨ qtype = typeNsec) ∨
        Glued qtype ∧ ∃ name, GlueName params name ∧ owner = .name name := by
    rw [apexOr_owns sign each, missing, apexType_iff]
    tauto
  have always {α : Type} {value : Option α} {records : α → Rr} (present : value.isSome = true) :
      (value.map fun inner => [records inner]).getD [] ≠ [] := by
    obtain ⟨inner, rfl⟩ := Option.isSome_iff_exists.mp present
    simp
  by_cases known : qtype ∈ [typeSoa, typeNs, typeA, typeAaaa, typeTxt, typeDnskey, typeCds, typeCdnskey, typeNsec, typeAny]
  · simp only [List.mem_cons, List.not_mem_nil, or_false] at known
    rcases known with rfl | rfl | rfl | rfl | rfl | rfl | rfl | rfl | rfl | rfl
    · exact glued (by simp) (by simp [soaRr]) nsRrs_owner (.inl rfl) (.inl (mem_apexTypes.mpr (.inl rfl)))
    · exact glued (by simpa [nsRrs] using ns) nsRrs_owner (by simp) (.inr (.inl rfl))
        (.inl (mem_apexTypes.mpr (.inr (.inl rfl))))
    · have answered : (apexQueues params qname typeA).Owns owner ↔ owner = .question :=
        owns_of_answers (List.cons_ne_nil _ _) (by simp [aRr])
      have served : typeA ∈ params.apexTypes := mem_apexTypes.mpr (.inr (.inr (.inl rfl)))
      have plain : ¬ Glued typeA := by decide
      rw [answered, apexType_iff]
      tauto
    · refine optional (optional_owner fun _ => rfl) (by decide) ?_
      rw [mem_apexTypes]
      cases params.glueIp6 <;> simp [typeAaaa, typeSoa, typeNs, typeA, typeTxt, typeDnskey, typeCds, typeCdnskey, typeAny, typeNsec]
    · refine optional (optional_owner fun _ => rfl) (by decide) ?_
      rw [mem_apexTypes]
      cases params.spf <;> simp [typeAaaa, typeSoa, typeNs, typeA, typeTxt, typeDnskey, typeCds, typeCdnskey, typeAny, typeNsec]
    · refine optional (keyed_owner (by simp [dnskeyRr])) (by decide) (iff_of_false (always keyed) (not_not.mpr (.inl ?_)))
      simp [mem_apexTypes, keyed]
    · refine optional (keyed_owner (by simp [cdsRr])) (by decide) (iff_of_false (always keyed) (not_not.mpr (.inl ?_)))
      simp [mem_apexTypes, keyed]
    · refine optional (keyed_owner (by simp [cdnskeyRr])) (by decide) (iff_of_false (always keyed) (not_not.mpr (.inl ?_)))
      simp [mem_apexTypes, keyed]
    · exact optional (keyed_owner (by simp [nsecRr])) (by decide) (iff_of_false (always keyed) (not_not.mpr (.inr (.inr rfl))))
    · exact glued (by simp) any_owner (by simp) (.inr (.inr rfl)) (.inr rfl)
  · obtain ⟨unlisted, denied⟩ := apexQueues_unknown known
    simp only [List.mem_cons, List.not_mem_nil, or_false, not_or] at known
    have plain : ¬ Glued qtype := by
      unfold Glued
      tauto
    rw [denied, nodataQueues_owns sign, apexType_iff]
    tauto

/-- A question about a name in the zone gets one character string, a denial, the records of the apex, or addresses. -/
theorem replyTo_kinds {config : Config} {domain : Str} (inside : inZone domain config.glueName = true) :
    let queues := (replyTo config params qname domain qtype 1).queues
    (¬ AtApex config domain ∧ HasType config params domain qtype ∧ ∃ value, queues = ⟨[txtRr value], [], []⟩) ∨
    (¬ AtApex config domain ∧ ¬ HasType config params domain qtype ∧
      queues = nodataQueues params qname (servedTypes config params domain)) ∨
    (AtApex config domain ∧ (HasType config params domain qtype ↔ Wants params.apexTypes qtype ∨ qtype = typeNsec) ∧
      queues = apexQueues params qname qtype) ∨
    (¬ AtApex config domain ∧ ∃ ip, (HasType config params domain qtype ↔ Wants (addressTypes ip) qtype) ∧
      queues = addressQueues params qname qtype ip) := by
  have zone : trimmed config.glueName ≠ [] := (of_decide_eq_true inside).1
  have txt : Wants [typeTxt] qtype ↔ qtype = typeTxt ∨ qtype = typeAny := by simp [Wants]
  intro queues
  unfold queues replyTo HasType servedTypes AtApex
  rw [if_neg (not_not.mpr rfl), inside]
  simp only [Bool.not_true, Bool.false_and, Bool.false_eq_true, if_false, if_true, Bool.and_true]
  by_cases version : isVersionQuery domain = true
  · rw [if_pos version, if_pos version, txt]
    by_cases asked : qtype = typeTxt ∨ qtype = typeAny
    · exact .inl ⟨by simp [version], .inl asked, _, by rw [if_pos asked]; rfl⟩
    · exact .inr (.inl ⟨by simp [version], by simp [version, asked], by rw [if_neg asked]; rfl⟩)
  rw [if_neg version, if_neg version]
  by_cases dmarc : (!config.dmarc.isEmpty && namesEq domain (dmarcOwner config.glueName)) = true
  · have other : namesEq domain config.glueName = false := by
      by_contra apex
      rw [Bool.not_eq_false] at apex
      rw [dmarcOwner_of_apex apex zone, Bool.and_false] at dmarc
      cases dmarc
    rw [if_pos dmarc, if_pos dmarc, txt]
    by_cases asked : qtype = typeTxt ∨ qtype = typeAny
    · exact .inl ⟨by simp [other], .inl asked, _, by rw [if_pos asked]; rfl⟩
    · exact .inr (.inl ⟨by simp [other], by simp [other, asked], by rw [if_neg asked]; rfl⟩)
  rw [if_neg dmarc, if_neg dmarc]
  by_cases apex : namesEq domain config.glueName = true
  · rw [if_pos apex, if_pos apex]
    exact .inr (.inr (.inl ⟨⟨by simpa using version, apex⟩, by simp [version, apex], rfl⟩))
  rw [if_neg apex, if_neg apex]
  by_cases host : isConfiguredNs domain config = true
  · rw [if_pos host, if_pos host]
    exact .inr (.inr (.inr ⟨by simp [apex], _, by simp [apex], rfl⟩))
  rw [if_neg host, if_neg host]
  cases addressOf (domain.split dot) with
  | none => exact .inr (.inl ⟨by simp [apex], by simp [apex, Wants], rfl⟩)
  | some ip => exact .inr (.inr (.inr ⟨by simp [apex], ip, by simp [apex], rfl⟩))

/-- Whose records the reply to a question about a name in the zone queues. -/
theorem replyTo_owns {config : Config} {domain : Str} (inside : inZone domain config.glueName = true)
    (sign : params.sign = true) (keyed : params.dnssec.isSome = true) (ns : params.nsNames ≠ []) :
    (replyTo config params qname domain qtype 1).queues.Owns owner ↔ owner = .question ∨
      owner = .name params.zone ∧ ¬ HasType config params domain qtype ∨
      AtApex config domain ∧ Glued qtype ∧ ∃ name, GlueName params name ∧ owner = .name name := by
  rcases replyTo_kinds inside with
    ⟨below, served, value, same⟩ | ⟨below, unserved, same⟩ | ⟨apex, served, same⟩ | ⟨below, ip, served, same⟩
  · have text : Queues.Owns ⟨[txtRr value], [], []⟩ owner ↔ owner = .question :=
      owns_of_answers (List.cons_ne_nil _ _) (by simp [txtRr])
    rw [same, text]
    tauto
  · rw [same, nodataQueues_owns sign]
    tauto
  · rw [same, apexQueues_owns sign keyed ns, served]
    tauto
  · rw [same, addressQueues_owns sign, served]
    tauto

end Owners

/-- A record of the type is queued. -/
def Queues.Has (queues : Queues) (typ : UInt16) : Prop :=
  ∃ rr ∈ queues.answers ++ queues.authority ++ queues.additional, rr.typ = typ

/-- The reply to a question has an NSEC record: it denies a type with proof, or answers an NSEC query at the apex. -/
def Proven (config : Config) (params : ZoneParams) (domain : Str) (qtype qclass : UInt16) : Prop :=
  qclass = classIn ∧ inZone domain config.glueName = true ∧
    (params.sign = true ∧ ¬ HasType config params domain qtype ∨
      params.dnssec.isSome = true ∧ AtApex config domain ∧ qtype = typeNsec)

instance (config : Config) (params : ZoneParams) (domain : Str) (qtype qclass : UInt16) :
    Decidable (Proven config params domain qtype qclass) := inferInstanceAs (Decidable (_ ∧ _ ∧ _))

section Nsec

variable {params : ZoneParams} {qname : Bytes} {qtype : UInt16}

private theorem nodataQueues_nsec (types : List UInt16) :
    (nodataQueues params qname types).Has typeNsec ↔ params.sign = true := by
  have other : typeSoa ≠ typeNsec := by decide
  cases sign : params.sign <;> simp [Queues.Has, nodataQueues, sign, other, nsecRr]

private theorem not_nsec {queues : Queues} (other : queues.All fun rr => rr.typ ≠ typeNsec) : ¬ queues.Has typeNsec :=
  fun ⟨rr, member, nsec⟩ => other rr member nsec

private theorem apexOr_nsec {rrs : List Rr} (other : ∀ rr ∈ rrs, rr.typ ≠ typeNsec) :
    (apexOr params qname rrs).Has typeNsec ↔ params.sign = true ∧ rrs = [] := by
  unfold apexOr
  split
  · next missing => rw [nodataQueues_nsec, and_iff_left missing]
  · next present => exact iff_of_false (not_nsec (Queues.all_mk other (by simp) (by simp))) fun ⟨_, missing⟩ => present missing

private theorem addressRrs_typ (ip : Option Ipv4Addr × Option Ipv6Addr) :
    ∀ rr ∈ addressRrs qtype ip, rr.typ = typeA ∨ rr.typ = typeAaaa := by
  intro rr member
  rcases List.mem_append.mp member with member | member
  · exact .inl (optional_typ _ (aRr_typ .question) rr member)
  · exact .inr (optional_typ _ (aaaaRr_typ .question) rr member)

private theorem addressQueues_nsec (ip : Option Ipv4Addr × Option Ipv6Addr) :
    (addressQueues params qname qtype ip).Has typeNsec ↔ params.sign = true ∧ ¬ Wants (addressTypes ip) qtype := by
  rw [← addressRrs_eq_nil_iff]
  unfold addressQueues
  split
  · next missing => rw [nodataQueues_nsec, and_iff_left missing]
  · next present =>
    refine iff_of_false (not_nsec (Queues.all_mk (fun rr member => ?_) (by simp) (by simp))) fun ⟨_, missing⟩ => present missing
    rcases addressRrs_typ ip rr member with typ | typ <;> rw [typ] <;> decide

/-- When the apex has an NSEC record. -/
theorem apexQueues_nsec : (apexQueues params qname qtype).Has typeNsec ↔
    params.sign = true ∧ ¬ (Wants params.apexTypes qtype ∨ qtype = typeNsec) ∨ params.dnssec.isSome = true ∧ qtype = typeNsec := by
  have signed : params.sign = true → params.dnssec.isSome = true := fun sign => by
    rw [ZoneParams.sign, Bool.and_eq_true] at sign
    exact sign.1
  have plain {queues : Queues} (other : queues.All fun rr => rr.typ ≠ typeNsec) (known : qtype ∈ params.apexTypes ∨ qtype = typeAny)
      (type : qtype ≠ typeNsec) : queues.Has typeNsec ↔ params.sign = true ∧
        ¬ (Wants params.apexTypes qtype ∨ qtype = typeNsec) ∨ params.dnssec.isSome = true ∧ qtype = typeNsec := by
    have not := not_nsec other
    rw [apexType_iff]
    tauto
  have optional {rrs : List Rr} (other : ∀ rr ∈ rrs, rr.typ ≠ typeNsec) (type : qtype ≠ typeNsec)
      (missing : params.sign = true → (rrs = [] ↔ ¬ (qtype ∈ params.apexTypes ∨ qtype = typeAny ∨ qtype = typeNsec))) :
      (apexOr params qname rrs).Has typeNsec ↔ params.sign = true ∧
        ¬ (Wants params.apexTypes qtype ∨ qtype = typeNsec) ∨ params.dnssec.isSome = true ∧ qtype = typeNsec := by
    rw [apexOr_nsec other, apexType_iff]
    tauto
  have always {record : DnssecKey → Rr} (sign : params.sign = true) : (params.dnssec.map fun key => [record key]).getD [] ≠ [] := by
    obtain ⟨key, keyed⟩ := Option.isSome_iff_exists.mp (signed sign)
    simp [keyed]
  by_cases known : qtype ∈ [typeSoa, typeNs, typeA, typeAaaa, typeTxt, typeDnskey, typeCds, typeCdnskey, typeNsec, typeAny]
  · simp only [List.mem_cons, List.not_mem_nil, or_false] at known
    rcases known with rfl | rfl | rfl | rfl | rfl | rfl | rfl | rfl | rfl | rfl
    · exact plain (Queues.all_mk (one_ne_nsec (show typeSoa ≠ typeNsec by decide)) nsRrs_ne_nsec glueRrs_ne_nsec)
        (.inl (mem_apexTypes.mpr (.inl rfl))) (by decide)
    · exact plain (Queues.all_mk nsRrs_ne_nsec (by simp) glueRrs_ne_nsec) (.inl (mem_apexTypes.mpr (.inr (.inl rfl)))) (by decide)
    · exact plain (Queues.all_mk (one_ne_nsec (show typeA ≠ typeNsec by decide)) (by simp) (by simp))
        (.inl (mem_apexTypes.mpr (.inr (.inr (.inl rfl))))) (by decide)
    · refine optional (optional_ne_nsec _ (aaaaRr_typ .question) (by decide)) (by decide) fun _ => ?_
      rw [mem_apexTypes]
      cases params.glueIp6 <;> simp [typeAaaa, typeSoa, typeNs, typeA, typeTxt, typeDnskey, typeCds, typeCdnskey, typeAny, typeNsec]
    · refine optional (optional_ne_nsec _ txtRr_typ (by decide)) (by decide) fun _ => ?_
      rw [mem_apexTypes]
      cases params.spf <;> simp [typeAaaa, typeSoa, typeNs, typeA, typeTxt, typeDnskey, typeCds, typeCdnskey, typeAny, typeNsec]
    · refine optional (keyed_ne_nsec fun _ => show typeDnskey ≠ typeNsec by decide) (by decide) fun sign =>
        iff_of_false (always sign) (not_not.mpr (.inl ?_))
      simp [mem_apexTypes, signed sign]
    · refine optional (keyed_ne_nsec fun _ => show typeCds ≠ typeNsec by decide) (by decide) fun sign =>
        iff_of_false (always sign) (not_not.mpr (.inl ?_))
      simp [mem_apexTypes, signed sign]
    · refine optional (keyed_ne_nsec fun _ => show typeCdnskey ≠ typeNsec by decide) (by decide) fun sign =>
        iff_of_false (always sign) (not_not.mpr (.inl ?_))
      simp [mem_apexTypes, signed sign]
    · have answered : apexQueues params qname typeNsec =
          apexOr params qname ((params.dnssec.map fun _ => [nsecRr params qname params.apexTypes]).getD []) := rfl
      rw [answered]
      cases keyed : params.dnssec with
      | none =>
        have unsigned : ¬ params.sign = true := fun sign => by
          have present := signed sign
          rw [keyed] at present
          cases present
        simp [apexOr, nodataQueues_nsec, unsigned]
      | some key => simp [apexOr, Queues.Has, nsecRr]
    · exact plain (Queues.all_mk any_ne_nsec (by simp) glueRrs_ne_nsec) (.inr rfl) (by decide)
  · obtain ⟨unlisted, denied⟩ := apexQueues_unknown known
    simp only [List.mem_cons, List.not_mem_nil, or_false, not_or] at known
    rw [denied, nodataQueues_nsec, apexType_iff]
    tauto

/-- When the reply to a question has an NSEC record. -/
theorem replyTo_nsec {config : Config} {domain : Str} {qclass : UInt16} :
    (replyTo config params qname domain qtype qclass).queues.Has typeNsec ↔ Proven config params domain qtype qclass := by
  have text {value : Str} : ¬ Queues.Has ⟨[txtRr value], [], []⟩ typeNsec :=
    not_nsec (Queues.all_mk (one_ne_nsec (show typeTxt ≠ typeNsec by decide)) (by simp) (by simp))
  have error : ¬ (Reply.error rcodeRefused).queues.Has typeNsec := not_nsec (Queues.all_mk (by simp) (by simp) (by simp))
  by_cases internet : qclass = 1
  · subst internet
    cases inside : inZone domain config.glueName with
    | false =>
      refine iff_of_false ?_ fun ⟨_, inside', _⟩ => by rw [inside] at inside'; cases inside'
      by_cases version : isVersionQuery domain = true ∧ (qtype = typeTxt ∨ qtype = typeAny)
      · rw [replyTo_version version.1 version.2]
        exact text
      · rw [replyTo_refused inside fun ⟨_, asked⟩ => version asked]
        exact error
    | true =>
      rw [Proven, and_iff_right (show (1 : UInt16) = classIn from rfl), and_iff_right inside]
      rcases replyTo_kinds inside with
        ⟨below, served, value, same⟩ | ⟨below, unserved, same⟩ | ⟨apex, served, same⟩ | ⟨below, ip, served, same⟩
      · rw [same]
        refine iff_of_false text ?_
        tauto
      · rw [same, nodataQueues_nsec]
        tauto
      · rw [same, apexQueues_nsec, served]
        tauto
      · rw [same, addressQueues_nsec, served]
        tauto
  · have refused : replyTo config params qname domain qtype qclass = .error rcodeRefused := if_pos internet
    rw [refused]
    exact iff_of_false error fun ⟨internet', _⟩ => internet internet'

end Nsec

end RustyAlias
