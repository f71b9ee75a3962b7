import RustyAlias.Proofs.Nsec
import RustyAlias.Proofs.Plain
import RustyAlias.Proofs.Rrsets
import RustyAlias.Spec.Contents

/-! # The types that a name has

Each class of names has its types: the apex those of the configuration, nameservers and address names
those of their addresses, the version names and the DMARC owner TXT. An NSEC record lists the types of
its name, and these are the types that are answered there.
-/

namespace RustyAlias

open Rust Rust.Outcome Dns

/-- The types of a name, NSEC and RRSIG apart. -/
def servedTypes (config : Config) (params : ZoneParams) (domain : Str) : List UInt16 :=
  if isVersionQuery domain then [typeTxt]
  else if !config.dmarc.isEmpty && namesEq domain (dmarcOwner config.glueName) then [typeTxt]
  else if namesEq domain config.glueName then params.apexTypes
  else if isConfiguredNs domain config && inZone domain config.glueName then addressTypes (some config.glueIp, config.glueIp6)
  else match addressOf (domain.split dot) with
    | some ip => addressTypes ip
    | none => []

/-- The NSEC records among these are those that list the types. -/
def Proves (params : ZoneParams) (qname : Bytes) (types : List UInt16) (queues : Queues) : Prop :=
  queues.All fun rr => rr.typ = typeNsec → rr = nsecRr params qname types

section Types

@[simp] theorem soaRr_typ (params : ZoneParams) (owner : Owner) : (soaRr params owner).typ = typeSoa := rfl

@[simp] theorem aRr_typ (owner : Owner) (ip : Ipv4Addr) : (aRr owner ip).typ = typeA := rfl

@[simp] theorem aaaaRr_typ (owner : Owner) (ip : Ipv6Addr) : (aaaaRr owner ip).typ = typeAaaa := rfl

@[simp] theorem txtRr_typ (txt : Str) : (txtRr txt).typ = typeTxt := rfl

@[simp] theorem dnskeyRr_typ (key : DnssecKey) : (dnskeyRr key).typ = typeDnskey := rfl

@[simp] theorem cdsRr_typ (key : DnssecKey) (zone : Str) : (cdsRr key zone).typ = typeCds := rfl

@[simp] theorem cdnskeyRr_typ (key : DnssecKey) : (cdnskeyRr key).typ = typeCdnskey := rfl

end Types

section Nsec

variable {params : ZoneParams} {qname : Bytes} {types : List UInt16}

private theorem proves_of_typ {rr : Rr} (other : rr.typ ≠ typeNsec) : rr.typ = typeNsec → rr = nsecRr params qname types :=
  fun nsec => absurd nsec other

private theorem nodataQueues_proves (types : List UInt16) : Proves params qname types (nodataQueues params qname types) := by
  refine Queues.all_mk (by simp) ?_ (by simp)
  intro rr member
  rcases List.mem_cons.mp member with rfl | member
  · exact proves_of_typ (show typeSoa ≠ typeNsec by decide)
  · split at member
    · exact fun _ => List.mem_singleton.mp member
    · cases member

/-- Records of other types prove nothing. -/
theorem proves_of_answers {queues : Queues} (other : queues.All fun rr => rr.typ ≠ typeNsec) :
    Proves params qname types queues := other.mono fun _ => proves_of_typ

private theorem apexOr_proves {records : List Rr}
    (each : ∀ rr ∈ records, rr.typ = typeNsec → rr = nsecRr params qname params.apexTypes) :
    Proves params qname params.apexTypes (apexOr params qname records) := by
  unfold apexOr
  split
  · exact nodataQueues_proves _
  · exact Queues.all_mk each (by simp) (by simp)

private theorem glueRrs_typ : ∀ rr ∈ glueRrs params, rr.typ = typeA ∨ rr.typ = typeAaaa := by
  intro rr member
  obtain ⟨name, _, member⟩ := List.mem_flatMap.mp member
  unfold glueOf at member
  split at member
  · rcases List.mem_cons.mp member with rfl | member
    · exact .inl rfl
    · exact .inr (optional_typ _ (aaaaRr_typ (.name name)) rr member)
  · cases member

private theorem ne_nsec_of_typ {rrs : List Rr} {typ : UInt16} (each : ∀ rr ∈ rrs, rr.typ = typ) (other : typ ≠ typeNsec) :
    ∀ rr ∈ rrs, rr.typ ≠ typeNsec := fun rr member => by rwa [each rr member]

theorem nsRrs_ne_nsec : ∀ rr ∈ nsRrs params, rr.typ ≠ typeNsec :=
  ne_nsec_of_typ (fun rr member => (nsRrs_typ rr member).2) (by decide)

theorem glueRrs_ne_nsec : ∀ rr ∈ glueRrs params, rr.typ ≠ typeNsec := fun rr member => by
  rcases glueRrs_typ rr member with typ | typ <;> rw [typ] <;> decide

theorem optional_ne_nsec {α : Type} (value : Option α) {record : α → Rr} {typ : UInt16} (each : ∀ value, (record value).typ = typ)
    (other : typ ≠ typeNsec) : ∀ rr ∈ (value.map record).toList, rr.typ ≠ typeNsec :=
  ne_nsec_of_typ (optional_typ value each) other

theorem keyed_ne_nsec {record : DnssecKey → Rr} (other : ∀ key, (record key).typ ≠ typeNsec) :
    ∀ rr ∈ (params.dnssec.map fun key => [record key]).getD [], rr.typ ≠ typeNsec :=
  keyed_typ fun key rr member => by rw [List.mem_singleton.mp member]; exact other key

theorem one_ne_nsec {rr : Rr} (other : rr.typ ≠ typeNsec) : ∀ x ∈ [rr], x.typ ≠ typeNsec := fun x member => by
  rw [List.mem_singleton.mp member]; exact other

/-- No record that the apex answers to an ANY query is an NSEC record. -/
theorem any_ne_nsec : ∀ rr ∈ [soaRr params .question] ++ nsRrs params ++ [aRr .question params.glueIp] ++
    (params.glueIp6.map (aaaaRr .question)).toList ++ (params.spf.map txtRr).toList ++
    (params.dnssec.map fun key => [dnskeyRr key, cdsRr key params.zone, cdnskeyRr key]).getD [], rr.typ ≠ typeNsec := by
  intro rr member
  rw [any_eq] at member
  have listed := (apexSets_sorted.mem member).2
  intro nsec
  rw [nsec] at listed
  exact absurd listed (show typeNsec ∉ [typeSoa, typeNs, typeA, typeAaaa, typeTxt, typeDnskey, typeCds, typeCdnskey] by decide)

private theorem apexQueues_proves (qtype : UInt16) : Proves params qname params.apexTypes (apexQueues params qname qtype) := by
  have missing {rrs : List Rr} (other : ∀ rr ∈ rrs, rr.typ ≠ typeNsec) :
      Proves params qname params.apexTypes (apexOr params qname rrs) :=
    apexOr_proves fun rr member => proves_of_typ (other rr member)
  unfold apexQueues
  dsimp only
  split_ifs
  · exact proves_of_answers (Queues.all_mk (one_ne_nsec (show typeSoa ≠ typeNsec by decide)) nsRrs_ne_nsec glueRrs_ne_nsec)
  · exact proves_of_answers (Queues.all_mk nsRrs_ne_nsec (by simp) glueRrs_ne_nsec)
  · exact proves_of_answers (Queues.all_mk (one_ne_nsec (show typeA ≠ typeNsec by decide)) (by simp) (by simp))
  · exact missing (optional_ne_nsec _ (aaaaRr_typ .question) (by decide))
  · exact missing (optional_ne_nsec _ txtRr_typ (by decide))
  · exact missing (keyed_ne_nsec fun _ => show typeDnskey ≠ typeNsec by decide)
  · exact missing (keyed_ne_nsec fun _ => show typeCds ≠ typeNsec by decide)
  · exact missing (keyed_ne_nsec fun _ => show typeCdnskey ≠ typeNsec by decide)
  · exact apexOr_proves (keyed_typ fun key rr member _ => List.mem_singleton.mp member)
  · exact proves_of_answers (Queues.all_mk any_ne_nsec (by simp) glueRrs_ne_nsec)
  · exact nodataQueues_proves _

private theorem addressQueues_proves (qtype : UInt16) (ip : Option Ipv4Addr × Option Ipv6Addr) :
    Proves params qname (addressTypes ip) (addressQueues params qname qtype ip) := by
  unfold addressQueues
  split
  · exact nodataQueues_proves _
  · refine proves_of_answers (Queues.all_mk (fun rr member => ?_) (by simp) (by simp))
    rcases List.mem_append.mp member with member | member
    · rw [optional_typ _ (aRr_typ .question) rr member]; decide
    · rw [optional_typ _ (aaaaRr_typ .question) rr member]; decide

/-- Every NSEC record that is queued lists the types of the name. -/
theorem replyTo_proves (config : Config) (domain : Str) (qtype qclass : UInt16) :
    Proves params qname (servedTypes config params domain) (replyTo config params qname domain qtype qclass).queues := by
  have refused (types : List UInt16) : Proves params qname types (Reply.error rcodeRefused).queues :=
    Queues.all_mk (by simp) (by simp) (by simp)
  have txt (types : List UInt16) (value : Str) : Proves params qname types ⟨[txtRr value], [], []⟩ :=
    proves_of_answers (Queues.all_mk (fun rr member => by rw [List.mem_singleton.mp member]; exact show typeTxt ≠ typeNsec by decide)
      (by simp) (by simp))
  unfold replyTo
  by_cases internet : qclass ≠ 1
  · rw [if_pos internet]
    exact refused _
  rw [if_neg internet]
  by_cases stranger : (!inZone domain config.glueName && !isVersionQuery domain) = true
  · rw [if_pos stranger]
    exact refused _
  rw [if_neg stranger]
  unfold servedTypes
  split_ifs
  · exact txt _ _
  · exact nodataQueues_proves _
  · exact refused _
  · exact txt _ _
  · exact nodataQueues_proves _
  · exact apexQueues_proves qtype
  · exact addressQueues_proves qtype _
  · cases addressOf (domain.split dot) with
    | none => exact nodataQueues_proves _
    | some ip => exact addressQueues_proves qtype ip

end Nsec

section Served

variable {params : ZoneParams} {qname : Bytes} {t : UInt16}

/-- An address is answered to a query for its type. -/
theorem addressQueues_serves (ip : Option Ipv4Addr × Option Ipv6Addr) :
    (∃ rr ∈ (addressQueues params qname t ip).answers, rr.typ = t) ↔ t ∈ addressTypes ip := by
  obtain ⟨v4, v6⟩ := ip
  rw [addressQueues_answers, addressRrs, addressTypes]
  by_cases a : t = typeA
  · subst a
    have other : typeAaaa ≠ typeA := by decide
    cases v4 <;> cases v6 <;> simp [wantsA, other, other.symm]
  by_cases aaaa : t = typeAaaa
  · subst aaaa
    cases v4 <;> cases v6 <;> simp [wantsAaaa, a, Ne.symm a]
  refine iff_of_false ?_ ?_
  · rintro ⟨rr, member, rfl⟩
    rcases List.mem_append.mp member with member | member
    · exact a (optional_typ _ (aRr_typ .question) rr member)
    · exact aaaa (optional_typ _ (aaaaRr_typ .question) rr member)
  · cases v4 <;> cases v6 <;> simp [a, aaaa]

private theorem exists_optional {α : Type} {value : Option α} {record : α → Rr} (each : ∀ value, (record value).typ = t) :
    (∃ rr ∈ (value.map record).toList, rr.typ = t) ↔ value.isSome = true := by
  cases value <;> simp [each]

private theorem exists_keyed {record : DnssecKey → Rr} (each : ∀ key, (record key).typ = t) :
    (∃ rr ∈ (params.dnssec.map fun key => [record key]).getD [], rr.typ = t) ↔ params.dnssec.isSome = true := by
  cases params.dnssec <;> simp [each]

theorem mem_apexTypes : t ∈ params.apexTypes ↔ t = typeSoa ∨ t = typeNs ∨ t = typeA ∨ t = typeAaaa ∧ params.glueIp6.isSome ∨
    t = typeTxt ∧ params.spf.isSome ∨ (t = typeDnskey ∨ t = typeCds ∨ t = typeCdnskey) ∧ params.dnssec.isSome := by
  unfold ZoneParams.apexTypes
  cases params.glueIp6 <;> cases params.spf <;> cases params.dnssec <;> simp

/-- The apex answers the types that its NSEC record lists. -/
theorem apexQueues_serves (notNsec : t ≠ typeNsec) (ns : t = typeNs → params.nsNames ≠ []) :
    (∃ rr ∈ (apexQueues params qname t).answers, rr.typ = t) ↔ t ∈ params.apexTypes := by
  rw [mem_apexTypes]
  by_cases known : t ∈ [typeSoa, typeNs, typeA, typeAaaa, typeTxt, typeDnskey, typeCds, typeCdnskey, typeNsec]
  · simp only [List.mem_cons, List.not_mem_nil, or_false] at known
    rcases known with rfl | rfl | rfl | rfl | rfl | rfl | rfl | rfl | rfl
    · exact iff_of_true ⟨_, List.mem_singleton_self _, rfl⟩ (.inl rfl)
    · obtain ⟨name, configured⟩ := List.exists_mem_of_ne_nil _ (ns rfl)
      exact iff_of_true ⟨_, List.mem_map_of_mem configured, rfl⟩ (.inr (.inl rfl))
    · exact iff_of_true ⟨_, List.mem_singleton_self _, rfl⟩ (.inr (.inr (.inl rfl)))
    · have answers : (apexQueues params qname typeAaaa).answers = (params.glueIp6.map (aaaaRr .question)).toList := apexOr_answers _
      rw [answers, exists_optional (aaaaRr_typ .question)]
      simp [typeAaaa, typeSoa, typeNs, typeA, typeTxt, typeDnskey, typeCds, typeCdnskey]
    · have answers : (apexQueues params qname typeTxt).answers = (params.spf.map txtRr).toList := apexOr_answers _
      rw [answers, exists_optional txtRr_typ]
      simp [typeAaaa, typeSoa, typeNs, typeA, typeTxt, typeDnskey, typeCds, typeCdnskey]
    · have answers : (apexQueues params qname typeDnskey).answers =
        (params.dnssec.map fun key => [dnskeyRr key]).getD [] := apexOr_answers _
      rw [answers, exists_keyed dnskeyRr_typ]
      simp [typeAaaa, typeSoa, typeNs, typeA, typeTxt, typeDnskey, typeCds, typeCdnskey]
    · have answers : (apexQueues params qname typeCds).answers =
        (params.dnssec.map fun key => [cdsRr key params.zone]).getD [] := apexOr_answers _
      rw [answers, exists_keyed fun key => cdsRr_typ key params.zone]
      simp [typeAaaa, typeSoa, typeNs, typeA, typeTxt, typeDnskey, typeCds, typeCdnskey]
    · have answers : (apexQueues params qname typeCdnskey).answers =
        (params.dnssec.map fun key => [cdnskeyRr key]).getD [] := apexOr_answers _
      rw [answers, exists_keyed cdnskeyRr_typ]
      simp [typeAaaa, typeSoa, typeNs, typeA, typeTxt, typeDnskey, typeCds, typeCdnskey]
    · exact absurd rfl notNsec
  · refine iff_of_false ?_ ?_
    · rintro ⟨rr, member, rfl⟩
      have queued : (apexQueues params qname rr.typ).All (Queued params qname) := apexQueues_queued rr.typ
      exact known (queued rr (by simp [member])).typ_mem
    · simp only [List.mem_cons, not_or] at known
      tauto

/-- The types that an NSEC record lists are those that are answered. -/
theorem replyTo_serves {config : Config} {domain : Str} (answered : inZone domain config.glueName = true ∨ isVersionQuery domain = true)
    (notNsec : t ≠ typeNsec) (ns : t = typeNs → params.nsNames ≠ []) :
    (∃ rr ∈ (replyTo config params qname domain t 1).queues.answers, rr.typ = t) ↔ t ∈ servedTypes config params domain := by
  have txt (value : Str) :
      (∃ rr ∈ (Reply.authoritative params ⟨[txtRr value], [], []⟩).queues.answers, rr.typ = t) ↔ t ∈ [typeTxt] := by
    simp [Reply.authoritative, eq_comm]
  have missing {queues : Queues} {types : List UInt16} (none : queues.answers = []) (other : t ∉ types) :
      (∃ rr ∈ queues.answers, rr.typ = t) ↔ t ∈ types := by
    simp [none, other]
  have stranger : ¬ (!inZone domain config.glueName && !isVersionQuery domain) = true := by
    rcases answered with inside | version
    · simp [inside]
    · simp [version]
  unfold replyTo servedTypes
  rw [if_neg (not_not.mpr rfl), if_neg stranger]
  split_ifs
  · exact txt _
  · exact missing rfl (by simp only [List.mem_singleton]; tauto)
  · exact missing rfl (by simp only [List.mem_singleton]; tauto)
  · exact txt _
  · exact missing rfl (by simp only [List.mem_singleton]; tauto)
  · exact apexQueues_serves notNsec ns
  · exact addressQueues_serves _
  · cases addressOf (domain.split dot) with
    | none => exact missing rfl List.not_mem_nil
    | some ip => exact addressQueues_serves ip

/-- No name answers RRSIG queries, and only the apex answers NSEC queries. -/
theorem replyTo_denied {config : Config} {domain : Str} (inside : inZone domain config.glueName = true)
    (unserved : t = typeRrsig ∨ t = typeNsec ∧ (isVersionQuery domain = true ∨ namesEq domain config.glueName = false)) :
    replyTo config params qname domain t 1 =
      .authoritative params (nodataQueues params qname (servedTypes config params domain)) := by
  have unasked : ¬ (t = typeTxt ∨ t = typeAny) := by
    rcases unserved with rfl | ⟨rfl, _⟩ <;> decide
  have unwanted : wantsA t = false ∧ wantsAaaa t = false := by
    rcases unserved with rfl | ⟨rfl, _⟩ <;> decide
  have address (ip : Option Ipv4Addr × Option Ipv6Addr) :
      addressQueues params qname t ip = nodataQueues params qname (addressTypes ip) := by
    rw [addressQueues, addressRrs, unwanted.1, unwanted.2]
    simp
  have apex (named : ¬ isVersionQuery domain = true) (apex : namesEq domain config.glueName = true) :
      apexQueues params qname t = nodataQueues params qname params.apexTypes := by
    rcases unserved with rfl | ⟨_, version | other⟩
    · rfl
    · exact absurd version named
    · rw [apex] at other
      cases other
  unfold replyTo servedTypes
  rw [if_neg (not_not.mpr rfl), inside]
  simp only [Bool.not_true, Bool.false_and, Bool.false_eq_true, if_false, if_true, unasked]
  split_ifs with version dmarc owner host
  · rfl
  · rfl
  · rw [apex version owner]
  · rw [address]
  · cases addressOf (domain.split dot) with
    | none => rfl
    | some ip => exact congrArg _ (address ip)

/-- The DMARC owner lies one label below the zone. -/
theorem trimmed_dmarcOwner {zone : Str} (some : trimmed zone ≠ []) :
    trimmed (dmarcOwner zone) = (Str.ofString "_dmarc.").bytes ++ trimmed zone := by
  rw [trimmed, Str.bytes_trimEndMatches]
  change ((Str.ofString "_dmarc.").bytes ++ trimmed zone).rdropWhile _ = _
  rw [List.rdropWhile_eq_self_iff]
  intro _
  rw [List.getLast_append_of_right_ne_nil _ _ some]
  exact List.rdropWhile_last_not _ zone.bytes some

/-- The DMARC owner is not the apex. -/
theorem dmarcOwner_of_apex {domain zone : Str} (apex : namesEq domain zone = true) (some : trimmed zone ≠ []) :
    namesEq domain (dmarcOwner zone) = false := by
  by_contra dmarc
  rw [Bool.not_eq_false] at dmarc
  have apex : lowerAll (trimmed domain) = lowerAll (trimmed zone) := eqIgnoreCase_iff.mp apex
  have dmarc : lowerAll (trimmed domain) = lowerAll (trimmed (dmarcOwner zone)) := eqIgnoreCase_iff.mp dmarc
  have length := congrArg List.length (apex.symm.trans dmarc)
  rw [trimmed_dmarcOwner some, lowerAll_length, lowerAll_length, List.length_append] at length
  have long : (Str.ofString "_dmarc.").bytes.length = 7 := by decide +kernel
  omega

/-- With a key the apex answers NSEC queries. -/
theorem replyTo_apexNsec {config : Config} {domain : Str} {key : DnssecKey} (inside : inZone domain config.glueName = true)
    (plain : isVersionQuery domain = false) (apex : namesEq domain config.glueName = true) (keyed : params.dnssec = some key) :
    (replyTo config params qname domain typeNsec 1).queues.answers = [nsecRr params qname params.apexTypes] := by
  have zone : trimmed config.glueName ≠ [] := by
    rw [inZone, decide_eq_true_iff] at inside
    exact inside.1
  unfold replyTo
  rw [if_neg (not_not.mpr rfl), inside, plain, dmarcOwner_of_apex apex zone, apex]
  simp only [Bool.not_true, Bool.false_and, Bool.and_false, Bool.false_eq_true, if_false, if_true, Reply.authoritative]
  change (apexOr params qname ((params.dnssec.map fun _ => [nsecRr params qname params.apexTypes]).getD [])).answers = _
  rw [apexOr_answers, keyed]
  rfl

/-- A name that has the type NS is not denied it. -/
theorem replyTo_ns {config : Config} {domain : Str} (inside : inZone domain config.glueName = true)
    (served : typeNs ∈ servedTypes config params domain) :
    (replyTo config params qname domain typeNs 1).queues.authority = [] := by
  have address (ip : Option Ipv4Addr × Option Ipv6Addr) : typeNs ∉ addressTypes ip := by
    obtain ⟨v4, v6⟩ := ip
    cases v4 <;> cases v6 <;> simp [addressTypes, typeNs, typeA, typeAaaa]
  have txt : typeNs ∉ [typeTxt] := by decide
  unfold servedTypes at served
  unfold replyTo
  rw [inside] at served
  rw [if_neg (not_not.mpr rfl), inside]
  simp only [Bool.not_true, Bool.false_and, Bool.false_eq_true, if_false]
  split_ifs at served ⊢ with version dmarc apex host
  · rfl
  · exact absurd served txt
  · rfl
  · exact absurd served txt
  · rfl
  · exact absurd served (address _)
  · cases ip : addressOf (domain.split dot) with
    | none =>
      rw [ip] at served
      cases served
    | some ip' =>
      rw [ip] at served
      exact absurd served (address ip')

private theorem apexOr_nodata {records : List Rr} (none : (apexOr params qname records).answers = []) :
    apexOr params qname records = nodataQueues params qname params.apexTypes := by
  rw [apexOr_answers] at none
  exact if_pos none

/-- Where the apex has no answers it queues a denial. -/
theorem apexQueues_nodata (ns : params.nsNames ≠ []) (none : (apexQueues params qname t).answers = []) :
    apexQueues params qname t = nodataQueues params qname params.apexTypes := by
  by_cases known : t ∈ [typeSoa, typeNs, typeA, typeAny]
  · simp only [List.mem_cons, List.not_mem_nil, or_false] at known
    rcases known with rfl | rfl | rfl | rfl
    · exact absurd none (List.cons_ne_nil _ _)
    · exact absurd (List.map_eq_nil_iff.mp none) ns
    · exact absurd none (List.cons_ne_nil _ _)
    · exact absurd none (List.cons_ne_nil _ _)
  · simp only [List.mem_cons, List.not_mem_nil, or_false, not_or] at known
    obtain ⟨soa, ns, a, any⟩ := known
    rw [apexQueues] at none ⊢
    dsimp only at none ⊢
    rw [if_neg soa, if_neg ns, if_neg a, if_neg any] at none ⊢
    revert none
    split_ifs
    all_goals first
      | exact apexOr_nodata
      | exact fun _ => rfl

private theorem addressQueues_nodata {ip : Option Ipv4Addr × Option Ipv6Addr} (none : (addressQueues params qname t ip).answers = []) :
    addressQueues params qname t ip = nodataQueues params qname (addressTypes ip) := by
  rw [addressQueues_answers] at none
  exact if_pos none

/-- A name in the zone without answers gets a denial. -/
theorem replyTo_nodata {config : Config} {domain : Str} (inside : inZone domain config.glueName = true)
    (ns : params.nsNames ≠ []) (none : (replyTo config params qname domain t 1).queues.answers = []) :
    ∃ types, (replyTo config params qname domain t 1).queues = nodataQueues params qname types := by
  unfold replyTo at none ⊢
  rw [if_neg (not_not.mpr rfl), inside] at none ⊢
  simp only [Bool.not_true, Bool.false_and, Bool.false_eq_true, if_false, if_true] at none ⊢
  split_ifs at none ⊢
  · cases none
  · exact ⟨_, rfl⟩
  · cases none
  · exact ⟨_, rfl⟩
  · exact ⟨_, apexQueues_nodata ns none⟩
  · exact ⟨_, addressQueues_nodata none⟩
  · cases ip : addressOf (domain.split dot) with
    | none => exact ⟨_, rfl⟩
    | some ip' =>
      rw [ip] at none
      exact ⟨_, addressQueues_nodata none⟩

end Served

end RustyAlias
