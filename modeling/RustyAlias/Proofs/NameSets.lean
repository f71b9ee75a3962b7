import RustyAlias.Spec.Reply
import RustyAlias.ToMathlib.ListLookup

/-! # The records of a name, type by type

Behind each class of names there is one association list from types to records. A query for a type is
answered with the records listed under it, and an ANY query with all of them; only NSEC queries at the
apex, whose answer is made for the question, are apart.
-/

namespace RustyAlias

open Rust Rust.Outcome Dns

section Records

variable {params : ZoneParams}

theorem nsRrs_typ : ∀ rr ∈ nsRrs params, rr.owner = .question ∧ rr.typ = typeNs := by
  intro rr member
  obtain ⟨name, _, rfl⟩ := List.mem_map.mp member
  exact ⟨rfl, rfl⟩

theorem optional_typ {α : Type} (value : Option α) {record : α → Rr} {typ : UInt16} (each : ∀ value, (record value).typ = typ) :
    ∀ rr ∈ (value.map record).toList, rr.typ = typ := by
  intro rr member
  obtain ⟨inner, _, rfl⟩ := by simpa only [Option.mem_toList, Option.map_eq_some_iff] using member
  exact each inner

theorem keyed_typ {records : DnssecKey → List Rr} {property : Rr → Prop} (each : ∀ key, ∀ rr ∈ records key, property rr) :
    ∀ rr ∈ (params.dnssec.map records).getD [], property rr := by
  cases params.dnssec with
  | none => simp
  | some key => exact each key

end Records

/-- What the apex has, the types in the order of an ANY answer. -/
def apexSets (params : ZoneParams) : List (UInt16 × List Rr) :=
  [(typeSoa, [soaRr params .question]),
    (typeNs, nsRrs params),
    (typeA, [aRr .question params.glueIp]),
    (typeAaaa, (params.glueIp6.map (aaaaRr .question)).toList),
    (typeTxt, (params.spf.map txtRr).toList),
    (typeDnskey, (params.dnssec.map fun key => [dnskeyRr key]).getD []),
    (typeCds, (params.dnssec.map fun key => [cdsRr key params.zone]).getD []),
    (typeCdnskey, (params.dnssec.map fun key => [cdnskeyRr key]).getD [])]

/-- What a name with these addresses has. -/
def addressSets (ip : Option Ipv4Addr × Option Ipv6Addr) : List (UInt16 × List Rr) :=
  [(typeA, (ip.1.map (aRr .question)).toList), (typeAaaa, (ip.2.map (aaaaRr .question)).toList)]

/-- What a name of the zone has. -/
def nameSets (config : Config) (params : ZoneParams) (domain : Str) : List (UInt16 × List Rr) :=
  if isVersionQuery domain then [(typeTxt, [txtRr (.ofString "RustyAlias v" ++ config.version)])]
  else if !config.dmarc.isEmpty && namesEq domain (dmarcOwner config.glueName) then [(typeTxt, [txtRr config.dmarc])]
  else if namesEq domain config.glueName then apexSets params
  else if isConfiguredNs domain config && inZone domain config.glueName then addressSets (some config.glueIp, config.glueIp6)
  else ((addressOf (domain.split dot)).map addressSets).getD []

/-- Every type once, and under it only its own records, owned by the question. -/
structure SortedSets (sets : List (UInt16 × List Rr)) : Prop where
  distinct : (sets.map Prod.fst).Nodup
  owned : ∀ set ∈ sets, ∀ rr ∈ set.2, rr.owner = .question ∧ rr.typ = set.1

theorem SortedSets.mem {sets : List (UInt16 × List Rr)} (sorted : SortedSets sets) {rr : Rr}
    (member : rr ∈ sets.flatMap Prod.snd) : rr.owner = .question ∧ rr.typ ∈ sets.map Prod.fst := by
  obtain ⟨set, inside, member⟩ := List.mem_flatMap.mp member
  obtain ⟨owner, typ⟩ := sorted.owned set inside rr member
  exact ⟨owner, typ ▸ List.mem_map_of_mem inside⟩

section Sets

variable {params : ZoneParams}

theorem apexSets_sorted : SortedSets (apexSets params) where
  distinct := show [typeSoa, typeNs, typeA, typeAaaa, typeTxt, typeDnskey, typeCds, typeCdnskey].Nodup by decide
  owned := by
    intro set member
    simp only [apexSets, List.mem_cons, List.not_mem_nil, or_false] at member
    rcases member with rfl | rfl | rfl | rfl | rfl | rfl | rfl | rfl
    · simp [soaRr]
    · exact nsRrs_typ
    · simp [aRr]
    · simp +contextual [aaaaRr]
    · simp +contextual [txtRr]
    · exact keyed_typ fun key => by simp [dnskeyRr]
    · exact keyed_typ fun key => by simp [cdsRr]
    · exact keyed_typ fun key => by simp [cdnskeyRr]

private theorem addressSets_sorted (ip : Option Ipv4Addr × Option Ipv6Addr) : SortedSets (addressSets ip) where
  distinct := show [typeA, typeAaaa].Nodup by decide
  owned := by
    intro set member
    simp only [addressSets, List.mem_cons, List.not_mem_nil, or_false] at member
    rcases member with rfl | rfl
    · simp +contextual [aRr]
    · simp +contextual [aaaaRr]

private theorem sortedSets_txt (txt : Str) : SortedSets [(typeTxt, [txtRr txt])] where
  distinct := List.nodup_singleton _
  owned := by simp [txtRr]

theorem nameSets_sorted (config : Config) (domain : Str) : SortedSets (nameSets config params domain) := by
  unfold nameSets
  split_ifs
  · exact sortedSets_txt _
  · exact sortedSets_txt _
  · exact apexSets_sorted
  · exact addressSets_sorted _
  · cases addressOf (domain.split dot) with
    | none => exact ⟨List.nodup_nil, by simp⟩
    | some ip => exact addressSets_sorted ip

end Sets

/-- The reply lists the nameservers of the zone: the zone itself is asked about, for SOA, NS or ANY. -/
def ListsNs (config : Config) (domain : Str) (qtype qclass : UInt16) : Prop :=
  qclass = 1 ∧ inZone domain config.glueName = true ∧ isVersionQuery domain = false ∧
    namesEq domain config.glueName = true ∧ (qtype = typeSoa ∨ qtype = typeNs ∨ qtype = typeAny)

section Answers

variable {params : ZoneParams} {qname : Bytes} {t : UInt16}

theorem apexOr_answers (records : List Rr) : (apexOr params qname records).answers = records := by
  unfold apexOr
  split
  · next none => exact none.symm
  · rfl

theorem addressQueues_answers (ip : Option Ipv4Addr × Option Ipv6Addr) :
    (addressQueues params qname t ip).answers = addressRrs t ip := by
  unfold addressQueues
  split
  · next none => exact none.symm
  · rfl

theorem any_eq : [soaRr params .question] ++ nsRrs params ++ [aRr .question params.glueIp] ++
    (params.glueIp6.map (aaaaRr .question)).toList ++ (params.spf.map txtRr).toList ++
    (params.dnssec.map fun key => [dnskeyRr key, cdsRr key params.zone, cdnskeyRr key]).getD [] =
      (apexSets params).flatMap Prod.snd := by
  cases keyed : params.dnssec <;> simp [apexSets, keyed]

/-- An ANY query at the apex is answered with everything. -/
theorem apexQueues_any : (apexQueues params qname typeAny).answers = (apexSets params).flatMap Prod.snd := any_eq

/-- Any other query with the records of its type. -/
theorem apexQueues_lookup (single : t ≠ typeAny) (made : t ≠ typeNsec) :
    (apexQueues params qname t).answers = ((apexSets params).lookup t).getD [] := by
  by_cases known : t ∈ (apexSets params).map Prod.fst
  · simp only [apexSets, List.map_cons, List.map_nil, List.mem_cons, List.not_mem_nil, or_false] at known
    rcases known with rfl | rfl | rfl | rfl | rfl | rfl | rfl | rfl
    · rfl
    · rfl
    · rfl
    all_goals exact apexOr_answers _
  · have absent : (apexSets params).lookup t = none := by
      rw [List.lookup_eq_none_iff]
      rintro set member
      rw [bne_iff_ne]
      rintro rfl
      exact known (List.mem_map_of_mem member)
    simp only [apexSets, List.map_cons, List.map_nil, List.mem_cons, List.not_mem_nil, or_false, not_or] at known
    obtain ⟨soa, ns, a, aaaa, txt, dnskey, cds, cdnskey⟩ := known
    rw [absent, apexQueues]
    dsimp only
    rw [if_neg soa, if_neg ns, if_neg a, if_neg aaaa, if_neg txt, if_neg dnskey, if_neg cds, if_neg cdnskey, if_neg made,
      if_neg single]
    rfl

private theorem addressRrs_any (ip : Option Ipv4Addr × Option Ipv6Addr) :
    addressRrs typeAny ip = (addressSets ip).flatMap Prod.snd := by
  obtain ⟨v4, v6⟩ := ip
  cases v4 <;> cases v6 <;> rfl

theorem addressRrs_lookup (single : t ≠ typeAny) (ip : Option Ipv4Addr × Option Ipv6Addr) :
    addressRrs t ip = ((addressSets ip).lookup t).getD [] := by
  obtain ⟨v4, v6⟩ := ip
  by_cases a : t = typeA
  · subst a
    cases v4 <;> cases v6 <;> rfl
  by_cases aaaa : t = typeAaaa
  · subst aaaa
    cases v4 <;> cases v6 <;> rfl
  · have unwanted : wantsA t = false ∧ wantsAaaa t = false := by simp [wantsA, wantsAaaa, a, aaaa, single]
    rw [addressRrs, unwanted.1, unwanted.2, addressSets, List.lookup_cons, beq_eq_false_iff_ne.mpr a, List.lookup_cons,
      beq_eq_false_iff_ne.mpr aaaa]
    simp

/-- A name in the zone answers an ANY query with all of its records. -/
theorem replyTo_any {config : Config} {domain : Str} (inside : inZone domain config.glueName = true) :
    (replyTo config params qname domain typeAny 1).queues.answers = (nameSets config params domain).flatMap Prod.snd := by
  unfold replyTo nameSets
  rw [if_neg (not_not.mpr rfl), inside]
  simp only [Bool.not_true, Bool.false_and, Bool.false_eq_true, if_false, or_true, if_true]
  split_ifs
  · rfl
  · rfl
  · change (apexQueues params qname typeAny).answers = _
    exact apexQueues_any
  · exact (addressQueues_answers _).trans (addressRrs_any _)
  · cases addressOf (domain.split dot) with
    | none => rfl
    | some ip => exact (addressQueues_answers ip).trans (addressRrs_any ip)

/-- Any other query with the records of its type. -/
theorem replyTo_lookup {config : Config} {domain : Str} (inside : inZone domain config.glueName = true)
    (single : t ≠ typeAny) (made : t ≠ typeNsec) :
    (replyTo config params qname domain t 1).queues.answers = ((nameSets config params domain).lookup t).getD [] := by
  have asked (value : Str) (asked : t = typeTxt ∨ t = typeAny) :
      [txtRr value] = (([(typeTxt, [txtRr value])] : List (UInt16 × List Rr)).lookup t).getD [] := by
    rw [asked.resolve_right single]
    rfl
  have unasked (value : Str) (unasked : ¬ (t = typeTxt ∨ t = typeAny)) :
      [] = (([(typeTxt, [txtRr value])] : List (UInt16 × List Rr)).lookup t).getD [] := by
    rw [List.lookup_cons, beq_eq_false_iff_ne.mpr fun txt => unasked (.inl txt)]
    rfl
  unfold replyTo nameSets
  rw [if_neg (not_not.mpr rfl), inside]
  simp only [Bool.not_true, Bool.false_and, Bool.false_eq_true, if_false, if_true]
  split_ifs with _ txt _ txt
  · exact asked _ txt
  · exact unasked _ txt
  · exact asked _ txt
  · exact unasked _ txt
  · exact apexQueues_lookup single made
  · exact (addressQueues_answers _).trans (addressRrs_lookup single _)
  · cases addressOf (domain.split dot) with
    | none => rfl
    | some ip => exact (addressQueues_answers ip).trans (addressRrs_lookup single ip)

end Answers

end RustyAlias
