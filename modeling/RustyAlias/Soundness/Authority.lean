import RustyAlias.Soundness.Glue
import RustyAlias.Soundness.SignatureTimes
import RustyAlias.Soundness.Transports
import RustyAlias.Spec.VirtualZone

/-! # The server has authority for its zone

Behind the tests of strings, the queues and the octets there is one zone. Whatever is asked, the message of the
response is one that a server for this zone sends.
-/

namespace RustyAlias

open Rust Rust.Outcome Dns

section Names

variable {config : Config} {domain : Str} {name : Name} (spelled : domain.bytes = text name)
  (nonempty : ∀ label ∈ name, label ≠ []) (dotless : ∀ label ∈ name, 46 ∉ label)

/-- The names that ask for the version: `version`, `ver` and `v`. -/
def versionNames : List Name := [[[118, 101, 114, 115, 105, 111, 110]], [[118, 101, 114]], [[118]]]

private theorem hostLabels_dmarcOwner {zone : Str} (some : trimmed zone ≠ []) :
    hostLabels (dmarcOwner zone) = dmarcLabel :: hostLabels zone := by
  have front : (Str.ofString "_dmarc.").bytes = dmarcLabel ++ [46] := by decide +kernel
  have split : dmarcLabel.splitOn 46 = [dmarcLabel] := by decide +kernel
  have whole : trimmed (dmarcOwner zone) = dmarcLabel ++ 46 :: trimmed zone := by
    rw [trimmed_dmarcOwner some, front, List.append_assoc]
    rfl
  rw [hostLabels, hostLabels, if_neg some, whole, if_neg (by simp), List.splitOn_append_cons_self, split]
  rfl

/-- Names are compared label by label. -/
theorem namesEq_iff_labels (a b : Str) : namesEq a b = true ↔ fold (hostLabels a) = fold (hostLabels b) := by
  rw [fold_hostLabels_eq_iff]
  exact eqIgnoreCase_iff

include spelled nonempty dotless

private theorem namesEq_iff (host : Str) : namesEq domain host = true ↔ fold name = fold (hostLabels host) := by
  have labels : hostLabels domain = name := hostLabels_text (n := 0) nonempty dotless (by simpa using spelled)
  rw [namesEq_iff_labels, labels]

omit nonempty in
private theorem isVersionQuery_of_notMem (plain : fold name ∉ versionNames) : isVersionQuery domain = false := by
  by_contra version
  rw [Bool.not_eq_false] at version
  have free : ∀ label ∈ fold name, 46 ∉ label := by
    intro label member
    obtain ⟨source, inside, rfl⟩ := List.mem_map.mp member
    rw [mem_lowerAll_dot]
    exact dotless source inside
  have read (labels : Name) {octets : Bytes} (same : lowerAll domain.bytes = octets) (split : octets.splitOn 46 = labels)
      (listed : labels ∈ versionNames) (some : octets ≠ []) : False := by
    rw [spelled, lowerAll_text] at same
    have present : fold name ≠ [] := by
      intro none
      rw [none] at same
      exact some same.symm
    rw [← same, splitOn_text present free] at split
    exact plain (split ▸ listed)
  simp only [isVersionQuery, Bool.or_eq_true, Str.eqIgnoreAsciiCase, eqIgnoreCase_iff] at version
  rcases version with (same | same) | same
  · exact read [[118, 101, 114, 115, 105, 111, 110]] same (by decide +kernel) (by decide) (by decide +kernel)
  · exact read [[118, 101, 114]] same (by decide +kernel) (by decide) (by decide +kernel)
  · exact read [[118]] same (by decide +kernel) (by decide) (by decide +kernel)

/-- The tests that place a name are those of the zone. -/
theorem inZone_iff_contains (zone : trimmed config.glueName ≠ []) :
    inZone domain config.glueName = true ↔ (virtualZone config).Contains name :=
  ⟨fun inside => suffix_of_inZone spelled nonempty zone inside fun label member => dotless label (List.mem_of_mem_drop member),
    inZone_of_suffix spelled nonempty zone⟩

private theorem isConfiguredNs_iff : isConfiguredNs domain config = true ↔
    ∃ host ∈ config.soaName :: config.nsNames, fold name = fold (hostLabels host) := by
  have names := namesEq_iff spelled nonempty dotless
  simp only [isConfiguredNs, Bool.or_eq_true, List.any_eq_true, names, List.exists_mem_cons_iff]
  exact or_comm

end Names

/-- A name of the zone, as it is read from a query. -/
structure Placed (config : Config) (domain : Str) (name : Name) : Prop where
  spelled : domain.bytes = text name
  present : name ≠ []
  nonempty : ∀ label ∈ name, label ≠ []
  dotless : ∀ label ∈ name, 46 ∉ label
  small : domain.len ≤ isizeMax
  version : isVersionQuery domain = false
  inside : inZone domain config.glueName = true

section Tables

variable {config : Config}

private theorem text_entries (text : Str) (present : text.isEmpty = false) : [(txtRr text).entry] = textEntries text := by
  rw [textEntries, present]
  rfl

private theorem apexSets_entries (query : Bytes) :
    (apexSets (paramsOf query config)).map (fun set => (set.1, set.2.map Rr.entry)) = apexTable config := by
  have ns : (nsRrs (paramsOf query config)).map Rr.entry =
      config.nsNames.map fun host => ⟨ttlRr, wire (fold (hostLabels host))⟩ := by
    rw [nsRrs, List.map_map]
    exact List.map_congr_left fun host _ => congrArg (Entry.mk ttlRr) (encodeDomainName_eq host)
  have soa : (soaRr (paramsOf query config) .question).entry = soaEntry config := by
    rw [Rr.entry, soaRr, encodeDomainName_eq, encodeDomainName_eq]
    rfl
  have spf : ((paramsOf query config).spf.map txtRr).toList.map Rr.entry = textEntries config.spf := by
    change ((if config.spf.isEmpty then none else some config.spf).map txtRr).toList.map Rr.entry = _
    unfold textEntries
    cases config.spf.isEmpty <;> rfl
  have six : ((paramsOf query config).glueIp6.map (aaaaRr .question)).toList.map Rr.entry =
      config.glueIp6.toList.map fun v6 => ⟨ttlRr, v6.octets⟩ := by
    change ((config.glueIp6).map _).toList.map Rr.entry = _
    cases config.glueIp6 <;> rfl
  have keyed (record : DnssecKey → Rr) : (((paramsOf query config).dnssec.map fun key => [record key]).getD []).map Rr.entry =
      config.dnssec.toList.map fun key => (record key).entry := by
    change (((config.dnssec).map _).getD []).map Rr.entry = _
    cases config.dnssec <;> rfl
  simp only [apexSets, List.map_cons, List.map_nil, ns, soa, spf, six, keyed]
  rfl

private theorem addressSets_entries (ip : Option Ipv4Addr × Option Ipv6Addr) :
    (addressSets ip).map (fun set => (set.1, set.2.map Rr.entry)) = addressTable ip := by
  obtain ⟨v4, v6⟩ := ip
  cases v4 <;> cases v6 <;> rfl

/-- What the server has for a name is what the zone has. -/
theorem nameSets_entries {domain : Str} {name : Name} (placed : Placed config domain name) (query : Bytes) :
    (nameSets config (paramsOf query config) domain).map (fun set => (set.1, set.2.map Rr.entry)) = nameTable config name := by
  obtain ⟨spelled, present, nonempty, dotless, small, version, inside⟩ := placed
  have names := namesEq_iff spelled nonempty dotless
  have zone : trimmed config.glueName ≠ [] := ((inZone_iff domain config.glueName).mp inside).1
  have fixed : fold (dmarcLabel :: hostLabels config.glueName) = dmarcLabel :: fold (hostLabels config.glueName) := rfl
  have dmarc : (!config.dmarc.isEmpty && namesEq domain (dmarcOwner config.glueName)) = true ↔
      config.dmarc.isEmpty = false ∧ fold name = dmarcLabel :: fold (hostLabels config.glueName) := by
    rw [Bool.and_eq_true, Bool.not_eq_true', names, hostLabels_dmarcOwner zone, fixed]
  have host : (isConfiguredNs domain config && inZone domain config.glueName) = true ↔
      ∃ host ∈ config.soaName :: config.nsNames, fold name = fold (hostLabels host) := by
    rw [inside, Bool.and_true, isConfiguredNs_iff spelled nonempty dotless]
  have addresses : addressOf (domain.split dot) = RustyAlias.spelled name := by
    rw [addressOf_split small, spelled, splitOn_text present dotless]
  simp only [nameSets, nameTable, version, Bool.false_eq_true, if_false, dmarc, names, host, addresses]
  split_ifs with policy
  · rw [List.map_singleton, List.map_singleton, text_entries config.dmarc policy.1]
  · exact apexSets_entries query
  · exact addressSets_entries _
  · cases RustyAlias.spelled name with
    | none => rfl
    | some ip => exact addressSets_entries ip

end Tables

section Replies

variable {params : ZoneParams} {qname : Bytes} {config : Config} {domain : Str} {qtype t : UInt16}

/-- A query for NSEC is answered with NSEC records, or not at all. -/
theorem replyTo_nsec_typ (inside : inZone domain config.glueName = true) :
    ∀ rr ∈ (replyTo config params qname domain typeNsec 1).queues.answers, rr.typ = typeNsec := by
  by_cases other : isVersionQuery domain = true ∨ namesEq domain config.glueName = false
  · have denied : replyTo config params qname domain typeNsec 1 = _ := replyTo_denied inside (.inr ⟨rfl, other⟩)
    rw [denied]
    intro rr member
    cases member
  · rw [not_or, Bool.not_eq_true, Bool.not_eq_false] at other
    obtain ⟨plain, apex⟩ := other
    have zone : trimmed config.glueName ≠ [] := ((inZone_iff domain config.glueName).mp inside).1
    have answers : (replyTo config params qname domain typeNsec 1).queues.answers =
        (params.dnssec.map fun _ => [nsecRr params qname params.apexTypes]).getD [] := by
      unfold replyTo
      rw [if_neg (not_not.mpr rfl), inside, plain, dmarcOwner_of_apex apex zone, apex]
      simp only [Bool.not_true, Bool.false_and, Bool.and_false, Bool.false_eq_true, if_false, if_true, Reply.authoritative]
      exact apexOr_answers _
    rw [answers]
    exact keyed_typ fun _ rr member => by rw [List.mem_singleton.mp member]; rfl

/-- Among the answers, those of a type are what the name has of it, if it is asked for. -/
theorem replyTo_filter (inside : inZone domain config.glueName = true) (made : t ≠ typeNsec) :
    (replyTo config params qname domain qtype 1).queues.answers.filter (fun rr => rr.typ = t) =
      if qtype = t ∨ qtype = typeAny then ((nameSets config params domain).lookup t).getD [] else [] := by
  have sorted : SortedSets (nameSets config params domain) := nameSets_sorted config domain
  by_cases any : qtype = typeAny
  · subst any
    rw [if_pos (.inr rfl), replyTo_any inside]
    exact List.filter_flatMap_lookup sorted.distinct (fun set member rr present => (sorted.owned set member rr present).2) t
  by_cases nsec : qtype = typeNsec
  · subst nsec
    rw [if_neg fun either => either.elim made.symm any, List.filter_eq_nil_iff]
    intro rr member
    rw [replyTo_nsec_typ inside rr member, decide_eq_true_iff]
    exact made.symm
  rw [replyTo_lookup inside any nsec]
  have listed : ∀ rr ∈ ((nameSets config params domain).lookup qtype).getD [], rr.typ = qtype := by
    intro rr member
    cases found : (nameSets config params domain).lookup qtype with
    | none =>
      rw [found] at member
      cases member
    | some entries =>
      rw [found] at member
      exact (sorted.owned (qtype, entries) (mem_of_lookup found) rr member).2
  by_cases same : qtype = t
  · subst same
    rw [if_pos (.inl rfl), List.filter_eq_self]
    exact fun rr member => decide_eq_true (listed rr member)
  · rw [if_neg fun either => either.elim same any, List.filter_eq_nil_iff]
    intro rr member
    rw [listed rr member, decide_eq_true_iff]
    exact same

/-- The question owns all answers. -/
theorem replyTo_owner (inside : inZone domain config.glueName = true) :
    ∀ rr ∈ (replyTo config params qname domain qtype 1).queues.answers, rr.owner = .question := by
  intro rr member
  have queued : Queued params qname rr :=
    replyTo_queued config domain qtype 1 rr (List.mem_append_left _ (List.mem_append_left _ member))
  by_cases nsec : rr.typ = typeNsec
  · obtain ⟨types, rfl⟩ := queued.eq_nsecRr nsec
    rfl
  have kept : rr ∈ (replyTo config params qname domain qtype 1).queues.answers.filter (fun other => other.typ = rr.typ) :=
    List.mem_filter.mpr ⟨member, decide_eq_true rfl⟩
  rw [replyTo_filter inside nsec] at kept
  split at kept
  · cases found : (nameSets config params domain).lookup rr.typ with
    | none =>
      rw [found] at kept
      cases kept
    | some entries =>
      rw [found] at kept
      exact ((nameSets_sorted config domain).owned (rr.typ, entries) (mem_of_lookup found) rr kept).1
  · cases kept

/-- What may stand beside the answers: a denial, and at the apex the NS records and the glue. -/
inductive Beside (params : ZoneParams) (apex : Prop) (rr : Rr) : Prop
  | nsec (typ : rr.typ = typeNsec)
  | soa (same : rr = soaRr params (.name params.zone))
  | ns (here : apex) (member : rr ∈ nsRrs params)
  | glue (here : apex) (member : rr ∈ glueRrs params)

def Queues.Flanked (params : ZoneParams) (apex : Prop) (queues : Queues) : Prop :=
  ∀ rr ∈ queues.authority ++ queues.additional, Beside params apex rr

private theorem nodataQueues_flanked (apex : Prop) (types : List UInt16) :
    (nodataQueues params qname types).Flanked params apex := by
  intro rr member
  rw [nodataQueues, List.append_nil] at member
  rcases List.mem_cons.mp member with rfl | member
  · exact .soa rfl
  · split at member
    · rw [List.mem_singleton.mp member]
      exact .nsec rfl
    · cases member

private theorem flanked_nil {answers : List Rr} {apex : Prop} : Queues.Flanked params apex ⟨answers, [], []⟩ := by
  intro rr member
  cases member

private theorem apexQueues_flanked : (apexQueues params qname qtype).Flanked params True := by
  have optional (records : List Rr) : (apexOr params qname records).Flanked params True := by
    unfold apexOr
    split
    · exact nodataQueues_flanked True _
    · exact flanked_nil
  have glued (answers : List Rr) : Queues.Flanked params True ⟨answers, [], glueRrs params⟩ := fun rr => .glue trivial
  unfold apexQueues
  dsimp only
  split_ifs
  · intro rr member
    rcases List.mem_append.mp member with member | member
    · exact .ns trivial member
    · exact .glue trivial member
  · exact glued _
  · exact flanked_nil
  all_goals first
    | exact optional _
    | exact glued _
    | exact nodataQueues_flanked True _

private theorem replyTo_flanked (inside : inZone domain config.glueName = true) :
    (replyTo config params qname domain qtype 1).queues.Flanked params (AtApex config domain) := by
  obtain ⟨_, _, _, same⟩ | ⟨_, _, same⟩ | ⟨apex, _, same⟩ | ⟨_, ip, _, same⟩ :=
    @replyTo_kinds params qname qtype config domain inside
  · rw [same]
    exact flanked_nil
  · rw [same]
    exact nodataQueues_flanked _ _
  · rw [same]
    intro rr member
    cases apexQueues_flanked rr member with
    | nsec typ => exact .nsec typ
    | soa same => exact .soa same
    | ns _ member => exact .ns apex member
    | glue _ member => exact .glue apex member
  · rw [same, addressQueues]
    split
    · exact nodataQueues_flanked _ _
    · exact flanked_nil

end Replies

section Records

variable {config : Config} {domain : Str} {name : Name} {query : Bytes} {rr : Rr}

/-- The records of a type that the zone has under a name of it. -/
theorem records_eq (placed : Placed config domain name) (query : Bytes) (t : UInt16) :
    (virtualZone config).records name t =
      (((nameSets config (paramsOf query config) domain).lookup t).getD []).map (Rr.record name) := by
  have table : (nameTable config name).lookup t =
      ((nameSets config (paramsOf query config) domain).lookup t).map (List.map Rr.entry) := by
    rw [← nameSets_entries placed query, List.lookup_map_snd]
  change (((nameTable config name).lookup t).getD []).map _ = _
  rw [table]
  cases found : (nameSets config (paramsOf query config) domain).lookup t with
  | none => rfl
  | some entries =>
    rw [Option.map_some, Option.getD_some, Option.getD_some, List.map_map]
    refine List.map_congr_left fun rr member => ?_
    obtain ⟨owner, typ⟩ := (nameSets_sorted config domain).owned (t, entries) (mem_of_lookup found) rr member
    simp only [Function.comp_apply, Rr.entry, Rr.record, ownerName, owner, typ]
    rfl

/-- What stands under the apex is in the zone, in any case of the letters. -/
theorem has_of_apex (same : fold (ownerName name rr.owner) = fold (hostLabels config.glueName))
    (listed : rr.entry ∈ ((apexTable config).lookup rr.typ).getD []) : (virtualZone config).Has (rr.record name) where
  inside := show _ <:+ fold (ownerName name rr.owner) from same ▸ List.suffix_refl _
  internet := rfl
  entry := by
    change rr.entry ∈ ((nameTable config (ownerName name rr.owner)).lookup rr.typ).getD []
    rwa [nameTable_fold same, nameTable_apex]

private theorem soa_has (name : Name) :
    (virtualZone config).Has ((soaRr (paramsOf query config) (.name config.glueName)).record name) := by
  have entry : (soaRr (paramsOf query config) (.name config.glueName)).entry = soaEntry config := by
    rw [Rr.entry, soaRr, encodeDomainName_eq, encodeDomainName_eq]
    rfl
  refine has_of_apex (fold_fold _) ?_
  rw [entry]
  exact List.mem_singleton_self _

private theorem ns_has (apex : fold name = fold (hostLabels config.glueName)) (member : rr ∈ nsRrs (paramsOf query config)) :
    (virtualZone config).Has (rr.record name) := by
  obtain ⟨host, configured, rfl⟩ := List.mem_map.mp member
  refine has_of_apex apex ?_
  rw [Rr.entry, encodeDomainName_eq]
  exact List.mem_map_of_mem configured

/-- The addresses of a nameserver, at the apex and elsewhere. -/
theorem mem_glueOf_entry {host : Str} (member : rr ∈ glueOf (paramsOf query config) host) :
    Below (trimmed host) (trimmed config.glueName) ∧ rr.owner = .name host ∧
      rr.entry ∈ ((apexTable config).lookup rr.typ).getD [] ∧
      rr.entry ∈ ((addressTable (some config.glueIp, config.glueIp6)).lookup rr.typ).getD [] := by
  unfold glueOf at member
  split at member
  · next below =>
    refine ⟨below, ?_⟩
    rcases List.mem_cons.mp member with rfl | member
    · exact ⟨rfl, List.mem_singleton_self _, List.mem_singleton_self _⟩
    · obtain ⟨six, present, rfl⟩ := by simpa only [Option.mem_toList, Option.map_eq_some_iff] using member
      have listed : (aaaaRr (.name host) six).entry ∈ config.glueIp6.toList.map fun v6 => (⟨ttlRr, v6.octets⟩ : Entry) :=
        List.mem_map_of_mem (Option.mem_toList.mpr present)
      exact ⟨rfl, listed, listed⟩
  · cases member

/-- Glue is what the zone has under the nameserver, unless the DMARC policy stands there. -/
theorem glue_has (hosts : config.LegalHosts) (zone : trimmed config.glueName ≠ [])
    (policy : ∀ host ∈ config.nsNames, config.dmarc.isEmpty = true ∨ namesEq host (dmarcOwner config.glueName) = false)
    (member : rr ∈ glueRrs (paramsOf query config)) : (virtualZone config).Has (rr.record name) := by
  obtain ⟨host, configured, member⟩ := List.mem_flatMap.mp member
  change host ∈ config.nsNames at configured
  obtain ⟨below, owner, apex, address⟩ := mem_glueOf_entry member
  have labels : ownerName name rr.owner = fold (hostLabels host) := by rw [owner]; rfl
  refine ⟨?_, rfl, ?_⟩
  · change fold (hostLabels config.glueName) <:+ fold (ownerName name rr.owner)
    rw [labels, fold_fold]
    exact (below_iff_suffix (hosts host (by simp [configured])) zone).mp below
  · change rr.entry ∈ ((nameTable config (ownerName name rr.owner)).lookup rr.typ).getD []
    rw [labels, nameTable_fold (fold_fold _), nameTable]
    split_ifs with dmarc top ns
    · have other := (policy host configured).resolve_left (by simp [dmarc.1])
      have same : namesEq host (dmarcOwner config.glueName) = true := by
        rw [namesEq_iff_labels, hostLabels_dmarcOwner zone]
        exact dmarc.2
      rw [other] at same
      cases same
    · exact apex
    · exact address
    · exact absurd ⟨host, List.mem_cons_of_mem _ configured, rfl⟩ ns

/-- Every record that is queued for a name of the zone is one of the zone, or an NSEC record. -/
theorem queued_has (hosts : config.LegalHosts)
    (policy : ∀ host ∈ config.nsNames, config.dmarc.isEmpty = true ∨ namesEq host (dmarcOwner config.glueName) = false)
    (placed : Placed config domain name) (query qname : Bytes) (qtype : UInt16) :
    (replyTo config (paramsOf query config) qname domain qtype 1).queues.All fun rr =>
      rr.typ = typeNsec ∨ (virtualZone config).Has (rr.record name) := by
  have zone : trimmed config.glueName ≠ [] := ((inZone_iff domain config.glueName).mp placed.inside).1
  have contained := (inZone_iff_contains placed.spelled placed.nonempty placed.dotless zone).mp placed.inside
  intro rr member
  rw [List.append_assoc] at member
  by_cases nsec : rr.typ = typeNsec
  · exact .inl nsec
  right
  rcases List.mem_append.mp member with member | member
  · have owner := replyTo_owner placed.inside rr member
    have kept : rr ∈ (replyTo config (paramsOf query config) qname domain qtype 1).queues.answers.filter
        (fun other => other.typ = rr.typ) := List.mem_filter.mpr ⟨member, decide_eq_true rfl⟩
    rw [replyTo_filter placed.inside nsec] at kept
    split at kept
    · have listed : rr.record name ∈ (virtualZone config).records name rr.typ := by
        rw [records_eq placed query]
        exact List.mem_map_of_mem kept
      obtain ⟨entry, inside, same⟩ := List.mem_map.mp listed
      rw [← same]
      exact ⟨contained, rfl, inside⟩
    · cases kept
  · cases replyTo_flanked placed.inside rr member with
    | nsec typ => exact absurd typ nsec
    | soa same =>
      rw [same]
      exact soa_has name
    | ns here member => exact ns_has ((namesEq_iff placed.spelled placed.nonempty placed.dotless _).mp here.2) member
    | glue _ member => exact glue_has hosts zone policy member

end Records

section Messages

variable {config : Config} {name : Name} {query : Slice} {question : Question}

private theorem fold_ownerName {a b : Owner} (same : ownerKey a = ownerKey b) (name : Name) :
    fold (ownerName name a) = fold (ownerName name b) := by
  cases a with
  | question =>
    cases b with
    | question => rfl
    | name host => cases same
  | name host =>
    cases b with
    | question => cases same
    | name other => exact congrArg fold ((fold_hostLabels_eq_iff host other).mpr (Option.some.inj same))

/-- What is written of such records is one of the zone, or made for the message. -/
theorem emitQueues_has {params : ZoneParams} {qname : Bytes} {queues : Queues} (queued : queues.All (Queued params qname))
    (has : queues.All fun rr => rr.typ = typeNsec ∨ (virtualZone config).Has (rr.record name)) (clock : Clock) :
    (emitQueues params qname clock queues).All fun rr => rr.typ ∈ madeTypes ∨ (virtualZone config).Has (rr.record name) := by
  have both : queues.All fun rr => Queued params qname rr ∧ (rr.typ = typeNsec ∨ (virtualZone config).Has (rr.record name)) :=
    fun rr member => ⟨queued rr member, has rr member⟩
  refine emitQueues_all_sets both (fun head source first second same => ?_) fun head _ key reading rdatas => ?_
  · obtain ⟨owner, typ⟩ := Prod.mk.inj same
    have ttl : head.ttl = source.ttl := by rw [first.1.ttl_eq, second.1.ttl_eq, typ]
    rcases second.2 with nsec | has
    · exact .inl (show head.typ ∈ madeTypes from typ.trans nsec ▸ by decide)
    · right
      change (virtualZone config).Has ⟨ownerName name head.owner, head.typ, classIn, head.ttl, source.rdata⟩
      rw [typ, ttl]
      exact @Zone.Has.congr (virtualZone config) _ _ (fold_ownerName owner.symm name) _ _ source.entry has
  · exact .inl (show typeRrsig ∈ madeTypes by decide)

/-- Among the written answers, those of a type are what the zone has of it, if it is asked for. -/
theorem answers_perm {domain : Str} (placed : Placed config domain name) (query qname : Bytes) (clock : Clock) (qtype : UInt16)
    {t : UInt16} (plain : t ∉ madeTypes) :
    (((emitQueues (paramsOf query config) qname clock (replyTo config (paramsOf query config) qname domain qtype
        1).queues).answers.map (Rr.record name)).filter fun record => record.rtype = t).Perm
      (if qtype = t ∨ qtype = anyType then (virtualZone config).records name t else []) := by
  generalize source : (replyTo config (paramsOf query config) qname domain qtype 1).queues = queues
  have owned : ∀ rr ∈ queues.answers, rr.owner = .question := source ▸ replyTo_owner placed.inside
  have queued : ∀ rr ∈ queues.answers, Queued (paramsOf query config) qname rr := fun rr member =>
    replyTo_queued config domain qtype 1 rr (source ▸ List.mem_append_left _ (List.mem_append_left _ member))
  have made : t ≠ typeNsec ∧ t ≠ typeRrsig := by
    constructor
    · rintro rfl
      exact plain (by decide)
    · rintro rfl
      exact plain (by decide)
  have asked : queues.answers.filter (fun rr => rr.typ = t) =
      if qtype = t ∨ qtype = typeAny then ((nameSets config (paramsOf query config) domain).lookup t).getD [] else [] :=
    source ▸ replyTo_filter placed.inside made.1
  have signatures (rrs : List Rr) : (unsigned rrs).filter (fun rr => rr.typ = t) = rrs.filter fun rr => rr.typ = t := by
    rw [unsigned, List.filter_filter]
    refine List.filter_congr fun rr _ => ?_
    by_cases same : rr.typ = t
    · simp [same, made.2]
    · simp [same]
  have written := ((unsigned_perm clock owned queued).filter fun rr => rr.typ = t).map (Rr.record name)
  rw [signatures, asked] at written
  rw [List.filter_map]
  refine written.trans (List.Perm.of_eq ?_)
  split
  · next here => exact (records_eq placed query t).symm.trans (if_pos here).symm
  · next other => exact (if_neg other).symm

/-- The SOA record of a denial stands under the apex. -/
theorem nodata_soa {params : ZoneParams} {qname : Bytes} {types : List UInt16}
    (queued : (nodataQueues params qname types).All (Queued params qname)) (clock : Clock) :
    ∃ rr ∈ (emitQueues params qname clock (nodataQueues params qname types)).authority,
      rr.setKey = (ownerKey (.name params.zone), typeSoa) := by
  have plain : ∀ rr ∈ (nodataQueues params qname types).authority, rr.typ ≠ typeRrsig := fun rr member =>
    (queued rr (List.mem_append_left _ (List.mem_append_right _ member))).typ_ne.1
  have other : typeSoa ≠ typeRrsig := by decide
  have written := @mem_section_key_iff params qname (emitSets params qname clock (rrsets [])).2 _ plain
    (ownerKey (.name params.zone), typeSoa) other (soaRr params (.name params.zone)).rdata
  obtain ⟨rr, member, key, _⟩ := written.mpr ⟨_, List.mem_cons_self .., rfl, rfl⟩
  exact ⟨rr, member, key⟩

example : (virtualZone sampleSignedConfig).records sampleQuestion.name typeA =
    [⟨sampleQuestion.name, typeA, classIn, ttlRr, [10, 0, 0, 1]⟩] := by decide +kernel

/-- Whatever well-formed question is asked, the response says what a server with authority for the zone says: all that the
zone has of the type in the question, and nothing that it has not. -/
theorem speaks_for_zone (clock : Clock) (standard : StandardQuery query.data question) (hosts : config.LegalHosts)
    (few : config.nsNames.length ≤ 16000) (ns : config.nsNames ≠ []) (zone : trimmed config.glueName ≠ [])
    (policy : ∀ host ∈ config.nsNames, config.dmarc.isEmpty = true ∨ namesEq host (dmarcOwner config.glueName) = false)
    (dotless : ∀ label ∈ question.name, 46 ∉ label) (plain : fold question.name ∉ versionNames) :
    ∃ response msg, handleQueryInternal clock query config = .ok response ∧ decode response = some msg ∧
      (virtualZone config).Speaks question msg := by
  obtain ⟨domain, spelled, parsed, answered⟩ := standard.reply_eq config
  obtain ⟨response, handled, decoded, _⟩ := standard.accept_response hosts few answered clock
  refine ⟨response, _, handled, decoded, ?_⟩
  have nonempty : ∀ label ∈ question.name, label ≠ [] := fun label member =>
    List.ne_nil_of_length_pos (standard.legal.labels label member).1
  have version := isVersionQuery_of_notMem spelled dotless plain
  have boundary := inZone_iff_contains spelled nonempty dotless zone
  unfold Zone.Speaks
  split
  · next asked =>
    obtain ⟨internet, contained⟩ := asked
    have placed : Placed config domain question.name :=
      ⟨spelled, standard.nonempty, nonempty, dotless, parseQuery_small parsed, version, boundary.mpr contained⟩
    obtain ⟨queues, authoritative⟩ := replyTo_inside (paramsOf query.data config) (wire question.name) question.qtype placed.inside
    have perm {t : UInt16} := @answers_perm config question.name domain placed query.data (wire question.name) clock question.qtype t
    have has := queued_has hosts policy placed query.data (wire question.name) question.qtype
    have queued : (replyTo config (paramsOf query.data config) (wire question.name) domain question.qtype 1).queues.All
        (Queued (paramsOf query.data config) (wire question.name)) := replyTo_queued config domain question.qtype 1
    have nodata := @replyTo_nodata (paramsOf query.data config) (wire question.name) question.qtype config domain placed.inside ns
    rw [internet, authoritative]
    rw [authoritative] at perm has queued nodata
    refine ⟨rfl, ?_, ?_, fun t plain => perm plain, fun record member plain => ?_, fun nothing => ?_⟩
    · exact (replyHeader_rcode query.data true (show rcodeNoerror.toNat < 16 by decide)).2
    · exact (replyHeader_flags query.data true rcodeNoerror).2.2.2
    · rcases mem_message member with opt | ⟨rr, written, rfl⟩
      · rw [opt] at plain
        exact absurd (show typeOpt ∈ madeTypes by decide) plain
      · exact (emitQueues_has queued has clock rr written).resolve_left plain
    · have unanswered : queues.answers = [] :=
        (section_eq_nil_iff clock fun rr inside =>
          (queued rr (List.mem_append_left _ (List.mem_append_left _ inside))).typ_ne.1).mp (List.map_eq_nil_iff.mp nothing)
      obtain ⟨types, same⟩ := nodata unanswered
      change queues = _ at same
      subst same
      obtain ⟨rr, written, key⟩ := nodata_soa queued clock
      obtain ⟨owner, typ⟩ := Prod.mk.inj key
      refine ⟨rr.record question.name, ?_, typ, ?_⟩
      · exact List.mem_map_of_mem written
      · exact (fold_ownerName owner question.name).trans (fold_fold _)
  · next other =>
    have refused : replyTo config (paramsOf query.data config) (wire question.name) domain question.qtype question.qclass =
        .error rcodeRefused := by
      by_cases internet : question.qclass = 1
      · have outside : inZone domain config.glueName = false := by
          rw [← Bool.not_eq_true, boundary]
          exact fun inside => other ⟨internet, inside⟩
        exact replyTo_refused outside fun asked => by rw [version] at asked; cases asked.2.1
      · exact if_pos internet
    rw [refused]
    refine ⟨rfl, ?_, ?_, fun record member => ?_⟩
    · exact (replyHeader_rcode query.data false (show rcodeRefused.toNat < 16 by decide)).2
    · exact (replyHeader_flags query.data false rcodeRefused).2.2.2
    · rcases mem_message member with opt | ⟨_, none, _⟩
      · exact opt
      · cases none

end Messages

theorem speaks_for_zone_sample :
    ∃ response msg, handleQueryInternal (fun _ => some 0) sampleQuery sampleSignedConfig = .ok response ∧
      decode response = some msg ∧ (virtualZone sampleSignedConfig).Speaks sampleQuestion msg :=
  speaks_for_zone _ sampleQuery_standard sampleConfig_legalHosts (by decide) (List.cons_ne_nil _ _) (by decide +kernel)
    (by decide +kernel) (by decide +kernel) (by decide +kernel)

end RustyAlias
