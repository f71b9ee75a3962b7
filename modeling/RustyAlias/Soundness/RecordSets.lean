import RustyAlias.Model.Environment
import RustyAlias.Proofs.Dispatch
import RustyAlias.Proofs.RecordSets

/-! # Which responses consist of sets

An RRset is a set, and is signed as one. The list of nameservers is taken from the environment as it
stands, repetitions included, and they appear wherever the nameservers are listed.
-/

namespace RustyAlias

open Rust Rust.Outcome Dns

def Queues.sections (queues : Queues) : List (List Rr) := [queues.answers, queues.authority, queues.additional]

/-- No section has a record twice, and with a key and the DO bit each RRset of a section has one signature. -/
def ConsistsOfSets (query : Slice) (config : Config) (records : Queues) : Prop :=
  (∀ rrs ∈ records.sections, Unrepeated (qnameOf query.data) rrs) ∧
    (config.dnssec.isSome = true → queryDnssecOk query = .ok true →
      ∀ rrs ∈ records.sections, SignedOnce (qnameOf query.data) rrs)

/-- The query asks about the zone itself, for SOA, NS or ANY. -/
def AsksNameservers (query : Slice) (config : Config) : Prop :=
  opcode query = 0 ∧ ∃ domain qtype qclass, parseQuery query = .ok (some domain) ∧
    parseQtypeQclass query = .ok (some (qtype, qclass)) ∧ ListsNs config domain qtype qclass

section Wires

/-- Parts that carry their lengths are told apart, if these fit an octet. -/
theorem encodeLabels_inj {a b : Name} (short : ∀ label ∈ a, label.length < 256) (short' : ∀ label ∈ b, label.length < 256)
    (same : encodeLabels a = encodeLabels b) : a = b := by
  induction a generalizing b with
  | nil =>
    cases b with
    | nil => rfl
    | cons y ys => cases same
  | cons x xs ih =>
    cases b with
    | nil => cases same
    | cons y ys =>
      simp only [encodeLabels, List.flatMap_cons, List.cons_append, List.cons.injEq, ← UInt8.toNat_inj,
        UInt8.toNat_ofNat'] at same
      have small := short x (List.mem_cons_self ..)
      have small' := short' y (List.mem_cons_self ..)
      obtain ⟨rfl, rest⟩ := List.append_inj same.2 (by omega)
      rw [ih (fun label member => short label (List.mem_cons_of_mem _ member))
        (fun label member => short' label (List.mem_cons_of_mem _ member)) rest]

private theorem encodeDomainName_eq_iff {a b : Str} (short : ∀ label ∈ hostLabels a, label.length < 256)
    (short' : ∀ label ∈ hostLabels b, label.length < 256) :
    encodeDomainName a = encodeDomainName b ↔ lowerAll (trimmed a) = lowerAll (trimmed b) := by
  have folded {name : Name} (short : ∀ label ∈ name, label.length < 256) : ∀ label ∈ fold name, label.length < 256 := by
    intro label member
    obtain ⟨inner, inside, rfl⟩ := List.mem_map.mp member
    rw [lowerAll_length]
    exact short inner inside
  rw [encodeDomainName_eq, encodeDomainName_eq, wire, wire, List.append_cancel_right_eq, ← fold_hostLabels_eq_iff]
  exact ⟨encodeLabels_inj (folded short) (folded short'), fun same => by rw [same]⟩

/-- With labels below 256 octets the wire forms differ when the names do, up to case and trailing dots. -/
theorem distinctWires_iff {names : List Str} (short : ∀ name ∈ names, ∀ label ∈ hostLabels name, label.length < 256) :
    DistinctWires names ↔ DistinctHosts names := by
  refine ⟨DistinctWires.distinctHosts, fun distinct => List.pairwise_map.mpr ?_⟩
  refine distinct.imp_of_mem fun {a b} first second differ same => differ ?_
  exact (encodeDomainName_eq_iff (short a first) (short b second)).mp same

end Wires

section Sections

variable {params : ZoneParams} {qname : Bytes} {queues : Queues}

/-- The sections of a crisp reply consist of sets. -/
theorem emitQueues_unrepeated (clock : Clock)
    (separate : ∀ rrs ∈ queues.sections, Separate qname (rrsets rrs)) :
    ∀ rrs ∈ (emitQueues params qname clock queues).sections, Unrepeated qname rrs := by
  simp only [Queues.sections, List.forall_mem_cons, List.not_mem_nil, false_imp_iff, implies_true, and_true] at separate ⊢
  exact ⟨emitSets_unrepeated separate.1, emitSets_unrepeated separate.2.1, emitSets_unrepeated separate.2.2⟩

private theorem emitQueues_signedOnce (clock : Clock) (separate : ∀ rrs ∈ queues.sections, Separate qname (rrsets rrs))
    (signed : ∀ typ, typ ≠ typeRrsig → ∃ key, params.signer typ = some key) :
    ∀ rrs ∈ (emitQueues params qname clock queues).sections, SignedOnce qname rrs := by
  simp only [Queues.sections, List.forall_mem_cons, List.not_mem_nil, false_imp_iff, implies_true, and_true] at separate ⊢
  exact ⟨emitSets_signedOnce separate.1 signed, emitSets_signedOnce separate.2.1 signed, emitSets_signedOnce separate.2.2 signed⟩

end Sections

section Replies

variable {query : Slice} {config : Config} {domain : Str} {qtype qclass : UInt16}

/-- What a reply queues, when no nameservers are listed or all differ in their wire form. -/
theorem replyTo_separate (query : Slice) (config : Config) (domain : Str) (qtype qclass : UInt16)
    (distinct : ListsNs config domain qtype qclass → DistinctWires config.nsNames) :
    ∀ rrs ∈ (replyTo config (paramsOf query.data config) (qnameOf query.data) domain qtype qclass).queues.sections,
      Separate (qnameOf query.data) (rrsets rrs) := by
  have queued : (replyTo config (paramsOf query.data config) (qnameOf query.data) domain qtype qclass).queues.All
      (Queued (paramsOf query.data config) (qnameOf query.data)) := replyTo_queued config domain qtype qclass
  have setWise : (replyTo config (paramsOf query.data config) (qnameOf query.data) domain qtype qclass).queues.SetWise [] :=
    replyTo_setWise config domain qtype qclass fun lists => (distinct lists).distinctHosts
  have crisp : (replyTo config (paramsOf query.data config) (qnameOf query.data) domain qtype qclass).queues.Crisp
      (qnameOf query.data) := replyTo_crisp config domain qtype qclass distinct
  have separate {rrs : List Rr} (crisp : Crisp (qnameOf query.data) rrs) (setWise : SetWise [] rrs)
      (each : ∀ rr ∈ rrs, Queued (paramsOf query.data config) (qnameOf query.data) rr) :
      Separate (qnameOf query.data) (rrsets rrs) :=
    crisp.separate setWise (fun rr member => (each rr member).typ_ne.1)
      fun rr member => ownerWire_qnameOf_le query (each rr member).inMemory
  simp only [Queues.sections, List.forall_mem_cons, List.not_mem_nil, false_imp_iff, implies_true, and_true]
  exact ⟨separate crisp.answers setWise.answers fun rr member => queued rr (by simp [member]),
    separate crisp.authority setWise.authority fun rr member => queued rr (by simp [member]),
    separate crisp.additional setWise.additional fun rr member => queued rr (by simp [member])⟩

/-- The queues that list nameservers list all of them in one section. -/
theorem replyTo_listsNs {params : ZoneParams} {octets : Bytes} (lists : ListsNs config domain qtype qclass) :
    replyTo config params octets domain qtype qclass = .authoritative params (apexQueues params octets qtype) := by
  obtain ⟨rfl, inside, version, apex, _⟩ := lists
  have zone : trimmed config.glueName ≠ [] := (of_decide_eq_true inside).1
  unfold replyTo
  rw [if_neg (not_not.mpr rfl), inside, version, dmarcOwner_of_apex apex zone, apex]
  simp

/-- A reply that lists nameservers of one wire form repeats a record. -/
theorem distinctWires_of_listsNs (lists : ListsNs config domain qtype qclass) (clock : Clock)
    (unrepeated : ∀ rrs ∈ (contentsOf clock query.data (paramsOf query.data config) (replyTo config
      (paramsOf query.data config) (qnameOf query.data) domain qtype qclass)).records.sections,
        Unrepeated (qnameOf query.data) rrs) :
    DistinctWires config.nsNames := by
  have queued : (apexQueues (paramsOf query.data config) (qnameOf query.data) qtype).All
      (Queued (paramsOf query.data config) (qnameOf query.data)) := apexQueues_queued qtype
  have listed : Unrepeated (qnameOf query.data) (nsRrs (paramsOf query.data config)) → DistinctWires config.nsNames :=
    distinctWires_of_unrepeated
  unfold contentsOf at unrepeated
  dsimp only at unrepeated
  rw [replyTo_listsNs lists, Reply.authoritative] at unrepeated
  simp only [Queues.sections, List.forall_mem_cons, List.not_mem_nil, false_imp_iff, implies_true, and_true] at unrepeated
  obtain ⟨answers, authority, _⟩ := unrepeated
  rcases lists.2.2.2.2 with rfl | rfl | rfl
  · exact listed (unrepeated_of_written _ (fun rr member => (nsRrs_typ rr member).1)
      (fun rr member => queued rr (List.mem_append_left _ (List.mem_append_right _ member))) authority)
  · exact listed (unrepeated_of_written _ (fun rr member => (nsRrs_typ rr member).1)
      (fun rr member => queued rr (List.mem_append_left _ (List.mem_append_left _ member))) answers)
  · have whole := unrepeated_of_written _ (fun rr member => ?_)
      (fun rr member => queued rr (List.mem_append_left _ (List.mem_append_left _ member))) answers
    · rw [apexQueues_any] at whole
      exact listed ((List.pairwise_flatMap.mp whole).1 (typeNs, nsRrs _) (by simp [apexSets]))
    · rw [apexQueues_any] at member
      exact (apexSets_sorted.mem member).1

end Replies

/-- A response consists of sets exactly when it lists no nameservers or these differ in their wire form: for names of
labels below 256 octets, when no two are equal up to case and trailing dots. -/
theorem consistsOfSets_iff (clock : Clock) (query : Slice) {config : Config} {raw : Option Str}
    (parsed : config.nsNames = parseNsNames raw config.soaName) :
    ∃ records, Carries clock query config records ∧
      (ConsistsOfSets query config records ↔
        (AsksNameservers query config → DistinctWires (parseNsNames raw config.soaName))) ∧
      ((∀ name ∈ parseNsNames raw config.soaName, ∀ label ∈ hostLabels name, label.length < 256) →
        (DistinctWires (parseNsNames raw config.soaName) ↔ DistinctHosts (parseNsNames raw config.soaName))) := by
  rw [← parsed]
  by_cases read : opcode query = 0 ∧ ∃ domain qtype qclass, parseQuery query = .ok (some domain) ∧
      parseQtypeQclass query = .ok (some (qtype, qclass))
  · obtain ⟨standard, domain, qtype, qclass, name, typed⟩ := read
    refine ⟨_, .inr ⟨_, rfl, contents_of_question standard name typed clock config⟩, ⟨?_, fun distinct => ?_⟩, distinctWires_iff⟩
    · rintro ⟨unrepeated, _⟩ ⟨_, domain', qtype', qclass', name', typed', lists⟩
      obtain rfl : domain = domain' := Option.some.inj (Except.ok.inj (name.symm.trans name'))
      obtain ⟨rfl, rfl⟩ : qtype = qtype' ∧ qclass = qclass' := by simpa using typed.symm.trans typed'
      exact distinctWires_of_listsNs lists clock unrepeated
    · have separate := replyTo_separate query config domain qtype qclass fun lists =>
        distinct ⟨standard, domain, qtype, qclass, name, typed, lists⟩
      refine ⟨emitQueues_unrepeated clock separate, fun keyed dnssecOk => ?_⟩
      obtain ⟨key, keyed⟩ := Option.isSome_iff_exists.mp keyed
      exact emitQueues_signedOnce clock separate fun typ plain =>
        ⟨key, paramsOf_signer (doBit_of_dnssecOk dnssecOk) keyed typ plain⟩
  · refine ⟨_, carries_nothing clock config read, iff_of_true ?_ ?_, distinctWires_iff⟩
    · simp [ConsistsOfSets, Queues.sections, Unrepeated, SignedOnce]
    · rintro ⟨standard, domain, qtype, qclass, name, typed, _⟩
      exact absurd ⟨standard, domain, qtype, qclass, name, typed⟩ read

/-- `NS_NAMES` with a name twice, in two spellings. -/
def doubledNames : Str := .ofString "ns.se, NS.se."

def doubledConfig : Config := { sampleConfig with
  nsNames := parseNsNames (some doubledNames) sampleConfig.soaName
  inMemory := by decide +kernel }

private theorem doubledConfig_nsNames : doubledConfig.nsNames = parseNsNames (some doubledNames) doubledConfig.soaName := by
  unfold doubledConfig
  dsimp only

/-- An NS query for `nip.nu`. -/
def apexNsQuery : Slice where
  data := [0, 7, 1, 0, 0, 1, 0, 0, 0, 0, 0, 0] ++ [3, 110, 105, 112, 2, 110, 117, 0] ++ be16 typeNs ++ be16 classIn
  length_le := by decide +kernel

theorem doubledNames_sets :
    ∃ records, Carries (fun _ => some 0) apexNsQuery doubledConfig records ∧
      (ConsistsOfSets apexNsQuery doubledConfig records ↔ (AsksNameservers apexNsQuery doubledConfig →
        DistinctWires (parseNsNames (some doubledNames) doubledConfig.soaName))) ∧
      ((∀ name ∈ parseNsNames (some doubledNames) doubledConfig.soaName, ∀ label ∈ hostLabels name, label.length < 256) →
        (DistinctWires (parseNsNames (some doubledNames) doubledConfig.soaName) ↔
          DistinctHosts (parseNsNames (some doubledNames) doubledConfig.soaName))) :=
  consistsOfSets_iff _ apexNsQuery doubledConfig_nsNames

/-- An RRset with one record twice is written so. -/
theorem emitQueues_doubled {params : ZoneParams} {qname : Bytes} (unkeyed : params.dnssec = none) (clock : Clock) (rr : Rr) :
    emitQueues params qname clock ⟨[rr, rr], [], []⟩ = ⟨[rr, rr], [], []⟩ := by
  have sorted : [rr.rdata, rr.rdata].mergeSort = [rr.rdata, rr.rdata] :=
    List.mergeSort_of_pairwise (by simp)
  have signer (typ : UInt16) : params.signer typ = none := by
    rw [ZoneParams.signer, unkeyed]
    split <;> rfl
  have one : rrsets [rr, rr] = [[rr, rr]] := by
    simp [rrsets, List.runs, List.splitBy, List.splitBy.loop]
  simp only [emitQueues, one, emitSets, emitSet, List.map_cons, List.map_nil, sorted, signer]
  rfl

private theorem apexQueues_ns (params : ZoneParams) (qname : Bytes) :
    apexQueues params qname typeNs = ⟨nsRrs params, [], glueRrs params⟩ := rfl

/-- The record of both spellings. -/
def doubledRr : Rr := ⟨.question, typeNs, ttlRr, [2, 110, 115, 2, 115, 101, 0]⟩

/-- The two spellings are one record, twice. -/
theorem doubledNames_repeated :
    ∃ response msg, handleQueryInternal (fun _ => some 0) apexNsQuery doubledConfig = .ok response ∧
      decode response = some msg ∧ ¬ (msg.answers.map fun rr => (fold rr.owner, rr.rtype, rr.rdata)).Nodup := by
  have parsed : parseQuery apexNsQuery = .ok (some (.ofString "nip.nu")) := by decide +kernel
  have typed : parseQtypeQclass apexNsQuery = .ok (some (typeNs, classIn)) := by decide +kernel
  have standard : opcode apexNsQuery = 0 := by decide +kernel
  have lists : ListsNs doubledConfig (.ofString "nip.nu") typeNs classIn :=
    ⟨rfl, by decide +kernel, by decide +kernel, by decide +kernel, .inr (.inl rfl)⟩
  have replied : replyTo doubledConfig (paramsOf apexNsQuery.data doubledConfig) (qnameOf apexNsQuery.data) (.ofString "nip.nu")
      typeNs classIn = .authoritative (paramsOf apexNsQuery.data doubledConfig) ⟨[doubledRr, doubledRr], [], []⟩ := by
    have answers : nsRrs (paramsOf apexNsQuery.data doubledConfig) = [doubledRr, doubledRr] := by decide +kernel
    have glue : glueRrs (paramsOf apexNsQuery.data doubledConfig) = [] := by decide +kernel
    rw [replyTo_listsNs lists, apexQueues_ns, answers, glue]
  have opt : queryOpt? apexNsQuery.data = none := by decide +kernel
  have written : contentsOf (fun _ => some 0) apexNsQuery.data (paramsOf apexNsQuery.data doubledConfig)
      (.authoritative (paramsOf apexNsQuery.data doubledConfig) ⟨[doubledRr, doubledRr], [], []⟩) =
        ⟨⟨7, 0x85, 0, 1⟩, ⟨[doubledRr, doubledRr], [], []⟩, none⟩ := by
    have records : emitQueues (paramsOf apexNsQuery.data doubledConfig) (qnameOf apexNsQuery.data) (fun _ => some 0)
        ⟨[doubledRr, doubledRr], [], []⟩ = ⟨[doubledRr, doubledRr], [], []⟩ := emitQueues_doubled rfl _ _
    have opt : optOf apexNsQuery.data (paramsOf apexNsQuery.data doubledConfig).sign = none := by
      rw [optOf, opt]
      rfl
    exact congrArg₂ (Contents.mk ⟨7, 0x85, 0, 1⟩) records opt
  have repeated : (decode (Contents.response ⟨⟨7, 0x85, 0, 1⟩, ⟨[doubledRr, doubledRr], [], []⟩, none⟩
      apexNsQuery.data)).any fun msg => decide (¬ (msg.answers.map fun rr => (fold rr.owner, rr.rtype, rr.rdata)).Nodup) := by
    decide +kernel
  obtain ⟨msg, decoded, repeated⟩ := (Option.any_eq_true ..).mp repeated
  refine ⟨_, msg, contents_of_question standard parsed typed _ doubledConfig, ?_, of_decide_eq_true repeated⟩
  rw [replied, written]
  exact decoded

end RustyAlias
