import RustyAlias.Soundness.Signatures
import RustyAlias.Soundness.ZoneBoundary
import RustyAlias.Spec.Contents

/-! # The zone key signs names of the zone

Every queued record belongs to the question, to the zone or to a nameserver below it, and a question is
answered with authority when it lies in the zone. The version names are the exception: they are
answered, and signed, wherever they lie.
-/

namespace RustyAlias

open Rust Rust.Outcome Dns

/-- The owner is the question or a host name at or below the zone. -/
def Rr.Inside (params : ZoneParams) (rr : Rr) : Prop :=
  rr.owner = .question ∨ ∃ host, rr.owner = .name host ∧ Below (trimmed host) (trimmed params.zone)

section Owners

variable {params : ZoneParams} {qname : Bytes}

private theorem optional_inside {α : Type} (value : Option α) {record : α → Rr} (each : ∀ value, (record value).owner = .question) :
    ∀ rr ∈ (value.map record).toList, rr.Inside params := by
  intro rr member
  obtain ⟨inner, _, rfl⟩ := by simpa only [Option.mem_toList, Option.map_eq_some_iff] using member
  exact .inl (each inner)

private theorem keyed_inside {records : DnssecKey → List Rr} (each : ∀ key, ∀ rr ∈ records key, rr.owner = .question) :
    ∀ rr ∈ (params.dnssec.map records).getD [], rr.Inside params := by
  cases params.dnssec with
  | none => simp
  | some key => exact fun rr member => .inl (each key rr member)

private theorem nsRrs_inside : ∀ rr ∈ nsRrs params, rr.Inside params := fun rr member => .inl (nsRrs_typ rr member).1

private theorem glueRrs_inside : ∀ rr ∈ glueRrs params, rr.Inside params := by
  intro rr member
  obtain ⟨name, _, member⟩ := List.mem_flatMap.mp member
  unfold glueOf at member
  split at member
  · next below =>
    rcases List.mem_cons.mp member with rfl | member
    · exact .inr ⟨name, rfl, below⟩
    · obtain ⟨ip, _, rfl⟩ := by simpa only [Option.mem_toList, Option.map_eq_some_iff] using member
      exact .inr ⟨name, rfl, below⟩
  · cases member

private theorem answers_inside {rrs : List Rr} (each : ∀ rr ∈ rrs, rr.Inside params) :
    Queues.All (Rr.Inside params) ⟨rrs, [], []⟩ :=
  Queues.all_mk each (by simp) (by simp)

private theorem nodataQueues_inside (types : List UInt16) : (nodataQueues params qname types).All (Rr.Inside params) := by
  refine Queues.all_mk (by simp) ?_ (by simp)
  intro rr member
  rcases List.mem_cons.mp member with rfl | member
  · exact .inr ⟨params.zone, rfl, .inl rfl⟩
  · split at member
    · rw [List.mem_singleton.mp member]
      exact .inl rfl
    · cases member

private theorem apexOr_inside {rrs : List Rr} (each : ∀ rr ∈ rrs, rr.Inside params) :
    (apexOr params qname rrs).All (Rr.Inside params) := by
  unfold apexOr
  split
  · exact nodataQueues_inside _
  · exact answers_inside each

private theorem apexQueues_inside (qtype : UInt16) : (apexQueues params qname qtype).All (Rr.Inside params) := by
  have one (rr : Rr) (owner : rr.owner = .question) : ∀ other ∈ [rr], other.Inside params := by
    intro other member
    rw [List.mem_singleton.mp member]
    exact .inl owner
  have keyed (record : DnssecKey → Rr) (each : ∀ key, (record key).owner = .question) :
      ∀ rr ∈ (params.dnssec.map fun key => [record key]).getD [], rr.Inside params :=
    keyed_inside fun key rr member => by rw [List.mem_singleton.mp member]; exact each key
  have ip6 : ∀ rr ∈ (params.glueIp6.map (aaaaRr .question)).toList, rr.Inside params := optional_inside _ fun _ => rfl
  have spf : ∀ rr ∈ (params.spf.map txtRr).toList, rr.Inside params := optional_inside _ fun _ => rfl
  unfold apexQueues
  dsimp only
  split_ifs
  · exact Queues.all_mk (one _ rfl) nsRrs_inside glueRrs_inside
  · exact Queues.all_mk nsRrs_inside (by simp) glueRrs_inside
  · exact answers_inside (one _ rfl)
  · exact apexOr_inside ip6
  · exact apexOr_inside spf
  · exact apexOr_inside (keyed _ fun _ => rfl)
  · exact apexOr_inside (keyed _ fun _ => rfl)
  · exact apexOr_inside (keyed _ fun _ => rfl)
  · exact apexOr_inside (keyed _ fun _ => rfl)
  · refine Queues.all_mk (fun rr member => ?_) (by simp) glueRrs_inside
    simp only [List.mem_append] at member
    rcases member with ((((member | member) | member) | member) | member) | member
    · exact one _ rfl rr member
    · exact nsRrs_inside rr member
    · exact one _ rfl rr member
    · exact ip6 rr member
    · exact spf rr member
    · exact keyed_inside (fun key => by simp [dnskeyRr, cdsRr, cdnskeyRr]) rr member
  · exact nodataQueues_inside _

private theorem addressQueues_inside (qtype : UInt16) (ip : Option Ipv4Addr × Option Ipv6Addr) :
    (addressQueues params qname qtype ip).All (Rr.Inside params) := by
  unfold addressQueues
  split
  · exact nodataQueues_inside _
  · refine answers_inside fun rr member => ?_
    rcases List.mem_append.mp member with member | member
    · exact optional_inside _ (fun _ => rfl) rr member
    · exact optional_inside _ (fun _ => rfl) rr member

/-- No record is queued for an owner outside the zone, the question apart. -/
theorem replyTo_queues_inside (config : Config) (domain : Str) (qtype qclass : UInt16) :
    (replyTo config params qname domain qtype qclass).queues.All (Rr.Inside params) := by
  have refused : (Reply.error rcodeRefused).queues.All (Rr.Inside params) := Queues.all_mk (by simp) (by simp) (by simp)
  have txt (value : Str) : Queues.All (Rr.Inside params) ⟨[txtRr value], [], []⟩ :=
    answers_inside fun rr member => by rw [List.mem_singleton.mp member]; exact .inl rfl
  unfold replyTo
  split_ifs
  · exact refused
  · exact refused
  · exact txt _
  · exact nodataQueues_inside _
  · exact refused
  · exact txt _
  · exact nodataQueues_inside _
  · exact apexQueues_inside qtype
  · exact addressQueues_inside qtype _
  · cases addressOf (domain.split dot) with
    | none => exact nodataQueues_inside _
    | some ip => exact addressQueues_inside qtype ip

end Owners

/-- The signature names the zone as its signer, and its owner is the zone or a name below it. -/
def SignedInside (zone : Str) (qname : Name) (rr : Rr) : Prop :=
  (∃ fields signature, fields.length = 18 ∧ signature.length = 64 ∧ rr.rdata = fields ++ encodeDomainName zone ++ signature) ∧
    fold (hostLabels zone) <:+ fold (ownerName qname rr.owner)

/-- A TXT or ANY query with DO bit for a version name outside the zone. -/
def VersionOutside (query : Slice) (config : Config) : Prop :=
  opcode query = 0 ∧ queryDnssecOk query = .ok true ∧ ∃ domain qtype, parseQuery query = .ok (some domain) ∧
    parseQtypeQclass query = .ok (some (qtype, classIn)) ∧ (qtype = typeTxt ∨ qtype = typeAny) ∧
    isVersionQuery domain = true ∧ isInZone domain config.glueName = .ok false

section Signatures

variable {params : ZoneParams} {qname : Bytes}

private theorem rrsigRr_rdata {head : Rr} (small : (ownerWire qname head.owner).length ≤ 2 ^ 63 + 1) (key : DnssecKey)
    (reading : ClockReading) (rdatas : List Bytes) :
    ∃ fields signature, fields.length = 18 ∧ signature.length = 64 ∧
      (rrsigRr params qname key reading head rdatas).rdata = fields ++ encodeDomainName params.zone ++ signature := by
  obtain ⟨labels, signed⟩ := signRrsig_eq key reading small head.typ head.ttl rdatas params.zone
  refine ⟨_, _, ?_, ?_, signed⟩
  · rfl
  · exact Vector.length_toList ..

/-- The suffix test of the source, on labels. -/
theorem suffix_of_below {host zone : Str} (some : trimmed zone ≠ []) (below : Below (trimmed host) (trimmed zone)) :
    fold (hostLabels zone) <:+ fold (hostLabels host) := by
  obtain ⟨_, front, _, labels⟩ := (inZone_iff host zone).mp (decide_eq_true ⟨some, below⟩)
  exact ⟨front, labels.symm⟩

/-- Signatures over records inside the zone are inside the zone. -/
theorem emitQueues_signedInside {labels : Name} {queues : Queues} (queued : queues.All (Queued params qname))
    (inside : queues.All (Rr.Inside params)) (some : trimmed params.zone ≠ [])
    (small : ∀ rr : Rr, rr.InMemory → (ownerWire qname rr.owner).length ≤ 2 ^ 63 + 1)
    (question : fold (hostLabels params.zone) <:+ fold labels) (clock : Clock) :
    (emitQueues params qname clock queues).All fun rr => rr.typ = typeRrsig → SignedInside params.zone labels rr := by
  have both : queues.All fun rr => Queued params qname rr ∧ rr.Inside params :=
    fun rr member => ⟨queued rr member, inside rr member⟩
  refine emitQueues_all both (fun head _ first _ signature => absurd signature first.1.typ_ne.1)
    fun head first key reading rdatas _ => ⟨rrsigRr_rdata (small head first.1.inMemory) key reading rdatas, ?_⟩
  rcases first.2 with owner | ⟨host, owner, below⟩
  · simpa only [rrsigRr, ownerName, owner] using question
  · simpa only [rrsigRr, ownerName, owner, fold_fold] using suffix_of_below some below

/-- A record that is queued alone is written with its signature. -/
theorem emitQueues_answer (clock : Clock) (rr : Rr) : emitQueues params qname clock ⟨[rr], [], []⟩ =
    ⟨rr :: ((params.signer rr.typ).map fun key => rrsigRr params qname key clock.head rr [rr.rdata]).toList, [], []⟩ := by
  simp [emitQueues, rrsets, List.runs_singleton, emitSets, emitSet]

end Signatures

section Question

variable {query : Slice} {config : Config} {domain : Str} {qtype qclass : UInt16}

/-- What is written in reply to a question in the zone is signed inside the zone. -/
theorem signedInside_of_inZone (clock : Clock) (parsed : parseQuery query = .ok (some domain))
    (free : ∀ label ∈ questionLabels query.data, 46 ∉ label)
    (inside : inZone domain config.glueName = true) :
    (emitQueues (paramsOf query.data config) (qnameOf query.data) clock (replyTo config (paramsOf query.data config)
      (qnameOf query.data) domain qtype qclass).queues).All
        fun rr => rr.typ = typeRrsig → SignedInside config.glueName (questionLabels query.data) rr := by
  obtain ⟨_, labels, left, _, walked, _, spelled, _⟩ := parseQuery_walk parsed
  have same : questionLabels query.data = labels := by rw [questionLabels, walked]; rfl
  have nonempty : ∀ label ∈ labels, label ≠ [] := by
    rintro label member rfl
    exact absurd ((encode_of_walkLabels? walked).2.1 _ member).nonempty (by simp)
  have zone : trimmed config.glueName ≠ [] := ((inZone_iff domain config.glueName).mp inside).1
  rw [same] at free ⊢
  have suffix := suffix_of_inZone spelled nonempty zone inside fun label member => free label (List.mem_of_mem_drop member)
  have small (rr : Rr) (inMemory : rr.InMemory) : (ownerWire (qnameOf query.data) rr.owner).length ≤ 2 ^ 63 + 1 :=
    ownerWire_qnameOf_le query inMemory
  have queued : (replyTo config (paramsOf query.data config) (qnameOf query.data) domain qtype qclass).queues.All
      (Queued (paramsOf query.data config) (qnameOf query.data)) := replyTo_queued config domain qtype qclass
  have owners : (replyTo config (paramsOf query.data config) (qnameOf query.data) domain qtype qclass).queues.All
      (Rr.Inside (paramsOf query.data config)) := replyTo_queues_inside config domain qtype qclass
  exact emitQueues_signedInside queued owners zone small suffix clock

/-- The answer about a version name outside the zone is signed by the zone key when the query has the DO bit. -/
theorem signedInside_version_iff (clock : Clock) {key : DnssecKey} (keyed : config.dnssec = some key)
    (zone : trimmed config.glueName ≠ []) (parsed : parseQuery query = .ok (some domain))
    (outside : inZone domain config.glueName = false) {answer : Rr} (owner : answer.owner = .question)
    (plain : answer.typ ≠ typeRrsig) :
    ((emitQueues (paramsOf query.data config) (qnameOf query.data) clock ⟨[answer], [], []⟩).All
      fun rr => rr.typ = typeRrsig → SignedInside config.glueName (questionLabels query.data) rr) ↔
        (queryOpt? query.data).any Prod.snd = false := by
  obtain ⟨_, labels, left, _, walked, _, spelled, _⟩ := parseQuery_walk parsed
  have same : questionLabels query.data = labels := by rw [questionLabels, walked]; rfl
  have nonempty : ∀ label ∈ labels, label ≠ [] := by
    rintro label member rfl
    exact absurd ((encode_of_walkLabels? walked).2.1 _ member).nonempty (by simp)
  rw [emitQueues_answer, same]
  cases dnssecOk : (queryOpt? query.data).any Prod.snd with
  | false =>
    have unsigned : (paramsOf query.data config).signer answer.typ = none := by
      simp [ZoneParams.signer, paramsOf, zoneParams, dnssecOk]
    rw [unsigned]
    refine iff_of_true (Queues.all_mk ?_ (by simp) (by simp)) rfl
    intro rr member signature
    obtain rfl : rr = answer := by simpa using member
    exact absurd signature plain
  | true =>
    rw [paramsOf_signer dnssecOk keyed answer.typ plain]
    refine iff_of_false (fun all => ?_) (by simp)
    have suffix := (all (rrsigRr (paramsOf query.data config) (qnameOf query.data) key clock.head answer [answer.rdata])
      (by simp) rfl).2
    simp only [rrsigRr, ownerName, owner] at suffix
    rw [inZone_of_suffix spelled nonempty zone suffix] at outside
    cases outside

end Question

/-- With a key, every signature in the response stays inside the zone, unless the query has the DO bit and asks for a
version name outside the zone. -/
theorem signatures_inside_iff (clock : Clock) {query : Slice} {config : Config} {key : DnssecKey}
    (keyed : config.dnssec = some key) (zone : hostLabels config.glueName ≠ [])
    (free : ∀ label ∈ questionLabels query.data, 46 ∉ label) :
    ∃ records, Carries clock query config records ∧
      ((records.All fun rr => rr.typ = typeRrsig → SignedInside config.glueName (questionLabels query.data) rr) ↔
        ¬ VersionOutside query config) := by
  have nothing {property : Rr → Prop} : Queues.All property ⟨[], [], []⟩ := Queues.all_mk (by simp) (by simp) (by simp)
  by_cases read : opcode query = 0 ∧ ∃ domain qtype qclass, parseQuery query = .ok (some domain) ∧
      parseQtypeQclass query = .ok (some (qtype, qclass))
  · obtain ⟨standard, domain, qtype, qclass, parsed, typed⟩ := read
    have answered := reply_of_question standard parsed typed config
    refine ⟨_, carries_of_reply clock answered, ?_⟩
    have some : trimmed config.glueName ≠ [] := fun none => zone (if_pos none)
    have test := isInZone_config config domain
    cases inside : inZone domain config.glueName with
    | true =>
      refine iff_of_true (signedInside_of_inZone clock parsed free inside) ?_
      rintro ⟨_, _, other, _, parsed', _, _, _, outside⟩
      obtain rfl : domain = other := by simpa [parsed] using parsed'
      rw [test, inside] at outside
      cases outside
    | false =>
      by_cases version : qclass = 1 ∧ isVersionQuery domain = true ∧ (qtype = typeTxt ∨ qtype = typeAny)
      · obtain ⟨rfl, version, asked⟩ := version
        rw [contentsOf, replyTo_version version asked]
        have outside : VersionOutside query config ↔ (queryOpt? query.data).any Prod.snd = true := by
          rw [VersionOutside, queryDnssecOk_eq]
          refine ⟨fun ⟨_, dnssecOk, _⟩ => Except.ok.inj dnssecOk, fun dnssecOk => ?_⟩
          exact ⟨standard, by rw [dnssecOk], domain, qtype, parsed, typed, asked, version, by rw [test, inside]⟩
        rw [outside, Bool.not_eq_true]
        exact signedInside_version_iff clock keyed some parsed inside rfl (by simp [txtRr]; decide)
      · rw [contentsOf, replyTo_refused inside version]
        refine iff_of_true nothing ?_
        rintro ⟨_, _, other, _, parsed', typed', asked, named, _⟩
        obtain rfl : domain = other := by simpa [parsed] using parsed'
        obtain ⟨rfl, rfl⟩ : qtype = _ ∧ qclass = classIn := by simpa [typed] using typed'
        exact version ⟨rfl, named, asked⟩
  · have unread : ¬ VersionOutside query config := by
      rintro ⟨standard, _, domain, qtype, parsed, typed, _⟩
      exact read ⟨standard, domain, qtype, _, parsed, typed⟩
    exact ⟨_, carries_nothing clock config read, iff_of_true nothing unread⟩

/-- A TXT query for `version` whose OPT record has the DO bit set. -/
def versionQuery : Slice where
  data := [0, 7, 1, 0, 0, 1, 0, 0, 0, 0, 0, 1] ++ [7, 118, 101, 114, 115, 105, 111, 110, 0] ++ be16 typeTxt ++ be16 classIn ++
    [0, 0, 41, 4, 208, 0, 0, 128, 0, 0, 0]
  length_le := by decide +kernel

theorem sampleSignatures_inside :
    ∃ records, Carries (fun _ => some 0) sampleQuery sampleSignedConfig records ∧
      ((records.All fun rr => rr.typ = typeRrsig → SignedInside sampleSignedConfig.glueName (questionLabels sampleQuery.data) rr)
        ↔ ¬ VersionOutside sampleQuery sampleSignedConfig) :=
  have keyed : sampleSignedConfig.dnssec = some sampleKey := rfl
  signatures_inside_iff _ keyed (by decide +kernel) (by decide +kernel)

/-- The zone `nip.nu` signs a TXT record of the name `version`. -/
theorem versionQuery_signedOutside :
    ∃ response msg rr rrsig, handleQueryInternal (fun _ => some 0) versionQuery sampleSignedConfig = .ok response ∧
      decode response = some msg ∧ rr ∈ msg.answers ∧ rr.rtype = typeRrsig ∧ readRrsig rr.rdata = some rrsig ∧
      ¬ rrsig.signer <:+ fold rr.owner := by
  have found : ((handleQueryInternal (fun _ => some 0) versionQuery sampleSignedConfig).toOption.bind decode).any fun msg =>
      msg.answers.any fun rr => rr.rtype == typeRrsig && (readRrsig rr.rdata).any fun rrsig =>
        decide (¬ rrsig.signer <:+ fold rr.owner) := by decide +kernel
  cases returned : handleQueryInternal (fun _ => some 0) versionQuery sampleSignedConfig with
  | error panic => rw [returned] at found; cases found
  | ok response =>
    rw [returned] at found
    obtain ⟨msg, decoded, found⟩ := (Option.any_eq_true ..).mp found
    obtain ⟨rr, member, found⟩ := List.any_eq_true.mp found
    rw [Bool.and_eq_true, beq_iff_eq] at found
    obtain ⟨rrsig, read, outside⟩ := (Option.any_eq_true ..).mp found.2
    exact ⟨response, msg, rr, rrsig, rfl, decoded, member, found.1, read, of_decide_eq_true outside⟩

end RustyAlias
