import RustyAlias.Proofs.Dispatch
import RustyAlias.Proofs.Folding
import RustyAlias.Proofs.ServedTypes
import RustyAlias.Proofs.StandardQuery
import RustyAlias.Soundness.Signatures
import RustyAlias.Soundness.WellFormed

/-! # What NSEC records deny

The bitmap of an NSEC record lists the types that the server answers at the name, and NSEC and RRSIG.
So it denies no type that is served. It does not deny RRSIG, which no name answers, and NSEC, which only
the apex answers, so the denials of these types contradict themselves.
-/

namespace RustyAlias

open Rust Rust.Outcome Dns

/-- The types that an NSEC record in the response to a query lists, behind its next name `\000.<qname>`. -/
def listedTypes (query : Bytes) (nsec : Rr) : Option (List UInt16) := readTypes (nsec.rdata.drop (2 + (qnameOf query).length))

/-- If the response is a denial, that is has RCODE 0 and no answers, its NSEC record does not list the type. -/
def Denies (query : Bytes) (qtype : UInt16) (contents : Contents) : Prop :=
  contents.header.rcode = 0 → contents.records.answers = [] → ∀ nsec ∈ contents.records.authority, nsec.typ = typeNsec →
    ∃ types, listedTypes query nsec = some types ∧ qtype ∉ types

/-- The RDATA of an NSEC record is the next name and a bitmap of its types, NSEC and RRSIG. -/
theorem listedTypes_nsecRr (query : Slice) (params : ZoneParams) (types : List UInt16) {rr : Rr}
    (rdata : rr.rdata = (nsecRr params (qnameOf query.data) types).rdata) :
    ∃ listed, listedTypes query.data rr = some listed ∧ ∀ t, t ∈ listed ↔ t ∈ types ∨ t = typeNsec ∨ t = typeRrsig := by
  obtain ⟨bitmap, listed, written, read, same⟩ := nsecTypes_reads types
  have lowered := lowercaseWireName_returns (qnameOf_length_le query)
  have length := lowered.post_value
  refine ⟨listed, ?_, same⟩
  have octets : rr.rdata = ([1, 0] ++ (lowercaseWireName (qnameOf query.data)).value) ++ bitmap := by
    rw [rdata, nsecRr, nsecRdata, lowered.eq_ok, ok_bind, written]
    rfl
  have width : ([1, 0] ++ (lowercaseWireName (qnameOf query.data)).value).length = 2 + (qnameOf query.data).length := by
    rw [List.length_append, length]
    rfl
  rw [listedTypes, octets, ← width, List.drop_left, read]

section Names

variable {config : Config} {params params' : ZoneParams}

/-- The types of a name do not depend on the DO bit and the case of its letters. -/
theorem servedTypes_congr {domain domain' : Str} (same : lowerAll domain.bytes = lowerAll domain'.bytes)
    (small : domain.len ≤ isizeMax) (small' : domain'.len ≤ isizeMax) (apex : params.apexTypes = params'.apexTypes) :
    servedTypes config params domain = servedTypes config params' domain' := by
  simp only [servedTypes, isVersionQuery_congr same, namesEq_congr same, isConfiguredNs_congr same, inZone_congr same,
    addressOf_congr same small small', apex]

/-- An NSEC record is queued for names in the zone only. -/
theorem inZone_of_nsec {qname : Bytes} {domain : Str} {qtype qclass : UInt16} {rr : Rr}
    (member : rr ∈ (replyTo config params qname domain qtype qclass).queues.answers ++
      (replyTo config params qname domain qtype qclass).queues.authority ++
      (replyTo config params qname domain qtype qclass).queues.additional) (nsec : rr.typ = typeNsec) :
    inZone domain config.glueName = true := by
  cases inside : inZone domain config.glueName with
  | true => rfl
  | false =>
    by_cases version : qclass = 1 ∧ isVersionQuery domain = true ∧ (qtype = typeTxt ∨ qtype = typeAny)
    · obtain ⟨rfl, version, asked⟩ := version
      rw [replyTo_version version asked] at member
      obtain rfl : rr = txtRr (.ofString "RustyAlias v" ++ config.version) := by simpa [Reply.authoritative] using member
      exact absurd nsec (show typeTxt ≠ typeNsec by decide)
    · rw [replyTo_refused inside version] at member
      cases member

end Names

section Written

variable {query : Slice} {config : Config} {params : ZoneParams} {domain : Str} {qtype qclass : UInt16}

/-- Every NSEC record in the response to a question is about a name in the zone, and lists its types. -/
theorem listed_of_written (clock : Clock) {nsec : Rr} (typ : nsec.typ = typeNsec)
    (member : nsec ∈ (emitQueues params (qnameOf query.data) clock
        (replyTo config params (qnameOf query.data) domain qtype qclass).queues).answers ++
      (emitQueues params (qnameOf query.data) clock
        (replyTo config params (qnameOf query.data) domain qtype qclass).queues).authority ++
      (emitQueues params (qnameOf query.data) clock
        (replyTo config params (qnameOf query.data) domain qtype qclass).queues).additional) :
    inZone domain config.glueName = true ∧ ∃ listed, listedTypes query.data nsec = some listed ∧
      ∀ t, t ∈ listed ↔ t ∈ servedTypes config params domain ∨ t = typeNsec ∨ t = typeRrsig := by
  have queued : (replyTo config params (qnameOf query.data) domain qtype qclass).queues.All
      (Queued params (qnameOf query.data)) := replyTo_queued config domain qtype qclass
  have proves : Proves params (qnameOf query.data) (servedTypes config params domain)
      (replyTo config params (qnameOf query.data) domain qtype qclass).queues := replyTo_proves config domain qtype qclass
  obtain ⟨source, inside, nsecTyp, rdata⟩ := (mem_emitQueues_iff clock (queued.mono fun _ queued => queued.typ_ne.1)
    (show typeNsec ≠ typeRrsig by decide) nsec.rdata).mp ⟨nsec, member, typ, rfl⟩
  refine ⟨inZone_of_nsec inside nsecTyp, listedTypes_nsecRr query params _ ?_⟩
  rw [← rdata, proves source inside nsecTyp]

end Written

/-- An NSEC record lists a type exactly when the type is answered at the name. -/
theorem listed_iff_served (clock clock' : Clock) {query query' : Slice} {config : Config} (ns : config.nsNames ≠ [])
    {domain domain' : Str} {qtype qclass t : UInt16} (standard : opcode query = 0) (standard' : opcode query' = 0)
    (parsed : parseQuery query = .ok (some domain)) (parsed' : parseQuery query' = .ok (some domain'))
    (typed : parseQtypeQclass query = .ok (some (qtype, qclass)))
    (typed' : parseQtypeQclass query' = .ok (some (t, classIn)))
    (same : lowerAll domain.bytes = lowerAll domain'.bytes) (notNsec : t ≠ typeNsec) (notRrsig : t ≠ typeRrsig) :
    ∃ contents contents' : Contents, handleQueryInternal clock query config = .ok (contents.response query.data) ∧
      handleQueryInternal clock' query' config = .ok (contents'.response query'.data) ∧
      contents.records.All fun rr => rr.typ = typeNsec → ∃ types, listedTypes query.data rr = some types ∧
        (t ∈ types ↔ ∃ answer ∈ contents'.records.answers, answer.typ = t) := by
  refine ⟨_, _, contents_of_question standard parsed typed clock config,
    contents_of_question standard' parsed' typed' clock' config, fun nsec member typ => ?_⟩
  obtain ⟨inside, listed, read, all⟩ := listed_of_written clock typ member
  refine ⟨listed, read, ?_⟩
  have inside' : inZone domain' config.glueName = true := inZone_congr same config.glueName ▸ inside
  have queued : (replyTo config (paramsOf query'.data config) (qnameOf query'.data) domain' t classIn).queues.All
      (Queued (paramsOf query'.data config) (qnameOf query'.data)) := replyTo_queued config domain' t classIn
  have serves : (∃ rr ∈ (replyTo config (paramsOf query'.data config) (qnameOf query'.data) domain' t 1).queues.answers,
      rr.typ = t) ↔ t ∈ servedTypes config (paramsOf query'.data config) domain' :=
    replyTo_serves (.inl inside') notNsec fun _ => ns
  have apex (doBit doBit' : Bool) : (zoneParams config doBit).apexTypes = (zoneParams config doBit').apexTypes := rfl
  have types : servedTypes config (paramsOf query.data config) domain = servedTypes config (paramsOf query'.data config) domain' :=
    servedTypes_congr same (parseQuery_small parsed) (parseQuery_small parsed') (apex _ _)
  have written : (∃ answer ∈ (contentsOf clock' query'.data (paramsOf query'.data config) (replyTo config
      (paramsOf query'.data config) (qnameOf query'.data) domain' t classIn)).records.answers, answer.typ = t) ↔
      ∃ rr ∈ (replyTo config (paramsOf query'.data config) (qnameOf query'.data) domain' t 1).queues.answers, rr.typ = t := by
    have plain : ∀ rr ∈ (replyTo config (paramsOf query'.data config) (qnameOf query'.data) domain' t 1).queues.answers,
        rr.typ ≠ typeRrsig := fun rr inside => (queued rr (List.mem_append_left _ (List.mem_append_left _ inside))).typ_ne.1
    constructor
    · rintro ⟨answer, inside, typ⟩
      obtain ⟨rr, present, typ, _⟩ := (mem_section_iff clock' plain notRrsig answer.rdata).mp ⟨answer, inside, typ, rfl⟩
      exact ⟨rr, present, typ⟩
    · rintro ⟨rr, inside, typ⟩
      obtain ⟨answer, present, typ, _⟩ := (mem_section_iff clock' plain notRrsig rr.rdata).mpr ⟨rr, inside, typ, rfl⟩
      exact ⟨answer, present, typ⟩
  rw [written, serves, all, types]
  simp [notNsec, notRrsig]

/-- A query about `10-0-0-1.nip.nu` whose OPT record has the DO bit set. -/
def sampleTyped (qtype : UInt16) : Slice where
  data := [0, 7, 1, 0, 0, 1, 0, 0, 0, 0, 0, 1] ++ [8, 49, 48, 45, 48, 45, 48, 45, 49, 3, 110, 105, 112, 2, 110, 117, 0] ++
    be16 qtype ++ be16 classIn ++ [0, 0, 41, 4, 208, 0, 0, 128, 0, 0, 0]
  length_le := by
    change 44 ≤ isizeMax
    decide +kernel

theorem sampleTypes_listed :
    ∃ contents contents' : Contents,
      handleQueryInternal (fun _ => some 0) (sampleTyped typeAaaa) sampleSignedConfig =
        .ok (contents.response (sampleTyped typeAaaa).data) ∧
      handleQueryInternal (fun _ => some 0) sampleQuery sampleSignedConfig = .ok (contents'.response sampleQuery.data) ∧
      contents.records.All fun rr => rr.typ = typeNsec → ∃ types, listedTypes (sampleTyped typeAaaa).data rr = some types ∧
        (typeA ∈ types ↔ ∃ answer ∈ contents'.records.answers, answer.typ = typeA) :=
  have parsed : parseQuery (sampleTyped typeAaaa) = .ok (some (.ofString "10-0-0-1.nip.nu")) := by decide +kernel
  have parsed' : parseQuery sampleQuery = .ok (some (.ofString "10-0-0-1.nip.nu")) := by decide +kernel
  have typed : parseQtypeQclass (sampleTyped typeAaaa) = .ok (some (typeAaaa, classIn)) := by decide +kernel
  have typed' : parseQtypeQclass sampleQuery = .ok (some (typeA, classIn)) := by decide +kernel
  listed_iff_served _ _ (List.cons_ne_nil _ _) (by decide +kernel) (by decide +kernel) parsed parsed' typed typed' rfl
    (by decide) (by decide)

/-- No name answers RRSIG queries, and only the apex answers NSEC queries. -/
def Undenied (config : Config) (domain : Str) (qtype qclass : UInt16) : Prop :=
  qclass = classIn ∧ (qtype = typeRrsig ∨ qtype = typeNsec ∧
    (isVersionQuery domain = true ∨ namesEq domain config.glueName = false))

section Denial

variable {query : Slice} {config : Config} {domain : Str} {qtype : UInt16}

/-- The NSEC record of a signed denial is written. -/
theorem nsec_of_nodata (clock : Clock) (sign : (paramsOf query.data config).sign = true) {types : List UInt16}
    (nodata : (replyTo config (paramsOf query.data config) (qnameOf query.data) domain qtype classIn).queues =
      nodataQueues (paramsOf query.data config) (qnameOf query.data) types) :
    ∃ nsec ∈ (emitQueues (paramsOf query.data config) (qnameOf query.data) clock
      (replyTo config (paramsOf query.data config) (qnameOf query.data) domain qtype classIn).queues).authority,
      nsec.typ = typeNsec := by
  have queued : (replyTo config (paramsOf query.data config) (qnameOf query.data) domain qtype classIn).queues.All
      (Queued (paramsOf query.data config) (qnameOf query.data)) := replyTo_queued config domain qtype classIn
  have plain : ∀ rr ∈ (replyTo config (paramsOf query.data config) (qnameOf query.data) domain qtype classIn).queues.authority,
      rr.typ ≠ typeRrsig := fun rr inside =>
    (queued rr (List.mem_append_left _ (List.mem_append_right _ inside))).typ_ne.1
  have member : nsecRr (paramsOf query.data config) (qnameOf query.data) types ∈
      (replyTo config (paramsOf query.data config) (qnameOf query.data) domain qtype classIn).queues.authority := by
    rw [nodata, nodataQueues, sign]
    exact List.mem_cons_of_mem _ (List.mem_singleton_self _)
  have other : typeNsec ≠ typeRrsig := by decide
  obtain ⟨nsec, inside, typ, _⟩ := (mem_section_iff _ plain other _).mpr ⟨_, member, rfl, rfl⟩
  exact ⟨nsec, inside, typ⟩

/-- The types that no denial can deny are listed in it. -/
theorem listed_of_undenied (clock : Clock) (inside : inZone domain config.glueName = true)
    (sign : (paramsOf query.data config).sign = true) (undenied : Undenied config domain qtype classIn) :
    let contents := contentsOf clock query.data (paramsOf query.data config)
      (replyTo config (paramsOf query.data config) (qnameOf query.data) domain qtype classIn)
    contents.header.rcode = 0 ∧ contents.records.answers = [] ∧ ∃ nsec ∈ contents.records.authority,
      nsec.typ = typeNsec ∧ ∃ types, listedTypes query.data nsec = some types ∧ qtype ∈ types := by
  intro contents
  have nodata : replyTo config (paramsOf query.data config) (qnameOf query.data) domain qtype classIn = _ :=
    replyTo_denied inside undenied.2
  obtain ⟨nsec, member, typ⟩ := nsec_of_nodata clock sign (congrArg Reply.queues nodata)
  obtain ⟨_, listed, read, all⟩ := listed_of_written clock typ (List.mem_append_left _ (List.mem_append_right _ member))
  have rcode : (replyHeader query.data true rcodeNoerror).rcode = 0 := rfl
  refine ⟨by simp only [contents, nodata]; exact rcode, by simp only [contents, nodata]; rfl, nsec, member, typ, listed, read,
    (all qtype).mpr ?_⟩
  rcases undenied.2 with rrsig | ⟨nsec, _⟩
  · exact .inr (.inr rrsig)
  · exact .inr (.inl nsec)

/-- The other types that are answered are answered, and so are not denied. -/
theorem denies_of_denied (clock : Clock) (inside : inZone domain config.glueName = true) {key : DnssecKey}
    (keyed : config.dnssec = some key) (denied : ¬ Undenied config domain qtype classIn) :
    Denies query.data qtype (contentsOf clock query.data (paramsOf query.data config)
      (replyTo config (paramsOf query.data config) (qnameOf query.data) domain qtype classIn)) := by
  intro _ nothing nsec member typ
  obtain ⟨_, listed, read, all⟩ := listed_of_written clock typ (List.mem_append_left _ (List.mem_append_right _ member))
  refine ⟨listed, read, fun present => ?_⟩
  have queued : (replyTo config (paramsOf query.data config) (qnameOf query.data) domain qtype classIn).queues.All
      (Queued (paramsOf query.data config) (qnameOf query.data)) := replyTo_queued config domain qtype classIn
  have unanswered : (replyTo config (paramsOf query.data config) (qnameOf query.data) domain qtype classIn).queues.answers = [] :=
    (section_eq_nil_iff clock fun rr inside => (queued rr (List.mem_append_left _ (List.mem_append_left _ inside))).typ_ne.1).mp
      nothing
  rw [Undenied, not_and_or, not_or] at denied
  obtain ⟨notRrsig, asked⟩ := denied.resolve_left (not_not.mpr rfl)
  by_cases nsec : qtype = typeNsec
  · obtain ⟨plain, apex⟩ : isVersionQuery domain = false ∧ namesEq domain config.glueName = true := by simpa [nsec] using asked
    rw [nsec, classIn, replyTo_apexNsec inside plain apex keyed] at unanswered
    cases unanswered
  have served : qtype ∈ servedTypes config (paramsOf query.data config) domain :=
    ((all qtype).mp present).resolve_right fun other => other.elim nsec notRrsig
  by_cases ns : qtype = typeNs
  · subst ns
    have none : (replyTo config (paramsOf query.data config) (qnameOf query.data) domain typeNs classIn).queues.authority = [] :=
      replyTo_ns inside served
    rw [contentsOf, emitQueues, none] at member
    cases member
  · have serves : (∃ rr ∈ (replyTo config (paramsOf query.data config) (qnameOf query.data) domain qtype 1).queues.answers,
        rr.typ = qtype) ↔ _ := replyTo_serves (.inl inside) nsec fun asked => absurd asked ns
    obtain ⟨rr, answer, _⟩ := serves.mpr served
    rw [classIn, List.eq_nil_iff_forall_not_mem] at unanswered
    exact unanswered rr answer

end Denial

/-- A denial does not list the type that it denies, unless the type is RRSIG or is NSEC at another name than the apex. -/
theorem denies_iff (clock : Clock) {query : Slice} {config : Config} {key : DnssecKey} (keyed : config.dnssec = some key)
    {domain : Str} {qtype qclass : UInt16} (standard : opcode query = 0) (parsed : parseQuery query = .ok (some domain))
    (typed : parseQtypeQclass query = .ok (some (qtype, qclass))) (inside : isInZone domain config.glueName = .ok true)
    (dnssecOk : queryDnssecOk query = .ok true) :
    ∃ contents : Contents, handleQueryInternal clock query config = .ok (contents.response query.data) ∧
      (config.nsNames ≠ [] → contents.header.rcode = 0 → contents.records.answers = [] →
        ∃ nsec ∈ contents.records.authority, nsec.typ = typeNsec) ∧
      (Denies query.data qtype contents ↔ ¬ Undenied config domain qtype qclass) := by
  refine ⟨_, contents_of_question standard parsed typed clock config, ?_⟩
  have zone : inZone domain config.glueName = true :=
    Except.ok.inj ((isInZone_config config domain).symm.trans inside)
  have sign := paramsOf_sign (doBit_of_dnssecOk dnssecOk) keyed
  by_cases internet : qclass = 1
  · subst internet
    refine ⟨fun ns _ nothing => ?_, ?_⟩
    · have queued : (replyTo config (paramsOf query.data config) (qnameOf query.data) domain qtype classIn).queues.All
          (Queued (paramsOf query.data config) (qnameOf query.data)) := replyTo_queued config domain qtype classIn
      have unanswered := (section_eq_nil_iff clock fun rr inside =>
        (queued rr (List.mem_append_left _ (List.mem_append_left _ inside))).typ_ne.1).mp nothing
      obtain ⟨types, nodata⟩ := replyTo_nodata zone ns unanswered
      exact nsec_of_nodata clock sign nodata
    · refine ⟨fun denies undenied => ?_, denies_of_denied clock zone keyed⟩
      obtain ⟨rcode, nothing, nsec, member, typ, listed, read, present⟩ := listed_of_undenied clock zone sign undenied
      obtain ⟨types, read', missing⟩ := denies rcode nothing nsec member typ
      obtain rfl : listed = types := Option.some.inj (read.symm.trans read')
      exact missing present
  · have refused : replyTo config (paramsOf query.data config) (qnameOf query.data) domain qtype qclass =
        .error rcodeRefused := by
      rw [replyTo, if_pos internet]
    have rcode : (contentsOf clock query.data (paramsOf query.data config) (.error rcodeRefused)).header.rcode ≠ 0 :=
      show (replyHeader query.data false rcodeRefused).rcode ≠ 0 from by simp [replyHeader, Header.rcode, rcodeRefused]
    rw [refused]
    exact ⟨fun _ none => absurd none rcode, iff_of_true (fun none => absurd none rcode) fun undenied => internet undenied.1⟩

theorem sampleTyped_denies :
    ∃ contents : Contents, handleQueryInternal (fun _ => some 0) (sampleTyped typeAaaa) sampleSignedConfig =
        .ok (contents.response (sampleTyped typeAaaa).data) ∧
      (sampleSignedConfig.nsNames ≠ [] → contents.header.rcode = 0 → contents.records.answers = [] →
        ∃ nsec ∈ contents.records.authority, nsec.typ = typeNsec) ∧
      (Denies (sampleTyped typeAaaa).data typeAaaa contents ↔
        ¬ Undenied sampleSignedConfig (.ofString "10-0-0-1.nip.nu") typeAaaa classIn) :=
  have parsed : parseQuery (sampleTyped typeAaaa) = .ok (some (.ofString "10-0-0-1.nip.nu")) := by decide +kernel
  have typed : parseQtypeQclass (sampleTyped typeAaaa) = .ok (some (typeAaaa, classIn)) := by decide +kernel
  have keyed : sampleSignedConfig.dnssec = some sampleKey := rfl
  denies_iff _ keyed (by decide +kernel) parsed typed (by decide +kernel) (by decide +kernel)

/-- The denial of NSEC at `10-0-0-1.nip.nu` comes with an NSEC record that lists NSEC. -/
theorem sampleNsec_undenied :
    ∃ contents : Contents, handleQueryInternal (fun _ => some 0) (sampleTyped typeNsec) sampleSignedConfig =
        .ok (contents.response (sampleTyped typeNsec).data) ∧
      contents.header.rcode = 0 ∧ contents.records.answers = [] ∧ ∃ nsec ∈ contents.records.authority, nsec.typ = typeNsec ∧
        ∃ types, listedTypes (sampleTyped typeNsec).data nsec = some types ∧ typeNsec ∈ types := by
  have parsed : parseQuery (sampleTyped typeNsec) = .ok (some (.ofString "10-0-0-1.nip.nu")) := by decide +kernel
  have typed : parseQtypeQclass (sampleTyped typeNsec) = .ok (some (typeNsec, classIn)) := by decide +kernel
  have inside : inZone (.ofString "10-0-0-1.nip.nu") sampleSignedConfig.glueName = true := by decide +kernel
  have sign : (paramsOf (sampleTyped typeNsec).data sampleSignedConfig).sign = true := by decide +kernel
  have other : namesEq (.ofString "10-0-0-1.nip.nu") sampleSignedConfig.glueName = false := by decide +kernel
  have standard : opcode (sampleTyped typeNsec) = 0 := by decide +kernel
  have undenied : Undenied sampleSignedConfig (.ofString "10-0-0-1.nip.nu") typeNsec classIn := ⟨rfl, .inr ⟨rfl, .inr other⟩⟩
  exact ⟨_, contents_of_question standard parsed typed _ sampleSignedConfig, listed_of_undenied _ inside sign undenied⟩

end RustyAlias
