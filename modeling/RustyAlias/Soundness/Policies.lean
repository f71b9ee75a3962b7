import RustyAlias.Dns.Txt
import RustyAlias.Proofs.Dispatch
import RustyAlias.Proofs.ServedTypes
import RustyAlias.Proofs.StandardQuery

/-! # Published policies

The SPF text at the apex and the DMARC text at its owner are published as one character string, which
holds at most 255 octets. Longer texts are cut.
-/

namespace RustyAlias

open Rust Rust.Outcome Dns

/-- The text that is configured for a name. -/
def Configured (config : Config) (domain txt : Str) : Prop :=
  txt.isEmpty = false ∧ (txt = config.spf ∧ namesEq domain config.glueName = true ∨
    txt = config.dmarc ∧ namesEq domain (dmarcOwner config.glueName) = true)

/-- TXT RDATA holds the text, in one or more character strings. -/
def HoldsText (rdata : Bytes) (txt : Str) : Prop := ∃ strings, readStrings rdata = some strings ∧ strings.flatten = txt.bytes

instance (rdata : Bytes) (txt : Str) : Decidable (HoldsText rdata txt) :=
  decidable_of_iff ((readStrings rdata).any fun strings => decide (strings.flatten = txt.bytes)) (by simp [HoldsText, Option.any_eq_true])

/-- The answer has a TXT record, and every TXT record in it holds the text. -/
def Publishes (contents : Contents) (txt : Str) : Prop :=
  (∃ rr ∈ contents.records.answers, rr.typ = typeTxt) ∧
    ∀ rr ∈ contents.records.answers, rr.typ = typeTxt → HoldsText rr.rdata txt

def versionText (config : Config) : Str := .ofString "RustyAlias v" ++ config.version

/-- A TXT record holds the first 255 octets of its text. -/
theorem txtRr_holdsText_iff (published txt : Str) : HoldsText (txtRr published).rdata txt ↔ published.bytes.take 255 = txt.bytes := by
  have length : min published.len 255 = (published.bytes.take 255).length := by
    rw [List.length_take, Nat.min_comm]
    rfl
  have short : (published.bytes.take 255).length ≤ 255 := by
    rw [List.length_take]
    omega
  have read : readStrings (txtRr published).rdata = some [published.bytes.take 255] := by
    have one := readStrings_string short []
    rw [List.append_nil, readStrings_nil] at one
    rw [txtRr, length]
    exact one
  rw [HoldsText, read]
  simp

section Answers

variable {config : Config} {params : ZoneParams} {qname : Bytes} {domain txt : Str} {qtype : UInt16}

private theorem mem_keyed_typ {rr : Rr} (member : rr ∈ (params.dnssec.map fun key =>
    [dnskeyRr key, cdsRr key params.zone, cdnskeyRr key]).getD []) : rr.typ ≠ typeTxt := by
  cases keyed : params.dnssec with
  | none => simp [keyed] at member
  | some key =>
    have one : rr = dnskeyRr key ∨ rr = cdsRr key params.zone ∨ rr = cdnskeyRr key := by simpa [keyed] using member
    rcases one with rfl | rfl | rfl
    · exact show typeDnskey ≠ typeTxt by decide
    · exact show typeCds ≠ typeTxt by decide
    · exact show typeCdnskey ≠ typeTxt by decide

/-- The SPF record is the only TXT record at the apex. -/
theorem apexQueues_txt {spf : Str} (some : params.spf = some spf) (asked : qtype = typeTxt ∨ qtype = typeAny) (rr : Rr) :
    rr ∈ (apexQueues params qname qtype).answers ∧ rr.typ = typeTxt ↔ rr = txtRr spf := by
  rcases asked with rfl | rfl
  · have answers : (apexQueues params qname typeTxt).answers = [txtRr spf] := by
      change (apexOr params qname (params.spf.map txtRr).toList).answers = _
      rw [apexOr_answers, some]
      rfl
    rw [answers, List.mem_singleton]
    exact ⟨And.left, fun same => ⟨same, same ▸ rfl⟩⟩
  · have answers : (apexQueues params qname typeAny).answers = [soaRr params .question] ++ nsRrs params ++
        [aRr .question params.glueIp] ++ (params.glueIp6.map (aaaaRr .question)).toList ++ (params.spf.map txtRr).toList ++
        (params.dnssec.map fun key => [dnskeyRr key, cdsRr key params.zone, cdnskeyRr key]).getD [] := rfl
    rw [answers, some]
    constructor
    · rintro ⟨member, typ⟩
      simp only [List.mem_append, List.mem_singleton, Option.map_some, Option.toList_some] at member
      rcases member with ((((rfl | ns) | rfl) | aaaa) | txt) | keyed
      · exact absurd typ (show typeSoa ≠ typeTxt by decide)
      · obtain ⟨_, _, rfl⟩ := List.mem_map.mp ns
        exact absurd typ (show typeNs ≠ typeTxt by decide)
      · exact absurd typ (show typeA ≠ typeTxt by decide)
      · obtain ⟨_, _, rfl⟩ := Option.map_eq_some_iff.mp (Option.mem_toList.mp aaaa)
        exact absurd typ (show typeAaaa ≠ typeTxt by decide)
      · exact txt
      · exact absurd typ (mem_keyed_typ keyed)
    · rintro rfl
      exact ⟨by simp, rfl⟩

/-- What the answer to a TXT or ANY query is about: the version at a version name, else the configured text. -/
theorem replyTo_txt (inside : inZone domain config.glueName = true) (asked : qtype = typeTxt ∨ qtype = typeAny)
    (params' : params.spf = if config.spf.isEmpty then none else some config.spf) (configured : Configured config domain txt) (rr : Rr) :
    rr ∈ (replyTo config params qname domain qtype 1).queues.answers ∧ rr.typ = typeTxt ↔
      rr = txtRr (if isVersionQuery domain = true then versionText config else txt) := by
  have single (published : Str) : rr ∈ [txtRr published] ∧ rr.typ = typeTxt ↔ rr = txtRr published := by
    rw [List.mem_singleton]
    exact ⟨And.left, fun same => ⟨same, same ▸ rfl⟩⟩
  have zone : trimmed config.glueName ≠ [] := by
    rw [inZone, decide_eq_true_iff] at inside
    exact inside.1
  cases version : isVersionQuery domain with
  | true =>
    rw [replyTo_version version asked, if_pos rfl]
    exact single _
  | false =>
    obtain ⟨nonempty, ⟨rfl, apex⟩ | ⟨rfl, dmarc⟩⟩ := configured
    · rw [nonempty] at params'
      unfold replyTo
      rw [if_neg (not_not.mpr rfl), inside, version, dmarcOwner_of_apex apex zone, apex]
      simp only [Bool.not_true, Bool.false_and, Bool.and_false, Bool.false_eq_true, if_false, if_true, Reply.authoritative]
      exact apexQueues_txt params' asked rr
    · unfold replyTo
      rw [if_neg (not_not.mpr rfl), inside, version, nonempty, dmarc]
      simp only [Bool.not_true, Bool.not_false, Bool.and_true, Bool.false_eq_true, if_false, if_true,
        Reply.authoritative, if_pos asked]
      exact single _

/-- Names with a configured text lie in the zone. -/
theorem inZone_of_configured (zone : trimmed config.glueName ≠ []) (configured : Configured config domain txt) :
    inZone domain config.glueName = true := by
  refine decide_eq_true ⟨zone, ?_⟩
  obtain ⟨_, ⟨_, apex⟩ | ⟨_, dmarc⟩⟩ := configured
  · exact .inl (eqIgnoreCase_iff.mp apex)
  · have same : lowerAll (trimmed domain) = lowerAll (trimmed (dmarcOwner config.glueName)) := eqIgnoreCase_iff.mp dmarc
    have long : (Str.ofString "_dmarc.").bytes.length = 7 := by decide +kernel
    have dotted : lowerAll (Str.ofString "_dmarc.").bytes = lowerAll (Str.ofString "_dmarc").bytes ++ [46] := by decide +kernel
    rw [trimmed_dmarcOwner zone, lowerAll_append] at same
    have length := congrArg List.length same
    simp only [List.length_append, lowerAll_length, long] at length
    refine .inr ⟨by omega, lowerAll (Str.ofString "_dmarc").bytes, ?_⟩
    rw [same, dotted, List.append_assoc, List.singleton_append]

/-- What one TXT record among the queued answers publishes. -/
theorem publishes_iff_of_queued (clock : Clock) {heading : Heading} {queues : Queues} {opt : Option Bool} {published : Str}
    (plain : ∀ rr ∈ queues.answers, rr.typ ≠ typeRrsig)
    (only : ∀ rr, rr ∈ queues.answers ∧ rr.typ = typeTxt ↔ rr = txtRr published) :
    Publishes ⟨heading, emitQueues params qname clock queues, opt⟩ txt ↔ published.bytes.take 255 = txt.bytes := by
  have other : typeTxt ≠ typeRrsig := by decide
  have written (rdata : Bytes) : (∃ rr ∈ (emitQueues params qname clock queues).answers, rr.typ = typeTxt ∧ rr.rdata = rdata) ↔
      rdata = (txtRr published).rdata := by
    refine (mem_section_iff clock plain other rdata).trans ⟨?_, ?_⟩
    · rintro ⟨rr, member, typ, rfl⟩
      rw [(only rr).mp ⟨member, typ⟩]
    · rintro rfl
      obtain ⟨member, typ⟩ := (only (txtRr published)).mpr rfl
      exact ⟨_, member, typ, rfl⟩
  obtain ⟨rr, member, typ, rdata⟩ := (written _).mpr rfl
  rw [← txtRr_holdsText_iff]
  constructor
  · rintro ⟨_, all⟩
    exact rdata ▸ all rr member typ
  · intro holds
    refine ⟨⟨rr, member, typ⟩, fun rr' member' typ' => ?_⟩
    rwa [(written rr'.rdata).mp ⟨rr', member', typ', rfl⟩]

end Answers

/-- The text is published whole when it has at most 255 octets and the zone has a name; where that is a version name, the
text is to be what the server publishes as its version. -/
theorem publishes_iff (clock : Clock) {query : Slice} {config : Config} {domain txt : Str} {qtype : UInt16}
    (standard : opcode query = 0) (parsed : parseQuery query = .ok (some domain))
    (typed : parseQtypeQclass query = .ok (some (qtype, classIn))) (asked : qtype = typeTxt ∨ qtype = typeAny)
    (configured : Configured config domain txt) :
    ∃ contents : Contents, handleQueryInternal clock query config = .ok (contents.response query.data) ∧
      (Publishes contents txt ↔ txt.len ≤ 255 ∧
        if isVersionQuery domain = true then txt.bytes = (versionText config).bytes.take 255
        else (config.glueName.trimEndMatches dot).isEmpty = false) := by
  refine ⟨_, contents_of_question standard parsed typed clock config, ?_⟩
  have plain : ∀ rr ∈ (replyTo config (paramsOf query.data config) (qnameOf query.data) domain qtype classIn).queues.answers,
      rr.typ ≠ typeRrsig := fun rr inside =>
    (replyTo_queued config domain qtype classIn rr (List.mem_append_left _ (List.mem_append_left _ inside))).typ_ne.1
  cases version : isVersionQuery domain with
  | true =>
    have only (rr : Rr) : rr ∈ (replyTo config (paramsOf query.data config) (qnameOf query.data) domain qtype classIn).queues.answers ∧
        rr.typ = typeTxt ↔ rr = txtRr (versionText config) := by
      rw [classIn, replyTo_version version asked]
      change rr ∈ [txtRr _] ∧ _ ↔ _
      rw [List.mem_singleton]
      exact ⟨And.left, fun same => ⟨same, same ▸ rfl⟩⟩
    refine (publishes_iff_of_queued clock plain only).trans ?_
    rw [if_pos rfl, eq_comm]
    refine ⟨fun same => ⟨?_, same⟩, And.right⟩
    rw [Str.len, same, List.length_take]
    omega
  | false =>
    rw [if_neg (by decide)]
    cases zone : (config.glueName.trimEndMatches dot).isEmpty with
    | true =>
      have outside : inZone domain config.glueName = false := by
        simp only [Str.isEmpty, List.isEmpty_iff] at zone
        exact decide_eq_false fun inside => inside.1 zone
      have refused : replyTo config (paramsOf query.data config) (qnameOf query.data) domain qtype classIn = .error rcodeRefused :=
        replyTo_refused outside fun answered => by simp [version] at answered
      rw [refused]
      refine iff_of_false ?_ (by simp)
      rintro ⟨⟨rr, member, _⟩, _⟩
      cases member
    | false =>
      have some : trimmed config.glueName ≠ [] := by simpa [Str.isEmpty, trimmed] using zone
      have only (rr : Rr) : rr ∈ (replyTo config (paramsOf query.data config) (qnameOf query.data) domain qtype classIn).queues.answers ∧
          rr.typ = typeTxt ↔ rr = txtRr txt := by
        have answers : rr ∈ (replyTo config (paramsOf query.data config) (qnameOf query.data) domain qtype 1).queues.answers ∧
            rr.typ = typeTxt ↔ rr = txtRr (if isVersionQuery domain = true then versionText config else txt) :=
          replyTo_txt (inZone_of_configured some configured) asked rfl configured rr
        rwa [version, if_neg (by decide)] at answers
      refine (publishes_iff_of_queued clock plain only).trans ?_
      rw [List.take_eq_self_iff]
      exact ⟨fun short => ⟨short, rfl⟩, And.left⟩

/-- An SPF text of as many octets. -/
def spfConfig (n : ℕ) : Config := { sampleConfig with
  spf := ⟨List.replicate n 97, Utf8.valid_ascii fun b member => by rw [List.eq_of_mem_replicate member]; decide⟩ }

/-- A TXT query about `nip.nu`. -/
def apexTxtQuery : Slice where
  data := [0, 7, 1, 0, 0, 1, 0, 0, 0, 0, 0, 0] ++ [3, 110, 105, 112, 2, 110, 117, 0] ++ be16 typeTxt ++ be16 classIn
  length_le := by decide +kernel

theorem spf_published :
    ∃ contents : Contents, handleQueryInternal (fun _ => some 0) apexTxtQuery (spfConfig 255) =
        .ok (contents.response apexTxtQuery.data) ∧
      (Publishes contents (spfConfig 255).spf ↔ (spfConfig 255).spf.len ≤ 255 ∧
        if isVersionQuery (.ofString "nip.nu") = true then
          (spfConfig 255).spf.bytes = (versionText (spfConfig 255)).bytes.take 255
        else ((spfConfig 255).glueName.trimEndMatches dot).isEmpty = false) :=
  have parsed : parseQuery apexTxtQuery = .ok (some (.ofString "nip.nu")) := by decide +kernel
  have typed : parseQtypeQclass apexTxtQuery = .ok (some (typeTxt, classIn)) := by decide +kernel
  have apex : namesEq (.ofString "nip.nu") (spfConfig 255).glueName = true := by decide +kernel
  publishes_iff _ (by decide +kernel) parsed typed (.inl rfl) ⟨by decide +kernel, .inl ⟨rfl, apex⟩⟩

/-- Of an SPF text of 256 octets the last one is not published. -/
theorem longSpf_cut :
    ∃ response msg rr, handleQueryInternal (fun _ => some 0) apexTxtQuery (spfConfig 256) = .ok response ∧
      decode response = some msg ∧ rr ∈ msg.answers ∧ rr.rtype = typeTxt ∧ ¬ HoldsText rr.rdata (spfConfig 256).spf := by
  have found : ((handleQueryInternal (fun _ => some 0) apexTxtQuery (spfConfig 256)).toOption.bind decode).any fun msg =>
      msg.answers.any fun rr => rr.rtype == typeTxt && decide (¬ HoldsText rr.rdata (spfConfig 256).spf) := by decide +kernel
  cases returned : handleQueryInternal (fun _ => some 0) apexTxtQuery (spfConfig 256) with
  | error panic => rw [returned] at found; cases found
  | ok response =>
    rw [returned] at found
    obtain ⟨msg, decoded, found⟩ := (Option.any_eq_true ..).mp found
    obtain ⟨rr, member, found⟩ := List.any_eq_true.mp found
    rw [Bool.and_eq_true, beq_iff_eq] at found
    exact ⟨response, msg, rr, rfl, decoded, member, found.1, of_decide_eq_true found.2⟩

end RustyAlias
