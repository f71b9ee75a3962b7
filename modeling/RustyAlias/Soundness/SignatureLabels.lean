import RustyAlias.Proofs.ReplyShape
import RustyAlias.Soundness.SignedNames

/-! # The Labels field of signatures

`label_count` counts every label of the owner. Section 3.1.3 of RFC 4034 leaves out a leftmost `*`, so
the field is one too high for the owners that begin with it, and right for all others.
-/

namespace RustyAlias

open Rust Rust.Outcome Dns

/-- The leftmost label is `*`. -/
def Starred (name : Name) : Prop := name.head? = some [42]

instance (name : Name) : Decidable (Starred name) := inferInstanceAs (Decidable (_ = _))

/-- The count of labels without the root and a leftmost `*`. -/
def signedLabels (name : Name) : ℕ := if Starred name then name.length - 1 else name.length

/-- The Labels field of RRSIG RDATA. -/
def labelsField (rdata : Bytes) : Option ℕ := rdata[3]?.map UInt8.toNat

/-- The Labels field of a signature is that of its owner, if this is a legal name. -/
def LabelsRight (qname : Name) (rr : Rr) : Prop :=
  rr.typ = typeRrsig → Legal (ownerName qname rr.owner) → labelsField rr.rdata = some (signedLabels (ownerName qname rr.owner))

theorem starred_fold (name : Name) : Starred (fold name) ↔ Starred name := by
  cases name with
  | nil => rfl
  | cons label rest =>
    have star : lowerAll label = [42] ↔ label = [42] := by
      constructor
      · intro same
        obtain ⟨b, rfl, low⟩ := List.map_eq_singleton_iff.mp same
        rw [(toLower_eq_iff (by decide) b).mp low]
      · rintro rfl
        decide
    simp [Starred, star]

private theorem eq_signedLabels_iff (name : Name) : name.length = signedLabels name ↔ ¬ Starred name := by
  unfold signedLabels
  by_cases star : Starred name
  · have some : name.length ≠ 0 := by
      intro none
      rw [List.length_eq_zero_iff.mp none] at star
      cases star
    rw [if_pos star]
    exact iff_of_false (by omega) (not_not.mpr star)
  · rw [if_neg star]
    exact iff_of_true rfl star

section Fields

variable {params : ZoneParams} {labels : Name} {key : DnssecKey}

private theorem ownerWire_owner (octets : ∀ label ∈ labels, 1 ≤ label.length ∧ label.length ≤ 255)
    (small : (wire labels).length ≤ isizeMax) (owner : Owner) :
    ownerWire (wire labels) owner = wire (fold (ownerName labels owner)) := by
  cases owner with
  | question => simp [ownerWire, lowercaseWireName_wire octets small, ownerName]
  | name host => simp [ownerWire, encodeDomainName_eq, ownerName]

/-- The Labels field holds the count of all labels. -/
theorem labelsField_rrsigRr {head : Rr} {owner : Name} (wired : ownerWire (wire labels) head.owner = wire (fold owner))
    (legal : Legal owner) (key : DnssecKey) (reading : ClockReading) (rdatas : List Bytes) :
    labelsField (rrsigRr params (wire labels) key reading head rdatas).rdata = some owner.length := by
  have octets : ∀ label ∈ fold owner, 1 ≤ label.length ∧ label.length ≤ 255 := fun label member =>
    have ⟨low, high⟩ := legal.fold.labels label member
    ⟨low, by omega⟩
  have total := legal.fold.total
  have few := legal.length_le
  have counted := labelCount_wire octets (show (wire (fold owner)).length ≤ 2 ^ 63 + 1 by omega)
  have length : (fold owner).length = owner.length := List.length_map _
  rw [rrsigRr, wired, DnssecKey.signRrsig, counted, ok_bind, length, Nat.min_eq_left (by omega)]
  have octet : (UInt8.ofNat owner.length).toNat = owner.length := by simp only [UInt8.toNat_ofNat']; omega
  change some (UInt8.ofNat owner.length).toNat = _
  rw [octet]

/-- Whatever an RRset is signed by, the signature is written. -/
theorem exists_signature (signer : ∀ typ, typ ≠ typeRrsig → params.signer typ = some key) (qname : Bytes) (clock : Clock)
    {sets : List (List Rr)} {head : Rr} {rest : List Rr} (member : head :: rest ∈ sets) (plain : head.typ ≠ typeRrsig) :
    ∃ reading rdatas, rrsigRr params qname key reading head rdatas ∈ (emitSets params qname clock sets).1 := by
  induction sets generalizing clock with
  | nil => cases member
  | cons set others ih =>
    rcases List.mem_cons.mp member with rfl | member
    · refine ⟨clock.head, ((head :: rest).map (·.rdata)).mergeSort, List.mem_append_left _ ?_⟩
      simp [emitSet, signer head.typ plain]
    · obtain ⟨reading, rdatas, written⟩ := ih (clockAfter params clock set) member
      exact ⟨reading, rdatas, List.mem_append_right _ written⟩

/-- For every record that is queued there is a signature of its owner. -/
theorem exists_signature_of_mem (signer : ∀ typ, typ ≠ typeRrsig → params.signer typ = some key) (qname : Bytes)
    (clock : Clock) {rrs : List Rr} (plain : ∀ rr ∈ rrs, rr.typ ≠ typeRrsig) {rr : Rr} (member : rr ∈ rrs) :
    ∃ head reading rdatas, head.setKey = rr.setKey ∧
      rrsigRr params qname key reading head rdatas ∈ (emitSets params qname clock (rrsets rrs)).1 := by
  have flat := List.runs_flatten Rr.setKey rrs
  obtain ⟨set, run, inside⟩ := List.mem_flatten.mp (flat.symm ▸ member)
  obtain ⟨head, rest, rfl⟩ := List.exists_cons_of_ne_nil (List.runs_ne_nil run)
  have source : head ∈ rrs := flat ▸ List.mem_flatten.mpr ⟨_, run, List.mem_cons_self ..⟩
  obtain ⟨reading, rdatas, written⟩ := exists_signature signer qname clock (show head :: rest ∈ rrsets rrs from run) (plain head source)
  exact ⟨head, reading, rdatas, (List.runs_uniform run (a := head) rfl rr inside).symm, written⟩

/-- The fields are right exactly if no owner of a queued record begins with `*`. -/
theorem emitQueues_labels_iff (octets : ∀ label ∈ labels, 1 ≤ label.length ∧ label.length ≤ 255)
    (small : (wire labels).length ≤ isizeMax) {queues : Queues} (queued : queues.All (Queued params (wire labels)))
    (signer : ∀ typ, typ ≠ typeRrsig → params.signer typ = some key) (clock : Clock) :
    (emitQueues params (wire labels) clock queues).All (LabelsRight labels) ↔
      ∀ owner, queues.Owns owner → Legal (ownerName labels owner) → ¬ Starred (ownerName labels owner) := by
  have right {head : Rr} (legal : Legal (ownerName labels head.owner)) (key : DnssecKey) (reading : ClockReading)
      (rdatas : List Bytes) : labelsField (rrsigRr params (wire labels) key reading head rdatas).rdata =
        some (signedLabels (ownerName labels head.owner)) ↔ ¬ Starred (ownerName labels head.owner) := by
    rw [labelsField_rrsigRr (ownerWire_owner octets small head.owner) legal, Option.some.injEq, eq_signedLabels_iff]
  constructor
  · rintro all owner ⟨rr, member, rfl⟩ legal
    have plain : ∀ rr ∈ queues.answers ++ queues.authority ++ queues.additional, rr.typ ≠ typeRrsig :=
      fun rr member => (queued rr member).typ_ne.1
    obtain ⟨head, reading, rdatas, same, written⟩ : ∃ head reading rdatas, head.setKey = rr.setKey ∧
        LabelsRight labels (rrsigRr params (wire labels) key reading head rdatas) := by
      simp only [List.mem_append] at member
      rcases member with (member | member) | member
      · obtain ⟨head, reading, rdatas, same, written⟩ := exists_signature_of_mem signer (wire labels) clock
          (fun rr member => plain rr (by simp [member])) member
        exact ⟨head, reading, rdatas, same, all _ (by simp [emitQueues, written])⟩
      · obtain ⟨head, reading, rdatas, same, written⟩ := exists_signature_of_mem signer (wire labels)
          (emitSets params (wire labels) clock (rrsets queues.answers)).2 (fun rr member => plain rr (by simp [member])) member
        exact ⟨head, reading, rdatas, same, all _ (by simp [emitQueues, written])⟩
      · obtain ⟨head, reading, rdatas, same, written⟩ := exists_signature_of_mem signer (wire labels)
          (emitSets params (wire labels) (emitSets params (wire labels) clock (rrsets queues.answers)).2
            (rrsets queues.authority)).2 (fun rr member => plain rr (by simp [member])) member
        exact ⟨head, reading, rdatas, same, all _ (by simp [emitQueues, written])⟩
    have names : fold (ownerName labels head.owner) = fold (ownerName labels rr.owner) :=
      congrArg Prod.fst (Rr.nameKey_of_setKey same labels)
    have legal' : Legal (ownerName labels head.owner) := Legal.of_fold (names ▸ legal.fold)
    rw [← starred_fold, ← names, starred_fold]
    exact (right legal' key reading rdatas).mp (written rfl legal')
  · intro plain
    have known : queues.All fun rr => Queued params (wire labels) rr ∧
        (Legal (ownerName labels rr.owner) → ¬ Starred (ownerName labels rr.owner)) :=
      fun rr member => ⟨queued rr member, plain rr.owner ⟨rr, member, rfl⟩⟩
    refine emitQueues_all known (fun head _ first _ signature => absurd signature first.1.typ_ne.1) ?_
    intro head first key reading rdatas _ legal
    exact (right (show Legal (ownerName labels head.owner) from legal) key reading rdatas).mpr (first.2 legal)

end Fields

/-- A legal name whose leftmost label is `*`. -/
def LegalStar (name : Name) : Prop := Legal name ∧ Starred name

/-- The answer about a name in the zone is signed for an owner that begins with `*`: the name itself; the zone, beside
the denial of a type that the name does not have; or a nameserver beside the apex. -/
def SignsStar (query : Slice) (config : Config) (question : Question) : Prop :=
  opcode query = 0 ∧ question.qclass = classIn ∧ ∃ domain, parseQuery query = .ok (some domain) ∧
    (Starred question.name ∨
      LegalStar (hostLabels config.glueName) ∧ ¬ HasType config (paramsOf query.data config) domain question.qtype ∨
      AtApex config domain ∧ Glued question.qtype ∧
        ∃ name, GlueName (paramsOf query.data config) name ∧ LegalStar (hostLabels name))

/-- The stars among the owners of a reply. -/
theorem owners_plain_iff {labels : Name} (legal : Legal labels) {zone : Str} {denied glued : Prop} {glue : Str → Prop}
    {owns : Owner → Prop} (owners : ∀ owner, owns owner ↔ owner = .question ∨ owner = .name zone ∧ denied ∨
      glued ∧ ∃ name, glue name ∧ owner = .name name) :
    (∀ owner, owns owner → Legal (ownerName labels owner) → ¬ Starred (ownerName labels owner)) ↔
      ¬ (Starred labels ∨ LegalStar (hostLabels zone) ∧ denied ∨ glued ∧ ∃ name, glue name ∧ LegalStar (hostLabels name)) := by
  have host (name : Str) : (Legal (ownerName labels (.name name)) → ¬ Starred (ownerName labels (.name name))) ↔
      ¬ LegalStar (hostLabels name) := by
    change (Legal (fold (hostLabels name)) → ¬ Starred (fold (hostLabels name))) ↔ _
    rw [starred_fold, LegalStar, not_and]
    exact ⟨fun plain legal => plain legal.fold, fun plain legal => plain legal.of_fold⟩
  constructor
  · rintro plain (star | ⟨star, missing⟩ | ⟨beside, name, known, star⟩)
    · exact plain .question ((owners _).mpr (.inl rfl)) legal star
    · exact (host zone).mp (plain _ ((owners _).mpr (.inr (.inl ⟨rfl, missing⟩)))) star
    · exact (host name).mp (plain _ ((owners _).mpr (.inr (.inr ⟨beside, name, known, rfl⟩)))) star
  · intro plain owner owned
    rcases (owners owner).mp owned with rfl | ⟨rfl, missing⟩ | ⟨beside, name, known, rfl⟩
    · exact fun _ star => plain (.inl star)
    · exact (host zone).mpr fun star => plain (.inr (.inl ⟨star, missing⟩))
    · exact (host name).mpr fun star => plain (.inr (.inr ⟨beside, name, known, star⟩))

/-- The Labels fields of the answer about a name in the zone. -/
theorem replyTo_labels_iff (clock : Clock) {query : Bytes} {config : Config} {question : Question} {key : DnssecKey}
    {domain : Str} (legal : Legal question.name) (doBit : (queryOpt? query).any Prod.snd = true)
    (keyed : config.dnssec = some key) (ns : config.nsNames ≠ []) (inside : inZone domain config.glueName = true) :
    (emitQueues (paramsOf query config) (wire question.name) clock
      (replyTo config (paramsOf query config) (wire question.name) domain question.qtype 1).queues).All
        (LabelsRight question.name) ↔
      ¬ (Starred question.name ∨
        LegalStar (hostLabels config.glueName) ∧ ¬ HasType config (paramsOf query config) domain question.qtype ∨
        AtApex config domain ∧ Glued question.qtype ∧
          ∃ name, GlueName (paramsOf query config) name ∧ LegalStar (hostLabels name)) := by
  have octets : ∀ label ∈ question.name, 1 ≤ label.length ∧ label.length ≤ 255 := fun label member =>
    have ⟨low, high⟩ := legal.labels label member
    ⟨low, by omega⟩
  have small : (wire question.name).length ≤ isizeMax := by
    have total := legal.total
    unfold isizeMax
    omega
  have present : (paramsOf query config).dnssec.isSome = true := by
    change config.dnssec.isSome = true
    rw [keyed]
    rfl
  have queued : (replyTo config (paramsOf query config) (wire question.name) domain question.qtype 1).queues.All
      (Queued (paramsOf query config) (wire question.name)) := replyTo_queued config domain question.qtype 1
  have owners (owner : Owner) := @replyTo_owns _ (wire question.name) question.qtype owner _ _ inside
    (paramsOf_sign doBit keyed) present ns
  rw [emitQueues_labels_iff octets small queued (paramsOf_signer doBit keyed) clock]
  simp only [← and_assoc] at owners ⊢
  exact owners_plain_iff legal owners

/-- With the DO bit and a key, the Labels fields of all signatures in the answer about a name in the zone are right,
unless an owner that is signed begins with `*`. `parse_ns_names` never leaves the nameservers empty. -/
theorem rrsigLabels_iff (clock : Clock) {query : Slice} {config : Config} {question : Question} {rest : Bytes}
    {key : DnssecKey} (legal : Legal question.name) (free : ∀ label ∈ question.name, 0 ∉ label)
    (behind : query.data.drop 12 = question.encode ++ rest) (dnssecOk : queryDnssecOk query = .ok true)
    (keyed : config.dnssec = some key) (ns : config.nsNames ≠ [])
    (inside : ∀ domain, parseQuery query = .ok (some domain) → isInZone domain config.glueName = .ok true) :
    ∃ records, Carries clock query config records ∧
      (records.All (LabelsRight question.name) ↔ ¬ SignsStar query config question) := by
  have nothing {property : Rr → Prop} : Queues.All property ⟨[], [], []⟩ := Queues.all_mk (by simp) (by simp) (by simp)
  obtain ⟨named, typed⟩ := qnameOf_question legal free behind
  by_cases read : opcode query = 0 ∧ ∃ domain, parseQuery query = .ok (some domain)
  · obtain ⟨standard, domain, parsed⟩ := read
    have tested : inZone domain config.glueName = true :=
      Except.ok.inj ((isInZone_config config domain).symm.trans (inside domain parsed))
    refine ⟨_, carries_of_reply clock (reply_of_question standard parsed typed config), ?_⟩
    rw [contentsOf, named]
    by_cases internet : question.qclass = 1
    · rw [internet]
      refine (replyTo_labels_iff clock legal (doBit_of_dnssecOk dnssecOk) keyed ns tested).trans (not_congr ?_)
      constructor
      · exact fun star => ⟨standard, internet, domain, parsed, star⟩
      · rintro ⟨_, _, other, parsed', star⟩
        obtain rfl : domain = other := by simpa [parsed] using parsed'
        exact star
    · have refused : replyTo config (paramsOf query.data config) (wire question.name) domain question.qtype question.qclass =
          .error rcodeRefused := if_pos internet
      rw [refused]
      exact iff_of_true nothing fun star => internet star.2.1
  · have unsigned : ¬ SignsStar query config question := by
      rintro ⟨standard, _, domain, parsed, _⟩
      exact read ⟨standard, domain, parsed⟩
    have unread : ¬ (opcode query = 0 ∧ ∃ domain qtype qclass, parseQuery query = .ok (some domain) ∧
        parseQtypeQclass query = .ok (some (qtype, qclass))) := by
      rintro ⟨standard, domain, _, _, parsed, _⟩
      exact read ⟨standard, domain, parsed⟩
    exact ⟨_, carries_nothing clock config unread, iff_of_true nothing unsigned⟩

theorem sampleLabels_right :
    ∃ records, Carries (fun _ => some 0) sampleQuery sampleSignedConfig records ∧
      (records.All (LabelsRight sampleQuestion.name) ↔ ¬ SignsStar sampleQuery sampleSignedConfig sampleQuestion) := by
  have dnssecOk : queryDnssecOk sampleQuery = .ok true := by decide +kernel
  have keyed : sampleSignedConfig.dnssec = some sampleKey := rfl
  have behind : sampleQuery.data.drop 12 = sampleQuestion.encode ++ [0, 0, 41, 4, 208, 0, 0, 128, 0, 0, 0] := by decide +kernel
  refine rrsigLabels_iff _ sampleQuery_standard.legal sampleQuery_standard.free behind dnssecOk keyed (by decide) ?_
  intro domain parsed
  have tested : (parseQuery sampleQuery).toOption.all fun read => read.all fun domain =>
      isInZone domain sampleSignedConfig.glueName = .ok true := by decide +kernel
  rw [parsed] at tested
  exact of_decide_eq_true tested

/-- An A query for `*.10-0-0-1.nip.nu` whose OPT record has the DO bit set. -/
def starQuery : Slice where
  data := [0, 7, 1, 0, 0, 1, 0, 0, 0, 0, 0, 1] ++
    [1, 42, 8, 49, 48, 45, 48, 45, 48, 45, 49, 3, 110, 105, 112, 2, 110, 117, 0] ++ be16 typeA ++ be16 classIn ++
    [0, 0, 41, 4, 208, 0, 0, 128, 0, 0, 0]
  length_le := by decide +kernel

/-- The signature of the address of `*.10-0-0-1.nip.nu` counts four labels. -/
theorem starQuery_mislabelled :
    ∃ response msg rr rrsig, handleQueryInternal (fun _ => some 0) starQuery sampleSignedConfig = .ok response ∧
      decode response = some msg ∧ rr ∈ msg.answers ∧ rr.rtype = typeRrsig ∧ readRrsig rr.rdata = some rrsig ∧
      rrsig.labels.toNat = 4 ∧ signedLabels rr.owner = 3 := by
  have found : ((handleQueryInternal (fun _ => some 0) starQuery sampleSignedConfig).toOption.bind decode).any fun msg =>
      msg.answers.any fun rr => rr.rtype == typeRrsig && (readRrsig rr.rdata).any fun rrsig =>
        decide (rrsig.labels.toNat = 4 ∧ signedLabels rr.owner = 3) := by decide +kernel
  cases returned : handleQueryInternal (fun _ => some 0) starQuery sampleSignedConfig with
  | error panic => rw [returned] at found; cases found
  | ok response =>
    rw [returned] at found
    obtain ⟨msg, decoded, found⟩ := (Option.any_eq_true ..).mp found
    obtain ⟨rr, member, found⟩ := List.any_eq_true.mp found
    rw [Bool.and_eq_true, beq_iff_eq] at found
    obtain ⟨rrsig, read, counts⟩ := (Option.any_eq_true ..).mp found.2
    exact ⟨response, msg, rr, rrsig, rfl, decoded, member, found.1, read, of_decide_eq_true counts⟩

end RustyAlias
