import RustyAlias.Proofs.Folding
import RustyAlias.Proofs.PrivateKey
import RustyAlias.Soundness.SignatureLabels
import RustyAlias.Soundness.SignatureTimes

/-! # The chain of trust

A validator that has the DS record of the zone authenticates the DNSKEY response of the server with it, and
with the key that it gets there every record of every response about a name in the zone, while the
signatures are in force.
-/

namespace RustyAlias

open Rust Rust.Outcome Dns

section Keys

/-- The sum of the source is the sum over 16-bit words. -/
theorem keyTag_words {rdata : Bytes} {ac n : ℕ} (even : n % 2 = 0) (small : ac + wordSum rdata < 2 ^ 32) :
    (rdata.zipIdx n).foldlM (fun ac (b, i) => uadd32 ac (if i % 2 = 0 then b.toNat * 256 else b.toNat)) ac =
      .ok (ac + wordSum rdata) := by
  induction rdata using wordSum.induct generalizing ac n with
  | case1 => rfl
  | case2 a =>
    have fits : ac + a.toNat * 256 < 2 ^ 32 := small
    rw [List.zipIdx_cons, List.foldlM_cons]
    change (uadd32 ac (if n % 2 = 0 then a.toNat * 256 else a.toNat) >>= _) = _
    rw [if_pos even, uadd32, if_pos fits, ok_bind]
    rfl
  | case3 a b rest ih =>
    have even' : (n + 1 + 1) % 2 = 0 := by rwa [Nat.add_assoc, Nat.add_mod_right]
    have odd : ¬ (n + 1) % 2 = 0 := by
      clear small
      omega
    rw [wordSum, ← Nat.add_assoc, ← Nat.add_assoc] at small
    have fits' : ac + a.toNat * 256 + b.toNat < 2 ^ 32 := (Nat.le_add_right _ _).trans_lt small
    have fits : ac + a.toNat * 256 < 2 ^ 32 := (Nat.le_add_right _ _).trans_lt fits'
    rw [List.zipIdx_cons, List.zipIdx_cons, List.foldlM_cons]
    change (uadd32 ac (if n % 2 = 0 then a.toNat * 256 else a.toNat) >>= _) = _
    rw [if_pos even, uadd32, if_pos fits, ok_bind, List.foldlM_cons]
    change (uadd32 (ac + a.toNat * 256) (if (n + 1) % 2 = 0 then b.toNat * 256 else b.toNat) >>= _) = _
    rw [if_neg odd, uadd32, if_pos fits', ok_bind, ih even' small, wordSum, Nat.add_assoc, Nat.add_assoc, Nat.add_assoc]

/-- A sum of words is below their number times 2^16. -/
theorem wordSum_le (rdata : Bytes) : wordSum rdata ≤ rdata.length * 65280 := by
  induction rdata using wordSum.induct with
  | case1 => exact Nat.zero_le _
  | case2 a =>
    have octet := a.toNat_lt
    rw [wordSum, List.length_singleton, Nat.one_mul]
    omega
  | case3 a b rest ih =>
    have first := a.toNat_lt
    have second := b.toNat_lt
    rw [wordSum, List.length_cons, List.length_cons, Nat.add_mul, Nat.add_mul, Nat.one_mul]
    omega

/-- What a key is made of. -/
theorem fromSigningKey_eq {signingKey : Crypto} {key : DnssecKey} (made : DnssecKey.fromSigningKey signingKey = .ok key) :
    key.crypto = signingKey ∧ key.keyTag = tagOf key.dnskeyRdata ∧
      key.dnskeyRdata = be16 257 ++ [3, ecdsaP256] ++ signingKey.publicKey.toList := by
  have length : (be16 dnskeyFlagsCsk ++ [dnskeyProtocol, algEcdsap256sha256] ++ signingKey.publicKey.toList).length = 68 := by
    simp
  obtain ⟨tag, tagged, made⟩ := bind_eq_ok_iff.mp made
  have bound := wordSum_le (be16 dnskeyFlagsCsk ++ [dnskeyProtocol, algEcdsap256sha256] ++ signingKey.publicKey.toList)
  rw [length] at bound
  cases made
  refine ⟨rfl, ?_, rfl⟩
  rw [RustyAlias.keyTag, keyTag_words rfl (by omega), ok_bind, Nat.zero_add, uadd32, if_pos (by omega),
    ok_bind, pure_eq_ok] at tagged
  exact (Except.ok.inj tagged).symm

end Keys

/-- The cryptography of the validator fits that of the server. -/
structure Fits (suite : Suite) (crypto : Crypto) : Prop where
  sha256 : suite.sha256 = crypto.sha256
  verify : ∀ octets, suite.verify crypto.publicKey.toList octets (crypto.sign octets).toList = true

/-- A zone that is signed with a key and whose names can be signed: no host name begins with `*`, the zone is no version
name, and `parse_ns_names` never leaves the nameservers empty. -/
structure SignedZone (config : Config) (key : DnssecKey) : Prop where
  made : DnssecKey.fromSigningKey key.crypto = .ok key
  keyed : config.dnssec = some key
  hosts : config.LegalHosts
  distinct : DistinctHosts config.nsNames
  ns : config.nsNames ≠ []
  unstarred : ∀ name ∈ config.glueName :: config.nsNames, ¬ Starred (hostLabels name)
  nonempty : trimmed config.glueName ≠ []
  plain : isVersionQuery (config.glueName.trimEndMatches dot) = false

/-- A well-formed query with the DO bit about a name in the zone. -/
structure SignedQuestion (config : Config) (query : Slice) (question : Question) : Prop where
  standard : StandardQuery query.data question
  dnssecOk : queryDnssecOk query = .ok true
  qclass : question.qclass = classIn
  suffix : fold (hostLabels config.glueName) <:+ fold question.name
  unstarred : ¬ Starred question.name

section Sections

variable {params : ZoneParams} {qname : Name} {key : DnssecKey}

/-- Every section that is written is signed. -/
theorem emitQueues_signed (readable : ∀ label ∈ qname, Readable label) (short : (wire qname).length ≤ 255)
    (hosts : params.LegalHosts) (signer : ∀ typ, typ ≠ typeRrsig → params.signer typ = some key) (clock : Clock)
    {queues : Queues} (setWise : queues.SetWise qname) (queued : queues.All (Queued params (wire qname))) :
    let written := emitQueues params (wire qname) clock queues
    SignedSection key.crypto.sign (written.answers.map (Rr.record qname)) ∧
      SignedSection key.crypto.sign (written.authority.map (Rr.record qname)) ∧
      SignedSection key.crypto.sign (written.additional.map (Rr.record qname)) :=
  ⟨emitSets_signed readable short hosts signer _ setWise.answers fun rr member => queued rr (by simp [member]),
    emitSets_signed readable short hosts signer _ setWise.authority fun rr member => queued rr (by simp [member]),
    emitSets_signed readable short hosts signer _ setWise.additional fun rr member => queued rr (by simp [member])⟩

private theorem rrsig_inForce {zone : Str} {now : UInt32} {reading : ClockReading} {owner : Name} {typ : UInt16} {ttl : UInt32}
    {signature : Bytes} (tag : key.keyTag = tagOf key.dnskeyRdata) (timely : Timely now reading) (legal : Legal owner)
    (unstarred : ¬ Starred owner) (inside : fold (hostLabels zone) <:+ fold owner) :
    (key.rrsig reading (UInt8.ofNat owner.length) typ ttl zone signature).InForce owner (hostLabels zone) now
      (tagOf key.dnskeyRdata) := by
  have few := legal.length_le
  constructor
  · simp [DnssecKey.rrsig]
  · exact inside
  · have octet : (UInt8.ofNat owner.length).toNat = owner.length := by
      rw [UInt8.toNat_ofNat', Nat.mod_eq_of_lt (by omega)]
    unfold Starred at unstarred
    rw [countedLabels, if_neg unstarred]
    exact octet
  · simp only [DnssecKey.rrsig]
    exact timely.1
  · simp only [DnssecKey.rrsig]
    exact timely.2
  · rfl
  · exact tag.symm

end Sections

section Responses

variable {config : Config} {key : DnssecKey} {query : Slice} {question : Question} {clock : Clock} {now : UInt32}

/-- The owners of queued records are names of the zone that can be signed. -/
theorem SignedZone.owners (zone : SignedZone config key) (asked : SignedQuestion config query question) {domain : Str}
    (spelled : domain.bytes = text question.name) {rr : Rr}
    (member : rr ∈ (replyTo config (paramsOf query.data config) (wire question.name) domain question.qtype
      question.qclass).queues.answers ++ (replyTo config (paramsOf query.data config) (wire question.name) domain question.qtype
      question.qclass).queues.authority ++ (replyTo config (paramsOf query.data config) (wire question.name) domain question.qtype
      question.qclass).queues.additional) :
    ¬ Starred (ownerName question.name rr.owner) ∧
      fold (hostLabels config.glueName) <:+ fold (ownerName question.name rr.owner) := by
  have nonempty : ∀ label ∈ question.name, label ≠ [] := by
    rintro label inside rfl
    exact absurd (asked.standard.legal.labels _ inside).1 (by simp)
  have inside := inZone_of_suffix spelled nonempty zone.nonempty asked.suffix
  have doBit := doBit_of_dnssecOk asked.dnssecOk
  have present : (paramsOf query.data config).dnssec.isSome = true := by
    change config.dnssec.isSome = true
    rw [zone.keyed]
    rfl
  have below : rr.Inside (paramsOf query.data config) := replyTo_queues_inside config domain question.qtype question.qclass rr member
  rw [asked.qclass] at member
  have owned := (replyTo_owns inside (paramsOf_sign doBit zone.keyed) present zone.ns).mp ⟨rr, member, rfl⟩
  constructor
  · rcases owned with owner | ⟨owner, _⟩ | ⟨_, _, name, known, owner⟩
    · rw [owner]
      exact asked.unstarred
    · rw [owner, ownerName, starred_fold]
      exact zone.unstarred _ (by simp [paramsOf, zoneParams])
    · rw [owner, ownerName, starred_fold]
      exact zone.unstarred name (List.mem_cons_of_mem _ known.1)
  · rcases below with owner | ⟨host, owner, below⟩
    · rw [owner]
      exact asked.suffix
    · rw [owner, ownerName, fold_fold]
      exact suffix_of_below zone.nonempty below

/-- The sections that are read from a message, the OPT record apart, are those that are written. -/
theorem message_additional {records : Queues} (optless : records.All fun rr => rr.typ ≠ typeOpt) (header : Header) (opt : Option Bool) :
    (message header question records opt).additional.filter (·.rtype ≠ optType) = records.additional.map (Rr.record question.name) := by
  rw [message, List.filter_append, List.filter_eq_self.mpr, List.filter_eq_nil_iff.mpr, List.append_nil]
  · intro r member
    obtain ⟨_, _, rfl⟩ := List.mem_map.mp member
    simp [optRecord, optType, typeOpt]
  · intro r member
    obtain ⟨rr, inside, rfl⟩ := List.mem_map.mp member
    exact decide_eq_true (optless rr (by simp [inside]))

/-- Every signature that is read is in force. -/
theorem SignedZone.inForce (zone : SignedZone config key) (asked : SignedQuestion config query question)
    (timely : clock.All (Timely now)) {domain : Str} (spelled : domain.bytes = text question.name) :
    (emitQueues (paramsOf query.data config) (wire question.name) clock (replyTo config (paramsOf query.data config)
      (wire question.name) domain question.qtype question.qclass).queues).All fun rr => rr.typ = typeRrsig → ∀ rrsig,
        readRrsig rr.rdata = some rrsig → rrsig.InForce (ownerName question.name rr.owner) (hostLabels config.glueName) now
          (tagOf key.dnskeyRdata) := by
  have standard := asked.standard
  have legal : (paramsOf query.data config).LegalHosts := zone.hosts
  have signer := paramsOf_signer (doBit_of_dnssecOk asked.dnssecOk) zone.keyed
  have queued : (replyTo config (paramsOf query.data config) (wire question.name) domain question.qtype
      question.qclass).queues.All (Queued (paramsOf query.data config) (wire question.name)) :=
    replyTo_queued config domain question.qtype question.qclass
  intro rr written signature rrsig read
  obtain ⟨head, there, key', reading, rdatas, made, signed, rfl⟩ :=
    emitQueues_readings timely (fun rr member => (queued rr member).typ_ne.1) rr written signature
  obtain rfl : key = key' := by
    rw [signer head.typ (queued head there).typ_ne.1] at signed
    exact Option.some.inj signed
  obtain ⟨wired, named⟩ := ownerWire_legible standard.readable standard.legal ((queued head there).legible legal standard.legal.total)
  obtain ⟨octets, read'⟩ := rrsigRr_reads wired named (legal (paramsOf query.data config).zone (by simp)) key reading rdatas
  obtain rfl := Option.some.inj (read'.symm.trans read)
  obtain ⟨unstarred, below⟩ := zone.owners asked spelled there
  exact rrsig_inForce (fromSigningKey_eq zone.made).2.1 made named unstarred below

/-- A validator with the key of the zone accepts every record of the message. -/
theorem SignedZone.secure {suite : Suite} (zone : SignedZone config key) (fits : Fits suite key.crypto)
    (asked : SignedQuestion config query question) (timely : clock.All (Timely now)) {domain : Str}
    (spelled : domain.bytes = text question.name) (header : Header) (opt : Option Bool) :
    (message header question (emitQueues (paramsOf query.data config) (wire question.name) clock (replyTo config
      (paramsOf query.data config) (wire question.name) domain question.qtype question.qclass).queues) opt).Secure suite
        (hostLabels config.glueName) now [key.dnskeyRdata] := by
  have standard := asked.standard
  have inForce := zone.inForce asked timely spelled
  have legal : (paramsOf query.data config).LegalHosts := zone.hosts
  have signer := paramsOf_signer (doBit_of_dnssecOk asked.dnssecOk) zone.keyed
  have setWise : (replyTo config (paramsOf query.data config) (wire question.name) domain question.qtype
      question.qclass).queues.SetWise question.name := replyTo_setWise config domain question.qtype question.qclass fun _ => zone.distinct
  have queued : (replyTo config (paramsOf query.data config) (wire question.name) domain question.qtype
      question.qclass).queues.All (Queued (paramsOf query.data config) (wire question.name)) :=
    replyTo_queued config domain question.qtype question.qclass
  obtain ⟨answers, authority, additional⟩ :=
    emitQueues_signed standard.readable standard.legal.total legal signer clock setWise queued
  have optless := emitQueues_typ_ne_opt queued clock
  generalize emitQueues (paramsOf query.data config) (wire question.name) clock _ = written at *
  have readKey : readDnskey key.dnskeyRdata = some ⟨257, 3, ecdsaP256, key.crypto.publicKey.toList⟩ := by
    rw [(fromSigningKey_eq zone.made).2.2]
    exact readDnskey_fields ..
  have section_ {rrs : List Rr} (signed : SignedSection key.crypto.sign (rrs.map (Rr.record question.name)))
      (sub : ∀ rr ∈ rrs, rr ∈ written.answers ++ written.authority ++ written.additional) :
      ∀ r ∈ rrs.map (Rr.record question.name), Dns.Secure suite (hostLabels config.glueName) now [key.dnskeyRdata]
        (rrs.map (Rr.record question.name)) r := by
    refine signed.secure readKey ⟨show (257 : UInt16).toNat.testBit 8 = true by decide, rfl⟩ rfl fits.verify ?_
    intro r member signature
    obtain ⟨rr, inside, rfl⟩ := List.mem_map.mp member
    exact ⟨rfl, inForce rr (sub rr inside) signature⟩
  intro records member
  rw [message_additional optless] at member
  simp only [List.mem_cons, List.not_mem_nil, or_false] at member
  rcases member with rfl | rfl | rfl
  · exact section_ answers fun rr member => by simp [member]
  · exact section_ authority fun rr member => by simp [member]
  · exact section_ additional fun rr member => by simp [member]

/-- The reply to a DNSKEY query about the zone. -/
theorem SignedZone.replyTo_dnskey (zone : SignedZone config key) (asked : SignedQuestion config query question)
    {domain : Str} (spelled : domain.bytes = text question.name) (apex : fold question.name = fold (hostLabels config.glueName))
    (dnskey : question.qtype = typeDnskey) :
    replyTo config (paramsOf query.data config) (wire question.name) domain question.qtype question.qclass =
      .authoritative (paramsOf query.data config) ⟨[dnskeyRr key], [], []⟩ := by
  have same : lowerAll domain.bytes = lowerAll (config.glueName.trimEndMatches dot).bytes := by
    change _ = lowerAll (trimmed config.glueName)
    rw [spelled, lowerAll_text, apex, ← lowerAll_text, text_hostLabels]
  have again : trimmed (config.glueName.trimEndMatches dot) = trimmed config.glueName := List.rdropWhile_idempotent ..
  have equal : namesEq domain config.glueName = true := by
    rw [namesEq_congr same]
    exact eqIgnoreCase_iff.mpr (congrArg lowerAll again)
  have version : isVersionQuery domain = false := (isVersionQuery_congr same).trans zone.plain
  have inside : inZone domain config.glueName = true := by
    rw [inZone_congr same]
    exact decide_eq_true ⟨zone.nonempty, .inl (congrArg lowerAll again)⟩
  have keyed : (paramsOf query.data config).dnssec = some key := zone.keyed
  rw [asked.qclass, dnskey, replyTo, if_neg (not_not.mpr (show classIn = 1 from rfl)), inside, version,
    dmarcOwner_of_apex equal zone.nonempty, equal]
  simp only [Bool.not_true, Bool.false_and, Bool.and_false, Bool.false_eq_true, if_false, if_true]
  rw [apexQueues, keyed]
  rfl

/-- A validator with the DS record takes the key from the DNSKEY response. -/
theorem SignedZone.authentic {suite : Suite} (zone : SignedZone config key) (fits : Fits suite key.crypto)
    (asked : SignedQuestion config query question) (timely : clock.All (Timely now)) {domain : Str}
    (spelled : domain.bytes = text question.name) (apex : fold question.name = fold (hostLabels config.glueName))
    (dnskey : question.qtype = typeDnskey) {ds : Ds} (anchor : readDs (key.dsRdata config.glueName) = some ds)
    (header : Header) (opt : Option Bool) :
    Authentic suite (hostLabels config.glueName) ds now [key.dnskeyRdata]
      (message header question (emitQueues (paramsOf query.data config) (wire question.name) clock (replyTo config
        (paramsOf query.data config) (wire question.name) domain question.qtype question.qclass).queues) opt).answers := by
  have secure := zone.secure fits asked timely spelled header opt
  obtain ⟨_, tag, rdata⟩ := fromSigningKey_eq zone.made
  have reply := zone.replyTo_dnskey asked spelled apex dnskey
  have answers : (message header question (emitQueues (paramsOf query.data config) (wire question.name) clock (replyTo config
      (paramsOf query.data config) (wire question.name) domain question.qtype question.qclass).queues) opt).answers =
      [(dnskeyRr key).record question.name, (rrsigRr (paramsOf query.data config) (wire question.name) key clock.head (dnskeyRr key)
        [(dnskeyRr key).rdata]).record question.name] := by
    rw [reply]
    change (emitQueues _ _ clock ⟨[dnskeyRr key], [], []⟩).answers.map _ = _
    rw [emitQueues_answer, paramsOf_signer (doBit_of_dnssecOk asked.dnssecOk) zone.keyed _ (by simp [dnskeyRr]; decide)]
    rfl
  have first := secure _ (List.mem_cons_self ..) ((dnskeyRr key).record question.name) (by rw [answers]; simp)
  rw [answers] at first ⊢
  have set : rrsetOf (fold (hostLabels config.glueName), dnskeyType)
      [(dnskeyRr key).record question.name, (rrsigRr (paramsOf query.data config) (wire question.name) key clock.head (dnskeyRr key)
        [(dnskeyRr key).rdata]).record question.name] = [(dnskeyRr key).record question.name] := by
    have here : ((dnskeyRr key).record question.name).key = (fold (hostLabels config.glueName), dnskeyType) := by
      rw [← apex]
      rfl
    have other : ((rrsigRr (paramsOf query.data config) (wire question.name) key clock.head (dnskeyRr key)
        [(dnskeyRr key).rdata]).record question.name).key ≠ (fold (hostLabels config.glueName), dnskeyType) := by
      intro same
      exact absurd (congrArg Prod.snd same) (show typeRrsig ≠ dnskeyType by decide)
    rw [rrsetOf, List.filter_cons_of_pos (by simpa using here), List.filter_cons_of_neg (by simpa using other), List.filter_nil]
  obtain ⟨sig, there, rrsig, _, known, k, verifies, covered⟩ := first
  obtain rfl := List.mem_singleton.mp known
  have keyed : (fold sig.owner, rrsig.typeCovered) = (fold (hostLabels config.glueName), dnskeyType) := by
    rcases covered with same | covered
    · have rtype := verifies.rtype
      rw [← same] at rtype
      exact absurd rtype (show typeDnskey ≠ rrsigType by decide)
    · rw [← covered, ← apex]
      rfl
  rw [keyed] at verifies
  refine ⟨by rw [set]; rfl, key.dnskeyRdata, List.mem_singleton_self _, sig, there, rrsig, k, verifies, ?_⟩
  rw [DnssecKey.dsRdata, readDs_fields] at anchor
  obtain rfl := Option.some.inj anchor
  refine ⟨tag, ?_, rfl, ?_⟩
  · rw [verifies.algorithm, verifies.supported]
    rfl
  · rw [fits.sha256, encodeDomainName_eq]

end Responses

/-- From the DS record of the zone, which the server publishes as CDS, a validator gets at the key of the zone, and with
it at every record of every response about a name in the zone, at every time for which the signatures are in force. -/
theorem chain_of_trust {config : Config} {key : DnssecKey} (zone : SignedZone config key) {suite : Suite}
    (fits : Fits suite key.crypto) :
    ∃ ds keys, readDs (key.dsRdata config.glueName) = some ds ∧
      ∀ {now : UInt32} {clock : Clock} {query : Slice} {question : Question}, clock.All (Timely now) →
        SignedQuestion config query question →
        ∃ response msg, handleQueryInternal clock query config = .ok response ∧ Holds response msg ∧
          msg.Secure suite (hostLabels config.glueName) now keys ∧
          (question.qtype = typeDnskey → fold question.name = fold (hostLabels config.glueName) →
            Authentic suite (hostLabels config.glueName) ds now keys msg.answers) := by
  obtain ⟨ds, anchor⟩ : ∃ ds, readDs (key.dsRdata config.glueName) = some ds := ⟨_, readDs_fields ..⟩
  refine ⟨ds, [key.dnskeyRdata], anchor, fun timely asked => ?_⟩
  obtain ⟨domain, spelled, _, answered⟩ := asked.standard.reply_eq config
  exact ⟨_, _, asked.standard.handleQueryInternal_eq answered _,
    holds_layout (asked.standard.replyHeader_qdcount ..) asked.standard.legal
      (asked.standard.emitQueues_legible zone.hosts domain _) _,
    zone.secure fits asked timely spelled _ _,
    fun dnskey apex => zone.authentic fits asked timely spelled apex dnskey anchor _ _⟩

/-- A validator for the signatures of the sample key. -/
def sampleSuite : Suite where
  sha256 := sampleKey.crypto.sha256
  verify publicKey octets signature :=
    publicKey == sampleKey.crypto.publicKey.toList && signature == (sampleKey.crypto.sign octets).toList

private theorem sampleSuite_fits : Fits sampleSuite sampleKey.crypto where
  sha256 := rfl
  verify octets := by simp [sampleSuite]

private theorem sampleZone_signed {key : DnssecKey} (made : DnssecKey.fromSigningKey sampleKey.crypto = .ok key) :
    SignedZone { sampleConfig with dnssec := some key } key where
  made := by rw [(fromSigningKey_eq made).1, made]
  keyed := rfl
  hosts := sampleConfig_legalHosts
  distinct := List.pairwise_singleton ..
  ns := List.cons_ne_nil _ _
  unstarred := show ∀ name ∈ sampleConfig.glueName :: sampleConfig.nsNames, ¬ Starred (hostLabels name) by decide +kernel
  nonempty := show trimmed sampleConfig.glueName ≠ [] by decide +kernel
  plain := show isVersionQuery (sampleConfig.glueName.trimEndMatches dot) = false by decide +kernel

private theorem sampleClock_timely : sampleClock.All (Timely 1700000060) := by
  intro n
  obtain ⟨t, read, ahead, behind⟩ := sampleClock_near n
  rw [read]
  refine (timely_iff t ahead behind).mpr ?_
  obtain rfl : (1700000000 : UInt64) = t := Option.some.inj read
  unfold InWindow
  decide

/-- A DNSKEY query about `nip.nu` with the DO bit. -/
def keyQuery : Slice where
  data := [0, 7, 1, 0, 0, 1, 0, 0, 0, 0, 0, 1] ++ [3, 110, 105, 112, 2, 110, 117, 0] ++ be16 typeDnskey ++ be16 classIn ++
    [0, 0, 41, 4, 208, 0, 0, 128, 0, 0, 0]
  length_le := by decide +kernel

def keyQuestion : Question := ⟨[[110, 105, 112], [110, 117]], typeDnskey, classIn⟩

private theorem keyQuery_standard : StandardQuery keyQuery.data keyQuestion where
  opcode := by decide +kernel
  qdcount := by decide +kernel
  octets := ⟨[0, 0, 41, 4, 208, 0, 0, 128, 0, 0, 0], by decide +kernel⟩
  legal := by decide +kernel
  nonempty := by decide
  utf8 := by decide +kernel
  free := by decide +kernel

/-- From the DS record over the DNSKEY response to the address of `10-0-0-1.nip.nu`. -/
theorem chain_of_trust_sample :
    ∃ key ds keys, DnssecKey.fromSigningKey sampleKey.crypto = .ok key ∧ readDs (key.dsRdata sampleConfig.glueName) = some ds ∧
      (∃ response msg, handleQueryInternal sampleClock keyQuery { sampleConfig with dnssec := some key } = .ok response ∧
        Holds response msg ∧ Authentic sampleSuite (hostLabels sampleConfig.glueName) ds 1700000060 keys msg.answers) ∧
      ∃ response msg, handleQueryInternal sampleClock sampleQuery { sampleConfig with dnssec := some key } = .ok response ∧
        Holds response msg ∧ msg.Secure sampleSuite (hostLabels sampleConfig.glueName) 1700000060 keys := by
  obtain ⟨key, made⟩ := fromSigningKey_returns sampleKey.crypto
  have fits : Fits sampleSuite key.crypto := by
    rw [(fromSigningKey_eq made).1]
    exact sampleSuite_fits
  obtain ⟨ds, keys, anchor, accepts⟩ := chain_of_trust (sampleZone_signed made) fits
  have asked : SignedQuestion { sampleConfig with dnssec := some key } sampleQuery sampleQuestion := {
    standard := sampleQuery_standard
    dnssecOk := by decide +kernel
    qclass := rfl
    suffix := show fold (hostLabels sampleConfig.glueName) <:+ fold sampleQuestion.name by decide +kernel
    unstarred := by decide }
  have first : SignedQuestion { sampleConfig with dnssec := some key } keyQuery keyQuestion := {
    standard := keyQuery_standard
    dnssecOk := by decide +kernel
    qclass := rfl
    suffix := show fold (hostLabels sampleConfig.glueName) <:+ fold keyQuestion.name by decide +kernel
    unstarred := by decide }
  have apex : fold keyQuestion.name = fold (hostLabels sampleConfig.glueName) := by decide +kernel
  obtain ⟨dnskeys, told, sent, held, _, authentic⟩ := accepts sampleClock_timely first
  obtain ⟨response, msg, answered, holds, secure, _⟩ := accepts sampleClock_timely asked
  exact ⟨key, ds, keys, made, anchor,
    ⟨dnskeys, told, sent, held, authentic rfl apex⟩, response, msg, answered, holds, secure⟩

end RustyAlias
